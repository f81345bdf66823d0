/-
  Stencil.Formatter.Command.Dump
  ──────────────────────────────
  Inputs byte by byte.

  `od` shows bytes as characters or numbers, one row of them after the other.
  A row may be shown in several ways, one line for each; what stands for the
  same bytes stands below each other.
-/
import Stencil.Formatter.Command.Amount
import Stencil.Formatter.Command.Digest

namespace Stencil.Script

open Text (Byte)

/-! ## §1. Ways to show bytes. -/

/-- How bytes are shown. -/
structure DumpFormat where
  /-- How many bytes make one item. -/
  size : Nat
  /-- How many columns it takes at least. -/
  width : Nat
  /-- Its text. -/
  shown : List Byte → String
  /-- Are the bytes shown again as text behind the row? -/
  trailer : Bool

/-- A number in a base, with zeros before it. -/
def inBase (base digits n : Nat) : String :=
  let text := Nat.toDigits base n
  String.ofList (List.replicate (digits - text.length) '0' ++ text)

/-- A number whose highest bit stands for the sign. -/
def signedText (bits n : Nat) : String :=
  if n < Nat.pow 2 (bits - 1) then toString n else "-" ++ toString (Nat.pow 2 bits - n)

/-- The names of the bytes that are no visible characters, from zero on. -/
def controlNames : List String :=
  ["nul", "soh", "stx", "etx", "eot", "enq", "ack", "bel", "bs", "ht", "nl", "vt", "ff", "cr", "so",
   "si", "dle", "dc1", "dc2", "dc3", "dc4", "nak", "syn", "etb", "can", "em", "sub", "esc", "fs",
   "gs", "rs", "us", "sp"]

/-- A byte by its name; its highest bit does not count. -/
def byteName (b : Byte) : String :=
  let n := b.toNat % 128
  if n = 127 then "del" else (controlNames[n]?).getD (textOf [UInt8.ofNat n])

/-- A byte as a character, or as octal digits where there is none. -/
def byteShown (b : Byte) : String :=
  match [(0, "\\0"), (7, "\\a"), (8, "\\b"), (9, "\\t"), (10, "\\n"), (11, "\\v"), (12, "\\f"),
      (13, "\\r")].lookup b.toNat with
  | some text => text
  | none => if 32 ≤ b && b ≤ 126 then textOf [b] else inBase 8 3 b.toNat

/-- The columns that numbers of a size take, by the letter of their kind. -/
def numberWidth (kind : Char) (size : Nat) : Nat :=
  let widths := match kind with
    | 'd' => [4, 6, 11, 20]
    | 'u' => [3, 5, 10, 20]
    | 'o' => [3, 6, 11, 22]
    | _ => [2, 4, 8, 16]
  (widths[Nat.log2 size]?).getD 0

/-- The text of a number, by the letter of its kind. -/
def numberShown (kind : Char) (size n : Nat) : String :=
  match kind with
  | 'd' => signedText (8 * size) n
  | 'u' => toString n
  | 'o' => inBase 8 (numberWidth 'o' size) n
  | _ => inBase 16 (numberWidth 'x' size) n

/-- Numbers of so many bytes, the lowest of them first or last. -/
def DumpFormat.numbers (lowLast : Bool) (kind : Char) (size : Nat) : DumpFormat :=
  ⟨size, numberWidth kind size, fun bytes =>
    let filled := bytes ++ List.replicate (size - bytes.length) 0
    numberShown kind size (fromLowFirst (if lowLast then filled.reverse else filled)), false⟩

/-- The size of numbers at the start of a text, and what is behind it; without a
size they have four bytes. -/
def numberSize (cs : List Char) : Nat × List Char :=
  match cs with
  | 'C' :: rest => (1, rest)
  | 'S' :: rest => (2, rest)
  | 'I' :: rest => (4, rest)
  | 'L' :: rest => (8, rest)
  | cs =>
      let digits := cs.takeWhile Char.isDigit
      if digits.isEmpty then (4, cs) else ((readDigits 10 digits).1, cs.drop digits.length)

/-- The formats that a text asks for. -/
def dumpFormats (lowLast : Bool) (text : String) :
    Nat → List Char → Except String (List DumpFormat)
  | 0, _ | _, [] => .ok []
  | fuel + 1, c :: cs => do
      let (format, rest) ← match c with
        | 'a' => .ok (⟨1, 3, fun bytes => byteName (bytes.headD 0), false⟩, cs)
        | 'c' => .ok (⟨1, 3, fun bytes => byteShown (bytes.headD 0), false⟩, cs)
        | 'd' | 'o' | 'u' | 'x' =>
            let (size, rest) := numberSize cs
            if [1, 2, 4, 8].contains size then .ok (DumpFormat.numbers lowLast c size, rest)
            else if largestNumber < size then .error ("invalid type string " ++ quotedArg text)
            else .error ("invalid type string " ++ quotedArg text
              ++ ";\nthis system doesn't provide a " ++ toString size ++ "-byte integral type")
        | c => .error ("invalid character " ++ quotedArg c.toString ++ " in type string "
            ++ quotedArg text)
      match rest with
      | 'z' :: rest =>
          return { format with trailer := true } :: (← dumpFormats lowLast text fuel rest)
      | rest => return format :: (← dumpFormats lowLast text fuel rest)

/-- The letters that are short for types. -/
def shortTypes : List (String × String) :=
  [("a", "a"), ("b", "o1"), ("c", "c"), ("D", "u4"), ("d", "u2"), ("H", "x4"), ("X", "x4"),
   ("h", "x2"), ("x", "x2"), ("I", "d8"), ("L", "d8"), ("l", "d8"), ("i", "d4"), ("O", "o4"),
   ("o", "o2"), ("B", "o2"), ("s", "d2")]

/-! ## §2. Rows. -/

/-- How rows are laid out. -/
structure DumpLayout where
  /-- The formats, each of which gives a line. -/
  formats : List DumpFormat
  /-- How many bytes are in a row. -/
  bytes : Nat
  /-- The text of an address. -/
  address : Nat → String
  /-- Are rows shown that repeat? -/
  all : Bool

/-- The columns of the widest line. -/
def DumpLayout.width (l : DumpLayout) : Nat :=
  (l.formats.map fun f => (f.width + 1) * (l.bytes / f.size)).foldl max 0

/-- The items of a line, with blanks before them so that the line gets the width of the
widest one.  What is left of the blanks is spread over the items that are left. -/
def DumpLayout.items (l : DumpLayout) (f : DumpFormat) (pad : Nat) :
    Nat → (left : Nat) → List (List Byte) → String
  | _, _, [] => ""
  | i, left, group :: groups =>
      let next := pad * (i - 1) / (l.bytes / f.size)
      rightAligned (left - next + f.width) (f.shown group) ++ l.items f pad (i - 1) next groups

/-- One line of a row. -/
def DumpLayout.line (l : DumpLayout) (f : DumpFormat) (row : List Byte) : String :=
  let fields := l.bytes / f.size
  let pad := l.width - fields * f.width
  let shown := l.items f pad fields pad (byteGroups f.size (row.length + 1) row)
  if f.trailer then
    let empty := (l.bytes - row.length) / f.size
    let visible := row.map fun b => if 32 ≤ b && b ≤ 126 then b else 0x2e
    shown ++ String.ofList (List.replicate (empty * f.width + pad * empty / fields) ' ') ++ "  >"
      ++ textOf visible ++ "<"
  else shown

/-- Rows with their addresses; a star stands for rows that repeat. -/
def DumpLayout.rows (l : DumpLayout) :
    Nat → (place : Nat) → (before : Option (List Byte)) → (starred : Bool) → List Byte → String
  | 0, _, _, _, _ => ""
  | n + 1, place, before, starred, bytes =>
      let row := bytes.take l.bytes
      if row.isEmpty then
        if l.address place = "" then "" else l.address place ++ "\n"
      else if !l.all && before = some row && row.length = l.bytes then
        (if starred then "" else "*\n")
          ++ l.rows n (place + l.bytes) before true (bytes.drop l.bytes)
      else
        let lines := l.formats.zipIdx.map fun (f, i) =>
          let mark := if i = 0 then l.address place
            else String.ofList (List.replicate (l.address place).length ' ')
          mark ++ l.line f row ++ "\n"
        String.join lines ++ l.rows n (place + row.length) (some row) false (bytes.drop l.bytes)

/-! ## §3. The command. -/

/-- The text of addresses by the letter of their base. -/
def addressText (radix : String) : Except String (Nat → String) :=
  match radix.toList.head? with
  | some 'o' => .ok (inBase 8 7)
  | some 'd' => .ok (inBase 10 7)
  | some 'x' => .ok (inBase 16 6)
  | some 'n' => .ok (fun _ => "")
  | letter => .error ("invalid output address radix '" ++ (letter.elim "" Char.toString)
      ++ "'; it must be one character from [doxn]")

/-- A number of bytes as the value of an option; it may be octal or hexadecimal. -/
def dumpNumber (o : Options) (name : String) : Except String (Option Nat) :=
  match o.value? name with
  | none => .ok none
  | some text =>
      match text.toList with
      | '0' :: 'x' :: digits => .ok (some (readDigits 16 digits).1)
      | '0' :: d :: digits => .ok (some (readDigits 8 (d :: digits)).1)
      | cs =>
          match readSize commonUnits text with
          | .ok n => .ok (some n)
          | .error _ =>
              let what := if (cs.head?.map Char.isDigit).getD false then "invalid suffix in -"
                else "invalid -"
              .error (what ++ name ++ " argument " ++ quotedArg text)

/-- How options ask for rows to be laid out, and a warning about the width. -/
def DumpLayout.ofOptions (o : Options) : Except String (DumpLayout × Option String) := do
  let address ← addressText ((o.value? "A").getD "o")
  let order ← match o.value? "endian" with
    | none => .ok "little"
    | some text =>
        (chooseWord "--endian" text [["little"], ["big"]]).mapError
          (· ++ "\nTry 'od --help' for more information.")
  let asked ← o.flags.mapM fun (name, value) =>
    let text := if name = "t" then value else (shortTypes.lookup name).getD ""
    dumpFormats (order == "big") text (text.length + 1) text.toList
  let formats := match asked.flatten with
    | [] => [DumpFormat.numbers (order == "big") 'o' 2]
    | formats => formats
  let common := (formats.map DumpFormat.size).foldl Nat.lcm 1
  let width ← if o.value? "w" = some "" then .ok (some 32) else dumpNumber o "w"
  match width with
  | none => return (⟨formats, 16, address, o.has "v"⟩, none)
  | some n =>
      if n = 0 || n % common ≠ 0 then
        return (⟨formats, common, address, o.has "v"⟩,
          some ("warning: invalid width " ++ toString n ++ "; using " ++ toString common
            ++ " instead"))
      else return (⟨formats, n, address, o.has "v"⟩, none)

/-- The options of `od`. -/
def odOptions : List Known :=
  [valued "A" "address-radix", valued "j" "skip-bytes", valued "N" "read-bytes",
   valued "t" "format", flag "v" "output-duplicates", optional "w" "width", valued "" "endian"]
    ++ shortTypes.map fun (letter, _) => flag letter ""

/-- Show the bytes of an input. -/
def od : Command :=
  withOptions odOptions 1 fun o c => c.orFail 1 do
    let (layout, warning) ← DumpLayout.ofOptions o
    let start := (← dumpNumber o "j").getD 0
    let most ← dumpNumber o "N"
    let warnings := warning.toList.map fun w => (Channel.errors, c.complaint w)
    let readable := (c.contents o.operands).any fun (_, content) => content.isOk
    let r := c.together o.operands fun bytes =>
      let bytes := bytes.drop start
      let bytes := most.elim bytes bytes.take
      if !readable then []
      else bytesOf (layout.rows (bytes.length + 1) start none false bytes)
    let size := (c.contents o.operands).foldl (fun n (_, content) =>
      n + (content.toOption.getD []).length) 0
    if readable && size < start then
      let messages := r.written.filter fun (channel, _) => channel = .errors
      return { r with
        status := 1
        written := warnings ++ messages
          ++ [(.errors, c.complaint "cannot skip past end of combined input")] }
    else return { r with written := warnings ++ r.written }

end Stencil.Script
