/-
  Stencil.Formatter.Command.Blocks
  ────────────────────────────────
  Inputs in blocks.

  `dd` copies some blocks of an input, `split` puts each part of it into a file
  of its own, and `truncate` gives files another length.
-/
import Stencil.Formatter.Command.Excerpt
import Stencil.Formatter.Command.Digest

namespace Stencil.Script

open Files (Tree)
open Text (Byte)

/-! ## §1. Copying blocks. -/

/-- The settings of `dd`, by their names. -/
abbrev Settings := List (String × String)

/-- A number with units, or a product of such numbers. -/
def blockNumber (text : String) : Except String Nat := do
  let units := 'c' :: 'w' :: 'B' :: commonUnits
  let factors ← (text.splitOn "x").mapM fun part =>
    match part.toList.reverse, readSize units part with
    | 'B' :: digits, _ =>
        if !digits.isEmpty && digits.all Char.isDigit then .ok (readDigits 10 digits.reverse).1
        else (readSize units part).mapError fun _ => "invalid number: " ++ quotedArg text
    | _, .ok n => .ok n
    | _, .error _ => .error ("invalid number: " ++ quotedArg text)
  return factors.foldl (· * ·) 1

/-- What `dd` is asked for. -/
structure BlockPlan where
  /-- The size of a block that is read. -/
  inSize : Nat
  /-- The size of a block that is written. -/
  outSize : Nat
  /-- How many bytes are passed. -/
  skip : Nat
  /-- How many bytes are read at most. -/
  most : Option Nat
  /-- How many bytes of the output stay. -/
  seek : Nat
  /-- What is done to the bytes. -/
  conversions : List String

/-- The settings there are. -/
def blockSettings : List String :=
  ["bs", "cbs", "conv", "count", "ibs", "if", "iflag", "obs", "of", "oflag", "seek", "skip",
   "status"]

/-- The conversions there are. -/
def blockConversions : List String :=
  ["ascii", "ebcdic", "ibm", "block", "unblock", "lcase", "ucase", "sparse", "swab", "sync", "excl",
   "nocreat", "notrunc", "noerror", "fdatasync", "fsync"]

/-- Read settings; a fault with advice is told by the flag. -/
def readSettings (args : List String) : Except (Bool × String) Settings :=
  (args.filter (· ≠ "--")).mapM fun arg =>
    let name := String.ofList (arg.toList.takeWhile (· != '='))
    let value := String.ofList (arg.toList.drop (name.length + 1))
    if name = arg || !blockSettings.contains name then
      .error (true, "unrecognized operand " ++ quotedArg arg)
    else if name = "status" && !(["none", "noxfer", "progress"].contains value) then
      .error (true, "invalid status level: " ++ quotedArg value)
    else
      match (value.splitOn ",").find? fun word =>
          name = "conv" && !blockConversions.contains word with
      | some word => .error (true, "invalid conversion: " ++ quotedArg word)
      | none => .ok (name, value)

/-- What settings ask for. -/
def BlockPlan.ofSettings (s : Settings) : Except String BlockPlan := do
  let last (name : String) : Option String := s.reverse.lookup name
  let number (name : String) (other : Nat) : Except String Nat :=
    ((last name).map blockNumber).getD (.ok other)
  let size (names : List String) : Except String Nat := do
    let n ← number ((names.find? fun n => (last n).isSome).getD "") 512
    if n = 0 then throw "invalid number: '0'" else return n
  let inSize ← size ["bs", "ibs"]
  let outSize ← size ["bs", "obs"]
  let flags := ((last "iflag").getD "").splitOn ","
  let inBytes (name flag : String) : Bool :=
    flags.contains flag || ((last name).map fun text => text.endsWith "B").getD false
  let skip ← number "skip" 0
  let seek ← number "seek" 0
  let count ← match last "count" with
    | some text => (blockNumber text).map some
    | none => .ok none
  return {
    inSize, outSize
    skip := if inBytes "skip" "skip_bytes" then skip else skip * inSize
    most := count.map fun n => if inBytes "count" "count_bytes" then n else n * inSize
    seek := seek * outSize
    conversions := ((last "conv").getD "").splitOn "," }

/-- Bytes with each two of them exchanged. -/
def swapPairs : List Byte → List Byte
  | a :: b :: rest => b :: a :: swapPairs rest
  | rest => rest

/-- Bytes as the conversions ask for them. -/
def BlockPlan.convert (p : BlockPlan) (bytes : List Byte) : List Byte :=
  let bytes := if p.conversions.contains "swab" then swapPairs bytes else bytes
  if p.conversions.contains "ucase" then
    bytes.map fun b => if 97 ≤ b && b ≤ 122 then b - 32 else b
  else if p.conversions.contains "lcase" then
    bytes.map fun b => if 65 ≤ b && b ≤ 90 then b + 32 else b
  else bytes

/-- How many blocks of a size there are: whole ones, and one that is not. -/
def recordCount (size length : Nat) : String :=
  toString (length / size) ++ "+" ++ (if length % size = 0 then "0" else "1")

/-- Copy blocks of an input. -/
def dd : Command := fun c =>
  match readSettings c.args with
  | .error (true, message) => c.misuse 1 message
  | .error (false, message) => c.fail 1 message
  | .ok s => c.orFail 1 do
      let p ← BlockPlan.ofSettings s
      let source := (s.reverse.lookup "if").getD "-"
      let bytes ← match c.read source with
        | .ok bytes => .ok bytes
        | .error failure => .error ("failed to open " ++ quotedArg source ++ ": " ++ failure.text)
      let rest := bytes.drop p.skip
      let taken := p.most.elim rest rest.take
      let left := if Call.isInput source then rest.drop taken.length else c.input
      let output := p.convert taken
      let report := if s.reverse.lookup "status" = some "none" then []
        else [(Channel.errors, bytesOf (recordCount p.inSize taken.length ++ " records in\n"
          ++ recordCount p.outSize output.length ++ " records out\n"))]
      match s.reverse.lookup "of" with
      | none => return ⟨0, (.output, output) :: report, left, c.tree⟩
      | some target =>
          let before := (c.read target).toOption.getD []
          let kept := before.take p.seek ++ List.replicate (p.seek - before.length) 0
          let behind := if p.conversions.contains "notrunc" then
              before.drop (p.seek + output.length) else []
          match c.store c.tree target (kept ++ output ++ behind) with
          | .ok tree => return ⟨0, report, left, tree⟩
          | .error failure =>
              throw ("failed to open " ++ quotedArg target ++ ": " ++ failure.text)

/-! ## §2. Parts in files of their own. -/

/-- The options of `split`. -/
def splitOptions : List Known :=
  [valued "a" "suffix-length", valued "" "additional-suffix", valued "b" "bytes",
   valued "C" "line-bytes", flag "d" "", optional "" "numeric-suffixes", flag "x" "",
   optional "" "hex-suffixes", flag "e" "elide-empty-files", valued "l" "lines",
   valued "n" "number", valued "t" "separator", flag "u" "unbuffered", flag "" "verbose"]

/-- The suffix with a number, in so many letters of an alphabet. -/
def suffixText (letters : List Char) : Nat → Nat → String
  | 0, _ => ""
  | count + 1, n =>
      suffixText letters count (n / letters.length)
        ++ ((letters[n % letters.length]?).getD 'a').toString

/-- Lines in groups. -/
def lineGroups (size : Nat) : Nat → List (List Byte) → List (List Byte)
  | 0, _ | _, [] => []
  | fuel + 1, lines => (lines.take size).flatten :: lineGroups size fuel (lines.drop size)

/-- The parts of an input. -/
def splitParts (o : Options) (bytes : List Byte) : Except String (List (List Byte)) := do
  let positive (what text : String) : Except String Nat :=
    match readSize commonUnits text with
    | .ok n =>
        if n = 0 then .error ("invalid number of " ++ what ++ ": " ++ quotedArg text) else .ok n
    | .error fault => .error (fault.message ("invalid number of " ++ what) text)
  match o.last? ["b", "l", "n"] with
  | some ("b", text) =>
      let size ← positive "bytes" text
      return byteGroups size (bytes.length + 1) bytes
  | some ("n", text) =>
      let count ← positive "chunks" text
      let size := bytes.length / count
      let extra := bytes.length % count
      return (List.range count).map fun i =>
        (bytes.drop (i * size + min i extra)).take (size + if i < extra then 1 else 0)
  | found =>
      let count ← positive "lines" ((found.map Prod.snd).getD "1000")
      let lines := piecesBy lineFeed bytes
      return lineGroups count (lines.length + 1) lines

/-- Put the parts of an input into files. -/
def split : Command :=
  withOptions splitOptions 1 fun o c =>
    match o.operands with
    | _ :: _ :: extra :: _ => c.misuse 1 ("extra operand " ++ quotedArg extra)
    | names => c.orFail 1 do
        let source := names.headD "-"
        let front := (names[1]?).getD "x"
        let bytes ← match c.read source with
          | .ok bytes => .ok bytes
          | .error .isDirectory => .error (source ++ ": Is a directory")
          | .error failure =>
              .error ("cannot open " ++ quotedArg source ++ " for reading: " ++ failure.text)
        let parts ← splitParts o bytes
        let letters := if o.has "d" || o.has "numeric-suffixes" then "0123456789".toList
          else if o.has "x" || o.has "hex-suffixes" then "0123456789abcdef".toList
          else "abcdefghijklmnopqrstuvwxyz".toList
        let length := ((o.value? "a").map numberOf).getD 2
        let behind := (o.value? "additional-suffix").getD ""
        let named := parts.zipIdx.map fun (part, i) =>
          (front ++ suffixText letters length i ++ behind, part)
        if Nat.pow letters.length length < parts.length then throw "output file suffixes exhausted"
        let tree ← named.foldlM
          (fun tree (name, part) =>
            (c.store tree name part).mapError fun failure => name ++ ": " ++ failure.text)
          c.tree
        let told := if o.has "verbose" then
            named.map fun (name, _) =>
              (Channel.output, bytesOf ("creating file " ++ quotedArg name ++ "\n"))
          else []
        return ⟨0, told, c.leftOver [source], tree⟩

/-! ## §3. Lengths. -/

/-- A length as it is asked for, from the length there is. -/
def newLength (text : String) (length : Nat) : Except String Nat :=
  let (sign, digits) := match text.toList with
    | c :: rest => if "+-<>/%".toList.contains c then (some c, String.ofList rest) else (none, text)
    | [] => (none, text)
  match readSize commonUnits digits with
  | .error fault => .error (fault.message "Invalid number" text)
  | .ok n =>
      match sign with
      | none => .ok n
      | some '+' => .ok (length + n)
      | some '-' => .ok (length - n)
      | some '<' => .ok (min length n)
      | some '>' => .ok (max length n)
      | some '/' => if n = 0 then .error "division by zero" else .ok (length / n * n)
      | some _ => if n = 0 then .error "division by zero" else .ok ((length + n - 1) / n * n)

/-- Give files another length. -/
def truncate : Command :=
  let known := [flag "c" "no-create", flag "o" "io-blocks", valued "r" "reference",
    valued "s" "size"]
  withOptions known 1 fun o c =>
    match o.value? "s", o.value? "r", o.operands with
    | none, none, _ => c.misuse 1 "you must specify either '--size' or '--reference'"
    | _, _, [] => c.misuse 1 "missing file operand"
    | size, reference, names => c.orFail 1 do
        let base ← match reference with
          | none => .ok none
          | some name =>
              match c.read name with
              | .ok bytes => .ok (some bytes.length)
              | .error failure =>
                  .error ("cannot stat " ++ quotedArg name ++ ": " ++ failure.text)
        let _ ← newLength (size.getD "0") 0
        let step (state : Tree × List (Channel × List Byte)) (name : String) :
            Except String (Tree × List (Channel × List Byte)) := do
          let (tree, messages) := state
          let failed (failure : Files.Failure) : Tree × List (Channel × List Byte) :=
            (tree, messages ++ [(.errors, c.complaint ("cannot open " ++ quotedArg name
              ++ " for writing: " ++ failure.text))])
          match ({ c with tree } : Call).read name with
          | .error .isDirectory => return failed .isDirectory
          | found =>
              if !found.isOk && o.has "c" then return state
              else
                let bytes := found.toOption.getD []
                let length ← newLength (size.getD "+0") (base.getD bytes.length)
                let filled := bytes.take length ++ List.replicate (length - bytes.length) 0
                match c.store tree name filled with
                | .ok tree => return (tree, messages)
                | .error failure => return failed failure
        let (tree, messages) ← names.foldlM step (c.tree, [])
        return ⟨if messages.isEmpty then 0 else 1, messages, c.input, tree⟩

end Stencil.Script
