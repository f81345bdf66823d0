/-
  Stencil.Formatter.Command.Count
  ───────────────────────────────
  Counting.

  `wc` counts lines, words and bytes, and `seq` counts on its own, in decimal
  numbers that are exact.
-/
import Stencil.Formatter.Command.Order

namespace Stencil.Script

open Text (Byte)

/-! ## §1. Counting what is there. -/

/-- The number of words in an input: blanks separate them, and each holds a
character that can be seen. -/
def wordCount (inWord : Bool) : List Byte → Nat
  | [] => 0
  | b :: rest =>
      if b = 32 || (9 ≤ b && b ≤ 13) then wordCount false rest
      else if 33 ≤ b && b ≤ 126 then (if inWord then 0 else 1) + wordCount true rest
      else wordCount inWord rest

/-- The columns that the widest stretch of an input takes between ends of lines;
`width` and `most` are those of the last one and of the widest one so far. -/
def widestLine (width most : Nat) : List Byte → Nat
  | [] => max width most
  | b :: rest =>
      if b = lineFeed || b = 13 || b = 12 then widestLine 0 (max width most) rest
      else if b = 9 then widestLine (width + 8 - width % 8) most rest
      else widestLine (if 32 ≤ b && b ≤ 126 then width + 1 else width) most rest

/-- The counts that letters ask for: lines, words, characters, bytes, the widest
line. -/
def countsOf (letters : List Char) (bytes : List Byte) : List Nat :=
  let asked (c : Char) : Bool := letters.contains c
  let all := !"lwcmL".toList.any asked
  (if all || asked 'l' then [bytes.count lineFeed] else [])
    ++ (if all || asked 'w' then [wordCount false bytes] else [])
    ++ (if asked 'm' then [bytes.length] else [])
    ++ (if all || asked 'c' then [bytes.length] else [])
    ++ (if asked 'L' then [widestLine 0 0 bytes] else [])

/-- The sums of two rows of counts; of the widest lines the wider one. -/
def addCounts (letters : List Char) (a b : List Nat) : List Nat :=
  let sums := List.zipWith (· + ·) a b
  if letters.contains 'L' then sums.dropLast ++ [max (a.getLastD 0) (b.getLastD 0)] else sums

/-- The options of `wc`. -/
def wcOptions : List Known :=
  [flag "c" "bytes", flag "m" "chars", flag "l" "lines", valued "" "files0-from",
   flag "L" "max-line-length", flag "w" "words", valued "" "total"]

/-- Count lines, words and bytes. -/
def wc : Command :=
  withOptions wcOptions 1 fun o c =>
    let letters := o.flags.flatMap fun (n, _) => if n.length = 1 then n.toList else []
    let when : Except String String := match o.value? "total" with
      | none => .ok "auto"
      | some text => chooseWord "--total" text [["auto"], ["always"], ["only"], ["never"]]
    match when with
    | .error message => c.misuse 1 message
    | .ok when =>
        let found := c.contents o.operands
        let counts (bytes : List Byte) : List Nat := countsOf letters bytes
        let sums := (found.map fun (_, content) => counts (content.toOption.getD [])).foldl
          (addCounts letters) (counts [])
        let irregular := found.any fun (name, content) =>
          (Call.isInput name && !c.fromFile)
            || (match content with
              | .error failure => failure == .isDirectory
              | .ok _ => false)
        let sizes := found.filterMap fun (_, content) => content.toOption.map List.length
        let width := if (counts []).length = 1 && found.length = 1 then 1
          else if when = "only" then 1
          else max (if irregular then 7 else 1) (toString (sizes.foldl (· + ·) 0)).length
        let line (numbers : List Nat) (name : String) : List Byte :=
          bytesOf (" ".intercalate (numbers.map fun n => rightAligned width (toString n))
            ++ (if name = "" then "" else " " ++ name) ++ "\n")
        let row (name : String) (bytes : List Byte) : List Byte :=
          if when = "only" then []
          else line (counts bytes) (if o.operands.isEmpty then "" else name)
        let written := found.flatMap fun (name, content) =>
          match content with
          | .ok bytes => [(Channel.output, row name bytes)]
          | .error failure =>
              (.errors, c.complaint (Call.plainTrouble name failure))
                :: (if failure = .isDirectory then [(.output, row name [])] else [])
        let totals := when = "always" || when = "only" || (when = "auto" && 1 < found.length)
        let last := if !totals then []
          else [(Channel.output, line sums (if when = "only" then "" else "total"))]
        ⟨if found.all fun (_, content) => content.isOk then 0 else 1, written ++ last,
          c.leftOver o.operands, c.tree⟩

/-! ## §2. Counting on. -/

/-- A decimal number: a whole number of units of some decimal place. -/
structure Exact where
  /-- Is there a minus before it? -/
  negative : Bool
  /-- Its size, in units. -/
  units : Nat
  /-- How many places it is written with. -/
  places : Nat
  /-- How many columns it was written in. -/
  width : Nat
  deriving Repr, DecidableEq

namespace Exact

/-- The units of a number in a finer unit. -/
def inPlaces (x : Exact) (places : Nat) : Int :=
  let n : Int := (x.units * Nat.pow 10 (places - x.places) : Nat)
  if x.negative then -n else n

/-- A number as it is written: with a point, an exponent, or in hexadecimal
digits. -/
def ofText? (text : String) : Option Exact :=
  let cs := text.toList.dropWhile (· == ' ')
  let (negative, cs) := match cs with
    | '-' :: rest => (true, rest)
    | '+' :: rest => (false, rest)
    | rest => (false, rest)
  let hexadecimal := match cs with
    | '0' :: x :: rest =>
        if (x = 'x' || x = 'X') && (readDigits 16 rest).2 then some (readDigits 16 rest).1 else none
    | _ => none
  match hexadecimal with
  | some n => some ⟨negative, n, 0, text.length⟩
  | none =>
      let whole := cs.takeWhile Char.isDigit
      let rest := cs.drop whole.length
      let (fraction, rest) := match rest with
        | '.' :: rest =>
            let digits := rest.takeWhile Char.isDigit
            (digits, rest.drop digits.length)
        | rest => ([], rest)
      let exponent : Option Int := match rest with
        | [] => some 0
        | e :: rest =>
            if e = 'e' || e = 'E' then
              match rest with
              | '-' :: digits =>
                  let (n, all) := readDigits 10 digits
                  if all then some (-(n : Int)) else none
              | '+' :: digits | digits =>
                  let (n, all) := readDigits 10 digits
                  if all then some n else none
            else none
      match exponent with
      | none => none
      | some e =>
          if whole.isEmpty && fraction.isEmpty then none
          else
            let n := (readDigits 10 (whole ++ fraction)).1
            let places : Int := fraction.length - e
            let columns := (if negative then 1 else 0) + max 1 whole.length
              + (if fraction.isEmpty then 0 else 1 + fraction.length)
            if 0 ≤ places then some ⟨negative, n, places.toNat, columns⟩
            else some ⟨negative, n * Nat.pow 10 (-places).toNat, 0, columns + (-places).toNat⟩

end Exact

/-- Numbers from one to another with a step between them. -/
def countUp (first step last : Int) : Nat → List Int
  | 0 => []
  | fuel + 1 =>
      if (0 ≤ step && last < first) || (step < 0 && first < last) then []
      else first :: countUp (first + step) step last fuel

/-- A number of units of a decimal place, with zeros before it. -/
def placesText (places width : Nat) (negative : Bool) (n : Int) : String :=
  let digits := Nat.toDigits 10 n.natAbs
  let digits := List.replicate (places + 1 - digits.length) '0' ++ digits
  let whole := digits.take (digits.length - places)
  let fraction := if places = 0 then [] else '.' :: digits.drop (digits.length - places)
  let sign := if n < 0 || negative then ['-'] else []
  let body := whole ++ fraction
  String.ofList (sign ++ List.replicate (width - sign.length - body.length) '0' ++ body)

/-- A format for numbers: what comes before the directive, the directive, and
what comes behind it. -/
def numberFormat? (text : String) : Except String (List Byte × Directive × List Byte) :=
  let bad (why : String) : Except String (List Byte × Directive × List Byte) :=
    .error ("format " ++ quotedArg text ++ " " ++ why)
  let rec literal : List Char → List Char × List Char
    | '%' :: '%' :: cs => let (front, rest) := literal cs; ('%' :: front, rest)
    | '%' :: cs => ([], '%' :: cs)
    | c :: cs => let (front, rest) := literal cs; (c :: front, rest)
    | [] => ([], [])
  let (front, rest) := literal text.toList
  match rest with
  | [] => bad "has no % directive"
  | _ :: [] => bad "ends in %"
  | _ :: rest =>
      match directive? [] rest with
      | none => bad "ends in %"
      | some (d, used, _) =>
          if !"aAeEfFgG".toList.contains d.kind then
            bad ("has unknown %" ++ d.kind.toString ++ " directive")
          else
            match literal (rest.drop used) with
            | (behind, []) => .ok (bytesOf (String.ofList front), d, bytesOf (String.ofList behind))
            | _ => bad "has too many % directives"

/-- The arguments of `seq` that are options: a hyphen before a digit or a point
starts a number. -/
def seqOptions : List Known :=
  [valued "f" "format", valued "s" "separator", flag "w" "equal-width"]

/-- The arguments with the options ended in front of the first one that is a number
below zero. -/
def beforeNumbers : List String → List String
  | arg :: next :: rest =>
      let takesNext := ["--format", "--separator", "-f", "-s", "-wf", "-ws"].contains arg
      match arg.toList with
      | '-' :: c :: _ =>
          if arg = "--" then arg :: next :: rest
          else if c.isDigit || c == '.' then "--" :: arg :: next :: rest
          else if takesNext then arg :: next :: beforeNumbers rest
          else arg :: beforeNumbers (next :: rest)
      | _ => arg :: next :: rest
  | [arg] =>
      match arg.toList with
      | '-' :: c :: _ => if c.isDigit || c == '.' then ["--", arg] else [arg]
      | _ => [arg]
  | [] => []

/-- How many numbers are written at most. -/
def seqLimit : Nat := 200000

/-- Write numbers in a row. -/
def seq : Command := fun c =>
  let run := withFirstOptions seqOptions 1 fun o c => c.orFail 1 do
    let format ← match o.value? "f" with
      | none => pure none
      | some text => (numberFormat? text).map some
    let number (text : String) : Except String Exact :=
      match Exact.ofText? text with
      | some x => .ok x
      | none =>
          .error ((if text.toLower = "nan" then "invalid 'not-a-number' argument: "
            else "invalid floating point argument: ") ++ quotedArg text ++ c.hint)
    if o.operands.isEmpty then throw ("missing operand" ++ c.hint)
    if let _ :: _ :: _ :: extra :: _ := o.operands then
      throw ("extra operand " ++ quotedArg extra ++ c.hint)
    let given ← o.operands.mapM number
    let one : Exact := ⟨false, 1, 0, 1⟩
    let (first, step, last) := match given with
      | [last] => (one, one, last)
      | [first, last] => (first, one, last)
      | [first, step, last] => (first, step, last)
      | _ => (one, one, one)
    if step.units = 0 then
      throw ("invalid Zero increment value: " ++ quotedArg ((o.operands[1]?).getD "") ++ c.hint)
    if format.isSome && o.has "w" then
      throw ("format string may not be specified when printing equal width strings" ++ c.hint)
    let places := max first.places step.places
    let fine := max places last.places
    let numbers := countUp (first.inPlaces fine) (step.inPlaces fine) (last.inPlaces fine) seqLimit
    let widen (x : Exact) : Nat :=
      let columns := x.width + places - x.places
      if x.places = 0 && 0 < places then columns + 1
      else if 0 < x.places && places = 0 then columns - 1 else columns
    let width := if o.has "w" then max (widen first) (widen last) else 0
    let text (n : Int) : List Byte :=
      match format with
      | some (front, d, behind) =>
          let size := Float.ofScientific n.natAbs true fine
          front ++ d.real (if n < 0 then -size else size) ++ behind
      | none =>
          let negativeZero := first.negative && first.units == 0 && n == 0
          bytesOf (placesText places width negativeZero (n.tdiv (Nat.pow 10 (fine - places) : Nat)))
    let separator := bytesOf ((o.value? "s").getD "\n")
    return if numbers.isEmpty then c.say []
      else c.say (joinBytes separator (numbers.map text) ++ [lineFeed])
  run { c with args := beforeNumbers c.args }

end Stencil.Script
