/-
  Stencil.Formatter.Printf
  ────────────────────────
  Formatted output of scripts.

  A format is text with escapes and directives.  An escape is a letter or up
  to three octal digits behind a backslash; any other backslash stands for
  itself.  A directive takes the next argument, and a format is used again as
  long as there are arguments that it takes.  Programs know more escapes than
  scripts do: the codes of characters, and one that ends all.
-/
import Stencil.Decimal.Rounded
import Stencil.Formatter.ByteText

namespace Stencil.Script

open Text (Byte)

/-! ## §1. Escapes. -/

/-- The bytes of the escapes of one letter. -/
def escapeLetters : List (Char × Byte) :=
  [('a', 7), ('b', 8), ('t', 9), ('n', 10), ('v', 11), ('f', 12), ('r', 13), ('e', 27), ('\\', 92)]

/-- Is the character an octal digit? -/
def isOctal (c : Char) : Bool :=
  '0' ≤ c && c ≤ '7'

/-- The number that octal digits stand for. -/
def octalValue (digits : List Char) : Nat :=
  digits.foldl (fun n d => 8 * n + (d.toNat - '0'.toNat)) 0

/-- The bytes of an escape, and how many characters behind the backslash it
takes. -/
def escapeBytes (cs : List Char) : List Byte × Nat :=
  match cs.head?.bind fun c => escapeLetters.lookup c with
  | some byte => ([byte], 1)
  | none =>
      let octal := (cs.take 3).takeWhile isOctal
      if octal.isEmpty then (bytesOf "\\", 0) else ([UInt8.ofNat (octalValue octal)], octal.length)

/-- Text with its escapes resolved.  Octal digits may have a zero before them,
and the letter c ends the text; the flag tells whether it did. -/
def unescape : List Char → List Byte × Bool
  | [] => ([], false)
  | '\\' :: cs =>
      if cs.head? = some 'c' then ([], true)
      else
        let skipped := if cs.head? = some '0' && (cs.drop 1).head?.any isOctal then 1 else 0
        let (bytes, n) := escapeBytes (cs.drop skipped)
        let (rest, stopped) := unescape (cs.drop (skipped + n))
        (bytes ++ rest, stopped)
  | c :: cs =>
      let (rest, stopped) := unescape cs
      (bytesOf c.toString ++ rest, stopped)
termination_by cs => cs.length
decreasing_by
  all_goals simp only [List.length_cons, List.length_drop]; omega

/-! ## §2. Numbers. -/

/-- The value of a digit in any base. -/
def digitValue (c : Char) : Nat :=
  if c.isDigit then c.toNat - '0'.toNat
  else if 'a' ≤ c && c ≤ 'z' then c.toNat - 'a'.toNat + 10
  else if 'A' ≤ c && c ≤ 'Z' then c.toNat - 'A'.toNat + 10
  else 36

/-- Read digits of a base as far as they go; the flag tells whether that is
the whole text, and there is a digit. -/
def readDigits (base : Nat) (cs : List Char) : Nat × Bool :=
  let digits := cs.takeWhile (digitValue · < base)
  (digits.foldl (fun n d => base * n + digitValue d) 0,
    !digits.isEmpty && digits.length = cs.length)

/-- Is the character a blank of any kind? -/
def isSpaceChar (c : Char) : Bool :=
  c == ' ' || ('\t' ≤ c && c ≤ '\r')

/-- The number that a text starts with, and what is left behind it: decimal, octal
behind a zero, or hexadecimal behind a zero and an x. -/
def leadingNumeral (cs : List Char) : Nat × List Char :=
  let hex := match cs with
    | '0' :: x :: rest => if x = 'x' || x = 'X' then rest.takeWhile (digitValue · < 16) else []
    | _ => []
  let base := if cs.head? = some '0' then 8 else 10
  if !hex.isEmpty then ((readDigits 16 hex).1, cs.drop (hex.length + 2))
  else
    let digits := cs.takeWhile (digitValue · < base)
    ((readDigits base digits).1, cs.drop digits.length)

/-- Why a format cannot be filled. -/
inductive PrintFault where
  /-- An argument is no number. -/
  | noNumber (arg : String)
  /-- Only the start of an argument is a number. -/
  | partNumber (arg : String)
  /-- A number is out of bounds. -/
  | outOfBounds (arg : String)
  /-- A directive is not known. -/
  | noDirective (text : String)
  deriving Repr, DecidableEq

/-- What is wrong with an argument of which some characters were read. -/
def partlyRead (arg : String) (used length : Nat) : Option PrintFault :=
  if used = length then none
  else if used = 0 then some (.noNumber arg)
  else some (.partNumber arg)

/-- Read a whole number with a sign or without, or the code of a character behind a
quote.  The bounds are those of words with a sign or without. -/
def readInteger (signed : Bool) (arg : String) : Int × Option PrintFault :=
  match arg.toList with
  | '\x27' :: cs | '"' :: cs => ((cs.headD '\x00').toNat, none)
  | all =>
      let cs := all.dropWhile isSpaceChar
      let (negative, digits) := match cs with
        | '-' :: rest => (true, rest)
        | '+' :: rest => (false, rest)
        | rest => (false, rest)
      let (n, rest) := leadingNumeral digits
      let used := if rest.length = digits.length then 0 else all.length - rest.length
      let largest : Nat := if !signed then 0xffffffffffffffff
        else if negative then 0x8000000000000000 else 0x7fffffffffffffff
      let value : Int := if negative then -(min n largest : Nat) else (min n largest : Nat)
      (value, match partlyRead arg used all.length with
        | some fault => some fault
        | none => if largest < n then some (.outOfBounds arg) else none)

/-- Read a number with a point, or the code of a character behind a quote. -/
def readReal (arg : String) : Float × Option PrintFault :=
  match arg.toList with
  | '\x27' :: cs | '"' :: cs => (Float.ofNat (cs.headD '\x00').toNat, none)
  | all =>
      let cs := all.dropWhile isSpaceChar
      let (x, used) := Decimal.readDouble cs
      let used := if used = 0 then 0 else used + (all.length - cs.length)
      (x, partlyRead arg used all.length)

/-! ## §3. Directives. -/

/-- What is done with an argument. -/
structure Directive where
  /-- Marks that change the layout. -/
  flags : List Char
  /-- The least number of bytes. -/
  width : Nat
  /-- How much of a text, or how many digits at least. -/
  precision : Option Nat
  /-- The letter at the end. -/
  kind : Char
  deriving Repr, DecidableEq

/-- Read a number of columns or digits; a star takes it from the next argument.
What is left of the format and of the arguments comes with it. -/
def directiveNumber (args : List String) (cs : List Char) :
    Option Int × List Char × List String :=
  match cs with
  | '*' :: rest => (some (readInteger true (args.headD "")).1, rest, args.tail)
  | cs =>
      let digits := cs.takeWhile Char.isDigit
      (if digits.isEmpty then none else some (readDigits 10 digits).1, cs.drop digits.length, args)

/-- Read a directive, how many characters behind the percent sign it takes, and
the arguments that it leaves. -/
def directive? (args : List String) (cs : List Char) :
    Option (Directive × Nat × List String) :=
  let flags := cs.takeWhile ("#-+ 0".toList.contains ·)
  let (width, rest, args) := directiveNumber args (cs.drop flags.length)
  let (precision, rest, args) := match rest with
    | '.' :: rest =>
        let (precision, rest, args) := directiveNumber args rest
        let given := precision.getD 0
        (if given < 0 then none else some given.toNat, rest, args)
    | rest => (none, rest, args)
  let flags := if width.any (· < 0) then '-' :: flags else flags
  rest.head?.map fun kind =>
    (⟨flags, (width.getD 0).natAbs, precision, kind⟩, cs.length - rest.length + 1, args)

namespace Directive

/-- Fill up to the width. -/
def padded (d : Directive) (bytes : List Byte) : List Byte :=
  let blanks := List.replicate (d.width - bytes.length) (32 : Byte)
  if d.flags.contains '-' then bytes ++ blanks else blanks ++ bytes

/-- Lay out a text. -/
def text (d : Directive) (bytes : List Byte) : List Byte :=
  d.padded (match d.precision with
    | some n => bytes.take n
    | none => bytes)

/-- Lay out a number with its sign or mark before it. -/
def number (d : Directive) (sign : String) (digits : List Char) : List Byte :=
  let least := d.precision.getD 1
  let digits := if digits = ['0'] && least = 0 then [] else digits
  let filled := List.replicate (least - digits.length) '0' ++ digits
  let room := d.width - sign.length
  let zeros := if d.flags.contains '0' && !d.flags.contains '-' && d.precision.isNone then
      List.replicate (room - filled.length) '0'
    else []
  d.padded (bytesOf (sign ++ String.ofList (zeros ++ filled)))

/-- Lay out a whole number in the directive's base. -/
def integer (d : Directive) (value : Int) : List Byte :=
  let word := (value % 0x10000000000000000).toNat
  if d.kind = 'd' || d.kind = 'i' then
    let sign := if value < 0 then "-" else if d.flags.contains '+' then "+"
      else if d.flags.contains ' ' then " " else ""
    d.number sign (Nat.toDigits 10 value.natAbs)
  else if d.kind = 'u' then d.number "" (Nat.toDigits 10 word)
  else if d.kind = 'o' then
    let digits := Nat.toDigits 8 word
    d.number "" (if d.flags.contains '#' && word ≠ 0 then '0' :: digits else digits)
  else
    let digits := Nat.toDigits 16 word
    let mark := if d.flags.contains '#' && word ≠ 0 then "0" ++ d.kind.toString else ""
    d.number mark (if d.kind = 'X' then digits.map Char.toUpper else digits)

/-- Lay out a number with a point or an exponent. -/
def real (d : Directive) (x : Float) : List Byte :=
  let negative := Decimal.isSigned x
  let sign := if negative then "-" else if d.flags.contains '+' then "+"
    else if d.flags.contains ' ' then " " else ""
  let finite := x.isFinite
  let places := d.precision.getD 6
  let marked := d.flags.contains '#'
  let size := Decimal.magnitude x
  let body := if x.isNaN then "nan".toList
    else if !finite then "inf".toList
    else match d.kind with
      | 'e' | 'E' => Decimal.scientific size places marked
      | 'g' | 'G' => Decimal.general size places marked
      | _ => Decimal.fixed size places marked
  let body := if d.kind.isUpper then body.map Char.toUpper else body
  let zeros := if d.flags.contains '0' && !d.flags.contains '-' && finite then
      List.replicate (d.width - sign.length - body.length) '0'
    else []
  d.padded (bytesOf (sign ++ String.ofList (zeros ++ body)))

end Directive

/-! ## §4. Formats. -/

/-- What a format has given so far. -/
structure Printed where
  /-- The bytes. -/
  bytes : List Byte
  /-- The arguments that are left. -/
  args : List String
  /-- What went wrong. -/
  faults : List PrintFault
  /-- Is there no more to come? -/
  stopped : Bool
  deriving Repr, DecidableEq

namespace Printed

/-- Add bytes. -/
def add (p : Printed) (bytes : List Byte) : Printed :=
  { p with bytes := p.bytes ++ bytes }

/-- Take note of a fault. -/
def note (p : Printed) (fault : Option PrintFault) : Printed :=
  { p with faults := p.faults ++ fault.toList }

/-- Fill a directive, written as a text, from the next argument. -/
def fill (p : Printed) (d : Directive) (text : String) : Printed :=
  let arg := p.args.headD ""
  let next := { p with args := p.args.tail }
  if d.kind = 's' then next.add (d.text (bytesOf arg))
  else if d.kind = 'c' then next.add (d.padded ((bytesOf arg ++ [0]).take 1))
  else if d.kind = 'b' then
    let (bytes, stopped) := unescape arg.toList
    { next.add (d.text bytes) with stopped }
  else if "diuoxX".toList.contains d.kind then
    let (value, fault) := readInteger (d.kind = 'd' || d.kind = 'i') arg
    (next.add (d.integer value)).note fault
  else if "eEfFgG".toList.contains d.kind then
    let (value, fault) := readReal arg
    (next.add (d.real value)).note fault
  else { p.note (some (.noDirective text)) with stopped := true }

/-- The byte of an escape with the code of a character, and how many characters
behind the backslash it takes. -/
def codeEscape? (cs : List Char) : Option (Byte × Nat) :=
  match cs with
  | 'x' :: rest =>
      let digits := (rest.take 2).takeWhile (digitValue · < 16)
      if digits.isEmpty then none
      else some (UInt8.ofNat (readDigits 16 digits).1, digits.length + 1)
  | _ => none

/-- Go through a format once; `wide` tells whether more escapes are known. -/
def once (wide : Bool) (p : Printed) (format : List Char) : Printed :=
  match format with
  | [] => p
  | '\\' :: cs =>
      if wide && cs.head? = some 'c' then { p with stopped := true }
      else
        match if wide then codeEscape? cs else none with
        | some (byte, n) => (p.add [byte]).once wide (cs.drop n)
        | none =>
            let (bytes, n) := escapeBytes cs
            (p.add bytes).once wide (cs.drop n)
  | '%' :: '%' :: cs => (p.add (bytesOf "%")).once wide cs
  | '%' :: cs =>
      match directive? p.args cs with
      | none =>
          { p.note (some (.noDirective (String.ofList ('%' :: cs)))) with stopped := true }
      | some (d, n, args) =>
          let filled := { p with args }.fill d (String.ofList ('%' :: cs.take n))
          if filled.stopped then filled else filled.once wide (cs.drop n)
  | c :: cs => (p.add (bytesOf c.toString)).once wide cs
termination_by format.length
decreasing_by
  all_goals simp only [List.length_cons, List.length_drop]; omega

/-- Go through a format until all arguments are taken. -/
def again (wide : Bool) (p : Printed) (format : List Char) : Nat → Printed
  | 0 => p
  | n + 1 =>
      let next := p.once wide format
      if next.stopped || next.args.isEmpty || next.args.length = p.args.length then next
      else next.again wide format n

end Printed

/-- What comes of a format filled from arguments. -/
def printf (wide : Bool) (format : String) (args : List String) : Printed :=
  Printed.again wide ⟨[], args, [], false⟩ format.toList (args.length + 1)

/-- Arguments on a line, with their escapes resolved; a first argument `-n`
asks for no line end. -/
def echo (args : List String) : List Byte :=
  let text := match args with
    | "-n" :: rest => " ".intercalate rest
    | args => " ".intercalate args ++ "\n"
  (unescape text.toList).1

end Stencil.Script
