/-
  Stencil.Json.Scan
  ─────────────────
  The smallest units of JSON text: blanks, strings, numbers and names.

  Each scanner takes the characters that are left and gives a value with the
  characters left after it, or nothing when the text is malformed.  They are
  the start of the standard JSON library, `Config.Codec.standard`; what is
  proved of configurations asks for its laws and not for them.
-/
namespace Stencil.Json

/-! ## §1. Blanks. -/

/-- JSON knows four blanks. -/
def isSpace (c : Char) : Bool :=
  c == ' ' || c == '\t' || c == '\n' || c == '\r'

/-- Pass blanks. -/
def skipSpace (cs : List Char) : List Char :=
  cs.dropWhile isSpace

/-! ## §2. Strings. -/

/-- The value of a hexadecimal digit. -/
def hexDigit? (c : Char) : Option Nat :=
  if c.isDigit then some (c.toNat - '0'.toNat)
  else if 'a' ≤ c && c ≤ 'f' then some (c.toNat - 'a'.toNat + 10)
  else if 'A' ≤ c && c ≤ 'F' then some (c.toNat - 'A'.toNat + 10)
  else none

/-- The number four hexadecimal digits stand for. -/
def hexUnit? : List Char → Option Nat
  | a :: b :: c :: d :: _ => do
      let a ← hexDigit? a
      let b ← hexDigit? b
      let c ← hexDigit? c
      let d ← hexDigit? d
      return ((a * 16 + b) * 16 + c) * 16 + d
  | _ => none

/-- A character given by one unit, or by two that form a pair; how many
characters its digits take. -/
def unitEscape? (cs : List Char) : Option (Char × Nat) := do
  let high ← hexUnit? cs
  if 0xDC00 ≤ high && high ≤ 0xDFFF then none
  else if 0xD800 ≤ high && high ≤ 0xDBFF then
    match cs.drop 4 with
    | '\\' :: 'u' :: rest =>
        let low ← hexUnit? rest
        if 0xDC00 ≤ low && low ≤ 0xDFFF then
          return (Char.ofNat (0x10000 + (high - 0xD800) * 0x400 + (low - 0xDC00)), 10)
        else none
    | _ => none
  else return (Char.ofNat high, 4)

/-- The character behind a backslash; how many characters it takes. -/
def escape? : List Char → Option (Char × Nat)
  | [] => none
  | c :: cs =>
      if c = '"' || c = '\\' || c = '/' then some (c, 1)
      else if c = 'b' then some ('\x08', 1)
      else if c = 'f' then some ('\x0c', 1)
      else if c = 'n' then some ('\n', 1)
      else if c = 'r' then some ('\r', 1)
      else if c = 't' then some ('\t', 1)
      else if c = 'u' then (unitEscape? cs).map fun (char, n) => (char, n + 1)
      else none

/-- The characters of a string whose opening quote came before. -/
def scanString : List Char → Option (List Char × List Char)
  | [] => none
  | c :: cs =>
      if c = '"' then some ([], cs)
      else if c = '\\' then
        match escape? cs with
        | none => none
        | some (char, n) =>
            (scanString (cs.drop n)).map fun (chars, rest) => (char :: chars, rest)
      else if c.toNat < 0x20 then none
      else (scanString cs).map fun (chars, rest) => (c :: chars, rest)
termination_by cs => cs.length
decreasing_by
  all_goals simp only [List.length_cons, List.length_drop]; omega

/-! ## §3. Numbers. -/

/-- A number as messages show it. -/
inductive Number where
  /-- A whole number of at most 64 bits. -/
  | integer (value : Int)
  /-- Any other number, to the nearest or nearly nearest double. -/
  | float (value : Float)

/-- The largest unsigned number of 64 bits. -/
def maxWord : Nat := 0xFFFFFFFFFFFFFFFF

/-- The largest exponent that is not taken for overflow. -/
def maxExponent : Nat := 0x7FFFFFFF

/-- Read digits into a word; the digit that would overflow it and all after
it stay.  The count of digits read comes with it. -/
def scanWord (value count : Nat) : List Char → Nat × Nat × List Char
  | [] => (value, count, [])
  | c :: cs =>
      let next := 10 * value + (c.toNat - '0'.toNat)
      if c.isDigit && next ≤ maxWord then scanWord next (count + 1) cs
      else (value, count, c :: cs)

/-- Pass digits. -/
def skipDigits (cs : List Char) : List Char :=
  cs.dropWhile Char.isDigit

/-- Does a digit come next? -/
def startsWithDigit (cs : List Char) : Bool :=
  cs.head?.any Char.isDigit

/-- Powers of ten below the largest double. -/
def power10 (n : Nat) : Float :=
  Float.ofScientific 1 false n

/-- Scale a word by a power of ten.  Powers beyond the largest double divide
in steps; a product beyond it is malformed. -/
def scaled (value : Float) (exponent : Int) : Nat → Option Float
  | 0 => none
  | fuel + 1 =>
      if exponent.natAbs ≤ 308 then
        if 0 ≤ exponent then
          let product := value * power10 exponent.natAbs
          if product.isInf then none else some product
        else some (value / power10 exponent.natAbs)
      else if value == 0.0 then some value
      else if 0 ≤ exponent then none
      else scaled (value / power10 308) (exponent + 308) fuel

/-- A double from a sign, a word and a power of ten. -/
def float? (negative : Bool) (word : Nat) (exponent : Int) : Option Number :=
  -- the steps end as soon as the value has become zero, after three at most
  (scaled (Float.ofNat word) exponent 5).map fun x =>
    .float (if negative then -x else x)

/-- The digits after an exponent mark and its sign. -/
def scanExponent (negative : Bool) (word : Nat) (exponent : Int) (down : Bool)
    (cs : List Char) : Option (Number × List Char) :=
  if !startsWithDigit cs then none
  else
    let digits := cs.takeWhile Char.isDigit
    let rest := cs.drop digits.length
    let value := digits.foldl (fun n c => 10 * n + (c.toNat - '0'.toNat)) 0
    if maxExponent < value then
      if word ≠ 0 && !down then none
      else some (.float (if negative then -0.0 else 0.0), rest)
    else
      let exponent := if down then exponent - value else exponent + value
      (float? negative word exponent).map (·, rest)

/-- The exponent of a number, if one comes. -/
def scanTail (negative : Bool) (word : Nat) (exponent : Int) (cs : List Char) :
    Option (Number × List Char) :=
  match cs with
  | c :: rest =>
      if c = 'e' || c = 'E' then
        match rest with
        | '+' :: rest => scanExponent negative word exponent false rest
        | '-' :: rest => scanExponent negative word exponent true rest
        | rest => scanExponent negative word exponent false rest
      else (float? negative word exponent).map (·, cs)
  | [] => (float? negative word exponent).map (·, cs)

/-- The digits behind a decimal point, of which there must be one. -/
def scanFraction (negative : Bool) (word : Nat) (exponent : Int) (cs : List Char) :
    Option (Number × List Char) :=
  let (value, count, rest) := scanWord word 0 cs
  if startsWithDigit rest then
    scanTail negative value (exponent - count) (skipDigits rest)
  else if count = 0 then none
  else scanTail negative value (exponent - count) rest

/-- What comes after the whole part of a number. -/
def scanRest (negative : Bool) (word : Nat) (cs : List Char) : Option (Number × List Char) :=
  match cs with
  | '.' :: rest => scanFraction negative word 0 rest
  | 'e' :: _ | 'E' :: _ => scanTail negative word 0 cs
  | _ =>
      if !negative then some (.integer word, cs)
      else if word = 0 || 0x8000000000000000 < word then (float? true word 0).map (·, cs)
      else some (.integer (-word), cs)

/-- What comes after a whole part that a word cannot hold. -/
def scanLongRest (negative : Bool) (word dropped : Nat) (cs : List Char) :
    Option (Number × List Char) :=
  match cs with
  | '.' :: rest => scanFraction negative word dropped rest
  | _ => scanTail negative word dropped cs

/-- A number without its sign.  It has no needless zero in front. -/
def scanUnsigned (negative : Bool) : List Char → Option (Number × List Char)
  | [] => none
  | c :: cs =>
      if c = '0' then
        if startsWithDigit cs then none else scanRest negative 0 cs
      else if c.isDigit then
        let (word, _, rest) := scanWord 0 0 (c :: cs)
        if startsWithDigit rest then
          let dropped := rest.takeWhile Char.isDigit
          scanLongRest negative word dropped.length (rest.drop dropped.length)
        else scanRest negative word rest
      else none

/-! ## §4. Any value. -/

/-- A value as messages show it when another was expected. -/
inductive Found where
  /-- The name of nothing. -/
  | null
  /-- A truth value. -/
  | bool (value : Bool)
  /-- A number. -/
  | number (value : Number)
  /-- A string. -/
  | str (value : String)
  /-- An array, not read any further. -/
  | sequence
  /-- An object, not read any further. -/
  | map

/-- A name that must stand here. -/
def scanName (name : String) (found : Found) (cs : List Char) : Option (Found × List Char) :=
  if name.toList.isPrefixOf cs then some (found, cs.drop name.length) else none

/-- The value that comes next.  Of an array or object only the kind is told,
and nothing is passed. -/
def scanFound : List Char → Option (Found × List Char)
  | [] => none
  | c :: cs =>
      if c = '"' then (scanString cs).map fun (chars, rest) => (.str (String.ofList chars), rest)
      else if c = '[' then some (.sequence, c :: cs)
      else if c = '\x7b' then some (.map, c :: cs)
      else if c = 'n' then scanName "null" .null (c :: cs)
      else if c = 't' then scanName "true" (.bool true) (c :: cs)
      else if c = 'f' then scanName "false" (.bool false) (c :: cs)
      else if c = '-' then (scanUnsigned true cs).map fun (n, rest) => (.number n, rest)
      else (scanUnsigned false (c :: cs)).map fun (n, rest) => (.number n, rest)

end Stencil.Json
