/-
  Stencil.Decimal.Rounded
  ───────────────────────
  Binary numbers with a given number of decimal digits.

  A number is rounded to a multiple of a power of ten, and a half goes to the
  even neighbour.  The layouts are those of fixed places, of an exponent, and
  of whichever of the two is shorter for a given number of digits.  Scripts
  print numbers with them (`Formatter.Printf`).
-/
import Stencil.Decimal.Shortest

namespace Stencil.Decimal

/-! ## §1. Rounding. -/

/-- A quotient of natural numbers as a whole number: the nearest one, and of two
the even one. -/
def roundDiv (num den : Nat) : Nat :=
  let below := num / den
  let rest := 2 * (num % den)
  if den < rest || (rest = den && below % 2 = 1) then below + 1 else below

namespace Binary

/-- How many units of a power of ten a number has. -/
def unitsOf (b : Binary) (exponent : Int) : Nat :=
  let x := scale2 b.mantissa b.exponent
  let unit := scale10 1 exponent
  roundDiv (x.num * unit.den) (x.den * unit.num)

/-- The whole part of a number. -/
def wholePart (b : Binary) : Nat :=
  let x := scale2 b.mantissa b.exponent
  x.num / x.den

/-- A number with one digit before the point and so many behind it. -/
def withPlaces (b : Binary) (places : Nat) : Numeral :=
  if b.mantissa = 0 then ⟨0, -(places : Int)⟩
  else
    let lead := leadingExponent (scale2 b.mantissa b.exponent) 640 309
    let digits := b.unitsOf (lead - places)
    -- rounding may have given one digit more
    if Nat.pow 10 (places + 1) ≤ digits then ⟨digits / 10, lead - places + 1⟩
    else ⟨digits, lead - places⟩

end Binary

/-! ## §2. Layouts. -/

/-- Digits with zeros before them up to a length. -/
def paddedDigits (length n : Nat) : List Char :=
  let digits := Nat.toDigits 10 n
  List.replicate (length - digits.length) '0' ++ digits

/-- Digits with a point before the last ones; without any of those, the point
only stands if asked for. -/
def pointed (places : Nat) (keepPoint : Bool) (digits : List Char) : List Char :=
  let whole := digits.take (digits.length - places)
  if places = 0 then (if keepPoint then whole ++ ['.'] else whole)
  else whole ++ '.' :: digits.drop (digits.length - places)

/-- A number with fixed places behind the point. -/
def fixed (b : Binary) (places : Nat) (keepPoint : Bool) : List Char :=
  pointed places keepPoint (paddedDigits (places + 1) (b.unitsOf (-(places : Int))))

/-- The exponent of a number in front of its point. -/
def Numeral.pointExponent (n : Numeral) (places : Nat) : Int :=
  n.exponent + places

/-- An exponent with its sign, in two digits at least. -/
def exponentText (e : Int) : List Char :=
  'e' :: (if e < 0 then '-' else '+') :: paddedDigits 2 e.natAbs

/-- A number with an exponent. -/
def scientific (b : Binary) (places : Nat) (keepPoint : Bool) : List Char :=
  let n := b.withPlaces places
  let exponent := if b.mantissa = 0 then 0 else n.pointExponent places
  pointed places keepPoint (paddedDigits (places + 1) n.digits) ++ exponentText exponent

/-- Digits behind a point without the zeros at their end. -/
def withoutEndZeros (cs : List Char) : List Char :=
  if cs.contains '.' then
    let short := (cs.reverse.dropWhile (· == '0')).reverse
    if short.getLast? = some '.' then short.dropLast else short
  else cs

/-- A number with so many digits, in the layout that suits its size; zeros at
the end are only kept if asked for. -/
def general (b : Binary) (precision : Nat) (keepZeros : Bool) : List Char :=
  let precision := max precision 1
  let exponent := if b.mantissa = 0 then 0
    else (b.withPlaces (precision - 1)).pointExponent (precision - 1)
  if -4 ≤ exponent && exponent < precision then
    let text := fixed b (precision - 1 - exponent).toNat keepZeros
    if keepZeros then text else withoutEndZeros text
  else
    let text := scientific b (precision - 1) keepZeros
    let mantissa := text.takeWhile (· != 'e')
    (if keepZeros then mantissa else withoutEndZeros mantissa) ++ text.drop mantissa.length

/-! ## §3. Doubles. -/

/-- Is the double below zero, or zero with a sign? -/
def isSigned (x : Float) : Bool :=
  0x8000000000000000 ≤ x.toBits.toNat

/-- The size of a finite double. -/
def magnitude (x : Float) : Binary :=
  Binary.ofBits (x.toBits.toNat % 0x8000000000000000)

/-- A finite double without what is behind its point. -/
def truncated (x : Float) : Int :=
  let n : Int := (magnitude x).wholePart
  if isSigned x then -n else n

/-- The double that decimal digits stand for, as far as a text starts with them:
a sign, digits with a point, and an exponent; and how many characters that are. -/
def readDouble (cs : List Char) : Float × Nat :=
  let (negative, unsigned) := match cs with
    | '-' :: rest => (true, rest)
    | '+' :: rest => (false, rest)
    | rest => (false, rest)
  let whole := unsigned.takeWhile Char.isDigit
  let (fraction, behind) := match unsigned.drop whole.length with
    | '.' :: rest =>
        let digits := rest.takeWhile Char.isDigit
        (digits, if digits.isEmpty && whole.isEmpty then '.' :: rest else rest.drop digits.length)
    | rest => ([], rest)
  if whole.isEmpty && fraction.isEmpty then (0, 0)
  else
    let digits := (whole ++ fraction).foldl (fun n d => 10 * n + (d.toNat - '0'.toNat)) 0
    let (exponent, left) : Int × List Char := match behind with
      | e :: rest =>
          if e = 'e' || e = 'E' then
            let (below, start) := match rest with
              | '-' :: rest => (true, rest)
              | '+' :: rest => (false, rest)
              | rest => (false, rest)
            let power := start.takeWhile Char.isDigit
            if power.isEmpty then (0, behind)
            else
              let size : Int := power.foldl (fun n d => 10 * n + (d.toNat - '0'.toNat)) 0
              (if below then -size else size, start.drop power.length)
          else (0, behind)
      | [] => (0, [])
    let power := exponent - fraction.length
    -- far outside of what a double holds, the exponent does not matter
    let power := max (-100000) (min 100000 power)
    let size := Float.ofScientific digits (power < 0) power.natAbs
    (if negative then -size else size, cs.length - left.length)

end Stencil.Decimal
