/-
  Stencil.Decimal.Shortest
  ────────────────────────
  The fewest decimal digits that read back as a given binary number.

  A finite double is m · 2^q.  The reals that round to it form an interval
  around it, with its ends when m is even.  On the grid of decimals with one
  digit, with two digits, and so on up to seventeen, the two neighbours of
  the number are tried; the first grid with a hit wins, and of two hits the
  nearer one.  All comparisons are exact, between natural numbers.
-/
namespace Stencil.Decimal

/-! ## §1. Binary numbers. -/

/-- The number `mantissa · 2 ^ exponent`. -/
structure Binary where
  /-- The whole factor. -/
  mantissa : Nat
  /-- The power of two. -/
  exponent : Int
  deriving Repr, DecidableEq

/-- The unit of the leading digit of a mantissa: two to the power of 52. -/
def leadingUnit : Nat := 0x10000000000000

/-- The size of a finite double, without its sign. -/
def Binary.ofBits (bits : Nat) : Binary :=
  let fraction : Nat := bits % leadingUnit
  let field : Nat := bits / leadingUnit % 0x800
  if field = 0 then ⟨fraction, -1074⟩ else ⟨leadingUnit + fraction, Int.ofNat field - 1075⟩

/-- A quotient of natural numbers. -/
structure Ratio where
  /-- What is divided. -/
  num : Nat
  /-- What it is divided by. -/
  den : Nat

/-- Exact comparison of quotients. -/
def Ratio.le (a b : Ratio) : Bool := a.num * b.den ≤ b.num * a.den

/-- Strict comparison of quotients. -/
def Ratio.lt (a b : Ratio) : Bool := a.num * b.den < b.num * a.den

/-- `n · 2 ^ e` as a quotient. -/
def scale2 (n : Nat) (e : Int) : Ratio :=
  if 0 ≤ e then ⟨n * Nat.pow 2 e.toNat, 1⟩ else ⟨n, Nat.pow 2 (-e).toNat⟩

/-- `n · 10 ^ e` as a quotient. -/
def scale10 (n : Nat) (e : Int) : Ratio :=
  if 0 ≤ e then ⟨n * Nat.pow 10 e.toNat, 1⟩ else ⟨n, Nat.pow 10 (-e).toNat⟩

/-! ## §2. The interval. -/

/-- The reals that round to a binary number. -/
structure Interval where
  /-- The number itself. -/
  middle : Ratio
  /-- The lower end. -/
  lower : Ratio
  /-- The upper end. -/
  upper : Ratio
  /-- Do the ends belong to it? -/
  closed : Bool

/-- The interval of a binary number; below a power of two the neighbour is
only half as far. -/
def Binary.interval (b : Binary) : Interval :=
  let m := b.mantissa
  let low := if m = leadingUnit && b.exponent > -1074 then 4 * m - 1 else 4 * m - 2
  { middle := scale2 (4 * m) (b.exponent - 2)
    lower := scale2 low (b.exponent - 2)
    upper := scale2 (4 * m + 2) (b.exponent - 2)
    closed := m % 2 = 0 }

/-- Does a quotient lie in the interval? -/
def Interval.contains (i : Interval) (x : Ratio) : Bool :=
  if i.closed then i.lower.le x && x.le i.upper else i.lower.lt x && x.lt i.upper

/-! ## §3. The digits. -/

/-- A decimal number `digits · 10 ^ exponent`. -/
structure Numeral where
  /-- The digits as one natural number. -/
  digits : Nat
  /-- The power of ten. -/
  exponent : Int
  deriving Repr, DecidableEq

/-- The exponent of the first digit: the largest `e` with `10 ^ e ≤ x`, by
search downwards from `e`. -/
def leadingExponent (x : Ratio) : Nat → Int → Int
  | 0, e => e
  | fuel + 1, e => if (scale10 1 e).le x then e else leadingExponent x fuel (e - 1)

/-- The better neighbour of the interval's number on a decimal grid, if one
lies in the interval. -/
def Interval.onGrid? (i : Interval) (e : Int) : Option Numeral :=
  let unit := scale10 1 e
  let below := i.middle.num * unit.den / (i.middle.den * unit.num)
  let hitBelow := i.contains (scale10 below e)
  let hitAbove := i.contains (scale10 (below + 1) e)
  -- twice the number against the sum of its two neighbours
  let twice : Ratio := ⟨2 * i.middle.num, i.middle.den⟩
  let sum := scale10 (2 * below + 1) e
  let nearerBelow := twice.lt sum || (twice.le sum && below % 2 = 0)
  if hitBelow && (nearerBelow || !hitAbove) then some ⟨below, e⟩
  else if hitAbove then some ⟨below + 1, e⟩
  else none

/-- The shortest decimal in the interval; `lead` is the exponent of the
number's first digit. -/
def Interval.shortest (i : Interval) (lead : Int) : Numeral :=
  let grids := (List.range 17).map fun (n : Nat) => lead - Int.ofNat n
  (grids.findSome? i.onGrid?).getD ⟨0, 0⟩

/-- Move trailing zeros of the digits into the exponent. -/
def Numeral.strip (d : Numeral) : Nat → Numeral
  | 0 => d
  | fuel + 1 =>
      if d.digits % 10 = 0 && d.digits ≠ 0 then
        Numeral.strip ⟨d.digits / 10, d.exponent + 1⟩ fuel
      else d

/-- The shortest decimal that reads back as the binary number. -/
def Binary.shortest (b : Binary) : Numeral :=
  let i := b.interval
  (i.shortest (leadingExponent i.middle 640 309)).strip 20

/-! ## §4. The text. -/

/-- Digits written with the point after `point` of them: positionally while
the point is not far from the digits, otherwise with an exponent and its
sign.  A whole number keeps one zero after its point. -/
def Numeral.layout (d : Numeral) : String :=
  let digits := Nat.toDigits 10 d.digits
  let point : Int := digits.length + d.exponent
  let zeros (n : Int) : List Char := List.replicate n.toNat '0'
  if 0 ≤ d.exponent && point ≤ 16 then
    String.ofList (digits ++ zeros d.exponent ++ ['.', '0'])
  else if 0 < point && point ≤ 16 then
    String.ofList (digits.take point.toNat ++ '.' :: digits.drop point.toNat)
  else if -5 < point && point ≤ 0 then
    String.ofList ('0' :: '.' :: (zeros (-point) ++ digits))
  else
    let mantissa := match digits with
      | [] => []
      | [first] => [first]
      | first :: rest => first :: '.' :: rest
    String.ofList mantissa ++ (if 0 < point then "e+" else "e-") ++ toString (point - 1).natAbs

/-- The text of a finite double. -/
def ofFloat (x : Float) : String :=
  let bits := x.toBits.toNat
  let size := bits % 0x8000000000000000
  (if size < bits then "-" else "")
    ++ (if size = 0 then "0.0" else (Binary.ofBits size).shortest.layout)

end Stencil.Decimal
