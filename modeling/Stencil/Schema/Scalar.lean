/-
  Stencil.Schema.Scalar
  ─────────────────────
  The keywords of elementary types.

  `bool`, `address`, `string` and `bytes` are their own names; `uint` and
  `int` are short for the widest integers.  A sized keyword is `uint`, `int`
  or `bytes` with a decimal size that does not start with a zero: a multiple
  of 8 from 8 to 256 for integers, 1 to 32 for byte strings.  The size may
  carry one plus sign.
-/
namespace Stencil.Schema

/-- The number a run of decimal digits stands for. -/
def decimalValue (digits : List Char) : Nat :=
  digits.foldl (fun n c => 10 * n + (c.toNat - '0'.toNat)) 0

/-- The digits after an optional plus sign. -/
def unsignedDigits : List Char → List Char
  | '+' :: cs => cs
  | cs => cs

/-- A decimal size of at most 32 bits, with an optional plus sign. -/
def sizeSuffix? (cs : List Char) : Option Nat :=
  let digits := unsignedDigits cs
  let value := decimalValue digits
  if !digits.isEmpty && digits.all Char.isDigit && value < 0x100000000 && cs.head? != some '0' then
    some value
  else none

/-- Integers are as wide as a whole number of bytes, up to 32. -/
def isIntegerWidth (n : Nat) : Bool :=
  n % 8 == 0 && 8 ≤ n && n ≤ 256

/-- Fixed byte strings have up to 32 bytes. -/
def isByteCount (n : Nat) : Bool :=
  1 ≤ n && n ≤ 32

/-- What is left of a text after a keyword it starts with. -/
def afterKeyword? : List Char → List Char → Option (List Char)
  | [], cs => some cs
  | _ :: _, [] => none
  | k :: ks, c :: cs => if k = c then afterKeyword? ks cs else none

/-- Is the text a keyword with a size? -/
def isSizedScalar (cs : List Char) : Bool :=
  match afterKeyword? "uint".toList cs with
  | some rest => (sizeSuffix? rest).any isIntegerWidth
  | none =>
    match afterKeyword? "int".toList cs with
    | some rest => (sizeSuffix? rest).any isIntegerWidth
    | none =>
      match afterKeyword? "bytes".toList cs with
      | some rest => (sizeSuffix? rest).any isByteCount
      | none => false

/-- The canonical name of an elementary type's keyword. -/
def scalarName? (word : String) : Option String :=
  if word = "bool" || word = "address" || word = "string" || word = "bytes" then some word
  else if word = "uint" then some "uint256"
  else if word = "int" then some "int256"
  else if isSizedScalar word.toList then some word
  else none

/-- The words that open a record. -/
def isRecordWord (word : String) : Bool :=
  word == "record" || word == "tuple"

end Stencil.Schema
