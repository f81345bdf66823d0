/-
  Stencil.Formatter.Command.Amount
  ────────────────────────────────
  Numbers among the arguments of commands.

  A number may have a unit behind it: a letter that stands for a power of 1024,
  and of 1000 if a B comes behind the letter.  An amount is a number of lines or
  of bytes, and a sign before it says from where it counts.
-/
import Stencil.Formatter.Command.Options
import Stencil.Formatter.Printf

namespace Stencil.Script

open Text (Byte)

/-! ## §1. Numbers with units. -/

/-- The number that a text stands for. -/
def numberOf (text : String) : Nat :=
  (readDigits 10 text.toList).1

/-- The largest number there is room for. -/
def largestNumber : Nat := 0xffffffffffffffff

/-- Why a text is no number. -/
inductive NumberFault where
  /-- It is none. -/
  | malformed
  /-- There is no room for it. -/
  | tooLarge
  /-- It is not one that is allowed. -/
  | outOfRange
  deriving Repr, DecidableEq

/-- A message about a text that is no number. -/
def NumberFault.message (what text : String) : NumberFault → String
  | malformed => what ++ ": " ++ quotedArg text
  | tooLarge => what ++ ": " ++ quotedArg text ++ ": Value too large for defined data type"
  | outOfRange => what ++ ": " ++ quotedArg text ++ ": Numerical result out of range"

/-- The power that the letter of a unit stands for. -/
def unitPower? (letter : Char) : Option Nat :=
  [('k', 1), ('K', 1), ('m', 2), ('M', 2), ('g', 3), ('G', 3), ('t', 4), ('T', 4), ('P', 5),
   ('E', 6), ('Z', 7), ('Y', 8), ('R', 9), ('Q', 10)].lookup letter

/-- The factor of a unit as written; none if it is none of the allowed ones. -/
def unitFactor? (units : List Char) (text : List Char) : Option Nat :=
  match text with
  | [] => some 1
  | letter :: rest =>
      if !units.contains letter then none
      else
        match letter, unitPower? letter, rest with
        | 'b', _, [] => some 512
        | 'B', _, [] => some 1024
        | 'c', _, [] => some 1
        | 'w', _, [] => some 2
        | _, some power, [] | _, some power, ['i', 'B'] => some (Nat.pow 1024 power)
        | _, some power, ['B'] => some (Nat.pow 1000 power)
        | _, _, _ => none

/-- The units of most commands. -/
def commonUnits : List Char := "bkKmMGTPEZYRQ".toList

/-- Read a number that may have a unit. -/
def readSize (units : List Char) (text : String) : Except NumberFault Nat :=
  let cs := text.toList.dropWhile fun c => c == ' ' || ('\t' ≤ c && c ≤ '\r')
  let cs := match cs with
    | '+' :: rest => rest
    | cs => cs
  let digits := cs.takeWhile Char.isDigit
  let unit := cs.drop digits.length
  match unitFactor? units unit with
  | none => .error .malformed
  | some factor =>
      if cs.isEmpty then .error .malformed
      else
        let n := (if digits.isEmpty then 1 else (readDigits 10 digits).1) * factor
        if largestNumber < n then .error .tooLarge else .ok n

/-- Read a number that lies between two others. -/
def readBetween (low high : Nat) (text : String) : Except NumberFault Nat := do
  let n ← readSize [] text
  if n < low || high < n then .error (if 0x40000000 ≤ n then .tooLarge else .outOfRange) else .ok n

/-- The value of an option that is a number, or another number without it. -/
def Options.number (o : Options) (name what : String) (low other : Nat) : Except String Nat :=
  match o.value? name with
  | none => .ok other
  | some text => (readBetween low largestNumber text).mapError (·.message what text)

/-- Run a command, or end with a message. -/
def Call.orFail (c : Call) (status : Nat) : Except String Result → Result
  | .ok r => r
  | .error message => c.fail status message

/-- A time as it is written: a number that may have a fraction, and a unit. -/
def durationOf? (text : String) : Option (Nat × Nat) :=
  let cs := text.toList
  let whole := cs.takeWhile Char.isDigit
  let (part, rest) := match cs.drop whole.length with
    | '.' :: more =>
        let part := more.takeWhile Char.isDigit
        (part, more.drop part.length)
    | rest => ([], rest)
  let unit? := match rest with
    | [] | ['s'] => some 1
    | ['m'] => some 60
    | ['h'] => some 3600
    | ['d'] => some 86400
    | _ => none
  if whole.isEmpty && part.isEmpty then none
  else unit?.map fun unit => ((readDigits 10 (whole ++ part)).1 * unit, Nat.pow 10 part.length)

/-! ## §2. Amounts. -/

/-- How much of an input is asked for, and in which unit. -/
structure Amount where
  /-- Bytes, or lines? -/
  inBytes : Bool
  /-- How many. -/
  count : Nat
  /-- The sign before the number. -/
  sign : Option Char
  deriving Repr, DecidableEq

/-- A count behind an option; a sign in front of it counts only for some. -/
def Amount.ofText (signs : List Char) (inBytes : Bool) (text : String) :
    Except String Amount :=
  let what := "invalid number of " ++ (if inBytes then "bytes" else "lines")
  let (sign, digits) := match text.toList with
    | c :: rest => if signs.contains c then (some c, String.ofList rest) else (none, text)
    | [] => (none, text)
  match readSize commonUnits digits with
  | .ok count => .ok ⟨inBytes, count, sign⟩
  | .error fault => .error (fault.message what digits)

/-- How much options ask for: ten lines, unless they say otherwise. -/
def Amount.ofOptions (signs : List Char) (o : Options) : Except String Amount :=
  match o.last? ["c", "n"] with
  | some (name, text) => Amount.ofText signs (name == "c") text
  | none => .ok ⟨false, 10, none⟩

/-- The pieces of an input in a unit. -/
def Amount.pieces (a : Amount) (ending : Byte) (input : List Byte) : List (List Byte) :=
  if a.inBytes then input.map ([·]) else piecesBy ending input

/-- The first part of an input; behind a minus, all but the last pieces. -/
def Amount.first (a : Amount) (ending : Byte) (input : List Byte) : List Byte :=
  let all := a.pieces ending input
  (all.take (if a.sign = some '-' then all.length - a.count else a.count)).flatten

/-- The last part of an input; behind a plus, all from a piece on. -/
def Amount.last (a : Amount) (ending : Byte) (input : List Byte) : List Byte :=
  let all := a.pieces ending input
  (all.drop (if a.sign = some '+' then a.count - 1 else all.length - a.count)).flatten

/-- A text at the right end of a column. -/
def rightAligned (width : Nat) (text : String) : String :=
  String.ofList (List.replicate (width - text.length) ' ') ++ text

end Stencil.Script
