/-
  Stencil.Formatter.RecordProgram
  ───────────────────────────────
  Programs over the records of an input.

  A program is a list of rules, each with a pattern and an action.  The input
  is cut into records, and these into fields; for each record the actions of
  the rules whose patterns hold are done.  Values are numbers and texts, and
  what comes from the input is both if it looks like a number.
-/
import Stencil.Formatter.Printf

namespace Stencil.Script

/-! ## §1. Formulas and actions. -/

/-- A formula. -/
inductive Formula where
  /-- A number, as it is written. -/
  | number (text : String)
  /-- A text. -/
  | text (value : String)
  /-- A regular expression; on its own it is matched against the record. -/
  | pattern (source : String)
  /-- A variable. -/
  | named (name : String)
  /-- A field of the record; field zero is all of it. -/
  | field (index : Formula)
  /-- An element of an array. -/
  | element (array : String) (keys : List Formula)
  /-- Set a place, with an operator on its value or without. -/
  | assign (place : Formula) (operator : String) (value : Formula)
  /-- Count a place up or down; its value is the one after or before that. -/
  | count (place : Formula) (up : Bool) (before : Bool)
  /-- An operator before one operand. -/
  | unary (operator : String) (operand : Formula)
  /-- An operator between two; none at all puts texts together. -/
  | binary (operator : String) (first second : Formula)
  /-- One of two by a condition. -/
  | choose (condition yes no : Formula)
  /-- Does an array have an element? -/
  | has (array : String) (keys : List Formula)
  /-- A function. -/
  | call (name : String) (args : List Formula)
  /-- Read the next record into a place, from the input, from a file or from what a
  script writes. -/
  | getLine (place : Option Formula) (fromScript : Bool) (source : Option Formula)

/-- What an action writes to. -/
inductive OutputKind where
  /-- A file, from its start on. -/
  | fresh
  /-- A file, behind its end. -/
  | behind
  /-- The input of a script. -/
  | script
  deriving Repr, DecidableEq

/-- Where an action writes to. -/
structure OutputPlace where
  /-- What it is. -/
  kind : OutputKind
  /-- The path, or the script. -/
  target : Formula

/-- What is done. -/
inductive Action where
  /-- Nothing. -/
  | nothing
  /-- Compute a formula. -/
  | compute (formula : Formula)
  /-- Write values on a line. -/
  | print (values : List Formula) (place : Option OutputPlace)
  /-- Write values as a format asks for it. -/
  | format (values : List Formula) (place : Option OutputPlace)
  /-- One after the other. -/
  | sequence (first second : Action)
  /-- One of two by a condition. -/
  | branch (condition : Formula) (yes no : Action)
  /-- Again and again while a condition holds. -/
  | loop (condition : Formula) (body step : Action)
  /-- Once, and then again while a condition holds. -/
  | doLoop (body : Action) (condition : Formula)
  /-- Once for each key of an array. -/
  | each (name array : String) (body : Action)
  /-- Leave the loop. -/
  | leave
  /-- Go on with the next round. -/
  | again
  /-- Go on with the next record. -/
  | next
  /-- Go on with the next file. -/
  | nextFile
  /-- End the program. -/
  | exit (status : Option Formula)
  /-- Leave the function with a value. -/
  | back (value : Option Formula)
  /-- Take an element away, or all of them. -/
  | delete (array : String) (keys : List Formula)

/-- When an action is done. -/
inductive RulePattern where
  /-- Before the first record. -/
  | first
  /-- Behind the last record. -/
  | last
  /-- For each record. -/
  | always
  /-- For the records of which a formula holds. -/
  | holds (formula : Formula)
  /-- From a record on up to another one. -/
  | range (start stop : Formula)

/-- A rule of a program. -/
structure Rule where
  /-- Its own number. -/
  number : Nat
  /-- When the action is done. -/
  pattern : RulePattern
  /-- What is done. -/
  action : Action

/-- A function of a program. -/
structure RecordFunction where
  /-- Its name. -/
  name : String
  /-- The names of its parameters. -/
  params : List String
  /-- What it does. -/
  body : Action

/-- A program. -/
structure RecordProgram where
  /-- The rules, in order. -/
  rules : List Rule
  /-- The functions. -/
  functions : List RecordFunction

/-! ## §2. Values. -/

/-- A value. -/
inductive Cell where
  /-- None yet: zero as a number, and nothing as a text. -/
  | unset
  /-- A number. -/
  | number (x : Float)
  /-- A text. -/
  | text (value : String)
  /-- A text from the input. -/
  | input (value : String)

namespace Cell

/-- Is the character a blank? -/
def isBlank (c : Char) : Bool :=
  c == ' ' || c == '\t' || c == '\n' || c == '\r' || c == '\x0b' || c == '\x0c'

/-- The number a text starts with. -/
def leadingNumber (text : String) : Float :=
  (Decimal.readDouble (text.toList.dropWhile isBlank)).1

/-- Is a text a number, with blanks around it or without? -/
def looksNumeric (text : String) : Bool :=
  let cs := text.toList.dropWhile isBlank
  let (_, used) := Decimal.readDouble cs
  used != 0 && (cs.drop used).all isBlank

/-- The value as a number. -/
def toFloat : Cell → Float
  | unset => 0
  | number x => x
  | text value | input value => leadingNumber value

/-- A number as a text: a whole number as it is, any other one by a format. -/
def numberText (format : String) (x : Float) : String :=
  if x.isNaN then "-nan"
  else if !x.isFinite then (if Decimal.isSigned x then "-inf" else "inf")
  else
    let whole := Decimal.truncated x
    if Float.ofInt whole == x && whole.natAbs ≤ 0xFFFFFFFFFFFFFFFF then toString whole
    else
      match format.toList with
      | '%' :: cs =>
          match directive? [] cs with
          | some (d, _, _) => textOf (d.real x)
          | none => format
      | _ => format

/-- The value as a text. -/
def toText (format : String) : Cell → String
  | unset => ""
  | number x => numberText format x
  | text value | input value => value

/-- Is it compared as a number? -/
def isNumeric : Cell → Bool
  | unset | number _ => true
  | text _ => false
  | input value => looksNumeric value

/-- Does it count as true? -/
def holds : Cell → Bool
  | unset => false
  | number x => x != 0
  | text value => value != ""
  | input value => if looksNumeric value then leadingNumber value != 0 else value != ""

/-- A truth value. -/
def ofBool (b : Bool) : Cell := number (if b then 1 else 0)

/-- The order of two values: as numbers if both are, else as texts. -/
def order (format : String) (a b : Cell) : Option Ordering :=
  if a.isNumeric && b.isNumeric then
    let x := a.toFloat
    let y := b.toFloat
    if x < y then some .lt else if y < x then some .gt else if x == y then some .eq else none
  else some (compare (a.toText format) (b.toText format))

end Cell

end Stencil.Script
