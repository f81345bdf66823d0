/-
  Stencil.Formatter.Command.Test
  ──────────────────────────────
  Tests and expressions.

  `test` tells whether something holds of texts, of numbers or of files.
  `expr` computes with texts and numbers; its operators bind in six strengths,
  and operators of the same strength are taken from the left.
-/
import Stencil.Formatter.Arithmetic
import Stencil.Formatter.Command
import Stencil.Formatter.Regex.Reader

namespace Stencil.Script

open Text (Byte)

/-! ## §1. Tests. -/

/-- Why a test cannot be decided. -/
inductive TestFault where
  /-- An operand has to be a number. -/
  | notNumber (text : String)
  /-- An operator has no operand behind it. -/
  | noOperand (operator : String)
  /-- A parenthesis is not closed. -/
  | unclosed
  /-- An operator has to stand behind a text. -/
  | noOperator (text : String)
  deriving Repr, DecidableEq

/-- The wording of a fault in a test. -/
def TestFault.message : TestFault → String
  | notNumber text => "Illegal number: " ++ text
  | noOperand operator => operator ++ ": argument expected"
  | unclosed => "closing paren expected"
  | noOperator text => (if text = "" then "" else text ++ ": ") ++ "unexpected operator"

/-- The decimal digits that a text starts with as a number, and what is left behind
them. -/
def leadingDecimal (cs : List Char) : Nat × List Char :=
  let digits := cs.takeWhile Char.isDigit
  ((readDigits 10 digits).1, cs.drop digits.length)

/-- A decimal number, with blanks around it at most. -/
def wholeNumber? (text : String) : Option Int := boundedNumber? leadingDecimal text

/-- A decimal number as an operand of a test. -/
def testNumber (text : String) : Except TestFault Int :=
  match wholeNumber? text with
  | some n => .ok n
  | none => .error (.notNumber text)

/-- What a word of a test stands for. -/
inductive TestWord where
  /-- An operator before one operand. -/
  | unary
  /-- An operator between two. -/
  | binary
  /-- The opposite. -/
  | not
  /-- Both. -/
  | and
  /-- One of two. -/
  | or
  /-- An opening parenthesis. -/
  | opens
  /-- A closing parenthesis. -/
  | closes
  /-- A text. -/
  | operand
  /-- There is no word. -/
  | ending
  deriving Repr, DecidableEq

/-- The operators before one operand. -/
def unaryOperators : List String :=
  ["-r", "-w", "-x", "-e", "-f", "-d", "-c", "-b", "-p", "-u", "-g", "-k", "-s", "-t", "-z", "-n",
   "-h", "-O", "-G", "-L", "-S"]

/-- The operators between two operands. -/
def binaryOperators : List String :=
  ["=", "!=", "<", ">", "-eq", "-ne", "-lt", "-le", "-gt", "-ge", "-nt", "-ot", "-ef"]

/-- What a word could stand for on its own; `extra` are more operators between two
operands. -/
def testWord (extra : List String) (word : String) : TestWord :=
  if unaryOperators.contains word then .unary
  else if binaryOperators.contains word || extra.contains word then .binary
  else match word with
    | "!" => .not
    | "-a" => .and
    | "-o" => .or
    | "(" => .opens
    | ")" => .closes
    | _ => .operand

/-- What the first of several words stands for. -/
def firstWord (extra : List String) : List String → TestWord
  | [] => .ending
  | word :: rest =>
      let single : Bool := match rest with
        | [] => true
        | [_] => false
        | next :: _ :: _ => testWord extra next = .binary
      match testWord extra word with
      | .unary => if single then .operand else .unary
      | .opens => if rest.isEmpty then .operand else .opens
      | kind => kind

/-- Does something hold of a file or a text? -/
def unaryTest (c : Call) (operator text : String) : Except TestFault Bool :=
  let path := c.path text
  match operator with
  | "-n" => .ok (text != "")
  | "-z" => .ok (text == "")
  | "-e" | "-r" | "-w" | "-O" | "-G" => .ok (c.tree.reaches path)
  | "-f" => .ok ((c.tree.read path).isOk && path ≠ "/dev/null")
  | "-d" | "-x" => .ok (c.tree.reachesDirectory path)
  | "-s" => .ok (c.tree.reachesDirectory path
      || ((c.tree.read path).toOption.any fun content => content != ""))
  | "-c" => .ok (path == "/dev/null")
  | "-t" => (testNumber text).map fun _ => false
  | _ => .ok false

/-- Does something hold of two texts?  No file is older or newer than another. -/
def binaryTest (c : Call) (a operator b : String) : Except TestFault Bool :=
  let compared (holds : Int → Int → Bool) : Except TestFault Bool := do
    return holds (← testNumber a) (← testNumber b)
  match operator with
  | "-nt" | "-ot" => .ok false
  | "-ef" =>
      .ok (c.tree.reaches (c.path a)
        && (c.tree.place (c.path a)).toOption = (c.tree.place (c.path b)).toOption)
  | "!=" => .ok (a != b)
  | "<" => .ok (decide (a < b))
  | ">" => .ok (decide (b < a))
  | "-eq" => compared fun x y => x == y
  | "-ne" => compared fun x y => x != y
  | "-lt" => compared fun x y => x < y
  | "-le" => compared fun x y => x ≤ y
  | "-gt" => compared fun x y => y < x
  | "-ge" => compared fun x y => y ≤ x
  | _ => .ok (a == b)

/-- A condition that was decided, and the words from its last one on. -/
abbrev TestRead := Except TestFault (Bool × List String)

mutual
/-- Does one of several conditions hold?  `first` is what the first word stands
for. -/
def anyHolds (c : Call) (extra : List String) : Nat → TestWord → List String → TestRead
  | 0, _, words => .ok (false, words)
  | fuel + 1, first, words => do
      let (holds, left) ← allHold c extra fuel first words
      if firstWord extra left.tail = .or then
        let next := left.drop 2
        let (more, left) ← anyHolds c extra fuel (firstWord extra next) next
        return (holds || more, left)
      else return (holds, left)

/-- Do several conditions hold? -/
def allHold (c : Call) (extra : List String) : Nat → TestWord → List String → TestRead
  | 0, _, words => .ok (false, words)
  | fuel + 1, first, words => do
      let (holds, left) ← oneHolds c extra fuel first words
      if firstWord extra left.tail = .and then
        let next := left.drop 2
        let (more, left) ← allHold c extra fuel (firstWord extra next) next
        return (holds && more, left)
      else return (holds, left)

/-- Does one condition hold, or its opposite? -/
def oneHolds (c : Call) (extra : List String) : Nat → TestWord → List String → TestRead
  | 0, _, words => .ok (false, words)
  | fuel + 1, first, words =>
      match first, words with
      | .not, words => do
          let next := firstWord extra words.tail
          let (holds, left) ← oneHolds c extra fuel next
            (if next = .ending then words else words.tail)
          return (!holds, left)
      | .ending, words => .ok (false, words)
      | _, [] => .ok (false, [])
      | .opens, _ :: rest => do
          if firstWord extra rest = .closes then return (false, rest)
          let (holds, left) ← anyHolds c extra fuel (firstWord extra rest) rest
          if firstWord extra left.tail = .closes then return (holds, left.tail)
          throw .unclosed
      | .unary, operator :: rest =>
          match rest with
          | [] => .error (.noOperand operator)
          | text :: _ => (unaryTest c operator text).map (·, rest)
      | _, a :: rest =>
          match firstWord extra rest, rest with
          | .binary, operator :: rest =>
              match rest with
              | [] => .error (.noOperand operator)
              | b :: _ => (binaryTest c a operator b).map (·, rest)
          | _, _ => .ok (a != "", a :: rest)
end

/-- Does a test hold?  Up to four words are told apart by their number first. -/
def holds (c : Call) (extra : List String) (words : List String) : Except TestFault Bool :=
  let decided (first : TestWord) (words : List String) : Except TestFault Bool := do
    let (holds, left) ← anyHolds c extra (3 * words.length + 8) first words
    match left with
    | text :: _ :: _ => throw (.noOperator text)
    | _ => return holds
  let whole (words : List String) : Except TestFault Bool := decided (firstWord extra words) words
  let three (words : List String) : Except TestFault Bool :=
    match words with
    | [_, operator, _] =>
        if testWord extra operator = .binary then decided .operand words
        else
          match words with
          | ["(", text, ")"] => whole [text]
          | ["!", a, b] => (whole [a, b]).map (!·)
          | words => whole words
    | words => whole words
  match words with
  | [] => .ok false
  | ["(", a, b, ")"] => whole [a, b]
  | ["!", a, b, d] => (three [a, b, d]).map (!·)
  | words => three words

/-- Test a condition; `extra` are more operators between two operands. -/
def testWith (extra : List String) : Command := fun c =>
  match holds c extra c.args with
  | .ok true => c.silent 0
  | .ok false => c.silent 1
  | .error fault => c.fail 2 fault.message

/-- Test a condition in brackets. -/
def bracketsWith (extra : List String) : Command := fun c =>
  if c.args.getLast? = some "]" then testWith extra { c with args := c.args.dropLast }
  else c.fail 2 "missing ]"

/-! ## §2. Expressions. -/

/-- Why an expression has no value. -/
inductive ExprFault where
  /-- An argument is missing at the end. -/
  | missing
  /-- A closing parenthesis is missing before an argument, or at the end. -/
  | unclosed (next : Option String)
  /-- A closing parenthesis closes nothing. -/
  | unopened
  /-- A text is no pattern. -/
  | noPattern (message : String)
  /-- An operand has to be a number. -/
  | notNumber
  /-- A number is divided by zero. -/
  | divided
  deriving Repr, DecidableEq

/-- The wording of a fault; `last` is the last argument. -/
def ExprFault.message (last : String) : ExprFault → String
  | missing => "syntax error: missing argument after " ++ quotedArg last
  | unclosed none => "syntax error: expecting ')' after " ++ quotedArg last
  | unclosed (some next) => "syntax error: expecting ')' instead of " ++ quotedArg next
  | unopened => "syntax error: unexpected ')'"
  | noPattern message => message
  | notNumber => "non-integer argument"
  | divided => "division by zero"

/-- A whole number of any size, without blanks. -/
def plainNumber? (text : String) : Option Int :=
  match text.toList with
  | '-' :: digits =>
      match readDigits 10 digits with
      | (n, true) => some (-n)
      | (_, false) => none
  | digits =>
      match readDigits 10 digits with
      | (n, true) => some n
      | (_, false) => none

/-- Is the value nothing, or zero? -/
def isNull (value : String) : Bool :=
  value = "" || (plainNumber? value == some 0 && value.toList.all fun c => c == '0' || c == '-')

/-- Match a text from its start on: what the first group has matched, or how
many bytes there were. -/
def matchStart (text pattern : String) : Except ExprFault String := do
  let regex ← (Regex.ofText ⟨false, true, false⟩ pattern.toList).mapError .noPattern
  let s := Subject.ofBytes (bytesOf text)
  let grouped := 0 < regex.groupCount
  return match (Regex.both (.place .textStart) regex).find? s 0 with
    | none => if grouped then "" else "0"
    | some m => if grouped then textOf (m.groupBytes s 1) else toString m.stop

/-- Combine two values by an operator. -/
def combine (operator a b : String) : Except ExprFault String :=
  let truth (t : Bool) : Except ExprFault String := .ok (if t then "1" else "0")
  let numbers (f : Int → Int → Except ExprFault String) : Except ExprFault String :=
    match plainNumber? a, plainNumber? b with
    | some x, some y => f x y
    | _, _ => .error .notNumber
  let compared (f : Ordering → Bool) : Except ExprFault String :=
    match plainNumber? a, plainNumber? b with
    | some x, some y => truth (f (compare x y))
    | _, _ => truth (f (compare a b))
  match operator with
  | "|" => .ok (if isNull a then (if isNull b then "0" else b) else a)
  | "&" => .ok (if isNull a || isNull b then "0" else a)
  | "=" | "==" => compared (· == .eq)
  | "!=" => compared (· != .eq)
  | "<" => compared (· == .lt)
  | "<=" => compared (· != .gt)
  | ">" => compared (· == .gt)
  | ">=" => compared (· != .lt)
  | "+" => numbers fun x y => .ok (toString (x + y))
  | "-" => numbers fun x y => .ok (toString (x - y))
  | "*" => numbers fun x y => .ok (toString (x * y))
  | "/" => numbers fun x y => if y = 0 then .error .divided else .ok (toString (x.tdiv y))
  | "%" => numbers fun x y => if y = 0 then .error .divided else .ok (toString (x.tmod y))
  | _ => matchStart a b

/-- The operators by their strength, the weakest first. -/
def exprOperators : List (List String) :=
  [["|"], ["&"], ["=", "==", "!=", "<", "<=", ">", ">="], ["+", "-"], ["*", "/", "%"], [":"]]

/-- The part of a text from a position on, so many bytes long. -/
def partOf (text : String) (position count : Int) : String :=
  if position ≤ 0 || count ≤ 0 then ""
  else String.ofList ((text.toList.drop (position.toNat - 1)).take count.toNat)

/-- The first position of one of some characters; zero if there is none. -/
def positionOf (text characters : String) : Nat :=
  match text.toList.findIdx? fun c => characters.toList.contains c with
  | some n => n + 1
  | none => 0

mutual
/-- An expression of a strength, given by what is left of the operators. -/
def exprValue : Nat → List (List String) → List String → Except ExprFault (String × List String)
  | 0, _, _ => .error .missing
  | fuel + 1, [], args => exprOperand fuel args
  | fuel + 1, level :: stronger, args => do
      let (first, rest) ← exprValue fuel stronger args
      exprRest fuel level stronger first rest

/-- More operands of the same strength. -/
def exprRest : Nat → List String → List (List String) → String → List String →
    Except ExprFault (String × List String)
  | 0, _, _, _, _ => .error .missing
  | fuel + 1, level, stronger, first, args =>
      match args with
      | operator :: rest =>
          if level.contains operator then do
            let (second, rest) ← exprValue fuel stronger rest
            exprRest fuel level stronger (← combine operator first second) rest
          else .ok (first, args)
      | [] => .ok (first, [])

/-- A value by itself. -/
def exprOperand : Nat → List String → Except ExprFault (String × List String)
  | 0, _ => .error .missing
  | fuel + 1, args =>
      match args with
      | [] => .error .missing
      | ")" :: _ => .error .unopened
      | "(" :: rest => do
          let (value, rest) ← exprValue fuel exprOperators rest
          match rest with
          | ")" :: rest => return (value, rest)
          | rest => throw (.unclosed rest.head?)
      | "length" :: rest => do
          let (text, rest) ← exprOperand fuel rest
          return (toString text.length, rest)
      | "match" :: rest => do
          let (text, rest) ← exprOperand fuel rest
          let (pattern, rest) ← exprOperand fuel rest
          return (← matchStart text pattern, rest)
      | "index" :: rest => do
          let (text, rest) ← exprOperand fuel rest
          let (characters, rest) ← exprOperand fuel rest
          return (toString (positionOf text characters), rest)
      | "substr" :: rest => do
          let (text, rest) ← exprOperand fuel rest
          let (position, rest) ← exprOperand fuel rest
          let (count, rest) ← exprOperand fuel rest
          return (partOf text ((plainNumber? position).getD 0) ((plainNumber? count).getD 0), rest)
      | ["+"] => .error .missing
      | "+" :: text :: rest => .ok (text, rest)
      | text :: rest => .ok (text, rest)
end

/-- Compute an expression. -/
def expr : Command := fun c =>
  let fuel := 16 * c.args.length + 16
  match c.args, exprValue fuel exprOperators c.args with
  | [], _ => c.fail 2 "missing operand\nTry 'expr --help' for more information."
  | _, .ok (value, []) =>
      { c.say (bytesOf (value ++ "\n")) with status := if isNull value then 1 else 0 }
  | _, .ok (_, extra :: _) => c.fail 2 ("syntax error: unexpected argument '" ++ extra ++ "'")
  | args, .error fault => c.fail 2 (fault.message ((args.getLast?).getD ""))

end Stencil.Script
