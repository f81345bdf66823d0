/-
  Stencil.Formatter.Arithmetic
  ────────────────────────────
  Computing inside of scripts.

  Values are whole numbers of sixty-four bits that wrap around; a number that is
  written too large is the largest one.  Names stand for variables, which may be
  set on the way; what a condition leaves out is not computed.
-/
import Stencil.Formatter.Printf

namespace Stencil.Script

/-! ## §1. Expressions. -/

/-- An expression. -/
inductive Arith where
  /-- A number. -/
  | number (n : Int)
  /-- The value of a variable. -/
  | name (text : String)
  /-- An operator before one operand. -/
  | unary (operator : String) (operand : Arith)
  /-- An operator between two. -/
  | binary (operator : String) (first second : Arith)
  /-- One of two by a condition. -/
  | choose (condition yes no : Arith)
  /-- Set a variable, with an operator on its value or without. -/
  | assign (name operator : String) (value : Arith)
  deriving Repr, DecidableEq

/-- Why an expression has no value. -/
inductive ArithFault where
  /-- An operand is missing. -/
  | noOperand
  /-- Something is left behind the expression. -/
  | noEnd
  /-- A closing parenthesis is missing. -/
  | noParenthesis
  /-- The second choice is missing. -/
  | noColon
  /-- A number is divided by zero. -/
  | zeroDivisor
  /-- A variable holds something else than a number. -/
  | notNumber (text : String)
  /-- A variable keeps its value. -/
  | fixed (name : String)
  deriving Repr, DecidableEq

/-- The wording of a fault in an expression. -/
def ArithFault.message (source : String) : ArithFault → String
  | noOperand => told "expecting primary"
  | noEnd => told "expecting EOF"
  | noParenthesis => told "expecting ')'"
  | noColon => told "expecting ':'"
  | zeroDivisor => told "division by zero"
  | notNumber text => "Illegal number: " ++ text
  | fixed name => name ++ ": is read only"
where
  /-- What is wrong, with the expression behind it. -/
  told (what : String) : String := "arithmetic expression: " ++ what ++ ": \"" ++ source ++ "\""

/-- A piece of an expression. -/
inductive ArithToken where
  /-- A number. -/
  | number (n : Nat)
  /-- A name. -/
  | name (text : String)
  /-- An operator or a parenthesis. -/
  | mark (text : String)
  /-- Where there is no piece. -/
  | noPiece
  deriving Repr, DecidableEq

/-- The operators that set a variable. -/
def assigners : List String :=
  ["=", "+=", "-=", "*=", "/=", "%=", "<<=", ">>=", "&=", "|=", "^="]

/-- All marks, the longest first. -/
def arithMarks : List String :=
  ["<<=", ">>=", "&&", "||", "<<", ">>", "<=", ">=", "==", "!=", "+=", "-=", "*=", "/=", "%=",
   "&=", "|=", "^=", "+", "-", "*", "/", "%", "<", ">", "=", "!", "~", "&", "|", "^", "?", ":",
   "(", ")"]

/-- The largest number. -/
def largestValue : Nat := 0x7fffffffffffffff

/-- The pieces of an expression, up to where there is none. -/
def arithTokens : Nat → List Char → List ArithToken
  | 0, _ => []
  | _ + 1, [] => []
  | fuel + 1, c :: cs =>
      if c = ' ' || c = '\t' || c = '\n' then arithTokens fuel cs
      else if c.isDigit then
        let (n, rest) := leadingNumeral (c :: cs)
        .number (min n largestValue) :: arithTokens fuel rest
      else if c.isAlpha || c = '_' then
        let text := (c :: cs).takeWhile fun d => d.isAlphanum || d == '_'
        .name (String.ofList text) :: arithTokens fuel ((c :: cs).drop text.length)
      else
        match arithMarks.find? fun m => m.toList.isPrefixOf (c :: cs) with
        | some m => .mark m :: arithTokens fuel ((c :: cs).drop m.length)
        | none => [.noPiece]

/-- The operators between two operands by their strength, the weakest first. -/
def arithLevels : List (List String) :=
  [["||"], ["&&"], ["|"], ["^"], ["&"], ["==", "!="], ["<", ">", "<=", ">="], ["<<", ">>"],
   ["+", "-"], ["*", "/", "%"]]

/-- An expression that was read, and what is left behind it. -/
abbrev ArithRead := Except ArithFault (Arith × List ArithToken)

mutual
/-- An expression of any kind. -/
def arithWhole : Nat → List ArithToken → ArithRead
  | 0, _ => .error .noOperand
  | fuel + 1, tokens =>
      match tokens with
      | .name n :: .mark m :: rest =>
          if assigners.contains m then do
            let (value, rest) ← arithWhole fuel rest
            return (.assign n (String.ofList (m.toList.take (m.length - 1))) value, rest)
          else arithChoice fuel tokens
      | tokens => arithChoice fuel tokens

/-- An expression that may have a condition. -/
def arithChoice : Nat → List ArithToken → ArithRead
  | 0, _ => .error .noOperand
  | fuel + 1, tokens => do
      let (condition, rest) ← arithLevel fuel arithLevels tokens
      match rest with
      | .mark "?" :: rest =>
          let (yes, rest) ← arithWhole fuel rest
          match rest with
          | .mark ":" :: rest =>
              let (no, rest) ← arithChoice fuel rest
              return (.choose condition yes no, rest)
          | _ => throw .noColon
      | rest => return (condition, rest)

/-- An expression of a strength. -/
def arithLevel : Nat → List (List String) → List ArithToken → ArithRead
  | 0, _, _ => .error .noOperand
  | fuel + 1, [], tokens => arithOperand fuel tokens
  | fuel + 1, level :: stronger, tokens => do
      let (first, rest) ← arithLevel fuel stronger tokens
      arithMore fuel level stronger first rest

/-- More operands of the same strength. -/
def arithMore : Nat → List String → List (List String) → Arith → List ArithToken → ArithRead
  | 0, _, _, _, _ => .error .noOperand
  | fuel + 1, level, stronger, first, tokens =>
      match tokens with
      | .mark m :: rest =>
          if level.contains m then do
            let (second, rest) ← arithLevel fuel stronger rest
            arithMore fuel level stronger (.binary m first second) rest
          else .ok (first, tokens)
      | tokens => .ok (first, tokens)

/-- An operand with the operators before it. -/
def arithOperand : Nat → List ArithToken → ArithRead
  | 0, _ => .error .noOperand
  | fuel + 1, tokens =>
      match tokens with
      | .number n :: rest => .ok (.number n, rest)
      | .name n :: rest => .ok (.name n, rest)
      | .mark "(" :: rest => do
          let (inner, rest) ← arithWhole fuel rest
          match rest with
          | .mark ")" :: rest => return (inner, rest)
          | _ => throw .noParenthesis
      | .mark m :: rest =>
          if ["-", "+", "!", "~"].contains m then do
            let (operand, rest) ← arithOperand fuel rest
            return (.unary m operand, rest)
          else .error .noOperand
      | _ => .error .noOperand
end

/-- Read an expression. -/
def Arith.ofText (text : List Char) : Except ArithFault Arith := do
  let tokens := arithTokens (text.length + 1) text
  let (found, rest) ← arithWhole (16 * tokens.length + 16) tokens
  if rest.isEmpty then return found else throw .noEnd

/-! ## §2. Values. -/

/-- The number of values there are. -/
def wordModulus : Nat := 0x10000000000000000

/-- A number as a value. -/
def wrapped (n : Int) : Int := Int.bmod n wordModulus

/-- The bits of a value. -/
def bitsOf (n : Int) : Nat := (n % (wordModulus : Int)).toNat

/-- The value of an operator on two operands. -/
def operate (operator : String) (a b : Int) : Except ArithFault Int :=
  let truth (t : Bool) : Except ArithFault Int := .ok (if t then 1 else 0)
  let bits (f : Nat → Nat → Nat) : Except ArithFault Int :=
    .ok (wrapped (f (bitsOf a) (bitsOf b)))
  match operator with
  | "+" => .ok (wrapped (a + b))
  | "-" => .ok (wrapped (a - b))
  | "*" => .ok (wrapped (a * b))
  | "/" => if b = 0 then .error .zeroDivisor else .ok (wrapped (a.tdiv b))
  | "%" => if b = 0 then .error .zeroDivisor else .ok (a.tmod b)
  | "<<" => .ok (wrapped ((bitsOf a <<< (bitsOf b % 64) : Nat) : Int))
  | ">>" => .ok (a >>> (bitsOf b % 64))
  | "&" => bits (· &&& ·)
  | "|" => bits (· ||| ·)
  | "^" => bits (· ^^^ ·)
  | "==" => truth (a == b)
  | "!=" => truth (a != b)
  | "<" => truth (a < b)
  | ">" => truth (b < a)
  | "<=" => truth (a ≤ b)
  | _ => truth (b ≤ a)

/-- A number with a sign and with blanks around it at most, within the bounds of
values; `numeral` reads its digits. -/
def boundedNumber? (numeral : List Char → Nat × List Char) (text : String) : Option Int :=
  let cs := text.toList.dropWhile isSpaceChar
  let (negative, digits) := match cs with
    | '-' :: rest => (true, rest)
    | '+' :: rest => (false, rest)
    | rest => (false, rest)
  let (n, rest) := numeral digits
  let value : Int := if negative then -n else n
  if rest.length = digits.length || !rest.all isSpaceChar then none
  else if value = wrapped value then some value
  else none

/-- Variables and their values; the first entry of a name counts. -/
abbrev Bindings := List (String × String)

/-- The number a variable holds; an empty one holds zero. -/
def numberIn (bindings : Bindings) (name : String) : Except ArithFault Int :=
  let text := (bindings.lookup name).getD ""
  if text.toList.all isSpaceChar then .ok 0
  else
    match boundedNumber? leadingNumeral text with
    | some n => .ok n
    | none => .error (.notNumber text)

/-- Compute an expression: its value, and the variables as they are then; the
variables in a list keep their values. -/
def Arith.value (fixed : List String) : Arith → Bindings → Except ArithFault (Int × Bindings)
  | .number n, s => .ok (wrapped n, s)
  | .name text, s => (numberIn s text).map (·, s)
  | .unary operator operand, s => do
      let (n, s) ← operand.value fixed s
      let result := match operator with
        | "-" => wrapped (-n)
        | "!" => if n = 0 then 1 else 0
        | "~" => -n - 1
        | _ => n
      return (result, s)
  | .binary operator first second, s => do
      let (a, s) ← first.value fixed s
      if operator = "&&" && a = 0 then return (0, s)
      if operator = "||" && a ≠ 0 then return (1, s)
      let (b, s) ← second.value fixed s
      if operator = "&&" || operator = "||" then return (if b = 0 then 0 else 1, s)
      return (← operate operator a b, s)
  | .choose condition yes no, s => do
      let (c, s) ← condition.value fixed s
      if c ≠ 0 then yes.value fixed s else no.value fixed s
  | .assign target operator value, s => do
      let (b, s) ← value.value fixed s
      let result ← if operator = "" then pure b else do operate operator (← numberIn s target) b
      if fixed.contains target then throw (.fixed target)
      return (result, (target, toString result) :: s)

end Stencil.Script
