/-
  Stencil.Formatter.RecordProgram.Reader
  ──────────────────────────────────────
  Programs over records, as they are written.

  The text is cut into tokens.  A slash starts an expression where no operand
  comes before it, and divides elsewhere.  The reader then follows the grammar,
  level by level from the weakest operator to the strongest; where it cannot
  go on, the tokens that are left tell the place.
-/
import Stencil.Formatter.RecordProgram

namespace Stencil.Script

/-! ## §1. Tokens. -/

/-- A token of a program. -/
inductive FormulaToken where
  /-- A number. -/
  | number (text : String)
  /-- A text. -/
  | text (value : String)
  /-- A regular expression. -/
  | pattern (source : String)
  /-- A name. -/
  | name (text : String)
  /-- A name with a parenthesis right behind it. -/
  | call (text : String)
  /-- A mark. -/
  | mark (text : String)
  /-- The end of a line. -/
  | line
  deriving Repr, DecidableEq

/-- All marks, the longest first. -/
def formulaMarks : List String :=
  ["&&", "||", "++", "--", "+=", "-=", "*=", "/=", "%=", "^=", "==", "<=", ">=", "!=", "!~", ">>",
   "\x7b", "\x7d", "(", ")", "[", "]", ";", ",", "+", "-", "*", "/", "%", "^", "!", ">", "<", "|",
   "?", ":", "~", "$", "="]

/-- The functions there are from the start. -/
def recordFunctions : List String :=
  ["length", "substr", "index", "split", "sub", "gsub", "match", "sprintf", "sin", "cos", "atan2",
   "exp", "log", "sqrt", "int", "rand", "srand", "toupper", "tolower", "close", "fflush",
   "system"]

/-- The words that are no names. -/
def recordWords : List String :=
  ["BEGIN", "END", "function", "func", "if", "else", "while", "for", "do", "break", "continue",
   "next", "nextfile", "exit", "return", "delete", "in", "getline", "print", "printf"]

/-- Does the token end an operand, so that a slash behind it divides? -/
def FormulaToken.endsOperand : FormulaToken → Bool
  | number _ | text _ | pattern _ => true
  | name word => !recordWords.contains word || word == "getline"
  | mark sign => [")", "]", "$", "++", "--"].contains sign
  | _ => false

/-- The characters of a text up to its closing quote, and what is left behind
it. -/
def quotedChars : Nat → List Char → Option (List Char × List Char)
  | 0, _ => none
  | _ + 1, [] => none
  | n + 1, c :: cs =>
      let plain (front rest : List Char) : Option (List Char × List Char) :=
        (quotedChars n rest).map fun (more, left) => (front ++ more, left)
      match c, cs with
      | '"', rest => some ([], rest)
      | '\\', '\n' :: rest => quotedChars n rest
      | '\\', e :: rest =>
          match ('"', (34 : Text.Byte)) :: escapeLetters |>.lookup e with
          | some byte => plain [Char.ofNat byte.toNat] rest
          | none =>
              let octal := (cs.take 3).takeWhile isOctal
              let hex := (rest.take 2).takeWhile fun c => decide (digitValue c < 16)
              if e = 'x' && !hex.isEmpty then
                plain [Char.ofNat (readDigits 16 hex).1] (rest.drop hex.length)
              else if octal.isEmpty then plain ['\\', e] rest
              else plain [Char.ofNat (octalValue octal % 256)] (cs.drop octal.length)
      | c, rest => plain [c] rest

/-- A regular expression up to its closing slash, and what is left behind it;
`inSet` tells whether a set is open. -/
def patternChars (inSet : Bool) : List Char → Option (List Char × List Char)
  | [] => none
  | '\\' :: '/' :: rest =>
      (patternChars inSet rest).map fun (more, left) => ('/' :: more, left)
  | '\\' :: e :: rest =>
      (patternChars inSet rest).map fun (more, left) => ('\\' :: e :: more, left)
  | '\n' :: _ => none
  | c :: rest =>
      if c = '/' && !inSet then some ([], rest)
      else
        let next := if c = '[' then true else if c = ']' then false else inSet
        (patternChars next rest).map fun (more, left) => (c :: more, left)

/-- The tokens of a program; `divides` tells whether an operand comes before. -/
def formulaTokens? (divides : Bool) : Nat → List Char → Option (List FormulaToken)
  | 0, _ => none
  | _ + 1, [] => some []
  | n + 1, c :: cs =>
      let put (token : FormulaToken) (rest : List Char) : Option (List FormulaToken) :=
        (formulaTokens? token.endsOperand n rest).map (token :: ·)
      match c, cs with
      | '\n', rest => put .line rest
      | '\\', '\n' :: rest => formulaTokens? divides n rest
      | '#', rest => formulaTokens? divides n (rest.dropWhile (· != '\n'))
      | '"', rest => do
          let (chars, rest) ← quotedChars (rest.length + 1) rest
          put (.text (String.ofList chars)) rest
      | c, rest =>
          if c = ' ' || c = '\t' || c = '\r' then formulaTokens? divides n rest
          else if c.isAlpha || c = '_' then
            let word := (c :: rest).takeWhile fun d => d.isAlphanum || d == '_'
            let left := (c :: rest).drop word.length
            let text := String.ofList word
            if left.head? = some '(' && !recordWords.contains text then put (.call text) left
            else put (.name text) left
          else if c.isDigit || (c = '.' && rest.head?.any Char.isDigit) then
            let used := (Decimal.readDouble (c :: rest)).2
            put (.number (String.ofList ((c :: rest).take used))) ((c :: rest).drop used)
          else if c = '/' && !divides then do
            let (source, rest) ← patternChars false rest
            put (.pattern (String.ofList source)) rest
          else
            match formulaMarks.find? fun m => m.toList.isPrefixOf (c :: rest) with
            | some m => put (.mark m) ((c :: rest).drop m.length)
            | none => none

/-! ## §2. Reading tokens. -/

/-- A reader of tokens; where it cannot go on, the tokens that are left are the
error. -/
abbrev FormulaReader := StateT (List FormulaToken) (Except (List FormulaToken))

namespace FormulaReader

/-- It does not go on here. -/
def refuse {α : Type} : FormulaReader α := do throw (← get)

/-- The next token. -/
def peek? : FormulaReader (Option FormulaToken) := do return (← get).head?

/-- Pass a token. -/
def skip : FormulaReader Unit := modify List.tail

/-- Pass a token if it comes next. -/
def take (token : FormulaToken) : FormulaReader Bool := do
  if (← peek?) = some token then
    skip
    return true
  else return false

/-- Pass a mark if it comes next. -/
def takeMark (text : String) : FormulaReader Bool := take (.mark text)

/-- Pass a word if it comes next. -/
def takeWord (text : String) : FormulaReader Bool := take (.name text)

/-- Pass a mark that has to come next. -/
def need (text : String) : FormulaReader Unit := do
  if !(← takeMark text) then refuse

/-- Pass ends of lines. -/
def skipLines : FormulaReader Unit := modify (·.dropWhile (· = .line))

/-- Pass ends of lines and semicolons. -/
def skipEnds : FormulaReader Unit := modify (·.dropWhile fun t => t = .line || t = .mark ";")

/-- A name that is no word of the language. -/
def plainName : FormulaReader String := do
  match ← peek? with
  | some (.name text) =>
      if recordWords.contains text then refuse
      else
        skip
        return text
  | _ => refuse

end FormulaReader

open FormulaReader

/-! ## §3. Formulas. -/

/-- May a value be put there? -/
def Formula.isPlace : Formula → Bool
  | named _ | field _ | element _ _ => true
  | _ => false

/-- May the token start an operand that is put behind another one? -/
def FormulaToken.startsOperand : FormulaToken → Bool
  | number _ | text _ | call _ => true
  | name word => !recordWords.contains word
  | mark sign => ["$", "(", "!", "-", "+", "++", "--"].contains sign
  | _ => false

/-- May the token start an operand that goes on with a text? -/
def FormulaToken.joins : FormulaToken → Bool
  | mark sign => ["$", "(", "++", "--"].contains sign
  | token => token.startsOperand

/-- The operators that set a place. -/
def placeOperators : List String := ["=", "+=", "-=", "*=", "/=", "%=", "^="]

/-- The operators between two operands by their level, the weakest first; the
level of texts put together has none. -/
def formulaLevels : List (List String) :=
  [["||"], ["&&"], ["in"], ["~", "!~"], ["<", "<=", "==", "!=", ">=", ">"], [], ["+", "-"],
   ["*", "/", "%"]]

/-- The level of texts that are put together. -/
def joinLevel : Nat := 5

mutual
/-- A formula; in what is printed, a greater sign is no operator. -/
def readFormula : Nat → Bool → FormulaReader Formula
  | 0, _ => refuse
  | n + 1, printed => do
      let condition ← readLevel n printed 0
      if ← takeMark "?" then
        skipLines
        let yes ← readFormula n printed
        skipLines
        need ":"
        skipLines
        return .choose condition yes (← readFormula n printed)
      else return condition

/-- A formula of a level. -/
def readLevel : Nat → Bool → Nat → FormulaReader Formula
  | 0, _, _ => refuse
  | n + 1, printed, level => do
      if level < formulaLevels.length then
        readMore n printed level (← readLevel n printed (level + 1))
      else readSigned n printed

/-- More operands of a level behind a first one. -/
def readMore : Nat → Bool → Nat → Formula → FormulaReader Formula
  | 0, _, _, _ => refuse
  | n + 1, printed, level, first => do
      let goOn (operator : String) : FormulaReader Formula := do
        let second ← readLevel n printed (level + 1)
        readMore n printed level (.binary operator first second)
      let operators := (formulaLevels[level]?).getD []
      match ← peek? with
      | some (.mark m) =>
          if operators.contains m && !(m = ">" && printed) then
            skip
            if level < 2 then skipLines
            goOn m
          else if level = joinLevel && (FormulaToken.mark m).joins then goOn ""
          else return first
      | some (.name "in") =>
          if operators.contains "in" then
            skip
            readMore n printed level (.has (← plainName) [first])
          else return first
      | some token => if level = joinLevel && token.joins then goOn "" else return first
      | none => return first

/-- An operand with signs before it. -/
def readSigned : Nat → Bool → FormulaReader Formula
  | 0, _ => refuse
  | n + 1, printed => do
      match ← peek? with
      | some (.mark m) =>
          if m = "!" || m = "-" || m = "+" then
            skip
            return .unary m (← readSigned n printed)
          else readPower n printed
      | _ => readPower n printed

/-- An operand with its exponent. -/
def readPower : Nat → Bool → FormulaReader Formula
  | 0, _ => refuse
  | n + 1, printed => do
      let base ← readPlaced n printed
      if ← takeMark "^" then return .binary "^" base (← readSigned n printed)
      else return base

/-- An operand that may be counted or set. -/
def readPlaced : Nat → Bool → FormulaReader Formula
  | 0, _ => refuse
  | n + 1, printed => do
      match ← peek? with
      | some (.mark "++") =>
          skip
          return .count (← readOperand n printed) true true
      | some (.mark "--") =>
          skip
          return .count (← readOperand n printed) false true
      | _ =>
          let operand ← readOperand n printed
          match operand.isPlace, ← peek? with
          | true, some (.mark m) =>
              if m = "++" || m = "--" then
                skip
                readScriptLines n printed (.count operand (m = "++") false)
              else if placeOperators.contains m then
                skip
                skipLines
                let operator := String.ofList (m.toList.take (m.length - 1))
                return .assign operand operator (← readFormula n printed)
              else readScriptLines n printed operand
          | _, _ => readScriptLines n printed operand

/-- The place that a line is read into, if there is one. -/
def readLinePlace : Nat → Bool → FormulaReader (Option Formula)
  | 0, _ => refuse
  | n + 1, printed => do
      match ← peek? with
      | some (.name text) =>
          if recordWords.contains text then return none else return some (← readOperand n printed)
      | some (.mark "$") => return some (← readOperand n printed)
      | _ => return none

/-- Lines that are read of what the script before has written. -/
def readScriptLines : Nat → Bool → Formula → FormulaReader Formula
  | 0, _, _ => refuse
  | n + 1, printed, script => do
      match ← get with
      | .mark "|" :: .name "getline" :: rest =>
          set rest
          let place ← readLinePlace n printed
          readScriptLines n printed (.getLine place true (some script))
      | _ => return script

/-- An operand. -/
def readOperand : Nat → Bool → FormulaReader Formula
  | 0, _ => refuse
  | n + 1, printed => do
      match ← peek? with
      | some (.number text) =>
          skip
          return .number text
      | some (.text value) =>
          skip
          return .text value
      | some (.pattern source) =>
          skip
          return .pattern source
      | some (.mark "$") =>
          skip
          match ← peek? with
          | some (.mark "-") => return .field (← readSigned n printed)
          | some (.mark "++") | some (.mark "--") => return .field (← readPlaced n printed)
          | _ => return .field (← readOperand n printed)
      | some (.mark "(") =>
          skip
          let first ← readFormula n false
          if (← peek?) = some (.mark ",") then
            let rest ← readRest n false
            need ")"
            if ← takeWord "in" then return .has (← plainName) (first :: rest)
            else refuse
          else
            need ")"
            return first
      | some (.call text) =>
          skip
          need "("
          skipLines
          let args ← if (← peek?) = some (.mark ")") then pure [] else readList n false
          skipLines
          need ")"
          return .call text args
      | some (.name "getline") =>
          skip
          let place ← readLinePlace n printed
          if ← takeMark "<" then return .getLine place false (some (← readOperand n printed))
          else return .getLine place false none
      | some (.name text) =>
          if recordFunctions.contains text then
            skip
            return .call text []
          else
            let name ← plainName
            if ← takeMark "[" then
              let keys ← readList n false
              need "]"
              return .element name keys
            else return .named name
      | _ => refuse

/-- Formulas with commas between them. -/
def readList : Nat → Bool → FormulaReader (List Formula)
  | 0, _ => refuse
  | n + 1, printed => do
      let first ← readFormula n printed
      return first :: (← readRest n printed)

/-- More formulas behind commas. -/
def readRest : Nat → Bool → FormulaReader (List Formula)
  | 0, _ => refuse
  | n + 1, printed => do
      if ← takeMark "," then
        skipLines
        let next ← readFormula n printed
        return next :: (← readRest n printed)
      else return []
end

/-! ## §4. Actions. -/

/-- Does an action end before this token? -/
def endsAction : Option FormulaToken → Bool
  | none | some .line => true
  | some (.mark m) => [";", "\x7d", ">", ">>", "|"].contains m
  | _ => false

/-- What is printed: a list in parentheses, or a list. -/
def readPrinted (n : Nat) : FormulaReader (List Formula) := do
  if endsAction (← peek?) then return []
  let grouped : FormulaReader (List Formula) := do
    need "("
    let values ← readList n false
    need ")"
    if endsAction (← peek?) then return values else refuse
  tryCatch grouped fun _ => readList n true

/-- Where a print goes to. -/
def readOutputPlace (n : Nat) : FormulaReader (Option OutputPlace) := do
  if ← takeMark ">" then return some ⟨.fresh, ← readFormula n true⟩
  else if ← takeMark ">>" then return some ⟨.behind, ← readFormula n true⟩
  else if ← takeMark "|" then return some ⟨.script, ← readFormula n true⟩
  else return none

/-- Pass the end of an action. -/
def endAction : FormulaReader Unit := do
  match ← peek? with
  | some .line | some (.mark ";") => skipEnds
  | some (.mark "\x7d") | none => return ()
  | _ => refuse

/-- A formula behind a word, unless the action ends there. -/
def readOptional (n : Nat) : FormulaReader (Option Formula) := do
  if endsAction (← peek?) then return none else return some (← readFormula n false)

/-- An action that holds no other one. -/
def readSimple (n : Nat) : FormulaReader Action := do
  match ← peek? with
  | some (.name "print") =>
      skip
      let values ← readPrinted n
      return .print values (← readOutputPlace n)
  | some (.name "printf") =>
      skip
      let values ← readPrinted n
      if values.isEmpty then refuse else return .format values (← readOutputPlace n)
  | some (.name "next") =>
      skip
      return .next
  | some (.name "nextfile") =>
      skip
      return .nextFile
  | some (.name "break") =>
      skip
      return .leave
  | some (.name "continue") =>
      skip
      return .again
  | some (.name "exit") =>
      skip
      return .exit (← readOptional n)
  | some (.name "return") =>
      skip
      return .back (← readOptional n)
  | some (.name "delete") =>
      skip
      let array ← plainName
      if ← takeMark "[" then
        let keys ← readList n false
        need "]"
        return .delete array keys
      else return .delete array []
  | _ => return .compute (← readFormula n false)

/-- The keys of an array that a loop goes through, if it is such a loop. -/
def readEach? : FormulaReader (Option (String × String)) := do
  match ← get with
  | .name name :: .name "in" :: .name array :: .mark ")" :: rest =>
      set rest
      return some (name, array)
  | _ => return none

mutual
/-- An action. -/
def readAction : Nat → FormulaReader Action
  | 0 => refuse
  | n + 1 => do
      match ← peek? with
      | some (.mark "\x7b") =>
          let block ← readBlock n
          skipEnds
          return block
      | some (.mark ";") =>
          skipEnds
          return .nothing
      | some (.name "if") =>
          skip
          need "("
          let condition ← readFormula n false
          need ")"
          skipLines
          let yes ← readAction n
          skipEnds
          if ← takeWord "else" then
            skipLines
            return .branch condition yes (← readAction n)
          else return .branch condition yes .nothing
      | some (.name "while") =>
          skip
          need "("
          let condition ← readFormula n false
          need ")"
          if ← takeMark ";" then
            skipEnds
            return .loop condition .nothing .nothing
          else
            skipLines
            return .loop condition (← readAction n) .nothing
      | some (.name "do") =>
          skip
          skipLines
          let body ← readAction n
          skipEnds
          if ← takeWord "while" then
            need "("
            let condition ← readFormula n false
            need ")"
            endAction
            return .doLoop body condition
          else refuse
      | some (.name "for") =>
          skip
          need "("
          match ← readEach? with
          | some (name, array) =>
              skipLines
              return .each name array (← readAction n)
          | none =>
              let start ← if (← peek?) = some (.mark ";") then pure .nothing else readSimple n
              need ";"
              skipLines
              let condition ← if (← peek?) = some (.mark ";") then pure (.number "1")
                else readFormula n false
              need ";"
              skipLines
              let step ← if (← peek?) = some (.mark ")") then pure .nothing else readSimple n
              need ")"
              if ← takeMark ";" then
                skipEnds
                return .sequence start (.loop condition .nothing step)
              else
                skipLines
                return .sequence start (.loop condition (← readAction n) step)
      | _ =>
          let action ← readSimple n
          endAction
          return action

/-- Actions in braces. -/
def readBlock : Nat → FormulaReader Action
  | 0 => refuse
  | n + 1 => do
      need "\x7b"
      skipEnds
      let body ← readActions n
      need "\x7d"
      return body

/-- Actions up to a closing brace. -/
def readActions : Nat → FormulaReader Action
  | 0 => refuse
  | n + 1 => do
      if (← peek?) = some (.mark "\x7d") then return .nothing
      else
        let first ← readAction n
        return .sequence first (← readActions n)
end

/-! ## §5. Programs. -/

/-- The names of parameters up to a closing parenthesis. -/
def readParams : Nat → FormulaReader (List String)
  | 0 => refuse
  | n + 1 => do
      if ← takeMark ")" then return []
      else
        let name ← plainName
        skipLines
        if ← takeMark "," then skipLines
        return name :: (← readParams n)

/-- A function behind its word. -/
def readFunction (n : Nat) : FormulaReader RecordFunction := do
  let name ← match ← peek? with
    | some (.call text) | some (.name text) => pure text
    | _ => refuse
  skip
  need "("
  let params ← readParams n
  skipLines
  return ⟨name, params, ← readBlock n⟩

/-- A rule. -/
def readRule (n number : Nat) : FormulaReader Rule := do
  let finish (pattern : RulePattern) : FormulaReader Rule := do
    if (← peek?) = some (.mark "\x7b") then return ⟨number, pattern, ← readBlock n⟩
    else return ⟨number, pattern, .print [] none⟩
  if ← takeWord "BEGIN" then return ⟨number, .first, ← readBlock n⟩
  else if ← takeWord "END" then return ⟨number, .last, ← readBlock n⟩
  else if (← peek?) = some (.mark "\x7b") then finish .always
  else
    let start ← readFormula n false
    if ← takeMark "," then
      skipLines
      finish (.range start (← readFormula n false))
    else finish (.holds start)

/-- All rules and functions of a program. -/
def readItems (fuel : Nat) : Nat → RecordProgram → FormulaReader RecordProgram
  | 0, program => return program
  | n + 1, program => do
      skipEnds
      if (← peek?).isNone then return program
      else if (← takeWord "function") || (← takeWord "func") then
        let function ← readFunction fuel
        readItems fuel n { program with functions := program.functions ++ [function] }
      else
        let rule ← readRule fuel program.rules.length
        readItems fuel n { program with rules := program.rules ++ [rule] }

/-- How a token is told in a message. -/
def FormulaToken.shown : FormulaToken → String
  | number t | name t | call t | mark t => t
  | text value => "\"" ++ value ++ "\""
  | pattern source => "/" ++ source ++ "/"
  | line => "end of line"

/-- Read a program; an error comes in words. -/
def RecordProgram.ofText (source : List Char) : Except String RecordProgram :=
  match formulaTokens? false (source.length + 1) source with
  | none => .error "line 1: syntax error"
  | some tokens =>
      match (readItems (24 * tokens.length + 100) (tokens.length + 1) ⟨[], []⟩).run tokens with
      | .ok (program, _) => .ok program
      | .error left =>
          let passed := tokens.take (tokens.length - left.length)
          let number := passed.count .line + 1
          .error (match left with
            | [] => "line " ++ toString (number + 1) ++ ": missing \x7d near end of file"
            | token :: _ =>
                "line " ++ toString number ++ ": syntax error at or near " ++ token.shown)

end Stencil.Script
