/-
  Stencil.Template.Token.Lexer
  ────────────────────────────
  Characters into tokens.

  Text runs up to the next double brace.  What follows is an action, or a
  comment, which leaves no token.  A hyphen right after the opening braces
  with a blank behind it trims the text before; a hyphen right before the
  closing braces with a blank in front of it trims the text after.  The blank
  that leads an action does not count as the one in front of a hyphen.

  Every reader here takes the characters that follow and says how many of
  them it used, so each loop ends because its rest is shorter.
-/
import Stencil.Error

namespace Stencil.Template

open Text (isBlank isWordStart isWordChar trimStart trimEnd width)

/-! ## §1. Operands. -/

/-- The single characters that are tokens of their own. -/
def punctuation? (c : Char) : Option Token :=
  if c = '=' then some .assign
  else if c = '|' then some .pipe
  else if c = '(' then some .leftParen
  else if c = ')' then some .rightParen
  else none

/-- The member names of a chain that starts here, each behind its dot. -/
def memberChain : List Char → List (List Char)
  | '.' :: c :: cs =>
      if isWordStart c then
        let more := cs.takeWhile isWordChar
        (c :: more) :: memberChain (cs.drop more.length)
      else []
  | _ => []
termination_by cs => cs.length
decreasing_by simp only [List.length_cons, List.length_drop]; omega

/-- A dot alone, or the chain that starts with it. -/
def dotted (cs : List Char) : Token × Nat :=
  match memberChain ('.' :: cs) with
  | [] => (.dot, 0)
  | names =>
      (.field (names.map String.ofList), (names.flatMap ('.' :: ·)).length - 1)

/-- The characters that have an escape of their own in quoted strings. -/
def unescape? (c : Char) : Option Char :=
  if c = 'n' then some '\n'
  else if c = 't' then some '\t'
  else if c = 'r' then some '\r'
  else if c = '\\' then some '\\'
  else if c = '"' then some '"'
  else none

/-- The value of a quoted string whose opening quote came before. -/
def quotedValue : List Char → Except Fault (List Char × Nat)
  | [] => .error .unterminatedQuoted
  | c :: cs =>
      if c = '"' then .ok ([], 1)
      else if c = '\n' then .error .unterminatedQuoted
      else if c = '\\' then
        match cs with
        | [] => .error .unterminatedQuoted
        | e :: cs =>
            match unescape? e with
            | none => .error (.unknownEscape e)
            | some v => (quotedValue cs).map fun (value, n) => (v :: value, n + 2)
      else (quotedValue cs).map fun (value, n) => (c :: value, n + 1)

/-- The value of a raw string whose opening back quote came before. -/
def rawValue (cs : List Char) : Except Fault (List Char × Nat) :=
  let value := cs.takeWhile (· != '\x60')
  if value.length < cs.length then .ok (value, value.length + 1)
  else .error .unterminatedRaw

/-- The characters a number goes on with. -/
def isNumberChar (c : Char) : Bool :=
  c.isAlphanum || c == '.' || c == '_'

/-- A digit starts a number, and so does a sign before a digit. -/
def startsNumber (c : Char) (cs : List Char) : Bool :=
  c.isDigit || ((c == '-' || c == '+') && cs.head?.any Char.isDigit)

/-- A word is a keyword or a name. -/
def wordToken (word : List Char) : Token :=
  let text := String.ofList word
  match Keyword.ofWord? text with
  | some k => .keyword k
  | none => .word text

/-- The operand, keyword or sign that starts with `c`, and how many of the
characters behind `c` belong to it. -/
def operand (c : Char) (cs : List Char) : Except Fault (Token × Nat) :=
  if c = '.' then .ok (dotted cs)
  else if c = '$' then
    let name := cs.takeWhile isWordChar
    .ok (.var (String.ofList name), name.length)
  else if c = ':' && cs.head? == some '=' then .ok (.declare, 1)
  else if c = '"' then (quotedValue cs).map fun (value, n) => (.str (String.ofList value), n)
  else if c = '\x60' then (rawValue cs).map fun (value, n) => (.str (String.ofList value), n)
  else if startsNumber c cs then
    let more := cs.takeWhile isNumberChar
    .ok (.number (String.ofList (c :: more)), more.length)
  else if isWordStart c then
    let more := cs.takeWhile isWordChar
    .ok (wordToken (c :: more), more.length)
  else
    match punctuation? c with
    | some token => .ok (token, 0)
    | none => .error (.unexpectedChar c)

/-! ## §2. Actions. -/

/-- Where the first pair of these two characters stands. -/
def findPair (a b : Char) : List Char → Option Nat
  | [] => none
  | c :: cs =>
      if c = a && cs.head? == some b then some 0
      else (findPair a b cs).map (· + 1)

/-- A closing delimiter that stands here: whether it trims, and its length.
A trim marker needs a blank in front of it. -/
def closing? (afterBlank : Bool) : List Char → Option (Bool × Nat)
  | '}' :: '}' :: _ => some (false, 2)
  | '-' :: '}' :: '}' :: _ => if afterBlank then some (true, 3) else none
  | _ => none

/-- What an action leaves behind. -/
structure ActionTokens where
  /-- Its tokens. -/
  tokens : List PlacedToken
  /-- Does it trim the text after it? -/
  trim : Bool
  /-- How many characters it takes. -/
  count : Nat

/-- The tokens of an action up to its closing delimiter; `start` is the
offset of its opening one. -/
def actionTokens (start pos : Nat) (cs : List Char) : Except Error ActionTokens :=
  let blanks := cs.takeWhile isBlank
  let here := pos + width blanks
  match _h : cs.drop blanks.length with
  | [] => .error (.malformed .unclosedAction start)
  | c :: rest =>
      match closing? (!blanks.isEmpty) (c :: rest) with
      | some (trim, n) => .ok ⟨[⟨here, .rightDelim⟩], trim, blanks.length + n⟩
      | none =>
          match operand c rest with
          | .error fault => .error (.malformed fault here)
          | .ok (token, n) =>
              (actionTokens start (here + c.utf8Size + width (rest.take n)) (rest.drop n)).map
                fun more =>
                  { more with
                    tokens := ⟨here, token⟩ :: more.tokens
                    count := blanks.length + 1 + n + more.count }
termination_by cs.length
decreasing_by
  have hlen := congrArg List.length _h
  simp only [List.length_drop, List.length_cons] at hlen ⊢
  omega

/-- A comment, which stands at the head of `cs` and must be all of its action. -/
def comment (start : Nat) (cs : List Char) : Except Error ActionTokens :=
  match findPair '*' '/' cs with
  | none => .error (.malformed .unclosedComment start)
  | some n =>
      let rest := cs.drop (n + 2)
      let blanks := rest.takeWhile isBlank
      match closing? (!blanks.isEmpty) (rest.drop blanks.length) with
      | some (trim, k) => .ok ⟨[], trim, n + 2 + blanks.length + k⟩
      | none => .error (.malformed .commentNotLast start)

/-- A comment or an action; `cs` follows the opening delimiter and its trim
marker. -/
def action (start pos : Nat) (cs : List Char) : Except Error ActionTokens :=
  let blanks := cs.takeWhile isBlank
  let rest := cs.drop blanks.length
  if ['/', '*'].isPrefixOf rest then
    (comment start rest).map fun found => { found with count := blanks.length + found.count }
  else
    (actionTokens start (pos + width blanks) rest).map fun found =>
      { found with
        tokens := ⟨start, .leftDelim⟩ :: found.tokens
        count := blanks.length + found.count }

/-! ## §3. Whole templates. -/

/-- A hyphen with a blank behind it. -/
def opensWithTrim : List Char → Bool
  | '-' :: c :: _ => isBlank c
  | _ => false

/-- The token of a stretch of text, unless trimming leaves nothing of it. -/
def textTokens (pos : Nat) (trimLeft trimRight : Bool) (raw : List Char) : List PlacedToken :=
  let kept := if trimLeft then trimStart raw else raw
  let kept := if trimRight then trimEnd kept else kept
  if kept.isEmpty then [] else [⟨pos, .text (String.ofList kept)⟩]

/-- The tokens of what is left of a template; `trim` says whether the last
action trims the text that comes now. -/
def tokensFrom (pos : Nat) (trim : Bool) (cs : List Char) : Except Error (List PlacedToken) :=
  match _hcs : cs with
  | [] => .ok [⟨pos, .eof⟩]
  | _ :: _ =>
      match findPair '{' '{' cs with
      | none => .ok (textTokens pos trim false cs ++ [⟨pos + width cs, .eof⟩])
      | some n =>
          let start := pos + width (cs.take n)
          let marked := opensWithTrim (cs.drop (n + 2))
          let opening := n + (if marked then 3 else 2)
          match action start (pos + width (cs.take opening)) (cs.drop opening) with
          | .error e => .error e
          | .ok found =>
              let used := opening + found.count
              (tokensFrom (pos + width (cs.take used)) found.trim (cs.drop used)).map fun more =>
                textTokens pos trim marked (cs.take n) ++ found.tokens ++ more
termination_by cs.length
decreasing_by
  subst _hcs
  simp only [List.length_drop, List.length_cons]
  split <;> omega

/-- The tokens of a template, the last of which is its end. -/
def tokens (source : String) : Except Error (List PlacedToken) :=
  tokensFrom 0 false source.toList

end Stencil.Template
