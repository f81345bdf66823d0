/-
  Stencil.Template.Token
  ──────────────────────
  The tokens of a template, and how messages show them.

  A template is text with actions between double braces.  Outside actions
  there is one token per stretch of text; inside there are operands,
  keywords and punctuation.  Every token carries the byte offset of its
  first character, a text that of its stretch before trimming.
-/
import Stencil.Text.Quoted

namespace Stencil.Template

/-! ## §1. Keywords. -/

/-- Words with a meaning of their own at the head of an action. -/
inductive Keyword where
  | ifWord | elseWord | endWord | rangeWord | withWord
  | breakWord | continueWord | templateWord | defineWord | blockWord
  deriving Repr, DecidableEq

namespace Keyword

/-- Every keyword. -/
def all : List Keyword :=
  [ifWord, elseWord, endWord, rangeWord, withWord,
   breakWord, continueWord, templateWord, defineWord, blockWord]

/-- The keyword as templates write it. -/
def spelling : Keyword → String
  | ifWord => "if"
  | elseWord => "else"
  | endWord => "end"
  | rangeWord => "range"
  | withWord => "with"
  | breakWord => "break"
  | continueWord => "continue"
  | templateWord => "template"
  | defineWord => "define"
  | blockWord => "block"

/-- The keyword as messages show it. -/
def label : Keyword → String
  | ifWord => "If"
  | elseWord => "Else"
  | endWord => "End"
  | rangeWord => "Range"
  | withWord => "With"
  | breakWord => "Break"
  | continueWord => "Continue"
  | templateWord => "Template"
  | defineWord => "Define"
  | blockWord => "Block"

/-- The keyword a word is, if any. -/
def ofWord? (word : String) : Option Keyword :=
  all.find? (·.spelling == word)

/-- Every keyword is read back from its spelling. -/
theorem ofWord?_spelling (k : Keyword) : ofWord? k.spelling = some k := by
  cases k <;> decide

end Keyword

/-! ## §2. Tokens. -/

/-- A token. -/
inductive Token where
  /-- Text outside actions. -/
  | text (content : String)
  /-- The opening delimiter of an action. -/
  | leftDelim
  /-- The closing delimiter of an action, with or without a trim marker. -/
  | rightDelim
  /-- A dot alone: the current value. -/
  | dot
  /-- A chain of member names, each with its dot. -/
  | field (names : List String)
  /-- A word that is no keyword. -/
  | word (text : String)
  /-- A variable, without its dollar sign. -/
  | var (name : String)
  /-- A quoted or raw string, by its value. -/
  | str (value : String)
  /-- A number as written. -/
  | number (text : String)
  /-- A keyword. -/
  | keyword (k : Keyword)
  /-- The bar between commands. -/
  | pipe
  /-- The sign that declares a variable. -/
  | declare
  /-- The sign that assigns a variable. -/
  | assign
  /-- An opening parenthesis. -/
  | leftParen
  /-- A closing parenthesis. -/
  | rightParen
  /-- The end of the template. -/
  | eof
  deriving Repr, DecidableEq

namespace Token

/-- The token's sort, in one word. -/
def label : Token → String
  | text _ => "Text"
  | leftDelim => "LeftDelim"
  | rightDelim => "RightDelim"
  | dot => "Dot"
  | field _ => "Field"
  | word _ => "Ident"
  | var _ => "Variable"
  | str _ => "String"
  | number _ => "Number"
  | keyword k => k.label
  | pipe => "Pipe"
  | declare => "Declare"
  | assign => "Assign"
  | leftParen => "LParen"
  | rightParen => "RParen"
  | eof => "Eof"

/-- The token as messages show it: its sort, and its contents quoted. -/
def shown (token : Token) : String :=
  match token with
  | text s | word s | var s | str s | number s =>
      token.label ++ "(" ++ Text.quoted s ++ ")"
  | field names =>
      token.label ++ "([" ++ ", ".intercalate (names.map Text.quoted) ++ "])"
  | _ => token.label

end Token

/-- A token in its place. -/
structure PlacedToken where
  /-- The byte offset of its first character. -/
  pos : Nat
  /-- What it is. -/
  token : Token
  deriving Repr, DecidableEq

end Stencil.Template
