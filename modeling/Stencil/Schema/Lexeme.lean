/-
  Stencil.Schema.Lexeme
  ─────────────────────
  The lexemes of type expressions.

  An expression is cut into words, runs of digits and single other
  characters, each as long as it can be; blanks only separate.  Every lexeme
  remembers the byte offsets of its start and of its end.
-/
import Stencil.Text.Blank
import Stencil.Text.Offset
import Stencil.Text.Word

namespace Stencil.Schema

open Text (isBlank isWordStart isWordChar width)

/-- The smallest units of a type expression. -/
inductive Lexeme where
  /-- An identifier. -/
  | word (text : String)
  /-- A run of decimal digits. -/
  | digits (text : List Char)
  /-- Any other character that is no blank. -/
  | mark (char : Char)
  deriving Repr, DecidableEq

/-- A lexeme in its place. -/
structure PlacedLexeme where
  /-- What it is. -/
  lexeme : Lexeme
  /-- The offset of its first byte. -/
  start : Nat
  /-- The offset right after its last byte. -/
  stop : Nat
  deriving Repr, DecidableEq

/-- The lexeme that starts with `c`, and how many characters of what follows
belong to it. -/
def Lexeme.first (c : Char) (cs : List Char) : Lexeme × Nat :=
  if isWordStart c then
    let more := cs.takeWhile isWordChar
    (.word (String.ofList (c :: more)), more.length)
  else if c.isDigit then
    let more := cs.takeWhile Char.isDigit
    (.digits (c :: more), more.length)
  else (.mark c, 0)

/-- The lexemes of a text that starts at offset `pos`. -/
def lexemes (pos : Nat) : List Char → List PlacedLexeme
  | [] => []
  | c :: cs =>
      if isBlank c then lexemes (pos + c.utf8Size) cs
      else
        let (lexeme, count) := Lexeme.first c cs
        let stop := pos + c.utf8Size + width (cs.take count)
        ⟨lexeme, pos, stop⟩ :: lexemes stop (cs.drop count)
termination_by cs => cs.length
decreasing_by
  all_goals simp only [List.length_cons, List.length_drop]; omega

end Stencil.Schema
