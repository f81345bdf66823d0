/-
  Stencil.Text.Word
  ─────────────────
  Identifiers: an ASCII letter or underscore, then ASCII letters, digits and
  underscores.  Type names, member names, function names and the names inside
  template actions are all words of this one shape.
-/
namespace Stencil.Text

/-- A character an identifier may start with. -/
def isWordStart (c : Char) : Bool :=
  c.isAlpha || c == '_'

/-- A character an identifier may go on with. -/
def isWordChar (c : Char) : Bool :=
  c.isAlphanum || c == '_'

/-- A whole text that is one identifier. -/
def isIdentifier (s : String) : Bool :=
  match s.toList with
  | [] => false
  | c :: cs => isWordStart c && cs.all isWordChar

theorem isWordChar_of_isWordStart {c : Char} (h : isWordStart c = true) :
    isWordChar c = true := by
  simp only [isWordStart, isWordChar, Char.isAlphanum, Bool.or_eq_true] at *
  rcases h with h | h
  · exact Or.inl (Or.inl h)
  · exact Or.inr h

end Stencil.Text
