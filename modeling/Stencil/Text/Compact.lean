/-
  Stencil.Text.Compact
  ────────────────────
  Compaction of template text.

  The produced document is compact JSON, so layout is dropped: the text is
  trimmed, its line feeds, carriage returns and tabs go, and then every blank
  outside a pair of double quotes.  A quote with no partner after it protects
  nothing.
-/
import Stencil.Text.Blank

namespace Stencil.Text

/-- The layout characters that go even inside quotes. -/
def isLayout (c : Char) : Bool :=
  c == '\n' || c == '\t' || c == '\r'

/-- Drop the blanks outside pairs of double quotes; `inside` says whether a
pair is open. -/
def dropLooseBlanks (inside : Bool) : List Char → List Char
  | [] => []
  | c :: cs =>
      if c = '"' then c :: dropLooseBlanks (!inside && cs.contains '"') cs
      else if isBlank c && !inside then dropLooseBlanks inside cs
      else c :: dropLooseBlanks inside cs

/-- The compact form of a text. -/
def compactChars (cs : List Char) : List Char :=
  dropLooseBlanks false ((trim cs).filter (!isLayout ·))

/-- The compact form of a text. -/
def compact (s : String) : String :=
  String.ofList (compactChars s.toList)

/-- Compaction keeps some of the characters, in their order. -/
theorem dropLooseBlanks_sublist (inside : Bool) (cs : List Char) :
    List.Sublist (dropLooseBlanks inside cs) cs := by
  induction cs generalizing inside with
  | nil => exact List.Sublist.slnil
  | cons c cs ih =>
      rw [dropLooseBlanks]
      split
      · exact (ih _).cons_cons c
      · split
        · exact (ih _).cons c
        · exact (ih _).cons_cons c

end Stencil.Text
