/-
  Stencil.Text.Lines
  ──────────────────
  The lines of a text.

  A line feed ends a line, and a carriage return right before it belongs to
  the ending.  A last line needs no ending; an empty piece after the last
  ending is no line.  A carriage return anywhere else is an ordinary
  character.
-/
namespace Stencil.Text

/-- The pieces between line feeds: always at least one. -/
def splitLines : List Char → List (List Char)
  | [] => [[]]
  | c :: cs =>
      if c = '\n' then [] :: splitLines cs
      else
        match splitLines cs with
        | [] => [[c]]
        | piece :: pieces => (c :: piece) :: pieces

/-- Drop one carriage return a line ends with. -/
def dropReturn (line : List Char) : List Char :=
  if line.getLast? = some '\r' then line.dropLast else line

/-- Every piece but the last was ended by a line feed. -/
def linesOf : List (List Char) → List (List Char)
  | [] => []
  | [last] => if last = [] then [] else [last]
  | piece :: pieces => dropReturn piece :: linesOf pieces

/-- The lines of a text, without their endings. -/
def lines (cs : List Char) : List (List Char) :=
  linesOf (splitLines cs)

theorem splitLines_ne_nil (cs : List Char) : splitLines cs ≠ [] := by
  cases cs with
  | nil => simp [splitLines]
  | cons c cs =>
      rw [splitLines]
      split
      · simp
      · split <;> simp

/-- What has no line feed before the first one is a piece. -/
theorem splitLines_append {xs : List Char} (h : '\n' ∉ xs) (ys : List Char) :
    splitLines (xs ++ '\n' :: ys) = xs :: splitLines ys := by
  induction xs with
  | nil => simp [splitLines]
  | cons c xs ih =>
    simp only [List.mem_cons, not_or] at h
    rw [List.cons_append, splitLines, if_neg (Ne.symm h.1), ih h.2]

theorem splitLines_eq_singleton {xs : List Char} (h : '\n' ∉ xs) : splitLines xs = [xs] := by
  induction xs with
  | nil => rfl
  | cons c xs ih =>
    simp only [List.mem_cons, not_or] at h
    rw [splitLines, if_neg (Ne.symm h.1), ih h.2]

theorem dropReturn_eq_self {line : List Char} (h : '\r' ∉ line) : dropReturn line = line := by
  unfold dropReturn
  exact if_neg fun hlast => h (List.mem_of_getLast? hlast)

/-- A piece that more pieces follow is a line, whatever it is. -/
theorem linesOf_cons {piece : List Char} {pieces : List (List Char)} (h : pieces ≠ []) :
    linesOf (piece :: pieces) = dropReturn piece :: linesOf pieces := by
  cases pieces with
  | nil => exact absurd rfl h
  | cons next pieces => rfl

/-- Texts with a line feed after each. -/
def endLines (ls : List String) : String :=
  String.join (ls.map (· ++ "\n"))

end Stencil.Text
