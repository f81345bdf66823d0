/-
  Stencil.Proofs.Text.Location
  ────────────────────────────
  WHAT A LINE AND A COLUMN SAY ABOUT AN OFFSET.

  A text is located by passing its characters one at a time.  Each step goes
  strictly ahead in the order of reading, and at any time the line and the
  column count what was passed: so offsets between characters are located in
  their own order.  An offset in the middle of a character is located behind
  it, and one past the end at the end.

    • `before_width` — before a cut there is what was cut off,
    • `Location.lt_foldl_step` — passing characters goes ahead,
    • `foldl_step_start` — and counts lines and columns,
    • `locate_width`, `locate_lt_locate` — cuts of a text,
    • `locate_width_before` — all other offsets are located at the next one.
-/
import Mathlib.Data.List.DropRight
import Mathlib.Data.List.Nodup
import Mathlib.Data.Prod.Lex
import Stencil.Text.Offset

namespace Stencil.Text

/-! ## §1. The characters before an offset. -/

theorem before_zero (cs : List Char) : before cs 0 = [] := by
  cases cs <;> rfl

theorem before_cons (c : Char) (cs : List Char) {n : Nat} (h : 0 < n) :
    before (c :: cs) n = c :: before cs (n - c.utf8Size) := by
  cases n with
  | zero => exact absurd h (Nat.lt_irrefl 0)
  | succ n => rfl

/-- An offset behind a text counts on from its end. -/
theorem before_width_add (front cs : List Char) (n : Nat) :
    before (front ++ cs) (width front + n) = front ++ before cs n := by
  induction front with
  | nil => simp
  | cons c front ih =>
    have hpos : 0 < c.utf8Size := c.utf8Size_pos
    rw [List.cons_append, width_cons, Nat.add_assoc, before_cons _ _ (by omega),
      Nat.add_sub_cancel_left, ih, List.cons_append]

/-- At a cut, everything in front of it is before it. -/
theorem before_width (front rest : List Char) : before (front ++ rest) (width front) = front := by
  rw [← Nat.add_zero (width front), before_width_add, before_zero, List.append_nil]

/-- Past the end, everything is before it. -/
theorem before_of_width_le {cs : List Char} {n : Nat} (h : width cs ≤ n) : before cs n = cs := by
  obtain ⟨more, rfl⟩ := Nat.exists_eq_add_of_le h
  have hrest : before [] more = [] := by cases more <;> rfl
  have hall := before_width_add cs [] more
  rwa [hrest, List.append_nil] at hall

theorem width_before_le (cs : List Char) (n : Nat) : width (before cs n) ≤ width cs := by
  conv_rhs => rw [← before_append_after cs n]
  rw [width_append]
  exact Nat.le_add_right _ _

/-- Up to the end, what is before an offset reaches it. -/
theorem le_width_before {cs : List Char} {n : Nat} (h : n ≤ width cs) :
    n ≤ width (before cs n) := by
  induction cs generalizing n with
  | nil => exact h.trans (Nat.zero_le _)
  | cons c cs ih =>
    rcases Nat.eq_zero_or_pos n with rfl | hpos
    · exact Nat.zero_le _
    · rw [width_cons] at h
      have hrest := ih (n := n - c.utf8Size) (by omega)
      rw [before_cons c cs hpos, width_cons]
      omega

/-- What follows a text plays no part before offsets in it. -/
theorem before_append {front : List Char} {n : Nat} (rest : List Char) (h : n ≤ width front) :
    before (front ++ rest) n = before front n := by
  induction front generalizing n with
  | nil =>
    obtain rfl : n = 0 := Nat.le_zero.mp h
    rw [before_zero, before_zero]
  | cons c front ih =>
    rcases Nat.eq_zero_or_pos n with rfl | hpos
    · rw [before_zero, before_zero]
    · rw [width_cons] at h
      rw [List.cons_append, before_cons _ _ hpos, before_cons _ _ hpos, ih (by omega)]

/-! ## §2. The order of reading. -/

namespace Location

/-- The line and the column, of which the line counts first. -/
def key (place : Location) : ℕ ×ₗ ℕ :=
  toLex (place.line, place.column)

theorem key_injective : Function.Injective key := by
  rintro ⟨line, column⟩ ⟨line', column'⟩ h
  simpa [key] using h

/-- Places in the order of reading. -/
instance : LinearOrder Location :=
  LinearOrder.lift' key key_injective

theorem lt_iff {a b : Location} :
    a < b ↔ a.line < b.line ∨ a.line = b.line ∧ a.column < b.column :=
  Prod.Lex.toLex_lt_toLex

/-- **Passing a character goes ahead.** -/
theorem lt_step (here : Location) (c : Char) : here < here.step c := by
  unfold step
  rw [lt_iff]
  split
  next => exact .inl (Nat.lt_succ_self _)
  next => exact .inr ⟨rfl, Nat.lt_succ_self _⟩

theorem le_foldl_step (here : Location) (cs : List Char) : here ≤ cs.foldl step here := by
  induction cs generalizing here with
  | nil => exact le_refl here
  | cons c cs ih => exact (here.lt_step c).le.trans (ih (here.step c))

/-- **So does passing a text.** -/
theorem lt_foldl_step (here : Location) {cs : List Char} (h : cs ≠ []) :
    here < cs.foldl step here := by
  cases cs with
  | nil => exact absurd rfl h
  | cons c cs => exact (here.lt_step c).trans_le ((here.step c).le_foldl_step cs)

end Location

/-! ## §3. Lines and columns count. -/

/-- The line a text leaves open: all behind its last line feed, and the whole
text if there is none. -/
def openLine (cs : List Char) : List Char :=
  cs.rtakeWhile (· != '\n')

theorem openLine_append_feed (cs : List Char) : openLine (cs ++ ['\n']) = [] :=
  List.rtakeWhile_concat_neg _ _ _ (by simp)

theorem openLine_concat {c : Char} (h : c ≠ '\n') (cs : List Char) :
    openLine (cs ++ [c]) = openLine cs ++ [c] :=
  List.rtakeWhile_concat_pos _ _ _ (by simpa using h)

/-- **The line counts the line feeds passed, and the column the characters
behind the last one.** -/
theorem foldl_step_start (cs : List Char) :
    cs.foldl Location.step .start = ⟨1 + cs.count '\n', 1 + (openLine cs).length⟩ := by
  -- from the end of the text: its last character is the step taken last
  induction cs using List.reverseRecOn with
  | nil => rfl
  | append_singleton cs c ih =>
    rw [List.foldl_append, ih, List.foldl_cons, List.foldl_nil, List.count_append]
    by_cases hc : c = '\n'
    · subst hc
      simp [Location.step, openLine_append_feed, Nat.add_assoc]
    · simp [Location.step, openLine_concat hc, hc, Nat.add_assoc]

/-! ## §4. Offsets of a text. -/

/-- Where a cut is. -/
theorem locate_width (front rest : List Char) :
    locate (front ++ rest) (width front)
      = ⟨1 + front.count '\n', 1 + (openLine front).length⟩ := by
  rw [locate, before_width, foldl_step_start]

example : locate "a\u00e9\nb".toList 4 = ⟨2, 1⟩ := by decide

/-- Of two cuts, the one with more in front of it is ahead. -/
theorem locate_lt_locate {front between : List Char} (rest : List Char) (h : between ≠ []) :
    locate (front ++ (between ++ rest)) (width front)
      < locate (front ++ (between ++ rest)) (width (front ++ between)) := by
  have hnext : before (front ++ (between ++ rest)) (width (front ++ between)) = front ++ between := by
    rw [← List.append_assoc, before_width]
  rw [locate, locate, before_width, hnext, List.foldl_append]
  exact Location.lt_foldl_step _ h

/-- **An offset is located where the characters that begin before it end.** -/
theorem locate_width_before (cs : List Char) (n : Nat) :
    locate cs (width (before cs n)) = locate cs n := by
  have hcut := before_width (before cs n) (after cs n)
  rw [before_append_after] at hcut
  rw [locate, hcut, locate]

/-- Past the end there is only the end. -/
theorem locate_of_width_le {cs : List Char} {n : Nat} (h : width cs ≤ n) :
    locate cs n = locate cs (width cs) := by
  rw [locate, locate, before_of_width_le h, before_of_width_le le_rfl]

end Stencil.Text
