/-
  Stencil.Proofs.Text.QuoteParity
  ───────────────────────────────
  COMPACTION, PLACE BY PLACE.

  The quotes of a text pair up in the order they come: the first with the
  second, the third with the fourth, and a last one may be left over.
  Compaction is a filter on places: layout goes everywhere, and another blank
  stays exactly between the two quotes of a pair.  The same filter is
  described a second time as a replacement, from left to right, of strings by
  themselves and of runs of blanks by nothing.

    • `isProtected_iff` — between the quotes of a pair means an odd number of
      quotes before and another one behind,
    • `dropLooseBlanks_eq_replaceMatches` — the replacement,
    • `kept_eq_filter` — the filter,
    • `compact_quoteParity` — what compaction keeps; once is enough, blanks
      around a text make no difference, and none are left at its ends.
-/
import Mathlib.Data.List.Basic
import Mathlib.Data.List.TakeWhile
import Stencil.Proofs.Text.Compaction

namespace Stencil.Text

/-! ## §1. Quotes in pairs. -/

/-- The places of the quotes of each pair, which leaves out a last quote that
has no partner. -/
def quotePairs (cs : List Char) : List (Nat × Nat) :=
  (List.range (cs.count '"' / 2)).map fun k =>
    (cs.idxOfNth '"' (2 * k), cs.idxOfNth '"' (2 * k + 1))

/-- The place is between the quotes of a pair. -/
def isProtected (cs : List Char) (place : Nat) : Bool :=
  (quotePairs cs).any fun (opening, closing) => opening < place && place < closing

/-- The quotes before a place are those of the text up to there. -/
theorem idxOfNth_append_lt {q : Char} (xs ys : List Char) (n : Nat) :
    (xs ++ ys).idxOfNth q n < xs.length ↔ n < xs.count q := by
  induction xs generalizing n with
  | nil => simp
  | cons x xs ih =>
    rw [List.cons_append, List.idxOfNth_cons, List.count_cons, List.length_cons]
    grind

/-- The other quotes are behind it, if there is none at the place itself. -/
theorem lt_idxOfNth_append {q c : Char} (hc : c ≠ q) (xs ys : List Char) (n : Nat) :
    xs.length < (xs ++ c :: ys).idxOfNth q n ↔ xs.count q ≤ n := by
  induction xs generalizing n with
  | nil =>
    rw [List.nil_append, List.idxOfNth_cons_of_not_beq (by simpa using hc)]
    simp
  | cons x xs ih =>
    rw [List.cons_append, List.idxOfNth_cons, List.count_cons, List.length_cons]
    grind

/-- **A place is between the quotes of a pair if it is in a string.** -/
theorem isProtected_iff {c : Char} (hc : c ≠ '"') (before after : List Char) :
    isProtected (before ++ c :: after) before.length = true ↔ InString before after := by
  have hcount : (before ++ c :: after).count '"' = before.count '"' + after.count '"' := by
    simp [hc]
  have hbehind : '"' ∈ after ↔ 0 < after.count '"' := List.count_pos_iff.symm
  simp only [isProtected, quotePairs, List.any_map, List.any_eq_true, List.mem_range,
    Function.comp_apply, Bool.and_eq_true, decide_eq_true_eq, idxOfNth_append_lt,
    lt_idxOfNth_append hc, hcount, InString, hbehind]
  constructor
  · rintro ⟨k, hk, hopen, hclose⟩
    omega
  · rintro ⟨hodd, hpos⟩
    exact ⟨before.count '"' / 2, by omega, by omega, by omega⟩

/-! ## §2. The filter. -/

/-- A character stays at its place: it is no layout, and no blank unless it is
between the quotes of a pair. -/
def stays (cs : List Char) : Char × Nat → Bool
  | (c, place) => !isLayout c && (!isBlank c || isProtected cs place)

/-- At the place a character has between two texts. -/
theorem stays_iff (before after : List Char) (c : Char) :
    stays (before ++ c :: after) (c, before.length) = true
      ↔ ¬ (isLayout c = true ∨ (isBlank c = true ∧ ¬ InString before after)) := by
  by_cases hblank : isBlank c = true
  · have hplace := isProtected_iff (ne_quote_of_isBlank hblank) before after
    simp [stays, hblank, ← hplace]
  · simp [stays, hblank]

/-- **What stays of a text is what stays at its places.** -/
theorem kept_eq_filter (before cs after : List Char) :
    kept before cs after
      = ((cs.zipIdx before.length).filter (stays (before ++ (cs ++ after)))).map Prod.fst := by
  induction cs generalizing before with
  | nil => rfl
  | cons c cs ih =>
    have hrest := ih (before ++ [c])
    simp only [List.length_append, List.length_singleton, List.append_assoc,
      List.singleton_append] at hrest
    have hplace := stays_iff before (cs ++ after) c
    rw [List.zipIdx_cons, kept, hrest, List.cons_append]
    by_cases hgoes : isLayout c = true ∨ (isBlank c = true ∧ ¬ InString before (cs ++ after))
    · rw [if_pos hgoes, List.filter_cons_of_neg (fun h => hplace.mp h hgoes)]
    · rw [if_neg hgoes, List.filter_cons_of_pos (hplace.mpr hgoes), List.map_cons]

/-! ## §3. The replacement. -/

/-- Replace what is found from left to right.  A quote, what is no quote, and a
quote are a string, which stays; a run of blanks goes; any other character is
passed. -/
def replaceMatches : List Char → List Char
  | [] => []
  | c :: cs =>
      if c = '"' ∧ '"' ∈ cs then
        c :: (cs.takeWhile (· != '"') ++ '"' :: replaceMatches (cs.dropWhile (· != '"')).tail)
      else if isBlank c = true then replaceMatches (cs.dropWhile isBlank)
      else c :: replaceMatches cs
termination_by cs => cs.length
decreasing_by
  all_goals simp_wf
  · have := List.length_dropWhile_le (· != '"') cs
    omega
  · have := List.length_dropWhile_le isBlank cs
    omega

/-- Inside a string everything stays, up to the quote that ends it. -/
theorem dropLooseBlanks_inside {xs : List Char} (hxs : '"' ∉ xs) (rest : List Char) :
    dropLooseBlanks true (xs ++ '"' :: rest) = xs ++ '"' :: dropLooseBlanks false rest := by
  induction xs with
  | nil => simp [dropLooseBlanks]
  | cons x xs ih =>
    simp only [List.mem_cons, not_or] at hxs
    obtain ⟨hx, hxs⟩ := hxs
    rw [List.cons_append, dropLooseBlanks, if_neg (Ne.symm hx), if_neg (by simp), ih hxs]
    rfl

/-- Outside strings a run of blanks goes. -/
theorem dropLooseBlanks_dropWhile (cs : List Char) :
    dropLooseBlanks false (cs.dropWhile isBlank) = dropLooseBlanks false cs := by
  induction cs with
  | nil => rfl
  | cons c cs ih =>
    by_cases hblank : isBlank c = true
    · rw [List.dropWhile_cons_of_pos hblank, ih, dropLooseBlanks,
        if_neg (ne_quote_of_isBlank hblank), if_pos (by simp [hblank])]
    · rw [List.dropWhile_cons_of_neg hblank]

/-- A text with a quote, taken apart at the first one. -/
theorem eq_append_quote {cs : List Char} (h : '"' ∈ cs) :
    cs = cs.takeWhile (· != '"') ++ '"' :: (cs.dropWhile (· != '"')).tail := by
  induction cs with
  | nil => simp at h
  | cons c cs ih =>
    by_cases hc : c = '"'
    · simp [hc]
    · have hmem : '"' ∈ cs := by simpa [Ne.symm hc] using h
      simpa [hc] using ih hmem

/-- **Dropping the loose blanks is replacing from left to right.** -/
theorem dropLooseBlanks_eq_replaceMatches (cs : List Char) :
    dropLooseBlanks false cs = replaceMatches cs := by
  fun_induction replaceMatches cs with
  | case1 => rfl
  | case2 c cs hstring ih =>
    obtain ⟨rfl, hmem⟩ := hstring
    have hinside : '"' ∉ cs.takeWhile (· != '"') := by
      intro h
      simpa using List.mem_takeWhile_imp h
    rw [dropLooseBlanks, if_pos rfl, ← ih, ← dropLooseBlanks_inside hinside, ← eq_append_quote hmem]
    simp [hmem]
  | case3 c cs hstring hblank ih =>
    rw [dropLooseBlanks, if_neg (ne_quote_of_isBlank hblank), if_pos (by simp [hblank]), ← ih,
      dropLooseBlanks_dropWhile]
  | case4 c cs hstring hblank ih =>
    rw [dropLooseBlanks, ← ih]
    by_cases hc : c = '"'
    · -- a quote with none behind it opens nothing
      have hmem : '"' ∉ cs := fun h => hstring ⟨hc, h⟩
      simp [hc, hmem]
    · simp [hc, hblank]

/-! ## §4. Once is enough. -/

/-- No quote is lost. -/
theorem count_quote_kept (before text after : List Char) :
    (kept before text after).count '"' = text.count '"' := by
  have hquote : (!isBlank '"') = true := by decide
  rw [← List.count_filter (p := fun c => !isBlank c) hquote, filter_kept,
    List.count_filter (p := fun c => !isBlank c) hquote]

theorem quote_mem_kept {before text after : List Char} :
    '"' ∈ kept before text after ↔ '"' ∈ text := by
  rw [← List.count_pos_iff, count_quote_kept, List.count_pos_iff]

/-- What stays of a text stays again, with the same quotes around it. -/
theorem kept_kept {before before' after after' : List Char} (text : List Char)
    (hbefore : before.count '"' % 2 = before'.count '"' % 2) (hafter : '"' ∈ after ↔ '"' ∈ after') :
    kept before' (kept before text after) after' = kept before text after := by
  induction text generalizing before before' with
  | nil => rfl
  | cons c cs ih =>
    by_cases hgoes : isLayout c = true ∨ (isBlank c = true ∧ ¬ InString before (cs ++ after))
    · have hquote : c ≠ '"' := by
        rcases hgoes with h | h
        · exact ne_quote_of_isBlank (isBlank_of_isLayout h)
        · exact ne_quote_of_isBlank h.1
      rw [kept, if_pos hgoes]
      exact ih (by simpa [hquote] using hbefore)
    · have hrest := @ih (before ++ [c]) (before' ++ [c]) (by simp only [List.count_append]; omega)
      -- the second time the same quotes stand around the character
      have hplace : InString before' (kept (before ++ [c]) cs after ++ after')
          ↔ InString before (cs ++ after) :=
        inString_congr hbefore.symm (by simp [quote_mem_kept, hafter])
      rw [kept, if_neg hgoes, kept, if_neg (by rwa [hplace]), hrest]

/-- At the end of a document, what stays ends with no blank. -/
theorem isBlank_of_getLast?_kept (before text : List Char) :
    ∀ c ∈ (kept before text []).getLast?, isBlank c = false := by
  induction text generalizing before with
  | nil => simp [kept]
  | cons c cs ih =>
    by_cases hgoes : isLayout c = true ∨ (isBlank c = true ∧ ¬ InString before (cs ++ []))
    · rw [kept, if_pos hgoes]
      exact ih _
    · rw [kept, if_neg hgoes]
      by_cases hlast : kept (before ++ [c]) cs [] = []
      · -- a blank in a string has the quote that ends it behind it
        have hquote : '"' ∉ cs := by
          rw [← quote_mem_kept, hlast]
          exact List.not_mem_nil
        simp only [not_or, not_and, not_not] at hgoes
        have hblank : ¬ isBlank c = true := fun h => hquote (by simpa using (hgoes.2 h).2)
        simpa [hlast] using hblank
      · rw [List.getLast?_cons_of_ne_nil hlast]
        exact ih _

/-! ## §5. Compaction. -/

theorem compact_ofList (cs : List Char) :
    compact (String.ofList cs) = String.ofList (compactChars cs) := by
  rw [compact, String.toList_ofList]

theorem compactChars_compactChars (cs : List Char) :
    compactChars (compactChars cs) = compactChars cs := by
  rw [compactChars_eq_kept, compactChars_eq_kept, kept_kept cs rfl Iff.rfl]

theorem compactChars_trimStart (cs : List Char) :
    compactChars (trimStart cs) = compactChars cs := by
  have hfront : ∀ c ∈ cs.takeWhile isBlank, isBlank c = true :=
    List.all_eq_true.mp List.all_takeWhile
  have hpad := kept_pad hfront (trimStart cs) (fun c hc => absurd hc List.not_mem_nil)
  rw [List.append_nil, trimStart, List.takeWhile_append_dropWhile] at hpad
  rw [compactChars_eq_kept, compactChars_eq_kept, trimStart, hpad]

theorem compactChars_trimEnd (cs : List Char) : compactChars (trimEnd cs) = compactChars cs := by
  have hback : ∀ c ∈ (cs.reverse.takeWhile isBlank).reverse, isBlank c = true :=
    fun c hc => List.all_eq_true.mp List.all_takeWhile c (List.mem_reverse.mp hc)
  have hpad := kept_pad (fun c hc => absurd hc List.not_mem_nil) (trimEnd cs) hback
  rw [List.nil_append, trimEnd, ← List.reverse_append, List.takeWhile_append_dropWhile,
    List.reverse_reverse] at hpad
  rw [compactChars_eq_kept, compactChars_eq_kept, trimEnd, hpad]

/-- **Compaction is a filter by the parity of quotes.**  It trims a text, takes
the layout out and replaces, from left to right, strings by themselves and runs
of blanks by nothing.  What it keeps are exactly the characters that are no
layout and that are no blanks, unless they are between the two quotes of a
pair.  So a second compaction changes nothing, trimming before it makes no
difference at either end, no character but blanks is lost, and the result
neither begins nor ends with a blank. -/
theorem compact_quoteParity (text : String) :
    (compact text).toList = replaceMatches ((trim text.toList).filter (!isLayout ·))
      ∧ (compact text).toList = (text.toList.zipIdx.filter (stays text.toList)).map Prod.fst
      ∧ compact (compact text) = compact text
      ∧ compact (String.ofList (trimStart text.toList)) = compact text
      ∧ compact (String.ofList (trimEnd text.toList)) = compact text
      ∧ (compact text).toList.filter (!isBlank ·) = text.toList.filter (!isBlank ·)
      ∧ (compact text).toList.head?.any isBlank = false
      ∧ (compact text).toList.getLast?.any isBlank = false := by
  have hchars : (compact text).toList = compactChars text.toList := by
    rw [compact, String.toList_ofList]
  have hkept := compactChars_eq_kept text.toList
  refine ⟨?_, ?_, ?_, ?_, ?_, ?_, ?_, ?_⟩
  · rw [hchars, compactChars, dropLooseBlanks_eq_replaceMatches]
  · rw [hchars, hkept, kept_eq_filter]
    simp
  · rw [compact, hchars, compactChars_compactChars, compact]
  · rw [compact_ofList, compactChars_trimStart, compact]
  · rw [compact_ofList, compactChars_trimEnd, compact]
  · rw [hchars, hkept, filter_kept]
  · rw [hchars, hkept]
    have houtside : ¬ InString [] (text.toList ++ []) := by simp [InString]
    simpa [Option.any_eq_false] using isBlank_of_head?_kept houtside
  · rw [hchars, hkept]
    simpa [Option.any_eq_false] using isBlank_of_getLast?_kept [] text.toList

example : compactChars "\"a b\" \"c d".toList = "\"a b\"\"cd".toList := by decide

end Stencil.Text
