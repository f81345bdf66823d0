/-
  Stencil.Proofs.Text.Compaction
  ──────────────────────────────
  COMPACTION, CHARACTER BY CHARACTER.

  Whether compaction keeps a character depends on what stands around it:
  layout characters go, other blanks stay only inside a string, and everything
  else stays.  A place is inside a string if an odd number of quotes come
  before it and one more comes after it (`InString`).

    • `compactChars_eq_kept` — compaction keeps exactly these characters, and
      trimming makes no difference,
    • `kept_append` — a text in two parts, each in the context of the other,
    • `kept_eq_iff` — two contexts keep the same of a text exactly if they
      agree on the strings its blanks are in,
    • `compactChars_intercalate_iff` — when compacting texts one by one and
      compacting them as one document comes to the same.
-/
import Stencil.Text.Compact

namespace Stencil.Text

/-! ## §1. Strings of a document. -/

/-- The place between two texts is inside a string: the quotes before it do not
pair up, and another one follows. -/
def InString (before after : List Char) : Prop :=
  before.count '"' % 2 = 1 ∧ '"' ∈ after

instance (before after : List Char) : Decidable (InString before after) :=
  inferInstanceAs (Decidable (_ ∧ _))

/-- Only the quotes around a place count. -/
theorem inString_congr {before before' after after' : List Char}
    (hbefore : before.count '"' % 2 = before'.count '"' % 2) (hafter : '"' ∈ after ↔ '"' ∈ after') :
    InString before after ↔ InString before' after' := by
  unfold InString
  rw [hbefore, hafter]

/-- To pass a character that is no quote does not change where one is. -/
theorem inString_pass {c : Char} (hc : c ≠ '"') (before after : List Char) :
    InString (before ++ [c]) after ↔ InString before (c :: after) := by
  refine inString_congr ?_ ?_
  · simp [hc]
  · simp [hc.symm]

theorem isBlank_of_isLayout {c : Char} (h : isLayout c = true) : isBlank c = true := by
  simp only [isLayout, Bool.or_eq_true, beq_iff_eq] at h
  rcases h with (rfl | rfl) | rfl <;> decide

theorem ne_quote_of_isBlank {c : Char} (h : isBlank c = true) : c ≠ '"' := by
  rintro rfl
  exact absurd h (by decide)

theorem quote_not_mem_of_blanks {cs : List Char} (h : ∀ c ∈ cs, isBlank c = true) :
    '"' ∉ cs :=
  fun hmem => absurd (h '"' hmem) (by decide)

/-! ## §2. What stays of a text. -/

/-- What stays of a text that stands between two others: no layout, and no
blank that is outside the strings. -/
def kept (before : List Char) : List Char → List Char → List Char
  | [], _ => []
  | c :: cs, after =>
      if isLayout c = true ∨ (isBlank c = true ∧ ¬ InString before (cs ++ after)) then
        kept (before ++ [c]) cs after
      else c :: kept (before ++ [c]) cs after

/-- A character that is no blank stays. -/
theorem kept_cons_of_not_blank {c : Char} (h : isBlank c = false) (before cs after : List Char) :
    kept before (c :: cs) after = c :: kept (before ++ [c]) cs after := by
  have hlayout : ¬ isLayout c = true := by
    intro hlayout
    rw [isBlank_of_isLayout hlayout] at h
    exact absurd h (by decide)
  rw [kept, if_neg (by simp [h, hlayout])]

/-- A blank outside the strings goes. -/
theorem kept_cons_of_outside {c : Char} {before cs after : List Char} (hblank : isBlank c = true)
    (h : ¬ InString before (cs ++ after)) :
    kept before (c :: cs) after = kept (before ++ [c]) cs after := by
  rw [kept, if_pos (.inr ⟨hblank, h⟩)]

/-- What stays of a text in two parts is what stays of each in its place. -/
theorem kept_append (before xs ys after : List Char) :
    kept before (xs ++ ys) after = kept before xs (ys ++ after) ++ kept (before ++ xs) ys after := by
  induction xs generalizing before with
  | nil => simp [kept]
  | cons x xs ih =>
    simp only [List.cons_append, kept, List.append_assoc, ih]
    split
    · simp
    · simp

/-- A character stays where it is no layout, and no blank outside the strings. -/
theorem mem_kept_iff {before text after : List Char} {c : Char} :
    c ∈ kept before text after ↔ ∃ front back, text = front ++ c :: back
      ∧ ¬ (isLayout c = true ∨ (isBlank c = true ∧ ¬ InString (before ++ front) (back ++ after))) := by
  constructor
  · intro h
    induction text generalizing before with
    | nil => simp [kept] at h
    | cons d text ih =>
      have hbehind : c ∈ kept (before ++ [d]) text after → ∃ front back,
          d :: text = front ++ c :: back ∧ ¬ (isLayout c = true
            ∨ (isBlank c = true ∧ ¬ InString (before ++ front) (back ++ after))) := by
        intro h
        obtain ⟨front, back, rfl, hstays⟩ := ih h
        exact ⟨d :: front, back, rfl, by simpa using hstays⟩
      rw [kept] at h
      split at h
      next => exact hbehind h
      next hstays =>
        rcases List.mem_cons.mp h with rfl | h
        · exact ⟨[], text, rfl, by simpa using hstays⟩
        · exact hbehind h
  · rintro ⟨front, back, rfl, hstays⟩
    rw [kept_append, kept, if_neg hstays]
    simp

/-- Of the texts around only the quotes count. -/
theorem kept_congr {before before' after after' : List Char} (text : List Char)
    (hbefore : before.count '"' % 2 = before'.count '"' % 2) (hafter : '"' ∈ after ↔ '"' ∈ after') :
    kept before text after = kept before' text after' := by
  induction text generalizing before before' with
  | nil => rfl
  | cons c cs ih =>
    have hplace : InString before (cs ++ after) ↔ InString before' (cs ++ after') :=
      inString_congr hbefore (by simp [hafter])
    have hrest := @ih (before ++ [c]) (before' ++ [c]) (by simp only [List.count_append]; omega)
    simp only [kept, hplace, hrest]

/-- Of blanks outside the strings nothing stays. -/
theorem kept_blanks {before blanks after : List Char} (hblank : ∀ c ∈ blanks, isBlank c = true)
    (houtside : ¬ InString before (blanks ++ after)) : kept before blanks after = [] := by
  induction blanks generalizing before with
  | nil => rfl
  | cons c cs ih =>
    obtain ⟨hc, hcs⟩ := List.forall_mem_cons.mp hblank
    have hpass := inString_pass (ne_quote_of_isBlank hc) before (cs ++ after)
    have hhere : ¬ InString before (cs ++ after) := by
      intro h
      exact houtside ⟨h.1, List.mem_cons_of_mem _ h.2⟩
    rw [kept_cons_of_outside hc hhere]
    exact ih hcs fun h => houtside (hpass.mp h)

/-! ## §3. Compaction. -/

/-- Dropping the loose blanks of a text without its layout keeps what stays of
it. -/
theorem dropLooseBlanks_eq_kept (before cs : List Char) :
    dropLooseBlanks (decide (InString before cs)) (cs.filter (!isLayout ·)) = kept before cs [] := by
  induction cs generalizing before with
  | nil => rfl
  | cons c cs ih =>
    by_cases hlayout : isLayout c = true
    · -- layout is gone already, and no quote with it
      have hpass := inString_pass (ne_quote_of_isBlank (isBlank_of_isLayout hlayout)) before cs
      rw [List.filter_cons_of_neg (by simp [hlayout]), kept, if_pos (.inl hlayout), ← ih]
      simp only [hpass]
    · rw [List.filter_cons_of_pos (by simp [hlayout]), dropLooseBlanks]
      have hquotes : (cs.filter (!isLayout ·)).contains '"' = decide ('"' ∈ cs) := by
        rw [List.contains_eq_mem, decide_eq_decide, List.mem_filter]
        exact ⟨fun h => h.1, fun h => ⟨h, by decide⟩⟩
      by_cases hquote : c = '"'
      · -- a quote opens a string if none is open and another quote follows
        subst hquote
        have hopen : (!decide (InString before ('"' :: cs)) && decide ('"' ∈ cs))
            = decide (InString (before ++ ['"']) cs) := by
          rw [Bool.eq_iff_iff]
          simp only [InString, List.mem_cons, true_or, and_true, Bool.and_eq_true,
            Bool.not_eq_true', decide_eq_false_iff_not, decide_eq_true_eq, List.count_append,
            List.count_singleton_self]
          constructor
          · rintro ⟨hodd, hmem⟩
            exact ⟨by omega, hmem⟩
          · rintro ⟨hodd, hmem⟩
            exact ⟨by omega, hmem⟩
        rw [if_pos rfl, hquotes, hopen, ih, kept_cons_of_not_blank (by decide)]
      · have hpass := inString_pass hquote before cs
        have hmem : InString before (c :: cs) ↔ InString before cs :=
          inString_congr rfl (by simp [Ne.symm hquote])
        have hgoes : (isBlank c && !decide (InString before (c :: cs))) = true
            ↔ isLayout c = true ∨ (isBlank c = true ∧ ¬ InString before cs) := by
          simp [hlayout, hmem]
        simp only [kept, List.append_nil, if_neg hquote, hgoes, ← ih, hpass]

/-- A text is its trimmed form between blanks. -/
theorem exists_trim (cs : List Char) :
    ∃ front back, cs = front ++ (trim cs ++ back)
      ∧ (∀ c ∈ front, isBlank c = true) ∧ ∀ c ∈ back, isBlank c = true := by
  have hback : ∀ xs : List Char, xs = trimEnd xs ++ (xs.reverse.takeWhile isBlank).reverse := by
    intro xs
    rw [trimEnd, ← List.reverse_append, List.takeWhile_append_dropWhile, List.reverse_reverse]
  refine ⟨cs.takeWhile isBlank, ((trimStart cs).reverse.takeWhile isBlank).reverse, ?_, ?_, ?_⟩
  · rw [trim, ← hback, trimStart, List.takeWhile_append_dropWhile]
  · exact List.all_eq_true.mp List.all_takeWhile
  · exact fun c hc => List.all_eq_true.mp List.all_takeWhile c (List.mem_reverse.mp hc)

/-- Blanks around a text that stands alone make no difference. -/
theorem kept_pad {front back : List Char} (hfront : ∀ c ∈ front, isBlank c = true)
    (core : List Char) (hback : ∀ c ∈ back, isBlank c = true) :
    kept [] (front ++ (core ++ back)) [] = kept [] core [] := by
  have hquotes := quote_not_mem_of_blanks hfront
  have hquotes' := quote_not_mem_of_blanks hback
  -- the blanks at both ends are outside all strings
  have hends : kept [] (front ++ (core ++ back)) [] = kept front core back := by
    rw [kept_append, kept_append, kept_blanks hfront (by simp [InString]),
      kept_blanks hback (by simp [InString, hquotes']), List.nil_append, List.append_nil,
      List.append_nil, List.nil_append]
  rw [hends]
  refine kept_congr _ ?_ ?_
  · simp [List.count_eq_zero.mpr hquotes]
  · simp [hquotes']

/-- **Compaction keeps what stays of a text that stands alone.** -/
theorem compactChars_eq_kept (cs : List Char) : compactChars cs = kept [] cs [] := by
  have hstart : decide (InString [] (trim cs)) = false := by simp [InString]
  obtain ⟨front, back, hcs, hfront, hback⟩ := exists_trim cs
  have hdrop := dropLooseBlanks_eq_kept [] (trim cs)
  rw [hstart] at hdrop
  have hpad := kept_pad hfront (trim cs) hback
  rw [← hcs] at hpad
  rw [compactChars, hdrop, hpad]

/-! ## §4. One text in two contexts. -/

/-- What holds wherever a list is split holds at its head and, behind that, of
the rest. -/
theorem forall_split_cons {α : Type} {P : List α → α → List α → Prop} {x : α} {xs : List α} :
    (∀ front y back, x :: xs = front ++ y :: back → P front y back)
      ↔ P [] x xs ∧ ∀ front y back, xs = front ++ y :: back → P (x :: front) y back := by
  constructor
  · intro h
    exact ⟨h [] x xs rfl, fun front y back hsplit => h (x :: front) y back (by rw [hsplit]; rfl)⟩
  · rintro ⟨hhead, hrest⟩ front y back hsplit
    cases front with
    | nil =>
      obtain ⟨rfl, rfl⟩ := List.cons.inj hsplit
      exact hhead
    | cons z front =>
      obtain ⟨rfl, rfl⟩ := List.cons.inj hsplit
      exact hrest front y back rfl

/-- Outside the strings, what stays starts with no blank. -/
theorem isBlank_of_head?_kept {before text after : List Char}
    (houtside : ¬ InString before (text ++ after)) :
    ∀ c ∈ (kept before text after).head?, isBlank c = false := by
  induction text generalizing before with
  | nil => simp [kept]
  | cons c cs ih =>
    have hhere : ¬ InString before (cs ++ after) := fun h =>
      houtside ⟨h.1, List.mem_cons_of_mem _ h.2⟩
    by_cases hblank : isBlank c = true
    · rw [kept_cons_of_outside hblank hhere]
      refine ih fun h => houtside ?_
      exact (inString_pass (ne_quote_of_isBlank hblank) before (cs ++ after)).mp h
    · rw [kept_cons_of_not_blank (by simpa using hblank)]
      simpa using hblank

/-- A blank that only one of two contexts has in a string makes a difference. -/
theorem kept_ne_of_blank {before before' cs after after' : List Char} {c : Char}
    (hblank : isBlank c = true) (houtside : ¬ InString before' (cs ++ after')) :
    c :: kept (before ++ [c]) cs after ≠ kept (before' ++ [c]) cs after' := by
  intro heq
  have hpass := inString_pass (ne_quote_of_isBlank hblank) before' (cs ++ after')
  have houtside' : ¬ InString (before' ++ [c]) (cs ++ after') := by
    intro h
    obtain ⟨hodd, hmem⟩ := hpass.mp h
    rcases List.mem_cons.mp hmem with hquote | hmem
    · exact ne_quote_of_isBlank hblank hquote.symm
    · exact houtside ⟨hodd, hmem⟩
  have hhead := isBlank_of_head?_kept houtside' c (by rw [← heq]; rfl)
  rw [hblank] at hhead
  exact absurd hhead (by decide)

/-- **Two contexts keep the same of a text exactly if they agree on its
blanks:** each is in a string in both of them or in neither. -/
theorem kept_eq_iff {before before' after after' : List Char} (text : List Char) :
    kept before text after = kept before' text after'
      ↔ ∀ front blank back, text = front ++ blank :: back →
        isBlank blank = true ∧ isLayout blank = false →
        (InString (before ++ front) (back ++ after)
          ↔ InString (before' ++ front) (back ++ after')) := by
  induction text generalizing before before' with
  | nil => simp [kept]
  | cons c cs ih =>
    have hrest := @ih (before ++ [c]) (before' ++ [c])
    simp only [List.append_assoc, List.singleton_append] at hrest
    rw [forall_split_cons, ← hrest, List.append_nil, List.append_nil]
    by_cases hlayout : isLayout c = true
    · -- layout goes in both
      rw [kept, kept, if_pos (.inl hlayout), if_pos (.inl hlayout)]
      simp [hlayout]
    · by_cases hblank : isBlank c = true
      · have hinside : ∀ {b a : List Char}, InString b (cs ++ a) →
            kept b (c :: cs) a = c :: kept (b ++ [c]) cs a := by
          intro b a h
          rw [kept, if_neg (by simp [hlayout, h])]
        by_cases h : InString before (cs ++ after) <;>
          by_cases h' : InString before' (cs ++ after')
        · rw [hinside h, hinside h']
          simp [h, h']
        · rw [hinside h, kept_cons_of_outside hblank h']
          simp [h, h', hblank, hlayout, kept_ne_of_blank hblank h']
        · rw [kept_cons_of_outside hblank h, hinside h']
          simp [h, h', hblank, hlayout, (kept_ne_of_blank hblank h).symm]
        · rw [kept_cons_of_outside hblank h, kept_cons_of_outside hblank h']
          simp [h, h']
      · -- what is no blank stays in both
        rw [kept_cons_of_not_blank (by simpa using hblank),
          kept_cons_of_not_blank (by simpa using hblank)]
        simp [hblank]

/-! ## §5. Texts with something between them. -/

/-- The texts of a document see its strings: a blank of a text is in a string
of the document exactly if it is in one of the text alone. -/
def SeesStrings (texts : List (List Char)) : Prop :=
  ∀ before text after, texts = before ++ text :: after →
    ∀ front blank back, text = front ++ blank :: back →
      isBlank blank = true ∧ isLayout blank = false →
      (InString (before.flatten ++ front) (back ++ after.flatten) ↔ InString front back)

/-- Compaction keeps all characters that are not blank. -/
theorem filter_kept (before text after : List Char) :
    (kept before text after).filter (!isBlank ·) = text.filter (!isBlank ·) := by
  induction text generalizing before with
  | nil => rfl
  | cons c cs ih =>
    rw [kept]
    split
    next hgoes =>
      have hblank : isBlank c = true := by
        rcases hgoes with h | h
        · exact isBlank_of_isLayout h
        · exact h.1
      rw [ih, List.filter_cons_of_neg (by simp [hblank])]
    next => rw [List.filter_cons, List.filter_cons, ih]

theorem countP_kept (before text after : List Char) :
    (kept before text after).countP (!isBlank ·) = text.countP (!isBlank ·) := by
  rw [List.countP_eq_length_filter, List.countP_eq_length_filter, filter_kept]

/-- Lists are taken apart at a marked element if as many of its kind come before
it in both. -/
theorem append_cons_inj {α : Type} {p : α → Bool} {x : α} (hx : p x = true)
    {xs ys xs' ys' : List α} (hcount : xs.countP p = ys.countP p) :
    xs ++ x :: xs' = ys ++ x :: ys' ↔ xs = ys ∧ xs' = ys' := by
  constructor
  · intro h
    rcases List.append_eq_append_iff.mp h with ⟨more, rfl, hmore⟩ | ⟨more, rfl, hmore⟩
    · cases more with
      | nil => exact ⟨by simp, by simpa using hmore⟩
      | cons y more =>
        obtain ⟨rfl, -⟩ := List.cons.inj hmore
        simp [List.countP_append, hx] at hcount
    · cases more with
      | nil => exact ⟨by simp, by simpa using hmore.symm⟩
      | cons y more =>
        obtain ⟨rfl, -⟩ := List.cons.inj hmore
        simp [List.countP_append, hx] at hcount
  · rintro ⟨rfl, rfl⟩
    rfl

theorem quote_mem_intercalate {c : Char} (hc : c ≠ '"') (texts : List (List Char)) :
    '"' ∈ [c].intercalate texts ↔ '"' ∈ texts.flatten := by
  induction texts with
  | nil => simp [List.intercalate]
  | cons text texts ih =>
    cases texts with
    | nil => simp [List.intercalate_singleton]
    | cons next texts =>
      rw [List.intercalate_cons_cons, List.flatten_cons]
      simp [ih, hc.symm]

/-- What stays of texts in their document and what stays of them alone are the
same exactly if they see its strings; `before` is what came before them. -/
theorem kept_intercalate_iff {c : Char} (hblank : isBlank c = false) (hquote : c ≠ '"')
    (texts : List (List Char)) : ∀ before : List Char,
    kept before ([c].intercalate texts) [] = [c].intercalate (texts.map compactChars)
      ↔ ∀ front text back, texts = front ++ text :: back →
        ∀ first blank last, text = first ++ blank :: last →
          isBlank blank = true ∧ isLayout blank = false →
          (InString (before ++ front.flatten ++ first) (last ++ back.flatten)
            ↔ InString first last) := by
  induction texts with
  | nil => simp [List.intercalate, kept]
  | cons text texts ih =>
    intro before
    -- one text between what came before it and the texts behind it
    have hone : ∀ after : List Char, ('"' ∈ after ↔ '"' ∈ texts.flatten) →
        (kept before text after = compactChars text
          ↔ ∀ first blank last, text = first ++ blank :: last →
            isBlank blank = true ∧ isLayout blank = false →
            (InString (before ++ first) (last ++ texts.flatten) ↔ InString first last)) := by
      intro after hafter
      rw [kept_congr text rfl hafter, compactChars_eq_kept, kept_eq_iff]
      simp
    rw [forall_split_cons]
    simp only [List.flatten_nil, List.append_nil, List.flatten_cons]
    cases texts with
    | nil =>
      rw [List.intercalate_singleton, List.map_cons, List.map_nil, List.intercalate_singleton,
        hone [] (by simp)]
      simp
    | cons next texts =>
      have hdocument := quote_mem_intercalate hquote (next :: texts)
      rw [List.intercalate_cons_cons, List.map_cons, List.map_cons, List.intercalate_cons_cons,
        ← List.map_cons, List.append_assoc, List.append_assoc, List.singleton_append,
        List.singleton_append, kept_append, kept_cons_of_not_blank hblank, List.append_nil]
      have hcount : (kept before text (c :: [c].intercalate (next :: texts))).countP (!isBlank ·)
          = (compactChars text).countP (!isBlank ·) := by
        rw [compactChars_eq_kept, countP_kept, countP_kept]
      rw [append_cons_inj (by simp [hblank]) hcount, hone _ (by simp [hquote.symm, hdocument])]
      -- the mark between the texts is no quote, so it can be left out of what came before
      rw [kept_congr _ (show (before ++ text ++ [c]).count '"' % 2 = (before ++ text).count '"' % 2
        by simp [hquote]) Iff.rfl, ih (before ++ text)]
      simp only [List.append_assoc]

/-- **Texts compacted one by one are their document compacted exactly if they
see its strings.** -/
theorem compactChars_intercalate_iff {c : Char} (hblank : isBlank c = false) (hquote : c ≠ '"')
    (texts : List (List Char)) :
    [c].intercalate (texts.map compactChars) = compactChars ([c].intercalate texts)
      ↔ SeesStrings texts := by
  rw [eq_comm, compactChars_eq_kept, kept_intercalate_iff hblank hquote texts []]
  rfl

/-- Texts whose quotes pair up see the strings of their document. -/
theorem seesStrings_of_even {texts : List (List Char)}
    (h : ∀ text ∈ texts, text.count '"' % 2 = 0) : SeesStrings texts := by
  intro before text after hsplit front blank back htext hblank
  have hbefore : before.flatten.count '"' % 2 = 0 := by
    have hall : ∀ t ∈ before, t.count '"' % 2 = 0 := fun t ht => h t (by simp [hsplit, ht])
    clear hsplit
    induction before with
    | nil => rfl
    | cons t before ih =>
      have hfirst := hall t List.mem_cons_self
      have hrest := ih fun u hu => hall u (List.mem_cons_of_mem _ hu)
      rw [List.flatten_cons, List.count_append]
      omega
  have hhere : (front ++ blank :: back).count '"' % 2 = 0 := htext ▸ h text (by simp [hsplit])
  have hne : (blank == '"') = false := by simpa using ne_quote_of_isBlank hblank.1
  unfold InString
  simp only [List.count_append, List.count_cons, hne, List.mem_append] at hhere ⊢
  constructor
  · rintro ⟨hodd, -⟩
    -- the string that is open here is closed in the text
    refine ⟨by omega, List.count_pos_iff.mp ?_⟩
    simp at hhere
    omega
  · rintro ⟨hodd, hmem⟩
    exact ⟨by omega, .inl hmem⟩

end Stencil.Text
