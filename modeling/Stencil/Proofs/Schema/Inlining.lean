/-
  Stencil.Proofs.Schema.Inlining
  ──────────────────────────────
  REFERENCES AND THE WRITTEN FORMS OF WHAT THEY REFER TO are interchangeable.

  A reference stands where a type starts: at the beginning of an expression,
  after an opening parenthesis or after a comma.  Any text that means the
  type it refers to may stand in its place, the written form above all.  So
  it makes no difference to any resolved type.

    • `Denotes.replace` — the lexemes of a reference against others of the
      same meaning,
    • `exists_refersBetween` — every name that is referred to stands between
      two parts of the text,
    • `RefersBetween.expand`, `define_inline`, `defineAll_inline` — inlining
      in one expression, in one definition, in a row of definitions,
    • `text_inverse` — writing and reading are inverse, and inlining changes
      no resolved type.
-/
import Stencil.Proofs.Schema.Written

namespace Stencil.Schema

open Text (isBlank isWordChar isIdentifier)
open Outcome

/-! ## §1. Where a type starts. -/

/-- A type starts after these lexemes: they are none, or the last of them is
an opening parenthesis or a comma. -/
def TypeFollows (ls : List Lexeme) : Prop :=
  ∀ l ∈ ls.getLast?, l = .mark '(' ∨ l = .mark ','

/-- Only the end counts. -/
theorem TypeFollows.of_append {ls ms : List Lexeme} (h : TypeFollows (ls ++ ms)) :
    TypeFollows ms := by
  intro l hl
  refine h l ?_
  rw [List.getLast?_append, Option.mem_def.mp hl]
  rfl

/-- Nothing follows where nothing does, or else the same. -/
theorem TypeFollows.append {ls ms : List Lexeme} (hls : TypeFollows ls) (hms : TypeFollows ms) :
    TypeFollows (ls ++ ms) := by
  intro l hl
  rw [List.getLast?_append] at hl
  rcases Option.or_eq_some_iff.mp hl with hl | ⟨-, hl⟩
  · exact hms l hl
  · exact hls l hl

/-- After a type no other one starts, but a name. -/
theorem Denotes.not_typeFollows {ε : Type} {lookup : String → Except ε Ty} {ls : List Lexeme}
    {ty : Ty} (h : Denotes lookup ls (.type ty)) : ¬ TypeFollows ls := by
  intro hfollows
  cases h with
  | @scalar w => simpa using hfollows (.word w) (by simp)
  | @reference w => simpa using hfollows (.word w) (by simp)
  | @record w ls => simpa using hfollows (.mark ')') (by simp [List.getLast?_cons])
  | sequence => simpa using hfollows (.mark ']') (by simp)
  | fixed => simpa using hfollows (.mark ']') (by simp)

/-- A text before a type does not end like a word. -/
theorem Spaced.getLast?_of_typeFollows {cs : List Char} {ls : List Lexeme} (h : Spaced cs ls) :
    TypeFollows ls → ∀ c ∈ cs.getLast?, isWordChar c = false := by
  induction h with
  | done hb =>
    intro _ c hc
    rw [Bool.eq_false_iff]
    intro hword
    have hblank := hb c (List.mem_of_getLast? hc)
    rw [isBlank_of_isWordChar hword] at hblank
    simp at hblank
  | @next blanks rest l ls _ hl _ h ih =>
    intro hfollows c hc
    cases rest with
    | cons d rest =>
      -- the end of the text is the end of what follows the lexeme
      refine ih (@TypeFollows.of_append [l] ls hfollows) c ?_
      rw [List.getLast?_append, List.getLast?_append] at hc
      simpa [List.getLast?_cons] using hc
    | nil =>
      -- the lexeme is the last, so it is the mark that a type follows
      obtain rfl : ls = [] := by
        rw [← map_lexemes_of_spaced h 0, lexemes, List.map_nil]
      rcases hfollows l (by simp) with rfl | rfl
      · obtain rfl : '(' = c := by simpa [Lexeme.chars] using hc
        decide
      · obtain rfl : ',' = c := by simpa [Lexeme.chars] using hc
        decide

/-! ## §2. Exchanging lexemes. -/

/-- A list cut in two, with one of its elements in view. -/
theorem append_eq_append_cons {α : Type} {xs ys ls rs : List α} {a : α}
    (h : xs ++ ys = ls ++ a :: rs) :
    (∃ mid, xs = ls ++ a :: mid ∧ rs = mid ++ ys) ∨ ∃ mid, ls = xs ++ mid ∧ ys = mid ++ a :: rs := by
  rcases List.append_eq_append_iff.mp h with ⟨mid, hls, hys⟩ | ⟨mid, hxs, hrs⟩
  · exact .inr ⟨mid, hls, hys⟩
  · cases mid with
    | nil => exact .inr ⟨[], by simpa using hxs.symm, hrs.symm⟩
    | cons b mid =>
      obtain ⟨rfl, hrest⟩ := List.cons.inj hrs
      exact .inl ⟨mid, hxs, hrest⟩

/-- A list of one element has it in view only. -/
theorem singleton_eq_append_cons {α : Type} {ls rs : List α} {a b : α}
    (h : [b] = ls ++ a :: rs) : ls = [] ∧ b = a ∧ rs = [] := by
  cases ls with
  | nil => simpa using h
  | cons c ls => simp at h

/-- **A word where a type starts is a reference, and any lexemes that denote
what it refers to may stand for it.** -/
theorem Denotes.replace {ε : Type} {lookup : String → Except ε Ty} {w : String}
    (hw : TypeName w) {all : List Lexeme} {m : Meaning} (h : Denotes lookup all m) :
    ∀ {ls rs : List Lexeme}, all = ls ++ .word w :: rs → TypeFollows ls →
      ∃ ty, lookup w = .ok ty
        ∧ ∀ ws, Denotes lookup ws (.type ty) → Denotes lookup (ls ++ (ws ++ rs)) m := by
  induction h with
  | scalar hk =>
    intro ls rs hsplit _
    obtain ⟨-, hword, -⟩ := singleton_eq_append_cons hsplit
    obtain rfl := Lexeme.word.inj hword
    exact absurd hk (hw.noKeyword _)
  | @reference w' ty _ _ hl =>
    intro ls rs hsplit _
    obtain ⟨rfl, hword, rfl⟩ := singleton_eq_append_cons hsplit
    obtain rfl := Lexeme.word.inj hword
    exact ⟨ty, hl, fun ws hws => by simpa using hws⟩
  | @record w' ls' ms hrecord _ hd ih =>
    intro ls rs hsplit hfollows
    rcases ls with _ | ⟨first, _ | ⟨second, mid⟩⟩
    · -- the word that opens a record names no type
      obtain ⟨hword, -⟩ := List.cons.inj hsplit
      obtain rfl := Lexeme.word.inj hword
      exact absurd hrecord (not_or.mpr hw.noRecord)
    · simp at hsplit
    · obtain ⟨rfl, htail⟩ := List.cons.inj hsplit
      obtain ⟨rfl, hinner⟩ := List.cons.inj htail
      rcases append_eq_append_cons hinner with ⟨mid', rfl, rfl⟩ | ⟨mid', -, hclose⟩
      · obtain ⟨ty, hty, hreplace⟩ := ih rfl (@TypeFollows.of_append [_, _] mid hfollows)
        exact ⟨ty, hty, fun ws hws => by simpa using Denotes.record hrecord (hreplace ws hws) hd⟩
      · exact absurd (singleton_eq_append_cons hclose).2.1 (by simp)
  | sequence _ ih =>
    intro ls rs hsplit hfollows
    rcases append_eq_append_cons hsplit with ⟨mid, rfl, rfl⟩ | ⟨mid, -, hmarks⟩
    · obtain ⟨ty, hty, hreplace⟩ := ih rfl hfollows
      exact ⟨ty, hty, fun ws hws => by simpa using (hreplace ws hws).sequence⟩
    · have hmem : Lexeme.word w ∈ [Lexeme.mark '[', Lexeme.mark ']'] := by simp [hmarks]
      simp at hmem
  | @fixed _ _ ds _ low high ih =>
    intro ls rs hsplit hfollows
    rcases append_eq_append_cons hsplit with ⟨mid, rfl, rfl⟩ | ⟨mid, -, hmarks⟩
    · obtain ⟨ty, hty, hreplace⟩ := ih rfl hfollows
      exact ⟨ty, hty, fun ws hws => by simpa using (hreplace ws hws).fixed low high⟩
    · have hmem : Lexeme.word w ∈ [Lexeme.mark '[', .digits ds, Lexeme.mark ']'] := by
        simp [hmarks]
      simp at hmem
  | @one ls' ty' n h ih =>
    intro ls rs hsplit hfollows
    rcases append_eq_append_cons hsplit with ⟨mid, rfl, rfl⟩ | ⟨mid, rfl, hname⟩
    · obtain ⟨ty, hty, hreplace⟩ := ih rfl hfollows
      exact ⟨ty, hty, fun ws hws => by simpa using (hreplace ws hws).one (n := n)⟩
    · -- it would be the name of the member, but a type does not start there
      obtain ⟨rfl, -, -⟩ := singleton_eq_append_cons hname
      exact absurd (by simpa using hfollows) h.not_typeFollows
  | @more ls' rest ty' n ms h hs ih ihs =>
    intro ls rs hsplit hfollows
    rcases append_eq_append_cons hsplit with ⟨mid, rfl, rfl⟩ | ⟨mid, rfl, hlater⟩
    · obtain ⟨ty, hty, hreplace⟩ := ih rfl hfollows
      exact ⟨ty, hty, fun ws hws => by simpa using (hreplace ws hws).more (n := n) hs⟩
    · rcases mid with _ | ⟨first, _ | ⟨second, mid⟩⟩
      · exact absurd (by simpa using hfollows) h.not_typeFollows
      · simp at hlater
      · obtain ⟨rfl, htail⟩ := List.cons.inj hlater
        obtain ⟨rfl, hrest⟩ := List.cons.inj htail
        obtain ⟨ty, hty, hreplace⟩ :=
          ihs hrest (@TypeFollows.of_append [_, _] mid hfollows.of_append)
        exact ⟨ty, hty, fun ws hws => by simpa using h.more (n := n) (hreplace ws hws)⟩

/-! ## §3. References in texts. -/

/-- Between the two parts of a text the word refers to a named type. -/
structure RefersBetween (before w after : String) : Prop where
  /-- The word may name a type. -/
  name : TypeName w
  /-- It stands where a type starts. -/
  starts : ∃ ls, Spaced before.toList ls ∧ TypeFollows ls
  /-- It does not go on. -/
  ends : ∀ c ∈ after.toList.head?, isWordChar c = false

/-- What the parts are cut into does not depend on what stands between them. -/
theorem RefersBetween.exists_spaced {before w after : String} (h : RefersBetween before w after) :
    ∃ ls rs, TypeFollows ls ∧ ∀ text ws, Spaced text.toList ws →
      Spaced (before ++ text ++ after).toList (ls ++ (ws ++ rs)) := by
  obtain ⟨ls, hls, hfollows⟩ := h.starts
  obtain ⟨rs, hafter⟩ : ∃ rs, Spaced after.toList rs := ⟨_, spaced_lexemes 0 after.toList⟩
  refine ⟨ls, rs, hfollows, fun text ws hws => ?_⟩
  have hbefore := hls.append hws (.inl (hls.getLast?_of_typeFollows hfollows))
  have hall := hbefore.append hafter (.inr h.ends)
  simpa using hall

/-- **In the place of a reference any text may stand that means the same.** -/
theorem RefersBetween.expand {before w after : String} (h : RefersBetween before w after)
    {ε : Type} {lookup : String → Except ε Ty} {expr : TypeExpr} {t : Ty}
    (hgrammar : InGrammar (before ++ w ++ after) expr) (hexpand : expr.expand lookup = .ok t) :
    ∃ ty, lookup w = .ok ty ∧ ∀ text, Spells text (.type ty) →
      ∃ expr', InGrammar (before ++ text ++ after) expr' ∧ expr'.expand lookup = .ok t := by
  obtain ⟨all, hspaced, hderives⟩ := hgrammar
  obtain ⟨ls, rs, hfollows, hbetween⟩ := h.exists_spaced
  -- the word is one lexeme of the text
  have hword : Spaced w.toList [.word w] := .single (l := .word w) h.name.identifier
  have hall : all = ls ++ .word w :: rs := by
    rw [← map_lexemes_of_spaced hspaced 0, map_lexemes_of_spaced (hbetween w _ hword) 0]
    rfl
  have hdenotes := denotes_iff.mpr ⟨expr, hderives, hexpand⟩
  obtain ⟨ty, hty, hreplace⟩ := hdenotes.replace h.name hall hfollows
  refine ⟨ty, hty, fun text ⟨ws, hws, hmeans⟩ => ?_⟩
  obtain ⟨expr', hderives', hexpand'⟩ := denotes_iff.mp (hreplace ws (hmeans ε lookup))
  exact ⟨expr', ⟨_, hbetween text ws hws, hderives'⟩, hexpand'⟩

/-- The names that a phrase refers to. -/
def Phrase.references : Phrase → List String
  | .type expr => expr.references
  | .members ms => memberReferences ms

/-- Every name that is referred to is a word where a type starts. -/
theorem Derives.exists_reference {w : String} {all : List Lexeme} {ph : Phrase}
    (h : Derives all ph) : w ∈ ph.references →
      (isRecordWord w = false ∧ ∀ name, ¬ Keyword w name)
        ∧ ∃ ls rs, all = ls ++ .word w :: rs ∧ TypeFollows ls := by
  induction h with
  | scalar =>
    intro hw
    simp [Phrase.references, TypeExpr.references] at hw
  | @reference w' hr hk =>
    intro hw
    obtain rfl : w = w' := by simpa [Phrase.references, TypeExpr.references] using hw
    exact ⟨⟨hr, hk⟩, [], [], rfl, by simp [TypeFollows]⟩
  | @record w' _ _ _ _ _ ih =>
    intro hw
    obtain ⟨hname, ls, rs, rfl, hfollows⟩ := ih hw
    have hopen : TypeFollows [.word w', .mark '('] := by simp [TypeFollows]
    exact ⟨hname, _, rs ++ [.mark ')'], by simp, hopen.append hfollows⟩
  | sequence _ ih | fixed _ _ _ ih =>
    intro hw
    obtain ⟨hname, ls, rs, rfl, hfollows⟩ := ih hw
    exact ⟨hname, ls, _, by rw [List.append_assoc, List.cons_append], hfollows⟩
  | one _ ih =>
    intro hw
    obtain ⟨hname, ls, rs, rfl, hfollows⟩ := ih (by simpa [Phrase.references, memberReferences] using hw)
    exact ⟨hname, ls, _, by rw [List.append_assoc, List.cons_append], hfollows⟩
  | @more ls' rest _ n _ _ _ ih ihs =>
    intro hw
    simp only [Phrase.references, memberReferences, List.mem_append] at hw
    rcases hw with hw | hw
    · obtain ⟨hname, ls, rs, rfl, hfollows⟩ := ih hw
      exact ⟨hname, ls, _, by rw [List.append_assoc, List.cons_append], hfollows⟩
    · obtain ⟨hname, ls, rs, rfl, hfollows⟩ := ihs hw
      have hcomma : TypeFollows (ls' ++ [.word n, .mark ',']) := by simp [TypeFollows]
      exact ⟨hname, _, rs, by simp, hcomma.append hfollows⟩

/-- A text is cut at each of its lexemes. -/
theorem Spaced.exists_split {l : Lexeme} {rs : List Lexeme} :
    ∀ {ls : List Lexeme} {cs : List Char}, Spaced cs (ls ++ l :: rs) →
      ∃ before after, cs = before ++ (l.chars ++ after) ∧ Spaced before ls
        ∧ ∀ c ∈ after.head?, l.takes c = false
  | [], _, .next hb _ hstop _ => ⟨_, _, rfl, .done hb, hstop⟩
  | _ :: ls, _, .next hb hl hstop h => by
      obtain ⟨before, after, rfl, hbefore, hends⟩ := h.exists_split
      refine ⟨_, after, ?_, .next hb hl (fun c hc => hstop c ?_) hbefore, hends⟩
      · simp
      · cases before with
        | nil => simp at hc
        | cons d before => exact hc

/-- **Every name that an expression refers to stands between two parts of the
text.** -/
theorem exists_refersBetween {source : String} {expr : TypeExpr} (h : InGrammar source expr)
    {w : String} (hw : w ∈ expr.references) :
    ∃ before after, source = before ++ w ++ after ∧ RefersBetween before w after := by
  obtain ⟨all, hspaced, hderives⟩ := h
  obtain ⟨⟨hr, hk⟩, ls, rs, rfl, hfollows⟩ := hderives.exists_reference hw
  have hproper : isIdentifier w = true := hspaced.proper (.word w) (by simp)
  obtain ⟨before, after, hsource, hbefore, hends⟩ := hspaced.exists_split
  refine ⟨String.ofList before, String.ofList after, ?_, ⟨hproper, hk, ?_⟩, ⟨ls, ?_, hfollows⟩, ?_⟩
  · apply String.toList_injective
    simpa [Lexeme.chars] using hsource
  · exact isRecordWord_eq_false_iff.mp hr
  · simpa using hbefore
  · rw [String.toList_ofList]
    exact hends

namespace Registry

/-! ## §4. Inlining in definitions. -/

section
variable {before w after : String}

/-- In one definition. -/
theorem define_inline (h : RefersBetween before w after) {r r' : Registry} (hr : r.Lawful)
    {name : String} {t : Ty} (hdefine : r.define name (before ++ w ++ after) = .ok (r', t)) :
    ∃ ty, r.get? w = some ty ∧ r.define name (before ++ ty.text ++ after) = .ok (r', t) := by
  obtain ⟨hname, hnew, rfl, expr, hgrammar, hexpand, hsize⟩ := define_eq_ok hdefine
  obtain ⟨ty, hty, hinline⟩ := h.expand hgrammar hexpand
  have hfound : r.get? w = some ty := lookup_eq_ok.mp hty
  have hlawful : ty.Lawful := hr.types (w, ty) (Catalog.get?_eq_some_iff.mp hfound)
  obtain ⟨expr', hgrammar', hexpand'⟩ := hinline ty.text hlawful.spells
  exact ⟨ty, hfound, define_of_expand hname hnew hgrammar' hexpand' hsize⟩

/-- A definition with another text under one of the names. -/
def respell (name text : String) (pair : String × String) : String × String :=
  if pair.1 = name then (name, text) else pair

theorem respell_self {name text : String} {pair : String × String} (h : pair.1 = name) :
    respell name text pair = (name, text) :=
  if_pos h

theorem respell_of_ne {name text : String} {pair : String × String} (h : pair.1 ≠ name) :
    respell name text pair = pair :=
  if_neg h

/-- What is registered stays registered in a row of definitions. -/
theorem get?_of_defineAll {pairs : List (String × String)} {r r' : Registry} (hr : r.Lawful)
    (h : r.defineAll pairs = .ok r') {name : String} {ty : Ty} (hty : r.get? name = some ty) :
    r'.get? name = some ty := by
  have hgrows := entries_tryAll pairs hr
  rw [tryAll_of_defineAll h] at hgrows
  exact Catalog.get?_eq_some_iff.mpr (hgrows.subset (Catalog.get?_eq_some_iff.mp hty))

/-- In a row of definitions. -/
theorem defineAll_inline (h : RefersBetween before w after) {name : String} {ty : Ty} :
    ∀ {pairs : List (String × String)} {r r' : Registry}, r.Lawful →
      (∀ pair ∈ pairs, pair.1 = name → pair.2 = before ++ w ++ after) →
      r.defineAll pairs = .ok r' → r'.get? w = some ty →
      r.defineAll (pairs.map (respell name (before ++ ty.text ++ after))) = .ok r'
  | [], _, _, _, _, hall, _ => hall
  | pair :: pairs, r, r', hr, htexts, hall, hty => by
      obtain ⟨r₁, t, hdefine, hrest⟩ := defineAll_cons_eq_ok.mp hall
      have hr₁ : r₁.Lawful := tryDefine_of_ok hdefine ▸ hr.tryDefine pair
      have hmore := defineAll_inline h hr₁
        (fun p hp => htexts p (List.mem_cons_of_mem _ hp)) hrest hty
      refine defineAll_cons_eq_ok.mpr ⟨r₁, t, ?_, hmore⟩
      by_cases hname : pair.1 = name
      · rw [htexts pair List.mem_cons_self hname, hname] at hdefine
        obtain ⟨ty', hty', hinline⟩ := define_inline h hr hdefine
        -- the type referred to is the one that is there at the end
        obtain rfl : ty' = ty := by
          have hend := get?_of_defineAll hr hall hty'
          exact Option.some.inj (hend.symm.trans hty)
        rw [respell_self hname]
        exact hinline
      · rw [respell_of_ne hname]
        exact hdefine

end

/-! ## §5. Inlining in sources. -/

/-- A row of definitions is built to the same registry, in its own order. -/
theorem ofSources_ofList {pairs : List (String × String)} {r : Registry}
    (h : Registry.empty.defineAll pairs = .ok r) :
    (Catalog.ofList pairs).entries = pairs ∧ ofSources (Catalog.ofList pairs) = .ok r := by
  have hnames : r.types.names = pairs.map Prod.fst := names_of_defineAll h
  have hentries : (Catalog.ofList pairs).entries = pairs :=
    Catalog.entries_ofList (hnames ▸ r.types.distinct)
  refine ⟨hentries, ?_⟩
  unfold ofSources
  rw [Catalog.names, hentries]
  refine build_of_defineAll (fun pair hpair => ?_) h
  exact Catalog.get?_eq_some_iff.mpr (hentries.symm ▸ hpair)

/-- And to the same types in any other order. -/
theorem ofSources_of_defineAll {sources : Catalog String} {pairs : List (String × String)}
    {r : Registry} (h : Registry.empty.defineAll pairs = .ok r)
    (hsources : ∀ pair, pair ∈ pairs ↔ sources.get? pair.1 = some pair.2) :
    ∃ r', ofSources sources = .ok r' ∧ ∀ name, r'.get? name = r.get? name := by
  obtain ⟨hentries, hrow⟩ := ofSources_ofList h
  have hget : ∀ name, (Catalog.ofList pairs).get? name = sources.get? name := by
    intro name
    apply Option.ext
    intro source
    rw [Catalog.get?_eq_some_iff, hentries]
    exact hsources (name, source)
  obtain ⟨r', hr'⟩ :=
    exists_ofSources_iff.mpr ((exists_ofSources_iff.mp ⟨r, hrow⟩).of_get?_eq hget)
  -- types are full expansions, which no order changes
  refine ⟨r', hr', fun name => Option.ext fun ty => ?_⟩
  rw [get?_of_ofSources hr', get?_of_ofSources hrow]
  exact ⟨Expands.of_get?_eq fun n => (hget n).symm, Expands.of_get?_eq hget⟩

/-- Another text under a name of the sources is another text in the row. -/
theorem mem_map_respell {sources : Catalog String} {pairs : List (String × String)}
    (h : ∀ pair, pair ∈ pairs ↔ sources.get? pair.1 = some pair.2) {name old : String}
    (hold : sources.get? name = some old) (text : String) (pair : String × String) :
    pair ∈ pairs.map (respell name text) ↔ (sources.put name text).get? pair.1 = some pair.2 := by
  rw [List.mem_map]
  obtain ⟨n, source⟩ := pair
  by_cases hn : n = name
  · subst hn
    rw [Catalog.get?_put_self]
    constructor
    · rintro ⟨pair, -, hpair⟩
      by_cases hname : pair.1 = n
      · rw [respell_self hname] at hpair
        exact congrArg some (Prod.mk.inj hpair).2
      · rw [respell_of_ne hname] at hpair
        exact absurd (congrArg Prod.fst hpair) hname
    · intro hsource
      obtain rfl := Option.some.inj hsource
      exact ⟨(n, old), (h (n, old)).mpr hold, respell_self rfl⟩
  · rw [Catalog.get?_put_of_ne _ _ hn]
    constructor
    · rintro ⟨pair, hmem, hpair⟩
      by_cases hname : pair.1 = name
      · rw [respell_self hname] at hpair
        exact absurd (Prod.mk.inj hpair).1.symm hn
      · rw [respell_of_ne hname] at hpair
        subst hpair
        exact (h (n, source)).mp hmem
    · intro hsource
      exact ⟨(n, source), (h (n, source)).mpr hsource, respell_of_ne hn⟩

/-- A reference in one of the sources is to a type that is there. -/
theorem exists_get?_of_refersBetween {before w after : String} (h : RefersBetween before w after)
    {sources : Catalog String} {r : Registry} (hr : ofSources sources = .ok r) {name : String}
    (hsource : sources.get? name = some (before ++ w ++ after)) : ∃ ty, r.get? w = some ty := by
  have hadmissible := exists_ofSources_iff.mp ⟨r, hr⟩
  obtain ⟨-, hnames⟩ := sound_of_ofSources hr
  obtain ⟨expr, source, hfound, hgrammar⟩ :=
    hadmissible.read name (Catalog.mem_names_of_get? hsource)
  obtain rfl : source = before ++ w ++ after := Option.some.inj (hfound.symm.trans hsource)
  obtain ⟨t, hexpand⟩ := (exists_expand_iff expr).mpr fun n hn =>
    (@exists_lookup_iff r name n).mpr
      ((hnames n).mpr (hadmissible.closed name n ⟨expr, ⟨_, hsource, hgrammar⟩, hn⟩))
  obtain ⟨ty, hty, -⟩ := h.expand hgrammar hexpand
  exact ⟨ty, lookup_eq_ok.mp hty⟩

/-- In one of the sources. -/
theorem ofSources_inline {before w after : String} (h : RefersBetween before w after)
    {sources : Catalog String} {r : Registry} (hr : ofSources sources = .ok r) {name : String}
    (hsource : sources.get? name = some (before ++ w ++ after)) :
    ∃ ty r', r.get? w = some ty
      ∧ ofSources (sources.put name (before ++ ty.text ++ after)) = .ok r'
      ∧ ∀ n, r'.get? n = r.get? n := by
  obtain ⟨ty, hty⟩ := exists_get?_of_refersBetween h hr hsource
  obtain ⟨hsound, hnames⟩ := sound_of_ofSources hr
  have hnamed : ∀ n ∈ r.types.names, TypeName n := fun n hn =>
    typeName_of_ofSources hr n ((hnames n).mp hn)
  obtain ⟨pairs, hfst, hpairs, hall⟩ := defineAll_of_sound hsound hnamed (r := .empty) rfl
  -- every source is in the row, each with its own text
  have hmem : ∀ pair, pair ∈ pairs ↔ sources.get? pair.1 = some pair.2 := by
    refine fun pair => ⟨hpairs pair, fun hpair => ?_⟩
    have hname : pair.1 ∈ pairs.map Prod.fst :=
      hfst ▸ (hnames pair.1).mpr (Catalog.mem_names_of_get? hpair)
    obtain ⟨pair', hpair', heq⟩ := List.mem_map.mp hname
    have hsame := hpairs pair' hpair'
    rw [heq, hpair] at hsame
    exact Prod.ext heq (Option.some.inj hsame).symm ▸ hpair'
  have htexts : ∀ pair ∈ pairs, pair.1 = name → pair.2 = before ++ w ++ after := by
    intro pair hpair hname
    have hfound := hpairs pair hpair
    rw [hname, hsource] at hfound
    exact (Option.some.inj hfound).symm
  have hinline := defineAll_inline h lawful_empty htexts hall hty
  obtain ⟨r', hr', hget⟩ :=
    ofSources_of_defineAll hinline (mem_map_respell hmem hsource (before ++ ty.text ++ after))
  exact ⟨ty, r', hty, hr', hget⟩

/-! ## §6. The main result. -/

/-- **Writing and reading are inverse.**  The written form of a lawful type of
bearable size is resolved as that type, whatever a failure is worded with and
however names are looked up, and none is.  So types that are written alike are
equal.  Every name that an expression refers to stands between two parts of
its text; and in a registry the written form of the type may be put between
them instead, in a definition or in one of the sources, with no change to any
type. -/
theorem text_inverse :
    (∀ ty : Ty, ty.Lawful → ty.nodes ≤ 4096 →
        ∀ (ε : Type) (fail : Fault → ε) (lookup : String → Except ε Ty),
          resolve fail lookup ty.text = .ok ty ∧ consulted lookup (TypeExpr.met ty.text) = [])
    ∧ (∀ ty₁ ty₂ : Ty, ty₁.Lawful → ty₂.Lawful → ty₁.text = ty₂.text → ty₁ = ty₂)
    ∧ (∀ (source : String) (expr : TypeExpr), InGrammar source expr → ∀ w ∈ expr.references,
        ∃ before after, source = before ++ w ++ after ∧ RefersBetween before w after)
    ∧ (∀ (r r' : Registry) (name before w after : String) (t : Ty), Built r →
        RefersBetween before w after → r.define name (before ++ w ++ after) = .ok (r', t) →
        ∃ ty, r.get? w = some ty ∧ r.define name (before ++ ty.text ++ after) = .ok (r', t))
    ∧ ∀ (sources : Catalog String) (r : Registry) (name before w after : String),
        ofSources sources = .ok r → sources.get? name = some (before ++ w ++ after) →
        RefersBetween before w after →
        ∃ ty r', r.get? w = some ty
          ∧ ofSources (sources.put name (before ++ ty.text ++ after)) = .ok r'
          ∧ ∀ n, r'.get? n = r.get? n := by
  refine ⟨fun ty hty hsize ε fail lookup => ?_, fun ty₁ ty₂ h₁ h₂ htext => ?_,
    fun source expr hgrammar w hw => exists_refersBetween hgrammar hw,
    fun r r' name before w after t hr h hdefine => define_inline h hr.lawful hdefine,
    fun sources r name before w after hr hsource h => ofSources_inline h hr hsource⟩
  · refine ⟨hty.spells.resolve hsize fail lookup, ?_⟩
    rw [hty.spells.met_eq_nil]
    rfl
  · have hspells := h₂.spells
    rw [← htext] at hspells
    exact h₁.spells.unique hspells

/-- A record whose members are named like types. -/
def knot : Ty :=
  .record [("record", .scalar "bool"), ("bool", .fixed (.scalar "uint8") 3)]

/-- Names of members that are keywords are read back; and where one type
refers to another, the written form of that can stand for its name. -/
theorem text_inverse_knot :
    resolve id (fun _ => .error .undefinedInput) "record(bool record, uint8[3] bool)" = .ok knot
    ∧ coinRegistry.define "Purse" "record(uint8[] coins)"
        = coinRegistry.define "Purse" "record(Coin[] coins)"
    ∧ ∃ r', ofSources (Catalog.ofList [("Coin", "uint8"), ("Purse", "record(uint8[] coins)")])
        = .ok r' ∧ ∀ n, r'.get? n = purseRegistry.get? n := by
  have hbool : IsCanonical "bool" := ⟨_, .plain (by decide)⟩
  have huint : IsCanonical "uint8" := ⟨_, .unsigned 1 (by decide) (by decide)⟩
  have hknot : knot.Lawful := by
    refine .record (by decide) (by decide) (by decide) (List.forall_mem_cons.mpr ⟨.scalar hbool, ?_⟩)
    exact List.forall_mem_singleton.mpr (.fixed (.scalar huint) (by decide) (by decide))
  have hname : TypeName "Coin" := checkName_eq_ok.mp rfl
  have hbetween : RefersBetween "record(" "Coin" "[] coins)" := by
    refine ⟨hname, ⟨[.word "record", .mark '('], .of_lexemes (by cbv), ?_⟩, fun c hc => ?_⟩
    · simp [TypeFollows]
    · obtain rfl : '[' = c := Option.some.inj hc
      decide
  have hcoin : InGrammar "uint8" (.scalar "uint8") := read_eq_ok_iff.mp (by cbv)
  have hpurse : InGrammar ("record(" ++ "Coin" ++ "[] coins)")
      (.record [("coins", .sequence (.reference "Coin"))]) := inGrammar_purse
  have hfirst : Registry.empty.define "Coin" "uint8" = .ok (coinRegistry, .scalar "uint8") :=
    define_of_expand hname (by decide) hcoin rfl (by decide)
  have hsecond : coinRegistry.define "Purse" ("record(" ++ "Coin" ++ "[] coins)")
      = .ok (purseRegistry, .record [("coins", .sequence (.scalar "uint8"))]) :=
    define_of_expand (checkName_eq_ok.mp rfl) (by decide) hpurse rfl (by decide)
  have hbuilt : Registry.empty.defineAll
      [("Coin", "uint8"), ("Purse", "record(" ++ "Coin" ++ "[] coins)")] = .ok purseRegistry :=
    defineAll_cons_eq_ok.mpr ⟨_, _, hfirst, defineAll_cons_eq_ok.mpr ⟨_, _, hsecond, rfl⟩⟩
  obtain ⟨hround, -, -, hdefine, hsources⟩ := text_inverse
  have htext : "record(" ++ (Ty.scalar "uint8").text ++ "[] coins)" = "record(uint8[] coins)" := by
    rw [Ty.text]
    decide
  refine ⟨?_, ?_, ?_⟩
  · have hwritten : knot.text = "record(bool record, uint8[3] bool)" := by cbv
    rw [← hwritten]
    exact (hround knot hknot (by decide) Fault id fun _ => .error .undefinedInput).1
  · obtain ⟨ty, hty, hinline⟩ := hdefine _ _ _ _ _ _ _ (.define .empty hfirst) hbetween hsecond
    obtain rfl : Ty.scalar "uint8" = ty := Option.some.inj hty
    rw [← htext, hinline]
    exact hsecond.symm
  · obtain ⟨ty, r', hty, hr', hget⟩ :=
      hsources _ _ "Purse" _ _ _ (ofSources_ofList hbuilt).2 rfl hbetween
    obtain rfl : Ty.scalar "uint8" = ty := Option.some.inj hty
    refine ⟨r', ?_, hget⟩
    rw [← htext]
    exact hr'

end Registry

end Stencil.Schema
