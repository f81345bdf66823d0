/-
  Stencil.Proofs.Schema.Diagnosis
  ───────────────────────────────
  WHAT BUILDING SAYS OF SOURCES IT REFUSES IS TRUE OF THEM.

  A diagnosis blames one entry of the sources.  Its truth is a matter of the
  sources alone, so references have to be told in expressions that are not in
  the grammar too: a name is mentioned where a type starts, behind lexemes
  that could still be completed to an expression.

    • `mentions_iff` — in an expression of the grammar, the names mentioned
      are its references,
    • `readType_met`, `mentions_of_met` — all names met in reading a text are
      mentioned in it, also if reading fails,
    • `build_diagnosis` — the names being built are a trail of mentions, so
      every error of one step is true,
    • `ofSources_diagnosis` — and so is every error of building from sources.
-/
import Mathlib.Data.Fintype.EquivFin
import Mathlib.Data.List.Chain
import Mathlib.Data.String.Basic
import Stencil.Proofs.Schema.Inlining

namespace Stencil.Schema

open Text (isIdentifier)
open Outcome

/-! ## §1. Names mentioned in a text. -/

/-- The word stands among the lexemes where a type starts, behind lexemes that
could be completed to an expression with it. -/
structure Occurs (all : List Lexeme) (w : String) : Prop where
  /-- It may name a type. -/
  name : TypeName w
  /-- A type starts at it, and some expression starts as the lexemes do. -/
  place : ∃ ls rs, all = ls ++ .word w :: rs ∧ TypeFollows ls
    ∧ ∃ more expr, Derives (ls ++ .word w :: more) (.type expr)

/-- The text mentions the name as a reference, whether or not all of the text
is in the grammar. -/
def Mentions (source w : String) : Prop :=
  ∃ all, Spaced source.toList all ∧ Occurs all w

/-- **In an expression of the grammar the names mentioned are its references.** -/
theorem mentions_iff {source : String} {expr : TypeExpr} (h : InGrammar source expr)
    {w : String} : Mentions source w ↔ w ∈ expr.references := by
  obtain ⟨all, hspaced, hderives⟩ := h
  constructor
  · rintro ⟨all', hspaced', hname, ls, rs, hall, hfollows, -⟩
    obtain rfl : all = all' := by
      rw [← map_lexemes_of_spaced hspaced 0, map_lexemes_of_spaced hspaced' 0]
    by_contra hnot
    -- the expression would expand even if the word alone had no meaning
    let lookup : String → Except Unit Ty := fun name =>
      if name = w then .error () else .ok (.scalar "bool")
    have hknown : ∀ name ∈ expr.references, ∃ ty, lookup name = .ok ty := by
      intro name hmem
      have hne : name ≠ w := fun heq => hnot (heq ▸ hmem)
      exact ⟨.scalar "bool", if_neg hne⟩
    obtain ⟨ty, hexpand⟩ := (exists_expand_iff expr).mpr hknown
    obtain ⟨ty', hlookup, -⟩ :=
      (denotes_iff.mpr ⟨expr, hderives, hexpand⟩).replace hname hall hfollows
    simp [lookup] at hlookup
  · intro hmem
    obtain ⟨⟨hr, hk⟩, ls, rs, rfl, hfollows⟩ := hderives.exists_reference hmem
    have hid : isIdentifier w = true := hspaced.proper (.word w) (by simp)
    exact ⟨_, hspaced, ⟨hid, hk, isRecordWord_eq_false_iff.mp hr⟩, ls, rs, rfl, hfollows, rs, expr,
      hderives⟩

/-! ## §2. Where reading expects a type. -/

/-- A type is expected after these lexemes, and whichever type comes, there is
a way to complete the expression. -/
structure AwaitsType (done : List Lexeme) : Prop where
  /-- A type starts here. -/
  starts : TypeFollows done
  /-- The expression can be completed. -/
  completes : ∀ {ls : List Lexeme} {t : TypeExpr}, Derives ls (.type t) →
    ∃ more expr, Derives (done ++ (ls ++ more)) (.type expr)

/-- Members are expected after these lexemes, under names other than those of
the members before. -/
structure AwaitsMembers (done : List Lexeme) (names : List String) : Prop where
  /-- A member starts with its type. -/
  starts : TypeFollows done
  /-- The names so far are different. -/
  distinct : names.Nodup
  /-- The expression can be completed. -/
  completes : ∀ {ls : List Lexeme} {ms : List (String × TypeExpr)}, Derives ls (.members ms) →
    (names ++ ms.map Prod.fst).Nodup → ∃ more expr, Derives (done ++ (ls ++ more)) (.type expr)

/-- Reading starts with a type. -/
theorem awaitsType_nil : AwaitsType [] := by
  refine ⟨by simp [TypeFollows], fun {ls t} h => ⟨[], t, ?_⟩⟩
  rw [List.nil_append, List.append_nil]
  exact h

/-- An opened record awaits its first member. -/
theorem AwaitsType.record {done : List Lexeme} (h : AwaitsType done) {w : String}
    (hw : isRecordWord w = true) : AwaitsMembers (done ++ [.word w, .mark '(']) [] := by
  refine ⟨by simp [TypeFollows], List.nodup_nil, fun {ls ms} hms hd => ?_⟩
  obtain ⟨more, expr, hexpr⟩ := h.completes (.record hw hms hd)
  exact ⟨.mark ')' :: more, expr, by simpa using hexpr⟩

/-- A member awaits its type: some name is left for it. -/
theorem AwaitsMembers.type {done : List Lexeme} {names : List String}
    (h : AwaitsMembers done names) : AwaitsType done := by
  refine ⟨h.starts, fun {ls t} ht => ?_⟩
  obtain ⟨n, hn⟩ := Infinite.exists_notMem_finset names.toFinset
  have hfresh : (names ++ [n]).Nodup := by
    rw [List.mem_toFinset] at hn
    exact List.nodup_append.mpr ⟨h.distinct, by simp, fun a ha b hb hab => by
      rw [List.mem_singleton.mp hb] at hab
      exact hn (hab ▸ ha)⟩
  obtain ⟨more, expr, hexpr⟩ := h.completes (.one ht) hfresh
  exact ⟨.word n :: more, expr, by simpa using hexpr⟩

/-- Behind a member and a comma the next one is awaited. -/
theorem AwaitsMembers.next {done ls : List Lexeme} {names : List String} {n : String}
    {t : TypeExpr} (h : AwaitsMembers done names) (ht : Derives ls (.type t))
    (hd : (names ++ [n]).Nodup) :
    AwaitsMembers (done ++ (ls ++ [.word n, .mark ','])) (names ++ [n]) := by
  refine ⟨by simp [TypeFollows], hd, fun {rest ms} hms hnames => ?_⟩
  obtain ⟨more, expr, hexpr⟩ := h.completes (.more (n := n) ht hms) (by simpa using hnames)
  exact ⟨more, expr, by simpa using hexpr⟩

/-! ## §3. Names met in reading. -/

/-- The names met by a reader, whether it ended well or not. -/
def metBy {α : Type} : Except Misread (α × Cursor) → List String
  | .ok (_, c) => c.references
  | .error misread => misread.references

/-- Suffixes refer to nothing. -/
theorem metBy_readSuffixes (ty : TypeExpr) (refs : List String) (finish : Nat)
    (ps : List PlacedLexeme) : metBy (readSuffixes ty refs finish ps) = refs := by
  fun_induction readSuffixes ty refs finish ps with
  | case1 _ _ _ _ _ _ ih => exact ih
  | case2 => rfl
  | case3 => rfl
  | case4 => assumption
  | case5 => rfl
  | case6 => rfl
  | case7 => rfl

/-- What is met in a chain of two readers is met by the first, or by the second
after it. -/
theorem forall_metBy_bind {α β : Type} {P : String → Prop} {x : Except Misread (α × Cursor)}
    {f : α × Cursor → Except Misread (β × Cursor)} (hx : ∀ w ∈ metBy x, P w)
    (hf : ∀ a c, x = .ok (a, c) → (∀ w ∈ c.references, P w) → ∀ w ∈ metBy (f (a, c)), P w) :
    ∀ w ∈ metBy (x >>= f), P w := by
  cases x with
  | ok found => exact hf found.1 found.2 rfl hx
  | error misread => exact hx

/-- A word is read, or nothing is met. -/
theorem forall_metBy_word {α : Type} {P : String → Prop} {c : Cursor}
    {f : String × Nat × Cursor → Except Misread (α × Cursor)} (hc : ∀ w ∈ c.references, P w)
    (hf : ∀ text start stop rest, c.rest = ⟨.word text, start, stop⟩ :: rest →
      ∀ w ∈ metBy (f (text, stop, c.skip)), P w) :
    ∀ w ∈ metBy (c.word >>= f), P w := by
  cases hword : c.word with
  | ok found =>
    obtain ⟨text, stop, c'⟩ := found
    obtain ⟨rfl, start, rest, hrest⟩ := Cursor.word_eq_ok hword
    exact hf text start stop rest hrest
  | error misread =>
    unfold Cursor.word at hword
    split at hword
    next => simp at hword
    next =>
      obtain rfl := Except.error.inj hword
      exact hc

/-- So is a character. -/
theorem forall_metBy_mark {α : Type} {P : String → Prop} {c : Cursor} {char : Char}
    {f : Cursor → Except Misread (α × Cursor)} (hc : ∀ w ∈ c.references, P w)
    (hf : ∀ start stop rest, c.rest = ⟨.mark char, start, stop⟩ :: rest →
      ∀ w ∈ metBy (f c.skip), P w) :
    ∀ w ∈ metBy (c.mark char >>= f), P w := by
  cases hmark : c.mark char with
  | ok c' =>
    obtain ⟨rfl, start, stop, rest, hrest⟩ := Cursor.mark_eq_ok hmark
    exact hf start stop rest hrest
  | error misread =>
    unfold Cursor.mark at hmark
    split at hmark
    next => simp at hmark
    next =>
      obtain rfl := Except.error.inj hmark
      exact hc

section
variable {all : List Lexeme}

mutual
/-- **All names met in reading a type occur among the lexemes,** if a type is
expected where reading starts. -/
theorem readType_met : ∀ {fuel : Nat} {c : Cursor} {done : List Lexeme},
    (∀ p ∈ c.rest, p.lexeme.Proper) → AwaitsType done → all = done ++ plain c.rest →
    (∀ w ∈ c.references, Occurs all w) → ∀ w ∈ metBy (readType fuel c), Occurs all w
  | 0, c, done, _, _, _, hrefs => by
      rw [readType]
      exact hrefs
  | fuel + 1, c, done, hp, hawaits, hall, hrefs => by
      rw [readType]
      refine forall_metBy_word hrefs fun word start stop rest hrest => ?_
      have hskip := Cursor.rest_skip hrest
      have hid : isIdentifier word = true :=
        hp ⟨.word word, start, stop⟩ (by rw [hrest]; exact List.mem_cons_self)
      dsimp only
      split
      next hrecord =>
        refine forall_metBy_mark hrefs fun start' stop' rest' hrest' => ?_
        have hskip' := Cursor.rest_skip hrest'
        rw [hskip] at hrest'
        split
        next => exact hrefs
        next =>
          -- inside the parentheses members are awaited
          have hp' : ∀ p ∈ c.skip.skip.rest, p.lexeme.Proper := by
            rw [hskip']
            intro p hmem
            exact hp p (by rw [hrest, hrest']; simp [hmem])
          have hmembers : ∀ w ∈ metBy (readMembers fuel [] c.skip.skip), Occurs all w :=
            readMembers_met hp' (hawaits.record hrecord)
              (by rw [hall, hskip', hrest, hrest']; simp) hrefs
          refine forall_metBy_bind hmembers fun ms c₃ _ hc₃ => ?_
          rw [metBy_readSuffixes]
          exact hc₃
      next hrecord =>
        split
        next =>
          rw [metBy_readSuffixes]
          exact hrefs
        next hname =>
          rw [metBy_readSuffixes]
          have hr : isRecordWord word = false := by simpa using hrecord
          have hnone : ∀ name, ¬ Keyword word name := by
            intro name hk
            rw [scalarName?_of_keyword hk] at hname
            simp at hname
          obtain ⟨more, expr, hexpr⟩ := hawaits.completes (.reference hr hnone)
          have hoccurs : Occurs all word :=
            ⟨⟨hid, hnone, isRecordWord_eq_false_iff.mp hr⟩, done, plain rest,
              by rw [hall, hrest]; rfl, hawaits.starts, more, expr, hexpr⟩
          intro w hw
          rcases List.mem_append.mp hw with hw | hw
          · exact hrefs w hw
          · rw [List.mem_singleton.mp hw]
            exact hoccurs

/-- The same for members. -/
theorem readMembers_met : ∀ {fuel : Nat} {members : List (String × TypeExpr)} {c : Cursor}
    {done : List Lexeme}, (∀ p ∈ c.rest, p.lexeme.Proper) →
    AwaitsMembers done (members.map Prod.fst) → all = done ++ plain c.rest →
    (∀ w ∈ c.references, Occurs all w) → ∀ w ∈ metBy (readMembers fuel members c), Occurs all w
  | 0, members, c, done, _, _, _, hrefs => by
      rw [readMembers]
      exact hrefs
  | fuel + 1, members, c, done, hp, hawaits, hall, hrefs => by
      rw [readMembers]
      refine forall_metBy_bind (readType_met hp hawaits.type hall hrefs) fun ty c₁ htype hc₁ => ?_
      obtain ⟨used, hused, hty⟩ := readType_sound hp htype
      refine forall_metBy_word hc₁ fun name start stop rest hrest => ?_
      have hskip := Cursor.rest_skip hrest
      dsimp only
      split
      next => exact hc₁
      next hfresh =>
        split
        next hcomma =>
          obtain ⟨⟨l, start', stop'⟩, hhead, hl⟩ := Option.map_eq_some_iff.mp hcomma
          obtain ⟨rest', hrest'⟩ := List.head?_eq_some_iff.mp hhead
          obtain rfl : l = .mark ',' := hl
          have hskip' := Cursor.rest_skip hrest'
          rw [hskip] at hrest'
          -- the member is complete, and those after it have other names
          have hd : (members.map Prod.fst ++ [name]).Nodup := by
            refine List.nodup_append.mpr ⟨hawaits.distinct, by simp, fun a ha b hb hab => ?_⟩
            rw [List.mem_singleton.mp hb] at hab
            obtain ⟨m, hm, hname⟩ := List.mem_map.mp (hab ▸ ha)
            exact hfresh (List.any_eq_true.mpr ⟨m, hm, by simpa using hname⟩)
          have hp' : ∀ p ∈ c₁.skip.skip.rest, p.lexeme.Proper := by
            rw [hskip']
            intro p hmem
            exact hp p (by rw [hused, hrest, hrest']; simp [hmem])
          have hnext : AwaitsMembers (done ++ (plain used ++ [.word name, .mark ',']))
              ((members ++ [(name, ty)]).map Prod.fst) := by
            rw [List.map_append]
            exact hawaits.next hty hd
          refine readMembers_met hp' hnext ?_ hc₁
          rw [hall, hskip', hused, hrest, hrest']
          simp
        next => exact forall_metBy_mark hc₁ fun _ _ _ _ => hc₁
end

end

/-- **All names met in a text are mentioned in it,** also in a misread one. -/
theorem mentions_of_met {source w : String} (h : w ∈ TypeExpr.met source) : Mentions source w := by
  unfold TypeExpr.met at h
  split at h
  next expr hread => exact (mentions_iff (read_eq_ok_iff.mp hread)).mpr h
  next misread hread =>
    have hspaced := spaced_lexemes 0 source.toList
    have hproper : ∀ p ∈ lexemes 0 source.toList, p.lexeme.Proper :=
      fun p hp => hspaced.proper p.lexeme (List.mem_map_of_mem hp)
    have hmet : ∀ w ∈ metBy (readType ((lexemes 0 source.toList).length + 1)
        ⟨[], lexemes 0 source.toList, Text.width source.toList⟩),
        Occurs (plain (lexemes 0 source.toList)) w :=
      readType_met hproper awaitsType_nil rfl (by simp)
    refine ⟨_, hspaced, ?_⟩
    -- reading fails at a fault in the type, or behind it
    unfold TypeExpr.read at hread
    rcases bind_eq_error.mp hread with hfails | ⟨⟨ty, rest⟩, htype, htrailing⟩
    · rw [hfails] at hmet
      exact hmet w h
    · rw [htype] at hmet
      dsimp only at htrailing
      split at htrailing
      next => simp at htrailing
      next =>
        obtain rfl := Except.error.inj htrailing
        exact hmet w h

namespace Registry

/-! ## §4. True diagnoses. -/

/-- The source of `name` mentions `other`. -/
def LeadsTo (sources : Catalog String) (name other : String) : Prop :=
  ∃ source, sources.get? name = some source ∧ Mentions source other

/-- For a name with a definition these are the names it refers to. -/
theorem leadsTo_iff_refers {sources : Catalog String} {name other : String} {expr : TypeExpr}
    (hd : Defines sources name expr) : LeadsTo sources name other ↔ Refers sources name other := by
  obtain ⟨source, hs, hexpr⟩ := hd
  constructor
  · rintro ⟨source', hs', hmentions⟩
    obtain rfl : source = source' := by simpa [hs] using hs'
    exact ⟨expr, ⟨source, hs, hexpr⟩, (mentions_iff hexpr).mp hmentions⟩
  · rintro ⟨expr', ⟨source', hs', hexpr'⟩, hmem⟩
    exact ⟨source', hs', (mentions_iff hexpr').mpr hmem⟩

/-- What is wrong with an entry of the sources is true of them. -/
def Truthful (sources : Catalog String) (name : String) : Fault → Prop
  | .cyclic chain =>
      2 ≤ chain.length ∧ chain.IsChain (LeadsTo sources)
        ∧ ∃ earlier, chain = earlier ++ [name] ∧ earlier.count name = 1
  | .undefined other => LeadsTo sources name other ∧ other ∉ sources.names
  | .tooLarge nodes =>
      (∃ ty, Expands sources (.reference name) ty ∧ ty.nodes = nodes) ∧ 4096 < nodes
        ∧ ∀ other, LeadsTo sources name other →
          ∃ ty, Expands sources (.reference other) ty ∧ ty.nodes ≤ 4096
  | _ => ¬ TypeName name ∨ ¬ ∃ expr, Defines sources name expr

/-- An error that blames an entry of the sources truthfully. -/
def Diagnoses (sources : Catalog String) (e : Error) : Prop :=
  ∃ name fault, e = .schema name fault ∧ name ∈ sources.names ∧ Truthful sources name fault

/-- A name that fails its check may not name a type. -/
theorem diagnoses_of_checkName {sources : Catalog String} {name : String} {e : Error}
    (hname : name ∈ sources.names) (h : checkName name = .error e) : Diagnoses sources e := by
  have hnot : ¬ TypeName name := by
    intro htype
    rw [checkName_eq_ok.mpr htype] at h
    simp at h
  unfold checkName at h
  split at h
  next => exact ⟨name, _, (Except.error.inj h).symm, hname, .inl hnot⟩
  next =>
    split at h
    next => exact ⟨name, _, (Except.error.inj h).symm, hname, .inl hnot⟩
    next => simp at h

/-- The names being built lead to the name at hand, one by one, and none of
them comes twice.  A search starts at a name of the sources. -/
structure Trail (sources : Catalog String) (visiting : List String) (name : String) : Prop where
  /-- Each name leads to the next. -/
  leads : (visiting ++ [name]).IsChain (LeadsTo sources)
  /-- None comes twice. -/
  distinct : visiting.Nodup
  /-- All have a source. -/
  known : ∀ v ∈ visiting, v ∈ sources.names
  /-- So has the name at hand, if it is the first. -/
  starts : visiting = [] → name ∈ sources.names

/-- A search starts with a trail of nothing. -/
theorem trail_nil {sources : Catalog String} {name : String} (h : name ∈ sources.names) :
    Trail sources [] name :=
  ⟨by simp, List.nodup_nil, by simp, fun _ => h⟩

/-- Going down to a name that is mentioned extends the trail. -/
theorem Trail.down {sources : Catalog String} {visiting : List String} {name other : String}
    (h : Trail sources visiting name) (hname : name ∈ sources.names) (hv : name ∉ visiting)
    (hleads : LeadsTo sources name other) : Trail sources (visiting ++ [name]) other := by
  refine ⟨?_, ?_, ?_, by simp⟩
  · rw [List.isChain_append]
    refine ⟨h.leads, by simp, fun x hx y hy => ?_⟩
    obtain rfl : name = x := by simpa using hx
    obtain rfl : other = y := by simpa using hy
    exact hleads
  · refine List.nodup_append.mpr ⟨h.distinct, by simp, fun a ha b hb hab => ?_⟩
    rw [List.mem_singleton.mp hb] at hab
    exact hv (hab ▸ ha)
  · intro v hmem
    rcases List.mem_append.mp hmem with hmem | hmem
    · exact h.known v hmem
    · rw [List.mem_singleton.mp hmem]
      exact hname

/-- A name that is met again closes a cycle. -/
theorem Trail.cyclic {sources : Catalog String} {visiting : List String} {name : String}
    (h : Trail sources visiting name) (hv : name ∈ visiting) :
    Diagnoses sources (.schema name (.cyclic (visiting ++ [name]))) := by
  refine ⟨name, _, rfl, h.known name hv, ?_, h.leads, visiting, rfl,
    List.count_eq_one_of_mem h.distinct hv⟩
  have hpos := List.length_pos_of_mem hv
  rw [List.length_append, List.length_singleton]
  omega

/-- A name without a source is mentioned by the last of those being built. -/
theorem Trail.undefined {sources : Catalog String} {visiting : List String} {name : String}
    (h : Trail sources visiting name) (hnot : name ∉ sources.names) :
    Diagnoses sources (.schema (visiting.getLast?.getD name) (.undefined name)) := by
  rcases List.eq_nil_or_concat visiting with rfl | ⟨front, owner, rfl⟩
  · exact absurd (h.starts rfl) hnot
  · rw [List.concat_eq_append] at h ⊢
    have hleads : LeadsTo sources owner name :=
      (List.isChain_append.mp h.leads).2.2 owner (by simp) name (by simp)
    refine ⟨owner, .undefined name, by simp, h.known owner (by simp), hleads, hnot⟩

/-- A definition whose names are all in a sound registry fails for its text or
for its size. -/
theorem diagnoses_of_complete {sources : Catalog String} {name source : String} {r : Registry}
    {e : Error} (hs : sources.get? name = some source) (hr : Sound sources r)
    (hmet : ∀ other ∈ TypeExpr.met source, other ∈ r.types.names)
    (h : complete (.schema name) (r.lookup name) source = .error e) : Diagnoses sources e := by
  have hname : name ∈ sources.names := Catalog.mem_names_of_get? hs
  unfold complete at h
  split at h
  next misread hread =>
    refine ⟨name, _, (Except.error.inj h).symm, hname, .inr ?_⟩
    rintro ⟨expr, source', hs', hexpr⟩
    obtain rfl : source = source' := by simpa [hs] using hs'
    rw [read_eq_ok_iff.mpr hexpr] at hread
    simp at hread
  next expr hread =>
    have hexpr : InGrammar source expr := read_eq_ok_iff.mp hread
    have hd : Defines sources name expr := ⟨source, hs, hexpr⟩
    rw [met_of_inGrammar hexpr] at hmet
    -- all names look up, so the type is there, and it is too large
    have hknown : ∀ other ∈ expr.references, ∃ ty, r.lookup name other = .ok ty :=
      fun other hother => exists_lookup_iff.mpr (hmet other hother)
    obtain ⟨ty, hexpand⟩ := (exists_expand_iff expr).mpr hknown
    change (expr.expand (r.lookup name) >>= checkSize (.schema name)) = .error e at h
    rw [hexpand, ok_bind] at h
    unfold checkSize at h
    split at h
    next hlarge =>
      have hty : Expands sources expr ty :=
        expands_of_expand (fun n t hn => hr.expands n t (lookup_eq_ok.mp hn)) expr hexpand
      refine ⟨name, _, (Except.error.inj h).symm, hname, ⟨ty, .reference hd hty, rfl⟩, hlarge, ?_⟩
      intro other hleads
      obtain ⟨expr', hd', hmem⟩ := (leadsTo_iff_refers hd).mp hleads
      rw [← hd.unique hd'] at hmem
      obtain ⟨ty', hty'⟩ := Catalog.mem_names_iff.mp (hmet other hmem)
      exact ⟨ty', hr.expands other ty' hty', hr.small other ty' hty'⟩
    next => simp at h

/-! ## §5. Building tells the truth. -/

/-- **Every error of one step is true,** from any point of a search.  The
induction is on the names that can still be started. -/
theorem build_diagnosis {sources : Catalog String} : ∀ (visiting : List String) (name : String)
    (r : Registry) (e : Error), Sound sources r → Trail sources visiting name →
    build sources visiting name r = .error e → Diagnoses sources e := by
  intro visiting
  induction hm : (pending sources.names visiting).length using Nat.strongRecOn
    generalizing visiting with
  | ind m ih =>
    intro name r e hr htrail h
    unfold build at h
    split at h
    next => simp at h
    next =>
      split at h
      next hv =>
        obtain rfl := Except.error.inj h
        exact htrail.cyclic (by simpa using hv)
      next hv =>
        have hv : name ∉ visiting := by simpa using hv
        split at h
        next hnone =>
          obtain rfl := Except.error.inj h
          refine htrail.undefined fun hname => ?_
          obtain ⟨source, hs⟩ := Catalog.mem_names_iff.mp hname
          simp [hs] at hnone
        next source hs =>
          have hname : name ∈ sources.names := Catalog.mem_names_of_get? hs
          rcases bind_eq_error.mp h with hrefs | ⟨r₁, hrefs, h⟩
          · -- the first reference that fails is one step further down the trail
            obtain ⟨front, other, rest, r₁, hmet, hfront, hother⟩ := foldlM_eq_error hrefs
            have hlt := pending_lt hname (by simpa using hv)
            have hsound := (reached_of_foldlM (build_sound sources _) hr hfront).sound
            have hmem : other ∈ TypeExpr.met source := by rw [hmet]; simp
            exact ih _ (hm ▸ hlt) (visiting ++ [name]) rfl other r₁ e hsound
              (htrail.down hname hv ⟨source, hs, mentions_of_met hmem⟩) hother
          · have hreached := reached_of_foldlM (build_sound sources _) hr hrefs
            rcases bind_eq_error.mp h with hcomplete | ⟨ty, -, h⟩
            · exact diagnoses_of_complete hs hreached.sound hreached.has hcomplete
            · simp at h

/-- A chain that comes back to one of its names is a cycle. -/
theorem transGen_of_cyclic {sources : Catalog String} {name : String} {chain : List String}
    (h : Truthful sources name (.cyclic chain)) :
    Relation.TransGen (LeadsTo sources) name name := by
  obtain ⟨-, hchain, earlier, rfl, hcount⟩ := h
  have hmem : name ∈ earlier := List.count_pos_iff.mp (by omega)
  obtain ⟨front, rest, rfl⟩ := List.append_of_mem hmem
  rw [List.append_assoc, List.isChain_append] at hchain
  have hsteps := hchain.2.1.imp fun _ _ hstep => Relation.TransGen.single hstep
  exact List.rel_of_pairwise_cons hsteps.pairwise (by simp)

/-- **Diagnoses of sources are true.**  Sources that are not built are refused
for one of their entries.  A cycle is a chain of names, each mentioned by the
source of the one before it, that ends at the entry and has it once before;
an undefined name is mentioned by the entry and has no source; an expansion
that is too large has the number of nodes reported, and those of all names
the entry mentions are small enough; any other fault is the entry's own, in
its name or in its expression.  So no cycle is found where there is none. -/
theorem ofSources_diagnosis {sources : Catalog String} {e : Error}
    (h : ofSources sources = .error e) :
    ∃ name fault, e = .schema name fault ∧ name ∈ sources.names ∧ Truthful sources name fault
      ∧ ((∀ n, ¬ Relation.TransGen (LeadsTo sources) n n) → ∀ chain, fault ≠ .cyclic chain) := by
  obtain ⟨front, name, rest, r, hnames, hfront, hstep⟩ := foldlM_eq_error h
  have hname : name ∈ sources.names := by rw [hnames]; simp
  have hsound : Sound sources r :=
    (reached_of_foldlM
      (fun n r r' hr hok => build_sound sources [] n r r' hr (ofSources_step hok).2)
      (sound_empty sources) hfront).sound
  have hdiagnoses : Diagnoses sources e := by
    rcases bind_eq_error.mp hstep with hcheck | ⟨_, -, hbuild⟩
    · exact diagnoses_of_checkName hname hcheck
    · exact build_diagnosis [] name r e hsound (trail_nil hname) hbuild
  obtain ⟨blamed, fault, rfl, hblamed, htrue⟩ := hdiagnoses
  refine ⟨blamed, fault, rfl, hblamed, htrue, ?_⟩
  rintro hacyclic chain rfl
  exact hacyclic blamed (transGen_of_cyclic htrue)

/-- A name for another type fails as building that one does. -/
theorem build_alias {sources : Catalog String} {visiting : List String} {name other : String}
    {r : Registry} {e : Error} (hnew : r.types.contains name = false)
    (hv : visiting.contains name = false) (hs : sources.get? name = some other)
    (hother : TypeName other) (h : build sources (visiting ++ [name]) other r = .error e) :
    build sources visiting name r = .error e := by
  have hgrammar : InGrammar other (.reference other) :=
    ⟨[.word other], .single (l := .word other) hother.identifier,
      .reference (isRecordWord_eq_false_iff.mpr hother.noRecord) hother.noKeyword⟩
  have hmet : TypeExpr.met other = [other] := met_of_inGrammar hgrammar
  rw [build, hnew, if_neg Bool.false_ne_true, dif_neg (by rw [hv]; exact Bool.false_ne_true)]
  split
  next hnone => simp [hs] at hnone
  next source hsome =>
    obtain rfl : other = source := by simpa [hs] using hsome
    rw [hmet, List.foldlM_cons, h]
    rfl

/-- Three names for types, the last two for each other. -/
def ringSources : Catalog String :=
  Catalog.ofList [("A", "B"), ("B", "C"), ("C", "B")]

/-- The cycle is found behind an entry that is not on it. -/
theorem ofSources_diagnosis_ring :
    ofSources ringSources = .error (.schema "B" (.cyclic ["A", "B", "C", "B"]))
      ∧ ["A", "B", "C", "B"].IsChain (LeadsTo ringSources) := by
  have hb : TypeName "B" := checkName_eq_ok.mp rfl
  have hc : TypeName "C" := checkName_eq_ok.mp rfl
  have hagain : build ringSources ["A", "B", "C"] "B" .empty
      = .error (.schema "B" (.cyclic ["A", "B", "C", "B"])) := by
    rw [build]
    rfl
  have hbuild : build ringSources [] "A" .empty
      = .error (.schema "B" (.cyclic ["A", "B", "C", "B"])) :=
    build_alias rfl rfl rfl hb (build_alias rfl rfl rfl hc (build_alias rfl rfl rfl hb hagain))
  have h : ofSources ringSources = .error (.schema "B" (.cyclic ["A", "B", "C", "B"])) := by
    change ((checkName "A" >>= fun _ => build ringSources [] "A" .empty) >>= _) = _
    rw [hbuild]
    rfl
  obtain ⟨name, fault, heq, -, htrue, -⟩ := ofSources_diagnosis h
  obtain ⟨rfl, rfl⟩ := Error.schema.inj heq
  exact ⟨h, htrue.2.1⟩

end Registry

end Stencil.Schema
