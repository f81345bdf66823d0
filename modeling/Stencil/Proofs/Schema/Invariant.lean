/-
  Stencil.Proofs.Schema.Invariant
  ───────────────────────────────
  WHAT A REGISTRY KEEPS THROUGH EVERY RUN OF DEFINITIONS.

  A run tries definitions with whatever names and texts, one after the other;
  those that fail are passed over.  What is registered in the course of it is
  lawful at every node and stays for good.

    • `Denotes.lawful` — the grammar makes lawful types of lawful types,
    • `tryDefine_of_error`, `tryDefine_cases` — all that one attempt can do to
      a registry: if it fails, nothing,
    • `Lawful.tryAll`, `entries_tryAll` — what every attempt keeps, a run
      keeps,
    • `exists_tryAll_of_ofSources` — what is built from sources is also left
      behind by a run, so every registry that can be reached is lawful
      (`Built.lawful`),
    • `tryAll_invariant` — the invariant of whole runs.
-/
import Stencil.Proofs.Schema.Denotation

namespace Stencil.Schema

open Text (isIdentifier)
open Outcome

/-! ## §1. Lawful types. -/

/-- What holds at every node of a registered type.  It is well formed, and in
addition no record is empty: only such types have a written form that is read
back. -/
inductive Ty.Lawful : Ty → Prop
  /-- Elementary types are canonical. -/
  | scalar {name : String} (h : IsCanonical name) : Lawful (.scalar name)
  /-- A record has members, which are different identifiers. -/
  | record {members : List (String × Ty)} (hne : members ≠ [])
      (hd : (members.map Prod.fst).Nodup) (hid : ∀ m ∈ members, isIdentifier m.1 = true)
      (h : ∀ m ∈ members, Lawful m.2) : Lawful (.record members)
  /-- An array of any length. -/
  | sequence {element : Ty} (h : Lawful element) : Lawful (.sequence element)
  /-- An array of a positive size of 64 bits. -/
  | fixed {element : Ty} {size : Nat} (h : Lawful element) (low : 1 ≤ size)
      (high : size ≤ 2 ^ 64 - 1) : Lawful (.fixed element size)

/-- All that compiling asks of a type holds of a lawful one. -/
theorem Ty.Lawful.wellFormed {ty : Ty} (h : ty.Lawful) : ty.WellFormed := by
  induction h with
  | scalar h => exact .scalar h
  | record _ hd hid _ ih => exact .record hd hid ih
  | sequence _ ih => exact .sequence ih
  | fixed _ low high ih => exact .fixed ih low (lt_sizeLimit_iff.mpr high)

/-- The same of what lexemes denote. -/
def Meaning.Lawful : Meaning → Prop
  | type ty => ty.Lawful
  | members list => list ≠ [] ∧ ∀ m ∈ list, isIdentifier m.1 = true ∧ m.2.Lawful

/-- **The grammar makes lawful types of lawful types.** -/
theorem Denotes.lawful {ε : Type} {lookup : String → Except ε Ty}
    (hl : ∀ name ty, lookup name = .ok ty → ty.Lawful) {ls : List Lexeme} {m : Meaning}
    (h : Denotes lookup ls m) : (∀ l ∈ ls, l.Proper) → m.Lawful := by
  induction h with
  | @scalar w _ hk => exact fun _ => .scalar ⟨w, hk⟩
  | reference _ _ hlookup =>
    -- the only types that do not come out of the text itself
    exact fun _ => hl _ _ hlookup
  | record _ _ hd ih =>
    intro hp
    obtain ⟨hne, hms⟩ := ih fun l hl => hp l (by simp [hl])
    exact .record hne hd (fun m hm => (hms m hm).1) (fun m hm => (hms m hm).2)
  | sequence _ ih =>
    intro hp
    exact .sequence (ih fun l hl => hp l (by simp [hl]))
  | fixed _ low high ih =>
    intro hp
    exact .fixed (ih fun l hl => hp l (by simp [hl])) low high
  | @one ls ty n _ ih =>
    intro hp
    refine ⟨by simp, fun m hm => ?_⟩
    obtain rfl : m = (n, ty) := by simpa using hm
    exact ⟨hp (.word n) (by simp), ih fun l hl => hp l (by simp [hl])⟩
  | @more ls rest ty n ms _ _ ih ihs =>
    intro hp
    refine ⟨by simp, List.forall_mem_cons.mpr ⟨?_, ?_⟩⟩
    · exact ⟨hp (.word n) (by simp), ih fun l hl => hp l (by simp [hl])⟩
    · exact (ihs fun l hl => hp l (by simp [hl])).2

/-- What an expression of the grammar expands to is lawful if all that its
names look up is. -/
theorem InGrammar.lawful {ε : Type} {lookup : String → Except ε Ty}
    (hl : ∀ name ty, lookup name = .ok ty → ty.Lawful) {source : String} {expr : TypeExpr}
    {ty : Ty} (h : InGrammar source expr) (hexpand : expr.expand lookup = .ok ty) :
    ty.Lawful := by
  obtain ⟨ls, hspaced, hderives⟩ := h
  exact (denotes_iff.mpr ⟨expr, hderives, hexpand⟩).lawful hl hspaced.proper

namespace Registry

/-! ## §2. One attempt. -/

/-- The registry that is there after a definition, whether it fails or not. -/
def tryDefine (r : Registry) (pair : String × String) : Registry :=
  ((defineType pair.1 pair.2).result r).2

theorem tryDefine_of_ok {r r' : Registry} {name source : String} {ty : Ty}
    (h : r.define name source = .ok (r', ty)) : r.tryDefine (name, source) = r' := by
  unfold define at h
  unfold tryDefine
  split at h
  next hresult =>
    rw [hresult]
    exact (Prod.mk.inj (Except.ok.inj h)).1
  next => simp at h

/-- A definition that fails leaves the registry as it was. -/
theorem tryDefine_of_error {r : Registry} {name source : String} {e : Error}
    (h : r.define name source = .error e) : r.tryDefine (name, source) = r := by
  unfold define at h
  unfold tryDefine
  split at h
  next => simp at h
  next hresult => rw [hresult, result_defineType_of_error hresult]

/-- Try one definition after the other. -/
def tryAll (r : Registry) (pairs : List (String × String)) : Registry :=
  pairs.foldl tryDefine r

/-- What holds of all entries of a registry. -/
structure Lawful (r : Registry) : Prop where
  /-- Names are identifiers that do not already mean a type. -/
  named : ∀ entry ∈ r.types.entries, TypeName entry.1
  /-- Types are lawful. -/
  types : ∀ entry ∈ r.types.entries, entry.2.Lawful
  /-- Types are small. -/
  small : ∀ entry ∈ r.types.entries, entry.2.nodes ≤ 4096

/-- **All that one attempt can do:** fail and change nothing, or put a lawful,
small type under a new name behind all others. -/
theorem tryDefine_cases {r : Registry} (hr : r.Lawful) (pair : String × String) :
    ((∃ e, r.define pair.1 pair.2 = .error e) ∧ r.tryDefine pair = r)
      ∨ ∃ ty, r.define pair.1 pair.2 = .ok (r.tryDefine pair, ty) ∧ TypeName pair.1
        ∧ ty.Lawful ∧ ty.nodes ≤ 4096
        ∧ (r.tryDefine pair).types.entries = r.types.entries ++ [(pair.1, ty)] := by
  cases h : r.define pair.1 pair.2 with
  | error e => exact .inl ⟨⟨e, rfl⟩, tryDefine_of_error h⟩
  | ok result =>
    obtain ⟨r', ty⟩ := result
    rw [tryDefine_of_ok h]
    obtain ⟨hname, hnew, rfl, expr, hexpr, hexpand, hsize⟩ := define_eq_ok h
    refine .inr ⟨ty, rfl, hname, hexpr.lawful (fun n t ht => ?_) hexpand, hsize,
      Catalog.entries_put_of_not_mem ty hnew⟩
    exact hr.types (n, t) (Catalog.get?_eq_some_iff.mp (lookup_eq_ok.mp ht))

theorem lawful_empty : Registry.empty.Lawful := by
  refine ⟨fun entry h => ?_, fun entry h => ?_, fun entry h => ?_⟩ <;>
    simp [Registry.empty, Catalog.empty] at h

/-- An attempt keeps a registry lawful. -/
theorem Lawful.tryDefine {r : Registry} (hr : r.Lawful) (pair : String × String) :
    (r.tryDefine pair).Lawful := by
  rcases tryDefine_cases hr pair with ⟨-, hsame⟩ | ⟨ty, -, hname, hty, hsize, hentries⟩
  · rw [hsame]
    exact hr
  · refine ⟨?_, ?_, ?_⟩ <;> rw [hentries, List.forall_mem_append, List.forall_mem_singleton]
    · exact ⟨hr.named, hname⟩
    · exact ⟨hr.types, hty⟩
    · exact ⟨hr.small, hsize⟩

/-- An attempt moves and changes no entry. -/
theorem entries_tryDefine {r : Registry} (hr : r.Lawful) (pair : String × String) :
    r.types.entries <+: (r.tryDefine pair).types.entries := by
  rcases tryDefine_cases hr pair with ⟨-, hsame⟩ | ⟨ty, -, -, -, -, hentries⟩
  · exact ⟨[], by rw [hsame, List.append_nil]⟩
  · exact ⟨[(pair.1, ty)], hentries.symm⟩

/-! ## §3. Runs. -/

theorem tryAll_append (r : Registry) (pairs more : List (String × String)) :
    r.tryAll (pairs ++ more) = (r.tryAll pairs).tryAll more :=
  List.foldl_append

/-- **A run keeps a registry lawful.** -/
theorem Lawful.tryAll : ∀ (pairs : List (String × String)) {r : Registry}, r.Lawful →
    (r.tryAll pairs).Lawful
  | [], _, hr => hr
  | pair :: pairs, _, hr => Lawful.tryAll pairs (hr.tryDefine pair)

/-- **A run moves and changes no entry.** -/
theorem entries_tryAll : ∀ (pairs : List (String × String)) {r : Registry}, r.Lawful →
    r.types.entries <+: (r.tryAll pairs).types.entries
  | [], _, _ => List.prefix_rfl
  | pair :: pairs, _, hr =>
      (entries_tryDefine hr pair).trans (entries_tryAll pairs (hr.tryDefine pair))

/-- Definitions that all succeed are a run. -/
theorem tryAll_of_defineAll : ∀ {pairs : List (String × String)} {r r' : Registry},
    r.defineAll pairs = .ok r' → r.tryAll pairs = r'
  | [], r, r', h => by simpa [defineAll, tryAll] using h
  | pair :: pairs, r, r', h => by
      obtain ⟨r₁, ty, hdefine, h⟩ := defineAll_cons_eq_ok.mp h
      show (r.tryDefine pair).tryAll pairs = r'
      rw [tryDefine_of_ok hdefine]
      exact tryAll_of_defineAll h

/-- What is built from sources is what a run of definitions leaves behind. -/
theorem exists_tryAll_of_ofSources {sources : Catalog String} {r : Registry}
    (h : ofSources sources = .ok r) : ∃ pairs, Registry.empty.tryAll pairs = r := by
  obtain ⟨hsound, hnames⟩ := sound_of_ofSources h
  have hnamed : ∀ name ∈ r.types.names, TypeName name := fun name hname =>
    typeName_of_ofSources h name ((hnames name).mp hname)
  obtain ⟨pairs, -, -, hdefine⟩ := defineAll_of_sound hsound hnamed (r := .empty) rfl
  exact ⟨pairs, tryAll_of_defineAll hdefine⟩

/-- **Whatever is reached by definitions and from sources is lawful.** -/
theorem Built.lawful {r : Registry} (h : Built r) : r.Lawful := by
  induction h with
  | empty => exact lawful_empty
  | @define r r' name source ty _ hd ih => exact tryDefine_of_ok hd ▸ ih.tryDefine (name, source)
  | ofSources h =>
    obtain ⟨pairs, rfl⟩ := exists_tryAll_of_ofSources h
    exact lawful_empty.tryAll pairs

/-! ## §4. The invariant. -/

/-- **The invariant of whole runs.**  From no types, or from those that were
built from sources, any definitions are tried in any order.  After each of
them all names may name a type and all types are lawful and small, none of
them with a short form of an integer; one that fails leaves the registry as it
was; and every entry keeps its place and its type for the rest of the run. -/
theorem tryAll_invariant (start : Registry)
    (hstart : start = .empty ∨ ∃ sources, ofSources sources = .ok start)
    (calls : List (String × String)) :
    (∀ entry ∈ (start.tryAll calls).types.entries,
        TypeName entry.1 ∧ entry.2.Lawful ∧ entry.2.nodes ≤ 4096)
    ∧ (∀ name source e, (start.tryAll calls).define name source = .error e →
        start.tryAll (calls ++ [(name, source)]) = start.tryAll calls)
    ∧ (∀ more, (start.tryAll calls).types.entries <+: (start.tryAll (calls ++ more)).types.entries)
    ∧ ¬ IsCanonical "uint" ∧ ¬ IsCanonical "int" := by
  have hlawful : start.Lawful := by
    rcases hstart with rfl | ⟨sources, h⟩
    · exact lawful_empty
    · exact (Built.ofSources h).lawful
  have hcalls := hlawful.tryAll calls
  refine ⟨fun entry h => ⟨hcalls.named entry h, hcalls.types entry h, hcalls.small entry h⟩,
    fun name source e h => ?_, fun more => ?_, not_isCanonical_short⟩
  · rw [tryAll_append]
    exact tryDefine_of_error h
  · rw [tryAll_append]
    exact entries_tryAll more hcalls

/-- One elementary type under a name. -/
def coinRegistry : Registry :=
  ⟨⟨[("Coin", .scalar "uint8")], by decide⟩⟩

/-- A name that is defined again: the second definition fails and changes
nothing, and the first stays in its place whatever is tried after it. -/
theorem tryAll_invariant_coin :
    Registry.empty.tryAll [("Coin", "uint8")] = coinRegistry
    ∧ coinRegistry.define "Coin" "bool" = .error (.schema "Coin" .alreadyDefined)
    ∧ Registry.empty.tryAll [("Coin", "uint8"), ("Coin", "bool")] = coinRegistry
    ∧ ∀ more, coinRegistry.types.entries
        <+: (Registry.empty.tryAll (("Coin", "uint8") :: more)).types.entries := by
  have hword : isIdentifier "uint8" = true := by decide
  have hgrammar : InGrammar "uint8" (.scalar "uint8") :=
    ⟨[.word "uint8"], @Spaced.next [] [] (.word "uint8") [] (by simp) hword (by simp)
      (.done (by simp)), .scalar (.unsigned 1 (by decide) (by decide))⟩
  have hdefine : Registry.empty.define "Coin" "uint8" = .ok (coinRegistry, .scalar "uint8") :=
    define_of_expand (checkName_eq_ok.mp rfl) (by decide) hgrammar rfl (by decide)
  have hcoin : Registry.empty.tryAll [("Coin", "uint8")] = coinRegistry :=
    tryDefine_of_ok hdefine
  have hfail : coinRegistry.define "Coin" "bool" = .error (.schema "Coin" .alreadyDefined) := rfl
  have hinvariant := tryAll_invariant .empty (.inl rfl) [("Coin", "uint8")]
  rw [hcoin] at hinvariant
  obtain ⟨-, hstays, hgrows, -⟩ := hinvariant
  exact ⟨hcoin, hfail, hstays "Coin" "bool" _ hfail, hgrows⟩

end Registry

end Stencil.Schema
