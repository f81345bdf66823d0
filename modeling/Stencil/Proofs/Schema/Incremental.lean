/-
  Stencil.Proofs.Schema.Incremental
  ─────────────────────────────────
  DEFINING TYPES ONE BY ONE, and building them from sources at once.

  Building follows references wherever they lead; a definition only sees what
  was defined before it.  The two agree.  The order in which types are
  completed puts every type behind those it refers to, so the sources can be
  defined one by one in that order.  And types that can be defined one by one
  find all their references built when their own turn comes.

    • `define_of_expand` — what a definition needs to succeed,
    • `define_of_sound` — the next type of a sound registry can be defined
      over those before it,
    • `build_of_define` — what can be defined can be built in one step,
    • `define_agrees_with_build` — both directions for whole registries.

  The whole of Mathlib is imported for `cbv`, which evaluates the example at
  the end with equations that are spread over it.
-/
import Mathlib
import Stencil.Proofs.Schema.Build

namespace Stencil.Schema.Registry

open Outcome

/-! ## §1. Definitions in a row. -/

/-- Define types one by one; the first definition that fails decides. -/
def defineAll (r : Registry) (pairs : List (String × String)) : Except Error Registry :=
  pairs.foldlM (fun r pair => (r.define pair.1 pair.2).map Prod.fst) r

/-- A row of definitions succeeds if the first does and the others do after it. -/
theorem defineAll_cons_eq_ok {r r' : Registry} {pair : String × String}
    {pairs : List (String × String)} :
    r.defineAll (pair :: pairs) = .ok r'
      ↔ ∃ r₁ ty, r.define pair.1 pair.2 = .ok (r₁, ty) ∧ r₁.defineAll pairs = .ok r' := by
  unfold defineAll
  rw [List.foldlM_cons, bind_eq_ok]
  constructor
  · rintro ⟨r₁, h₁, h⟩
    obtain ⟨⟨r₁, ty⟩, hdefine, rfl⟩ := map_eq_ok.mp h₁
    exact ⟨r₁, ty, hdefine, h⟩
  · rintro ⟨r₁, ty, hdefine, h⟩
    exact ⟨r₁, map_eq_ok.mpr ⟨(r₁, ty), hdefine, rfl⟩, h⟩

/-- Definitions add their names in order. -/
theorem names_of_defineAll : ∀ {pairs : List (String × String)} {r r' : Registry},
    r.defineAll pairs = .ok r' → r'.types.names = r.types.names ++ pairs.map Prod.fst
  | [], r, r', h => by
      obtain rfl : r = r' := by simpa [defineAll] using h
      simp
  | pair :: pairs, r, r', h => by
      obtain ⟨r₁, ty, hdefine, h⟩ := defineAll_cons_eq_ok.mp h
      obtain ⟨-, hnew, rfl, -⟩ := define_eq_ok hdefine
      rw [names_of_defineAll h]
      show (r.types.put pair.1 ty).names ++ pairs.map Prod.fst = _
      rw [Catalog.names_put, if_neg hnew, List.append_assoc]
      rfl

/-! ## §2. From sources to definitions. -/

/-- Names that all look up are passed. -/
theorem forM_lookup {ε : Type} {lookup : String → Except ε Ty} : ∀ {names : List String},
    (∀ name ∈ names, ∃ ty, lookup name = .ok ty) →
    names.forM (fun name => discard (lookup name)) = .ok ()
  | [], _ => rfl
  | name :: names, h => by
      obtain ⟨ty, hty⟩ := h name List.mem_cons_self
      have hrest := forM_lookup fun n hn => h n (List.mem_cons_of_mem _ hn)
      show (discard (lookup name) >>= fun _ => names.forM _) = _
      rw [hty]
      exact hrest

/-- **What a definition needs to succeed:** a new name for a type, and an
expression of the grammar whose names look up and whose type is small. -/
theorem define_of_expand {r : Registry} {name source : String} {expr : TypeExpr} {ty : Ty}
    (hname : TypeName name) (hnew : name ∉ r.types.names) (hexpr : InGrammar source expr)
    (hexpand : expr.expand (r.lookup name) = .ok ty) (hsize : ty.nodes ≤ 4096) :
    r.define name source = .ok (⟨r.types.put name ty⟩, ty) := by
  have hresolve : resolve (Error.schema name) (r.lookup name) source = .ok ty := by
    unfold resolve
    rw [met_of_inGrammar hexpr, forM_lookup ((exists_expand_iff expr).mp ⟨ty, hexpand⟩), ok_bind]
    exact complete_eq_ok.mpr ⟨expr, hexpr, hexpand, hsize⟩
  rw [define_eq]
  unfold checkedType
  rw [checkName_eq_ok.mpr hname, ok_bind, if_neg (by rw [contains_iff]; exact hnew), hresolve]
  rfl

/-- **The next type of a sound registry can be defined over those before it,**
because all that it refers to is among them. -/
theorem define_of_sound {sources : Catalog String} {r whole : Registry} {name source : String}
    {ty : Ty} {rest : List (String × Ty)} (hsound : Sound sources whole)
    (hsplit : whole.types.entries = r.types.entries ++ (name, ty) :: rest)
    (hname : TypeName name) (hsource : sources.get? name = some source) :
    r.define name source = .ok (⟨r.types.put name ty⟩, ty) := by
  have hnames : whole.types.names = r.types.names ++ name :: rest.map Prod.fst := by
    simp [Catalog.names, hsplit]
  -- what is in the part is in the whole
  have hpart : ∀ n t, r.get? n = some t → whole.get? n = some t := by
    intro n t ht
    apply Catalog.get?_eq_some_iff.mpr
    rw [hsplit]
    exact List.mem_append_left _ (Catalog.get?_eq_some_iff.mp ht)
  have hwhole : whole.get? name = some ty := by
    apply Catalog.get?_eq_some_iff.mpr
    rw [hsplit]
    exact List.mem_append_right _ List.mem_cons_self
  have hnew : name ∉ r.types.names := by
    have hdistinct : whole.types.names.Nodup := whole.types.distinct
    rw [hnames, List.nodup_append] at hdistinct
    exact fun hmem => hdistinct.2.2 name hmem name List.mem_cons_self rfl
  cases hsound.expands name ty hwhole with
  | @reference _ expr _ hd hty =>
    -- the references come before the name, so they look up in the part
    obtain ⟨ty', hexpand⟩ := (exists_expand_iff expr).mpr fun n hn =>
      (@exists_lookup_iff r name n).mpr (hsound.ordered _ name _ hnames n ⟨expr, hd, hn⟩)
    have hty' : Expands sources expr ty' :=
      expands_of_expand (fun n t hn => hsound.expands n t (hpart n t (lookup_eq_ok.mp hn)))
        expr hexpand
    obtain rfl : ty' = ty := hty'.unique hty
    obtain ⟨source', hsource', hexpr⟩ := hd
    obtain rfl : source' = source := by simpa [hsource'] using hsource
    exact define_of_expand hname hnew hexpr hexpand (hsound.small name ty' hwhole)

/-- The rest of a sound registry can be defined over its first part, each name
with its source. -/
theorem defineAll_of_sound {sources : Catalog String} {whole : Registry}
    (hsound : Sound sources whole) (hnamed : ∀ name ∈ whole.types.names, TypeName name) :
    ∀ {rest : List (String × Ty)} {r : Registry},
      whole.types.entries = r.types.entries ++ rest →
      ∃ pairs : List (String × String), pairs.map Prod.fst = rest.map Prod.fst
        ∧ (∀ pair ∈ pairs, sources.get? pair.1 = some pair.2)
        ∧ r.defineAll pairs = .ok whole
  | [], r, hsplit => by
      have htypes : whole.types = r.types := Catalog.eq_of_entries (by simpa using hsplit)
      obtain rfl : whole = r := congrArg Registry.mk htypes
      exact ⟨[], rfl, by simp, rfl⟩
  | (name, ty) :: rest, r, hsplit => by
      have hmem : (name, ty) ∈ whole.types.entries := by simp [hsplit]
      have hname := hnamed name (List.mem_map_of_mem hmem)
      obtain ⟨source, hsource⟩ : ∃ source, sources.get? name = some source := by
        cases hsound.expands name ty (Catalog.get?_eq_some_iff.mpr hmem) with
        | reference hd _ => exact Catalog.mem_names_iff.mp hd.mem_names
      have hdefine := define_of_sound hsound hsplit hname hsource
      -- the new type stands behind the first part
      have hput : (r.types.put name ty).entries = r.types.entries ++ [(name, ty)] :=
        Catalog.entries_put_of_not_mem ty (define_eq_ok hdefine).2.1
      obtain ⟨pairs, hnames, hsources, hrest⟩ :=
        @defineAll_of_sound sources whole hsound hnamed rest ⟨r.types.put name ty⟩
          (by rw [hput, hsplit]; simp)
      refine ⟨(name, source) :: pairs, by simp [hnames], ?_, ?_⟩
      · simpa [hsource] using hsources
      · exact defineAll_cons_eq_ok.mpr ⟨_, ty, hdefine, hrest⟩

/-! ## §3. From definitions to sources. -/

/-- **What can be defined can be built in one step:** its references are
there already. -/
theorem build_of_define {sources : Catalog String} {r r' : Registry} {name source : String}
    {ty : Ty} (h : r.define name source = .ok (r', ty)) (hsource : sources.get? name = some source) :
    (do checkName name; build sources [] name r) = .ok r' := by
  obtain ⟨hname, hnew, rfl, expr, hexpr, hexpand, hsize⟩ := define_eq_ok h
  have hthere : ∀ n ∈ expr.references, n ∈ r.types.names := fun n hn =>
    exists_lookup_iff.mp ((exists_expand_iff expr).mp ⟨ty, hexpand⟩ n hn)
  have hrefs : buildAll sources [name] expr.references r = .ok r := by
    obtain ⟨r₁, h₁, rfl⟩ := foldlM_total (P := fun r₁ => r₁ = r)
      (f := fun r reference => build sources [name] reference r)
      (fun n hn r₁ hr₁ => ⟨r, by rw [hr₁]; exact build_of_mem (hthere n hn), rfl⟩) rfl
    exact h₁
  rw [checkName_eq_ok.mpr hname, ok_bind]
  exact build_of_defines hnew (by simp) ⟨source, hsource, hexpr⟩ hrefs hexpand hsize

/-- A row of definitions is a row of building steps over any sources that have
them. -/
theorem build_of_defineAll {sources : Catalog String} :
    ∀ {pairs : List (String × String)} {r r' : Registry},
      (∀ pair ∈ pairs, sources.get? pair.1 = some pair.2) → r.defineAll pairs = .ok r' →
      (pairs.map Prod.fst).foldlM (fun r name => do checkName name; build sources [] name r) r
        = .ok r'
  | [], _, _, _, h => h
  | pair :: pairs, r, r', hsources, h => by
      obtain ⟨r₁, ty, hdefine, h⟩ := defineAll_cons_eq_ok.mp h
      have hfirst := build_of_define hdefine (hsources pair List.mem_cons_self)
      rw [List.map_cons, List.foldlM_cons, hfirst, ok_bind]
      exact build_of_defineAll (fun p hp => hsources p (List.mem_cons_of_mem _ hp)) h

/-! ## §4. Agreement. -/

/-- **Defining one by one and building at once agree.**  What is built from
sources can be defined one by one in the order of the registry, every name
with its source, and gives the same registry.  And a row of definitions that
succeed gives the registry that its pairs are built to as sources. -/
theorem define_agrees_with_build :
    (∀ (sources : Catalog String) (r : Registry), ofSources sources = .ok r →
        ∃ pairs : List (String × String), pairs.map Prod.fst = r.types.names
          ∧ (∀ pair ∈ pairs, sources.get? pair.1 = some pair.2)
          ∧ Registry.empty.defineAll pairs = .ok r)
    ∧ ∀ (pairs : List (String × String)) (r : Registry),
        Registry.empty.defineAll pairs = .ok r → ofSources (Catalog.ofList pairs) = .ok r := by
  constructor
  · intro sources r h
    obtain ⟨hsound, hnames⟩ := sound_of_ofSources h
    have hnamed : ∀ name ∈ r.types.names, TypeName name := fun name hname =>
      typeName_of_ofSources h name ((hnames name).mp hname)
    exact defineAll_of_sound hsound hnamed (r := .empty) rfl
  · intro pairs r h
    -- every definition adds a new name, so the names are distinct
    have hnames : r.types.names = pairs.map Prod.fst := names_of_defineAll h
    have hdistinct : (pairs.map Prod.fst).Nodup := hnames ▸ r.types.distinct
    have hentries : (Catalog.ofList pairs).entries = pairs := Catalog.entries_ofList hdistinct
    unfold ofSources
    rw [Catalog.names, hentries]
    refine build_of_defineAll (fun pair hpair => ?_) h
    exact Catalog.get?_eq_some_iff.mpr (hentries.symm ▸ hpair)

/-- A type and one behind it that refers to it. -/
def purseRegistry : Registry :=
  ⟨⟨[("Coin", .scalar "uint8"), ("Purse", .record [("coins", .sequence (.scalar "uint8"))])],
    by decide⟩⟩

theorem inGrammar_purse :
    InGrammar "record(Coin[] coins)" (.record [("coins", .sequence (.reference "Coin"))]) := by
  have hname : TypeName "Coin" := checkName_eq_ok.mp rfl
  have hmembers : Derives ([.word "Coin"] ++ [.mark '[', .mark ']'] ++ [.word "coins"])
      (.members [("coins", .sequence (.reference "Coin"))]) :=
    .one (.sequence (.reference rfl hname.noKeyword))
  exact ⟨_, (@lexemes_eq_iff 0 _ _).mp (by cbv),
    @Derives.record "record" _ _ rfl hmembers (by decide)⟩

/-- The two definitions succeed in this order, and so does building them. -/
theorem define_agrees_with_build_purse :
    Registry.empty.defineAll [("Coin", "uint8"), ("Purse", "record(Coin[] coins)")]
        = .ok purseRegistry
      ∧ ofSources (Catalog.ofList [("Coin", "uint8"), ("Purse", "record(Coin[] coins)")])
        = .ok purseRegistry := by
  have hcoin : InGrammar "uint8" (.scalar "uint8") := read_eq_ok_iff.mp (by cbv)
  have hdefine : Registry.empty.defineAll [("Coin", "uint8"), ("Purse", "record(Coin[] coins)")]
      = .ok purseRegistry := by
    refine defineAll_cons_eq_ok.mpr ⟨_, _, define_of_expand (checkName_eq_ok.mp rfl) (by decide)
      hcoin rfl (by decide), ?_⟩
    refine defineAll_cons_eq_ok.mpr ⟨_, _, define_of_expand (checkName_eq_ok.mp rfl) (by decide)
      inGrammar_purse rfl (by decide), rfl⟩
  exact ⟨hdefine, define_agrees_with_build.2 _ _ hdefine⟩

end Stencil.Schema.Registry
