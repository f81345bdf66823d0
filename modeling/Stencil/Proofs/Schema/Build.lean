/-
  Stencil.Proofs.Schema.Build
  ───────────────────────────
  BUILDING A REGISTRY FROM SOURCES, against the sources' own meaning.

  Building is a depth-first search: `build` is called with the names being
  built and a registry of those done.  Two invariants carry the proofs.  The
  registry stays `Sound`: every type in it is the full expansion of its name,
  small enough, and after all that it refers to.  And the names being built
  are a chain of references that ends at the name at hand, so that meeting
  one of them again is a cycle of the sources.

    • `build_eq_ok` — all that a successful step can have done,
    • `build_sound`, `build_complete` — both directions, by induction on the
      names that can still be started,
    • `exists_ofSources_iff` — sources are built exactly if they are admissible,
    • `ofSources_specification` — what is built, and that no order matters,
    • `result_defineType` — what a definition leaves behind if it succeeds and
      if it fails.
-/
import Stencil.Proofs.Schema.Expansion
import Stencil.Proofs.Schema.WellFormed
import Stencil.Schema.Registry

namespace Stencil.Schema

open Outcome

/-! ## §1. Reading one definition. -/

/-- The names that pass the check are those that may name a type. -/
theorem checkName_eq_ok {name : String} : checkName name = .ok () ↔ TypeName name := by
  have hrecord : isRecordWord name = true ↔ name = "record" ∨ name = "tuple" := by
    simp [isRecordWord]
  unfold checkName
  by_cases hid : Text.isIdentifier name = true
  · have hkey : (scalarName? name).isSome = true ↔ ∃ canonical, Keyword name canonical := by
      rw [Option.isSome_iff_exists]
      exact exists_congr fun _ => scalarName?_eq_some_iff hid
    rw [if_neg (by simp [hid])]
    split
    next h =>
      rw [Bool.or_eq_true, hkey, hrecord] at h
      refine ⟨fun hok => by simp at hok, fun ht => ?_⟩
      rcases h with ⟨canonical, hk⟩ | h | h
      · exact absurd hk (ht.noKeyword canonical)
      · exact absurd h ht.noRecord.1
      · exact absurd h ht.noRecord.2
    next h =>
      rw [Bool.or_eq_true, hkey, hrecord, not_or, not_or, not_exists] at h
      exact ⟨fun _ => ⟨hid, h.1, h.2⟩, fun _ => rfl⟩
  · rw [if_pos (by simp [hid])]
    exact ⟨fun hok => by simp at hok, fun ht => absurd ht.identifier hid⟩

/-- The names met in a text of the grammar are those of its type. -/
theorem met_of_inGrammar {source : String} {expr : TypeExpr} (h : InGrammar source expr) :
    TypeExpr.met source = expr.references := by
  unfold TypeExpr.met
  rw [read_eq_ok_iff.mpr h]

/-- A definition is finished exactly if it is in the grammar, its names look
up and the result is small. -/
theorem complete_eq_ok {ε : Type} {fail : Fault → ε} {lookup : String → Except ε Ty}
    {source : String} {ty : Ty} :
    complete fail lookup source = .ok ty
      ↔ ∃ expr, InGrammar source expr ∧ expr.expand lookup = .ok ty ∧ ty.nodes ≤ 4096 := by
  unfold complete
  constructor
  · intro h
    split at h
    next => simp at h
    next expr hread =>
      obtain ⟨ty', hexpand, h⟩ := bind_eq_ok.mp h
      unfold checkSize at h
      split at h
      next => simp at h
      next hsize =>
        obtain rfl : ty' = ty := by simpa using h
        exact ⟨expr, read_eq_ok_iff.mp hread, hexpand, by simpa [nodeLimit] using hsize⟩
  · rintro ⟨expr, hexpr, hexpand, hsize⟩
    have hle : ¬ nodeLimit < ty.nodes := by
      simpa [nodeLimit] using hsize
    rw [read_eq_ok_iff.mpr hexpr]
    show (expr.expand lookup >>= checkSize fail) = .ok ty
    rw [hexpand, ok_bind, checkSize, if_neg hle]

namespace Registry

/-- A name is looked up exactly if the registry has it. -/
theorem lookup_eq_ok {r : Registry} {owner name : String} {ty : Ty} :
    r.lookup owner name = .ok ty ↔ r.get? name = some ty := by
  unfold lookup
  cases h : r.get? name with
  | none => simp
  | some ty' => simp

/-- A name can be looked up exactly if it is one of the names. -/
theorem exists_lookup_iff {r : Registry} {owner name : String} :
    (∃ ty, r.lookup owner name = .ok ty) ↔ name ∈ r.types.names := by
  rw [Catalog.mem_names_iff]
  exact exists_congr fun _ => lookup_eq_ok

theorem contains_iff {r : Registry} {name : String} :
    r.types.contains name = true ↔ name ∈ r.types.names := by
  rw [Catalog.mem_names_iff]
  exact Option.isSome_iff_exists

/-! ## §2. One step of building. -/

/-- The references of an expression, built one after the other. -/
def buildAll (sources : Catalog String) (visiting references : List String) (r : Registry) :
    Except Error Registry :=
  references.foldlM (fun r reference => build sources visiting reference r) r

/-- What is built already stays as it is. -/
theorem build_of_mem {sources : Catalog String} {visiting : List String} {name : String}
    {r : Registry} (h : name ∈ r.types.names) : build sources visiting name r = .ok r := by
  unfold build
  rw [if_pos (contains_iff.mpr h)]

/-- A new name with a definition is put behind what it refers to. -/
theorem build_of_defines {sources : Catalog String} {visiting : List String} {name : String}
    {r r₁ : Registry} {expr : TypeExpr} {ty : Ty} (hnew : name ∉ r.types.names)
    (hv : name ∉ visiting) (hd : Defines sources name expr)
    (hrefs : buildAll sources (visiting ++ [name]) expr.references r = .ok r₁)
    (hexpand : expr.expand (r₁.lookup name) = .ok ty) (hsize : ty.nodes ≤ 4096) :
    build sources visiting name r = .ok ⟨r₁.types.put name ty⟩ := by
  obtain ⟨source, hs, hexpr⟩ := hd
  have hcomplete : complete (Error.schema name) (r₁.lookup name) source = .ok ty :=
    complete_eq_ok.mpr ⟨expr, hexpr, hexpand, hsize⟩
  unfold build
  rw [if_neg (by rw [contains_iff]; exact hnew), dif_neg (by simpa using hv)]
  split
  next hnone => simp [hs] at hnone
  next source' hs' =>
    obtain rfl : source = source' := by simpa [hs] using hs'
    rw [met_of_inGrammar hexpr]
    -- the references met while reading are those of the expression
    show (buildAll sources (visiting ++ [name]) expr.references r >>= _) = _
    rw [hrefs, ok_bind, hcomplete]
    rfl

/-- **All that a successful step can have done:** the name was there, or it
was new, had a definition in the grammar, and was put behind the registry of
its references. -/
theorem build_eq_ok {sources : Catalog String} {visiting : List String} {name : String}
    {r r' : Registry} (h : build sources visiting name r = .ok r') :
    (name ∈ r.types.names ∧ r' = r)
      ∨ (name ∉ r.types.names ∧ name ∉ visiting ∧ ∃ expr r₁ ty, Defines sources name expr
        ∧ buildAll sources (visiting ++ [name]) expr.references r = .ok r₁
        ∧ expr.expand (r₁.lookup name) = .ok ty ∧ ty.nodes ≤ 4096
        ∧ r' = ⟨r₁.types.put name ty⟩) := by
  by_cases hmem : name ∈ r.types.names
  · rw [build_of_mem hmem] at h
    exact .inl ⟨hmem, by simpa using h.symm⟩
  · refine .inr ⟨hmem, ?_⟩
    -- neither there nor being built: its source is read and completed
    unfold build at h
    rw [if_neg (by rw [contains_iff]; exact hmem)] at h
    split at h
    next => simp at h
    next hv =>
      refine ⟨by simpa using hv, ?_⟩
      split at h
      next => simp at h
      next source hs =>
        obtain ⟨r₁, hrefs, h⟩ := bind_eq_ok.mp h
        obtain ⟨ty, hcomplete, h⟩ := bind_eq_ok.mp h
        obtain ⟨expr, hexpr, hexpand, hsize⟩ := complete_eq_ok.mp hcomplete
        rw [met_of_inGrammar hexpr] at hrefs
        exact ⟨expr, r₁, ty, ⟨source, hs, hexpr⟩, hrefs, hexpand, hsize, by simpa using h.symm⟩

/-! ## §3. What building keeps. -/

/-- Every type is the full expansion of its name, well formed, small enough,
and comes after all that it refers to. -/
structure Sound (sources : Catalog String) (r : Registry) : Prop where
  /-- Types are full expansions. -/
  expands : ∀ name ty, r.get? name = some ty → Expands sources (.reference name) ty
  /-- Types are well formed. -/
  wellFormed : ∀ name ty, r.get? name = some ty → ty.WellFormed
  /-- Types are small. -/
  small : ∀ name ty, r.get? name = some ty → ty.nodes ≤ 4096
  /-- References come first. -/
  ordered : ∀ before name after, r.types.names = before ++ name :: after →
    ∀ other, Refers sources name other → other ∈ before

/-- The registry has grown at its end, and by none of the names being built. -/
def Extends (visiting : List String) (r r' : Registry) : Prop :=
  ∃ more, r'.types.names = r.types.names ++ more ∧ ∀ name ∈ more, name ∉ visiting

theorem Extends.refl (visiting : List String) (r : Registry) : Extends visiting r r :=
  ⟨[], by simp, by simp⟩

theorem Extends.trans {visiting : List String} {r r₁ r₂ : Registry}
    (h₁ : Extends visiting r r₁) (h₂ : Extends visiting r₁ r₂) : Extends visiting r r₂ := by
  obtain ⟨more₁, hn₁, ha₁⟩ := h₁
  obtain ⟨more₂, hn₂, ha₂⟩ := h₂
  refine ⟨more₁ ++ more₂, by rw [hn₂, hn₁, List.append_assoc], fun name hname => ?_⟩
  rcases List.mem_append.mp hname with hname | hname
  · exact ha₁ name hname
  · exact ha₂ name hname

theorem Extends.mem {visiting : List String} {r r' : Registry} {name : String}
    (h : Extends visiting r r') (hmem : name ∈ r.types.names) : name ∈ r'.types.names := by
  obtain ⟨more, hn, -⟩ := h
  rw [hn]
  exact List.mem_append_left _ hmem

/-- Names being built are not there before their time. -/
theorem Extends.not_mem {visiting : List String} {r r' : Registry} {name : String}
    (h : Extends visiting r r') (hv : name ∈ visiting) (hmem : name ∉ r.types.names) :
    name ∉ r'.types.names := by
  obtain ⟨more, hn, ha⟩ := h
  rw [hn, List.mem_append, not_or]
  exact ⟨hmem, fun hmore => ha name hmore hv⟩

/-- The registry of no types is sound. -/
theorem sound_empty (sources : Catalog String) : Sound sources .empty := by
  have hnone : ∀ name, Registry.empty.get? name = none := fun _ => rfl
  refine ⟨fun name ty h => ?_, fun name ty h => ?_, fun name ty h => ?_,
    fun before name after h => ?_⟩
  · simp [hnone] at h
  · simp [hnone] at h
  · simp [hnone] at h
  · exact absurd h (by simp [Registry.empty, Catalog.names, Catalog.empty])

/-- What holds of all types and of a new one holds after it is put. -/
theorem get?_put_invariant {P : String → Ty → Prop} {r : Registry} {name : String} {ty : Ty}
    (h : ∀ n t, r.get? n = some t → P n t) (hnew : P name ty) :
    ∀ n t, (⟨r.types.put name ty⟩ : Registry).get? n = some t → P n t := by
  intro n t hn
  by_cases hname : n = name
  · subst hname
    obtain rfl : ty = t := by simpa [get?] using hn
    exact hnew
  · exact h n t (by simpa [get?, Catalog.get?_put_of_ne _ _ hname] using hn)

/-- **A new full expansion whose references are all there keeps a registry
sound.** -/
theorem Sound.put {sources : Catalog String} {r : Registry} {name : String} {expr : TypeExpr}
    {ty : Ty} (h : Sound sources r) (hnew : name ∉ r.types.names)
    (hd : Defines sources name expr) (hexpand : expr.expand (r.lookup name) = .ok ty)
    (hsize : ty.nodes ≤ 4096) : Sound sources ⟨r.types.put name ty⟩ := by
  have hty : Expands sources (.reference name) ty := by
    refine .reference hd (expands_of_expand ?_ expr hexpand)
    exact fun n t hn => h.expands n t (lookup_eq_ok.mp hn)
  have hwell : ty.WellFormed := by
    obtain ⟨_, _, hexpr⟩ := hd
    refine wellFormed_of_expand ?_ expr hexpr.wellFormed hexpand
    exact fun n t hn => h.wellFormed n t (lookup_eq_ok.mp hn)
  refine ⟨get?_put_invariant h.expands hty, get?_put_invariant h.wellFormed hwell,
    get?_put_invariant (P := fun _ t => t.nodes ≤ 4096) h.small hsize,
    fun before n after hnames other hrefers => ?_⟩
  · have hput : (r.types.put name ty).names = r.types.names ++ [name] := by
      rw [Catalog.names_put, if_neg hnew]
    rw [hput] at hnames
    rcases List.eq_nil_or_concat after with rfl | ⟨after, last, rfl⟩
    · -- the new name itself: all its references looked up
      obtain ⟨rfl, hlast⟩ := List.append_inj' hnames rfl
      obtain rfl : name = n := by simpa using hlast
      obtain ⟨expr', hd', hother⟩ := hrefers
      rw [← hd.unique hd'] at hother
      exact exists_lookup_iff.mp ((exists_expand_iff expr).mp ⟨ty, hexpand⟩ other hother)
    -- an earlier name: what it refers to came before it already
    · have hsplit : r.types.names ++ [name] = (before ++ n :: after) ++ [last] := by
        rw [hnames]; simp
      exact h.ordered before n after (List.append_inj' hsplit rfl).1 other hrefers

/-! ## §4. What is built is right. -/

/-- What becomes of a registry when these names are built. -/
structure Reached (sources : Catalog String) (visiting names : List String)
    (r r' : Registry) : Prop where
  /-- It is sound. -/
  sound : Sound sources r'
  /-- It has grown. -/
  grown : Extends visiting r r'
  /-- It has the names. -/
  has : ∀ name ∈ names, name ∈ r'.types.names

/-- If each step reaches its name, the steps together reach all names. -/
theorem reached_of_foldlM {sources : Catalog String} {visiting : List String}
    {step : Registry → String → Except Error Registry}
    (hstep : ∀ name r r', Sound sources r → step r name = .ok r' →
      Reached sources visiting [name] r r') :
    ∀ {names : List String} {r r' : Registry}, Sound sources r →
      names.foldlM step r = .ok r' → Reached sources visiting names r r'
  | [], r, r', hr, h => by
      obtain rfl : r = r' := by simpa using h
      exact ⟨hr, .refl visiting r, by simp⟩
  | name :: names, r, r', hr, h => by
      rw [List.foldlM_cons] at h
      obtain ⟨r₁, h₁, h⟩ := bind_eq_ok.mp h
      have hfirst := hstep name r r₁ hr h₁
      have hrest := reached_of_foldlM hstep hfirst.sound h
      refine ⟨hrest.sound, hfirst.grown.trans hrest.grown, fun n hn => ?_⟩
      rcases List.mem_cons.mp hn with rfl | hn
      · exact hrest.grown.mem (hfirst.has n (by simp))
      · exact hrest.has n hn

/-- **A successful step keeps the registry sound and adds its name.**  The
induction is on the names that can still be started. -/
theorem build_sound (sources : Catalog String) : ∀ (visiting : List String) (name : String)
    (r r' : Registry), Sound sources r → build sources visiting name r = .ok r' →
    Reached sources visiting [name] r r' := by
  intro visiting
  induction hm : (pending sources.names visiting).length using Nat.strongRecOn
    generalizing visiting with
  | ind m ih =>
    intro name r r' hr h
    rcases build_eq_ok h with ⟨hmem, rfl⟩ | ⟨hnew, hv, expr, r₁, ty, hd, hrefs, hexpand, hsize, rfl⟩
    · exact ⟨hr, .refl visiting r', by simpa using hmem⟩
    -- one name fewer can be started while the references are built
    · have hlt := pending_lt hd.mem_names (by simpa using hv)
      have hinner := reached_of_foldlM (ih _ (hm ▸ hlt) (visiting ++ [name]) rfl) hr hrefs
      -- the name itself is being built, so its references did not add it
      have hnew₁ : name ∉ r₁.types.names := hinner.grown.not_mem (by simp) hnew
      obtain ⟨more, hmore, hoff⟩ := hinner.grown
      have hput : (r₁.types.put name ty).names = r.types.names ++ (more ++ [name]) := by
        rw [Catalog.names_put, if_neg hnew₁, hmore, List.append_assoc]
      refine ⟨hinner.sound.put hnew₁ hd hexpand hsize, ⟨more ++ [name], hput, ?_⟩, ?_⟩
      · intro n hn
        rcases List.mem_append.mp hn with hn | hn
        · exact fun hvn => hoff n hn (by simp [hvn])
        · rw [List.mem_singleton.mp hn]
          exact hv
      · simp [hput]

/-! ## §5. What is right is built. -/

/-- **Admissible sources can be built from any point of a search:** the names
being built lead to the name at hand, so it is none of them. -/
theorem build_complete {sources : Catalog String} (ha : Admissible sources) :
    ∀ (visiting : List String) (name : String) (r : Registry), name ∈ sources.names →
      (∀ v ∈ visiting, Relation.TransGen (Refers sources) v name) → Sound sources r →
      ∃ r', build sources visiting name r = .ok r' := by
  intro visiting
  induction hm : (pending sources.names visiting).length using Nat.strongRecOn
    generalizing visiting with
  | ind m ih =>
    intro name r hname hpath hr
    by_cases hmem : name ∈ r.types.names
    · exact ⟨r, build_of_mem hmem⟩
    -- a name that is being built would lead to itself
    · have hv : name ∉ visiting := fun hv => ha.acyclic name (hpath name hv)
      have hlt := pending_lt hname (by simpa using hv)
      obtain ⟨expr, hd⟩ := ha.read name hname
      -- the references are built one after the other, each over a sound registry
      have hstep : ∀ reference ∈ expr.references, ∀ r₀, Sound sources r₀ →
          ∃ r₁, build sources (visiting ++ [name]) reference r₀ = .ok r₁ ∧ Sound sources r₁ := by
        intro reference href r₀ hr₀
        have hrefers : Refers sources name reference := ⟨expr, hd, href⟩
        have hpath' : ∀ v ∈ visiting ++ [name],
            Relation.TransGen (Refers sources) v reference := by
          intro v hv
          rcases List.mem_append.mp hv with hv | hv
          · exact (hpath v hv).tail hrefers
          · rw [List.mem_singleton.mp hv]
            exact .single hrefers
        obtain ⟨r₁, h₁⟩ := ih _ (hm ▸ hlt) (visiting ++ [name]) rfl reference r₀
          (ha.closed name reference hrefers) hpath' hr₀
        exact ⟨r₁, h₁, (build_sound sources _ _ _ _ hr₀ h₁).sound⟩
      obtain ⟨r₁, hrefs, hr₁⟩ := foldlM_total hstep hr
      -- all references are there now, so the expression expands
      have hall := reached_of_foldlM (build_sound sources _) hr hrefs
      obtain ⟨ty, hexpand⟩ := (exists_expand_iff expr).mpr fun n hn =>
        exists_lookup_iff.mpr (hall.has n hn)
      have hty : Expands sources expr ty :=
        expands_of_expand (fun n t hn => hr₁.expands n t (lookup_eq_ok.mp hn)) expr hexpand
      exact ⟨_, build_of_defines hmem hv hd hrefs hexpand (ha.bounded name ty (.reference hd hty))⟩

/-! ## §6. Whole sources. -/

/-- One name of the sources: its check, then its building. -/
theorem ofSources_step {sources : Catalog String} {name : String} {r r' : Registry}
    (h : (do checkName name; build sources [] name r) = .ok r') :
    TypeName name ∧ build sources [] name r = .ok r' := by
  obtain ⟨_, hcheck, h⟩ := bind_eq_ok.mp h
  exact ⟨checkName_eq_ok.mp hcheck, h⟩

/-- What is built from sources is sound and has exactly their names. -/
theorem sound_of_ofSources {sources : Catalog String} {r : Registry}
    (h : ofSources sources = .ok r) :
    Sound sources r ∧ ∀ name, name ∈ r.types.names ↔ name ∈ sources.names := by
  have hreached : Reached sources [] sources.names .empty r :=
    reached_of_foldlM (fun name r r' hr hstep =>
      build_sound sources [] name r r' hr (ofSources_step hstep).2) (sound_empty sources) h
  refine ⟨hreached.sound, fun name => ⟨fun hname => ?_, hreached.has name⟩⟩
  obtain ⟨ty, hty⟩ := Catalog.mem_names_iff.mp hname
  cases hreached.sound.expands name ty hty with
  | reference hd _ => exact hd.mem_names

/-- All names of sources that are built may name a type. -/
theorem typeName_of_ofSources {sources : Catalog String} :
    ∀ {names : List String} {r r' : Registry},
      names.foldlM (fun r name => do checkName name; build sources [] name r) r = .ok r' →
      ∀ name ∈ names, TypeName name
  | [], _, _, _ => by simp
  | first :: names, r, r', h => by
      rw [List.foldlM_cons] at h
      obtain ⟨r₁, h₁, h⟩ := bind_eq_ok.mp h
      intro name hname
      rcases List.mem_cons.mp hname with rfl | hname
      · exact (ofSources_step h₁).1
      · exact typeName_of_ofSources h name hname

/-- In a sound registry, whatever a name leads to comes before it. -/
theorem Sound.mem_before {sources : Catalog String} {r : Registry} (h : Sound sources r)
    {name other : String} (hpath : Relation.TransGen (Refers sources) name other) :
    ∀ before after, r.types.names = before ++ name :: after → other ∈ before := by
  induction hpath with
  | single hrefers =>
    intro before after hnames
    exact h.ordered before name after hnames _ hrefers
  | tail _ hrefers ih =>
    intro before after hnames
    obtain ⟨b₁, b₂, rfl⟩ := List.append_of_mem (ih before after hnames)
    have hmem := h.ordered b₁ _ (b₂ ++ name :: after) (by rw [hnames]; simp) _ hrefers
    exact List.mem_append_left _ hmem

/-- **Sources are built exactly if they are admissible.** -/
theorem exists_ofSources_iff {sources : Catalog String} :
    (∃ r, ofSources sources = .ok r) ↔ Admissible sources := by
  constructor
  · rintro ⟨r, h⟩
    obtain ⟨hsound, hnames⟩ := sound_of_ofSources h
    have hdefined : ∀ name ∈ sources.names, ∃ ty, r.get? name = some ty :=
      fun name hname => Catalog.mem_names_iff.mp ((hnames name).mpr hname)
    refine ⟨typeName_of_ofSources h, fun name hname => ?_, fun name other hrefers => ?_,
      fun name hcycle => ?_, fun name ty hty => ?_⟩
    · obtain ⟨ty, hty⟩ := hdefined name hname
      cases hsound.expands name ty hty with
      | reference hd _ => exact ⟨_, hd⟩
    -- a reference is in the registry before the name, so it has a source
    · obtain ⟨expr, hd, hother⟩ := hrefers
      obtain ⟨before, after, hsplit⟩ := List.append_of_mem ((hnames name).mpr hd.mem_names)
      have hbefore := hsound.ordered before name after hsplit other ⟨expr, hd, hother⟩
      exact (hnames other).mp (by rw [hsplit]; exact List.mem_append_left _ hbefore)
    · -- a name of a cycle would come before itself, but no name comes twice
      have hname : name ∈ r.types.names := by
        obtain ⟨_, ⟨expr, hd, -⟩, -⟩ := Relation.TransGen.head'_iff.mp hcycle
        exact (hnames name).mpr hd.mem_names
      obtain ⟨before, after, hsplit⟩ := List.append_of_mem hname
      have hdistinct : r.types.names.Nodup := r.types.distinct
      rw [hsplit, List.nodup_append] at hdistinct
      exact hdistinct.2.2 name (hsound.mem_before hcycle before after hsplit) name (by simp) rfl
    · cases hty with
      | reference hd hexpr =>
        obtain ⟨ty', hty'⟩ := hdefined name hd.mem_names
        rw [(Expands.reference hd hexpr).unique (hsound.expands name ty' hty')]
        exact hsound.small name ty' hty'
  · intro ha
    obtain ⟨r, h, -⟩ := foldlM_total (P := Sound sources)
      (f := fun r name => do checkName name; build sources [] name r)
      (fun name hname r hr => by
        obtain ⟨r', h'⟩ := build_complete ha [] name r hname (by simp) hr
        refine ⟨r', ?_, (build_sound sources [] name r r' hr h').sound⟩
        rw [checkName_eq_ok.mpr (ha.named name hname)]
        exact h')
      (sound_empty sources)
    exact ⟨r, h⟩

/-- Every name is bound to its full expansion, and nothing else is bound. -/
theorem get?_of_ofSources {sources : Catalog String} {r : Registry}
    (h : ofSources sources = .ok r) (name : String) (ty : Ty) :
    r.get? name = some ty ↔ Expands sources (.reference name) ty := by
  obtain ⟨hsound, hnames⟩ := sound_of_ofSources h
  refine ⟨hsound.expands name ty, fun hty => ?_⟩
  cases hty with
  | reference hd hexpr =>
    obtain ⟨ty', hty'⟩ := Catalog.mem_names_iff.mp ((hnames name).mpr hd.mem_names)
    rw [(Expands.reference hd hexpr).unique (hsound.expands name ty' hty')]
    exact hty'

/-! ## §7. The specification. -/

/-- **Building from sources, exactly.**  Sources are built if and only if they
are admissible.  What is built has exactly their names, each bound to its full
expansion, and every name after all names it refers to.  Neither success nor
any type depends on the order of the sources. -/
theorem ofSources_specification (sources : Catalog String) :
    ((∃ r, ofSources sources = .ok r) ↔ Admissible sources)
    ∧ (∀ r, ofSources sources = .ok r →
        r.types.names.Perm sources.names
        ∧ (∀ name ∈ sources.names, ∃ ty, r.get? name = some ty
            ∧ Expands sources (.reference name) ty)
        ∧ ∀ before name after, r.types.names = before ++ name :: after →
            ∀ other, Refers sources name other → other ∈ before)
    ∧ ∀ other : Catalog String, other.entries.Perm sources.entries →
        ((∃ r', ofSources other = .ok r') ↔ ∃ r, ofSources sources = .ok r)
        ∧ ∀ r r', ofSources sources = .ok r → ofSources other = .ok r' →
            ∀ name, r'.get? name = r.get? name := by
  refine ⟨exists_ofSources_iff, fun r h => ?_, fun other hperm => ?_⟩
  · obtain ⟨hsound, hnames⟩ := sound_of_ofSources h
    refine ⟨?_, fun name hname => ?_, hsound.ordered⟩
    · exact (List.perm_ext_iff_of_nodup r.types.distinct sources.distinct).mpr hnames
    · obtain ⟨ty, hty⟩ := Catalog.mem_names_iff.mp ((hnames name).mpr hname)
      exact ⟨ty, hty, hsound.expands name ty hty⟩
  · have hget := get?_of_perm hperm
    have hget' : ∀ name, sources.get? name = other.get? name := fun name => (hget name).symm
    refine ⟨?_, fun r r' h h' name => ?_⟩
    -- being admissible is a matter of what each name is bound to
    · rw [exists_ofSources_iff, exists_ofSources_iff]
      exact ⟨Admissible.of_get?_eq hget, Admissible.of_get?_eq hget'⟩
    · apply Option.ext
      intro ty
      rw [get?_of_ofSources h', get?_of_ofSources h]
      exact ⟨Expands.of_get?_eq hget, Expands.of_get?_eq hget'⟩

/-! ## §8. One definition. -/

/-- One step of work after the other: the first that fails ends it, and the
registry stays as that step left it. -/
theorem result_bind {α β : Type} (m : RegistryM α) (next : α → RegistryM β) (r : Registry) :
    (m >>= next).result r = match m.result r with
      | (.ok a, r') => (next a).result r'
      | (.error e, r') => (.error e, r') := by
  unfold RegistryM.result ExceptT.run StateT.run
  simp only [bind, ExceptT.bind, ExceptT.mk, StateT.bind, ExceptT.bindCont]
  cases m r with
  | mk result r' => cases result <;> rfl

theorem result_ofExcept {α : Type} (x : Except Error α) (r : Registry) :
    RegistryM.result (ofExcept x) r = (x, r) := by
  cases x <;> rfl

theorem result_get (r : Registry) : RegistryM.result get r = (.ok r, r) := rfl

theorem result_set (r r' : Registry) : RegistryM.result (set r') r = (.ok ⟨⟩, r') := rfl

/-- The checks a definition makes before it changes the registry. -/
def checkedType (r : Registry) (name source : String) : Except Error Ty := do
  checkName name
  if r.types.contains name then throw (.schema name .alreadyDefined)
  resolve (.schema name) (r.lookup name) source

/-- **All that a definition can do:** fail at a check and leave the registry as
it was, or put the type under its name, where it is found again. -/
theorem result_defineType (r : Registry) (name source : String) :
    (defineType name source).result r = match r.checkedType name source with
      | .ok ty => (.ok ty, ⟨r.types.put name ty⟩)
      | .error e => (.error e, r) := by
  unfold defineType checkedType
  rw [result_bind, result_ofExcept]
  cases checkName name with
  | error e => rfl
  | ok _ =>
    simp only [result_bind, result_get, ok_bind]
    by_cases hthere : r.types.contains name = true
    · rw [if_pos hthere, if_pos hthere]
      rfl
    · rw [if_neg hthere, if_neg hthere, result_bind, result_ofExcept]
      cases resolve (.schema name) (r.lookup name) source with
      | error e => rfl
      | ok ty =>
        have hfind : (⟨r.types.put name ty⟩ : Registry).get? name = some ty :=
          Catalog.get?_put_self r.types name ty
        simp only [result_bind, result_set, result_get, hfind]
        rfl

/-- A definition that fails leaves the registry as it was. -/
theorem result_defineType_of_error {r r' : Registry} {name source : String} {e : Error}
    (h : (defineType name source).result r = (.error e, r')) : r' = r := by
  rw [result_defineType] at h
  split at h
  next => simp at h
  next => exact (Prod.mk.inj h).2.symm

theorem define_eq (r : Registry) (name source : String) :
    r.define name source = (r.checkedType name source).map fun ty => (⟨r.types.put name ty⟩, ty) := by
  unfold define
  rw [result_defineType]
  cases r.checkedType name source <;> rfl

/-- All that a successful definition can have done. -/
theorem define_eq_ok {r r' : Registry} {name source : String} {ty : Ty}
    (h : r.define name source = .ok (r', ty)) :
    TypeName name ∧ name ∉ r.types.names ∧ r' = ⟨r.types.put name ty⟩
      ∧ ∃ expr, InGrammar source expr ∧ expr.expand (r.lookup name) = .ok ty
        ∧ ty.nodes ≤ 4096 := by
  rw [define_eq] at h
  obtain ⟨ty', hchecked, heq⟩ := map_eq_ok.mp h
  obtain ⟨rfl, rfl⟩ := Prod.mk.inj heq
  obtain ⟨_, hcheck, hchecked⟩ := bind_eq_ok.mp hchecked
  split at hchecked
  next => simp at hchecked
  next hnew =>
    obtain ⟨_, -, hcomplete⟩ := bind_eq_ok.mp hchecked
    exact ⟨checkName_eq_ok.mp hcheck, fun hmem => hnew (contains_iff.mpr hmem), rfl,
      complete_eq_ok.mp hcomplete⟩

/-! ## §9. All registries. -/

/-- The registries there can be: empty, one definition more, or from sources. -/
inductive Built : Registry → Prop
  /-- No types. -/
  | empty : Built .empty
  /-- One more definition. -/
  | define {r r' : Registry} {name source : String} {ty : Ty} (h : Built r)
      (hd : r.define name source = .ok (r', ty)) : Built r'
  /-- From sources. -/
  | ofSources {sources : Catalog String} {r : Registry} (h : ofSources sources = .ok r) : Built r

/-- **Every type of a registry is well formed.** -/
theorem Built.wellFormed {r : Registry} (h : Built r) :
    ∀ name ty, r.get? name = some ty → ty.WellFormed := by
  induction h with
  | empty =>
    intro name ty h
    exact absurd h (by simp [get?, Registry.empty, Catalog.get?, Catalog.empty])
  | define _ hd ih =>
    obtain ⟨-, -, rfl, expr, hexpr, hexpand, -⟩ := define_eq_ok hd
    refine get?_put_invariant ih (wellFormed_of_expand ?_ expr hexpr.wellFormed hexpand)
    exact fun n t hn => ih n t (lookup_eq_ok.mp hn)
  | ofSources h => exact (sound_of_ofSources h).1.wellFormed

end Registry

end Stencil.Schema
