/-
  Stencil.Proofs.Library.Rearrangement
  ────────────────────────────────────
  THE ORDER OF A CONFIGURATION CHANGES NOTHING BUT ORDER.

  A function is compiled from what its inputs are bound to and how they are
  written, and both are fixed by the sources alone: no function sees another
  one, and no type depends on what was declared before it.  So a configuration
  whose types and functions come in another order fails in the same stage, or
  compiles to the same functions and the same structures in its own order.

    • `mapM_eq_error` — a list of steps fails with the error of the first that
      fails,
    • `compileFunction_congr` — all that a function depends on,
    • `compile_eq_unit` — a failing function is the first that fails by itself,
    • `compile_rearranged` — two orders of one configuration.
-/
import Stencil.Proofs.Library.Declarations

namespace Stencil

open Schema (Ty Registry)
open Outcome

/-! ## §1. Lists of steps. -/

/-- **A list of steps fails with the error of the first step that fails.** -/
theorem Outcome.mapM_eq_error {ε α β : Type} {f : α → Except ε β} {e : ε} : ∀ {xs : List α},
    xs.mapM f = .error e
      ↔ ∃ before x after, xs = before ++ x :: after ∧ (∀ y ∈ before, ∃ b, f y = .ok b)
        ∧ f x = .error e
  | [] => by simp
  | x :: xs => by
      rw [List.mapM_cons, bind_eq_error]
      constructor
      · rintro (hx | ⟨b, hb, h⟩)
        · exact ⟨[], x, xs, rfl, by simp, hx⟩
        · rcases bind_eq_error.mp h with hrest | ⟨_, _, h⟩
          · obtain ⟨before, y, after, rfl, hbefore, hy⟩ := mapM_eq_error.mp hrest
            refine ⟨x :: before, y, after, rfl, fun z hz => ?_, hy⟩
            rcases List.mem_cons.mp hz with rfl | hz
            · exact ⟨b, hb⟩
            · exact hbefore z hz
          · simp at h
      · rintro ⟨before, y, after, hsplit, hbefore, hy⟩
        cases before with
        | nil =>
          obtain ⟨rfl, -⟩ := List.cons.inj hsplit
          exact .inl hy
        | cons z before =>
          obtain ⟨rfl, rfl⟩ := List.cons.inj hsplit
          obtain ⟨b, hb⟩ := hbefore x List.mem_cons_self
          refine .inr ⟨b, hb, bind_eq_error.mpr (.inl ?_)⟩
          exact mapM_eq_error.mpr
            ⟨before, y, after, rfl, fun w hw => hbefore w (List.mem_cons_of_mem _ hw), hy⟩

/-- A list of steps succeeds exactly if each step does. -/
theorem Outcome.exists_mapM_iff {ε α β : Type} {f : α → Except ε β} {xs : List α} :
    (∃ ys, xs.mapM f = .ok ys) ↔ ∀ x ∈ xs, ∃ y, f x = .ok y := by
  constructor
  · rintro ⟨ys, h⟩ x hx
    obtain ⟨y, -, hy⟩ := exists_of_forall₂_mem (mapM_eq_ok h).flip hx
    exact ⟨y, hy⟩
  · intro h
    cases hmap : xs.mapM f with
    | ok ys => exact ⟨ys, rfl⟩
    | error e =>
      obtain ⟨before, x, after, rfl, -, hx⟩ := mapM_eq_error.mp hmap
      obtain ⟨y, hy⟩ := h x (by simp)
      simp [hx] at hy

/-! ## §2. What a function depends on. -/

/-- The parameters of inputs depend on how the inputs are written. -/
theorem inputParams_congr {d d' : Declarations} {inputs : List String} (types : List Ty)
    (h : ∀ input ∈ inputs, d'.reference? input = d.reference? input) :
    inputParams d' inputs types = inputParams d inputs types := by
  unfold inputParams
  refine List.map_congr_left fun entry hentry => ?_
  obtain ⟨⟨input, ty⟩, n⟩ := entry
  have hmem : (input, ty) ∈ inputs.zip types := (List.mem_zipIdx' hentry).2 ▸ List.getElem_mem _
  show Param.mk ((d'.reference? input).getD input) _ _ = _
  rw [h input (List.of_mem_zip hmem).1]

/-- **A function depends on what its inputs are bound to and how they are
written,** and on nothing else. -/
theorem compileFunction_congr {table : Builtins} {registry registry' : Registry}
    {d d' : Declarations} (name : String) (f : FunctionDef)
    (hget : ∀ input, registry'.get? input = registry.get? input)
    (href : ∀ input ty, registry.get? input = some ty →
      d'.reference? input = d.reference? input) :
    compileFunction table registry' d' name f = compileFunction table registry d name f := by
  have htypes : inputTypes registry' f.inputs = inputTypes registry f.inputs := by
    unfold inputTypes
    simp only [hget]
  unfold compileFunction
  rw [htypes]
  cases hok : inputTypes registry f.inputs with
  | error e => rfl
  | ok types =>
    -- the inputs have types, so they are entries and written alike
    have hparams : inputParams d' f.inputs types = inputParams d f.inputs types := by
      refine inputParams_congr types fun input hinput => ?_
      have hmem : registry.get? input ∈ types.map some :=
        inputTypes_eq_ok hok ▸ List.mem_map_of_mem hinput
      obtain ⟨ty, -, hty⟩ := List.mem_map.mp hmem
      exact href input ty hty.symm
    simp only [ok_bind, hparams]

/-- A function that compiles is left out if it has no inputs, and keeps its
name otherwise. -/
theorem name_of_compileFunction {table : Builtins} {registry : Registry} {d : Declarations}
    {name : String} {f : FunctionDef} {result : Option Function}
    (h : compileFunction table registry d name f = .ok result) :
    result.map Function.name = if f.inputs.isEmpty then none else some name := by
  cases result with
  | none =>
    unfold compileFunction at h
    split at h
    next hempty => rw [if_pos hempty]; rfl
    next =>
      obtain ⟨_, -, h⟩ := bind_eq_ok.mp h
      obtain ⟨_, -, h⟩ := bind_eq_ok.mp h
      obtain ⟨_, -, h⟩ := bind_eq_ok.mp h
      simp at h
  | some compiled =>
    obtain ⟨_, _, _, -, -, -, rfl⟩ := compileFunction_eq_ok h
    have hsome : ¬ f.inputs.isEmpty = true := by
      intro hempty
      unfold compileFunction at h
      rw [if_pos hempty] at h
      simp at h
    rw [if_neg hsome]
    rfl

/-! ## §3. How compiling ends. -/

/-- The function an entry of a configuration compiles to, if it does and is not
left out. -/
def compiledEntry (table : Builtins) (registry : Registry) (d : Declarations)
    (entry : String × FunctionDef) : Option Function :=
  match compileFunction table registry d entry.1 entry.2 with
  | .ok result => result
  | .error _ => none

/-- The functions of a library are those its entries compile to. -/
theorem filterMap_compiledEntry {table : Builtins} {registry : Registry} {d : Declarations}
    {entries : List (String × FunctionDef)} {results : List (Option Function)}
    (h : List.Forall₂
      (fun entry result => compileFunction table registry d entry.1 entry.2 = .ok result)
      entries results) :
    results.filterMap id = entries.filterMap (compiledEntry table registry d) := by
  induction h with
  | nil => rfl
  | cons hentry _ ih =>
    rw [List.filterMap_cons, List.filterMap_cons, ih, compiledEntry, hentry]
    rfl

/-- They keep the order of the entries, and only entries without inputs are
left out. -/
theorem map_name_of_forall₂ {table : Builtins} {registry : Registry} {d : Declarations}
    {entries : List (String × FunctionDef)} {results : List (Option Function)}
    (h : List.Forall₂
      (fun entry result => compileFunction table registry d entry.1 entry.2 = .ok result)
      entries results) :
    (results.filterMap id).map Function.name
      = (entries.filter fun entry => !entry.2.inputs.isEmpty).map Prod.fst := by
  induction h with
  | nil => rfl
  | @cons entry result _ _ hentry _ ih =>
    have hname := name_of_compileFunction hentry
    cases result with
    | none =>
      have hempty : entry.2.inputs.isEmpty = true := by
        by_contra hsome
        rw [if_neg hsome] at hname
        simp at hname
      rw [List.filter_cons_of_neg (by simp [hempty])]
      exact ih
    | some f =>
      have hsome : ¬ entry.2.inputs.isEmpty = true := by
        intro hempty
        rw [if_pos hempty] at hname
        simp at hname
      rw [if_neg hsome] at hname
      have hfirst : f.name = entry.1 := by simpa using hname
      rw [List.filter_cons_of_pos (by simp [hsome]), List.map_cons, ← ih, ← hfirst]
      rfl

/-- A unit fails exactly with the error of its function. -/
theorem compileUnit_eq_error {table : Builtins} {registry : Registry} {d : Declarations}
    {entry : String × FunctionDef} {e : GenerateError} :
    compileUnit table registry d entry = .error e
      ↔ ∃ cause, e = .unit entry.1 entry.2.template cause
        ∧ compileFunction table registry d entry.1 entry.2 = .error cause := by
  unfold compileUnit
  cases compileFunction table registry d entry.1 entry.2 with
  | ok result => simp [Except.mapError]
  | error cause => simp [Except.mapError, eq_comm]

/-- The types fail exactly if there is no registry. -/
theorem Config.compile_eq_schema {config : Config} {table : Builtins} {cause : Error} :
    config.compile table = .error (.schema cause) ↔ config.registry = .error cause := by
  unfold Config.compile
  cases config.registry with
  | error cause' => simp
  | ok registry =>
    simp only [reduceCtorEq, iff_false]
    intro h
    -- no function fails with an error of the types
    have h := map_eq_error.mp (map_eq_error.mp h)
    obtain ⟨_, entry, _, -, -, hentry⟩ := mapM_eq_error.mp h
    obtain ⟨_, he, -⟩ := compileUnit_eq_error.mp hentry
    simp at he

/-- **A failing function is the first that fails by itself,** and its error is
its own. -/
theorem Config.compile_eq_unit {config : Config} {table : Builtins} {name template : String}
    {cause : Error} :
    config.compile table = .error (.unit name template cause)
      ↔ ∃ registry before f after, config.registry = .ok registry
        ∧ config.functions.entries = before ++ (name, f) :: after ∧ f.template = template
        ∧ (∀ entry ∈ before, ∃ result, compileFunction table registry
            (config.declarations registry) entry.1 entry.2 = .ok result)
        ∧ compileFunction table registry (config.declarations registry) name f
            = .error cause := by
  unfold Config.compile
  cases config.registry with
  | error cause' => simp
  | ok registry =>
    show Except.map _ (config.compileFunctions table registry _) = _ ↔ _
    rw [map_eq_error, Config.compileFunctions, map_eq_error, mapM_eq_error]
    constructor
    · rintro ⟨before, ⟨n, f⟩, after, hsplit, hbefore, hentry⟩
      obtain ⟨_, he, hf⟩ := compileUnit_eq_error.mp hentry
      obtain ⟨rfl, rfl, rfl⟩ := GenerateError.unit.inj he
      refine ⟨registry, before, f, after, rfl, hsplit, rfl, fun entry hentry => ?_, hf⟩
      obtain ⟨result, hresult⟩ := hbefore entry hentry
      exact ⟨result, compileUnit_eq_ok.mp hresult⟩
    · rintro ⟨_, before, f, after, hregistry, hsplit, rfl, hbefore, hf⟩
      obtain rfl := Except.ok.inj hregistry
      refine ⟨before, (name, f), after, hsplit, fun entry hentry => ?_, ?_⟩
      · obtain ⟨result, hresult⟩ := hbefore entry hentry
        exact ⟨result, compileUnit_eq_ok.mpr hresult⟩
      · exact compileUnit_eq_error.mpr ⟨cause, rfl, hf⟩

/-- A configuration compiles exactly if its types are built and every function
compiles by itself. -/
theorem Config.exists_compile_iff {config : Config} {table : Builtins} :
    (∃ library, config.compile table = .ok library)
      ↔ ∃ registry, config.registry = .ok registry
        ∧ ∀ entry ∈ config.functions.entries, ∃ result, compileFunction table registry
            (config.declarations registry) entry.1 entry.2 = .ok result := by
  unfold Config.compile
  cases config.registry with
  | error cause => simp
  | ok registry =>
    show (∃ library, Except.map _ (config.compileFunctions table registry _) = .ok library) ↔ _
    rw [exists_map_eq_ok, Config.compileFunctions, exists_map_eq_ok, exists_mapM_iff]
    simp only [compileUnit_eq_ok, Except.ok.injEq, exists_eq_left']

/-! ## §4. Rearranged configurations. -/

/-- The same configuration with its types and its functions in another order. -/
structure Config.Rearranged (config other : Config) : Prop where
  /-- The contract keeps its name. -/
  contractName : other.contractName = config.contractName
  /-- The types are the same in some order. -/
  structs : other.structs.entries.Perm config.structs.entries
  /-- The functions are the same in some order. -/
  functions : other.functions.entries.Perm config.functions.entries

namespace Config.Rearranged

variable {config other : Config}

theorem symm (h : config.Rearranged other) : other.Rearranged config :=
  ⟨h.contractName.symm, h.structs.symm, h.functions.symm⟩

/-- **The order of the sources does not show in a registry:** names are bound
to full expansions, which know of no order. -/
theorem registry (h : config.Rearranged other) {r : Registry} (hr : config.registry = .ok r) :
    ∃ r', other.registry = .ok r' ∧ ∀ name, r'.get? name = r.get? name := by
  have hget : ∀ name, config.sources.get? name = other.sources.get? name := fun name =>
    (Schema.get?_of_perm (h.structs.map _) name).symm
  have hget' : ∀ name, other.sources.get? name = config.sources.get? name := fun name =>
    (hget name).symm
  obtain ⟨r', hr'⟩ := Registry.exists_ofSources_iff.mpr
    ((Registry.exists_ofSources_iff.mp ⟨r, hr⟩).of_get?_eq hget)
  refine ⟨r', hr', fun name => ?_⟩
  apply Option.ext
  intro ty
  rw [Registry.get?_of_ofSources hr', Registry.get?_of_ofSources hr]
  exact ⟨Schema.Expands.of_get?_eq hget', Schema.Expands.of_get?_eq hget⟩

/-- A function compiles to the same in both. -/
theorem compileFunction {r r' : Registry} (hr : config.registry = .ok r)
    (hr' : other.registry = .ok r') (hget : ∀ name, r'.get? name = r.get? name)
    (table : Builtins) (name : String) (f : FunctionDef) :
    Stencil.compileFunction table r' (other.declarations r') name f
      = Stencil.compileFunction table r (config.declarations r) name f := by
  refine compileFunction_congr name f hget fun input ty hty => ?_
  -- an entry is written after its own name and type, whatever came before it
  have hentry := entries_of_registry hr
  have hentry' := entries_of_registry hr'
  have hty' : r'.get? input = some ty := (hget input).trans hty
  rw [(declarations_of_entries hentry.2).2 input (hentry.1 input ty hty).1 ty hty,
    (declarations_of_entries hentry'.2).2 input (hentry'.1 input ty hty').1 ty hty']

/-- What compiles in one order compiles in the other. -/
theorem exists_compile (h : config.Rearranged other) {table : Builtins}
    (hc : ∃ library, config.compile table = .ok library) :
    ∃ library, other.compile table = .ok library := by
  obtain ⟨r, hr, hall⟩ := exists_compile_iff.mp hc
  obtain ⟨r', hr', hget⟩ := h.registry hr
  refine exists_compile_iff.mpr ⟨r', hr', fun entry hentry => ?_⟩
  rw [compileFunction hr hr' hget]
  exact hall entry (h.functions.mem_iff.mp hentry)

/-- Types that fail in one order fail in the other. -/
theorem schema (h : config.Rearranged other) {table : Builtins} {cause : Error}
    (hc : config.compile table = .error (.schema cause)) :
    ∃ cause', other.compile table = .error (.schema cause') := by
  have hnone := compile_eq_schema.mp hc
  cases hr : other.registry with
  | error cause' => exact ⟨cause', compile_eq_schema.mpr hr⟩
  | ok r =>
    obtain ⟨r', hr', -⟩ := h.symm.registry hr
    simp [hnone] at hr'

end Config.Rearranged

/-! ## §5. Two orders of one configuration. -/

/-- **The order of a configuration changes nothing but order.**  In another
order of its types and functions a configuration fails in the same stage or
succeeds as well.  If it succeeds, functions of one name are the same, they
keep the order of the configuration with only those without inputs left out,
and the structures are those of the same entries, entry after entry.  In any
configuration the function that fails is the first that fails by itself. -/
theorem compile_rearranged {config other : Config} (h : config.Rearranged other)
    (table : Builtins) :
    ((∃ cause cause', config.compile table = .error (.schema cause)
          ∧ other.compile table = .error (.schema cause'))
      ∨ (∃ name template cause name' template' cause',
          config.compile table = .error (.unit name template cause)
          ∧ other.compile table = .error (.unit name' template' cause'))
      ∨ ∃ library library', config.compile table = .ok library
          ∧ other.compile table = .ok library')
    ∧ (∀ library library', config.compile table = .ok library →
        other.compile table = .ok library' →
        library'.functions.Perm library.functions
        ∧ (∀ f ∈ library.functions, ∀ f' ∈ library'.functions, f'.name = f.name → f' = f)
        ∧ library.functions.map Function.name
            = (config.functions.entries.filter fun entry => !entry.2.inputs.isEmpty).map Prod.fst
        ∧ library'.functions.map Function.name
            = (other.functions.entries.filter fun entry => !entry.2.inputs.isEmpty).map Prod.fst
        ∧ ∃ registry, config.registry = .ok registry
            ∧ library.structs = config.structs.names.flatMap (entryStructs registry)
            ∧ library'.structs = other.structs.names.flatMap (entryStructs registry))
    ∧ ∀ name template cause, config.compile table = .error (.unit name template cause)
        ↔ ∃ registry before f after, config.registry = .ok registry
          ∧ config.functions.entries = before ++ (name, f) :: after ∧ f.template = template
          ∧ (∀ entry ∈ before, ∃ result, compileFunction table registry
              (config.declarations registry) entry.1 entry.2 = .ok result)
          ∧ compileFunction table registry (config.declarations registry) name f
              = .error cause := by
  refine ⟨?_, fun library library' hc hc' => ?_, fun _ _ _ => Config.compile_eq_unit⟩
  · cases hc : config.compile table with
    | ok library =>
      obtain ⟨library', hc'⟩ := h.exists_compile ⟨library, hc⟩
      exact .inr (.inr ⟨library, library', rfl, hc'⟩)
    | error e =>
      cases e with
      | schema cause =>
        obtain ⟨cause', hc'⟩ := h.schema hc
        exact .inl ⟨cause, cause', rfl, hc'⟩
      | unit name template cause =>
        -- the other one neither succeeds nor fails in its types
        refine .inr (.inl ?_)
        cases hc' : other.compile table with
        | ok library' =>
          obtain ⟨_, hc''⟩ := h.symm.exists_compile ⟨library', hc'⟩
          simp [hc] at hc''
        | error e' =>
          cases e' with
          | schema cause' =>
            obtain ⟨_, hc''⟩ := h.symm.schema hc'
            simp [hc] at hc''
          | unit name' template' cause' =>
            exact ⟨name, template, cause, name', template', cause', rfl, rfl⟩
  · obtain ⟨r, results, hr, hresults, rfl⟩ := Config.compile_eq_ok hc
    obtain ⟨r', results', hr', hresults', rfl⟩ := Config.compile_eq_ok hc'
    have hget : ∀ name, r'.get? name = r.get? name := by
      obtain ⟨r₁, hr₁, hget⟩ := h.registry hr
      obtain rfl := Except.ok.inj (hr'.symm.trans hr₁)
      exact hget
    have hnames := map_name_of_forall₂ hresults
    have hperm : (results'.filterMap id).Perm (results.filterMap id) := by
      have hentry : compiledEntry table r' (other.declarations r')
          = compiledEntry table r (config.declarations r) := by
        funext entry
        unfold compiledEntry
        rw [Config.Rearranged.compileFunction hr hr' hget]
      rw [filterMap_compiledEntry hresults, filterMap_compiledEntry hresults', hentry]
      exact h.functions.filterMap _
    have hdistinct : ((results.filterMap id).map Function.name).Nodup := by
      rw [hnames]
      exact config.functions.distinct.sublist (List.filter_sublist.map _)
    refine ⟨hperm, fun f hf f' hf' hname => ?_, hnames, map_name_of_forall₂ hresults',
      r, hr, ?_, ?_⟩
    · exact List.inj_on_of_nodup_map hdistinct (hperm.mem_iff.mp hf') hf hname
    · exact (declarations_of_entries (entries_of_registry hr).2).1
    · have hblock : entryStructs r' = entryStructs r := by
        funext name
        unfold entryStructs
        rw [hget]
      rw [← hblock]
      exact (declarations_of_entries (entries_of_registry hr').2).1

/-- Two types and three functions, of which one has no inputs. -/
def shapesConfig : Config :=
  { contractName := "Shapes"
    structs := ⟨[("Size", ⟨"record(uint8 n)"⟩), ("Point", ⟨"record(Size[2] at)"⟩)], by decide⟩
    functions := ⟨[("idle", ⟨"", []⟩), ("whole", ⟨"\x7b\x7b.obj0.n\x7d\x7d", ["Size"]⟩),
      ("dots", ⟨"\x7b\x7brange .obj0.at\x7d\x7d.\x7b\x7bend\x7d\x7d", ["Point"]⟩)],
      by decide⟩ }

/-- The same with the types and functions the other way round. -/
def shapesReversed : Config :=
  { contractName := "Shapes"
    structs := ⟨[("Point", ⟨"record(Size[2] at)"⟩), ("Size", ⟨"record(uint8 n)"⟩)], by decide⟩
    functions := ⟨[("dots", ⟨"\x7b\x7brange .obj0.at\x7d\x7d.\x7b\x7bend\x7d\x7d", ["Point"]⟩),
      ("whole", ⟨"\x7b\x7b.obj0.n\x7d\x7d", ["Size"]⟩), ("idle", ⟨"", []⟩)],
      by decide⟩ }

/-- The types of both. -/
def shapesRegistry : Registry :=
  ⟨⟨[("Size", .record [("n", .scalar "uint8")]),
    ("Point", .record [("at", .fixed (.record [("n", .scalar "uint8")]) 2)])], by decide⟩⟩

/-- What the first compiles to. -/
def shapesLibrary : Library :=
  { contractName := "Shapes"
    structs := [⟨"Size", [("n", "uint8")]⟩, ⟨"At", [("n", "uint8")]⟩, ⟨"Point", [("at", "At[2]")]⟩]
    functions := [⟨"whole", [⟨"Size", some "memory", "obj0"⟩], [.group [.value "obj0.n"]]⟩,
      ⟨"dots", [⟨"Point", some "memory", "obj0"⟩],
        [.statement "for (uint64 i = 0; i < obj0.at.length; i++) \x7b",
          .group [.literal "."],
          .statement "if (i < obj0.at.length - 1) \x7b",
          .group [.literal ","],
          .statement "\x7d",
          .statement "\x7d"]⟩] }

theorem registry_shapes : shapesConfig.registry = .ok shapesRegistry := by
  have hsize : Schema.InGrammar "record(uint8 n)" (.record [("n", .scalar "uint8")]) :=
    Schema.read_eq_ok_iff.mp (by cbv)
  have hname : Schema.TypeName "Size" := Schema.checkName_eq_ok.mp rfl
  have hmembers : Schema.Derives
      ([.word "Size"] ++ [.mark '[', .digits ['2'], .mark ']'] ++ [.word "at"])
      (.members [("at", .fixed (.reference "Size") 2)]) :=
    .one (.fixed (.reference rfl hname.noKeyword) (by decide) (by decide))
  have hpoint : Schema.InGrammar "record(Size[2] at)"
      (.record [("at", .fixed (.reference "Size") 2)]) :=
    ⟨_, (@Schema.lexemes_eq_iff 0 _ _).mp (by cbv),
      @Schema.Derives.record "record" _ _ rfl hmembers (by decide)⟩
  -- the second type refers to the first, so they can be defined in this order
  refine @Registry.build_of_defineAll shapesConfig.sources
    [("Size", "record(uint8 n)"), ("Point", "record(Size[2] at)")] _ _ (by decide) ?_
  refine Registry.defineAll_cons_eq_ok.mpr ⟨_, _, Registry.define_of_expand
    (Schema.checkName_eq_ok.mp rfl) (by decide) hsize rfl (by decide), ?_⟩
  exact Registry.defineAll_cons_eq_ok.mpr ⟨_, _, Registry.define_of_expand
    (Schema.checkName_eq_ok.mp rfl) (by decide) hpoint rfl (by decide), rfl⟩

theorem compile_shapes : shapesConfig.compile Builtin.standard = .ok shapesLibrary := by
  have hwhole : Template.parse "\x7b\x7b.obj0.n\x7d\x7d"
      = .ok ⟨0, [.action 0 ⟨2, none, [⟨2, [.field ["obj0", "n"]]⟩]⟩]⟩ := by cbv
  have hdots : Template.parse "\x7b\x7brange .obj0.at\x7d\x7d.\x7b\x7bend\x7d\x7d"
      = .ok ⟨0, [.branch .loop 0 ⟨8, none, [⟨8, [.field ["obj0", "at"]]⟩]⟩ 18
          [.text 18 "."]]⟩ := by cbv
  unfold Config.compile
  rw [registry_shapes]
  unfold Config.compileFunctions shapesConfig
  simp only [List.mapM_cons, compileUnit, compileFunction, hwhole, hdots, ok_bind]
  rfl

/-- The other way round, the same two functions come out, in the other order. -/
theorem compile_rearranged_shapes :
    shapesConfig.Rearranged shapesReversed
      ∧ ∃ library', shapesReversed.compile Builtin.standard = .ok library'
        ∧ library'.functions.Perm shapesLibrary.functions
        ∧ shapesLibrary.functions.map Function.name = ["whole", "dots"]
        ∧ library'.functions.map Function.name = ["dots", "whole"] := by
  have h : shapesConfig.Rearranged shapesReversed := by
    refine ⟨rfl, .swap _ _ _, ?_⟩
    exact (List.reverse_perm shapesConfig.functions.entries)
  refine ⟨h, ?_⟩
  obtain ⟨library', hc'⟩ := h.exists_compile ⟨_, compile_shapes⟩
  obtain ⟨hperm, -, hnames, hnames', -⟩ :=
    (compile_rearranged h Builtin.standard).2.1 _ _ compile_shapes hc'
  exact ⟨library', hc', hperm, hnames, hnames'⟩

end Stencil
