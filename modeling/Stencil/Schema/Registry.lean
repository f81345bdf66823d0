/-
  Stencil.Schema.Registry
  ───────────────────────
  Named types, resolved.

  A registry grows one definition at a time (`defineType`, which changes a
  registry in place and may fail on the way, and `define`), or is built from a
  whole catalog of expressions that may refer to each other in any order
  (`ofSources`).  Building goes depth first: the names an expression refers
  to are built before it, in the order met, so a type always comes after the
  types it refers to.  A name met again while it is being built is a cycle.

  Building ends because every step down adds a source name to the names
  being built (`pending_lt`).
-/
import Stencil.Catalog
import Stencil.Error

namespace Stencil.Schema

/-! ## §1. Reading one definition. -/

/-- Type names are identifiers that do not already mean a type. -/
def checkName (name : String) : Except Error Unit :=
  if !Text.isIdentifier name then .error (.schema name .notIdentifier)
  else if (scalarName? name).isSome || isRecordWord name then .error (.schema name .keyword)
  else .ok ()

/-- A resolved type of bearable size. -/
def checkSize {ε : Type} (fail : Fault → ε) (ty : Ty) : Except ε Ty :=
  if nodeLimit < ty.nodes then .error (fail (.tooLarge ty.nodes)) else .ok ty

/-- A misread expression as a fault. -/
def Misread.toFault (source : String) (misread : Misread) : Fault :=
  .grammar source misread.fault misread.offset

/-- Finish a definition whose names can be looked up. -/
def complete {ε : Type} (fail : Fault → ε) (lookup : String → Except ε Ty) (source : String) :
    Except ε Ty :=
  match TypeExpr.read source with
  | .error misread => .error (fail (misread.toFault source))
  | .ok expr => do checkSize fail (← expr.expand lookup)

/-- Read an expression and look its names up as they are met; `fail` words
the reader's own faults. -/
def resolve {ε : Type} (fail : Fault → ε) (lookup : String → Except ε Ty) (source : String) :
    Except ε Ty := do
  (TypeExpr.met source).forM fun name => discard (lookup name)
  complete fail lookup source

/-- The names that `resolve` looks up: those met, up to the first unknown one. -/
def consulted {ε : Type} (lookup : String → Except ε Ty) : List String → List String
  | [] => []
  | name :: names =>
      match lookup name with
      | .ok _ => name :: consulted lookup names
      | .error _ => [name]

/-! ## §2. The registry. -/

/-- Resolved types in the order in which their definitions were completed. -/
structure Registry where
  /-- The types by name. -/
  types : Catalog Ty

namespace Registry

/-- The registry of no types. -/
def empty : Registry := ⟨.empty⟩

/-- The type of a name. -/
def get? (r : Registry) (name : String) : Option Ty :=
  r.types.get? name

/-- The type of a name, or the error that `owner` refers to nothing. -/
def lookup (r : Registry) (owner name : String) : Except Error Ty :=
  match r.get? name with
  | some ty => .ok ty
  | none => .error (.schema owner (.undefined name))

end Registry

/-- Work on a registry, which may fail on the way. -/
abbrev RegistryM := ExceptT Error (StateM Registry)

/-- What comes of the work, and the registry it leaves behind either way. -/
def RegistryM.result {α : Type} (m : RegistryM α) (r : Registry) : Except Error α × Registry :=
  (ExceptT.run m).run r

namespace Registry

/-- Define one more type over those defined before, and look it up again. -/
def defineType (name source : String) : RegistryM Ty := do
  ofExcept (checkName name)
  let r ← get
  if r.types.contains name then throw (.schema name .alreadyDefined)
  let ty ← ofExcept (resolve (.schema name) (r.lookup name) source)
  set (⟨r.types.put name ty⟩ : Registry)
  match (← get).get? name with
  | some ty => return ty
  | none => throw (.schema name .vanished)

/-- The registry and the type of a definition that succeeds. -/
def define (r : Registry) (name source : String) : Except Error (Registry × Ty) :=
  match (defineType name source).result r with
  | (.ok ty, r') => .ok (r', ty)
  | (.error e, _) => .error e

/-! ## §3. Building from sources. -/

/-- The names not yet being built. -/
def pending (names visiting : List String) : List String :=
  names.filter fun name => !visiting.contains name

/-- To start building a name leaves fewer names to start. -/
theorem pending_lt {names visiting : List String} {name : String}
    (hn : name ∈ names) (hv : visiting.contains name = false) :
    (pending names (visiting ++ [name])).length < (pending names visiting).length := by
  have hsub : pending names (visiting ++ [name])
      = (pending names visiting).filter fun n => n != name := by
    simp only [pending, List.filter_filter]
    apply List.filter_congr
    intro n _
    by_cases h : n = name <;> simp [h]
  have hmem : name ∈ pending names visiting := by
    simp only [pending, List.mem_filter]
    exact ⟨hn, by rw [hv]; rfl⟩
  rw [hsub]
  refine Nat.lt_of_le_of_ne (List.length_filter_le _ _) fun h => ?_
  have hall := List.length_filter_eq_length_iff.mp h name hmem
  simp at hall

/-- Build a name and all that it refers to; `visiting` are the names being
built, outermost first. -/
def build (sources : Catalog String) (visiting : List String) (name : String)
    (r : Registry) : Except Error Registry :=
  if r.types.contains name then .ok r
  else if hv : visiting.contains name then
    .error (.schema name (.cyclic (visiting ++ [name])))
  else
    match hs : sources.get? name with
    | none => .error (.schema (visiting.getLast?.getD name) (.undefined name))
    | some source =>
      have _shorter := pending_lt (Catalog.mem_names_of_get? hs) (by simpa using hv)
      do
        let r ← (TypeExpr.met source).foldlM
          (fun r reference => build sources (visiting ++ [name]) reference r) r
        let ty ← complete (.schema name) (r.lookup name) source
        return ⟨r.types.put name ty⟩
termination_by (pending sources.names visiting).length

/-- Build every source in order. -/
def ofSources (sources : Catalog String) : Except Error Registry :=
  sources.names.foldlM
    (fun r name => do
      checkName name
      build sources [] name r)
    .empty

end Registry

end Stencil.Schema
