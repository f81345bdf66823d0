/-
  Stencil.Proofs.Schema.Expansion
  ───────────────────────────────
  DEFINITIONS, REFERENCES AND FULL EXPANSIONS, said of the sources alone.

  Sources define names as type expressions, and the names in an expression
  refer to other definitions.  `Expands` puts the expansion of a definition
  in the place of every reference to it; it mentions no registry and no
  order.

    • `Expands.unique` — there is at most one full expansion,
    • `expands_of_expand` — looking names up gives the full expansion, when
      every name that is looked up gives its own,
    • `Admissible` — what sources have to satisfy to be built,
    • `Admissible.of_get?_eq` — which no order of the sources changes.
-/
import Mathlib.Logic.Relation
import Stencil.Catalog
import Stencil.Proofs.Schema.Grammar

namespace Stencil.Schema

open Outcome

/-! ## §1. Definitions and references. -/

/-- The sources define the name as this expression of the grammar. -/
def Defines (sources : Catalog String) (name : String) (expr : TypeExpr) : Prop :=
  ∃ source, sources.get? name = some source ∧ InGrammar source expr

/-- The definition of `name` refers to `other`. -/
def Refers (sources : Catalog String) (name other : String) : Prop :=
  ∃ expr, Defines sources name expr ∧ other ∈ expr.references

/-- No name refers to itself, through however many others. -/
def Acyclic (sources : Catalog String) : Prop :=
  ∀ name, ¬ Relation.TransGen (Refers sources) name name

/-- A name is defined by one expression at most. -/
theorem Defines.unique {sources : Catalog String} {name : String} {e₁ e₂ : TypeExpr}
    (h₁ : Defines sources name e₁) (h₂ : Defines sources name e₂) : e₁ = e₂ := by
  obtain ⟨s₁, hs₁, he₁⟩ := h₁
  obtain ⟨s₂, hs₂, he₂⟩ := h₂
  obtain rfl : s₁ = s₂ := by simpa [hs₁] using hs₂
  exact he₁.unique he₂

theorem Defines.mem_names {sources : Catalog String} {name : String} {expr : TypeExpr}
    (h : Defines sources name expr) : name ∈ sources.names := by
  obtain ⟨source, hs, -⟩ := h
  exact Catalog.mem_names_of_get? hs

/-! ## §2. Full expansions. -/

/-- The full expansion of an expression: every reference is replaced by the
expansion of the definition it refers to. -/
inductive Expands (sources : Catalog String) : TypeExpr → Ty → Prop
  /-- An elementary type stands for itself. -/
  | scalar (name : String) : Expands sources (.scalar name) (.scalar name)
  /-- A name stands for its definition. -/
  | reference {name : String} {expr : TypeExpr} {ty : Ty} (hd : Defines sources name expr)
      (h : Expands sources expr ty) : Expands sources (.reference name) ty
  /-- Elements are expanded. -/
  | sequence {expr : TypeExpr} {ty : Ty} (h : Expands sources expr ty) :
      Expands sources (.sequence expr) (.sequence ty)
  /-- Elements are expanded, and the size stays. -/
  | fixed {expr : TypeExpr} {ty : Ty} {size : Nat} (h : Expands sources expr ty) :
      Expands sources (.fixed expr size) (.fixed ty size)
  /-- No members. -/
  | nil : Expands sources (.record []) (.record [])
  /-- Members are expanded one by one under their names. -/
  | cons {name : String} {expr : TypeExpr} {ty : Ty} {exprs : List (String × TypeExpr)}
      {tys : List (String × Ty)} (h : Expands sources expr ty)
      (hs : Expands sources (.record exprs) (.record tys)) :
      Expands sources (.record ((name, expr) :: exprs)) (.record ((name, ty) :: tys))

/-- **There is at most one full expansion.** -/
theorem Expands.unique {sources : Catalog String} {expr : TypeExpr} {ty₁ : Ty}
    (h₁ : Expands sources expr ty₁) : ∀ {ty₂ : Ty}, Expands sources expr ty₂ → ty₁ = ty₂ := by
  induction h₁ with
  | scalar name =>
    intro ty₂ h₂
    cases h₂
    rfl
  | reference hd _ ih =>
    intro ty₂ h₂
    cases h₂ with
    | reference hd₂ h₂ =>
      rw [← hd.unique hd₂] at h₂
      exact ih h₂
  | sequence _ ih =>
    intro ty₂ h₂
    cases h₂ with
    | sequence h => rw [ih h]
  | fixed _ ih =>
    intro ty₂ h₂
    cases h₂ with
    | fixed h => rw [ih h]
  | nil =>
    intro ty₂ h₂
    cases h₂
    rfl
  | cons _ _ ih ihs =>
    intro ty₂ h₂
    cases h₂ with
    | cons h hs =>
      have hrest := ihs hs
      simp only [Ty.record.injEq] at hrest
      rw [ih h, hrest]

/-! ## §3. Looking names up. -/

mutual
/-- An expression is expanded exactly if all its names look up. -/
theorem exists_expand_iff {ε : Type} {lookup : String → Except ε Ty} : ∀ expr : TypeExpr,
    (∃ ty, expr.expand lookup = .ok ty) ↔ ∀ name ∈ expr.references, ∃ ty, lookup name = .ok ty
  | .scalar name => by simp [TypeExpr.expand, TypeExpr.references]
  | .reference name => by simp [TypeExpr.expand, TypeExpr.references]
  | .record members => by
      rw [TypeExpr.references, ← exists_expandMembers_iff members, TypeExpr.expand,
        exists_map_eq_ok]
  | .sequence element => by
      rw [TypeExpr.references, ← exists_expand_iff element, TypeExpr.expand, exists_map_eq_ok]
  | .fixed element size => by
      rw [TypeExpr.references, ← exists_expand_iff element, TypeExpr.expand, exists_map_eq_ok]

/-- Members are expanded exactly if all their names look up. -/
theorem exists_expandMembers_iff {ε : Type} {lookup : String → Except ε Ty} :
    ∀ members : List (String × TypeExpr),
    (∃ tys, expandMembers lookup members = .ok tys)
      ↔ ∀ name ∈ memberReferences members, ∃ ty, lookup name = .ok ty
  | [] => by simp [expandMembers, memberReferences]
  | (name, expr) :: members => by
      simp only [memberReferences, List.mem_append, or_imp, forall_and,
        ← exists_expand_iff expr, ← exists_expandMembers_iff members, expandMembers]
      constructor
      · rintro ⟨tys, h⟩
        obtain ⟨ty, hty, h⟩ := bind_eq_ok.mp h
        obtain ⟨rest, hrest, -⟩ := bind_eq_ok.mp h
        exact ⟨⟨ty, hty⟩, rest, hrest⟩
      · rintro ⟨⟨ty, hty⟩, rest, hrest⟩
        exact ⟨(name, ty) :: rest, by rw [hty, ok_bind, hrest]; rfl⟩
end

mutual
/-- **Where names look up their full expansions, so does the expression.** -/
theorem expands_of_expand {ε : Type} {sources : Catalog String} {lookup : String → Except ε Ty}
    (hl : ∀ name ty, lookup name = .ok ty → Expands sources (.reference name) ty) :
    ∀ (expr : TypeExpr) {ty : Ty}, expr.expand lookup = .ok ty → Expands sources expr ty
  | .scalar name, ty, h => by
      obtain rfl : Ty.scalar name = ty := by simpa [TypeExpr.expand] using h
      exact .scalar name
  | .reference name, ty, h => hl name ty h
  | .record members, ty, h => by
      obtain ⟨tys, htys, rfl⟩ := map_eq_ok.mp h
      exact expands_of_expandMembers hl members htys
  | .sequence element, ty, h => by
      obtain ⟨inner, hinner, rfl⟩ := map_eq_ok.mp h
      exact .sequence (expands_of_expand hl element hinner)
  | .fixed element size, ty, h => by
      obtain ⟨inner, hinner, rfl⟩ := map_eq_ok.mp h
      exact .fixed (expands_of_expand hl element hinner)

/-- The same for members. -/
theorem expands_of_expandMembers {ε : Type} {sources : Catalog String}
    {lookup : String → Except ε Ty}
    (hl : ∀ name ty, lookup name = .ok ty → Expands sources (.reference name) ty) :
    ∀ (members : List (String × TypeExpr)) {tys : List (String × Ty)},
    expandMembers lookup members = .ok tys → Expands sources (.record members) (.record tys)
  | [], tys, h => by
      obtain rfl : [] = tys := by simpa [expandMembers] using h
      exact .nil
  | (name, expr) :: members, tys, h => by
      rw [expandMembers] at h
      obtain ⟨ty, hty, h⟩ := bind_eq_ok.mp h
      obtain ⟨rest, hrest, h⟩ := bind_eq_ok.mp h
      obtain rfl : (name, ty) :: rest = tys := by simpa using h
      exact .cons (expands_of_expand hl expr hty) (expands_of_expandMembers hl members hrest)
end

/-! ## §4. What sources have to satisfy. -/

/-- An identifier that does not already mean a type. -/
structure TypeName (name : String) : Prop where
  /-- It is an identifier. -/
  identifier : Text.isIdentifier name = true
  /-- It is no keyword of an elementary type. -/
  noKeyword : ∀ canonical, ¬ Keyword name canonical
  /-- It opens no record. -/
  noRecord : name ≠ "record" ∧ name ≠ "tuple"

/-- Sources that can be built. -/
structure Admissible (sources : Catalog String) : Prop where
  /-- Every name may name a type. -/
  named : ∀ name ∈ sources.names, TypeName name
  /-- Every expression is in the grammar. -/
  read : ∀ name ∈ sources.names, ∃ expr, Defines sources name expr
  /-- Every reference is to one of the names. -/
  closed : ∀ name other, Refers sources name other → other ∈ sources.names
  /-- No name refers to itself. -/
  acyclic : Acyclic sources
  /-- Full expansions are small. -/
  bounded : ∀ name ty, Expands sources (.reference name) ty → ty.nodes ≤ 4096

/-! ## §5. The order of the sources. -/

/-- Sources with the same entries in any order have the same definitions. -/
theorem get?_of_perm {sources other : Catalog String} (h : sources.entries.Perm other.entries)
    (name : String) : sources.get? name = other.get? name := by
  apply Option.ext
  intro value
  rw [Catalog.get?_eq_some_iff, Catalog.get?_eq_some_iff, h.mem_iff]

theorem Defines.of_get?_eq {sources other : Catalog String}
    (h : ∀ name, sources.get? name = other.get? name) {name : String} {expr : TypeExpr}
    (hd : Defines sources name expr) : Defines other name expr := by
  obtain ⟨source, hs, hexpr⟩ := hd
  exact ⟨source, by rw [← h, hs], hexpr⟩

theorem Refers.of_get?_eq {sources other : Catalog String}
    (h : ∀ name, sources.get? name = other.get? name) {name target : String}
    (hr : Refers sources name target) : Refers other name target := by
  obtain ⟨expr, hd, hmem⟩ := hr
  exact ⟨expr, hd.of_get?_eq h, hmem⟩

theorem Expands.of_get?_eq {sources other : Catalog String}
    (h : ∀ name, sources.get? name = other.get? name) {expr : TypeExpr} {ty : Ty}
    (he : Expands sources expr ty) : Expands other expr ty := by
  induction he with
  | scalar name => exact .scalar name
  | reference hd _ ih => exact .reference (hd.of_get?_eq h) ih
  | sequence _ ih => exact .sequence ih
  | fixed _ ih => exact .fixed ih
  | nil => exact .nil
  | cons _ _ ih ihs => exact .cons ih ihs

/-- Whether sources can be built depends on their definitions only. -/
theorem Admissible.of_get?_eq {sources other : Catalog String}
    (h : ∀ name, sources.get? name = other.get? name) (ha : Admissible sources) :
    Admissible other := by
  have hnames : ∀ name, name ∈ other.names ↔ name ∈ sources.names := by
    intro name
    rw [Catalog.mem_names_iff, Catalog.mem_names_iff, h]
  have h' : ∀ name, other.get? name = sources.get? name := fun name => (h name).symm
  refine ⟨fun name hname => ha.named name ((hnames name).mp hname), fun name hname => ?_,
    fun name target hr => ?_, fun name hcycle => ?_, fun name ty hty => ?_⟩
  · obtain ⟨expr, hd⟩ := ha.read name ((hnames name).mp hname)
    exact ⟨expr, hd.of_get?_eq h⟩
  · exact (hnames target).mpr (ha.closed name target (hr.of_get?_eq h'))
  · have hmono : Refers other ≤ Refers sources := fun a b hr => hr.of_get?_eq h'
    exact ha.acyclic name (Relation.TransGen.mono hmono name name hcycle)
  · exact ha.bounded name ty (hty.of_get?_eq h')

end Stencil.Schema
