/-
  Stencil.Proofs.Program.Simulation
  ─────────────────────────────────
  TEMPLATES THAT COMPILE ALIKE.

  Two templates of one form may differ in where their nodes stand and in their
  pipelines, and they may be compiled against different parameter records.
  They compile to the same program if their references are kept in step: if
  two pipelines at one place refer to related things, and related things are
  written alike, tested alike and have related elements.

    • `SameForm` — templates of one form,
    • `Simulation` — what a relation of references has to keep,
    • `compileNodes_sameForm` — where one of them compiles, so does the other,
    • `compileOps_sameForm` — the same for the operations of whole templates.
-/
import Stencil.Proofs.Program.Emission

namespace Stencil

open Schema (Ty)
open Outcome
open Template

/-! ## §1. Templates of one form. -/

/-- Nodes that differ at most in their offsets and in their pipelines, which
are related by `P`. -/
inductive Template.SameForm (P : Pipeline → Pipeline → Prop) : List Node → List Node → Prop
  | nil : SameForm P [] []
  | text {nodes nodes' : List Node} (pos pos' : Nat) (content : String) :
      SameForm P nodes nodes' →
      SameForm P (.text pos content :: nodes) (.text pos' content :: nodes')
  | action {pipe pipe' : Pipeline} {nodes nodes' : List Node} (pos pos' : Nat) :
      P pipe pipe' → SameForm P nodes nodes' →
      SameForm P (.action pos pipe :: nodes) (.action pos' pipe' :: nodes')
  | branch {pipe pipe' : Pipeline} {body body' nodes nodes' : List Node} (kind : BranchKind)
      (pos pos' bodyPos bodyPos' : Nat) : P pipe pipe' → SameForm P body body' →
      SameForm P nodes nodes' → SameForm P (.branch kind pos pipe bodyPos body :: nodes)
        (.branch kind pos' pipe' bodyPos' body' :: nodes')
  | branchElse {pipe pipe' : Pipeline} {body body' elseBody elseBody' nodes nodes' : List Node}
      (kind : BranchKind) (pos pos' bodyPos bodyPos' elsePos elsePos' : Nat) : P pipe pipe' →
      SameForm P body body' → SameForm P elseBody elseBody' → SameForm P nodes nodes' →
      SameForm P (.branchElse kind pos pipe bodyPos body elsePos elseBody :: nodes)
        (.branchElse kind pos' pipe' bodyPos' body' elsePos' elseBody' :: nodes')
  | group {list list' nodes nodes' : List Node} (pos pos' : Nat) : SameForm P list list' →
      SameForm P nodes nodes' → SameForm P (.group pos list :: nodes) (.group pos' list' :: nodes')
  | jump {nodes nodes' : List Node} (kind : JumpKind) (pos pos' : Nat) : SameForm P nodes nodes' →
      SameForm P (.jump kind pos :: nodes) (.jump kind pos' :: nodes')
  | invoke {nodes nodes' : List Node} (pos pos' : Nat) (name : String) : SameForm P nodes nodes' →
      SameForm P (.invoke pos name :: nodes) (.invoke pos' name :: nodes')

namespace Template.SameForm

variable {P : Pipeline → Pipeline → Prop}

theorem symm (hP : ∀ {pipe pipe'}, P pipe pipe' → P pipe' pipe) {nodes nodes' : List Node}
    (h : SameForm P nodes nodes') : SameForm P nodes' nodes := by
  induction h with
  | nil => exact .nil
  | text pos pos' content _ ih => exact .text pos' pos content ih
  | action pos pos' hpipe _ ih => exact .action pos' pos (hP hpipe) ih
  | branch kind pos pos' bodyPos bodyPos' hpipe _ _ ihbody ih =>
    exact .branch kind pos' pos bodyPos' bodyPos (hP hpipe) ihbody ih
  | branchElse kind pos pos' bodyPos bodyPos' elsePos elsePos' hpipe _ _ _ ihbody ihelse ih =>
    exact .branchElse kind pos' pos bodyPos' bodyPos elsePos' elsePos (hP hpipe) ihbody ihelse ih
  | group pos pos' _ _ ihlist ih => exact .group pos' pos ihlist ih
  | jump kind pos pos' _ ih => exact .jump kind pos' pos ih
  | invoke pos pos' name _ ih => exact .invoke pos' pos name ih

theorem refl (hP : ∀ pipe, P pipe pipe) : ∀ nodes : List Node, SameForm P nodes nodes
  | [] => .nil
  | .text pos content :: nodes => .text pos pos content (refl hP nodes)
  | .action pos pipe :: nodes => .action pos pos (hP pipe) (refl hP nodes)
  | .branch kind pos pipe bodyPos body :: nodes =>
      .branch kind pos pos bodyPos bodyPos (hP pipe) (refl hP body) (refl hP nodes)
  | .branchElse kind pos pipe bodyPos body elsePos elseBody :: nodes =>
      .branchElse kind pos pos bodyPos bodyPos elsePos elsePos (hP pipe) (refl hP body)
        (refl hP elseBody) (refl hP nodes)
  | .group pos list :: nodes => .group pos pos (refl hP list) (refl hP nodes)
  | .jump kind pos :: nodes => .jump kind pos pos (refl hP nodes)
  | .invoke pos name :: nodes => .invoke pos pos name (refl hP nodes)

end Template.SameForm

/-! ## §2. References in step. -/

/-- What a relation of references has to keep when pipelines related by `P`
stand at one place. -/
structure Simulation (table : Builtins) (P : Pipeline → Pipeline → Prop)
    (R : Ref → Ref → Prop) : Prop where
  /-- Pipelines refer to related things. -/
  pipeline : ∀ {pipe pipe' : Pipeline} {r r' : Ref}, P pipe pipe' → R r r' →
    Matched R (r.ofPipeline table pipe) (r'.ofPipeline table pipe')
  /-- Related things are spelled alike. -/
  value : ∀ {r r' : Ref}, R r r' → r.value = r'.value
  /-- They are tested alike. -/
  test : ∀ {r r' : Ref} (pos pos' : Nat), R r r' → Matched Eq (r.test pos) (r'.test pos')
  /-- They are looped over alike, and have related elements. -/
  source : ∀ {r r' : Ref} (pos pos' : Nat), R r r' →
    Matched (fun found found' => found.1 = found'.1
      ∧ ∀ path, R (.place found.2 path) (.place found'.2 path)) (r.source pos) (r'.source pos')

theorem Ref.checkedValue_matched {r r' : Ref} (h : r.value = r'.value) (pos pos' : Nat) :
    Matched Eq (r.checkedValue pos) (r'.checkedValue pos') := by
  unfold checkedValue Ref.text
  rw [h]
  split
  next => exact .error _ _
  next => exact .ok rfl

section
variable {table : Builtins} {P : Pipeline → Pipeline → Prop} {R : Ref → Ref → Prop}
  {depth : Nat} {r r' : Ref}

theorem compileNodes_cons_matched {node node' : Node} {nodes nodes' : List Node}
    (hnode : Matched Eq (compileNode table depth r node) (compileNode table depth r' node'))
    (hnodes : Matched Eq (compileNodes table depth r nodes) (compileNodes table depth r' nodes')) :
    Matched Eq (compileNodes table depth r (node :: nodes))
      (compileNodes table depth r' (node' :: nodes')) := by
  rw [compileNodes, compileNodes]
  refine hnode.bind_same fun first => ?_
  refine hnodes.bind_same fun rest => ?_
  exact .ok rfl

/-- **Templates of one form compile alike** where their references are in
step: if one of them compiles, the other has the same program. -/
theorem compileNodes_sameForm (sim : Simulation table P R) {nodes nodes' : List Node}
    (h : SameForm P nodes nodes') : ∀ {depth : Nat} {r r' : Ref}, R r r' →
    Matched Eq (compileNodes table depth r nodes) (compileNodes table depth r' nodes') := by
  -- by induction on the form, for all depths and references at once: a loop's
  -- body is compiled one level deeper, against the element
  induction h with
  | nil =>
    intro depth r r' _
    rw [compileNodes, compileNodes]
    exact .ok rfl
  | text pos pos' content _ ih =>
    intro depth r r' hr
    refine compileNodes_cons_matched ?_ (ih hr)
    rw [compileNode, compileNode]
    exact .ok rfl
  | action pos pos' hpipe _ ih =>
    intro depth r r' hr
    refine compileNodes_cons_matched ?_ (ih hr)
    rw [compileNode, compileNode]
    refine (sim.pipeline hpipe hr).bind fun s s' hs => ?_
    refine (Ref.checkedValue_matched (sim.value hs) _ _).bind_same fun value => ?_
    exact .ok rfl
  | branch kind pos pos' bodyPos bodyPos' hpipe _ _ ihbody ih =>
    intro depth r r' hr
    refine compileNodes_cons_matched ?_ (ih hr)
    rw [compileNode.eq_def, compileNode.eq_def]
    cases kind with
    | cond =>
      refine (sim.pipeline hpipe hr).bind fun s s' hs => ?_
      refine (sim.test pos pos' hs).bind_same fun test => ?_
      refine (ihbody hr).bind_same fun body => ?_
      exact .ok rfl
    | loop =>
      refine (sim.pipeline hpipe hr).bind fun s s' hs => ?_
      -- the body stands inside of the elements, not of what the loop stands in
      refine (sim.source pos pos' hs).bind ?_
      rintro ⟨path, element⟩ ⟨_, element'⟩ ⟨rfl, helement⟩
      refine (ihbody (helement _)).bind_same fun body => ?_
      exact .ok rfl
    | scope => exact .error _ _
  | branchElse kind pos pos' bodyPos bodyPos' elsePos elsePos' hpipe _ _ _ ihbody ihelse ih =>
    intro depth r r' hr
    refine compileNodes_cons_matched ?_ (ih hr)
    rw [compileNode.eq_def, compileNode.eq_def]
    cases kind with
    | cond =>
      refine (sim.pipeline hpipe hr).bind fun s s' hs => ?_
      refine (sim.test pos pos' hs).bind_same fun test => ?_
      refine (ihbody hr).bind_same fun body => ?_
      refine (ihelse hr).bind_same fun other => ?_
      exact .ok rfl
    | loop => exact .error _ _
    | scope => exact .error _ _
  | group pos pos' _ _ ihlist ih =>
    intro depth r r' hr
    refine compileNodes_cons_matched ?_ (ih hr)
    rw [compileNode, compileNode]
    exact ihlist hr
  | jump kind pos pos' _ ih =>
    intro depth r r' hr
    refine compileNodes_cons_matched ?_ (ih hr)
    rw [compileNode]
    exact .error _ _
  | invoke pos pos' name _ ih =>
    intro depth r r' hr
    refine compileNodes_cons_matched ?_ (ih hr)
    rw [compileNode]
    exact .error _ _

/-- **If a template compiles, one of its form compiles to the same operations,**
where their references are in step from the parameter records on. -/
theorem compileOps_sameForm (sim : Simulation table P R) {nodes nodes' : List Node}
    (h : SameForm P nodes nodes') {root root' : Ty} (hroot : R (.root root) (.root root'))
    {ops : List Op} (hops : compileOps table root nodes = .ok ops) :
    compileOps table root' nodes' = .ok ops := by
  obtain ⟨p, hp, rfl⟩ := map_eq_ok.mp hops
  exact map_eq_ok.mpr ⟨p, (compileNodes_sameForm sim h hroot).eq_ok hp, rfl⟩

end

end Stencil
