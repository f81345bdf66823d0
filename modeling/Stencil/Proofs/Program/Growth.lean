/-
  Stencil.Proofs.Program.Growth
  ─────────────────────────────
  PARAMETERS MAY GROW.

  A type is extended by members of new names, in any of its records and at any
  place among the members.  A template asks a type for members by name, for
  its elements, and for what sort of elementary type it is; extending a type
  changes none of these answers.  So a template that compiles against a record
  compiles to the same operations against every extension of it.

  The two runs refer to the same places.  What their references keep in common
  is that the type of the second extends the type of the first.

    • `Ty.Extends` — types with more members,
    • `Ty.Extends.member` — members by name in an extended type,
    • `extends_simulation` — references to extended types are in step,
    • `compileOps_extends` — the operations of a template under an extension.
-/
import Stencil.Proofs.Program.Scope
import Stencil.Proofs.Program.Simulation

namespace Stencil

open Schema (Ty)
open Outcome
open Template

/-! ## §1. Types with more members. -/

namespace Schema

mutual
/-- The second type is the first with members added to any of its records,
under names that are new to the record. -/
inductive Ty.Extends : Ty → Ty → Prop
  | scalar (name : String) : Ty.Extends (.scalar name) (.scalar name)
  | record {members members' : List (String × Ty)} :
      Added (members.map Prod.fst) members members' →
      Ty.Extends (.record members) (.record members')
  | sequence {element element' : Ty} :
      Ty.Extends element element' → Ty.Extends (.sequence element) (.sequence element')
  | fixed {element element' : Ty} (size : Nat) :
      Ty.Extends element element' → Ty.Extends (.fixed element size) (.fixed element' size)

/-- Members in order, with extended types, and others between them whose names
are none of `names`. -/
inductive Added : List String → List (String × Ty) → List (String × Ty) → Prop
  | nil (names : List String) : Added names [] []
  | keep {names : List String} {members members' : List (String × Ty)} {ty ty' : Ty}
      (name : String) : Ty.Extends ty ty' → Added names members members' →
      Added names ((name, ty) :: members) ((name, ty') :: members')
  | add {names : List String} {members members' : List (String × Ty)} {name : String} (ty : Ty) :
      name ∉ names → Added names members members' → Added names members ((name, ty) :: members')
end

/-- A member that was there is found under its name, whatever is added before
it. -/
theorem Added.lookup {name : String} {ty : Ty} : ∀ {names : List String}
    {members members' : List (String × Ty)}, Added names members members' → name ∈ names →
      members.lookup name = some ty → ∃ ty', members'.lookup name = some ty' ∧ ty.Extends ty'
  | _, _, _, .nil _, _, hl => nomatch hl
  | _, _, _, @keep _ _ _ _ ty' name₁ hty hrest, hname, hl => by
      rw [List.lookup_cons] at hl ⊢
      cases hsame : name == name₁ with
      | true =>
        rw [hsame] at hl
        obtain rfl := Option.some.inj hl
        exact ⟨ty', rfl, hty⟩
      | false =>
        rw [hsame] at hl
        exact hrest.lookup hname hl
  | _, _, _, @add _ _ _ name₁ _ hnew hrest, hname, hl => by
      -- the name of an added member is not the one looked for
      have hother : (name == name₁) = false := by
        rw [beq_eq_false_iff_ne]
        rintro rfl
        exact hnew hname
      rw [List.lookup_cons, hother]
      exact hrest.lookup hname hl

namespace Ty.Extends

variable {ty ty' : Ty}

theorem member (h : ty.Extends ty') {name : String} {found : Ty}
    (hm : ty.member? name = some found) :
    ∃ found', ty'.member? name = some found' ∧ found.Extends found' := by
  cases h with
  | record h =>
    exact h.lookup (List.mem_map.mpr ⟨_, Path.mem_of_lookup hm, rfl⟩) hm
  | scalar | sequence | fixed => nomatch hm

/-- The elements of an extended array are extended. -/
theorem element (h : ty.Extends ty') {found : Ty} (he : ty.element? = some found) :
    ∃ found', ty'.element? = some found' ∧ found.Extends found' := by
  cases h with
  | sequence h | fixed _ h =>
    obtain rfl := Option.some.inj he
    exact ⟨_, rfl, h⟩
  | scalar | record => nomatch he

/-- Elementary types have no extensions but themselves, so that numbers and
truth values stay what they are. -/
theorem sorts (h : ty.Extends ty') : ty'.isNumeric = ty.isNumeric ∧ ty'.isBool = ty.isBool
    ∧ ty'.element?.isSome = ty.element?.isSome := by
  cases h with
  | scalar | record | sequence | fixed => exact ⟨rfl, rfl, rfl⟩

end Ty.Extends

end Schema

/-! ## §2. References to extended types. -/

namespace Ref

/-- The same place, of a type and of its extension; or the same result. -/
inductive Extends : Ref → Ref → Prop
  | place {ty ty' : Ty} (path : Path) : ty.Extends ty' → Extends (.place ty path) (.place ty' path)
  | result (function : Builtin) (argument : Value) :
      Extends (.result function argument) (.result function argument)

namespace Extends

variable {r r' : Ref}

theorem value_eq (h : r.Extends r') : r.value = r'.value := by
  cases h with
  | place | result => rfl

/-- A member that can be selected can be selected from the extension. -/
theorem select (h : r.Extends r') (name : String) (pos : Nat) :
    Matched Extends (r.select name pos) (r'.select name pos) := by
  intro found hfound
  cases h with
  | place path hty =>
    obtain ⟨ty, hm, rfl⟩ := select_eq_ok.mp hfound
    obtain ⟨ty', hm', hty'⟩ := hty.member hm
    exact ⟨_, select_eq_ok.mpr ⟨ty', hm', rfl⟩, .place _ hty'⟩
  | result => nomatch hfound

theorem ofArg (h : r.Extends r') (arg : Arg) (pos : Nat) :
    Matched Extends (r.ofArg arg pos) (r'.ofArg arg pos) := by
  cases arg with
  | dot => exact .ok h
  | field names => exact .foldlM (fun name r r' h => h.select name pos) names h
  | function | var | str | number => exact .error _ _

theorem call (h : r.Extends r') (table : Builtins) (name : String) (pos : Nat) :
    Matched Extends (Ref.call table name r pos) (Ref.call table name r' pos) := by
  unfold Ref.call findFunction
  cases table.get? name with
  | none => exact .error _ _
  | some f =>
    refine (checkedValue_matched h.value_eq pos pos).bind_same fun value => ?_
    exact .ok (.result f value)

theorem ofCommand (h : r.Extends r') (table : Builtins) (cmd : Command) :
    Matched Extends (r.ofCommand table cmd) (r'.ofCommand table cmd) := by
  unfold Ref.ofCommand
  split
  next name arg _ => exact (h.ofArg arg cmd.pos).bind fun s s' hs => hs.call table name cmd.pos
  next => exact fun s hs => absurd hs arity_ne_ok
  next arg _ _ => exact h.ofArg arg cmd.pos
  next => exact .error _ _

/-- **A pipeline refers to the same place of an extended type.** -/
theorem ofPipeline (h : r.Extends r') (table : Builtins) (pipe : Pipeline) :
    Matched Extends (r.ofPipeline table pipe) (r'.ofPipeline table pipe) := by
  unfold Ref.ofPipeline
  split
  next => exact .error _ _
  next =>
    split
    next cmd _ => exact h.ofCommand table cmd
    next first last _ =>
      refine (h.ofCommand table first).bind fun s s' hs => ?_
      split
      next name _ => exact hs.call table name last.pos
      next => exact .error _ _
    next => exact .error _ _

/-- Extended types are tested as the types they extend. -/
theorem test (h : r.Extends r') (pos pos' : Nat) : Matched Eq (r.test pos) (r'.test pos') := by
  cases h with
  | result => exact .error _ _
  | place path hty =>
    obtain ⟨hnumeric, hbool, helement⟩ := hty.sorts
    unfold Ref.test
    dsimp only
    rw [hnumeric, hbool, helement]
    split
    next => exact .ok rfl
    next =>
      split
      next => exact .ok rfl
      next =>
        split
        next => exact .ok rfl
        next => exact .error _ _

/-- A loop runs over the same array, and its elements are extended. -/
theorem source (h : r.Extends r') (pos pos' : Nat) :
    Matched (fun found found' => found.1 = found'.1
      ∧ ∀ path, Extends (.place found.2 path) (.place found'.2 path))
      (r.source pos) (r'.source pos') := by
  cases h with
  | result => exact .error _ _
  | @place ty ty' path hty =>
    unfold Ref.source
    dsimp only
    cases he : ty.element? with
    | none => exact .error _ _
    | some element =>
      obtain ⟨element', he', helement⟩ := hty.element he
      rw [he']
      exact .ok ⟨rfl, fun path => .place path helement⟩

end Extends

end Ref

/-- **References to extended types are in step.** -/
theorem extends_simulation (table : Builtins) : Simulation table Eq Ref.Extends where
  pipeline := by
    rintro pipe _ r r' rfl h
    exact h.ofPipeline table pipe
  value := Ref.Extends.value_eq
  test pos pos' h := h.test pos pos'
  source pos pos' h := h.source pos pos'

/-! ## §3. Templates against extended parameters. -/

/-- **Parameters may grow.**  If members of new names are added to a record, or
to any record inside of it, at any place among the members, then every template
that compiled against it compiles to the same operations. -/
theorem compileOps_extends {root root' : Ty} (h : root.Extends root') (table : Builtins)
    (nodes : List Node) {ops : List Op} (hops : compileOps table root nodes = .ok ops) :
    compileOps table root' nodes = .ok ops :=
  compileOps_sameForm (extends_simulation table) (.refl (fun _ => rfl) nodes) (.place .root h) hops

/-- The numbers of an array of records. -/
def numbersNodes : List Node :=
  [.branch .loop 0 ⟨8, none, [⟨8, [.field ["xs"]]⟩]⟩ 13
    [.action 13 ⟨15, none, [⟨15, [.field ["n"]]⟩]⟩]]

/-- Members are added before and behind the array, and before the number in its
elements. -/
theorem compileOps_extends_numbers :
    (Ty.record [("xs", .sequence (.record [("n", .scalar "uint8")]))]).Extends
        (.record [("id", .scalar "string"),
          ("xs", .sequence (.record [("xs", .scalar "bool"), ("n", .scalar "uint8")])),
          ("n", .scalar "bool")])
      ∧ compileOps Builtin.standard
          (.record [("id", .scalar "string"),
            ("xs", .sequence (.record [("xs", .scalar "bool"), ("n", .scalar "uint8")])),
            ("n", .scalar "bool")]) numbersNodes
        = .ok [.statement "for (uint64 i = 0; i < xs.length; i++) \x7b",
            .group [.value "xs[i].n"], .statement "if (i < xs.length - 1) \x7b",
            .group [.literal ","], .statement "\x7d", .statement "\x7d"] := by
  have helement : (Ty.record [("n", .scalar "uint8")]).Extends
      (.record [("xs", .scalar "bool"), ("n", .scalar "uint8")]) :=
    .record (.add _ (by decide) (.keep "n" (.scalar "uint8") (.nil _)))
  have hroot : (Ty.record [("xs", .sequence (.record [("n", .scalar "uint8")]))]).Extends
      (.record [("id", .scalar "string"),
        ("xs", .sequence (.record [("xs", .scalar "bool"), ("n", .scalar "uint8")])),
        ("n", .scalar "bool")]) :=
    .record (.add _ (by decide) (.keep "xs" (.sequence helement) (.add _ (by decide) (.nil _))))
  exact ⟨hroot, compileOps_extends hroot Builtin.standard numbersNodes rfl⟩

end Stencil
