/-
  Stencil.Proofs.Program.CallForms
  ────────────────────────────────
  A CALL AND ITS PIPED FORM ARE ONE.

  A function is given its operand before or behind its name: as `f a`, one
  command of two operands, or as `a | f`, two commands of one operand each.
  Both forms resolve the operand first, then look the function up, and then
  ask for the operand's value.  They part only over an operand that is itself
  a function's name, which is no operand at all: there both fail, one because
  a function stands for a value and the other because a function is given
  nothing.

    • `ofPipeline_pipeForm` — the two forms resolve to the same or fail alike,
    • `Respelled`, `respelled_simulation` — pipelines in either form keep
      references in step,
    • `compile_respelled` — so templates compile alike in either form.
-/
import Stencil.Proofs.Program.Simulation
import Stencil.Proofs.Program.TrimMarkers

namespace Stencil

open Schema (Ty)
open Outcome
open Template

/-! ## §1. The two forms of a call. -/

namespace Template

/-- A function with its operand, as one command. -/
def callForm (pos cmdPos : Nat) (declared : Option String) (function : String) (arg : Arg) :
    Pipeline :=
  ⟨pos, declared, [⟨cmdPos, [.function function, arg]⟩]⟩

/-- An operand piped into a function. -/
def pipeForm (pos argPos functionPos : Nat) (declared : Option String) (function : String)
    (arg : Arg) : Pipeline :=
  ⟨pos, declared, [⟨argPos, [arg]⟩, ⟨functionPos, [.function function]⟩]⟩

end Template

namespace Ref

variable {table : Builtins} {current : Ref} {function : String} {arg : Arg}
  {declared : Option String} {pos cmdPos pos' argPos functionPos : Nat}

/-- **Up to offsets the two forms are one,** if the operand is no function. -/
theorem unplace_pipeForm (harg : ∀ name, arg ≠ .function name) :
    unplace (current.ofPipeline table (pipeForm pos' argPos functionPos declared function arg))
      = unplace (current.ofPipeline table (callForm pos cmdPos declared function arg)) := by
  rw [← ofPipeline_erase, ← ofPipeline_erase]
  cases declared with
  | some name => rfl
  | none =>
    cases arg with
    | function name => exact absurd rfl (harg name)
    | dot | field | var | str | number => rfl

/-- Neither form takes a function for an operand. -/
theorem forms_of_function_ne_ok (name : String) (r : Ref) :
    current.ofPipeline table (callForm pos cmdPos declared function (.function name)) ≠ .ok r
      ∧ current.ofPipeline table
          (pipeForm pos' argPos functionPos declared function (.function name)) ≠ .ok r := by
  cases declared with
  | some variable_ => exact ⟨(nomatch ·), (nomatch ·)⟩
  | none =>
    refine ⟨(nomatch ·), fun h => ?_⟩
    -- what is piped is a function of no operand
    obtain ⟨argument, hargument, -⟩ := bind_eq_ok.mp h
    exact arity_ne_ok hargument

/-- **The two forms of a call resolve to the same.** -/
theorem ofPipeline_pipeForm {r : Ref} :
    current.ofPipeline table (pipeForm pos' argPos functionPos declared function arg) = .ok r
      ↔ current.ofPipeline table (callForm pos cmdPos declared function arg) = .ok r := by
  by_cases harg : ∃ name, arg = .function name
  · obtain ⟨name, rfl⟩ := harg
    obtain ⟨hcall, hpipe⟩ := forms_of_function_ne_ok name r
    exact iff_of_false hpipe hcall
  · rw [← unplace_eq_ok, unplace_pipeForm (not_exists.mp harg), unplace_eq_ok]

end Ref

/-! ## §2. Pipelines in either form. -/

/-- Pipelines that are the same up to offsets, or one of which is a call and
the other its piped form. -/
inductive Template.Respelled : Pipeline → Pipeline → Prop
  | same {pipe pipe' : Pipeline} (h : pipe.erase = pipe'.erase) : Respelled pipe pipe'
  | piped (pos cmdPos pos' argPos functionPos : Nat) (declared : Option String)
      (function : String) (arg : Arg) : Respelled (callForm pos cmdPos declared function arg)
        (pipeForm pos' argPos functionPos declared function arg)
  | called (pos argPos functionPos pos' cmdPos : Nat) (declared : Option String)
      (function : String) (arg : Arg) :
      Respelled (pipeForm pos argPos functionPos declared function arg)
        (callForm pos' cmdPos declared function arg)

theorem Template.Respelled.symm {pipe pipe' : Pipeline} (h : Respelled pipe pipe') :
    Respelled pipe' pipe := by
  cases h with
  | same h => exact .same h.symm
  | piped pos cmdPos pos' argPos functionPos declared function arg =>
    exact .called pos' argPos functionPos pos cmdPos declared function arg
  | called pos argPos functionPos pos' cmdPos declared function arg =>
    exact .piped pos' cmdPos pos argPos functionPos declared function arg

/-- A pipeline in another form refers to the same. -/
theorem Ref.ofPipeline_respelled {pipe pipe' : Pipeline} (h : Respelled pipe pipe')
    (table : Builtins) (current : Ref) :
    Matched Eq (current.ofPipeline table pipe) (current.ofPipeline table pipe') := by
  intro r hr
  refine ⟨r, ?_, rfl⟩
  cases h with
  | same h => rw [← unplace_eq_ok, ← ofPipeline_erase, ← h, ofPipeline_erase, unplace_eq_ok, hr]
  | piped => exact ofPipeline_pipeForm.mpr hr
  | called => exact ofPipeline_pipeForm.mp hr

/-- **Other forms of pipelines keep references in step,** and in fact the same. -/
theorem respelled_simulation (table : Builtins) : Simulation table Respelled Eq where
  pipeline := by
    rintro pipe pipe' r _ h rfl
    exact r.ofPipeline_respelled h table
  value := congrArg Ref.value
  test := by
    rintro r _ pos pos' rfl test h
    refine ⟨test, ?_, rfl⟩
    rw [← unplace_eq_ok, ← r.test_unplace, r.test_unplace pos, h, unplace_ok]
  source := by
    rintro r _ pos pos' rfl found h
    refine ⟨found, ?_, rfl, fun _ => rfl⟩
    rw [← unplace_eq_ok, ← r.source_unplace, r.source_unplace pos, h, unplace_ok]

/-! ## §3. Templates in either form. -/

/-- **A call and its piped form are one.**  The two forms resolve to the same
reference; and if they fail, and the operand is no function, then with the same
error but for its offset.  So templates that differ in the forms of their
pipelines, wherever these stand, compile to the same operations or both fail. -/
theorem compile_respelled (table : Builtins) :
    (∀ (current : Ref) (function : String) (arg : Arg) (declared : Option String)
        (pos cmdPos pos' argPos functionPos : Nat),
        (∀ r, current.ofPipeline table (callForm pos cmdPos declared function arg) = .ok r
            ↔ current.ofPipeline table (pipeForm pos' argPos functionPos declared function arg)
              = .ok r)
          ∧ ((∀ name, arg ≠ .function name) →
            unplace (current.ofPipeline table (callForm pos cmdPos declared function arg))
              = unplace (current.ofPipeline table
                  (pipeForm pos' argPos functionPos declared function arg))))
      ∧ ∀ (root : Ty) (nodes nodes' : List Node), SameForm Respelled nodes nodes' →
        (∀ ops, compileOps table root nodes = .ok ops ↔ compileOps table root nodes' = .ok ops)
          ∧ ((∃ e, compileOps table root nodes = .error e)
            ↔ ∃ e, compileOps table root nodes' = .error e) := by
  refine ⟨fun current function arg declared pos cmdPos pos' argPos functionPos =>
    ⟨fun r => Ref.ofPipeline_pipeForm.symm, fun harg => (Ref.unplace_pipeForm harg).symm⟩,
    fun root nodes nodes' h => ?_⟩
  have hiff : ∀ ops, compileOps table root nodes = .ok ops
      ↔ compileOps table root nodes' = .ok ops :=
    fun ops => ⟨compileOps_sameForm (respelled_simulation table) h rfl,
      compileOps_sameForm (respelled_simulation table) (h.symm Respelled.symm) rfl⟩
  refine ⟨hiff, ?_⟩
  rw [exists_error_iff, exists_error_iff]
  exact not_congr (exists_congr hiff)

/-- Every element of an array, converted, and then a number that is converted
if it is not zero. -/
def conversionNodes (conversion : String → Arg → Pipeline) : List Node :=
  [.branch .loop 0 ⟨8, none, [⟨8, [.field ["xs"]]⟩]⟩ 13
      [.action 13 (conversion "toString" .dot)],
    .branch .cond 40 ⟨45, none, [⟨45, [.field ["n"]]⟩]⟩ 49
      [.action 49 (conversion "toHexString" (.field ["n"]))]]

/-- Conversions in a loop and in a condition, called and piped; and one whose
operand is a string, which fails in both forms. -/
theorem compile_respelled_conversions :
    SameForm Respelled (conversionNodes (callForm 15 15 none))
        (conversionNodes (pipeForm 15 15 19 none))
      ∧ compileOps Builtin.standard
          (.record [("xs", .sequence (.scalar "uint8")), ("n", .scalar "uint256")])
          (conversionNodes (pipeForm 15 15 19 none))
        = .ok [.statement "for (uint64 i = 0; i < xs.length; i++) \x7b",
            .group [.value "LibString.toString(xs[i])"],
            .statement "if (i < xs.length - 1) \x7b", .group [.literal ","], .statement "\x7d",
            .statement "\x7d", .statement "if (n != 0) \x7b",
            .group [.value "LibString.toHexString(n)"], .statement "\x7d"]
      ∧ (∀ name, Arg.str "n" ≠ .function name)
      ∧ unplace ((Ref.root (.record [])).ofPipeline Builtin.standard
          (pipeForm 15 15 19 none "toString" (.str "n")))
        = .error (.unsupported .stringArgument 0) := by
  have hform : SameForm Respelled (conversionNodes (callForm 15 15 none))
      (conversionNodes (pipeForm 15 15 19 none)) :=
    .branch .loop 0 0 13 13 (.same rfl) (.action 13 13 (.piped ..) .nil)
      (.branch .cond 40 40 49 49 (.same rfl) (.action 49 49 (.piped ..) .nil) .nil)
  have hstr : ∀ name, Arg.str "n" ≠ .function name := fun _ h => nomatch h
  obtain ⟨hforms, htemplates⟩ := compile_respelled Builtin.standard
  refine ⟨hform, ((htemplates _ _ _ hform).1 _).mp rfl, hstr, ?_⟩
  rw [← (hforms _ "toString" (.str "n") none 15 15 15 15 19).2 hstr]
  rfl

end Stencil
