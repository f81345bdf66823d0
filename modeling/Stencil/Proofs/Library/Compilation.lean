/-
  Stencil.Proofs.Library.Compilation
  ──────────────────────────────────
  HOW A LIBRARY COMES ABOUT.

  A configuration compiles in two stages: its types become a registry with
  the structures of its entries, and then every function is compiled against
  both.  The lemmas here take a compiled library apart into these stages, so
  that what holds of every compiled function holds of every function of a
  library.

    • `mapM_eq_ok` — a list of steps succeeds if each step does,
    • `compile_eq_ok` — all that compiling a configuration can have done,
    • `mem_functions` — every function of a library was compiled on its own,
    • `compile_bag` — a small configuration, and the library it compiles to.
-/
import Stencil.Proofs.Program.Safety

namespace Stencil

open Schema (Ty Registry)
open Outcome

/-- A list of steps that succeeds has a result for each of its items. -/
theorem Outcome.mapM_eq_ok {ε α β : Type} {f : α → Except ε β} :
    ∀ {xs : List α} {ys : List β}, xs.mapM f = .ok ys →
      List.Forall₂ (fun x y => f x = .ok y) xs ys
  | [], ys, h => by
      obtain rfl : [] = ys := by simpa using h
      exact .nil
  | x :: xs, ys, h => by
      rw [List.mapM_cons] at h
      obtain ⟨y, hy, h⟩ := bind_eq_ok.mp h
      obtain ⟨rest, hrest, h⟩ := bind_eq_ok.mp h
      obtain rfl : y :: rest = ys := by simpa using h
      exact .cons hy (mapM_eq_ok hrest)

/-- A unit succeeds if its function does, with the same result. -/
theorem compileUnit_eq_ok {table : Builtins} {registry : Registry} {declarations : Declarations}
    {entry : String × FunctionDef} {result : Option Function} :
    compileUnit table registry declarations entry = .ok result
      ↔ compileFunction table registry declarations entry.1 entry.2 = .ok result :=
  mapError_eq_ok

/-- All that compiling a configuration can have done. -/
theorem Config.compile_eq_ok {config : Config} {table : Builtins} {library : Library}
    (h : config.compile table = .ok library) :
    ∃ registry results, config.registry = .ok registry
      ∧ List.Forall₂
          (fun entry result => compileFunction table registry (config.declarations registry)
            entry.1 entry.2 = .ok result)
          config.functions.entries results
      ∧ library = ⟨config.contractName, (config.declarations registry).list,
          results.filterMap id⟩ := by
  unfold Config.compile at h
  split at h
  next => simp at h
  next registry hregistry =>
    obtain ⟨functions, hfunctions, rfl⟩ := map_eq_ok.mp h
    unfold Config.compileFunctions at hfunctions
    obtain ⟨results, hresults, rfl⟩ := map_eq_ok.mp hfunctions
    refine ⟨registry, results, hregistry, ?_, rfl⟩
    exact (mapM_eq_ok hresults).imp fun _ _ h => compileUnit_eq_ok.mp h

/-- What is related to a member on the right is a member on the left. -/
theorem exists_of_forall₂_mem {α β : Type} {R : α → β → Prop} {xs : List α} {ys : List β}
    (h : List.Forall₂ R xs ys) {y : β} (hy : y ∈ ys) : ∃ x ∈ xs, R x y := by
  induction h with
  | nil => simp at hy
  | @cons x y' xs ys hxy _ ih =>
    rcases List.mem_cons.mp hy with rfl | hy
    · exact ⟨x, List.mem_cons_self, hxy⟩
    · obtain ⟨x', hx', hR⟩ := ih hy
      exact ⟨x', List.mem_cons_of_mem _ hx', hR⟩

/-- **Every function of a library was compiled on its own,** from an entry of
the configuration. -/
theorem Config.mem_functions {config : Config} {table : Builtins} {library : Library}
    (h : config.compile table = .ok library) {f : Function} (hf : f ∈ library.functions) :
    ∃ registry d, config.registry = .ok registry ∧ (f.name, d) ∈ config.functions.entries
      ∧ compileFunction table registry (config.declarations registry) f.name d
          = .ok (some f) := by
  obtain ⟨registry, results, hregistry, hresults, rfl⟩ := Config.compile_eq_ok h
  obtain ⟨result, hresult, rfl⟩ := List.mem_filterMap.mp hf
  obtain ⟨⟨name, d⟩, hentry, hcompile⟩ := exists_of_forall₂_mem hresults hresult
  -- a compiled function carries the name of its entry
  obtain ⟨types, tree, program, -, -, -, rfl⟩ := compileFunction_eq_ok hcompile
  exact ⟨registry, d, hregistry, hentry, hcompile⟩

/-! ## A small library. -/

/-- One record with a truth value and numbers, and a function that writes the
numbers if the truth value holds. -/
def bagConfig : Config :=
  { contractName := "Enc"
    structs := ⟨[("Bag", ⟨"record(bool open, uint8[] xs)"⟩)], by decide⟩
    functions := ⟨[("encodeBag",
      ⟨"\x7b\x7bif .obj0.open\x7d\x7d\x7b\x7brange .obj0.xs\x7d\x7d\x7b\x7btoString .\x7d\x7d\x7b\x7bend\x7d\x7d\x7b\x7bend\x7d\x7d",
        ["Bag"]⟩)], by decide⟩ }

/-- The type of its record. -/
def bagType : Ty :=
  .record [("open", .scalar "bool"), ("xs", .sequence (.scalar "uint8"))]

/-- The tree of its template. -/
def bagTree : List Template.Node :=
  [.branch .cond 0 ⟨5, none, [⟨5, [.field ["obj0", "open"]]⟩]⟩ 17
    [.branch .loop 17 ⟨25, none, [⟨25, [.field ["obj0", "xs"]]⟩]⟩ 35
      [.action 35 ⟨37, none, [⟨37, [.function "toString", .dot]⟩]⟩]]]

/-- The program of its function: a loop in a condition. -/
def bagOps : List Op :=
  [.statement "if (obj0.open) \x7b",
    .statement "for (uint64 i = 0; i < obj0.xs.length; i++) \x7b",
    .group [.value "LibString.toString(obj0.xs[i])"],
    .statement "if (i < obj0.xs.length - 1) \x7b",
    .group [.literal ","],
    .statement "\x7d",
    .statement "\x7d",
    .statement "\x7d"]

/-- What it compiles to. -/
def bagLibrary : Library :=
  { contractName := "Enc"
    structs := [⟨"Bag", [("open", "bool"), ("xs", "uint8[]")]⟩]
    functions := [⟨"encodeBag", [⟨"Bag", some "memory", "obj0"⟩], bagOps⟩] }

theorem registry_bag : bagConfig.registry = .ok ⟨⟨[("Bag", bagType)], by decide⟩⟩ := by
  have hread : Schema.TypeExpr.read "record(bool open, uint8[] xs)"
      = .ok (.record [("open", .scalar "bool"), ("xs", .sequence (.scalar "uint8"))]) := by cbv
  have hname : Schema.checkName "Bag" = .ok () := rfl
  -- the type refers to no other, so building it is one step
  have hbuild : Registry.build bagConfig.sources [] "Bag" .empty
      = .ok ⟨Registry.empty.types.put "Bag" bagType⟩ :=
    Registry.build_of_defines (by decide) (by decide)
      ⟨_, rfl, Schema.read_eq_ok_iff.mp hread⟩ rfl rfl (by decide)
  show (["Bag"].foldlM (fun r name => do
    Schema.checkName name
    Registry.build bagConfig.sources [] name r) Registry.empty) = _
  rw [List.foldlM_cons, hname, ok_bind, hbuild]
  rfl

theorem compile_bag : bagConfig.compile Builtin.standard = .ok bagLibrary := by
  have hparse : Template.parse
      "\x7b\x7bif .obj0.open\x7d\x7d\x7b\x7brange .obj0.xs\x7d\x7d\x7b\x7btoString .\x7d\x7d\x7b\x7bend\x7d\x7d\x7b\x7bend\x7d\x7d"
      = .ok ⟨0, bagTree⟩ := by
    unfold bagTree
    cbv
  unfold Config.compile
  rw [registry_bag]
  unfold Config.compileFunctions bagConfig
  simp only [List.mapM_cons, compileUnit, compileFunction, hparse, ok_bind]
  rfl

end Stencil
