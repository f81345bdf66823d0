/-
  Stencil.Proofs.Program.Safety
  ─────────────────────────────
  SAFETY OF THE OPERATIONS OF A COMPILED FUNCTION.

  The operations are read one after the other, and the blocks open at each of
  them are known from those before it (`openBlocks`).  At every operation,
  every path leads through the types of the parameters, every index belongs
  to a loop that is open there and runs over exactly the array indexed, tests
  are put to values of their type, and a new loop takes a variable that
  nothing around it has.

    • `Steps` — a stretch of instructions, each safe where it stands,
    • `Stmt.Scoped.steps` — a statement in scope is such a stretch,
    • `compileFunction_safe` — so are the operations of every function.

  The whole of Mathlib is imported for `cbv`, which evaluates the examples
  with equations that are spread over it.
-/
import Mathlib
import Stencil.Proofs.Program.Scope
import Stencil.Proofs.Schema.Build

namespace Stencil

open Text (isIdentifier)
open Schema (Ty Registry)
open Outcome

/-! ## §1. Open blocks. -/

/-- A block that is open. -/
inductive OpenBlock where
  /-- The first part of a condition. -/
  | branch
  /-- The other part of a condition. -/
  | other
  /-- A loop. -/
  | loop (i : String) (source : Path)
  deriving DecidableEq

/-- The loops among open blocks. -/
def loopsOf : List OpenBlock → Loops
  | [] => []
  | .loop i source :: blocks => (i, source) :: loopsOf blocks
  | .branch :: blocks | .other :: blocks => loopsOf blocks

/-- The blocks open after an instruction, innermost first. -/
def Instr.after : Instr → List OpenBlock → Option (List OpenBlock)
  | append _, blocks => some blocks
  | opens _, blocks => some (.branch :: blocks)
  | loop i source, blocks => some (.loop i source :: blocks)
  | otherwise, .branch :: blocks => some (.other :: blocks)
  | otherwise, _ => none
  | close, _ :: blocks => some blocks
  | close, [] => none

/-- The blocks open after operations, read from their text. -/
def openBlocks (blocks : List OpenBlock) : List Op → Option (List OpenBlock)
  | [] => some blocks
  | op :: ops => op.instr?.bind fun instr => (instr.after blocks).bind (openBlocks · ops)

/-! ## §2. Safe operations. -/

/-- What an instruction must satisfy inside loops. -/
def Instr.Safe (table : Builtins) (types : List Ty) (calls : Nat) (loops : Loops) : Instr → Prop
  | append fragments =>
      ∀ text, Fragment.value text ∈ fragments → ValueText table types loops calls text
  | opens (.test t) => t.Scoped types loops
  | opens (.more i source) => (i, source) ∈ loops ∧ source.IsArray types loops
  | loop i source => source.IsArray types loops ∧ FreshVariable loops i
  | otherwise | close => True

/-- The operation can be read and is safe after those before it. -/
def SafeAfter (table : Builtins) (types : List Ty) (calls : Nat) (before : List Op) (op : Op) :
    Prop :=
  ∃ blocks instr, openBlocks [] before = some blocks ∧ op.instr? = some instr
    ∧ instr.Safe table types calls (loopsOf blocks)

/-- A stretch of instructions, each spelled and safe where it stands, and the
blocks open before and after it. -/
inductive Steps (table : Builtins) (types : List Ty) (calls : Nat) :
    List OpenBlock → List Instr → List OpenBlock → Prop
  /-- Nothing. -/
  | nil (blocks : List OpenBlock) : Steps table types calls blocks [] blocks
  /-- One instruction and what follows it. -/
  | cons {blocks next last : List OpenBlock} {instr : Instr} {instrs : List Instr}
      (hi : instr.Spelled) (hs : instr.Safe table types calls (loopsOf blocks))
      (ha : instr.after blocks = some next) (h : Steps table types calls next instrs last) :
      Steps table types calls blocks (instr :: instrs) last

section

variable {table : Builtins} {types : List Ty} {calls : Nat}

theorem Steps.append {blocks next last : List OpenBlock} {instrs more : List Instr}
    (h : Steps table types calls blocks instrs next)
    (h' : Steps table types calls next more last) :
    Steps table types calls blocks (instrs ++ more) last := by
  induction h with
  | nil => exact h'
  | cons hi hs ha _ ih => exact .cons hi hs ha (ih h')

theorem Steps.spelled {blocks last : List OpenBlock} {instrs : List Instr}
    (h : Steps table types calls blocks instrs last) : ∀ instr ∈ instrs, instr.Spelled := by
  induction h with
  | nil => simp
  | cons hi _ _ _ ih =>
    intro instr hmem
    rcases List.mem_cons.mp hmem with rfl | hmem
    · exact hi
    · exact ih instr hmem

/-- The blocks open at the end of a stretch are read from its operations. -/
theorem Steps.openBlocks_eq {blocks last : List OpenBlock} {instrs : List Instr}
    (h : Steps table types calls blocks instrs last) :
    openBlocks blocks (instrs.map Instr.op) = some last := by
  induction h with
  | nil => rfl
  | cons hi _ ha _ ih =>
    rw [List.map_cons, openBlocks, Instr.instr?_op hi, Option.bind_some, ha, Option.bind_some, ih]

/-- Where a stretch is cut, the first part is a stretch. -/
theorem Steps.cut : ∀ {before after : List Instr} {blocks last : List OpenBlock} {instr : Instr},
    Steps table types calls blocks (before ++ instr :: after) last →
    ∃ here, Steps table types calls blocks before here ∧ instr.Spelled
      ∧ instr.Safe table types calls (loopsOf here)
  | [], after, blocks, last, instr, h => by
      cases h with
      | cons hi hs _ _ => exact ⟨blocks, .nil blocks, hi, hs⟩
  | first :: before, after, blocks, last, instr, h => by
      cases h with
      | cons hi hs ha h =>
        obtain ⟨here, hbefore, hinstr, hsafe⟩ := Steps.cut h
        exact ⟨here, .cons hi hs ha hbefore, hinstr, hsafe⟩

/-- Every operation of a stretch is safe after those before it. -/
theorem Steps.safe {last : List OpenBlock} {instrs : List Instr} {before after : List Op} {op : Op}
    (h : Steps table types calls [] instrs last)
    (hsplit : instrs.map Instr.op = before ++ op :: after) :
    SafeAfter table types calls before op := by
  -- the operations before come from the instructions before
  obtain ⟨first, rest, rfl, rfl, hrest⟩ := List.map_eq_append_iff.mp hsplit
  obtain ⟨instr, last, rfl, rfl, -⟩ := List.map_eq_cons_iff.mp hrest
  obtain ⟨here, hbefore, hinstr, hsafe⟩ := Steps.cut h
  exact ⟨here, instr, hbefore.openBlocks_eq, Instr.instr?_op hinstr, hsafe⟩

/-! ## §3. Programs in scope are safe. -/

/-- One instruction is a stretch. -/
theorem Steps.one {instr : Instr} {blocks next : List OpenBlock} (hi : instr.Spelled)
    (hs : instr.Safe table types calls (loopsOf blocks)) (ha : instr.after blocks = some next) :
    Steps table types calls blocks [instr] next :=
  .cons hi hs ha (.nil next)

theorem Test.Scoped.spelled {loops : Loops} (hw : ∀ ty ∈ types, ty.WellFormed)
    (hl : ∀ l ∈ loops, isIdentifier l.1 = true) {t : Test} (h : t.Scoped types loops) :
    t.path.Spelled := by
  cases h with
  | nonzero h => exact h.spelled hw hl
  | holds h => exact h.spelled hw hl
  | nonempty h =>
    obtain ⟨ty, element, h, -⟩ := h
    exact h.spelled hw hl

mutual
/-- **A statement in scope is a stretch of safe operations** that closes every
block it opens. -/
theorem Stmt.Scoped.steps (hw : ∀ ty ∈ types, ty.WellFormed) :
    ∀ (s : Stmt) {blocks : List OpenBlock}, s.Scoped table types calls (loopsOf blocks) →
      (∀ l ∈ loopsOf blocks, isIdentifier l.1 = true) →
      Steps table types calls blocks s.instrs blocks
  | .append fragments, blocks, h, _ => by
      refine Steps.one trivial (fun text htext => ?_) rfl
      obtain ⟨fragment, hmem, heq⟩ := List.mem_map.mp htext
      cases fragment with
      | literal => simp [Fragment.map] at heq
      | value v =>
        obtain rfl : v.text = text := by simpa [Fragment.map] using heq
        exact h v hmem
  | .ifThen t body, blocks, ⟨ht, hbody⟩, hl => by
      have hopen : Steps table types calls blocks [.opens (.test t)]
          (.branch :: blocks) := .one (ht.spelled hw hl) ht rfl
      have hinner : Steps table types calls (.branch :: blocks) (instrsOf body)
          (.branch :: blocks) := Program.Scoped.steps hw body hbody hl
      have hclose : Steps table types calls (.branch :: blocks) [.close] blocks :=
        .one trivial trivial rfl
      exact hopen.append (hinner.append hclose)
  | .ifElse t body other, blocks, ⟨ht, hbody, hother⟩, hl => by
      have hopen : Steps table types calls blocks [.opens (.test t)]
          (.branch :: blocks) := .one (ht.spelled hw hl) ht rfl
      have hinner : Steps table types calls (.branch :: blocks) (instrsOf body)
          (.branch :: blocks) := Program.Scoped.steps hw body hbody hl
      have helse : Steps table types calls (.branch :: blocks) [.otherwise]
          (.other :: blocks) := .one trivial trivial rfl
      have houter : Steps table types calls (.other :: blocks) (instrsOf other)
          (.other :: blocks) := Program.Scoped.steps hw other hother hl
      have hclose : Steps table types calls (.other :: blocks) [.close] blocks :=
        .one trivial trivial rfl
      exact hopen.append (hinner.append (helse.append (houter.append hclose)))
  | .each i source body, blocks, ⟨harray, hfresh, hbody⟩, hl => by
      obtain ⟨ty, element, hty, helement⟩ := harray
      have hspelled := hty.spelled hw hl
      -- inside, the new loop is the innermost one in scope
      have hl' : ∀ l ∈ loopsOf (.loop i source :: blocks), isIdentifier l.1 = true := by
        intro l hmem
        rcases List.mem_cons.mp hmem with rfl | hmem
        · exact hfresh.identifier
        · exact hl l hmem
      have hsource : source.IsArray types (loopsOf (.loop i source :: blocks)) :=
        ⟨ty, element, hty.weaken fun l hmem => List.mem_cons_of_mem _ hmem, helement⟩
      have hopen : Steps table types calls blocks [.loop i source]
          (.loop i source :: blocks) :=
        .one ⟨hfresh.identifier, hspelled⟩ ⟨⟨ty, element, hty, helement⟩, hfresh⟩ rfl
      have hinner : Steps table types calls (.loop i source :: blocks) (instrsOf body)
          (.loop i source :: blocks) := Program.Scoped.steps hw body hbody hl'
      -- the separator stands in a block of its own, inside the loop
      have hmore : Steps table types calls (.loop i source :: blocks)
          [.opens (.more i source)]
          (.branch :: .loop i source :: blocks) :=
        .one ⟨hfresh.identifier, hspelled⟩
          ⟨List.mem_cons_self, hsource⟩ rfl
      have hseparator : Steps table types calls (.branch :: .loop i source :: blocks)
          [.append [.literal separator]] (.branch :: .loop i source :: blocks) :=
        .one trivial (fun text htext => by simp at htext) rfl
      have hclose : Steps table types calls (.branch :: .loop i source :: blocks)
          [.close] (.loop i source :: blocks) := .one trivial trivial rfl
      have hend : Steps table types calls (.loop i source :: blocks) [.close]
          blocks := .one trivial trivial rfl
      exact hopen.append (hinner.append (hmore.append (hseparator.append (hclose.append hend))))

/-- The same for statements in order. -/
theorem Program.Scoped.steps (hw : ∀ ty ∈ types, ty.WellFormed) :
    ∀ (p : List Stmt) {blocks : List OpenBlock},
      Program.Scoped table types calls (loopsOf blocks) p →
      (∀ l ∈ loopsOf blocks, isIdentifier l.1 = true) →
      Steps table types calls blocks (instrsOf p) blocks
  | [], blocks, _, _ => .nil blocks
  | s :: rest, _, ⟨hs, hrest⟩, hl =>
      (Stmt.Scoped.steps hw s hs hl).append (Program.Scoped.steps hw rest hrest hl)
end

end

/-! ## §4. Functions. -/

/-- All that compiling a function can have done. -/
theorem compileFunction_eq_ok {table : Builtins} {registry : Registry}
    {declarations : Declarations} {name : String} {d : FunctionDef} {f : Function}
    (h : compileFunction table registry declarations name d = .ok (some f)) :
    ∃ types tree program, inputTypes registry d.inputs = .ok types
      ∧ Template.parse d.template = .ok tree
      ∧ compile table (inputRecord types) tree.nodes = .ok program
      ∧ f = ⟨name, inputParams declarations d.inputs types, program.ops⟩ := by
  unfold compileFunction at h
  split at h
  next => simp at h
  next =>
    obtain ⟨types, htypes, h⟩ := bind_eq_ok.mp h
    obtain ⟨tree, htree, h⟩ := bind_eq_ok.mp h
    obtain ⟨program, hprogram, h⟩ := bind_eq_ok.mp h
    exact ⟨types, tree, program, htypes, htree, hprogram, by simpa using h.symm⟩

/-- The types of inputs are those of the registry, one for each input. -/
theorem inputTypes_eq_ok {registry : Registry} :
    ∀ {inputs : List String} {types : List Ty}, inputTypes registry inputs = .ok types →
      inputs.map registry.get? = types.map some
  | [], types, h => by
      obtain rfl : [] = types := by simpa [inputTypes] using h
      rfl
  | input :: inputs, types, h => by
      unfold inputTypes at h
      rw [List.mapM_cons] at h
      obtain ⟨ty, hty, h⟩ := bind_eq_ok.mp h
      obtain ⟨rest, hrest, h⟩ := bind_eq_ok.mp h
      obtain rfl : ty :: rest = types := by simpa using h
      have hget : registry.get? input = some ty := by
        split at hty
        next ty' hget =>
          obtain rfl : ty' = ty := by simpa using hty
          exact hget
        next => simp at hty
      rw [List.map_cons, List.map_cons, hget, inputTypes_eq_ok hrest]

/-- Input types of a registry are well formed. -/
theorem wellFormed_of_inputTypes {registry : Registry} (hr : registry.Built)
    {inputs : List String} {types : List Ty} (h : inputTypes registry inputs = .ok types) :
    ∀ ty ∈ types, ty.WellFormed := by
  intro ty hty
  have hmem : some ty ∈ inputs.map registry.get? := by
    rw [inputTypes_eq_ok h]
    exact List.mem_map_of_mem hty
  obtain ⟨input, -, hget⟩ := List.mem_map.mp hmem
  exact hr.wellFormed input ty hget

/-- The parameters are named by their numbers. -/
theorem map_name_inputParams (declarations : Declarations) (inputs : List String)
    (types : List Ty) (hlen : inputs.length = types.length) :
    (inputParams declarations inputs types).map Param.name
      = (List.range types.length).map inputName := by
  unfold inputParams
  apply List.ext_getElem
  · simp [hlen]
  · intro n h₁ h₂
    simp

/-- **Every operation of a compiled function is safe:** it can be read from
its text, and where it stands, its paths are typed and indexed by the loops
open there, its tests fit their types, and its variable is new. -/
theorem compileFunction_safe {registry : Registry} (hr : registry.Built)
    {declarations : Declarations} {name : String} {d : FunctionDef} {f : Function}
    (h : compileFunction Builtin.standard registry declarations name d = .ok (some f)) :
    ∃ types, inputTypes registry d.inputs = .ok types
      ∧ f.params.map Param.name = (List.range types.length).map inputName
      ∧ (∀ before op after, f.ops = before ++ op :: after →
          SafeAfter Builtin.standard types 2 before op)
      ∧ openBlocks [] f.ops = some [] := by
  obtain ⟨types, tree, program, htypes, -, hprogram, rfl⟩ := compileFunction_eq_ok h
  have hw := wellFormed_of_inputTypes hr htypes
  -- in scope as a program, hence safe as a stretch of operations
  have hscoped : Program.Scoped Builtin.standard types 2 [] program :=
    compileNodes_scoped hw tree.nodes .root (by simp [Loops.Below]) hprogram
  have hsteps : Steps Builtin.standard types 2 [] (instrsOf program) [] :=
    Program.Scoped.steps hw program hscoped (by simp [loopsOf])
  have hops : program.ops = (instrsOf program).map Instr.op := opsOf_eq program
  have hlen : d.inputs.length = types.length := by
    simpa using congrArg List.length (inputTypes_eq_ok htypes)
  refine ⟨types, htypes, map_name_inputParams _ _ _ hlen, fun before op after hsplit => ?_, ?_⟩
  · exact hsteps.safe (hops.symm.trans hsplit)
  · show openBlocks [] program.ops = some []
    rw [hops, hsteps.openBlocks_eq]

/-- A registry of one type, a sequence of numbers. -/
def numbersRegistry : Registry :=
  ⟨⟨[("Numbers", .sequence (.scalar "uint256"))], by decide⟩⟩

theorem numbersRegistry_built : numbersRegistry.Built := by
  have hread : Schema.TypeExpr.read "uint[]" = .ok (.sequence (.scalar "uint256")) := by cbv
  have hname : Schema.checkName "Numbers" = .ok () := rfl
  have hdefine : Registry.empty.define "Numbers" "uint[]"
      = .ok (numbersRegistry, .sequence (.scalar "uint256")) := by
    rw [Registry.define_eq]
    unfold Registry.checkedType Schema.resolve Schema.complete Schema.TypeExpr.met
    rw [hread, hname]
    rfl
  exact .define .empty hdefine

/-- A loop that writes every number: the value in it is safe inside the loop. -/
theorem compileFunction_safe_numbers :
    SafeAfter Builtin.standard [.sequence (.scalar "uint256")] 2
      [.statement "for (uint64 i = 0; i < obj0.length; i++) \x7b"]
      (.group [.value "LibString.toString(obj0[i])"]) := by
  have hparse : Template.parse "\x7b\x7brange .obj0\x7d\x7d\x7b\x7btoString .\x7d\x7d\x7b\x7bend\x7d\x7d"
      = .ok ⟨0, [.branch .loop 0 ⟨8, none, [⟨8, [.field ["obj0"]]⟩]⟩ 15
          [.action 15 ⟨17, none, [⟨17, [.function "toString", .dot]⟩]⟩]]⟩ := by cbv
  have hcompile : compileFunction Builtin.standard numbersRegistry .empty "list"
      ⟨"\x7b\x7brange .obj0\x7d\x7d\x7b\x7btoString .\x7d\x7d\x7b\x7bend\x7d\x7d", ["Numbers"]⟩
      = .ok (some ⟨"list", [⟨"Numbers", some "memory", "obj0"⟩],
          [.statement "for (uint64 i = 0; i < obj0.length; i++) \x7b",
            .group [.value "LibString.toString(obj0[i])"],
            .statement "if (i < obj0.length - 1) \x7b",
            .group [.literal ","],
            .statement "\x7d",
            .statement "\x7d"]⟩) := by
    unfold compileFunction
    rw [hparse]
    rfl
  obtain ⟨types, htypes, -, hsafe, -⟩ := compileFunction_safe numbersRegistry_built hcompile
  obtain rfl : [.sequence (.scalar "uint256")] = types := Except.ok.inj htypes
  exact hsafe [_] _ _ rfl

/-! ## §5. Two calls. -/

/-- A path has no parenthesis in it. -/
theorem Path.Spelled.no_paren {p : Path} (h : p.Spelled) : '(' ∉ p.text.toList := by
  intro hmem
  exact absurd (h.isPathChar '(' hmem) (by decide)

/-- A registry of one type, a number. -/
def numberRegistry : Registry :=
  ⟨⟨[("Number", .scalar "uint256")], by decide⟩⟩

theorem numberRegistry_built : numberRegistry.Built := by
  have hread : Schema.TypeExpr.read "uint" = .ok (.scalar "uint256") := by cbv
  have hname : Schema.checkName "Number" = .ok () := rfl
  have hdefine : Registry.empty.define "Number" "uint"
      = .ok (numberRegistry, .scalar "uint256") := by
    rw [Registry.define_eq]
    unfold Registry.checkedType Schema.resolve Schema.complete Schema.TypeExpr.met
    rw [hread, hname]
    rfl
  exact .define .empty hdefine

/-- The call of a call is no path with at most one call around it. -/
theorem not_valueText_one :
    ¬ ValueText Builtin.standard [.scalar "uint256"] [] 1
      "LibString.toHexString(LibString.toString(obj0))" := by
  have hw : ∀ ty ∈ [Ty.scalar "uint256"], ty.WellFormed := by
    simp only [List.mem_singleton, forall_eq]
    exact .scalar ⟨"uint", .uint⟩
  -- without calls only a path is left, and paths have no parenthesis
  have hno : ∀ {text : String}, ValueText Builtin.standard [.scalar "uint256"] [] 0 text →
      '(' ∉ text.toList := by
    intro text h
    cases h with
    | path h => exact (h.spelled hw (by simp)).no_paren
  generalize htext : "LibString.toHexString(LibString.toString(obj0))" = text
  intro h
  cases h with
  | path h =>
    refine (h.spelled hw (by simp)).no_paren ?_
    rw [← htext]
    decide
  | @call _ name inner f hf h =>
    have hmem := mem_standardFunctions hf
    have hlist := congrArg String.toList htext
    simp only [Builtin.standardFunctions, List.mem_cons, List.not_mem_nil, or_false] at hmem
    rcases hmem with rfl | rfl
    · simp [Builtin.callOf] at hlist
    -- the outer call fits, but what it is called on is a call again
    · have hinner : "LibString.toString(obj0))".toList = inner.toList ++ [')'] := by
        simpa [Builtin.callOf] using hlist
      have hparen : '(' ∈ inner.toList ++ [')'] := by
        rw [← hinner]
        decide
      exact hno h (by simpa using hparen)

/-- **One call is not enough:** a function with its operand, piped into another
function, compiles to a call of a call. -/
theorem not_compileFunction_safe_one :
    ¬ ∀ (registry : Registry) (declarations : Declarations) (name : String) (d : FunctionDef)
        (f : Function), registry.Built →
        compileFunction Builtin.standard registry declarations name d = .ok (some f) →
        ∃ types, inputTypes registry d.inputs = .ok types
          ∧ ∀ before op after, f.ops = before ++ op :: after →
            SafeAfter Builtin.standard types 1 before op := by
  have hparse : Template.parse "\x7b\x7btoString .obj0 | toHexString\x7d\x7d"
      = .ok ⟨0, [.action 0 ⟨2, none, [⟨2, [.function "toString", .field ["obj0"]]⟩,
          ⟨19, [.function "toHexString"]⟩]⟩]⟩ := by cbv
  have hcompile : compileFunction Builtin.standard numberRegistry .empty "hex"
      ⟨"\x7b\x7btoString .obj0 | toHexString\x7d\x7d", ["Number"]⟩
      = .ok (some ⟨"hex", [⟨"Number", none, "obj0"⟩],
          [.group [.value "LibString.toHexString(LibString.toString(obj0))"]]⟩) := by
    unfold compileFunction
    rw [hparse]
    rfl
  intro hall
  obtain ⟨types, htypes, hsafe⟩ := hall _ _ _ _ _ numberRegistry_built hcompile
  obtain rfl : [.scalar "uint256"] = types := Except.ok.inj htypes
  obtain ⟨blocks, instr, hopen, hread, hinstr⟩ := hsafe [] _ [] rfl
  obtain rfl : [] = blocks := Option.some.inj hopen
  obtain rfl := Option.some.inj hread
  exact not_valueText_one (hinstr _ List.mem_cons_self)

end Stencil
