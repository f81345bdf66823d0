/-
  Stencil.Proofs.Program.Resolution
  ─────────────────────────────────
  WHAT A PIPELINE RESOLVES TO.

  A supported pipeline has a shape that no type or path takes part in: the
  members it selects from the current value, and the functions it then calls.
  From a place, it resolves exactly if the members are there and the
  functions are known.

    • `ofPipeline_eq_ok` — resolution by shape, members and functions,
    • `test_eq_ok`, `source_eq_ok` — a pipeline as a condition, and as the
      source of a loop,
    • `compileNode_action` and its like — all that compiling a node can do.
-/
import Stencil.Program.Compile
import Stencil.Proofs.Outcome

namespace Stencil

open Schema (Ty)
open Template (Arg Command Pipeline)
open Outcome

/-! ## §1. Shapes. -/

namespace Template

/-- The members an operand selects, one after the other. -/
def Arg.chain? : Arg → Option (List String)
  | dot => some []
  | field names => some names
  | function _ | var _ | str _ | number _ => none

/-- What a supported pipeline does with the current value. -/
structure Shape where
  /-- The members it selects, one after the other. -/
  chain : List String
  /-- The functions it then calls, in the order of the calls. -/
  functions : List String
  deriving DecidableEq

/-- An operand, or a function with its operand. -/
def Command.shape? (cmd : Command) : Option Shape :=
  match cmd.args with
  | [.function name, arg] => arg.chain?.map (⟨·, [name]⟩)
  | [arg] => arg.chain?.map (⟨·, []⟩)
  | _ => none

/-- A command, or a command piped into a function. -/
def Pipeline.shape? (pipe : Pipeline) : Option Shape :=
  match pipe.declared, pipe.commands with
  | none, [cmd] => cmd.shape?
  | none, [first, last] =>
      match last.args with
      | [.function name] => first.shape?.map fun s => ⟨s.chain, s.functions ++ [name]⟩
      | _ => none
  | _, _ => none

/-- A command has a shape exactly if it is an operand or a function with its
operand. -/
theorem Command.shape?_eq_some {cmd : Command} {s : Shape} :
    cmd.shape? = some s
      ↔ (∃ pos arg, cmd = ⟨pos, [arg]⟩ ∧ arg.chain? = some s.chain ∧ s.functions = [])
        ∨ ∃ pos name arg, cmd = ⟨pos, [.function name, arg]⟩ ∧ arg.chain? = some s.chain
            ∧ s.functions = [name] := by
  constructor
  · intro h
    obtain ⟨pos, args⟩ := cmd
    unfold Command.shape? at h
    split at h
    next name arg hargs =>
      obtain ⟨chain, hchain, rfl⟩ := Option.map_eq_some_iff.mp h
      exact .inr ⟨pos, name, arg, by rw [← hargs], hchain, rfl⟩
    next arg hargs =>
      obtain ⟨chain, hchain, rfl⟩ := Option.map_eq_some_iff.mp h
      exact .inl ⟨pos, arg, by rw [← hargs], hchain, rfl⟩
    next => simp at h
  · obtain ⟨chain, functions⟩ := s
    rintro (⟨pos, arg, rfl, hchain, hf⟩ | ⟨pos, name, arg, rfl, hchain, hf⟩)
    · obtain rfl : functions = [] := hf
      simp [Command.shape?, hchain]
    · obtain rfl : functions = [name] := hf
      simp [Command.shape?, hchain]

/-- A pipeline has a shape exactly if it declares nothing and is a command, or
a command piped into a function. -/
theorem Pipeline.shape?_eq_some {pipe : Pipeline} {s : Shape} :
    pipe.shape? = some s
      ↔ (∃ pos cmd, pipe = ⟨pos, none, [cmd]⟩ ∧ cmd.shape? = some s)
        ∨ ∃ pos cmd lastPos name t, pipe = ⟨pos, none, [cmd, ⟨lastPos, [.function name]⟩]⟩
            ∧ cmd.shape? = some t ∧ s = ⟨t.chain, t.functions ++ [name]⟩ := by
  constructor
  · intro h
    obtain ⟨pos, declared, commands⟩ := pipe
    unfold Pipeline.shape? at h
    split at h
    next cmd hd hc =>
      obtain rfl : declared = none := hd
      obtain rfl : commands = [cmd] := hc
      exact .inl ⟨pos, cmd, rfl, h⟩
    next cmd last hd hc =>
      obtain rfl : declared = none := hd
      obtain rfl : commands = [cmd, last] := hc
      obtain ⟨lastPos, args⟩ := last
      split at h
      next name hargs =>
        obtain rfl : args = [.function name] := hargs
        obtain ⟨t, ht, rfl⟩ := Option.map_eq_some_iff.mp h
        exact .inr ⟨pos, cmd, lastPos, name, t, rfl, ht, rfl⟩
      next => simp at h
    next => simp at h
  · rintro (⟨pos, cmd, rfl, h⟩ | ⟨pos, cmd, lastPos, name, t, rfl, h, rfl⟩)
    · exact h
    · simp [Pipeline.shape?, h]

/-- A pipeline calls two functions at most. -/
theorem Pipeline.length_functions {pipe : Pipeline} {s : Shape} (h : pipe.shape? = some s) :
    s.functions.length ≤ 2 := by
  have hcmd : ∀ {cmd : Command} {s : Shape}, cmd.shape? = some s → s.functions.length ≤ 1 := by
    intro cmd s h
    rcases Command.shape?_eq_some.mp h with ⟨_, _, _, _, hf⟩ | ⟨_, _, _, _, _, hf⟩
    · simp [hf]
    · simp [hf]
  rcases Pipeline.shape?_eq_some.mp h with ⟨_, _, _, hs⟩ | ⟨_, _, _, _, t, _, ht, rfl⟩
  · have hlen := hcmd hs
    omega
  · have hlen := hcmd ht
    simp only [List.length_append, List.length_singleton]
    omega

end Template

/-- The path to a member of a member of a member. -/
def Path.along (path : Path) (chain : List String) : Path :=
  chain.foldl Path.member path

/-- The type of a member of a member of a member. -/
def Schema.Ty.along? (ty : Ty) : List String → Option Ty
  | [] => some ty
  | name :: chain => (ty.member? name).bind (·.along? chain)

namespace Ref

/-- A reference given to functions, one after the other. -/
def pass? (table : Builtins) : List String → Ref → Option Ref
  | [], r => some r
  | name :: names, r =>
      (table.get? name).bind fun f =>
        if r.text = "" then none else pass? table names (.result f r.value)

/-! ## §2. Members. -/

theorem select_eq_ok {ty : Ty} {path : Path} {name : String} {pos : Nat} {r : Ref} :
    (place ty path).select name pos = .ok r
      ↔ ∃ ty', ty.member? name = some ty' ∧ r = place ty' (path.member name) := by
  cases ty with
  | record members =>
    simp only [select, Ty.member?]
    cases hl : members.lookup name with
    | none => simp
    | some ty' => simp [eq_comm]
  | scalar | sequence | fixed => simp [select, Ty.member?]

/-- A chain of members resolves exactly if every type on the way has its
member. -/
theorem selectAll_eq_ok {pos : Nat} {r : Ref} :
    ∀ {chain : List String} {ty : Ty} {path : Path},
      (place ty path).selectAll chain pos = .ok r
        ↔ ∃ ty', ty.along? chain = some ty' ∧ r = place ty' (path.along chain)
  -- type and path are followed together, one member at a time
  | [], ty, path => by simp [selectAll, Ty.along?, Path.along, eq_comm]
  | name :: chain, ty, path => by
      have ih := fun ty' => @selectAll_eq_ok pos r chain ty' (path.member name)
      unfold selectAll at ih ⊢
      rw [List.foldlM_cons, bind_eq_ok]
      constructor
      · rintro ⟨r₁, h₁, h⟩
        obtain ⟨ty₁, hty₁, rfl⟩ := select_eq_ok.mp h₁
        obtain ⟨ty', hty', rfl⟩ := (ih ty₁).mp h
        exact ⟨ty', by rw [Ty.along?, hty₁]; exact hty', rfl⟩
      · rintro ⟨ty', hty', rfl⟩
        obtain ⟨ty₁, hty₁, hrest⟩ := Option.bind_eq_some_iff.mp hty'
        exact ⟨place ty₁ (path.member name), select_eq_ok.mpr ⟨ty₁, hty₁, rfl⟩,
          (ih ty₁).mpr ⟨ty', hrest, rfl⟩⟩

theorem ofArg_eq_ok {current : Ref} {arg : Arg} {pos : Nat} {r : Ref} :
    current.ofArg arg pos = .ok r
      ↔ ∃ chain, arg.chain? = some chain ∧ current.selectAll chain pos = .ok r := by
  cases arg with
  | dot => simp [ofArg, Arg.chain?, selectAll]
  | field names => simp [ofArg, Arg.chain?]
  | function | var | str | number => simp [ofArg, Arg.chain?]

/-! ## §3. Functions. -/

theorem checkedValue_eq_ok {r : Ref} {pos : Nat} {value : Value} :
    r.checkedValue pos = .ok value ↔ r.text ≠ "" ∧ r.value = value := by
  unfold checkedValue
  by_cases h : r.text = ""
  · simp [h]
  · simp [h]

theorem call_eq_ok {table : Builtins} {name : String} {argument r : Ref} {pos : Nat} :
    call table name argument pos = .ok r ↔ pass? table [name] argument = some r := by
  unfold call findFunction
  cases hf : table.get? name with
  | none => simp [pass?, hf]
  | some f =>
    by_cases htext : argument.text = ""
    · simp [pass?, hf, checkedValue, htext]
    · simp [pass?, hf, checkedValue, htext]

/-- More functions are called on what the first ones give. -/
theorem pass?_append {table : Builtins} {more : List String} :
    ∀ {names : List String} {r : Ref},
      pass? table (names ++ more) r = (pass? table names r).bind (pass? table more)
  | [], r => rfl
  | name :: names, r => by
      rw [List.cons_append, pass?, pass?]
      cases table.get? name with
      | none => rfl
      | some f =>
        by_cases htext : r.text = ""
        · simp [htext]
        · simp only [Option.bind_some, if_neg htext]
          exact pass?_append

/-- Functions are called on something that has a spelling. -/
theorem text_ne_of_pass? {table : Builtins} {names : List String} {r r' : Ref}
    (h : pass? table names r = some r') (hne : r'.text ≠ "") : r.text ≠ "" := by
  cases names with
  | nil =>
    obtain rfl : r = r' := by simpa [pass?] using h
    exact hne
  | cons name names =>
    intro hempty
    obtain ⟨f, -, h⟩ := Option.bind_eq_some_iff.mp h
    rw [if_pos hempty] at h
    simp at h

/-- Only what is given to no function is still a place. -/
theorem pass?_eq_place {table : Builtins} {names : List String} {ty ty' : Ty}
    {path path' : Path} :
    pass? table names (place ty path) = some (place ty' path')
      ↔ names = [] ∧ ty = ty' ∧ path = path' := by
  -- what a function gives stays a result, whatever is called on it
  have hresult : ∀ (names : List String) (f : Builtin) (v : Value),
      pass? table names (result f v) ≠ some (place ty' path') := by
    intro names
    induction names with
    | nil => intro f v; simp [pass?]
    | cons name names ih =>
      intro f v h
      obtain ⟨g, -, h⟩ := Option.bind_eq_some_iff.mp h
      split at h
      · simp at h
      · exact ih _ _ h
  cases names with
  | nil => simp [pass?]
  | cons name names =>
    simp only [reduceCtorEq, false_and, iff_false]
    intro h
    obtain ⟨f, -, h⟩ := Option.bind_eq_some_iff.mp h
    split at h
    · simp at h
    · exact hresult _ _ _ h

/-! ## §4. Commands and pipelines. -/

/-- What a shape gives from a place. -/
def resolve? (table : Builtins) (ty : Ty) (path : Path) (s : Template.Shape) : Option Ref :=
  (ty.along? s.chain).bind fun ty' => pass? table s.functions (place ty' (path.along s.chain))

theorem ofArg_place_eq_ok (table : Builtins) {ty : Ty} {path : Path} {arg : Arg} {pos : Nat}
    {r : Ref} :
    (place ty path).ofArg arg pos = .ok r
      ↔ ∃ chain, arg.chain? = some chain ∧ resolve? table ty path ⟨chain, []⟩ = some r := by
  rw [ofArg_eq_ok]
  refine exists_congr fun chain => and_congr_right fun _ => ?_
  rw [selectAll_eq_ok, resolve?, Option.bind_eq_some_iff]
  simp [pass?, eq_comm]

/-- Calling one more function on what a shape gives. -/
theorem resolve?_call {table : Builtins} {ty : Ty} {path : Path} {s : Template.Shape}
    {name : String} {r : Ref} :
    (∃ argument, resolve? table ty path s = some argument
      ∧ pass? table [name] argument = some r)
      ↔ resolve? table ty path ⟨s.chain, s.functions ++ [name]⟩ = some r := by
  unfold resolve?
  rw [Option.bind_eq_some_iff]
  simp only [pass?_append, Option.bind_eq_some_iff]
  constructor
  · rintro ⟨argument, ⟨ty', hty', harg⟩, h⟩
    exact ⟨ty', hty', argument, harg, h⟩
  · rintro ⟨ty', hty', argument, harg, h⟩
    exact ⟨argument, ⟨ty', hty', harg⟩, h⟩

/-- A function with no operand or with several resolves to nothing. -/
theorem arity_ne_ok {table : Builtins} {name : String} {current r : Ref} {count pos : Nat} :
    (do let f ← findFunction table name current.text pos
        throw (.path current.text (.arity f.name count) pos)) ≠ Except.ok r := by
  intro h
  obtain ⟨f, -, h⟩ := bind_eq_ok.mp h
  simp at h

theorem ofCommand_eq_ok {table : Builtins} {ty : Ty} {path : Path} {cmd : Command} {r : Ref} :
    ofCommand table (place ty path) cmd = .ok r
      ↔ ∃ s, cmd.shape? = some s ∧ resolve? table ty path s = some r := by
  obtain ⟨pos, args⟩ := cmd
  -- a command of one operand, for each sort of operand below
  have hsingle : ∀ arg : Arg, (place ty path).ofArg arg pos = .ok r
      ↔ ∃ s, arg.chain?.map (Template.Shape.mk · []) = some s
        ∧ resolve? table ty path s = some r := by
    intro arg
    rw [ofArg_place_eq_ok table]
    simp only [Option.map_eq_some_iff]
    constructor
    · rintro ⟨chain, hchain, hres⟩
      exact ⟨⟨chain, []⟩, ⟨chain, hchain, rfl⟩, hres⟩
    · rintro ⟨_, ⟨chain, hchain, rfl⟩, hres⟩
      exact ⟨chain, hchain, hres⟩
  match args with
  | [] => simp [ofCommand, Command.shape?]
  | [.dot] => exact hsingle .dot
  | [.field names] => exact hsingle (.field names)
  | [.function name] =>
    have hnone : Command.shape? ⟨pos, [.function name]⟩ = none := rfl
    simp only [hnone, reduceCtorEq, false_and, exists_false, iff_false]
    exact arity_ne_ok
  | [.var name] => exact hsingle (.var name)
  | [.str value] => exact hsingle (.str value)
  | [.number text] => exact hsingle (.number text)
  | [.function name, arg] =>
    show (_ >>= _) = _ ↔ ∃ s, arg.chain?.map (Template.Shape.mk · [name]) = some s ∧ _
    rw [bind_eq_ok]
    simp only [Option.map_eq_some_iff]
    constructor
    · rintro ⟨argument, harg, hcall⟩
      obtain ⟨chain, hchain, hres⟩ := (ofArg_place_eq_ok table).mp harg
      refine ⟨⟨chain, [name]⟩, ⟨chain, hchain, rfl⟩, ?_⟩
      exact resolve?_call.mp ⟨argument, hres, call_eq_ok.mp hcall⟩
    · rintro ⟨_, ⟨chain, hchain, rfl⟩, hres⟩
      obtain ⟨argument, harg, hcall⟩ := (resolve?_call (s := ⟨chain, []⟩)).mpr hres
      exact ⟨argument, (ofArg_place_eq_ok table).mpr ⟨chain, hchain, harg⟩, call_eq_ok.mpr hcall⟩
  | .function name :: _ :: _ :: _ =>
    have hnone : ∀ a b rest, Command.shape? ⟨pos, .function name :: a :: b :: rest⟩ = none :=
      fun _ _ _ => rfl
    simp only [hnone, reduceCtorEq, false_and, exists_false, iff_false]
    exact arity_ne_ok
  | .dot :: _ :: _ | .field _ :: _ :: _ | .var _ :: _ :: _ | .str _ :: _ :: _
  | .number _ :: _ :: _ => simp [ofCommand, Command.shape?]

/-- **From a place, a pipeline resolves exactly if it has a shape, its members
are there and its functions are known.** -/
theorem ofPipeline_eq_ok {table : Builtins} {ty : Ty} {path : Path} {pipe : Pipeline} {r : Ref} :
    ofPipeline table (place ty path) pipe = .ok r
      ↔ ∃ s, pipe.shape? = some s ∧ resolve? table ty path s = some r := by
  obtain ⟨pos, declared, commands⟩ := pipe
  match declared, commands with
  | some name, _ => simp [ofPipeline, Pipeline.shape?]
  | none, [] => simp [ofPipeline, Pipeline.shape?]
  | none, [cmd] => exact ofCommand_eq_ok
  | none, _ :: _ :: _ :: _ => simp [ofPipeline, Pipeline.shape?]
  | none, [first, last] =>
    by_cases hlast : ∃ name, last.args = [.function name]
    · obtain ⟨name, hname⟩ := hlast
      obtain ⟨lastPos, args⟩ := last
      obtain rfl : args = [.function name] := hname
      show (_ >>= _) = _ ↔ ∃ s, first.shape?.map (fun s => Template.Shape.mk s.chain
        (s.functions ++ [name])) = some s ∧ _
      rw [bind_eq_ok]
      simp only [Option.map_eq_some_iff]
      constructor
      · rintro ⟨argument, harg, hcall⟩
        obtain ⟨s, hs, hres⟩ := ofCommand_eq_ok.mp harg
        exact ⟨_, ⟨s, hs, rfl⟩, resolve?_call.mp ⟨argument, hres, call_eq_ok.mp hcall⟩⟩
      · rintro ⟨_, ⟨s, hs, rfl⟩, hres⟩
        obtain ⟨argument, harg, hcall⟩ := resolve?_call.mpr hres
        exact ⟨argument, ofCommand_eq_ok.mpr ⟨s, hs, harg⟩, call_eq_ok.mpr hcall⟩
    · -- anything but a function alone after the bar
      have hshape : Pipeline.shape? ⟨pos, none, [first, last]⟩ = none := by
        unfold Pipeline.shape?
        dsimp only
        split
        next name hname => exact absurd ⟨name, hname⟩ hlast
        next => rfl
      simp only [hshape, reduceCtorEq, false_and, exists_false, iff_false]
      intro h
      obtain ⟨argument, -, h⟩ := bind_eq_ok.mp h
      split at h
      next name hname => exact absurd ⟨name, hname⟩ hlast
      next => simp at h

/-! ## §5. The uses of a pipeline. -/

/-- The test of a place of a type that has truth values. -/
inductive Tests : Ty → Path → Test → Prop
  /-- A number is true unless it is zero. -/
  | nonzero {ty : Ty} {path : Path} (h : ty.isNumeric = true) : Tests ty path (.nonzero path)
  /-- A truth value is what it is. -/
  | holds {ty : Ty} {path : Path} (h : ty.isBool = true) : Tests ty path (.holds path)
  /-- An array is true if it has an element. -/
  | nonempty {ty element : Ty} {path : Path} (h : ty.element? = some element) :
      Tests ty path (.nonempty path)

/-- The three sorts of types with truth values do not meet. -/
theorem isBool_of_isNumeric {ty : Ty} (h : ty.isNumeric = true) : ty.isBool = false := by
  cases ty with
  | scalar name =>
    by_cases hb : name = "bool"
    · subst hb
      exact absurd h (by decide)
    · simp [Ty.isBool, hb]
  | record | sequence | fixed => rfl

theorem test_place_eq_ok {ty : Ty} {path : Path} {pos : Nat} {t : Test} :
    (place ty path).test pos = .ok t ↔ Tests ty path t := by
  unfold test
  dsimp only
  constructor
  · intro h
    split at h
    next hn =>
      obtain rfl : Test.nonzero path = t := by simpa using h
      exact .nonzero hn
    next =>
      split at h
      next hb =>
        obtain rfl : Test.holds path = t := by simpa using h
        exact .holds hb
      next =>
        split at h
        next he =>
          obtain rfl : Test.nonempty path = t := by simpa using h
          obtain ⟨element, he⟩ := Option.isSome_iff_exists.mp he
          exact .nonempty he
        next => simp at h
  · intro h
    cases h with
    | nonzero h => rw [if_pos h]
    -- numbers are asked for first, so a truth value must be none
    | holds h =>
      have hn : ¬ ty.isNumeric = true := fun hn => by simp [isBool_of_isNumeric hn] at h
      rw [if_neg hn, if_pos h]
    | nonempty h =>
      cases ty with
      | scalar | record => simp [Ty.element?] at h
      | sequence | fixed => rfl

/-- A pipeline that calls nothing and comes to a place. -/
theorem resolve?_eq_place {table : Builtins} {ty ty' : Ty} {path path' : Path}
    {s : Template.Shape} :
    resolve? table ty path s = some (place ty' path')
      ↔ s.functions = [] ∧ ty.along? s.chain = some ty' ∧ path' = path.along s.chain := by
  unfold resolve?
  rw [Option.bind_eq_some_iff]
  simp only [pass?_eq_place]
  constructor
  · rintro ⟨_, hty, hf, rfl, rfl⟩
    exact ⟨hf, hty, rfl⟩
  · rintro ⟨hf, hty, rfl⟩
    exact ⟨ty', hty, hf, rfl, rfl⟩

/-- **A pipeline as a condition:** members that lead to a type with truth
values. -/
theorem test_eq_ok {table : Builtins} {ty : Ty} {path : Path} {pipe : Pipeline} {pos : Nat}
    {t : Test} :
    (do (← ofPipeline table (place ty path) pipe).test pos) = .ok t
      ↔ ∃ chain ty', pipe.shape? = some ⟨chain, []⟩ ∧ ty.along? chain = some ty'
        ∧ Tests ty' (path.along chain) t := by
  rw [bind_eq_ok]
  constructor
  · rintro ⟨r, hr, htest⟩
    obtain ⟨⟨chain, functions⟩, hs, hres⟩ := ofPipeline_eq_ok.mp hr
    cases r with
    | result => simp [test] at htest
    -- only a pipeline that calls nothing leaves a place to test
    | place ty' path' =>
      obtain ⟨rfl, hty, rfl⟩ := resolve?_eq_place.mp hres
      exact ⟨chain, ty', hs, hty, test_place_eq_ok.mp htest⟩
  · rintro ⟨chain, ty', hs, hty, htest⟩
    exact ⟨place ty' (path.along chain),
      ofPipeline_eq_ok.mpr ⟨⟨chain, []⟩, hs, resolve?_eq_place.mpr ⟨rfl, hty, rfl⟩⟩,
      test_place_eq_ok.mpr htest⟩

/-- **A pipeline as the source of a loop:** members that lead to an array. -/
theorem source_eq_ok {table : Builtins} {ty element : Ty} {path path' : Path}
    {pipe : Pipeline} {pos : Nat} :
    (do (← ofPipeline table (place ty path) pipe).source pos) = .ok (path', element)
      ↔ ∃ chain ty', pipe.shape? = some ⟨chain, []⟩ ∧ ty.along? chain = some ty'
        ∧ ty'.element? = some element ∧ path' = path.along chain := by
  rw [bind_eq_ok]
  constructor
  · rintro ⟨r, hr, hsource⟩
    obtain ⟨⟨chain, functions⟩, hs, hres⟩ := ofPipeline_eq_ok.mp hr
    cases r with
    | result => simp [source] at hsource
    | place ty' path₁ =>
      obtain ⟨rfl, hty, rfl⟩ := resolve?_eq_place.mp hres
      unfold source at hsource
      dsimp only at hsource
      split at hsource
      next element' he =>
        simp only [Except.ok.injEq, Prod.mk.injEq] at hsource
        obtain ⟨rfl, rfl⟩ := hsource
        exact ⟨chain, ty', hs, hty, he, rfl⟩
      next => simp at hsource
  · rintro ⟨chain, ty', hs, hty, he, rfl⟩
    refine ⟨place ty' (path.along chain),
      ofPipeline_eq_ok.mpr ⟨⟨chain, []⟩, hs, resolve?_eq_place.mpr ⟨rfl, hty, rfl⟩⟩, ?_⟩
    simp [source, he]

end Ref

/-! ## §6. Compiled nodes. -/

section

variable {table : Builtins} {depth : Nat} {ty : Ty} {path : Path} {pos bodyPos elsePos : Nat}
  {pipe : Pipeline} {body elseBody : List Template.Node} {program : Program}

/-- All that compiling an action can do. -/
theorem compileNode_action :
    compileNode table depth (.place ty path) (.action pos pipe) = .ok program
      ↔ ∃ s r, pipe.shape? = some s ∧ Ref.resolve? table ty path s = some r ∧ r.text ≠ ""
        ∧ program = [.append [.value r.value]] := by
  rw [compileNode]
  constructor
  · intro h
    obtain ⟨r, hr, h⟩ := bind_eq_ok.mp h
    obtain ⟨value, hvalue, h⟩ := bind_eq_ok.mp h
    obtain ⟨s, hs, hres⟩ := Ref.ofPipeline_eq_ok.mp hr
    obtain ⟨hne, rfl⟩ := Ref.checkedValue_eq_ok.mp hvalue
    exact ⟨s, r, hs, hres, hne, by simpa using h.symm⟩
  · rintro ⟨s, r, hs, hres, hne, rfl⟩
    rw [Ref.ofPipeline_eq_ok.mpr ⟨s, hs, hres⟩, ok_bind,
      Ref.checkedValue_eq_ok.mpr ⟨hne, rfl⟩]
    rfl

/-- All that compiling a condition can do. -/
theorem compileNode_cond :
    compileNode table depth (.place ty path) (.branch .cond pos pipe bodyPos body) = .ok program
      ↔ ∃ chain ty' t inner, pipe.shape? = some ⟨chain, []⟩ ∧ ty.along? chain = some ty'
        ∧ Ref.Tests ty' (path.along chain) t
        ∧ compileNodes table depth (.place ty path) body = .ok inner
        ∧ program = [.ifThen t inner] := by
  rw [compileNode]
  constructor
  · intro h
    obtain ⟨r, hr, h⟩ := bind_eq_ok.mp h
    obtain ⟨t, ht, h⟩ := bind_eq_ok.mp h
    obtain ⟨inner, hinner, h⟩ := bind_eq_ok.mp h
    obtain ⟨chain, ty', hs, hty, htests⟩ := Ref.test_eq_ok.mp (bind_eq_ok.mpr ⟨r, hr, ht⟩)
    exact ⟨chain, ty', t, inner, hs, hty, htests, hinner, by simpa using h.symm⟩
  · rintro ⟨chain, ty', t, inner, hs, hty, htests, hinner, rfl⟩
    obtain ⟨r, hr, ht⟩ := bind_eq_ok.mp (Ref.test_eq_ok.mpr ⟨chain, ty', hs, hty, htests⟩)
    rw [hr, ok_bind, ht, ok_bind, hinner]
    rfl

/-- All that compiling a condition with another part can do. -/
theorem compileNode_condElse :
    compileNode table depth (.place ty path)
        (.branchElse .cond pos pipe bodyPos body elsePos elseBody) = .ok program
      ↔ ∃ chain ty' t inner other, pipe.shape? = some ⟨chain, []⟩ ∧ ty.along? chain = some ty'
        ∧ Ref.Tests ty' (path.along chain) t
        ∧ compileNodes table depth (.place ty path) body = .ok inner
        ∧ compileNodes table depth (.place ty path) elseBody = .ok other
        ∧ program = [.ifElse t inner other] := by
  rw [compileNode]
  constructor
  · intro h
    obtain ⟨r, hr, h⟩ := bind_eq_ok.mp h
    obtain ⟨t, ht, h⟩ := bind_eq_ok.mp h
    obtain ⟨inner, hinner, h⟩ := bind_eq_ok.mp h
    obtain ⟨other, hother, h⟩ := bind_eq_ok.mp h
    obtain ⟨chain, ty', hs, hty, htests⟩ := Ref.test_eq_ok.mp (bind_eq_ok.mpr ⟨r, hr, ht⟩)
    exact ⟨chain, ty', t, inner, other, hs, hty, htests, hinner, hother, by simpa using h.symm⟩
  · rintro ⟨chain, ty', t, inner, other, hs, hty, htests, hinner, hother, rfl⟩
    obtain ⟨r, hr, ht⟩ := bind_eq_ok.mp (Ref.test_eq_ok.mpr ⟨chain, ty', hs, hty, htests⟩)
    rw [hr, ok_bind, ht, ok_bind, hinner, ok_bind, hother]
    rfl

/-- All that compiling a loop can do. -/
theorem compileNode_loop :
    compileNode table depth (.place ty path) (.branch .loop pos pipe bodyPos body) = .ok program
      ↔ ∃ chain ty' element inner, pipe.shape? = some ⟨chain, []⟩ ∧ ty.along? chain = some ty'
        ∧ ty'.element? = some element
        ∧ compileNodes table (depth + 1)
            (.place element ((path.along chain).index (loopVariable depth))) body = .ok inner
        ∧ program = [.each (loopVariable depth) (path.along chain) inner] := by
  rw [compileNode]
  constructor
  · intro h
    obtain ⟨r, hr, h⟩ := bind_eq_ok.mp h
    obtain ⟨⟨path', element⟩, hsource, h⟩ := bind_eq_ok.mp h
    obtain ⟨inner, hinner, h⟩ := bind_eq_ok.mp h
    obtain ⟨chain, ty', hs, hty, he, rfl⟩ :=
      Ref.source_eq_ok.mp (bind_eq_ok.mpr ⟨r, hr, hsource⟩)
    exact ⟨chain, ty', element, inner, hs, hty, he, hinner, by simpa using h.symm⟩
  · rintro ⟨chain, ty', element, inner, hs, hty, he, hinner, rfl⟩
    obtain ⟨r, hr, hsource⟩ :=
      bind_eq_ok.mp (Ref.source_eq_ok.mpr ⟨chain, ty', hs, hty, he, rfl⟩)
    rw [hr, ok_bind, hsource, ok_bind]
    show (compileNodes table (depth + 1)
      (.place element ((path.along chain).index (loopVariable depth))) body >>= _) = _
    rw [hinner]
    rfl

/-- Nodes are compiled one after the other, and their programs joined. -/
theorem compileNodes_cons {node : Template.Node} {nodes : List Template.Node} {current : Ref} :
    compileNodes table depth current (node :: nodes) = .ok program
      ↔ ∃ first rest, compileNode table depth current node = .ok first
        ∧ compileNodes table depth current nodes = .ok rest
        ∧ program = Program.join first rest := by
  rw [compileNodes]
  constructor
  · intro h
    obtain ⟨first, hfirst, h⟩ := bind_eq_ok.mp h
    obtain ⟨rest, hrest, h⟩ := bind_eq_ok.mp h
    exact ⟨first, rest, hfirst, hrest, by simpa using h.symm⟩
  · rintro ⟨first, rest, hfirst, hrest, rfl⟩
    rw [hfirst, ok_bind, hrest]
    rfl

end

/-! ## §7. The standard functions. -/

/-- What the standard table knows are the standard functions, by their names. -/
theorem mem_standardFunctions {name : String} {f : Builtin}
    (h : Builtin.standard.get? name = some f) : f ∈ Builtin.standardFunctions := by
  have hentries : Builtin.standard.entries
      = Builtin.standardFunctions.map fun f => (f.name, f) := rfl
  have hentry := Catalog.get?_eq_some_iff.mp h
  rw [hentries] at hentry
  obtain ⟨g, hg, heq⟩ := List.mem_map.mp hentry
  obtain ⟨-, rfl⟩ := Prod.mk.inj heq
  exact hg

/-- The standard functions are spelled by their names. -/
theorem spell_standard {f : Builtin} (hf : f ∈ Builtin.standardFunctions) (text : String) :
    f.spell text = "LibString." ++ f.name ++ "(" ++ text ++ ")" := by
  simp only [Builtin.standardFunctions, List.mem_cons, List.not_mem_nil, or_false] at hf
  rcases hf with rfl | rfl
  · rfl
  · rfl

end Stencil
