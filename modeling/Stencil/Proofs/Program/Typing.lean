/-
  Stencil.Proofs.Program.Typing
  ─────────────────────────────
  WHICH TEMPLATES COMPILE.

  Whether a template compiles is a matter of types alone.  The judgement
  `WellTyped` knows the type of the current value and whether that value is
  the parameter record itself; it never sees a path.

    • `writable_iff` — what can be written, by the shapes of pipelines,
    • `exists_compileNode_action`, `exists_test_iff` — actions and conditions,
    • `compileNodes_exact` — at a place of a type, exactly the well-typed
      nodes compile.
-/
import Stencil.Proofs.Program.Resolution
import Stencil.Proofs.Schema.Keyword

namespace Stencil

open Schema (Ty IsCanonical IsIntegerName)
open Template (Arg Command Pipeline Node)
open Outcome

/-! ## §1. The judgement. -/

/-- What typing knows of the current value. -/
structure Current where
  /-- Its type. -/
  ty : Ty
  /-- Whether it is the parameter record itself. -/
  isRoot : Bool

/-- A member of a member of the current value; with no member to select, the
current value itself. -/
def Current.along? (C : Current) (chain : List String) : Option Current :=
  (C.ty.along? chain).map (⟨·, C.isRoot && chain.isEmpty⟩)

/-- The operand is the current value, or members of records lead to it. -/
inductive Operand (C : Current) : Arg → Current → Prop
  /-- The current value. -/
  | dot : Operand C .dot C
  /-- A chain of members. -/
  | field {names : List String} {D : Current} (h : C.along? names = some D) :
      Operand C (.field names) D

/-- The pipeline is an operand alone. -/
inductive Selects (C : Current) : Pipeline → Current → Prop
  /-- An operand, with nothing before or after it. -/
  | operand {pos cmdPos : Nat} {arg : Arg} {D : Current} (h : Operand C arg D) :
      Selects C ⟨pos, none, [⟨cmdPos, [arg]⟩]⟩ D

/-- The table has a function of the name. -/
def Builtins.Knows (table : Builtins) (name : String) : Prop :=
  ∃ f, table.get? name = some f

/-- The value of the pipeline can be written, with at most so many calls around it. -/
inductive Writable (table : Builtins) (calls : Nat) (C : Current) : Pipeline → Prop
  /-- `arg`. -/
  | operand {pipe : Pipeline} {D : Current} (h : Selects C pipe D) (hroot : D.isRoot = false) :
      Writable table calls C pipe
  /-- `f arg`. -/
  | call {pos cmdPos : Nat} {f : String} {arg : Arg} {D : Current} (hcalls : 1 ≤ calls)
      (h : Operand C arg D) (hroot : D.isRoot = false) (hf : table.Knows f) :
      Writable table calls C ⟨pos, none, [⟨cmdPos, [.function f, arg]⟩]⟩
  /-- `arg | f`. -/
  | piped {pos cmdPos lastPos : Nat} {f : String} {arg : Arg} {D : Current} (hcalls : 1 ≤ calls)
      (h : Operand C arg D) (hroot : D.isRoot = false) (hf : table.Knows f) :
      Writable table calls C ⟨pos, none, [⟨cmdPos, [arg]⟩, ⟨lastPos, [.function f]⟩]⟩
  /-- `f arg | g`. -/
  | chained {pos cmdPos lastPos : Nat} {f g : String} {arg : Arg} {D : Current}
      (hcalls : 2 ≤ calls) (h : Operand C arg D) (hroot : D.isRoot = false)
      (hf : table.Knows f) (hg : table.Knows g) :
      Writable table calls C ⟨pos, none, [⟨cmdPos, [.function f, arg]⟩, ⟨lastPos, [.function g]⟩]⟩

/-- The types that a condition may have. -/
inductive HasTruth : Ty → Prop
  /-- A number. -/
  | number {name : String} (h : IsIntegerName name) : HasTruth (.scalar name)
  /-- A truth value. -/
  | bool : HasTruth (.scalar "bool")
  /-- An array of any length. -/
  | sequence (element : Ty) : HasTruth (.sequence element)
  /-- An array of a fixed size. -/
  | fixed (element : Ty) (size : Nat) : HasTruth (.fixed element size)

/-- The types that a loop may run over, and those of their elements. -/
inductive Iterates : Ty → Ty → Prop
  /-- An array of any length. -/
  | sequence (element : Ty) : Iterates (.sequence element) element
  /-- An array of a fixed size. -/
  | fixed (element : Ty) (size : Nat) : Iterates (.fixed element size) element

/-- **The node is well typed under the current type**, with at most so many
calls around a value.  Loops with another part, blocks with another current
value, jumps and invocations never are. -/
inductive WellTyped (table : Builtins) (calls : Nat) : Current → Node → Prop
  /-- Any text. -/
  | text {C : Current} {pos : Nat} {content : String} :
      WellTyped table calls C (.text pos content)
  /-- A value that can be written. -/
  | action {C : Current} {pos : Nat} {pipe : Pipeline} (h : Writable table calls C pipe) :
      WellTyped table calls C (.action pos pipe)
  /-- A condition with a truth value, over a list for the same value. -/
  | cond {C D : Current} {pos bodyPos : Nat} {pipe : Pipeline} {body : List Node}
      (h : Selects C pipe D) (ht : HasTruth D.ty)
      (hbody : ∀ n ∈ body, WellTyped table calls C n) :
      WellTyped table calls C (.branch .cond pos pipe bodyPos body)
  /-- The same over two lists. -/
  | condElse {C D : Current} {pos bodyPos elsePos : Nat} {pipe : Pipeline}
      {body elseBody : List Node} (h : Selects C pipe D) (ht : HasTruth D.ty)
      (hbody : ∀ n ∈ body, WellTyped table calls C n)
      (helse : ∀ n ∈ elseBody, WellTyped table calls C n) :
      WellTyped table calls C (.branchElse .cond pos pipe bodyPos body elsePos elseBody)
  /-- A loop over an array, around a list for its elements. -/
  | loop {C D : Current} {element : Ty} {pos bodyPos : Nat} {pipe : Pipeline}
      {body : List Node} (h : Selects C pipe D) (he : Iterates D.ty element)
      (hbody : ∀ n ∈ body, WellTyped table calls ⟨element, false⟩ n) :
      WellTyped table calls C (.branch .loop pos pipe bodyPos body)
  /-- A list. -/
  | group {C : Current} {pos : Nat} {nodes : List Node}
      (h : ∀ n ∈ nodes, WellTyped table calls C n) :
      WellTyped table calls C (.group pos nodes)

section

variable {table : Builtins} {calls : Nat} {C : Current} {pos bodyPos elsePos : Nat}
  {pipe : Pipeline} {body elseBody nodes : List Node}

theorem wellTyped_action :
    WellTyped table calls C (.action pos pipe) ↔ Writable table calls C pipe := by
  constructor
  · intro h
    cases h with
    | action h => exact h
  · exact .action

theorem wellTyped_cond :
    WellTyped table calls C (.branch .cond pos pipe bodyPos body)
      ↔ (∃ D, Selects C pipe D ∧ HasTruth D.ty) ∧ ∀ n ∈ body, WellTyped table calls C n := by
  constructor
  · intro h
    cases h with
    | cond h ht hbody => exact ⟨⟨_, h, ht⟩, hbody⟩
  · rintro ⟨⟨D, h, ht⟩, hbody⟩
    exact .cond h ht hbody

theorem wellTyped_condElse :
    WellTyped table calls C (.branchElse .cond pos pipe bodyPos body elsePos elseBody)
      ↔ (∃ D, Selects C pipe D ∧ HasTruth D.ty) ∧ (∀ n ∈ body, WellTyped table calls C n)
        ∧ ∀ n ∈ elseBody, WellTyped table calls C n := by
  constructor
  · intro h
    cases h with
    | condElse h ht hbody helse => exact ⟨⟨_, h, ht⟩, hbody, helse⟩
  · rintro ⟨⟨D, h, ht⟩, hbody, helse⟩
    exact .condElse h ht hbody helse

theorem wellTyped_loop :
    WellTyped table calls C (.branch .loop pos pipe bodyPos body)
      ↔ ∃ D element, (Selects C pipe D ∧ Iterates D.ty element)
        ∧ ∀ n ∈ body, WellTyped table calls ⟨element, false⟩ n := by
  constructor
  · intro h
    cases h with
    | loop h he hbody => exact ⟨_, _, ⟨h, he⟩, hbody⟩
  · rintro ⟨D, element, ⟨h, he⟩, hbody⟩
    exact .loop h he hbody

theorem wellTyped_group :
    WellTyped table calls C (.group pos nodes) ↔ ∀ n ∈ nodes, WellTyped table calls C n := by
  constructor
  · intro h
    cases h with
    | group h => exact h
  · exact .group

end

/-! ## §2. Shapes decide. -/

theorem operand_iff {C D : Current} {arg : Arg} :
    Operand C arg D ↔ ∃ chain, arg.chain? = some chain ∧ C.along? chain = some D := by
  constructor
  · intro h
    cases h with
    | dot => exact ⟨[], rfl, by simp [Current.along?, Ty.along?]⟩
    | field h => exact ⟨_, rfl, h⟩
  · rintro ⟨chain, hchain, h⟩
    cases arg with
    | dot =>
      obtain rfl : [] = chain := by simpa [Arg.chain?] using hchain
      obtain rfl : C = D := by simpa [Current.along?, Ty.along?] using h
      exact .dot
    | field names =>
      obtain rfl : names = chain := by simpa [Arg.chain?] using hchain
      exact .field h
    | function | var | str | number => simp [Arg.chain?] at hchain

theorem selects_iff {C D : Current} {pipe : Pipeline} :
    Selects C pipe D ↔ ∃ chain, pipe.shape? = some ⟨chain, []⟩ ∧ C.along? chain = some D := by
  constructor
  · intro h
    cases h with
    | operand h =>
      obtain ⟨chain, hchain, hD⟩ := operand_iff.mp h
      exact ⟨chain, Pipeline.shape?_eq_some.mpr (.inl ⟨_, _, rfl,
        Command.shape?_eq_some.mpr (.inl ⟨_, _, rfl, hchain, rfl⟩)⟩), hD⟩
  · rintro ⟨chain, hshape, hD⟩
    rcases Pipeline.shape?_eq_some.mp hshape with ⟨pos, cmd, rfl, hcmd⟩ | ⟨_, _, _, _, _, _, _, hs⟩
    · rcases Command.shape?_eq_some.mp hcmd with ⟨cmdPos, arg, rfl, hchain, -⟩ | ⟨_, _, _, _, _, hf⟩
      · exact .operand (operand_iff.mpr ⟨chain, hchain, hD⟩)
      · simp at hf
    · simp at hs

theorem Selects.unique {C D E : Current} {pipe : Pipeline} (h₁ : Selects C pipe D)
    (h₂ : Selects C pipe E) : D = E := by
  obtain ⟨chain₁, hs₁, hD⟩ := selects_iff.mp h₁
  obtain ⟨chain₂, hs₂, hE⟩ := selects_iff.mp h₂
  obtain rfl : chain₁ = chain₂ := by simpa [hs₁] using hs₂
  exact Option.some.inj (hD.symm.trans hE)

/-- **The value of a pipeline can be written exactly if the pipeline has a shape,
its members lead away from the parameter record, and its functions are
known.** -/
theorem writable_iff {table : Builtins} {calls : Nat} {C : Current} {pipe : Pipeline} :
    Writable table calls C pipe
      ↔ ∃ s D, pipe.shape? = some s ∧ s.functions.length ≤ calls
        ∧ (∀ f ∈ s.functions, table.Knows f) ∧ C.along? s.chain = some D
        ∧ D.isRoot = false := by
  constructor
  · intro h
    cases h with
    | operand h hroot =>
      obtain ⟨chain, hshape, hD⟩ := selects_iff.mp h
      exact ⟨⟨chain, []⟩, _, hshape, by simp, by simp, hD, hroot⟩
    | @call pos cmdPos f arg D hcalls h hroot hf =>
      obtain ⟨chain, hchain, hD⟩ := operand_iff.mp h
      refine ⟨⟨chain, [f]⟩, D, ?_, hcalls, by simpa using hf, hD, hroot⟩
      simp [Pipeline.shape?, Command.shape?, hchain]
    | @piped pos cmdPos lastPos f arg D hcalls h hroot hf =>
      obtain ⟨chain, hchain, hD⟩ := operand_iff.mp h
      have hcmd : Command.shape? ⟨cmdPos, [arg]⟩ = some ⟨chain, []⟩ :=
        Command.shape?_eq_some.mpr (.inl ⟨_, _, rfl, hchain, rfl⟩)
      refine ⟨⟨chain, [f]⟩, D, ?_, hcalls, by simpa using hf, hD, hroot⟩
      simp [Pipeline.shape?, hcmd]
    | @chained pos cmdPos lastPos f g arg D hcalls h hroot hf hg =>
      obtain ⟨chain, hchain, hD⟩ := operand_iff.mp h
      refine ⟨⟨chain, [f, g]⟩, D, ?_, hcalls, by simp [hf, hg], hD, hroot⟩
      simp [Pipeline.shape?, Command.shape?, hchain]
  · rintro ⟨s, D, hshape, hlen, hknown, hD, hroot⟩
    rcases Pipeline.shape?_eq_some.mp hshape with
      ⟨pos, cmd, rfl, hcmd⟩ | ⟨pos, cmd, lastPos, g, t, rfl, hcmd, rfl⟩
    -- one command: an operand, or a call
    · rcases Command.shape?_eq_some.mp hcmd with
        ⟨cmdPos, arg, rfl, hchain, hf⟩ | ⟨cmdPos, f, arg, rfl, hchain, hf⟩
      · exact .operand (.operand (operand_iff.mpr ⟨_, hchain, hD⟩)) hroot
      · rw [hf] at hlen hknown
        exact .call hlen (operand_iff.mpr ⟨_, hchain, hD⟩) hroot (hknown f (by simp))
    -- the same before a bar
    · rcases Command.shape?_eq_some.mp hcmd with
        ⟨cmdPos, arg, rfl, hchain, hf⟩ | ⟨cmdPos, f, arg, rfl, hchain, hf⟩
      · simp only [hf, List.nil_append, List.length_singleton] at hlen hknown
        exact .piped hlen (operand_iff.mpr ⟨_, hchain, hD⟩) hroot (hknown g (by simp))
      · simp only [hf, List.cons_append, List.nil_append, List.length_cons, List.length_nil]
          at hlen hknown
        exact .chained hlen (operand_iff.mpr ⟨_, hchain, hD⟩) hroot (hknown f (by simp))
          (hknown g (by simp))

/-! ## §3. Places of a type. -/

/-- All elementary types in the type are canonical. -/
inductive Schema.Ty.Canonical : Ty → Prop
  /-- An elementary type. -/
  | scalar {name : String} (h : IsCanonical name) : Canonical (.scalar name)
  /-- A record of such types. -/
  | record {members : List (String × Ty)} (h : ∀ m ∈ members, Canonical m.2) :
      Canonical (.record members)
  /-- An array of such a type. -/
  | sequence {element : Ty} (h : Canonical element) : Canonical (.sequence element)
  /-- An array of such a type. -/
  | fixed {element : Ty} {size : Nat} (h : Canonical element) : Canonical (.fixed element size)

/-- Every function of the table spells something around a spelled argument. -/
def Builtins.Spells (table : Builtins) : Prop :=
  ∀ name f, table.get? name = some f → ∀ text, text ≠ "" → f.spell text ≠ ""

/-- The path leads to what typing knows of the current value. -/
structure Path.Stands (path : Path) (C : Current) : Prop where
  /-- Only the parameter record has no spelling. -/
  text : path.text = "" ↔ C.isRoot = true
  /-- Its type is made of canonical ones. -/
  canonical : C.ty.Canonical

namespace Schema.Ty

theorem Canonical.member {ty ty' : Ty} {name : String} (h : ty.Canonical)
    (hm : ty.member? name = some ty') : ty'.Canonical := by
  cases h with
  | record h =>
    obtain ⟨l₁, l₂, hl, -⟩ := List.lookup_eq_some_iff.mp hm
    exact h (name, ty') (by simp [hl])
  | scalar | sequence | fixed => simp [member?] at hm

theorem Canonical.along {chain : List String} :
    ∀ {ty ty' : Ty}, ty.Canonical → ty.along? chain = some ty' → ty'.Canonical := by
  induction chain with
  | nil =>
    intro ty ty' h ha
    obtain rfl : ty = ty' := by simpa [along?] using ha
    exact h
  | cons name chain ih =>
    intro ty ty' h ha
    obtain ⟨ty₁, hty₁, ha⟩ := Option.bind_eq_some_iff.mp ha
    exact ih (h.member hty₁) ha

theorem Canonical.element {ty element : Ty} (h : ty.Canonical) (he : Iterates ty element) :
    element.Canonical := by
  cases he with
  | sequence =>
    cases h with
    | sequence h => exact h
  | fixed =>
    cases h with
    | fixed h => exact h

end Schema.Ty

theorem element?_eq_some {ty element : Ty} : ty.element? = some element ↔ Iterates ty element := by
  constructor
  · intro h
    cases ty with
    | sequence t =>
      obtain rfl : t = element := by simpa [Ty.element?] using h
      exact .sequence t
    | fixed t size =>
      obtain rfl : t = element := by simpa [Ty.element?] using h
      exact .fixed t size
    | scalar | record => simp [Ty.element?] at h
  · intro h
    cases h with
    | sequence => rfl
    | fixed => rfl

theorem Iterates.unique {ty e₁ e₂ : Ty} (h₁ : Iterates ty e₁) (h₂ : Iterates ty e₂) : e₁ = e₂ :=
  Option.some.inj ((element?_eq_some.mpr h₁).symm.trans (element?_eq_some.mpr h₂))

/-- Among canonical types, the tests are those of the types with truth values. -/
theorem exists_tests_iff {ty : Ty} {path : Path} (h : ty.Canonical) :
    (∃ t, Ref.Tests ty path t) ↔ HasTruth ty := by
  constructor
  · rintro ⟨t, ht⟩
    cases ht with
    | nonzero hn =>
      cases h with
      | scalar hc => exact .number ((Schema.isNumeric_iff hc).mp hn)
      | record | sequence | fixed => simp [Ty.isNumeric] at hn
    | holds hb =>
      cases ty with
      | scalar name =>
        obtain rfl : name = "bool" := by simpa [Ty.isBool] using hb
        exact .bool
      | record | sequence | fixed => simp [Ty.isBool] at hb
    | nonempty he =>
      cases element?_eq_some.mp he with
      | sequence => exact .sequence _
      | fixed => exact .fixed _ _
  · intro ht
    cases ht with
    | number hn =>
      cases h with
      | scalar hc => exact ⟨_, .nonzero ((Schema.isNumeric_iff hc).mpr hn)⟩
    | bool => exact ⟨_, .holds rfl⟩
    | sequence element => exact ⟨_, .nonempty rfl⟩
    | fixed element size => exact ⟨_, .nonempty rfl⟩

namespace Path

theorem text_member_ne {path : Path} {name : String} (h : name ≠ "") :
    (path.member name).text ≠ "" := by
  unfold text
  split
  · exact h
  · simp

theorem text_along_ne {chain : List String} :
    ∀ {path : Path}, path.text ≠ "" → (∀ name ∈ chain, name ≠ "") →
      (path.along chain).text ≠ "" := by
  induction chain with
  | nil => exact fun h _ => h
  | cons name chain ih =>
    intro path _ hnames
    exact ih (text_member_ne (hnames name (by simp))) fun n hn => hnames n (by simp [hn])

/-- Members of members stand where their types say. -/
theorem Stands.along {path : Path} {C D : Current} {chain : List String} (h : path.Stands C)
    (hnames : ∀ name ∈ chain, name ≠ "") (hD : C.along? chain = some D) :
    (path.along chain).Stands D := by
  obtain ⟨ty, hty, rfl⟩ := Option.map_eq_some_iff.mp hD
  refine ⟨?_, h.canonical.along hty⟩
  cases chain with
  -- with nothing selected the place stays as it is; any name makes a spelling
  | nil => simpa [Path.along] using h.text
  | cons name chain =>
    have hne : ((path.member name).along chain).text ≠ "" :=
      text_along_ne (text_member_ne (hnames name (by simp))) fun n hn => hnames n (by simp [hn])
    have htext : (path.along (name :: chain)).text ≠ "" := hne
    simp [htext]

/-- Elements stand where their type says. -/
theorem Stands.index {path : Path} {C : Current} {element : Ty} {i : String} (h : path.Stands C)
    (he : Iterates C.ty element) : (path.index i).Stands ⟨element, false⟩ :=
  ⟨by simp [Path.text], h.canonical.element he⟩

end Path

/-! ## §4. Exactly the well-typed nodes compile. -/

namespace Template

/-- All members that the operand selects have a name. -/
def Arg.Named : Arg → Prop
  | field names => ∀ name ∈ names, name ≠ ""
  | dot | function _ | var _ | str _ | number _ => True

/-- All members that the pipeline selects have a name. -/
def Pipeline.Named (pipe : Pipeline) : Prop :=
  ∀ cmd ∈ pipe.commands, ∀ arg ∈ cmd.args, arg.Named

/-- All members that the node selects have a name.  Names are what the reader
of templates finds after a dot, so every template read is named. -/
inductive Node.Named : Node → Prop
  /-- Text selects nothing. -/
  | text {pos : Nat} {content : String} : Named (.text pos content)
  /-- A value. -/
  | action {pos : Nat} {pipe : Pipeline} (h : pipe.Named) : Named (.action pos pipe)
  /-- A block. -/
  | branch {kind : BranchKind} {pos bodyPos : Nat} {pipe : Pipeline} {body : List Node}
      (h : pipe.Named) (hbody : ∀ n ∈ body, n.Named) : Named (.branch kind pos pipe bodyPos body)
  /-- A block with another part. -/
  | branchElse {kind : BranchKind} {pos bodyPos elsePos : Nat} {pipe : Pipeline}
      {body elseBody : List Node} (h : pipe.Named) (hbody : ∀ n ∈ body, n.Named)
      (helse : ∀ n ∈ elseBody, n.Named) :
      Named (.branchElse kind pos pipe bodyPos body elsePos elseBody)
  /-- A list. -/
  | group {pos : Nat} {nodes : List Node} (h : ∀ n ∈ nodes, n.Named) : Named (.group pos nodes)
  /-- A jump selects nothing. -/
  | jump {kind : JumpKind} {pos : Nat} : Named (.jump kind pos)
  /-- An invocation selects nothing. -/
  | invoke {pos : Nat} {name : String} : Named (.invoke pos name)

theorem Arg.Named.chain {arg : Arg} {chain : List String} (h : arg.Named)
    (hchain : arg.chain? = some chain) : ∀ name ∈ chain, name ≠ "" := by
  cases arg with
  | dot =>
    obtain rfl : [] = chain := by simpa [chain?] using hchain
    simp
  | field names =>
    obtain rfl : names = chain := by simpa [chain?] using hchain
    exact h
  | function | var | str | number => simp [chain?] at hchain

/-- The members of a named pipeline's shape have names. -/
theorem Pipeline.Named.chain {pipe : Pipeline} {s : Shape} (h : pipe.Named)
    (hs : pipe.shape? = some s) : ∀ name ∈ s.chain, name ≠ "" := by
  have hcmd : ∀ {cmd : Command} {s : Shape}, (∀ arg ∈ cmd.args, arg.Named) →
      cmd.shape? = some s → ∀ name ∈ s.chain, name ≠ "" := by
    intro cmd s hargs hs
    rcases Command.shape?_eq_some.mp hs with ⟨_, arg, rfl, hc, _⟩ | ⟨_, _, arg, rfl, hc, _⟩
    · exact (hargs arg (by simp)).chain hc
    · exact (hargs arg (by simp)).chain hc
  rcases Pipeline.shape?_eq_some.mp hs with ⟨_, cmd, rfl, hc⟩ | ⟨_, cmd, _, _, t, rfl, ht, rfl⟩
  · exact hcmd (h cmd (by simp)) hc
  · have hnames := hcmd (h cmd (by simp)) ht
    exact hnames

end Template

theorem Current.exists_along? {C : Current} {chain : List String} {ty : Ty} :
    C.ty.along? chain = some ty ↔ ∃ D, C.along? chain = some D ∧ D.ty = ty := by
  unfold Current.along?
  constructor
  · intro h
    exact ⟨_, by rw [h]; rfl, rfl⟩
  · rintro ⟨D, hD, rfl⟩
    obtain ⟨ty, hty, rfl⟩ := Option.map_eq_some_iff.mp hD
    exact hty

/-- Functions give something to write exactly if they are known and there is
something to give to them. -/
theorem Ref.exists_pass?_iff {table : Builtins} (hspell : table.Spells) :
    ∀ {names : List String} {r : Ref},
      (∃ r', Ref.pass? table names r = some r' ∧ r'.text ≠ "")
        ↔ r.text ≠ "" ∧ ∀ f ∈ names, table.Knows f
  | [], r => by simp [Ref.pass?]
  | name :: names, r => by
      constructor
      · rintro ⟨r', h, hne⟩
        -- whatever is called, what it is called on is spelled
        have hr := Ref.text_ne_of_pass? h hne
        obtain ⟨f, hf, h⟩ := Option.bind_eq_some_iff.mp h
        rw [if_neg hr] at h
        obtain ⟨-, hknown⟩ := (exists_pass?_iff hspell).mp ⟨r', h, hne⟩
        exact ⟨hr, List.forall_mem_cons.mpr ⟨⟨f, hf⟩, hknown⟩⟩
      · rintro ⟨hr, hknown⟩
        obtain ⟨⟨f, hf⟩, hknown⟩ := List.forall_mem_cons.mp hknown
        -- a call of something spelled is spelled, so the next function may be called
        have hcall : (Ref.result f r.value).text ≠ "" := hspell name f hf r.text hr
        obtain ⟨r', h, hne⟩ := (exists_pass?_iff hspell).mpr ⟨hcall, hknown⟩
        exact ⟨r', by rw [Ref.pass?, hf, Option.bind_some, if_neg hr]; exact h, hne⟩

section

variable {table : Builtins} {depth : Nat} {C : Current} {path : Path} {pos : Nat}
  {pipe : Pipeline}

/-- **An action compiles exactly if its value can be written.** -/
theorem exists_compileNode_action (hspell : table.Spells) (hp : path.Stands C)
    (hn : pipe.Named) :
    (∃ program, compileNode table depth (.place C.ty path) (.action pos pipe) = .ok program)
      ↔ Writable table 2 C pipe := by
  rw [writable_iff]
  constructor
  · rintro ⟨program, h⟩
    obtain ⟨s, r, hs, hres, hne, -⟩ := compileNode_action.mp h
    obtain ⟨ty, hty, hpass⟩ := Option.bind_eq_some_iff.mp hres
    obtain ⟨D, hD, rfl⟩ := Current.exists_along?.mp hty
    -- what is written has a spelling, and only the parameter record has none
    obtain ⟨htext, hknown⟩ := (Ref.exists_pass?_iff hspell).mp ⟨r, hpass, hne⟩
    refine ⟨s, D, hs, Pipeline.length_functions hs, hknown, hD, ?_⟩
    exact Bool.eq_false_iff.mpr fun hroot => htext ((hp.along (hn.chain hs) hD).text.mpr hroot)
  · rintro ⟨s, D, hs, -, hknown, hD, hroot⟩
    have hty : C.ty.along? s.chain = some D.ty := Current.exists_along?.mpr ⟨D, hD, rfl⟩
    have htext : (Ref.place D.ty (path.along s.chain)).text ≠ "" := by
      intro hempty
      simp [(hp.along (hn.chain hs) hD).text.mp hempty] at hroot
    obtain ⟨r, hpass, hne⟩ := (Ref.exists_pass?_iff hspell).mpr ⟨htext, hknown⟩
    exact ⟨_, compileNode_action.mpr
      ⟨s, r, hs, by rw [Ref.resolve?, hty]; exact hpass, hne, rfl⟩⟩

/-- **A pipeline serves as a condition exactly if it is an operand of a type with
truth values.** -/
theorem exists_test_iff (hp : path.Stands C) :
    (∃ chain ty t, pipe.shape? = some ⟨chain, []⟩ ∧ C.ty.along? chain = some ty
      ∧ Ref.Tests ty (path.along chain) t)
      ↔ ∃ D, Selects C pipe D ∧ HasTruth D.ty := by
  constructor
  · rintro ⟨chain, ty, t, hs, hty, ht⟩
    obtain ⟨D, hD, rfl⟩ := Current.exists_along?.mp hty
    exact ⟨D, selects_iff.mpr ⟨chain, hs, hD⟩,
      (exists_tests_iff (hp.canonical.along hty)).mp ⟨t, ht⟩⟩
  · rintro ⟨D, hsel, htruth⟩
    obtain ⟨chain, hs, hD⟩ := selects_iff.mp hsel
    have hty : C.ty.along? chain = some D.ty := Current.exists_along?.mpr ⟨D, hD, rfl⟩
    obtain ⟨t, ht⟩ := (exists_tests_iff (hp.canonical.along hty)).mpr htruth
    exact ⟨chain, D.ty, t, hs, hty, ht⟩

end

mutual
/-- **At a place of a type, exactly the well-typed nodes compile.** -/
theorem compileNode_exact {table : Builtins} (hspell : table.Spells) :
    ∀ (node : Node) {depth : Nat} {C : Current} {path : Path}, path.Stands C → node.Named →
      ((∃ program, compileNode table depth (.place C.ty path) node = .ok program)
        ↔ WellTyped table 2 C node)
  | .text _ content, depth, C, path, _, _ => by
      constructor
      · intro _
        exact .text
      · intro _
        exact ⟨compileText content, by rw [compileNode]⟩
  | .action pos pipe, depth, C, path, hp, .action hpipe => by
      rw [exists_compileNode_action hspell hp hpipe, wellTyped_action]
  | .branch .cond pos pipe bodyPos body, depth, C, path, hp, .branch _ hbody => by
      have ih := @compileNodes_exact table hspell body depth C path hp hbody
      rw [wellTyped_cond, ← exists_test_iff hp, ← ih]
      constructor
      · rintro ⟨program, h⟩
        obtain ⟨chain, ty, t, inner, hs, hty, ht, hinner, -⟩ := compileNode_cond.mp h
        exact ⟨⟨chain, ty, t, hs, hty, ht⟩, inner, hinner⟩
      · rintro ⟨⟨chain, ty, t, hs, hty, ht⟩, inner, hinner⟩
        exact ⟨_, compileNode_cond.mpr ⟨chain, ty, t, inner, hs, hty, ht, hinner, rfl⟩⟩
  | .branchElse .cond pos pipe bodyPos body elsePos elseBody, depth, C, path, hp,
      .branchElse _ hbody helse => by
      have ih := @compileNodes_exact table hspell body depth C path hp hbody
      have ihElse := @compileNodes_exact table hspell elseBody depth C path hp helse
      rw [wellTyped_condElse, ← exists_test_iff hp, ← ih, ← ihElse]
      constructor
      · rintro ⟨program, h⟩
        obtain ⟨chain, ty, t, inner, other, hs, hty, ht, hinner, hother, -⟩ :=
          compileNode_condElse.mp h
        exact ⟨⟨chain, ty, t, hs, hty, ht⟩, ⟨inner, hinner⟩, other, hother⟩
      · rintro ⟨⟨chain, ty, t, hs, hty, ht⟩, ⟨inner, hinner⟩, other, hother⟩
        exact ⟨_, compileNode_condElse.mpr
          ⟨chain, ty, t, inner, other, hs, hty, ht, hinner, hother, rfl⟩⟩
  | .branch .loop pos pipe bodyPos body, depth, C, path, hp, .branch hpipe hbody => by
      -- inside, the current value is an element, and never the parameter record
      have ih : ∀ {chain : List String} {D : Current} {element : Ty},
          pipe.shape? = some ⟨chain, []⟩ → C.along? chain = some D → Iterates D.ty element →
          ((∃ inner, compileNodes table (depth + 1)
              (.place element ((path.along chain).index (loopVariable depth))) body = .ok inner)
            ↔ ∀ n ∈ body, WellTyped table 2 ⟨element, false⟩ n) :=
        fun hs hD he => compileNodes_exact hspell body
          ((hp.along (hpipe.chain hs) hD).index he) hbody
      rw [wellTyped_loop]
      constructor
      · rintro ⟨program, h⟩
        obtain ⟨chain, ty, element, inner, hs, hty, he, hinner, -⟩ := compileNode_loop.mp h
        obtain ⟨D, hD, rfl⟩ := Current.exists_along?.mp hty
        have he := element?_eq_some.mp he
        exact ⟨D, element, ⟨selects_iff.mpr ⟨chain, hs, hD⟩, he⟩,
          (ih hs hD he).mp ⟨inner, hinner⟩⟩
      · rintro ⟨D, element, ⟨hsel, he⟩, hnodes⟩
        obtain ⟨chain, hs, hD⟩ := selects_iff.mp hsel
        obtain ⟨inner, hinner⟩ := (ih hs hD he).mpr hnodes
        exact ⟨_, compileNode_loop.mpr ⟨chain, D.ty, element, inner, hs,
          Current.exists_along?.mpr ⟨D, hD, rfl⟩, element?_eq_some.mpr he, hinner, rfl⟩⟩
  | .group _ nodes, depth, C, path, hp, .group hnodes => by
      rw [compileNode, compileNodes_exact hspell nodes hp hnodes, wellTyped_group]
  | .branchElse .loop .., _, _, _, _, _ | .branch .scope .., _, _, _, _, _
  | .branchElse .scope .., _, _, _, _, _ | .jump .., _, _, _, _, _
  | .invoke .., _, _, _, _, _ => by
      constructor
      · rintro ⟨program, h⟩
        simp [compileNode] at h
      · rintro ⟨⟩

/-- The same for nodes in order. -/
theorem compileNodes_exact {table : Builtins} (hspell : table.Spells) :
    ∀ (nodes : List Node) {depth : Nat} {C : Current} {path : Path}, path.Stands C →
      (∀ n ∈ nodes, n.Named) →
      ((∃ program, compileNodes table depth (.place C.ty path) nodes = .ok program)
        ↔ ∀ n ∈ nodes, WellTyped table 2 C n)
  | [], _, _, _, _, _ => by simp [compileNodes]
  | node :: nodes, depth, C, path, hp, hn => by
      obtain ⟨hnode, hnodes⟩ := List.forall_mem_cons.mp hn
      rw [List.forall_mem_cons, ← compileNode_exact hspell node hp hnode,
        ← compileNodes_exact hspell nodes hp hnodes]
      constructor
      · rintro ⟨program, h⟩
        obtain ⟨first, rest, hfirst, hrest, -⟩ := compileNodes_cons.mp h
        exact ⟨⟨first, hfirst⟩, ⟨rest, hrest⟩⟩
      · rintro ⟨⟨first, hfirst⟩, ⟨rest, hrest⟩⟩
        exact ⟨_, compileNodes_cons.mpr ⟨first, rest, hfirst, hrest, rfl⟩⟩
end

end Stencil
