/-
  Stencil.Proofs.Program.Scope
  ────────────────────────────
  SCOPES AND TYPES OF COMPILED PROGRAMS.

  Inside loops, a compiled program reads paths that start at a parameter, and
  every index in such a path belongs to a loop around it that runs over
  exactly the array indexed.  `Path.HasTy` says both at once: the path leads
  through the types of the parameters, and its indexes are those of the loops
  in scope.

    • `HasTy.spelled` — such paths can be read back from their text,
    • `compileNodes_scoped` — compiling a template against a place in scope
      gives a program in scope: the current reference, the loop depth and the
      loops in scope stay tied to each other through every node.
-/
import Stencil.Library
import Stencil.Proofs.Program.Resolution
import Stencil.Proofs.Program.Spelling
import Stencil.Proofs.Schema.WellFormed

namespace Stencil

open Text (isIdentifier)
open Schema (Ty IsIntegerName)
open Template (Node)
open Outcome

/-! ## §1. Names. -/

/-- Numbers are told apart by their spelling. -/
theorem toString_inj {m n : Nat} (h : toString m = toString n) : m = n := by
  -- the digits are the spelling, and the number can be read back from them
  have hd : Nat.toDigits 10 m = Nat.toDigits 10 n := by
    rw [← Nat.toList_repr, ← Nat.toList_repr]
    exact congrArg String.toList h
  have hm := @Nat.ofDigitChars_ten_toDigits m
  rw [hd, Nat.ofDigitChars_ten_toDigits] at hm
  exact hm.symm

theorem isIdentifier_inputName (k : Nat) : isIdentifier (inputName k) = true :=
  Schema.isIdentifier_append_toString (by decide) k

theorem isIdentifier_loopVariable (depth : Nat) : isIdentifier (loopVariable depth) = true := by
  unfold loopVariable
  split
  · decide
  · exact Schema.isIdentifier_append_toString (by decide) depth

/-- Loops at different depths have different variables. -/
theorem loopVariable_inj {d e : Nat} (h : loopVariable d = loopVariable e) : d = e := by
  -- the outermost variable has no number, and every number has a digit
  have hne : ∀ n : Nat, "i" ≠ "i" ++ toString n := by
    intro n hn
    have hlist := congrArg String.toList hn
    simp [Nat.toList_repr, Nat.toDigits_ne_nil] at hlist
  unfold loopVariable at h
  by_cases hd : d = 0
  · by_cases he : e = 0
    · rw [hd, he]
    · rw [if_pos hd, if_neg he] at h
      exact absurd h (hne e)
  · by_cases he : e = 0
    · rw [if_neg hd, if_pos he] at h
      exact absurd h.symm (hne d)
    · rw [if_neg hd, if_neg he] at h
      exact toString_inj (String.append_right_inj "i" |>.mp h)

/-- Variables of loops begin with an `i`. -/
theorem head?_loopVariable (depth : Nat) : (loopVariable depth).toList.head? = some 'i' := by
  unfold loopVariable
  split <;> simp

/-! ## §2. Paths in scope. -/

/-- The loops in scope, innermost first: their variables and their arrays. -/
abbrev Loops := List (String × Path)

/-- The path starts at a parameter, leads through the types, and is indexed by
loops in scope over exactly the arrays that they index. -/
inductive Path.HasTy (types : List Ty) (loops : Loops) : Path → Ty → Prop
  /-- A parameter. -/
  | param {k : Nat} {ty : Ty} (h : types[k]? = some ty) :
      HasTy types loops (.member .root (inputName k)) ty
  /-- A member that the record has. -/
  | member {base : Path} {members : List (String × Ty)} {name : String} {ty : Ty}
      (hb : HasTy types loops base (.record members)) (h : members.lookup name = some ty) :
      HasTy types loops (.member base name) ty
  /-- An element of an array that a loop in scope runs over. -/
  | index {base : Path} {ty element : Ty} {i : String} (hb : HasTy types loops base ty)
      (he : ty.element? = some element) (hi : (i, base) ∈ loops) :
      HasTy types loops (.index base i) element

namespace Path

/-- More loops in scope take nothing away. -/
theorem HasTy.weaken {types : List Ty} {loops more : Loops} {p : Path} {ty : Ty}
    (h : p.HasTy types loops ty) (hsub : ∀ l ∈ loops, l ∈ more) : p.HasTy types more ty := by
  induction h with
  | param h => exact .param h
  | member _ h ih => exact .member ih h
  | index _ he hi ih => exact .index ih he (hsub _ hi)

/-- Parts of well-formed types are well formed. -/
theorem wellFormed_element {ty element : Ty} (h : ty.WellFormed) (he : ty.element? = some element) :
    element.WellFormed := by
  cases h with
  | scalar | record => simp [Ty.element?] at he
  | sequence h => simpa [Ty.element?] using (Option.some.inj he) ▸ h
  | fixed h => simpa [Ty.element?] using (Option.some.inj he) ▸ h

theorem mem_of_lookup {α : Type} {members : List (String × α)} {name : String} {ty : α}
    (h : members.lookup name = some ty) : (name, ty) ∈ members := by
  obtain ⟨l₁, l₂, hl, -⟩ := List.lookup_eq_some_iff.mp h
  simp [hl]

theorem HasTy.wellFormed {types : List Ty} {loops : Loops} (hw : ∀ ty ∈ types, ty.WellFormed)
    {p : Path} {ty : Ty} (h : p.HasTy types loops ty) : ty.WellFormed := by
  induction h with
  | param h => exact hw _ (List.mem_of_getElem? h)
  | member _ h ih =>
    cases ih with
    | record _ _ hms => exact hms _ (mem_of_lookup h)
  | index _ he _ ih => exact wellFormed_element ih he

/-- **Paths in scope are spelled with identifiers.** -/
theorem HasTy.spelled {types : List Ty} {loops : Loops} (hw : ∀ ty ∈ types, ty.WellFormed)
    (hl : ∀ l ∈ loops, isIdentifier l.1 = true) {p : Path} {ty : Ty}
    (h : p.HasTy types loops ty) : p.Spelled := by
  induction h with
  | param h => exact .param (isIdentifier_inputName _)
  | member hb h ih =>
    cases hb.wellFormed hw with
    | record _ hid _ => exact .member ih (hid _ (mem_of_lookup h))
  | index _ _ hi ih => exact .index ih (hl _ hi)

end Path

/-! ## §3. The current reference. -/

/-- Where a template may be compiled: at the record of the parameters, or at a
path in scope. -/
inductive Path.At (types : List Ty) (loops : Loops) : Path → Ty → Prop
  /-- The record of the parameters. -/
  | root : At types loops .root (inputRecord types)
  /-- A path in scope. -/
  | typed {p : Path} {ty : Ty} (h : p.HasTy types loops ty) : At types loops p ty

/-- The parameters are the members of their record. -/
theorem lookup_inputRecord {types : List Ty} {name : String} {ty : Ty}
    (h : (inputRecord types).member? name = some ty) :
    ∃ k, types[k]? = some ty ∧ name = inputName k := by
  unfold inputRecord Ty.member? at h
  obtain ⟨⟨ty', k⟩, hk, heq⟩ := List.mem_map.mp (Path.mem_of_lookup h)
  simp only [Prod.mk.injEq] at heq
  obtain ⟨rfl, rfl⟩ := heq
  exact ⟨k, List.mk_mem_zipIdx_iff_getElem?.mp hk, rfl⟩

namespace Path

theorem At.member {types : List Ty} {loops : Loops} {p : Path} {ty ty' : Ty} {name : String}
    (h : p.At types loops ty) (hm : ty.member? name = some ty') :
    (p.member name).HasTy types loops ty' := by
  -- members of the parameter record are parameters; all others are members
  cases h with
  | root =>
    obtain ⟨k, hk, rfl⟩ := lookup_inputRecord hm
    exact .param hk
  | typed h =>
    cases ty with
    | record members => exact .member h hm
    | scalar | sequence | fixed => simp [Ty.member?] at hm

/-- Members of members stay in scope. -/
theorem At.along {types : List Ty} {loops : Loops} :
    ∀ {chain : List String} {p : Path} {ty ty' : Ty}, p.At types loops ty →
      ty.along? chain = some ty' → (p.along chain).At types loops ty'
  | [], p, ty, ty', h, ha => by
      obtain rfl : ty = ty' := by simpa [Ty.along?] using ha
      exact h
  | name :: chain, p, ty, ty', h, ha => by
      obtain ⟨ty₁, hty₁, ha⟩ := Option.bind_eq_some_iff.mp ha
      show ((p.member name).along chain).At types loops ty'
      exact At.along (.typed (h.member hty₁)) ha

/-- All but the record of the parameters is a path in scope. -/
theorem At.hasTy_of_ne {types : List Ty} {loops : Loops} {p : Path} {ty : Ty}
    (h : p.At types loops ty) (hne : ∀ members, ty ≠ .record members) :
    p.HasTy types loops ty := by
  cases h with
  | root => exact absurd rfl (hne _)
  | typed h => exact h

/-- Only the record of the parameters has no spelling. -/
theorem At.hasTy_of_text {types : List Ty} {loops : Loops} {p : Path} {ty : Ty}
    (h : p.At types loops ty) (hne : p.text ≠ "") : p.HasTy types loops ty := by
  cases h with
  | root => exact absurd rfl hne
  | typed h => exact h

end Path

/-! ## §4. Programs in scope. -/

/-- The path leads to an array. -/
def Path.IsArray (types : List Ty) (loops : Loops) (p : Path) : Prop :=
  ∃ ty element, p.HasTy types loops ty ∧ ty.element? = some element

/-- The spelling of a value in scope with at most so many calls around it. -/
inductive ValueText (table : Builtins) (types : List Ty) (loops : Loops) : Nat → String → Prop
  /-- A path in scope. -/
  | path {calls : Nat} {p : Path} {ty : Ty} (h : p.HasTy types loops ty) :
      ValueText table types loops calls p.text
  /-- A function of the table called on a value. -/
  | call {calls : Nat} {name text : String} {f : Builtin} (hf : table.get? name = some f)
      (h : ValueText table types loops calls text) :
      ValueText table types loops (calls + 1) (f.spell text)

/-- A test in scope: numbers are compared with zero, truth values stand alone,
and only arrays have a length. -/
inductive Test.Scoped (types : List Ty) (loops : Loops) : Test → Prop
  /-- A number. -/
  | nonzero {p : Path} {name : String} (h : p.HasTy types loops (.scalar name))
      (hn : IsIntegerName name) : Scoped types loops (.nonzero p)
  /-- A truth value. -/
  | holds {p : Path} (h : p.HasTy types loops (.scalar "bool")) : Scoped types loops (.holds p)
  /-- An array. -/
  | nonempty {p : Path} (h : p.IsArray types loops) : Scoped types loops (.nonempty p)

/-- A variable that nothing else in scope is named by. -/
structure FreshVariable (loops : Loops) (i : String) : Prop where
  /-- It is an identifier. -/
  identifier : isIdentifier i = true
  /-- No loop around has it. -/
  loop : ∀ l ∈ loops, l.1 ≠ i
  /-- No parameter has it. -/
  param : ∀ k, i ≠ inputName k
  /-- The document has it not. -/
  body : i ≠ "body"

mutual
/-- A statement in scope, with at most so many calls around a value. -/
def Stmt.Scoped (table : Builtins) (types : List Ty) (calls : Nat) (loops : Loops) :
    Stmt → Prop
  | .append fragments =>
      ∀ v, Fragment.value v ∈ fragments → ValueText table types loops calls v.text
  | .ifThen test body => test.Scoped types loops ∧ Program.Scoped table types calls loops body
  | .ifElse test body other =>
      test.Scoped types loops ∧ Program.Scoped table types calls loops body
        ∧ Program.Scoped table types calls loops other
  | .each i source body =>
      source.IsArray types loops ∧ FreshVariable loops i
        ∧ Program.Scoped table types calls ((i, source) :: loops) body

/-- All statements in scope. -/
def Program.Scoped (table : Builtins) (types : List Ty) (calls : Nat) (loops : Loops) :
    List Stmt → Prop
  | [] => True
  | s :: rest => s.Scoped table types calls loops ∧ Program.Scoped table types calls loops rest
end

theorem Program.scoped_append {table : Builtins} {types : List Ty} {calls : Nat} {loops : Loops}
    {q : Program} : ∀ {p : Program},
      Program.Scoped table types calls loops (p ++ q)
        ↔ Program.Scoped table types calls loops p ∧ Program.Scoped table types calls loops q
  | [] => by simp [Program.Scoped]
  | s :: p => by
      rw [List.cons_append, Program.Scoped, Program.Scoped, Program.scoped_append, and_assoc]

/-- Programs in scope may be joined. -/
theorem Program.scoped_join {table : Builtins} {types : List Ty} {calls : Nat} {loops : Loops}
    {p q : Program} (hp : Program.Scoped table types calls loops p)
    (hq : Program.Scoped table types calls loops q) :
    Program.Scoped table types calls loops (Program.join p q) := by
  -- joining merges two groups at most, whose values are all in scope
  rcases Program.join_cases p q with h | ⟨front, xs, ys, rest, rfl, rfl, h⟩
  · rw [h]
    exact Program.scoped_append.mpr ⟨hp, hq⟩
  · obtain ⟨hfront, hxs, -⟩ := Program.scoped_append.mp hp
    obtain ⟨hys, hrest⟩ := hq
    rw [h]
    refine Program.scoped_append.mpr ⟨hfront, fun v hv => ?_, hrest⟩
    rcases List.mem_append.mp hv with hv | hv
    · exact hxs v hv
    · exact hys v hv

/-! ## §5. Compiling stays in scope. -/

/-- The loops in scope are the first so many. -/
def Loops.Below (loops : Loops) (depth : Nat) : Prop :=
  ∀ l ∈ loops, ∃ d < depth, l.1 = loopVariable d

theorem Loops.Below.identifier {loops : Loops} {depth : Nat} (h : loops.Below depth) :
    ∀ l ∈ loops, isIdentifier l.1 = true := by
  intro l hl
  obtain ⟨d, -, hd⟩ := h l hl
  rw [hd]
  exact isIdentifier_loopVariable d

theorem Loops.Below.cons {loops : Loops} {depth : Nat} (h : loops.Below depth) (p : Path) :
    Loops.Below ((loopVariable depth, p) :: loops) (depth + 1) := by
  intro l hl
  rcases List.mem_cons.mp hl with rfl | hl
  · exact ⟨depth, by omega, rfl⟩
  · obtain ⟨d, hd, hl⟩ := h l hl
    exact ⟨d, by omega, hl⟩

/-- The next loop has a variable of its own. -/
theorem Loops.Below.fresh {loops : Loops} {depth : Nat} (h : loops.Below depth) :
    FreshVariable loops (loopVariable depth) := by
  -- parameters and the document begin with another letter
  have hfirst : ∀ {other : String}, other.toList.head? ≠ some 'i' → loopVariable depth ≠ other := by
    intro other hother heq
    exact hother (heq ▸ head?_loopVariable depth)
  refine ⟨isIdentifier_loopVariable depth, fun l hl heq => ?_, fun k => hfirst ?_, hfirst ?_⟩
  · obtain ⟨d, hd, hl⟩ := h l hl
    have hsame := loopVariable_inj (hl.symm.trans heq)
    omega
  · simp [inputName]
  · decide

/-- A test of a place in scope is in scope. -/
theorem Ref.Tests.scoped {types : List Ty} {loops : Loops} (hw : ∀ ty ∈ types, ty.WellFormed)
    {p : Path} {ty : Ty} {t : Test} (h : Ref.Tests ty p t) (hp : p.At types loops ty) :
    t.Scoped types loops := by
  cases h with
  | nonzero h =>
    cases ty with
    | scalar name =>
      have hty := hp.hasTy_of_ne (by simp)
      cases hty.wellFormed hw with
      | scalar hc => exact .nonzero hty ((Schema.isNumeric_iff hc).mp h)
    | record | sequence | fixed => simp [Ty.isNumeric] at h
  | holds h =>
    cases ty with
    | scalar name =>
      obtain rfl : name = "bool" := by simpa [Ty.isBool] using h
      exact .holds (hp.hasTy_of_ne (by simp))
    | record | sequence | fixed => simp [Ty.isBool] at h
  | nonempty h =>
    refine .nonempty ⟨ty, _, hp.hasTy_of_ne ?_, h⟩
    rintro members rfl
    simp [Ty.element?] at h

/-- What functions give from a value in scope is spelled as calls of them. -/
theorem Ref.valueText_of_pass? {table : Builtins} {types : List Ty} {loops : Loops} :
    ∀ {names : List String} {calls : Nat} {r r' : Ref},
      ValueText table types loops calls r.text → Ref.pass? table names r = some r' →
      ValueText table types loops (calls + names.length) r'.text
  | [], calls, r, r', hr, h => by
      obtain rfl : r = r' := by simpa [Ref.pass?] using h
      exact hr
  | name :: names, calls, r, r', hr, h => by
      obtain ⟨f, hf, h⟩ := Option.bind_eq_some_iff.mp h
      split at h
      next => simp at h
      next =>
        have hcall : ValueText table types loops (calls + 1) (Ref.result f r.value).text :=
          .call hf hr
        have hcount : calls + (name :: names).length = calls + 1 + names.length := by
          simp only [List.length_cons]
          omega
        rw [hcount]
        exact valueText_of_pass? hcall h

theorem ValueText.mono {table : Builtins} {types : List Ty} {loops : Loops} {m n : Nat}
    {text : String} (h : ValueText table types loops m text) (hle : m ≤ n) :
    ValueText table types loops n text := by
  induction h generalizing n with
  | path h => exact .path h
  | call hf _ ih =>
    obtain ⟨n, rfl⟩ : ∃ k, n = k + 1 := ⟨n - 1, by omega⟩
    exact .call hf (ih (by omega))

/-- What a pipeline writes from a place in scope is a path in scope with the
calls of its functions around it. -/
theorem Ref.valueText_of_resolve? {table : Builtins} {types : List Ty} {loops : Loops} {ty : Ty}
    {path : Path} {s : Template.Shape} {r : Ref} (hp : path.At types loops ty)
    (hres : Ref.resolve? table ty path s = some r) (hne : r.text ≠ "") :
    ValueText table types loops s.functions.length r.text := by
  obtain ⟨ty', hty', hpass⟩ := Option.bind_eq_some_iff.mp hres
  have hat := hp.along hty'
  have hvalue : ValueText table types loops 0 (Ref.place ty' (path.along s.chain)).text :=
    .path (hat.hasTy_of_text (Ref.text_ne_of_pass? hpass hne))
  simpa using Ref.valueText_of_pass? hvalue hpass

mutual
/-- **A node compiled at a place in scope gives a program in scope.** -/
theorem compileNode_scoped {table : Builtins} {types : List Ty}
    (hw : ∀ ty ∈ types, ty.WellFormed) :
    ∀ (node : Node) {depth : Nat} {loops : Loops} {ty : Ty} {path : Path} {program : Program},
      path.At types loops ty → loops.Below depth →
      compileNode table depth (.place ty path) node = .ok program →
      Program.Scoped table types 2 loops program
  | .text _ content, depth, loops, ty, path, program, _, _, h => by
      obtain rfl : compileText content = program := by simpa [compileNode] using h
      unfold compileText
      dsimp only
      generalize Text.compact content = text
      split
      · trivial
      · exact ⟨fun v hv => by simp at hv, trivial⟩
  | .action _ pipe, depth, loops, ty, path, program, hp, _, h => by
      obtain ⟨s, r, hs, hres, hne, rfl⟩ := compileNode_action.mp h
      refine ⟨fun v hv => ?_, trivial⟩
      obtain rfl : v = r.value := by simpa using hv
      exact (Ref.valueText_of_resolve? hp hres hne).mono (Template.Pipeline.length_functions hs)
  | .branch .cond pos pipe _ body, depth, loops, ty, path, program, hp, hl, h => by
      obtain ⟨chain, ty', t, inner, -, hty, htests, hinner, rfl⟩ := compileNode_cond.mp h
      exact ⟨⟨htests.scoped hw (hp.along hty), compileNodes_scoped hw body hp hl hinner⟩, trivial⟩
  | .branchElse .cond pos pipe _ body _ elseBody, depth, loops, ty, path, program, hp, hl, h => by
      obtain ⟨chain, ty', t, inner, other, -, hty, htests, hinner, hother, rfl⟩ :=
        compileNode_condElse.mp h
      exact ⟨⟨htests.scoped hw (hp.along hty), compileNodes_scoped hw body hp hl hinner,
        compileNodes_scoped hw elseBody hp hl hother⟩, trivial⟩
  | .branch .loop pos pipe _ body, depth, loops, ty, path, program, hp, hl, h => by
      obtain ⟨chain, ty', element, inner, -, hty, he, hinner, rfl⟩ := compileNode_loop.mp h
      -- an array is not the parameter record, so its path is in scope
      have hsource : (path.along chain).HasTy types loops ty' :=
        (hp.along hty).hasTy_of_ne (by rintro members rfl; simp [Ty.element?] at he)
      -- inside, the current reference is the element at the new variable
      have hinside : ((path.along chain).index (loopVariable depth)).At types
          ((loopVariable depth, path.along chain) :: loops) element :=
        .typed (.index (hsource.weaken fun l hl => List.mem_cons_of_mem _ hl) he
          List.mem_cons_self)
      exact ⟨⟨⟨ty', element, hsource, he⟩, hl.fresh,
        compileNodes_scoped hw body hinside (hl.cons _) hinner⟩, trivial⟩
  | .branchElse .loop pos _ _ _ _ _, _, _, _, _, _, _, _, h => by simp [compileNode] at h
  | .branch .scope pos _ _ _, _, _, _, _, _, _, _, h => by simp [compileNode] at h
  | .branchElse .scope pos _ _ _ _ _, _, _, _, _, _, _, _, h => by simp [compileNode] at h
  | .group _ nodes, depth, loops, ty, path, program, hp, hl, h => by
      rw [compileNode] at h
      exact compileNodes_scoped hw nodes hp hl h
  | .jump kind pos, _, _, _, _, _, _, _, h => by simp [compileNode] at h
  | .invoke pos name, _, _, _, _, _, _, _, h => by simp [compileNode] at h

/-- The same for nodes in order. -/
theorem compileNodes_scoped {table : Builtins} {types : List Ty}
    (hw : ∀ ty ∈ types, ty.WellFormed) :
    ∀ (nodes : List Node) {depth : Nat} {loops : Loops} {ty : Ty} {path : Path}
      {program : Program}, path.At types loops ty → loops.Below depth →
      compileNodes table depth (.place ty path) nodes = .ok program →
      Program.Scoped table types 2 loops program
  | [], _, _, _, _, program, _, _, h => by
      obtain rfl : [] = program := by simpa [compileNodes] using h
      trivial
  | node :: nodes, depth, loops, ty, path, program, hp, hl, h => by
      obtain ⟨first, rest, hfirst, hrest, rfl⟩ := compileNodes_cons.mp h
      exact Program.scoped_join (compileNode_scoped hw node hp hl hfirst)
        (compileNodes_scoped hw nodes hp hl hrest)
end

end Stencil
