/-
  Stencil.Proofs.Program.Rejection
  ────────────────────────────────
  THE ERROR OF A TEMPLATE THAT DOES NOT COMPILE.

  A template that is not well typed has a first node, in the order of the
  text, whose own pipeline is at fault whatever stands in its lists.  The
  error is that node's own, and stands at one of its offsets.

    • `offset_of_hollow` — where the own errors of a node stand,
    • `FirstIllTyped.unique` — there is one first ill-typed node at most,
    • `firstIllTyped_of_nodes` — and compiling ends in its error,
    • `compile_exact` — exactly the well-typed templates compile, and all
      others end in that error.
-/
import Stencil.Proofs.Program.Typing

namespace Stencil

open Schema (Ty)
open Template (Arg Command Pipeline Node)
open Outcome

/-! ## §1. Errors stand at the node that fails. -/

/-- The offset an error stands at. -/
def Error.offset? : Error → Option Nat
  | schema .. => none
  | path _ _ pos | condition _ _ pos | unsupported _ pos | malformed _ pos => some pos

namespace Template

/-- The offsets of a pipeline and of its commands. -/
def Pipeline.offsets (pipe : Pipeline) : List Nat :=
  pipe.pos :: pipe.commands.map Command.pos

/-- The offsets of a node and of its pipeline, but not of its lists. -/
def Node.offsets (node : Node) : List Nat :=
  node.pos :: (node.pipeline?.map Pipeline.offsets).getD []

/-- The node with nothing in its lists. -/
def Node.hollow : Node → Node
  | branch kind pos pipe bodyPos _ => branch kind pos pipe bodyPos []
  | branchElse kind pos pipe bodyPos _ elsePos _ =>
      branchElse kind pos pipe bodyPos [] elsePos []
  | group pos _ => group pos []
  | node => node

theorem Node.Named.hollow {node : Node} (h : node.Named) : node.hollow.Named := by
  cases h with
  | text => exact .text
  | action h => exact .action h
  | branch h _ => exact .branch h (by simp)
  | branchElse h _ _ => exact .branchElse h (by simp) (by simp)
  | group _ => exact .group (by simp)
  | jump => exact .jump
  | invoke => exact .invoke

end Template

namespace Ref

theorem offset_of_selectAll {pos : Nat} {e : Error} :
    ∀ {names : List String} {r : Ref}, r.selectAll names pos = .error e → e.offset? = some pos
  | [], r, h => by simp [selectAll] at h
  | name :: names, r, h => by
      unfold selectAll at h
      rw [List.foldlM_cons] at h
      rcases bind_eq_error.mp h with h | ⟨r', -, h⟩
      · unfold select at h
        split at h
        · split at h
          · simp at h
          · obtain rfl := Except.error.inj h
            rfl
        · obtain rfl := Except.error.inj h
          rfl
      · exact offset_of_selectAll h

theorem offset_of_ofArg {current : Ref} {arg : Arg} {pos : Nat} {e : Error}
    (h : current.ofArg arg pos = .error e) : e.offset? = some pos := by
  cases arg with
  | dot => simp [ofArg] at h
  | field names => exact offset_of_selectAll h
  | function | var | str | number =>
    obtain rfl := Except.error.inj h
    rfl

theorem offset_of_findFunction {table : Builtins} {name path : String} {pos : Nat} {e : Error}
    (h : findFunction table name path pos = .error e) : e.offset? = some pos := by
  unfold findFunction at h
  split at h
  · simp at h
  · obtain rfl := Except.error.inj h
    rfl

theorem offset_of_checkedValue {r : Ref} {pos : Nat} {e : Error}
    (h : r.checkedValue pos = .error e) : e.offset? = some pos := by
  unfold checkedValue at h
  split at h
  · obtain rfl := Except.error.inj h
    rfl
  · simp at h

theorem offset_of_call {table : Builtins} {name : String} {argument : Ref} {pos : Nat} {e : Error}
    (h : call table name argument pos = .error e) : e.offset? = some pos := by
  rcases bind_eq_error.mp h with h | ⟨f, -, h⟩
  · exact offset_of_findFunction h
  · rcases bind_eq_error.mp h with h | ⟨v, -, h⟩
    · exact offset_of_checkedValue h
    · simp at h

/-- An error of a command stands at the command. -/
theorem offset_of_ofCommand {table : Builtins} {current : Ref} {cmd : Command} {e : Error}
    (h : ofCommand table current cmd = .error e) : e.offset? = some cmd.pos := by
  unfold ofCommand at h
  split at h
  · rcases bind_eq_error.mp h with h | ⟨argument, -, h⟩
    · exact offset_of_ofArg h
    · exact offset_of_call h
  · rcases bind_eq_error.mp h with h | ⟨f, -, h⟩
    · exact offset_of_findFunction h
    · obtain rfl := Except.error.inj h
      rfl
  · exact offset_of_ofArg h
  · obtain rfl := Except.error.inj h
    rfl

/-- An error of a pipeline stands at the pipeline or at a command of it. -/
theorem offset_of_ofPipeline {table : Builtins} {current : Ref} {pipe : Pipeline} {e : Error}
    (h : ofPipeline table current pipe = .error e) : ∃ p ∈ pipe.offsets, e.offset? = some p := by
  obtain ⟨pos, declared, commands⟩ := pipe
  unfold ofPipeline at h
  unfold Pipeline.offsets
  dsimp only at h ⊢
  split at h
  · obtain rfl := Except.error.inj h
    exact ⟨pos, by simp, rfl⟩
  · split at h
    next cmd => exact ⟨cmd.pos, by simp, offset_of_ofCommand h⟩
    next first last =>
      rcases bind_eq_error.mp h with h | ⟨argument, -, h⟩
      · exact ⟨first.pos, by simp, offset_of_ofCommand h⟩
      · refine ⟨last.pos, by simp, ?_⟩
        split at h
        · exact offset_of_call h
        · obtain rfl := Except.error.inj h
          rfl
    next =>
      obtain rfl := Except.error.inj h
      exact ⟨pos, by simp, rfl⟩

theorem offset_of_test {r : Ref} {pos : Nat} {e : Error} (h : r.test pos = .error e) :
    e.offset? = some pos := by
  unfold test at h
  split at h
  · split at h
    · simp at h
    · split at h
      · simp at h
      · split at h
        · simp at h
        · obtain rfl := Except.error.inj h
          rfl
  · obtain rfl := Except.error.inj h
    rfl

theorem offset_of_source {r : Ref} {pos : Nat} {e : Error} (h : r.source pos = .error e) :
    e.offset? = some pos := by
  unfold source at h
  dsimp only at h
  split at h
  · split at h
    · simp at h
    · obtain rfl := Except.error.inj h
      rfl
  · obtain rfl := Except.error.inj h
    rfl

end Ref

/-- An error of a node with nothing in its lists stands at the node, at its
pipeline or at a command of it. -/
theorem offset_of_hollow {table : Builtins} {depth : Nat} {current : Ref} {node : Node} {e : Error}
    (h : compileNode table depth current node.hollow = .error e) :
    ∃ p ∈ node.offsets, e.offset? = some p := by
  -- errors come from the pipeline, or stand at the node itself
  have hpipe : ∀ {pipe : Pipeline}, current.ofPipeline table pipe = .error e →
      node.pipeline? = some pipe → ∃ p ∈ node.offsets, e.offset? = some p := by
    intro pipe h hnode
    obtain ⟨p, hp, he⟩ := Ref.offset_of_ofPipeline h
    exact ⟨p, by simp [Node.offsets, hnode, hp], he⟩
  have hself : e.offset? = some node.pos → ∃ p ∈ node.offsets, e.offset? = some p :=
    fun he => ⟨node.pos, by simp [Node.offsets], he⟩
  match node with
  | .text .. => simp [Node.hollow, compileNode] at h
  | .action pos pipe =>
    rw [Node.hollow, compileNode] at h
    · rcases bind_eq_error.mp h with h | ⟨r, -, h⟩
      · exact hpipe h rfl
      · rcases bind_eq_error.mp h with h | ⟨v, -, h⟩
        · exact ⟨pipe.pos, by simp [Node.offsets, Node.pipeline?, Pipeline.offsets],
            Ref.offset_of_checkedValue h⟩
        · simp at h
    all_goals simp
  | .branch .cond pos pipe _ _ | .branchElse .cond pos pipe _ _ _ _ =>
    rw [Node.hollow, compileNode] at h
    rcases bind_eq_error.mp h with h | ⟨r, -, h⟩
    · exact hpipe h rfl
    · rcases bind_eq_error.mp h with h | ⟨t, -, h⟩
      · exact hself (Ref.offset_of_test h)
      · simp [compileNodes] at h
  | .branch .loop pos pipe _ _ =>
    rw [Node.hollow, compileNode] at h
    rcases bind_eq_error.mp h with h | ⟨r, -, h⟩
    · exact hpipe h rfl
    · rcases bind_eq_error.mp h with h | ⟨source, -, h⟩
      · exact hself (Ref.offset_of_source h)
      · simp [compileNodes] at h
  | .group .. => simp [Node.hollow, compileNode, compileNodes] at h
  | .branchElse .loop .. | .branch .scope .. | .branchElse .scope .. | .jump .. | .invoke .. =>
    simp only [Node.hollow, compileNode, Except.error.injEq] at h
    subst h
    exact hself rfl

/-! ## §2. The first node that fails. -/

/-- Coming from the current value, the node is the first, in the order of the
text, that would be ill typed whatever stood in its lists; all nodes before it
are well typed, and so is what stands around it up to its place. -/
inductive FirstIllTyped (table : Builtins) (calls : Nat) :
    Current → List Node → Current → Node → Prop
  /-- It is the next node. -/
  | here {C : Current} {n : Node} {rest : List Node} (h : ¬ WellTyped table calls C n.hollow) :
      FirstIllTyped table calls C (n :: rest) C n
  /-- It stands after a well-typed node. -/
  | next {C D : Current} {m n : Node} {rest : List Node} (h : WellTyped table calls C m)
      (hn : FirstIllTyped table calls C rest D n) :
      FirstIllTyped table calls C (m :: rest) D n
  /-- It stands under a condition. -/
  | cond {C D E : Current} {pos bodyPos : Nat} {pipe : Pipeline} {body rest : List Node}
      {n : Node} (h : Selects C pipe E) (ht : HasTruth E.ty)
      (hn : FirstIllTyped table calls C body D n) :
      FirstIllTyped table calls C (.branch .cond pos pipe bodyPos body :: rest) D n
  /-- It stands under a condition that has another part. -/
  | condElse {C D E : Current} {pos bodyPos elsePos : Nat} {pipe : Pipeline}
      {body elseBody rest : List Node} {n : Node} (h : Selects C pipe E) (ht : HasTruth E.ty)
      (hn : FirstIllTyped table calls C body D n) :
      FirstIllTyped table calls C
        (.branchElse .cond pos pipe bodyPos body elsePos elseBody :: rest) D n
  /-- It stands in the other part. -/
  | inElse {C D E : Current} {pos bodyPos elsePos : Nat} {pipe : Pipeline}
      {body elseBody rest : List Node} {n : Node} (h : Selects C pipe E) (ht : HasTruth E.ty)
      (hbody : ∀ m ∈ body, WellTyped table calls C m)
      (hn : FirstIllTyped table calls C elseBody D n) :
      FirstIllTyped table calls C
        (.branchElse .cond pos pipe bodyPos body elsePos elseBody :: rest) D n
  /-- It stands in a loop. -/
  | loop {C D E : Current} {element : Ty} {pos bodyPos : Nat} {pipe : Pipeline}
      {body rest : List Node} {n : Node} (h : Selects C pipe E) (he : Iterates E.ty element)
      (hn : FirstIllTyped table calls ⟨element, false⟩ body D n) :
      FirstIllTyped table calls C (.branch .loop pos pipe bodyPos body :: rest) D n
  /-- It stands in a list. -/
  | group {C D : Current} {pos : Nat} {nodes rest : List Node} {n : Node}
      (hn : FirstIllTyped table calls C nodes D n) :
      FirstIllTyped table calls C (.group pos nodes :: rest) D n

/-- A well-typed node is so with nothing in its lists. -/
theorem WellTyped.hollow {table : Builtins} {calls : Nat} {C : Current} {n : Node}
    (h : WellTyped table calls C n) : WellTyped table calls C n.hollow := by
  cases h with
  | text => exact .text
  | action h => exact .action h
  | cond h ht _ => exact .cond h ht (by simp)
  | condElse h ht _ _ => exact .condElse h ht (by simp) (by simp)
  | loop h he _ => exact .loop h he (by simp)
  | group _ => exact .group (by simp)

namespace FirstIllTyped

variable {table : Builtins} {calls : Nat} {C D : Current} {nodes : List Node} {n : Node}

/-- Nodes among which one is the first ill-typed are not all well typed. -/
theorem not_wellTyped (h : FirstIllTyped table calls C nodes D n) :
    ¬ ∀ m ∈ nodes, WellTyped table calls C m := by
  induction h with
  | here h => exact fun hall => h (hall _ List.mem_cons_self).hollow
  | next _ _ ih => exact fun hall => ih fun m hm => hall m (List.mem_cons_of_mem _ hm)
  | cond _ _ _ ih => exact fun hall => ih (wellTyped_cond.mp (hall _ List.mem_cons_self)).2
  | condElse _ _ _ ih =>
    exact fun hall => ih (wellTyped_condElse.mp (hall _ List.mem_cons_self)).2.1
  | inElse _ _ _ _ ih =>
    exact fun hall => ih (wellTyped_condElse.mp (hall _ List.mem_cons_self)).2.2
  | loop h he _ ih =>
    intro hall
    obtain ⟨E, element, ⟨h', he'⟩, hbody⟩ := wellTyped_loop.mp (hall _ List.mem_cons_self)
    obtain rfl := h.unique h'
    obtain rfl := he.unique he'
    exact ih hbody
  | group _ ih => exact fun hall => ih (wellTyped_group.mp (hall _ List.mem_cons_self))

/-- **There is one first ill-typed node at most.** -/
theorem unique (h₁ : FirstIllTyped table calls C nodes D n) :
    ∀ {E : Current} {m : Node}, FirstIllTyped table calls C nodes E m → D = E ∧ n = m := by
  induction h₁ with
  | here hill =>
    intro E m h₂
    cases h₂ with
    | here => exact ⟨rfl, rfl⟩
    | next hw _ => exact absurd hw.hollow hill
    | cond h ht _ => exact absurd (.cond h ht (by simp)) hill
    | condElse h ht _ | inElse h ht _ _ =>
      exact absurd (.condElse h ht (by simp) (by simp)) hill
    | loop h he _ => exact absurd (.loop h he (by simp)) hill
    | group _ => exact absurd (.group (by simp)) hill
  | next hw _ ih =>
    intro E m h₂
    cases h₂ with
    | here hill => exact absurd hw.hollow hill
    | next _ hn => exact ih hn
    | cond _ _ hn => exact absurd (wellTyped_cond.mp hw).2 hn.not_wellTyped
    | condElse _ _ hn => exact absurd (wellTyped_condElse.mp hw).2.1 hn.not_wellTyped
    | inElse _ _ _ hn => exact absurd (wellTyped_condElse.mp hw).2.2 hn.not_wellTyped
    | loop h he hn =>
      obtain ⟨E, element, ⟨h', he'⟩, hbody⟩ := wellTyped_loop.mp hw
      obtain rfl := h.unique h'
      obtain rfl := he.unique he'
      exact absurd hbody hn.not_wellTyped
    | group hn => exact absurd (wellTyped_group.mp hw) hn.not_wellTyped
  | cond h ht hn ih =>
    intro E m h₂
    cases h₂ with
    | here hill => exact absurd (.cond h ht (by simp)) hill
    | next hw _ => exact absurd (wellTyped_cond.mp hw).2 hn.not_wellTyped
    | cond _ _ hn' => exact ih hn'
  | condElse h ht hn ih =>
    intro E m h₂
    cases h₂ with
    | here hill => exact absurd (.condElse h ht (by simp) (by simp)) hill
    | next hw _ => exact absurd (wellTyped_condElse.mp hw).2.1 hn.not_wellTyped
    | condElse _ _ hn' => exact ih hn'
    | inElse _ _ hbody _ => exact absurd hbody hn.not_wellTyped
  | inElse h ht hbody hn ih =>
    intro E m h₂
    cases h₂ with
    | here hill => exact absurd (.condElse h ht (by simp) (by simp)) hill
    | next hw _ => exact absurd (wellTyped_condElse.mp hw).2.2 hn.not_wellTyped
    | condElse _ _ hn' => exact absurd hbody hn'.not_wellTyped
    | inElse _ _ _ hn' => exact ih hn'
  | loop h he hn ih =>
    intro E m h₂
    cases h₂ with
    | here hill => exact absurd (.loop h he (by simp)) hill
    | next hw _ =>
      obtain ⟨E, element, ⟨h', he'⟩, hbody⟩ := wellTyped_loop.mp hw
      obtain rfl := h.unique h'
      obtain rfl := he.unique he'
      exact absurd hbody hn.not_wellTyped
    | loop h' he' hn' =>
      obtain rfl := h.unique h'
      obtain rfl := he.unique he'
      exact ih hn'
  | group hn ih =>
    intro E m h₂
    cases h₂ with
    | here hill => exact absurd (.group (by simp)) hill
    | next hw _ => exact absurd (wellTyped_group.mp hw) hn.not_wellTyped
    | group hn' => exact ih hn'

end FirstIllTyped

/-! ## §3. Its error. -/

/-- The error is the node's own: compiling the node with nothing in its lists,
at a place of the type, ends in it. -/
def OwnError (table : Builtins) (C : Current) (n : Node) (e : Error) : Prop :=
  ∃ (depth : Nat) (path : Path), path.Stands C
    ∧ compileNode table depth (.place C.ty path) n.hollow = .error e

/-- A node that fails with nothing in its lists is the first to fail. -/
theorem firstIllTyped_self {table : Builtins} (hspell : table.Spells) {C : Current}
    {path : Path} {node : Node} {e : Error} (depth : Nat) (rest : List Node) (hp : path.Stands C)
    (hn : node.Named) (h : compileNode table depth (.place C.ty path) node.hollow = .error e) :
    ∃ D n, FirstIllTyped table 2 C (node :: rest) D n ∧ OwnError table D n e := by
  -- were it well typed by itself, it would compile
  refine ⟨C, node, .here fun hwell => ?_, depth, path, hp, h⟩
  have hexact := @compileNode_exact table hspell node.hollow depth C path hp hn.hollow
  obtain ⟨program, hok⟩ := hexact.mpr hwell
  simp [h] at hok

/-- A block under a condition fails in its condition, whatever it holds, or its
condition has a truth value and the rest of it fails. -/
theorem error_of_condition {table : Builtins} {C : Current} {path : Path} {pipe : Pipeline}
    {pos : Nat} {e : Error} {rest : Test → Except Error Program} (hp : path.Stands C)
    (h : (do let t ← (← (Ref.place C.ty path).ofPipeline table pipe).test pos
             rest t) = .error e) :
    (∀ other : Test → Except Error Program,
      (do let t ← (← (Ref.place C.ty path).ofPipeline table pipe).test pos
          other t) = .error e)
    ∨ (∃ D, Selects C pipe D ∧ HasTruth D.ty) ∧ ∃ t, rest t = .error e := by
  rcases bind_eq_error.mp h with hr | ⟨r, hr, h⟩
  · left
    intro other
    rw [hr, error_bind]
  rcases bind_eq_error.mp h with ht | ⟨t, ht, h⟩
  · left
    intro other
    rw [hr, ok_bind, ht, error_bind]
  · right
    obtain ⟨chain, ty, hs, hty, htests⟩ := Ref.test_eq_ok.mp (bind_eq_ok.mpr ⟨r, hr, ht⟩)
    exact ⟨(exists_test_iff hp).mp ⟨chain, ty, t, hs, hty, htests⟩, t, h⟩

mutual
/-- **A node that fails ends in the own error of the first node in it, in the
order of the text, that is ill typed by itself.** -/
theorem firstIllTyped_of_node {table : Builtins} (hspell : table.Spells) :
    ∀ (node : Node) (rest : List Node) {depth : Nat} {C : Current} {path : Path} {e : Error},
      path.Stands C → node.Named → compileNode table depth (.place C.ty path) node = .error e →
      ∃ D n, FirstIllTyped table 2 C (node :: rest) D n ∧ OwnError table D n e
  | .branch .cond pos pipe bodyPos body, rest, depth, C, path, e, hp, hn, h => by
      rw [compileNode] at h
      rcases error_of_condition hp h with hhead | ⟨⟨E, hsel, htruth⟩, t, h⟩
      · exact firstIllTyped_self hspell depth rest hp hn
          (by rw [Node.hollow, compileNode]; exact hhead _)
      cases hn with
      | branch _ hbody =>
        rcases bind_eq_error.mp h with hb | ⟨inner, -, h⟩
        · obtain ⟨D, n, hfirst, hown⟩ := firstIllTyped_of_nodes hspell body hp hbody hb
          exact ⟨D, n, .cond hsel htruth hfirst, hown⟩
        · simp at h
  | .branchElse .cond pos pipe bodyPos body elsePos elseBody, rest, depth, C, path, e, hp, hn,
      h => by
      rw [compileNode] at h
      rcases error_of_condition hp h with hhead | ⟨⟨E, hsel, htruth⟩, t, h⟩
      · exact firstIllTyped_self hspell depth rest hp hn
          (by rw [Node.hollow, compileNode]; exact hhead _)
      cases hn with
      | branchElse _ hbody helse =>
        rcases bind_eq_error.mp h with hb | ⟨inner, hinner, h⟩
        · obtain ⟨D, n, hfirst, hown⟩ := firstIllTyped_of_nodes hspell body hp hbody hb
          exact ⟨D, n, .condElse hsel htruth hfirst, hown⟩
        rcases bind_eq_error.mp h with ho | ⟨other, -, h⟩
        -- the first list compiled, so it is well typed
        · have hwell := (compileNodes_exact hspell body hp hbody).mp ⟨inner, hinner⟩
          obtain ⟨D, n, hfirst, hown⟩ := firstIllTyped_of_nodes hspell elseBody hp helse ho
          exact ⟨D, n, .inElse hsel htruth hwell hfirst, hown⟩
        · simp at h
  | .branch .loop pos pipe bodyPos body, rest, depth, C, path, e, hp, hn, h => by
      rw [compileNode] at h
      rcases bind_eq_error.mp h with hr | ⟨r, hr, h⟩
      · exact firstIllTyped_self hspell depth rest hp hn (by rw [Node.hollow, compileNode, hr]; rfl)
      rcases bind_eq_error.mp h with ht | ⟨⟨path', element⟩, ht, h⟩
      · exact firstIllTyped_self hspell depth rest hp hn
          (by rw [Node.hollow, compileNode, hr, ok_bind, ht]; rfl)
      rcases bind_eq_error.mp h with hb | ⟨inner, -, h⟩
      -- the source is an array, so the fault lies with an element's list
      · obtain ⟨chain, ty, hs, hty, he, rfl⟩ :=
          Ref.source_eq_ok.mp (bind_eq_ok.mpr ⟨r, hr, ht⟩)
        obtain ⟨E, hE, rfl⟩ := Current.exists_along?.mp hty
        have he := element?_eq_some.mp he
        cases hn with
        | branch hpipe hbody =>
          have hinside := (hp.along (hpipe.chain hs) hE).index (i := loopVariable depth) he
          obtain ⟨D, n, hfirst, hown⟩ := firstIllTyped_of_nodes hspell body hinside hbody hb
          exact ⟨D, n, .loop (selects_iff.mpr ⟨chain, hs, hE⟩) he hfirst, hown⟩
      · simp at h
  | .group pos nodes, rest, depth, C, path, e, hp, .group hnodes, h => by
      rw [compileNode] at h
      obtain ⟨D, n, hfirst, hown⟩ := firstIllTyped_of_nodes hspell nodes hp hnodes h
      exact ⟨D, n, .group hfirst, hown⟩
  | .text .., rest, depth, _, _, _, hp, hn, h | .action .., rest, depth, _, _, _, hp, hn, h
  | .jump .., rest, depth, _, _, _, hp, hn, h | .invoke .., rest, depth, _, _, _, hp, hn, h =>
      firstIllTyped_self hspell depth rest hp hn h
  | .branchElse .loop .., rest, depth, _, _, _, hp, hn, h
  | .branch .scope .., rest, depth, _, _, _, hp, hn, h
  | .branchElse .scope .., rest, depth, _, _, _, hp, hn, h => by
      refine firstIllTyped_self hspell depth rest hp hn ?_
      rw [Node.hollow, compileNode]
      rw [compileNode] at h
      exact h

/-- The same for nodes in order. -/
theorem firstIllTyped_of_nodes {table : Builtins} (hspell : table.Spells) :
    ∀ (nodes : List Node) {depth : Nat} {C : Current} {path : Path} {e : Error},
      path.Stands C → (∀ n ∈ nodes, n.Named) →
      compileNodes table depth (.place C.ty path) nodes = .error e →
      ∃ D n, FirstIllTyped table 2 C nodes D n ∧ OwnError table D n e
  | [], _, _, _, _, _, _, h => by simp [compileNodes] at h
  | node :: nodes, depth, C, path, e, hp, hn, h => by
      obtain ⟨hnode, hnodes⟩ := List.forall_mem_cons.mp hn
      rw [compileNodes] at h
      rcases bind_eq_error.mp h with h | ⟨first, hfirst, h⟩
      · exact firstIllTyped_of_node hspell node nodes hp hnode h
      rcases bind_eq_error.mp h with h | ⟨others, -, h⟩
      · obtain ⟨D, n, hn, hown⟩ := firstIllTyped_of_nodes hspell nodes hp hnodes h
        have hwell := (compileNode_exact hspell node hp hnode).mp ⟨first, hfirst⟩
        exact ⟨D, n, .next hwell hn, hown⟩
      · simp at h
end

/-! ## §4. Whole templates. -/

/-- **Exactly the well-typed templates compile, and any other ends in the own
error of its first ill-typed node.** -/
theorem compile_exact {table : Builtins} (hspell : table.Spells) {root : Ty}
    (hroot : root.Canonical) {nodes : List Node} (hnamed : ∀ n ∈ nodes, n.Named) :
    ((∃ program, compile table root nodes = .ok program)
      ↔ ∀ n ∈ nodes, WellTyped table 2 ⟨root, true⟩ n)
    ∧ ∀ e, compile table root nodes = .error e →
      ∃ D n, FirstIllTyped table 2 ⟨root, true⟩ nodes D n
        ∧ (∀ D' n', FirstIllTyped table 2 ⟨root, true⟩ nodes D' n' → D = D' ∧ n = n')
        ∧ OwnError table D n e ∧ ∃ p ∈ n.offsets, e.offset? = some p := by
  have hp : Path.root.Stands ⟨root, true⟩ := ⟨by simp [Path.text], hroot⟩
  refine ⟨compileNodes_exact hspell nodes hp hnamed, fun e h => ?_⟩
  obtain ⟨D, n, hfirst, hown⟩ := firstIllTyped_of_nodes hspell nodes hp hnamed h
  obtain ⟨depth, path, -, hhollow⟩ := id hown
  exact ⟨D, n, hfirst, fun _ _ hother => hfirst.unique hother, hown, offset_of_hollow hhollow⟩

-- A function that spells nothing is refused like the parameter record, which
-- is why every function has to spell something.
example :
    compile (Builtin.table [⟨"mute", "", fun _ => ""⟩]) (.record [("obj0", .scalar "uint256")])
      [.action 0 ⟨2, none, [⟨2, [.function "mute", .field ["obj0"]]⟩]⟩]
      = .error (.path "" .noValue 2) := rfl

theorem standard_spells : Builtins.Spells Builtin.standard := by
  intro name f hf text _ hempty
  rw [spell_standard (mem_standardFunctions hf)] at hempty
  simp at hempty

/-- A loop that writes every number of a parameter compiles. -/
theorem compile_exact_numbers :
    ∃ program, compile Builtin.standard (.record [("obj0", .sequence (.scalar "uint256"))])
      [.branch .loop 0 ⟨8, none, [⟨8, [.field ["obj0"]]⟩]⟩ 15
        [.action 15 ⟨17, none, [⟨17, [.function "toString", .dot]⟩]⟩]] = .ok program := by
  have hroot : Ty.Canonical (.record [("obj0", .sequence (.scalar "uint256"))]) := by
    refine .record fun m hm => ?_
    obtain rfl : m = ("obj0", .sequence (.scalar "uint256")) := by simpa using hm
    exact .sequence (.scalar ⟨"uint", .uint⟩)
  refine (compile_exact standard_spells hroot ?_).1.mpr ?_
  · simp only [List.mem_singleton, forall_eq]
    refine .branch (by simp [Pipeline.Named, Arg.Named]) fun n hn => ?_
    obtain rfl := List.mem_singleton.mp hn
    exact .action (by simp [Pipeline.Named, Arg.Named])
  · simp only [List.mem_singleton, forall_eq]
    refine .loop (.operand (.field rfl)) (.sequence _) fun n hn => ?_
    obtain rfl := List.mem_singleton.mp hn
    exact .action (.call (by omega) .dot rfl ⟨_, rfl⟩)

/-- **One call is not enough:** a function with its operand, piped into another
function, compiles. -/
theorem not_compile_exact_one :
    ¬ ∀ (table : Builtins) (root : Ty) (nodes : List Node), table.Spells → root.Canonical →
        (∀ n ∈ nodes, n.Named) →
        ((∃ program, compile table root nodes = .ok program)
          ↔ ∀ n ∈ nodes, WellTyped table 1 ⟨root, true⟩ n) := by
  intro hall
  have hroot : Ty.Canonical (.record [("obj0", .scalar "uint256")]) := by
    refine .record fun m hm => ?_
    obtain rfl : m = ("obj0", .scalar "uint256") := by simpa using hm
    exact .scalar ⟨"uint", .uint⟩
  have hnamed : ∀ n ∈ [Node.action 0 ⟨2, none, [⟨2, [.function "toString", .field ["obj0"]]⟩,
      ⟨19, [.function "toHexString"]⟩]⟩], n.Named := by
    simp only [List.mem_singleton, forall_eq]
    exact .action (by simp [Pipeline.Named, Arg.Named])
  have hwell := (hall Builtin.standard _ _ standard_spells hroot hnamed).mp ⟨_, rfl⟩
  obtain ⟨s, -, hs, hlen, -⟩ := writable_iff.mp (wellTyped_action.mp (hwell _ List.mem_cons_self))
  obtain rfl : ⟨["obj0"], ["toString", "toHexString"]⟩ = s := Option.some.inj hs
  simp at hlen

end Stencil
