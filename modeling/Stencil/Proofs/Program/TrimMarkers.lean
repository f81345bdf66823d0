/-
  Stencil.Proofs.Program.TrimMarkers
  ──────────────────────────────────
  TRIM MARKERS DO NOT REACH THE PROGRAM.

  Trim markers decide which blanks around actions belong to a text.  Compiling
  does not see those: a text is trimmed before it is compacted, and a text of
  which nothing is left compiles to nothing.  So a template compiles as its
  settled tree does, and that is the same with and without markers.

    • `ofPipeline_erase` — a pipeline refers to the same wherever it stands,
    • `compileText_settled` — a text and what trimming leaves of it have the
      same program,
    • `compileNodes_settle` — so nodes compile as their settled nodes do,
    • `compileSource_unmark` — a template compiles to the same operations
      without its markers, or fails with the same words.
-/
import Stencil.Proofs.Program.Emission
import Stencil.Proofs.Template.Unmarking

namespace Stencil

open Schema (Ty)
open Outcome
open Template

/-! ## §1. References at no offset. -/

namespace Ref

theorem select_unplace (r : Ref) (name : String) (pos : Nat) :
    r.select name 0 = unplace (r.select name pos) := by
  unfold select
  split
  next members path =>
    split
    next => rfl
    next => rfl
  next => rfl

theorem selectAll_unplace (names : List String) (pos : Nat) : ∀ r : Ref,
    r.selectAll names 0 = unplace (r.selectAll names pos) := by
  induction names with
  | nil => exact fun r => rfl
  | cons name names ih =>
    intro r
    unfold selectAll
    rw [List.foldlM_cons, List.foldlM_cons, unplace_bind, select_unplace r name pos]
    exact bind_congr fun r => ih r

theorem checkedValue_unplace (r : Ref) (pos : Nat) :
    r.checkedValue 0 = unplace (r.checkedValue pos) := by
  unfold checkedValue
  split
  next => rfl
  next => rfl

theorem findFunction_unplace (table : Builtins) (name path : String) (pos : Nat) :
    findFunction table name path 0 = unplace (findFunction table name path pos) := by
  unfold findFunction
  split
  next => rfl
  next => rfl

theorem call_unplace (table : Builtins) (name : String) (argument : Ref) (pos : Nat) :
    call table name argument 0 = unplace (call table name argument pos) := by
  unfold call
  rw [unplace_bind, findFunction_unplace table name argument.text pos]
  refine bind_congr fun f => ?_
  rw [unplace_bind, checkedValue_unplace argument pos]
  rfl

theorem ofArg_unplace (current : Ref) (arg : Arg) (pos : Nat) :
    current.ofArg arg 0 = unplace (current.ofArg arg pos) := by
  cases arg with
  | field names => exact selectAll_unplace names pos current
  | dot | function | var | str | number => rfl

theorem ofCommand_erase (table : Builtins) (current : Ref) (cmd : Command) :
    current.ofCommand table cmd.erase = unplace (current.ofCommand table cmd) := by
  unfold ofCommand Command.erase
  dsimp only
  split
  next name arg _ =>
    rw [unplace_bind, ofArg_unplace current arg cmd.pos]
    exact bind_congr fun argument => call_unplace table name argument cmd.pos
  next name rest _ _ =>
    rw [unplace_bind, findFunction_unplace table name current.text cmd.pos]
    rfl
  next arg _ _ => exact ofArg_unplace current arg cmd.pos
  next => rfl

/-- **A pipeline refers to the same wherever it stands.** -/
theorem ofPipeline_erase (table : Builtins) (current : Ref) (pipe : Pipeline) :
    current.ofPipeline table pipe.erase = unplace (current.ofPipeline table pipe) := by
  obtain ⟨pos, declared, commands⟩ := pipe
  cases declared with
  | some name => rfl
  | none =>
    rcases commands with _ | ⟨first, _ | ⟨last, _ | ⟨more, commands⟩⟩⟩
    · rfl
    · exact ofCommand_erase table current first
    · change current.ofCommand table first.erase >>= _ = unplace (_ >>= _)
      rw [unplace_bind, ofCommand_erase]
      refine bind_congr fun argument => ?_
      unfold Command.erase
      dsimp only
      split
      next name _ => exact call_unplace table name argument last.pos
      next => rfl
    · simp [ofPipeline, Pipeline.erase, Error.unplaced]

theorem test_unplace (r : Ref) (pos : Nat) : r.test 0 = unplace (r.test pos) := by
  cases r with
  | result => rfl
  | place ty path =>
    unfold test
    dsimp only
    split
    next => rfl
    next =>
      split
      next => rfl
      next =>
        split
        next => rfl
        next => rfl

theorem source_unplace (r : Ref) (pos : Nat) : r.source 0 = unplace (r.source pos) := by
  cases r with
  | result => rfl
  | place ty path =>
    unfold source
    dsimp only
    cases ty.element? with
    | none => rfl
    | some element => rfl

end Ref

/-! ## §2. Settled nodes. -/

/-- **A text has the program of what trimming leaves of it,** and none if
nothing is left. -/
theorem compileText_settled (content : String) :
    compileText content = (settledText? content).elim [] compileText := by
  have hcompact : ∀ kept, Text.trim content.toList = kept →
      Text.compact content = String.ofList (Text.dropLooseBlanks false
        (kept.filter (!Text.isLayout ·))) := by
    rintro kept rfl
    rfl
  unfold settledText?
  dsimp only
  split
  next hnil =>
    have hempty : Text.compact content = "" := by
      rw [hcompact [] hnil, List.filter_nil, Text.dropLooseBlanks, String.ofList_nil]
    rw [Option.elim_none, compileText, if_pos hempty]
  next =>
    rw [Option.elim_some, compileText, compileText, hcompact _ rfl, Text.compact,
      Text.compactChars, String.toList_ofList, trim_trim]

/-- Only texts may leave nothing, and then they compile to nothing. -/
theorem compileNode_of_settled_none {table : Builtins} {depth : Nat} {current : Ref} {node : Node}
    (h : node.settled? = none) : compileNode table depth current node = .ok [] := by
  cases node with
  | text pos content =>
    rw [Node.settled?, Option.map_eq_none_iff] at h
    rw [compileNode, compileText_settled, h]
    rfl
  | action | branch | branchElse | group | jump | invoke => simp [Node.settled?] at h

mutual
/-- **A node compiles as its settled node does.** -/
theorem compileNode_settle (table : Builtins) : ∀ (node : Node) {n : Node} (depth : Nat)
    (current : Ref), node.settled? = some n →
    compileNode table depth current n = unplace (compileNode table depth current node)
  | .text pos content, n, depth, current, h => by
      rw [Node.settled?] at h
      obtain ⟨kept, hkept, rfl⟩ := Option.map_eq_some_iff.mp h
      rw [compileNode, compileNode, compileText_settled content, hkept, Option.elim_some,
        unplace_ok]
  | .action pos pipe, _, depth, current, rfl => by
      rw [compileNode, compileNode, unplace_bind, Ref.ofPipeline_erase]
      refine bind_congr fun r => ?_
      rw [unplace_bind]
      exact congrArg (· >>= _) (r.checkedValue_unplace pipe.pos)
  | .branch .cond pos pipe bodyPos body, _, depth, current, rfl => by
      rw [compileNode, compileNode, unplace_bind, Ref.ofPipeline_erase]
      refine bind_congr fun r => ?_
      rw [unplace_bind, r.test_unplace pos]
      refine bind_congr fun test => ?_
      rw [unplace_bind, compileNodes_settle table body depth current]
      rfl
  | .branchElse .cond pos pipe bodyPos body elsePos elseBody, _, depth, current, rfl => by
      rw [compileNode, compileNode, unplace_bind, Ref.ofPipeline_erase]
      refine bind_congr fun r => ?_
      rw [unplace_bind, r.test_unplace pos]
      refine bind_congr fun test => ?_
      rw [unplace_bind, compileNodes_settle table body depth current]
      refine bind_congr fun inner => ?_
      rw [unplace_bind, compileNodes_settle table elseBody depth current]
      rfl
  | .branch .loop pos pipe bodyPos body, _, depth, current, rfl => by
      rw [compileNode, compileNode, unplace_bind, Ref.ofPipeline_erase]
      refine bind_congr fun r => ?_
      rw [unplace_bind, r.source_unplace pos]
      refine bind_congr fun (path, element) => ?_
      dsimp only
      rw [unplace_bind, compileNodes_settle table body (depth + 1)]
      rfl
  | .branch .scope pos pipe bodyPos body, _, depth, current, rfl => by
      rw [compileNode, compileNode]
      rfl
  | .branchElse .loop pos pipe bodyPos body elsePos elseBody, _, depth, current, rfl => by
      rw [compileNode, compileNode]
      rfl
  | .branchElse .scope pos pipe bodyPos body elsePos elseBody, _, depth, current, rfl => by
      rw [compileNode, compileNode]
      rfl
  | .group pos nodes, _, depth, current, rfl => by
      rw [compileNode, compileNode, compileNodes_settle table nodes depth current]
  | .jump kind pos, _, depth, current, rfl => by
      rw [compileNode, compileNode]
      rfl
  | .invoke pos name, _, depth, current, rfl => by
      rw [compileNode, compileNode]
      rfl

/-- The same for nodes in order. -/
theorem compileNodes_settle (table : Builtins) : ∀ (nodes : List Node) (depth : Nat)
    (current : Ref), compileNodes table depth current (settleAll nodes)
      = unplace (compileNodes table depth current nodes)
  | [], depth, current => by
      rw [settleAll, compileNodes]
      rfl
  | node :: nodes, depth, current => by
      have hnodes := compileNodes_settle table nodes depth current
      rw [settleAll, compileNodes, unplace_bind]
      cases hnode : node.settled? with
      | none =>
        rw [compileNode_of_settled_none hnode, unplace_ok, ok_bind, Option.toList_none,
          List.nil_append, hnodes, unplace_bind]
        cases unplace (compileNodes table depth current nodes) with
        | error e => rfl
        | ok p => rfl
      | some n =>
        rw [Option.toList_some, List.singleton_append, compileNodes,
          compileNode_settle table node depth current hnode]
        refine bind_congr fun first => ?_
        rw [hnodes, unplace_bind]
        rfl
end

/-! ## §3. Whole templates. -/

/-- Parse a template and compile it to a stream of operations. -/
def compileSource (table : Builtins) (root : Ty) (source : String) : Except Error (List Op) := do
  let tree ← parse source
  compileOps table root tree.nodes

/-- Reading a template settles with its tokens. -/
theorem parse_settle (source : String) :
    (unplace (parse source)).map Block.settled
      = (unplace (tokens source)).map settleTokens >>= Block.ofTokens := by
  unfold parse
  cases h : tokens source with
  | error e => rfl
  | ok ts =>
    obtain ⟨row, front, hlayout, ⟨-, rfl⟩, rfl⟩ := tokensFrom_layout h
    refine (ofTokens_settle ?_ _).symm
    rw [map_token_placedFrom]
    exact hlayout.shape

/-- **A template compiles as its settled tree does.** -/
theorem unplace_compileSource (table : Builtins) (root : Ty) (source : String) :
    unplace (compileSource table root source)
      = (unplace (parse source)).map Block.settled >>= fun tree =>
        compileOps table root tree.nodes := by
  rw [compileSource, unplace_bind, map_then_bind]
  refine bind_congr fun tree => ?_
  rw [compileOps, compileOps, unplace_map]
  exact congrArg (Except.map Program.ops) (compileNodes_settle table tree.nodes 0 (.root root)).symm

/-- Both succeed with the same result, or fail with an error of the same kind
and in the same words. -/
inductive Agree {α : Type} : Except Error α → Except Error α → Prop
  | ok (a : α) : Agree (.ok a) (.ok a)
  | error {e e' : Error} (hkind : e.diagnostic.kind = e'.diagnostic.kind)
      (htext : e.diagnostic.text = e'.diagnostic.text) : Agree (.error e) (.error e')

theorem Agree.eq_ok {α : Type} {a : α} {y : Except Error α} (h : Agree (.ok a) y) :
    y = .ok a := by
  cases h with
  | ok => rfl

theorem agree_of_unplace {α : Type} {x y : Except Error α} (h : unplace x = unplace y) :
    Agree x y := by
  cases x with
  | ok a =>
    cases y with
    | ok b =>
      obtain rfl := Except.ok.inj h
      exact .ok a
    | error e => nomatch h
  | error e =>
    cases y with
    | ok b => nomatch h
    | error e' =>
      have hsame : e.unplaced = e'.unplaced := Except.error.inj h
      refine .error ?_ ?_
      · rw [← e.words_unplaced.1, hsame, e'.words_unplaced.1]
      · rw [← e.words_unplaced.2, hsame, e'.words_unplaced.2]

/-- **Trim markers do not change the program.**  The hyphens of a template's
trim markers, and nothing else, are replaced by blanks, and no marker is left;
then the template compiles to the same operations as before, or fails with an
error of the same kind and in the same words. -/
theorem compileSource_unmark (table : Builtins) (root : Ty) (source : String) :
    List.Forall₂ OrBlanked source.toList (unmark source).toList
      ∧ unmark (unmark source) = unmark source
      ∧ Agree (compileSource table root source) (compileSource table root (unmark source)) := by
  refine ⟨?_, ?_, agree_of_unplace ?_⟩
  · rw [unmark, String.toList_ofList]
    exact unmarkedFrom_orBlanked source.toList
  · rw [unmark, unmark, String.toList_ofList, unmarkedFrom_unmarkedFrom]
  · have htokens : (unplace (tokens (unmark source))).map settleTokens
        = (unplace (tokens source)).map settleTokens := by
      rw [tokens, unmark, String.toList_ofList]
      exact tokensFrom_unmarked 0 0 false source.toList
    rw [unplace_compileSource, unplace_compileSource, parse_settle, parse_settle, htokens]

/-- Markers on both sides of an action and after a comment, which has a hyphen
of its own. -/
theorem compileSource_unmark_comment :
    unmark "[ \x7b\x7b- .n -\x7d\x7d ,\x7b\x7b/* - */ -\x7d\x7d ]"
        = "[ \x7b\x7b  .n  \x7d\x7d ,\x7b\x7b/* - */  \x7d\x7d ]"
      ∧ compileSource Builtin.standard (.record [("n", .scalar "uint8")])
          "[ \x7b\x7b- .n -\x7d\x7d ,\x7b\x7b/* - */ -\x7d\x7d ]"
        = .ok [.group [.literal "[", .value "n", .literal ",", .literal "]"]]
      ∧ compileSource Builtin.standard (.record [("n", .scalar "uint8")])
          "[ \x7b\x7b  .n  \x7d\x7d ,\x7b\x7b/* - */  \x7d\x7d ]"
        = .ok [.group [.literal "[", .value "n", .literal ",", .literal "]"]] := by
  have hunmark : unmark "[ \x7b\x7b- .n -\x7d\x7d ,\x7b\x7b/* - */ -\x7d\x7d ]"
      = "[ \x7b\x7b  .n  \x7d\x7d ,\x7b\x7b/* - */  \x7d\x7d ]" := by cbv
  have hops : compileSource Builtin.standard (.record [("n", .scalar "uint8")])
      "[ \x7b\x7b- .n -\x7d\x7d ,\x7b\x7b/* - */ -\x7d\x7d ]"
        = .ok [.group [.literal "[", .value "n", .literal ",", .literal "]"]] := by cbv
  obtain ⟨-, -, hagree⟩ := compileSource_unmark Builtin.standard (.record [("n", .scalar "uint8")])
    "[ \x7b\x7b- .n -\x7d\x7d ,\x7b\x7b/* - */ -\x7d\x7d ]"
  rw [hunmark, hops] at hagree
  exact ⟨hunmark, hops, hagree.eq_ok⟩

end Stencil
