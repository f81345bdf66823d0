/-
  Stencil.Proofs.Template.Guards
  ──────────────────────────────
  NO GUARD OF THE READER IS EVER MET.

  Reading a template by descent comes to what `parse` comes to, which nests the
  pieces of the template with a stack of open lists.  The list being read is
  the topmost of the stack; the blocks whose procedures are waiting for it are
  the lists below.  What a list is stopped by does to the stack what its clause
  does.

  Every list starts at texts and whole actions, and stops at the end or before
  texts and whole actions again.  That carries the proof, and it leaves no room
  for a guard.

    • `ListAgrees`, `BlockAgrees` — a procedure and the stack,
    • `readList_agrees`, `readBranch_agrees` — they keep in step,
    • `parse_failsReading` — what is wrong with an action's end is told by cutting,
    • `read_meets_no_guard` — no guard is met.
-/
import Stencil.Proofs.Template.Alignment
import Stencil.Proofs.Template.RoundTrip

namespace Stencil.Template

open Outcome

/-! ## §1. Pieces one by one. -/

/-- Take the pieces of some tokens in. -/
def nestTokens (ts : List PlacedToken) (nest : Nest) : Except Error Block := do
  let (ps, finish) ← pieces ts
  nestPieces finish ps nest

section
variable {finish : Nat}

theorem nestTokens_eof (nest : Nest) :
    nestTokens [⟨finish, .eof⟩] nest = nestPieces finish [] nest := by
  rw [nestTokens, pieces]
  rfl

theorem nestTokens_text (pos : Nat) (content : String) (ts : List PlacedToken) (nest : Nest) :
    nestTokens (⟨pos, .text content⟩ :: ts) nest
      = nestTokens ts (nest.1.add (.text pos content), nest.2) := by
  unfold nestTokens
  rw [pieces, map_then_bind]
  rfl

/-- An action is read, taken in, and followed by the rest. -/
theorem nestTokens_action {inner ts : List PlacedToken} (hinner : ∀ t ∈ inner, t.token.IsInner)
    (h : Aligned finish ts) (start stop : Nat) (nest : Nest) :
    nestTokens (⟨start, .leftDelim⟩ :: closed inner stop ts) nest
      = actionClause start inner stop >>= fun clause =>
        nestClause start (nextPos finish ts) clause nest >>= nestTokens ts := by
  obtain ⟨ps, hps, hnext⟩ := h.pieces
  unfold nestTokens
  rw [closed, pieces_action fun t ht => (hinner t ht).ne_rightDelim, hps, ← hnext]
  rfl

end

/-! ## §2. What stops a list. -/

/-- The open list with these nodes so far, in order. -/
def OpenList.filled (l : OpenList) (nodes : List Node) : OpenList :=
  { l with newest := nodes.reverse }

theorem OpenList.filled_add (l : OpenList) (nodes : List Node) (node : Node) :
    (l.filled nodes).add node = l.filled (nodes ++ [node]) := by
  simp [filled, add]

theorem closeBlock_filled {l : OpenList} (hl : l.Plain) (nodes : List Node) (node : Node)
    (below : List OpenList) :
    closeBlock node (l.filled nodes :: below) = some (l.filled (nodes ++ [node]), below) := by
  have hplain : (l.filled nodes).Plain := hl
  rw [closeBlock_of_plain hplain]
  simp [OpenList.addAll, OpenList.filled]

/-- What stops a list does to the stack what its clause does; `after` are the
tokens behind it. -/
def Terminator.resume (finish : Nat) (after : List PlacedToken) (nest : Nest) :
    Terminator → Except Error Block
  | eof => nestPieces finish [] nest
  | closing pos => nestClosing pos nest >>= nestTokens after
  | otherwise pos => nestOtherwise pos (nextPos finish after) nest >>= nestTokens after
  | otherwiseIf pos pipe =>
      nestOtherwiseIf pos (nextPos finish after) pipe nest >>= nestTokens after

theorem nestClause_leaf {pos : Nat} {clause : Clause} {node : Node}
    (h : clause.step pos = .leaf node) (next : Nat) (nest : Nest) :
    nestClause pos next clause nest = .ok (nest.1.add node, nest.2) := by
  cases clause <;> cases h <;> rfl

theorem nestClause_block {pos : Nat} {clause : Clause} {kind : BranchKind} {pipe : Pipeline}
    (h : clause.step pos = .block kind pipe) (next : Nat) (nest : Nest) :
    nestClause pos next clause nest = .ok (⟨.body kind pos pipe, next, []⟩, nest.1 :: nest.2) := by
  cases clause <;> cases h
  rfl

theorem nestClause_stop {finish pos : Nat} {clause : Clause} {terminator : Terminator}
    (h : clause.step pos = .stop terminator) (after : List PlacedToken) (nest : Nest) :
    nestClause pos (nextPos finish after) clause nest >>= nestTokens after
      = terminator.resume finish after nest := by
  cases clause <;> cases h <;> rfl

section
variable {finish : Nat} {kind : BranchKind} {pos at_ bodyPos : Nat} {pipe : Pipeline}
  {after : List PlacedToken} {below : List OpenList} {close : Node → Nest}

/-- The end of a block without another part. -/
theorem resume_closing_body (hclose : ∀ node, closeBlock node below = some (close node))
    (nodes : List Node) :
    (Terminator.closing at_).resume finish after
        (OpenList.filled ⟨.body kind pos pipe, bodyPos, []⟩ nodes, below)
      = nestTokens after (close (.branch kind pos pipe bodyPos nodes)) := by
  have hend : nestClosing at_ (OpenList.filled ⟨.body kind pos pipe, bodyPos, []⟩ nodes, below)
      = .ok (close (.branch kind pos pipe bodyPos nodes)) :=
    nestClosing_body (by rw [List.reverse_reverse]; exact hclose _)
  rw [Terminator.resume, hend, ok_bind]

/-- The end of a block with another part. -/
theorem resume_closing_other {elsePos : Nat} {body : List Node} {shared : Bool}
    (hclose : ∀ node, closeBlock node below = some (close node)) (nodes : List Node) :
    (Terminator.closing at_).resume finish after
        (OpenList.filled ⟨.other kind pos pipe bodyPos body shared, elsePos, []⟩ nodes, below)
      = nestTokens after (close (.branchElse kind pos pipe bodyPos body elsePos nodes)) := by
  have hend : nestClosing at_
      (OpenList.filled ⟨.other kind pos pipe bodyPos body shared, elsePos, []⟩ nodes, below)
        = .ok (close (.branchElse kind pos pipe bodyPos body elsePos nodes)) :=
    nestClosing_other (by rw [List.reverse_reverse]; exact hclose _)
  rw [Terminator.resume, hend, ok_bind]

/-- The other part of a block is a list of its own. -/
theorem resume_otherwise_body (nodes : List Node) :
    (Terminator.otherwise at_).resume finish after
        (OpenList.filled ⟨.body kind pos pipe, bodyPos, []⟩ nodes, below)
      = nestTokens after (OpenList.filled
          ⟨.other kind pos pipe bodyPos nodes false, nextPos finish after, []⟩ [], below) := by
  simp [Terminator.resume, nestOtherwise, OpenList.filled, OpenList.nodes]

/-- A condition for the other part opens a block in it. -/
theorem resume_otherwiseIf_body {inner : Pipeline} (nodes : List Node) :
    (Terminator.otherwiseIf at_ inner).resume finish after
        (OpenList.filled ⟨.body .cond pos pipe, bodyPos, []⟩ nodes, below)
      = nestTokens after (⟨.body .cond at_ inner, nextPos finish after, []⟩,
          ⟨.other .cond pos pipe bodyPos nodes true, at_, []⟩ :: below) := by
  simp [Terminator.resume, nestOtherwiseIf, OpenList.filled, OpenList.nodes]

end

/-! ## §3. The descent and the stack. -/

/-- A list read from some tokens is what taking in their pieces adds to the
open list on top, up to what stops it; and it stops at the end, or before texts
and whole actions. -/
def ListAgrees (finish : Nat) (nodes : List Node) (ts : List PlacedToken) :
    Except Halt (Reading (List Node × Terminator) ts) → Prop
  | .ok found => (found.value.2 = .eof ∨ Aligned finish found.rest)
      ∧ ∀ (l : OpenList) (below : List OpenList), l.Plain → nestTokens ts (l.filled nodes, below)
        = found.value.2.resume finish found.rest (l.filled found.value.1, below)
  | .error (.fault e) => ∀ (l : OpenList) (below : List OpenList), l.Plain →
      nestTokens ts (l.filled nodes, below) = .error e
  | .error (.guard _) => False

/-- A block that is read is the node that the stack brings to the lists below,
where `run` is what it does above them; what is left are texts and whole
actions. -/
def BlockAgrees (finish : Nat) (run : List OpenList → Except Error Block)
    {ts : List PlacedToken} : Except Halt (Reading Node ts) → Prop
  | .ok found => Aligned finish found.rest ∧ ∀ (below : List OpenList) (close : Node → Nest),
      (∀ node, closeBlock node below = some (close node)) →
        run below = nestTokens found.rest (close found.value)
  | .error (.fault e) => ∀ (below : List OpenList) (close : Node → Nest),
      (∀ node, closeBlock node below = some (close node)) → run below = .error e
  | .error (.guard _) => False

section
variable {finish : Nat} {nodes : List Node} {ts us : List PlacedToken}
  {run : List OpenList → Except Error Block}

/-- A list goes on as a list of fewer tokens does. -/
theorem ListAgrees.widen {nodes' : List Node}
    {x : Except Halt (Reading (List Node × Terminator) ts)}
    (hx : ListAgrees finish nodes' ts x) (hlen : ts.length ≤ us.length)
    (hnest : ∀ (l : OpenList) (below : List OpenList), l.Plain →
      nestTokens us (l.filled nodes, below) = nestTokens ts (l.filled nodes', below)) :
    ListAgrees finish nodes us (x.map (·.widen hlen)) := by
  cases x with
  | ok found =>
    obtain ⟨haligned, hresume⟩ := hx
    exact ⟨haligned, fun l below hl => (hnest l below hl).trans (hresume l below hl)⟩
  | error halt =>
    cases halt with
    | fault e => exact fun l below hl => (hnest l below hl).trans (hx l below hl)
    | guard g => exact hx

/-- A list goes on behind a block, which is one node of it. -/
theorem BlockAgrees.list {x : Except Halt (Reading Node ts)}
    {more : (block : Reading Node ts) → Except Halt (Reading (List Node × Terminator) block.rest)}
    {hlen : ∀ block : Reading Node ts, block.rest.length ≤ us.length}
    (hx : BlockAgrees finish run x)
    (hnest : ∀ (l : OpenList) (below : List OpenList),
      nestTokens us (l.filled nodes, below) = run (l.filled nodes :: below))
    (hmore : ∀ block : Reading Node ts, Aligned finish block.rest →
      ListAgrees finish (nodes ++ [block.value]) block.rest (more block)) :
    ListAgrees finish nodes us (x >>= fun block => (more block).map (·.widen (hlen block))) := by
  cases x with
  | ok block =>
    obtain ⟨haligned, hblock⟩ := hx
    refine (hmore block haligned).widen _ fun l below hl => ?_
    rw [hnest, hblock _ _ fun node => closeBlock_filled hl nodes node below]
  | error halt =>
    cases halt with
    | fault e =>
      intro l below hl
      rw [hnest]
      exact hx _ _ fun node => closeBlock_filled hl nodes node below
    | guard g => exact hx

theorem BlockAgrees.congr {run' : List OpenList → Except Error Block}
    {x : Except Halt (Reading Node ts)} (hx : BlockAgrees finish run x)
    (hrun : ∀ below, run' below = run below) : BlockAgrees finish run' x := by
  obtain rfl : run' = run := funext hrun
  exact hx

/-- A block is made of a list by what stops the list. -/
theorem ListAgrees.block {x : Except Halt (Reading (List Node × Terminator) ts)}
    (hx : ListAgrees finish nodes ts x) {l : OpenList} (hl : l.Plain)
    {f : Reading (List Node × Terminator) ts → Except Halt (Reading Node us)}
    (hf : ∀ found : Reading (List Node × Terminator) ts,
      (found.value.2 = .eof ∨ Aligned finish found.rest) →
      BlockAgrees finish (fun below => found.value.2.resume finish found.rest
        (l.filled found.value.1, below)) (f found)) :
    BlockAgrees finish (fun below => nestTokens ts (l.filled nodes, below)) (x >>= f) := by
  cases x with
  | ok found =>
    obtain ⟨hrest, hresume⟩ := hx
    exact (hf found hrest).congr fun below => hresume l below hl
  | error halt =>
    cases halt with
    | fault e => exact fun below _ _ => hx l below hl
    | guard g => exact hx

/-- A block in the other part of a condition closes together with it. -/
theorem BlockAgrees.shared {pos at_ bodyPos : Nat} {pipe : Pipeline}
    {x : Except Halt (Reading Node ts)}
    {hlen : ∀ other : Reading Node ts, other.rest.length < us.length}
    (hx : BlockAgrees finish run x) :
    BlockAgrees finish
      (fun below => run (⟨.other .cond pos pipe bodyPos nodes true, at_, []⟩ :: below))
      (x >>= fun other =>
        (.ok ⟨.branchElse .cond pos pipe bodyPos nodes at_ [other.value], other.rest, hlen other⟩ :
          Except Halt (Reading Node us))) := by
  have hcloses : ∀ {below : List OpenList} {close : Node → Nest},
      (∀ node, closeBlock node below = some (close node)) → ∀ node,
      closeBlock node (⟨.other .cond pos pipe bodyPos nodes true, at_, []⟩ :: below)
        = some (close (.branchElse .cond pos pipe bodyPos nodes at_ [node])) :=
    fun hclose node => hclose _
  cases x with
  | ok other =>
    obtain ⟨haligned, hblock⟩ := hx
    exact ⟨haligned, fun below close hclose => hblock _ _ (hcloses hclose)⟩
  | error halt =>
    cases halt with
    | fault e => exact fun below close hclose => hx _ _ (hcloses hclose)
    | guard g => exact hx

end

section
variable {finish : Nat}

theorem length_closed (inner : List PlacedToken) (stop : Nat) (after : List PlacedToken) :
    after.length < (closed inner stop after).length := by
  simp only [closed, List.length_append, List.length_cons]
  omega

/-- An action is read as from its own tokens. -/
theorem readAction_inner {inner : List PlacedToken} (hinner : ∀ t ∈ inner, t.token.IsInner)
    (start stop : Nat) (after : List PlacedToken) :
    readAction start finish (closed inner stop after)
      = unguarded ((actionClause start inner stop).map
          (⟨·, after, length_closed inner stop after⟩)) := by
  have hread := @readClause_inner start finish stop after inner hinner
  unfold readAction
  cases haction : actionClause start inner stop with
  | ok clause =>
    rw [haction] at hread
    split
    next heq =>
      obtain ⟨rfl, rfl⟩ := Prod.mk.inj (Except.ok.inj (heq.symm.trans hread))
      rfl
    next heq => nomatch heq.symm.trans hread
  | error e =>
    rw [haction] at hread
    split
    next heq => nomatch heq.symm.trans hread
    next heq => exact congrArg Except.error (Except.error.inj (heq.symm.trans hread))

mutual
/-- **A list is read as its pieces are taken in.** -/
theorem readList_agrees {ts : List PlacedToken} (h : Aligned finish ts) (nodes : List Node) :
    ListAgrees finish nodes ts (readList finish nodes ts) := by
  -- what stands here decides: the end, a text or a whole action, so that the
  -- branch of `readList` for any other token is never taken
  cases h with
  | eof =>
    rw [readList]
    exact ⟨.inl rfl, fun l below _ => nestTokens_eof _⟩
  | @text rest pos content h =>
    rw [readList]
    have hrest : ListAgrees finish _ rest _ := readList_agrees h (nodes ++ [.text pos content])
    refine hrest.widen _ fun l below _ => ?_
    rw [nestTokens_text, l.filled_add]
  | @action inner rest start stop hinner h =>
    have hlt := length_closed inner stop rest
    rw [readList, readAction_inner hinner]
    cases haction : actionClause start inner stop with
    | error e =>
      intro l below _
      rw [nestTokens_action hinner h, haction, error_bind]
    | ok clause =>
      have hnest : ∀ nest, nestTokens (⟨start, .leftDelim⟩ :: closed inner stop rest) nest
          = nestClause start (nextPos finish rest) clause nest >>= nestTokens rest := by
        intro nest
        rw [nestTokens_action hinner h, haction, ok_bind]
      have hread : unguarded ((Except.ok clause).map (⟨·, rest, hlt⟩))
          = (.ok ⟨clause, rest, hlt⟩ : Except Halt (Reading Clause (closed inner stop rest))) := rfl
      rw [hread, ok_bind]
      dsimp only
      cases hstep : clause.step start with
      | leaf node =>
        have hrest : ListAgrees finish _ rest _ := readList_agrees h (nodes ++ [node])
        refine hrest.widen _ fun l below _ => ?_
        rw [hnest, nestClause_leaf hstep, ok_bind, l.filled_add]
      | block kind pipe =>
        -- the list waits below the block, and goes on where the block ends
        have hblock : BlockAgrees finish _ _ := readBranch_agrees h kind start pipe
        refine hblock.list (fun l below => ?_) fun block haligned => ?_
        · rw [hnest, nestClause_block hstep, ok_bind]
        · have := block.shorter
          exact readList_agrees haligned _
      | stop terminator =>
        refine ⟨.inr h, fun l below _ => ?_⟩
        rw [hnest, nestClause_stop hstep]
termination_by (ts.length, 0)

/-- **A block is read as its pieces are taken in.** -/
theorem readBranch_agrees {ts : List PlacedToken} (h : Aligned finish ts) (kind : BranchKind)
    (pos : Nat) (pipe : Pipeline) :
    BlockAgrees finish
      (fun below => nestTokens ts (⟨.body kind pos pipe, nextPos finish ts, []⟩, below))
      (readBranch finish kind pos pipe ts) := by
  have hbody : ListAgrees finish [] ts _ := readList_agrees h []
  rw [readBranch]
  refine hbody.block (l := ⟨.body kind pos pipe, nextPos finish ts, []⟩) nofun fun body hrest => ?_
  obtain ⟨⟨nodes, stop⟩, rest, hlt⟩ := body
  -- a body that another part follows stops before texts and whole actions, at
  -- which that part can be read
  cases stop with
  | eof => exact fun below _ _ => rfl
  | closing at_ =>
    exact ⟨hrest.resolve_left nofun, fun below close hclose => resume_closing_body hclose nodes⟩
  | otherwise at_ =>
    have hother : ListAgrees finish [] rest _ := readList_agrees (hrest.resolve_left nofun) []
    refine .congr (hother.block (l := ⟨.other kind pos pipe (nextPos finish ts) nodes false,
      nextPos finish rest, []⟩) nofun fun other hafter => ?_)
      fun below => resume_otherwise_body nodes
    obtain ⟨⟨nodes', stop⟩, after, hlt'⟩ := other
    cases stop with
    | closing =>
      exact ⟨hafter.resolve_left nofun,
        fun below close hclose => resume_closing_other hclose nodes'⟩
    | eof | otherwise | otherwiseIf => exact fun below _ _ => rfl
  | otherwiseIf at_ inner =>
    cases kind with
    | cond =>
      -- the inner condition is the only node of the other part, and its end is
      -- the end of both
      have hinner : BlockAgrees finish _ _ :=
        readBranch_agrees (hrest.resolve_left nofun) .cond at_ inner
      exact hinner.shared.congr fun below => resume_otherwiseIf_body nodes
    | loop | scope => exact fun below _ _ => rfl
termination_by (ts.length, 1)
end

end

/-! ## §4. Faults of reading. -/

/-- The faults of reading texts and whole actions. -/
def Fault.OfReading : Fault → Prop
  | unexpectedToken .. | missingValue _ | missingBefore | missingAfter | unquotedName | strayEnd
  | strayElse | missingEnd _ | elseIfInside _ | secondElse => True
  | _ => False

/-- They are none of cutting. -/
theorem Fault.OfReading.not_ofCutting {fault : Fault} (h : fault.OfReading) :
    ¬ fault.OfCutting := by
  cases fault <;> first | exact id | nomatch h

/-- If the computation fails on the text of a template, it is with a fault of
reading. -/
def FailsReading {α : Type} (x : Except Error α) : Prop :=
  ∀ fault pos, x = .error (.malformed fault pos) → fault.OfReading

namespace FailsReading

variable {α β : Type}

theorem ok (a : α) : FailsReading (.ok a) := nofun

theorem malformed {fault : Fault} (h : fault.OfReading) (pos : Nat) :
    FailsReading (.error (.malformed fault pos) : Except Error α) := by
  rintro fault' pos' heq
  cases heq
  exact h

theorem unsupported (form : UnsupportedForm) (pos : Nat) :
    FailsReading (.error (.unsupported form pos) : Except Error α) := nofun

theorem bind {x : Except Error α} {f : α → Except Error β} (hx : FailsReading x)
    (hf : ∀ a, FailsReading (f a)) : FailsReading (x >>= f) := by
  intro fault pos h
  rcases bind_eq_error.mp h with hx' | ⟨a, -, hfa⟩
  · exact hx fault pos hx'
  · exact hf a fault pos hfa

theorem map {x : Except Error α} (hx : FailsReading x) (f : α → β) : FailsReading (x.map f) :=
  fun fault pos h => hx fault pos (map_eq_error.mp h)

end FailsReading

theorem commandsFrom_failsReading (s : Setting) (piped : Bool) (pos : Nat) (args : List Arg)
    (ts : List PlacedToken) : FailsReading (commandsFrom s piped pos args ts) := by
  fun_induction commandsFrom s piped pos args ts
  case case1 => exact .ok _
  case case4 ih => exact ih
  case case6 ih => exact ih.map _
  case case7 | case8 => exact .unsupported _ _
  all_goals exact .malformed (by trivial) _

theorem pipeline_failsReading (s : Setting) (inner : List PlacedToken) :
    FailsReading (pipeline s inner) :=
  (commandsFrom_failsReading _ _ _ _ _).map _

theorem endOfAction_failsReading (form : ActionForm) (clause : Clause) (ts : List PlacedToken) :
    FailsReading (endOfAction form clause ts) := by
  cases ts with
  | nil => exact .ok _
  | cons t ts => exact .malformed (by trivial) _

theorem actionClause_failsReading (start : Nat) (inner : List PlacedToken) (stop : Nat) :
    FailsReading (actionClause start inner stop) := by
  unfold actionClause
  split
  next k rest =>
    cases k with
    | ifWord | rangeWord | withWord => exact (pipeline_failsReading _ _).map _
    | elseWord =>
      change FailsReading (otherwiseClause start stop rest)
      unfold otherwiseClause
      split
      next => exact (pipeline_failsReading _ _).map _
      next => exact endOfAction_failsReading _ _ _
    | endWord | breakWord | continueWord => exact endOfAction_failsReading _ _ _
    | templateWord =>
      change FailsReading (invokeClause start stop rest)
      unfold invokeClause
      split
      next => exact .ok _
      next => exact (pipeline_failsReading _ _).map _
      next => exact .malformed (by trivial) _
    | defineWord | blockWord => exact .unsupported _ _
  next => exact (pipeline_failsReading _ _).map _

theorem nestClause_failsReading (pos next : Nat) (clause : Clause) (nest : Nest) :
    FailsReading (nestClause pos next clause nest) := by
  obtain ⟨l, below⟩ := nest
  cases clause with
  | text | value | opening | jump | invoke => exact .ok _
  | closing =>
    change FailsReading (nestClosing pos (l, below))
    unfold nestClosing
    dsimp only
    split
    next => exact .ok _
    next => exact .malformed (by trivial) _
  | otherwise =>
    change FailsReading (nestOtherwise pos next (l, below))
    unfold nestOtherwise
    dsimp only
    split
    next => exact .malformed (by trivial) _
    next => exact .ok _
    next => exact .malformed (by trivial) _
  | otherwiseIf pipe =>
    change FailsReading (nestOtherwiseIf pos next pipe (l, below))
    unfold nestOtherwiseIf
    dsimp only
    split
    next => exact .malformed (by trivial) _
    next => exact .ok _
    next => exact .malformed (by trivial) _
    next => exact .malformed (by trivial) _

theorem nestPieces_failsReading (finish : Nat) : ∀ (ps : List Piece) (nest : Nest),
    FailsReading (nestPieces finish ps nest)
  | [], (l, below) => by
      unfold nestPieces
      split
      next => exact .ok _
      next => exact .malformed (by trivial) _
      next => exact .malformed (by trivial) _
  | piece :: rest, nest => by
      rw [nestPieces]
      refine .bind ?_ fun clause => (nestClause_failsReading _ _ _ _).bind fun nest =>
        nestPieces_failsReading finish rest nest
      cases piece with
      | text pos content => exact .ok _
      | action start inner stop => exact actionClause_failsReading start inner stop

/-- **A template that can be cut fails with a fault of reading.** -/
theorem parse_failsReading {source : String} {ts : List PlacedToken} (h : tokens source = .ok ts) :
    FailsReading (parse source) := by
  obtain ⟨ps, hps, -⟩ := (aligned_of_tokens h).pieces
  rw [parse, h, ok_bind, Block.ofTokens, hps, ok_bind]
  exact nestPieces_failsReading _ ps _

/-! ## §5. Whole templates. -/

theorem readTree_eq {finish : Nat} {ts : List PlacedToken} (h : Aligned finish ts) :
    readTree finish ts = unguarded (Block.ofTokens ts) := by
  have hlist : ListAgrees finish [] ts _ := readList_agrees h []
  have hroot : OpenList.Plain ⟨.root, nextPos finish ts, []⟩ := by
    intro kind pos pipe bodyPos body hother
    cases hother
  have htree : Block.ofTokens ts
      = nestTokens ts (OpenList.filled ⟨.root, nextPos finish ts, []⟩ [], []) := by
    obtain ⟨ps, hps, hnext⟩ := h.pieces
    rw [Block.ofTokens, nestTokens, hps, ok_bind, ok_bind, ← hnext]
    rfl
  rw [htree, readTree]
  cases hread : readList finish [] ts with
  | error halt =>
    rw [hread] at hlist
    cases halt with
    | fault e =>
      rw [hlist ⟨.root, nextPos finish ts, []⟩ [] hroot]
      rfl
    | guard g => exact hlist.elim
  | ok list =>
    rw [hread] at hlist
    obtain ⟨⟨nodes, stop⟩, rest, hlt⟩ := list
    rw [hlist.2 ⟨.root, nextPos finish ts, []⟩ [] hroot]
    cases stop with
    | eof => simp [Terminator.resume, OpenList.filled, OpenList.nodes, nestPieces]
    | closing | otherwise | otherwiseIf => rfl

/-- **No guard of the reader is ever met.**  Reading a template by descent comes
to the tree or the error that parsing it comes to, and to no guard: no token is
taken from behind the end, no token of actions stands in a list, something
follows every opening delimiter, no pipeline meets the end, and an operand is
read only where a character is left.  Cutting a template leaves texts and whole
actions, and what is wrong with the end of an action is told by cutting it: the
action does not close, or one of its operands is at fault.  And a reader of an
action always stands behind its closing delimiter. -/
theorem read_meets_no_guard (source : String) :
    read source = unguarded (parse source)
      ∧ (∀ g, read source ≠ .error (.guard g))
      ∧ (∀ token pos, parse source ≠ .error (.malformed (.outsideAction token) pos))
      ∧ (∀ fault pos, fault.OfCutting → parse source = .error (.malformed fault pos) →
          tokens source = .error (.malformed fault pos))
      ∧ (∀ ts, tokens source = .ok ts → Aligned source.utf8ByteSize ts)
      ∧ (∀ start pos cs e, actionTokens start pos cs = .error e →
          e = .malformed .unclosedAction start
            ∨ ∃ here c rest fault, c :: rest <:+ cs ∧ operand c rest = .error fault
              ∧ e = .malformed fault here)
      ∧ ∀ start finish ts clause after,
          readClause start finish ts = .ok (clause, after) → Behind ts after := by
  have hread : read source = unguarded (parse source) := by
    rw [read, scanFrom_eq, parse, unguarded_bind]
    change unguarded (tokens source) >>= _ = unguarded (tokens source) >>= _
    cases htokens : tokens source with
    | error e => rfl
    | ok ts => exact readTree_eq (aligned_of_tokens htokens)
  -- `read` passes every error of parsing on as a fault, so no guard is among
  -- them; what else parsing could report is settled by where the fault is from
  refine ⟨hread, ?_, ?_, ?_, fun ts => aligned_of_tokens, fun _ _ _ _ => actionTokens_error,
    fun _ _ _ _ _ => readClause_behind⟩
  · intro g hguard
    rw [hread] at hguard
    cases hparse : parse source with
    | ok tree =>
      rw [hparse] at hguard
      cases hguard
    | error e =>
      rw [hparse] at hguard
      cases hguard
  · intro token pos h
    cases htokens : tokens source with
    | ok ts => exact parse_failsReading htokens _ _ h
    | error e =>
      obtain ⟨fault, at_, rfl, hcutting⟩ := tokensFrom_error htokens
      rw [parse, htokens] at h
      cases h
      exact hcutting
  · intro fault pos hfault h
    cases htokens : tokens source with
    | ok ts => exact absurd hfault (parse_failsReading htokens _ _ h).not_ofCutting
    | error e =>
      rw [parse, htokens, error_bind] at h
      exact congrArg Except.error (Except.error.inj h)

/-- The tree of a condition whose other part has a condition of its own. -/
def chainTree : Block :=
  ⟨0, [.branchElse .cond 0 ⟨5, none, [⟨5, [.field ["a"]]⟩]⟩ 9 [.text 9 "x"] 10
    [.branch .cond 10 ⟨20, none, [⟨20, [.field ["b"]]⟩]⟩ 24 [.text 24 "y"]]]⟩

/-- One end closes two conditions; a template whose action does not close is not
read at all, nor one with an open string; and what follows an end is left. -/
theorem read_meets_no_guard_chain :
    read "\x7b\x7bif .a\x7d\x7dx\x7b\x7belse if .b\x7d\x7dy\x7b\x7bend\x7d\x7d" = .ok chainTree
      ∧ Fault.unclosedAction.OfCutting
      ∧ parse "\x7b\x7bif .a" = .error (.malformed .unclosedAction 0)
      ∧ tokens "\x7b\x7bif .a" = .error (.malformed .unclosedAction 0)
      ∧ Aligned 7 [⟨0, .leftDelim⟩, ⟨2, .keyword .endWord⟩, ⟨5, .rightDelim⟩, ⟨7, .eof⟩]
      ∧ (∃ c rest, c :: rest <:+ ['"', 'a'] ∧ operand c rest = .error .unterminatedQuoted)
      ∧ Behind [⟨2, .keyword .endWord⟩, ⟨5, .rightDelim⟩, ⟨7, .eof⟩] [⟨7, .eof⟩] := by
  have hparse : parse "\x7b\x7bif .a\x7d\x7dx\x7b\x7belse if .b\x7d\x7dy\x7b\x7bend\x7d\x7d"
      = .ok chainTree := by
    unfold chainTree
    cbv
  have hunclosed : parse "\x7b\x7bif .a" = .error (.malformed .unclosedAction 0) := by cbv
  have hend : tokens "\x7b\x7bend\x7d\x7d"
      = .ok [⟨0, .leftDelim⟩, ⟨2, .keyword .endWord⟩, ⟨5, .rightDelim⟩, ⟨7, .eof⟩] := by cbv
  have hopen : actionTokens 0 2 ['"', 'a'] = .error (.malformed .unterminatedQuoted 2) := by cbv
  obtain ⟨hread, -⟩ := read_meets_no_guard
    "\x7b\x7bif .a\x7d\x7dx\x7b\x7belse if .b\x7d\x7dy\x7b\x7bend\x7d\x7d"
  obtain ⟨-, -, -, hcutting, -⟩ := read_meets_no_guard "\x7b\x7bif .a"
  obtain ⟨-, -, -, -, haligned, hfault, hbehind⟩ := read_meets_no_guard "\x7b\x7bend\x7d\x7d"
  refine ⟨?_, trivial, hunclosed, hcutting _ _ trivial hunclosed, ?_, ?_,
    hbehind 0 7 _ .closing _ rfl⟩
  · rw [hread, hparse]
    rfl
  · have hsize : "\x7b\x7bend\x7d\x7d".utf8ByteSize = 7 := by decide +kernel
    exact hsize ▸ haligned _ hend
  · obtain hunclosed | ⟨here, c, rest, fault, hsuffix, hoperand, heq⟩ := hfault _ _ _ _ hopen
    · cases hunclosed
    · cases heq
      exact ⟨c, rest, hsuffix, hoperand⟩

end Stencil.Template
