/-
  Stencil.Proofs.Template.Settling
  ────────────────────────────────
  READING WITHOUT OFFSETS AND WITHOUT OUTER BLANKS.

  Tokens, clauses and trees are settled by setting all offsets to zero,
  trimming all texts and leaving out those of which nothing is left.  Every
  reader of tokens settles with what it reads: from settled tokens it gives the
  settled result, or the same error at no offset.  So what is read from two
  lists of tokens that settle to the same differs in offsets and outer blanks
  at most.

    • `unplace_bind`, `unplace_map` — offsets are taken from errors step by
      step,
    • `trim_pad` — trimming does not see blanks around a text,
    • `pieces_settle`, `pipeline_settle`, `actionClause_settle`,
      `nestPieces_settle` — the readers,
    • `ofTokens_settle` — so building the tree settles with its tokens.
-/
import Stencil.Proofs.Template.Coverage
import Stencil.Proofs.Template.RoundTrip
import Stencil.Proofs.Text.Compaction

namespace Stencil

open Outcome

/-! ## §1. Errors at no offset. -/

/-- The error at no offset. -/
def Error.unplaced : Error → Error
  | schema name fault => .schema name fault
  | path place fault _ => .path place fault 0
  | condition place fault _ => .condition place fault 0
  | unsupported form _ => .unsupported form 0
  | malformed fault _ => .malformed fault 0

/-- Its wording is the same. -/
theorem Error.words_unplaced (e : Error) :
    e.unplaced.diagnostic.kind = e.diagnostic.kind
      ∧ e.unplaced.diagnostic.text = e.diagnostic.text := by
  cases e <;> exact ⟨rfl, rfl⟩

/-- The same computation with its error, if any, at no offset. -/
def unplace {α : Type} (x : Except Error α) : Except Error α :=
  x.mapError Error.unplaced

section
variable {α β : Type}

@[simp] theorem unplace_ok (a : α) : unplace (.ok a) = .ok a := rfl

@[simp] theorem unplace_error (e : Error) :
    unplace (.error e : Except Error α) = .error e.unplaced := rfl

theorem unplace_eq_ok {x : Except Error α} {a : α} : unplace x = .ok a ↔ x = .ok a :=
  mapError_eq_ok

/-- The offset is taken from the step that fails. -/
theorem unplace_bind (x : Except Error α) (f : α → Except Error β) :
    unplace (x >>= f) = unplace x >>= fun a => unplace (f a) :=
  mapError_bind _ x f

theorem unplace_map (x : Except Error α) (f : α → β) : unplace (x.map f) = (unplace x).map f :=
  mapError_map _ f x

end

namespace Template

open Text (isBlank trim trimStart trimEnd)

/-! ## §2. Settled texts and tokens. -/

theorem trimStart_pad {lead : List Char} (h : AllBlank lead) (cs : List Char) :
    trimStart (lead ++ cs) = trimStart cs :=
  List.dropWhile_append_of_pos h

theorem trimEnd_pad {trail : List Char} (h : AllBlank trail) (cs : List Char) :
    trimEnd (cs ++ trail) = trimEnd cs := by
  have hreverse : ∀ c ∈ trail.reverse, isBlank c = true := fun c hc => h c (List.mem_reverse.mp hc)
  unfold trimEnd
  rw [List.reverse_append, List.dropWhile_append_of_pos hreverse]

/-- **Trimming does not see blanks around a text.** -/
theorem trim_pad {lead trail : List Char} (hlead : AllBlank lead) (htrail : AllBlank trail)
    (cs : List Char) : trim (lead ++ (cs ++ trail)) = trim cs := by
  unfold trim
  rw [trimStart_pad hlead]
  cases hcs : trimStart cs with
  | nil =>
    -- the text is blank itself
    have hblank : AllBlank cs := List.dropWhile_eq_nil_iff.mp hcs
    have hnil : trimStart trail = [] := List.dropWhile_eq_nil_iff.mpr htrail
    rw [trimStart_pad hblank, hnil]
  | cons c rest =>
    have hne : ¬ (cs.dropWhile isBlank).isEmpty = true := by
      rw [show cs.dropWhile isBlank = c :: rest from hcs]
      simp
    have happend : trimStart (cs ++ trail) = c :: rest ++ trail := by
      rw [← hcs]
      unfold trimStart
      rw [List.dropWhile_append, if_neg hne]
    rw [happend, trimEnd_pad htrail]

theorem trim_trim (cs : List Char) : trim (trim cs) = trim cs := by
  obtain ⟨front, back, hcs, hfront, hback⟩ := Text.exists_trim cs
  conv => rhs; rw [hcs]
  exact (trim_pad hfront hback (trim cs)).symm

/-- What is left of a text that is trimmed, if anything. -/
def settledText? (content : String) : Option String :=
  let kept := trim content.toList
  if kept = [] then none else some (String.ofList kept)

/-- The token at no offset. -/
def PlacedToken.unplaced (t : PlacedToken) : PlacedToken :=
  ⟨0, t.token⟩

/-- The token, a text trimmed. -/
def Token.settled? : Token → Option Token
  | text content => (settledText? content).map .text
  | t => some t

/-- Tokens at no offset, with texts trimmed. -/
def settleTokens (ts : List PlacedToken) : List PlacedToken :=
  ts.filterMap fun t => t.token.settled?.map (PlacedToken.mk 0)

@[simp] theorem settleTokens_append (ts more : List PlacedToken) :
    settleTokens (ts ++ more) = settleTokens ts ++ settleTokens more :=
  List.filterMap_append

/-- Only the tokens matter, not where they stand. -/
theorem settleTokens_congr {ts us : List PlacedToken}
    (h : ts.map PlacedToken.token = us.map PlacedToken.token) :
    settleTokens ts = settleTokens us := by
  have hmap : ∀ ts : List PlacedToken, settleTokens ts
      = (ts.map PlacedToken.token).filterMap fun t => t.settled?.map (PlacedToken.mk 0) := by
    intro ts
    rw [List.filterMap_map]
    rfl
  rw [hmap, hmap, h]

theorem settled?_of_isInner {t : Token} (h : t.IsInner) : t.settled? = some t := by
  cases t with
  | text content => exact h.elim
  | _ => rfl

/-- Operands, keywords and signs only lose their offsets. -/
theorem settleTokens_of_isInner {ts : List PlacedToken} (h : ∀ t ∈ ts, t.token.IsInner) :
    settleTokens ts = ts.map .unplaced := by
  induction ts with
  | nil => rfl
  | cons t ts ih =>
    obtain ⟨ht, hts⟩ := List.forall_mem_cons.mp h
    rw [settleTokens, List.filterMap_cons, settled?_of_isInner ht]
    exact congrArg (t.unplaced :: ·) (ih hts)

/-! ## §3. Pieces. -/

/-- The piece at no offset, a text trimmed. -/
def Piece.settled? : Piece → Option Piece
  | text _ content => (settledText? content).map (.text 0)
  | action _ inner _ => some (.action 0 (inner.map .unplaced) 0)

/-- An action is one piece. -/
theorem pieces_action {inner : List PlacedToken} (h : ∀ t ∈ inner, t.token ≠ .rightDelim)
    (start stop : Nat) (rest : List PlacedToken) :
    pieces (⟨start, .leftDelim⟩ :: (inner ++ ⟨stop, .rightDelim⟩ :: rest))
      = (pieces rest).map fun found => (.action start inner stop :: found.1, found.2) := by
  have hinner : (inner ++ ⟨stop, .rightDelim⟩ :: rest).takeWhile (!·.isRightDelim) = inner := by
    refine Schema.takeWhile_append_stop (fun t ht => ?_) (by simp [PlacedToken.isRightDelim])
    simpa [PlacedToken.isRightDelim] using h t ht
  have hclose : (inner ++ ⟨stop, .rightDelim⟩ :: rest).drop inner.length
      = ⟨stop, .rightDelim⟩ :: rest := List.drop_left
  have hrest : (inner ++ ⟨stop, .rightDelim⟩ :: rest).drop (inner.length + 1) = rest := by
    rw [← List.drop_drop, hclose]
    rfl
  rw [pieces]
  simp only [hinner, hclose, hrest]

/-- **Cutting tokens into pieces settles with them.** -/
theorem pieces_settle {front : List PlacedToken}
    (h : TokenSequence (front.map PlacedToken.token)) (finish : Nat) :
    ∃ ps, pieces (front ++ [⟨finish, .eof⟩]) = .ok (ps, finish)
      ∧ pieces (settleTokens front ++ [⟨0, .eof⟩]) = .ok (ps.filterMap Piece.settled?, 0) := by
  generalize hts : front.map PlacedToken.token = ts at h
  induction h generalizing front with
  | done =>
    obtain rfl := List.map_eq_nil_iff.mp hts
    exact ⟨[], by simp [pieces], by simp [settleTokens, pieces]⟩
  | @text content ts _ ih =>
    obtain ⟨⟨pos, t⟩, rest, rfl, ht, hrest⟩ := List.map_eq_cons_iff.mp hts
    obtain rfl : t = .text content := ht
    obtain ⟨ps, hps, hsettled⟩ := ih hrest
    refine ⟨.text pos content :: ps, by rw [List.cons_append, pieces, hps]; rfl, ?_⟩
    rw [settleTokens, List.filterMap_cons, List.filterMap_cons, Token.settled?, Piece.settled?]
    cases settledText? content with
    | none => exact hsettled
    | some kept =>
      change pieces (⟨0, .text kept⟩ :: (settleTokens rest ++ [⟨0, .eof⟩])) = _
      rw [pieces, hsettled]
      rfl
  | @action inner ts hinner _ ih =>
    obtain ⟨⟨start, t⟩, rest, rfl, ht, hrest⟩ := List.map_eq_cons_iff.mp hts
    obtain rfl : t = .leftDelim := ht
    obtain ⟨tokens, more, rfl, htokens, hmore⟩ := List.map_eq_append_iff.mp hrest
    obtain ⟨⟨stop, t⟩, rest, rfl, ht, hlater⟩ := List.map_eq_cons_iff.mp hmore
    obtain rfl : t = .rightDelim := ht
    obtain ⟨ps, hps, hsettled⟩ := ih hlater
    have hall : ∀ t ∈ tokens, t.token.IsInner := fun t ht =>
      hinner t.token (htokens ▸ List.mem_map_of_mem ht)
    have hne : ∀ {t : Token}, t.IsInner → t ≠ .rightDelim := by
      rintro t ht rfl
      exact ht
    refine ⟨.action start tokens stop :: ps, ?_, ?_⟩
    · rw [List.cons_append, List.append_assoc, List.cons_append,
        pieces_action fun t ht => hne (hall t ht), hps]
      rfl
    · have htokens' : ∀ t ∈ tokens.map PlacedToken.unplaced, t.token ≠ .rightDelim := by
        intro t ht
        obtain ⟨u, hu, rfl⟩ := List.mem_map.mp ht
        exact hne (hall u hu)
      have hsplit : settleTokens (⟨start, .leftDelim⟩ :: (tokens ++ ⟨stop, .rightDelim⟩ :: rest))
          = ⟨0, .leftDelim⟩ :: (tokens.map .unplaced ++ ⟨0, .rightDelim⟩ :: settleTokens rest) := by
        rw [← settleTokens_of_isInner hall]
        change settleTokens [⟨start, .leftDelim⟩] ++ settleTokens (tokens ++ _) = _
        rw [settleTokens_append]
        rfl
      rw [hsplit, List.cons_append, List.append_assoc, List.cons_append, pieces_action htokens',
        hsettled]
      rfl

/-! ## §4. Clauses. -/

@[simp] theorem nextPos_unplaced (ts : List PlacedToken) : nextPos 0 (ts.map .unplaced) = 0 := by
  cases ts with
  | nil => rfl
  | cons t ts => rfl

theorem commandsFrom_settle (s : Setting) : ∀ (ts : List PlacedToken) (piped : Bool) (pos : Nat)
    (args : List Arg), commandsFrom ⟨s.form, 0, 0⟩ piped 0 args (ts.map .unplaced)
      = (unplace (commandsFrom s piped pos args ts)).map (List.map Command.erase)
  | [], piped, pos, args => by
      rw [List.map_nil, commandsFrom, commandsFrom]
      split
      next => rfl
      next =>
        split
        next => rfl
        next => rfl
  | t :: rest, piped, pos, args => by
      rw [List.map_cons, commandsFrom, commandsFrom, PlacedToken.unplaced]
      dsimp only
      split
      next arg _ => exact commandsFrom_settle s rest piped pos (args ++ [arg])
      next =>
        split
        next =>
          split
          next => rfl
          next =>
            rw [nextPos_unplaced, commandsFrom_settle s rest true (nextPos s.stop rest) [],
              unplace_map]
            cases unplace (commandsFrom s true (nextPos s.stop rest) [] rest) with
            | error e => rfl
            | ok commands => rfl
        all_goals rfl

theorem declaration_unplaced : ∀ ts : List PlacedToken,
    declaration (ts.map .unplaced) = ((declaration ts).1, (declaration ts).2.map .unplaced)
  | [] => rfl
  | [⟨_, t⟩] => by cases t <;> rfl
  | ⟨_, t⟩ :: ⟨_, u⟩ :: rest => by
      cases t with
      | var name => cases u <;> rfl
      | _ => rfl

/-- **Reading a pipeline settles with its tokens.** -/
theorem pipeline_settle (form : ActionForm) (start stop : Nat) (inner : List PlacedToken) :
    pipeline ⟨form, 0, 0⟩ (inner.map .unplaced)
      = (unplace (pipeline ⟨form, start, stop⟩ inner)).map Pipeline.erase := by
  unfold pipeline
  rw [declaration_unplaced]
  dsimp only
  rw [nextPos_unplaced, nextPos_unplaced, unplace_map,
    commandsFrom_settle ⟨form, start, stop⟩ _ false (nextPos stop (declaration inner).2)]
  cases unplace (commandsFrom ⟨form, start, stop⟩ false _ [] (declaration inner).2) with
  | error e => rfl
  | ok commands => rfl

/-- A pipeline that is made into a clause. -/
theorem map_pipeline_settle {form : ActionForm} {start stop : Nat} {inner : List PlacedToken}
    {f : Pipeline → Clause} (hf : ∀ pipe, f pipe.erase = (f pipe).erase) :
    (pipeline ⟨form, 0, 0⟩ (inner.map .unplaced)).map f
      = (unplace ((pipeline ⟨form, start, stop⟩ inner).map f)).map Clause.erase := by
  rw [pipeline_settle form start stop, unplace_map]
  cases unplace (pipeline ⟨form, start, stop⟩ inner) with
  | error e => rfl
  | ok pipe => exact congrArg Except.ok (hf pipe)

theorem endOfAction_settle (form : ActionForm) {clause : Clause} (h : clause.erase = clause)
    (ts : List PlacedToken) : endOfAction form clause (ts.map .unplaced)
      = (unplace (endOfAction form clause ts)).map Clause.erase := by
  cases ts with
  | nil => exact congrArg Except.ok h.symm
  | cons t ts => rfl

theorem otherwiseClause_settle (start stop : Nat) (ts : List PlacedToken) :
    otherwiseClause 0 0 (ts.map .unplaced)
      = (unplace (otherwiseClause start stop ts)).map Clause.erase := by
  rcases ts with _ | ⟨⟨pos, t⟩, rest⟩
  · rfl
  · cases t with
    | keyword k =>
      cases k with
      | ifWord => exact map_pipeline_settle fun _ => rfl
      | _ => rfl
    | _ => rfl

theorem invokeClause_settle (start stop : Nat) (ts : List PlacedToken) :
    invokeClause 0 0 (ts.map .unplaced)
      = (unplace (invokeClause start stop ts)).map Clause.erase := by
  rcases ts with _ | ⟨⟨pos, t⟩, rest⟩
  · rfl
  · cases t with
    | str name =>
      rcases rest with _ | ⟨u, rest⟩
      · rfl
      · exact @map_pipeline_settle .invoke start stop (u :: rest) (fun _ => .invoke name)
          fun _ => rfl
    | _ => rfl

theorem keywordClause_settle (k : Keyword) (start stop : Nat) (ts : List PlacedToken) :
    keywordClause k 0 0 (ts.map .unplaced)
      = (unplace (keywordClause k start stop ts)).map Clause.erase := by
  cases k with
  | ifWord | rangeWord | withWord => exact map_pipeline_settle fun _ => rfl
  | elseWord => exact otherwiseClause_settle start stop ts
  | endWord | breakWord | continueWord => exact endOfAction_settle _ rfl ts
  | templateWord => exact invokeClause_settle start stop ts
  | defineWord | blockWord => rfl

/-- Without a keyword an action is a pipeline. -/
theorem actionClause_of_ne {start stop : Nat} {inner : List PlacedToken}
    (h : ∀ pos k rest, inner ≠ ⟨pos, .keyword k⟩ :: rest) :
    actionClause start inner stop = (pipeline ⟨.command, start, stop⟩ inner).map .value := by
  unfold actionClause
  split
  next pos k rest => exact absurd rfl (h pos k rest)
  next => rfl

/-- **Reading an action settles with its tokens.** -/
theorem actionClause_settle (start : Nat) (inner : List PlacedToken) (stop : Nat) :
    actionClause 0 (inner.map .unplaced) 0
      = (unplace (actionClause start inner stop)).map Clause.erase := by
  by_cases h : ∃ pos k rest, inner = ⟨pos, .keyword k⟩ :: rest
  · obtain ⟨pos, k, rest, rfl⟩ := h
    exact keywordClause_settle k start stop rest
  · have hne : ∀ pos k rest, inner ≠ ⟨pos, .keyword k⟩ :: rest := fun pos k rest heq =>
      h ⟨pos, k, rest, heq⟩
    have hne' : ∀ pos k rest, inner.map PlacedToken.unplaced ≠ ⟨pos, .keyword k⟩ :: rest := by
      intro pos k rest heq
      obtain ⟨⟨pos', t⟩, rest', rfl, ht, -⟩ := List.map_eq_cons_iff.mp heq
      obtain rfl : t = .keyword k := congrArg PlacedToken.token ht
      exact hne pos' k rest' rfl
    rw [actionClause_of_ne hne, actionClause_of_ne hne']
    exact map_pipeline_settle fun _ => rfl

/-! ## §5. Trees. -/

mutual
/-- The node at no offset, with its texts trimmed. -/
def Node.settled? : Node → Option Node
  | .text _ content => (settledText? content).map (.text 0)
  | .action _ pipe => some (.action 0 pipe.erase)
  | .branch kind _ pipe _ body => some (.branch kind 0 pipe.erase 0 (settleAll body))
  | .branchElse kind _ pipe _ body _ elseBody =>
      some (.branchElse kind 0 pipe.erase 0 (settleAll body) 0 (settleAll elseBody))
  | .group _ nodes => some (.group 0 (settleAll nodes))
  | .jump kind _ => some (.jump kind 0)
  | .invoke _ name => some (.invoke 0 name)

/-- Nodes at no offsets, with their texts trimmed. -/
def settleAll : List Node → List Node
  | [] => []
  | n :: nodes => n.settled?.toList ++ settleAll nodes
end

theorem settleAll_eq_filterMap (nodes : List Node) :
    settleAll nodes = nodes.filterMap Node.settled? := by
  induction nodes with
  | nil => rfl
  | cons n nodes ih =>
    rw [settleAll, ih, List.filterMap_cons]
    cases n.settled? with
    | none => rfl
    | some n' => rfl

theorem settleAll_reverse (nodes : List Node) :
    settleAll nodes.reverse = (settleAll nodes).reverse := by
  rw [settleAll_eq_filterMap, settleAll_eq_filterMap, List.filterMap_reverse]

/-- The same of what a list will be part of. -/
def Holder.settled : Holder → Holder
  | root => .root
  | body kind _ pipe => .body kind 0 pipe.erase
  | other kind _ pipe _ nodes shared => .other kind 0 pipe.erase 0 (settleAll nodes) shared

/-- The same of a list that is being filled. -/
def OpenList.settled (l : OpenList) : OpenList :=
  ⟨l.holder.settled, 0, settleAll l.newest⟩

/-- The same of the state of nesting. -/
def Nest.settled (nest : Nest) : Nest :=
  (nest.1.settled, nest.2.map OpenList.settled)

/-- The same of a whole tree. -/
def Block.settled (block : Block) : Block :=
  ⟨0, settleAll block.nodes⟩

namespace OpenList

theorem nodes_settled (l : OpenList) : l.settled.nodes = settleAll l.nodes :=
  (settleAll_reverse l.newest).symm

theorem settled_add_of_some {n n' : Node} (h : n.settled? = some n') (l : OpenList) :
    (l.add n).settled = l.settled.add n' := by
  simp [OpenList.settled, OpenList.add, settleAll, h]

theorem settled_add_of_none {n : Node} (h : n.settled? = none) (l : OpenList) :
    (l.add n).settled = l.settled := by
  simp [OpenList.settled, OpenList.add, settleAll, h]

end OpenList

/-- Ending blocks settles with their nodes. -/
theorem closeBlock_settle : ∀ {below : List OpenList} {n n' : Node}, n.settled? = some n' →
    closeBlock n' (below.map OpenList.settled) = (closeBlock n below).map Nest.settled
  | [], n, n', _ => rfl
  | l :: below, n, n', h => by
      have hadd := OpenList.settled_add_of_some h l
      rw [List.map_cons, closeBlock, closeBlock]
      obtain ⟨holder, pos, newest⟩ := l
      cases holder with
      | root => exact congrArg (fun l => some (l, below.map OpenList.settled)) hadd.symm
      | body => exact congrArg (fun l => some (l, below.map OpenList.settled)) hadd.symm
      | other kind at_ pipe bodyPos body shared =>
        cases shared with
        | false => exact congrArg (fun l => some (l, below.map OpenList.settled)) hadd.symm
        | true =>
          refine closeBlock_settle ?_
          rw [Node.settled?, ← OpenList.nodes_settled, hadd]
          rfl

theorem nestClosing_settle (pos : Nat) (nest : Nest) :
    nestClosing 0 nest.settled = (unplace (nestClosing pos nest)).map Nest.settled := by
  obtain ⟨⟨holder, at_, newest⟩, below⟩ := nest
  cases holder with
  | root => rfl
  | body kind start pipe =>
    have hnode : (Node.branch kind start pipe at_ newest.reverse).settled?
        = some (.branch kind 0 pipe.erase 0 (settleAll newest).reverse) := by
      rw [Node.settled?, settleAll_reverse]
    unfold nestClosing
    dsimp only [Nest.settled, OpenList.settled, Holder.settled, OpenList.nodes, Option.bind_some]
    rw [closeBlock_settle hnode]
    cases closeBlock _ below with
    | none => rfl
    | some nest => rfl
  | other kind start pipe bodyPos nodes shared =>
    have hnode : (Node.branchElse kind start pipe bodyPos nodes at_ newest.reverse).settled?
        = some (.branchElse kind 0 pipe.erase 0 (settleAll nodes) 0
            (settleAll newest).reverse) := by
      rw [Node.settled?, settleAll_reverse]
    unfold nestClosing
    dsimp only [Nest.settled, OpenList.settled, Holder.settled, OpenList.nodes, Option.bind_some]
    rw [closeBlock_settle hnode]
    cases closeBlock _ below with
    | none => rfl
    | some nest => rfl

theorem nestOtherwise_settle (pos next : Nat) (nest : Nest) :
    nestOtherwise 0 0 nest.settled = (unplace (nestOtherwise pos next nest)).map Nest.settled := by
  obtain ⟨⟨holder, at_, newest⟩, below⟩ := nest
  cases holder with
  | root => rfl
  | body kind start pipe =>
    have hnodes := OpenList.nodes_settled ⟨.body kind start pipe, at_, newest⟩
    exact congrArg (fun nodes => Except.ok
      ((⟨.other kind 0 pipe.erase 0 nodes false, 0, []⟩, below.map OpenList.settled) : Nest)) hnodes
  | other => rfl

theorem nestOtherwiseIf_settle (pos next : Nat) (pipe : Pipeline) (nest : Nest) :
    nestOtherwiseIf 0 0 pipe.erase nest.settled
      = (unplace (nestOtherwiseIf pos next pipe nest)).map Nest.settled := by
  obtain ⟨⟨holder, at_, newest⟩, below⟩ := nest
  cases holder with
  | root => rfl
  | body kind start outer =>
    cases kind with
    | cond =>
      have hnodes := OpenList.nodes_settled ⟨.body .cond start outer, at_, newest⟩
      exact congrArg (fun nodes => Except.ok ((⟨.body .cond 0 pipe.erase, 0, []⟩,
        ⟨.other .cond 0 outer.erase 0 nodes true, 0, []⟩ :: below.map OpenList.settled) : Nest))
        hnodes
    | loop | scope => rfl
  | other => rfl

/-- **Taking in a clause settles with it,** unless it is a text. -/
theorem nestClause_settle (pos next : Nat) {clause : Clause}
    (h : ∀ content, clause ≠ .text content) (nest : Nest) :
    nestClause 0 0 clause.erase nest.settled
      = (unplace (nestClause pos next clause nest)).map Nest.settled := by
  have hleaf : ∀ {n n' : Node}, n.settled? = some n' →
      Except.ok ((nest.settled.1.add n', nest.settled.2) : Nest)
        = (unplace (.ok (nest.1.add n, nest.2))).map Nest.settled := by
    intro n n' hn
    exact congrArg (fun l => Except.ok ((l, nest.settled.2) : Nest))
      (OpenList.settled_add_of_some hn nest.1).symm
  cases clause with
  | text content => exact absurd rfl (h content)
  | value pipe => exact hleaf (n := .action pos pipe) rfl
  | jump kind => exact hleaf (n := .jump kind pos) rfl
  | invoke name => exact hleaf (n := .invoke pos name) rfl
  | opening kind pipe => rfl
  | otherwise => exact nestOtherwise_settle pos next nest
  | otherwiseIf pipe => exact nestOtherwiseIf_settle pos next pipe nest
  | closing => exact nestClosing_settle pos nest

@[simp] theorem nextPiecePos_settled (ps : List Piece) :
    nextPiecePos 0 (ps.filterMap Piece.settled?) = 0 := by
  cases hps : ps.filterMap Piece.settled? with
  | nil => rfl
  | cons p rest =>
    obtain ⟨piece, -, hpiece⟩ := List.mem_filterMap.mp (hps ▸ List.mem_cons_self : p ∈ _)
    cases piece with
    | text pos content =>
      obtain ⟨kept, -, rfl⟩ := Option.map_eq_some_iff.mp hpiece
      rfl
    | action start inner stop =>
      obtain rfl := Option.some.inj hpiece
      rfl

/-- The clause of an action is no text. -/
theorem actionClause_ne_text {start stop : Nat} {inner : List PlacedToken} {content : String} :
    actionClause start inner stop ≠ .ok (.text content) := by
  have hmap : ∀ {x : Except Error Pipeline} {f : Pipeline → Clause},
      (∀ pipe, f pipe ≠ .text content) → x.map f ≠ .ok (.text content) := by
    intro x f hf h
    obtain ⟨pipe, -, hpipe⟩ := map_eq_ok.mp h
    exact hf pipe hpipe
  have hend : ∀ {form : ActionForm} {clause : Clause} {ts : List PlacedToken},
      clause ≠ .text content → endOfAction form clause ts ≠ .ok (.text content) := by
    intro form clause ts hne h
    cases ts with
    | nil => exact hne (Except.ok.inj h)
    | cons t ts => simp [endOfAction] at h
  unfold actionClause
  split
  next k rest =>
    cases k with
    | ifWord | rangeWord | withWord => exact hmap (by simp)
    | elseWord =>
      simp only [keywordClause]
      unfold otherwiseClause
      split
      · exact hmap (by simp)
      · exact hend (by simp)
    | endWord | breakWord | continueWord => exact hend (by simp)
    | templateWord =>
      simp only [keywordClause]
      unfold invokeClause
      split
      · simp
      · exact hmap (by simp)
      · simp
    | defineWord | blockWord => simp [keywordClause]
  next => exact hmap (by simp)

/-- **Taking in pieces settles with them.** -/
theorem nestPieces_settle (finish : Nat) : ∀ (ps : List Piece) (nest : Nest),
    nestPieces 0 (ps.filterMap Piece.settled?) nest.settled
      = (unplace (nestPieces finish ps nest)).map Block.settled
  | [], (⟨holder, pos, newest⟩, below) => by
      cases holder with
      | root =>
        have hnodes := OpenList.nodes_settled ⟨.root, pos, newest⟩
        exact congrArg (fun nodes => Except.ok (Block.mk 0 nodes)) hnodes
      | body | other => rfl
  | .text pos content :: rest, nest => by
      have ih := nestPieces_settle finish rest (nest.1.add (.text pos content), nest.2)
      change _ = (unplace (nestPieces finish rest (nest.1.add (.text pos content), nest.2))).map _
      rw [← ih, List.filterMap_cons, Piece.settled?]
      cases htext : settledText? content with
      | none =>
        have hnode : (Node.text pos content).settled? = none := by rw [Node.settled?, htext]; rfl
        exact congrArg (fun l => nestPieces 0 (rest.filterMap Piece.settled?) (l, _))
          (OpenList.settled_add_of_none hnode nest.1).symm
      | some kept =>
        have hnode : (Node.text pos content).settled? = some (.text 0 kept) := by
          rw [Node.settled?, htext]
          rfl
        exact congrArg (fun l => nestPieces 0 (rest.filterMap Piece.settled?) (l, _))
          (OpenList.settled_add_of_some hnode nest.1).symm
  | .action start inner stop :: rest, nest => by
      rw [List.filterMap_cons, Piece.settled?, nestPieces, nestPieces, nextPiecePos_settled,
        Piece.clause, Piece.clause, actionClause_settle start inner stop, unplace_bind,
        map_then_bind, bind_then_map]
      cases hclause : actionClause start inner stop with
      | error e => rfl
      | ok clause =>
        rw [unplace_ok, ok_bind, ok_bind, Piece.pos, Piece.pos, unplace_bind,
          nestClause_settle start (nextPiecePos finish rest) fun _ heq =>
            actionClause_ne_text (heq ▸ hclause),
          map_then_bind, bind_then_map]
        exact bind_congr fun nest => nestPieces_settle finish rest nest

/-- **Building a tree settles with its tokens.** -/
theorem ofTokens_settle {front : List PlacedToken}
    (h : TokenSequence (front.map PlacedToken.token)) (finish : Nat) :
    Block.ofTokens (settleTokens (front ++ [⟨finish, .eof⟩]))
      = (unplace (Block.ofTokens (front ++ [⟨finish, .eof⟩]))).map Block.settled := by
  obtain ⟨ps, hps, hsettled⟩ := pieces_settle h finish
  unfold Block.ofTokens
  rw [settleTokens_append]
  change pieces (settleTokens front ++ [⟨0, .eof⟩]) >>= _ = _
  rw [hsettled, hps, ok_bind, ok_bind]
  dsimp only
  rw [nextPiecePos_settled]
  exact nestPieces_settle finish ps (⟨.root, nextPiecePos finish ps, []⟩, [])

end Template

end Stencil
