/-
  Stencil.Proofs.Template.Positions
  ─────────────────────────────────
  WHERE TOKENS, TREES AND THE FAULTS OF TEMPLATES STAND.

  Cutting a template puts every token, and every fault, between two
  characters of the source.  From there on no offset is computed any more:
  whatever reads tokens copies theirs.

    • `Located` — a computation that ends well, or fails at a place,
    • `tokensFrom_located` — tokens and faults of cutting stand between
      characters,
    • `pieces_located`, `pipeline_located`, `clause_located`,
      `nestClause_located` — every reader of tokens copies their offsets,
    • `ofTokens_located` — so a tree and the faults of building it have no
      others.
-/
import Stencil.Proofs.Program.Rejection
import Stencil.Proofs.Template.WellFormed

namespace Stencil

open Outcome

/-! ## §1. Computations that fail at a place. -/

/-- The result satisfies `Q`, or the error stands at an offset that satisfies
`P`. -/
def Located {α : Type} (P : Nat → Prop) (Q : α → Prop) : Except Error α → Prop
  | .ok a => Q a
  | .error e => ∃ p, e.offset? = some p ∧ P p

namespace Located

variable {α β : Type} {P : Nat → Prop} {Q : α → Prop} {R : β → Prop}

theorem bind {x : Except Error α} {f : α → Except Error β} (hx : Located P Q x)
    (hf : ∀ a, Q a → Located P R (f a)) : Located P R (x >>= f) := by
  cases x with
  | ok a => exact hf a hx
  | error e => exact hx

theorem map {x : Except Error α} {f : α → β} (hx : Located P Q x) (hf : ∀ a, Q a → R (f a)) :
    Located P R (x.map f) := by
  cases x with
  | ok a => exact hf a hx
  | error e => exact hx

end Located

namespace Template

open Text (isBlank width)

/-! ## §2. Offsets between characters. -/

/-- The offset is reached with these characters left. -/
def Left (all : List Char) (pos : Nat) (cs : List Char) : Prop :=
  ∃ front, all = front ++ cs ∧ width front = pos

/-- The offset stands between two characters, or at an end. -/
def Between (all : List Char) (pos : Nat) : Prop :=
  ∃ cs, Left all pos cs

theorem Left.between {all cs : List Char} {pos : Nat} (h : Left all pos cs) : Between all pos :=
  ⟨cs, h⟩

/-- Passing characters keeps to their ends. -/
theorem Left.drop {all cs : List Char} {pos : Nat} (h : Left all pos cs) (n : Nat) :
    Left all (pos + width (cs.take n)) (cs.drop n) := by
  obtain ⟨front, rfl, rfl⟩ := h
  refine ⟨front ++ cs.take n, ?_, Text.width_append _ _⟩
  rw [List.append_assoc, List.take_append_drop]

/-- So does passing a run. -/
theorem Left.dropRun {all cs : List Char} {pos : Nat} (h : Left all pos cs) (p : Char → Bool) :
    Left all (pos + width (cs.takeWhile p)) (cs.drop (cs.takeWhile p).length) := by
  have hrun : cs.take (cs.takeWhile p).length = cs.takeWhile p :=
    List.prefix_iff_eq_take.mp (List.takeWhile_prefix p) |>.symm
  have hdrop := h.drop (cs.takeWhile p).length
  rw [hrun] at hdrop
  exact hdrop

/-! ## §3. Tokens. -/

/-- All tokens stand between characters. -/
def TokensBetween (all : List Char) (ts : List PlacedToken) : Prop :=
  ∀ t ∈ ts, Between all t.pos

section
variable {all : List Char}

theorem actionTokens_located {start : Nat} (hstart : Between all start) (pos : Nat)
    (cs : List Char) : Left all pos cs →
      Located (Between all) (fun found => TokensBetween all found.tokens)
        (actionTokens start pos cs) := by
  fun_induction actionTokens start pos cs with
  | case1 => exact fun _ => ⟨start, rfl, hstart⟩
  | case2 pos cs blanks here =>
    intro hleft
    exact List.forall_mem_singleton.mpr (hleft.dropRun isBlank).between
  | case3 pos cs blanks here =>
    intro hleft
    exact ⟨here, rfl, (hleft.dropRun isBlank).between⟩
  | case4 pos cs blanks here c rest hrest _ token n _ ih =>
    intro hleft
    have hhere : Left all here (c :: rest) := hrest ▸ hleft.dropRun isBlank
    have hnext := hhere.drop (n + 1)
    rw [List.take_succ_cons, Text.width_cons, ← Nat.add_assoc] at hnext
    refine (ih hnext).map fun more hmore => ?_
    exact List.forall_mem_cons.mpr ⟨hhere.between, hmore⟩

/-- The faults of a comment stand at its opening delimiter. -/
theorem comment_located {start : Nat} (hstart : Between all start) (cs : List Char) :
    Located (Between all) (fun found => TokensBetween all found.tokens) (comment start cs) := by
  unfold comment
  split
  next => exact ⟨start, rfl, hstart⟩
  next =>
    dsimp only
    split
    next => exact List.forall_mem_nil _
    next => exact ⟨start, rfl, hstart⟩

theorem action_located {start pos : Nat} (hstart : Between all start) {cs : List Char}
    (hleft : Left all pos cs) :
    Located (Between all) (fun found => TokensBetween all found.tokens) (action start pos cs) := by
  unfold action
  dsimp only
  split
  next => exact (comment_located hstart _).map fun found hfound => hfound
  next =>
    refine (actionTokens_located hstart _ _ (hleft.dropRun isBlank)).map fun found hfound => ?_
    exact List.forall_mem_cons.mpr ⟨hstart, hfound⟩

theorem textTokens_between {pos : Nat} (h : Between all pos) (trimLeft trimRight : Bool)
    (raw : List Char) : TokensBetween all (textTokens pos trimLeft trimRight raw) := by
  -- whatever is kept of the text, it stands at the offset before trimming
  obtain ⟨kept, hkept⟩ : ∃ kept : List Char, textTokens pos trimLeft trimRight raw
      = if kept.isEmpty then [] else [⟨pos, .text (String.ofList kept)⟩] := ⟨_, rfl⟩
  intro t ht
  rw [hkept] at ht
  split at ht
  next => simp at ht
  next =>
    rw [List.mem_singleton.mp ht]
    exact h

end

/-- The last token is the end of the template. -/
def EndsInEof (ts : List PlacedToken) : Prop :=
  ∃ front pos, ts = front ++ [⟨pos, .eof⟩]

/-- **All tokens of a template and all faults of cutting it stand between
characters, and the last token is the end.** -/
theorem tokensFrom_located {all : List Char} {pos : Nat} {trim : Bool} {cs : List Char}
    (hleft : Left all pos cs) :
    Located (Between all) (fun ts => TokensBetween all ts ∧ EndsInEof ts)
      (tokensFrom pos trim cs) := by
  induction hlen : cs.length using Nat.strong_induction_on generalizing cs pos trim with
  | h len ih =>
    subst hlen
    cases hpair : findPair '\x7b' '\x7b' cs with
    | none =>
      rw [tokensFrom_of_none hpair]
      have hend := hleft.drop cs.length
      rw [List.take_length] at hend
      refine ⟨List.forall_mem_append.mpr ⟨textTokens_between hleft.between _ _ _, ?_⟩, _, _, rfl⟩
      exact List.forall_mem_singleton.mpr hend.between
    | some n =>
      rw [tokensFrom_of_some hpair]
      refine (action_located (hleft.drop n).between (hleft.drop _)).bind fun found hfound => ?_
      refine (ih _ (length_drop_opensAt_lt hpair found.count) (hleft.drop _) rfl).map ?_
      rintro more ⟨hmore, front, finish, rfl⟩
      refine ⟨?_, _, finish, (List.append_assoc _ _ _).symm⟩
      refine List.forall_mem_append.mpr ⟨List.forall_mem_append.mpr ⟨?_, hfound⟩, hmore⟩
      exact textTokens_between hleft.between _ _ _

/-! ## §4. Clauses. -/

/-- All offsets of a piece satisfy `P`. -/
def Piece.Within (P : Nat → Prop) : Piece → Prop
  | text pos _ => P pos
  | action start inner stop => P start ∧ (∀ t ∈ inner, P t.pos) ∧ P stop

theorem Piece.Within.pos {P : Nat → Prop} {piece : Piece} (h : piece.Within P) : P piece.pos := by
  cases piece with
  | text pos content => exact h
  | action start inner stop => exact h.1

/-- After a token that is not the end there are others. -/
theorem EndsInEof.of_append {front rest : List PlacedToken} {t : PlacedToken}
    (h : EndsInEof (front ++ t :: rest)) (ht : t.token ≠ .eof) : EndsInEof rest := by
  obtain ⟨before, pos, heq⟩ := h
  rcases rest.eq_nil_or_concat with rfl | ⟨rest, last, rfl⟩
  · obtain ⟨-, hlast⟩ := List.append_inj' heq rfl
    obtain rfl := (List.cons.inj hlast).1
    exact absurd rfl ht
  · rw [List.concat_eq_append, ← List.cons_append, ← List.append_assoc] at heq
    obtain ⟨-, hlast⟩ := List.append_inj' heq rfl
    exact ⟨rest, pos, by rw [List.concat_eq_append, hlast]⟩

/-- The tokens of an action end at its closing delimiter. -/
theorem eq_of_drop_takeWhile {rest tail : List PlacedToken} {close : PlacedToken}
    (h : rest.drop (rest.takeWhile (!·.isRightDelim)).length = close :: tail) :
    rest = rest.takeWhile (!·.isRightDelim) ++ close :: tail ∧ close.token = .rightDelim := by
  rw [Schema.drop_length_takeWhile] at h
  refine ⟨by rw [← h, List.takeWhile_append_dropWhile], ?_⟩
  have hstop := Schema.head?_dropWhile_not (!·.isRightDelim) rest close (by rw [h]; rfl)
  simpa [PlacedToken.isRightDelim] using hstop

section
variable {P : Nat → Prop}

theorem pieces_located (ts : List PlacedToken) : (∀ t ∈ ts, P t.pos) → EndsInEof ts →
    Located P (fun found => (∀ piece ∈ found.1, piece.Within P) ∧ P found.2) (pieces ts) := by
  fun_induction pieces ts
  case case1 =>
    rintro - ⟨front, pos, heq⟩
    simp at heq
  case case2 pos rest =>
    intro hts _
    exact ⟨List.forall_mem_nil _, hts ⟨pos, .eof⟩ List.mem_cons_self⟩
  case case3 pos content rest ih =>
    intro hts hend
    obtain ⟨ht, hrest⟩ := List.forall_mem_cons.mp hts
    refine (ih hrest (@EndsInEof.of_append [] _ _ hend (by simp))).map ?_
    rintro ⟨more, finish⟩ ⟨hmore, hfinish⟩
    exact ⟨List.forall_mem_cons.mpr ⟨ht, hmore⟩, hfinish⟩
  case case4 pos rest inner hnone =>
    intro hts _
    exact ⟨pos, rfl, hts ⟨pos, .leftDelim⟩ List.mem_cons_self⟩
  case case5 pos rest inner close tail hclose ih =>
    intro hts hend
    obtain ⟨ht, hrest⟩ := List.forall_mem_cons.mp hts
    obtain ⟨hsplit, hdelim⟩ := eq_of_drop_takeWhile hclose
    have htail : rest.drop (inner.length + 1) = tail := by
      rw [← List.drop_drop, hclose]
      rfl
    have hmem : ∀ t ∈ inner ++ close :: tail, P t.pos := hsplit ▸ hrest
    obtain ⟨hinner, hlater⟩ := List.forall_mem_append.mp hmem
    obtain ⟨hpos, hafter⟩ := List.forall_mem_cons.mp hlater
    rw [htail] at ih ⊢
    rw [hsplit] at hend
    refine (ih hafter (@EndsInEof.of_append (_ :: inner) _ _ hend (by simp [hdelim]))).map ?_
    rintro ⟨more, finish⟩ ⟨hmore, hfinish⟩
    exact ⟨List.forall_mem_cons.mpr ⟨⟨ht, hinner, hpos⟩, hmore⟩, hfinish⟩
  case case6 pos token rest _ _ _ =>
    intro hts _
    exact ⟨pos, rfl, hts ⟨pos, token⟩ List.mem_cons_self⟩

theorem nextPos_within {stop : Nat} {ts : List PlacedToken} (hstop : P stop)
    (hts : ∀ t ∈ ts, P t.pos) : P (nextPos stop ts) := by
  cases ts with
  | nil => exact hstop
  | cons t ts => exact hts t List.mem_cons_self

/-- Commands stand at tokens, or at the closing delimiter. -/
theorem commandsFrom_located {s : Setting} (hstart : P s.start) (hstop : P s.stop) :
    ∀ {ts : List PlacedToken} {piped : Bool} {pos : Nat} {args : List Arg}, P pos →
      (∀ t ∈ ts, P t.pos) →
      Located P (fun commands => ∀ cmd ∈ commands, P cmd.pos) (commandsFrom s piped pos args ts)
  | [], piped, pos, args, hpos, _ => by
      rw [commandsFrom]
      split
      · exact List.forall_mem_singleton.mpr hpos
      · split
        · exact ⟨pos, rfl, hpos⟩
        · exact ⟨s.start, rfl, hstart⟩
  | t :: rest, piped, pos, args, hpos, hts => by
      obtain ⟨ht, hrest⟩ := List.forall_mem_cons.mp hts
      rw [commandsFrom]
      split
      next => exact commandsFrom_located hstart hstop hpos hrest
      next =>
        split
        next =>
          split
          · exact ⟨t.pos, rfl, ht⟩
          · -- the next command starts at what follows the bar
            have hmore := @commandsFrom_located s hstart hstop rest true _ []
              (nextPos_within hstop hrest) hrest
            exact hmore.map fun more hmore => List.forall_mem_cons.mpr ⟨hpos, hmore⟩
        all_goals exact ⟨t.pos, rfl, ht⟩

theorem mem_of_mem_declaration {ts : List PlacedToken} :
    ∀ t ∈ (declaration ts).2, t ∈ ts := by
  unfold declaration
  split
  all_goals
    intro t ht
    simp [ht]

theorem pipeline_located {s : Setting} (hstart : P s.start) (hstop : P s.stop)
    {inner : List PlacedToken} (hinner : ∀ t ∈ inner, P t.pos) :
    Located P (fun pipe => ∀ p ∈ pipe.offsets, P p) (pipeline s inner) := by
  have hrest : ∀ t ∈ (declaration inner).2, P t.pos := fun t ht =>
    hinner t (mem_of_mem_declaration t ht)
  have hcommands := @commandsFrom_located P s hstart hstop _ false _ []
    (nextPos_within hstop hrest) hrest
  refine hcommands.map fun commands hcommands => ?_
  refine List.forall_mem_cons.mpr ⟨nextPos_within hstop hinner, ?_⟩
  exact List.forall_mem_map.mpr hcommands

/-- All offsets of a clause satisfy `P`. -/
def Clause.Within (P : Nat → Prop) : Clause → Prop
  | value pipe | opening _ pipe | otherwiseIf pipe => ∀ p ∈ pipe.offsets, P p
  | text _ | otherwise | closing | jump _ | invoke _ => True

theorem endOfAction_located {form : ActionForm} {clause : Clause} (hc : clause.Within P)
    {ts : List PlacedToken} (hts : ∀ t ∈ ts, P t.pos) :
    Located P (Clause.Within P) (endOfAction form clause ts) := by
  cases ts with
  | nil => exact hc
  | cons t ts => exact ⟨t.pos, rfl, hts t List.mem_cons_self⟩

theorem keywordClause_located {k : Keyword} {start stop : Nat} (hstart : P start) (hstop : P stop)
    {ts : List PlacedToken} (hts : ∀ t ∈ ts, P t.pos) :
    Located P (Clause.Within P) (keywordClause k start stop ts) := by
  have hblock : ∀ kind, Located P (Clause.Within P) (keywordClause.block start stop ts kind) :=
    fun kind => (pipeline_located (s := ⟨.branch kind, start, stop⟩) hstart hstop hts).map
      fun pipe hpipe => hpipe
  cases k with
  | ifWord | rangeWord | withWord => exact hblock _
  | endWord | breakWord | continueWord => exact endOfAction_located (by trivial) hts
  | defineWord | blockWord => exact ⟨start, rfl, hstart⟩
  | elseWord =>
    simp only [keywordClause, otherwiseClause]
    split
    next p rest =>
      have hrest : ∀ t ∈ rest, P t.pos := fun t ht => hts t (List.mem_cons_of_mem _ ht)
      exact (pipeline_located (s := ⟨.otherwiseIf, start, stop⟩) hstart hstop hrest).map
        fun pipe hpipe => hpipe
    next => exact endOfAction_located (by trivial) hts
  | templateWord =>
    simp only [keywordClause, invokeClause]
    split
    next => trivial
    next p name rest _ =>
      have hrest : ∀ t ∈ rest, P t.pos := fun t ht => hts t (List.mem_cons_of_mem _ ht)
      exact (pipeline_located (s := ⟨.invoke, start, stop⟩) hstart hstop hrest).map
        fun pipe _ => trivial
    next => exact ⟨_, rfl, nextPos_within hstop hts⟩

/-- **A piece is read as a clause with no other offsets.** -/
theorem clause_located {piece : Piece} (h : piece.Within P) :
    Located P (Clause.Within P) piece.clause := by
  cases piece with
  | text pos content => trivial
  | action start inner stop =>
    obtain ⟨hstart, hinner, hstop⟩ := h
    simp only [Piece.clause, actionClause]
    split
    next p k rest =>
      exact keywordClause_located hstart hstop fun t ht => hinner t (List.mem_cons_of_mem _ ht)
    next =>
      exact (pipeline_located (s := ⟨.command, start, stop⟩) hstart hstop hinner).map
        fun pipe hpipe => hpipe

end

/-! ## §5. Trees. -/

mutual
/-- All offsets that a node and everything in it remember. -/
def Node.positions : Node → List Nat
  | .text pos _ | .jump _ pos | .invoke pos _ => [pos]
  | .action pos pipe => pos :: pipe.offsets
  | .branch _ pos pipe bodyPos body => pos :: (pipe.offsets ++ bodyPos :: positionsOf body)
  | .branchElse _ pos pipe bodyPos body elsePos elseBody =>
      pos :: (pipe.offsets ++ bodyPos :: (positionsOf body ++ elsePos :: positionsOf elseBody))
  | .group pos nodes => pos :: positionsOf nodes

/-- The same of nodes in order. -/
def positionsOf : List Node → List Nat
  | [] => []
  | node :: nodes => node.positions ++ positionsOf nodes
end

/-- All offsets that a tree remembers. -/
def Block.positions (block : Block) : List Nat :=
  block.pos :: positionsOf block.nodes

/-- All offsets of a node satisfy `P`. -/
def Node.Within (P : Nat → Prop) (node : Node) : Prop :=
  ∀ p ∈ node.positions, P p

section
variable {P : Nat → Prop}

theorem forall_positionsOf {nodes : List Node} :
    (∀ p ∈ positionsOf nodes, P p) ↔ ∀ n ∈ nodes, n.Within P := by
  induction nodes with
  | nil => simp [positionsOf]
  | cons node nodes ih =>
    rw [positionsOf, List.forall_mem_append, List.forall_mem_cons, ih]
    rfl

theorem Node.within_leaf {node : Node} {pos : Nat} (h : node.positions = [pos]) (hpos : P pos) :
    node.Within P := by
  intro p hp
  rw [h] at hp
  rw [List.mem_singleton.mp hp]
  exact hpos

theorem Node.within_action {pos : Nat} {pipe : Pipeline} :
    (Node.action pos pipe).Within P ↔ P pos ∧ ∀ p ∈ pipe.offsets, P p := by
  rw [Node.Within, Node.positions, List.forall_mem_cons]

theorem Node.within_branch {kind : BranchKind} {pos bodyPos : Nat} {pipe : Pipeline}
    {body : List Node} :
    (Node.branch kind pos pipe bodyPos body).Within P
      ↔ P pos ∧ (∀ p ∈ pipe.offsets, P p) ∧ P bodyPos ∧ ∀ n ∈ body, n.Within P := by
  rw [Node.Within, Node.positions, List.forall_mem_cons, List.forall_mem_append,
    List.forall_mem_cons, forall_positionsOf]

theorem Node.within_branchElse {kind : BranchKind} {pos bodyPos elsePos : Nat} {pipe : Pipeline}
    {body elseBody : List Node} :
    (Node.branchElse kind pos pipe bodyPos body elsePos elseBody).Within P
      ↔ P pos ∧ (∀ p ∈ pipe.offsets, P p) ∧ P bodyPos ∧ (∀ n ∈ body, n.Within P)
        ∧ P elsePos ∧ ∀ n ∈ elseBody, n.Within P := by
  rw [Node.Within, Node.positions, List.forall_mem_cons, List.forall_mem_append,
    List.forall_mem_cons, List.forall_mem_append, List.forall_mem_cons, forall_positionsOf,
    forall_positionsOf]

theorem Node.within_group {pos : Nat} {nodes : List Node} :
    (Node.group pos nodes).Within P ↔ P pos ∧ ∀ n ∈ nodes, n.Within P := by
  rw [Node.Within, Node.positions, List.forall_mem_cons, forall_positionsOf]

/-- What an open list will be part of has no other offsets. -/
def Holder.Within (P : Nat → Prop) : Holder → Prop
  | root => True
  | body _ pos pipe => P pos ∧ ∀ p ∈ pipe.offsets, P p
  | other _ pos pipe bodyPos first _ =>
      P pos ∧ (∀ p ∈ pipe.offsets, P p) ∧ P bodyPos ∧ ∀ n ∈ first, n.Within P

/-- Nor has an open list. -/
structure OpenList.Within (P : Nat → Prop) (l : OpenList) : Prop where
  /-- What it will be part of. -/
  holder : l.holder.Within P
  /-- Where it starts. -/
  pos : P l.pos
  /-- Its nodes so far. -/
  nodes : ∀ n ∈ l.nodes, n.Within P

/-- Nor have all of them. -/
def Nest.Within (P : Nat → Prop) (nest : Nest) : Prop :=
  nest.1.Within P ∧ ∀ l ∈ nest.2, l.Within P

theorem OpenList.Within.add {l : OpenList} (h : l.Within P) {node : Node} (hn : node.Within P) :
    (l.add node).Within P := by
  refine ⟨h.holder, h.pos, ?_⟩
  rw [OpenList.nodes_add, List.forall_mem_append]
  exact ⟨h.nodes, List.forall_mem_singleton.mpr hn⟩

/-- A list that has just been opened. -/
theorem OpenList.within_new (holder : Holder) (h : holder.Within P) {pos : Nat} (hpos : P pos) :
    OpenList.Within P ⟨holder, pos, []⟩ :=
  ⟨h, hpos, List.forall_mem_nil _⟩

theorem closeBlock_within : ∀ {below : List OpenList} {node : Node} {nest : Nest},
    node.Within P → (∀ l ∈ below, l.Within P) → closeBlock node below = some nest →
    nest.Within P
  | [], _, _, _, _, h => by simp [closeBlock] at h
  | l :: below, node, nest, hn, hbelow, h => by
      obtain ⟨hl, hbelow⟩ := List.forall_mem_cons.mp hbelow
      rw [closeBlock] at h
      split at h
      next kind pos pipe bodyPos body hholder =>
        -- a shared other part is complete with this node
        have hw := hl.holder
        rw [hholder] at hw
        obtain ⟨hpos, hpipe, hbodyPos, hbody⟩ := hw
        exact closeBlock_within (Node.within_branchElse.mpr
          ⟨hpos, hpipe, hbodyPos, hbody, hl.pos, (hl.add hn).nodes⟩) hbelow h
      next =>
        obtain rfl := Option.some.inj h
        exact ⟨hl.add hn, hbelow⟩

theorem nestClosing_located {pos : Nat} {nest : Nest} (hpos : P pos) (hn : nest.Within P) :
    Located P (Nest.Within P) (nestClosing pos nest) := by
  obtain ⟨l, below⟩ := nest
  obtain ⟨hl, hbelow⟩ := hn
  have hw := hl.holder
  simp only [nestClosing]
  split
  next nest hnest =>
    obtain ⟨node, hnode, hclose⟩ := Option.bind_eq_some_iff.mp hnest
    refine closeBlock_within ?_ hbelow hclose
    split at hnode
    next => simp at hnode
    next hholder =>
      rw [hholder] at hw
      obtain rfl := Option.some.inj hnode
      exact Node.within_branch.mpr ⟨hw.1, hw.2, hl.pos, hl.nodes⟩
    next hholder =>
      rw [hholder] at hw
      obtain ⟨hat, hpipe, hbodyPos, hbody⟩ := hw
      obtain rfl := Option.some.inj hnode
      exact Node.within_branchElse.mpr ⟨hat, hpipe, hbodyPos, hbody, hl.pos, hl.nodes⟩
  next => exact ⟨pos, rfl, hpos⟩

theorem nestOtherwise_located {pos next : Nat} {nest : Nest} (hpos : P pos) (hnext : P next)
    (hn : nest.Within P) : Located P (Nest.Within P) (nestOtherwise pos next nest) := by
  obtain ⟨l, below⟩ := nest
  obtain ⟨hl, hbelow⟩ := hn
  have hw := hl.holder
  simp only [nestOtherwise]
  split
  next => exact ⟨pos, rfl, hpos⟩
  next kind at_ pipe hholder =>
    rw [hholder] at hw
    refine ⟨OpenList.within_new (.other kind at_ pipe l.pos l.nodes false) ?_ hnext, hbelow⟩
    exact ⟨hw.1, hw.2, hl.pos, hl.nodes⟩
  next => exact ⟨pos, rfl, hpos⟩

theorem nestOtherwiseIf_located {pos next : Nat} {pipe : Pipeline} {nest : Nest} (hpos : P pos)
    (hnext : P next) (hpipe : ∀ p ∈ pipe.offsets, P p) (hn : nest.Within P) :
    Located P (Nest.Within P) (nestOtherwiseIf pos next pipe nest) := by
  obtain ⟨l, below⟩ := nest
  obtain ⟨hl, hbelow⟩ := hn
  have hw := hl.holder
  simp only [nestOtherwiseIf]
  split
  next => exact ⟨pos, rfl, hpos⟩
  next at_ outer hholder =>
    -- the condition and the list around it both stand at the action
    rw [hholder] at hw
    refine ⟨OpenList.within_new (.body .cond pos pipe) ⟨hpos, hpipe⟩ hnext,
      List.forall_mem_cons.mpr ⟨?_, hbelow⟩⟩
    exact OpenList.within_new (.other .cond at_ outer l.pos l.nodes true)
      ⟨hw.1, hw.2, hl.pos, hl.nodes⟩ hpos
  next => exact ⟨pos, rfl, hpos⟩
  next => exact ⟨pos, rfl, hpos⟩

/-- **Taking in a clause adds no other offsets.** -/
theorem nestClause_located {pos next : Nat} {clause : Clause} {nest : Nest} (hpos : P pos)
    (hnext : P next) (hc : clause.Within P) (hn : nest.Within P) :
    Located P (Nest.Within P) (nestClause pos next clause nest) := by
  have hleaf : ∀ {node : Node}, node.Within P → Nest.Within P (nest.1.add node, nest.2) :=
    fun hnode => ⟨hn.1.add hnode, hn.2⟩
  cases clause with
  | text content => exact hleaf (Node.within_leaf (by rw [Node.positions]) hpos)
  | jump kind => exact hleaf (Node.within_leaf (by rw [Node.positions]) hpos)
  | invoke name => exact hleaf (Node.within_leaf (by rw [Node.positions]) hpos)
  | value pipe => exact hleaf (Node.within_action.mpr ⟨hpos, hc⟩)
  | opening kind pipe =>
    exact ⟨OpenList.within_new (.body kind pos pipe) ⟨hpos, hc⟩ hnext,
      List.forall_mem_cons.mpr hn⟩
  | otherwise => exact nestOtherwise_located hpos hnext hn
  | otherwiseIf pipe => exact nestOtherwiseIf_located hpos hnext hc hn
  | closing => exact nestClosing_located hpos hn

theorem nextPiecePos_within {finish : Nat} {list : List Piece} (hfinish : P finish)
    (hlist : ∀ piece ∈ list, piece.Within P) : P (nextPiecePos finish list) := by
  cases list with
  | nil => exact hfinish
  | cons piece list => exact (hlist piece List.mem_cons_self).pos

/-- A run of pieces adds no other offsets. -/
theorem nestPieces_located {finish : Nat} (hfinish : P finish) :
    ∀ {list : List Piece} {nest : Nest}, (∀ piece ∈ list, piece.Within P) → nest.Within P →
      Located P (fun block => ∀ p ∈ block.positions, P p) (nestPieces finish list nest)
  | [], (l, below), _, hn => by
      have hw := hn.1.holder
      rw [nestPieces]
      split
      next =>
        exact List.forall_mem_cons.mpr ⟨hn.1.pos, forall_positionsOf.mpr hn.1.nodes⟩
      next hholder =>
        rw [hholder] at hw
        exact ⟨_, rfl, hw.1⟩
      next hholder =>
        rw [hholder] at hw
        exact ⟨_, rfl, hw.1⟩
  | piece :: rest, nest, hlist, hn => by
      obtain ⟨hpiece, hrest⟩ := List.forall_mem_cons.mp hlist
      rw [nestPieces]
      refine (clause_located hpiece).bind fun clause hclause => ?_
      have hstep := nestClause_located hpiece.pos (nextPiecePos_within hfinish hrest) hclause hn
      exact hstep.bind fun nest' hn' => nestPieces_located hfinish hrest hn'

/-- **A tree has the offsets of its tokens and no others, and so have the
faults of building it.** -/
theorem ofTokens_located {ts : List PlacedToken} (hts : ∀ t ∈ ts, P t.pos) (hend : EndsInEof ts) :
    Located P (fun block => ∀ p ∈ block.positions, P p) (Block.ofTokens ts) := by
  unfold Block.ofTokens
  refine (pieces_located ts hts hend).bind ?_
  rintro ⟨list, finish⟩ ⟨hlist, hfinish⟩
  refine nestPieces_located hfinish hlist ⟨?_, List.forall_mem_nil _⟩
  exact OpenList.within_new .root trivial (nextPiecePos_within hfinish hlist)

end

end Template

end Stencil
