/-
  Stencil.Proofs.Template.RoundTrip
  ─────────────────────────────────
  TEMPLATES ARE READ BACK FROM THEIR PRINTED FORM.

  Printed clauses come back as the same clauses at other positions.  Nesting
  them is followed from the inside out: `Adds` says what the clauses of whole
  nodes do to an open list, `Completes` what the rest of a block does once
  the block has been opened.

    • `pieces_printed` — printed tokens are read as their clauses,
    • `completes_otherwise`, `completes_otherwiseIf` — the two ways to write
      a condition in the other part of a condition,
    • `adds_clausesOf` — so the clauses of a tree nest into the tree,
    • `parse_exact` — and reading accepts exactly the well-formed trees.
-/
import Mathlib.Data.List.Forall2
import Stencil.Proofs.Template.Printer

namespace Stencil.Template

open Schema (takeWhile_append_stop)
open Outcome

/-! ## §1. Trees without positions. -/

/-- The command at no position. -/
def Command.erase (cmd : Command) : Command :=
  ⟨0, cmd.args⟩

/-- The pipeline at no position. -/
def Pipeline.erase (pipe : Pipeline) : Pipeline :=
  ⟨0, pipe.declared, pipe.commands.map Command.erase⟩

/-- The clause at no position. -/
def Clause.erase : Clause → Clause
  | value pipe => .value pipe.erase
  | opening kind pipe => .opening kind pipe.erase
  | otherwiseIf pipe => .otherwiseIf pipe.erase
  | text content => .text content
  | otherwise => .otherwise
  | closing => .closing
  | jump kind => .jump kind
  | invoke name => .invoke name

mutual
/-- The node at no position. -/
def Node.erase : Node → Node
  | .text _ content => .text 0 content
  | .action _ pipe => .action 0 pipe.erase
  | .branch kind _ pipe _ body => .branch kind 0 pipe.erase 0 (eraseAll body)
  | .branchElse kind _ pipe _ body _ elseBody =>
      .branchElse kind 0 pipe.erase 0 (eraseAll body) 0 (eraseAll elseBody)
  | .group _ nodes => .group 0 (eraseAll nodes)
  | .jump kind _ => .jump kind 0
  | .invoke _ name => .invoke 0 name

/-- Nodes at no positions. -/
def eraseAll : List Node → List Node
  | [] => []
  | n :: nodes => n.erase :: eraseAll nodes
end

theorem eraseAll_append (more : List Node) : ∀ nodes : List Node,
    eraseAll (nodes ++ more) = eraseAll nodes ++ eraseAll more
  | [] => rfl
  | n :: nodes => by rw [List.cons_append, eraseAll, eraseAll, eraseAll_append more nodes]; rfl

/-! ## §2. Printing trees. -/

/-- Is the other part of a block one condition in a condition? -/
def isChain : BranchKind → List Node → Bool
  | .cond, [.branch .cond _ _ _ _] => true
  | .cond, [.branchElse .cond _ _ _ _ _ _] => true
  | _, _ => false

/-- The clauses of an other part, from those of its nodes.  A chained part is
opened together with its condition, and ends with it. -/
def elseClauses : Bool → List Clause → List Clause
  | true, .opening _ pipe :: rest => .otherwiseIf pipe :: rest
  | _, clauses => .otherwise :: (clauses ++ [.closing])

mutual
/-- The clauses of a node; `chain` says which other parts are chained, among
those that can be. -/
def Node.clauses (chain : List Node → Bool) : Node → List Clause
  | .text _ content => [.text content]
  | .action _ pipe => [.value pipe]
  | .branch kind _ pipe _ body => .opening kind pipe :: (clausesOf chain body ++ [.closing])
  | .branchElse kind _ pipe _ body _ elseBody =>
      .opening kind pipe :: (clausesOf chain body
        ++ elseClauses (isChain kind elseBody && chain elseBody) (clausesOf chain elseBody))
  | .group _ nodes => clausesOf chain nodes
  | .jump kind _ => [.jump kind]
  | .invoke _ name => [.invoke name]

/-- The clauses of nodes in order. -/
def clausesOf (chain : List Node → Bool) : List Node → List Clause
  | [] => []
  | n :: nodes => n.clauses chain ++ clausesOf chain nodes
end

/-- The text of a template. -/
def print (chain : List Node → Bool) (nodes : List Node) : String :=
  String.ofList (printFrom [] (clausesOf chain nodes))

theorem elseClauses_wellFormed {chained : Bool} {clauses : List Clause}
    (h : ∀ c ∈ clauses, c.WellFormed) : ∀ c ∈ elseClauses chained clauses, c.WellFormed := by
  unfold elseClauses
  split
  next =>
    obtain ⟨hfirst, hrest⟩ := List.forall_mem_cons.mp h
    exact List.forall_mem_cons.mpr ⟨hfirst, hrest⟩
  next =>
    rw [List.forall_mem_cons, List.forall_mem_append]
    exact ⟨trivial, h, by simp [Clause.WellFormed]⟩

mutual
/-- Well-formed nodes are printed with well-formed clauses. -/
theorem clauses_wellFormed (chain : List Node → Bool) : ∀ n : Node, n.WellFormed →
    ∀ c ∈ n.clauses chain, c.WellFormed
  | .text _ content, h => by
      cases h with
      | text h => exact List.forall_mem_singleton.mpr h
  | .action _ pipe, h => by
      cases h with
      | action h => exact List.forall_mem_singleton.mpr h
  | .branch kind _ pipe _ body, h => by
      cases h with
      | branch h hbody =>
        rw [Node.clauses, List.forall_mem_cons, List.forall_mem_append]
        exact ⟨h, clausesOf_wellFormed chain body hbody, by simp [Clause.WellFormed]⟩
  | .branchElse kind _ pipe _ body _ elseBody, h => by
      cases h with
      | branchElse h hbody helse =>
        rw [Node.clauses, List.forall_mem_cons, List.forall_mem_append]
        exact ⟨h, clausesOf_wellFormed chain body hbody,
          elseClauses_wellFormed (clausesOf_wellFormed chain elseBody helse)⟩
  | .group _ nodes, h => by cases h
  | .jump kind _, _ => by simp [Node.clauses, Clause.WellFormed]
  | .invoke _ name, _ => by simp [Node.clauses, Clause.WellFormed]

theorem clausesOf_wellFormed (chain : List Node → Bool) : ∀ nodes : List Node,
    (∀ n ∈ nodes, n.WellFormed) → ∀ c ∈ clausesOf chain nodes, c.WellFormed
  | [], _ => by simp [clausesOf]
  | n :: nodes, h => by
      obtain ⟨hn, hnodes⟩ := List.forall_mem_cons.mp h
      rw [clausesOf, List.forall_mem_append]
      exact ⟨clauses_wellFormed chain n hn, clausesOf_wellFormed chain nodes hnodes⟩
end

/-! ## §3. Pipelines are read back. -/

/-- Operands are collected. -/
theorem commandsFrom_args {s : Setting} {piped : Bool} {pos : Nat} {rest : List PlacedToken} :
    ∀ {args done : List Arg} {ts : List PlacedToken},
      ts.map PlacedToken.token = args.map Arg.token →
      commandsFrom s piped pos done (ts ++ rest) = commandsFrom s piped pos (done ++ args) rest
  | [], done, ts, h => by
      obtain rfl : ts = [] := by simpa using h
      simp
  | arg :: args, done, ts, h => by
      obtain ⟨t, ts, rfl, ht, hts⟩ := List.map_eq_cons_iff.mp h
      rw [List.cons_append, commandsFrom, ht, Arg.arg?_token]
      show commandsFrom s piped pos (done ++ [arg]) (ts ++ rest) = _
      rw [commandsFrom_args hts, List.append_assoc, List.singleton_append]

/-- Commands are read back from their tokens. -/
theorem commandsFrom_tokens {s : Setting} : ∀ {commands : List Command}, commands ≠ [] →
    (∀ cmd ∈ commands, cmd.WellFormed) → ∀ {ts : List PlacedToken},
    ts.map PlacedToken.token = commandTokens commands → ∀ (piped : Bool) (pos : Nat),
    ∃ commands', commandsFrom s piped pos [] ts = .ok commands'
      ∧ commands'.map Command.erase = commands.map Command.erase
  | [], hne, _, _, _, _, _ => absurd rfl hne
  | [cmd], _, hwf, ts, h, piped, pos => by
      have hargs := (hwf cmd (by simp)).nonempty
      refine ⟨[⟨pos, cmd.args⟩], ?_, rfl⟩
      have hread := @commandsFrom_args s piped pos [] cmd.args [] ts h
      rw [List.append_nil] at hread
      rw [hread, commandsFrom, if_pos (by simpa using hargs)]
      rfl
  | cmd :: c :: rest, _, hwf, ts, h, piped, pos => by
      obtain ⟨hcmd, hrest⟩ := List.forall_mem_cons.mp hwf
      rw [commandTokens_cons_cons] at h
      obtain ⟨pre, more, rfl, hpre, hmore⟩ := List.map_eq_append_iff.mp h
      obtain ⟨bar, post, rfl, hbar, hpost⟩ := List.map_eq_cons_iff.mp hmore
      obtain ⟨commands', hread, herase⟩ := @commandsFrom_tokens s (c :: rest) (by simp) hrest post
        hpost true (nextPos s.stop post)
      refine ⟨⟨pos, cmd.args⟩ :: commands', ?_, ?_⟩
      · rw [commandsFrom_args hpre, List.nil_append, commandsFrom, hbar]
        simp only [Token.arg?, List.isEmpty_iff, hcmd.nonempty, if_false, hread]
        rfl
      · rw [List.map_cons, herase]
        rfl

/-- Between commands there are bars, and all else is operands. -/
theorem mem_commandTokens : ∀ {commands : List Command} {t : Token}, t ∈ commandTokens commands →
    (∃ arg : Arg, t = arg.token) ∨ t = .pipe
  | [], t, h => by simp [commandTokens] at h
  | [cmd], t, h => by
      obtain ⟨arg, -, rfl⟩ := List.mem_map.mp h
      exact .inl ⟨arg, rfl⟩
  | cmd :: c :: rest, t, h => by
      rw [commandTokens_cons_cons, List.mem_append, List.mem_cons] at h
      rcases h with h | rfl | h
      · obtain ⟨arg, -, rfl⟩ := List.mem_map.mp h
        exact .inl ⟨arg, rfl⟩
      · exact .inr rfl
      · exact mem_commandTokens h

/-- Commands declare no variable. -/
theorem declaration_of_commandTokens {commands : List Command} {ts : List PlacedToken}
    (h : ts.map PlacedToken.token = commandTokens commands) : declaration ts = (none, ts) := by
  have hmem : ∀ t ∈ ts, t.token ≠ .declare ∧ t.token ≠ .assign := by
    intro t ht
    have htoken : t.token ∈ commandTokens commands := h ▸ List.mem_map_of_mem ht
    rcases mem_commandTokens htoken with ⟨arg, harg⟩ | hpipe
    · rw [harg]
      cases arg <;> simp [Arg.token]
    · rw [hpipe]
      simp
  unfold declaration
  split
  next p name q rest => exact absurd rfl (hmem ⟨q, .declare⟩ (by simp)).1
  next p name q rest => exact absurd rfl (hmem ⟨q, .assign⟩ (by simp)).2
  next => rfl

/-- **A pipeline is read back from its tokens.** -/
theorem pipeline_tokens {pipe : Pipeline} (hwf : pipe.WellFormed) {ts : List PlacedToken}
    (h : ts.map PlacedToken.token = pipe.tokens) (s : Setting) :
    ∃ pipe', pipeline s ts = .ok pipe' ∧ pipe'.erase = pipe.erase := by
  -- whatever is declared, the commands are read from what follows
  have hread : ∀ {declared : Option String} {rest : List PlacedToken},
      declaration ts = (declared, rest) → rest.map PlacedToken.token = commandTokens pipe.commands →
      declared = pipe.declared → ∃ pipe', pipeline s ts = .ok pipe' ∧ pipe'.erase = pipe.erase := by
    intro declared rest hdeclaration hrest hdeclared
    obtain ⟨commands', hcommands, herase⟩ := commandsFrom_tokens hwf.nonempty hwf.commands hrest
      false (nextPos s.stop rest)
    refine ⟨⟨nextPos s.stop ts, declared, commands'⟩, ?_, ?_⟩
    · unfold pipeline
      rw [hdeclaration]
      dsimp only
      rw [hcommands]
      rfl
    · simp only [Pipeline.erase, herase, hdeclared]
  unfold Pipeline.tokens at h
  split at h
  next name hdeclared =>
    obtain ⟨⟨p, t⟩, more, rfl, ht, hmore⟩ := List.map_eq_cons_iff.mp h
    obtain ⟨⟨q, u⟩, rest, rfl, hu, hrest⟩ := List.map_eq_cons_iff.mp hmore
    obtain rfl : t = .var name := ht
    obtain rfl : u = .declare := hu
    exact hread rfl hrest hdeclared.symm
  next hdeclared => exact hread (declaration_of_commandTokens h) h hdeclared.symm

/-! ## §4. Clauses are read back. -/

/-- The piece is read as the clause, up to positions. -/
def Reads (piece : Piece) (clause : Clause) : Prop :=
  ∃ clause', piece.clause = .ok clause' ∧ clause'.erase = clause.erase

/-- No keyword starts a pipeline. -/
theorem head_pipeline_tokens {pipe : Pipeline} {k : Keyword} {rest : List Token} :
    pipe.tokens ≠ .keyword k :: rest := by
  intro heq
  unfold Pipeline.tokens at heq
  split at heq
  next => simp at heq
  next =>
    have hmem : Token.keyword k ∈ commandTokens pipe.commands := by simp [heq]
    rcases mem_commandTokens hmem with ⟨arg, harg⟩ | hpipe
    · cases arg <;> simp [Arg.token] at harg
    · simp at hpipe

/-- **An action is read back from its tokens.** -/
theorem actionClause_tokens {clause : Clause} (hwf : clause.WellFormed)
    (haction : ∀ content, clause ≠ .text content) {inner : List PlacedToken}
    (h : inner.map PlacedToken.token = clause.inner) (start stop : Nat) :
    ∃ clause', actionClause start inner stop = .ok clause' ∧ clause'.erase = clause.erase := by
  -- a keyword decides what the rest is read as
  have hkeyword : ∀ {k : Keyword} {ts : List Token}, clause.inner = .keyword k :: ts →
      ∃ rest : List PlacedToken, rest.map PlacedToken.token = ts
        ∧ actionClause start inner stop = keywordClause k start stop rest := by
    intro k ts hk
    rw [hk] at h
    obtain ⟨⟨p, t⟩, rest, rfl, ht, hrest⟩ := List.map_eq_cons_iff.mp h
    obtain rfl : t = .keyword k := ht
    exact ⟨rest, hrest, rfl⟩
  cases clause with
  | text content => exact absurd rfl (haction content)
  | value pipe =>
    obtain ⟨pipe', hpipe, herase⟩ := pipeline_tokens hwf h ⟨.command, start, stop⟩
    refine ⟨.value pipe', ?_, by simp [Clause.erase, herase]⟩
    unfold actionClause
    split
    next p k rest =>
      have hhead : pipe.tokens = .keyword k :: rest.map PlacedToken.token := h.symm
      exact absurd hhead head_pipeline_tokens
    next =>
      rw [hpipe]
      rfl
  | opening kind pipe =>
    obtain ⟨rest, hrest, heq⟩ := hkeyword rfl
    obtain ⟨pipe', hpipe, herase⟩ := pipeline_tokens hwf hrest ⟨.branch kind, start, stop⟩
    refine ⟨.opening kind pipe', ?_, by simp [Clause.erase, herase]⟩
    have hblock : keywordClause kind.word start stop rest
        = keywordClause.block start stop rest kind := by
      cases kind <;> rfl
    rw [heq, hblock, keywordClause.block, hpipe]
    rfl
  | otherwise =>
    obtain ⟨rest, hrest, heq⟩ := hkeyword rfl
    obtain rfl : rest = [] := by simpa using hrest
    exact ⟨.otherwise, heq, rfl⟩
  | otherwiseIf pipe =>
    obtain ⟨rest, hrest, heq⟩ := hkeyword rfl
    obtain ⟨⟨p, t⟩, more, rfl, ht, hmore⟩ := List.map_eq_cons_iff.mp hrest
    obtain rfl : t = .keyword .ifWord := ht
    obtain ⟨pipe', hpipe, herase⟩ := pipeline_tokens hwf hmore ⟨.otherwiseIf, start, stop⟩
    refine ⟨.otherwiseIf pipe', ?_, by simp [Clause.erase, herase]⟩
    rw [heq, keywordClause, otherwiseClause, hpipe]
    rfl
  | closing =>
    obtain ⟨rest, hrest, heq⟩ := hkeyword rfl
    obtain rfl : rest = [] := by simpa using hrest
    exact ⟨.closing, heq, rfl⟩
  | jump kind =>
    obtain ⟨rest, hrest, heq⟩ := hkeyword rfl
    obtain rfl : rest = [] := by simpa using hrest
    refine ⟨.jump kind, ?_, rfl⟩
    rw [heq]
    cases kind <;> rfl
  | invoke name =>
    obtain ⟨rest, hrest, heq⟩ := hkeyword rfl
    obtain ⟨⟨p, t⟩, more, rfl, ht, hmore⟩ := List.map_eq_cons_iff.mp hrest
    obtain rfl : t = .str name := ht
    obtain rfl : more = [] := by simpa using hmore
    exact ⟨.invoke name, heq, rfl⟩

/-- **Printed clauses are read back,** piece by piece. -/
theorem pieces_printed : ∀ {clauses : List Clause}, (∀ c ∈ clauses, c.WellFormed) →
    ∀ {ts : List PlacedToken},
    ts.map PlacedToken.token = clauses.flatMap Clause.tokens ++ [.eof] →
    ∃ list finish, pieces ts = .ok (list, finish) ∧ List.Forall₂ Reads list clauses
  | [], _, ts, h => by
      obtain ⟨⟨p, t⟩, rest, rfl, ht, -⟩ := List.map_eq_cons_iff.mp h
      obtain rfl : t = .eof := ht
      exact ⟨[], p, by rw [pieces], .nil⟩
  | clause :: clauses, hwf, ts, h => by
      obtain ⟨hclause, hclauses⟩ := List.forall_mem_cons.mp hwf
      rw [List.flatMap_cons, List.append_assoc] at h
      by_cases htext : ∃ content, clause = .text content
      · obtain ⟨content, rfl⟩ := htext
        obtain ⟨⟨p, t⟩, rest, rfl, ht, hrest⟩ := List.map_eq_cons_iff.mp h
        obtain rfl : t = .text content := ht
        obtain ⟨list, finish, hlist, hreads⟩ := pieces_printed hclauses hrest
        refine ⟨.text p content :: list, finish, ?_, .cons ⟨.text content, rfl, rfl⟩ hreads⟩
        rw [pieces, hlist]
        rfl
      · have haction : ∀ content, clause ≠ .text content := fun content heq => htext ⟨content, heq⟩
        rw [tokens_of_ne_text haction, List.cons_append, List.append_assoc,
          List.singleton_append] at h
        obtain ⟨⟨p, t⟩, more, rfl, ht, hmore⟩ := List.map_eq_cons_iff.mp h
        obtain rfl : t = .leftDelim := ht
        obtain ⟨inner, post, rfl, hinner, hpost⟩ := List.map_eq_append_iff.mp hmore
        obtain ⟨⟨q, u⟩, rest, rfl, hu, hrest⟩ := List.map_eq_cons_iff.mp hpost
        obtain rfl : u = .rightDelim := hu
        obtain ⟨list, finish, hlist, hreads⟩ := pieces_printed hclauses hrest
        obtain ⟨clause', hread, herase⟩ := actionClause_tokens hclause haction hinner p q
        refine ⟨.action p inner q :: list, finish, ?_, .cons ⟨clause', hread, herase⟩ hreads⟩
        -- no token of the action closes it, so it is cut where it was closed
        have htake : (inner ++ ⟨q, .rightDelim⟩ :: rest).takeWhile (!·.isRightDelim) = inner := by
          refine takeWhile_append_stop (fun t ht => ?_) (by simp [PlacedToken.isRightDelim])
          have hprintable := (hclause.printable haction).2 t.token (hinner ▸ List.mem_map_of_mem ht)
          simpa [PlacedToken.isRightDelim] using hprintable.ne_rightDelim
        have hdrop : (inner ++ ⟨q, .rightDelim⟩ :: rest).drop (inner.length + 1) = rest := by
          rw [← List.drop_drop, List.drop_left]
          rfl
        rw [pieces.eq_def]
        dsimp only
        rw [htake, List.drop_left, hdrop, hlist]
        rfl

/-! ## §5. Clauses nest into the tree. -/

theorem forall₂_append_right {α β : Type} {R : α → β → Prop} {ys more : List β} :
    ∀ {xs : List α}, List.Forall₂ R xs (ys ++ more) →
      ∃ as bs, xs = as ++ bs ∧ List.Forall₂ R as ys ∧ List.Forall₂ R bs more := by
  induction ys with
  | nil => exact fun h => ⟨[], _, rfl, .nil, h⟩
  | cons y ys ih =>
    intro xs h
    cases h with
    | cons hxy h =>
      obtain ⟨as, bs, rfl, has, hbs⟩ := ih h
      exact ⟨_ :: as, bs, rfl, .cons hxy has, hbs⟩

/-- A list that no end closes but its own. -/
def OpenList.Plain (l : OpenList) : Prop :=
  ∀ kind pos pipe bodyPos body, l.holder ≠ .other kind pos pipe bodyPos body true

/-- Add nodes in order. -/
def OpenList.addAll (l : OpenList) (nodes : List Node) : OpenList :=
  { l with newest := nodes.reverse ++ l.newest }

theorem OpenList.Plain.addAll {l : OpenList} (h : l.Plain) (nodes : List Node) :
    (l.addAll nodes).Plain := h

theorem closeBlock_of_plain {l : OpenList} (h : l.Plain) (node : Node) (below : List OpenList) :
    closeBlock node (l :: below) = some (l.addAll [node], below) := by
  rw [closeBlock]
  split
  next hholder => exact absurd hholder (h _ _ _ _ _)
  next => rfl

/-- One piece is taken in. -/
theorem nestPieces_cons {finish : Nat} {piece : Piece} {rest : List Piece} {clause : Clause}
    {nest nest' : Nest} (hread : piece.clause = .ok clause)
    (hnest : nestClause piece.pos (nextPiecePos finish rest) clause nest = .ok nest') :
    nestPieces finish (piece :: rest) nest = nestPieces finish rest nest' := by
  rw [nestPieces, hread, ok_bind, hnest, ok_bind]

/-- Pieces read as the clauses add the nodes, up to positions, to whatever
list is open. -/
def Adds (clauses : List Clause) (nodes : List Node) : Prop :=
  ∀ ps : List Piece, List.Forall₂ Reads ps clauses →
    ∀ (finish : Nat) (rest : List Piece) (below : List OpenList) (l : OpenList), l.Plain →
    ∃ nodes', eraseAll nodes' = eraseAll nodes
      ∧ nestPieces finish (ps ++ rest) (l, below) = nestPieces finish rest (l.addAll nodes', below)

/-- Pieces read as the clauses complete the block of the node, up to positions,
once it has been opened. -/
def Completes (kind : BranchKind) (pipe : Pipeline) (clauses : List Clause) (node : Node) : Prop :=
  ∀ ps : List Piece, List.Forall₂ Reads ps clauses →
    ∀ (finish : Nat) (rest : List Piece) (below : List OpenList) (pos next : Nat)
      (pipe' : Pipeline), pipe'.erase = pipe.erase →
    ∃ node', node'.erase = node.erase ∧ ∀ nest, closeBlock node' below = some nest →
      nestPieces finish (ps ++ rest) (⟨.body kind pos pipe', next, []⟩, below)
        = nestPieces finish rest nest

theorem adds_nil : Adds [] [] := by
  intro ps hps finish rest below l _
  cases hps
  exact ⟨[], rfl, rfl⟩

theorem Adds.append {clauses more : List Clause} {nodes others : List Node}
    (h : Adds clauses nodes) (hmore : Adds more others) :
    Adds (clauses ++ more) (nodes ++ others) := by
  intro ps hps finish rest below l hl
  obtain ⟨as, bs, rfl, has, hbs⟩ := forall₂_append_right hps
  obtain ⟨nodes', herase, hnest⟩ := h as has finish (bs ++ rest) below l hl
  obtain ⟨others', herase', hnest'⟩ := hmore bs hbs finish rest below _ (hl.addAll nodes')
  refine ⟨nodes' ++ others', ?_, ?_⟩
  · rw [eraseAll_append, eraseAll_append, herase, herase']
  · rw [List.append_assoc, hnest, hnest']
    simp [OpenList.addAll]

/-- A clause that is a node of its own. -/
theorem adds_leaf {clause : Clause} {node : Node}
    (h : ∀ clause', clause'.erase = clause.erase → ∀ pos, ∃ node', node'.erase = node.erase
      ∧ ∀ next nest, nestClause pos next clause' nest = .ok (nest.1.add node', nest.2)) :
    Adds [clause] [node] := by
  intro ps hps finish rest below l _
  obtain ⟨piece, rfl⟩ := List.length_eq_one_iff.mp (by simpa using hps.length_eq)
  obtain ⟨clause', hread, herase⟩ := (List.forall₂_cons.mp hps).1
  obtain ⟨node', hnode, hnest⟩ := h clause' herase piece.pos
  refine ⟨[node'], by simp [eraseAll, hnode], ?_⟩
  exact nestPieces_cons hread (hnest _ _)

/-- A block is one node, however it is completed. -/
theorem Completes.adds {kind : BranchKind} {pipe : Pipeline} {clauses : List Clause} {node : Node}
    (h : Completes kind pipe clauses node) : Adds (.opening kind pipe :: clauses) [node] := by
  intro ps hps finish rest below l hl
  cases hps with
  | @cons piece _ ps _ hreads hps =>
    obtain ⟨clause', hread, herase⟩ := hreads
    obtain ⟨pipe', rfl, hpipe⟩ :
        ∃ pipe', clause' = .opening kind pipe' ∧ pipe'.erase = pipe.erase := by
      cases clause' <;> simp_all [Clause.erase]
    obtain ⟨node', hnode, hcloses⟩ := h ps hps finish rest (l :: below) piece.pos
      (nextPiecePos finish (ps ++ rest)) pipe' hpipe
    refine ⟨[node'], by simp [eraseAll, hnode], ?_⟩
    rw [List.cons_append, nestPieces_cons hread rfl]
    exact hcloses _ (closeBlock_of_plain hl node' below)

/-- What an end does to the first part of a block. -/
theorem nestClosing_body {kind : BranchKind} {pipe : Pipeline} {at_ pos bodyPos : Nat}
    {newest : List Node} {below : List OpenList} {nest : Nest}
    (h : closeBlock (.branch kind at_ pipe bodyPos newest.reverse) below = some nest) :
    nestClosing pos (⟨.body kind at_ pipe, bodyPos, newest⟩, below) = .ok nest := by
  simp only [nestClosing, OpenList.nodes, Option.bind_some, h]

/-- What an end does to the other part of a block. -/
theorem nestClosing_other {kind : BranchKind} {pipe : Pipeline} {at_ pos bodyPos elsePos : Nat}
    {body newest : List Node} {shared : Bool} {below : List OpenList} {nest : Nest}
    (h : closeBlock (.branchElse kind at_ pipe bodyPos body elsePos newest.reverse) below
      = some nest) :
    nestClosing pos (⟨.other kind at_ pipe bodyPos body shared, elsePos, newest⟩, below)
      = .ok nest := by
  simp only [nestClosing, OpenList.nodes, Option.bind_some, h]

theorem Reads.closing {piece : Piece} (h : Reads piece .closing) : piece.clause = .ok .closing := by
  obtain ⟨clause', hread, herase⟩ := h
  cases clause' <;> simp_all [Clause.erase]

theorem Reads.otherwise {piece : Piece} (h : Reads piece .otherwise) :
    piece.clause = .ok .otherwise := by
  obtain ⟨clause', hread, herase⟩ := h
  cases clause' <;> simp_all [Clause.erase]

theorem Reads.otherwiseIf {piece : Piece} {pipe : Pipeline} (h : Reads piece (.otherwiseIf pipe)) :
    ∃ pipe', piece.clause = .ok (.otherwiseIf pipe') ∧ pipe'.erase = pipe.erase := by
  obtain ⟨clause', hread, herase⟩ := h
  cases clause' <;> simp_all [Clause.erase]

/-- A block without another part. -/
theorem completes_closing {kind : BranchKind} {pos bodyPos : Nat} {pipe : Pipeline}
    {body : List Node} {clauses : List Clause} (h : Adds clauses body) :
    Completes kind pipe (clauses ++ [.closing]) (.branch kind pos pipe bodyPos body) := by
  intro ps hps finish rest below at_ next pipe' hpipe
  obtain ⟨as, bs, rfl, has, hbs⟩ := forall₂_append_right hps
  obtain ⟨close, rfl⟩ := List.length_eq_one_iff.mp (by simpa using hbs.length_eq)
  have hclose := ((List.forall₂_cons.mp hbs).1).closing
  obtain ⟨body', hbody, hnest⟩ := h as has finish ([close] ++ rest) below
    ⟨.body kind at_ pipe', next, []⟩ (by simp [OpenList.Plain])
  refine ⟨.branch kind at_ pipe' next body', by simp [Node.erase, hbody, hpipe],
    fun nest hcloses => ?_⟩
  rw [List.append_assoc, hnest]
  exact nestPieces_cons hclose (nestClosing_body (by simpa [OpenList.addAll] using hcloses))

/-- A block with another part. -/
theorem completes_otherwise {kind : BranchKind} {pos bodyPos elsePos : Nat} {pipe : Pipeline}
    {body elseBody : List Node} {clauses others : List Clause} (h : Adds clauses body)
    (helse : Adds others elseBody) :
    Completes kind pipe (clauses ++ .otherwise :: (others ++ [.closing]))
      (.branchElse kind pos pipe bodyPos body elsePos elseBody) := by
  intro ps hps finish rest below at_ next pipe' hpipe
  obtain ⟨as, bs, rfl, has, hbs⟩ := forall₂_append_right hps
  cases hbs with
  | @cons turn _ bs _ hturn hbs =>
    obtain ⟨cs, ds, rfl, hcs, hds⟩ := forall₂_append_right hbs
    obtain ⟨close, rfl⟩ := List.length_eq_one_iff.mp (by simpa using hds.length_eq)
    have hclose := ((List.forall₂_cons.mp hds).1).closing
    obtain ⟨body', hbody, hnest⟩ := h as has finish (turn :: (cs ++ [close]) ++ rest) below
      ⟨.body kind at_ pipe', next, []⟩ (by simp [OpenList.Plain])
    -- the other part starts a list of its own for the same block
    obtain ⟨else', helse', hnest'⟩ := helse cs hcs finish ([close] ++ rest) below
      ⟨.other kind at_ pipe' next body' false, nextPiecePos finish (cs ++ ([close] ++ rest)), []⟩
      (by simp [OpenList.Plain])
    refine ⟨.branchElse kind at_ pipe' next body'
        (nextPiecePos finish (cs ++ ([close] ++ rest))) else',
      by simp [Node.erase, hbody, helse', hpipe], fun nest hcloses => ?_⟩
    have hsecond : nestClause turn.pos (nextPiecePos finish (cs ++ ([close] ++ rest))) .otherwise
        (OpenList.addAll ⟨.body kind at_ pipe', next, []⟩ body', below)
        = .ok (⟨.other kind at_ pipe' next body' false,
            nextPiecePos finish (cs ++ ([close] ++ rest)), []⟩, below) := by
      simp [nestClause, nestOtherwise, OpenList.addAll, OpenList.nodes]
    rw [List.append_assoc, hnest, List.cons_append, List.append_assoc,
      nestPieces_cons hturn.otherwise hsecond, hnest']
    exact nestPieces_cons hclose (nestClosing_other (by simpa [OpenList.addAll] using hcloses))

/-- A condition in the other part of a condition, opened and closed with it. -/
theorem completes_otherwiseIf {pos bodyPos elsePos : Nat} {pipe inner : Pipeline}
    {body : List Node} {node : Node} {clauses others : List Clause} (h : Adds clauses body)
    (hnode : Completes .cond inner others node) :
    Completes .cond pipe (clauses ++ .otherwiseIf inner :: others)
      (.branchElse .cond pos pipe bodyPos body elsePos [node]) := by
  intro ps hps finish rest below at_ next pipe' hpipe
  obtain ⟨as, bs, rfl, has, hbs⟩ := forall₂_append_right hps
  cases hbs with
  | @cons turn _ bs _ hturn hbs =>
    obtain ⟨inner', hread, hinner⟩ := hturn.otherwiseIf
    obtain ⟨body', hbody, hnest⟩ := h as has finish (turn :: bs ++ rest) below
      ⟨.body .cond at_ pipe', next, []⟩ (by simp [OpenList.Plain])
    -- the inner block lies on a shared list, which its end closes too
    obtain ⟨node', hnode', hcloses⟩ := hnode bs hbs finish rest
      (⟨.other .cond at_ pipe' next body' true, turn.pos, []⟩ :: below) turn.pos
      (nextPiecePos finish (bs ++ rest)) inner' hinner
    refine ⟨.branchElse .cond at_ pipe' next body' turn.pos [node'],
      by simp [Node.erase, eraseAll, hbody, hnode', hpipe], fun nest hclose => ?_⟩
    have hsecond : nestClause turn.pos (nextPiecePos finish (bs ++ rest)) (.otherwiseIf inner')
        (OpenList.addAll ⟨.body .cond at_ pipe', next, []⟩ body', below)
        = .ok (⟨.body .cond turn.pos inner', nextPiecePos finish (bs ++ rest), []⟩,
            ⟨.other .cond at_ pipe' next body' true, turn.pos, []⟩ :: below) := by
      simp [nestClause, nestOtherwiseIf, OpenList.addAll, OpenList.nodes]
    rw [List.append_assoc, hnest, List.cons_append, nestPieces_cons hread hsecond]
    exact hcloses nest (by rw [closeBlock]; exact hclose)

/-- The clauses of a node add it, if the blocks among the nodes complete. -/
theorem adds_clauses {chain : List Node → Bool} {n : Node} (hwf : n.WellFormed)
    (hblock : ∀ {kind pipe after}, n.clauses chain = .opening kind pipe :: after →
      Completes kind pipe after n) : Adds (n.clauses chain) [n] := by
  cases hwf with
  | @text pos content _ =>
    refine adds_leaf fun clause' herase p => ⟨.text p content, rfl, fun next nest => ?_⟩
    obtain rfl : clause' = .text content := by cases clause' <;> simp_all [Clause.erase]
    rfl
  | @action pos pipe _ =>
    refine adds_leaf fun clause' herase p => ?_
    obtain ⟨pipe', rfl, hpipe⟩ : ∃ pipe', clause' = .value pipe' ∧ pipe'.erase = pipe.erase := by
      cases clause' <;> simp_all [Clause.erase]
    exact ⟨.action p pipe', by simp [Node.erase, hpipe], fun _ _ => rfl⟩
  | @jump kind pos =>
    refine adds_leaf fun clause' herase p => ⟨.jump kind p, rfl, fun next nest => ?_⟩
    obtain rfl : clause' = .jump kind := by cases clause' <;> simp_all [Clause.erase]
    rfl
  | @invoke pos name =>
    refine adds_leaf fun clause' herase p => ⟨.invoke p name, rfl, fun next nest => ?_⟩
    obtain rfl : clause' = .invoke name := by cases clause' <;> simp_all [Clause.erase]
    rfl
  | branch =>
    rw [Node.clauses]
    exact (hblock (by rw [Node.clauses])).adds
  | branchElse =>
    rw [Node.clauses]
    exact (hblock (by rw [Node.clauses])).adds

/-- What can be chained is a condition, and starts with its opening. -/
theorem isChain_cases {chain : List Node → Bool} {kind : BranchKind} {nodes : List Node}
    (h : isChain kind nodes = true) :
    kind = .cond ∧ ∃ node pipe after, nodes = [node]
      ∧ node.clauses chain = .opening .cond pipe :: after := by
  unfold isChain at h
  split at h
  next => exact ⟨rfl, _, _, _, rfl, by rw [Node.clauses]⟩
  next => exact ⟨rfl, _, _, _, rfl, by rw [Node.clauses]⟩
  next => simp at h

mutual
/-- **The clauses after an opening complete the block of its node.** -/
theorem completes_clauses (chain : List Node → Bool) : ∀ n : Node, n.WellFormed →
    ∀ {kind : BranchKind} {pipe : Pipeline} {after : List Clause},
    n.clauses chain = .opening kind pipe :: after → Completes kind pipe after n
  | .text _ _, _, _, _, _, h => by simp [Node.clauses] at h
  | .action _ _, _, _, _, _, h => by simp [Node.clauses] at h
  | .jump _ _, _, _, _, _, h => by simp [Node.clauses] at h
  | .invoke _ _, _, _, _, _, h => by simp [Node.clauses] at h
  | .group _ _, hwf, _, _, _, _ => by cases hwf
  | .branch kind' pos pipe' bodyPos body, hwf, kind, pipe, after, h => by
      rw [Node.clauses] at h
      obtain ⟨hhead, rfl⟩ := List.cons.inj h
      obtain ⟨rfl, rfl⟩ := Clause.opening.inj hhead
      cases hwf with
      | branch _ hbody => exact completes_closing (adds_clausesOf chain body hbody)
  | .branchElse kind' pos pipe' bodyPos body elsePos elseBody, hwf, kind, pipe, after, h => by
      rw [Node.clauses] at h
      obtain ⟨hhead, rfl⟩ := List.cons.inj h
      obtain ⟨rfl, rfl⟩ := Clause.opening.inj hhead
      cases hwf with
      | branchElse _ hbody helse =>
        have hfirst := adds_clausesOf chain body hbody
        cases hchain : isChain kind' elseBody && chain elseBody with
        | false => exact completes_otherwise hfirst (adds_clausesOf chain elseBody helse)
        | true =>
          obtain ⟨rfl, node, inner, after, rfl, hclauses⟩ :=
            @isChain_cases chain _ _ (Bool.and_eq_true_iff.mp hchain).1
          have hnode := completes_clauses chain node (helse node (by simp)) hclauses
          rw [clausesOf, clausesOf, hclauses, List.append_nil]
          exact completes_otherwiseIf hfirst hnode
termination_by n => sizeOf n
decreasing_by all_goals subst_vars; simp +arith; try omega

/-- **The clauses of nodes add the nodes.** -/
theorem adds_clausesOf (chain : List Node → Bool) : ∀ nodes : List Node,
    (∀ n ∈ nodes, n.WellFormed) → Adds (clausesOf chain nodes) nodes
  | [], _ => adds_nil
  | n :: nodes, hwf => by
      obtain ⟨hn, hnodes⟩ := List.forall_mem_cons.mp hwf
      have hnode := adds_clauses hn fun h => completes_clauses chain n hn h
      exact hnode.append (adds_clausesOf chain nodes hnodes)
termination_by nodes => sizeOf nodes
end

/-! ## §6. Exactly the well-formed trees are read. -/

/-- **A well-formed tree is read back from its text,** up to positions, and
whichever of its other parts are chained. -/
theorem parse_print (chain : List Node → Bool) {nodes : List Node}
    (h : ∀ n ∈ nodes, n.WellFormed) :
    ∃ block, parse (print chain nodes) = .ok block ∧ eraseAll block.nodes = eraseAll nodes := by
  have hclauses := clausesOf_wellFormed chain nodes h
  obtain ⟨ts, hts, htokens⟩ := @tokensFrom_printFrom _ hclauses [] (by simp) 0
  obtain ⟨list, finish, hlist, hreads⟩ :=
    pieces_printed hclauses (by simpa [textToken] using htokens)
  obtain ⟨nodes', herase, hnest⟩ := adds_clausesOf chain nodes h list hreads finish [] []
    ⟨.root, nextPiecePos finish list, []⟩ (by simp [OpenList.Plain])
  rw [List.append_nil] at hnest
  refine ⟨⟨nextPiecePos finish list, nodes'⟩, ?_, herase⟩
  unfold parse tokens print
  rw [String.toList_ofList, hts, ok_bind]
  unfold Block.ofTokens
  rw [hlist, ok_bind]
  dsimp only
  rw [hnest]
  simp [nestPieces, OpenList.addAll, OpenList.nodes]

/-- **Reading accepts exactly the printable trees.**  Every tree read is well
formed; every well-formed tree is read back from its printed text, up to
positions; and how its chains are written makes no difference. -/
theorem parse_exact :
    (∀ (source : String) (block : Block), parse source = .ok block →
        ∀ n ∈ block.nodes, n.WellFormed)
      ∧ (∀ nodes : List Node, (∀ n ∈ nodes, n.WellFormed) → ∀ chain : List Node → Bool,
        ∃ block, parse (print chain nodes) = .ok block ∧ eraseAll block.nodes = eraseAll nodes)
      ∧ ∀ nodes : List Node, (∀ n ∈ nodes, n.WellFormed) →
        ∃ chained spelled, parse (print (fun _ => true) nodes) = .ok chained
          ∧ parse (print (fun _ => false) nodes) = .ok spelled
          ∧ eraseAll chained.nodes = eraseAll spelled.nodes := by
  refine ⟨fun source block h => parse_wellFormed h, fun nodes h chain => parse_print chain h,
    fun nodes h => ?_⟩
  obtain ⟨chained, hchained, heq⟩ := parse_print (fun _ => true) h
  obtain ⟨spelled, hspelled, heq'⟩ := parse_print (fun _ => false) h
  exact ⟨chained, spelled, hchained, hspelled, heq.trans heq'.symm⟩

/-- A tree with all that is hard to print: a text that ends in a brace before
another text, a string of escapes, and a condition in an other part. -/
def knottyTree : List Node :=
  [.text 0 "a\x7b", .text 0 "b",
    .branchElse .cond 0 ⟨0, none, [⟨0, [.field ["x", "if"]]⟩]⟩ 0
      [.action 0 ⟨0, some "", [⟨0, [.str "\"\\\n", .number "-1"]⟩, ⟨0, [.function "f"]⟩]⟩] 0
      [.branch .cond 0 ⟨0, none, [⟨0, [.dot]⟩]⟩ 0 [.jump .leave 0]]]

theorem knottyTree_wellFormed : ∀ n ∈ knottyTree, n.WellFormed := by
  have hfield : Arg.WellFormed (.field ["x", "if"]) := ⟨by simp, by simp; decide⟩
  have hnumber : Arg.WellFormed (.number "-1") :=
    ⟨['-'], '1', [], rfl, .inr (.inr rfl), rfl, by simp⟩
  have hfunction : Arg.WellFormed (.function "f") := ⟨by decide, by decide⟩
  have hone : ∀ {arg : Arg}, arg.WellFormed → Command.WellFormed ⟨0, [arg]⟩ :=
    fun h => ⟨by simp, by simpa using h⟩
  have hplain : ∀ {arg : Arg}, arg.WellFormed → Pipeline.WellFormed ⟨0, none, [⟨0, [arg]⟩]⟩ :=
    fun h => ⟨by simp, by simp, by simpa using hone h⟩
  have hdeclares : Pipeline.WellFormed
      ⟨0, some "", [⟨0, [.str "\"\\\n", .number "-1"]⟩, ⟨0, [.function "f"]⟩]⟩ := by
    refine ⟨by simp [IsVariable], by simp, ?_⟩
    simp only [List.forall_mem_cons, List.not_mem_nil, false_imp_iff, implies_true, and_true]
    exact ⟨⟨by simp, by simpa [Arg.WellFormed] using hnumber⟩, hone hfunction⟩
  simp only [knottyTree, List.forall_mem_cons, List.not_mem_nil, false_imp_iff, implies_true,
    and_true]
  refine ⟨.text ⟨by simp, by decide⟩, .text ⟨by simp, by decide⟩, .branchElse (hplain hfield) ?_ ?_⟩
  · simpa using Node.WellFormed.action hdeclares
  · simpa using Node.WellFormed.branch (@hplain .dot trivial) (by simpa using Node.WellFormed.jump)

theorem parse_exact_knotty :
    (∀ n ∈ knottyTree, n.WellFormed)
      ∧ print (fun _ => true) knottyTree
        = "a\x7b \x7b\x7b- /**/\x7d\x7db\x7b\x7bif .x.if\x7d\x7d\x7b\x7b$ := \"\\\"\\\\\\n\" -1 | f\x7d\x7d\x7b\x7belse if .\x7d\x7d\x7b\x7bbreak\x7d\x7d\x7b\x7bend\x7d\x7d"
      ∧ print (fun _ => false) knottyTree
        = "a\x7b \x7b\x7b- /**/\x7d\x7db\x7b\x7bif .x.if\x7d\x7d\x7b\x7b$ := \"\\\"\\\\\\n\" -1 | f\x7d\x7d\x7b\x7belse\x7d\x7d\x7b\x7bif .\x7d\x7d\x7b\x7bbreak\x7d\x7d\x7b\x7bend\x7d\x7d\x7b\x7bend\x7d\x7d"
      ∧ (∃ block, parse (print (fun _ => true) knottyTree) = .ok block
        ∧ eraseAll block.nodes = eraseAll knottyTree)
      ∧ ∃ chained spelled, parse (print (fun _ => true) knottyTree) = .ok chained
        ∧ parse (print (fun _ => false) knottyTree) = .ok spelled
        ∧ eraseAll chained.nodes = eraseAll spelled.nodes :=
  ⟨knottyTree_wellFormed, by decide, by decide,
    parse_exact.2.1 knottyTree knottyTree_wellFormed fun _ => true,
    parse_exact.2.2 knottyTree knottyTree_wellFormed⟩

end Stencil.Template
