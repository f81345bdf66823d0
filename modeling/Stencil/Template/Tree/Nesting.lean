/-
  Stencil.Template.Tree.Nesting
  ─────────────────────────────
  Clauses into a tree.

  Nesting keeps the list that is being filled and, below it, the lists it
  will be part of.  An opening clause starts a new list; the other part of a
  block starts a second one for the same block; an end turns the list into a
  node of the list below.  The other part of a condition may bring a
  condition of its own: that is a block inside the other part, and one end
  closes both.
-/
import Stencil.Template.Clause
import Stencil.Template.Token.Lexer

namespace Stencil.Template

/-! ## §1. Open lists. -/

/-- What an open list will be part of. -/
inductive Holder where
  /-- The template itself. -/
  | root
  /-- The first part of a block. -/
  | body (kind : BranchKind) (pos : Nat) (pipe : Pipeline)
  /-- The other part of a block whose first part is complete.  A shared
  part has one node, and closes together with it. -/
  | other (kind : BranchKind) (pos : Nat) (pipe : Pipeline)
      (bodyPos : Nat) (body : List Node) (shared : Bool)

/-- A list that is being filled. -/
structure OpenList where
  /-- What it will be part of. -/
  holder : Holder
  /-- The offset it starts at. -/
  pos : Nat
  /-- Its nodes so far, the newest first. -/
  newest : List Node

namespace OpenList

/-- Add a node. -/
def add (l : OpenList) (node : Node) : OpenList :=
  { l with newest := node :: l.newest }

/-- Its nodes in order. -/
def nodes (l : OpenList) : List Node :=
  l.newest.reverse

end OpenList

/-- End a block: its node goes to the list below, and a shared other part
below ends with it. -/
def closeBlock (node : Node) : List OpenList → Option (OpenList × List OpenList)
  | [] => none
  | l :: below =>
      match l.holder with
      | .other kind pos pipe bodyPos body true =>
          closeBlock (.branchElse kind pos pipe bodyPos body l.pos (l.add node).nodes) below
      | _ => some (l.add node, below)

/-! ## §2. One clause. -/

/-- The state of nesting: the list being filled and those below. -/
abbrev Nest := OpenList × List OpenList

/-- The end of a block, at `pos`. -/
def nestClosing (pos : Nat) : Nest → Except Error Nest
  | (l, below) =>
      let node? : Option Node :=
        match l.holder with
        | .root => none
        | .body kind at_ pipe => some (.branch kind at_ pipe l.pos l.nodes)
        | .other kind at_ pipe bodyPos body _ =>
            some (.branchElse kind at_ pipe bodyPos body l.pos l.nodes)
      match node?.bind (closeBlock · below) with
      | some nest => .ok nest
      | none => .error (.malformed .strayEnd pos)

/-- The other part of a block, at `pos`; its list starts at `next`. -/
def nestOtherwise (pos next : Nat) : Nest → Except Error Nest
  | (l, below) =>
      match l.holder with
      | .root => .error (.malformed .strayElse pos)
      | .body kind at_ pipe =>
          .ok (⟨.other kind at_ pipe l.pos l.nodes false, next, []⟩, below)
      | .other .. => .error (.malformed .secondElse pos)

/-- The other part of a condition with a condition of its own, at `pos`; the
list of the inner block starts at `next`. -/
def nestOtherwiseIf (pos next : Nat) (pipe : Pipeline) : Nest → Except Error Nest
  | (l, below) =>
      match l.holder with
      | .root => .error (.malformed .strayElse pos)
      | .body .cond at_ outer =>
          .ok (⟨.body .cond pos pipe, next, []⟩,
            ⟨.other .cond at_ outer l.pos l.nodes true, pos, []⟩ :: below)
      | .body kind _ _ => .error (.malformed (.elseIfInside kind) pos)
      | .other .. => .error (.malformed .secondElse pos)

/-- Take in one clause that stands at `pos`, with the next token at `next`. -/
def nestClause (pos next : Nat) (clause : Clause) (nest : Nest) : Except Error Nest :=
  let leaf (node : Node) : Except Error Nest := .ok (nest.1.add node, nest.2)
  match clause with
  | .text content => leaf (.text pos content)
  | .value pipe => leaf (.action pos pipe)
  | .jump kind => leaf (.jump kind pos)
  | .invoke name => leaf (.invoke pos name)
  | .opening kind pipe => .ok (⟨.body kind pos pipe, next, []⟩, nest.1 :: nest.2)
  | .otherwise => nestOtherwise pos next nest
  | .otherwiseIf pipe => nestOtherwiseIf pos next pipe nest
  | .closing => nestClosing pos nest

/-! ## §3. Whole templates. -/

/-- The offset of the next piece, or of the end. -/
def nextPiecePos (finish : Nat) : List Piece → Nat
  | [] => finish
  | next :: _ => next.pos

/-- Take in pieces until the end; every block must be closed by then. -/
def nestPieces (finish : Nat) : List Piece → Nest → Except Error Block
  | [], (l, _) =>
      match l.holder with
      | .root => .ok ⟨l.pos, l.nodes⟩
      | .body kind pos _ | .other kind pos _ _ _ _ =>
          .error (.malformed (.missingEnd kind) pos)
  | piece :: rest, nest => do
      let clause ← piece.clause
      let nest ← nestClause piece.pos (nextPiecePos finish rest) clause nest
      nestPieces finish rest nest

/-- The tree of a list of tokens. -/
def Block.ofTokens (tokens : List PlacedToken) : Except Error Block := do
  let (list, finish) ← pieces tokens
  nestPieces finish list (⟨.root, nextPiecePos finish list, []⟩, [])

/-- The tree of a template. -/
def parse (source : String) : Except Error Block := do
  Block.ofTokens (← tokens source)

end Stencil.Template
