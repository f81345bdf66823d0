/-
  Stencil.Template.Clause
  ───────────────────────
  Templates as flat lists of clauses.

  A clause is a stretch of text or one complete action: a value, the opening
  of a block, its other part, its end.  Tokens are first cut into pieces at
  the delimiters; each piece is then read on its own.  Nesting is left to
  the tree.
-/
import Stencil.Error
import Stencil.Template.Tree

namespace Stencil.Template

/-! ## §1. Pieces. -/

/-- A stretch of text or the tokens between two delimiters. -/
inductive Piece where
  /-- Text at an offset. -/
  | text (pos : Nat) (content : String)
  /-- An action: the offsets of its two delimiters and the tokens between. -/
  | action (start : Nat) (inner : List PlacedToken) (stop : Nat)
  deriving Repr, DecidableEq

/-- The offset a piece starts at. -/
def Piece.pos : Piece → Nat
  | text pos _ => pos
  | action start _ _ => start

/-- Is it the closing delimiter? -/
def PlacedToken.isRightDelim (t : PlacedToken) : Bool :=
  t.token == .rightDelim

/-- Cut tokens into pieces, and tell the offset of the end. -/
def pieces : List PlacedToken → Except Error (List Piece × Nat)
  | [] => .ok ([], 0)
  | ⟨pos, .eof⟩ :: _ => .ok ([], pos)
  | ⟨pos, .text content⟩ :: rest =>
      (pieces rest).map fun (more, finish) => (.text pos content :: more, finish)
  | ⟨pos, .leftDelim⟩ :: rest =>
      let inner := rest.takeWhile (!·.isRightDelim)
      match rest.drop inner.length with
      | [] => .error (.malformed .unclosedAction pos)
      | close :: _ =>
          (pieces (rest.drop (inner.length + 1))).map fun (more, finish) =>
            (.action pos inner close.pos :: more, finish)
  | ⟨pos, token⟩ :: _ => .error (.malformed (.outsideAction token) pos)
termination_by tokens => tokens.length
decreasing_by
  all_goals simp only [List.length_cons, List.length_drop]; omega

/-! ## §2. Pipelines. -/

/-- The offset of the next token of an action that ends at `stop`. -/
def nextPos (stop : Nat) : List PlacedToken → Nat
  | [] => stop
  | next :: _ => next.pos

/-- The operand a token stands for. -/
def Token.arg? : Token → Option Arg
  | dot => some .dot
  | field names => some (.field names)
  | word name => some (.function name)
  | var name => some (.var name)
  | str value => some (.str value)
  | number digits => some (.number digits)
  | _ => none

/-- The action a pipeline is read for. -/
structure Setting where
  /-- What the action is. -/
  form : ActionForm
  /-- The offset of its opening delimiter. -/
  start : Nat
  /-- The offset of its closing delimiter. -/
  stop : Nat

/-- The commands from here on.  The current one starts at `pos` and has the
operands `args` so far; `piped` says whether a bar came before it. -/
def commandsFrom (s : Setting) (piped : Bool) (pos : Nat) (args : List Arg) :
    List PlacedToken → Except Error (List Command)
  | [] =>
      if !args.isEmpty then .ok [⟨pos, args⟩]
      else if piped then .error (.malformed .missingAfter pos)
      else .error (.malformed (.missingValue s.form) s.start)
  | t :: rest =>
      match t.token.arg? with
      | some arg => commandsFrom s piped pos (args ++ [arg]) rest
      | none =>
          match t.token with
          | .pipe =>
              if args.isEmpty then .error (.malformed .missingBefore t.pos)
              else
                (commandsFrom s true (nextPos s.stop rest) [] rest).map (⟨pos, args⟩ :: ·)
          | .leftParen | .rightParen => .error (.unsupported .parentheses t.pos)
          | token => .error (.malformed (.unexpectedToken token s.form) t.pos)

/-- Split off the variable that a pipeline declares or assigns. -/
def declaration : List PlacedToken → Option String × List PlacedToken
  | ⟨_, .var name⟩ :: ⟨_, .declare⟩ :: rest => (some name, rest)
  | ⟨_, .var name⟩ :: ⟨_, .assign⟩ :: rest => (some name, rest)
  | inner => (none, inner)

/-- Read the rest of an action as a pipeline. -/
def pipeline (s : Setting) (inner : List PlacedToken) : Except Error Pipeline :=
  let (declared, rest) := declaration inner
  (commandsFrom s false (nextPos s.stop rest) [] rest).map
    (⟨nextPos s.stop inner, declared, ·⟩)

/-! ## §3. Clauses. -/

/-- A stretch of text or one action. -/
inductive Clause where
  /-- Literal text. -/
  | text (content : String)
  /-- A value to write. -/
  | value (pipe : Pipeline)
  /-- A block opens. -/
  | opening (kind : BranchKind) (pipe : Pipeline)
  /-- The other part of a block. -/
  | otherwise
  /-- The other part of a block, under a condition of its own. -/
  | otherwiseIf (pipe : Pipeline)
  /-- A block closes. -/
  | closing
  /-- Leave or continue a loop. -/
  | jump (kind : JumpKind)
  /-- Invoke another template. -/
  | invoke (name : String)
  deriving Repr, DecidableEq

/-- The action must hold nothing more. -/
def endOfAction (form : ActionForm) (clause : Clause) :
    List PlacedToken → Except Error Clause
  | [] => .ok clause
  | t :: _ => .error (.malformed (.unexpectedToken t.token form) t.pos)

/-- Read what follows the word `else`. -/
def otherwiseClause (start stop : Nat) : List PlacedToken → Except Error Clause
  | ⟨_, .keyword .ifWord⟩ :: rest =>
      (pipeline ⟨.otherwiseIf, start, stop⟩ rest).map .otherwiseIf
  | rest => endOfAction .otherwise .otherwise rest

/-- Read what follows the word `template`: a quoted name, and maybe a value
for it, which is read and dropped. -/
def invokeClause (start stop : Nat) : List PlacedToken → Except Error Clause
  | ⟨_, .str name⟩ :: [] => .ok (.invoke name)
  | ⟨_, .str name⟩ :: rest =>
      (pipeline ⟨.invoke, start, stop⟩ rest).map fun _ => .invoke name
  | rest => .error (.malformed .unquotedName (nextPos stop rest))

/-- Read an action that starts with a keyword. -/
def keywordClause (k : Keyword) (start stop : Nat) (rest : List PlacedToken) :
    Except Error Clause :=
  match k with
  | .ifWord => block .cond
  | .rangeWord => block .loop
  | .withWord => block .scope
  | .elseWord => otherwiseClause start stop rest
  | .endWord => endOfAction .close .closing rest
  | .breakWord => endOfAction (.jump .leave) (.jump .leave) rest
  | .continueWord => endOfAction (.jump .next) (.jump .next) rest
  | .templateWord => invokeClause start stop rest
  | .defineWord => .error (.unsupported .define start)
  | .blockWord => .error (.unsupported .block start)
where
  block (kind : BranchKind) : Except Error Clause :=
    (pipeline ⟨.branch kind, start, stop⟩ rest).map (.opening kind)

/-- Read one action. -/
def actionClause (start : Nat) (inner : List PlacedToken) (stop : Nat) :
    Except Error Clause :=
  match inner with
  | ⟨_, .keyword k⟩ :: rest => keywordClause k start stop rest
  | _ => (pipeline ⟨.command, start, stop⟩ inner).map .value

/-- Read one piece. -/
def Piece.clause : Piece → Except Error Clause
  | text _ content => .ok (.text content)
  | action start inner stop => actionClause start inner stop

end Stencil.Template
