/-
  Stencil.Template.Tree
  ─────────────────────
  Templates as trees.

  A template is a list of nodes.  Blocks hold lists of their own; a block
  with an other part is a constructor of its own, so a tree never holds an
  absent list.  Every node, pipeline, command and list remembers the byte
  offset it stands at.
-/
import Stencil.Template.Fault

namespace Stencil.Template

/-! ## §1. Pipelines. -/

/-- One operand of a command. -/
inductive Arg where
  /-- The current value. -/
  | dot
  /-- A chain of member names from the current value. -/
  | field (names : List String)
  /-- A function's name. -/
  | function (name : String)
  /-- A variable, without its dollar sign. -/
  | var (name : String)
  /-- A string. -/
  | str (value : String)
  /-- A number as written. -/
  | number (text : String)
  deriving Repr, DecidableEq

/-- Operands in a row. -/
structure Command where
  /-- The offset of the first operand. -/
  pos : Nat
  /-- The operands. -/
  args : List Arg
  deriving Repr, DecidableEq

/-- Commands, each fed to the next, and the variable that takes the result. -/
structure Pipeline where
  /-- The offset of the pipeline's first token. -/
  pos : Nat
  /-- The variable declared or assigned. -/
  declared : Option String
  /-- The commands, in order. -/
  commands : List Command
  deriving Repr, DecidableEq

/-! ## §2. Nodes. -/

/-- A piece of a template. -/
inductive Node where
  /-- Literal text. -/
  | text (pos : Nat) (content : String)
  /-- A value to write. -/
  | action (pos : Nat) (pipe : Pipeline)
  /-- A block; its list starts at `bodyPos`. -/
  | branch (kind : BranchKind) (pos : Nat) (pipe : Pipeline)
      (bodyPos : Nat) (body : List Node)
  /-- A block with another part, whose list starts at `elsePos`. -/
  | branchElse (kind : BranchKind) (pos : Nat) (pipe : Pipeline)
      (bodyPos : Nat) (body : List Node) (elsePos : Nat) (elseBody : List Node)
  /-- A list that stands for its nodes. -/
  | group (pos : Nat) (nodes : List Node)
  /-- Leave or continue a loop. -/
  | jump (kind : JumpKind) (pos : Nat)
  /-- Invoke another template. -/
  | invoke (pos : Nat) (name : String)
  deriving Repr, Inhabited

/-- The offset a node stands at. -/
def Node.pos : Node → Nat
  | text pos _ | action pos _ | branch _ pos _ _ _ | branchElse _ pos _ _ _ _ _
  | group pos _ | jump _ pos | invoke pos _ => pos

/-- A list of nodes and the offset it starts at. -/
structure Block where
  /-- The offset of its first token, or of what ends it. -/
  pos : Nat
  /-- Its nodes. -/
  nodes : List Node
  deriving Repr, Inhabited

/-- The pipeline at the head of a node: what an action writes or what a block
depends on. -/
def Node.pipeline? : Node → Option Pipeline
  | action _ pipe | branch _ _ pipe _ _ | branchElse _ _ pipe _ _ _ _ => some pipe
  | _ => none

end Stencil.Template
