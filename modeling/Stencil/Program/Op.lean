/-
  Stencil.Program.Op
  ──────────────────
  Programs as streams of operations.

  An operation is a group of fragments to append, or the text of a line that
  opens, splits or closes a block.  `Program.ops` spells a program as such a
  stream; `Op.render` gives the Solidity text of one operation.
-/
import Stencil.Program.Stmt

namespace Stencil

/-! ## §1. Operations. -/

/-- An operation. -/
inductive Op where
  /-- Fragments to append in one call, values by their spelling. -/
  | group (fragments : List (Fragment String))
  /-- A line as it stands. -/
  | statement (text : String)
  deriving Repr, DecidableEq

/-! ## §2. Spelling programs. -/

/-- How a test is spelled. -/
def Test.text : Test → String
  | nonzero path => path.text ++ " != 0"
  | holds path => path.text
  | nonempty path => path.lengthText ++ " > 0"

/-- A line that opens a block under a condition. -/
def ifLine (condition : String) : String :=
  "if (" ++ condition ++ ") \x7b"

/-- A line that opens a loop over the indexes below a length. -/
def forLine (i length : String) : String :=
  "for (uint64 " ++ i ++ " = 0; " ++ i ++ " < " ++ length ++ "; " ++ i ++ "++) \x7b"

/-- The condition under which another element follows. -/
def moreText (i length : String) : String :=
  i ++ " < " ++ length ++ " - 1"

/-- The line between the two parts of a block. -/
def elseLine : String := "\x7d else \x7b"

/-- The line that closes a block. -/
def closeLine : String := "\x7d"

mutual
/-- The operations of a statement. -/
def Stmt.ops : Stmt → List Op
  | .append fragments => [.group (fragments.map (·.map Value.text))]
  | .ifThen test body =>
      .statement (ifLine test.text) :: (opsOf body ++ [.statement closeLine])
  | .ifElse test body other =>
      .statement (ifLine test.text) :: (opsOf body
        ++ .statement elseLine :: (opsOf other ++ [.statement closeLine]))
  | .each i source body =>
      .statement (forLine i source.lengthText) :: (opsOf body
        ++ [.statement (ifLine (moreText i source.lengthText)),
            .group [.literal separator],
            .statement closeLine,
            .statement closeLine])

/-- The operations of statements in order. -/
def opsOf : List Stmt → List Op
  | [] => []
  | s :: rest => s.ops ++ opsOf rest
end

/-- The operations of a program. -/
def Program.ops (p : Program) : List Op :=
  opsOf p

/-! ## §3. Rendering. -/

/-- A quote or a backslash inside a literal has a backslash before it. -/
def literalChar (c : Char) : List Char :=
  if c = '\\' || c = '\x27' then ['\\', c] else [c]

/-- A single-quoted literal; text beyond ASCII needs a mark before it. -/
def literalText (text : String) : String :=
  let inner := String.ofList (text.toList.flatMap literalChar)
  (if text.toList.all (·.toNat < 128) then "'" else "unicode'") ++ inner ++ "'"

/-- The text of a fragment. -/
def Fragment.render : Fragment String → String
  | literal text => literalText text
  | value expr => expr

/-- The text of an operation. -/
def Op.render : Op → String
  | group fragments =>
      "body = abi.encodePacked(body, " ++ ", ".intercalate (fragments.map (·.render)) ++ ");"
  | statement text => text

theorem Op.render_group (fragments : List (Fragment String)) :
    (Op.group fragments).render
      = "body = abi.encodePacked(body, " ++ ", ".intercalate (fragments.map (·.render)) ++ ");" :=
  rfl

@[simp] theorem Op.render_statement (text : String) : (Op.statement text).render = text := rfl

/-- One line for each operation. -/
def renderOps (ops : List Op) : String :=
  "\n".intercalate (ops.map Op.render)

end Stencil
