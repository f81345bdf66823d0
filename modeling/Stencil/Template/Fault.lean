/-
  Stencil.Template.Fault
  ──────────────────────
  What can be wrong with the text of a template.

  The faults come from three readers: characters into tokens, the tokens of
  one action into a clause, and clauses into a tree.  `Fault.message` words
  each of them.
-/
import Stencil.Template.Token

namespace Stencil.Template

/-! ## §1. Kinds of branches, jumps and actions. -/

/-- The actions that open a block. -/
inductive BranchKind where
  /-- A block under a condition. -/
  | cond
  /-- A block for each element. -/
  | loop
  /-- A block with another current value. -/
  | scope
  deriving Repr, DecidableEq

/-- The word that opens the block. -/
def BranchKind.keyword : BranchKind → String
  | cond => "if"
  | loop => "range"
  | scope => "with"

/-- The actions that leave or continue a loop. -/
inductive JumpKind where
  /-- Leave the loop. -/
  | leave
  /-- Go on with the next element. -/
  | next
  deriving Repr, DecidableEq

/-- The word that asks for the jump. -/
def JumpKind.keyword : JumpKind → String
  | leave => "break"
  | next => "continue"

/-- What an action is, told by its first word. -/
inductive ActionForm where
  /-- A value to write. -/
  | command
  /-- A block opens. -/
  | branch (kind : BranchKind)
  /-- The other part of a block. -/
  | otherwise
  /-- The other part of a block under a condition of its own. -/
  | otherwiseIf
  /-- A block closes. -/
  | close
  /-- Leave or continue a loop. -/
  | jump (kind : JumpKind)
  /-- Another template is invoked. -/
  | invoke
  deriving Repr, DecidableEq

/-- The form in words. -/
def ActionForm.label : ActionForm → String
  | command => "command"
  | branch kind => kind.keyword
  | otherwise => "else"
  | otherwiseIf => "else if"
  | close => "end"
  | jump kind => kind.keyword
  | invoke => "template"

/-! ## §2. Faults. -/

/-- What is wrong with a template's text. -/
inductive Fault where
  /-- An action has no closing delimiter. -/
  | unclosedAction
  /-- A comment has no end. -/
  | unclosedComment
  /-- Something stands between a comment and its action's end. -/
  | commentNotLast
  /-- A quoted string has no end on its line. -/
  | unterminatedQuoted
  /-- A raw string has no end. -/
  | unterminatedRaw
  /-- A backslash before a character that needs none. -/
  | unknownEscape (char : Char)
  /-- A character that starts no token. -/
  | unexpectedChar (char : Char)
  /-- A token that does not belong into an action of this form. -/
  | unexpectedToken (token : Token) (form : ActionForm)
  /-- A token of actions outside of any action. -/
  | outsideAction (token : Token)
  /-- An action without a value. -/
  | missingValue (form : ActionForm)
  /-- A bar with no command before it. -/
  | missingBefore
  /-- A bar with no command after it. -/
  | missingAfter
  /-- An invocation without a quoted name. -/
  | unquotedName
  /-- A block closes that was never opened. -/
  | strayEnd
  /-- The other part of no block. -/
  | strayElse
  /-- A block that is never closed. -/
  | missingEnd (kind : BranchKind)
  /-- A condition for the other part of a block without a condition. -/
  | elseIfInside (kind : BranchKind)
  /-- A second other part. -/
  | secondElse
  deriving Repr, DecidableEq

/-- The wording of a fault. -/
def Fault.message : Fault → String
  | unclosedAction => "unclosed action"
  | unclosedComment => "unclosed comment"
  | commentNotLast => "comment ends before closing delimiter"
  | unterminatedQuoted => "unterminated quoted string"
  | unterminatedRaw => "unterminated raw string"
  | unknownEscape char => "unknown escape `\\" ++ char.toString ++ "`"
  | unexpectedChar char => "unexpected character `" ++ char.toString ++ "` in action"
  | unexpectedToken token form => "unexpected " ++ token.shown ++ " in " ++ form.label
  | outsideAction token => "unexpected " ++ token.shown ++ " outside action"
  | missingValue form => "missing value for " ++ form.label
  | missingBefore => "missing command before `|`"
  | missingAfter => "missing command after `|`"
  | unquotedName => "template name must be a quoted string"
  | strayEnd => "unexpected \x7b\x7bend\x7d\x7d"
  | strayElse => "unexpected \x7b\x7belse\x7d\x7d"
  | missingEnd kind => "missing \x7b\x7bend\x7d\x7d for " ++ kind.keyword
  | elseIfInside kind => "\x7b\x7belse if\x7d\x7d inside " ++ kind.keyword
  | secondElse => "expected \x7b\x7bend\x7d\x7d after \x7b\x7belse\x7d\x7d branch"

end Stencil.Template
