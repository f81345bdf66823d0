/-
  Stencil.Error
  ─────────────
  The causes of failure, and their wording.

  Reading templates, resolving schemas and compiling fail with an `Error`,
  which holds the cause as data.  `Error.diagnostic` is the one place where
  causes become words.
-/
import Stencil.Diagnostic
import Stencil.Schema.TypeExpr
import Stencil.Template.Fault

namespace Stencil

/-! ## §1. Schema causes. -/

/-- The largest number of nodes a resolved type may have. -/
def Schema.nodeLimit : Nat := 4096

/-- What can be wrong with a named type. -/
inductive Schema.Fault where
  /-- The type's name is no identifier. -/
  | notIdentifier
  /-- The type's name already means a type. -/
  | keyword
  /-- The type's name was defined before. -/
  | alreadyDefined
  /-- The type was defined and is not there. -/
  | vanished
  /-- The expression refers to a name that nobody defines. -/
  | undefined (name : String)
  /-- The expression refers to itself, through the names listed. -/
  | cyclic (chain : List String)
  /-- The resolved type is too large. -/
  | tooLarge (nodes : Nat)
  /-- A function takes an input of a type that nobody defines. -/
  | undefinedInput
  /-- The expression does not follow the grammar. -/
  | grammar (source : String) (fault : GrammarFault) (offset : Nat)
  deriving Repr, DecidableEq

/-- The wording of a grammar fault, which may show the rest of the source. -/
def Schema.GrammarFault.message (source : String) (offset : Nat) : GrammarFault → String
  | expectedIdentifier => "expected identifier"
  | expectedMark char => "expected `" ++ char.toString ++ "`"
  | expectedSize => "expected array size or `]`"
  | emptyRecord => "a record needs at least one member"
  | duplicateMember name => "duplicate member `" ++ name ++ "`"
  | zeroSize => "fixed array size must be positive"
  | sizeOutOfRange digits => "array size `" ++ String.ofList digits ++ "` out of range"
  | trailing =>
      "unexpected trailing input `" ++ String.ofList (Text.after source.toList offset) ++ "`"

/-- The wording of a schema fault. -/
def Schema.Fault.message : Schema.Fault → String
  | notIdentifier => "type names must be identifiers"
  | keyword => "type name shadows a builtin type keyword"
  | alreadyDefined => "type is already defined"
  | vanished => "type vanished after definition"
  | undefined name => "undefined type `" ++ name ++ "`"
  | cyclic chain => "cyclic type reference: " ++ " -> ".intercalate chain
  | tooLarge nodes =>
      "type expands to " ++ toString nodes ++ " nodes, more than the limit of "
        ++ toString nodeLimit
  | undefinedInput => "undefined struct used as a function input"
  | grammar source fault offset =>
      fault.message source offset ++ " (at offset " ++ toString offset ++ " of `"
        ++ source ++ "`)"

/-! ## §2. Causes in templates. -/

/-- Why a member or a function cannot be resolved. -/
inductive PathFault where
  /-- A member is selected from something that is no record. -/
  | notRecord (type name : String)
  /-- The record has no such member. -/
  | noMember (name : String)
  /-- There is no such function. -/
  | noFunction (name : String)
  /-- A function with a number of arguments other than one. -/
  | arity (name : String) (count : Nat)
  /-- The parameter record itself is no value. -/
  | noValue
  deriving Repr, DecidableEq

/-- The wording of a path fault at a path. -/
def PathFault.message (path : String) : PathFault → String
  | notRecord type name => "not a record (" ++ type ++ "), cannot select `" ++ name ++ "`"
  | noMember name =>
      "field `" ++ name ++ "` not found in "
        ++ (if path = "" then "the parameter record" else "`" ++ path ++ "`")
  | noFunction name => "function `" ++ name ++ "` not found"
  | arity name count =>
      "function `" ++ name ++ "` takes exactly one argument, got " ++ toString count
  | noValue => "the parameter record has no value expression; select a field such as `.obj0`"

/-- Why an operand of a block does not serve. -/
inductive ConditionFault where
  /-- No rule says when the operand is true. -/
  | noTruthValue (type : String)
  /-- The operand has no elements. -/
  | notIterable (type : String)
  deriving Repr, DecidableEq

/-- The block the operand belongs to, and the wording. -/
def ConditionFault.words : ConditionFault → String × String
  | noTruthValue type => ("if", "no truth value for " ++ type)
  | notIterable type => ("range", "not iterable (" ++ type ++ ")")

/-- The forms that are read but not compiled. -/
inductive UnsupportedForm where
  /-- A named template is defined. -/
  | define
  /-- A named template is defined and invoked. -/
  | block
  /-- A pipeline in parentheses. -/
  | parentheses
  /-- A variable is declared or assigned. -/
  | declaration (name : String)
  /-- What follows the bar is not a function alone. -/
  | pipelineTail
  /-- More than two commands in a row, or none. -/
  | chain (count : Nat)
  /-- Several operands, the first of which is no function. -/
  | operands (count : Nat)
  /-- A function stands for a value. -/
  | functionArgument (name : String)
  /-- A variable stands for a value. -/
  | variableArgument (name : String)
  /-- A string stands for a value. -/
  | stringArgument
  /-- A number stands for a value. -/
  | numberArgument
  /-- A block with another current value. -/
  | scope
  /-- A loop is left or continued. -/
  | jump (kind : Template.JumpKind)
  /-- Another template is invoked. -/
  | invocation (name : String)
  /-- The other part of a loop. -/
  | loopElse
  deriving Repr, DecidableEq

/-- The construct the form belongs to, and the wording. -/
def UnsupportedForm.words : UnsupportedForm → String × String
  | define => ("define", "nested template definitions")
  | block => ("block", "nested template definitions")
  | parentheses => ("pipeline", "parenthesized sub-pipelines")
  | declaration name => ("variable", "declaration of `$" ++ name ++ "`")
  | pipelineTail => ("pipeline", "only `value | function` pipelines are supported")
  | chain count =>
      ("pipeline",
        toString count ++ " chained commands; at most `value | function` is supported")
  | operands count => ("command", toString count ++ " operands without a function")
  | functionArgument name => ("argument", "function `" ++ name ++ "` used as an argument")
  | variableArgument name => ("variable", "`$" ++ name ++ "`")
  | stringArgument => ("argument", "string literals")
  | numberArgument => ("argument", "number literals")
  | scope => ("with", "scoped `with` blocks")
  | jump kind => (kind.keyword, "loop control inside templates")
  | invocation name => ("template", "invocation of sub-template `" ++ name ++ "`")
  | loopElse => ("range", "`\x7b\x7belse\x7d\x7d` branch of a range")

/-! ## §3. Errors. -/

/-- A cause of failure, with the offset in the template if there is one. -/
inductive Error where
  /-- A named type fails. -/
  | schema (name : String) (fault : Schema.Fault)
  /-- A member or function fails to resolve at an access path. -/
  | path (path : String) (fault : PathFault) (pos : Nat)
  /-- A block's operand does not serve. -/
  | condition (path : String) (fault : ConditionFault) (pos : Nat)
  /-- A form is not supported. -/
  | unsupported (form : UnsupportedForm) (pos : Nat)
  /-- The template's text is malformed. -/
  | malformed (fault : Template.Fault) (pos : Nat)
  deriving Repr, DecidableEq

/-- The wording of an error. -/
def Error.diagnostic : Error → Diagnostic
  | schema name fault => .schema name fault.message
  | path place fault pos => .path place (fault.message place) pos
  | condition place fault pos => .condition fault.words.1 place fault.words.2 pos
  | unsupported form pos => .unsupported form.words.1 form.words.2 pos
  | malformed fault pos => .malformed fault.message pos

end Stencil
