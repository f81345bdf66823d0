/-
  Stencil.Reference
  ─────────────────
  What a pipeline refers to.

  A reference is a typed place among the parameters, or the result of a
  function, of which no type is known.  Pipelines of three shapes resolve to
  references: an operand, a function with its operand, and an operand piped
  into a function.  Operands are the current value and member chains from it.
  The parameter record itself may be passed through, but it is no value: it
  can neither be written nor be given to a function.
-/
import Stencil.Error
import Stencil.Program.Path
import Stencil.Template.Tree

namespace Stencil

open Schema (Ty)
open Template (Arg Command Pipeline)

/-! ## §1. References. -/

/-- What a pipeline refers to. -/
inductive Ref where
  /-- A place of known type. -/
  | place (ty : Ty) (path : Path)
  /-- The result of a function. -/
  | result (function : Builtin) (argument : Value)

namespace Ref

/-- The parameter record. -/
def root (ty : Ty) : Ref := place ty .root

/-- The expression that reads it. -/
def value : Ref → Value
  | place _ path => .read path
  | result function argument => .call function argument

/-- The spelling of that expression; empty for the parameter record. -/
def text (r : Ref) : String := r.value.text

/-- Its type, if known. -/
def ty? : Ref → Option Ty
  | place ty _ => some ty
  | result .. => none

/-- Its type in words. -/
def typeName : Ref → String
  | place ty _ => ty.text
  | result .. => "function result"

/-- The element at a loop variable, for an array. -/
def element? (r : Ref) (i : String) : Option Ref :=
  match r with
  | place ty path => ty.element?.map (place · (path.index i))
  | result .. => none

/-- The expression to write or to pass on; the parameter record has none. -/
def checkedValue (r : Ref) (pos : Nat) : Except Error Value :=
  if r.text = "" then .error (.path "" .noValue pos) else .ok r.value

/-! ## §2. Members. -/

/-- Select one member. -/
def select (r : Ref) (name : String) (pos : Nat) : Except Error Ref :=
  match r with
  | place (.record members) path =>
      match members.lookup name with
      | some ty => .ok (place ty (path.member name))
      | none => .error (.path path.text (.noMember name) pos)
  | _ => .error (.path r.text (.notRecord r.typeName name) pos)

/-- Select along a chain of members. -/
def selectAll (r : Ref) (names : List String) (pos : Nat) : Except Error Ref :=
  names.foldlM (fun r name => r.select name pos) r

/-! ## §3. Functions and operands. -/

/-- Find a function for a value spelled `path`. -/
def findFunction (table : Builtins) (name path : String) (pos : Nat) : Except Error Builtin :=
  match table.get? name with
  | some f => .ok f
  | none => .error (.path path (.noFunction name) pos)

/-- Call a function on a reference. -/
def call (table : Builtins) (name : String) (argument : Ref) (pos : Nat) :
    Except Error Ref := do
  let f ← findFunction table name argument.text pos
  let value ← argument.checkedValue pos
  return result f value

/-- Resolve an operand from the current value. -/
def ofArg (current : Ref) (arg : Arg) (pos : Nat) : Except Error Ref :=
  match arg with
  | .dot => .ok current
  | .field names => current.selectAll names pos
  | .function name => .error (.unsupported (.functionArgument name) pos)
  | .var name => .error (.unsupported (.variableArgument name) pos)
  | .str _ => .error (.unsupported .stringArgument pos)
  | .number _ => .error (.unsupported .numberArgument pos)

/-! ## §4. Commands and pipelines. -/

/-- Resolve a command: an operand, or a function with its operand. -/
def ofCommand (table : Builtins) (current : Ref) (cmd : Command) : Except Error Ref :=
  match cmd.args with
  | [.function name, arg] => do
      let argument ← current.ofArg arg cmd.pos
      call table name argument cmd.pos
  | .function name :: rest => do
      let f ← findFunction table name current.text cmd.pos
      throw (.path current.text (.arity f.name rest.length) cmd.pos)
  | [arg] => current.ofArg arg cmd.pos
  | args => .error (.unsupported (.operands args.length) cmd.pos)

/-- Resolve a pipeline. -/
def ofPipeline (table : Builtins) (current : Ref) (pipe : Pipeline) : Except Error Ref :=
  match pipe.declared with
  | some name => .error (.unsupported (.declaration name) pipe.pos)
  | none =>
    match pipe.commands with
    | [cmd] => ofCommand table current cmd
    | [first, last] => do
        let argument ← ofCommand table current first
        match last.args with
        | [.function name] => call table name argument last.pos
        | _ => throw (.unsupported .pipelineTail last.pos)
    | commands => .error (.unsupported (.chain commands.length) pipe.pos)

end Ref

end Stencil
