/-
  Stencil.Program.Path
  ────────────────────
  Access paths and value expressions.

  A path reads a value from the function's parameters: it starts at the
  parameter record, which has no spelling of its own, and goes on by members
  and by elements at a loop variable.  A value expression is a path, or a
  function called on a value expression.
-/
import Stencil.Builtin

namespace Stencil

/-- The way from the parameter record to a value. -/
inductive Path where
  /-- The parameter record itself. -/
  | root
  /-- A member of a record. -/
  | member (base : Path) (name : String)
  /-- The element of an array at a loop variable. -/
  | index (base : Path) (variable_ : String)
  deriving Repr, DecidableEq

/-- How a path is spelled.  A member of the parameter record is a parameter,
and has no dot before it. -/
def Path.text : Path → String
  | root => ""
  | member base name => if base.text = "" then name else base.text ++ "." ++ name
  | index base i => base.text ++ "[" ++ i ++ "]"

/-- The spelling of an array's length. -/
def Path.lengthText (p : Path) : String :=
  p.text ++ ".length"

/-- An expression whose value can be written. -/
inductive Value where
  /-- Read a path. -/
  | read (path : Path)
  /-- Convert a value. -/
  | call (function : Builtin) (argument : Value)

/-- How a value expression is spelled. -/
def Value.text : Value → String
  | read path => path.text
  | call function argument => function.spell argument.text

end Stencil
