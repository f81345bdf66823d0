/-
  Stencil.Builtin
  ───────────────
  The functions a template may call.

  A function has one argument and never runs while compiling: it spells the
  Solidity expression that will convert its argument when the generated code
  runs.  A table of functions keeps them in order; a later function of the
  same name takes the place of the earlier one.
-/
import Stencil.Catalog

namespace Stencil

/-- A function of one argument. -/
structure Builtin where
  /-- The name templates call it by. -/
  name : String
  /-- What it does, for its readers. -/
  description : String
  /-- The expression of a call, from that of its argument. -/
  spell : String → String

/-- A table of functions by name. -/
abbrev Builtins := Catalog Builtin

namespace Builtin

/-- The table of a list of functions. -/
def table (functions : List Builtin) : Builtins :=
  Catalog.ofList (functions.map fun f => (f.name, f))

/-- A call of a named library function. -/
def callOf (callee argument : String) : String :=
  callee ++ "(" ++ argument ++ ")"

/-- The functions available to every template. -/
def standardFunctions : List Builtin :=
  [ { name := "toString"
      description := "Decimal string of an integer"
      spell := callOf "LibString.toString" },
    { name := "toHexString"
      description := "0x-prefixed hex string of an integer, address or bytes value"
      spell := callOf "LibString.toHexString" } ]

/-- The table of those functions. -/
def standard : Builtins :=
  table standardFunctions

end Builtin

end Stencil
