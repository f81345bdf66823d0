/-
  Stencil.Config
  ──────────────
  What a library is generated from: the contract's name, named type
  expressions, and named templates with the types of their inputs.

  A configuration is written as a JSON object with the fields
  `contract_name`, `structs` and `functions`.
-/
import Stencil.Json
import Stencil.Schema.Registry

namespace Stencil

/-- A named type, as written. -/
structure StructDef where
  /-- The type expression. -/
  typeExpr : String
  deriving Repr, DecidableEq

/-- A function to generate. -/
structure FunctionDef where
  /-- The template it fills. -/
  template : String
  /-- The types of its inputs, by name. -/
  inputs : List String
  deriving Repr, DecidableEq

/-- A configuration. -/
structure Config where
  /-- The name of the library. -/
  contractName : String
  /-- The types, in written order. -/
  structs : Catalog StructDef
  /-- The functions, in written order. -/
  functions : Catalog FunctionDef
  deriving DecidableEq

namespace Config

/-- What makes a configuration invalid. -/
inductive Invalid where
  /-- The contract's name is no identifier. -/
  | contractName (name : String)
  /-- A function's name is no identifier. -/
  | functionName (name : String)
  deriving Repr, DecidableEq

/-- The wording of what is invalid. -/
def Invalid.message : Invalid → String
  | contractName name => "contract_name `" ++ name ++ "` is not a valid identifier"
  | functionName name => "function name `" ++ name ++ "` is not a valid identifier"

/-- The first thing that makes the configuration invalid. -/
def invalid? (c : Config) : Option Invalid :=
  if !Text.isIdentifier c.contractName then some (.contractName c.contractName)
  else (c.functions.names.find? fun name => !Text.isIdentifier name).map .functionName

/-- The type expressions by name. -/
def sources (c : Config) : Catalog String :=
  ⟨c.structs.entries.map fun (name, d) => (name, d.typeExpr), by
    simpa [List.map_map, Function.comp_def] using c.structs.distinct⟩

/-- The resolved types. -/
def registry (c : Config) : Except Error Schema.Registry :=
  Schema.Registry.ofSources c.sources

/-! ## The written form. -/

/-- A type as JSON. -/
def structJson (d : StructDef) : Json :=
  .obj [("type", .str d.typeExpr)]

/-- A function as JSON. -/
def functionJson (d : FunctionDef) : Json :=
  .obj [("template", .str d.template), ("inputs", .arr (d.inputs.map .str))]

/-- A configuration as JSON. -/
def toJson (c : Config) : Json :=
  .obj [
    ("contract_name", .str c.contractName),
    ("structs", .obj (c.structs.entries.map fun (name, d) => (name, structJson d))),
    ("functions", .obj (c.functions.entries.map fun (name, d) => (name, functionJson d)))]

end Config

end Stencil
