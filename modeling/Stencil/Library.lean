/-
  Stencil.Library
  ───────────────
  Whole configurations into libraries.

  A library has the structures of all configured types and one function for
  each configured template that has inputs.  Input number k is the parameter
  `objk`, and the parameters are the members of the record that the template
  is compiled against.  Types fail before functions, and the first function
  in order that fails decides.
-/
import Stencil.Config
import Stencil.Declaration
import Stencil.Program.Compile
import Stencil.Program.Op
import Stencil.Template.Tree.Nesting

namespace Stencil

open Schema (Ty Registry)

/-! ## §1. Libraries. -/

/-- A parameter of a function. -/
structure Param where
  /-- Its type as written. -/
  type : String
  /-- Does it live in memory, or is it a plain value? -/
  location : Option String
  /-- Its name. -/
  name : String
  deriving Repr, DecidableEq

/-- The parameter's text. -/
def Param.render (p : Param) : String :=
  match p.location with
  | some location => p.type ++ " " ++ location ++ " " ++ p.name
  | none => p.type ++ " " ++ p.name

/-- A function: its parameters and what it does. -/
structure Function where
  /-- Its name. -/
  name : String
  /-- Its parameters. -/
  params : List Param
  /-- Its operations, in order. -/
  ops : List Op
  deriving Repr, DecidableEq

/-- A library. -/
structure Library where
  /-- Its name. -/
  contractName : String
  /-- Its structures, in order. -/
  structs : List Declaration
  /-- Its functions, in order. -/
  functions : List Function
  deriving Repr, DecidableEq

/-! ## §2. Functions. -/

/-- Records, arrays, strings and byte strings live in memory. -/
def dataLocation : Ty → Option String
  | .record _ | .sequence _ | .fixed _ _ => some "memory"
  | .scalar name => if name = "string" || name = "bytes" then some "memory" else none

/-- The name of an input. -/
def inputName (n : Nat) : String :=
  "obj" ++ toString n

/-- The types of inputs. -/
def inputTypes (registry : Registry) (inputs : List String) : Except Error (List Ty) :=
  inputs.mapM fun input =>
    match registry.get? input with
    | some ty => .ok ty
    | none => .error (.schema input .undefinedInput)

/-- The record of the inputs. -/
def inputRecord (types : List Ty) : Ty :=
  .record (types.zipIdx.map fun (ty, n) => (inputName n, ty))

/-- The parameters of the inputs. -/
def inputParams (declarations : Declarations) (inputs : List String) (types : List Ty) :
    List Param :=
  (inputs.zip types).zipIdx.map fun ((input, ty), n) =>
    ⟨(declarations.reference? input).getD input, dataLocation ty, inputName n⟩

/-- Compile a function; one without inputs is left out. -/
def compileFunction (table : Builtins) (registry : Registry) (declarations : Declarations)
    (name : String) (d : FunctionDef) : Except Error (Option Function) := do
  if d.inputs.isEmpty then return none
  let types ← inputTypes registry d.inputs
  let tree ← Template.parse d.template
  let program ← compile table (inputRecord types) tree.nodes
  return some ⟨name, inputParams declarations d.inputs types, program.ops⟩

/-! ## §3. Whole configurations. -/

/-- Why no library comes out of a configuration. -/
inductive GenerateError where
  /-- The types fail. -/
  | schema (cause : Error)
  /-- A function fails; its template comes with it. -/
  | unit (function template : String) (cause : Error)
  deriving Repr, DecidableEq

/-- One line for the reader; a cause in a template is placed in it. -/
def GenerateError.report : GenerateError → String
  | schema cause => cause.diagnostic.report ""
  | unit function template cause =>
      "function `" ++ function ++ "`: " ++ cause.diagnostic.report template

/-- The structures of all types of a configuration. -/
def Config.declarations (config : Config) (registry : Registry) : Declarations :=
  config.structs.names.foldl
    (fun d name =>
      match registry.get? name with
      | some ty => (d.declareEntry name ty).1
      | none => d)
    .empty

/-- Compile a function of a configuration, and name it if it fails. -/
def compileUnit (table : Builtins) (registry : Registry) (declarations : Declarations)
    (entry : String × FunctionDef) : Except GenerateError (Option Function) :=
  (compileFunction table registry declarations entry.1 entry.2).mapError
    (.unit entry.1 entry.2.template)

/-- The functions of a configuration that are not left out. -/
def Config.compileFunctions (config : Config) (table : Builtins) (registry : Registry)
    (declarations : Declarations) : Except GenerateError (List Function) :=
  (config.functions.entries.mapM (compileUnit table registry declarations)).map
    (·.filterMap id)

/-- Compile a configuration. -/
def Config.compile (config : Config) (table : Builtins) : Except GenerateError Library :=
  match config.registry with
  | .error cause => .error (.schema cause)
  | .ok registry =>
      let declarations := config.declarations registry
      (config.compileFunctions table registry declarations).map fun functions =>
        ⟨config.contractName, declarations.list, functions⟩

/-! ## §4. The written form. -/

/-- A fragment as JSON. -/
def Fragment.toJson : Fragment String → Json
  | literal text => .obj [("kind", .str "literal"), ("text", .str text)]
  | value expr => .obj [("kind", .str "value"), ("text", .str expr)]

/-- An operation as JSON. -/
def Op.toJson : Op → Json
  | group fragments => .obj [("fragment_group", .arr (fragments.map (·.toJson)))]
  | statement text => .obj [("statement", .str text)]

/-- A structure as JSON. -/
def Declaration.toJson (d : Declaration) : Json :=
  .obj [
    ("name", .str d.name),
    ("fields", .arr (d.fields.map fun (name, type) => .arr [.str name, .str type]))]

/-- A parameter as JSON. -/
def Param.toJson (p : Param) : Json :=
  .obj [
    ("ty", .str p.type),
    ("location", match p.location with
      | some location => .str location
      | none => .null),
    ("name", .str p.name)]

/-- A function as JSON. -/
def Function.toJson (f : Function) : Json :=
  .obj [
    ("name", .str f.name),
    ("params", .arr (f.params.map (·.toJson))),
    ("ops", .arr (f.ops.map (·.toJson)))]

/-- A library as JSON. -/
def Library.toJson (l : Library) : Json :=
  .obj [
    ("contract_name", .str l.contractName),
    ("structs", .arr (l.structs.map (·.toJson))),
    ("functions", .arr (l.functions.map (·.toJson)))]

end Stencil
