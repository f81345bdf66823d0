/-
  Stencil.Declaration
  ───────────────────
  The Solidity structures that types need.

  Every record becomes a structure, its members' records before it, so the
  list can be written in order without forward references.  A record is named
  after the entry or member that holds it, with its first letter upper-cased;
  arrays annotate the name of their elements.
-/
import Stencil.Catalog
import Stencil.Schema.Ty
import Stencil.Text.UpperCase

namespace Stencil

open Schema (Ty)

/-! ## §1. Declarations of a type. -/

/-- A structure: its name, and its fields with their types as written. -/
structure Declaration where
  /-- The structure's name. -/
  name : String
  /-- Field names and their types, in order. -/
  fields : List (String × String)
  deriving Repr, DecidableEq

/-- The structure's text. -/
def Declaration.render (d : Declaration) : String :=
  "struct " ++ d.name ++ " \x7b\n"
    ++ String.join (d.fields.map fun (name, type) => "    " ++ type ++ " " ++ name ++ ";\n")
    ++ "\x7d"

/-- How a type is written where something named `name` holds it. -/
def typeReference (name : String) : Ty → String
  | .scalar keyword => keyword
  | .record _ => Text.capitalize name
  | .sequence element => typeReference name element ++ "[]"
  | .fixed element size => typeReference name element ++ "[" ++ toString size ++ "]"

mutual
/-- The structures a type needs where something named `name` holds it. -/
def declarationsOf (name : String) : Ty → List Declaration
  | .scalar _ => []
  | .record members =>
      memberDeclarations members
        ++ [⟨Text.capitalize name, members.map fun (n, ty) => (n, typeReference n ty)⟩]
  | .sequence element => declarationsOf name element
  | .fixed element _ => declarationsOf name element

/-- The structures that members need. -/
def memberDeclarations : List (String × Ty) → List Declaration
  | [] => []
  | (name, ty) :: members => declarationsOf name ty ++ memberDeclarations members
end

/-! ## §2. Declarations of a library. -/

/-- Structures in order, and how the entries they came from are written. -/
structure Declarations where
  /-- The structures. -/
  list : List Declaration
  /-- The written type of each entry. -/
  references : Catalog String

namespace Declarations

/-- No structures. -/
def empty : Declarations := ⟨[], .empty⟩

/-- Declare a type under a name. -/
def declare (d : Declarations) (name : String) (ty : Ty) : Declarations × String :=
  ({ d with list := d.list ++ declarationsOf name ty }, typeReference name ty)

/-- Declare an entry, unless it was declared before. -/
def declareEntry (d : Declarations) (name : String) (ty : Ty) : Declarations × String :=
  match d.references.get? name with
  | some reference => (d, reference)
  | none =>
      let (d, reference) := d.declare name ty
      ({ d with references := d.references.put name reference }, reference)

/-- How a declared entry is written. -/
def reference? (d : Declarations) (name : String) : Option String :=
  d.references.get? name

end Declarations

end Stencil
