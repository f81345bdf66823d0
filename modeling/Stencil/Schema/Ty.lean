/-
  Stencil.Schema.Ty
  ─────────────────
  Resolved types: elementary types, records, sequences and fixed arrays.

  A resolved type is a finite tree without names to look up; a named type
  that another one refers to stands in it as a full copy.  Elementary types
  are kept by their canonical names.
-/
namespace Stencil.Schema

/-! ## §1. The tree. -/

/-- A resolved type. -/
inductive Ty where
  /-- An elementary type by its canonical name. -/
  | scalar (name : String)
  /-- Named members, in declared order. -/
  | record (members : List (String × Ty))
  /-- An array of any length. -/
  | sequence (element : Ty)
  /-- An array of a fixed length. -/
  | fixed (element : Ty) (size : Nat)
  deriving Repr, Inhabited

namespace Ty

/-! ## §2. Questions. -/

/-- The type of a member. -/
def member? : Ty → String → Option Ty
  | record members, name => members.lookup name
  | _, _ => none

/-- The type of the elements of an array. -/
def element? : Ty → Option Ty
  | sequence element | fixed element _ => some element
  | scalar _ | record _ => none

/-- Elementary integers, told by the keyword their name starts with. -/
def isNumeric : Ty → Bool
  | scalar name => "uint".toList.isPrefixOf name.toList || "int".toList.isPrefixOf name.toList
  | _ => false

/-- The elementary truth values. -/
def isBool : Ty → Bool
  | scalar name => name == "bool"
  | _ => false

/-- What sort of type it is, in one word. -/
def kind : Ty → String
  | scalar _ => "scalar"
  | record _ => "record"
  | sequence _ => "sequence"
  | fixed _ _ => "fixed array"

/-! ## §3. Size. -/

mutual
/-- The number of nodes, every copy of a named type counted in full. -/
def nodes : Ty → Nat
  | scalar _ => 1
  | record members => 1 + memberNodes members
  | sequence element => 1 + nodes element
  | fixed element _ => 1 + nodes element

/-- The nodes of all members together. -/
def memberNodes : List (String × Ty) → Nat
  | [] => 0
  | (_, ty) :: members => nodes ty + memberNodes members
end

/-! ## §4. The written form. -/

mutual
/-- The type expression that stands for the type. -/
def text : Ty → String
  | scalar name => name
  | record members => "record(" ++ memberText members ++ ")"
  | sequence element => text element ++ "[]"
  | fixed element size => text element ++ "[" ++ toString size ++ "]"

/-- Members with commas between them. -/
def memberText : List (String × Ty) → String
  | [] => ""
  | [(name, ty)] => text ty ++ " " ++ name
  | (name, ty) :: members => text ty ++ " " ++ name ++ ", " ++ memberText members
end

end Ty

end Stencil.Schema
