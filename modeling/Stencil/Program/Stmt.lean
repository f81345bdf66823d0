/-
  Stencil.Program.Stmt
  ────────────────────
  Programs that write a document.

  A program is a list of statements: append fragments to the document, do
  something under a test, do something for each element of an array with a
  separator between the elements.  Fragments that meet are appended in one
  statement; `join` puts two programs one after the other and keeps that so.
-/
import Stencil.Program.Path

namespace Stencil

/-! ## §1. Statements. -/

/-- A piece of the document: literal text, or a value of type `ν`. -/
inductive Fragment (ν : Type) where
  /-- Text as it stands. -/
  | literal (text : String)
  /-- A value that is computed when the program runs. -/
  | value (expr : ν)
  deriving Repr, DecidableEq

/-- The same piece with its value changed. -/
def Fragment.map {ν μ : Type} (f : ν → μ) : Fragment ν → Fragment μ
  | literal text => .literal text
  | value expr => .value (f expr)

/-- What a statement may depend on. -/
inductive Test where
  /-- A number other than zero. -/
  | nonzero (path : Path)
  /-- A true truth value. -/
  | holds (path : Path)
  /-- An array with an element. -/
  | nonempty (path : Path)
  deriving Repr, DecidableEq

/-- A statement. -/
inductive Stmt where
  /-- Append fragments to the document. -/
  | append (fragments : List (Fragment Value))
  /-- Do something if the test succeeds. -/
  | ifThen (test : Test) (body : List Stmt)
  /-- Do one thing or the other. -/
  | ifElse (test : Test) (body other : List Stmt)
  /-- Do something for each element, and write the separator between. -/
  | each (variable_ : String) (source : Path) (body : List Stmt)

/-- Statements in order. -/
abbrev Program := List Stmt

/-! ## §2. Joining. -/

/-- One program after the other; fragments that meet are appended together. -/
def Program.join : Program → Program → Program
  | [], q => q
  | [.append xs], .append ys :: q => .append (xs ++ ys) :: q
  | s :: p, q => s :: Program.join p q

/-- Written between the elements of a loop. -/
def separator : String := ","

/-- The variable of a loop: `i` for the outermost, then numbered by depth. -/
def loopVariable (depth : Nat) : String :=
  if depth = 0 then "i" else "i" ++ toString depth

end Stencil
