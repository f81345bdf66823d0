/-
  Stencil.Diagnostic
  ──────────────────
  What a failure tells its reader.

  A diagnostic has one of five kinds, a text, and, unless it is about the
  schema, the byte offset in the template it is about.  A report shows the
  kind, the line and column of the offset, and the text.  The parameter
  record itself has an empty access path, which is shown as a dot.
-/
import Stencil.Text.Offset

namespace Stencil

/-- A failure in words. -/
inductive Diagnostic where
  /-- A named type expression is malformed or cannot be resolved. -/
  | schema (name message : String)
  /-- A member or function cannot be resolved. -/
  | path (path message : String) (pos : Nat)
  /-- An operand has no truth value or cannot be iterated. -/
  | condition (node path message : String) (pos : Nat)
  /-- A form outside the supported subset. -/
  | unsupported (node message : String) (pos : Nat)
  /-- A template's text is malformed. -/
  | malformed (message : String) (pos : Nat)
  deriving Repr, DecidableEq

namespace Diagnostic

/-- The empty path is shown as a dot. -/
def showPath (path : String) : String :=
  if path = "" then "." else path

/-- The kind in one word. -/
def kind : Diagnostic → String
  | schema .. => "schema"
  | path .. => "path"
  | condition .. => "condition-type"
  | unsupported .. => "unsupported"
  | malformed .. => "syntax"

/-- The offset it is about. -/
def pos? : Diagnostic → Option Nat
  | schema .. => none
  | path _ _ pos | condition _ _ _ pos | unsupported _ _ pos | malformed _ pos => some pos

/-- The full text. -/
def text : Diagnostic → String
  | schema name message => "schema error in `" ++ name ++ "`: " ++ message
  | path place message _ => "path error at `" ++ showPath place ++ "`: " ++ message
  | condition node place message _ => node ++ " on `" ++ showPath place ++ "`: " ++ message
  | unsupported node message _ => "unsupported " ++ node ++ ": " ++ message
  | malformed message _ => "template syntax error: " ++ message

/-- The text with its kind and its place in the source. -/
def report (d : Diagnostic) (source : String) : String :=
  match d.pos? with
  | some pos =>
      let here := Text.locate source.toList pos
      "[" ++ d.kind ++ "] line " ++ toString here.line ++ ":" ++ toString here.column
        ++ ": " ++ d.text
  | none => "[" ++ d.kind ++ "] " ++ d.text

end Diagnostic

end Stencil
