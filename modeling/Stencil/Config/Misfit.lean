/-
  Stencil.Config.Misfit
  ─────────────────────
  Why a text is no configuration.

  A text may be malformed JSON, or well-formed so far but of the wrong shape.
  A misfit tells the path to the value, what is wrong with it, and how much
  of the text was left; its place is a line and the bytes passed on it.
-/
import Stencil.Decimal.Shortest
import Stencil.Json.Scan
import Stencil.Text.Offset
import Stencil.Text.Quoted

namespace Stencil.Config

/-! ## §1. Paths. -/

/-- A step into a value. -/
inductive Segment where
  /-- A field of an object. -/
  | key (name : String)
  /-- An item of an array. -/
  | index (n : Nat)
  deriving Repr, DecidableEq

/-- Steps after the first; fields are set off by dots. -/
def segmentsText : List Segment → String
  | [] => ""
  | .key name :: rest => "." ++ name ++ segmentsText rest
  | .index n :: rest => "[" ++ toString n ++ "]" ++ segmentsText rest

/-- A path; the whole text is shown as a dot. -/
def pathText : List Segment → String
  | [] => "."
  | .key name :: rest => name ++ segmentsText rest
  | .index n :: rest => "[" ++ toString n ++ "]" ++ segmentsText rest

/-! ## §2. Problems. -/

/-- What a value should have been. -/
inductive Expected where
  /-- A string. -/
  | string
  /-- An object with any keys. -/
  | map
  /-- An array. -/
  | sequence
  /-- One of the parts of a configuration, by its title. -/
  | part (title : String)
  deriving Repr, DecidableEq

/-- The wording of an expectation. -/
def Expected.text : Expected → String
  | string => "a string"
  | map => "a map"
  | sequence => "a sequence"
  | part title => "struct " ++ title

/-- What is wrong with a value. -/
inductive Problem where
  /-- It is of another kind. -/
  | wrongType (found : Json.Found) (expected : Expected)
  /-- An array too short for the part it stands for. -/
  | wrongLength (count : Nat) (title : String) (fields : Nat)
  /-- A field is missing. -/
  | missing (field : String)
  /-- A field comes twice. -/
  | duplicate (field : String)
  /-- A field is not one of the fields. -/
  | unknown (field : String) (fields : List String)

/-- The wording of a number. -/
def numberText : Json.Number → String
  | .integer value => "integer `" ++ toString value ++ "`"
  | .float value => "floating point `" ++ Decimal.ofFloat value ++ "`"

/-- The wording of a value that was found. -/
def foundText : Json.Found → String
  | .null => "null"
  | .bool value => "boolean `" ++ (if value then "true" else "false") ++ "`"
  | .number value => numberText value
  | .str value => "string " ++ Text.quoted value
  | .sequence => "sequence"
  | .map => "map"

/-- Names in back quotes, as alternatives. -/
def alternatives (fields : List String) : String :=
  let marked := fields.map fun f => "`" ++ f ++ "`"
  match marked with
  | [] => "there are no fields"
  | [a] => "expected " ++ a
  | [a, b] => "expected " ++ a ++ " or " ++ b
  | _ => "expected one of " ++ ", ".intercalate marked

/-- The wording of a problem. -/
def Problem.text : Problem → String
  | wrongType found expected =>
      "invalid type: " ++ foundText found ++ ", expected " ++ expected.text
  | wrongLength count title fields =>
      "invalid length " ++ toString count ++ ", expected struct " ++ title ++ " with "
        ++ toString fields ++ (if fields = 1 then " element" else " elements")
  | missing field => "missing field `" ++ field ++ "`"
  | duplicate field => "duplicate field `" ++ field ++ "`"
  | unknown field fields => "unknown field `" ++ field ++ "`, " ++ alternatives fields

/-! ## §3. Misfits. -/

/-- Why reading failed. -/
inductive Misfit where
  /-- The text is no JSON. -/
  | malformed
  /-- A value has the wrong shape; `rest` was left of the text. -/
  | shape (path : List Segment) (problem : Problem) (rest : List Char)

/-- The line reading had come to, and the bytes passed on it. -/
def place (source rest : List Char) : Nat × Nat :=
  let passed := source.take (source.length - rest.length)
  let onLine := (passed.reverse.takeWhile (· != '\n')).reverse
  (1 + passed.count '\n', Text.width onLine)

/-- The wording of a misfit of a shape. -/
def shapeText (source : String) (path : List Segment) (problem : Problem)
    (rest : List Char) : String :=
  let (line, column) := place source.toList rest
  "at JSON path " ++ pathText path ++ " → " ++ problem.text ++ " at line "
    ++ toString line ++ " column " ++ toString column

end Stencil.Config
