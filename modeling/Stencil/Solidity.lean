/-
  Stencil.Solidity
  ────────────────
  Libraries as Solidity sources.

  A source is laid out line by line.  Lines are indented by four spaces for
  each open block; an empty line is not indented.  Inside a function the
  depth follows the operations: a line that starts with a closing brace is
  one less deep, and after a line that ends with an opening brace the next
  ones are one deeper.  The depth goes on from one library to the next.
-/
import Stencil.Library
import Stencil.Text.Lines

namespace Stencil.Solidity

/-! ## §1. Lines. -/

/-- A line and the number of blocks it stands in. -/
structure Line where
  /-- The depth. -/
  depth : Nat
  /-- The text. -/
  text : String
  deriving Repr, DecidableEq

/-- The line's text behind its indentation. -/
def Line.render (l : Line) : String :=
  if l.text = "" then "" else String.join (List.replicate l.depth "    ") ++ l.text

/-- The lines a source starts with. -/
def header : List String :=
  [ "// SPDX-License-Identifier: UNLICENSED",
    "// DO NOT edit this file. Code generated by template-json.",
    "pragma solidity ^0.8.8;",
    "",
    "import \"solady/src/utils/LibString.sol\";" ]

/-! ## §2. Operations. -/

/-- Does the line close a block? -/
def closesBlock (text : String) : Bool :=
  text.toList.head? == some '}'

/-- Does the line open a block? -/
def opensBlock (text : String) : Bool :=
  text.toList.getLast? == some '{'

/-- The lines of operations that start at a depth, and the depth after them. -/
def opLines (depth : Nat) : List Op → List Line × Nat
  | [] => ([], depth)
  | op :: ops =>
      let text := op.render
      let here := if closesBlock text then depth - 1 else depth
      let (lines, final) := opLines (if opensBlock text then here + 1 else here) ops
      (⟨here, text⟩ :: lines, final)

/-! ## §3. Structures and functions. -/

/-- The lines of a structure. -/
def declarationLines (depth : Nat) (d : Declaration) : List Line :=
  (Text.lines d.render.toList).map fun text => ⟨depth, String.ofList text⟩

/-- The line that opens a function. -/
def signature (f : Function) : String :=
  "function " ++ f.name ++ "(" ++ ", ".intercalate (f.params.map (·.render))
    ++ ") internal pure returns (bytes memory) \x7b"

/-- The lines of a function at a depth, and the depth after it. -/
def functionLines (depth : Nat) (f : Function) : List Line × Nat :=
  let (ops, final) := opLines (depth + 1) f.ops
  (⟨depth, signature f⟩ :: ⟨depth + 1, "bytes memory body;"⟩ :: ops
    ++ [⟨final, "return body;"⟩, ⟨final - 1, "\x7d"⟩], final - 1)

/-- The lines of functions, one after the other. -/
def allFunctionLines (depth : Nat) : List Function → List (List Line) × Nat
  | [] => ([], depth)
  | f :: fs =>
      let (lines, next) := functionLines depth f
      let (more, final) := allFunctionLines next fs
      (lines :: more, final)

/-! ## §4. Sources. -/

/-- Groups of lines with an empty line between them. -/
def separated : List (List Line) → List Line
  | [] => []
  | [group] => group
  | group :: groups => group ++ ⟨0, ""⟩ :: separated groups

/-- The lines of a library at a depth, and the depth after it. -/
def libraryLines (depth : Nat) (l : Library) : List Line × Nat :=
  let structs := l.structs.map (declarationLines (depth + 1))
  let (functions, final) := allFunctionLines (depth + 1) l.functions
  ((header ++ [""]).map (⟨depth, ·⟩)
    ++ ⟨depth, "library " ++ l.contractName ++ " \x7b"⟩
    :: separated (structs ++ functions)
    ++ [⟨final - 1, "\x7d"⟩], final - 1)

/-- A source that is being written. -/
structure Codegen where
  /-- What has been written. -/
  out : String
  /-- The depth it has come to. -/
  level : Nat
  deriving Repr, DecidableEq

/-- Nothing has been written yet. -/
def Codegen.fresh : Codegen :=
  ⟨"", 0⟩

/-- Write a library behind what has been written. -/
def Codegen.emit (g : Codegen) (l : Library) : Codegen :=
  let (lines, final) := libraryLines g.level l
  ⟨g.out ++ Text.endLines (lines.map Line.render), final⟩

/-- The source of several libraries in one file. -/
def source (libraries : List Library) : String :=
  (libraries.foldl Codegen.emit .fresh).out

/-- The source of a library. -/
def render (l : Library) : String :=
  source [l]

end Stencil.Solidity

namespace Stencil

/-- The Solidity source of a configuration, with the standard functions. -/
def Config.generate (config : Config) : Except GenerateError String :=
  (config.compile Builtin.standard).map Solidity.render

end Stencil
