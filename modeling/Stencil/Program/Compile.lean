/-
  Stencil.Program.Compile
  ───────────────────────
  Templates into programs.

  The nodes of a template are compiled in order against a current reference,
  which is the parameter record at first and an array's element inside a
  loop.  The first node that fails decides.  Text is compacted, and text that
  compacts to nothing leaves nothing.
-/
import Stencil.Program.Stmt
import Stencil.Reference
import Stencil.Text.Compact

namespace Stencil

open Schema (Ty)
open Template (Node)

/-- Numbers test nonzero, truth values themselves, arrays for an element. -/
def Ref.test (r : Ref) (pos : Nat) : Except Error Test :=
  match r with
  | .place ty path =>
      if ty.isNumeric then .ok (.nonzero path)
      else if ty.isBool then .ok (.holds path)
      else if ty.element?.isSome then .ok (.nonempty path)
      else .error (.condition r.text (.noTruthValue r.typeName) pos)
  | .result .. => .error (.condition r.text (.noTruthValue r.typeName) pos)

/-- The array a loop runs over, and the type of its elements. -/
def Ref.source (r : Ref) (pos : Nat) : Except Error (Path × Ty) :=
  let failure : Error := .condition r.text (.notIterable r.typeName) pos
  match r with
  | .place ty path =>
      match ty.element? with
      | some element => .ok (path, element)
      | none => .error failure
  | .result .. => .error failure

/-- The program of a text. -/
def compileText (content : String) : Program :=
  let text := Text.compact content
  if text = "" then [] else [.append [.literal text]]

mutual
/-- Compile one node inside `depth` loops. -/
def compileNode (table : Builtins) (depth : Nat) (current : Ref) : Node → Except Error Program
  | .text _ content => .ok (compileText content)
  | .action _ pipe => do
      let r ← current.ofPipeline table pipe
      let value ← r.checkedValue pipe.pos
      return [.append [.value value]]
  | .branch .cond pos pipe _ body => do
      let test ← (← current.ofPipeline table pipe).test pos
      let body ← compileNodes table depth current body
      return [.ifThen test body]
  | .branchElse .cond pos pipe _ body _ elseBody => do
      let test ← (← current.ofPipeline table pipe).test pos
      let body ← compileNodes table depth current body
      let other ← compileNodes table depth current elseBody
      return [.ifElse test body other]
  | .branch .loop pos pipe _ body => do
      let (path, element) ← (← current.ofPipeline table pipe).source pos
      let i := loopVariable depth
      let body ← compileNodes table (depth + 1) (.place element (path.index i)) body
      return [.each i path body]
  | .branchElse .loop pos _ _ _ _ _ => .error (.unsupported .loopElse pos)
  | .branch .scope pos _ _ _ => .error (.unsupported .scope pos)
  | .branchElse .scope pos _ _ _ _ _ => .error (.unsupported .scope pos)
  | .group _ nodes => compileNodes table depth current nodes
  | .jump kind pos => .error (.unsupported (.jump kind) pos)
  | .invoke pos name => .error (.unsupported (.invocation name) pos)

/-- Compile nodes in order. -/
def compileNodes (table : Builtins) (depth : Nat) (current : Ref) :
    List Node → Except Error Program
  | [] => .ok []
  | node :: nodes => do
      let first ← compileNode table depth current node
      let rest ← compileNodes table depth current nodes
      return Program.join first rest
end

/-- Compile a template's nodes against a parameter record. -/
def compile (table : Builtins) (root : Ty) (nodes : List Node) : Except Error Program :=
  compileNodes table 0 (.root root) nodes

end Stencil
