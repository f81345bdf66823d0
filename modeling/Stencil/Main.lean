/-
  Stencil.Main
  ────────────
  The program.

  The files below the current directory are read into a tree, the command
  line is run on it, and what the run leaves behind is written: its two
  outputs, and the files that changed.  The first argument `check-demos`
  asks for the check of demos instead.  No formatter is run from here.
-/
import Stencil.DemoCheck

namespace Stencil.Program

/-- The deepest directory that is read. -/
def depthLimit : Nat := 32

/-- The text files at an entry of a directory, by their paths. -/
def filesAt : Nat → String → IO.FS.DirEntry → IO (List (String × String))
  | 0, _, _ => return []
  | depth + 1, path, entry => do
      if ← entry.path.isDir then
        let inner ← entry.path.readDir
        let found ← inner.toList.mapM fun e => filesAt depth (path ++ "/" ++ e.fileName) e
        return found.flatten
      else
        match ← (IO.FS.readFile entry.path).toBaseIO with
        | .ok text => return [(path, text)]
        | .error _ => return []

/-- The text files below the current directory. -/
def readTree : IO Files.Tree := do
  let entries ← (← IO.currentDir).readDir
  let found ← entries.toList.mapM fun e => filesAt depthLimit e.fileName e
  return Files.Tree.ofList found.flatten

/-- Write a file that changed. -/
def writeChange (change : String × String) : IO Unit := do
  match Files.parent? change.1 with
  | some "" | none => pure ()
  | some directory => IO.FS.createDirAll directory
  IO.FS.writeFile change.1 change.2

/-- Write what a run leaves behind. -/
def leave (before : Files.Tree) (o : CommandLine.Outcome) : IO UInt32 := do
  (before.changes o.tree).forM writeChange
  IO.print o.output
  IO.eprint o.errors
  return UInt32.ofNat o.code

end Stencil.Program

open Stencil in
/-- Run the command line on the files below the current directory. -/
def main (args : List String) : IO UInt32 := do
  let tree ← Program.readTree
  let (outcome?, usage) := match args with
    | "check-demos" :: rest => (DemoCheck.run tree rest, DemoCheck.usageLine)
    | args => (CommandLine.run Tools.standard tree args, CommandLine.usageLine)
  match outcome? with
  | some outcome => Program.leave tree outcome
  | none => do
      IO.eprint usage
      return 2
