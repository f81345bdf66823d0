/-
  Stencil.Formatter
  ─────────────────
  Sources through a formatter.

  A formatter is a program that takes a source on its input and leaves the
  formatted source on its output; the files may be others afterwards.  It is
  called with three arguments that ask for just that.  A program that cannot
  be found, that does not end well, or whose output is no text, is an error.

  Which programs there are is a parameter, the `Tools`: runs are defined over
  any tools, and what is proved of runs holds whatever a formatter does.  The
  modules under `Formatter` only make one choice of tools that can be
  evaluated, a formatter that is given as a shell script.  No theorem rests on
  how that script is read or run.
-/
import Stencil.Files.Tree
import Stencil.Text.Blank
import Stencil.Text.Utf8

namespace Stencil

open Text (Byte)

/-! ## §1. Programs. -/

/-- How a program ends. -/
inductive Ending where
  /-- By itself, with a status; zero means success. -/
  | exited (status : Nat)
  /-- By a signal. -/
  | killed (signal : Nat)
  deriving Repr, DecidableEq

/-- The names of the signals, by their numbers from one on. -/
def signalNames : List String :=
  ["HUP", "INT", "QUIT", "ILL", "TRAP", "ABRT", "BUS", "FPE", "KILL", "USR1", "SEGV", "USR2",
   "PIPE", "ALRM", "TERM", "STKFLT", "CHLD", "CONT", "STOP", "TSTP", "TTIN", "TTOU", "URG", "XCPU",
   "XFSZ", "VTALRM", "PROF", "WINCH", "IO", "PWR", "SYS"]

/-- The ending in words. -/
def Ending.text : Ending → String
  | exited status => "exit status: " ++ toString status
  | killed signal =>
      "signal: " ++ toString signal
        ++ (match signalNames[signal - 1]? with
          | some name => " (SIG" ++ name ++ ")"
          | none => "")

/-- What a program leaves behind. -/
structure Finished where
  /-- How it ended. -/
  ending : Ending
  /-- What it wrote to its output. -/
  output : List Byte
  /-- What it wrote to its error output. -/
  errors : List Byte
  /-- The files. -/
  tree : Files.Tree
  deriving Repr, DecidableEq

/-- A program: from its arguments, its input and the files to what it leaves
behind. -/
abbrev Tool := List String → List Byte → Files.Tree → Finished

/-- The programs there are, by name. -/
abbrev Tools := String → Option Tool

/-! ## §2. Formatting. -/

namespace Formatter

/-- The program that formats sources. -/
def program : String := "forge"

/-- What a formatter is asked for. -/
def arguments : List String := ["fmt", "--raw", "-"]

/-- Why formatting failed. -/
inductive Failure where
  /-- There is no such program. -/
  | notFound (program : String)
  /-- The program ended badly. -/
  | badEnding (program : String) (ending : Ending) (errors : String)
  /-- The program's output is no text. -/
  | notText (program : String) (fault : Text.Utf8Fault)
  deriving Repr, DecidableEq

/-- The wording of a failure. -/
def Failure.message : Failure → String
  | notFound program =>
      "failed to spawn `" ++ program ++ "` (is Foundry installed and on PATH?)"
  | badEnding program ending errors =>
      program ++ " fmt failed (" ++ ending.text ++ "):\n" ++ errors
  | notText program _ => program ++ " fmt produced non-UTF-8 output"

/-- The cause behind the message. -/
def Failure.cause? : Failure → Option String
  | notFound _ => some "No such file or directory (os error 2)"
  | badEnding .. => none
  | notText _ fault => some fault.message

/-- The message with its cause. -/
def Failure.fullMessage (f : Failure) : String :=
  match f.cause? with
  | some cause => f.message ++ ": " ++ cause
  | none => f.message

/-- Text without blanks at its ends. -/
def trimmed (s : String) : String :=
  String.ofList (Text.trim s.toList)

/-- What a program has made of a source. -/
def judge (program : String) (finished : Finished) : Except Failure String :=
  if finished.ending = .exited 0 then
    (Text.decode finished.output).mapError (.notText program)
  else
    .error (.badEnding program finished.ending (trimmed (Text.decodeLenient finished.errors)))

/-- Put a source through a program; the files come back as it leaves them. -/
def format (tools : Tools) (program source : String) (tree : Files.Tree) :
    Except Failure String × Files.Tree :=
  match tools program with
  | none => (.error (.notFound program), tree)
  | some tool =>
      let finished := tool arguments (Text.toBytes source) tree
      (judge program finished, finished.tree)

end Formatter

end Stencil
