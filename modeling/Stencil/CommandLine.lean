/-
  Stencil.CommandLine
  ───────────────────
  The command line, over a tree of files.

  Every input is read and compiled before anything is written.  A result
  goes to the screen, or to the file that was asked for; with several inputs
  that is a directory, and each result is named after its input.  Every
  input that fails is told, and then how many did.
-/
import Stencil.CommandLine.Arguments
import Stencil.Config.Reader
import Stencil.Files.Glob
import Stencil.Formatter.Script.Run
import Stencil.Solidity

namespace Stencil.CommandLine

open Files (Tree)

/-! ## §1. Inputs. -/

/-- Does the input hold a character of patterns? -/
def isPattern (input : String) : Bool :=
  input.toList.any fun c => c == '*' || c == '?' || c == '[' || c == '\x7b'

/-- The paths one input stands for. -/
def inputPaths (tree : Tree) (input : String) : Except String (List String) :=
  if isPattern input then
    match Files.Glob.ofText input with
    | .error e => .error e.message
    | .ok glob =>
        match glob.find tree with
        | [] => .error ("glob pattern matched no files: " ++ input)
        | paths => .ok paths
  else .ok [input]

/-- The paths all inputs stand for. -/
def allPaths (tree : Tree) (inputs : List String) : Except String (List String) :=
  (inputs.mapM (inputPaths tree)).map List.flatten

/-- Why a file gives no configuration. -/
inductive LoadFailure where
  /-- The file cannot be read. -/
  | unreadable (failure : Files.Failure)
  /-- Its text is no configuration. -/
  | config (error : Config.LoadError)

/-- What went wrong with a file. -/
def LoadFailure.message (path : String) : LoadFailure → String
  | unreadable _ => "failed to read `" ++ path ++ "`"
  | config error => error.message path

/-- The cause behind the message. -/
def LoadFailure.cause? : LoadFailure → Option String
  | unreadable failure => some failure.message
  | config error => error.cause?

/-- A message with its cause. -/
def withCause (message : String) : Option String → String
  | some cause => message ++ ": " ++ cause
  | none => message

/-- Read a configuration from a file. -/
def loadConfig (tree : Tree) (path : String) : Except LoadFailure Config :=
  match tree.read path with
  | .error failure => .error (.unreadable failure)
  | .ok text => (Config.ofText text).mapError .config

/-- Compile a file. -/
def compileFile (tree : Tree) (path : String) : Except String Library :=
  match loadConfig tree path with
  | .error failure => .error (withCause (failure.message path) failure.cause?)
  | .ok config => (config.compile Builtin.standard).mapError (·.report)

/-! ## §2. Outputs. -/

/-- Where the result of an input goes: to `out`, or with several inputs into
it, under the input's stem. -/
def outputTarget? (out : String) (several : Bool) (input extension : String) : Option String :=
  if several then
    (Files.stem? input).map fun stem => Files.withExtension (Files.join out stem) extension
  else some out

/-- What a run has left behind so far. -/
structure Session where
  /-- What was written to the screen. -/
  output : String
  /-- What was written to the error output. -/
  errors : String
  /-- The files. -/
  tree : Tree

/-- Write a file, and the directories above it. -/
def Session.writeFile (s : Session) (target content : String) : Session × Option String :=
  let parent := Files.parent? target
  match s.tree.createDirectories (parent.getD "") with
  | .error failure =>
      (s, some ("failed to create " ++ parent.getD "" ++ ": " ++ failure.message))
  | .ok tree =>
      let s := { s with tree }
      let failed (failure : Files.Failure) : Session × Option String :=
        (s, some ("failed to write " ++ target ++ ": " ++ failure.message))
      let wrote (s : Session) : Session × Option String :=
        ({ s with errors := s.errors ++ "wrote " ++ target ++ "\n" }, none)
      match tree.target target with
      | .error failure => failed failure
      | .ok .full => failed .noSpace
      | .ok .output => wrote { s with output := s.output ++ content }
      | .ok .errors => wrote { s with errors := s.errors ++ content }
      | .ok (.file place) => wrote { s with tree := tree.put place content }

/-- Give out the result of an input; an error comes back in words. -/
def Session.give (s : Session) (out : Option String) (several : Bool)
    (input extension content : String) : Session × Option String :=
  match out with
  | none => ({ s with output := s.output ++ content ++ "\n" }, none)
  | some out =>
      match outputTarget? out several input extension with
      | none => (s, some "input path has no file name")
      | some target => s.writeFile target content

/-! ## §3. Runs. -/

/-- How a run ends. -/
structure Outcome where
  /-- The exit status. -/
  code : Nat
  /-- What was written to the screen. -/
  output : String
  /-- What was written to the error output. -/
  errors : String
  /-- The files afterwards. -/
  tree : Tree

/-- What a result is written as. -/
structure Product where
  /-- The ending of files of this kind. -/
  extension : String
  /-- The text of a library, or an error about the input it comes from; the
  files may change on the way. -/
  text : Tree → String → Library → Except String String × Tree

/-- Solidity sources, through the formatter if asked for. -/
def solidityProduct (tools : Tools) (format : Bool) : Product where
  extension := "sol"
  text tree input library :=
    let source := Solidity.render library
    if format then
      let (result, tree) := Formatter.format tools Formatter.program source tree
      (result.mapError fun failure =>
        "failed to format output for " ++ input ++ ": " ++ failure.fullMessage, tree)
    else (.ok source, tree)

/-- Operations as JSON. -/
def opsProduct : Product where
  extension := "json"
  text tree _ library := (.ok library.toJson.pretty, tree)

/-- Give out the result of one input, if it has one. -/
def Session.process (s : Session) (product : Product) (out : Option String) (several : Bool)
    (input : String) (compiled : Except String Library) : Session × Option String :=
  match compiled with
  | .error message => (s, some message)
  | .ok library =>
      match product.text s.tree input library with
      | (.error message, tree) => ({ s with tree }, some message)
      | (.ok content, tree) => { s with tree }.give out several input product.extension content

/-- Give out all results; how many inputs failed comes with it. -/
def Session.processAll (s : Session) (product : Product) (out : Option String)
    (several : Bool) : List (String × Except String Library) → Session × Nat
  | [] => (s, 0)
  | (input, compiled) :: rest =>
      match s.process product out several input compiled with
      | (s, none) => s.processAll product out several rest
      | (s, some message) =>
          let told := { s with errors := s.errors ++ "✗ " ++ input ++ ": " ++ message ++ "\n" }
          let (s, failed) := told.processAll product out several rest
          (s, failed + 1)

/-- Make one product of all inputs. -/
def produce (tree : Tree) (settings : Settings) (product : Product) : Outcome :=
  match allPaths tree settings.inputs with
  | .error message =>
      ⟨1, "", "error: failed to resolve input file paths: " ++ message ++ "\n", tree⟩
  | .ok paths =>
      let compiled := paths.map fun path => (path, compileFile tree path)
      let (s, failed) := Session.processAll ⟨"", "", tree⟩ product settings.out
        (decide (1 < paths.length)) compiled
      if failed = 0 then ⟨0, s.output, s.errors, s.tree⟩
      else
        ⟨1, s.output,
          s.errors ++ "error: " ++ toString failed ++ " of " ++ toString paths.length
            ++ " config(s) failed\n",
          s.tree⟩

/-- Do what a request asks for. -/
def Request.run (tools : Tools) (tree : Tree) (r : Request) : Outcome :=
  if r.settings.noOp then ⟨0, "", r.shown ++ "\n", tree⟩
  else
    match r with
    | .solidity settings format =>
        produce tree settings (solidityProduct tools (format || settings.out.isSome))
    | .ops settings => produce tree settings opsProduct

/-- The name and version of the program. -/
def versionLine : String := "template-json 0.1.0\n"

/-- How the program is used. -/
def usageLine : String :=
  "Usage: <solidity|ops> --input <INPUT>... [--out <OUT>] [--format] [--no-op]\n"

/-- Run a command line; none if it is no proper one. -/
def run (tools : Tools) (tree : Tree) (args : List String) : Option Outcome :=
  match parse args with
  | .request r => some (r.run tools tree)
  | .version => some ⟨0, versionLine, "", tree⟩
  | .help => some ⟨0, usageLine, "", tree⟩
  | .misuse => none

end Stencil.CommandLine
