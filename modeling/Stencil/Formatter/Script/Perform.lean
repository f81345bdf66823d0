/-
  Stencil.Formatter.Script.Perform
  ────────────────────────────────
  What the first word of a command stands for.

  A command that no function takes the place of comes first, then functions,
  then the other commands that scripts know by themselves, and last programs.
-/
import Stencil.Formatter.Script.Launch

namespace Stencil.Script

open Text (Byte)

/-! ## §1. Functions and names. -/

/-- How many functions may run inside of one another. -/
def callLimit : Nat := 1000

/-- Call a function. -/
def callFunction (r : Runner) (body : Script) (args : List String) : Step := fun s =>
  if callLimit ≤ s.calls then
    ((s.complain "Maximum function recursion depth (1000) reached").withStatus 2, .exit)
  else
    let (t, flow) := r.script body { s with args, calls := s.calls + 1, loops := 0 }
    let locals := t.saved.take (t.saved.length - s.saved.length)
    let u := locals.foldl (fun u (name, value) => u.restore name value) t
    ({ u with args := s.args, calls := s.calls, loops := s.loops, saved := s.saved },
      if flow = .back then .on else flow)

/-- The commands that scripts know by themselves. -/
def ownNames : List String :=
  [".", ":", "[", "alias", "bg", "break", "cd", "chdir", "command", "continue", "echo", "eval",
   "exec", "exit", "export", "false", "fg", "getopts", "hash", "jobs", "kill", "local", "printf",
   "pwd", "read", "readonly", "return", "set", "shift", "test", "times", "trap", "true", "type",
   "ulimit", "umask", "unalias", "unset", "wait"]

/-- What a name stands for, in words or as it would be called. -/
def meaning? (s : State) (wordy : Bool) (name : String) : Option String :=
  let path := if programName name = name then "/usr/bin/" ++ name else name
  if reservedWords.contains name then
    some (if wordy then name ++ " is a shell keyword" else name)
  else
    match s.aliases.lookup name with
    | some value =>
        some (if wordy then name ++ " is an alias for " ++ value
          else "alias " ++ name ++ "=" ++ inQuotes value)
    | none =>
        if (s.functions.lookup name).isSome then
          some (if wordy then name ++ " is a shell function" else name)
        else if ownNames.contains name then
          let kind := if specialNames.contains name then "special " else ""
          some (if wordy then name ++ " is a " ++ kind ++ "shell builtin" else name)
        else if isProgram name then some (if wordy then name ++ " is " ++ path else path)
        else none

/-- Tell what names stand for. -/
def lookUp (wordy : Bool) (names : List String) : Step := fun s =>
  let tell (state : State × Nat) (name : String) : State × Nat :=
    let (s, status) := state
    match meaning? s wordy name with
    | some text => (s.write 1 (bytesOf (text ++ "\n")), status)
    | none => (if wordy then s.write 1 (bytesOf (name ++ ": not found\n")) else s, 127)
  let (t, status) := names.foldl tell (s, 0)
  (t.withStatus status, .on)

/-- Look for programs. -/
def seek (names : List String) : Step := fun s =>
  let one (s : State) (name : String) : State :=
    if isProgram name || ownNames.contains name || (s.functions.lookup name).isSome then s
    else (s.complain (name ++ ": not found")).withStatus 1
  ((names.filter (· != "-r")).foldl one (s.withStatus 0), .on)

/-- Run a text; one without a command is a success. -/
def runText (r : Runner) (source : List Char) : Step := fun s =>
  if ofText s.line source = nothing then (s.withStatus 0, .on) else r.text source s

/-- Run the text of a file. -/
def runFile (r : Runner) (args : List String) : Step := withOwn "" "" args fun _ operands s =>
  match operands with
  | [] => (s.withStatus 0, .on)
  | path :: _ =>
      if !path.toList.contains '/' then (s.abort (path ++ ": not found"), .on)
      else
        match s.tree.read (Files.join s.directory (toUnicode path)) with
        | .error _ => (s.abort ("cannot open " ++ path ++ ": No such file"), .on)
        | .ok content =>
            let start := { s with line := 1, command := path }
            let (t, flow) := runText r (ofUnicode content).toList start
            ({ t with line := s.line }, if flow = .back then .on else flow)

/-! ## §2. Commands. -/

/-- Run a command of the script itself, which messages tell; where it cannot go on,
neither can the script if it is a special one. -/
def asOwn (special : Bool) (name : String) (step : Step) : Step := fun s =>
  let (t, flow) := step { s with command := name }
  let t := { t with command := s.command }
  if t.fault then ({ t with fault := false, status := 2 }, if special then .exit else .on)
  else (t, flow)

/-- The commands that change the state. -/
def changing? (r : Runner) (name : String) (args : List String) : Option Step :=
  match name with
  | ":" => some fun s => (s.withStatus 0, .on)
  | "." => some (runFile r args)
  | "break" => some (leaveLoops .leave args)
  | "continue" => some (leaveLoops .next args)
  | "eval" => some (runText r (" ".intercalate args).toList)
  | "exec" => some fun s =>
      match args with
      | [] => (s.withStatus 0, .on)
      | name :: args => ((callProgram r 10 name args s).1, .gone)
  | "exit" => some (leaveWith .exit args)
  | "return" => some (leaveWith .back args)
  | "export" =>
      some (eachVariable name State.exported
        (fun s n => { s with exported := n :: s.exported }) args)
  | "readonly" =>
      some (eachVariable name State.fixed (fun s n => { s with fixed := n :: s.fixed }) args)
  | "set" => some (setAll args)
  | "shift" => some (shift args)
  | "trap" => some (trap args)
  | "unset" => some (unsetAll args)
  | "times" => some fun s =>
      ((s.write 1 (bytesOf "0m0.000000s 0m0.000000s\n0m0.000000s 0m0.000000s\n")).withStatus 0, .on)
  | "local" => some (makeLocal args)
  | "kill" => some (kill args)
  | "read" => some (readLine args)
  | "getopts" => some (nextOption args)
  | "cd" | "chdir" => some (changeDirectory args)
  | "pwd" => some (tellDirectory args)
  | "type" => some (lookUp true args)
  | "umask" => some (setMask args)
  | "wait" => some (waitFor args)
  | "alias" => some (setAliases args)
  | "unalias" => some (unsetAliases args)
  | "jobs" => some (tellJobs args)
  | "fg" | "bg" => some fun s => (s.abort "No current job", .on)
  | "hash" => some (seek args)
  | "ulimit" => some (tellBounds args)
  | _ => none

/-- Run a command that is no function; `special` tells whether its faults may end
the script. -/
def performOwn (r : Runner) (special : Bool) (name : String) (args : List String) : Step :=
  match changing? r name args, ownCommands.lookup name with
  | some step, _ => asOwn (special && specialNames.contains name) name step
  | none, some command => asOwn false name (callAsOwn r command name args)
  | none, none => callProgram r 10 name args

/-- Run a command past functions, or tell what it stands for. -/
def runCommand (r : Runner) (args : List String) : Step := fun s =>
  match ownOptions "pvV" "" args with
  | .error message => asOwn false "command" (fun s => (s.abort message, .on)) s
  | .ok (options, operands) =>
      match options.find? fun (letter, _) => letter ≠ 'p', operands with
      | some (letter, _), names => lookUp (letter = 'V') (names.take 1) s
      | none, [] => (s.withStatus 0, .on)
      | none, name :: args => performOwn r false name args s

/-- Run the command that words stand for. -/
def perform (r : Runner) (name : String) (args : List String) : Step := fun s =>
  match s.functions.lookup name with
  | some body =>
      if specialNames.contains name then performOwn r true name args s
      else callFunction r body args s
  | none => if name = "command" then runCommand r args s else performOwn r true name args s

end Stencil.Script
