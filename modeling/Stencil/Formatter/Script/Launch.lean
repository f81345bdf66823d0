/-
  Stencil.Formatter.Script.Launch
  ───────────────────────────────
  Programs that run others.

  Some programs run a script, others take the name and the arguments of a
  program and run it: with other variables, with words from their input, or for
  all that they find in a directory.  Every other program is a command.
-/
import Stencil.Formatter.Command.Find
import Stencil.Formatter.Script.Batches
import Stencil.Formatter.Script.Builtin

namespace Stencil.Script

open Text (Byte)

/-! ## §1. Scripts as programs. -/

/-- Run a script as a program of its own. -/
def runAsProgram (r : Runner) (name : String) (source : List Char) (args : List String)
    (options : List Char) : Step := fun s =>
  let fresh := State.initial name args [] s.tree
  let seen := s.bindings.filter fun (n, _) => n ≠ "IFS" && s.exported.contains n
  let start := { fresh with
    line := 1
    bindings := seen ++ fresh.bindings.filter fun (n, _) =>
      !s.exported.contains n && n ≠ "NO_COLOR" && n ≠ "PATH"
    mask := s.mask
    exported := s.exported
    options
    directory := s.directory
    lanes := s.lanes
    sources := s.sources
    fileSources := s.fileSources
    written := s.written
    fresh := s.fresh
    process := s.process + 1 }
  let (t, flow) := r.text source start
  let t := if flow.outside = .on && flow ≠ .gone then atEnd r t else t
  let next := { s.afterApart t with pending := s.pending }
  match flow with
  | .killed n => ((next.write 2 (bytesOf (deathNotice n))).withStatus (128 + n), .on)
  | _ => (next, .on)

/-- Write a message and end with a status. -/
def endWith (name : String) (status : Nat) (message : String) : Step := fun s =>
  ((s.write 2 (bytesOf (name ++ ": " ++ message ++ "\n"))).withStatus status, .on)

/-- The advice behind a message about arguments. -/
def adviceFor (name : String) : String :=
  "\nTry '" ++ name ++ " --help' for more information."

/-- The letters of options before all other arguments, and the arguments. -/
def leadingLetters : List String → List Char × List String
  | "--" :: rest | "-" :: rest => ([], rest)
  | arg :: rest =>
      match arg.toList with
      | '-' :: c :: cs =>
          let (letters, args) := leadingLetters rest
          (c :: cs ++ letters, args)
      | _ => ([], arg :: rest)
  | [] => ([], [])

/-- Run a script that is given as text, in a file or on the input. -/
def runShell (r : Runner) (name : String) (args : List String) : Step := fun s =>
  let (letters, rest) := leadingLetters args
  let options := letters.filter fun l => l ≠ 'c' && l ≠ 's' && l ≠ 'i' && l ≠ 'l'
  let known := State.optionNames.map Prod.fst
  match options.find? (!known.contains ·), letters.contains 'c', rest with
  | some letter, _, _ => endWith name 2 ("0: Illegal option -" ++ letter.toString) s
  | none, true, [] => endWith name 2 "0: -c requires an argument" s
  | none, true, source :: rest =>
      runAsProgram r (rest.headD name) source.toList rest.tail options s
  | none, false, path :: rest =>
      if letters.contains 's' then
        runAsProgram r name (textOf (s.remaining 0)).toList (path :: rest) options
          (s.withRemaining 0 [])
      else
        match s.tree.read (Files.join s.directory (toUnicode path)) with
        | .ok content => runAsProgram r path (ofUnicode content).toList rest options s
        | .error _ => endWith name 2 ("0: cannot open " ++ path ++ ": No such file") s
  | none, false, [] =>
      runAsProgram r name (textOf (s.remaining 0)).toList [] options (s.withRemaining 0 [])

/-- What comes of a script that is given as text, with an input of its own. -/
def shellFor (r : Runner) (s : State) (script : String) (input : List Byte) (tree : Files.Tree) :
    Result :=
  let output := s.fresh
  let errors := s.fresh + 1
  let start := { s with
    tree
    lanes := [(1, .sink output), (2, .sink errors)]
    written := []
    fresh := s.fresh + 2 }.withSource 0 input
  let (t, _) := runAsProgram r "/bin/sh" script.toList [] [] start
  let written := t.written.reverse.filterMap fun (sink, bytes) =>
    if sink = output then some (Channel.output, bytes)
    else if sink = errors then some (Channel.errors, bytes)
    else none
  ⟨t.status, written, t.remaining 0, t.tree⟩

/-- What a command gets. -/
def callFor (r : Runner) (s : State) (name : String) (args : List String) : Call :=
  { name, args
    input := s.remaining 0
    fromFile := s.readsFile 0
    unreadable := if s.lane? 0 = some .directory then some .isDirectory else none
    tree := s.tree
    directory := s.directory
    environment := s.environment
    shell := shellFor r s }

/-- Run a command that leaves the state alone, apart from what it reads and
writes; `title` is what its messages start with. -/
def callCommand (runner : Runner) (command : Command) (title : String) (args : List String)
    (refused : String → Step) : Step := fun s =>
  let r := command (callFor runner s title args)
  let t := { s with tree := r.tree }.withRemaining 0 r.input
  let t := r.written.foldl
    (fun t (channel, bytes) => t.write (if channel = .output then 1 else 2) bytes) t
  let writes := r.written.any fun (channel, bytes) => channel = .output && !bytes.isEmpty
  let why := match s.lane? 1 with
    | none => some "Bad file descriptor"
    | some .full => some Files.Failure.noSpace.text
    | _ => none
  match if writes then why else none with
  | none => (t.withStatus r.status, .on)
  | some text => refused text t

/-- Run a command that is a program. -/
def callAsProgram (runner : Runner) (command : Command) (name : String) (args : List String) :
    Step :=
  callCommand runner command name args fun why s =>
    ((s.write 2 (bytesOf (name ++ ": write error: " ++ why ++ "\n"))).withStatus 1, .on)

/-- Run a command of the script itself. -/
def callAsOwn (runner : Runner) (command : Command) (name : String) (args : List String) :
    Step := fun s =>
  callCommand runner command s.title args
    (fun _ s => ((s.complain (name ++ ": I/O error")).withStatus 1, .on)) s

/-! ## §2. Programs that run another one. -/

/-- How to run a program. -/
abbrev Launcher := String → List String → Step

/-- The programs that run scripts. -/
def shellNames : List String := ["sh", "dash", "bash"]

/-- The programs that run another one as it is, with their options. -/
def wrapperOptions : List (String × List Known) :=
  [("nohup", []), ("setsid", [flag "c" "ctty", flag "f" "fork", flag "w" "wait"]),
   ("nice", [valued "n" "adjustment"]),
   ("stdbuf", [valued "i" "input", valued "o" "output", valued "e" "error"]),
   ("timeout", [valued "k" "kill-after", valued "s" "signal", flag "v" "verbose",
     flag "" "foreground", flag "" "preserve-status"])]

/-- The programs that run others. -/
def launcherNames : List String :=
  shellNames ++ wrapperOptions.map Prod.fst ++ ["env", "find", "printenv", "which", "xargs"]

/-- Is there a program of this name? -/
def isProgram (name : String) : Bool :=
  (program? name).isSome || launcherNames.contains (programName name)

/-- Run a program, or tell that there is none. -/
def launchOr (launch : Launcher) (message : String → String) (words : List String) : Step :=
  fun s =>
    match words with
    | [] => (s.withStatus 0, .on)
    | inner :: rest =>
        if isProgram inner then launch inner rest s
        else
          let text := message inner ++ ": No such file or directory\n"
          ((s.write 2 (bytesOf text)).withStatus 127, .on)

/-- Does a call sleep for longer than a time? -/
def outlasts (limit : String) (call : List String) : Bool :=
  match call.map programName, durationOf? limit, (call.drop 1).mapM durationOf? with
  | "sleep" :: _, some (n, d), some parts =>
      n ≠ 0 && parts.any fun (k, e) => decide (n * e < k * d)
  | _, _, _ => false

/-- Run another program as it is. -/
def runWrapped (launch : Launcher) (name : String) (known : List Known) (args : List String) :
    Step := fun s =>
  let isNumber (arg : String) : Bool := match arg.toList with
    | '-' :: c :: cs => (c :: cs).all Char.isDigit
    | _ => false
  let args := if name = "nice" && (args.head?.map isNumber).getD false then args.tail else args
  let missing (inner : String) : String :=
    if name = "nice" then "nice: " ++ quotedArg inner
    else if name = "setsid" then "setsid: failed to execute " ++ inner
    else name ++ ": failed to run command " ++ quotedArg inner
  match Options.ofArgs known false args with
  | .error fault => endWith name 125 (fault.message ++ adviceFor name) s
  | .ok o =>
      match name, o.operands with
      | "nice", [] => ((s.write 1 (bytesOf "0\n")).withStatus 0, .on)
      | "timeout", [] | "timeout", [_] =>
          let text := "Try 'timeout --help' for more information.\n"
          ((s.write 2 (bytesOf text)).withStatus 125, .on)
      | "timeout", limit :: call =>
          match durationOf? limit with
          | none =>
              endWith name 125 ("invalid time interval " ++ quotedArg limit ++ adviceFor name) s
          | some _ =>
              if outlasts limit call then (s.withStatus 124, .on)
              else launchOr launch missing call s
      | _, [] => endWith name 125 ("missing operand" ++ adviceFor name) s
      | _, call =>
          if name = "stdbuf" && o.flags.isEmpty then
            endWith name 125 ("you must specify a buffering mode option" ++ adviceFor name) s
          else launchOr launch missing call s

/-- The variables that other programs see, one a line. -/
def exportedLines (s : State) (ending : Byte) : List Byte :=
  s.environment.flatMap fun (name, value) => bytesOf (name ++ "=" ++ value) ++ [ending]

/-- Run a program with other variables, or tell the variables. -/
def runWithVariables (launch : Launcher) (args : List String) : Step := fun s =>
  let known := [flag "i" "ignore-environment", flag "0" "null", valued "u" "unset",
    valued "C" "chdir", flag "v" "debug"]
  let args := if args.head? = some "-" then "-i" :: args.tail else args
  match Options.ofArgs known false args with
  | .error fault => endWith "env" 125 (fault.message ++ adviceFor "env") s
  | .ok o =>
      let start := if o.has "i" then { s with exported := [] } else s
      let start := (o.values "u").foldl
        (fun t name => { t with exported := t.exported.filter (· != name) }) start
      let settings := o.operands.takeWhile fun a => a.toList.contains '='
      let set := settings.foldl
        (fun t arg =>
          match assignedArg arg with
          | (n, some value) => { t.set n value with exported := n :: t.exported }
          | (_, none) => t)
        start
      let back (result : State × Flow) : State × Flow :=
        ({ result.1 with
          bindings := s.bindings
          exported := s.exported
          directory := s.directory }, result.2)
      match o.value? "C", o.operands.drop settings.length with
      | _, [] =>
          let ending : Byte := if o.has "0" then 0 else lineFeed
          ((s.write 1 (exportedLines set ending)).withStatus 0, .on)
      | place, call =>
          let set := match place with
            | some text => { set with directory := Files.join s.directory (toUnicode text) }
            | none => set
          back (launchOr launch (fun inner => "env: " ++ quotedArg inner) call set)

/-- Tell the values of variables that other programs see. -/
def tellVariables (names : List String) : Step := fun s =>
  if names.isEmpty then ((s.write 1 (exportedLines s lineFeed)).withStatus 0, .on)
  else
    let values := names.filterMap fun n =>
      if s.exported.contains n then s.value? n else none
    let lines := values.flatMap fun v => bytesOf (v ++ "\n")
    ((s.write 1 lines).withStatus (if values.length = names.length then 0 else 1), .on)

/-- Tell where programs are. -/
def tellPlaces (names : List String) : Step := fun s =>
  let found := names.filter isProgram
  let lines := found.flatMap fun n =>
    bytesOf (if programName n = n then "/usr/bin/" ++ n ++ "\n" else n ++ "\n")
  ((s.write 1 lines).withStatus
    (if found.length = names.length && !names.isEmpty then 0 else 1), .on)

/-! ## §3. Calls one after the other. -/

/-- Run calls one after the other; a failure shows in the status. -/
def runCalls (launch : Launcher) (told : Bool) : List (List String) → Step
  | [], s => (s.withStatus 0, .on)
  | call :: rest, s =>
      let s := if told then s.write 2 (bytesOf (toldCall call)) else s
      let name := call.headD ""
      let (t, _) := launchOr launch ("xargs: " ++ ·) call s
      if !isProgram name then (t, .on)
      else if t.status = 255 then
        endWith "xargs" 124 (name ++ ": exited with status 255; aborting") t
      else
        let (u, flow) := runCalls launch told rest t
        (if t.status = 0 || u.status ≠ 0 then u else u.withStatus 123, flow)

/-- Run a program with words from the input. -/
def runOnWords (launch : Launcher) (args : List String) : Step := fun s =>
  match Options.ofArgs xargsOptions false args with
  | .error fault => endWith "xargs" 1 (fault.message ++ adviceFor "xargs") s
  | .ok o =>
      let source : Except (String × Files.Failure) (List Byte × State) := match o.value? "a" with
        | none => .ok (s.remaining 0, s.withRemaining 0 [])
        | some path =>
            ((s.tree.read (Files.join s.directory (toUnicode path))).map fun text =>
              (Text.toBytes text, s)).mapError fun failure => (path, failure)
      match source with
      | .error (path, failure) =>
          endWith "xargs" 1 ("Cannot open input file " ++ quotedArg path ++ ": " ++ failure.text) s
      | .ok (input, t) =>
          match batchPlan o input with
          | .error message =>
              let advice := if (batchNumber o "n").isOk && (batchNumber o "L").isOk
                  && (batchNumber o "s").isOk then ""
                else adviceFor "xargs"
              endWith "xargs" 1 (message ++ advice) t
          | .ok plan => runCalls launch plan.told plan.calls t

/-- Do what a search asks for. -/
def runActs (launch : Launcher) : List FindAct → Step
  | [], s => (s, .on)
  | act :: rest, s =>
      let next := match act with
        | .tell bytes => s.write 1 bytes
        | .call words => (launchOr launch (fun inner => "find: " ++ quotedArg inner) words s).1
        | .gather _ _ => s
        | .remove path =>
            match s.tree.place (Files.join s.directory (toUnicode path)) with
            | .ok place => { s with tree := (s.tree.erase place).eraseDirectory place }
            | .error _ => s
      runActs launch rest next

/-- Run a search. -/
def runFind (r : Runner) (launch : Launcher) (args : List String) : Step := fun s =>
  match findPlan (callFor r s "find" args) with
  | .error message => endWith "find" 1 message s
  | .ok (acts, messages, status) =>
      let s := messages.foldl (fun s (_, bytes) => s.write 2 bytes) s
      let (t, _) := runActs launch acts s
      let (u, _) := (gatheredCalls acts).foldl
        (fun (t, _) call => launchOr launch (fun inner => "find: " ++ quotedArg inner) call t)
        (t, Flow.on)
      (u.withStatus status, .on)

/-! ## §4. All programs. -/

/-- Run a program by its name; some programs run others. -/
def callProgram (r : Runner) : Nat → String → List String → Step
  | 0, name, _ => notFound name
  | fuel + 1, name, args => fun s =>
      let launch : Launcher := callProgram r fuel
      let short := programName name
      if shellNames.contains short then runShell r name args s
      else
        match short, wrapperOptions.lookup short, program? name with
        | "env", _, _ => runWithVariables launch args s
        | "xargs", _, _ => runOnWords launch args s
        | "find", _, _ => runFind r launch args s
        | "printenv", _, _ => tellVariables args s
        | "which", _, _ => tellPlaces args s
        | "kill", _, _ => kill args s
        | _, some known, _ => runWrapped launch short known args s
        | _, none, some command => callAsProgram r command name args s
        | _, none, none => notFound name s

end Stencil.Script
