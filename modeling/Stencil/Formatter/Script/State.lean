/-
  Stencil.Formatter.Script.State
  ──────────────────────────────
  What a running script has come to.

  A script reads and writes through numbered lanes.  What is written to a sink
  is kept in order, and what is left to read of a source is kept by its number,
  so that two lanes may share one of them.  Sink zero is the output of the
  script itself, sink one its error output; other sinks are what pipes and
  scripts inside of words write to.
-/
import Stencil.Formatter
import Stencil.Formatter.Arithmetic
import Stencil.Formatter.Script.Reader

namespace Stencil.Script

open Text (Byte)

/-- Where a lane leads to. -/
inductive Lane where
  /-- To a sink. -/
  | sink (n : Nat)
  /-- From a source. -/
  | source (n : Nat)
  /-- To the end of a file. -/
  | file (place : List String)
  /-- Nowhere. -/
  | nowhere
  /-- To where there is no room. -/
  | full
  /-- From a directory, which cannot be read. -/
  | directory
  deriving Repr, DecidableEq

/-- How a script goes on. -/
inductive Flow where
  /-- With what follows. -/
  | on
  /-- Behind so many loops. -/
  | leave (loops : Nat)
  /-- With the next round of the outermost of so many loops. -/
  | next (loops : Nat)
  /-- Behind the function. -/
  | back
  /-- Not at all. -/
  | exit
  /-- Not at all, and nothing is done at the end: another program took over. -/
  | gone
  /-- Not at all, because of a signal. -/
  | killed (signal : Nat)
  deriving Repr, DecidableEq

/-- What a script has come to. -/
structure State where
  /-- The name it goes by. -/
  name : String
  /-- The line that messages tell. -/
  line : Nat
  /-- The command of the script itself that messages tell, or the file it runs; empty
  if there is none. -/
  command : String
  /-- The arguments. -/
  args : List String
  /-- The values of variables; the first entry of a name counts. -/
  bindings : Bindings
  /-- The variables that keep their value. -/
  fixed : List String
  /-- The variables that other programs see. -/
  exported : List String
  /-- The scripts that have a name. -/
  functions : List (String × Script)
  /-- The other names of commands, newest first. -/
  aliases : List (String × String)
  /-- The permissions that new files do not get. -/
  mask : Nat
  /-- What is done about signals, by their numbers; zero is the end. -/
  traps : List (Nat × List Char)
  /-- The options that are set. -/
  options : List Char
  /-- The status of the last command. -/
  status : Nat
  /-- Where relative paths start. -/
  directory : String
  /-- The files. -/
  tree : Files.Tree
  /-- Where lanes lead to; the first entry of a lane counts. -/
  lanes : List (Nat × Lane)
  /-- What is left of sources. -/
  sources : List (Nat × List Byte)
  /-- The sources that are files. -/
  fileSources : List Nat
  /-- What was written to sinks, newest first. -/
  written : List (Nat × List Byte)
  /-- A number that no sink and no source has yet. -/
  fresh : Nat
  /-- How many scripts on their own this one is inside of. -/
  depth : Nat
  /-- How many loops this is inside of. -/
  loops : Nat
  /-- How many functions this is inside of. -/
  calls : Nat
  /-- Signals that came and were not yet looked at. -/
  pending : List Nat
  /-- The status of the last script that ran beside. -/
  beside : Nat
  /-- What variables were before they became local, newest first. -/
  saved : List (String × Option String)
  /-- Could a word not be expanded? -/
  fault : Bool
  /-- Is a failure expected here? -/
  lenient : Bool
  /-- The number of the process. -/
  process : Nat
  /-- Where the last option was found: the number of the argument, and how many of
  its characters were passed. -/
  optionPlace : Nat × Nat

/-- A step of a script. -/
abbrev Step := State → State × Flow

namespace State

/-! ## §1. Variables. -/

/-- Set the status. -/
def withStatus (s : State) (status : Nat) : State :=
  { s with status }

/-- The value of a variable, if it has one. -/
def value? (s : State) (name : String) : Option String :=
  s.bindings.lookup name

/-- Take a variable away. -/
def unset (s : State) (name : String) : State :=
  { s with bindings := s.bindings.filter fun (n, _) => n != name }

/-- The options with a letter and a long name. -/
def optionNames : List (Char × String) :=
  [('e', "errexit"), ('f', "noglob"), ('I', "ignoreeof"), ('i', "interactive"), ('m', "monitor"),
   ('n', "noexec"), ('s', "stdin"), ('x', "xtrace"), ('v', "verbose"), ('V', "vi"),
   ('E', "emacs"), ('C', "noclobber"), ('a', "allexport"), ('b', "notify"), ('u', "nounset"),
   ('p', "privileged")]

/-- The number of the process that ran beside. -/
def besideProcess : String := "2000"

/-- The value of a parameter, if it is set. -/
def parameter? (s : State) (name : String) : Option String :=
  if name = "?" then some (toString s.status)
  else if name = "#" then some (toString s.args.length)
  else if name = "$" then some (toString s.process)
  else if name = "!" then some besideProcess
  else if name = "-" then
    some (String.ofList ((optionNames.map Prod.fst).reverse.filter s.options.contains))
  else if !name.isEmpty && name.toList.all Char.isDigit then
    let n := (readDigits 10 name.toList).1
    if n = 0 then some s.name else s.args[n - 1]?
  else s.value? name

/-- The variables that other programs see, with their values. -/
def environment (s : State) : List (String × String) :=
  (s.exported.reverse.eraseDups).filterMap fun name =>
    (s.value? name).map fun value => (name, value)

/-- The characters that separate words. -/
def separators (s : State) : List Char :=
  ((s.value? "IFS").getD " \t\n").toList

/-- Is an option set? -/
def hasOption (s : State) (letter : Char) : Bool :=
  s.options.contains letter

/-! ## §2. Lanes. -/

/-- Where a lane leads to. -/
def lane? (s : State) (n : Nat) : Option Lane :=
  s.lanes.lookup n

/-- Let a lane lead somewhere. -/
def withLane (s : State) (n : Nat) (lane : Lane) : State :=
  { s with lanes := (n, lane) :: s.lanes.filter fun (k, _) => k != n }

/-- Close a lane. -/
def withoutLane (s : State) (n : Nat) : State :=
  { s with lanes := s.lanes.filter fun (k, _) => k != n }

/-- A new source. -/
def withSource (s : State) (lane : Nat) (bytes : List Byte) : State :=
  { s.withLane lane (.source s.fresh) with
    sources := (s.fresh, bytes) :: s.sources
    fresh := s.fresh + 1 }

/-- A new source that is a file. -/
def withFileSource (s : State) (lane : Nat) (bytes : List Byte) : State :=
  { s.withSource lane bytes with fileSources := s.fresh :: s.fileSources }

/-- Does a lane lead from a file? -/
def readsFile (s : State) (lane : Nat) : Bool :=
  match s.lane? lane with
  | some (.source n) => s.fileSources.contains n
  | _ => false

/-- Write to a lane. -/
def write (s : State) (lane : Nat) (bytes : List Byte) : State :=
  if bytes.isEmpty then s
  else
    match s.lane? lane with
    | some (.sink n) => { s with written := (n, bytes) :: s.written }
    | some (.file place) =>
        let before := (s.tree.file? place).getD ""
        { s with tree := s.tree.put place (before ++ Text.decodeLenient bytes) }
    | _ => s

/-- What is left to read of a lane. -/
def remaining (s : State) (lane : Nat) : List Byte :=
  match s.lane? lane with
  | some (.source n) => (s.sources.lookup n).getD []
  | _ => []

/-- Leave something to read of a lane. -/
def withRemaining (s : State) (lane : Nat) (bytes : List Byte) : State :=
  match s.lane? lane with
  | some (.source n) =>
      { s with sources := (n, bytes) :: s.sources.filter fun (k, _) => k != n }
  | _ => s

/-- What was written to a sink. -/
def collected (s : State) (sink : Nat) : List Byte :=
  (s.written.reverse.filterMap fun (n, bytes) => if n = sink then some bytes else none).flatten

/-- Forget what was written to a sink. -/
def withoutSink (s : State) (sink : Nat) : State :=
  { s with written := s.written.filter fun (n, _) => n != sink }

/-- What messages about errors start with. -/
def title (s : State) : String :=
  s.name ++ ": " ++ toString s.line ++ (if s.command = "" then "" else ": " ++ s.command)

/-- Write a message about an error. -/
def complain (s : State) (message : String) : State :=
  s.write 2 (bytesOf (s.title ++ ": " ++ message ++ "\n"))

/-- Write a message about an error after which a command cannot go on. -/
def abort (s : State) (message : String) : State :=
  { s.complain message with fault := true }

/-- Set a variable, unless it keeps its value. -/
def set (s : State) (name value : String) : State :=
  if s.fixed.contains name then s.abort (name ++ ": is read only")
  else
    { s with
      bindings := (name, value) :: (s.unset name).bindings
      exported := if s.hasOption 'a' then name :: s.exported else s.exported }

/-- Make a variable what it was. -/
def restore (s : State) (name : String) : Option String → State
  | some value => s.set name value
  | none => s.unset name

/-- What counts of another script that ran on its own: what it read and wrote,
and its status. -/
def afterApart (s t : State) : State :=
  { s with
    status := t.status
    tree := t.tree
    sources := t.sources
    fileSources := t.fileSources
    written := t.written
    fresh := t.fresh
    pending := t.pending }

/-- The state that a script starts in. -/
def initial (name : String) (args : List String) (input : List Byte) (tree : Files.Tree) :
    State :=
  { name
    line := 2
    command := ""
    args
    bindings := [("IFS", " \t\n"), ("NO_COLOR", "1"), ("OPTIND", "1"), ("PS1", "$ "),
      ("PS2", "> "), ("PS4", "+ ")]
    fixed := []
    exported := ["NO_COLOR"]
    functions := []
    aliases := []
    mask := 18
    traps := []
    options := []
    status := 0
    directory := ""
    tree
    lanes := [(0, .source 0), (1, .sink 0), (2, .sink 1)]
    sources := [(0, input)]
    fileSources := []
    written := []
    fresh := 2
    depth := 0
    loops := 0
    calls := 0
    pending := []
    beside := 0
    saved := []
    fault := false
    lenient := false
    process := 1000
    optionPlace := (1, 0) }

end State

/-- A signal ends a script also from a place where nothing else does. -/
def Flow.outside : Flow → Flow
  | killed signal => killed signal
  | _ => on

end Stencil.Script
