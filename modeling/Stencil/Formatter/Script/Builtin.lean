/-
  Stencil.Formatter.Script.Builtin
  ────────────────────────────────
  Commands that change the state of a script.

  They set variables and options, read lines, send signals and say what is done
  about them, leave loops, functions and the script, and run scripts given as
  text.  Every other command is called with what it needs, and leaves behind
  what it wrote.
-/
import Stencil.Formatter.Script.Expansion

namespace Stencil.Script

open Text (Byte)

/-- How scripts are run: given as text, or as they are. -/
structure Runner where
  /-- Run a text. -/
  text : List Char → Step
  /-- Run a script. -/
  script : Script → Step

/-! ## §1. Arguments. -/

/-- Options from the letters of an argument; the last one may want a value that
does not stand here. -/
def ownLetters (plain valued : String) : List Char → Except String (List (Char × Option String))
  | [] => .ok []
  | c :: cs =>
      if plain.toList.contains c then (ownLetters plain valued cs).map ((c, some "") :: ·)
      else if valued.toList.contains c then
        .ok [(c, if cs.isEmpty then none else some (String.ofList cs))]
      else .error ("Illegal option -" ++ c.toString)

/-- The options before all other arguments, some of which have a value, and the
other arguments. -/
def ownOptions (plain valued : String) (args : List String) :
    Except String (List (Char × String) × List String) :=
  match args with
  | [] => .ok ([], [])
  | "--" :: rest => .ok ([], rest)
  | arg :: rest =>
      match arg.toList with
      | '-' :: c :: cs => do
          let found ← ownLetters plain valued (c :: cs)
          let given := found.filterMap fun (letter, value) => value.map (letter, ·)
          match found.find? fun (_, value) => value.isNone, rest with
          | some (letter, _), [] => throw ("No arg for -" ++ letter.toString ++ " option")
          | some (letter, _), value :: rest =>
              let (more, operands) ← ownOptions plain valued rest
              return (given ++ (letter, value) :: more, operands)
          | none, rest =>
              let (more, operands) ← ownOptions plain valued rest
              return (given ++ more, operands)
      | _ => .ok ([], args)
termination_by args.length

/-- Run a step with the options of a command and its other arguments. -/
def withOwn (plain valued : String) (args : List String)
    (run : List (Char × String) → List String → Step) : Step := fun s =>
  match ownOptions plain valued args with
  | .error message => (s.abort message, .on)
  | .ok (options, operands) => run options operands s

/-- A number that a command takes. -/
def ownNumber? (text : String) : Option Nat :=
  match wholeNumber? text with
  | some n => if 0 ≤ n && n ≤ 0x7fffffff then some n.toNat else none
  | none => none

/-- Run a step with a number. -/
def withNumber (text : String) (run : Nat → Step) : Step := fun s =>
  match ownNumber? text with
  | some n => run n s
  | none => (s.abort ("Illegal number: " ++ text), .on)

/-- A text in single quotes, with runs of single quotes in double ones. -/
def inQuotes (text : String) : String :=
  let pieces := text.toList.splitBy fun a b => (a = '\x27') = (b = '\x27')
  let shown (piece : List Char) : String :=
    if piece.head? = some '\x27' then "\"" ++ String.ofList piece ++ "\""
    else "'" ++ String.ofList piece ++ "'"
  (if text = "" || text.toList.head? = some '\x27' then "''" else "")
    ++ String.join (pieces.map shown)

/-! ## §2. Signals. -/

/-- The signals that do not end a process. -/
def harmlessSignals : List Nat := [0, 17, 18, 23, 28]

/-- The signals about which nothing can be done. -/
def stubbornSignals : List Nat := [9, 19]

/-- The number of signals, with zero for the end. -/
def signalCount : Nat := 65

/-- The name of a signal in scripts; zero is the end. -/
def signalName (n : Nat) : String :=
  if n = 0 then "EXIT"
  else if n = 34 then "RTMIN"
  else if n = 64 then "RTMAX"
  else if 50 ≤ n then "RTMAX-" ++ toString (64 - n)
  else if 35 ≤ n then "RTMIN+" ++ toString (n - 34)
  else if n = 16 then "16"
  else (signalNames[n - 1]?).getD (toString n)

/-- A signal by its number or its name; the names start with that of the least. -/
def signalOf? (least : Nat) (text : String) : Option Nat :=
  let name := String.ofList (text.toList.map Char.toUpper)
  match readDigits 10 text.toList with
  | (n, true) => if n < signalCount then some n else none
  | (_, false) => (List.range signalCount).find? fun n => least ≤ n && signalName n == name

/-- How `kill` is used. -/
def killUsage : String :=
  "Usage: kill [-s sigspec | -signum | -sigspec] [pid | job]... or\nkill -l [exitstatus]"

/-- Send a signal to processes one after the other. -/
def sendEach (signal : Nat) : List String → Step
  | [], s => (s, .on)
  | target :: rest, s =>
      let digits := if target.toList.head? = some '-' then String.ofList target.toList.tail
        else target
      if target.toList.head? = some '%' then (s.abort ("No such job: " ++ target), .on)
      else
        withNumber digits (fun _ s =>
          let next := if target = toString s.process then
              { s with pending := s.pending ++ [signal] }
            else if target = State.besideProcess then s
            else (s.complain "No such process\n").withStatus 1
          sendEach signal rest next) s

/-- Tell the names of signals. -/
def tellSignals (args : List String) : Step := fun s =>
  let tell (names : List String) : State × Flow :=
    ((s.write 1 (bytesOf (String.join (names.map (· ++ "\n"))))).withStatus 0, .on)
  match args with
  | [] => tell ("0" :: ((List.range signalCount).drop 1).map signalName)
  | code :: _ =>
      withNumber code (fun n s =>
        let n := if 128 < n then n - 128 else n
        if 0 < n && n < signalCount then tell [signalName n]
        else (s.abort ("invalid signal number or exit status: " ++ code), .on)) s

/-- Send a signal. -/
def kill (args : List String) : Step := fun s =>
  let send (signal : Nat) (targets : List String) : State × Flow :=
    if targets.isEmpty then (s.abort killUsage, .on)
    else sendEach signal targets (s.withStatus 0)
  match args with
  | [] => (s.abort killUsage, .on)
  | first :: rest =>
      let named := match first.toList with
        | '-' :: name => signalOf? 1 (String.ofList name)
        | _ => none
      match named with
      | some signal => send signal rest
      | none =>
          withOwn "l" "s" args (fun options targets s =>
            match options.find? fun (letter, _) => letter = 's' with
            | some (_, text) =>
                match signalOf? 1 text with
                | some signal => send signal targets
                | none => (s.abort ("invalid signal number or name: " ++ text), .on)
            | none => if options.isEmpty then send 15 targets else tellSignals targets s) s

/-- Say what is done about signals one after the other. -/
def trapEach (action : Option String) : List String → Step
  | [], s => (s.withStatus 0, .on)
  | signal :: rest, s =>
      match signalOf? 0 signal with
      | none =>
          ((s.write 2 (bytesOf ("trap: " ++ signal ++ ": bad trap\n"))).withStatus 1, .on)
      | some n =>
          let others := s.traps.filter fun (k, _) => k != n
          let own := action.toList.map fun text => (n, text.toList)
          trapEach action rest { s with traps := own ++ others }

/-- Say what is done about signals, or tell what is. -/
def trap (args : List String) : Step := withOwn "" "" args fun _ operands s =>
  match operands with
  | [] =>
      let lines := (List.range signalCount).filterMap fun n =>
        (s.traps.lookup n).map fun action =>
          "trap -- " ++ inQuotes (String.ofList action) ++ " " ++ signalName n ++ "\n"
      ((s.write 1 (bytesOf (String.join lines))).withStatus 0, .on)
  | [signal] => trapEach none [signal] s
  | action :: signals =>
      if (readDigits 10 action.toList).2 && (signalOf? 0 action).isSome then
        trapEach none operands s
      else trapEach (if action = "-" then none else some action) signals s

/-- Look at the signals that came: what is said about one is done, or else it
ends the script. -/
def deliver (r : Runner) : List Nat → Step
  | [], s => (s, .on)
  | n :: rest, s =>
      let goOn (s : State) : State × Flow := deliver r rest s
      match if stubbornSignals.contains n then none else s.traps.lookup n with
      | some [] => goOn s
      | some action =>
          match r.text action s with
          | (t, .on) => goOn (t.withStatus s.status)
          | stopped => stopped
      | none => if harmlessSignals.contains n then goOn s else (s, .killed n)

/-- Look at signals after a step of the script itself. -/
def watched (r : Runner) (step : Step) : Step := fun s =>
  match step s with
  | (t, .on) =>
      if t.depth = 0 && !t.pending.isEmpty then deliver r t.pending { t with pending := [] }
      else (t, .on)
  | stopped => stopped

/-- Do what is said about the end. -/
def atEnd (r : Runner) (s : State) : State :=
  match s.traps.lookup 0 with
  | none | some [] => s
  | some action =>
      match r.text action { s with traps := s.traps.filter fun (k, _) => k != 0 } with
      | (t, .exit) => t
      | (t, _) => t.withStatus s.status

/-- How a process killed by a signal is told. -/
def deathNotice (signal : Nat) : String :=
  match [(1, "Hangup"), (3, "Quit"), (4, "Illegal instruction"), (6, "Aborted"), (9, "Killed"),
      (11, "Segmentation fault"), (14, "Alarm clock"), (15, "Terminated")].lookup signal with
  | some text => text ++ "\n"
  | none => if signal = 2 || signal = 13 then "" else "Signal " ++ toString signal ++ "\n"

/-! ## §3. Leaving. -/

/-- Leave with a status. -/
def leaveWith (flow : Flow) (args : List String) : Step := fun s =>
  match args with
  | [] => (s, flow)
  | text :: _ =>
      withNumber text (fun n s =>
        (s.withStatus (if flow = .exit then n % 256 else n), flow)) s

/-- Leave loops, or go on with the next round; outside of loops, do nothing. -/
def leaveLoops (make : Nat → Flow) (args : List String) : Step := fun s =>
  let text := args.headD "1"
  match ownNumber? text with
  | none | some 0 => (s.abort ("Illegal number: " ++ text), .on)
  | some n =>
      if s.loops = 0 then (s.withStatus 0, .on) else (s.withStatus 0, make (min n s.loops))

/-! ## §4. Reading. -/

/-- A line with its backslashes resolved, and what is left of the input; the
flag tells whether the line has an end. -/
def readLetters (raw : Bool) : List Byte → List Letter × List Byte × Bool
  | [] => ([], [], false)
  | b :: bs =>
      let c := Char.ofNat b.toNat
      if b = lineFeed then ([], bs, true)
      else if b = 92 && !raw then
        match bs with
        | [] => ([], [], false)
        | e :: rest =>
            let (letters, left, ended) := readLetters raw rest
            (if e = lineFeed then letters else ⟨Char.ofNat e.toNat, true⟩ :: letters, left, ended)
      else
        let (letters, left, ended) := readLetters raw bs
        (⟨c, false⟩ :: letters, left, ended)

/-- Does the letter separate words? -/
def separatesWords (separators : List Char) (l : Letter) : Bool :=
  !l.quoted && separators.contains l.char

/-- Does the letter separate words as a blank does? -/
def separatesAsBlank (separators : List Char) (l : Letter) : Bool :=
  separatesWords separators l && Fields.isBlank l.char

/-- Set a variable by the name that an argument gives. -/
def assign (s : State) (name value : String) : State :=
  if isName name.toList then s.set name value else s.abort (name ++ ": bad variable name")

/-- Give the words of a line to variables, the rest of it to the last one. -/
def giveWords (separators : List Char) (s : State) : List String → List Letter → State
  | [], _ => s
  | [name], line =>
      let value := (line.reverse.dropWhile (separatesAsBlank separators)).reverse
      let words := value.filter (separatesWords separators)
      let value := if words.length = 1 && value.getLast?.any (separatesWords separators) then
          value.dropLast
        else value
      assign s name (lettersText value)
  | name :: names, line =>
      let word := line.takeWhile fun l => !separatesWords separators l
      let rest := (line.drop word.length).dropWhile (separatesAsBlank separators)
      let rest := match rest with
        | l :: more =>
            if separatesWords separators l then more.dropWhile (separatesAsBlank separators)
            else rest
        | [] => []
      let next := assign s name (lettersText word)
      if next.fault then next else giveWords separators next names rest

/-- Read a line into variables. -/
def readLine (args : List String) : Step := withOwn "r" "p" args fun options names s =>
  let raw := options.any fun (letter, _) => letter = 'r'
  let (letters, left, ended) := readLetters raw (s.remaining 0)
  let separators := s.separators
  let start := letters.dropWhile (separatesAsBlank separators)
  if names.isEmpty then (s.abort "arg count", .on)
  else
    let next := giveWords separators (s.withRemaining 0 left) names start
    (next.withStatus (if ended then 0 else 1), .on)

/-! ## §5. Variables and options. -/

/-- The name and the value of an argument with an equals sign. -/
def assignedArg (arg : String) : String × Option String :=
  let name := arg.toList.takeWhile (· != '=')
  if name.length = arg.length then (arg, none)
  else (String.ofList name, some (String.ofList (arg.toList.drop (name.length + 1))))

/-- Variables with their values, one a line in the order of their names, behind a
word. -/
def variableLines (s : State) (word : String) (names : List String) : List Byte :=
  let lines := (names.eraseDups.mergeSort fun a b => decide (a ≤ b)).map fun name =>
    word ++ name ++ ((s.value? name).map fun value => "=" ++ inQuotes value).getD "" ++ "\n"
  bytesOf (String.join lines)

/-- Set a variable that an argument names, if it has a value, and mark it. -/
def markVariable (mark : State → String → State) (s : State) (arg : String) : State :=
  let (name, value) := assignedArg arg
  if s.fault then s
  else if !isName name.toList then s.abort (name ++ ": bad variable name")
  else
    let next := (value.map fun value => s.set name value).getD s
    if next.fault then next else mark next name

/-- Mark each variable that arguments name, or tell the variables that are
marked. -/
def eachVariable (word : String) (marked : State → List String)
    (mark : State → String → State) (args : List String) : Step :=
  withOwn "p" "" args fun options operands s =>
    if operands.isEmpty || !options.isEmpty then
      ((s.write 1 (variableLines s (word ++ " ") (marked s))).withStatus 0, .on)
    else ((operands.foldl (markVariable mark) s).withStatus 0, .on)

/-- Give the next option among the arguments to a variable: its letter, and its
value if it has one. -/
def nextOption (args : List String) : Step := fun s =>
  match args with
  | marks :: name :: rest =>
      let words := if rest.isEmpty then s.args else rest
      let index := max 1 (readDigits 10 ((s.value? "OPTIND").getD "1").toList).1
      let offset := if index = 1 && s.optionPlace.1 ≠ 1 then 0
        else if s.optionPlace.1 = index then s.optionPlace.2 else 0
      let word := ((words[index - 1]?).getD "").toList
      let settled (s : State) (index offset : Nat) : State :=
        { s.set "OPTIND" (toString index) with optionPlace := (index, offset) }
      let noMore (index : Nat) : State × Flow :=
        ((assign (settled s index 0) name "?").withStatus 1, .on)
      match offset, word with
      | 0, ['-', '-'] => noMore (index + 1)
      | 0, '-' :: _ :: _ | _ + 1, _ =>
          let place := max offset 1
          let letter := (word[place]?).getD '?'
          let quiet := marks.toList.head? = some ':'
          let behind := ((marks.toList.dropWhile (· != letter)).drop 1).head?
          let known := letter ≠ ':' && marks.toList.contains letter
          let last := word.length ≤ place + 1
          let found (value : String) (argument : Option String) (index offset : Nat) :
              State × Flow :=
            let t := assign (settled s index offset) name value
            ((t.restore "OPTARG" argument).withStatus 0, .on)
          let tell (s : State) (message : String) : State :=
            if quiet then s else s.write 2 (bytesOf (message ++ "\n"))
          let wrong (sign message : String) (index offset : Nat) : State × Flow :=
            let argument := if quiet then some letter.toString else none
            let (t, flow) := found sign argument index offset
            (tell t message, flow)
          let after := if last then (index + 1, 0) else (index, place + 1)
          if !known then
            wrong "?" ("Illegal option -" ++ letter.toString) after.1 after.2
          else if behind ≠ some ':' then found letter.toString none after.1 after.2
          else if !last then
            found letter.toString (some (String.ofList (word.drop (place + 1)))) (index + 1) 0
          else
            match words[index]? with
            | some value => found letter.toString (some value) (index + 2) 0
            | none =>
                wrong (if quiet then ":" else "?")
                  ("No arg for -" ++ letter.toString ++ " option") (index + 1) 0
      | _, _ => noMore index
  | _ => (s.abort "Usage: getopts optstring var [arg...]", .on)

/-- Make a variable local to a function. -/
def makeLocalOne (s : State) (arg : String) : State :=
  let (name, value) := assignedArg arg
  if s.fault then s
  else if !isName name.toList then s.abort (name ++ ": bad variable name")
  else
    let s := { s with saved := (name, s.value? name) :: s.saved }
    (value.map fun value => s.set name value).getD s

/-- Make variables local to a function. -/
def makeLocal (args : List String) : Step := fun s =>
  if s.calls = 0 then (s.abort "not in a function", .on)
  else ((args.foldl makeLocalOne s).withStatus 0, .on)

/-- Take a variable away. -/
def unsetOne (s : State) (name : String) : State :=
  if s.fault then s
  else if !isName name.toList then s.abort (name ++ ": bad variable name")
  else if s.fixed.contains name then s.abort (name ++ ": is read only")
  else s.unset name

/-- Take variables or functions away. -/
def unsetAll (args : List String) : Step := withOwn "fv" "" args fun options names s =>
  let functions := options.getLast?.any fun (letter, _) => letter = 'f'
  let next := if functions then
      { s with functions := s.functions.filter fun (n, _) => !names.contains n }
    else names.foldl unsetOne s
  (next.withStatus 0, .on)

/-- Turn an option on or off. -/
def turn (on : Bool) (letter : Char) (s : State) : State :=
  let others := s.options.filter (· != letter)
  { s with options := if on then letter :: others else others }

/-- Tell which options are on. -/
def tellOptions (settings : Bool) (s : State) : State :=
  let known := State.optionNames ++ [('l', "nolog"), ('d', "debug")]
  let line (entry : Char × String) : String :=
    let (letter, name) := entry
    let on := s.hasOption letter
    if settings then
      name ++ String.ofList (List.replicate (16 - name.length) ' ')
        ++ (if on then "on" else "off") ++ "\n"
    else "set " ++ (if on then "-" else "+") ++ "o " ++ name ++ "\n"
  s.write 1 (bytesOf ((if settings then "Current option settings\n" else "")
    ++ String.join (known.map line)))

/-- Turn the options on or off that letters stand for; the letter o takes the name
of an option from the arguments. -/
def turnAll (on : Bool) : List Char → List String → State → State × List String
  | [], args, s => (s, args)
  | 'o' :: letters, args, s =>
      match args with
      | [] => turnAll on letters [] (tellOptions on s)
      | name :: args =>
          match State.optionNames.find? fun (_, n) => n = name with
          | some (letter, _) => turnAll on letters args (turn on letter s)
          | none => (s.abort ("Illegal option -o " ++ name), args)
  | letter :: letters, args, s =>
      if (State.optionNames.lookup letter).isSome then turnAll on letters args (turn on letter s)
      else (s.abort ("Illegal option -" ++ letter.toString), args)

/-- Set options and arguments, with so many arguments at most. -/
def setOptions : Nat → List String → State → State
  | 0, _, s => s
  | _ + 1, [], s => s
  | n + 1, arg :: rest, s =>
      let more (on : Bool) (letters : List Char) : State :=
        let (s, rest) := turnAll on letters rest s
        if s.fault then s else setOptions n rest s
      match arg.toList with
      | ['-', '-'] => { s with args := rest }
      | ['-'] =>
          let s := turn false 'x' (turn false 'v' s)
          if rest.isEmpty then s else { s with args := rest }
      | '-' :: letters => more true letters
      | '+' :: letters => more false letters
      | _ => { s with args := arg :: rest }

/-- Set options and arguments, or tell all variables. -/
def setAll (args : List String) : Step := fun s =>
  let next := if args.isEmpty then s.write 1 (variableLines s "" (s.bindings.map Prod.fst))
    else setOptions (args.length + 1) args s
  (next.withStatus 0, .on)

/-- Move arguments up. -/
def shift (args : List String) : Step :=
  withNumber (args.headD "1") fun n s =>
    if n ≤ s.args.length then ({ s with args := s.args.drop n }.withStatus 0, .on)
    else (s.abort "can't shift that many", .on)

/-- The path from the root to where relative paths start. -/
def absolutePath (s : State) (path : String) : String :=
  let place := (s.tree.place (Files.join path ".")).toOption.getD Files.workplace
  "/" ++ "/".intercalate (place.map ofUnicode)

/-- Change where relative paths start; a hyphen stands for where they started
before. -/
def changeDirectory (args : List String) : Step := withOwn "LP" "" args fun _ operands s =>
  let given := operands.headD ((s.value? "HOME").getD "")
  let text := if given = "-" then (s.value? "OLDPWD").getD "" else given
  let path := Files.join s.directory (toUnicode text)
  if text = "" then (s.withStatus 0, .on)
  else if s.tree.reachesDirectory path then
    let next := { s with directory := path }
    let next := (next.set "OLDPWD" (absolutePath s s.directory)).set "PWD" (absolutePath s path)
    let next := if given = "-" then next.write 1 (bytesOf (absolutePath s path ++ "\n")) else next
    (next.withStatus 0, .on)
  else (s.abort ("can't cd to " ++ text), .on)

/-- Tell where relative paths start. -/
def tellDirectory (args : List String) : Step := withOwn "LP" "" args fun _ _ s =>
  ((s.write 1 (bytesOf (absolutePath s s.directory ++ "\n"))).withStatus 0, .on)

/-- What the permissions are that new files get, in letters. -/
def maskLetters (mask : Nat) : String :=
  let rights (shift : Nat) : String :=
    let bits := mask / Nat.pow 8 shift % 8
    (if bits / 4 % 2 = 0 then "r" else "") ++ (if bits / 2 % 2 = 0 then "w" else "")
      ++ (if bits % 2 = 0 then "x" else "")
  "u=" ++ rights 2 ++ ",g=" ++ rights 1 ++ ",o=" ++ rights 0

/-- Say which permissions new files do not get, or tell it. -/
def setMask (args : List String) : Step := withOwn "S" "" args fun options operands s =>
  match operands with
  | [] =>
      let digits := Nat.toDigits 8 s.mask
      let octal := String.ofList (List.replicate (4 - digits.length) '0' ++ digits)
      let text := if options.isEmpty then octal else maskLetters s.mask
      ((s.write 1 (bytesOf (text ++ "\n"))).withStatus 0, .on)
  | text :: _ =>
      match text.toList.head?.any Char.isDigit, readDigits 8 text.toList with
      | true, (n, true) => ({ s with mask := n % 512 }.withStatus 0, .on)
      | true, (_, false) => (s.abort ("Illegal number: " ++ text), .on)
      | false, _ =>
          if text.toList.head?.any fun c => "ugoa+-=".toList.contains c then
            (s.withStatus 0, .on)
          else (s.abort ("Illegal mode: " ++ text), .on)

/-- Wait for a process that runs beside. -/
def waitFor (args : List String) : Step := fun s =>
  match args with
  | [] => (s.withStatus 0, .on)
  | text :: _ =>
      if text.toList.head? = some '%' then (s.abort ("No such job: " ++ text), .on)
      else
        withNumber text (fun _ s =>
          (s.withStatus (if text = State.besideProcess then s.beside else 127), .on)) s

/-- Tell about scripts that run beside. -/
def tellJobs (args : List String) : Step := withOwn "lp" "" args fun _ operands s =>
  match operands with
  | [] => (s.withStatus 0, .on)
  | name :: _ => (s.abort ("No such job: " ++ name), .on)

/-- Give commands other names, or tell these. -/
def setAliases (args : List String) : Step := fun s =>
  let line (entry : String × String) : String := entry.1 ++ "=" ++ inQuotes entry.2 ++ "\n"
  let one (s : State) (arg : String) : State :=
    match assignedArg arg with
    | (name, some value) =>
        { s with aliases := (name, value) :: s.aliases.filter fun (n, _) => n != name }
    | (name, none) =>
        match s.aliases.lookup name with
        | some value => s.write 1 (bytesOf (line (name, value)))
        | none => (s.write 2 (bytesOf ("alias: " ++ name ++ " not found\n"))).withStatus 1
  if args.isEmpty then
    ((s.write 1 (bytesOf (String.join (s.aliases.map line)))).withStatus 0, .on)
  else (args.foldl one (s.withStatus 0), .on)

/-- Take other names of commands away. -/
def unsetAliases (args : List String) : Step := withOwn "a" "" args fun options names s =>
  let one (s : State) (name : String) : State :=
    if (s.aliases.lookup name).isSome then
      { s with aliases := s.aliases.filter fun (n, _) => n != name }
    else (s.write 2 (bytesOf ("unalias: " ++ name ++ " not found\n"))).withStatus 1
  if options.isEmpty then (names.foldl one (s.withStatus 0), .on)
  else ({ s with aliases := [] }.withStatus 0, .on)

/-- Tell a bound of what a script may use: there is none. -/
def tellBounds (args : List String) : Step := withOwn "HSacdfmnpqrstvwx" "" args fun _ operands s =>
  match operands with
  | [] => ((s.write 1 (bytesOf "unlimited\n")).withStatus 0, .on)
  | text :: _ =>
      if text = "unlimited" || (readDigits 10 text.toList).2 then (s.withStatus 0, .on)
      else (s.abort "bad number", .on)

/-! ## §6. Steps apart. -/

/-- There is no such command. -/
def notFound (name : String) : Step := fun s =>
  let path := Files.join s.directory (toUnicode name)
  if name.toList.contains '/' && s.tree.reaches path then
    ((s.complain (name ++ ": Permission denied")).withStatus 126, .on)
  else ((s.complain (name ++ ": not found")).withStatus 127, .on)

/-- Run a step on a copy of the state; what it reads and writes counts. -/
def isolate (r : Runner) (step : Step) : Step := fun s =>
  let own := s.traps.filter fun (_, action) => action.isEmpty
  let (t, flow) := step { s with depth := s.depth + 1, traps := own }
  let t := if flow.outside = .on && flow ≠ .gone then atEnd r t else t
  (s.afterApart t, flow.outside)

end Stencil.Script
