/-
  Stencil.Formatter.Script.Run
  ────────────────────────────
  Running scripts.

  A script starts with arguments, an input and files, and leaves behind what
  it wrote, the files and how it ended.  The parts of a pipe run one after the
  other, each on what the one before it has written.  Loops, functions and
  scripts inside of words are why a run takes fuel.

  `Tools.withFormatter` is what all of this is for: a choice of tools for
  which a run of the command line with its formatter can be evaluated.
-/
import Stencil.Formatter.Script.Perform

namespace Stencil.Script

open Text (Byte)

/-! ## §1. Redirections. -/

/-- Let a lane write to a file; false if that cannot be. -/
def openForWriting (s : State) (lane : Nat) (text : String) (writing : Writing) :
    State × Bool :=
  let path := Files.join s.directory (toUnicode text)
  let like (other : Nat) : State × Bool :=
    match s.lane? other with
    | some p => (s.withLane lane p, true)
    | none => (s.withoutLane lane, true)
  match s.tree.target path with
  | .ok (.file place) =>
      if place = Files.nullDevice then (s.withLane lane .nowhere, true)
      else if writing = .create && s.hasOption 'C' && (s.tree.file? place).isSome then
        (s.complain ("cannot create " ++ text ++ ": File exists"), false)
      else
        let before := (s.tree.file? place).getD ""
        let tree := s.tree.put place (if writing = .append then before else "")
        ({ s with tree }.withLane lane (.file place), true)
  | .ok .output => like 1
  | .ok .errors => like 2
  | .ok .full => (s.withLane lane .full, true)
  | .error failure =>
      let why := if failure = .notFound then "Directory nonexistent" else failure.text
      (s.complain ("cannot create " ++ text ++ ": " ++ why), false)

/-- Let a lane read a file; false if that cannot be. -/
def openForReading (s : State) (lane : Nat) (text : String) : State × Bool :=
  if text = "/dev/stdin" then
    match s.lane? 0 with
    | some p => (s.withLane lane p, true)
    | none => (s, true)
  else
    match s.tree.read (Files.join s.directory (toUnicode text)) with
    | .ok content => (s.withFileSource lane (Text.toBytes content), true)
    | .error .isDirectory => (s.withLane lane .directory, true)
    | .error _ => (s.complain ("cannot open " ++ text ++ ": No such file"), false)

/-- Do a redirection; false if that cannot be. -/
def redirectOne (capture : Capture) (s : State) : Redirect → State × Bool
  | .write lane path writing =>
      let (s, text) := wordText capture s path
      openForWriting s lane text writing
  | .read lane path =>
      let (s, text) := wordText capture s path
      openForReading s lane text
  | .copy lane other =>
      let (s, text) := wordText capture s other
      match text.toList with
      | ['-'] => (s.withoutLane lane, true)
      | [digit] =>
          match s.lane? (digitValue digit) with
          | some p => (s.withLane lane p, true)
          | none =>
              if digit.isDigit then (s.complain (text ++ ": Bad file descriptor"), false)
              else (s.abort ("Syntax error: " ++ Fault.laneNumber.message), false)
      | _ => (s.abort ("Syntax error: " ++ Fault.laneNumber.message), false)
  | .given lane content =>
      let (s, text) := wordText capture s content
      (s.withSource lane (bytesOf text), true)

/-- Do redirections one after the other, up to one that cannot be. -/
def redirectAll (capture : Capture) (s : State) : List Redirect → State × Bool
  | [] => (s, true)
  | r :: rest =>
      match redirectOne capture s r with
      | (s, true) => if s.fault then (s, false) else redirectAll capture s rest
      | failed => failed

/-- Run a step with other inputs and outputs, unless they cannot be; `strict`
tells whether the script ends then, and `stays` whether they stay. -/
def redirecting (capture : Capture) (redirects : List Redirect) (strict stays : Bool)
    (step : Step) : Step := fun s =>
  match redirectAll capture s redirects with
  | (t, false) =>
      ({ t with lanes := s.lanes, status := 2, fault := false },
        if strict || t.fault then .exit else .on)
  | (t, true) =>
      if t.fault then ({ t with lanes := s.lanes, status := 2, fault := false }, .exit)
      else
        let (u, flow) := step t
        (if stays then u else { u with lanes := s.lanes }, flow)

/-! ## §2. Steps. -/

/-- Run a step whose failure is expected. -/
def tolerate (step : Step) : Step := fun s =>
  let (t, flow) := step { s with lenient := true }
  ({ t with lenient := s.lenient }, flow)

/-- End a strict script after a failure. -/
def checked (step : Step) : Step := fun s =>
  match step s with
  | (t, .on) =>
      (t, if t.hasOption 'e' && !t.lenient && t.status ≠ 0 then .exit else .on)
  | stopped => stopped

/-- End a script whose words could not be expanded. -/
def sound (s : State) (next : Step) : State × Flow :=
  if s.fault then ({ s with fault := false, status := 2 }, .exit) else next s

/-- Run a step on what another one writes. -/
def connect (r : Runner) (first second : Step) : Step := fun s =>
  let sink := s.fresh
  let (t, flow) := isolate r (fun s => first (s.withLane 1 (.sink sink)))
    { s with fresh := sink + 1 }
  let between := t.withoutSink sink
  let (u, flow') := isolate r (fun u => second (u.withSource 0 (t.collected sink)))
    between
  (u, if flow.outside = .on then flow'.outside else flow.outside)

/-- What a step writes, without the line ends behind it. -/
def captured (r : Runner) (step : Step) (s : State) : State × String :=
  let sink := s.fresh
  let (t, _) := isolate r (fun s => step (s.withLane 1 (.sink sink))) { s with fresh := sink + 1 }
  let text := (textOf (t.collected sink)).toList.filter (· != '\x00')
  (t.withoutSink sink, String.ofList (text.reverse.dropWhile (· == '\n')).reverse)

/-- Go on with another step, unless the script does not go on. -/
def proceed (result : State × Flow) (next : Step) : State × Flow :=
  match result with
  | (s, .on) => next s
  | stopped => stopped

/-- What a round of a loop leads to: another round, or the end of the loop with
a state and a flow. -/
def afterRound (result : State × Flow) (again : Step) : State × Flow :=
  match result with
  | (s, .on) | (s, .next 0) | (s, .next 1) => again s
  | (s, .leave 0) | (s, .leave 1) => (s.withStatus 0, .on)
  | (s, .leave n) => (s, .leave (n - 1))
  | (s, .next n) => (s, .next (n - 1))
  | stopped => stopped

/-- Rounds of a loop; `status` is that of the last round. -/
def rounds (holds : Bool) (condition body : Step) : Nat → Nat → Step
  | 0, status, s => (s.withStatus status, .on)
  | n + 1, status, s =>
      match condition s with
      | (s, .on) =>
          if (s.status == 0) != holds then (s.withStatus status, .on)
          else afterRound (body s) fun s => rounds holds condition body n s.status s
      | stopped => afterRound stopped fun s => (s, .on)

/-- A round for each value of a variable. -/
def roundsOver (name : String) (body : Step) : List String → Step
  | [], s => (s, .on)
  | value :: values, s => afterRound (sound (s.set name value) body) (roundsOver name body values)

/-- Run a step inside of a loop. -/
def insideLoop (step : Step) : Step := fun s =>
  let (t, flow) := step { s with loops := s.loops + 1 }
  ({ t with loops := s.loops }, flow)

/-- Does a text match one of the patterns? -/
def matchesAny (capture : Capture) (text : String) : State → List Word → State × Bool
  | s, [] => (s, false)
  | s, word :: words =>
      let (s, letters) := expandLetters capture (wordFuel word) s word
      if matchesLetters letters text.toList then (s, true)
      else matchesAny capture text s words

/-- Does a word hold another script? -/
def Part.isOutput : Part → Bool
  | output _ _ => true
  | _ => false

/-- Show a command before it is run, if that is asked for. -/
def trace (s : State) (assignments : List (String × String)) (words : List String) : State :=
  if s.hasOption 'x' then
    let texts := (assignments.map fun (name, value) => name ++ "=" ++ value) ++ words
    s.write 2 (bytesOf ("+ " ++ " ".intercalate texts ++ "\n"))
  else s

/-- Run a command with variables that are set for it alone. -/
def withAssignments (before : State) (assignments : List (String × Word))
    (name : String) (step : Step) : Step := fun s =>
  let names := assignments.map Prod.fst
  if names.isEmpty then step s
  else
    let (t, flow) := step { s with exported := names ++ s.exported }
    let stays := specialNames.contains name
    let u := if stays then t
      else names.foldl (fun u n => u.restore n (before.value? n)) t
    ({ u with exported := before.exported }, flow)

/-- Run a row of words: these are expanded first, then come the redirections and
the assignments. -/
def runSimple (r : Runner) (capture : Capture) (assignments : List (String × Word))
    (words : List Word) (redirects : List Redirect) : Step := fun s =>
  let (t, fields) := expandWords capture s words
  let assigned (next : State → State → State × Flow) : Step := fun t =>
    let u := assignAll capture t assignments
    sound u fun u =>
      let values := assignments.map fun (name, _) => (name, (u.value? name).getD "")
      next t (if fields.isEmpty && assignments.isEmpty then u else trace u values fields)
  let quiet := !(assignments.any fun (_, w) => w.any Part.isOutput)
    && !(words.any fun w => w.any Part.isOutput)
  let step : Step := match fields with
    | [] => assigned fun _ u => (if quiet then u.withStatus 0 else u, .on)
    | name :: args => assigned fun before u =>
        let (v, flow) := withAssignments before assignments name (perform r name args) u
        if v.fault then ({ v with fault := false, status := 2 }, .exit) else (v, flow)
  let strict := fields.head?.any specialNames.contains
  sound t (checked (watched r (redirecting capture redirects strict (fields = ["exec"]) step)))

/-! ## §3. Scripts. -/

/-- How many rounds a loop may take. -/
def loopRounds : Nat := 1000000000

/-- Run a script. -/
def run : Nat → Script → Step
  | 0, _ => fun s => (s, .on)
  | n + 1, script => fun s =>
      let r : Runner := ⟨fun source s => run n (ofText s.line source) s, run n⟩
      let capture : Capture := fun source => captured r (r.text source)
      match script with
      | nothing => (s, .on)
      | malformed line fault =>
          (({ s with line }.complain ("Syntax error: " ++ fault.message)).withStatus 2, .exit)
      | onLine line script =>
          if s.hasOption 'n' then (s, .on) else run n script { s with line }
      | simple assignments words => runSimple r capture assignments words [] s
      | sequence first second => proceed (run n first s) (run n second)
      | andThen first second =>
          proceed (tolerate (run n first) s) fun s =>
            if s.status = 0 then run n second s else (s, .on)
      | orElse first second =>
          proceed (tolerate (run n first) s) fun s =>
            if s.status = 0 then (s, .on) else run n second s
      | negated script =>
          proceed (tolerate (run n script) s) fun s =>
            (s.withStatus (if s.status = 0 then 1 else 0), .on)
      | pipe first second => checked (watched r (connect r (run n first) (run n second))) s
      | apart script => checked (watched r (isolate r (run n script))) s
      | beside script =>
          let (t, _) := isolate r (fun t => run n script (t.withSource 0 [])) s
          watched r (fun t => ({ t with status := 0, beside := t.status }, .on)) t
      | redirected (simple assignments words) redirects =>
          runSimple r capture assignments words redirects s
      | redirected script redirects => redirecting capture redirects false false (run n script) s
      | branch condition yes no =>
          proceed (tolerate (run n condition) s) fun s =>
            if s.status = 0 then run n yes s
            else if no = nothing then (s.withStatus 0, .on)
            else run n no s
      | loop holds condition body =>
          if s.hasOption 'n' then (s, .on)
          else insideLoop (rounds holds (tolerate (run n condition)) (run n body) loopRounds 0) s
      | each name words body =>
          let (s, values) := expandWords capture s words
          sound s fun s =>
            if values.isEmpty then (s.withStatus 0, .on)
            else insideLoop (roundsOver name (run n body) values) s
      | choice word patterns yes no =>
          let (s, text) := wordText capture s word
          sound s fun s =>
            match matchesAny capture text s patterns with
            | (s, true) => run n yes (if yes = nothing then s.withStatus 0 else s)
            | (s, false) => run n no (if no = nothing then s.withStatus 0 else s)
      | define name body =>
          ({ s with
              functions := (name, body) :: s.functions.filter fun (k, _) => k != name
              status := 0 }, .on)

/-- How deep the parts of a script and its functions may be nested. -/
def fuelFor (source : String) : Nat := source.length + 10000

/-- A script as a program. -/
def tool (source : String) : Tool := fun args input tree =>
  let text := ofUnicode source
  let start := State.initial Formatter.program (args.map ofUnicode) input tree
  let fuel := fuelFor text
  let r : Runner := ⟨fun source s => run fuel (ofText s.line source) s, run fuel⟩
  let (s, flow) := run fuel (ofText start.line (text.toList ++ ['\n'])) start
  let (ending, s) := match flow with
    | .killed signal => (Ending.killed signal, s)
    | .gone => (Ending.exited s.status, s)
    | _ =>
        let s := atEnd r s
        (Ending.exited s.status, s)
  ⟨ending, s.collected 0, s.collected 1, s.tree⟩

end Stencil.Script

namespace Stencil

open Text (toBytes)

/-- The programs that are always there. -/
def Tools.standard : Tools := fun name =>
  match Script.programName name with
  | "echo" => some fun args _ tree => ⟨.exited 0, toBytes (" ".intercalate args ++ "\n"), [], tree⟩
  | "true" => some fun _ _ tree => ⟨.exited 0, [], [], tree⟩
  | "false" => some fun _ _ tree => ⟨.exited 1, [], [], tree⟩
  | _ => none

/-- The standard programs and a formatter given as a script. -/
def Tools.withFormatter (script : Option String) : Tools := fun name =>
  if name = Formatter.program then script.map Script.tool else Tools.standard name

end Stencil
