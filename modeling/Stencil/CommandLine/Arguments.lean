/-
  Stencil.CommandLine.Arguments
  ─────────────────────────────
  What the command line asks for.

  A command comes first, then its options.  The inputs go on up to the next
  option and may come in several places; an input attached to its option
  stands alone.  Every other option comes at most once, and an output needs a
  name.
-/
import Stencil.Text.Quoted

namespace Stencil.CommandLine

/-! ## §1. Requests. -/

/-- What a command works on. -/
structure Settings where
  /-- The inputs: paths or patterns. -/
  inputs : List String
  /-- Where the output goes, if not to the screen. -/
  out : Option String
  /-- Only show what was asked for. -/
  noOp : Bool
  deriving Repr, DecidableEq

/-- What is asked for. -/
inductive Request where
  /-- Solidity sources, formatted or not. -/
  | solidity (settings : Settings) (format : Bool)
  /-- Operations as JSON. -/
  | ops (settings : Settings)
  deriving Repr, DecidableEq

/-- What a command line turns out to be. -/
inductive Parsed where
  /-- A request. -/
  | request (r : Request)
  /-- A question for the version. -/
  | version
  /-- A question for help. -/
  | help
  /-- No proper command line. -/
  | misuse
  deriving Repr, DecidableEq

/-! ## §2. Reading options. -/

/-- What the next word is for. -/
inductive Awaiting where
  /-- Nothing: it must be an option. -/
  | nothing
  /-- It must be an input. -/
  | input
  /-- It may be one more input. -/
  | moreInputs
  /-- It must be the output. -/
  | out
  deriving Repr, DecidableEq

/-- What has been read of a command's options. -/
structure Draft where
  /-- May the command format? -/
  formats : Bool
  /-- The inputs so far. -/
  inputs : List String
  /-- The output. -/
  out : Option String
  /-- Format the result. -/
  format : Bool
  /-- Only show what was asked for. -/
  noOp : Bool
  /-- What the next word is for. -/
  awaiting : Awaiting

/-- The effect of a word. -/
inductive Effect where
  /-- Go on. -/
  | draft (d : Draft)
  /-- Help is asked for. -/
  | help
  /-- The word does not belong here. -/
  | misuse

namespace Draft

/-- Nothing read yet. -/
def start (formats : Bool) : Draft := ⟨formats, [], none, false, false, .nothing⟩

/-- An option whose value has not come. -/
def owesValue (d : Draft) : Bool :=
  d.awaiting == .input || d.awaiting == .out

/-- Add an input. -/
def addInput (d : Draft) (input : String) (next : Awaiting) : Effect :=
  .draft { d with inputs := d.inputs ++ [input], awaiting := next }

/-- Set the output, which needs a name. -/
def setOut (d : Draft) (out : String) : Effect :=
  if out = "" then .misuse else .draft { d with out := some out, awaiting := .nothing }

/-- The input option, with its value if it is attached. -/
def inputOption (d : Draft) : Option String → Effect
  | some value => d.addInput value .nothing
  | none => .draft { d with awaiting := .input }

/-- The output option, with its value if it is attached. -/
def outOption (d : Draft) (value : Option String) : Effect :=
  if d.out.isSome then .misuse
  else
    match value with
    | some value => d.setOut value
    | none => .draft { d with awaiting := .out }

/-- An option by its long name. -/
def longOption (d : Draft) (name : String) (value : Option String) : Effect :=
  if name = "input" then d.inputOption value
  else if name = "out" then d.outOption value
  else if value.isSome then .misuse
  else if name = "format" && d.formats && !d.format then
    .draft { d with format := true, awaiting := .nothing }
  else if name = "no-op" && !d.noOp then
    .draft { d with noOp := true, awaiting := .nothing }
  else if name = "help" then .help
  else .misuse

/-- The value attached to a short option, behind an equals sign or not. -/
def attached : List Char → Option String
  | [] => none
  | '=' :: rest => some (String.ofList rest)
  | rest => some (String.ofList rest)

/-- An option by its letter, with what is attached to it. -/
def shortOption (d : Draft) (letter : Char) (rest : List Char) : Effect :=
  if letter = 'i' then d.inputOption (attached rest)
  else if letter = 'o' then d.outOption (attached rest)
  else if letter = 'h' then .help
  else .misuse

/-- A word that is no option. -/
def value (d : Draft) (word : String) : Effect :=
  match d.awaiting with
  | .input | .moreInputs => d.addInput word .moreInputs
  | .out => d.setOut word
  | .nothing => .misuse

/-- One word of the command line. -/
def word (d : Draft) (text : String) : Effect :=
  match text.toList with
  | '-' :: '-' :: long =>
      if d.owesValue then .misuse
      else
        let name := long.takeWhile (· != '=')
        let value := if name.length < long.length then
            some (String.ofList (long.drop (name.length + 1)))
          else none
        d.longOption (String.ofList name) value
  | '-' :: letter :: rest =>
      if d.owesValue then .misuse else d.shortOption letter rest
  | _ => d.value text

/-- What the options amount to. -/
def finish (d : Draft) : Parsed :=
  if d.owesValue || d.inputs.isEmpty then .misuse
  else
    let settings : Settings := ⟨d.inputs, d.out, d.noOp⟩
    .request (if d.formats then .solidity settings d.format else .ops settings)

/-- The words of a command line.  After two hyphens alone nothing may come. -/
def words (d : Draft) : List String → Parsed
  | [] => d.finish
  | text :: rest =>
      if text = "--" then
        if rest.isEmpty then d.finish else .misuse
      else
        match d.word text with
        | .draft d => d.words rest
        | .help => .help
        | .misuse => .misuse

end Draft

/-- The commands there are. -/
def commands : List String := ["solidity", "ops", "help"]

/-- Read a command line.  Without a command it can ask for the version or for
help, and letters behind those that ask are not read. -/
def parse : List String → Parsed
  | [] => .misuse
  | first :: rest =>
      if first = "solidity" then (Draft.start true).words rest
      else if first = "ops" then (Draft.start false).words rest
      else if first = "help" then
        match rest with
        | [] => .help
        | [command] => if commands.contains command then .help else .misuse
        | _ => .misuse
      else if first = "--version" || ['-', 'V'].isPrefixOf first.toList then .version
      else if first = "--help" || ['-', 'h'].isPrefixOf first.toList then .help
      else .misuse

/-! ## §3. Showing requests. -/

/-- Lines one level deeper. -/
def indented (lines : List String) : List String :=
  lines.map ("    " ++ ·)

/-- Lines between an opening and a closing one. -/
def enclosed (opening : String) (inner : List String) (closing : String) : List String :=
  opening :: indented inner ++ [closing]

/-- A truth value in words. -/
def truth (b : Bool) : String :=
  if b then "true" else "false"

/-- The inputs and the output of a request, line by line. -/
def settingsLines (s : Settings) : List String :=
  enclosed "input_settings: InputSettings \x7b"
      (enclosed "input: [" (s.inputs.map fun i => Text.quoted i ++ ",") "],") "\x7d,"
    ++ (match s.out with
      | none => ["out: None,"]
      | some out => enclosed "out: Some(" [Text.quoted out ++ ","] "),")

/-- A request, line by line. -/
def requestLines : Request → List String
  | .solidity s format =>
      enclosed "Solidity("
        (enclosed "SolidityOut \x7b"
          (settingsLines s ++ ["format: " ++ truth format ++ ",", "no_op: " ++ truth s.noOp ++ ","])
          "\x7d,")
        "),"
  | .ops s =>
      enclosed "Ops("
        (enclosed "OpsOut \x7b" (settingsLines s ++ ["no_op: " ++ truth s.noOp ++ ","]) "\x7d,")
        "),"

/-- The text that shows a request. -/
def Request.shown (r : Request) : String :=
  let inner := match requestLines r with
    | [] => []
    | first :: rest => ("cmd: " ++ first) :: rest
  "\n".intercalate (enclosed "CommandLineInterface \x7b" inner "\x7d")

/-- The settings of a request. -/
def Request.settings : Request → Settings
  | solidity s _ => s
  | ops s => s

end Stencil.CommandLine
