/-
  Stencil.Formatter.RecordProgram.Sheet
  ─────────────────────────────────────
  What a program over records has come to.

  A sheet holds the record and its fields, the variables and arrays, and what
  is left to read.  The fields follow from the record when it is set, and the
  record from the fields when one of them is.
-/
import Stencil.Formatter.Command
import Stencil.Formatter.Regex.Reader
import Stencil.Formatter.RecordProgram

namespace Stencil.Script

open Text (Byte)

/-! ## §1. Cutting texts. -/

/-- The regular expression that a text stands for. -/
def recordRegex (source : String) : Regex :=
  (Regex.ofText ⟨true, true, true⟩ source.toList).toOption.getD (.one (.within []))

/-- The pieces of bytes between matches from a position on. -/
def piecesAround (r : Regex) (s : Subject) : Nat → (start position : Nat) → List (List Byte)
  | 0, start, _ => [s.slice start s.bytes.size]
  | n + 1, start, position =>
      match r.find? s position with
      | none => [s.slice start s.bytes.size]
      | some m =>
          if m.stop = m.start then
            if m.stop < s.bytes.size then piecesAround r s n start (m.stop + 1)
            else [s.slice start s.bytes.size]
          else s.slice start m.start :: piecesAround r s n m.stop m.stop

/-- The words of a text between blanks. -/
def blankWords (text : String) : List String :=
  (splitChars Cell.isBlank text.toList).filterMap fun cs =>
    if cs.isEmpty then none else some (String.ofList cs)

/-- Cut a text at a separator: a blank stands for all blanks, nothing for the
place between two characters, any other single character for itself, and
longer ones are regular expressions. -/
def cutText (separator text : String) : List String :=
  if text = "" then []
  else if separator = " " then blankWords text
  else
    match separator.toList with
    | [] => text.toList.map Char.toString
    | [c] =>
        if c = '\\' then [text]
        else (splitChars (· == c) text.toList).map String.ofList
    | _ =>
        let s := Subject.ofBytes (bytesOf text)
        (piecesAround (recordRegex separator) s (s.bytes.size + 1) 0 0).map textOf

/-- The next record of an input, and what is left of it: a line, a paragraph,
or what comes before a separator. -/
def cutRecord (separator : String) (input : List Byte) : List Byte × List Byte :=
  match separator.toList with
  | [] =>
      let start := input.dropWhile (· == lineFeed)
      let s := Subject.ofBytes start
      match (recordRegex "\n\n+").find? s 0 with
      | some m => (s.slice 0 m.start, s.slice m.stop s.bytes.size)
      | none => (lineBody start, [])
  | [c] =>
      let record := input.takeWhile (· != UInt8.ofNat c.toNat)
      (record, input.drop (record.length + 1))
  | _ =>
      let s := Subject.ofBytes input
      match (recordRegex separator).find? s 0 with
      | some m => (s.slice 0 m.start, s.slice (max m.stop 1) s.bytes.size)
      | none => (input, [])

/-! ## §2. Sheets. -/

/-- A variable of a function: its value, and the array that its name stands
for. -/
structure LocalCell where
  /-- Its name. -/
  name : String
  /-- The array. -/
  array : String
  /-- Its value. -/
  value : Cell

/-- What is read apart from the input. -/
inductive SideSource where
  /-- A file. -/
  | file (path : String)
  /-- What a script writes. -/
  | script (text : String)
  deriving Repr, DecidableEq

/-- What a program has come to. -/
structure Sheet where
  /-- The values of variables. -/
  globals : List (String × Cell)
  /-- The variables of the function that runs. -/
  locals : List LocalCell
  /-- Arrays by their names. -/
  arrays : List (String × List (String × Cell))
  /-- The record. -/
  record : String
  /-- Its fields. -/
  fields : List Cell
  /-- What is left of the file that is read; none before the first one. -/
  input : Option (List Byte)
  /-- The files to come. -/
  ahead : List String
  /-- What is left of files that are read apart, and of what scripts have written. -/
  besides : List (SideSource × List Byte)
  /-- What was written for scripts to read, the one written to last first. -/
  pipes : List (String × List Byte)
  /-- What was written to the output and does not show yet, newest first. -/
  held : List (List Byte)
  /-- The files that were written to. -/
  opened : List String
  /-- What was written, newest first. -/
  written : List (Channel × List Byte)
  /-- The call: its input and its files. -/
  call : Call
  /-- The numbers of the ranges that are open. -/
  ranges : List Nat
  /-- What a function gives back. -/
  result : Cell
  /-- A number that no array has yet. -/
  fresh : Nat
  /-- The status at the end. -/
  status : Nat
  /-- What went wrong. -/
  failure : Option String

namespace Sheet

/-- The value of a variable that is no function's own. -/
def global (s : Sheet) (name : String) : Cell :=
  (s.globals.lookup name).getD .unset

/-- How numbers become texts. -/
def numberFormat (s : Sheet) : String :=
  (s.global "CONVFMT").toText "%.6g"

/-- A value as a text. -/
def textFor (s : Sheet) (c : Cell) : String :=
  c.toText s.numberFormat

/-- The text of a variable. -/
def globalText (s : Sheet) (name : String) : String :=
  s.textFor (s.global name)

/-- Set a variable that is no function's own. -/
def withGlobal (s : Sheet) (name : String) (c : Cell) : Sheet :=
  { s with globals := (name, c) :: s.globals.filter fun (n, _) => n != name }

/-- Count a variable up. -/
def countUp (s : Sheet) (name : String) : Sheet :=
  s.withGlobal name (.number ((s.global name).toFloat + 1))

/-- The fields of a text. -/
def fieldsOf (s : Sheet) (text : String) : List Cell :=
  let separator := s.globalText "FS"
  let lines := if s.globalText "RS" = "" && separator ≠ " " then
      (splitChars (· == '\n') text.toList).map String.ofList
    else [text]
  (lines.flatMap (cutText separator)).map .input

/-- Set the record. -/
def withRecord (s : Sheet) (text : String) : Sheet :=
  { s with record := text, fields := s.fieldsOf text }

/-- Set the fields. -/
def withFields (s : Sheet) (fields : List Cell) : Sheet :=
  { s with
    fields
    record := (s.globalText "OFS").intercalate (fields.map s.textFor) }

/-- A field; field zero is the record. -/
def fieldAt (s : Sheet) (index : Nat) : Cell :=
  if index = 0 then .input s.record else (s.fields[index - 1]?).getD .unset

/-- Set a field. -/
def withField (s : Sheet) (index : Nat) (c : Cell) : Sheet :=
  if index = 0 then s.withRecord (s.textFor c)
  else
    let filled := s.fields ++ List.replicate (index - s.fields.length) (.input "")
    s.withFields (filled.set (index - 1) c)

/-- Set the number of fields. -/
def withFieldCount (s : Sheet) (n : Nat) : Sheet :=
  s.withFields (s.fields.take n ++ List.replicate (n - s.fields.length) (.input ""))

/-- The value of a variable. -/
def valueOf (s : Sheet) (name : String) : Cell :=
  match s.locals.find? fun l => l.name == name with
  | some l => l.value
  | none => if name = "NF" then .number (Float.ofNat s.fields.length) else s.global name

/-- Set a variable. -/
def withValue (s : Sheet) (name : String) (c : Cell) : Sheet :=
  if s.locals.any fun l => l.name == name then
    { s with locals := s.locals.map fun l => if l.name == name then { l with value := c } else l }
  else if name = "NF" then s.withFieldCount (Decimal.truncated c.toFloat).toNat
  else s.withGlobal name c

/-- The array that a name stands for. -/
def arrayName (s : Sheet) (name : String) : String :=
  match s.locals.find? fun l => l.name == name with
  | some l => l.array
  | none => name

/-- The elements of an array. -/
def elements (s : Sheet) (name : String) : List (String × Cell) :=
  (s.arrays.lookup (s.arrayName name)).getD []

/-- Set the elements of an array. -/
def withElements (s : Sheet) (name : String) (elements : List (String × Cell)) : Sheet :=
  let target := s.arrayName name
  { s with arrays := (target, elements) :: s.arrays.filter fun (n, _) => n != target }

/-- Set an element of an array. -/
def withElement (s : Sheet) (name key : String) (c : Cell) : Sheet :=
  let before := s.elements name
  s.withElements name (if before.any fun (k, _) => k == key then
      before.map fun (k, v) => if k == key then (k, c) else (k, v)
    else before ++ [(key, c)])

/-- Let all show that was written to the output. -/
def flush (s : Sheet) : Sheet :=
  { s with written := s.held.map (fun bytes => (.output, bytes)) ++ s.written, held := [] }

/-- Write bytes to a channel; what is written to the output does not show at
once. -/
def put (s : Sheet) (channel : Channel) (bytes : List Byte) : Sheet :=
  if channel = .output then { s with held := bytes :: s.held }
  else { s with written := (channel, bytes) :: s.written }

/-- Run a script on an input of its own, and let show what it writes. -/
def runScript (s : Sheet) (script : String) (input : List Byte) : Sheet × Nat :=
  let r := s.call.shell script input s.call.tree
  ({ s with
    written := r.written.reverse ++ s.written
    call := { s.call with tree := r.tree } }, r.status)

/-- Run a script on what is left of the input. -/
def runBeside (s : Sheet) (script : String) : Sheet × Nat :=
  let s := s.flush
  let r := s.call.shell script s.call.input s.call.tree
  ({ s with
    written := r.written.reverse ++ s.written
    call := { s.call with tree := r.tree, input := r.input } }, r.status)

/-- What a script writes, read line by line later; messages show at once. -/
def openScript (s : Sheet) (script : String) : Sheet × List Byte :=
  let s := s.flush
  let r := s.call.shell script s.call.input s.call.tree
  let output := r.written.flatMap fun (channel, bytes) => if channel = .output then bytes else []
  let messages := r.written.filter fun (channel, _) => channel = .errors
  ({ s with
    written := messages.reverse ++ s.written
    call := { s.call with tree := r.tree, input := r.input } }, output)

/-- Write bytes for a script to read; what was written before it was first used
shows. -/
def putToScript (s : Sheet) (script : String) (bytes : List Byte) : Sheet :=
  match s.pipes.lookup script with
  | some before =>
      { s with
        pipes := (script, before ++ bytes) :: s.pipes.filter fun (k, _) => k != script }
  | none => { s.flush with pipes := (script, bytes) :: s.pipes }

/-- Run the scripts that were written to, and let all show that was written. -/
def finished (s : Sheet) : Sheet :=
  let run (t : Sheet) (pipe : String × List Byte) : Sheet := (t.runScript pipe.1 pipe.2).1
  (s.pipes.foldl run { s with pipes := [] }).flush

/-- Close a file or a script, with its status; there may be none. -/
def close (s : Sheet) (name : String) : Sheet × Int :=
  let isBeside (source : SideSource) : Bool := source = .file name || source = .script name
  match s.pipes.lookup name with
  | some bytes =>
      let (t, status) := s.runScript name bytes
      ({ t with pipes := t.pipes.filter fun (k, _) => k != name }, status)
  | none =>
      let known := s.opened.contains name || s.besides.any fun (k, _) => isBeside k
      ({ s with
        besides := s.besides.filter fun (k, _) => !isBeside k
        opened := s.opened.filter (· != name) }, if known then 0 else -1)

/-- Write bytes to a file: behind what is there, if it was written to before or
is to be added to. -/
def putTo (s : Sheet) (path : String) (appends : Bool) (bytes : List Byte) : Sheet :=
  if path = "-" || path = "/dev/stdout" then s.put .output bytes
  else if path = "/dev/stderr" then s.put .errors bytes
  else
    let before := if appends || s.opened.contains path then
        (s.call.read path).toOption.getD []
      else []
    match s.call.store s.call.tree path (before ++ bytes) with
    | .ok tree =>
        { s with call := { s.call with tree }, opened := path :: s.opened }
    | .error failure =>
        { s with failure := some ("cannot open \"" ++ path ++ "\" for output ("
          ++ failure.text ++ ")") }

end Sheet

/-! ## §3. Reading records. -/

/-- Set a variable from an argument of the command line, if it is one. -/
def assignmentArg? (arg : String) : Option (String × String) :=
  let name := arg.toList.takeWhile fun c => c.isAlphanum || c == '_'
  match arg.toList.drop name.length with
  | '=' :: value =>
      if name.isEmpty || name.head?.any Char.isDigit then none
      else some (String.ofList name, textOf (unescape value).1)
  | _ => none

/-- The next record of the input, with the sheet behind it; files are opened as
they come. -/
def Sheet.nextRecord? (s : Sheet) : Nat → Sheet × Option String
  | 0 => (s, none)
  | n + 1 =>
      let startFile (name : String) (bytes : List Byte) (s : Sheet) : Sheet :=
        { (s.withGlobal "FILENAME" (.text name)).withGlobal "FNR" (.number 0) with
          input := some bytes }
      match s.input with
      | some (b :: bytes) =>
          let (record, rest) := cutRecord (s.globalText "RS") (b :: bytes)
          (({ s with input := some rest }.countUp "NR").countUp "FNR", some (textOf record))
      | found =>
          match s.ahead with
          | [] =>
              if found.isSome then (s, none)
              else
                let t := startFile "-" s.call.input s
                { t with call := { t.call with input := [] } }.nextRecord? n
          | arg :: ahead =>
              let t := { s with ahead }
              match assignmentArg? arg with
              | some (name, value) => (t.withGlobal name (.input value)).nextRecord? n
              | none =>
                  match s.call.read arg with
                  | .ok bytes => (startFile arg bytes t).nextRecord? n
                  | .error failure =>
                      ({ t with
                        failure := some ("cannot open \"" ++ arg ++ "\" (" ++ failure.text
                          ++ ")") },
                        none)

end Stencil.Script
