/-
  Stencil.Formatter.Command.Records
  ─────────────────────────────────
  Programs over records as a command.

  `awk` runs a program over its input, or over files one after the other.
-/
import Stencil.Formatter.Command.Amount
import Stencil.Formatter.RecordProgram.Run

namespace Stencil.Script

open Text (Byte)

/-- The variables there are from the start. -/
def firstGlobals : List (String × Cell) :=
  [("FS", .text " "), ("OFS", .text " "), ("ORS", .text "\n"), ("RS", .text "\n"),
   ("SUBSEP", .text "\x1c"), ("CONVFMT", .text "%.6g"), ("OFMT", .text "%.6g"),
   ("NR", .number 0), ("FNR", .number 0), ("RSTART", .number 0), ("RLENGTH", .number (-1)),
   ("FILENAME", .text "")]

/-- The sheet at the start. -/
def firstSheet (c : Call) (globals : List (String × Cell)) (ahead : List String) : Sheet :=
  let args := "awk" :: ahead
  { globals := globals ++ ("ARGC", .number (Float.ofNat args.length)) :: firstGlobals
    locals := []
    arrays :=
      [("ENVIRON", c.environment.map fun (name, value) => (name, .input value)),
       ("ARGV", args.zipIdx.map fun (arg, i) => (toString i, .input arg))]
    record := ""
    fields := []
    input := none
    ahead
    besides := []
    pipes := []
    held := []
    opened := []
    written := []
    call := c
    ranges := []
    result := .unset
    fresh := 0
    status := 0
    failure := none }

/-- What comes before the first file, and where the program is: options that set
variables, and one that names a file. -/
structure RecordOptions where
  /-- The variables. -/
  globals : List (String × Cell)
  /-- The files with the program. -/
  files : List String
  /-- All other arguments. -/
  operands : List String

namespace RecordOptions

/-- Set what separates fields. -/
def withSeparator (o : RecordOptions) (text : String) : RecordOptions :=
  { o with globals := o.globals ++ [("FS", .text (textOf (unescape text.toList).1))] }

/-- Set a variable. -/
def withSetting (o : RecordOptions) (text : String) : Except String RecordOptions :=
  match assignmentArg? text with
  | some (name, value) => .ok { o with globals := o.globals ++ [(name, .input value)] }
  | none => .error ("improper assignment: -v " ++ text)

/-- Add a file with the program. -/
def withFile (o : RecordOptions) (text : String) : RecordOptions :=
  { o with files := text :: o.files }

/-- Sort out arguments. -/
def ofArgs : List String → Except String RecordOptions
  | [] => .ok ⟨[], [], []⟩
  | arg :: rest =>
      match arg.toList, rest with
      | ['-', '-'], rest => .ok ⟨[], [], rest⟩
      | ['-', 'W'], _ :: rest => ofArgs rest
      | ['-', letter], [] =>
          if letter = 'F' || letter = 'v' || letter = 'f' then
            .error ("option " ++ arg ++ " lacks argument")
          else .error ("not an option: " ++ arg)
      | ['-', 'F'], text :: rest => (ofArgs rest).map (·.withSeparator text)
      | '-' :: 'F' :: cs, rest => (ofArgs rest).map (·.withSeparator (String.ofList cs))
      | ['-', 'v'], text :: rest => (ofArgs rest).bind (·.withSetting text)
      | '-' :: 'v' :: cs, rest => (ofArgs rest).bind (·.withSetting (String.ofList cs))
      | ['-', 'f'], text :: rest => (ofArgs rest).map (·.withFile text)
      | '-' :: 'f' :: cs, rest => (ofArgs rest).map (·.withFile (String.ofList cs))
      | '-' :: _ :: _, _ => .error ("not an option: " ++ arg)
      | _, rest => .ok ⟨[], [], arg :: rest⟩

end RecordOptions

/-- Run a program over records. -/
def awk : Command := fun c => c.orFail 2 do
  let o ← RecordOptions.ofArgs c.args
  let texts ← o.files.mapM fun name =>
    match c.read name with
    | .ok bytes => .ok (textOf bytes)
    | .error failure => .error ("cannot open \"" ++ name ++ "\" (" ++ failure.text ++ ")")
  let (source, operands) := if o.files.isEmpty then (o.operands.headD "", o.operands.drop 1)
    else ("\n".intercalate texts, o.operands)
  if o.files.isEmpty && o.operands.isEmpty then return c.silent 0
  else
    let program ← RecordProgram.ofText source.toList
    let (_, s) := program.run.run (firstSheet c o.globals operands)
    let left := s.call.input
    return match s.failure with
      | some message =>
          ⟨2, (.errors, c.complaint message) :: s.written.reverse, left, s.call.tree⟩
      | none => ⟨s.status, s.written.reverse, left, s.call.tree⟩

end Stencil.Script
