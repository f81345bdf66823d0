/-
  Stencil.Formatter.Command
  ─────────────────────────
  Commands, as they are called.

  A command gets its arguments, its input and the files, and leaves behind a
  status, what it wrote and the files as they are then.  What it wrote is kept
  in order, each piece with its channel.
-/
import Stencil.Files.Tree
import Stencil.Formatter.ByteText

namespace Stencil.Script

open Files (Tree)
open Text (Byte)

/-- Where a command writes to. -/
inductive Channel where
  /-- The output. -/
  | output
  /-- The error output. -/
  | errors
  deriving Repr, DecidableEq

/-- What a command leaves behind. -/
structure Result where
  /-- Its status; zero means success. -/
  status : Nat
  /-- What it wrote, in order. -/
  written : List (Channel × List Byte)
  /-- What is left of the input. -/
  input : List Byte
  /-- The files. -/
  tree : Tree

/-- What a command gets. -/
structure Call where
  /-- The name it was called by. -/
  name : String
  /-- Its arguments. -/
  args : List String
  /-- Its input. -/
  input : List Byte
  /-- Does the input come from a file, so that one can go back in it? -/
  fromFile : Bool
  /-- Why the input cannot be read, if so. -/
  unreadable : Option Files.Failure
  /-- The files. -/
  tree : Tree
  /-- Where relative paths start. -/
  directory : String
  /-- The variables it sees. -/
  environment : List (String × String)
  /-- What comes of a script with an input. -/
  shell : (script : String) → (input : List Byte) → Tree → Result

/-- A command. -/
abbrev Command := Call → Result

/-! ## §1. Names in messages. -/

/-- A character as it is written with a backslash. -/
def backslashed (c : Char) : String :=
  match [('\n', "\\n"), ('\t', "\\t"), ('\r', "\\r"), ('\x07', "\\a"), ('\x08', "\\b"),
      ('\x0b', "\\v"), ('\x0c', "\\f")].lookup c with
  | some text => text
  | none =>
      let digits := Nat.toDigits 8 c.toNat
      "\\" ++ String.ofList (List.replicate (3 - digits.length) '0' ++ digits)

/-- Is a character no visible one? -/
def isUnseen (c : Char) : Bool := c.toNat < 32 || 127 ≤ c.toNat

/-- A name in quotes. -/
def quotedArg (name : String) : String :=
  "'" ++ String.join (name.toList.map fun c =>
    if isUnseen c then backslashed c
    else if c = '\'' then "\\'"
    else if c = '\\' then "\\\\"
    else c.toString) ++ "'"

/-- Runs of characters that are all visible, or all not. -/
def seenRuns : List Char → List (List Char)
  | [] => []
  | c :: cs =>
      match seenRuns cs with
      | (d :: run) :: runs =>
          if isUnseen c = isUnseen d then (c :: d :: run) :: runs else [c] :: (d :: run) :: runs
      | runs => [c] :: runs

/-- A name as a script would write it: in quotes only if it needs them. -/
def scriptArg (name : String) : String :=
  let cs := name.toList
  let special (c : Char) : Bool := " !\"$&'()*:;<=>?[\\^\x60|".toList.contains c
  let first (c : Char) : Bool := c = '~' || c = '#'
  let single (cs : List Char) : String :=
    "'" ++ String.join (cs.map fun c => if c = '\'' then "'\\''" else c.toString) ++ "'"
  if cs.any isUnseen then
    let runs := match seenRuns cs with
      | (c :: run) :: runs => if isUnseen c then [] :: (c :: run) :: runs else (c :: run) :: runs
      | runs => runs
    String.join (runs.map fun run =>
      if run.any isUnseen then "$'" ++ String.join (run.map backslashed) ++ "'" else single run)
  else if name ≠ "" && !cs.any special && !(cs.head?.map first).getD false then name
  else if cs.contains '\'' && !cs.any fun c => "\"$\\!\x60".toList.contains c then
    "\"" ++ name ++ "\""
  else single cs

/-- A name as a script would write it, always in quotes. -/
def fileArg (name : String) : String :=
  let shown := scriptArg name
  if shown = name then "'" ++ name ++ "'" else shown

/-! ## §2. Calls. -/

namespace Call

/-- End with a status, with nothing read and nothing written. -/
def silent (c : Call) (status : Nat) : Result :=
  ⟨status, [], c.input, c.tree⟩

/-- Write without reading. -/
def say (c : Call) (output : List Byte) : Result :=
  ⟨0, [(.output, output)], c.input, c.tree⟩

/-- Write after all of the input was read. -/
def filtered (c : Call) (output : List Byte) : Result :=
  ⟨0, [(.output, output)], [], c.tree⟩

/-- A message about an error, on a line. -/
def complaint (c : Call) (message : String) : List Byte :=
  bytesOf (c.name ++ ": " ++ message ++ "\n")

/-- End with a message about an error. -/
def fail (c : Call) (status : Nat) (message : String) : Result :=
  ⟨status, [(.errors, c.complaint message)], c.input, c.tree⟩

/-- A path from where relative paths start. -/
def path (c : Call) (text : String) : String :=
  Files.join c.directory (toUnicode text)

/-- Does a name stand for the input? -/
def isInput (name : String) : Bool :=
  name == "-" || name == "/dev/stdin"

/-- How many bytes there are where there is no end of them. -/
def endlessBytes : Nat := 65536

/-- The bytes of a file; a hyphen stands for the input. -/
def read (c : Call) (text : String) : Except Files.Failure (List Byte) :=
  if isInput text then
    match c.unreadable with
    | none => .ok c.input
    | some failure => .error failure
  else if text = "/dev/zero" then .ok (List.replicate endlessBytes 0)
  else (c.tree.read (c.path text)).map Text.toBytes

/-- The contents of files by their names; the input can be read only once. -/
def contentsOf (c : Call) : List String → List (String × Except Files.Failure (List Byte))
  | [] => []
  | name :: rest =>
      (name, c.read name)
        :: ({ c with input := if isInput name then [] else c.input } : Call).contentsOf rest

/-- The contents of files by their names; without names, the input. -/
def contents (c : Call) (names : List String) :
    List (String × Except Files.Failure (List Byte)) :=
  if names.isEmpty then [("-", c.read "-")] else c.contentsOf names

/-- What is left of the input when these files were read. -/
def leftOver (c : Call) (names : List String) : List Byte :=
  if names.isEmpty || names.any isInput then [] else c.input

/-- What cannot be read, and why. -/
def plainTrouble (name : String) (failure : Files.Failure) : String :=
  scriptArg name ++ ": " ++ failure.text

/-- What cannot be opened, and why; what is no text file is found out later. -/
def openTrouble (verb : String) (name : String) (failure : Files.Failure) : String :=
  if failure = .isDirectory then "error reading " ++ fileArg name ++ ": " ++ failure.text
  else verb ++ " " ++ fileArg name ++ " for reading: " ++ failure.text

/-- Go through files one by one, each of which gives an output; one that cannot
be read gives a message. -/
def eachOr (c : Call) (trouble : String → Files.Failure → String) (status : Nat)
    (names : List String) (make : String → List Byte → List Byte) : Result :=
  let found := c.contents names
  let written := found.map fun (name, content) =>
    match content with
    | .ok bytes => (Channel.output, make name bytes)
    | .error failure => (Channel.errors, c.complaint (trouble name failure))
  ⟨if found.all fun (_, content) => content.isOk then 0 else status, written, c.leftOver names,
    c.tree⟩

/-- Go through files one by one, each of which gives an output. -/
def each (c : Call) (names : List String) (make : String → List Byte → List Byte) : Result :=
  c.eachOr plainTrouble 1 names make

/-- Put all files together, in front of which come messages about those that
cannot be read, and give one output. -/
def togetherOr (c : Call) (trouble : String → Files.Failure → String) (status : Nat)
    (names : List String) (make : List Byte → List Byte) : Result :=
  let found := c.contents names
  let bytes := found.flatMap fun (_, content) => content.toOption.getD []
  let messages := found.filterMap fun (name, content) =>
    match content with
    | .ok _ => none
    | .error failure => some (Channel.errors, c.complaint (trouble name failure))
  ⟨if messages.isEmpty then 0 else status, messages ++ [(.output, make bytes)], c.leftOver names,
    c.tree⟩

/-- Put all files together, and give one output. -/
def together (c : Call) (names : List String) (make : List Byte → List Byte) : Result :=
  c.togetherOr plainTrouble 1 names make

/-- Put bytes into a file. -/
def store (c : Call) (tree : Tree) (text : String) (bytes : List Byte) :
    Except Files.Failure Tree := do
  match ← tree.target (c.path text) with
  | .file place => return tree.put place (Text.decodeLenient bytes)
  | .full => throw .noSpace
  | _ => return tree

end Call

/-- Put a text in the place of a mark. -/
def fillMark (mark text arg : String) : String :=
  if mark = "" then arg else text.intercalate (arg.splitOn mark)

end Stencil.Script
