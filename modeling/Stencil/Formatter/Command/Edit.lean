/-
  Stencil.Formatter.Command.Edit
  ──────────────────────────────
  The line editor as a command.

  `sed` edits its input, or files one after the other, and writes the result;
  or it puts the result back into the files.
-/
import Stencil.Formatter.Command.Amount
import Stencil.Formatter.LineEditor.Reader

namespace Stencil.Script

open Text (Byte)

/-- The options of `sed`. -/
def sedOptions : List Known :=
  [flag "n" "quiet", flag "n" "silent", flag "" "debug", valued "e" "expression",
   valued "f" "file", flag "" "follow-symlinks", optional "i" "in-place",
   valued "l" "line-length", flag "" "posix", flag "E" "regexp-extended", flag "r" "",
   flag "s" "separate", flag "" "sandbox", flag "u" "unbuffered", flag "z" "null-data",
   flag "z" "zero-terminated"]

/-- The name that a file has before it is edited in place: a star in the suffix
stands for its name. -/
def backupName (suffix name : String) : String :=
  if suffix.toList.contains '*' then fillMark "*" name suffix else name ++ suffix

/-- The files an edit writes to, empty at first. -/
def editTargets (program : List Instruction) : List String :=
  (program.filterMap fun i =>
    match i.edit with
    | .writeFile path | .writeFirst path => some path
    | .substitute s => s.target
    | _ => none).filter fun path => path ≠ "/dev/stdout" && path ≠ "/dev/stderr"

/-- Write what an edit has written to files. -/
def storeEdited (c : Call) (targets : List String) (edited : Edited) : Files.Tree :=
  targets.eraseDups.foldl
    (fun tree path =>
      let bytes := edited.files.flatMap fun (p, bytes) => if p = path then bytes else []
      (c.store tree path bytes).toOption.getD tree)
    c.tree

/-- The texts of the instructions, and the names of the files to edit. -/
def editTexts (c : Call) (o : Options) : Except String (List String × List String) := do
  if o.has "e" || o.has "f" then
    let texts ← o.flags.filterMapM fun (name, value) =>
      if name = "e" then .ok (some value)
      else if name = "f" then
        match c.read value with
        | .ok bytes => .ok (some (textOf (lineBody bytes)))
        | .error failure => .error ("couldn't open file " ++ value ++ ": " ++ failure.text)
      else .ok none
    return (texts, o.operands)
  else return (o.operands.take 1, o.operands.drop 1)

/-- The files that can be edited, up to the first that is none, with messages about the
others and the status they lead to. -/
def editSources (c : Call) (inPlace : Bool) : List (String × Except Files.Failure (List Byte)) →
    List (String × List Byte) × List (Channel × List Byte) × Nat
  | [] => ([], [], 0)
  | (name, .ok bytes) :: rest =>
      let (found, messages, status) := editSources c inPlace rest
      ((name, bytes) :: found, messages, status)
  | (name, .error .isDirectory) :: _ =>
      let message := if inPlace then "couldn't edit " ++ name ++ ": not a regular file"
        else "read error on " ++ name ++ ": Is a directory"
      ([], [(.errors, c.complaint message)], 4)
  | (name, .error failure) :: rest =>
      let (found, messages, status) := editSources c inPlace rest
      (found, (.errors, c.complaint ("can't read " ++ name ++ ": " ++ failure.text)) :: messages,
        if status = 0 then 2 else status)

/-- Put what an edit has written in the place of the files. -/
def replaceEdited (c : Call) (suffix : String) (found : List (String × List Byte))
    (edited : Edited) : Files.Tree :=
  let put (tree : Files.Tree) (name : String) (bytes : List Byte) : Files.Tree :=
    (c.store tree name bytes).toOption.getD tree
  let unread := edited.left.filterMap fun line => if line.isFirst then some line.file else none
  found.foldl
    (fun tree (name, bytes) =>
      if unread.contains name then tree
      else
        let tree := if suffix = "" then tree else put tree (backupName suffix name) bytes
        put tree name (edited.page name))
    c.tree

/-- Edit the input, or files. -/
def sed : Command := fun c =>
  match Options.ofArgs sedOptions true c.args with
  | .error fault => c.fail 1 fault.message
  | .ok o =>
      match editTexts c o with
      | .error message => c.fail 4 message
      | .ok (texts, names) =>
          if texts.isEmpty then c.fail 1 "no script specified"
          else
            match readProgram (o.has "E" || o.has "r") texts with
            | .error (message, status) => c.fail status message
            | .ok program =>
                let inPlace := o.has "i"
                let bench : Bench :=
                  { quiet := o.has "n" || (texts.head?.any fun text =>
                      text == "#n" || "#n\n".toList.isPrefixOf text.toList)
                    ending := if o.has "z" then 0 else lineFeed
                    width := ((o.value? "l").map numberOf).getD 70
                    separate := o.has "s" || inPlace
                    inPlace, program
                    fileAt := fun path => (c.read path).toOption
                    run := fun script =>
                      (c.shell script [] c.tree).written.flatMap fun (channel, bytes) =>
                        if channel = .output then bytes else [] }
                let (found, messages, trouble) := editSources c inPlace (c.contents names)
                let edited := editInput bench found
                let status := if trouble = 0 || trouble = 4 then max trouble edited.status
                  else if edited.status = 0 then trouble else edited.status
                if inPlace then
                  if names.isEmpty then c.fail 4 "no input files"
                  else ⟨status, messages, c.input,
                    replaceEdited c ((o.value? "i").getD "") found edited⟩
                else
                  let left := if c.fromFile || o.has "u" then
                      edited.left.flatMap fun line =>
                        if Call.isInput line.file then line.bytes else []
                    else c.leftOver names
                  ⟨status, messages ++ [(.output, edited.output)], left,
                    storeEdited c (editTargets program) edited⟩

end Stencil.Script
