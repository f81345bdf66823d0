/-
  Stencil.Formatter.Command.FileWork
  ──────────────────────────────────
  Work on files and on their names.

  `touch`, `mkdir`, `cp`, `mv`, `ln`, `rm` and `rmdir` change what there is, and
  `tee` keeps a copy of what passes through it.  `basename` and `dirname` take a
  path apart.
-/
import Stencil.Formatter.Command.Amount

namespace Stencil.Script

open Files (Tree)
open Text (Byte)

/-! ## §1. Names. -/

/-- A path without slashes at its end. -/
def withoutEndSlashes (path : String) : String :=
  let cs := (path.toList.reverse.dropWhile (· == '/')).reverse
  if cs.isEmpty && path ≠ "" then "/" else String.ofList cs

/-- The last name of a path. -/
def lastName (path : String) : String :=
  let whole := withoutEndSlashes path
  if whole = "/" then "/"
  else String.ofList (whole.toList.reverse.takeWhile (· != '/')).reverse

/-- A name without its ending, unless that is all of it. -/
def withoutEnding (name ending : String) : String :=
  if name ≠ ending && ending.toList.isSuffixOf name.toList then
    String.ofList (name.toList.take (name.length - ending.length))
  else name

/-- Give the last names of paths. -/
def basename : Command :=
  withFirstOptions [flag "a" "multiple", valued "s" "suffix", flag "z" "zero"] 1 fun o c =>
    let ending := if o.has "z" then "\x00" else "\n"
    let names (paths : List String) (suffix : String) : Result :=
      c.say (paths.flatMap fun p => bytesOf (withoutEnding (lastName p) suffix ++ ending))
    match o.value? "s", o.has "a", o.operands with
    | _, _, [] => c.misuse 1 "missing operand"
    | some suffix, _, paths => names paths suffix
    | none, true, paths => names paths ""
    | none, false, [path] => names [path] ""
    | none, false, [path, suffix] => names [path] suffix
    | none, false, _ :: _ :: extra :: _ => c.misuse 1 ("extra operand " ++ quotedArg extra)

/-- What a path is in. -/
def directoryName (path : String) : String :=
  let whole := withoutEndSlashes path
  let above := whole.toList.reverse.dropWhile (· != '/')
  if whole = "/" then "/"
  else if above.isEmpty then "."
  else withoutEndSlashes (String.ofList above.reverse)

/-- Give what paths are in. -/
def dirname : Command :=
  withFirstOptions [flag "z" "zero"] 1 fun o c =>
    let ending := if o.has "z" then "\x00" else "\n"
    if o.operands.isEmpty then c.misuse 1 "missing operand"
    else c.say (o.operands.flatMap fun p => bytesOf (directoryName p ++ ending))

/-! ## §2. Copies. -/

/-- Give the input, and keep copies of it. -/
def tee : Command :=
  let known := [flag "a" "append", flag "i" "ignore-interrupts", flag "p" "",
    optional "" "output-error"]
  let modes := [["warn"], ["warn-nopipe"], ["exit"], ["exit-nopipe"]]
  withOptions known 1 fun o c => c.orMisuse 1 do
    let _ ← o.chosen "output-error" modes
    let keep (state : Tree × List (Channel × List Byte)) (name : String) :
        Tree × List (Channel × List Byte) :=
      let (tree, messages) := state
      let before := if o.has "a" then (({ c with tree } : Call).read name).toOption.getD [] else []
      if name = "/dev/stdout" then (tree, messages ++ [(.output, c.input)])
      else if name = "/dev/stderr" then (tree, messages ++ [(.errors, c.input)])
      else
        match c.store tree name (before ++ c.input) with
        | .ok tree => (tree, messages)
        | .error failure =>
            (tree, messages ++ [(.errors, c.complaint (name ++ ": " ++ failure.text))])
    let (tree, messages) := o.operands.foldl keep (c.tree, [])
    let failed := messages.any fun (channel, _) => channel = .errors
    return ⟨if failed then 1 else 0, (.output, c.input) :: messages, [], tree⟩

/-! ## §3. Changes. -/

/-- What comes of a change. -/
structure Changed where
  /-- The files. -/
  tree : Tree
  /-- What is told about it, a line each. -/
  told : List String
  /-- What went wrong. -/
  trouble : List String

/-- A change that went well. -/
def Changed.well (tree : Tree) (told : List String) : Changed := ⟨tree, told, []⟩

/-- A change that was not made. -/
def Changed.not (tree : Tree) (message : String) : Changed := ⟨tree, [], [message]⟩

/-- Make a change for each argument, and tell about it if that is asked for. -/
def forEachName (c : Call) (names : List String) (tells : Bool)
    (change : Tree → String → Changed) : Result :=
  let step (state : Tree × List (Channel × List Byte)) (name : String) :
      Tree × List (Channel × List Byte) :=
    let r := change state.1 name
    let lines := r.told.map fun line => (Channel.output, bytesOf (line ++ "\n"))
    let told := if tells then lines else []
    (r.tree, state.2 ++ told ++ r.trouble.map fun text => (Channel.errors, c.complaint text))
  let (tree, messages) := names.foldl step (c.tree, [])
  let failed := messages.any fun (channel, _) => channel = .errors
  ⟨if failed then 1 else 0, messages, c.input, tree⟩

/-- All that is in a directory, the innermost first, with whether it is a
directory. -/
def insideOut (tree : Tree) : Nat → List String → String → List (String × Bool)
  | 0, _, _ => []
  | fuel + 1, place, name =>
      (tree.children place).flatMap fun child =>
        let path := name ++ "/" ++ child
        let inner := place ++ [child]
        if tree.hasDirectory inner then insideOut tree fuel inner path ++ [(path, true)]
        else [(path, false)]

/-- How deep directories may be inside of one another. -/
def depthLimit : Nat := 200

/-- The options of `rm`. -/
def rmOptions : List Known :=
  [flag "f" "force", flag "i" "", flag "I" "", optional "" "interactive",
   flag "" "one-file-system", flag "" "no-preserve-root", optional "" "preserve-root",
   flag "r" "recursive", flag "R" "", flag "d" "dir", flag "v" "verbose"]

/-- Take away what is at a path. -/
def removeAt (o : Options) (c : Call) (tree : Tree) (name : String) : Changed :=
  let deep := o.has "r" || o.has "R"
  let removed (path : String) (isDirectory : Bool) : String :=
    (if isDirectory then "removed directory " else "removed ") ++ fileArg path
  let cannot := "cannot remove " ++ fileArg name ++ ": "
  let missing (why : String) : Changed :=
    if o.has "f" then .well tree [] else .not tree (cannot ++ why)
  let last := lastName name
  match tree.place (c.path name) with
  | .error failure =>
      if failure = .notFound then missing failure.text else .not tree (cannot ++ failure.text)
  | .ok place =>
      if (tree.file? place).isSome then .well (tree.erase place) [removed name false]
      else if !tree.hasDirectory place then missing "No such file or directory"
      else if deep && place.isEmpty && !o.has "no-preserve-root" then
        .not tree ("it is dangerous to operate recursively on " ++ fileArg name ++ "\n"
          ++ c.name ++ ": use --no-preserve-root to override this failsafe")
      else if deep && (last = "." || last = "..") then
        .not tree ("refusing to remove '.' or '..' directory: skipping " ++ fileArg name)
      else if deep then
        .well (tree.eraseDirectory place)
          ((insideOut tree depthLimit place name ++ [(name, true)]).map fun (p, d) => removed p d)
      else if !o.has "d" then .not tree (cannot ++ "Is a directory")
      else if (tree.children place).isEmpty then
        .well (tree.eraseDirectory place) [removed name true]
      else .not tree (cannot ++ "Directory not empty")

/-- Take files away. -/
def rm : Command :=
  withOptions rmOptions 1 fun o c => c.orMisuse 1 do
    let _ ← o.chosen "interactive" [["never", "no", "none"], ["once"], ["always", "yes"]]
    if o.operands.isEmpty then
      if o.has "f" then return c.silent 0 else throw "missing operand"
    else return forEachName c o.operands (o.has "v") (removeAt o c)

/-- Create directories. -/
def mkdir : Command :=
  let known := [valued "m" "mode", flag "p" "parents", flag "v" "verbose", flag "Z" ""]
  withOptions known 1 fun o c =>
    let cannot (name : String) : String := "cannot create directory " ++ quotedArg name ++ ": "
    let created (name : String) : String := c.name ++ ": created directory " ++ quotedArg name
    if o.operands.isEmpty then c.misuse 1 "missing operand"
    else forEachName c o.operands (o.has "v") fun tree name =>
      if o.has "p" then
        let steps := (List.range (name.length + 1)).filterMap fun n =>
          let front := String.ofList (name.toList.take n)
          let next := (name.toList.drop n).head?
          if n ≠ 0 && (next = some '/' || next = none) && !front.endsWith "/" then some front
          else none
        steps.foldl
          (fun r front =>
            if !r.trouble.isEmpty then r
            else if r.tree.reachesDirectory (c.path front) then r
            else
              match r.tree.createDirectory (c.path front) with
              | .ok tree => { r with tree, told := r.told ++ [created front] }
              | .error failure =>
                  let why := if failure = .exists_ then
                      (if front = name then failure.text else "Not a directory")
                    else failure.text
                  { r with trouble := [cannot front ++ why] })
          (Changed.well tree [])
      else
        match tree.createDirectory (c.path name) with
        | .ok tree => .well tree [created name]
        | .error failure => .not tree (cannot name ++ failure.text)

/-- The paths that a path goes through, itself first. -/
def pathsUp : Nat → String → List String
  | 0, path => [path]
  | fuel + 1, path =>
      let above := directoryName path
      if above = "." || above = "/" then [path] else path :: pathsUp fuel above

/-- Take empty directories away. -/
def rmdir : Command :=
  let known := [flag "" "ignore-fail-on-non-empty", flag "p" "parents", flag "v" "verbose"]
  withOptions known 1 fun o c =>
    let gone (tree : Tree) (name : String) : Changed :=
      let told := ["rmdir: removing directory, " ++ fileArg name]
      let failed (why : String) : Changed :=
        ⟨tree, told, ["failed to remove " ++ fileArg name ++ ": " ++ why]⟩
      match tree.place (c.path name) with
      | .error failure => failed failure.text
      | .ok place =>
          if (tree.file? place).isSome then failed "Not a directory"
          else if !tree.hasDirectory place then failed "No such file or directory"
          else if !(tree.children place).isEmpty then
            if o.has "ignore-fail-on-non-empty" then ⟨tree, told, []⟩
            else failed "Directory not empty"
          else ⟨tree.eraseDirectory place, told, []⟩
    if o.operands.isEmpty then c.misuse 1 "missing operand"
    else forEachName c o.operands (o.has "v") fun tree name =>
      let all := if o.has "p" then pathsUp name.length (withoutEndSlashes name) else [name]
      all.foldl
        (fun r path =>
          if !r.trouble.isEmpty then r
          else
            let next := gone r.tree path
            ⟨next.tree, r.told ++ next.told, next.trouble⟩)
        (Changed.well tree [])

/-- The options of `touch`. -/
def touchOptions : List Known :=
  [flag "a" "", flag "c" "no-create", valued "d" "date", flag "f" "", flag "h" "no-dereference",
   flag "m" "", valued "r" "reference", valued "t" "", valued "" "time"]

/-- Create files that are not there. -/
def touch : Command :=
  withOptions touchOptions 1 fun o c =>
    let missing := (o.values "r").find? fun name => !c.tree.reaches (c.path name)
    if let some name := missing then
      c.fail 1 ("failed to get attributes of " ++ fileArg name ++ ": No such file or directory")
    else if o.operands.isEmpty then c.misuse 1 "missing file operand"
    else forEachName c o.operands false fun tree name =>
      if tree.reaches (c.path name) || o.has "c" then .well tree []
      else
        match c.store tree name [] with
        | .ok tree => .well tree []
        | .error failure =>
            .not tree ("cannot touch " ++ fileArg name ++ ": " ++ failure.text)

/-! ## §4. Copying and moving. -/

/-- The options of `cp`, `mv` and `ln`. -/
def transferOptions : List Known :=
  [flag "a" "archive", flag "" "attributes-only", flag "b" "", optional "" "backup",
   flag "" "copy-contents", flag "d" "", flag "f" "force", flag "i" "interactive", flag "H" "",
   flag "l" "link", flag "L" "dereference", flag "n" "no-clobber", flag "P" "no-dereference",
   flag "p" "", optional "" "preserve", valued "" "no-preserve", flag "" "parents",
   flag "R" "recursive", flag "r" "", optional "" "reflink", flag "" "remove-destination",
   valued "" "sparse", flag "" "strip-trailing-slashes", flag "s" "symbolic-link",
   valued "S" "suffix", valued "t" "target-directory", flag "T" "no-target-directory",
   optional "" "update", flag "u" "", flag "v" "verbose", flag "x" "one-file-system"]

/-- A copy of what is at a place; what was there is kept under another name if
that is asked for. -/
structure Transfer where
  /-- Is the first one taken away? -/
  moves : Bool
  /-- Are directories copied? -/
  deep : Bool
  /-- Does what is there stay? -/
  spares : Bool
  /-- The ending of the name of what was there. -/
  backup : Option String

/-- Keep what is at a path under another name. -/
def Transfer.keep (k : Transfer) (c : Call) (tree : Tree) (path : String) : Tree :=
  match k.backup, ({ c with tree } : Call).read path with
  | some suffix, .ok bytes => (c.store tree (path ++ suffix) bytes).toOption.getD tree
  | _, _ => tree

/-- Bring what is at one path to another. -/
def Transfer.run (k : Transfer) (c : Call) (tree : Tree) (source path : String) : Changed :=
  let line := fileArg source ++ " -> " ++ fileArg path
  let told := [(if k.moves then "renamed " else "") ++ line]
  match tree.read (c.path source), tree.place (c.path source), tree.place (c.path path) with
  | .error .isDirectory, .ok taken, placed =>
      if !k.moves && !k.deep then
        .not tree ("-r not specified; omitting directory " ++ fileArg source)
      else
        match placed with
        | .error failure =>
            .not tree (if k.moves then "cannot move " ++ fileArg source ++ " to " ++ fileArg path
                ++ ": " ++ failure.text
              else "cannot create directory " ++ fileArg path ++ ": " ++ failure.text)
        | .ok placed =>
            if (tree.file? placed).isSome then
              .not tree ("cannot overwrite non-directory " ++ fileArg path ++ " with directory "
                ++ fileArg source)
            else if taken.isPrefixOf placed then
              if k.moves then
                .not tree ("cannot move " ++ fileArg source ++ " to a subdirectory of itself, "
                  ++ fileArg path)
              else
                .not (if taken = placed then tree else tree.copyDirectory taken placed)
                  ("cannot copy a directory, " ++ fileArg source ++ ", into itself, "
                    ++ fileArg path)
            else
              let copied := (insideOut tree depthLimit taken "").reverse.map fun (inner, _) =>
                fileArg (source ++ inner) ++ " -> " ++ fileArg (path ++ inner)
              let after := tree.copyDirectory taken placed
              if k.moves then .well (after.eraseDirectory taken) told
              else .well after (told ++ copied)
  | .error failure, _, _ =>
      .not tree ("cannot stat " ++ fileArg source ++ ": " ++ failure.text)
  | .ok content, taken, placed =>
      if taken.toOption = placed.toOption && taken.isOk then
        .not tree (fileArg source ++ " and " ++ fileArg path ++ " are the same file")
      else if placed.toOption.any tree.hasDirectory then
        .not tree ("cannot overwrite directory " ++ fileArg path ++ " with non-directory")
      else if k.spares && tree.reaches (c.path path) then .well tree []
      else
        match c.store (k.keep c tree path) path (Text.toBytes content) with
        | .error failure =>
            .not tree (if k.moves then "cannot move " ++ fileArg source ++ " to " ++ fileArg path
                ++ ": " ++ (if failure = .isDirectory then "Not a directory" else failure.text)
              else "cannot create regular file " ++ fileArg path ++ ": "
                ++ (if failure = .isDirectory then "Not a directory" else failure.text))
        | .ok after =>
            match k.moves, taken with
            | true, .ok gone => .well (after.erase gone) told
            | _, _ => .well after told

/-- Where arguments ask things to be brought from and to: into a directory, or to
a path. -/
def transferPaths (c : Call) (o : Options) : Except (Bool × String) (List String × Option String) :=
  match o.value? "t", o.operands.reverse with
  | _, [] => .error (true, "missing file operand")
  | some directory, _ =>
      if c.tree.reachesDirectory (c.path directory) then .ok (o.operands, some directory)
      else .error (false, "target directory " ++ quotedArg directory ++ ": "
        ++ (if c.tree.reaches (c.path directory) then "Not a directory"
          else "No such file or directory"))
  | none, [source] =>
      .error (true, "missing destination file operand after " ++ quotedArg source)
  | none, target :: sources =>
      let isDirectory := c.tree.reachesDirectory (c.path target)
      if o.has "T" then
        match sources with
        | [_] => .ok (sources, none)
        | _ => .error (true, "extra operand " ++ quotedArg ((o.operands[2]?).getD ""))
      else if isDirectory then .ok (sources.reverse, some target)
      else if 1 < sources.length then
        .error (false, "target " ++ quotedArg target ++ ": "
          ++ (if c.tree.reaches (c.path target) then "Not a directory"
            else "No such file or directory"))
      else .ok (sources, none)

/-- The path of something inside of a directory. -/
def insideOf (directory name : String) : String :=
  if directory.endsWith "/" then directory ++ name else directory ++ "/" ++ name

/-- What goes before the name of what was there, if it is kept. -/
def backupSuffix (o : Options) : Option String :=
  match o.last? ["b", "backup"] with
  | none => if o.has "S" then o.value? "S" else none
  | some (_, "none") | some (_, "off") => none
  | some (_, "numbered") | some (_, "t") => some ".~1~"
  | some _ => some ((o.value? "S").getD "~")

/-- Copy files, or move them. -/
def transfer (moves : Bool) : Command :=
  withOptions transferOptions 1 fun o c =>
    match transferPaths c o with
    | .error (true, message) => c.misuse 1 message
    | .error (false, message) => c.fail 1 message
    | .ok (sources, directory) =>
        let k : Transfer :=
          { moves
            deep := o.has "r" || o.has "R" || o.has "a"
            spares := o.has "n" || o.value? "update" == some "none"
            backup := backupSuffix o }
        let warning := if !moves && o.has "n" then
            [(Channel.errors, c.complaint ("warning: behavior of -n is non-portable and may change "
              ++ "in future; use --update=none instead"))]
          else []
        let target := (o.operands.getLast?).getD ""
        let r := forEachName c sources (o.has "v") fun tree source =>
          let name := if o.has "parents" then source else lastName source
          let path := match directory with
            | some d => insideOf d name
            | none => target
          let tree := if o.has "parents" then
              (tree.createDirectories (c.path (directoryName path))).toOption.getD tree
            else tree
          k.run c tree source path
        { r with written := warning ++ r.written }

/-- Give files another name as well. -/
def ln : Command :=
  let known := [flag "s" "symbolic", flag "f" "force", flag "i" "interactive", flag "v" "verbose",
    flag "n" "no-dereference", flag "L" "logical", flag "P" "physical", flag "r" "relative",
    flag "T" "no-target-directory", valued "t" "target-directory", flag "b" "",
    optional "" "backup", valued "S" "suffix", flag "d" "directory", flag "F" ""]
  withOptions known 1 fun o c =>
    let o := match o.operands with
      | [single] => { o with operands := [single, "."] }
      | _ => o
    match transferPaths c o with
    | .error (true, message) => c.misuse 1 message
    | .error (false, message) => c.fail 1 message
    | .ok (sources, directory) =>
        let target := (o.operands.getLast?).getD ""
        let kind := if o.has "s" then "symbolic link" else "hard link"
        forEachName c sources (o.has "v") fun tree source =>
          let path := match directory with
            | some d => if d = "." then lastName source else insideOf d (lastName source)
            | none => target
          let told := [quotedArg path ++ (if o.has "s" then " -> " else " => ") ++ quotedArg source]
          let seen := if o.has "s" && !(source.toList.head? = some '/') then
              insideOf (directoryName path) source else source
          if tree.reaches (c.path path) && !o.has "f" then
            .not tree ("failed to create " ++ kind ++ " " ++ quotedArg path ++ ": File exists")
          else
            match tree.read (c.path seen) with
            | .ok content =>
                match c.store tree path (Text.toBytes content) with
                | .ok after => .well after told
                | .error failure =>
                    .not tree ("failed to create " ++ kind ++ " " ++ quotedArg path ++ ": "
                      ++ failure.text)
            | .error failure =>
                if o.has "s" then .well tree told
                else if failure = .isDirectory then
                  .not tree (source ++ ": hard link not allowed for directory")
                else .not tree ("failed to access " ++ quotedArg source ++ ": " ++ failure.text)

end Stencil.Script
