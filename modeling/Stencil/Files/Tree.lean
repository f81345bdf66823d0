/-
  Stencil.Files.Tree
  ──────────────────
  Directories of text files.

  A tree holds its files by the list of names that lead to them from the root
  of all files.  A directory is there when something is in it, when it was
  created, or when every system has it.  Paths are followed name by name:
  each name but the last has to lead to a directory, two dots lead up, and
  the root is above itself.  A relative path starts in the working directory.
-/
import Stencil.Files.Name

namespace Stencil.Files

/-! ## §1. Trees. -/

/-- Text files and directories. -/
structure Tree where
  /-- The files, each with the names that lead to it. -/
  files : List (List String × String)
  /-- Directories that were created. -/
  created : List (List String)
  deriving Repr, DecidableEq

/-- What a file operation can fail with. -/
inductive Failure where
  /-- There is no such file or directory. -/
  | notFound
  /-- There is already a file. -/
  | exists_
  /-- A file stands where a directory is needed. -/
  | notDirectory
  /-- A directory stands where a file is needed. -/
  | isDirectory
  /-- The device takes in nothing. -/
  | noSpace
  /-- A name or a path is too long. -/
  | nameTooLong
  /-- There is no such device. -/
  | noDevice
  deriving Repr, DecidableEq

/-- A failure in words. -/
def Failure.text : Failure → String
  | notFound => "No such file or directory"
  | exists_ => "File exists"
  | notDirectory => "Not a directory"
  | isDirectory => "Is a directory"
  | noSpace => "No space left on device"
  | nameTooLong => "File name too long"
  | noDevice => "No such device or address"

/-- The number of a failure. -/
def Failure.code : Failure → Nat
  | notFound => 2
  | exists_ => 17
  | notDirectory => 20
  | isDirectory => 21
  | noSpace => 28
  | nameTooLong => 36
  | noDevice => 6

/-- The wording of a failure, with its number. -/
def Failure.message (f : Failure) : String :=
  f.text ++ " (os error " ++ toString f.code ++ ")"

/-- Where relative paths start. -/
def workplace : List String := ["tmp", "workplace"]

/-- Directories that every system has. -/
def systemDirectories : List (List String) :=
  [["bin"], ["boot"], ["dev"], ["dev", "pts"], ["dev", "shm"], ["etc"], ["home"], ["lib"], ["mnt"],
   ["opt"], ["proc"], ["root"], ["run"], ["sbin"], ["srv"], ["sys"], ["tmp"], ["usr"],
   ["usr", "bin"], ["usr", "lib"], ["usr", "local"], ["usr", "sbin"], ["usr", "share"], ["var"],
   ["var", "lib"], ["var", "log"], ["var", "tmp"]]

/-- The device that swallows what is written to it, and is empty. -/
def nullDevice : List String := ["dev", "null"]

/-- What every system has in its directory of devices that is neither a text file nor
a directory. -/
def devices : List String :=
  ["console", "full", "null", "ptmx", "random", "stderr", "stdin", "stdout", "tty", "urandom",
   "zero"]

/-- Is there a device at a place? -/
def isDevice (place : List String) : Bool :=
  match place with
  | ["dev", name] => devices.contains name
  | _ => false

/-- Files that every system has, with their first lines. -/
def systemFiles : List (List String × String) :=
  [(["etc", "hosts"], "127.0.0.1\tlocalhost\n"),
   (["etc", "passwd"], "root:x:0:0:root:/root:/bin/bash\n")]

/-- Is a place in the directory that tells about processes, in which nothing can be
created? -/
def isAboutProcesses (place : List String) : Bool :=
  ["proc"].isPrefixOf place

namespace Tree

/-- No files. -/
def empty : Tree := ⟨[], []⟩

/-- The file at a place. -/
def file? (t : Tree) (place : List String) : Option String :=
  if place = nullDevice || place = ["dev", "stdin"] then some ""
  else (t.files.lookup place).orElse fun _ => systemFiles.lookup place

/-- Is there a directory at a place? -/
def hasDirectory (t : Tree) (place : List String) : Bool :=
  place.isPrefixOf workplace
    || systemDirectories.contains place
    || t.created.any (place.isPrefixOf ·)
    || t.files.any fun (names, _) => names.length > place.length && place.isPrefixOf names

/-- Is there anything at a place? -/
def holds (t : Tree) (place : List String) : Bool :=
  (t.file? place).isSome || t.hasDirectory place || isDevice place

/-- The names right inside a directory, in order and without repetition. -/
def children (t : Tree) (place : List String) : List String :=
  let below (names : List String) : Option String :=
    if place.isPrefixOf names then (names.drop place.length).head? else none
  let all := t.files.map Prod.fst ++ t.created ++ workplace :: systemDirectories
  ((all.filterMap below).mergeSort fun a b => decide (a ≤ b)).eraseDups

/-! ## §2. Following paths. -/

/-- The bytes a name may have. -/
def nameLimit : Nat := 255

/-- The bytes a path may have. -/
def pathLimit : Nat := 4095

/-- Where a name leads from a directory, whether or not something is there. -/
def step (place : List String) (name : String) : Except Failure (List String) :=
  if name = "." then .ok place
  else if name = ".." then .ok place.dropLast
  else if nameLimit < name.utf8ByteSize then .error .nameTooLong
  else .ok (place ++ [name])

/-- Follow names from a directory, each of which leads to a directory. -/
def enter (t : Tree) (place : List String) : List String → Except Failure (List String)
  | [] => .ok place
  | name :: rest =>
      match step place name with
      | .error failure => .error failure
      | .ok next =>
          if t.hasDirectory next then t.enter next rest
          else .error (if t.holds next then .notDirectory else .notFound)

/-- A directory, and what a path names in it last; the root has no name. -/
structure Spot where
  /-- The directory. -/
  directory : List String
  /-- The last name. -/
  name : Option String
  deriving Repr, DecidableEq

/-- Follow a path up to its last name. -/
def spot (t : Tree) (path : String) : Except Failure Spot :=
  if path = "" then .error .notFound
  else if pathLimit < path.utf8ByteSize then .error .nameTooLong
  else
    let along := names path
    (t.enter (if isAbsolute path then [] else workplace) along.dropLast).map
      (⟨·, along.getLast?⟩)

/-- Where a spot is, whether or not something is there. -/
def Spot.place (s : Spot) : Except Failure (List String) :=
  match s.name with
  | none => .ok s.directory
  | some name => step s.directory name

/-- Does the spot name the directory itself or the one above? -/
def Spot.isDirectory (s : Spot) : Bool :=
  match s.name with
  | none => true
  | some name => name == "." || name == ".."

/-- The place a path leads to, whether or not something is there. -/
def place (t : Tree) (path : String) : Except Failure (List String) :=
  (t.spot path).bind Spot.place

/-- Is there a directory at the end of a path? -/
def reachesDirectory (t : Tree) (path : String) : Bool :=
  match t.place path with
  | .ok place => t.hasDirectory place
  | .error _ => false

/-- Is there anything at the end of a path?  A slash at its end asks for a
directory. -/
def reaches (t : Tree) (path : String) : Bool :=
  match t.place path with
  | .ok place => if endsInSlash path then t.hasDirectory place else t.holds place
  | .error _ => false

/-! ## §3. Reading and writing. -/

/-- Read a file. -/
def read (t : Tree) (path : String) : Except Failure String := do
  let place ← t.place path
  match t.file? place with
  | some content => if endsInSlash path then throw .notDirectory else return content
  | none =>
      throw (if t.hasDirectory place then .isDirectory
        else if place = ["dev", "tty"] then .noDevice else .notFound)

/-- Put a file at a place. -/
def put (t : Tree) (place : List String) (content : String) : Tree :=
  if isDevice place then t
  else if (t.files.lookup place).isSome then
    { t with files := t.files.map fun (p, c) => (p, if p = place then content else c) }
  else { t with files := t.files ++ [(place, content)] }

/-- Take away the file at a place; the directory it was in stays. -/
def erase (t : Tree) (place : List String) : Tree :=
  { files := t.files.filter fun (p, _) => p != place
    created := t.created ++ [place.dropLast] }

/-- Put a copy of a directory and of all that is in it at another place. -/
def copyDirectory (t : Tree) (source target : List String) : Tree :=
  let moved (place : List String) : Option (List String) :=
    if source.isPrefixOf place then some (target ++ place.drop source.length) else none
  let files := t.files.filterMap fun (place, content) => (moved place).map (·, content)
  let created := (source :: t.created).filterMap moved
  let start : Tree := { t with created := created ++ t.created }
  files.foldl (fun t (place, content) => t.put place content) start

/-- Take away a directory and all that is in it; the directory it was in stays. -/
def eraseDirectory (t : Tree) (place : List String) : Tree :=
  { files := t.files.filter fun (p, _) => !place.isPrefixOf p
    created := (t.created.filter fun p => !place.isPrefixOf p) ++ [place.dropLast] }

/-- The tree of files by their paths from the working directory; a later file
replaces an earlier one. -/
def ofList (files : List (String × String)) : Tree :=
  files.foldl
    (fun t (path, content) => t.put (workplace ++ (names path).filter (· ≠ ".")) content) empty

/-- Create a directory in one that is there. -/
def createDirectory (t : Tree) (path : String) : Except Failure Tree := do
  let spot ← t.spot path
  if spot.isDirectory then throw .exists_
  let place ← spot.place
  if t.holds place then throw .exists_
  if isAboutProcesses place then throw .notFound
  return { t with created := t.created ++ [place] }

/-- A directory that is already there serves as well. -/
def ensureDirectory (t : Tree) (path : String) : Except Failure Tree :=
  match t.createDirectory path with
  | .ok t => .ok t
  | .error failure =>
      if failure = .exists_ && t.reachesDirectory path then .ok t else .error failure

/-- Create the first of some directories, each inside the next one; those
that it misses come first. -/
def createAll (t : Tree) : List String → Except Failure Tree
  | [] => .ok t
  | path :: above =>
      match t.ensureDirectory path with
      | .ok t => .ok t
      | .error failure =>
          if failure = .notFound then
            (t.createAll above).bind (·.ensureDirectory path)
          else .error failure

/-- Create a directory and all those above it. -/
def createDirectories (t : Tree) (path : String) : Except Failure Tree :=
  t.createAll (lineage path)

/-- What can be written to. -/
inductive Target where
  /-- The file at a place. -/
  | file (place : List String)
  /-- The device that is always full. -/
  | full
  /-- The output of the program itself. -/
  | output
  /-- The error output of the program itself. -/
  | errors
  deriving Repr, DecidableEq

/-- What is at a place that can be written to. -/
def Target.ofPlace (place : List String) : Target :=
  if place = ["dev", "full"] then .full
  else if place = ["dev", "stdout"] then .output
  else if place = ["dev", "stderr"] then .errors
  else .file place

/-- What a path leads to, in a directory that is there. -/
def target (t : Tree) (path : String) : Except Failure Target := do
  let spot ← t.spot path
  if spot.isDirectory || endsInSlash path then throw .isDirectory
  let place ← spot.place
  if t.hasDirectory place then throw .isDirectory
  if place = ["dev", "tty"] then throw .noDevice
  if isAboutProcesses place then throw .notFound
  return .ofPlace place

/-- The files of the working directory that are new or other than before. -/
def changes (before after : Tree) : List (String × String) :=
  after.files.filterMap fun (place, content) =>
    if !workplace.isPrefixOf place || before.file? place = some content then none
    else some ("/".intercalate (place.drop workplace.length), content)

end Tree

end Stencil.Files
