/-
  Stencil.Files.Name
  ──────────────────
  File paths as they are written.

  A path is a text with slashes between its parts.  Empty parts and single
  dots do not count, a leading dot apart.  The stem of a file's name is what
  comes before its last dot; a name whose only dot leads it is all stem.
-/
namespace Stencil.Files

/-! ## §1. Parts. -/

/-- The pieces between slashes: always at least one. -/
def pieces : List Char → List (List Char)
  | [] => [[]]
  | c :: cs =>
      match pieces cs with
      | [] => [[c]]
      | piece :: rest => if c = '/' then [] :: piece :: rest else (c :: piece) :: rest

/-- The pieces that count: no empty ones, no single dots but a leading one. -/
def parts (path : String) : List String :=
  let kept (first : Bool) (piece : List Char) : Bool :=
    !piece.isEmpty && (first || piece != ['.'])
  let all := pieces path.toList
  ((all.take 1).filter (kept true) ++ (all.drop 1).filter (kept false)).map String.ofList

/-- The names a path is made of, one after the other; single dots are among
them. -/
def names (path : String) : List String :=
  ((pieces path.toList).filter fun piece => !piece.isEmpty).map String.ofList

/-- Does the path start at the root of all files? -/
def isAbsolute (path : String) : Bool :=
  path.toList.head? == some '/'

/-- The name at the end of a path. -/
def fileName? (path : String) : Option String :=
  match (parts path).getLast? with
  | some name => if name = "." || name = ".." then none else some name
  | none => none

/-- Does the path end in a slash? -/
def endsInSlash (path : String) : Bool :=
  path.toList.getLast? == some '/'

/-! ## §2. Stems. -/

/-- What comes after the last dot of a name; the whole name without a dot. -/
def tailOf (name : List Char) : List Char :=
  (name.reverse.takeWhile (· != '.')).reverse

/-- What comes before the last dot of a name, unless that is nothing. -/
def stemOf (name : List Char) : List Char :=
  let before := name.take (name.length - (tailOf name).length - 1)
  if before.isEmpty then name else before

/-- The stem of the name at the end of a path. -/
def stem? (path : String) : Option String :=
  (fileName? path).map fun name => String.ofList (stemOf name.toList)

/-- The length of the extension of the name at the end of a path. -/
def extensionLength (path : String) : Nat :=
  match fileName? path with
  | none => 0
  | some name =>
      if stemOf name.toList = name.toList then 0 else (tailOf name.toList).length

/-! ## §3. Joining and cutting. -/

/-- A path inside a directory. -/
def join (directory name : String) : String :=
  if isAbsolute name then name
  else if directory = "" || directory.toList.getLast? = some '/' then directory ++ name
  else directory ++ "/" ++ name

/-- A path without what does not count at its end, newest character first. -/
def dropIdleEnd : List Char → List Char
  | '/' :: rest => if rest.isEmpty then ['/'] else dropIdleEnd rest
  | '.' :: '/' :: rest => if rest.isEmpty then ['/'] else dropIdleEnd rest
  | cs => cs

/-- The path without its last part; none for a path without parts. -/
def parent? (path : String) : Option String :=
  match parts path with
  | [] => none
  | _ =>
      let trimmed := dropIdleEnd path.toList.reverse
      let above := trimmed.dropWhile (· != '/')
      some (String.ofList (dropIdleEnd above).reverse)

/-- A path and at most `n` paths above it, the highest of which has none above
itself and is left out. -/
def lineageUpTo : Nat → String → List String
  | 0, _ => []
  | n + 1, path =>
      match parent? path with
      | none => []
      | some above => path :: lineageUpTo n above

/-- A path and all those above it that are inside another one. -/
def lineage (path : String) : List String :=
  lineageUpTo path.length path

/-- The path with an extension after the stem of its name, if it has a name. -/
def setExtension (path extension : String) : String :=
  match stem? path with
  | none => path
  | some stem =>
      let trimmed := dropIdleEnd path.toList.reverse
      let directory := (trimmed.dropWhile (· != '/')).reverse
      String.ofList directory ++ stem ++ "." ++ extension

/-- The same path with another extension.  The old one is cut off first, and
what is left may be no name any more. -/
def withExtension (path extension : String) : String :=
  let kept := path.toList.take (path.length - extensionLength path)
  setExtension (String.ofList kept) extension

end Stencil.Files
