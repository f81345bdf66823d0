/-
  Stencil.Formatter.Command.Listing
  ─────────────────────────────────
  What there is.

  `ls` tells the names in directories: which of them, in which order, how each
  name is written and how the names are laid out.
-/
import Stencil.Formatter.Command.FileWork
import Stencil.Formatter.Command.Order
import Stencil.Formatter.NamePattern

namespace Stencil.Script

open Files (Tree)
open Text (Byte)

/-! ## §1. How a name is written. -/

/-- The ways to write a name. -/
inductive NameStyle where
  /-- As it is. -/
  | literal
  /-- In quotes of scripts, if it needs them. -/
  | shell
  /-- In quotes of scripts. -/
  | shellAlways
  /-- In double quotes. -/
  | quoted
  /-- With backslashes. -/
  | escaped
  deriving Repr, DecidableEq

/-- The ways by their words. -/
def nameStyles : List (String × NameStyle) :=
  [("literal", .literal), ("shell", .shell), ("shell-always", .shellAlways),
   ("shell-escape", .shell), ("shell-escape-always", .shellAlways), ("c", .quoted),
   ("c-maybe", .quoted), ("escape", .escaped), ("locale", .shellAlways), ("clocale", .quoted)]

/-- A character with a backslash, if it has such a name. -/
def controlMark? (c : Char) : Option String :=
  [('\x07', "\\a"), ('\x08', "\\b"), ('\t', "\\t"), ('\n', "\\n"), ('\x0b', "\\v"),
   ('\x0c', "\\f"), ('\r', "\\r"), ('\\', "\\\\")].lookup c

/-- A name as it is written. -/
def NameStyle.write (s : NameStyle) (name : String) : String :=
  let special (c : Char) : Bool := " \t\n\"'$&()*;<=>?[\\^\x60|".toList.contains c
  let inQuotes : String := "'" ++ name.replace "'" "'\\''" ++ "'"
  match s with
  | literal => name
  | shell => if name = "" || name.toList.any special then inQuotes else name
  | shellAlways => inQuotes
  | quoted =>
      "\"" ++ String.join (name.toList.map fun c =>
        if c = '"' then "\\\"" else (controlMark? c).getD c.toString) ++ "\""
  | escaped =>
      String.join (name.toList.map fun c =>
        if c = ' ' then "\\ " else (controlMark? c).getD c.toString)

/-! ## §2. How names are laid out. -/

/-- Blanks from one column to another, with tabs where they fit. -/
def indentTo : Nat → (start stop : Nat) → String
  | 0, _, _ => ""
  | fuel + 1, start, stop =>
      if stop ≤ start then ""
      else if (start + 1) / 8 < stop / 8 then "\t" ++ indentTo fuel (start + 8 - start % 8) stop
      else " " ++ indentTo fuel (start + 1) stop

/-- The widths of columns when names are laid out in so many of them. -/
def columnWidths (down : Bool) (columns : Nat) (lengths : List Nat) : List Nat :=
  let rows := (lengths.length + columns - 1) / columns
  let column (i : Nat) : Nat := if down then i / rows else i % columns
  (List.range columns).map fun k =>
    (lengths.zipIdx.map fun (length, i) =>
      if column i = k then length + (if k + 1 = columns then 0 else 2) else 3).foldl max 3

/-- The most columns that fit into a line. -/
def fittingColumns (down : Bool) (width : Nat) (lengths : List Nat) : Nat :=
  let most := min lengths.length (if width = 0 then lengths.length else max 1 (width / 3))
  let fits (columns : Nat) : Bool :=
    width = 0 || (columnWidths down columns lengths).foldl (· + ·) 0 < width
  (((List.range most).map (· + 1)).reverse.find? fits).getD 1

/-- One row of columns. -/
def columnRow (position : Nat) : List (String × Nat) → String
  | [] => "\n"
  | [(name, _)] => name ++ "\n"
  | (name, width) :: rest =>
      name ++ indentTo width (position + name.length) (position + width)
        ++ columnRow (position + width) rest

/-- Names in columns, from top to bottom or from left to right. -/
def inColumns (down : Bool) (width : Nat) (names : List String) : String :=
  let lengths := names.map String.length
  let columns := fittingColumns down width lengths
  let widths := columnWidths down columns lengths
  let rows := (names.length + columns - 1) / columns
  String.join ((List.range rows).map fun row =>
    let items := (List.range columns).filterMap fun k =>
      (names[if down then row + k * rows else row * columns + k]?).map fun name =>
        (name, (widths[k]?).getD 0)
    columnRow 0 items)

/-- Names with commas between them, in lines of a width. -/
def withCommas (width position : Nat) : List String → String
  | [] => "\n"
  | [last] => last ++ "\n"
  | name :: next :: rest =>
      let stop := position + name.length
      if width = 0 || stop + next.length + 2 < width then
        name ++ ", " ++ withCommas width (stop + 2) (next :: rest)
      else name ++ ",\n" ++ withCommas width 0 (next :: rest)

/-! ## §3. The command. -/

/-- The options of `ls`. -/
def lsOptions : List Known :=
  [flag "a" "all", flag "A" "almost-all", flag "b" "escape", flag "B" "ignore-backups",
   flag "C" "", optional "" "color", flag "d" "directory", flag "f" "", optional "" "classify",
   flag "F" "", flag "" "file-type", valued "" "format", flag "" "group-directories-first",
   optional "" "hyperlink", flag "H" "", valued "" "hide", valued "" "indicator-style",
   valued "I" "ignore", flag "L" "dereference", flag "m" "", flag "N" "literal", flag "p" "",
   flag "q" "hide-control-chars", flag "Q" "quote-name", valued "" "quoting-style",
   flag "r" "reverse", flag "R" "recursive", flag "S" "", valued "" "sort", valued "" "time",
   flag "t" "", valued "T" "tabsize", flag "u" "", flag "U" "", flag "v" "", valued "w" "width",
   flag "x" "", flag "X" "", flag "Z" "context", flag "1" "", flag "g" "", flag "G" "no-group",
   flag "h" "human-readable", flag "i" "inode", flag "k" "kibibytes", flag "l" "",
   flag "n" "numeric-uid-gid", flag "o" "", flag "s" "size", flag "" "zero"]

/-- What options ask of a listing. -/
structure ListPlan where
  /-- All options. -/
  o : Options
  /-- How names are written. -/
  style : NameStyle
  /-- How names are laid out: a letter. -/
  layout : String
  /-- How names are put in order: a letter. -/
  order : String
  /-- The width of a line; zero is one of any width. -/
  width : Nat
  /-- What goes behind the names of directories. -/
  mark : String

/-- Read what options ask for. -/
def ListPlan.ofOptions (o : Options) : Except String ListPlan := do
  let choose (option : String) (words : List (String × String)) (letters : List String) :
      Except String String :=
    match o.last? (option :: letters) with
    | none => .ok ""
    | some (name, text) =>
        if name ≠ option then .ok name
        else (chooseWord ("--" ++ option) text (words.map fun (w, _) => [w])).map fun word =>
          (words.lookup word).getD ""
  let layout ← choose "format"
    [("verbose", "l"), ("long", "l"), ("commas", "m"), ("horizontal", "x"), ("across", "x"),
     ("vertical", "C"), ("single-column", "1")] ["1", "C", "x", "m", "l", "zero"]
  let order ← choose "sort"
    [("none", "U"), ("size", "S"), ("time", "t"), ("version", "v"), ("extension", "X"),
     ("name", ""), ("width", "")] ["U", "S", "t", "v", "X", "f"]
  let mark ← choose "indicator-style"
    [("none", ""), ("slash", "/"), ("file-type", "/"), ("classify", "/")]
    ["p", "F", "file-type", "classify"]
  let styles := nameStyles.map fun (name, _) => [name]
  let style ← match o.last? ["quoting-style", "Q", "b", "N", "zero"] with
    | some ("quoting-style", text) =>
        (chooseWord "--quoting-style" text styles).map fun word =>
          (nameStyles.lookup word).getD .literal
    | some ("Q", _) => .ok .quoted
    | some ("b", _) => .ok .escaped
    | _ => .ok .literal
  return ⟨o, style, layout, order, ((o.value? "w").map numberOf).getD 80,
    if mark = "" then "" else "/"⟩

/-- The part of a name from its last point on. -/
def extensionOf (name : String) : String :=
  let reversed := name.toList.reverse
  let ending := reversed.takeWhile (· != '.')
  if ending.length = reversed.length then "" else String.ofList ('.' :: ending.reverse)

/-- A name with its place. -/
abbrev Placed := String × List String

/-- Names in order. -/
def ListPlan.arranged (p : ListPlan) (tree : Tree) (names : List Placed) : List Placed :=
  let size (n : Placed) : Nat :=
    ((tree.file? n.2).map fun text => (Text.toBytes text).length).getD 4096
  let byName (a b : Placed) : Ordering := compare a.1 b.1
  let order (a b : Placed) : Ordering :=
    match p.order with
    | "S" => (compare (size b) (size a)).then (byName a b)
    | "X" => (compare (extensionOf a.1) (extensionOf b.1)).then (byName a b)
    | "v" => (compareVersions (Text.toBytes a.1) (Text.toBytes b.1)).then (byName a b)
    | _ => byName a b
  let sorted := names.mergeSort fun a b => order a b != .gt
  let turned := if p.o.has "r" && p.order ≠ "U" && p.order ≠ "f" then sorted.reverse else sorted
  if p.o.has "group-directories-first" then
    turned.filter (fun n => tree.hasDirectory n.2) ++ turned.filter fun n => !tree.hasDirectory n.2
  else turned

/-- Names as they are laid out. -/
def ListPlan.rows (p : ListPlan) (tree : Tree) (names : List Placed) : List Byte :=
  let shown := names.map fun (name, place) =>
    p.style.write name ++ (if tree.hasDirectory place then p.mark else "")
  if names.isEmpty then []
  else
    Text.toBytes (match p.layout with
      | "m" => withCommas p.width 0 shown
      | "C" => inColumns true p.width shown
      | "x" => inColumns false p.width shown
      | "zero" => String.join (shown.map (· ++ "\x00"))
      | _ => String.join (shown.map (· ++ "\n")))

/-- Is a name in a directory listed? -/
def ListPlan.lists (p : ListPlan) (name : String) : Bool :=
  let hidden := p.o.has "a" || p.o.has "A" || p.o.has "f"
  let fits (patterns : List String) : Bool := patterns.any (fitsPattern (ofUnicode name))
  (hidden || (name.toList.head? != some '.' && !fits (p.o.values "hide")))
    && !fits (p.o.values "I") && !(p.o.has "B" && name.endsWith "~")

/-- The names in a directory that are listed, with their places, in order. -/
def ListPlan.inside (p : ListPlan) (tree : Tree) (place : List String) : List Placed :=
  let own := if p.o.has "a" || p.o.has "f" then [(".", place), ("..", place.dropLast)] else []
  let children := (tree.children place).filter p.lists
  p.arranged tree (own ++ children.map fun child => (child, place ++ [child]))

/-- The directories that are shown for one: itself, and all below it if that is
asked for. -/
def ListPlan.below (p : ListPlan) (tree : Tree) : Nat → Placed → List Placed
  | 0, _ => []
  | fuel + 1, (name, place) =>
      let inner := if !p.o.has "R" then []
        else (p.inside tree place).filter fun (child, inner) =>
          child ≠ "." && child ≠ ".." && tree.hasDirectory inner
      (name, place) :: inner.flatMap fun (child, inner) =>
        p.below tree fuel (insideOf name child, inner)

/-- Tell what there is. -/
def ls : Command :=
  withOptions lsOptions 2 fun o c =>
    match ListPlan.ofOptions o with
    | .error message => c.misuse 1 message
    | .ok p =>
        let names := if o.operands.isEmpty then ["."] else o.operands
        let isDirectory (name : String) : Bool :=
          !o.has "d" && c.tree.reachesDirectory (c.path name)
        let missing := names.filter fun name => !c.tree.reaches (c.path name)
        let placed (names : List String) : List Placed :=
          p.arranged c.tree (names.map fun name =>
            (toUnicode name, (c.tree.place (c.path name)).toOption.getD []))
        let files := placed (names.filter fun name =>
          c.tree.reaches (c.path name) && !isDirectory name)
        let several := 1 < names.length || o.has "R"
        let blocks := ((placed (names.filter isDirectory)).flatMap (p.below c.tree depthLimit)).map
          fun (name, place) =>
            (if several then Text.toBytes (p.style.write name ++ ":\n") else [])
              ++ p.rows c.tree (p.inside c.tree place)
        let first := if files.isEmpty then [] else [p.rows c.tree files]
        let body := (first ++ blocks).foldl
          (fun all block => if all.isEmpty then block else all ++ lineFeed :: block) []
        let messages := missing.map fun name =>
          (Channel.errors, c.complaint ("cannot access " ++ fileArg name
            ++ ": No such file or directory"))
        ⟨if missing.isEmpty then 0 else 2, messages ++ [(.output, body)], c.input, c.tree⟩

end Stencil.Script
