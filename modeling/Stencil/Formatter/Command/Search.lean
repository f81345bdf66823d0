/-
  Stencil.Formatter.Command.Search
  ────────────────────────────────
  Searching lines.

  `grep` gives the lines that match one of its expressions, or the lines that
  match none; or it counts them, or gives only what matched.
-/
import Stencil.Formatter.Command.Excerpt
import Stencil.Formatter.NamePattern
import Stencil.Formatter.Regex.Reader

namespace Stencil.Script

open Text (Byte)

/-! ## §1. What is searched for. -/

/-- The lines of a text. -/
def textPieces (text : String) : List (List Char) :=
  splitChars (· == '\n') text.toList

/-- A pattern in which the letter for digits is spelled out. -/
def spellDigits : List Char → List Char
  | '\\' :: 'd' :: cs => "[0-9]".toList ++ spellDigits cs
  | '\\' :: 'D' :: cs => "[^0-9]".toList ++ spellDigits cs
  | '\\' :: c :: cs => '\\' :: c :: spellDigits cs
  | c :: cs => c :: spellDigits cs
  | [] => []

/-- One expression for all of the patterns. -/
def searchRegex (o : Options) (patterns : List (List Char)) : Except String Regex := do
  let kind := ((o.last? ["E", "F", "G", "P"]).map Prod.fst).getD "G"
  let dialect : Dialect := ⟨kind == "E" || kind == "P", true, false⟩
  let one (text : List Char) : Except String Regex :=
    if kind = "F" then .ok (.ofBytes (bytesOf (String.ofList text)))
    else Regex.ofText dialect (if kind = "P" then spellDigits text else text)
  let all ← patterns.mapM one
  let any := match all with
    | [] => Regex.one (.within [])
    | first :: rest => rest.foldl .either first
  let framed (start stop : Place) : Regex := .both (.place start) (.both any (.place stop))
  return if o.has "x" then framed .lineStart .lineEnd
    else if o.has "w" then framed .wordFreeBefore .wordFreeAfter
    else any

/-- Where all matches in a line start and stop, those of nothing apart. -/
def allMatches (r : Regex) (s : Subject) : Nat → Nat → List (Nat × Nat)
  | 0, _ => []
  | fuel + 1, position =>
      if s.bytes.size < position then []
      else
        match r.find? s position with
        | none => []
        | some m =>
            if m.start = m.stop then allMatches r s fuel (m.stop + 1)
            else (m.start, m.stop) :: allMatches r s fuel m.stop

/-! ## §2. What is found. -/

/-- A line that may be given out. -/
structure FoundLine where
  /-- Its number. -/
  number : Nat
  /-- How many bytes come before it. -/
  offset : Nat
  /-- Was it selected, or does it stand near one that was? -/
  selected : Bool
  /-- The line. -/
  bytes : List Byte
  deriving Repr, DecidableEq

/-- Lines with their numbers and offsets. -/
def numberedLines (number offset : Nat) : List (List Byte) → List FoundLine
  | [] => []
  | line :: rest =>
      ⟨number, offset, false, line⟩ :: numberedLines (number + 1) (offset + line.length + 1) rest

/-- How many lines near a selected one come with it. -/
structure Nearby where
  /-- Before it. -/
  before : Nat
  /-- Behind it. -/
  after : Nat
  /-- What stands for lines left out. -/
  gap : Option (List Byte)

/-- Lines that come along before the next selected one, the last `n` of those
held, newest first. -/
def heldLines (n : Nat) (held : List FoundLine) : List FoundLine :=
  (held.take n).reverse

/-- The lines that are given out: those selected, and those near to one.  `after`
counts the lines that still come along. -/
def Nearby.lines (k : Nearby) (after : Nat) (held : List FoundLine) :
    List FoundLine → List FoundLine
  | [] => []
  | line :: rest =>
      if line.selected then heldLines k.before held ++ line :: k.lines k.after [] rest
      else if 0 < after then line :: k.lines (after - 1) held rest
      else k.lines 0 (line :: held) rest

/-- How lines are shown. -/
structure LineView where
  /-- The name before each line. -/
  title : Option String
  /-- The byte behind names, if it is not the sign. -/
  afterName : Option Byte
  /-- Are there numbers? -/
  numbers : Bool
  /-- Are there offsets? -/
  offsets : Bool
  /-- Is there a tabulator before the text? -/
  tabbed : Bool
  /-- Are there colours? -/
  coloured : Bool
  /-- The byte that ends a line. -/
  ending : Byte

namespace LineView

/-- A text in a colour. -/
def inColour (v : LineView) (code : String) (text : List Byte) : List Byte :=
  if v.coloured && !text.isEmpty then
    bytesOf ("\x1b[" ++ code ++ "m\x1b[K") ++ text ++ bytesOf "\x1b[m\x1b[K"
  else text

/-- A name before a line or a count. -/
def name (v : LineView) (sign : String) : List Byte :=
  match v.title with
  | none => []
  | some text =>
      v.inColour "35" (bytesOf text)
        ++ (match v.afterName with
          | some byte => [byte]
          | none => v.inColour "36" (bytesOf sign))

/-- What comes before a line, at an offset. -/
def mark (v : LineView) (sign : String) (number offset width : Nat) : List Byte :=
  let counted (n : Nat) (width : Nat) : List Byte :=
    let text := toString n
    v.inColour "32" (bytesOf (if v.tabbed then rightAligned width text else text))
      ++ v.inColour "36" (bytesOf sign)
  let before := v.name sign ++ (if v.numbers then counted number 2 else [])
    ++ (if v.offsets then counted offset width else [])
  before ++ (if v.tabbed && !before.isEmpty then [9] else [])

/-- A line with its matches in colour. -/
def body (v : LineView) (matches_ : List (Nat × Nat)) (line : List Byte) : List Byte :=
  let rec go (position : Nat) : List (Nat × Nat) → List Byte
    | [] => line.drop position
    | (start, stop) :: rest =>
        (line.take start).drop position ++ v.inColour "01;31" ((line.take stop).drop start)
          ++ go stop rest
  if v.coloured then go 0 matches_ else line

end LineView

/-- Lines with their marks, and what stands for lines left out. -/
def layOutLines (k : Nearby) (show_ : FoundLine → List Byte) (previous : Option Nat) :
    List FoundLine → List Byte
  | [] => []
  | line :: rest =>
      let skipped := previous.any fun n => decide (n + 1 < line.number)
      let gap := if skipped then k.gap.getD [] else []
      gap ++ show_ line ++ layOutLines k show_ (some line.number) rest

/-- The options of `grep`. -/
def grepOptions : List Known :=
  [flag "E" "extended-regexp", flag "F" "fixed-strings", flag "G" "basic-regexp",
   flag "P" "perl-regexp", valued "e" "regexp", valued "f" "file", flag "i" "ignore-case",
   flag "i" "", flag "y" "", flag "" "no-ignore-case", flag "v" "invert-match",
   flag "w" "word-regexp", flag "x" "line-regexp", flag "c" "count", optional "" "color",
   optional "" "colour", flag "L" "files-without-match", flag "l" "files-with-matches",
   valued "m" "max-count", flag "o" "only-matching", flag "q" "quiet", flag "q" "silent",
   flag "s" "no-messages", flag "b" "byte-offset", flag "H" "with-filename",
   flag "h" "no-filename", valued "" "label", flag "n" "line-number", flag "T" "initial-tab",
   flag "U" "binary", flag "u" "unix-byte-offsets", flag "z" "null-data", flag "Z" "null",
   valued "A" "after-context", valued "B" "before-context", valued "C" "context", flag "a" "text",
   valued "" "binary-files", valued "D" "devices", valued "d" "directories", flag "I" "",
   valued "" "exclude", valued "" "exclude-from", valued "" "exclude-dir", valued "" "include",
   flag "r" "recursive", flag "R" "dereference-recursive", flag "" "line-buffered",
   valued "" "group-separator", flag "" "no-group-separator"]

/-- What is asked of a search. -/
structure Search where
  /-- The options. -/
  options : Options
  /-- What is searched for. -/
  regex : Regex
  /-- How many lines are selected at most. -/
  limit : Option Nat
  /-- Which lines come along. -/
  nearby : Nearby
  /-- The byte that ends a line. -/
  ending : Byte

/-- What a search gives for a file. -/
structure Found where
  /-- What is written. -/
  output : List Byte
  /-- A message, if the file is no text. -/
  message : Option String
  /-- Was a line selected? -/
  hit : Bool

/-- Search a file; names are shown if `titled`. -/
def Search.file (k : Search) (titled : Bool) (name : String) (bytes : List Byte) : Found :=
  let o := k.options
  let inverted := o.has "v"
  let folds := match o.last? ["i", "y", "no-ignore-case"] with
    | some (n, _) => n != "no-ignore-case"
    | none => false
  let subject (line : List Byte) : Subject := ⟨line.toArray, folds, false⟩
  let shownName := if Call.isInput name then (o.value? "label").getD "(standard input)" else name
  let noText := bytes.contains 0 && k.ending == lineFeed
    && !(o.has "a" || o.value? "binary-files" == some "text")
  let ignored := noText && (o.has "I" || o.value? "binary-files" == some "without-match")
  let judged := (numberedLines 1 0 (bodiesBy k.ending bytes)).map fun line =>
    { line with selected := (k.regex.occursIn (subject line.bytes)) != inverted }
  let all := judged.filter (·.selected)
  let hits := match k.limit with
    | some n => all.take n
    | none => all
  let lastHit := (hits.getLast?.map FoundLine.number).getD 0
  let chosen := judged.map fun line =>
    { line with selected := line.selected && decide (line.number ≤ lastHit) }
  let coloured := match o.last? ["color", "colour"] with
    | some (_, text) => text == "always"
    | none => false
  let v : LineView :=
    { title := if titled then some shownName else none
      afterName := if o.has "Z" then some 0 else none
      numbers := o.has "n"
      offsets := o.has "b"
      tabbed := o.has "T"
      coloured
      ending := k.ending }
  let width := (toString bytes.length).length
  let found (line : List Byte) : List (Nat × Nat) :=
    allMatches k.regex (subject line) (line.length + 1) 0
  let named := v.inColour "35" (bytesOf shownName) ++ (if o.has "Z" then [0] else [lineFeed])
  let hit := !hits.isEmpty && !ignored
  if ignored then
    ⟨if o.has "c" then v.name ":" ++ bytesOf "0\n" else if o.has "L" then named else [],
    none, false⟩
  else if o.has "c" then ⟨v.name ":" ++ bytesOf (toString hits.length ++ "\n"), none, hit⟩
  else if o.has "l" then ⟨if hits.isEmpty then [] else named, none, hit⟩
  else if o.has "L" then ⟨if hits.isEmpty then named else [], none, hit⟩
  else if noText && hit then ⟨[], some (shownName ++ ": binary file matches"), true⟩
  else if o.has "o" then
    let output := if inverted then []
      else hits.flatMap fun line =>
        (found line.bytes).flatMap fun (start, stop) =>
          v.mark ":" line.number (line.offset + start) width
            ++ v.inColour "01;31" ((line.bytes.take stop).drop start) ++ [k.ending]
    ⟨output, none, hit⟩
  else
    let show_ (line : FoundLine) : List Byte :=
      v.mark (if line.selected then ":" else "-") line.number line.offset width
        ++ v.body (if line.selected && !inverted then found line.bytes else []) line.bytes
        ++ [k.ending]
    ⟨layOutLines k.nearby show_ none (k.nearby.lines 0 [] chosen), none, hit⟩

/-! ## §3. The command. -/

/-- A number behind a hyphen is a number of lines that come along. -/
def plainContext (args : List String) : List String :=
  args.flatMap fun arg =>
    match arg.toList with
    | '-' :: c :: cs =>
        if (c :: cs).all Char.isDigit then ["-C", String.ofList (c :: cs)] else [arg]
    | _ => [arg]

/-- The numbers among options: of lines before and behind, and of matches. -/
def searchNumbers (o : Options) : Except String (Option Nat × Option Nat × Option Nat) := do
  let context (name : String) : Except String (Option Nat) :=
    match o.last? [name, "C"] with
    | none => .ok none
    | some (_, text) =>
        match readSize [] text with
        | .ok n => .ok (some n)
        | .error _ => .error (text ++ ": invalid context length argument")
  let before ← context "B"
  let after ← context "A"
  let limit ← match o.value? "m" with
    | none => pure none
    | some text =>
        if text.toList.head? = some '-' then pure none
        else
          match readSize [] text with
          | .ok n => pure (some n)
          | .error _ => throw "invalid max count"
  let kinds := ["binary", "text", "without-match"]
  if (o.values "binary-files").any fun text => !kinds.contains text then
    throw "unknown binary-files type"
  return (before, after, limit)

/-- What options ask of a search. -/
def Search.ofOptions (o : Options) (patterns : List (List Char)) : Except String Search := do
  let (before, after, limit) ← searchNumbers o
  let regex ← searchRegex o patterns
  let gap := match o.last? ["group-separator", "no-group-separator"] with
    | some ("group-separator", text) => some (bytesOf (text ++ "\n"))
    | some _ => none
    | none => some (bytesOf "--\n")
  return ⟨o, regex, limit,
    ⟨before.getD 0, after.getD 0, if before.isSome || after.isSome then gap else none⟩,
    if o.has "z" then 0 else lineFeed⟩

/-- The files below a directory, in order, if patterns of names let them in. -/
def filesBelow (c : Call) (skips : String → Bool) : Nat → String → List String
  | 0, _ => []
  | fuel + 1, name =>
      if !c.tree.reachesDirectory (c.path name) then [name]
      else
        let children := match c.tree.place (c.path name) with
          | .ok place => c.tree.children place
          | .error _ => []
        (children.filter fun child => !skips child).flatMap fun child =>
          filesBelow c skips fuel (if name = "" then child else name ++ "/" ++ child)

/-- Give the lines that match. -/
def grep (preset : Option String) : Command := fun c =>
  let usage := "Usage: grep [OPTION]... PATTERNS [FILE]...\n"
    ++ "Try 'grep --help' for more information.\n"
  let misused (text : String) : Result :=
    ⟨2, [(.errors, bytesOf (text ++ usage))], c.input, c.tree⟩
  match Options.ofArgs grepOptions true (plainContext c.args) with
  | .error fault => misused ("grep: " ++ fault.message ++ "\n")
  | .ok o =>
      let o := match preset with
        | some kind => o.withFlag kind ""
        | none => o
      let explicit := o.has "e" || o.has "f"
      let sources := (o.values "f").map fun name => (name, c.read name)
      let given := (o.values "e").flatMap textPieces
        ++ sources.flatMap fun (_, content) =>
          (lineBodies (content.toOption.getD [])).map fun line => (textOf line).toList
      let patterns := if explicit then given else (o.operands.take 1).flatMap textPieces
      let operands := if explicit then o.operands else o.operands.drop 1
      let deep := o.has "r" || o.has "R" || o.value? "directories" == some "recurse"
        || o.value? "d" == some "recurse"
      let skipsDirectories := o.value? "d" == some "skip"
      let missing := sources.findSome? fun (name, content) =>
        match content with
        | .ok _ => none
        | .error failure => some (name ++ ": " ++ failure.text)
      if !explicit && o.operands.isEmpty && (searchNumbers o).isOk then misused ""
      else
        match missing, Search.ofOptions o patterns with
        | some message, _ | none, .error message =>
            ⟨2, [(.errors, bytesOf ("grep: " ++ message ++ "\n"))], c.input, c.tree⟩
        | none, .ok search =>
            let barred (name : String) : Bool :=
              ((o.values "exclude").any (fitsPattern name))
                || (!(o.values "include").isEmpty && !(o.values "include").any (fitsPattern name))
            let skips (name : String) : Bool := (o.values "exclude-dir").any (fitsPattern name)
            let base (name : String) : String :=
              String.ofList (name.toList.reverse.takeWhile (· != '/')).reverse
            let names := if deep then
                ((if operands.isEmpty then [""] else operands).flatMap
                  (filesBelow c skips 100)).filter fun name => !barred (base name)
              else operands.filter fun name => !barred (base name)
            let several := 1 < operands.length
              || (deep && (operands.isEmpty || operands.any fun name =>
                c.tree.reachesDirectory (c.path name)))
            let titled := match o.last? ["H", "h"] with
              | some (n, _) => n == "H"
              | none => several
            let found := if deep then c.contentsOf names else c.contents names
            let found := if skipsDirectories then found.filter fun (_, content) =>
                (match content with
                  | .error failure => failure != .isDirectory
                  | .ok _ => true) else found
            let results := found.map fun (name, content) =>
              match content with
              | .ok bytes =>
                  let r := search.file titled name bytes
                  let message := (r.message.map fun text =>
                    (Channel.errors, bytesOf ("grep: " ++ text ++ "\n"))).toList
                  ((Channel.output, r.output) :: message, r.hit)
              | .error failure =>
                  ([(Channel.errors, if o.has "s" then []
                    else bytesOf ("grep: " ++ name ++ ": " ++ failure.text ++ "\n"))], false)
            let hit := results.any Prod.snd
            let broken := !found.all fun (_, content) => content.isOk
            let quiet := o.has "q"
            let status := if quiet && hit then 0 else if broken then 2 else if hit then 0 else 1
            let written := (results.flatMap Prod.fst).filter fun (channel, _) =>
              !quiet || channel = .errors
            ⟨status, written, if deep then c.input else c.leftOver names, c.tree⟩

end Stencil.Script
