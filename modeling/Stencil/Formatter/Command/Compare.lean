/-
  Stencil.Formatter.Command.Compare
  ─────────────────────────────────
  Comparing two files.

  `cmp` tells where they differ first, `comm` which lines of sorted files are in
  one of them only or in both, and `diff` what has to be taken away and added
  to make one of the other.
-/
import Stencil.Formatter.Command.Excerpt
import Stencil.Formatter.Command.Order

namespace Stencil.Script

open Text (Byte)

/-- The contents of two files; the input can be read only once. -/
def twoContents (c : Call) (trouble : String → Files.Failure → String) (a b : String) :
    Except String (List Byte × List Byte) :=
  match c.contentsOf [a, b] with
  | [(_, .ok first), (_, .ok second)] => .ok (first, second)
  | found =>
      .error ((found.findSome? fun (name, content) =>
        match content with
        | .ok _ => none
        | .error failure => some (trouble name failure)).getD "")

/-! ## §1. The first difference. -/

/-- How many bytes two texts have in common at their start. -/
def commonLength : List Byte → List Byte → Nat
  | a :: as, b :: bs => if a = b then commonLength as bs + 1 else 0
  | _, _ => 0

/-- The options of `cmp`. -/
def cmpOptions : List Known :=
  [flag "b" "print-bytes", valued "i" "ignore-initial", flag "l" "verbose", valued "n" "bytes",
   flag "s" "quiet", flag "s" "silent"]

/-- A byte as `cmp` shows it: with a caret or an M before it, if it is no visible one. -/
def comparedByte (b : Byte) : String :=
  let low (b : Byte) : String :=
    if b < 32 then "^" ++ textOf [b + 64] else if b = 127 then "^?" else textOf [b]
  if b < 128 then low b else "M-" ++ low (b - 128)

/-- A byte in octal digits. -/
def octalByte (b : Byte) : String :=
  rightAligned 3 (String.ofList (Nat.toDigits 8 b.toNat))

/-- The message that one of two files has ended. -/
def endMessage (c : Call) (o : Options) (name : String) (bytes : List Byte) : String :=
  let lines := (bytes.filter (· == lineFeed)).length
  if bytes.isEmpty then c.name ++ ": EOF on " ++ name ++ " which is empty\n"
  else
    c.name ++ ": EOF on " ++ name ++ " after byte " ++ toString bytes.length
      ++ (if o.has "l" then ""
        else if bytes.getLast? = some lineFeed then ", line " ++ toString lines
        else ", in line " ++ toString (lines + 1))
      ++ "\n"

/-- Tell where two files differ. -/
def tellDifference (c : Call) (o : Options) (first second : String) (a b : List Byte) :
    Nat × List (Channel × List Byte) :=
  let n := commonLength a b
  let ended := if a.length < b.length then [(first, a)]
    else if b.length < a.length then [(second, b)] else []
  let message := ended.map fun (name, bytes) =>
    (Channel.errors, bytesOf (endMessage c o name bytes))
  if a = b then (0, [])
  else if o.has "s" then (1, [])
  else if o.has "l" then
    let width := (toString (max a.length b.length)).length
    let lines := ((a.zip b).zipIdx 1).filterMap fun ((x, y), i) =>
      if x = y then none
      else
        let shown := if o.has "b" then
            octalByte x ++ " " ++ leftAligned 4 (comparedByte x) ++ " " ++ octalByte y ++ " "
              ++ comparedByte y
          else octalByte x ++ " " ++ octalByte y
        some (Channel.output, bytesOf (rightAligned width (toString i) ++ " " ++ shown ++ "\n"))
    (1, lines ++ message)
  else if n = a.length || n = b.length then (1, message)
  else
    let line := ((a.take n).filter (· == lineFeed)).length + 1
    let bytes := match (a.drop n).head?, (b.drop n).head? with
      | some x, some y =>
          if o.has "b" then
            " is " ++ octalByte x ++ " " ++ comparedByte x ++ " " ++ octalByte y ++ " "
              ++ comparedByte y
          else ""
      | _, _ => ""
    (1, [(.output, bytesOf (first ++ " " ++ second ++ " differ: "
      ++ (if o.has "b" then "byte " else "char ") ++ toString (n + 1) ++ ", line " ++ toString line
      ++ bytes ++ "\n"))])
where
  /-- A text at the left end of a column. -/
  leftAligned (width : Nat) (text : String) : String :=
    text ++ String.ofList (List.replicate (width - text.length) ' ')

/-- Tell the first difference of two files. -/
def cmp : Command := fun c =>
  let advice := "\n" ++ c.name ++ ": Try '" ++ c.name ++ " --help' for more information."
  match Options.ofArgs cmpOptions true c.args with
  | .error fault => c.fail 2 (fault.message ++ advice)
  | .ok o =>
      let second := (o.operands[1]?).getD "-"
      match o.operands with
      | [] => c.fail 2 ("missing operand after " ++ quotedArg c.name ++ advice)
      | first :: _ =>
          match twoContents c (fun name failure => name ++ ": " ++ failure.text) first second with
          | .error message => if o.has "s" then c.silent 2 else c.fail 2 message
          | .ok (a, b) =>
              let skip := ((o.value? "i").map numberOf).getD 0
              let cut (bytes : List Byte) : List Byte :=
                let rest := bytes.drop skip
                ((o.value? "n").map fun n => rest.take (numberOf n)).getD rest
              let (status, written) := tellDifference c o first second (cut a) (cut b)
              ⟨status, written, c.leftOver [first, second], c.tree⟩

/-! ## §2. Lines of sorted files. -/

/-- What `comm` is asked for. -/
structure CommPlan where
  /-- The columns that are not shown. -/
  hidden : List Nat
  /-- What stands between columns. -/
  delimiter : List Byte
  /-- The byte that ends a line. -/
  ending : Byte
  /-- Is the order checked: always, never, or if a line is in one file only? -/
  checks : Option Bool

/-- What `comm` has found so far. -/
structure CommState where
  /-- What was written, newest first. -/
  written : List (Channel × List Byte)
  /-- How many lines there are in each column. -/
  counts : List Nat
  /-- Was there a line in one file only? -/
  unpaired : Bool
  /-- The files whose order was found to be wrong. -/
  disorder : List Nat

/-- Write a line in its column. -/
def CommState.tell (p : CommPlan) (s : CommState) (column : Nat) (line : List Byte) : CommState :=
  let before := ([1, 2, 3].filter fun k => k < column && !p.hidden.contains k).length
  let front := (List.replicate before p.delimiter).flatten
  { s with
    counts := s.counts.zipIdx.map fun (n, i) => if i + 1 = column then n + 1 else n
    unpaired := s.unpaired || column ≠ 3
    written := if p.hidden.contains column then s.written
      else (.output, front ++ line ++ [p.ending]) :: s.written }

/-- Check the order of a line and the next one of a file. -/
def CommState.check (c : Call) (p : CommPlan) (s : CommState) (file : Nat) (line : List Byte)
    (rest : List (List Byte)) : CommState :=
  let checked := p.checks = some true || (p.checks = none && s.unpaired)
  match rest.head? with
  | some next =>
      if checked && !s.disorder.contains file && decide (next < line) then
        { s with
          disorder := file :: s.disorder
          written := (.errors, c.complaint ("file " ++ toString file ++ " is not in sorted order"))
            :: s.written }
      else s
  | none => s

/-- Go through the lines of two files. -/
def commLines (c : Call) (p : CommPlan) (s : CommState) :
    List (List Byte) → List (List Byte) → CommState
  | [], [] => s
  | a :: as, [] =>
      if p.checks = some true && !s.disorder.isEmpty then s
      else commLines c p ((s.tell p 1 a).check c p 1 a as) as []
  | [], b :: bs =>
      if p.checks = some true && !s.disorder.isEmpty then s
      else commLines c p ((s.tell p 2 b).check c p 2 b bs) [] bs
  | a :: as, b :: bs =>
      if p.checks = some true && !s.disorder.isEmpty then s
      else if a = b then
        commLines c p (((s.tell p 3 a).check c p 1 a as).check c p 2 b bs) as bs
      else if decide (a < b) then
        commLines c p ((s.tell p 1 a).check c p 1 a as) as (b :: bs)
      else commLines c p ((s.tell p 2 b).check c p 2 b bs) (a :: as) bs
termination_by as bs => as.length + bs.length

/-- Tell which lines of sorted files are in one of them only, and which in both. -/
def comm : Command :=
  let known := [flag "1" "", flag "2" "", flag "3" "", flag "" "check-order",
    flag "" "nocheck-order", valued "" "output-delimiter", flag "" "total",
    flag "z" "zero-terminated"]
  withOptions known 1 fun o c =>
    match o.operands with
    | [] => c.misuse 1 "missing operand"
    | [first] => c.misuse 1 ("missing operand after " ++ quotedArg first)
    | _ :: _ :: extra :: _ => c.misuse 1 ("extra operand " ++ quotedArg extra)
    | [first, second] => c.orFail 1 do
        let (a, b) ← twoContents c Call.plainTrouble first second
        let p : CommPlan :=
          { hidden := [1, 2, 3].filter fun k => o.has (toString k)
            delimiter := bytesOf ((o.value? "output-delimiter").getD "\t")
            ending := if o.has "z" then 0 else lineFeed
            checks := (o.last? ["check-order", "nocheck-order"]).map fun (n, _) =>
              n == "check-order" }
        let s := commLines c p ⟨[], [0, 0, 0], false, []⟩ (bodiesBy p.ending a)
          (bodiesBy p.ending b)
        let total := if o.has "total" then
            [(Channel.output, joinBytes p.delimiter (s.counts.map fun n => bytesOf (toString n))
              ++ p.delimiter ++ bytesOf "total" ++ [p.ending])]
          else []
        let wrong := !s.disorder.isEmpty
        let last := if wrong && p.checks = none then
            [(Channel.errors, c.complaint "input is not in sorted order")] else []
        return ⟨if wrong then 1 else 0, s.written.reverse ++ total ++ last,
          c.leftOver [first, second], c.tree⟩

/-! ## §3. Changes. -/

/-- The lengths of the longest texts of lines that two files have in common, from each
line of the second one on. -/
def commonRow (same : List Byte → List Byte → Bool) (a : List Byte) :
    List (List Byte) → List Nat → List Nat
  | b :: bs, below :: rest =>
      let row := commonRow same a bs rest
      let right := row.headD 0
      (if same a b then rest.headD 0 + 1 else max below right) :: row
  | _, _ => [0]

/-- The rows of such lengths, from each line of the first file on. -/
def commonRows (same : List Byte → List Byte → Bool) (bs : List (List Byte)) :
    List (List Byte) → List (List Nat)
  | [] => [List.replicate (bs.length + 1) 0]
  | a :: as =>
      let below := commonRows same bs as
      commonRow same a bs (below.headD []) :: below

/-- What becomes of lines. -/
inductive LineChange where
  /-- A line is in both files. -/
  | kept (line other : List Byte)
  /-- A line is only in the first. -/
  | gone (line : List Byte)
  /-- A line is only in the second. -/
  | added (line : List Byte)
  deriving Repr, DecidableEq

/-- How to make the second file of the first. -/
def changesOf (same : List Byte → List Byte → Bool) :
    List (List Byte) → List (List Byte) → List (List Nat) → List LineChange
  | [], bs, _ => bs.map .added
  | as, [], _ => as.map .gone
  | a :: as, b :: bs, rows =>
      if same a b then .kept a b :: changesOf same as bs ((rows.drop 1).map (·.drop 1))
      else
        let below := ((rows[1]?).getD []).headD 0
        let right := (((rows[0]?).getD []).drop 1).headD 0
        if right ≤ below then .gone a :: changesOf same as (b :: bs) (rows.drop 1)
        else .added b :: changesOf same (a :: as) bs (rows.map (·.drop 1))
termination_by as bs => as.length + bs.length

/-- A part of the changes: lines that go, and lines that come in their place. -/
structure Hunk where
  /-- The number of the first line that goes. -/
  first : Nat
  /-- The number of the first line that comes. -/
  second : Nat
  /-- The lines that go. -/
  gone : List (List Byte)
  /-- The lines that come. -/
  added : List (List Byte)

/-- The parts of changes, with the numbers of lines from those given on. -/
def hunksOf : (first second : Nat) → List LineChange → List Hunk
  | _, _, [] => []
  | first, second, .kept _ _ :: rest => hunksOf (first + 1) (second + 1) rest
  | first, second, .gone line :: rest =>
      match hunksOf (first + 1) second rest with
      | h :: more =>
          if h.first = first + 1 && h.second = second then
            { h with first, gone := line :: h.gone } :: more
          else ⟨first, second, [line], []⟩ :: h :: more
      | [] => [⟨first, second, [line], []⟩]
  | first, second, .added line :: rest =>
      match hunksOf first (second + 1) rest with
      | h :: more =>
          if h.first = first && h.second = second + 1 then
            { h with second, added := line :: h.added } :: more
          else ⟨first, second, [], [line]⟩ :: h :: more
      | [] => [⟨first, second, [], [line]⟩]

/-- A line behind a mark; a line without an end is told to have none. -/
def markedLine (mark : String) (line : List Byte) : List Byte :=
  let body := bytesOf mark ++ line
  if line.getLast? = some lineFeed then body
  else body ++ bytesOf "\n\\ No newline at end of file\n"

/-- A range of lines as it is written; an empty one stands behind a line. -/
def lineRange (start count : Nat) : String :=
  if count = 0 then toString (start - 1)
  else if count = 1 then toString start
  else toString start ++ "," ++ toString (start + count - 1)

/-- A part of the changes as it is told. -/
def Hunk.text (h : Hunk) : List Byte :=
  let kind := if h.gone.isEmpty then "a" else if h.added.isEmpty then "d" else "c"
  bytesOf (lineRange h.first h.gone.length ++ kind ++ lineRange h.second h.added.length ++ "\n")
    ++ h.gone.flatMap (markedLine "< ")
    ++ (if kind = "c" then bytesOf "---\n" else [])
    ++ h.added.flatMap (markedLine "> ")

/-- Changes in groups with lines around them: a group goes on as long as there are not too many
lines between changes. -/
def unifiedText (context : Nat) (changes : List LineChange) : List Byte :=
  let numbered := number 1 1 changes
  let isChange (change : LineChange) : Bool := match change with
    | .kept _ _ => false
    | _ => true
  let places := (numbered.zipIdx.filter fun ((_, _, change), _) => isChange change).map Prod.snd
  let shown := numbered.zipIdx.map fun (entry, i) =>
    (entry, places.any fun p => decide (p ≤ i + context && i ≤ p + context))
  String.join ((groups (shown.length + 1) shown).map groupText) |> bytesOf
where
  /-- Changes with the numbers of their lines. -/
  number : Nat → Nat → List LineChange → List (Nat × Nat × LineChange)
    | _, _, [] => []
    | a, b, change :: rest =>
        let next := match change with
          | .kept _ _ => number (a + 1) (b + 1) rest
          | .gone _ => number (a + 1) b rest
          | .added _ => number a (b + 1) rest
        (a, b, change) :: next
  /-- The runs of entries that are shown. -/
  groups : Nat → List ((Nat × Nat × LineChange) × Bool) → List (List (Nat × Nat × LineChange))
    | 0, _ => []
    | fuel + 1, entries =>
        match entries.dropWhile fun (_, shown) => !shown with
        | [] => []
        | entries =>
            let run := entries.takeWhile Prod.snd
            run.map Prod.fst :: groups fuel (entries.drop run.length)
  /-- A range as it is written here. -/
  range (start count : Nat) : String :=
    if count = 1 then toString start
    else toString (if count = 0 then start - 1 else start) ++ "," ++ toString count
  /-- One group. -/
  groupText (group : List (Nat × Nat × LineChange)) : String :=
    let (a, b) := match group with
      | (a, b, _) :: _ => (a, b)
      | [] => (1, 1)
    let inFirst := (group.filter fun (_, _, change) => match change with
      | .added _ => false
      | _ => true).length
    let inSecond := (group.filter fun (_, _, change) => match change with
      | .gone _ => false
      | _ => true).length
    let lines := group.flatMap fun (_, _, change) => match change with
      | .kept line _ => markedLine " " line
      | .gone line => markedLine "-" line
      | .added line => markedLine "+" line
    "@@ -" ++ range a inFirst ++ " +" ++ range b inSecond ++ " @@\n" ++ textOf lines

/-- The options of `diff`. -/
def diffOptions : List Known :=
  [flag "" "normal", flag "q" "brief", flag "s" "report-identical-files", flag "u" "",
   valued "U" "", optional "" "unified", flag "i" "ignore-case", flag "b" "ignore-space-change",
   flag "w" "ignore-all-space", flag "B" "ignore-blank-lines", flag "a" "text",
   valued "" "label", flag "N" "new-file", flag "r" "recursive", flag "d" "minimal",
   flag "t" "expand-tabs", flag "T" "initial-tab", flag "" "strip-trailing-cr", flag "" "color"]

/-- What counts of a line when lines are compared. -/
def lineKey (o : Options) (line : List Byte) : List Byte :=
  let isBlank (b : Byte) : Bool := b == 32 || (9 ≤ b && b ≤ 13)
  let folded := if o.has "i" then line.map raisedByte else line
  if o.has "w" then folded.filter (!isBlank ·)
  else if o.has "b" then
    let trimmed := (folded.reverse.dropWhile isBlank).reverse
    trimmed.foldr (fun b rest =>
      if isBlank b then (if rest.head? = some 32 then rest else 32 :: rest) else b :: rest) []
  else folded

/-- Tell what has to be changed in one file to make another one of it. -/
def diff : Command := fun c =>
  let advice := "\n" ++ c.name ++ ": Try '" ++ c.name ++ " --help' for more information."
  match Options.ofArgs diffOptions true c.args with
  | .error fault => c.fail 2 (fault.message ++ advice)
  | .ok o =>
      match o.operands with
      | [] => c.fail 2 ("missing operand after " ++ quotedArg c.name ++ advice)
      | [first] => c.fail 2 ("missing operand after " ++ quotedArg first ++ advice)
      | _ :: _ :: extra :: _ => c.fail 2 ("extra operand " ++ quotedArg extra ++ advice)
      | [first, second] => c.orFail 2 do
          let within (directory name : String) : String :=
            if c.tree.reachesDirectory (c.path directory)
                && !c.tree.reachesDirectory (c.path name) && name ≠ "-" then
              directory ++ "/" ++ ((name.splitOn "/").getLast?).getD ""
            else directory
          let left := within first second
          let right := within second first
          let (a, b) ← twoContents c (fun name failure => name ++ ": " ++ failure.text) left right
          let same (x y : List Byte) : Bool := lineKey o x == lineKey o y
          let as := piecesBy lineFeed a
          let bs := piecesBy lineFeed b
          let changes := changesOf same as bs (commonRows same bs as)
          let hunks := hunksOf 1 1 changes
          let result (status : Nat) (text : List Byte) : Result :=
            ⟨status, [(.output, text)], c.leftOver [left, right], c.tree⟩
          if hunks.isEmpty then
            return result 0 (if o.has "s" then
              bytesOf ("Files " ++ left ++ " and " ++ right ++ " are identical\n") else [])
          else if o.has "q" then
            return result 1 (bytesOf ("Files " ++ left ++ " and " ++ right ++ " differ\n"))
          else
            match o.last? ["u", "U", "unified"] with
            | none => return result 1 (hunks.flatMap Hunk.text)
            | some (_, text) =>
                let labels := o.values "label"
                let head := "--- " ++ labels.headD left ++ "\n+++ " ++ (labels[1]?).getD right
                  ++ "\n"
                let context := if text = "" then 3 else numberOf text
                return result 1 (bytesOf head ++ unifiedText context changes)

end Stencil.Script
