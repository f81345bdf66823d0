/-
  Stencil.Formatter.Command.Join
  ──────────────────────────────
  Lines that belong together, and names that come before others.

  `join` puts lines of two sorted files together that have a field in common.
  Both files are read side by side; a line whose field is the lesser one has no
  partner.  Once there is such a line, the order of what is read is looked at.
  `tsort` puts names in an order that pairs of them ask for.
-/
import Stencil.Formatter.Command.Compare

namespace Stencil.Script

open Text (Byte)

/-! ## §1. Lines and their fields. -/

/-- The fields of a line between blanks; behind a blank at its end there is an
empty one. -/
def blankFields (line : List Byte) : List (List Byte) :=
  let isBlank (b : Byte) : Bool := b == 32 || b == 9 || b == lineFeed
  let start := line.dropWhile isBlank
  if start.isEmpty then []
  else
    let runs := start.splitBy fun a b => isBlank a == isBlank b
    let fields := runs.filter fun run => !(run.head?.any isBlank)
    if start.getLast?.any isBlank then fields ++ [[]] else fields

/-- The fields of a line between separators. -/
def fieldsBetween (separator : Byte) (line : List Byte) : List (List Byte) :=
  line.foldr
    (fun b fields => match fields with
      | field :: rest => if b = separator then [] :: field :: rest else (b :: field) :: rest
      | [] => [[b]])
    [[]]

/-- A line of a file. -/
structure JoinLine where
  /-- Its number. -/
  number : Nat
  /-- All of it. -/
  bytes : List Byte
  /-- Its fields. -/
  fields : List (List Byte)

/-- A column of what is written. -/
inductive JoinColumn where
  /-- The field that both lines have in common. -/
  | shared
  /-- A field of the line of the first file. -/
  | first (field : Nat)
  /-- A field of the line of the second file. -/
  | second (field : Nat)
  deriving Repr, DecidableEq

/-- What is asked for. -/
structure JoinPlan where
  /-- The fields that are compared, counted from zero. -/
  fields : Nat × Nat
  /-- Are capitals and small letters the same? -/
  folds : Bool
  /-- What separates fields; blanks without it. -/
  separator : Option Byte
  /-- What stands for an empty field. -/
  filler : List Byte
  /-- The columns, if these are given. -/
  columns : Option (List JoinColumn)
  /-- Are lines of the two files written that have no partner? -/
  alone : Bool × Bool
  /-- Are lines written that have one? -/
  together : Bool
  /-- Is the order looked at always, or never? -/
  checks : Option Bool
  /-- Are the first lines titles? -/
  titled : Bool
  /-- What ends a line. -/
  ending : Byte

namespace JoinPlan

/-- Compare two fields; one that is not there is empty. -/
def compare (p : JoinPlan) (a b : Option (List Byte)) : Ordering :=
  let key (field : Option (List Byte)) : List Byte :=
    let bytes := field.getD []
    if p.folds then bytes.map raisedByte else bytes
  compareBytes (key a) (key b)

/-- The field of a line that is compared. -/
def key (p : JoinPlan) (second : Bool) (line : JoinLine) : Option (List Byte) :=
  line.fields[if second then p.fields.2 else p.fields.1]?

/-- What separates columns. -/
def gap (p : JoinPlan) : List Byte := [p.separator.getD 32]

/-- A field of a line. -/
def shown (p : JoinPlan) (line : Option JoinLine) (field : Nat) : List Byte :=
  match (line.bind fun l => l.fields[field]?).getD [] with
  | [] => p.filler
  | bytes => bytes

/-- The fields of a line apart from the one that is compared. -/
def others (p : JoinPlan) (line : Option JoinLine) (field : Nat) : List (List Byte) :=
  let count := (line.map fun l => l.fields.length).getD 0
  ((List.range count).filter (· != field)).map (p.shown line)

/-- What is written for two lines, one of which may be missing. -/
def row (p : JoinPlan) (a b : Option JoinLine) : List Byte :=
  let shared := if a.isSome then p.shown a p.fields.1 else p.shown b p.fields.2
  let cells := match p.columns with
    | none => shared :: p.others a p.fields.1 ++ p.others b p.fields.2
    | some columns => columns.map fun
        | .shared => shared
        | .first field => p.shown a field
        | .second field => p.shown b field
  joinBytes p.gap cells ++ [p.ending]

end JoinPlan

/-! ## §2. Two files side by side. -/

/-- A file that is being read. -/
structure JoinSide where
  /-- Its name. -/
  name : String
  /-- The lines that are left. -/
  unread : List JoinLine
  /-- The line that was read last. -/
  last : Option JoinLine
  /-- Was its order found to be wrong? -/
  warned : Bool

/-- How far the work has come. -/
structure Joining where
  /-- The files. -/
  sides : JoinSide × JoinSide
  /-- Was there a line without a partner? -/
  unpaired : Bool
  /-- What was written, newest first. -/
  written : List (Channel × List Byte)

namespace Joining

/-- One of the files. -/
def side (j : Joining) (second : Bool) : JoinSide :=
  if second then j.sides.2 else j.sides.1

/-- Put a file in its place. -/
def withSide (j : Joining) (second : Bool) (side : JoinSide) : Joining :=
  { j with sides := if second then (j.sides.1, side) else (side, j.sides.2) }

/-- How many lines are left of both files. -/
def left (j : Joining) : Nat := j.sides.1.unread.length + j.sides.2.unread.length

/-- Was an order found to be wrong? -/
def disordered (j : Joining) : Bool := j.sides.1.warned || j.sides.2.warned

/-- Write a row, if it is asked for. -/
def tell (p : JoinPlan) (j : Joining) (wanted : Bool) (a b : Option JoinLine) : Joining :=
  if wanted then { j with written := (.output, p.row a b) :: j.written } else j

/-- Read the next line of a file; nothing is read any more after a wrong order that
must not be. -/
def next (c : Call) (p : JoinPlan) (j : Joining) (second : Bool) : Option JoinLine × Joining :=
  let side := j.side second
  match side.unread with
  | [] => (none, j)
  | line :: rest =>
      let checked := p.checks = some true || (p.checks = none && j.unpaired)
      let wrong := checked && !side.warned && side.last.any fun before =>
        p.compare (p.key second before) (p.key second line) = .gt
      let moved := j.withSide second ⟨side.name, rest, some line, side.warned || wrong⟩
      let message := side.name ++ ":" ++ toString line.number ++ ": is not sorted: "
        ++ textOf line.bytes
      if p.checks = some true && j.disordered then (none, j)
      else if wrong then
        let told := { moved with written := (.errors, c.complaint message) :: moved.written }
        (if p.checks = some true then none else some line, told)
      else (some line, moved)

/-- The lines of a file whose field is the given one, the line behind them, and how
far the work has come then. -/
def group (c : Call) (p : JoinPlan) (second : Bool) (key : Option (List Byte)) :
    Nat → Joining → List JoinLine × Option JoinLine × Joining
  | 0, j => ([], none, j)
  | fuel + 1, j =>
      match j.next c p second with
      | (none, j) => ([], none, j)
      | (some line, j) =>
          if p.compare (p.key second line) key = .eq then
            let (more, behind, j) := group c p second key fuel j
            (line :: more, behind, j)
          else ([], some line, j)

/-- Go through what is left of a file, whose lines have no partner. -/
def rest (c : Call) (p : JoinPlan) (second wanted : Bool) :
    Nat → Option JoinLine → Joining → Joining
  | 0, _, j | _ + 1, none, j => j
  | fuel + 1, some line, j =>
      let told := j.tell p wanted (if second then none else some line)
        (if second then some line else none)
      let (line, j) := told.next c p second
      rest c p second wanted fuel line j

/-- Go through both files, with a line of each at hand. -/
def work (c : Call) (p : JoinPlan) : Nat → Option JoinLine → Option JoinLine → Joining → Joining
  | 0, _, _, j => j
  | fuel + 1, some a, some b, j =>
      match p.compare (p.key false a) (p.key true b) with
      | .lt =>
          let (a', j) := (j.tell p p.alone.1 (some a) none).next c p false
          work c p fuel a' (some b) { j with unpaired := true }
      | .gt =>
          let (b', j) := (j.tell p p.alone.2 none (some b)).next c p true
          work c p fuel (some a) b' { j with unpaired := true }
      | .eq =>
          let (as, a', j) := j.group c p false (p.key true b) (j.left + 1)
          let (bs, b', j) := j.group c p true (p.key false a) (j.left + 1)
          let rows := (a :: as).flatMap fun x => (b :: bs).map fun y => (x, y)
          let told := rows.foldl (fun j (x, y) => j.tell p p.together (some x) (some y)) j
          work c p fuel a' b' told
  | _ + 1, a, b, j =>
      rest c p true p.alone.2 (j.left + 2) b (rest c p false p.alone.1 (j.left + 2) a j)

end Joining

/-! ## §3. The command. -/

/-- The number of a field, counted from zero. -/
def joinField (text : String) : Except String Nat :=
  match readDigits 10 text.toList with
  | (n + 1, true) => .ok n
  | _ => .error ("invalid field number: " ++ quotedArg text)

/-- A column as it is written. -/
def joinColumn (text : String) : Except String JoinColumn :=
  match text.toList with
  | ['0'] => .ok .shared
  | '1' :: '.' :: field => (joinField (String.ofList field)).map .first
  | '2' :: '.' :: field => (joinField (String.ofList field)).map .second
  | c :: rest =>
      if c = '0' || ((c = '1' || c = '2') && rest.head? ≠ some '.') then
        .error ("invalid field specifier: " ++ quotedArg text)
      else .error ("invalid file number in field spec: " ++ quotedArg text)
  | [] => .error ("invalid file number in field spec: " ++ quotedArg text)

/-- The columns that texts ask for. -/
def joinColumns (texts : List String) : Except String (List JoinColumn) :=
  (texts.flatMap fun text =>
    (String.ofList (text.toList.map fun c => if c = ',' || c = '\t' then ' ' else c)).splitOn " "
    ).mapM joinColumn

/-- The number of a file. -/
def joinFile (text : String) : Except String Bool :=
  match text with
  | "1" => .ok false
  | "2" => .ok true
  | _ => .error ("invalid field number: " ++ quotedArg text)

/-- The options of `join`. -/
def joinOptions : List Known :=
  [valued "a" "", valued "e" "", flag "i" "ignore-case", valued "j" "", valued "o" "",
   valued "t" "", valued "v" "", valued "1" "", valued "2" "", flag "" "check-order",
   flag "" "nocheck-order", flag "" "header", flag "z" "zero-terminated"]

/-- The field that options give for a file. -/
def chosenField (o : Options) (file : String) : Except String Nat := do
  let given ← (o.values file ++ o.values "j").mapM joinField
  match given with
  | [] => return 0
  | first :: rest =>
      match rest.find? (· != first) with
      | some other =>
          throw ("incompatible join fields " ++ toString first ++ ", " ++ toString other)
      | none => return first

/-- What options ask for. -/
def JoinPlan.ofOptions (o : Options) : Except String JoinPlan := do
  let alone ← (o.values "a" ++ o.values "v").mapM joinFile
  let texts := (o.values "o").filter (· != "auto")
  let columns ← joinColumns texts
  let separator ← match (o.value? "t").map String.toList with
    | none => pure none
    | some [] => pure (some lineFeed)
    | some [c] => pure (some (UInt8.ofNat c.toNat))
    | some ['\\', '0'] => pure (some 0)
    | some cs => throw ("multi-character tab " ++ quotedArg (String.ofList cs))
  return {
    fields := (← chosenField o "1", ← chosenField o "2")
    folds := o.has "i"
    separator
    filler := bytesOf ((o.value? "e").getD "")
    columns := if texts.isEmpty then none else some columns
    alone := (alone.contains false, alone.contains true)
    together := (o.values "v").isEmpty
    checks := (o.last? ["check-order", "nocheck-order"]).map fun (n, _) => n == "check-order"
    titled := o.has "header"
    ending := if o.has "z" then 0 else lineFeed }

/-- The columns for lines with so many fields. -/
def JoinPlan.allColumns (p : JoinPlan) (a b : Option JoinLine) : List JoinColumn :=
  let count (line : Option JoinLine) : Nat := (line.map fun l => l.fields.length).getD 0
  .shared :: ((List.range (count a)).filter (· != p.fields.1)).map .first
    ++ ((List.range (count b)).filter (· != p.fields.2)).map .second

/-- Put lines of two files together. -/
def join : Command :=
  withOptions joinOptions 1 fun o c =>
    match o.operands with
    | [] => c.misuse 1 "missing operand"
    | [first] => c.misuse 1 ("missing operand after " ++ quotedArg first)
    | _ :: _ :: extra :: _ => c.misuse 1 ("extra operand " ++ quotedArg extra)
    | [first, second] => c.orFail 1 do
        let p ← JoinPlan.ofOptions o
        if Call.isInput first && Call.isInput second then
          throw "both files cannot be standard input"
        let (a, b) ← twoContents c Call.plainTrouble first second
        let side (name : String) (bytes : List Byte) : JoinSide :=
          let lines := (bodiesBy p.ending bytes).zipIdx 1 |>.map fun (line, i) =>
            ⟨i, line, match p.separator with
              | some s => if line.isEmpty then [] else fieldsBetween s line
              | none => blankFields line⟩
          ⟨name, lines, none, false⟩
        let start : Joining := ⟨(side first a, side second b), false, []⟩
        let (x, j) := start.next c p false
        let (y, j) := j.next c p true
        let p := if o.has "o" && p.columns.isNone then
            { p with columns := some (p.allColumns x y) } else p
        let (x, y, j) := if p.titled && (x.isSome || y.isSome) then
            let forget (s : JoinSide) : JoinSide := { s with last := none }
            let told := j.tell p true x y
            let fresh := { told with sides := (forget told.sides.1, forget told.sides.2) }
            let (x, j) := fresh.next c p false
            let (y, j) := j.next c p true
            (x, y, j)
          else (x, y, j)
        let done := Joining.work c p (j.left + 3) x y j
        let last := if done.disordered && p.checks = none then
            [(Channel.errors, c.complaint "input is not in sorted order")] else []
        return ⟨if done.disordered then 1 else 0, done.written.reverse ++ last,
          c.leftOver [first, second], c.tree⟩

/-! ## §4. Names before names. -/

/-- The words between blanks. -/
def spacedWords (bytes : List Byte) : List (List Byte) :=
  let isBlank (b : Byte) : Bool := b == 32 || b == 9 || b == lineFeed
  (bytes.splitBy fun a b => isBlank a == isBlank b).filter fun run => !(run.head?.any isBlank)

/-- Words in pairs; none if one is left over. -/
def inPairs? : List (List Byte) → Option (List (List Byte × List Byte))
  | [] => some []
  | [_] => none
  | a :: b :: rest => (inPairs? rest).map ((a, b) :: ·)

/-- How many pairs ask for something before a name. -/
def askedBefore (pairs : List (List Byte × List Byte)) (name : List Byte) : Nat :=
  (pairs.filter fun (_, b) => b = name).length

/-- Names in their order: those before which nothing has to come any more are
waiting in a row, and a name that is written makes others ready. -/
def inOrder : Nat → List (List Byte) → List (List Byte × List Byte) → List (List Byte)
  | 0, _, _ | _ + 1, [], _ => []
  | fuel + 1, name :: waiting, pairs =>
      let (own, left) := pairs.partition fun (a, _) => a = name
      let ready := (own.reverse.map Prod.snd).foldl
        (fun (ready, own) b =>
          let own := own.erase (name, b)
          (if askedBefore (left ++ own) b = 0 then ready ++ [b] else ready, own))
        ([], own)
      name :: inOrder fuel (waiting ++ ready.1) left

/-- Put names in an order that pairs ask for. -/
def tsort : Command :=
  withOptions [] 1 fun o c =>
    match o.operands with
    | _ :: extra :: _ => c.misuse 1 ("extra operand " ++ quotedArg extra)
    | operands => c.orFail 1 do
        let file := operands.headD "-"
        let bytes ← (c.read file).mapError (Call.plainTrouble file)
        let words := spacedWords bytes
        let some pairs := inPairs? words
          | throw (file ++ ": input contains an odd number of tokens")
        let names := words.eraseDups.mergeSort fun a b => (compareBytes a b).isLE
        let asked := pairs.filter fun (a, b) => a ≠ b
        let free := names.filter fun name => askedBefore asked name = 0
        let found := inOrder (names.length + 1) free asked
        let loop := names.filter fun name => !found.contains name
        let messages := if loop.isEmpty then []
          else (Channel.errors, c.complaint (file ++ ": input contains a loop:"))
            :: loop.map fun name => (Channel.errors, c.complaint (textOf name))
        return ⟨if loop.isEmpty then 0 else 1,
          messages ++ [(.output, (found ++ loop).flatMap fun name => name ++ [lineFeed])],
          c.leftOver [file], c.tree⟩

end Stencil.Script
