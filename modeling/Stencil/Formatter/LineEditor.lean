/-
  Stencil.Formatter.LineEditor
  ────────────────────────────
  Editing an input line by line.

  An edit is a list of instructions, each for the lines that it selects.  A
  line is taken into the working space, all instructions are followed there,
  and what the space then holds is written.  A second space keeps text from
  line to line.  Blocks and jumps make some instructions come again or not at
  all, which is why a run takes fuel.
-/
import Stencil.Formatter.Regex

namespace Stencil.Script

open Text (Byte)

/-! ## §1. Instructions. -/

/-- An expression for lines; without one, the expression used last is meant. -/
structure LinePattern where
  /-- The expression. -/
  regex : Option Regex
  /-- Are letters the same in both cases? -/
  foldsCase : Bool
  /-- Do lines start and end inside of the working space? -/
  manyLines : Bool
  deriving Repr, DecidableEq

/-- A line that is meant. -/
inductive Address where
  /-- The one with a number. -/
  | number (n : Nat)
  /-- One, and then those at a distance. -/
  | stepped (first step : Nat)
  /-- The last one. -/
  | last
  /-- Those that match. -/
  | matching (pattern : LinePattern)
  deriving Repr, DecidableEq

/-- Where a range of lines ends. -/
inductive RangeEnd where
  /-- At a line that is meant. -/
  | address (a : Address)
  /-- So many lines further. -/
  | further (n : Nat)
  /-- At a multiple of a number. -/
  | multiple (n : Nat)
  deriving Repr, DecidableEq

/-- The lines that are meant: all of them, one by one, or a range. -/
structure Selection where
  /-- The line, or the first of a range. -/
  first : Option Address
  /-- Where the range ends. -/
  second : Option RangeEnd
  /-- Are all other lines meant? -/
  negated : Bool
  deriving Repr, DecidableEq

/-- What happens to the letters that follow. -/
inductive LetterCase where
  /-- They stay. -/
  | keep
  /-- They become capitals. -/
  | upper
  /-- They become small. -/
  | lower
  deriving Repr, DecidableEq

/-- A piece of a replacement. -/
inductive Replacement where
  /-- These bytes. -/
  | bytes (bs : List Byte)
  /-- What a group has matched. -/
  | group (number : Nat)
  /-- The case of all letters that follow. -/
  | cased (mode : LetterCase)
  /-- The case of the next letter. -/
  | nextCased (mode : LetterCase)
  deriving Repr, DecidableEq

/-- How matches are replaced. -/
structure Substitution where
  /-- What is replaced. -/
  pattern : LinePattern
  /-- What comes in its place. -/
  replacement : List Replacement
  /-- Which match is the first to be replaced. -/
  nth : Nat
  /-- Are all that follow replaced as well? -/
  everywhere : Bool
  /-- Does what the space writes as a script come into its place? -/
  executes : Bool
  /-- Is the space written after a replacement? -/
  prints : Bool
  /-- A file that the space is written to after a replacement. -/
  target : Option String
  deriving Repr, DecidableEq

/-- When a jump is taken. -/
inductive JumpWhen where
  /-- Always. -/
  | always
  /-- If something was replaced. -/
  | changed
  /-- If nothing was replaced. -/
  | unchanged
  deriving Repr, DecidableEq

/-- What is done with a line. -/
inductive Edit where
  /-- A block starts. -/
  | opened
  /-- A block ends. -/
  | closed
  /-- A place to jump to. -/
  | label (name : String)
  /-- Do nothing. -/
  | nothing
  /-- Go on at a label; without a name, at the end. -/
  | jump (taken : JumpWhen) (name : String)
  /-- Write a text after the line. -/
  | append (text : List Byte)
  /-- Write a text before the line. -/
  | insert (text : List Byte)
  /-- Write a text in the place of the lines. -/
  | change (text : List Byte)
  /-- The line goes. -/
  | delete
  /-- The first line of the space goes, and the rest is edited again. -/
  | deleteFirst
  /-- The space is written. -/
  | print
  /-- The first line of the space is written. -/
  | printFirst
  /-- The next line comes into the space. -/
  | next
  /-- The next line is added to the space. -/
  | addNext
  /-- The space is kept, or added to what is kept. -/
  | keep (adds : Bool)
  /-- What is kept comes into the space, or is added to it. -/
  | recall (adds : Bool)
  /-- The space and what is kept change places. -/
  | exchange
  /-- The input ends here. -/
  | quit (status : Nat) (prints : Bool)
  /-- The number of the line is written. -/
  | lineNumber
  /-- The name of the input is written. -/
  | inputName
  /-- The space is written so that every byte can be seen, in lines of a width. -/
  | listing (width : Option Nat)
  /-- The space becomes empty. -/
  | clear
  /-- Bytes become other bytes. -/
  | recode (pairs : List (Byte × Byte))
  /-- Matches are replaced. -/
  | substitute (s : Substitution)
  /-- A file is written after the line. -/
  | readFile (path : String)
  /-- The next line of a file is written after the line. -/
  | readLine (path : String)
  /-- The space is written to a file. -/
  | writeFile (path : String)
  /-- The first line of the space is written to a file. -/
  | writeFirst (path : String)
  /-- What a script writes is written; without one, what the space writes as a script
  comes into its place. -/
  | execute (script : String)
  deriving Repr, DecidableEq

/-- An instruction. -/
structure Instruction where
  /-- Its own number. -/
  number : Nat
  /-- The lines that are meant. -/
  selection : Selection
  /-- What is done with them. -/
  edit : Edit
  deriving Repr, DecidableEq

/-! ## §2. The desk. -/

/-- A line that is to be edited. -/
structure SourceLine where
  /-- The line with its end. -/
  bytes : List Byte
  /-- The name of the file it is from. -/
  file : String
  /-- Is it the first line of its file? -/
  isFirst : Bool
  /-- Is it the last line of its file? -/
  isLast : Bool
  deriving Repr, DecidableEq

/-- What an edit has come to. -/
structure Desk where
  /-- The working space. -/
  space : List Byte
  /-- Does the line in the space have an end? -/
  ended : Bool
  /-- What is kept. -/
  kept : List Byte
  /-- The number of the line. -/
  line : Nat
  /-- The name of the file that the line is from. -/
  file : String
  /-- Is the line the last one? -/
  atLast : Bool
  /-- The lines to come. -/
  ahead : List SourceLine
  /-- What is to be written after the line. -/
  queue : List (List Byte)
  /-- What was written, newest first, with the file that was edited then. -/
  output : List (String × List Byte)
  /-- Is the end of the last line still to be written? -/
  owesEnd : Bool
  /-- Was something replaced in this line? -/
  changed : Bool
  /-- The ranges that are open, by the numbers of their instructions, and where
  they end if that is known. -/
  ranges : List (Nat × Option Nat)
  /-- The expression used last. -/
  lastPattern : Option LinePattern
  /-- What was written to files, newest first. -/
  files : List (String × List Byte)
  /-- The lines that are left of files that are read line by line. -/
  partRead : List (String × List (List Byte))
  /-- The status at the end. -/
  status : Nat
  deriving Repr, DecidableEq

/-- What does not change during an edit. -/
structure Bench where
  /-- Is only written what instructions write? -/
  quiet : Bool
  /-- The byte that ends a line. -/
  ending : Byte
  /-- The width of listings; zero for lines of any width. -/
  width : Nat
  /-- Is each file edited for itself? -/
  separate : Bool
  /-- Does what is written come into the place of the file? -/
  inPlace : Bool
  /-- All instructions. -/
  program : List Instruction
  /-- The files that can be read. -/
  fileAt : String → Option (List Byte)
  /-- What scripts write. -/
  run : String → List Byte

namespace Desk

/-- Write bytes; an end that is owed comes first. -/
def put (d : Desk) (b : Bench) (bytes : List Byte) : Desk :=
  { d with
    output := (d.file, bytes) :: (if d.owesEnd then (d.file, [b.ending]) :: d.output else d.output)
    owesEnd := false }

/-- Write bytes as a line; its end is owed if the input has none there. -/
def putLine (d : Desk) (b : Bench) (bytes : List Byte) : Desk :=
  if d.ended then d.put b (bytes ++ [b.ending]) else { d.put b bytes with owesEnd := true }

/-- Write a line to a file, or to the output by its name. -/
def putTo (d : Desk) (b : Bench) (path : String) (bytes : List Byte) : Desk :=
  if path = "/dev/stdout" then d.putLine b bytes
  else { d with files := (path, bytes ++ [b.ending]) :: d.files }

/-- Write what is to come after the line. -/
def flush (d : Desk) (b : Bench) : Desk :=
  { d.queue.foldl (fun d bytes => if bytes.isEmpty then d else d.put b bytes) d with queue := [] }

/-- Take the next line, if there is one. -/
def takeLine? (d : Desk) (b : Bench) : Option Desk :=
  match d.ahead with
  | [] => none
  | next :: ahead =>
      let ended := next.bytes.getLast? == some b.ending
      some { d with
        space := if ended then next.bytes.dropLast else next.bytes
        ended, ahead
        line := if b.separate && next.isFirst then 1 else d.line + 1
        file := next.file
        atLast := ahead.isEmpty || (b.separate && next.isLast)
        owesEnd := d.owesEnd && !(b.inPlace && next.isFirst)
        changed := false }

/-- The expression that is meant, which is the one used last from now on. -/
def recallPattern (d : Desk) (p : LinePattern) : Desk × LinePattern :=
  match p.regex, d.lastPattern with
  | none, some last => (d, last)
  | _, _ => ({ d with lastPattern := some p }, p)

/-- The space as a subject of an expression. -/
def subject (d : Desk) (p : LinePattern) : Subject :=
  ⟨d.space.toArray, p.foldsCase, p.manyLines⟩

/-- Is the line meant? -/
def isAt (d : Desk) : Address → Desk × Bool
  | .number n => (d, d.line == n)
  | .stepped first step =>
      (d, if step = 0 then d.line == first
        else decide (first ≤ d.line) && (d.line - first) % step == 0)
  | .last => (d, d.atLast)
  | .matching pattern =>
      let (d, p) := d.recallPattern pattern
      (d, (p.regex.getD .empty).occursIn (d.subject p))

/-- Open a range, or close it. -/
def setRange (d : Desk) (number : Nat) (range : Option (Option Nat)) : Desk :=
  let others := d.ranges.filter fun (n, _) => n != number
  { d with ranges := match range with
    | some stop => (number, stop) :: others
    | none => others }

/-- The last line of a range that starts here, if it is known, and whether the
range goes on at all. -/
def rangeFrom (d : Desk) : RangeEnd → Option Nat × Bool
  | .address (.number n) => (some n, decide (d.line < n))
  | .address _ => (none, true)
  | .further n => (some (d.line + n), decide (0 < n))
  | .multiple n =>
      if n = 0 then (some d.line, false)
      else (some (d.line + (n - d.line % n)), true)

/-- Is the line selected?  This opens and closes ranges. -/
def selects (d : Desk) (i : Instruction) : Desk × Bool :=
  let (d, meant) : Desk × Bool := match i.selection.first, i.selection.second with
    | none, _ => (d, true)
    | some a, none => d.isAt a
    | some a, some e =>
        match d.ranges.lookup i.number with
        | some (some stop) =>
            (if stop ≤ d.line then d.setRange i.number none else d, decide (d.line ≤ stop))
        | some none =>
            let (d, ends) := match e with
              | .address e => d.isAt e
              | _ => (d, false)
            (if ends then d.setRange i.number none else d, true)
        | none =>
            let (d, starts) := d.isAt a
            if !starts then (d, false)
            else
              let (stop, goesOn) := d.rangeFrom e
              (if goesOn then d.setRange i.number (some stop) else d, true)
  (d, meant != i.selection.negated)

end Desk

/-! ## §3. Replacing. -/

/-- The byte in a case. -/
def LetterCase.apply (mode : LetterCase) (b : Byte) : Byte :=
  match mode with
  | .keep => b
  | .upper => upperByte b
  | .lower => lowerByte b

/-- The bytes of a replacement; `mode` is the case of letters, and `once` that
of the next one. -/
def replacementBytes (m : Match) (s : Subject) (mode : LetterCase) (once : LetterCase) :
    List Replacement → List Byte
  | [] => []
  | .cased mode :: rest => replacementBytes m s mode .keep rest
  | .nextCased once :: rest => replacementBytes m s mode once rest
  | piece :: rest =>
      let bytes := match piece with
        | .bytes bs => bs
        | .group number => m.groupBytes s number
        | _ => []
      match bytes with
      | [] => replacementBytes m s mode once rest
      | b :: bs =>
          (if once = .keep then mode.apply b else once.apply b) :: bs.map mode.apply
            ++ replacementBytes m s mode .keep rest

/-- Replace matches from a position on, where `count` matches came before; a
match of nothing does not touch the match before it.  The flag tells whether
anything was replaced. -/
def replaceFrom (s : Subject) (r : Regex) (sub : Substitution) :
    Nat → (position count : Nat) → (touching : Bool) → List Byte × Bool
  | 0, position, _, _ => (s.slice position s.bytes.size, false)
  | fuel + 1, position, count, touching =>
      match r.find? s position with
      | none => (s.slice position s.bytes.size, false)
      | some m =>
          let before := s.slice position m.start
          let isEmpty := m.stop == m.start
          let passed := if isEmpty then s.slice m.stop (m.stop + 1) else []
          let next := if isEmpty then m.stop + 1 else m.stop
          let goOn (count : Nat) (put : List Byte) (did : Bool) : List Byte × Bool :=
            if s.bytes.size < next then (before ++ put ++ passed, did)
            else
              let (rest, more) := replaceFrom s r sub fuel next count (!isEmpty)
              (before ++ put ++ passed ++ rest, did || more)
          if isEmpty && touching && m.start == position then goOn count [] false
          else if count + 1 < sub.nth then goOn (count + 1) (s.slice m.start m.stop) false
          else
            let put := replacementBytes m s .keep .keep sub.replacement
            if sub.everywhere then goOn (count + 1) put true
            else (before ++ put ++ s.slice m.stop s.bytes.size, true)

/-- Put what the space writes as a script in its place. -/
def Desk.execute (d : Desk) (b : Bench) : Desk :=
  { d with space := lineBody (b.run (textOf d.space)) }

/-- Replace matches in the working space. -/
def Desk.substitute (d : Desk) (b : Bench) (sub : Substitution) : Desk :=
  let (d, p) := d.recallPattern sub.pattern
  let s := d.subject p
  let (space, did) :=
    replaceFrom s (p.regex.getD .empty) sub (s.bytes.size + 2) 0 0 false
  if !did then d
  else
    let d := { d with space, changed := true }
    let d := if sub.executes then d.execute b else d
    let d := if sub.prints then d.putLine b d.space else d
    match sub.target with
    | some path => d.putTo b path d.space
    | none => d

/-! ## §4. Listing. -/

/-- A byte so that it can be seen. -/
def visibleByte (b : Byte) : List Byte :=
  match [(92, '\\'), (7, 'a'), (8, 'b'), (12, 'f'), (10, 'n'), (13, 'r'), (9, 't'),
      (11, 'v')].lookup b.toNat with
  | some letter => bytesOf (String.ofList ['\\', letter])
  | none =>
      if 32 ≤ b && b ≤ 126 then [b]
      else
        let digits := Nat.toDigits 8 b.toNat
        bytesOf (String.ofList ('\\' :: List.replicate (3 - digits.length) '0' ++ digits))

/-- Pieces in lines of a width, where zero stands for any width; `used` is the
width so far.  A line that goes on has a backslash at its end. -/
def foldListing (width used : Nat) : List (List Byte) → List Byte
  | [] => bytesOf "$\n"
  | piece :: rest =>
      if 0 < width && decide (width ≤ used + piece.length) then
        bytesOf "\\\n" ++ piece ++ foldListing width piece.length rest
      else piece ++ foldListing width (used + piece.length) rest

/-! ## §5. Editing. -/

/-- How the instructions for a line end. -/
inductive LineEnding where
  /-- The space is written, and the next line comes. -/
  | written
  /-- The next line comes. -/
  | dropped
  /-- The space is edited again. -/
  | again
  /-- No line comes any more. -/
  | over (prints : Bool)
  deriving Repr, DecidableEq

/-- The instructions behind the end of a block. -/
def behindBlock (depth : Nat) : List Instruction → List Instruction
  | [] => []
  | i :: rest =>
      match i.edit with
      | .opened => behindBlock (depth + 1) rest
      | .closed => if depth = 0 then rest else behindBlock (depth - 1) rest
      | _ => behindBlock depth rest

/-- The instructions behind a label. -/
def behindLabel (name : String) (program : List Instruction) : List Instruction :=
  (program.dropWhile fun i => i.edit ≠ .label name).drop 1

/-- Follow instructions, at most as many as there is fuel. -/
def follow (b : Bench) : Nat → List Instruction → Desk → Desk × LineEnding
  | 0, _, d => (d, .over false)
  | _ + 1, [], d => (d, .written)
  | fuel + 1, i :: rest, d =>
      let (d, selected) := d.selects i
      let goOn (d : Desk) : Desk × LineEnding := follow b fuel rest d
      if !selected then
        follow b fuel (if i.edit = .opened then behindBlock 0 rest else rest) d
      else
        match i.edit with
        | .opened | .closed | .nothing | .label _ => goOn d
        | .jump taken name =>
            let jumps := match taken with
              | .always => true
              | .changed => d.changed
              | .unchanged => !d.changed
            let d := if taken = .always then d else { d with changed := false }
            if !jumps then goOn d
            else if name = "" then (d, .written)
            else follow b fuel (behindLabel name b.program) d
        | .append text => goOn { d with queue := d.queue ++ [text] }
        | .insert text => goOn (d.put b text)
        | .change text =>
            let open_ := (d.ranges.lookup i.number).isSome && !i.selection.negated
            (if open_ then d else d.put b text, .dropped)
        | .delete => (d, .dropped)
        | .deleteFirst =>
            if d.space.contains lineFeed then
              ({ d with space := (d.space.dropWhile (· != lineFeed)).drop 1 }, .again)
            else (d, .dropped)
        | .print => goOn (d.putLine b d.space)
        | .printFirst =>
            goOn (d.put b (d.space.takeWhile (· != lineFeed) ++ [b.ending]))
        | .next =>
            if d.atLast then (d, .written)
            else
              let d := (if b.quiet then d else d.putLine b d.space).flush b
              goOn ((d.takeLine? b).getD d)
        | .addNext =>
            if d.atLast then (d, .written)
            else
              let e := ((d.flush b).takeLine? b).getD d
              goOn { e with
                space := d.space ++ lineFeed :: e.space
                changed := d.changed }
        | .keep adds =>
            goOn { d with kept := if adds then d.kept ++ lineFeed :: d.space else d.space }
        | .recall adds =>
            goOn { d with space := if adds then d.space ++ lineFeed :: d.kept else d.kept }
        | .exchange => goOn { d with space := d.kept, kept := d.space }
        | .quit status prints => ({ d with status }, .over prints)
        | .lineNumber => goOn (d.put b (bytesOf (toString d.line ++ "\n")))
        | .inputName => goOn (d.put b (bytesOf (d.file ++ "\n")))
        | .listing width =>
            goOn (d.put b (foldListing (width.getD b.width) 0 (d.space.map visibleByte)))
        | .clear => goOn { d with space := [] }
        | .recode pairs =>
            goOn { d with space := d.space.map fun byte => (pairs.lookup byte).getD byte }
        | .substitute sub => goOn (d.substitute b sub)
        | .readFile path =>
            goOn (match b.fileAt path with
              | some bytes => { d with queue := d.queue ++ [bytes] }
              | none => d)
        | .readLine path =>
            let left := match d.partRead.lookup path with
              | some lines => lines
              | none => (b.fileAt path).toList.flatMap (piecesBy b.ending)
            goOn { d with
              queue := d.queue ++ (left.take 1).map fun line =>
                if line.getLast? == some b.ending then line else line ++ [b.ending]
              partRead := (path, left.drop 1) :: d.partRead }
        | .writeFile path => goOn (d.putTo b path d.space)
        | .writeFirst path => goOn (d.putTo b path (d.space.takeWhile (· != lineFeed)))
        | .execute script =>
            goOn (if script = "" then d.execute b else d.put b (b.run script))

/-- Edit the line on the desk and all lines to come. -/
def editLines (b : Bench) : Nat → Desk → Desk
  | 0, d => d
  | fuel + 1, d =>
      let (d, ending) := follow b (10000 + fuel) b.program d
      let shown (prints : Bool) : Desk :=
        (if prints && !b.quiet then d.putLine b d.space else d).flush b
      let goOn (d : Desk) : Desk :=
        match d.takeLine? b with
        | some d => editLines b fuel d
        | none => d
      match ending with
      | .written => goOn (shown true)
      | .dropped => goOn (shown false)
      | .again => editLines b fuel (shown false)
      | .over prints => shown prints

/-- The ranges that are open before the first line: those from line zero on. -/
def openAtStart (program : List Instruction) : List (Nat × Option Nat) :=
  program.filterMap fun i =>
    if i.selection.first = some (.number 0) && i.selection.second.isSome then
      some (i.number, none)
    else none

/-- The lines of a file. -/
def sourceLines (ending : Byte) (file : String) (input : List Byte) : List SourceLine :=
  let lines := piecesBy ending input
  lines.zipIdx.map fun (bytes, i) => ⟨bytes, file, i == 0, i + 1 == lines.length⟩

/-- What an edit leaves behind. -/
structure Edited where
  /-- What was written, by the names of the files that were edited then. -/
  pages : List (String × List Byte)
  /-- What was written to files, by their paths. -/
  files : List (String × List Byte)
  /-- The lines that were not read. -/
  left : List SourceLine
  /-- The status. -/
  status : Nat
  deriving Repr, DecidableEq

/-- All that was written. -/
def Edited.output (e : Edited) : List Byte := e.pages.flatMap Prod.snd

/-- What was written while a file was edited. -/
def Edited.page (e : Edited) (file : String) : List Byte :=
  e.pages.flatMap fun (name, bytes) => if name = file then bytes else []

/-- Edit files, each with its name. -/
def editInput (b : Bench) (inputs : List (String × List Byte)) : Edited :=
  let lines := inputs.flatMap fun (file, input) => sourceLines b.ending file input
  let size := (inputs.map fun (_, input) => input.length).foldl (· + ·) 0
  let start : Desk :=
    { space := []
      ended := true
      kept := []
      line := 0
      file := "-"
      atLast := false
      ahead := lines
      queue := []
      output := []
      owesEnd := false
      changed := false
      ranges := openAtStart b.program
      lastPattern := none
      files := []
      partRead := []
      status := 0 }
  match start.takeLine? b with
  | none => ⟨[], [], [], 0⟩
  | some d =>
      let d := editLines b (lines.length + size + 1) d
      ⟨d.output.reverse, d.files.reverse, d.ahead, d.status⟩

end Stencil.Script
