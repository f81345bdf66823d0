/-
  Stencil.Formatter.LineEditor.Reader
  ───────────────────────────────────
  Edits, as they are written.

  An instruction is a selection of lines and a letter, with what the letter
  asks for behind it; semicolons and line ends separate instructions.  What
  cannot be read is told together with how far the reader had come.
-/
import Stencil.Formatter.LineEditor
import Stencil.Formatter.Regex.Reader

namespace Stencil.Script

open Text (Byte)

/-! ## §1. Faults. -/

/-- Why an edit cannot be read. -/
structure EditFault where
  /-- How many characters were left; none if that does not matter. -/
  left : Option Nat
  /-- What is wrong. -/
  message : String
  deriving Repr, DecidableEq

/-- Tell a fault before the characters that are left. -/
def faultAt {α : Type} (left : List Char) (message : String) : Except EditFault α :=
  .error ⟨some left.length, message⟩

/-! ## §2. Parts of instructions. -/

/-- Is the character a blank inside of a line? -/
def isLineBlank (c : Char) : Bool :=
  c == ' ' || c == '\t' || c == '\r' || c == '\x0b' || c == '\x0c'

/-- Is the character a blank or a line end? -/
def isAnyBlank (c : Char) : Bool :=
  isLineBlank c || c == '\n'

/-- What comes before a mark, and what comes after it.  A backslash makes the
mark a plain character, and in an expression so do brackets; a line end is
only allowed if `spansLines` says so. -/
def untilMark (mark : Char) (brackets spansLines : Bool) :
    Nat → List Char → Option (List Char × List Char)
  | 0, _ => none
  | _ + 1, [] => none
  | fuel + 1, c :: cs =>
      let plain (front : List Char) (rest : List Char) : Option (List Char × List Char) :=
        (untilMark mark brackets spansLines fuel rest).map fun (before, after) =>
          (front ++ before, after)
      if c = mark then some ([], cs)
      else if c = '\\' then
        match cs with
        | [] => none
        | e :: rest =>
            if e = mark then plain [e] rest
            else if e = 'n' && brackets then plain ['\\', 'n'] rest
            else plain ['\\', e] rest
      else if c = '\n' && !spansLines then none
      else if c = '[' && brackets then
        match bracketSet ⟨false, true, true⟩ cs with
        | .ok (_, rest) =>
            let inner := cs.take (cs.length - rest.length)
            plain ('[' :: inner) rest
        | .error _ => none
      else plain [c] cs

/-- Read an expression with its flags. -/
def linePattern (d : Dialect) (text : List Char) (foldsCase manyLines : Bool) (left : List Char) :
    Except EditFault LinePattern :=
  if text.isEmpty then .ok ⟨none, foldsCase, manyLines⟩
  else
    match Regex.ofText d text with
    | .ok regex => .ok ⟨some regex, foldsCase, manyLines⟩
    | .error message => faultAt left message

/-- A number at the start of a text, and what is left behind it. -/
def leadingNumber (cs : List Char) : Nat × List Char :=
  let digits := cs.takeWhile Char.isDigit
  ((readDigits 10 digits).1, cs.drop digits.length)

/-- Read an address, if there is one. -/
def readAddress (d : Dialect) (cs : List Char) :
    Except EditFault (Option Address × List Char) :=
  let expression (mark : Char) (rest : List Char) :
      Except EditFault (Option Address × List Char) :=
    match untilMark mark true false (rest.length + 1) rest with
    | none => faultAt [] "unterminated address regex"
    | some (text, rest) =>
        let flags := rest.takeWhile fun c => c == 'I' || c == 'M'
        let rest := rest.drop flags.length
        (linePattern d text (flags.contains 'I') (flags.contains 'M') rest).map fun p =>
          (some (.matching p), rest)
  match cs with
  | '$' :: rest => .ok (some .last, rest)
  | '/' :: rest => expression '/' rest
  | '\\' :: mark :: rest => expression mark rest
  | c :: _ =>
      if c.isDigit then
        let (n, rest) := leadingNumber cs
        match rest with
        | '~' :: rest =>
            let (step, rest) := leadingNumber rest
            .ok (some (.stepped n step), rest)
        | rest => .ok (some (.number n), rest)
      else .ok (none, cs)
  | [] => .ok (none, [])

/-- Read where a range ends. -/
def readRangeEnd (d : Dialect) (cs : List Char) : Except EditFault (RangeEnd × List Char) :=
  match cs with
  | '+' :: rest => let (n, rest) := leadingNumber rest; .ok (.further n, rest)
  | '~' :: rest => let (n, rest) := leadingNumber rest; .ok (.multiple n, rest)
  | cs => do
      match ← readAddress d cs with
      | (some a, rest) => return (.address a, rest)
      | (none, rest) => faultAt rest.tail "unexpected \x60,'"

/-- Read which lines are meant. -/
def readSelection (d : Dialect) (cs : List Char) : Except EditFault (Selection × List Char) := do
  let (first, rest) ← readAddress d cs
  let rest := rest.dropWhile isLineBlank
  let (second, rest) ← match first, rest with
    | some _, ',' :: rest => do
        let (e, rest) ← readRangeEnd d (rest.dropWhile isLineBlank)
        pure (some e, rest.dropWhile isLineBlank)
    | _, rest => pure (none, rest)
  match rest with
  | '!' :: rest =>
      match rest.dropWhile isLineBlank with
      | '!' :: rest => faultAt rest "multiple \x60!'s"
      | rest => return (⟨first, second, true⟩, rest)
  | rest => return (⟨first, second, false⟩, rest)

/-- Read a replacement. -/
def readReplacement : Nat → List Char → List Replacement
  | 0, _ => []
  | _ + 1, [] => []
  | fuel + 1, c :: cs =>
      let byte (c : Char) (rest : List Char) : List Replacement :=
        match readReplacement fuel rest with
        | .bytes bs :: more => .bytes (c.toUInt8 :: bs) :: more
        | more => .bytes [c.toUInt8] :: more
      match c, cs with
      | '&', rest => .group 0 :: readReplacement fuel rest
      | '\\', e :: rest =>
          if e.isDigit then .group (digitValue e) :: readReplacement fuel rest
          else
            match e with
            | 'U' => .cased .upper :: readReplacement fuel rest
            | 'L' => .cased .lower :: readReplacement fuel rest
            | 'E' => .cased .keep :: readReplacement fuel rest
            | 'u' => .nextCased .upper :: readReplacement fuel rest
            | 'l' => .nextCased .lower :: readReplacement fuel rest
            | e =>
                match controlLetters.lookup e, codeByte? e rest with
                | some control, _ => byte control rest
                | none, some (b, n) => byte (Char.ofNat b.toNat) (rest.drop n)
                | none, none => byte e rest
      | c, rest => byte c rest

/-- The greatest group a replacement asks for. -/
def greatestGroup (replacement : List Replacement) : Nat :=
  replacement.foldl
    (fun n piece => match piece with
      | .group number => max n number
      | _ => n) 0

/-- Flags behind a substitution. -/
structure SubstituteFlags where
  /-- Which match is replaced first. -/
  nth : Option Nat
  /-- All that follow as well? -/
  everywhere : Bool
  /-- Is the space a script? -/
  executes : Bool
  /-- Is the space written? -/
  prints : Bool
  /-- Are letters the same in both cases? -/
  foldsCase : Bool
  /-- Do lines start and end inside of the space? -/
  manyLines : Bool
  /-- The file to write to. -/
  target : Option String

/-- Read the flags of a substitution up to the end of the instruction. -/
def readFlags : Nat → SubstituteFlags → List Char → Except EditFault (SubstituteFlags × List Char)
  | 0, f, cs => .ok (f, cs)
  | _ + 1, f, [] => .ok (f, [])
  | fuel + 1, f, c :: cs =>
      match c with
      | 'g' =>
          if f.everywhere then faultAt cs "multiple \x60g' options to \x60s' command"
          else readFlags fuel { f with everywhere := true } cs
      | 'p' =>
          if f.prints then faultAt cs "multiple \x60p' options to \x60s' command"
          else readFlags fuel { f with prints := true } cs
      | 'e' => readFlags fuel { f with executes := true } cs
      | 'i' | 'I' => readFlags fuel { f with foldsCase := true } cs
      | 'm' | 'M' => readFlags fuel { f with manyLines := true } cs
      | 'w' =>
          let path := (cs.dropWhile isLineBlank).takeWhile (· != '\n')
          .ok ({ f with target := some (String.ofList path) },
            (cs.dropWhile (· != '\n')).drop 1)
      | '\x7d' | '#' => .ok (f, c :: cs)
      | ';' | '\n' => .ok (f, cs)
      | c =>
          if isLineBlank c then readFlags fuel f cs
          else if c.isDigit then
            let (n, rest) := leadingNumber (c :: cs)
            if n = 0 then faultAt rest "number option to \x60s' command may not be zero"
            else if f.nth.isSome then
              faultAt rest "multiple number options to \x60s' command"
            else readFlags fuel { f with nth := some n } rest
          else faultAt cs "unknown option to \x60s'"

/-- Read a substitution behind its letter. -/
def readSubstitution (d : Dialect) (cs : List Char) : Except EditFault (Edit × List Char) :=
  let unterminated : Except EditFault (Edit × List Char) :=
    let fault : Except EditFault (Edit × List Char) := faultAt [] "unterminated \x60s' command"
    fault
  match cs with
  | [] => unterminated
  | mark :: rest =>
      match untilMark mark true true (rest.length + 1) rest with
      | none => unterminated
      | some (text, rest) =>
          match untilMark mark false false (rest.length + 1) rest with
          | none => unterminated
          | some (put, rest) => do
              let replacement := readReplacement (put.length + 1) put
              let (flags, rest) ←
                readFlags (rest.length + 1) ⟨none, false, false, false, false, false, none⟩ rest
              let pattern ← linePattern d text flags.foldsCase flags.manyLines rest
              let groups := (pattern.regex.map Regex.groupCount).getD 9
              let greatest := greatestGroup replacement
              if groups < greatest then
                faultAt rest ("invalid reference \\" ++ toString greatest
                  ++ " on \x60s' command's RHS")
              else
                return (.substitute ⟨pattern, replacement, flags.nth.getD 1, flags.everywhere,
                  flags.executes, flags.prints, flags.target⟩, rest)

/-- The bytes of one side of a table of bytes. -/
def tableBytes : List Char → List Byte
  | '\\' :: '\\' :: cs => 92 :: tableBytes cs
  | '\\' :: 'n' :: cs => 10 :: tableBytes cs
  | '\\' :: 't' :: cs => 9 :: tableBytes cs
  | c :: cs => c.toUInt8 :: tableBytes cs
  | [] => []

/-- Check that an instruction ends here, and pass its end. -/
def endInstruction (edit : Edit) (cs : List Char) : Except EditFault (Edit × List Char) :=
  match cs.dropWhile isLineBlank with
  | [] => .ok (edit, [])
  | c :: rest =>
      if c = ';' || c = '\n' then .ok (edit, rest)
      else if c = '\x7d' || c = '#' then .ok (edit, c :: rest)
      else faultAt rest "extra characters after command"

/-- Read a table of bytes behind its letter. -/
def readTable (cs : List Char) : Except EditFault (Edit × List Char) :=
  let sides := match cs with
    | [] => none
    | mark :: rest => do
        let (source, rest) ← untilMark mark false false (rest.length + 1) rest
        let (target, rest) ← untilMark mark false false (rest.length + 1) rest
        return (tableBytes source, tableBytes target, rest)
  match sides with
  | none => faultAt [] "unterminated \x60y' command"
  | some (source, target, rest) =>
      if source.length ≠ target.length then
        faultAt rest "strings for \x60y' command are different lengths"
      else endInstruction (.recode (source.zip target)) rest

/-- The text of lines, up to one that has no backslash at its end. -/
def textLines : List Char → List Char × List Char
  | [] => (['\n'], [])
  | '\n' :: rest => (['\n'], rest)
  | ['\\'] => (['\n'], [])
  | '\\' :: c :: rest =>
      let (text, left) := textLines rest
      (((controlLetters.filter fun (l, _) => l != 'n').lookup c).getD c :: text, left)
  | c :: rest => let (text, left) := textLines rest; (c :: text, left)

/-- Read the text that an instruction writes. -/
def readText (make : List Byte → Edit) (cs : List Char) : Except EditFault (Edit × List Char) :=
  let finish (cs : List Char) : Except EditFault (Edit × List Char) :=
    let (text, rest) := textLines cs
    .ok (make (bytesOf (String.ofList text)), rest)
  match cs.dropWhile isLineBlank with
  | [] => faultAt [] "expected \\ after \x60a', \x60c' or \x60i'"
  | '\\' :: rest =>
      match rest.dropWhile isLineBlank with
      | '\n' :: body => finish body
      | [] => .ok (make [], [])
      | _ => finish rest
  | body => finish body

/-- Read a label. -/
def readLabel (closes : Bool) (cs : List Char) : String × List Char :=
  let start := cs.dropWhile isLineBlank
  let name := start.takeWhile fun c => !(isAnyBlank c || c == ';' || (closes && c == '\x7d'))
  (String.ofList name, start.drop name.length)

/-! ## §3. Edits. -/

/-- Edits that are a letter and nothing else. -/
def plainEdits : List (Char × Edit) :=
  [('d', .delete), ('D', .deleteFirst), ('p', .print), ('P', .printFirst), ('n', .next),
   ('N', .addNext), ('h', .keep false), ('H', .keep true), ('g', .recall false),
   ('G', .recall true), ('x', .exchange), ('=', .lineNumber), ('F', .inputName), ('z', .clear)]

/-- Read what a letter asks for. -/
def readEdit (d : Dialect) (selection : Selection) (letter : Char) (cs : List Char) :
    Except EditFault (Edit × List Char) :=
  match plainEdits.lookup letter with
  | some edit => endInstruction edit cs
  | none =>
      match letter with
      | '\x7b' => .ok (.opened, cs)
      | '\x7d' =>
          if selection.first.isSome then faultAt cs "\x7d doesn't want any addresses"
          else endInstruction .closed cs
      | 's' => readSubstitution d cs
      | 'y' => readTable cs
      | 'a' => readText .append cs
      | 'i' => readText .insert cs
      | 'c' => readText .change cs
      | ':' =>
          if selection.first.isSome then faultAt cs ": doesn't want any addresses"
          else
            let (name, rest) := readLabel false cs
            if name = "" then faultAt cs "\":\" lacks a label"
            else .ok (.label name, rest)
      | 'b' | 't' | 'T' =>
          let (name, rest) := readLabel true cs
          let taken : JumpWhen := if letter = 'b' then .always
            else if letter = 't' then .changed else .unchanged
          endInstruction (.jump taken name) rest
      | 'v' =>
          let (version, rest) := readLabel false cs
          if 4 < (leadingNumber version.toList).1 then
            faultAt rest "expected newer version of sed"
          else endInstruction .nothing rest
      | 'q' | 'Q' =>
          if selection.second.isSome then faultAt cs "command only uses one address"
          else
            let (status, rest) := leadingNumber (cs.dropWhile isLineBlank)
            endInstruction (.quit status (letter == 'q')) rest
      | 'l' =>
          let start := cs.dropWhile isLineBlank
          let (width, rest) := leadingNumber start
          endInstruction (.listing (if rest.length = start.length then none else some width)) rest
      | 'e' =>
          let script := (cs.dropWhile isLineBlank).takeWhile (· != '\n')
          .ok (.execute (String.ofList script), (cs.dropWhile (· != '\n')).drop 1)
      | 'r' | 'R' | 'w' | 'W' =>
          let path := (cs.dropWhile isLineBlank).takeWhile (· != '\n')
          if path.isEmpty then faultAt cs "missing filename in r/R/w/W commands"
          else
            let rest := (cs.dropWhile (· != '\n')).drop 1
            let make : String → Edit := if letter = 'r' then .readFile
              else if letter = 'R' then .readLine
              else if letter = 'w' then .writeFile else .writeFirst
            .ok (make (String.ofList path), rest)
      | letter => faultAt cs ("unknown command: \x60" ++ letter.toString ++ "'")

/-- Read instructions, numbered from `number` on; `depth` counts the blocks that
are open, and comes back as it is at the end. -/
def readInstructions (d : Dialect) : Nat → (number depth : Nat) → List Char →
    Except EditFault (List Instruction × Nat)
  | 0, _, depth, _ => .ok ([], depth)
  | fuel + 1, number, depth, cs =>
      match cs.dropWhile fun c => isAnyBlank c || c == ';' with
      | [] => .ok ([], depth)
      | '#' :: rest => readInstructions d fuel number depth (rest.dropWhile (· != '\n'))
      | cs => do
          let (selection, rest) ← readSelection d cs
          match rest with
          | [] => faultAt [] "missing command"
          | letter :: rest => do
              let (edit, rest) ← readEdit d selection letter rest
              let depth ← match edit with
                | .opened => pure (depth + 1)
                | .closed =>
                    if depth = 0 then faultAt rest "unexpected \x60\x7d'" else pure (depth - 1)
                | _ => pure depth
              let (more, depth) ← readInstructions d fuel (number + 1) depth rest
              return (⟨number, selection, edit⟩ :: more, depth)

/-- A label that is asked for and not there. -/
def missingLabel? (program : List Instruction) : Option String :=
  program.findSome? fun i =>
    match i.edit with
    | .jump _ name =>
        if name = "" || program.any (·.edit = .label name) then none else some name
    | _ => none

/-- Texts that end in a backslash, joined with the next one. -/
def joinContinued : List String → List String
  | first :: second :: rest =>
      if first.toList.getLast? = some '\\' then joinContinued ((first ++ "\n" ++ second) :: rest)
      else first :: joinContinued (second :: rest)
  | texts => texts
termination_by texts => texts.length

/-- Read the instructions of one text after another; an error comes with its
status. -/
def readTexts (d : Dialect) : (index number depth : Nat) → List String →
    Except (String × Nat) (List Instruction)
  | _, _, depth, [] =>
      if depth = 0 then .ok []
      else .error ("-e expression #1, char 0: unmatched \x60\x7b'", 1)
  | index, number, depth, text :: texts => do
      let cs := text.toList
      match readInstructions d (cs.length + 1) number depth cs with
      | .error fault =>
          throw ("-e expression #" ++ toString index ++ ", char "
            ++ toString (cs.length - fault.left.getD cs.length) ++ ": " ++ fault.message, 1)
      | .ok (program, depth) => do
          let more ← readTexts d (index + 1) (number + program.length) depth texts
          return program ++ more

/-- Read an edit from its texts. -/
def readProgram (extended : Bool) (texts : List String) :
    Except (String × Nat) (List Instruction) := do
  let program ← readTexts ⟨extended, false, true⟩ 1 1 0 (joinContinued texts)
  match missingLabel? program with
  | some name => throw ("can't find label for jump to \x60" ++ name ++ "'", 4)
  | none => return program

end Stencil.Script
