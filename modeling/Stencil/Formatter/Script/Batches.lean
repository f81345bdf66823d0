/-
  Stencil.Formatter.Script.Batches
  ────────────────────────────────
  Calls made of what is on an input.

  `xargs` takes the words of its input, or its lines, and puts them behind the
  words of a command: all of them, so many at a time, or each one in the place
  of a mark.
-/
import Stencil.Formatter.Command.Amount

namespace Stencil.Script

open Text (Byte)

/-! ## §1. Words of an input. -/

/-- A word, and whether the line ends right behind it. -/
structure InputWord where
  /-- The word. -/
  text : String
  /-- Does the line end behind it? -/
  endsLine : Bool
  deriving Repr, DecidableEq

/-- A message about a quote that does not end. -/
def unmatchedQuote (quote : Char) : String :=
  "unmatched " ++ (if quote = '"' then "double" else "single")
    ++ " quote; by default quotes are special to xargs unless you use the -0 option"

/-- The words of an input, with quotes and backslashes resolved; a word may be
all of a line from its first letter on. -/
def inputWords (wholeLines : Bool) (quote : Option Char) (current : Option (List Char)) :
    List Char → Except String (List InputWord)
  | [] =>
      match quote with
      | some q => .error (unmatchedQuote q)
      | none => .ok (current.map fun cs => InputWord.mk (String.ofList cs.reverse) true).toList
  | c :: cs =>
      let close (ends : Bool) : Except String (List InputWord) := do
        let more ← inputWords wholeLines none none cs
        return (current.map fun cs => InputWord.mk (String.ofList cs.reverse) ends).toList ++ more
      let add (c : Char) : Option (List Char) := some (c :: current.getD [])
      match quote with
      | some q =>
          if c = q then inputWords wholeLines none (some (current.getD [])) cs
          else if c = '\n' then .error (unmatchedQuote q)
          else inputWords wholeLines quote (add c) cs
      | none =>
          if c = '"' || c = '\x27' then
            inputWords wholeLines (some c) (some (current.getD [])) cs
          else if c = '\\' then
            match cs with
            | [] => .ok (current.map fun cs => InputWord.mk (String.ofList cs.reverse) true).toList
            | next :: rest => inputWords wholeLines none (add next) rest
          else if c = '\n' then close true
          else if c = ' ' || c = '\t' then
            if wholeLines then inputWords wholeLines none (current.map (c :: ·)) cs else close false
          else inputWords wholeLines none (add c) cs

/-- The pieces of an input between marks; nothing is behind the last mark. -/
def markedWords (mark : Byte) (input : List Byte) : List InputWord :=
  (piecesBy mark input).map fun piece =>
    ⟨textOf (if piece.getLast? == some mark then piece.dropLast else piece), true⟩

/-! ## §2. Batches. -/

/-- How much a batch may hold. -/
structure BatchLimit where
  /-- So many words. -/
  words : Option Nat
  /-- So many lines. -/
  lines : Option Nat
  /-- So many characters, with one behind each word. -/
  size : Nat

/-- Words in batches, as many in each as its limit allows. -/
def batches (limit : BatchLimit) :
    (words lines size : Nat) → (batch : List String) → List InputWord → List (List String)
  | _, _, _, batch, [] => if batch.isEmpty then [] else [batch.reverse]
  | words, lines, size, batch, w :: rest =>
      let long := w.text.utf8ByteSize + 1
      let full := limit.words = some words || limit.lines = some lines
        || (0 < words && limit.size < size + long)
      let newLine := if w.endsLine then 1 else 0
      if full && !batch.isEmpty then
        batch.reverse :: batches limit 1 newLine long [w.text] rest
      else batches limit (words + 1) (lines + newLine) (size + long) (w.text :: batch) rest

/-! ## §3. The calls. -/

/-- The options of `xargs`. -/
def xargsOptions : List Known :=
  [flag "0" "null", valued "a" "arg-file", valued "d" "delimiter", valued "E" "",
   optional "e" "eof", valued "I" "", optional "i" "replace", valued "L" "",
   optional "l" "max-lines", valued "n" "max-args", flag "o" "open-tty", valued "P" "max-procs",
   flag "p" "interactive",
   valued "" "process-slot-var", flag "r" "no-run-if-empty", valued "s" "max-chars",
   flag "t" "verbose", flag "x" "exit"]

/-- What `xargs` does. -/
structure BatchPlan where
  /-- The calls it makes. -/
  calls : List (List String)
  /-- Is each call told? -/
  told : Bool

/-- A number that is at least one, as the value of an option. -/
def batchNumber (o : Options) (name : String) : Except String (Option Nat) :=
  match o.value? name with
  | none => .ok none
  | some text =>
      match readDigits 10 text.toList with
      | (n, true) =>
          if n = 0 then
            .error ("value " ++ text ++ " for -" ++ name ++ " option should be >= 1")
          else .ok (some n)
      | (_, false) => .error ("invalid number \"" ++ text ++ "\" for -" ++ name ++ " option")

/-- The byte that a text stands for, with its backslash resolved. -/
def markByte (text : String) : Byte :=
  let (bytes, _) := unescape text.toList
  bytes.headD 0

/-- The mark that words are put in the place of, unless they come behind the call. -/
def batchMark? (o : Options) : Option String :=
  match o.last? ["I", "i", "n", "L", "l"] with
  | some ("I", mark) => some mark
  | some ("i", mark) => some (if mark = "" then "\x7b\x7d" else mark)
  | some ("n", "1") =>
      (o.last? ["I", "i"]).map fun (_, mark) => if mark = "" then "\x7b\x7d" else mark
  | _ => none

/-- What options ask for, with the words on an input. -/
def batchPlan (o : Options) (input : List Byte) : Except String BatchPlan := do
  let command := if o.operands.isEmpty then ["echo"] else o.operands
  let mark := batchMark? o
  let most ← batchNumber o "n"
  let lines ← batchNumber o "L"
  let size ← batchNumber o "s"
  let words ← match o.last? ["0", "d"] with
    | some ("0", _) => .ok (markedWords 0 input)
    | some (_, text) => .ok (markedWords (markByte text) input)
    | none => inputWords mark.isSome none none (textOf input).toList
  let stop := (o.last? ["E", "e"]).map Prod.snd
  let words := match stop with
    | none | some "" => words
    | some text => words.takeWhile fun w => w.text ≠ text
  let told := o.has "t"
  match mark with
  | some mark =>
      return ⟨words.filterMap fun w =>
        if w.text = "" then none else some (command.map (fillMark mark w.text)), told⟩
  | none =>
      let lines := lines.orElse fun _ => (o.value? "l").map fun text => max 1 (numberOf text)
      let used := (command.map fun w => w.utf8ByteSize + 1).foldl (· + ·) 0
      let room := (size.getD 131072) - used
      if words.any fun w => room < w.text.utf8ByteSize + 1 then
        .error "cannot fit single argument within argument list size limit"
      else if words.isEmpty then return ⟨if o.has "r" then [] else [command], told⟩
      else return ⟨(batches ⟨most, lines, room⟩ 0 0 0 [] words).map (command ++ ·), told⟩

/-- A word as it is told: in quotes, unless it is a plain one. -/
def toldWord (word : String) : String :=
  let plain (c : Char) : Bool := c.isAlphanum || "%+,-./:@_^\x7b\x7d]".toList.contains c
  if word ≠ "" && word.toList.all plain then word
  else "'" ++ word.replace "'" "'\\''" ++ "'"

/-- The line that tells a call. -/
def toldCall (call : List String) : String :=
  " ".intercalate (call.map toldWord) ++ "\n"

end Stencil.Script
