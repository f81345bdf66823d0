/-
  Stencil.Formatter.Script.Expansion
  ──────────────────────────────────
  From words as written to words as commands get them.

  Parameters, scripts inside of words and sums give their values.  What of
  these is not quoted is cut at separators, and may then stand for the names
  of files.  Patterns know which of their characters are quoted: such a
  character stands for itself.
-/
import Stencil.Formatter.NamePattern
import Stencil.Formatter.Script.State

namespace Stencil.Script

/-! ## §1. Words in the making. -/

/-- What came before the place where words are added. -/
inductive Gap where
  /-- Nothing, or a separator that is no blank. -/
  | open_
  /-- A word that a blank has ended. -/
  | blank
  deriving Repr, DecidableEq

/-- Words in the making. -/
structure Fields where
  /-- The words that are complete. -/
  complete : List (List Letter)
  /-- The word that may go on. -/
  current : Option (List Letter)
  /-- What came last, if no word may go on. -/
  gap : Gap
  deriving Repr, DecidableEq

namespace Fields

/-- No words. -/
def none : Fields := ⟨[], .none, .open_⟩

/-- Go on with the current word. -/
def append (f : Fields) (chars : List Char) (quoted : Bool) : Fields :=
  { f with current := some (f.current.getD [] ++ chars.map (⟨·, quoted⟩)) }

/-- End the current word. -/
def close (f : Fields) (gap : Gap) : Fields :=
  ⟨f.complete ++ f.current.toList, .none, gap⟩

/-- Is the character a blank? -/
def isBlank (c : Char) : Bool :=
  c == ' ' || c == '\t' || c == '\n'

/-- Add a character that may separate words. -/
def addChar (separators : List Char) (f : Fields) (c : Char) : Fields :=
  if !separators.contains c then f.append [c] false
  else if isBlank c then (if f.current.isSome then f.close .blank else f)
  else
    match f.current, f.gap with
    | some _, _ => f.close .open_
    | .none, .blank => { f with gap := .open_ }
    | .none, .open_ => { f with complete := f.complete ++ [[]] }

/-- Add text that separators cut. -/
def split (separators : List Char) (f : Fields) (chars : List Char) : Fields :=
  if separators.isEmpty then (if chars.isEmpty then f else f.append chars false)
  else chars.foldl (addChar separators) f

/-- Add words, the first of which goes on with the current one. -/
def spread (add : Fields → List Char → Fields) (f : Fields) : List String → Fields
  | [] => f
  | [last] => add f last.toList
  | first :: rest => spread add ((add f first.toList).close .blank) rest

/-- All words. -/
def words (f : Fields) : List (List Letter) :=
  (f.close .open_).complete

end Fields

/-! ## §2. Patterns. -/

/-- How many characters to cut off: of the counts that are possible, the
least or the most. -/
def cutCount (fits : Nat → Bool) (length : Nat) (most : Bool) : Nat :=
  let counts := (List.range (length + 1)).filter fits
  (if most then counts.getLast? else counts.head?).getD 0

/-- A text without an end that matches. -/
def cutOffEnd (letters : List Letter) (most : Bool) (text : List Char) : List Char :=
  let n := cutCount (fun n => matchesLetters letters (text.drop (text.length - n))) text.length most
  text.take (text.length - n)

/-- A text without a start that matches. -/
def cutOffStart (letters : List Letter) (most : Bool) (text : List Char) : List Char :=
  text.drop (cutCount (fun n => matchesLetters letters (text.take n)) text.length most)

/-! ## §3. Names of files. -/

/-- May the letters stand for the names of files? -/
def asksForFiles (letters : List Letter) : Bool :=
  letters.any fun l => !l.quoted && (l.char == '*' || l.char == '?' || l.char == '[')

/-- The pieces of letters between slashes. -/
def letterPieces : List Letter → List (List Letter)
  | [] => [[]]
  | l :: ls =>
      match letterPieces ls with
      | [] => [[l]]
      | piece :: rest => if l.char = '/' then [] :: piece :: rest else (l :: piece) :: rest

/-- The paths there are that pieces stand for, behind a path that is known. -/
def pathsBehind (s : State) (before : String) : List (List Letter) → List String
  | [] => []
  | piece :: rest =>
      let directory := Files.join s.directory (toUnicode (if before = "" then "." else before))
      let names := if asksForFiles piece then
          match s.tree.place directory with
          | .ok place =>
              let dotted := (piece.head?.map Letter.char) = some '.'
              ((if dotted then [".", ".."] else []) ++ s.tree.children place).filterMap fun name =>
                let text := ofUnicode name
                let hidden := text.toList.head? = some '.' && !dotted
                if !hidden && matchesLetters piece text.toList then some text else none
          | .error _ => []
        else [lettersText piece]
      names.flatMap fun name =>
        let path := before ++ name
        if rest.isEmpty then
          if s.tree.reaches (Files.join s.directory (toUnicode path)) then [path] else []
        else pathsBehind s (path ++ "/") rest

/-- The words that letters give: names of files, if there are any. -/
def fileWords (s : State) (letters : List Letter) : List String :=
  if s.hasOption 'f' || !asksForFiles letters then [lettersText letters]
  else
    match pathsBehind s "" (letterPieces letters) with
    | [] => [lettersText letters]
    | paths => paths

/-! ## §4. Expanding words. -/

/-- What another script writes, for the expansion of words. -/
abbrev Capture := List Char → State → State × String

/-- Is a parameter all arguments? -/
def isAllArguments (name : String) : Bool :=
  name = "@" || name = "*"

/-- Add the value of a parameter. -/
def addValue (separators : List Char) (f : Fields) (value : String) (quoted : Bool) : Fields :=
  if quoted then f.append value.toList true else f.split separators value.toList

/-- Add all arguments: quoted, each is a word of its own, or all are one. -/
def addArguments (s : State) (separators : List Char) (f : Fields) (name : String)
    (quoted : Bool) : Fields :=
  if quoted && name = "*" then
    let between := (s.separators.head?.map Char.toString).getD ""
    f.append (between.intercalate s.args).toList true
  else if quoted then Fields.spread (fun f cs => f.append cs true) f s.args
  else Fields.spread (fun f cs => f.split separators cs) f s.args

mutual
/-- Expand a part of a word; `inner` tells whether the word is inside of a
parameter, where plain text is cut as well. -/
def expandPart (capture : Capture) : Nat → Bool → List Char → State → Fields → Part →
    State × Fields
  | 0, _, _, s, f, _ => (s, f)
  | fuel + 1, inner, separators, s, f, part =>
      match part with
      | .text chars quoted =>
          (s, if inner && !quoted then f.split separators chars else f.append chars quoted)
      | .output source quoted =>
          let (s, value) := capture source s
          (s, addValue separators f value quoted)
      | .arithmetic source quoted =>
          let (s, text) := expandText capture fuel s (quotedWord source)
          match (Arith.ofText text.toList).bind fun a => a.value s.fixed s.bindings with
          | .ok (value, bindings) =>
              ({ s with bindings }, addValue separators f (toString value) quoted)
          | .error fault => (s.abort (fault.message text), f)
      | .parameter name change word quoted =>
          let value := if isAllArguments name then
              (if s.args.isEmpty then none else some (" ".intercalate s.args))
            else s.parameter? name
          let put (s : State) : State × Fields :=
            if isAllArguments name then (s, addArguments s separators f name quoted)
            else
              match value with
              | some value => (s, addValue separators f value quoted)
              | none => (s, if quoted then f.append [] true else f)
          let putWord (s : State) : State × Fields :=
            if quoted then
              let (s, text) := expandText capture fuel s (bracedWord word)
              (s, f.append text.toList true)
            else expandInto capture fuel true separators s f (wholeWord word)
          let missing (orEmpty : Bool) : Bool :=
            match value with
            | none => true
            | some value => orEmpty && value = ""
          let needed (result : State × Fields) : State × Fields :=
            if value.isNone && s.hasOption 'u' && !isAllArguments name then
              (s.abort (name ++ ": parameter not set"), f)
            else result
          match change with
          | .unknown => (s.abort "Bad substitution", f)
          | .none => needed (put s)
          | .length =>
              let n := if isAllArguments name then s.args.length else (value.getD "").length
              needed (s, addValue separators f (toString n) quoted)
          | .orElse orEmpty => if missing orEmpty then putWord s else put s
          | .instead orEmpty =>
              if missing orEmpty then (s, if quoted then f.append [] true else f) else putWord s
          | .assign orEmpty =>
              if missing orEmpty then
                let (s, text) := expandText capture fuel s (wholeWord word)
                (s.set name text, addValue separators f text quoted)
              else put s
          | .fail orEmpty =>
              if missing orEmpty then
                let (s, text) := expandText capture fuel s (wholeWord word)
                let message := if text ≠ "" then text
                  else if orEmpty then "parameter not set or null" else "parameter not set"
                (s.abort (name ++ ": " ++ message), f)
              else put s
          | .cutEnd most =>
              let (s, letters) := expandLetters capture fuel s (wholeWord word)
              let text := cutOffEnd letters most (value.getD "").toList
              needed (s, addValue separators f (String.ofList text) quoted)
          | .cutStart most =>
              let (s, letters) := expandLetters capture fuel s (wholeWord word)
              let text := cutOffStart letters most (value.getD "").toList
              needed (s, addValue separators f (String.ofList text) quoted)

/-- Expand a word behind words in the making. -/
def expandInto (capture : Capture) : Nat → Bool → List Char → State → Fields → Word →
    State × Fields
  | 0, _, _, s, f, _ => (s, f)
  | fuel + 1, inner, separators, s, f, word =>
      match word with
      | [] => (s, f)
      | part :: rest =>
          let (s, f) := expandPart capture fuel inner separators s f part
          if s.fault then (s, f) else expandInto capture fuel inner separators s f rest

/-- Expand a word to the letters of one word. -/
def expandLetters (capture : Capture) : Nat → State → Word → State × List Letter
  | 0, s, _ => (s, [])
  | fuel + 1, s, word =>
      let (s, f) := expandInto capture fuel false [] s Fields.none word
      let joined := f.words.foldl
        (fun all w => if all.isEmpty then w else all ++ ⟨' ', true⟩ :: w) []
      (s, joined)

/-- Expand a word to one text. -/
def expandText (capture : Capture) : Nat → State → Word → State × String
  | 0, s, _ => (s, "")
  | fuel + 1, s, word =>
      let (s, letters) := expandLetters capture fuel s word
      (s, lettersText letters)
end

/-- How deep words may stand inside of words. -/
def wordFuel (word : Word) : Nat := word.length + 1000

/-- Expand words. -/
def expandWords (capture : Capture) (s : State) : List Word → State × List String
  | [] => (s, [])
  | word :: rest =>
      let (s, fields) :=
        expandInto capture (wordFuel word) false s.separators s Fields.none word
      if s.fault then (s, [])
      else
        let own := fields.words.flatMap (fileWords s)
        let (s, more) := expandWords capture s rest
        (s, own ++ more)

/-- Expand a word to one text. -/
def wordText (capture : Capture) (s : State) (word : Word) : State × String :=
  expandText capture (wordFuel word) s word

/-- Do the assignments. -/
def assignAll (capture : Capture) (s : State) : List (String × Word) → State
  | [] => s
  | (name, word) :: rest =>
      let (s, value) := wordText capture s word
      if s.fault then s else assignAll capture (s.set name value) rest

end Stencil.Script
