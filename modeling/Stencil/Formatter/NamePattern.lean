/-
  Stencil.Formatter.NamePattern
  ─────────────────────────────
  Patterns of scripts for names and texts.

  A star stands for any characters, a question mark for one, and brackets for
  one of some.  A pattern knows which of its characters are quoted: such a
  character stands for itself.
-/
import Stencil.Files.Glob
import Stencil.Formatter.Regex

namespace Stencil.Script

/-- A character of a word. -/
structure Letter where
  /-- The character. -/
  char : Char
  /-- Does it stand for itself? -/
  quoted : Bool
  deriving Repr, DecidableEq

/-- The text of letters. -/
def lettersText (letters : List Letter) : String :=
  String.ofList (letters.map Letter.char)

/-- The ranges of a class up to its closing bracket, and what is left behind
it. -/
def letterRanges (first : Bool) : Nat → List Letter → Option (List Files.CharRange × List Letter)
  | 0, _ => none
  | _ + 1, [] => none
  | fuel + 1, letter :: rest =>
      let c := letter.char
      if c = ']' && !letter.quoted && !first then some ([], rest)
      else
        let named := namedClasses.findSome? fun (name, ranges) =>
          let written := "[:" ++ name ++ ":]"
          if written.toList.isPrefixOf ((letter :: rest).map Letter.char) && !letter.quoted then
            some (ranges.map fun (low, high) =>
              (⟨Char.ofNat low.toNat, Char.ofNat high.toNat⟩ : Files.CharRange), written.length)
          else none
        match named, rest with
        | some (ranges, n), _ =>
            (letterRanges false fuel ((letter :: rest).drop n)).map fun (more, left) =>
              (ranges ++ more, left)
        | none, dash :: high :: after =>
            if dash.char = '-' && !dash.quoted && !(high.char = ']' && !high.quoted) then
              (letterRanges false fuel after).map fun (more, left) =>
                (⟨c, high.char⟩ :: more, left)
            else
              (letterRanges false fuel rest).map fun (more, left) => (⟨c, c⟩ :: more, left)
        | none, rest =>
            (letterRanges false fuel rest).map fun (more, left) => (⟨c, c⟩ :: more, left)

/-- The pattern that letters stand for. -/
def patternOf : Nat → List Letter → List Files.Wildcard
  | 0, _ => []
  | _ + 1, [] => []
  | fuel + 1, letter :: rest =>
      let plain : List Files.Wildcard := .char letter.char :: patternOf fuel rest
      if letter.quoted then plain
      else
        match letter.char with
        | '*' => .anyRun :: patternOf fuel rest
        | '?' => .anyChar :: patternOf fuel rest
        | '[' =>
            let (outside, body) : Bool × List Letter := match rest with
              | mark :: body =>
                  if (mark.char = '!' || mark.char = '^') && !mark.quoted then (true, body)
                  else (false, rest)
              | [] => (false, [])
            match letterRanges true (body.length + 1) body with
            | some (ranges, left) =>
                (if outside then .except_ ranges else .within ranges) :: patternOf fuel left
            | none => plain
        | '\\' =>
            match rest with
            | next :: rest => .char next.char :: patternOf fuel rest
            | [] => plain
        | _ => plain

/-- Does the pattern of letters stand for a text? -/
def matchesLetters (letters : List Letter) (text : List Char) : Bool :=
  Files.matchesName (patternOf (letters.length + 1) letters) text

/-- Does a pattern stand for a name? -/
def fitsPattern (name pattern : String) : Bool :=
  matchesLetters (pattern.toList.map (⟨·, false⟩)) name.toList

end Stencil.Script
