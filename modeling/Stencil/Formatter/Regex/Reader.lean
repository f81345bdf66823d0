/-
  Stencil.Formatter.Regex.Reader
  ──────────────────────────────
  Regular expressions, as they are written.

  There are two ways to write them.  In the basic one the marks of groups,
  alternatives and counts have a backslash before them; in the extended one
  they have none, and with a backslash they are plain.  The text is cut into
  marks first, for what a star or a caret means depends on what comes before
  it; the marks are then put together.
-/
import Stencil.Formatter.Printf
import Stencil.Formatter.Regex

namespace Stencil.Script

open Text (Byte)

/-! ## §1. Marks. -/

/-- How expressions are written. -/
structure Dialect where
  /-- Do marks stand without a backslash? -/
  extended : Bool
  /-- Is a mark in the wrong place no error? -/
  lenient : Bool
  /-- Do letters behind a backslash stand for control characters? -/
  escapes : Bool
  deriving Repr, DecidableEq

/-- A piece of an expression. -/
inductive Mark where
  /-- A group starts. -/
  | opened
  /-- A group ends. -/
  | closed
  /-- Another alternative follows. -/
  | bar
  /-- What comes before it, so many times. -/
  | count (least : Nat) (most : Option Nat)
  /-- One byte of a set. -/
  | one (bytes : ByteClass)
  /-- A place. -/
  | place (p : Place)
  /-- What a group has matched. -/
  | again (number : Nat)
  deriving Repr, DecidableEq

/-- The set of one character. -/
def ByteClass.single (c : Char) : ByteClass :=
  .within [(c.toUInt8, c.toUInt8)]

/-- The ranges of a set that goes up to a closing bracket, and what is left
behind it. -/
def setRanges (d : Dialect) (first : Bool) :
    Nat → List Char → Except String (List (Byte × Byte) × List Char)
  | 0, _ => .error "Unmatched [, [^, [:, [., or [="
  | fuel + 1, cs =>
      let single (c : Char) (rest : List Char) : Except String (List (Byte × Byte) × List Char) :=
        match rest with
        | '-' :: high :: rest =>
            if high = ']' then do
              let (more, rest) ← setRanges d false fuel ('-' :: high :: rest)
              return ((c.toUInt8, c.toUInt8) :: more, rest)
            else if high < c then .error "Invalid range end"
            else do
              let (more, rest) ← setRanges d false fuel rest
              return ((c.toUInt8, high.toUInt8) :: more, rest)
        | rest => do
            let (more, rest) ← setRanges d false fuel rest
            return ((c.toUInt8, c.toUInt8) :: more, rest)
      match cs with
      | [] => .error "Unmatched [, [^, [:, [., or [="
      | ']' :: rest => if first then single ']' rest else .ok ([], rest)
      | '[' :: ':' :: rest =>
          let name := rest.takeWhile (· != ':')
          match namedClasses.lookup (String.ofList name), rest.drop name.length with
          | some ranges, ':' :: ']' :: rest => do
              let (more, rest) ← setRanges d false fuel rest
              return (ranges ++ more, rest)
          | _, _ => .error "Invalid character class name"
      | '[' :: '=' :: c :: '=' :: ']' :: rest | '[' :: '.' :: c :: '.' :: ']' :: rest =>
          single c rest
      | '\\' :: c :: rest =>
          match if d.escapes then [('n', '\n'), ('t', '\t'), ('f', '\x0c')].lookup c else none with
          | some control => single control rest
          | none => single '\\' (c :: rest)
      | c :: rest => single c rest

/-- The set behind an opening bracket, and what is left behind it. -/
def bracketSet (d : Dialect) (cs : List Char) : Except String (ByteClass × List Char) :=
  match cs with
  | [] | ['^'] => .error "Invalid regular expression"
  | '^' :: rest => do
      let (ranges, rest) ← setRanges d true (rest.length + 1) rest
      return (.outside ranges, rest)
  | rest => do
      let (ranges, rest) ← setRanges d true (rest.length + 1) rest
      return (.within ranges, rest)

/-- A count behind its opening brace, and what is left behind the closing one. -/
def countMark? (extended : Bool) (cs : List Char) : Option (Mark × List Char) :=
  let low := cs.takeWhile Char.isDigit
  let (most, rest) : Option (Option Nat) × List Char := match cs.drop low.length with
    | ',' :: rest =>
        let high := rest.takeWhile Char.isDigit
        (some (if high.isEmpty then none else some (readDigits 10 high).1), rest.drop high.length)
    | rest => (if low.isEmpty then none else some (some (readDigits 10 low).1), rest)
  let closing := if extended then ['\x7d'] else ['\\', '\x7d']
  match most with
  | some most =>
      if closing.isPrefixOf rest then
        some (.count (readDigits 10 low).1 most, rest.drop closing.length)
      else none
  | none => none

/-- The marks that are the same in both ways of writing, by the letter behind a
backslash. -/
def letterMarks : List (Char × Mark) :=
  let word : List (Byte × Byte) := [(48, 57), (65, 90), (95, 95), (97, 122)]
  let blank : List (Byte × Byte) := [(9, 13), (32, 32)]
  [('w', .one (.within word)), ('W', .one (.outside word)), ('s', .one (.within blank)),
   ('S', .one (.outside blank)), ('b', .place .wordEdge), ('B', .place .noEdge),
   ('<', .place .wordStart), ('>', .place .wordEnd), ('\x60', .place .textStart),
   ('\x27', .place .textEnd)]

/-- The control characters by the letter behind a backslash. -/
def controlLetters : List (Char × Char) :=
  [('n', '\n'), ('t', '\t'), ('r', '\r'), ('f', '\x0c'), ('v', '\x0b'), ('a', '\x07')]

/-- The byte that a code of some base behind a backslash and a letter stands
for, and how many digits it has. -/
def codeByte? (letter : Char) (cs : List Char) : Option (Byte × Nat) :=
  match [('x', 16, 2), ('o', 8, 3), ('d', 10, 3)].lookup letter with
  | none => none
  | some (base, width) =>
      let digits := (cs.take width).takeWhile (digitValue · < base)
      if digits.isEmpty then none
      else some (UInt8.ofNat (readDigits base digits).1, digits.length)

/-- The mark behind a backslash, and what is left behind it. -/
def escapedMark (d : Dialect) (fresh : Bool) (c : Char) (rest : List Char) :
    Except String (Mark × List Char) :=
  let plain : Except String (Mark × List Char) := .ok (.one (.single c), rest)
  if !d.extended && c = '(' then .ok (.opened, rest)
  else if !d.extended && c = ')' then .ok (.closed, rest)
  else if !d.extended && c = '|' then .ok (.bar, rest)
  else if !d.extended && c = '\x7b' then
    if fresh then .error "Invalid preceding regular expression"
    else
      match countMark? false rest with
      | some found => .ok found
      | none => .error (if rest.contains '\x7d' then "Invalid content of \\\x7b\\\x7d"
          else "Unmatched \\\x7b")
  else if !d.extended && c = '+' && !fresh then .ok (.count 1 none, rest)
  else if !d.extended && c = '?' && !fresh then .ok (.count 0 (some 1), rest)
  else if c.isDigit && c ≠ '0' then .ok (.again (digitValue c), rest)
  else
    match letterMarks.lookup c, if d.escapes then controlLetters.lookup c else none with
    | some mark, _ => .ok (mark, rest)
    | none, some control => .ok (.one (.single control), rest)
    | none, none =>
        match if d.escapes then codeByte? c rest else none with
        | some (byte, n) => .ok (.one (.within [(byte, byte)]), rest.drop n)
        | none => plain

/-- Is this where an alternative or a group ends? -/
def endsBranch (extended : Bool) (cs : List Char) : Bool :=
  match extended, cs with
  | _, [] => true
  | false, '\\' :: c :: _ => c == ')' || c == '|'
  | _, _ => false

/-- The next mark, and what is left behind it; `fresh` tells whether an
alternative starts here.  A mark that counts for nothing is left out. -/
def nextMark (d : Dialect) (fresh : Bool) (c : Char) (rest : List Char) :
    Except String (Option Mark × List Char) :=
  let found (mark : Mark) : Except String (Option Mark × List Char) := .ok (some mark, rest)
  let plain := found (.one (.single c))
  let counted (mark : Mark) : Except String (Option Mark × List Char) :=
    if !fresh then found mark
    else if d.lenient then .ok (none, rest)
    else .error "Invalid preceding regular expression"
  match c with
  | '\\' =>
      match rest with
      | [] => .error "Trailing backslash"
      | e :: rest => (escapedMark d fresh e rest).map fun (mark, rest) => (some mark, rest)
  | '[' => (bracketSet d rest).map fun (set, rest) => (some (.one set), rest)
  | '.' => found (.one .any)
  | '*' => if d.extended then counted (.count 0 none) else if fresh then plain
      else found (.count 0 none)
  | '^' => if d.extended || fresh then found (.place .lineStart) else plain
  | '$' => if d.extended || endsBranch d.extended rest then found (.place .lineEnd) else plain
  | '(' => if d.extended then found .opened else plain
  | ')' => if d.extended then found .closed else plain
  | '|' => if d.extended then found .bar else plain
  | '+' => if d.extended then counted (.count 1 none) else plain
  | '?' => if d.extended then counted (.count 0 (some 1)) else plain
  | '\x7b' =>
      if !d.extended then plain
      else
        match countMark? true rest with
        | some (mark, after) =>
            if fresh then .error "Invalid preceding regular expression"
            else .ok (some mark, after)
        | none =>
            if d.lenient then plain
            else if fresh then .error "Invalid preceding regular expression"
            else .error (if rest.contains '\x7d' then "Invalid content of \\\x7b\\\x7d"
              else "Unmatched \\\x7b")
  | _ => plain

/-- Does what follows the mark start an alternative? -/
def Mark.startsBranch (extended fresh : Bool) : Mark → Bool
  | opened | bar => true
  | place .lineStart => fresh && !extended
  | _ => false

/-- The marks of an expression; `depth` counts the groups that are open. -/
def marks (d : Dialect) (fresh : Bool) (depth : Nat) :
    Nat → List Char → Except String (List Mark)
  | 0, _ => .ok []
  | _ + 1, [] => if depth = 0 then .ok [] else .error "Unmatched ( or \\("
  | fuel + 1, c :: cs => do
      let (mark, rest) ← nextMark d fresh c cs
      match mark with
      | none => marks d fresh depth fuel rest
      | some .closed =>
          if depth = 0 then
            if d.lenient && d.extended then
              return .one (.single ')') :: (← marks d false depth fuel rest)
            else .error "Unmatched ) or \\)"
          else return .closed :: (← marks d false (depth - 1) fuel rest)
      | some mark =>
          let depth := if mark = .opened then depth + 1 else depth
          return mark :: (← marks d (mark.startsBranch d.extended fresh) depth fuel rest)

/-! ## §2. Expressions. -/

/-- An expression in the making. -/
structure Reading where
  /-- What was read. -/
  regex : Regex
  /-- The marks that are left. -/
  rest : List Mark
  /-- How many groups there were. -/
  groups : Nat

/-- One expression after another, if there is any. -/
def Regex.followedBy (first second : Regex) : Regex :=
  if first = .empty then second else if second = .empty then first else .both first second

/-- Put the counts behind a part around it. -/
def countedBy (regex : Regex) : List Mark → Regex × List Mark
  | .count least most :: rest => countedBy (.many regex least most) rest
  | rest => (regex, rest)

mutual
/-- Alternatives up to where the group ends. -/
def readAlternatives : Nat → Nat → List Mark → Reading
  | 0, groups, ms => ⟨.empty, ms, groups⟩
  | fuel + 1, groups, ms =>
      let first := readBranch fuel groups ms
      match first.rest with
      | .bar :: rest =>
          let second := readAlternatives fuel first.groups rest
          ⟨.either first.regex second.regex, second.rest, second.groups⟩
      | _ => first

/-- Parts up to where the alternative ends. -/
def readBranch : Nat → Nat → List Mark → Reading
  | 0, groups, ms => ⟨.empty, ms, groups⟩
  | fuel + 1, groups, ms =>
      let goOn (part : Regex) (groups : Nat) (rest : List Mark) : Reading :=
        let (part, rest) := countedBy part rest
        let more := readBranch fuel groups rest
        { more with regex := part.followedBy more.regex }
      match ms with
      | [] => ⟨.empty, [], groups⟩
      | .bar :: _ | .closed :: _ => ⟨.empty, ms, groups⟩
      | .opened :: rest =>
          let inner := readAlternatives fuel (groups + 1) rest
          goOn (.group (groups + 1) inner.regex) inner.groups (inner.rest.drop 1)
      | .one set :: rest => goOn (.one set) groups rest
      | .place p :: rest => goOn (.place p) groups rest
      | .again number :: rest => goOn (.again number) groups rest
      | .count _ _ :: rest => readBranch fuel groups rest
end

/-- Does the expression ask only for groups there are? -/
def Regex.refersWithin (groups : Nat) : Regex → Bool
  | .again number => decide (number ≤ groups)
  | .both a b | .either a b => a.refersWithin groups && b.refersWithin groups
  | .many r _ _ | .group _ r => r.refersWithin groups
  | _ => true

/-- Is there a count behind a count?  One that stands for a single time at most,
or for at least one time, is allowed there. -/
def countsTwice : List Mark → Bool
  | .count _ _ :: .count least most :: rest =>
      !((least == 0 && most == some 1) || (least == 1 && most == none))
        || countsTwice (.count least most :: rest)
  | _ :: rest => countsTwice rest
  | [] => false

/-- Read an expression; an error comes in words. -/
def Regex.ofText (d : Dialect) (text : List Char) : Except String Regex := do
  let ms ← marks d true 0 (text.length + 1) text
  if !d.extended && !d.lenient && countsTwice ms then
    throw "Invalid preceding regular expression"
  let reading := readAlternatives (2 * ms.length + 2) 0 ms
  if reading.regex.refersWithin reading.groups then return reading.regex
  else throw "Invalid back reference"

end Stencil.Script
