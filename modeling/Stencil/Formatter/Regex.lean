/-
  Stencil.Formatter.Regex
  ───────────────────────
  Regular expressions over bytes.

  An expression is matched from a position on.  Of several ways to match, the
  one that ends last wins; of those that end there, the one whose first parts
  take most.  So for each place where a match can end there is one best way to
  get there, and to keep that one is enough; only an expression that asks for
  what a group has matched has to keep them all.
-/
import Stencil.Formatter.ByteText

namespace Stencil.Script

open Text (Byte)

/-! ## §1. Expressions. -/

/-- A set of bytes. -/
inductive ByteClass where
  /-- Any byte. -/
  | any
  /-- A byte of one of the ranges. -/
  | within (ranges : List (Byte × Byte))
  /-- A byte of none of the ranges. -/
  | outside (ranges : List (Byte × Byte))
  deriving Repr, DecidableEq

/-- Classes of bytes by their names, as ranges. -/
def namedClasses : List (String × List (Byte × Byte)) :=
  [("upper", [(65, 90)]), ("lower", [(97, 122)]), ("digit", [(48, 57)]),
   ("alpha", [(65, 90), (97, 122)]), ("alnum", [(48, 57), (65, 90), (97, 122)]),
   ("blank", [(9, 9), (32, 32)]), ("space", [(9, 13), (32, 32)]),
   ("punct", [(33, 47), (58, 64), (91, 96), (123, 126)]), ("print", [(32, 126)]),
   ("graph", [(33, 126)]), ("cntrl", [(0, 31), (127, 127)]),
   ("xdigit", [(48, 57), (65, 70), (97, 102)])]

/-- A place between bytes. -/
inductive Place where
  /-- Where the text starts; of many lines, where one of them does. -/
  | lineStart
  /-- Where the text ends; of many lines, where one of them does. -/
  | lineEnd
  /-- Where the text starts. -/
  | textStart
  /-- Where the text ends. -/
  | textEnd
  /-- Where a word starts or ends. -/
  | wordEdge
  /-- Where no word starts or ends. -/
  | noEdge
  /-- Where a word starts. -/
  | wordStart
  /-- Where a word ends. -/
  | wordEnd
  /-- Where no byte of words comes before. -/
  | wordFreeBefore
  /-- Where no byte of words comes next. -/
  | wordFreeAfter
  deriving Repr, DecidableEq

/-- A regular expression. -/
inductive Regex where
  /-- Nothing. -/
  | empty
  /-- One byte of a set. -/
  | one (bytes : ByteClass)
  /-- One after the other. -/
  | both (first second : Regex)
  /-- One of two. -/
  | either (first second : Regex)
  /-- As often as allowed. -/
  | many (body : Regex) (least : Nat) (most : Option Nat)
  /-- A part that is remembered. -/
  | group (number : Nat) (body : Regex)
  /-- What a group has matched, once more. -/
  | again (number : Nat)
  /-- A place. -/
  | place (p : Place)
  deriving Repr, DecidableEq

namespace Regex

/-- Does the expression ask for what a group has matched? -/
def looksBack : Regex → Bool
  | again _ => true
  | both a b | either a b => a.looksBack || b.looksBack
  | many r _ _ | group _ r => r.looksBack
  | _ => false

/-- How many groups there are. -/
def groupCount : Regex → Nat
  | both a b | either a b => a.groupCount + b.groupCount
  | many r _ _ => r.groupCount
  | group _ r => r.groupCount + 1
  | _ => 0

/-- These bytes, one after the other. -/
def ofBytes : List Byte → Regex
  | [] => empty
  | [b] => one (.within [(b, b)])
  | b :: bs => both (one (.within [(b, b)])) (ofBytes bs)

end Regex

/-! ## §2. Subjects. -/

/-- What an expression is matched against. -/
structure Subject where
  /-- The bytes. -/
  bytes : Array Byte
  /-- Are letters the same in both cases? -/
  foldsCase : Bool
  /-- Do lines start and end inside of it? -/
  manyLines : Bool
  deriving Repr, DecidableEq

/-- The letter in lower case. -/
def lowerByte (b : Byte) : Byte :=
  if 65 ≤ b && b ≤ 90 then b + 32 else b

/-- The letter in upper case. -/
def upperByte (b : Byte) : Byte :=
  if 97 ≤ b && b ≤ 122 then b - 32 else b

/-- May the byte stand in a word? -/
def isWordByte (b : Byte) : Bool :=
  (48 ≤ b && b ≤ 57) || (65 ≤ b && b ≤ 90) || (97 ≤ b && b ≤ 122) || b == 95

namespace Subject

/-- A subject of one line. -/
def ofBytes (bytes : List Byte) : Subject := ⟨bytes.toArray, false, false⟩

/-- Is the byte in the set?  Of many lines, only a set that names the line end
has it. -/
def accepts (s : Subject) (c : ByteClass) (b : Byte) : Bool :=
  let among (ranges : List (Byte × Byte)) : Bool :=
    let holds (b : Byte) : Bool := ranges.any fun (lo, hi) => lo ≤ b && b ≤ hi
    holds b || (s.foldsCase && (holds (lowerByte b) || holds (upperByte b)))
  let inLine := !(s.manyLines && b == lineFeed)
  match c with
  | .any => inLine
  | .within ranges => among ranges
  | .outside ranges => inLine && !among ranges

/-- Is there a byte of words at a position? -/
def wordAt (s : Subject) (position : Nat) : Bool :=
  (s.bytes[position]?).any isWordByte

/-- Is there a byte of words before a position? -/
def wordBefore (s : Subject) (position : Nat) : Bool :=
  0 < position && s.wordAt (position - 1)

/-- Is the position such a place? -/
def isAt (s : Subject) (position : Nat) : Place → Bool
  | .textStart => position == 0
  | .textEnd => position == s.bytes.size
  | .lineStart =>
      position == 0 || (s.manyLines && s.bytes[position - 1]? == some lineFeed)
  | .lineEnd =>
      position == s.bytes.size || (s.manyLines && s.bytes[position]? == some lineFeed)
  | .wordEdge => s.wordBefore position != s.wordAt position
  | .noEdge => s.wordBefore position == s.wordAt position
  | .wordStart => !s.wordBefore position && s.wordAt position
  | .wordEnd => s.wordBefore position && !s.wordAt position
  | .wordFreeBefore => !s.wordBefore position
  | .wordFreeAfter => !s.wordAt position

/-- How many bytes of a set follow one another from a position on, at most as
many as there is fuel. -/
def runLength (s : Subject) (c : ByteClass) (position : Nat) : Nat → Nat
  | 0 => 0
  | n + 1 =>
      match s.bytes[position]? with
      | some b => if s.accepts c b then s.runLength c (position + 1) n + 1 else 0
      | none => 0

/-- The bytes from one position to another. -/
def slice (s : Subject) (start stop : Nat) : List Byte :=
  (s.bytes.extract start stop).toList

end Subject

/-! ## §3. Matching. -/

/-- A way to match, up to a position. -/
structure Trail where
  /-- Where it has come to. -/
  position : Nat
  /-- Where the groups that are open started, the innermost first. -/
  opened : List Nat
  /-- Where groups started and ended the last time. -/
  groups : List (Nat × Nat × Nat)
  deriving Repr, DecidableEq

namespace Trail

/-- The way that starts at a position. -/
def startingAt (position : Nat) : Trail := ⟨position, [], []⟩

/-- Where a group started and ended. -/
def group? (t : Trail) (number : Nat) : Option (Nat × Nat) :=
  t.groups.lookup number

/-- A group starts here. -/
def openGroup (t : Trail) : Trail :=
  { t with opened := t.position :: t.opened }

/-- The innermost group ends here. -/
def closeGroup (number : Nat) (t : Trail) : Trail :=
  match t.opened with
  | start :: opened =>
      let others := t.groups.filter fun (n, _) => n != number
      { t with opened, groups := (number, start, t.position) :: others }
  | [] => t

/-- Put trails by their positions, of which the first one stays. -/
def byPosition (size : Nat) (trails : List Trail) : Array (Option Trail) :=
  trails.foldl
    (fun slots t => slots.modify t.position fun slot => slot.orElse fun _ => some t)
    (Array.replicate (size + 1) none)

/-- The best trail to each position, the furthest first; if all are to be kept,
each of them once. -/
def settle (size : Nat) (keepAll : Bool) (trails : List Trail) : List Trail :=
  match trails with
  | [] => []
  | [t] => [t]
  | trails =>
      if keepAll then
        trails.eraseDups.mergeSort fun a b => decide (b.position ≤ a.position)
      else (byPosition size trails).foldl (fun found slot => slot.toList ++ found) []

/-- Trails that go on by bytes of a set.  Of several trails each one only goes to
positions before `bound`, which the ones before it do not reach. -/
def alongRuns (s : Subject) (c : ByteClass) (least : Nat) (most : Option Nat) :
    Option Nat → List Trail → List Trail
  | _, [] => []
  | bound, t :: ts =>
      let room := s.bytes.size - t.position
      let limit := min (min room (most.getD room)) ((bound.map (· - t.position - 1)).getD room)
      let run := s.runLength c t.position limit
      let own := ((List.range (run + 1)).drop least).foldl
        (fun found n => { t with position := t.position + n } :: found) []
      own ++ alongRuns s c least most (some (t.position + least)) ts

end Trail

/-- Rounds that have to come. -/
def requiredRounds (step settle : List Trail → List Trail) : Nat → List Trail → List Trail
  | 0, trails => trails
  | n + 1, trails => requiredRounds step settle n (settle (step trails))

/-- Rounds that may come, as long as they lead to new positions; `found` holds
all trails so far. -/
def optionalRounds (step : Trail → List Trail) (settle : List Trail → List Trail)
    (keepAll : Bool) : Nat → List Trail → List Trail → List Trail
  | 0, found, _ => found
  | n + 1, found, trails =>
      let further := settle (trails.flatMap fun t =>
        (step t).filter fun u => decide (t.position < u.position))
      let fresh := further.filter fun u =>
        if keepAll then !found.contains u else !found.any fun t => t.position == u.position
      if fresh.isEmpty then found
      else optionalRounds step settle keepAll n (found ++ fresh) fresh

/-- The trails by which an expression matches from where other trails have come
to, the furthest of them first. -/
def Regex.trails (s : Subject) (keepAll : Bool) : Regex → List Trail → List Trail
  | .empty, ts => ts
  | .one c, ts =>
      ts.filterMap fun t =>
        match s.bytes[t.position]? with
        | some b => if s.accepts c b then some { t with position := t.position + 1 } else none
        | none => none
  | .both a b, ts => b.trails s keepAll (a.trails s keepAll ts)
  | .either a b, ts =>
      Trail.settle s.bytes.size keepAll
        (ts.flatMap fun t => a.trails s keepAll [t] ++ b.trails s keepAll [t])
  | .many (.one c) least most, ts =>
      if keepAll then
        Trail.settle s.bytes.size true (ts.flatMap fun t => Trail.alongRuns s c least most none [t])
      else Trail.alongRuns s c least most none ts
  | .many r least most, ts =>
      let settle := Trail.settle s.bytes.size keepAll
      let step (t : Trail) : List Trail := r.trails s keepAll [t]
      let rounds := (most.getD (least + s.bytes.size)) - least
      if least = 0 && most = none && !keepAll then
        settle (ts.foldl
          (fun found t => optionalRounds step settle false rounds (found ++ [t]) [t]) [])
      else
        settle (ts.flatMap fun t =>
          let start := requiredRounds (·.flatMap step) settle least [t]
          settle (optionalRounds step settle keepAll rounds start start))
  | .group number r, ts =>
      (r.trails s keepAll (ts.map Trail.openGroup)).map (Trail.closeGroup number)
  | .again number, ts =>
      let fold (b : Byte) : Byte := if s.foldsCase then lowerByte b else b
      Trail.settle s.bytes.size keepAll (ts.filterMap fun t =>
        match t.group? number with
        | none => none
        | some (start, stop) =>
            let next := t.position + (stop - start)
            if (s.slice start stop).map fold = (s.slice t.position next).map fold then
              some { t with position := next }
            else none)
  | .place p, ts => ts.filter fun t => s.isAt t.position p

/-- A match: where it starts, and the way to where it ends. -/
structure Match where
  /-- Where it starts. -/
  start : Nat
  /-- How it went on. -/
  trail : Trail
  deriving Repr, DecidableEq

namespace Match

/-- Where it ends. -/
def stop (m : Match) : Nat := m.trail.position

/-- What a group has matched; group zero is all of it. -/
def groupBytes (m : Match) (s : Subject) (number : Nat) : List Byte :=
  if number = 0 then s.slice m.start m.stop
  else
    match m.trail.group? number with
    | some (start, stop) => s.slice start stop
    | none => []

end Match

/-- Can the expression match at a position or behind it?  All places to start from
are tried at once, unless it matters how a place was reached. -/
def Regex.mayMatch (r : Regex) (s : Subject) (position : Nat) : Bool :=
  r.looksBack
    || !(r.trails s false
      ((List.range' position (s.bytes.size + 1 - position)).reverse.map Trail.startingAt)).isEmpty

/-- The first match that starts at a position or behind it. -/
def Regex.find? (r : Regex) (s : Subject) (position : Nat) : Option Match :=
  if !r.mayMatch s position then none
  else
    (List.range' position (s.bytes.size + 1 - position)).findSome? fun start =>
      ((r.trails s r.looksBack [Trail.startingAt start]).head?).map (⟨start, ·⟩)

/-- Does the expression match anywhere? -/
def Regex.occursIn (r : Regex) (s : Subject) : Bool :=
  (r.find? s 0).isSome

end Stencil.Script
