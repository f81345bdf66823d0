/-
  Stencil.Formatter.Command.Fill
  ──────────────────────────────
  Paragraphs in lines of about the same width.

  `fmt` takes the words of a paragraph and breaks it into lines anew.  Each way
  to break it has a cost: for lines that are shorter or longer than the goal,
  for lines of different lengths, and for breaks at places where nobody wants
  them.  The cheapest way is found from the last word backwards.
-/
import Stencil.Formatter.Command.Amount

namespace Stencil.Script

open Text (Byte)

/-! ## §1. Words. -/

/-- A word of a paragraph. -/
structure FillWord where
  /-- Its bytes. -/
  text : List Byte
  /-- How many blanks come behind it. -/
  space : Nat
  /-- Does it start with an opening sign? -/
  opens : Bool
  /-- Does it end in a sign that ends a sentence? -/
  period : Bool
  /-- Does it end in any sign? -/
  sign : Bool
  /-- Does it end a sentence? -/
  final : Bool
  deriving Repr, DecidableEq

/-- How a paragraph is read and broken. -/
structure FillPlan where
  /-- The width that no line has. -/
  limit : Nat
  /-- The width that lines should have. -/
  goal : Nat
  /-- Are lines only split and never joined? -/
  splits : Bool
  /-- Do the first two lines keep their indents? -/
  crown : Bool
  /-- Does the second line have to have another indent than the first? -/
  tagged : Bool
  /-- Is there one blank between words, and are there two behind a sentence? -/
  uniform : Bool
  /-- What all lines start with that are touched. -/
  mark : List Byte
  /-- How many blanks may come before that. -/
  lead : Nat
  /-- How long the mark is with the blanks behind it. -/
  fullMark : Nat

/-- Is a byte a visible one that is no letter and no digit? -/
def isSign (b : Byte) : Bool :=
  33 ≤ b && b ≤ 126 && !(Char.ofNat b.toNat).isAlphanum

/-- A word with what its signs mean. -/
def FillWord.ofBytes (text : List Byte) : FillWord :=
  let closing : List Byte := bytesOf ")]'\""
  let core := text.reverse.dropWhile closing.contains
  let last := (core.head?).getD (text.headD 0)
  ⟨text, 0, (text.head?).any (bytesOf "([\x27\x60\"").contains,
    (bytesOf ".?!").contains last, (text.getLast?).any isSign, false⟩

/-! ## §2. Reading paragraphs. -/

/-- Where reading has come to. -/
structure FillInput where
  /-- What is left. -/
  rest : List Byte
  /-- The column, counted from the start of the line. -/
  column : Nat
  /-- How far the mark of the line is indented. -/
  indent : Nat
  /-- Was there a tab? -/
  tabs : Bool

/-- Pass blanks. -/
def FillInput.passBlanks (i : FillInput) : FillInput :=
  let rec go (column : Nat) (tabs : Bool) : List Byte → FillInput
    | b :: rest =>
        if b = 32 then go (column + 1) tabs rest
        else if b = 9 then go (column / 8 * 8 + 8) true rest
        else { i with rest := b :: rest, column, tabs }
    | [] => { i with rest := [], column, tabs }
  go i.column i.tabs i.rest

/-- Start a line: pass its blanks and its mark. -/
def FillInput.startLine (p : FillPlan) (i : FillInput) : FillInput :=
  let i := ({ i with column := 0 } : FillInput).passBlanks
  if p.mark.isEmpty then { i with indent := min p.lead i.column }
  else
    let common := ((p.mark.zip i.rest).takeWhile fun (a, b) => a == b).length
    let passed := { i with
      indent := i.column
      column := i.column + common
      rest := i.rest.drop common }
    if common = p.mark.length then passed.passBlanks else passed

/-- Is there nothing more on the line? -/
def FillInput.atEnd (i : FillInput) : Bool :=
  i.rest.isEmpty || i.rest.head? = some lineFeed

/-- Does the line belong to the paragraph whose mark has this indent? -/
def FillInput.belongs (p : FillPlan) (indent : Nat) (i : FillInput) : Bool :=
  i.indent == indent && i.indent + p.fullMark ≤ i.column && !i.atEnd

/-- Is a byte one that ends a word? -/
def endsFillWord (b : Byte) : Bool := b == 32 || (9 ≤ b && b ≤ 13)

/-- The words of a line; what is behind it comes with them. -/
def FillInput.words (p : FillPlan) : Nat → FillInput → List FillWord × FillInput
  | 0, i => ([], i)
  | fuel + 1, i =>
      let text := match i.rest with
        | b :: rest => b :: rest.takeWhile (!endsFillWord ·)
        | [] => []
      let stop := i.column + text.length
      let passed := { i with rest := i.rest.drop text.length, column := stop }
      let next := passed.passBlanks
      let word := FillWord.ofBytes text
      let space := next.column - stop
      let final := next.rest.isEmpty
        || (word.period && (next.rest.head? = some lineFeed || 1 < space))
      let space := if next.atEnd || p.uniform then (if final then 2 else 1) else space
      let word := { word with space, final }
      if next.atEnd then
        ([word], ({ next with rest := next.rest.drop 1 } : FillInput).startLine p)
      else
        let (more, last) := FillInput.words p fuel next
        (word :: more, last)

/-- The lines of a paragraph as long as they belong to it and are indented so. -/
def FillInput.lines (p : FillPlan) (indent other : Nat) :
    Nat → FillInput → List FillWord × FillInput
  | 0, i => ([], i)
  | fuel + 1, i =>
      if i.belongs p indent && i.column = other then
        let (words, next) := i.words p (i.rest.length + 1)
        let (more, last) := FillInput.lines p indent other fuel next
        (words ++ more, last)
      else ([], i)

/-! ## §3. Breaking paragraphs. -/

/-- A word with the cheapest way to break the paragraph from it on. -/
structure Broken where
  /-- The word. -/
  word : FillWord
  /-- What the way costs. -/
  cost : Int
  /-- How many words are on its first line. -/
  taken : Nat
  /-- How long its first line is. -/
  length : Nat
  /-- Is that the last line? -/
  isLast : Bool

/-- The cost of a line that is so much shorter or longer than the goal. -/
def shortCost (n : Int) : Int := (n * 10) * (n * 10)

/-- The cost of lines next to each other of so different lengths. -/
def raggedCost (n : Int) : Int := shortCost n / 2

/-- The cost of a line that starts with a word, given the two words before it. -/
def startCost (word : FillWord) (before : List FillWord) : Int :=
  let lone (n : Nat) (size : Nat) : Int := ((size * size) / (n + 2) : Nat)
  let break_ : Int := match before with
    | [] => 0
    | last :: more =>
        if last.period then (if last.final then -2500 else 360000)
        else if last.sign then -1600
        else if (more.head?).any FillWord.final then lone last.text.length 200
        else 0
  4900 + break_
    + (if word.opens then -1600 else if word.final then lone word.text.length 150 else 0)

/-- The cheapest first line from a word on: what it and all lines behind it cost, how many
words it takes and how long it is. -/
def bestLine (p : FillPlan) (length taken : Nat) (word : FillWord)
    (best : Int × Nat × Nat × Bool) : List Broken → Int × Nat × Nat × Bool
  | [] => if 0 < best.1 || best.2.1 = 0 then (0, taken, length, true) else best
  | next :: rest =>
      let ragged : Int := if next.isLast then 0 else raggedCost ((length : Int) - next.length)
      let cost := shortCost ((p.goal : Int) - length) + ragged + next.cost
      let best := if cost < best.1 || best.2.1 = 0 then (cost, taken, length, false) else best
      let longer := length + word.space + next.word.text.length
      if longer < p.limit then bestLine p longer (taken + 1) next.word best rest else best

/-- The cheapest ways to break a paragraph, from each of its words on; `before` holds the words
before, the last one first. -/
def breaks (p : FillPlan) (first other : Nat) (before : List FillWord) :
    List FillWord → List Broken
  | [] => []
  | word :: rest =>
      let after := breaks p first other (word :: before) rest
      let start := (if before.isEmpty then first else other) + word.text.length
      let (cost, taken, length, isLast) := bestLine p start 1 word (0, 0, 0, false) after
      ⟨word, cost + startCost word before, taken, length, isLast⟩ :: after

/-- Blanks from a column on, with tabs if there were any. -/
def fillSpace (tabs : Bool) (column count : Nat) : List Byte :=
  let target := column + count
  let tabTarget := target / 8 * 8
  if tabs && column + 1 < tabTarget then
    List.replicate ((tabTarget + 7 - column) / 8) 9 ++ List.replicate (target - tabTarget) 32
  else List.replicate count 32

/-- The words of a line with the blanks between them. -/
def lineWords (tabs : Bool) (column : Nat) : List FillWord → List Byte
  | [] => []
  | [word] => word.text
  | word :: rest =>
      let stop := column + word.text.length
      word.text ++ fillSpace tabs stop word.space ++ lineWords tabs (stop + word.space) rest

/-- The lines of a paragraph that was broken. -/
def brokenLines (p : FillPlan) (tabs : Bool) (mark first other : Nat) :
    Nat → List Broken → List Byte
  | 0, _ | _, [] => []
  | fuel + 1, b :: rest =>
      let words := ((b :: rest).take b.taken).map Broken.word
      let front := fillSpace tabs 0 mark ++ p.mark
      let column := mark + p.mark.length
      front ++ fillSpace tabs column (first - column) ++ lineWords tabs (max column first) words
        ++ lineFeed :: brokenLines p tabs mark other other fuel ((b :: rest).drop b.taken)

/-! ## §4. The command. -/

/-- The indent of the other lines of a paragraph. -/
def otherIndent (p : FillPlan) (same : Bool) (first column before : Nat) : Nat :=
  if p.splits then first
  else if p.crown then (if same then column else first)
  else if p.tagged then
    if same && column ≠ first then column
    else if before = first then (if first = 0 then 3 else 0)
    else before
  else first

/-- All paragraphs of an input. -/
def fillAll (p : FillPlan) : Nat → (other : Nat) → FillInput → List Byte
  | 0, _, _ => []
  | fuel + 1, other, i =>
      if i.atEnd || i.indent < p.lead || i.column < i.indent + p.fullMark then
        let line := i.rest.takeWhile (· != lineFeed)
        let left := i.rest.drop line.length
        let markSeen := p.mark.take (i.column - i.indent)
        let touched := i.indent < i.column || !i.atEnd
        let front := if touched then fillSpace i.tabs 0 i.indent ++ markSeen else []
        let used := i.indent + markSeen.length
        let gap := if i.atEnd then [] else fillSpace i.tabs used (i.column - used)
        match left with
        | [] =>
            front ++ gap ++ line
              ++ (if i.rest.isEmpty && touched && i.indent + p.mark.length ≤ i.column then
                  [lineFeed]
                else [])
        | _ :: rest =>
            front ++ gap ++ line ++ lineFeed
              :: fillAll p fuel other (({ i with rest } : FillInput).startLine p)
      else
        let first := i.column
        let mark := i.indent
        let (words, next) := i.words p (i.rest.length + 1)
        let same := next.belongs p mark
        let other := otherIndent p same first next.column other
        let goesOn := !p.splits && (!p.tagged || next.column ≠ first)
        let (more, next) := if goesOn then next.lines p mark other (next.rest.length + 1)
          else ([], next)
        let all := words ++ more
        let ended := all.dropLast ++ (all.getLast?).toList.map fun w =>
          { w with period := true, final := true }
        brokenLines p next.tabs mark first other (ended.length + 1)
            (breaks p first other [] ended)
          ++ fillAll p fuel other next

/-- The options of `fmt`. -/
def fmtOptions : List Known :=
  [flag "c" "crown-margin", valued "p" "prefix", flag "s" "split-only",
   flag "t" "tagged-paragraph", flag "u" "uniform-spacing", valued "w" "width",
   valued "g" "goal"]

/-- What options ask for. -/
def FillPlan.ofOptions (o : Options) : Except String FillPlan := do
  let number (name : String) (high : Nat) : Except String (Option Nat) :=
    match o.value? name with
    | none => .ok none
    | some text =>
        match readBetween 0 high text with
        | .ok n => .ok (some n)
        | .error fault => .error (fault.message "invalid width" text)
  let width ← number "w" 2500
  let goal ← number "g" (width.getD 2500)
  let limit := width.getD ((goal.map (· + 10)).getD 75)
  let text := (o.value? "p").getD ""
  let lead := (text.toList.takeWhile (· == ' ')).length
  let full := text.toList.drop lead
  let mark := (full.reverse.dropWhile (· == ' ')).reverse
  return {
    limit
    goal := goal.getD (limit * 187 / 200)
    splits := o.has "s"
    crown := o.has "c"
    tagged := o.has "t"
    uniform := o.has "u"
    mark := bytesOf (String.ofList mark)
    lead
    fullMark := full.length }

/-- Break paragraphs into lines anew. -/
def fmt : Command := fun c =>
  let args := match c.args with
    | arg :: rest =>
        match arg.toList with
        | '-' :: d :: ds => if d.isDigit then ("-w" ++ String.ofList (d :: ds)) :: rest else c.args
        | _ => c.args
    | [] => []
  let run := withOptions fmtOptions 1 fun o c => c.orFail 1 do
    let p ← FillPlan.ofOptions o
    let trouble (name : String) (failure : Files.Failure) : String :=
      if failure = .isDirectory then "read error: Is a directory"
      else "cannot open " ++ quotedArg name ++ " for reading: " ++ failure.text
    return c.eachOr trouble 1 o.operands fun _ bytes =>
      fillAll p (bytes.length + 1) 0 (FillInput.startLine p ⟨bytes, 0, 0, false⟩)
  run { c with args }

end Stencil.Script
