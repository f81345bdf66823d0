/-
  Stencil.Formatter.Command.Layout
  ────────────────────────────────
  An input in another layout.

  `fold` breaks long lines, `expand` puts blanks for tabulators and `unexpand`
  tabulators for blanks, `nl` numbers lines, and `paste` joins them.
-/
import Stencil.Formatter.Command.Excerpt
import Stencil.Formatter.Regex.Reader

namespace Stencil.Script

open Text (Byte)

/-! ## §1. Long lines. -/

/-- Is the byte a blank? -/
def isBlankByte (b : Byte) : Bool := b == 32 || b == 9

/-- How lines are broken. -/
structure Folding where
  /-- The width that lines may have. -/
  width : Nat
  /-- Is the width a number of bytes? -/
  inBytes : Bool
  /-- Are lines broken behind blanks? -/
  atBlanks : Bool
  deriving Repr, DecidableEq

/-- The column behind a byte. -/
def Folding.column (f : Folding) (column : Nat) (b : Byte) : Nat :=
  if f.inBytes then column + 1
  else if b = 8 then column - 1
  else if b = 13 then 0
  else if b = 9 then column + 8 - column % 8
  else column + 1

/-- Break a line; `held` is what was not yet given, newest first. -/
def Folding.line (f : Folding) : Nat → (held : List Byte) → (column : Nat) → List Byte → List Byte
  | 0, held, _, rest => held.reverse ++ rest
  | _ + 1, held, _, [] => held.reverse
  | fuel + 1, held, column, b :: bs =>
      let next := f.column column b
      if next ≤ f.width then f.line fuel (b :: held) next bs
      else
        let kept := if f.atBlanks then held.takeWhile fun b => !isBlankByte b else held
        if f.atBlanks && kept.length < held.length then
          (held.drop kept.length).reverse ++ lineFeed
            :: f.line fuel kept (kept.reverse.foldl f.column 0) (b :: bs)
        else if held.isEmpty then f.line fuel [b] next bs
        else held.reverse ++ lineFeed :: f.line fuel [] 0 (b :: bs)

/-- A number behind a hyphen stands for the value of an option. -/
def plainWidth (letter : String) (args : List String) : List String :=
  args.flatMap fun arg =>
    match arg.toList with
    | '-' :: c :: cs =>
        if (c :: cs).all fun d => d.isDigit || d == ',' then [letter ++ String.ofList (c :: cs)]
        else [arg]
    | _ => [arg]

/-- Break long lines. -/
def fold : Command := fun c =>
  let known := [flag "b" "bytes", flag "s" "spaces", valued "w" "width"]
  let run := withOptions known 1 fun o c => c.orFail 1 do
    let width ← o.number "w" "invalid number of columns" 1 80
    let folding : Folding := ⟨width, o.has "b", o.has "s"⟩
    return c.each o.operands fun _ bytes =>
      (byteLines bytes).flatMap fun line =>
        let body := lineBody line
        folding.line (3 * body.length + 1) [] 0 body ++ line.drop body.length
  run { c with args := plainWidth "-w" c.args }

/-! ## §2. Tabulators. -/

/-- Where the next columns are: at some places, and then in steps from the last
of them or from the start. -/
structure TabStops where
  /-- The first places. -/
  places : List Nat
  /-- The distance from start to stop to stop behind them. -/
  every : Option Nat
  /-- The distance from the last of the places on. -/
  further : Option Nat
  deriving Repr, DecidableEq

/-- The next stop behind a column. -/
def TabStops.next? (t : TabStops) (column : Nat) : Option Nat :=
  match t.places.find? (column < ·), t.every, t.further with
  | some place, _, _ => some place
  | none, some width, _ => some (column + (width - column % width))
  | none, none, some width =>
      let start := t.places.getLast?.getD 0
      some (column + (width - (column - start) % width))
  | none, none, none => none

/-- Are places in order? -/
def ascends : List Nat → Bool
  | a :: b :: rest => decide (a < b) && ascends (b :: rest)
  | _ => true

/-- Stops as they are written. -/
def TabStops.ofTexts (texts : List String) : Except String TabStops := do
  let pieces := (texts.flatMap fun text =>
    splitChars (fun c => c == ',' || c == ' ' || c == '\t') text.toList).filter (!·.isEmpty)
  let step (t : TabStops) (piece : List Char) : Except String TabStops := do
    let (mark, digits) := match piece with
      | '/' :: rest => (some '/', rest)
      | '+' :: rest => (some '+', rest)
      | rest => (none, rest)
    let strange := digits.dropWhile Char.isDigit
    if !strange.isEmpty then
      throw ("tab size contains invalid character(s): " ++ quotedArg (String.ofList strange))
    let n := (readDigits 10 digits).1
    match mark with
    | some '/' =>
        if t.every.isSome || t.further.isSome then
          throw "'/' specifier only allowed with the last value"
        else return { t with every := some n }
    | some _ =>
        if t.every.isSome || t.further.isSome then
          throw "'+' specifier only allowed with the last value"
        else return { t with further := some n }
    | none =>
        if t.every.isSome then throw "'/' specifier only allowed with the last value"
        else if t.further.isSome then throw "'+' specifier only allowed with the last value"
        else return { t with places := t.places ++ [n] }
  let found ← pieces.foldlM step ⟨[], none, none⟩
  if found.places.contains 0 then throw "tab size cannot be 0"
  else if !ascends found.places then throw "tab sizes must be ascending"
  else
    match found with
    | ⟨[], none, none⟩ => return ⟨[], some 8, none⟩
    | ⟨[n], none, none⟩ => return ⟨[], some n, none⟩
    | ⟨[], none, some n⟩ => return ⟨[], some (if n = 0 then 8 else n), none⟩
    | ⟨[], some 0, none⟩ => return ⟨[], some 8, none⟩
    | ⟨places, some 0, _⟩ => return ⟨places, none, none⟩
    | ⟨places, every, some 0⟩ => return ⟨places, every, none⟩
    | found => return found

/-- A line with blanks in the place of tabulators; `open_` tells whether
tabulators still count. -/
def withoutTabs (t : TabStops) (all : Bool) : (open_ : Bool) → (used : Nat) → List Byte → List Byte
  | _, _, [] => []
  | open_, used, b :: bs =>
      if !open_ then b :: bs
      else if b = 9 then
        let next := (t.next? used).getD (used + 1)
        List.replicate (next - used) 32 ++ withoutTabs t all true next bs
      else
        b :: withoutTabs t all (all || b == 32) (if b = 8 then used - 1 else used + 1) bs

/-- Put blanks in the place of tabulators. -/
def expand : Command := fun c =>
  let run := withOptions [flag "i" "initial", valued "t" "tabs"] 1 fun o c => c.orFail 1 do
    let stops ← TabStops.ofTexts (o.values "t")
    return c.each o.operands fun _ bytes =>
      (byteLines bytes).flatMap (withoutTabs stops (!o.has "i") true 0)
  run { c with args := plainWidth "-t" c.args }

/-- How far a line has come that gets tabulators. -/
structure Tabbing where
  /-- Do blanks still count? -/
  counts : Bool
  /-- The column. -/
  column : Nat
  /-- Blanks that were not yet given, in order. -/
  held : List Byte
  /-- Is the only blank held right before a stop? -/
  single : Bool
  /-- Did a blank come before? -/
  afterBlank : Bool

/-- A line with tabulators in the place of blanks. -/
def withTabs (t : TabStops) (all : Bool) : Tabbing → List Byte → List Byte
  | k, [] => (if 1 < k.held.length && k.single then 9 :: k.held.tail else k.held)
  | k, b :: bs =>
      let released (held : List Byte) : List Byte :=
        if 1 < held.length && k.single then 9 :: held.tail else held
      if !k.counts then b :: withTabs t all k bs
      else if isBlankByte b then
        match t.next? k.column with
        | none =>
            released k.held ++ b :: withTabs t all ⟨false, k.column, [], false, true⟩ bs
        | some next =>
            if b = 9 then
              let held := if k.held.isEmpty then [] else 9 :: k.held.tail
              let kept := if k.single then held.take 1 else []
              kept ++ 9 :: withTabs t all ⟨true, next, [], false, true⟩ bs
            else if k.afterBlank && k.column + 1 = next then
              let kept : List Byte := if k.single then [9] else []
              kept ++ 9 :: withTabs t all ⟨true, next, [], false, true⟩ bs
            else
              withTabs t all
                ⟨true, k.column + 1, k.held ++ [b], k.single || k.column + 1 == next, true⟩ bs
      else
        let column := if b = 8 then k.column - 1 else k.column + 1
        released k.held ++ b :: withTabs t all ⟨all, column, [], false, false⟩ bs

/-- Put tabulators in the place of blanks. -/
def unexpand : Command := fun c =>
  let known := [flag "a" "all", flag "" "first-only", valued "t" "tabs"]
  let run := withOptions known 1 fun o c => c.orFail 1 do
    let stops ← TabStops.ofTexts (o.values "t")
    let all := (o.has "a" || o.has "t") && !o.has "first-only"
    return c.each o.operands fun _ bytes =>
      (byteLines bytes).flatMap fun line =>
        let body := lineBody line
        withTabs stops all ⟨true, 0, [], false, true⟩ body ++ line.drop body.length
  run { c with args := plainWidth "-t" c.args }

/-! ## §3. Numbered lines. -/

/-- Which lines are numbered. -/
inductive LineChoice where
  /-- All of them. -/
  | all
  /-- Those that are not empty. -/
  | full
  /-- None. -/
  | none
  /-- Those that match. -/
  | matching (r : Regex)

/-- A choice as it is written. -/
def LineChoice.ofText? (text : String) : Option LineChoice :=
  match text.toList with
  | ['a'] => some .all
  | ['t'] => some .full
  | ['n'] => some .none
  | 'p' :: pattern =>
      match Regex.ofText ⟨false, true, false⟩ pattern with
      | .ok r => some (.matching r)
      | .error _ => Option.none
  | _ => Option.none

/-- How lines are numbered. -/
structure Numbering where
  /-- Which lines of the head, the body and the foot of a page are. -/
  choices : List LineChoice
  /-- The width of the numbers. -/
  width : Nat
  /-- What comes behind a number. -/
  separator : String
  /-- The first number. -/
  first : Int
  /-- The distance from number to number. -/
  step : Int
  /-- Where a number stands: left, right, or right behind zeros. -/
  layout : String
  /-- How many empty lines count as one. -/
  blanks : Nat
  /-- Do pages start with the first number? -/
  renews : Bool
  /-- The mark that starts parts of pages, once to three times. -/
  mark : List Byte

/-- A number in its column. -/
def Numbering.text (k : Numbering) (n : Int) : String :=
  let digits := toString n.natAbs
  let sign := if n < 0 then "-" else ""
  let room := k.width - digits.length - sign.length
  if k.layout = "ln" then sign ++ digits ++ String.ofList (List.replicate room ' ')
  else if k.layout = "rz" then sign ++ String.ofList (List.replicate room '0') ++ digits
  else String.ofList (List.replicate room ' ') ++ sign ++ digits

/-- The part of a page that a line starts: head, body or foot. -/
def Numbering.part? (k : Numbering) (body : List Byte) : Option Nat :=
  if k.mark.isEmpty then none
  else if body = k.mark ++ k.mark ++ k.mark then some 0
  else if body = k.mark ++ k.mark then some 1
  else if body = k.mark then some 2
  else none

/-- Lines with their numbers; `empty` counts the empty lines before. -/
def Numbering.lines (k : Numbering) (part : Nat) (number : Int) (empty : Nat) :
    List (List Byte) → List Byte
  | [] => []
  | line :: rest =>
      let body := lineBody line
      match k.part? body with
      | some part =>
          lineFeed :: k.lines part (if k.renews then k.first else number) 0 rest
      | none =>
          let blanks := if body.isEmpty then empty + 1 else 0
          let chosen := match (k.choices[part]?).getD .none with
            | .all => !body.isEmpty || k.blanks ≤ 1 || blanks == k.blanks
            | .full => !body.isEmpty
            | .none => false
            | .matching r => r.occursIn (Subject.ofBytes body)
          if chosen then
            bytesOf (k.text number ++ k.separator) ++ body ++ [lineFeed]
              ++ k.lines part (number + k.step) (if blanks = k.blanks then 0 else blanks) rest
          else
            List.replicate (k.width + k.separator.length) 32 ++ body ++ [lineFeed]
              ++ k.lines part number blanks rest

/-- The options of `nl`. -/
def nlOptions : List Known :=
  [valued "b" "body-numbering", valued "d" "section-delimiter", valued "f" "footer-numbering",
   valued "h" "header-numbering", valued "i" "line-increment", valued "l" "join-blank-lines",
   valued "n" "number-format", flag "p" "no-renumber", valued "s" "number-separator",
   valued "v" "starting-line-number", valued "w" "number-width"]

/-- A whole number with a sign. -/
def signedNumber? (text : String) : Option Int :=
  let whole (cs : List Char) : Option Nat :=
    if !cs.isEmpty && cs.all Char.isDigit then some (readDigits 10 cs).1 else none
  match text.toList with
  | '-' :: cs => (whole cs).map fun n => -(n : Int)
  | '+' :: cs => (whole cs).map Int.ofNat
  | cs => (whole cs).map Int.ofNat

/-- Number the lines. -/
def nl : Command :=
  withOptions nlOptions 1 fun o c =>
    let choice (name what other : String) : Except String LineChoice :=
      let text := (o.value? name).getD other
      match LineChoice.ofText? text with
      | some found => .ok found
      | none => .error ("invalid " ++ what ++ " numbering style: " ++ quotedArg text ++ c.hint)
    let signed (name what : String) : Except String Int :=
      match o.value? name with
      | none => .ok 1
      | some text =>
          match signedNumber? text with
          | some n => .ok n
          | none => .error (what ++ ": " ++ quotedArg text)
    c.orFail 1 do
      let head ← choice "h" "header" "n"
      let body ← choice "b" "body" "t"
      let foot ← choice "f" "footer" "n"
      let first ← signed "v" "invalid starting line number"
      let step ← signed "i" "invalid line number increment"
      let blanks ← o.number "l" "invalid line number of blank lines" 1 1
      let width ← o.number "w" "invalid line number field width" 1 6
      let layout := (o.value? "n").getD "rn"
      if !(["ln", "rn", "rz"].contains layout) then
        throw ("invalid line numbering format: " ++ quotedArg layout ++ c.hint)
      let mark := match (o.value? "d").map bytesOf with
        | none => [92, 58]
        | some [b] => [b, 58]
        | some bytes => bytes
      let k : Numbering :=
        { choices := [head, body, foot], width, first, step, layout, blanks, mark
          separator := (o.value? "s").getD "\t"
          renews := !o.has "p" }
      return c.together o.operands fun bytes => k.lines 1 first 0 (byteLines bytes)

/-! ## §4. Joined lines. -/

/-- Delimiters of `paste`, as they are written; none if a backslash ends them. -/
def pasteDelimiters : List Char → Option (List (List Byte))
  | '\\' :: c :: cs =>
      let letters : List (Char × List Byte) :=
        [('0', []), ('b', [8]), ('f', [12]), ('n', [10]), ('r', [13]), ('t', [9]), ('v', [11])]
      (pasteDelimiters cs).map (((letters.lookup c).getD (bytesOf c.toString)) :: ·)
  | ['\\'] => none
  | c :: cs => (pasteDelimiters cs).map (bytesOf c.toString :: ·)
  | [] => some []

/-- Pieces joined by delimiters that come in turn. -/
def joinInTurn (delimiters : List (List Byte)) (turn : Nat) : List (List Byte) → List Byte
  | [] => []
  | [last] => last
  | first :: rest =>
      first ++ ((delimiters[turn % delimiters.length]?).getD [])
        ++ joinInTurn delimiters (turn + 1) rest

/-- One row: the next line of each column, whose streams are given by their
numbers; a stream at its end gives none. -/
def pasteRow (streams : List (List (List Byte))) : List Nat →
    List (Option (List Byte)) × List (List (List Byte))
  | [] => ([], streams)
  | n :: columns =>
      match (streams[n]?).getD [] with
      | [] =>
          let (row, left) := pasteRow streams columns
          (none :: row, left)
      | line :: more =>
          let (row, left) := pasteRow (streams.set n more) columns
          (some line :: row, left)

/-- Rows, as long as there is a line for one. -/
def pasteRows (columns : List Nat) : Nat → List (List (List Byte)) → List (List (List Byte))
  | 0, _ => []
  | fuel + 1, streams =>
      let (row, left) := pasteRow streams columns
      if row.all Option.isNone then []
      else row.map (·.getD []) :: pasteRows columns fuel left

/-- Join lines: all lines of a file, or one line of each. -/
def paste : Command :=
  withOptions [valued "d" "delimiters", flag "s" "serial", flag "z" "zero-terminated"] 1 fun o c =>
    let text := (o.value? "d").getD "\t"
    let ending : Byte := if o.has "z" then 0 else lineFeed
    let names := if o.operands.isEmpty then ["-"] else o.operands
    match pasteDelimiters text.toList with
    | none => c.fail 1 ("delimiter list ends with an unescaped backslash: " ++ text)
    | some delimiters =>
        if o.has "s" then
          c.each names fun _ bytes => joinInTurn delimiters 0 (bodiesBy ending bytes) ++ [ending]
        else
          let found := c.contents names
          match found.find? fun (_, content) => !content.isOk with
          | some (name, .error failure) => c.fail 1 (Call.plainTrouble name failure)
          | _ =>
              let streams := found.map fun (_, content) =>
                bodiesBy ending (content.toOption.getD [])
              let columns := names.zipIdx.map fun (name, n) =>
                if name = "-" then names.findIdx (· == "-") else n
              let height := (streams.map List.length).foldl max 0 + 1
              ⟨0, [(.output, endAll ending ((pasteRows columns height streams).map
                (joinInTurn delimiters 0)))], c.leftOver names, c.tree⟩

end Stencil.Script
