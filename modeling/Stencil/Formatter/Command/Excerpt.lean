/-
  Stencil.Formatter.Command.Excerpt
  ─────────────────────────────────
  Parts of an input.

  `cat` gives all of it, `head` and `tail` its two ends, `cut` parts of every
  line, and `rev` and `tac` turn lines and their order around.
-/
import Stencil.Formatter.Command.Amount

namespace Stencil.Script

open Text (Byte)

/-! ## §1. All of an input. -/

/-- A number that starts a line. -/
def lineNumberMark (n : Nat) : List Byte :=
  bytesOf (rightAligned 6 (toString n) ++ "\t")

/-- What `cat` shows of the bytes of a line. -/
structure CatView where
  /-- Are all lines numbered? -/
  numbers : Bool
  /-- Are lines numbered that are not empty? -/
  numbersFull : Bool
  /-- Is the end of a line marked? -/
  marksEnds : Bool
  /-- Are tabulators shown? -/
  showsTabs : Bool
  /-- Are control characters shown? -/
  showsControls : Bool
  /-- Are repeated empty lines one? -/
  squeezes : Bool

/-- A byte as `cat` shows it. -/
def CatView.byte (v : CatView) (b : Byte) : List Byte :=
  let low (b : Byte) : List Byte :=
    if b < 32 then [94, b + 64] else if b = 127 then [94, 63] else [b]
  if b = 9 then (if v.showsTabs then [94, 73] else [b])
  else if !v.showsControls then [b]
  else if b < 128 then low b
  else [77, 45] ++ low (b - 128)

/-- A line without its end as `cat` shows it; a return before a marked end is
shown. -/
def CatView.body (v : CatView) (ended : Bool) (body : List Byte) : List Byte :=
  if v.marksEnds && !v.showsControls && ended && body.getLast? = some 13 then
    body.dropLast.flatMap v.byte ++ [94, 77]
  else body.flatMap v.byte

/-- Lines as `cat` shows them, numbered from `number` on; `blank` tells whether
an empty line came before. -/
def CatView.lines (v : CatView) (number : Nat) (blank : Bool) : List (List Byte) → List Byte
  | [] => []
  | line :: rest =>
      let body := lineBody line
      let ended := body.length < line.length
      if v.squeezes && blank && body.isEmpty then v.lines number true rest
      else
        let numbered := v.numbers && !(v.numbersFull && body.isEmpty)
        let mark := if numbered then lineNumberMark number else []
        let ending := if !ended then [] else if v.marksEnds then [36, lineFeed] else [lineFeed]
        mark ++ v.body ended body ++ ending
          ++ v.lines (if numbered then number + 1 else number) body.isEmpty rest

/-- The options of `cat`. -/
def catOptions : List Known :=
  [flag "b" "number-nonblank", flag "n" "number", flag "s" "squeeze-blank",
   flag "v" "show-nonprinting", flag "E" "show-ends", flag "T" "show-tabs", flag "A" "show-all",
   flag "e" "", flag "t" "", flag "u" ""]

/-- Give all of the input. -/
def cat : Command :=
  withOptions catOptions 1 fun o c =>
    let v : CatView :=
      { numbers := o.has "n" || o.has "b"
        numbersFull := o.has "b"
        marksEnds := o.has "E" || o.has "A" || o.has "e"
        showsTabs := o.has "T" || o.has "A" || o.has "t"
        showsControls := o.has "v" || o.has "A" || o.has "e" || o.has "t"
        squeezes := o.has "s" }
    if o.flags.all fun (n, _) => n == "u" then c.each o.operands fun _ bytes => bytes
    else c.together o.operands fun bytes => v.lines 1 false (byteLines bytes)

/-! ## §2. The ends of an input. -/

/-- A number behind a hyphen, or a plus, as the first argument is a number of
lines; letters behind it are options, one of them for bytes. -/
def plainCounts (signs : List Char) (args : List String) : List String :=
  match args with
  | arg :: rest =>
      match arg.toList with
      | sign :: cs =>
          let digits := cs.takeWhile Char.isDigit
          let letters := cs.drop digits.length
          let units := letters.filter fun l => "bkm".toList.contains l
          let others := letters.filter fun l => "qvz".toList.contains l
          let inBytes := letters.contains 'c' || !units.isEmpty
          let unitsOnly := letters.all fun l => "bkmclqvzf".toList.contains l
          if signs.contains sign && !digits.isEmpty && unitsOnly then
            let count := (if sign = '+' then "+" else "") ++ String.ofList (digits ++ units.take 1)
            (if inBytes then "-c" else "-n") :: count
              :: (others.map fun l => String.ofList ['-', l]) ++ rest
          else args
      | [] => args
  | [] => []

/-- The options of `head` and `tail`. -/
def endOptions : List Known :=
  [valued "c" "bytes", valued "n" "lines", flag "q" "quiet", flag "q" "silent", flag "v" "verbose",
   flag "z" "zero-terminated"]

/-- The further options of `tail`. -/
def followOptions : List Known :=
  [optional "" "follow", flag "f" "", flag "F" "", valued "" "max-unchanged-stats", valued "" "pid",
   flag "" "retry", valued "s" "sleep-interval"]

/-- Parts of files, each under its name if that is asked for. -/
def titledParts (c : Call) (named : Bool) (part : List Byte → List Byte) :
    (later : Bool) → List (String × Except Files.Failure (List Byte)) → List (Channel × List Byte)
  | _, [] => []
  | later, (name, content) :: rest =>
      match content with
      | .error failure =>
          let title := if named && failure = .isDirectory then
              [(Channel.output,
                bytesOf ((if later then "\n" else "") ++ "==> " ++ name ++ " <==\n"))]
            else []
          title ++ (.errors, c.complaint (Call.openTrouble "cannot open" name failure))
            :: titledParts c named part (later || !title.isEmpty) rest
      | .ok bytes =>
          let shown := if name = "-" then "standard input" else name
          let title := if named then
              bytesOf ((if later then "\n" else "") ++ "==> " ++ shown ++ " <==\n") else []
          (.output, title ++ part bytes) :: titledParts c named part true rest

/-- Give a part of each file, under its name if there are several. -/
def excerpt (o : Options) (part : List Byte → List Byte) : Command := fun c =>
  let named := match o.last? ["q", "v"] with
    | some (name, _) => name == "v"
    | none => 1 < o.operands.length
  let found := c.contents o.operands
  ⟨if found.all fun (_, content) => content.isOk then 0 else 1,
    titledParts c named part false found, c.leftOver o.operands, c.tree⟩

/-- The bytes that are read at once. -/
def blockSize : Nat := 8192

/-- What `head` leaves of its input.  It reads as many bytes as it gives, but
lines in whole blocks; in a file it goes back to where they end. -/
def Amount.unread (a : Amount) (ending : Byte) (fromFile : Bool) (input : List Byte) :
    List Byte :=
  let used := (a.first ending input).length
  if a.inBytes || fromFile || used = 0 then input.drop used
  else input.drop ((used + blockSize - 1) / blockSize * blockSize)

/-- Give the first part of the input. -/
def head : Command := fun c =>
  let run := withOptions endOptions 1 fun o c => c.orFail 1 do
    let amount ← Amount.ofOptions ['-'] o
    let ending : Byte := if o.has "z" then 0 else lineFeed
    let r := excerpt o (amount.first ending) c
    let all := amount.sign = some '-'
      || (!amount.inBytes && (piecesBy ending c.input).length < amount.count)
    let readsInput := o.operands.isEmpty || o.operands.contains "-"
    return if readsInput && !all then { r with input := amount.unread ending c.fromFile c.input }
      else r
  run { c with args := plainCounts ['-'] c.args }

/-- Give the last part of the input. -/
def tail : Command := fun c =>
  let run := withOptions (endOptions ++ followOptions) 1 fun o c => c.orFail 1 do
    let amount ← Amount.ofOptions ['-', '+'] o
    let ending : Byte := if o.has "z" then 0 else lineFeed
    return excerpt o (amount.last ending) c
  run { c with args := plainCounts ['-', '+'] c.args }

/-! ## §3. Parts of lines. -/

/-- A range of positions, from one on; without an end it has none. -/
structure Span where
  /-- The first. -/
  low : Nat
  /-- The last. -/
  high : Option Nat
  deriving Repr, DecidableEq

/-- Is a position in the range? -/
def Span.holds (s : Span) (n : Nat) : Bool :=
  s.low ≤ n && (s.high.all fun high => decide (n ≤ high))

/-- The elements at the positions of a range. -/
def Span.of {α : Type} (s : Span) (all : List α) : List α :=
  let kept := match s.high with
    | some high => all.take high
    | none => all
  kept.drop (s.low - 1)

/-- What is wrong with ranges, in the words for what is counted. -/
structure SpanWords where
  /-- What a bad number is called. -/
  value : String
  /-- What is counted. -/
  units : String
  /-- What a bad range is called. -/
  range : String
  /-- What a number is called that is too large. -/
  number : String

/-- The words for fields. -/
def SpanWords.fields : SpanWords := ⟨"field value", "fields", "field range", "field number"⟩

/-- The words for bytes. -/
def SpanWords.bytes : SpanWords :=
  ⟨"byte/character position", "byte/character positions", "byte or character range",
    "byte/character offset"⟩

/-- A range, as it is written, with the text behind it. -/
def spanOf? (w : SpanWords) (piece behind : List Char) : Except String Span := do
  let bad (cs : List Char) : String :=
    "invalid " ++ w.value ++ " " ++ quotedArg (String.ofList (cs ++ behind))
  let number (digits : List Char) : Except String Nat :=
    let n := (readDigits 10 digits).1
    if largestNumber ≤ n then
      .error (w.number ++ " " ++ quotedArg (String.ofList digits) ++ " is too large")
    else .ok n
  let fromZero : String := w.units ++ " are numbered from 1"
  let digits := piece.takeWhile Char.isDigit
  let low ← number digits
  match piece.drop digits.length with
  | [] => if low = 0 then throw fromZero else return ⟨low, some low⟩
  | '-' :: rest =>
      let more := rest.takeWhile Char.isDigit
      if !digits.isEmpty && low = 0 then throw fromZero
      let high ← number more
      match rest.drop more.length with
      | '-' :: _ => throw ("invalid " ++ w.range)
      | c :: cs => throw (bad (c :: cs))
      | [] =>
          if digits.isEmpty && more.isEmpty then throw "invalid range with no endpoint: -"
          else if more.isEmpty then return ⟨low, none⟩
          else if high < max 1 low then throw "invalid decreasing range"
          else return ⟨max 1 low, some high⟩
  | cs => throw (bad cs)

/-- Put ranges together that share a position; they come in order. -/
def mergeSpans : List Span → List Span
  | a :: b :: rest =>
      match a.high with
      | none => [a]
      | some high =>
          if b.low ≤ high then
            mergeSpans (⟨a.low, b.high.map fun other => max high other⟩ :: rest)
          else a :: mergeSpans (b :: rest)
  | spans => spans
termination_by spans => spans.length

/-- The ranges between ranges, from a position on. -/
def otherSpans (start : Nat) : List Span → List Span
  | [] => [⟨start, none⟩]
  | s :: rest =>
      let before := if start < s.low then [⟨start, some (s.low - 1)⟩] else []
      match s.high with
      | none => before
      | some high => before ++ otherSpans (high + 1) rest

/-- Ranges, as they are written: in order, or all other ones. -/
def spansOf? (w : SpanWords) (others : Bool) (text : String) : Except String (List Span) := do
  let separates (c : Char) : Bool := c == ',' || c == ' ' || c == '\t'
  let pieces := splitChars separates text.toList
  let spans ← pieces.zipIdx.mapM fun (piece, i) =>
    let passed := ((pieces.take (i + 1)).map fun p => p.length + 1).foldl (· + ·) 0
    spanOf? w piece (text.toList.drop (passed - 1))
  let sorted := mergeSpans (spans.mergeSort fun a b => decide (a.low ≤ b.low))
  return if others then otherSpans 1 sorted else sorted

/-- The pieces of a line between delimiters. -/
def splitBytes (delimiter : Byte) : List Byte → List (List Byte)
  | [] => [[]]
  | b :: bs =>
      match splitBytes delimiter bs with
      | [] => [[b]]
      | piece :: rest => if b = delimiter then [] :: piece :: rest else (b :: piece) :: rest

/-- Pieces with a delimiter between them. -/
def joinBytes (delimiter : List Byte) : List (List Byte) → List Byte
  | [] => []
  | [last] => last
  | first :: rest => first ++ delimiter ++ joinBytes delimiter rest

/-- The options of `cut`. -/
def cutOptions : List Known :=
  [valued "b" "bytes", valued "c" "characters", valued "d" "delimiter", valued "f" "fields",
   flag "n" "", flag "s" "only-delimited", flag "z" "zero-terminated", flag "" "complement",
   valued "" "output-delimiter"]

/-- Pieces with an end after each. -/
def endAll (ending : Byte) (pieces : List (List Byte)) : List Byte :=
  pieces.flatMap (· ++ [ending])

/-- A piece without the byte that ends it. -/
def pieceBody (ending : Byte) (piece : List Byte) : List Byte :=
  if piece.getLast? = some ending then piece.dropLast else piece

/-- The pieces of an input without the bytes that end them. -/
def bodiesBy (ending : Byte) (bytes : List Byte) : List (List Byte) :=
  (piecesBy ending bytes).map (pieceBody ending)

/-- Give parts of every line. -/
def cut : Command :=
  withOptions cutOptions 1 fun o c =>
    let lists := o.flags.filter fun (n, _) => ["b", "c", "f"].contains n
    let ending : Byte := if o.has "z" then 0 else lineFeed
    match lists with
    | [] => c.misuse 1 "you must specify a list of bytes, characters, or fields"
    | _ :: _ :: _ => c.misuse 1 "only one list may be specified"
    | [(kind, text)] =>
        let given := (o.value? "d").map bytesOf
        let inFields := kind == "f"
        let joint := (o.value? "output-delimiter").map bytesOf
        if given.any fun d => decide (1 < d.length) then
          c.misuse 1 "the delimiter must be a single character"
        else if !inFields && given.isSome then
          c.misuse 1 "an input delimiter may be specified only when operating on fields"
        else if !inFields && o.has "s" then
          c.misuse 1 ("suppressing non-delimited lines makes sense\n\t"
            ++ "only when operating on fields")
        else
          match spansOf? (if inFields then .fields else .bytes) (o.has "complement") text with
          | .error message => c.misuse 1 message
          | .ok spans =>
              let delimiter := (given.getD [9]).headD 0
              let parts (line : List Byte) : Option (List Byte) :=
                if inFields then
                  if line.contains delimiter then
                    let fields := splitBytes delimiter line
                    some (joinBytes (joint.getD [delimiter]) (spans.flatMap (·.of fields)))
                  else if o.has "s" then none
                  else some line
                else
                  some (joinBytes (joint.getD [])
                    ((spans.map (·.of line)).filter fun part => !part.isEmpty))
              c.each o.operands fun _ bytes =>
                endAll ending ((bodiesBy ending bytes).filterMap parts)

/-! ## §4. Turned around. -/

/-- Give every line backwards. -/
def rev : Command :=
  withOptions [flag "0" "zero"] 1 fun o c =>
    let ending : Byte := if o.has "0" then 0 else lineFeed
    let trouble (name : String) (failure : Files.Failure) : String :=
      "cannot open " ++ name ++ ": " ++ failure.text
    c.eachOr trouble 1 o.operands fun _ bytes =>
      (piecesBy ending bytes).flatMap fun line =>
        let body := pieceBody ending line
        body.reverse ++ line.drop body.length

/-- The pieces of an input that each end with a separator, or start with one. -/
def separated (separator : List Byte) (before : Bool) : Nat → (current : List Byte) →
    List Byte → List (List Byte)
  | 0, _, _ => []
  | _ + 1, current, [] => if current.isEmpty then [] else [current.reverse]
  | n + 1, current, b :: bs =>
      if separator.isPrefixOf (b :: bs) then
        let rest := (b :: bs).drop separator.length
        if before then
          (if current.isEmpty then [] else [current.reverse])
            ++ separated separator before n separator.reverse rest
        else (current.reverse ++ separator) :: separated separator before n [] rest
      else separated separator before n (b :: current) bs

/-- Give the lines from the last to the first. -/
def tac : Command :=
  withOptions [flag "b" "before", flag "r" "regex", valued "s" "separator"] 1 fun o c =>
    let trouble (name : String) (failure : Files.Failure) : String :=
      if failure = .isDirectory then name ++ ": read error: " ++ failure.text
      else "failed to open '" ++ name ++ "' for reading: " ++ failure.text
    let separator := match (o.value? "s").map bytesOf with
      | none => [lineFeed]
      | some [] => [0]
      | some bytes => bytes
    c.eachOr trouble 1 o.operands fun _ bytes =>
      if separator = [lineFeed] && !o.has "b" then (byteLines bytes).reverse.flatten
      else (separated separator (o.has "b") (bytes.length + 1) [] bytes).reverse.flatten

end Stencil.Script
