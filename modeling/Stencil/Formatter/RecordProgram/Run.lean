/-
  Stencil.Formatter.RecordProgram.Run
  ───────────────────────────────────
  Running programs over records.

  Formulas give values and may change the sheet; actions change it and tell how
  the program goes on.  Functions may call themselves, so a run takes fuel; how
  many rounds a loop takes is counted apart.
-/
import Stencil.Formatter.RecordProgram.Reader
import Stencil.Formatter.RecordProgram.Sheet

namespace Stencil.Script

open Text (Byte)

/-! ## §1. Formats. -/

/-- Lay out a value as a directive asks for it. -/
def Directive.cell (d : Directive) (format : String) (c : Cell) : Option (List Byte) :=
  if d.kind = 's' then some (d.text (bytesOf (c.toText format)))
  else if d.kind = 'c' then
    some (d.padded (match c with
      | .number x => [UInt8.ofNat ((Decimal.truncated x) % 256).toNat]
      | c => if c.toText format = "" then [0] else (bytesOf (c.toText format)).take 1))
  else if "diuoxX".toList.contains d.kind then
    let x := c.toFloat
    some (if x.isFinite then d.integer (Decimal.truncated x)
      else d.padded (bytesOf (Cell.numberText format x)))
  else if "eEfFgG".toList.contains d.kind then some (d.real c.toFloat)
  else none

/-- A number in the place of each star of a directive, and the values that are
left. -/
def fillStars : List Char → List Cell → List Char × List Cell
  | [], args => ([], args)
  | c :: cs, args =>
      if c.isAlpha || c = '%' then (c :: cs, args)
      else if c = '*' then
        match args with
        | arg :: args =>
            let (more, left) := fillStars cs args
            ((toString (Decimal.truncated arg.toFloat)).toList ++ more, left)
        | [] => fillStars cs []
      else
        let (more, left) := fillStars cs args
        (c :: more, left)

/-- The bytes of a format filled from values; the flag tells whether there were
enough of them. -/
def formatCells (numbers : String) : Nat → List Char → List Cell → List Byte × Bool
  | 0, _, _ => ([], true)
  | _ + 1, [], _ => ([], true)
  | n + 1, '%' :: '%' :: cs, args =>
      let (more, whole) := formatCells numbers n cs args
      (37 :: more, whole)
  | n + 1, '%' :: cs, args =>
      let (filled, args) := fillStars cs args
      match directive? [] filled, args with
      | none, _ => (bytesOf "%", true)
      | some _, [] => ([], false)
      | some (d, used, _), arg :: args =>
          match d.cell numbers arg with
          | some bytes =>
              let (more, whole) := formatCells numbers n (filled.drop used) args
              (bytes ++ more, whole)
          | none => ([], false)
  | n + 1, c :: cs, args =>
      let (more, whole) := formatCells numbers n cs args
      (bytesOf c.toString ++ more, whole)

/-! ## §2. Functions on texts. -/

/-- A part of a text, from a position on and of a length, both rounded. -/
def textPart (text : String) (start : Float) (length : Option Float) : String :=
  let chars := text.toList
  let rounded (x : Float) : Int :=
    if x.isNaN then 0
    else Decimal.truncated (max (-1e9) (min 1e9 (x + 0.5)).floor)
  let low := rounded start
  let high : Int := match length with
    | some n => rounded (start + n)
    | none => chars.length + 1
  let first := (max low 1).toNat
  let last := (min high (chars.length + 1)).toNat
  String.ofList ((chars.drop (first - 1)).take (last - first))

/-- Where a text stands in another one, counted from one; zero if nowhere. -/
def indexOf (part : List Char) : Nat → List Char → Nat
  | n, [] => if part.isEmpty then n else 0
  | n, c :: cs => if part.isPrefixOf (c :: cs) then n else indexOf part (n + 1) cs

/-- What comes in the place of a match: an ampersand stands for the match, unless
a backslash is before it. -/
def replacedBy (found : List Byte) : List Char → List Byte
  | '\\' :: '\\' :: '&' :: cs => 92 :: found ++ replacedBy found cs
  | '\\' :: '&' :: cs => 38 :: replacedBy found cs
  | '&' :: cs => found ++ replacedBy found cs
  | c :: cs => UInt8.ofNat c.toNat :: replacedBy found cs
  | [] => []

/-- Replace the first match, or all of them; the number tells how many. -/
def replaceMatches (r : Regex) (s : Subject) (replacement : List Char) (all : Bool) :
    Nat → (position : Nat) → (touching : Bool) → List Byte × Nat
  | 0, position, _ => (s.slice position s.bytes.size, 0)
  | n + 1, position, touching =>
      match r.find? s position with
      | none => (s.slice position s.bytes.size, 0)
      | some m =>
          let before := s.slice position m.start
          let isEmpty := m.stop == m.start
          let skipped := isEmpty && touching && m.start == position
          let put := if skipped then [] else replacedBy (s.slice m.start m.stop) replacement
          let passed := if isEmpty then s.slice m.stop (m.stop + 1) else []
          let next := if isEmpty then m.stop + 1 else m.stop
          if !all then (before ++ put ++ s.slice m.stop s.bytes.size, 1)
          else if s.bytes.size < next then
            (before ++ put ++ passed, if skipped then 0 else 1)
          else
            let (rest, count) := replaceMatches r s replacement all n next (!isEmpty)
            (before ++ put ++ passed ++ rest, count + (if skipped then 0 else 1))

/-- A number and another one by an operator. -/
def operateOn (operator : String) (x y : Float) : Float :=
  match operator with
  | "+" => x + y
  | "-" => x - y
  | "*" => x * y
  | "/" => x / y
  | "^" => Float.pow x y
  | "%" =>
      -- what is left when the divisor is taken away as often as it goes
      if !x.isFinite || !y.isFinite || y == 0 then x / y - x / y
      else
        let a := Decimal.magnitude x
        let b := Decimal.magnitude y
        let low := min a.exponent b.exponent
        let whole (c : Decimal.Binary) : Nat :=
          c.mantissa * Nat.pow 2 (c.exponent - low).toNat
        let rest := Float.ofNat (whole a % whole b) * Float.pow 2 (Float.ofInt low)
        if Decimal.isSigned x then -rest else rest
  | _ => x

/-- Functions of one number. -/
def numberFunctions : List (String × (Float → Float)) :=
  [("int", fun x => if x.isFinite then Float.ofInt (Decimal.truncated x) else x),
   ("sqrt", Float.sqrt), ("exp", Float.exp), ("log", Float.log), ("sin", Float.sin),
   ("cos", Float.cos)]

/-! ## §3. Running. -/

/-- How a program goes on behind an action. -/
inductive Turn where
  /-- With what follows. -/
  | on
  /-- Behind the loop. -/
  | leave
  /-- With the next round of the loop. -/
  | again
  /-- With the next record. -/
  | next
  /-- Behind the function. -/
  | back
  /-- Not at all. -/
  | exit
  deriving Repr, DecidableEq

/-- A step of a program. -/
abbrev SheetStep := StateM Sheet

/-- Rounds of a loop. -/
def sheetRounds (condition : SheetStep Bool) (body step : SheetStep Turn) : Nat → SheetStep Turn
  | 0 => return .on
  | n + 1 => do
      if !(← condition) then return .on
      else
        match ← body with
        | .on | .again =>
            match ← step with
            | .on => sheetRounds condition body step n
            | stopped => return stopped
        | .leave => return .on
        | stopped => return stopped

/-- A round for each key. -/
def sheetEach (body : String → SheetStep Turn) : List String → SheetStep Turn
  | [] => return .on
  | key :: keys => do
      match ← body key with
      | .on | .again => sheetEach body keys
      | .leave => return .on
      | stopped => return stopped

/-- How many rounds a loop over records may take. -/
def sheetLimit : Nat := 1000000000

/-- End with a message. -/
def failSheet (message : String) : SheetStep Unit :=
  modify fun s => if s.failure.isSome then s else { s with failure := some message }

/-- End with a message about what was done with a record. -/
def failRunning (message : String) : SheetStep Unit := do
  let s ← get
  let number (name : String) : String := name ++ "=" ++ s.globalText name
  failSheet ("run time error: " ++ message ++ "\n\tFILENAME=\"" ++ s.globalText "FILENAME" ++ "\" "
    ++ number "FNR" ++ " " ++ number "NR")

/-- The bytes of a format filled from values. -/
def formatted (format : String) (cells : List Cell) : SheetStep (List Byte) := do
  let s ← get
  let (bytes, whole) := formatCells s.numberFormat (format.length + 1) format.toList cells
  if !whole then
    failRunning ("not enough arguments passed to printf(\"" ++ format ++ "\")")
  return bytes

mutual
/-- The value of a formula. -/
def cellOf (p : RecordProgram) : Nat → Formula → SheetStep Cell
  | 0, _ => return .unset
  | n + 1, formula => do
      match formula with
      | .number text => return .number (Decimal.readDouble text.toList).1
      | .text value => return .text value
      | .pattern source =>
          let s ← get
          return .ofBool ((recordRegex source).occursIn (Subject.ofBytes (bytesOf s.record)))
      | .named name => return (← get).valueOf name
      | .field index => return (← get).fieldAt (← fieldIndex p n index)
      | .element array keys =>
          let key ← keyOf p n keys
          let s ← get
          match (s.elements array).lookup key with
          | some c => return c
          | none =>
              set (s.withElement array key .unset)
              return .unset
      | .assign place operator value =>
          let c ← cellOf p n value
          let c ← if operator = "" then pure c
            else
              let old ← cellOf p n place
              pure (.number (operateOn operator old.toFloat c.toFloat))
          placeCell p n place c
          return c
      | .count place up before =>
          let old := (← cellOf p n place).toFloat
          let new := if up then old + 1 else old - 1
          placeCell p n place (.number new)
          return .number (if before then new else old)
      | .unary operator operand =>
          let c ← cellOf p n operand
          return match operator with
            | "!" => .ofBool (!c.holds)
            | "-" => .number (-c.toFloat)
            | _ => .number c.toFloat
      | .binary "&&" first second =>
          if (← cellOf p n first).holds then return .ofBool (← cellOf p n second).holds
          else return .ofBool false
      | .binary "||" first second =>
          if (← cellOf p n first).holds then return .ofBool true
          else return .ofBool (← cellOf p n second).holds
      | .binary operator first second =>
          let a ← cellOf p n first
          if operator = "~" || operator = "!~" then
            let r ← regexOf p n second
            let text := (← get).textFor a
            return .ofBool (r.occursIn (Subject.ofBytes (bytesOf text)) == (operator == "~"))
          else
            let b ← cellOf p n second
            let s ← get
            let order := a.order s.numberFormat b
            return match operator with
              | "" => .text (s.textFor a ++ s.textFor b)
              | "<" => .ofBool (order == some .lt)
              | "<=" => .ofBool (order == some .lt || order == some .eq)
              | ">" => .ofBool (order == some .gt)
              | ">=" => .ofBool (order == some .gt || order == some .eq)
              | "==" => .ofBool (order == some .eq)
              | "!=" => .ofBool (order != some .eq)
              | operator => .number (operateOn operator a.toFloat b.toFloat)
      | .choose condition yes no =>
          if (← cellOf p n condition).holds then cellOf p n yes else cellOf p n no
      | .has array keys =>
          let key ← keyOf p n keys
          return .ofBool (((← get).elements array).any fun (k, _) => k == key)
      | .call name args =>
          match p.functions.find? fun f => f.name == name with
          | some f => callRecordFunction p n f args
          | none => builtinCell p n name args
      | .getLine place fromScript source => getRecord p n place fromScript source

/-- The number of a field. -/
def fieldIndex (p : RecordProgram) : Nat → Formula → SheetStep Nat
  | 0, _ => return 0
  | n + 1, index => do
      let i := Decimal.truncated (← cellOf p n index).toFloat
      if i < 0 then failRunning ("negative field index $" ++ toString i)
      return i.toNat

/-- The key that formulas stand for. -/
def keyOf (p : RecordProgram) : Nat → List Formula → SheetStep String
  | 0, _ => return ""
  | n + 1, keys => do
      let texts ← textsOf p n keys
      return ((← get).globalText "SUBSEP").intercalate texts

/-- The texts of formulas. -/
def textsOf (p : RecordProgram) : Nat → List Formula → SheetStep (List String)
  | 0, _ => return []
  | n + 1, formulas => do
      let cells ← cellsOf p n formulas
      return cells.map (← get).textFor

/-- The values of formulas. -/
def cellsOf (p : RecordProgram) : Nat → List Formula → SheetStep (List Cell)
  | 0, _ => return []
  | n + 1, formulas => do
      match formulas with
      | [] => return []
      | formula :: rest =>
          let c ← cellOf p n formula
          return c :: (← cellsOf p n rest)

/-- The regular expression that a formula stands for. -/
def regexOf (p : RecordProgram) : Nat → Formula → SheetStep Regex
  | 0, _ => return .empty
  | n + 1, formula => do
      match formula with
      | .pattern source => return recordRegex source
      | formula =>
          let c ← cellOf p n formula
          return recordRegex ((← get).textFor c)

/-- Put a value in a place. -/
def placeCell (p : RecordProgram) : Nat → Formula → Cell → SheetStep Unit
  | 0, _, _ => return ()
  | n + 1, place, c => do
      match place with
      | .named name => modify (·.withValue name c)
      | .field index =>
          let i ← fieldIndex p n index
          modify (·.withField i c)
      | .element array keys =>
          let key ← keyOf p n keys
          modify (·.withElement array key c)
      | _ => return ()

/-- Read the next record: one more than zero if there is one. -/
def getRecord (p : RecordProgram) :
    Nat → Option Formula → Bool → Option Formula → SheetStep Cell
  | 0, _, _, _ => return .unset
  | n + 1, place, fromScript, source => do
      let store (record : String) : SheetStep Unit :=
        match place with
        | some place => placeCell p n place (.input record)
        | none => modify (·.withRecord record)
      match source with
      | none =>
          let (s, record) := (← get).nextRecord? sheetLimit
          set s
          match record with
          | some record =>
              store record
              return .number 1
          | none => return .number 0
      | some source =>
          let text := (← get).textFor (← cellOf p n source)
          let key : SideSource := if fromScript then .script text else .file text
          let s ← get
          let (s, found) := match s.besides.lookup key, key with
            | some bytes, _ => (s, some bytes)
            | none, .file path => (s, (s.call.read path).toOption)
            | none, .script script =>
                let (t, bytes) := s.openScript script
                (t, some bytes)
          let keep (bytes : List Byte) : SheetStep Unit :=
            set { s with besides := (key, bytes) :: s.besides.filter fun (k, _) => k != key }
          match found with
          | none => return .number (-1)
          | some [] =>
              keep []
              return .number 0
          | some bytes =>
              let (record, rest) := cutRecord (s.globalText "RS") bytes
              keep rest
              store (textOf record)
              return .number 1

/-- Call a function of the program. -/
def callRecordFunction (p : RecordProgram) : Nat → RecordFunction → List Formula → SheetStep Cell
  | 0, _, _ => return .unset
  | n + 1, f, args => do
      let before ← get
      let values ← cellsOf p n args
      let outer ← get
      let arrayFor (i : Nat) : String :=
        match args[i]? with
        | some (.named name) => before.arrayName name
        | _ => "\x00" ++ toString (outer.fresh + i)
      let locals := (f.params.zipIdx 0).map fun (name, i) =>
        (⟨name, arrayFor i, (values[i]?).getD .unset⟩ : LocalCell)
      set { outer with
        locals
        fresh := outer.fresh + f.params.length
        result := .unset }
      let _ ← enact p n f.body
      let after ← get
      set { after with locals := outer.locals, result := .unset }
      return after.result

/-- The value of a function that is there from the start. -/
def builtinCell (p : RecordProgram) : Nat → String → List Formula → SheetStep Cell
  | 0, _, _ => return .unset
  | n + 1, name, args => do
      match name, args with
      | "length", [] => return .number (Float.ofNat (← get).record.length)
      | "length", [.named array] =>
          let s ← get
          match s.arrays.lookup (s.arrayName array) with
          | some elements => return .number (Float.ofNat elements.length)
          | none => return .number (Float.ofNat (s.textFor (s.valueOf array)).length)
      | "length", arg :: _ =>
          let c ← cellOf p n arg
          return .number (Float.ofNat ((← get).textFor c).length)
      | "split", text :: .named array :: rest =>
          let c ← cellOf p n text
          let separator ← match rest with
            | [] => pure ((← get).globalText "FS")
            | .pattern source :: _ =>
                pure (if source.length = 1 && source ≠ " " then "(" ++ source ++ ")" else source)
            | formula :: _ =>
                let sep ← cellOf p n formula
                pure ((← get).textFor sep)
          let s ← get
          let pieces := cutText separator (s.textFor c)
          set (s.withElements array ((pieces.zipIdx 1).map fun (piece, i) =>
            (toString i, .input piece)))
          return .number (Float.ofNat pieces.length)
      | "match", text :: pattern :: _ =>
          let c ← cellOf p n text
          let r ← regexOf p n pattern
          let s ← get
          let (start, length) : Float × Float :=
            match r.find? (Subject.ofBytes (bytesOf (s.textFor c))) 0 with
            | some m => (Float.ofNat (m.start + 1), Float.ofNat (m.stop - m.start))
            | none => (0, -1)
          set ((s.withGlobal "RSTART" (.number start)).withGlobal "RLENGTH" (.number length))
          return .number start
      | "sub", pattern :: replacement :: rest => substituteCell p n false pattern replacement rest
      | "gsub", pattern :: replacement :: rest => substituteCell p n true pattern replacement rest
      | "sprintf", format :: rest =>
          let cells ← cellsOf p n rest
          let text ← cellOf p n format
          return .text (textOf (← formatted (textOf (bytesOf ((← get).textFor text))) cells))
      | "srand", _ => return .number 0
      | "rand", _ => return .number 0.5
      | "close", path :: _ =>
          let c ← cellOf p n path
          let (s, status) := (← get).close ((← get).textFor c)
          set s
          return .number (Float.ofInt status)
      | "fflush", _ =>
          modify Sheet.flush
          return .number 0
      | "system", script :: _ =>
          let c ← cellOf p n script
          let (s, status) := (← get).runBeside ((← get).textFor c)
          set s
          return .number (Float.ofNat (if 128 < status then status + 128 else status))
      | name, args =>
          let cells ← cellsOf p n args
          let s ← get
          let texts := cells.map s.textFor
          match numberFunctions.lookup name, name, cells, texts with
          | some f, _, c :: _, _ => return .number (f c.toFloat)
          | _, "atan2", [y, x], _ => return .number (Float.atan2 y.toFloat x.toFloat)
          | _, "substr", [_, start], text :: _ => return .text (textPart text start.toFloat none)
          | _, "substr", [_, start, length], text :: _ =>
              return .text (textPart text start.toFloat (some length.toFloat))
          | _, "index", _, [text, part] =>
              return .number (Float.ofNat (indexOf part.toList 1 text.toList))
          | _, "toupper", _, text :: _ =>
              return .text (String.ofList (text.toList.map Char.toUpper))
          | _, "tolower", _, text :: _ =>
              return .text (String.ofList (text.toList.map Char.toLower))
          | _, _, _, _ =>
              failSheet ("function " ++ name ++ " never defined")
              return .unset

/-- Replace matches in a place. -/
def substituteCell (p : RecordProgram) :
    Nat → Bool → Formula → Formula → List Formula → SheetStep Cell
  | 0, _, _, _, _ => return .unset
  | n + 1, all, pattern, replacement, rest => do
      let place := rest.headD (.field (.number "0"))
      let r ← regexOf p n pattern
      let put ← cellOf p n replacement
      let c ← cellOf p n place
      let s ← get
      let subject := Subject.ofBytes (bytesOf (s.textFor c))
      let (bytes, count) :=
        replaceMatches r subject (s.textFor put).toList all (subject.bytes.size + 2) 0 false
      if 0 < count then placeCell p n place (.text (textOf bytes))
      return .number (Float.ofNat count)

/-- Write bytes where an action says. -/
def putBytes (p : RecordProgram) : Nat → Option OutputPlace → List Byte → SheetStep Unit
  | 0, _, _ => return ()
  | n + 1, place, bytes => do
      match place with
      | none => modify (·.put .output bytes)
      | some place =>
          let c ← cellOf p n place.target
          modify fun s =>
            match place.kind with
            | .fresh => s.putTo (s.textFor c) false bytes
            | .behind => s.putTo (s.textFor c) true bytes
            | .script => s.putToScript (s.textFor c) bytes

/-- Do an action. -/
def enact (p : RecordProgram) : Nat → Action → SheetStep Turn
  | 0, _ => return .on
  | n + 1, action => do
      if (← get).failure.isSome then return .exit
      match action with
      | .nothing => return .on
      | .compute formula =>
          let _ ← cellOf p n formula
          return .on
      | .print values place =>
          let cells ← cellsOf p n values
          let s ← get
          let shown := s.globalText "OFMT"
          let texts := if values.isEmpty then [s.record] else cells.map (Cell.toText shown)
          putBytes p n place
            (bytesOf ((s.globalText "OFS").intercalate texts ++ s.globalText "ORS"))
          return .on
      | .format values place =>
          match ← cellsOf p n values with
          | [] => return .on
          | format :: cells =>
              putBytes p n place (← formatted ((← get).textFor format) cells)
              return .on
      | .sequence first second =>
          match ← enact p n first with
          | .on => enact p n second
          | stopped => return stopped
      | .branch condition yes no =>
          if (← cellOf p n condition).holds then enact p n yes else enact p n no
      | .loop condition body step =>
          sheetRounds (do return (← cellOf p n condition).holds && (← get).failure.isNone)
            (enact p n body) (enact p n step) sheetLimit
      | .doLoop body condition =>
          match ← enact p n body with
          | .on | .again =>
              sheetRounds (do return (← cellOf p n condition).holds && (← get).failure.isNone)
                (enact p n body) (return .on) sheetLimit
          | .leave => return .on
          | stopped => return stopped
      | .each name array body =>
          let keys := ((← get).elements array).map Prod.fst
          sheetEach (fun key => do
            modify (·.withValue name (.input key))
            enact p n body) keys
      | .leave => return .leave
      | .again => return .again
      | .next => return .next
      | .nextFile =>
          modify fun s => { s with input := some [] }
          return .next
      | .exit status =>
          match status with
          | some formula =>
              let c ← cellOf p n formula
              modify fun s => { s with status := (Decimal.truncated c.toFloat % 256).toNat }
          | none => pure ()
          return .exit
      | .back value =>
          match value with
          | some formula =>
              let c ← cellOf p n formula
              modify fun s => { s with result := c }
          | none => pure ()
          return .back
      | .delete array keys =>
          if keys.isEmpty then modify (·.withElements array [])
          else
            let key ← keyOf p n keys
            modify fun s =>
              s.withElements array ((s.elements array).filter fun (k, _) => k != key)
          return .on
end

/-! ## §4. Programs. -/

/-- How deep formulas, actions and functions may be nested. -/
def recordFuel : Nat := 10000

/-- Is a rule's action to be done for the record? -/
def ruleHolds (p : RecordProgram) (rule : Rule) : SheetStep Bool := do
  let test (formula : Formula) : SheetStep Bool :=
    return (← cellOf p recordFuel formula).holds
  match rule.pattern with
  | .first | .last => return false
  | .always => return true
  | .holds formula => test formula
  | .range start stop =>
      if !(← get).ranges.contains rule.number then
        if !(← test start) then return false
        modify fun s => { s with ranges := rule.number :: s.ranges }
      if ← test stop then
        modify fun s => { s with ranges := s.ranges.filter (· != rule.number) }
      return true

/-- Do the actions of rules one after the other. -/
def enactRules (p : RecordProgram) (due : Rule → SheetStep Bool) :
    List Rule → SheetStep Turn
  | [] => return .on
  | rule :: rules => do
      if ← due rule then
        match ← enact p recordFuel rule.action with
        | .exit => return .exit
        | .next => return .next
        | _ => enactRules p due rules
      else enactRules p due rules

/-- Go through the records. -/
def enactRecords (p : RecordProgram) : Nat → SheetStep Turn
  | 0 => return .on
  | n + 1 => do
      let (s, record) := (← get).nextRecord? sheetLimit
      set s
      match record with
      | none => return .on
      | some record =>
          modify (·.withRecord record)
          match ← enactRules p (ruleHolds p) p.rules with
          | .exit => return .exit
          | _ => enactRecords p n

/-- Run a program. -/
def RecordProgram.run (p : RecordProgram) : SheetStep Unit := do
  let isFirst (rule : Rule) : Bool := match rule.pattern with
    | .first => true
    | _ => false
  let isLast (rule : Rule) : Bool := match rule.pattern with
    | .last => true
    | _ => false
  let turn ← enactRules p (fun rule => return isFirst rule) p.rules
  let turn ← if turn = .exit || p.rules.all isFirst then pure turn
    else enactRecords p sheetLimit
  let _ := turn
  if (← get).failure.isNone then
    let _ ← enactRules p (fun rule => return isLast rule) p.rules
  modify Sheet.finished

end Stencil.Script
