/-
  Stencil.Formatter.Command.Order
  ───────────────────────────────
  Lines in order.

  `sort` puts lines in order, by the whole line or by fields of it, and `uniq`
  makes one of lines that repeat.  Keys are compared as bytes, as numbers of
  several kinds, as names of months, or as versions, in which digits count as
  numbers and all else as bytes.
-/
import Stencil.Formatter.Command.Layout

namespace Stencil.Script

open Text (Byte)

/-! ## §1. Comparing. -/

/-- What keys are compared as. -/
inductive KeyKind where
  /-- Bytes. -/
  | plain
  /-- Decimal numbers. -/
  | numeric
  /-- Numbers with exponents. -/
  | general
  /-- Decimal numbers with the letter of a unit. -/
  | human
  /-- Names of months. -/
  | month
  /-- Versions. -/
  | version
  deriving Repr, DecidableEq

/-- The order of bytes. -/
def compareBytes : List Byte → List Byte → Ordering
  | [], [] => .eq
  | [], _ :: _ => .lt
  | _ :: _, [] => .gt
  | a :: as, b :: bs => if a < b then .lt else if b < a then .gt else compareBytes as bs

/-- Is the byte a digit? -/
def isDigitByte (b : Byte) : Bool := 48 ≤ b && b ≤ 57

/-- Is the byte a letter? -/
def isLetterByte (b : Byte) : Bool := (65 ≤ b && b ≤ 90) || (97 ≤ b && b ≤ 122)

/-- A capital letter for a small one. -/
def raisedByte (b : Byte) : Byte := if 97 ≤ b && b ≤ 122 then b - 32 else b

/-- The number at the start of a text: its sign, the digits before the point and
those behind it. -/
def decimalStart (text : List Byte) : Bool × List Byte × List Byte :=
  let text := text.dropWhile fun b => isBlankByte b || b == lineFeed
  let (negative, text) := match text with
    | 45 :: rest => (true, rest)
    | rest => (false, rest)
  let whole := text.takeWhile isDigitByte
  let places := match text.drop whole.length with
    | 46 :: rest => rest.takeWhile isDigitByte
    | _ => []
  (negative, whole, places)

/-- The order of the decimal numbers that texts start with. -/
def compareDecimals (a b : List Byte) : Ordering :=
  let value (text : List Byte) : Bool × Nat × List Byte :=
    let (negative, whole, places) := decimalStart text
    let n := whole.foldl (fun n d => 10 * n + (d.toNat - 48)) 0
    let fraction := (places.reverse.dropWhile (· == 48)).reverse
    (negative && (n != 0 || !fraction.isEmpty), n, fraction)
  let (minusA, wholeA, placesA) := value a
  let (minusB, wholeB, placesB) := value b
  let sizes := (compare wholeA wholeB).then (compareBytes placesA placesB)
  match minusA, minusB with
  | false, false => sizes
  | true, true => sizes.swap
  | true, false => .lt
  | false, true => .gt

/-- The power of the unit behind a number, with the sign of the number. -/
def unitOrder (text : List Byte) : Int :=
  let (negative, whole, places) := decimalStart text
  let start := text.dropWhile fun b => isBlankByte b || b == lineFeed
  let behind := start.drop (whole.length + (if negative then 1 else 0))
  let point := if behind.head? = some 46 then 1 else 0
  let used := (if negative then 1 else 0) + whole.length + point + places.length
  let unit := (start.drop used).head?.bind fun b =>
    if b = 109 || b = 103 || b = 116 then none else unitPower? (Char.ofNat b.toNat)
  if (whole ++ places).all (· == 48) then 0
  else if negative then -((unit.getD 0 : Nat) : Int) else (unit.getD 0 : Nat)

/-- The number of the month that a text starts with; zero if there is none. -/
def monthNumber (text : List Byte) : Nat :=
  let name := ((text.dropWhile isBlankByte).take 3).map raisedByte
  match ["JAN", "FEB", "MAR", "APR", "MAY", "JUN", "JUL", "AUG", "SEP", "OCT", "NOV",
      "DEC"].findIdx? fun m => bytesOf m == name with
  | some n => n + 1
  | none => 0

/-- The order of the numbers with exponents that texts start with; what is no
number comes first, and then what is none although it looks like one. -/
def compareReals (a b : List Byte) : Ordering :=
  let value (text : List Byte) : Option Float :=
    let cs := (textOf (text.dropWhile isBlankByte)).toList
    let (x, used) := Decimal.readDouble cs
    if used = 0 then none else some x
  match value a, value b with
  | none, none => .eq
  | none, some _ => .lt
  | some _, none => .gt
  | some x, some y =>
      if x < y then .lt else if y < x then .gt else if x == y then .eq
      else if x.isNaN && !y.isNaN then .lt else if !x.isNaN && y.isNaN then .gt else .eq

/-- The place of a byte in the order of versions. -/
def versionRank : Option Byte → Int
  | none => -1
  | some b =>
      if isDigitByte b then 0
      else if isLetterByte b then b.toNat
      else if b = 126 then -2
      else b.toNat + 256

/-- The order of the parts of versions, one after the other. -/
def compareParts : Nat → List Byte → List Byte → Ordering
  | 0, _, _ => .eq
  | n + 1, a, b =>
      let wordy (x : List Byte) : Bool := x.head?.any fun c => !isDigitByte c
      if a.isEmpty && b.isEmpty then .eq
      else if wordy a || wordy b then
        (compare (versionRank a.head?) (versionRank b.head?)).then (compareParts n a.tail b.tail)
      else
        let x := (a.dropWhile (· == 48)).takeWhile isDigitByte
        let y := (b.dropWhile (· == 48)).takeWhile isDigitByte
        ((compare x.length y.length).then (compareBytes x y)).then
          (compareParts n (a.dropWhile isDigitByte) (b.dropWhile isDigitByte))

/-- How much of a name is left without its endings. -/
def stemLength (name : List Byte) : Nat → Nat → Nat → Nat
  | 0, _, stem => stem
  | n + 1, i, stem =>
      let rest := name.drop i
      match rest with
      | [] => stem
      | _ :: rest =>
          let rec endings : Nat → List Byte → Nat → Nat
            | 0, _, used => used
            | k + 1, rest, used =>
                match rest with
                | 46 :: b :: more =>
                    if isLetterByte b || b == 126 then
                      let word := more.takeWhile fun c =>
                        isLetterByte c || isDigitByte c || c == 126
                      endings k (more.drop word.length) (used + 2 + word.length)
                    else used
                | _ => used
          stemLength name n (i + 1 + endings rest.length rest 0) (i + 1)

/-- The order of versions. -/
def compareVersions (a b : List Byte) : Ordering :=
  let special (x : List Byte) : Nat :=
    if x.isEmpty then 0 else if x = [46] then 1 else if x = [46, 46] then 2
    else if x.head? = some 46 then 3 else 4
  let fuel := a.length + b.length + 1
  (compare (special a) (special b)).then
    ((compareParts fuel (a.take (stemLength a fuel 0 0)) (b.take (stemLength b fuel 0 0))).then
      (compareParts fuel a b))

/-! ## §2. Keys. -/

/-- How keys are compared. -/
structure KeyOrder where
  /-- As what. -/
  kind : KeyKind
  /-- The other way round? -/
  reversed : Bool
  /-- Are letters the same in both cases? -/
  foldsCase : Bool
  /-- Do only blanks, letters and digits count? -/
  dictionary : Bool
  /-- Do only bytes count that can be seen? -/
  visible : Bool
  /-- Do blanks at the start not count? -/
  skipsStart : Bool
  /-- Do blanks before the end not count? -/
  skipsEnd : Bool
  deriving Repr, DecidableEq

/-- The plain order. -/
def KeyOrder.plain : KeyOrder := ⟨.plain, false, false, false, false, false, false⟩

/-- The order with what a letter asks for, at the start or the end of a key. -/
def KeyOrder.with? (k : KeyOrder) (start stop : Bool) : Char → Option KeyOrder
  | 'b' => some { k with skipsStart := k.skipsStart || start, skipsEnd := k.skipsEnd || stop }
  | 'd' => some { k with dictionary := true }
  | 'f' => some { k with foldsCase := true }
  | 'g' => some { k with kind := .general }
  | 'h' => some { k with kind := .human }
  | 'i' => some { k with visible := true }
  | 'M' => some { k with kind := .month }
  | 'n' => some { k with kind := .numeric }
  | 'r' => some { k with reversed := true }
  | 'R' => some k
  | 'V' => some { k with kind := .version }
  | _ => none

/-- Compare two keys. -/
def KeyOrder.compare (k : KeyOrder) (a b : List Byte) : Ordering :=
  let counts (b : Byte) : Bool :=
    if k.dictionary then isBlankByte b || isLetterByte b || isDigitByte b
    else !k.visible || (32 ≤ b && b ≤ 126)
  let plain (text : List Byte) : List Byte :=
    let text := if k.dictionary || k.visible then text.filter counts else text
    if k.foldsCase then text.map raisedByte else text
  let found := match k.kind with
    | .plain => compareBytes (plain a) (plain b)
    | .numeric => compareDecimals a b
    | .general => compareReals a b
    | .human => (Ord.compare (unitOrder a) (unitOrder b)).then (compareDecimals a b)
    | .month => Ord.compare (monthNumber a) (monthNumber b)
    | .version => compareVersions (plain a) (plain b)
  if k.reversed then found.swap else found

/-- A part of a line that counts for its order. -/
structure SortKey where
  /-- How many fields come before it, and how many bytes of its own field. -/
  start : Nat × Nat
  /-- How many fields it ends behind, and how many bytes behind those; without it,
  at the end of the line. -/
  stop : Option (Nat × Nat)
  /-- How such keys are compared. -/
  order : KeyOrder
  deriving Repr, DecidableEq

/-- What is behind so many fields; `whole` tells whether the byte that ends the
last of them belongs to it. -/
def behindFields (separator : Option Byte) (whole : Bool) : Nat → List Byte → List Byte
  | 0, line => line
  | n + 1, line =>
      match separator with
      | some b =>
          let rest := line.dropWhile (· != b)
          behindFields separator whole n (if n = 0 && !whole then rest else rest.tail)
      | none =>
          behindFields separator whole n
            ((line.dropWhile isBlankByte).dropWhile fun b => !isBlankByte b)

/-- The bytes of a line that a key takes. -/
def SortKey.bytes (k : SortKey) (separator : Option Byte) (line : List Byte) : List Byte :=
  let skip (skips : Bool) (rest : List Byte) : List Byte :=
    if skips then rest.dropWhile isBlankByte else rest
  let (field, byte) := k.start
  let from_ := (skip k.order.skipsStart (behindFields separator true field line)).drop byte
  let start := line.length - from_.length
  let stop := match k.stop with
    | none => line.length
    | some (field, 0) => line.length - (behindFields separator false field line).length
    | some (field, byte) =>
        let rest := skip k.order.skipsEnd (behindFields separator true field line)
        line.length - (rest.drop byte).length
  from_.take (stop - start)

/-- A key, as it is written. -/
def SortKey.ofText (others : KeyOrder) (text : String) : Except String SortKey := do
  let bad (why : String) : String := why ++ ": invalid field specification " ++ quotedArg text
  let number (place : String) (cs : List Char) : Except String (Nat × List Char) :=
    let digits := cs.takeWhile Char.isDigit
    if digits.isEmpty then
      throw ("invalid number " ++ place ++ ": invalid count at start of "
        ++ quotedArg (String.ofList cs))
    else return ((readDigits 10 digits).1, cs.drop digits.length)
  let ordered (start stop : Bool) (k : KeyOrder) (cs : List Char) : KeyOrder × List Char :=
    let letters := cs.takeWhile fun c => (KeyOrder.plain.with? start stop c).isSome
    (letters.foldl (fun k c => (k.with? start stop c).getD k) k, cs.drop letters.length)
  let (field, rest) ← number "at field start" text.toList
  if field = 0 then throw (bad "field number is zero")
  let (byte, rest) ← match rest with
    | '.' :: rest => do
        let (n, rest) ← number "after '.'" rest
        if n = 0 then throw (bad "character offset is zero")
        pure (n - 1, rest)
    | rest => pure (0, rest)
  let (own, rest) := ordered true false .plain rest
  let (stop, own, rest) ← match rest with
    | ',' :: rest => do
        let (last, rest) ← number "after ','" rest
        if last = 0 then throw (bad "field number is zero")
        let (n, rest) ← match rest with
          | '.' :: rest => number "after '.'" rest
          | rest => pure (0, rest)
        let (own, rest) := ordered false true own rest
        pure (some (if n = 0 then (last, 0) else (last - 1, n)), own, rest)
    | rest => pure (none, own, rest)
  if !rest.isEmpty then throw (bad "stray character in field spec")
  return ⟨(field - 1, byte), stop, if own = .plain then others else own⟩

/-- Compare two lines by keys, and then by themselves unless equal keys are all
that counts. -/
def compareLines (keys : List SortKey) (separator : Option Byte) (reversed lastResort : Bool)
    (a b : List Byte) : Ordering :=
  let byKeys := keys.foldl
    (fun found k => found.then (k.order.compare (k.bytes separator a) (k.bytes separator b))) .eq
  if keys.isEmpty || lastResort then
    byKeys.then (if reversed then (compareBytes a b).swap else compareBytes a b)
  else byKeys

/-! ## §3. Sorting. -/

/-- Lines, of each run of equal ones only the first. -/
def firstOfRuns (same : List Byte → List Byte → Bool) : List (List Byte) → List (List Byte)
  | a :: b :: rest =>
      if same a b then firstOfRuns same (a :: rest) else a :: firstOfRuns same (b :: rest)
  | lines => lines
termination_by lines => lines.length

/-- The first line that is out of order, with its number. -/
def firstDisorder? (disorder : List Byte → List Byte → Bool) (n : Nat) :
    List (List Byte) → Option (Nat × List Byte)
  | a :: b :: rest =>
      if disorder a b then some (n + 1, b) else firstDisorder? disorder (n + 1) (b :: rest)
  | _ => none

/-- Two rows of lines as one; of equal lines those of the first come first. -/
def mergeLines (order : List Byte → List Byte → Ordering) :
    List (List Byte) → List (List Byte) → List (List Byte)
  | [], bs => bs
  | as, [] => as
  | a :: as, b :: bs =>
      if order a b == .gt then b :: mergeLines order (a :: as) bs
      else a :: mergeLines order as (b :: bs)

/-- The options of `sort`. -/
def sortOptions : List Known :=
  [flag "b" "ignore-leading-blanks", flag "d" "dictionary-order", flag "f" "ignore-case",
   flag "g" "general-numeric-sort", flag "i" "ignore-nonprinting", flag "M" "month-sort",
   flag "h" "human-numeric-sort", flag "n" "numeric-sort", flag "R" "random-sort",
   flag "r" "reverse", valued "" "sort", flag "V" "version-sort", valued "" "batch-size",
   optional "" "check", flag "c" "", flag "C" "", valued "" "compress-program", flag "" "debug",
   valued "" "files0-from", valued "k" "key", flag "m" "merge", valued "o" "output",
   flag "s" "stable", valued "S" "buffer-size", valued "t" "field-separator",
   valued "T" "temporary-directory", valued "" "parallel", valued "" "random-source",
   flag "u" "unique", flag "z" "zero-terminated"]

/-- What is asked of a sort. -/
structure SortPlan where
  /-- The order of lines. -/
  order : List Byte → List Byte → Ordering
  /-- Does each line come once? -/
  once : Bool
  /-- Is the order only checked?  Then true says that a message is wanted. -/
  checks : Option Bool
  /-- Are the inputs in order already? -/
  merges : Bool
  /-- The byte that ends a line. -/
  ending : Byte

/-- The byte that separates fields. -/
def sortSeparator (o : Options) : Except String (Option Byte) :=
  match o.value? "t" with
  | none => .ok none
  | some text =>
      match bytesOf text with
      | [] => .error "empty tab"
      | [b] => .ok (some b)
      | [92, 48] => .ok (some 0)
      | _ => .error ("multi-character tab " ++ quotedArg text)

/-- The letter that a word for an order stands for. -/
def sortWords : List (List String × Char) :=
  [(["general-numeric"], 'g'), (["human-numeric"], 'h'), (["month"], 'M'), (["numeric"], 'n'),
   (["random"], 'R'), (["version"], 'V')]

/-- The orders that cannot be had at once, in words. -/
def clash? (letters : List Char) : Option String :=
  let found := "dghiMnRV".toList.filter letters.contains
  let kinds := found.filter "ghMn".toList.contains
  let others := if found.length > kinds.length then 1 else 0
  if 1 < kinds.length + others then
    some ("options '-" ++ String.ofList found ++ "' are incompatible")
  else none

/-- The words that are chosen by options: orders, and ways to check. -/
def sortChoices (o : Options) : Except String (List String × List String) := do
  let named ← (o.values "sort").mapM fun text =>
    chooseWord "--sort" text (sortWords.map Prod.fst)
  let checked ← (o.values "check").mapM fun text =>
    if text = "" then .ok "diagnose-first"
    else chooseWord "--check" text [["quiet", "silent"], ["diagnose-first"]]
  return (named, checked)

/-- What options and the words they choose ask of a sort. -/
def SortPlan.ofOptions (o : Options) (named checked : List String) : Except String SortPlan := do
  let letters := (o.flags.flatMap fun (n, _) => if n.length = 1 then n.toList else [])
    ++ named.filterMap fun word =>
      (sortWords.find? fun (names, _) => names.contains word).map Prod.snd
  if let some message := clash? letters then throw message
  let whole := letters.foldl (fun k c => (k.with? true true c).getD k) KeyOrder.plain
  let given ← (o.values "k").mapM (SortKey.ofText whole)
  let separator ← sortSeparator o
  let keys := if given.isEmpty && { whole with reversed := false } ≠ .plain then
      [⟨(0, 0), none, whole⟩] else given
  let checks := if o.has "C" || checked.contains "quiet" then some false
    else if o.has "c" || checked.contains "diagnose-first" then some true
    else none
  return {
    order := compareLines keys separator whole.reversed (!(o.has "u" || o.has "s"))
    once := o.has "u"
    checks
    merges := o.has "m"
    ending := if o.has "z" then 0 else lineFeed }

/-- Lines in order. -/
def SortPlan.arranged (p : SortPlan) (inputs : List (List Byte)) : List (List Byte) :=
  let rows := inputs.map (bodiesBy p.ending)
  let all := if p.merges then rows.foldl (mergeLines p.order) []
    else rows.flatten.mergeSort fun a b => p.order a b != .gt
  if p.once then firstOfRuns (fun a b => p.order a b == .eq) all else all

/-- Put the lines of files in order, as a plan says. -/
def SortPlan.run (plan : SortPlan) (o : Options) (c : Call) : Except String Result := do
  let found := c.contents o.operands
  let trouble := found.findSome? fun (name, content) =>
    match content with
    | .ok _ => none
    | .error .isDirectory => some ("read failed: " ++ scriptArg name ++ ": Is a directory")
    | .error failure => some ("cannot read: " ++ scriptArg name ++ ": " ++ failure.text)
  if let some message := trouble then throw message
  let inputs := found.map fun (_, content) => content.toOption.getD []
  let after (status : Nat) (written : List (Channel × List Byte)) : Result :=
    ⟨status, written, c.leftOver o.operands, c.tree⟩
  match plan.checks with
  | some loud =>
      match o.operands with
      | _ :: extra :: _ =>
          throw ("extra operand " ++ quotedArg extra ++ " not allowed with -"
            ++ (if loud then "c" else "C"))
      | _ =>
          let disorder (a b : List Byte) : Bool :=
            plan.order a b == .gt || (plan.once && plan.order a b == .eq)
          match firstDisorder? disorder 1 (bodiesBy plan.ending (inputs.headD [])) with
          | none => return after 0 []
          | some (n, line) =>
              let message := c.name ++ ": " ++ (o.operands.headD "-") ++ ":" ++ toString n
                ++ ": disorder: " ++ textOf line ++ "\n"
              return after 1 (if loud then [(.errors, bytesOf message)] else [])
  | none =>
      let output := endAll plan.ending (plan.arranged inputs)
      match o.value? "o" with
      | none => return after 0 [(.output, output)]
      | some path =>
          match c.store c.tree path output with
          | .ok tree => return { after 0 [] with tree }
          | .error failure => throw ("open failed: " ++ path ++ ": " ++ failure.text)

/-- Put the lines in order. -/
def sort : Command :=
  withOptions sortOptions 2 fun o c =>
    match sortChoices o with
    | .error message => c.misuse 1 message
    | .ok (named, checked) => c.orFail 2 ((SortPlan.ofOptions o named checked).bind (·.run o c))

/-! ## §4. Repeated lines. -/

/-- Runs of lines that are the same. -/
def runsOf (same : List Byte → List Byte → Bool) : List (List Byte) → List (List (List Byte))
  | [] => []
  | a :: rest =>
      match runsOf same rest with
      | (b :: more) :: runs =>
          if same a b then (a :: b :: more) :: runs else [a] :: (b :: more) :: runs
      | runs => [a] :: runs

/-- The options of `uniq`. -/
def uniqOptions : List Known :=
  [flag "c" "count", flag "d" "repeated", optional "" "all-repeated", flag "D" "",
   valued "f" "skip-fields", optional "" "group", flag "i" "ignore-case", valued "s" "skip-chars",
   flag "u" "unique", flag "z" "zero-terminated", valued "w" "check-chars"]

/-- What counts of a line: not its first fields and bytes, and only so many of
the others. -/
def uniqKey (fields bytes : Nat) (limit : Option Nat) (folds : Bool) (line : List Byte) :
    List Byte :=
  let line := (behindFields none true fields line).drop bytes
  let line := match limit with
    | some n => line.take n
    | none => line
  if folds then line.map raisedByte else line

/-- Groups with empty lines around them. -/
def spacedGroups (method : String) (ending : Byte) (groups : List (List (List Byte))) :
    List Byte :=
  let texts := groups.map (endAll ending)
  let between := joinBytes [ending] texts
  if texts.isEmpty then []
  else
    (if method = "prepend" || method = "both" then [ending] else []) ++ between
      ++ (if method = "append" || method = "both" then [ending] else [])

/-- A number behind a hyphen is a number of fields, and one behind a plus a number
of bytes. -/
def plainSkips (args : List String) : List String :=
  args.flatMap fun arg =>
    match arg.toList with
    | sign :: c :: cs =>
        if (sign = '-' || sign = '+') && (c :: cs).all Char.isDigit then
          [if sign = '-' then "-f" else "-s", String.ofList (c :: cs)]
        else [arg]
    | _ => [arg]

/-- Make one of lines that repeat. -/
def uniq : Command := fun c =>
  let run := withOptions uniqOptions 1 fun o c => c.orFail 1 do
    let number (name what : String) : Except String (Option Nat) :=
      match o.value? name with
      | none => .ok none
      | some text =>
          match readSize [] text with
          | .ok n => .ok (some n)
          | .error _ => .error (text ++ ": invalid number of " ++ what)
    let fields ← number "f" "fields to skip"
    let bytes ← number "s" "bytes to skip"
    let limit ← number "w" "bytes to compare"
    let word (option text : String) (groups : List (List String)) : Except String String :=
      (chooseWord option text groups).mapError (· ++ c.hint)
    let group ← match o.value? "group" with
      | none => pure none
      | some "" => pure (some "separate")
      | some text =>
          (word "--group" text [["prepend"], ["append"], ["separate"], ["both"]]).map some
    let all ← match o.last? ["all-repeated", "D"] with
      | none => pure none
      | some (_, "") => pure (some "none")
      | some (_, text) =>
          (word "--all-repeated" text [["none"], ["prepend"], ["separate"]]).map some
    if group.isSome && (o.has "c" || o.has "d" || o.has "u" || all.isSome) then
      throw ("--group is mutually exclusive with -c/-d/-D/-u" ++ c.hint)
    if all.isSome && o.has "c" then
      throw ("printing all duplicated lines and repeat counts is meaningless" ++ c.hint)
    if let _ :: _ :: extra :: _ := o.operands then
      throw ("extra operand " ++ quotedArg extra ++ c.hint)
    let key := uniqKey (fields.getD 0) (bytes.getD 0) limit (o.has "i")
    let ending : Byte := if o.has "z" then 0 else lineFeed
    let shown (input : List Byte) : List Byte :=
      let runs := runsOf (fun a b => key a == key b) (bodiesBy ending input)
      let repeated := runs.filter fun run => 1 < run.length
      match group, all with
      | some method, _ => spacedGroups method ending runs
      | none, some "none" => endAll ending repeated.flatten
      | none, some method => spacedGroups method ending repeated
      | none, none =>
          endAll ending (runs.filterMap fun run =>
            let single := run.length == 1
            if (o.has "d" && single) || (o.has "u" && !single) then none
            else if o.has "c" then
              some (bytesOf (rightAligned 7 (toString run.length) ++ " ") ++ run.headD [])
            else run.head?)
    let r := c.together (o.operands.take 1) shown
    match o.operands, r.status with
    | [_, path], 0 =>
        if path = "-" then return r
        let output := r.written.flatMap Prod.snd
        match c.store c.tree path output with
        | .ok tree => return { r with written := [], tree }
        | .error failure => throw (path ++ ": " ++ failure.text)
    | _, 0 => return r
    | _, _ => return { r with written := r.written.filter fun (k, _) => k = .errors }
  run { c with args := plainSkips c.args }

end Stencil.Script
