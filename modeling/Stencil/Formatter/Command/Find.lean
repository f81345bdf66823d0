/-
  Stencil.Formatter.Command.Find
  ──────────────────────────────
  Going through directories.

  `find` looks at places and at all that is below them, and does for each what
  an expression asks for: tests come one after the other, and what is told or
  called behind them happens if they hold.
-/
import Stencil.Formatter.Command.Amount
import Stencil.Formatter.Command.FileWork
import Stencil.Formatter.NamePattern

namespace Stencil.Script

open Text (Byte)

/-! ## §1. Expressions. -/

/-- Something that is there. -/
structure FoundPlace where
  /-- Its path, from the place where the search started. -/
  path : String
  /-- Its own name. -/
  name : String
  /-- How far it is below the start. -/
  depth : Nat
  /-- Is it a directory? -/
  isDirectory : Bool
  /-- How many bytes it has. -/
  size : Nat
  /-- Is nothing in it? -/
  isEmpty : Bool

/-- What is done about something that was found. -/
inductive FindAct where
  /-- Something is written. -/
  | tell (bytes : List Byte)
  /-- A call is made. -/
  | call (words : List String)
  /-- A call is made at the end, with all paths behind its words. -/
  | gather (words : List String) (path : String)
  /-- It goes. -/
  | remove (path : String)
  deriving Repr, DecidableEq

/-- An expression. -/
inductive FindTest where
  /-- Always. -/
  | always
  /-- Never. -/
  | never
  /-- If the name fits a pattern. -/
  | named (pattern : String) (folds : Bool)
  /-- If the path fits a pattern. -/
  | placed (pattern : String)
  /-- If it is of a type. -/
  | typed (letter : Char)
  /-- If nothing is in it. -/
  | empty
  /-- If its size in units compares so. -/
  | sized (sign : Option Char) (count unit : Nat)
  /-- Nothing below it is looked at. -/
  | prune
  /-- Its path is written, with a byte behind. -/
  | print (ending : Byte)
  /-- A call is made for it, or one for all. -/
  | exec (words : List String) (together : Bool)
  /-- It goes. -/
  | delete
  /-- If another one does not hold. -/
  | not (test : FindTest)
  /-- If both hold. -/
  | and (left right : FindTest)
  /-- If one of them holds. -/
  | or (left right : FindTest)
  deriving Repr, DecidableEq

namespace FindTest

/-- Does the expression say itself what is done? -/
def acts : FindTest → Bool
  | print _ | exec _ _ | delete => true
  | not test => test.acts
  | and left right | or left right => left.acts || right.acts
  | _ => false

/-- Does it hold, and what is done?  The last part tells whether nothing below is
looked at. -/
def check (f : FoundPlace) : FindTest → Bool × List FindAct × Bool
  | always => (true, [], false)
  | never => (false, [], false)
  | named pattern folds =>
      let lower (s : String) : String := if folds then s.toLower else s
      (fitsPattern (lower f.name) (lower pattern), [], false)
  | placed pattern => (fitsPattern f.path pattern, [], false)
  | typed letter => (letter = (if f.isDirectory then 'd' else 'f'), [], false)
  | empty => (f.isEmpty, [], false)
  | sized sign count unit =>
      let n := (f.size + unit - 1) / unit
      (match sign with
        | some '+' => decide (count < n)
        | some _ => decide (n < count)
        | none => n == count, [], false)
  | prune => (true, [], true)
  | print ending => (true, [.tell (bytesOf f.path ++ [ending])], false)
  | exec words together =>
      (true, [if together then .gather words f.path
        else .call (words.map (fillMark "\x7b\x7d" f.path))], false)
  | delete => (true, [.remove f.path], false)
  | not test =>
      let (holds, acts, stops) := test.check f
      (!holds, acts, stops)
  | and left right =>
      let (holds, acts, stops) := left.check f
      if !holds then (false, acts, stops)
      else
        let (also, more, ends) := right.check f
        (also, acts ++ more, stops || ends)
  | or left right =>
      let (holds, acts, stops) := left.check f
      if holds then (true, acts, stops)
      else
        let (also, more, ends) := right.check f
        (also, acts ++ more, stops || ends)

end FindTest

/-! ## §2. Reading expressions. -/

/-- How deep a search goes, and whether what is below comes first. -/
structure FindRange where
  /-- From so deep on. -/
  from_ : Nat
  /-- Down to so deep. -/
  upTo : Nat
  /-- Does what is below come first? -/
  below : Bool

/-- The words of a call up to its end, and whether one call is made for all. -/
def execWords : List String → Option (List String × Bool × List String)
  | [] => none
  | ";" :: rest => some ([], false, rest)
  | "\x7b\x7d" :: "+" :: rest => some ([], true, rest)
  | word :: rest =>
      (execWords rest).map fun (words, together, left) => (word :: words, together, left)

/-- A size as it is written: a sign, a number and a unit. -/
def sizeTest? (text : String) : Option FindTest :=
  let (sign, cs) := match text.toList with
    | '+' :: cs => (some '+', cs)
    | '-' :: cs => (some '-', cs)
    | cs => (none, cs)
  let digits := cs.takeWhile Char.isDigit
  let units := [("", 512), ("b", 512), ("c", 1), ("w", 2), ("k", 1024), ("M", 1048576),
    ("G", 1073741824)]
  match digits, units.lookup (String.ofList (cs.drop digits.length)) with
  | [], _ | _, none => none
  | _, some unit => some (.sized sign (readDigits 10 digits).1 unit)

/-- Read a single test; `none` if there is none. -/
def findPrimary? (words : List String) :
    Option (Except String (FindTest × List String)) :=
  let lacks (name : String) : Except String (FindTest × List String) :=
    .error ("missing argument to \x60" ++ name ++ "'")
  match words with
  | [] => none
  | "-true" :: rest => some (.ok (.always, rest))
  | "-false" :: rest => some (.ok (.never, rest))
  | "-empty" :: rest => some (.ok (.empty, rest))
  | "-prune" :: rest => some (.ok (.prune, rest))
  | "-print" :: rest => some (.ok (.print lineFeed, rest))
  | "-print0" :: rest => some (.ok (.print 0, rest))
  | "-delete" :: rest => some (.ok (.delete, rest))
  | ["-name"] | ["-iname"] | ["-path"] | ["-wholename"] | ["-type"] | ["-size"] =>
      some (lacks (words.headD ""))
  | "-name" :: pattern :: rest => some (.ok (.named pattern false, rest))
  | "-iname" :: pattern :: rest => some (.ok (.named pattern true, rest))
  | "-path" :: pattern :: rest | "-wholename" :: pattern :: rest =>
      some (.ok (.placed pattern, rest))
  | "-type" :: type :: rest =>
      some (match type.toList with
        | [letter] =>
            if "bcdpfls".toList.contains letter then .ok (.typed letter, rest)
            else .error ("Unknown argument to -type: " ++ type)
        | _ => .error ("Unknown argument to -type: " ++ type))
  | "-size" :: text :: rest =>
      some (match sizeTest? text with
        | some test => .ok (test, rest)
        | none => .error ("invalid -size type \x60" ++ text ++ "'"))
  | "-exec" :: rest =>
      some (match execWords rest with
        | some (words, together, left) => .ok (.exec words together, left)
        | none => lacks "-exec")
  | word :: _ => some (.error ("unknown predicate \x60" ++ word ++ "'"))

/-- Read an expression: parts that are joined by `or`, each of them tests one after
the other. -/
def findExpression : Nat → List String → Except String (FindTest × List String)
  | 0, words => .ok (.always, words)
  | fuel + 1, words => do
      let (left, rest) ← sequence fuel words
      match rest with
      | "-o" :: rest | "-or" :: rest => do
          let (right, rest) ← findExpression fuel rest
          return (.or left right, rest)
      | rest => return (left, rest)
where
  /-- Tests one after the other. -/
  sequence : Nat → List String → Except String (FindTest × List String)
    | 0, words => .ok (.always, words)
    | fuel + 1, words => do
        let (left, rest) ← single fuel words
        match rest with
        | [] | ")" :: _ | "-o" :: _ | "-or" :: _ => return (left, rest)
        | "-a" :: rest | "-and" :: rest | rest => do
            let (right, rest) ← sequence fuel rest
            return (.and left right, rest)
  /-- One test, or an expression in parentheses. -/
  single : Nat → List String → Except String (FindTest × List String)
    | 0, words => .ok (.always, words)
    | fuel + 1, words =>
        match words with
        | "!" :: rest | "-not" :: rest => do
            let (test, rest) ← single fuel rest
            return (.not test, rest)
        | "(" :: rest => do
            let (test, rest) ← findExpression fuel rest
            match rest with
            | ")" :: rest => return (test, rest)
            | _ => throw "invalid expression; expected to find a ')' but didn't see one."
        | words => (findPrimary? words).getD (.ok (.always, []))

/-- Take the words about the range out of an expression. -/
def findRange : FindRange → List String → FindRange × List String
  | r, "-maxdepth" :: n :: rest => findRange { r with upTo := (readDigits 10 n.toList).1 } rest
  | r, "-mindepth" :: n :: rest => findRange { r with from_ := (readDigits 10 n.toList).1 } rest
  | r, "-depth" :: rest => findRange { r with below := true } rest
  | r, word :: rest =>
      let (r, words) := findRange { r with below := r.below || word == "-delete" } rest
      (r, word :: words)
  | r, [] => (r, [])

/-! ## §3. Searching. -/

/-- What is found at a path and below it, and what is done about it. -/
def findBelow (c : Call) (test : FindTest) (range : FindRange) :
    Nat → (depth : Nat) → (path name : String) → List FindAct
  | 0, _, _, _ => []
  | fuel + 1, depth, path, name =>
      let place := (c.tree.place (c.path path)).toOption.getD []
      let isDirectory := c.tree.reachesDirectory (c.path path)
      let children := if isDirectory then
          ((c.tree.children place).map ofUnicode).mergeSort (fun a b => decide (a ≤ b))
        else []
      let size := ((c.tree.file? place).map fun text => (Text.toBytes text).length).getD 4096
      let found : FoundPlace :=
        ⟨path, name, depth, isDirectory, size,
          if isDirectory then children.isEmpty else size == 0⟩
      let (_, acts, stops) := if range.from_ ≤ depth then test.check found else (true, [], false)
      let front := if path.toList.getLast? = some '/' then path else path ++ "/"
      let below := if range.upTo ≤ depth || (stops && !range.below) then []
        else children.flatMap fun child =>
          findBelow c test range fuel (depth + 1) (front ++ child) child
      if range.below then below ++ acts else acts ++ below

/-- What a search does, with messages and its status; an error if the expression
cannot be read. -/
def findPlan (c : Call) : Except String (List FindAct × List (Channel × List Byte) × Nat) := do
  let isStart (arg : String) : Bool := !(arg.toList.head? = some '-' || arg = "!" || arg = "(")
  let starts := c.args.takeWhile isStart
  let (range, words) := findRange ⟨0, 1000, false⟩ (c.args.drop starts.length)
  let (test, left) ← if words.isEmpty then .ok (.always, [])
    else findExpression (2 * words.length + 3) words
  if !left.isEmpty then
    throw "invalid expression; you have used a binary operator ')' with nothing before it."
  let test := if test.acts then test else .and test (.print lineFeed)
  let starts := if starts.isEmpty then ["."] else starts
  let there (start : String) : Bool := c.tree.reaches (c.path start)
  let acts := starts.flatMap fun start =>
    if there start then findBelow c test range 100 0 start (lastName start) else []
  let messages := starts.filterMap fun start =>
    if there start then none
    else some (Channel.errors,
      c.complaint (quotedArg start ++ ": No such file or directory"))
  return (acts, messages, if messages.isEmpty then 0 else 1)

/-- The calls that are made at the end: each with all of its paths. -/
def gatheredCalls (acts : List FindAct) : List (List String) :=
  let gathered := acts.filterMap fun act =>
    match act with
    | .gather words path => some (words, path)
    | _ => none
  ((gathered.map Prod.fst).eraseDups).map fun words =>
    words ++ gathered.filterMap fun (w, path) => if w = words then some path else none

end Stencil.Script
