/-
  Stencil.Formatter.Command.Exchange
  ──────────────────────────────────
  Exchanging bytes.

  `tr` maps the bytes of one set to those of another, deletes the bytes of a
  set, or makes one of a byte that repeats.  A set is written as bytes, as
  ranges with a hyphen, as classes by their names, and as bytes that repeat.
-/
import Stencil.Formatter.Command.Amount
import Stencil.Formatter.Regex

namespace Stencil.Script

open Text (Byte)

/-! ## §1. Sets as written. -/

/-- The bytes from one to another, both included. -/
def byteRange (low high : Byte) : List Byte :=
  (List.range (high.toNat + 1 - low.toNat)).map fun n => UInt8.ofNat (low.toNat + n)

/-- A byte of a set as written; the flag tells whether a backslash was before
it. -/
structure SetByte where
  /-- The byte. -/
  byte : Byte
  /-- Was a backslash before it? -/
  escaped : Bool
  deriving Repr, DecidableEq

/-- Is it a mark, as it stands? -/
def SetByte.marks (b : SetByte) (c : Char) : Bool :=
  !b.escaped && b.byte.toNat == c.toNat

/-- The bytes of a set with the backslashes resolved. -/
def setBytes : Nat → List Char → List SetByte
  | 0, _ => []
  | _ + 1, [] => []
  | _ + 1, ['\\'] => [⟨92, false⟩]
  | fuel + 1, '\\' :: c :: cs =>
      let octal := ((c :: cs).take 3).takeWhile isOctal
      let octal := if octalValue octal < 256 then octal else octal.take 2
      if !octal.isEmpty then
        ⟨UInt8.ofNat (octalValue octal), true⟩ :: setBytes fuel ((c :: cs).drop octal.length)
      else
        match escapeLetters.lookup c with
        | some byte =>
            (if c = 'e' then [⟨101, true⟩] else [⟨byte, true⟩]) ++ setBytes fuel cs
        | none => (bytesOf c.toString).map (⟨·, true⟩) ++ setBytes fuel cs
  | fuel + 1, c :: cs => (bytesOf c.toString).map (⟨·, false⟩) ++ setBytes fuel cs

/-- A part of a set. -/
inductive SetPart where
  /-- Bytes one after the other. -/
  | bytes (all : List Byte)
  /-- A class by its name. -/
  | named (name : String)
  /-- The bytes that count as the same as one of them. -/
  | like (byte : Byte)
  /-- A byte so many times; zero is as often as it takes. -/
  | again (byte : Byte) (count : Nat)
  deriving Repr, DecidableEq

/-- The bytes of a class, in order. -/
def classBytes (name : String) : List Byte :=
  let ranges := (namedClasses.lookup name).getD []
  (byteRange 0 255).filter fun b => ranges.any fun (low, high) => low ≤ b && b ≤ high

/-- The bytes of a part. -/
def SetPart.all : SetPart → List Byte
  | bytes all => all
  | named name => classBytes name
  | like byte => [byte]
  | again byte count => List.replicate count byte

/-- A byte as messages show it. -/
def shownByte (b : Byte) : String :=
  if 32 ≤ b && b ≤ 126 then textOf [b]
  else "\\" ++ String.ofList (Nat.toDigits 8 (b.toNat + 512)).tail

/-- What is between a mark and the same mark before a bracket, and what is left
behind those two. -/
def untilClosing (mark : Char) : List SetByte → Option (List SetByte × List SetByte)
  | a :: b :: rest =>
      if a.marks mark && b.marks ']' then some ([], rest)
      else (untilClosing mark (b :: rest)).map fun (inner, left) => (a :: inner, left)
  | _ => none

/-- A byte that repeats, behind its opening bracket, and what is left behind the
closing one. -/
def repeatedPart? (cs : List SetByte) : Except String (Option (SetPart × List SetByte)) :=
  match cs with
  | byte :: star :: rest =>
      if !star.marks '*' then .ok none
      else
        let inner := rest.takeWhile fun b => !b.escaped && !b.marks ']'
        match rest.drop inner.length with
        | close :: left =>
            if !close.marks ']' then .ok none
            else
              let digits := (textOf (inner.map SetByte.byte)).toList
              let base := if digits.head? = some '0' then 8 else 10
              let (count, whole) := readDigits base digits
              if digits.isEmpty then .ok (some (.again byte.byte 0, left))
              else if whole then .ok (some (.again byte.byte count, left))
              else .error ("invalid repeat count " ++ quotedArg (String.ofList digits)
                ++ " in [c*n] construct")
        | [] => .ok none
  | _ => .ok none

/-- A class or a byte in brackets, behind the opening one; none if it is none. -/
def bracketPart? (cs : List SetByte) : Except String (Option (SetPart × List SetByte)) := do
  let text (inner : List SetByte) : String := textOf (inner.map SetByte.byte)
  match cs with
  | mark :: rest =>
      let named := if mark.marks ':' then untilClosing ':' rest else none
      let like := if mark.marks '=' then untilClosing '=' rest else none
      match named, like, ← repeatedPart? cs with
      | some (inner, left), _, repeated =>
          if inner.isEmpty then throw "missing character class name '[::]'"
          else if (namedClasses.lookup (text inner)).isSome then
            return some (.named (text inner), left)
          else if repeated.isSome then return repeated
          else throw ("invalid character class " ++ quotedArg (text inner))
      | none, some (inner, left), repeated =>
          match inner with
          | [] => throw "missing equivalence class character '[==]'"
          | [b] => return some (.like b.byte, left)
          | _ =>
              if repeated.isSome then return repeated
              else throw (text inner ++ ": equivalence class operand must be a single character")
      | none, none, repeated => return repeated
  | [] => return none

/-- The parts of a set. -/
def setParts : Nat → List SetByte → Except String (List SetPart)
  | 0, _ => .ok []
  | _ + 1, [] => .ok []
  | fuel + 1, a :: rest => do
      let plain : Except String (List SetPart) := do
        match rest with
        | dash :: b :: more =>
            if dash.marks '-' then
              if b.byte < a.byte then
                throw ("range-endpoints of "
                  ++ quotedArg (shownByte a.byte ++ "-" ++ shownByte b.byte)
                  ++ " are in reverse collating sequence order")
              else return .bytes (byteRange a.byte b.byte) :: (← setParts fuel more)
            else return .bytes [a.byte] :: (← setParts fuel rest)
        | rest => return .bytes [a.byte] :: (← setParts fuel rest)
      if a.marks '[' && 2 ≤ rest.length then
        match ← bracketPart? rest with
        | some (part, left) => return part :: (← setParts fuel left)
        | none => plain
      else plain

/-- A set from its text. -/
def setOf (text : String) : Except String (List SetPart) :=
  let bytes := setBytes (text.length + 1) text.toList
  setParts (bytes.length + 1) bytes

/-! ## §2. Mapping. -/

/-- A byte of a set, and the class it starts, if there is one of upper or lower
case letters. -/
structure SetElement where
  /-- The byte. -/
  byte : Byte
  /-- The name of the class that it starts. -/
  starts : Option String
  deriving Repr, DecidableEq

/-- The elements of a set. -/
def elementsOf (parts : List SetPart) : List SetElement :=
  parts.flatMap fun part =>
    match part with
    | .named name =>
        let all := classBytes name
        if name = "upper" || name = "lower" then
          all.zipIdx.map fun (b, n) => ⟨b, if n = 0 then some name else none⟩
        else all.map (⟨·, none⟩)
    | part => part.all.map (⟨·, none⟩)

/-- How many letters a class of upper or lower case letters has. -/
def caseCount : Nat := 26

/-- What the bytes of one set are mapped to, in order. -/
def mapping : Nat → List SetElement → List SetElement → Except String (List (Byte × Byte))
  | 0, _, _ => .ok []
  | _, [], _ => .ok []
  | _, _, [] => .ok []
  | fuel + 1, a :: as, b :: bs =>
      match a.starts, b.starts with
      | none, some _ => .error "misaligned [:upper:] and/or [:lower:] construct"
      | some source, some target =>
          let pairs := if source = target then []
            else List.zip (classBytes source) (classBytes target)
          (mapping fuel (as.drop (caseCount - 1)) (bs.drop (caseCount - 1))).map (pairs ++ ·)
      | _, none => (mapping fuel as bs).map ((a.byte, b.byte) :: ·)

/-- The second set with the byte that repeats as often as it takes repeated, so
that it has as many bytes as the first one. -/
def filledSet (size : Nat) (parts : List SetPart) : Except String (List SetPart) :=
  let endless (part : SetPart) : Bool :=
    match part with
    | .again _ 0 => true
    | _ => false
  let used := (parts.flatMap SetPart.all).length
  match parts.filter endless with
  | [] => .ok parts
  | [_] =>
      .ok (parts.map fun part =>
        match part with
        | .again byte 0 => .again byte (size - used)
        | part => part)
  | _ => .error "only one [c*] repeat construct may appear in string2"

/-- The second set, made as long as the first one by its last byte. -/
def extendedSet (size : Nat) (parts : List SetPart) : Except String (List SetPart) :=
  let all := parts.flatMap SetPart.all
  match all.getLast? with
  | none => if size = 0 then .ok parts
      else .error "when not truncating set1, string2 must be non-empty"
  | some last =>
      if size ≤ all.length then .ok parts
      else
        match parts.getLast? with
        | some (.named _) =>
            .error ("when translating with string1 longer than string2,\n"
              ++ "the latter string must not end with a character class")
        | _ => .ok (parts ++ [.bytes (List.replicate (size - all.length) last)])

/-- Bytes of a set that repeat come once. -/
def squeeze (inSet : Byte → Bool) : List Byte → List Byte
  | a :: b :: rest =>
      if a == b && inSet a then squeeze inSet (b :: rest) else a :: squeeze inSet (b :: rest)
  | bytes => bytes

/-- A table of the bytes for which something holds. -/
def memberTable (bytes : List Byte) : Byte → Bool :=
  let table := bytes.foldl (fun t b => t.set! b.toNat true) (Array.replicate 256 false)
  fun b => (table[b.toNat]?).getD false

/-- What is asked of `tr`. -/
structure Exchange where
  /-- Is the first set the set of all other bytes? -/
  others : Bool
  /-- Are bytes deleted? -/
  deletes : Bool
  /-- Do repeated bytes come once? -/
  squeezes : Bool
  /-- Is the first set cut to the length of the second? -/
  truncates : Bool

/-- The bytes of the first set. -/
def Exchange.chosen (e : Exchange) (parts : List SetPart) : List Byte :=
  let all := memberTable (parts.flatMap SetPart.all)
  if e.others then (byteRange 0 255).filter fun b => !all b else parts.flatMap SetPart.all

/-- The table by which bytes are mapped. -/
def Exchange.table (e : Exchange) (source target : List SetPart) : Except String (Array Byte) := do
  let size := (e.chosen source).length
  let target ← filledSet size target
  let foreign := target.any fun part =>
    match part with
    | .named name => name ≠ "upper" && name ≠ "lower"
    | _ => false
  if foreign then
    throw ("when translating, the only character classes that may appear in\n"
      ++ "string2 are 'upper' and 'lower'")
  if target.any fun part => (match part with | .like _ => true | _ => false) then
    throw "[=c=] expressions may not appear in string2 when translating"
  let target ← if e.truncates then pure target else extendedSet size target
  let classed := source.any fun part => (match part with | .named _ => true | _ => false)
  let images := target.flatMap SetPart.all
  if e.others && classed && !(images.length == size && images.all (some · == images.head?)) then
    throw ("when translating with complemented character classes,\n"
      ++ "string2 must map all characters in the domain to one")
  let elements := if e.others then (e.chosen source).map (⟨·, none⟩) else elementsOf source
  let targets := if e.others then images.map (⟨·, none⟩) else elementsOf target
  let pairs ← mapping (elements.length + 1) elements targets
  return pairs.foldl (fun t (a, b) => t.set! a.toNat b) (byteRange 0 255).toArray

/-- The options of `tr`. -/
def trOptions : List Known :=
  [flag "c" "complement", flag "C" "", flag "d" "delete", flag "s" "squeeze-repeats",
   flag "t" "truncate-set1"]

/-- A warning about a backslash that ends a set. -/
def backslashWarning (c : Call) (texts : List String) : List (Channel × List Byte) :=
  texts.filterMap fun text =>
    let slashes := (text.toList.reverse.takeWhile (· == '\\')).length
    if slashes % 2 = 1 then
      some (.errors, c.complaint
        "warning: an unescaped backslash at end of string is not portable")
    else none

/-- Exchange, delete or squeeze bytes. -/
def tr : Command :=
  withFirstOptions trOptions 1 fun o c =>
    let e : Exchange :=
      ⟨o.has "c" || o.has "C", o.has "d", o.has "s", o.has "t"⟩
    let result : Except String (List Byte) := do
      let sets ← (o.operands.take 2).mapM setOf
      let endless (part : SetPart) : Bool :=
        match part with
        | .again _ 0 => true
        | _ => false
      if (sets.headD []).any endless then
        throw "the [c*] repeat construct may not appear in string1"
      let without (set : List SetPart) : List Byte :=
        let gone := memberTable (e.chosen set)
        c.input.filter fun b => !gone b
      match e.deletes, e.squeezes, sets with
      | true, false, [set] => return without set
      | true, true, [gone, set] =>
          return squeeze (memberTable (set.flatMap SetPart.all)) (without gone)
      | false, true, [set] => return squeeze (memberTable (e.chosen set)) c.input
      | false, squeezes, [source, target] =>
          let table ← e.table source target
          let mapped := c.input.map fun b => (table[b.toNat]?).getD b
          let squeezed := memberTable (target.flatMap SetPart.all)
          return if squeezes then squeeze squeezed mapped else mapped
      | _, _, _ => return []
    let warned (r : Result) : Result :=
      { r with written := backslashWarning c o.operands ++ r.written }
    match e.deletes, e.squeezes, o.operands with
    | _, _, [] => c.misuse 1 "missing operand"
    | true, false, _ :: extra :: _ =>
        c.misuse 1 ("extra operand " ++ quotedArg extra
          ++ "\nOnly one string may be given when deleting without squeezing repeats.")
    | true, true, [set] =>
        c.misuse 1 ("missing operand after " ++ quotedArg set
          ++ "\nTwo strings must be given when both deleting and squeezing repeats.")
    | false, false, [set] =>
        c.misuse 1 ("missing operand after " ++ quotedArg set
          ++ "\nTwo strings must be given when translating.")
    | _, _, _ :: _ :: extra :: _ => c.misuse 1 ("extra operand " ++ quotedArg extra)
    | _, _, _ =>
        match result with
        | .ok output => warned (c.filtered output)
        | .error message => warned (c.fail 1 message)

end Stencil.Script
