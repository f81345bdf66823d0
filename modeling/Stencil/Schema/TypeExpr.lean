/-
  Stencil.Schema.TypeExpr
  ───────────────────────
  Type expressions and how they are read.

      type    := base suffix*
      base    := scalar | ("record" | "tuple") "(" member ("," member)* ")" | name
      member  := type word
      suffix  := "[" "]" | "[" digits "]"

  Reading is recursive descent over lexemes.  Whoever reads an expression
  also learns which names it refers to, in the order met; a misread
  expression still tells the names met before the fault, because names are
  looked up as they are met.  The fuel of the readers is the number of
  lexemes: every call consumes at least one.
-/
import Stencil.Schema.Lexeme
import Stencil.Schema.Scalar
import Stencil.Schema.Ty

namespace Stencil.Schema

/-! ## §1. The tree and its faults. -/

/-- A type as written, before names are looked up. -/
inductive TypeExpr where
  /-- An elementary type by its canonical name. -/
  | scalar (name : String)
  /-- A name to be looked up. -/
  | reference (name : String)
  /-- Named members, in written order. -/
  | record (members : List (String × TypeExpr))
  /-- An array of any length. -/
  | sequence (element : TypeExpr)
  /-- An array of a fixed length. -/
  | fixed (element : TypeExpr) (size : Nat)
  deriving Repr, Inhabited

/-- What can be wrong with an expression. -/
inductive GrammarFault where
  /-- A word should stand here. -/
  | expectedIdentifier
  /-- This character should stand here. -/
  | expectedMark (char : Char)
  /-- After an opening bracket a size or the closing bracket should stand. -/
  | expectedSize
  /-- A record without members. -/
  | emptyRecord
  /-- A member's name came before in the same record. -/
  | duplicateMember (name : String)
  /-- An array of no elements. -/
  | zeroSize
  /-- A size that needs more than 64 bits. -/
  | sizeOutOfRange (digits : List Char)
  /-- The expression ended, but the text did not. -/
  | trailing
  deriving Repr, DecidableEq

/-- A fault in its place, with the names met before it. -/
structure Misread where
  /-- What is wrong. -/
  fault : GrammarFault
  /-- The byte offset reading had come to. -/
  offset : Nat
  /-- The names met before the fault, in order. -/
  references : List String
  deriving Repr, DecidableEq

/-! ## §2. The cursor. -/

/-- Where reading stands. -/
structure Cursor where
  /-- The names met so far, in order. -/
  references : List String
  /-- The lexemes still to read. -/
  rest : List PlacedLexeme
  /-- The offset of the end of the text. -/
  finish : Nat

namespace Cursor

/-- The offset of the next lexeme, or of the end. -/
def offset (c : Cursor) : Nat :=
  match c.rest with
  | [] => c.finish
  | next :: _ => next.start

/-- The next lexeme. -/
def peek (c : Cursor) : Option Lexeme :=
  c.rest.head?.map (·.lexeme)

/-- Pass the next lexeme. -/
def skip (c : Cursor) : Cursor :=
  { c with rest := c.rest.tail }

/-- Remember a name. -/
def meet (c : Cursor) (name : String) : Cursor :=
  { c with references := c.references ++ [name] }

/-- A fault at the next lexeme. -/
def misread (c : Cursor) (fault : GrammarFault) : Misread :=
  ⟨fault, c.offset, c.references⟩

/-- Read a word; the offset right after it comes with it. -/
def word (c : Cursor) : Except Misread (String × Nat × Cursor) :=
  match c.rest with
  | ⟨.word text, _, stop⟩ :: _ => .ok (text, stop, c.skip)
  | _ => .error (c.misread .expectedIdentifier)

/-- Read a given character. -/
def mark (c : Cursor) (char : Char) : Except Misread Cursor :=
  if c.peek = some (.mark char) then .ok c.skip
  else .error (c.misread (.expectedMark char))

end Cursor

/-! ## §3. The readers. -/

/-- Sizes fit in 64 bits. -/
def sizeLimit : Nat := 0x10000000000000000

/-- Read the array suffixes of a type. -/
def readSuffixes (ty : TypeExpr) (references : List String) (finish : Nat) :
    List PlacedLexeme → Except Misread (TypeExpr × Cursor)
  | ⟨.mark '[', _, _⟩ :: ⟨.mark ']', _, _⟩ :: rest =>
      readSuffixes (.sequence ty) references finish rest
  | ⟨.mark '[', _, _⟩ :: ⟨.digits digits, start, stop⟩ :: rest =>
      let size := decimalValue digits
      if sizeLimit ≤ size then .error ⟨.sizeOutOfRange digits, start, references⟩
      else if size = 0 then .error ⟨.zeroSize, stop, references⟩
      else
        match rest with
        | ⟨.mark ']', _, _⟩ :: rest => readSuffixes (.fixed ty size) references finish rest
        | rest => .error (Cursor.misread ⟨references, rest, finish⟩ (.expectedMark ']'))
  | ⟨.mark '[', _, _⟩ :: rest =>
      .error (Cursor.misread ⟨references, rest, finish⟩ .expectedSize)
  | rest => .ok (ty, ⟨references, rest, finish⟩)

mutual
/-- Read a type. -/
def readType : Nat → Cursor → Except Misread (TypeExpr × Cursor)
  | 0, c => .error (c.misread .expectedIdentifier)
  | fuel + 1, c => do
      let (word, _, c) ← c.word
      if isRecordWord word then
        let c ← c.mark '('
        if c.peek = some (.mark ')') then throw (c.misread .emptyRecord)
        let (members, c) ← readMembers fuel [] c
        readSuffixes (.record members) c.references c.finish c.rest
      else
        match scalarName? word with
        | some name => readSuffixes (.scalar name) c.references c.finish c.rest
        | none =>
            let c := c.meet word
            readSuffixes (.reference word) c.references c.finish c.rest

/-- Read members up to the closing parenthesis; `members` came before. -/
def readMembers : Nat → List (String × TypeExpr) → Cursor →
    Except Misread (List (String × TypeExpr) × Cursor)
  | 0, _, c => .error (c.misread .expectedIdentifier)
  | fuel + 1, members, c => do
      let (ty, c) ← readType fuel c
      let (name, stop, c) ← c.word
      if members.any (·.1 == name) then
        throw ⟨.duplicateMember name, stop, c.references⟩
      let members := members ++ [(name, ty)]
      if c.peek = some (.mark ',') then readMembers fuel members c.skip
      else
        let c ← c.mark ')'
        return (members, c)
end

/-! ## §4. Reading a whole text. -/

mutual
/-- The names an expression refers to, in written order. -/
def TypeExpr.references : TypeExpr → List String
  | .scalar _ => []
  | .reference name => [name]
  | .record members => memberReferences members
  | .sequence element => element.references
  | .fixed element _ => element.references

/-- The names members refer to. -/
def memberReferences : List (String × TypeExpr) → List String
  | [] => []
  | (_, ty) :: members => ty.references ++ memberReferences members
end

/-- Read a whole text as one expression. -/
def TypeExpr.read (source : String) : Except Misread TypeExpr := do
  let chars := source.toList
  let cursor : Cursor := ⟨[], lexemes 0 chars, Text.width chars⟩
  let (ty, rest) ← readType (cursor.rest.length + 1) cursor
  if rest.rest.isEmpty then return ty else throw (rest.misread .trailing)

/-- The names met in reading a text: all its names, or those before the fault. -/
def TypeExpr.met (source : String) : List String :=
  match TypeExpr.read source with
  | .ok ty => ty.references
  | .error misread => misread.references

/-! ## §5. Looking names up. -/

mutual
/-- Put resolved types in the place of names; the first name that cannot be
looked up fails. -/
def TypeExpr.expand {ε : Type} (lookup : String → Except ε Ty) : TypeExpr → Except ε Ty
  | .scalar name => .ok (.scalar name)
  | .reference name => lookup name
  | .record members => (expandMembers lookup members).map .record
  | .sequence element => (element.expand lookup).map .sequence
  | .fixed element size => (element.expand lookup).map (.fixed · size)

/-- Resolve the members one after the other. -/
def expandMembers {ε : Type} (lookup : String → Except ε Ty) :
    List (String × TypeExpr) → Except ε (List (String × Ty))
  | [] => .ok []
  | (name, ty) :: members => do
      let ty ← ty.expand lookup
      let members ← expandMembers lookup members
      return (name, ty) :: members
end

end Stencil.Schema
