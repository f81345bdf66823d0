/-
  Stencil.Config.Reader
  ─────────────────────
  The standard JSON library, for texts into configurations: the codec that can
  be evaluated.

  Reading is one pass from left to right, and the first problem met decides.
  A part of a configuration is an object with fields, or an array of the
  fields in order.  The first field of a part must be there; the others have
  a default.

  The fuel of the loops is the number of characters left: every round passes
  at least one.
-/
import Stencil.Config.Codec

namespace Stencil.Config

open Json (skipSpace scanFound scanString)

/-! ## §1. Values. -/

/-- A value of another kind than expected comes next. -/
def misfit {α : Type} (path : List Segment) (expected : Expected) (cs : List Char) :
    Except Misfit α :=
  match scanFound cs with
  | some (found, rest) => .error (.shape path (.wrongType found expected) rest)
  | none => .error .malformed

/-- Read a string. -/
def readString : Reader String := fun path cs =>
  match skipSpace cs with
  | '"' :: rest =>
      match scanString rest with
      | some (chars, rest) => .ok (String.ofList chars, rest)
      | none => .error .malformed
  | cs => misfit path .string cs

/-! ## §2. Arrays. -/

/-- Does another item of an array come? If so, the text stands at it, past
the comma; if not, at the closing bracket. -/
def nextItem (first : Bool) (cs : List Char) : Except Misfit (Bool × List Char) :=
  match skipSpace cs with
  | [] => .error .malformed
  | ']' :: rest => .ok (false, ']' :: rest)
  | c :: rest =>
      if first then .ok (true, c :: rest)
      else if c = ',' then
        match skipSpace rest with
        | [] | ']' :: _ => .error .malformed
        | rest => .ok (true, rest)
      else .error .malformed

/-- The closing bracket of an array must come. -/
def endItems {α : Type} (value : α) (cs : List Char) : Except Misfit (α × List Char) :=
  match skipSpace cs with
  | ']' :: rest => .ok (value, rest)
  | _ => .error .malformed

/-- Read the items of an array, of which `items` came before. -/
def readItems {α : Type} (item : Reader α) (path : List Segment) :
    Nat → List α → List Char → Except Misfit (List α × List Char)
  | 0, _, _ => .error .malformed
  | fuel + 1, items, cs => do
      let (more, cs) ← nextItem items.isEmpty cs
      if more then
        let (value, cs) ← item (path ++ [.index items.length]) cs
        readItems item path fuel (items ++ [value]) cs
      else endItems items cs

/-- Read an array. -/
def readArray {α : Type} (item : Reader α) : Reader (List α) := fun path cs =>
  match skipSpace cs with
  | '[' :: rest => readItems item path (rest.length + 1) [] rest
  | cs => misfit path .sequence cs

/-! ## §3. Objects. -/

/-- The next key of an object, its text past the closing quote; none at the
closing brace. -/
def nextKey (first : Bool) (cs : List Char) : Except Misfit (Option String × List Char) :=
  match skipSpace cs with
  | [] => .error .malformed
  | '}' :: rest => .ok (none, '}' :: rest)
  | c :: rest =>
      if first then key (c :: rest)
      else if c = ',' then key (skipSpace rest)
      else .error .malformed
where
  key : List Char → Except Misfit (Option String × List Char)
    | '"' :: rest =>
        match scanString rest with
        | some (chars, rest) => .ok (some (String.ofList chars), rest)
        | none => .error .malformed
    | _ => .error .malformed

/-- The colon between a key and its value. -/
def passColon (cs : List Char) : Except Misfit (List Char) :=
  match skipSpace cs with
  | ':' :: rest => .ok rest
  | _ => .error .malformed

/-- What is left after the closing brace, if it comes next. -/
def pastBrace (cs : List Char) : List Char :=
  match skipSpace cs with
  | '}' :: rest => rest
  | rest => rest

/-- Read the fields of an object with any keys into a catalog. -/
def readEntries {α : Type} (value : Reader α) (path : List Segment) :
    Nat → Bool → Catalog α → List Char → Except Misfit (Catalog α × List Char)
  | 0, _, _, _ => .error .malformed
  | fuel + 1, first, catalog, cs => do
      match ← nextKey first cs with
      | (none, cs) => return (catalog, pastBrace cs)
      | (some name, cs) =>
          let cs ← passColon cs
          let (v, cs) ← value (path ++ [.key name]) cs
          readEntries value path fuel false (catalog.put name v) cs

/-- Read an object with any keys. -/
def readCatalog {α : Type} (value : Reader α) : Reader (Catalog α) := fun path cs =>
  match skipSpace cs with
  | '{' :: rest => readEntries value path (rest.length + 1) true .empty rest
  | cs => misfit path .map cs

/-! ## §4. Parts. -/

namespace Part

variable {σ : Type}

/-- Read the fields of an object. -/
def readFields (p : Part σ) (path : List Segment) :
    Nat → Bool → σ → List Char → Except Misfit (σ × List Char)
  | 0, _, _, _ => .error .malformed
  | fuel + 1, first, s, cs => do
      match ← nextKey first cs with
      | (none, cs) =>
          let rest := pastBrace cs
          match p.fields.head? with
          | some field =>
              if p.has s field then return (s, rest)
              else throw (.shape path (.missing field) rest)
          | none => return (s, rest)
      | (some field, cs) =>
          if !p.fields.contains field then
            throw (.shape (path ++ [.key field]) (.unknown field p.fields) (pastBrace cs))
          else if p.has s field then
            throw (.shape path (.duplicate field) (pastBrace cs))
          else
            let cs ← passColon cs
            let (s, cs) ← p.read s field (path ++ [.key field]) cs
            p.readFields path fuel false s cs

/-- Read the items of an array as the remaining fields, from the `n`-th on. -/
def readItems (p : Part σ) (path : List Segment) (n : Nat) (s : σ) (cs : List Char) :
    List String → Except Misfit (σ × List Char)
  | [] => endItems s cs
  | field :: fields => do
      let (more, cs) ← nextItem (n == 0) cs
      if more then
        let (s, cs) ← p.read s field (path ++ [.index n]) cs
        p.readItems path (n + 1) s cs fields
      else if n == 0 then
        let (_, rest) ← endItems () cs
        throw (.shape path (.wrongLength 0 p.title p.fields.length) rest)
      else endItems s cs

/-- Read a part. -/
def reader (p : Part σ) : Reader σ := fun path cs =>
  match skipSpace cs with
  | '{' :: rest => p.readFields path (rest.length + 1) true p.start rest
  | '[' :: rest => p.readItems path 0 p.start rest p.fields
  | cs => misfit path (.part p.title) cs

end Part

/-! ## §5. The library. -/

/-- The standard JSON library. -/
def Codec.standard : Codec where
  write := Json.compact
  string := readString
  array := readArray
  catalog := readCatalog
  part := Part.reader

/-- The configuration a text stands for. -/
def ofText (source : String) : Except LoadError Config :=
  Codec.standard.load source

end Stencil.Config
