/-
  Stencil.Json
  ────────────
  JSON values and how they are written.

  Only what the library writes is here: null, strings, arrays and objects.
  The compact form has no blanks; the pretty form indents by two spaces and
  keeps an empty array or object on one line.
-/
namespace Stencil

/-! ## §1. Values. -/

/-- A JSON value. -/
inductive Json where
  /-- Nothing. -/
  | null
  /-- A string. -/
  | str (value : String)
  /-- An array. -/
  | arr (items : List Json)
  /-- An object, its fields in order. -/
  | obj (fields : List (String × Json))
  deriving Repr, Inhabited

namespace Json

/-! ## §2. Strings. -/

/-- Two hexadecimal digits of a number below 256. -/
def hexPair (n : Nat) : List Char :=
  [Nat.digitChar (n / 16 % 16), Nat.digitChar (n % 16)]

/-- How a character is written inside a string. -/
def escapedChar (c : Char) : List Char :=
  if c = '"' then ['\\', '"']
  else if c = '\\' then ['\\', '\\']
  else if c = '\x08' then ['\\', 'b']
  else if c = '\x0c' then ['\\', 'f']
  else if c = '\n' then ['\\', 'n']
  else if c = '\r' then ['\\', 'r']
  else if c = '\t' then ['\\', 't']
  else if c.toNat < 0x20 then ['\\', 'u', '0', '0'] ++ hexPair c.toNat
  else [c]

/-- A string in its quotes. -/
def quote (s : String) : String :=
  String.ofList ('"' :: s.toList.flatMap escapedChar ++ ['"'])

/-! ## §3. The compact form. -/

mutual
/-- A value without blanks. -/
def compact : Json → String
  | null => "null"
  | str value => quote value
  | arr items => "[" ++ compactItems items ++ "]"
  | obj fields => "\x7b" ++ compactFields fields ++ "\x7d"

/-- Items with commas between. -/
def compactItems : List Json → String
  | [] => ""
  | [item] => compact item
  | item :: items => compact item ++ "," ++ compactItems items

/-- Fields with commas between. -/
def compactFields : List (String × Json) → String
  | [] => ""
  | [(name, value)] => quote name ++ ":" ++ compact value
  | (name, value) :: fields => quote name ++ ":" ++ compact value ++ "," ++ compactFields fields
end

/-! ## §4. The pretty form. -/

/-- A new line at a depth of nesting. -/
def newLine (depth : Nat) : String :=
  "\n" ++ String.join (List.replicate depth "  ")

mutual
/-- A value that stands at a depth of nesting. -/
def prettyAt (depth : Nat) : Json → String
  | null => "null"
  | str value => quote value
  | arr [] => "[]"
  | arr (item :: items) =>
      "[" ++ newLine (depth + 1) ++ prettyAt (depth + 1) item
        ++ prettyItems (depth + 1) items ++ newLine depth ++ "]"
  | obj [] => "\x7b\x7d"
  | obj ((name, value) :: fields) =>
      "\x7b" ++ newLine (depth + 1) ++ quote name ++ ": " ++ prettyAt (depth + 1) value
        ++ prettyFields (depth + 1) fields ++ newLine depth ++ "\x7d"

/-- The items after the first. -/
def prettyItems (depth : Nat) : List Json → String
  | [] => ""
  | item :: items =>
      "," ++ newLine depth ++ prettyAt depth item ++ prettyItems depth items

/-- The fields after the first. -/
def prettyFields (depth : Nat) : List (String × Json) → String
  | [] => ""
  | (name, value) :: fields =>
      "," ++ newLine depth ++ quote name ++ ": " ++ prettyAt depth value
        ++ prettyFields depth fields
end

/-- The pretty form. -/
def pretty (j : Json) : String :=
  prettyAt 0 j

end Json

end Stencil
