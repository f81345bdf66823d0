/-
  Stencil.Text.Utf8
  ─────────────────
  Bytes as UTF-8 text.

  A character is a leading byte and the tails it asks for.  Where the bytes
  are no text, the fault tells the index of the character that fails, and
  how many of its bytes would still have been right; a character cut off by
  the end has no such count.  The lenient reading puts the replacement
  character in the place of every such piece.
-/
namespace Stencil.Text

/-- A byte. -/
abbrev Byte := UInt8

/-- The bytes of a text. -/
def toBytes (s : String) : List Byte :=
  s.toUTF8.toList

/-! ## §1. One character. -/

/-- What a leading byte asks for: how many tails, the range of the first of
them, and the bits it gives. -/
structure Lead where
  /-- How many bytes follow. -/
  tails : Nat
  /-- The least first tail. -/
  low : Nat
  /-- The greatest first tail. -/
  high : Nat
  /-- The bits of the character so far. -/
  bits : Nat

/-- What a leading byte asks for, if it can lead. -/
def lead? (b : Nat) : Option Lead :=
  if b < 0x80 then some ⟨0, 0x80, 0xBF, b⟩
  else if 0xC2 ≤ b && b ≤ 0xDF then some ⟨1, 0x80, 0xBF, b - 0xC0⟩
  else if b = 0xE0 then some ⟨2, 0xA0, 0xBF, 0⟩
  else if b = 0xED then some ⟨2, 0x80, 0x9F, b - 0xE0⟩
  else if 0xE1 ≤ b && b ≤ 0xEF then some ⟨2, 0x80, 0xBF, b - 0xE0⟩
  else if b = 0xF0 then some ⟨3, 0x90, 0xBF, 0⟩
  else if b = 0xF4 then some ⟨3, 0x80, 0x8F, b - 0xF0⟩
  else if 0xF1 ≤ b && b ≤ 0xF3 then some ⟨3, 0x80, 0xBF, b - 0xF0⟩
  else none

/-- What the next bytes are. -/
inductive Decoded where
  /-- A character of so many bytes. -/
  | char (value : Char) (count : Nat)
  /-- No character; so many bytes are to be passed. -/
  | invalid (count : Nat)
  /-- The start of a character that the end cuts off. -/
  | cutOff
  deriving Repr, DecidableEq

/-- Read the tails that are owed; `used` bytes came before. -/
def decodeTails (used bits low high : Nat) : Nat → List Byte → Decoded
  | 0, _ => .char (Char.ofNat bits) used
  | _ + 1, [] => .cutOff
  | owed + 1, b :: bs =>
      if low ≤ b.toNat && b.toNat ≤ high then
        decodeTails (used + 1) (bits * 64 + (b.toNat - 0x80)) 0x80 0xBF owed bs
      else .invalid used

/-- Read the character that starts with a byte. -/
def decodeFirst (b : Byte) (bs : List Byte) : Decoded :=
  match lead? b.toNat with
  | none => .invalid 1
  | some l => decodeTails 1 l.bits l.low l.high l.tails bs

/-! ## §2. Whole texts. -/

/-- Why bytes are no text. -/
structure Utf8Fault where
  /-- The index of the character that fails. -/
  index : Nat
  /-- How many bytes of it there are, unless the end cuts it off. -/
  count : Option Nat
  deriving Repr, DecidableEq

/-- The wording of a fault. -/
def Utf8Fault.message (f : Utf8Fault) : String :=
  match f.count with
  | some n =>
      "invalid utf-8 sequence of " ++ toString n ++ " bytes from index " ++ toString f.index
  | none => "incomplete utf-8 byte sequence from index " ++ toString f.index

/-- The characters of bytes that start at an index.  One more than `count`
bytes are passed each time, or all. -/
def decodeFrom (index : Nat) : List Byte → Except Utf8Fault (List Char)
  | [] => .ok []
  | b :: bs =>
      match decodeFirst b bs with
      | .char c n => (decodeFrom (index + n) (bs.drop (n - 1))).map (c :: ·)
      | .invalid n => .error ⟨index, some n⟩
      | .cutOff => .error ⟨index, none⟩
termination_by bytes => bytes.length
decreasing_by simp only [List.length_cons, List.length_drop]; omega

/-- The text of bytes. -/
def decode (bytes : List Byte) : Except Utf8Fault String :=
  (decodeFrom 0 bytes).map String.ofList

/-- The characters of bytes, with replacements. -/
def decodeLenientChars : List Byte → List Char
  | [] => []
  | b :: bs =>
      match decodeFirst b bs with
      | .char c n => c :: decodeLenientChars (bs.drop (n - 1))
      | .invalid n => '\uFFFD' :: decodeLenientChars (bs.drop (n - 1))
      | .cutOff => ['\uFFFD']
termination_by bytes => bytes.length
decreasing_by
  all_goals simp only [List.length_cons, List.length_drop]; omega

/-- The text of bytes, with replacements. -/
def decodeLenient (bytes : List Byte) : String :=
  String.ofList (decodeLenientChars bytes)

end Stencil.Text
