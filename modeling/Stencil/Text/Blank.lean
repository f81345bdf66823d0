/-
  Stencil.Text.Blank
  ──────────────────
  Blank characters and trimming.

  Blank means the White_Space property: the ASCII blanks U+0009–000D and
  U+0020, then U+0085, U+00A0, U+1680, U+2000–200A, U+2028, U+2029, U+202F,
  U+205F and U+3000.  The zero-width space and the byte-order mark are NOT
  blank.  Templates, type expressions and text compaction all use this one
  class.
-/
namespace Stencil.Text

/-! ## §1. The class. -/

/-- The White_Space property. -/
def isBlank (c : Char) : Bool :=
  let n := c.toNat
  (0x09 ≤ n && n ≤ 0x0D) || n == 0x20 || n == 0x85 || n == 0xA0 || n == 0x1680
    || (0x2000 ≤ n && n ≤ 0x200A) || n == 0x2028 || n == 0x2029 || n == 0x202F
    || n == 0x205F || n == 0x3000

/-! ## §2. Trimming. -/

/-- Drop the blanks a text begins with. -/
def trimStart (cs : List Char) : List Char :=
  cs.dropWhile isBlank

/-- Drop the blanks a text ends with. -/
def trimEnd (cs : List Char) : List Char :=
  (cs.reverse.dropWhile isBlank).reverse

/-- Drop the blanks at both ends. -/
def trim (cs : List Char) : List Char :=
  trimEnd (trimStart cs)

end Stencil.Text
