/-
  Stencil.Text.Quoted
  ───────────────────
  Texts shown inside double quotes, as messages show them.

  The quote, the backslash, NUL, tab, line feed and carriage return have
  short escapes.  Any other character without a glyph of its own is shown by
  its code point in lower-case hexadecimal between braces.  A single quote is
  an ordinary character.
-/
import Stencil.Text.Escape

namespace Stencil.Text

/-- A code point in hexadecimal, without leading zeros. -/
def hexadecimal (n : Nat) : List Char :=
  Nat.toDigits 16 n

/-- How one character is shown inside quotes. -/
def quotedChar (c : Char) : List Char :=
  if c = '"' then ['\\', '"']
  else if c = '\\' then ['\\', '\\']
  else if c = '\n' then ['\\', 'n']
  else if c = '\r' then ['\\', 'r']
  else if c = '\t' then ['\\', 't']
  else if c = '\x00' then ['\\', '0']
  else if hasGlyph c then [c]
  else ['\\', 'u', '\x7b'] ++ hexadecimal c.toNat ++ ['\x7d']

/-- A text between double quotes. -/
def quoted (s : String) : String :=
  String.ofList ('"' :: s.toList.flatMap quotedChar ++ ['"'])

end Stencil.Text
