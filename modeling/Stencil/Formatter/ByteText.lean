/-
  Stencil.Formatter.ByteText
  ──────────────────────────
  Texts of bytes.

  Scripts and the commands they call know of bytes, and of nothing else: each
  character of a text in here stands for one byte.  Texts in Unicode come in
  as their bytes and go out read as UTF-8, so nothing that is no text gets
  lost in between.
-/
import Stencil.Text.Utf8

namespace Stencil.Script

open Text (Byte)

/-! ## §1. Texts and bytes. -/

/-- The bytes of a text of bytes. -/
def bytesOf (text : String) : List Byte :=
  text.toList.map fun c => UInt8.ofNat c.toNat

/-- The text of bytes. -/
def textOf (bytes : List Byte) : String :=
  String.ofList (bytes.map fun b => Char.ofNat b.toNat)

/-- A text in Unicode as a text of bytes. -/
def ofUnicode (text : String) : String :=
  textOf (Text.toBytes text)

/-- A text of bytes in Unicode; what is no text is replaced. -/
def toUnicode (text : String) : String :=
  Text.decodeLenient (bytesOf text)

/-- The pieces of a text between characters of a kind. -/
def splitChars (separates : Char → Bool) : List Char → List (List Char)
  | [] => [[]]
  | c :: cs =>
      match splitChars separates cs with
      | [] => [[c]]
      | piece :: rest => if separates c then [] :: piece :: rest else (c :: piece) :: rest

/-! ## §2. Lines. -/

/-- The byte that ends a line. -/
def lineFeed : Byte := 10

/-- The pieces of an input, each with the byte that ends it; the last one may
have none. -/
def piecesBy (ending : Byte) (bytes : List Byte) : List (List Byte) :=
  let first := bytes.takeWhile (· != ending)
  match _h : bytes.drop first.length with
  | [] => if first.isEmpty then [] else [first]
  | feed :: rest => (first ++ [feed]) :: piecesBy ending rest
termination_by bytes.length
decreasing_by
  have hlen := congrArg List.length _h
  simp only [List.length_drop, List.length_cons] at hlen
  omega

/-- The lines of an input, each with its end. -/
def byteLines (bytes : List Byte) : List (List Byte) :=
  piecesBy lineFeed bytes

/-- A line without its end. -/
def lineBody (line : List Byte) : List Byte :=
  if line.getLast? = some lineFeed then line.dropLast else line

/-- The lines of an input without their ends. -/
def lineBodies (bytes : List Byte) : List (List Byte) :=
  (byteLines bytes).map lineBody

end Stencil.Script
