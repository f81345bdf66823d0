/-
  Stencil.Formatter.Command.Encode
  ────────────────────────────────
  Bytes as letters, and the other way round.

  An alphabet has a power of two of letters, so that each letter stands for so
  many bits.  Letters come in groups that stand for whole bytes; the last group
  is filled up with equals signs.
-/
import Stencil.Formatter.Command.Amount
import Stencil.Formatter.Command.Digest

namespace Stencil.Script

open Text (Byte)

/-! ## §1. Alphabets. -/

/-- An alphabet that bytes are written in. -/
structure Alphabet where
  /-- How many bits a letter stands for. -/
  bits : Nat
  /-- How many letters are in a group. -/
  group : Nat
  /-- The letters, by the numbers they stand for. -/
  letters : List Byte

namespace Alphabet

/-- How many bytes a group stands for. -/
def groupBytes (a : Alphabet) : Nat := a.bits * a.group / 8

/-- The letters of a number, the highest first. -/
def lettersOf (a : Alphabet) : Nat → Nat → List Byte
  | 0, _ => []
  | count + 1, n =>
      let size := Nat.pow 2 a.bits
      a.lettersOf count (n / size) ++ [(a.letters[n % size]?).getD 0x3d]

/-- The letters of the bytes of a group. -/
def groupText (a : Alphabet) (bytes : List Byte) : List Byte :=
  let filled := bytes ++ List.replicate (a.groupBytes - bytes.length) 0
  let used := (8 * bytes.length + a.bits - 1) / a.bits
  let all := a.lettersOf a.group (filled.foldl (fun n b => 256 * n + b.toNat) 0)
  all.take used ++ List.replicate (a.group - used) 0x3d

/-- The letters of bytes. -/
def encode (a : Alphabet) (bytes : List Byte) : List Byte :=
  (byteGroups a.groupBytes (bytes.length + 1) bytes).flatMap a.groupText

/-- The number that a letter stands for. -/
def valueOf? (a : Alphabet) (letter : Byte) : Option Nat :=
  a.letters.findIdx? (· == letter)

/-- The bytes of a group, and whether it is a proper one: letters, and then as many
equals signs as the last byte asks for. -/
def groupValue (a : Alphabet) (group : List Byte) : List Byte × Bool :=
  let proper := group.takeWhile fun l => (a.valueOf? l).isSome
  let filled := proper ++ List.replicate (a.group - proper.length) (a.letters.headD 0)
  let n := filled.foldl (fun n l => Nat.pow 2 a.bits * n + (a.valueOf? l).getD 0) 0
  let count := a.bits * proper.length / 8
  let bytes := ((lowFirst a.groupBytes n).reverse).take count
  let used := (8 * count + a.bits - 1) / a.bits
  let rest := group.drop proper.length
  (bytes, group.length = a.group && 0 < count && used = proper.length
    && rest.all (· == 0x3d))

/-- The bytes of groups of letters up to the first that is not proper; the flag
tells whether all of them are. -/
def decodeGroups (a : Alphabet) : List (List Byte) → List Byte × Bool
  | [] => ([], true)
  | group :: groups =>
      let (bytes, proper) := a.groupValue group
      if proper then
        let (more, whole) := a.decodeGroups groups
        (bytes ++ more, whole)
      else if group.length < a.group && a.group ≠ 4 then ([], false)
      else (bytes, false)

/-- The bytes of letters; the flag tells whether the letters are proper. -/
def decode (a : Alphabet) (text : List Byte) : List Byte × Bool :=
  a.decodeGroups (byteGroups a.group (text.length + 1) text)

end Alphabet

/-- Sixty-four letters, with the last two of them given. -/
def sixBits (last : String) : Alphabet :=
  ⟨6, 4, bytesOf ("ABCDEFGHIJKLMNOPQRSTUVWXYZabcdefghijklmnopqrstuvwxyz0123456789" ++ last)⟩

/-- Thirty-two letters. -/
def fiveBits (letters : String) : Alphabet := ⟨5, 8, bytesOf letters⟩

/-- The alphabets by their names. -/
def alphabets : List (String × Alphabet) :=
  [("base64", sixBits "+/"), ("base64url", sixBits "-_"),
   ("base32", fiveBits "ABCDEFGHIJKLMNOPQRSTUVWXYZ234567"),
   ("base32hex", fiveBits "0123456789ABCDEFGHIJKLMNOPQRSTUV"),
   ("base16", ⟨4, 2, bytesOf "0123456789ABCDEF"⟩), ("base2msbf", ⟨1, 8, bytesOf "01"⟩)]

/-! ## §2. Commands. -/

/-- Bytes in lines of a width; zero is one line without an end. -/
def inLines (width : Nat) (text : List Byte) : List Byte :=
  if width = 0 then text
  else (byteGroups width (text.length + 1) text).flatMap (· ++ [lineFeed])

/-- Write bytes as letters, or the other way round. -/
def convert (a : Alphabet) (o : Options) : Command := fun c =>
  match o.operands, readSize [] ((o.value? "w").getD "76") with
  | _, .error .malformed =>
      c.fail 1 ("invalid wrap size: " ++ quotedArg ((o.value? "w").getD ""))
  | _ :: extra :: _, _ => c.misuse 1 ("extra operand " ++ quotedArg extra)
  | names, width =>
      if names.any fun name => !(c.read name).isOk then c.each names fun _ bytes => bytes
      else if o.has "d" then
        let r := c.together names id
        let input := (r.written.flatMap Prod.snd).filter (· != lineFeed)
        let kept := if o.has "i" then
            input.filter fun b => b == 0x3d || (a.valueOf? b).isSome
          else input
        let (bytes, whole) := a.decode kept
        if whole then { r with written := [(.output, bytes)] }
        else { r with
          status := 1
          written := [(.output, bytes), (.errors, c.complaint "invalid input")] }
      else c.together names fun bytes => inLines (width.toOption.getD 0) (a.encode bytes)

/-- The options of all conversions. -/
def convertOptions : List Known :=
  [flag "d" "decode", flag "i" "ignore-garbage", valued "w" "wrap"]

/-- Write bytes in an alphabet. -/
def convertCommand (a : Alphabet) : Command := withOptions convertOptions 1 (convert a)

/-- Write bytes in an alphabet that is chosen by an option. -/
def basenc : Command :=
  withOptions (convertOptions ++ alphabets.map fun (name, _) => flag "" name) 1 fun o c =>
    match o.last? (alphabets.map Prod.fst) with
    | none => c.misuse 1 "missing encoding type"
    | some (name, _) => convert ((alphabets.lookup name).getD (sixBits "+/")) o c

end Stencil.Script
