/-
  Stencil.Formatter.Command.Digest
  ────────────────────────────────
  Digests of inputs.

  A digest is a short number that stands for all of an input.  The input is
  filled up to whole blocks with its own length at the end, and one block after
  the other is mixed into a few words.  Most of the words that are used to start
  with and to mix are the first bits behind the point of the square and cube
  roots of prime numbers.
-/
import Stencil.Formatter.ByteText

namespace Stencil.Script

open Text (Byte)

/-! ## §1. Blocks and words. -/

/-- Turn the bits of a word to the left. -/
def rotateLeft (x : UInt32) (n : UInt32) : UInt32 :=
  (x <<< n) ||| (x >>> (32 - n))

/-- Turn the bits of a word to the right. -/
def rotateRight (x : UInt32) (n : UInt32) : UInt32 :=
  (x >>> n) ||| (x <<< (32 - n))

/-- Turn the bits of a long word to the right. -/
def rotateLong (x : UInt64) (n : UInt64) : UInt64 :=
  (x >>> n) ||| (x <<< (64 - n))

/-- The bytes of a number, so many of them, the lowest first. -/
def lowFirst : Nat → Nat → List Byte
  | 0, _ => []
  | n + 1, x => UInt8.ofNat (x % 256) :: lowFirst n (x / 256)

/-- The number that bytes stand for, the lowest first. -/
def fromLowFirst (bytes : List Byte) : Nat :=
  bytes.foldr (fun b n => b.toNat + 256 * n) 0

/-- An input filled up to whole blocks: a mark, zeros and the length in bits, which
takes an eighth of a block. -/
def filledBlocks (lowestFirst : Bool) (block : Nat) (input : List Byte) : List Byte :=
  let length := lowFirst (block / 8) (8 * input.length)
  let zeros := (block - 1 - block / 8 + block - input.length % block) % block
  input ++ 128 :: List.replicate zeros 0 ++ (if lowestFirst then length else length.reverse)

/-- Bytes in groups of a size. -/
def byteGroups (size : Nat) : Nat → List Byte → List (List Byte)
  | 0, _ => []
  | _ + 1, [] => []
  | fuel + 1, bytes => bytes.take size :: byteGroups size fuel (bytes.drop size)

/-- The numbers that groups of bytes stand for. -/
def numbersOf (lowestFirst : Bool) (size : Nat) (bytes : List Byte) : List Nat :=
  (byteGroups size (bytes.length + 1) bytes).map fun group =>
    fromLowFirst (if lowestFirst then group else group.reverse)

/-- The bytes of a number. -/
def bytesOfNumber (lowestFirst : Bool) (size n : Nat) : List Byte :=
  if lowestFirst then lowFirst size n else (lowFirst size n).reverse

/-- A digest: what it is called, and how it is made. -/
structure Digest where
  /-- Its name. -/
  name : String
  /-- The digest of an input. -/
  of : List Byte → List Byte

/-- The digits of bytes in base sixteen. -/
def hexText (bytes : List Byte) : String :=
  String.ofList (bytes.flatMap fun b =>
    let digits := Nat.toDigits 16 b.toNat
    List.replicate (2 - digits.length) '0' ++ digits)

/-- The digest made by mixing blocks of sixteen words of thirty-two bits into
some words. -/
def mixedWords (lowestFirst : Bool) (start : List UInt32)
    (mix : List UInt32 → Array UInt32 → List UInt32) (input : List Byte) : List Byte :=
  let filled := filledBlocks lowestFirst 64 input
  let words := (byteGroups 64 (filled.length + 1) filled).foldl
    (fun words block =>
      mix words ((numbersOf lowestFirst 4 block).map UInt32.ofNat).toArray) start
  words.flatMap fun w => bytesOfNumber lowestFirst 4 w.toNat

/-- The digest made by mixing blocks of sixteen words of sixty-four bits into
some words. -/
def mixedLongs (start : List UInt64) (mix : List UInt64 → Array UInt64 → List UInt64)
    (input : List Byte) : List Byte :=
  let filled := filledBlocks false 128 input
  let words := (byteGroups 128 (filled.length + 1) filled).foldl
    (fun words block => mix words ((numbersOf false 8 block).map UInt64.ofNat).toArray) start
  words.flatMap fun w => bytesOfNumber false 8 w.toNat

/-! ## §2. Roots. -/

/-- The first prime numbers. -/
def firstPrimes : List Nat :=
  (List.range 410).filter fun n =>
    2 ≤ n && (List.range n).all fun d => d < 2 || n % d != 0

/-- The largest number whose power is at most another number; its bits are found
from the highest on. -/
def rootBelow (power n : Nat) : Nat → Nat → Nat
  | 0, root => root
  | bit + 1, root =>
      let next := root + Nat.pow 2 bit
      rootBelow power n bit (if Nat.pow next power ≤ n then next else root)

/-- The first sixty-four bits behind the point of a root. -/
def rootBits (power n : Nat) : UInt64 :=
  UInt64.ofNat (rootBelow power (n * Nat.pow 2 (64 * power)) 69 0 % 0x10000000000000000)

/-- The bits of the square roots of the first prime numbers. -/
def squareRoots : List UInt64 := (firstPrimes.take 16).map (rootBits 2)

/-- The bits of the cube roots of the first prime numbers. -/
def cubeRoots : Array UInt64 := ((firstPrimes.take 80).map (rootBits 3)).toArray

/-- The first half of a long word. -/
def upperHalf (x : UInt64) : UInt32 := (x >>> 32).toUInt32

/-! ## §3. Digests of short words. -/

/-- The words of the sines that the first digest uses: the whole part of their
size times the number of words there are. -/
def sineWords : Array UInt32 :=
  ((List.range 64).map fun i =>
    (Float.abs (Float.sin (Float.ofNat (i + 1))) * 4294967296.0).toUInt32).toArray

/-- How far words are turned in the rounds of the first digest. -/
def turns : List (List UInt32) :=
  [[7, 12, 17, 22], [5, 9, 14, 20], [4, 11, 16, 23], [6, 10, 15, 21]]

/-- The words that the oldest digests start with. -/
def oldStart : List UInt32 := [0x67452301, 0xefcdab89, 0x98badcfe, 0x10325476]

/-- The digest of `md5sum`. -/
def md5 : Digest :=
  ⟨"MD5", mixedWords true oldStart fun words block =>
    let step (state : UInt32 × UInt32 × UInt32 × UInt32) (i : Nat) :
        UInt32 × UInt32 × UInt32 × UInt32 :=
      let (a, b, c, d) := state
      let (f, k) := match i / 16 with
        | 0 => ((b &&& c) ||| (~~~b &&& d), i)
        | 1 => ((d &&& b) ||| (~~~d &&& c), (5 * i + 1) % 16)
        | 2 => (b ^^^ c ^^^ d, (3 * i + 5) % 16)
        | _ => (c ^^^ (b ||| ~~~d), 7 * i % 16)
      let turn := (((turns[i / 16]?).getD [])[i % 4]?).getD 0
      let sum := a + f + (sineWords[i]?).getD 0 + (block[k]?).getD 0
      (d, b + rotateLeft sum turn, b, c)
    match words with
    | [a, b, c, d] =>
        let (a', b', c', d') := (List.range 64).foldl step (a, b, c, d)
        [a + a', b + b', c + c', d + d']
    | words => words⟩

/-- More words of a block, each from those before it. -/
def extended {α : Type} (next : Array α → α) : Nat → Array α → Array α
  | 0, words => words
  | n + 1, words => extended next n (words.push (next words))

/-- A word before the last one. -/
def wordBefore {α : Type} [OfNat α 0] (words : Array α) (n : Nat) : α :=
  (words[words.size - n]?).getD 0

/-- The digest of `sha1sum`. -/
def sha1 : Digest :=
  ⟨"SHA1", mixedWords false (oldStart ++ [0xc3d2e1f0]) fun words block =>
    let w := fun (ws : Array UInt32) (n : Nat) => wordBefore ws n
    let next (ws : Array UInt32) : UInt32 :=
      rotateLeft (w ws 3 ^^^ w ws 8 ^^^ w ws 14 ^^^ w ws 16) 1
    let all := extended next 64 block
    let step (s : UInt32 × UInt32 × UInt32 × UInt32 × UInt32) (i : Nat) :
        UInt32 × UInt32 × UInt32 × UInt32 × UInt32 :=
      let (a, b, c, d, e) := s
      let (f, k) : UInt32 × UInt32 := match i / 20 with
        | 0 => ((b &&& c) ||| (~~~b &&& d), 0x5a827999)
        | 1 => (b ^^^ c ^^^ d, 0x6ed9eba1)
        | 2 => ((b &&& c) ||| (b &&& d) ||| (c &&& d), 0x8f1bbcdc)
        | _ => (b ^^^ c ^^^ d, 0xca62c1d6)
      (rotateLeft a 5 + f + e + k + (all[i]?).getD 0, a, rotateLeft b 30, c, d)
    match words with
    | [a, b, c, d, e] =>
        let (a', b', c', d', e') := (List.range 80).foldl step (a, b, c, d, e)
        [a + a', b + b', c + c', d + d', e + e']
    | words => words⟩

/-- Mix a block into eight words. -/
def mixShort (words : List UInt32) (block : Array UInt32) : List UInt32 :=
  let w (ws : Array UInt32) (n : Nat) : UInt32 := wordBefore ws n
  let low (x : UInt32) : UInt32 := rotateRight x 7 ^^^ rotateRight x 18 ^^^ (x >>> 3)
  let high (x : UInt32) : UInt32 := rotateRight x 17 ^^^ rotateRight x 19 ^^^ (x >>> 10)
  let all := extended (fun ws => w ws 16 + low (w ws 15) + w ws 7 + high (w ws 2)) 48 block
  let step (s : List UInt32) (i : Nat) : List UInt32 :=
    match s with
    | [a, b, c, d, e, f, g, h] =>
        let s1 := rotateRight e 6 ^^^ rotateRight e 11 ^^^ rotateRight e 25
        let chosen := (e &&& f) ^^^ (~~~e &&& g)
        let root := upperHalf ((cubeRoots[i]?).getD 0)
        let t1 := h + s1 + chosen + root + (all[i]?).getD 0
        let s0 := rotateRight a 2 ^^^ rotateRight a 13 ^^^ rotateRight a 22
        let most := (a &&& b) ^^^ (a &&& c) ^^^ (b &&& c)
        [t1 + s0 + most, a, b, c, d + t1, e, f, g]
    | s => s
  List.zipWith (· + ·) words ((List.range 64).foldl step words)

/-- The digest of `sha256sum`. -/
def sha256 : Digest :=
  ⟨"SHA256", mixedWords false ((squareRoots.take 8).map upperHalf) mixShort⟩

/-- The digest of `sha224sum`. -/
def sha224 : Digest :=
  ⟨"SHA224", fun input =>
    (mixedWords false ((squareRoots.drop 8).map UInt64.toUInt32) mixShort input).take 28⟩

/-! ## §4. Digests of long words. -/

/-- Mix a block into eight long words. -/
def mixLong (words : List UInt64) (block : Array UInt64) : List UInt64 :=
  let w (ws : Array UInt64) (n : Nat) : UInt64 := wordBefore ws n
  let low (x : UInt64) : UInt64 := rotateLong x 1 ^^^ rotateLong x 8 ^^^ (x >>> 7)
  let high (x : UInt64) : UInt64 := rotateLong x 19 ^^^ rotateLong x 61 ^^^ (x >>> 6)
  let all := extended (fun ws => w ws 16 + low (w ws 15) + w ws 7 + high (w ws 2)) 64 block
  let step (s : List UInt64) (i : Nat) : List UInt64 :=
    match s with
    | [a, b, c, d, e, f, g, h] =>
        let s1 := rotateLong e 14 ^^^ rotateLong e 18 ^^^ rotateLong e 41
        let chosen := (e &&& f) ^^^ (~~~e &&& g)
        let t1 := h + s1 + chosen + (cubeRoots[i]?).getD 0 + (all[i]?).getD 0
        let s0 := rotateLong a 28 ^^^ rotateLong a 34 ^^^ rotateLong a 39
        let most := (a &&& b) ^^^ (a &&& c) ^^^ (b &&& c)
        [t1 + s0 + most, a, b, c, d + t1, e, f, g]
    | s => s
  List.zipWith (· + ·) words ((List.range 80).foldl step words)

/-- The digest of `sha512sum`. -/
def sha512 : Digest :=
  ⟨"SHA512", mixedLongs (squareRoots.take 8) mixLong⟩

/-- The digest of `sha384sum`. -/
def sha384 : Digest :=
  ⟨"SHA384", fun input => (mixedLongs (squareRoots.drop 8) mixLong input).take 48⟩

/-- The orders in which the words of a block are taken, round by round. -/
def wordOrders : List (List Nat) :=
  [[0, 1, 2, 3, 4, 5, 6, 7, 8, 9, 10, 11, 12, 13, 14, 15],
   [14, 10, 4, 8, 9, 15, 13, 6, 1, 12, 0, 2, 11, 7, 5, 3],
   [11, 8, 12, 0, 5, 2, 15, 13, 10, 14, 3, 6, 7, 1, 9, 4],
   [7, 9, 3, 1, 13, 12, 11, 14, 2, 6, 5, 10, 4, 0, 15, 8],
   [9, 0, 5, 7, 2, 4, 10, 15, 14, 1, 11, 12, 6, 8, 3, 13],
   [2, 12, 6, 10, 0, 11, 8, 3, 4, 13, 7, 5, 15, 14, 1, 9],
   [12, 5, 1, 15, 14, 13, 4, 10, 0, 7, 6, 3, 9, 2, 8, 11],
   [13, 11, 7, 14, 12, 1, 3, 9, 5, 0, 15, 4, 8, 6, 2, 10],
   [6, 15, 14, 9, 11, 3, 0, 8, 12, 2, 13, 7, 1, 4, 10, 5],
   [10, 2, 8, 4, 7, 6, 1, 5, 15, 11, 9, 14, 3, 12, 13, 0]]

/-- The places that are mixed with one another: first the columns of a square of
sixteen words, and then its diagonals. -/
def mixedPlaces : List (Nat × Nat × Nat × Nat) :=
  [(0, 4, 8, 12), (1, 5, 9, 13), (2, 6, 10, 14), (3, 7, 11, 15),
   (0, 5, 10, 15), (1, 6, 11, 12), (2, 7, 8, 13), (3, 4, 9, 14)]

/-- Mix four places of a square with two words. -/
def mixFour (v : Array UInt64) (places : Nat × Nat × Nat × Nat) (x y : UInt64) : Array UInt64 :=
  let (i, j, k, l) := places
  let at_ (n : Nat) : UInt64 := (v[n]?).getD 0
  let a := at_ i + at_ j + x
  let d := rotateLong (at_ l ^^^ a) 32
  let c := at_ k + d
  let b := rotateLong (at_ j ^^^ c) 24
  let a := a + b + y
  let d := rotateLong (d ^^^ a) 16
  let c := c + d
  let b := rotateLong (b ^^^ c) 63
  (((v.set! i a).set! j b).set! k c).set! l d

/-- Mix a block into eight words; `used` bytes were taken up to its end. -/
def mixSquare (words : List UInt64) (block : Array UInt64) (used : Nat) (last : Bool) :
    List UInt64 :=
  let start := squareRoots.take 8
  let turned := start.zipIdx.map fun (x, n) =>
    if n = 4 then x ^^^ UInt64.ofNat used else if n = 6 && last then ~~~x else x
  let square := (List.range 12).foldl
    (fun v round =>
      let order := (wordOrders[round % 10]?).getD []
      mixedPlaces.zipIdx.foldl
        (fun v (places, n) =>
          let word (k : Nat) : UInt64 := (block[(order[k]?).getD 0]?).getD 0
          mixFour v places (word (2 * n)) (word (2 * n + 1))) v)
    (words ++ turned).toArray
  words.zipIdx.map fun (x, n) => x ^^^ (square[n]?).getD 0 ^^^ (square[n + 8]?).getD 0

/-- The digest of `b2sum`, of so many bytes. -/
def blake2b (size : Nat) : Digest :=
  ⟨if size = 64 then "BLAKE2b" else "BLAKE2b-" ++ toString (8 * size), fun input =>
    let start := squareRoots.take 8
    let words := start.zipIdx.map fun (x, n) =>
      if n = 0 then x ^^^ 0x01010000 ^^^ UInt64.ofNat size else x
    let blocks := if input.isEmpty then [[]] else byteGroups 128 (input.length + 1) input
    let mixed := blocks.zipIdx.foldl
      (fun words (block, n) =>
        let filled := block ++ List.replicate (128 - block.length) 0
        let last := n + 1 == blocks.length
        mixSquare words ((numbersOf true 8 filled).map UInt64.ofNat).toArray
          (if last then input.length else 128 * (n + 1)) last)
      words
    (mixed.flatMap fun w => bytesOfNumber true 8 w.toNat).take size⟩

end Stencil.Script
