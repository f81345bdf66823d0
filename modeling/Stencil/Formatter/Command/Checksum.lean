/-
  Stencil.Formatter.Command.Checksum
  ──────────────────────────────────
  Telling and checking sums of files.

  `md5sum`, `sha1sum` and others tell digests, one file a line, and check files
  against such lines.  `cksum` tells the rest of a division of the input by a
  polynomial, and `sum` a sum of its bytes.
-/
import Stencil.Formatter.Command.Amount
import Stencil.Formatter.Command.Digest

namespace Stencil.Script

open Text (Byte)

/-! ## §1. Lines of sums. -/

/-- A name in which backslashes and line ends are marked; the flag tells whether
there were any. -/
def markedName (name : String) : String × Bool :=
  let marked := String.join (name.toList.map fun c =>
    if c = '\\' then "\\\\" else if c = '\n' then "\\n" else if c = '\r' then "\\r" else c.toString)
  (marked, marked ≠ name)

/-- How a digest is told. -/
structure SumView where
  /-- Does the name of the digest come first? -/
  tagged : Bool
  /-- Is there a star before the name? -/
  starred : Bool
  /-- The byte that ends a line. -/
  ending : Byte

/-- The line about a file. -/
def SumView.line (v : SumView) (d : Digest) (name : String) (bytes : List Byte) : List Byte :=
  let (shown, marked) := if v.ending = 0 then (name, false) else markedName name
  let digits := hexText (d.of bytes)
  let text := if v.tagged then d.name ++ " (" ++ shown ++ ") = " ++ digits
    else digits ++ (if v.starred then " *" else "  ") ++ shown
  bytesOf ((if marked then "\\" else "") ++ text) ++ [v.ending]

/-- The name and the digits on a line; none if it is not about such a digest. -/
def sumLine? (d : Digest) (line : String) : Option (String × String) :=
  let size := 2 * (d.of []).length
  let isHex (cs : List Char) : Bool := cs.length == size && cs.all fun c => digitValue c < 16
  let marked := line.toList.head? = some '\\'
  let cs := if marked then line.toList.tail else line.toList
  let unmark (name : List Char) : String :=
    if marked then
      (String.ofList name).replace "\\n" "\n" |>.replace "\\\\" "\\"
    else String.ofList name
  let tag := (d.name ++ " (").toList
  let plain := match cs.drop size with
    | ' ' :: mark :: name =>
        if isHex (cs.take size) && (mark = ' ' || mark = '*') && !name.isEmpty then
          some (unmark name, String.ofList (cs.take size))
        else none
    | _ => none
  if tag.isPrefixOf cs then
    let rest := cs.drop tag.length
    let digits := rest.drop (rest.length - size)
    let front := rest.take (rest.length - size)
    if isHex digits && ") = ".toList.isSuffixOf front then
      some (unmark (front.take (front.length - 4)), String.ofList digits)
    else none
  else plain

/-! ## §2. Checking. -/

/-- What checking has found. -/
structure Checked where
  /-- What was written. -/
  written : List (Channel × List Byte)
  /-- Lines about a sum. -/
  proper : Nat
  /-- Lines about none. -/
  improper : Nat
  /-- Files that could not be read. -/
  unread : Nat
  /-- Sums that were other ones. -/
  wrong : Nat
  /-- Sums that were the same. -/
  right : Nat

/-- A number of things in words. -/
def counted (n : Nat) (one many : String) : String :=
  if n = 1 then "1 " ++ one else toString n ++ " " ++ many

/-- Check a line. -/
def checkLine (c : Call) (o : Options) (d : Digest) (title : String) (k : Checked)
    (numbered : String × Nat) : Checked :=
  let (line, n) := numbered
  let told (name verdict : String) : List (Channel × List Byte) :=
    if o.has "status" then [] else [(.output, bytesOf (name ++ ": " ++ verdict ++ "\n"))]
  if line.toList.head? = some '#' then k
  else
    match sumLine? d line with
    | none =>
        let warning := if o.has "w" then
            [(Channel.errors, c.complaint (title ++ ": " ++ toString n ++ ": improperly formatted "
              ++ d.name ++ " checksum line"))]
          else []
        { k with improper := k.improper + 1, written := k.written ++ warning }
    | some (name, digits) =>
        let k := { k with proper := k.proper + 1 }
        match c.read name with
        | .error failure =>
            if failure = .notFound && o.has "ignore-missing" then k
            else
              { k with
                unread := k.unread + 1
                written := k.written ++ [(.errors, c.complaint (Call.plainTrouble name failure))]
                  ++ told name "FAILED open or read" }
        | .ok bytes =>
            if hexText (d.of bytes) = digits.toLower then
              { k with
                right := k.right + 1
                written := k.written ++ (if o.has "quiet" then [] else told name "OK") }
            else { k with wrong := k.wrong + 1, written := k.written ++ told name "FAILED" }

/-- Check a file of sums. -/
def checkFile (c : Call) (o : Options) (d : Digest) (name : String) (bytes : List Byte) :
    List (Channel × List Byte) × Bool :=
  let title := scriptArg (if name = "-" then "standard input" else name)
  let lines := ((lineBodies bytes).map textOf).zipIdx 1
  let k := lines.foldl (checkLine c o d title) ⟨[], 0, 0, 0, 0, 0⟩
  let warn (n : Nat) (one many : String) : List (Channel × List Byte) :=
    if n = 0 || o.has "status" then []
    else [(.errors, c.complaint ("WARNING: " ++ counted n one many))]
  if k.proper = 0 then
    (k.written
        ++ [(.errors, c.complaint (title ++ ": no properly formatted checksum lines found"))],
      false)
  else
    let warnings := warn k.improper "line is improperly formatted" "lines are improperly formatted"
      ++ warn k.unread "listed file could not be read" "listed files could not be read"
      ++ warn k.wrong "computed checksum did NOT match" "computed checksums did NOT match"
    let missing := if o.has "ignore-missing" && k.right = 0 && k.wrong = 0 && k.unread = 0 then
        [(Channel.errors, c.complaint (title ++ ": no file was verified"))] else []
    (k.written ++ warnings ++ missing,
      k.unread = 0 && k.wrong = 0 && missing.isEmpty && !(o.has "strict" && k.improper ≠ 0))

/-- The options of commands that tell digests. -/
def digestOptions : List Known :=
  [flag "b" "binary", flag "c" "check", valued "l" "length", flag "" "tag", flag "t" "text",
   flag "z" "zero", flag "" "ignore-missing", flag "" "quiet", flag "" "status", flag "" "strict",
   flag "w" "warn"]

/-- Tell the digests of files, or check them. -/
def tellDigests (d : Digest) (v : SumView) (o : Options) : Command := fun c =>
  if o.has "c" then
    let found := c.contents o.operands
    let results := found.map fun (name, content) =>
      match content with
      | .ok bytes => checkFile c o d name bytes
      | .error failure => ([(Channel.errors, c.complaint (Call.plainTrouble name failure))], false)
    ⟨if results.all Prod.snd then 0 else 1, results.flatMap Prod.fst, c.leftOver o.operands, c.tree⟩
  else c.each o.operands (v.line d)

/-- Tell a digest of files. -/
def digestCommand (d : Digest) : Command :=
  withOptions digestOptions 1 fun o c =>
    let starred := match o.last? ["b", "t"] with
      | some (name, _) => name == "b"
      | none => false
    tellDigests d ⟨o.has "tag", starred, if o.has "z" then 0 else lineFeed⟩ o c

/-- Tell a digest of files whose length may be chosen. -/
def b2sum : Command :=
  withOptions digestOptions 1 fun o c =>
    match readSize [] ((o.value? "l").getD "512") with
    | .error _ => c.fail 1 ("invalid length: " ++ quotedArg ((o.value? "l").getD ""))
    | .ok bits =>
        if bits % 8 ≠ 0 then
          c.fail 1 ("invalid length: " ++ quotedArg (toString bits) ++ "\n" ++ c.name
            ++ ": length is not a multiple of 8")
        else if 512 < bits then
          c.fail 1 ("invalid length: " ++ quotedArg (toString bits) ++ "\n" ++ c.name
            ++ ": maximum digest length for 'BLAKE2b' is 512 bits")
        else
          let size := if bits = 0 then 64 else bits / 8
          digestCommand (blake2b size)
            { c with args := (o.flags.filter fun (n, _) => n != "l").map (fun (n, _) =>
                if n.length = 1 then "-" ++ n else "--" ++ n) ++ "--" :: o.operands }

/-! ## §3. Plain sums. -/

/-- One byte more for the rest. -/
def addToRest (rest : UInt32) (b : Byte) : UInt32 :=
  (List.range 8).foldl
    (fun r _ => if r &&& 0x80000000 != 0 then (r <<< 1) ^^^ 0x04c11db7 else r <<< 1)
    (rest ^^^ (b.toUInt32 <<< 24))

/-- The bytes of a number without zeros at its end, the lowest first. -/
def lengthBytes : Nat → Nat → List Byte
  | 0, _ => []
  | fuel + 1, n => if n = 0 then [] else UInt8.ofNat (n % 256) :: lengthBytes fuel (n / 256)

/-- The rest of a division of an input. -/
def restOf (bytes : List Byte) : Nat :=
  (~~~((bytes ++ lengthBytes 8 bytes.length).foldl addToRest 0)).toNat

/-- The sum of bytes that is turned by a bit before each one. -/
def turnedSum (bytes : List Byte) : Nat :=
  (bytes.foldl (fun (sum : UInt16) b => ((sum >>> 1) ||| (sum <<< 15)) + b.toUInt16) 0).toNat

/-- The sum of bytes with what does not fit added again. -/
def foldedSum (bytes : List Byte) : Nat :=
  let sum := (bytes.foldl (fun n b => n + b.toNat) 0) % 0x100000000
  let folded := sum % 65536 + sum / 65536
  folded % 65536 + folded / 65536

/-- How many blocks of a size there are in so many bytes. -/
def blocksOf (size n : Nat) : Nat := (n + size - 1) / size

/-- The sums that are no digests: the text before the name, and whether a name
is always there. -/
def plainSum (kind : String) (bytes : List Byte) : String :=
  match kind with
  | "bsd" =>
      let digits := toString (turnedSum bytes)
      String.ofList (List.replicate (5 - digits.length) '0') ++ digits ++ " "
        ++ rightAligned 5 (toString (blocksOf 1024 bytes.length))
  | "sysv" => toString (foldedSum bytes) ++ " " ++ toString (blocksOf 512 bytes.length)
  | _ => toString (restOf bytes) ++ " " ++ toString bytes.length

/-- Tell plain sums of files. -/
def tellSums (kind : String) (names : List String) : Command := fun c =>
  c.each names fun name bytes =>
    bytesOf (plainSum kind bytes ++ (if names.isEmpty then "" else " " ++ name) ++ "\n")

/-- Tell a sum of bytes. -/
def sumCommand : Command :=
  withOptions [flag "r" "", flag "s" "sysv"] 1 fun o c =>
    let kind := match o.last? ["r", "s"] with
      | some ("s", _) => "sysv"
      | _ => "bsd"
    tellSums kind o.operands c

/-- The digests by their names. -/
def digestsByName : List (String × Digest) :=
  [("md5", md5), ("sha1", sha1), ("sha224", sha224), ("sha256", sha256), ("sha384", sha384),
   ("sha512", sha512), ("blake2b", blake2b 64)]

/-- Tell the rests and the lengths of files, or another sum of them. -/
def cksum : Command :=
  let known := digestOptions ++ [valued "a" "algorithm", flag "" "untagged", flag "" "base64",
    flag "" "raw", flag "" "debug"]
  withOptions known 1 fun o c =>
    let names := [["bsd"], ["sysv"], ["crc"]] ++ (digestsByName.map fun (n, _) => [n]) ++ [["sm3"]]
    match chooseWord "--algorithm" ((o.value? "a").getD "crc") names with
    | .error message => c.misuse 1 message
    | .ok kind =>
        match digestsByName.lookup kind with
        | some d =>
            tellDigests d ⟨!o.has "untagged", o.has "b", if o.has "z" then 0 else lineFeed⟩ o c
        | none => tellSums kind o.operands c

end Stencil.Script
