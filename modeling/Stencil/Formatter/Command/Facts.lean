/-
  Stencil.Formatter.Command.Facts
  ───────────────────────────────
  What is known about files, numbers and the system.

  `stat` tells about files as a format asks for it, `realpath` and `readlink`
  tell where a path leads to, and `factor` what primes make up a number.  Files
  have other names only where `link` gives them one, which is a copy here.
-/
import Stencil.Formatter.Command.FileWork
import Stencil.Formatter.Printf

namespace Stencil.Script

open Text (Byte)

/-! ## §1. Files. -/

/-- What a letter of a format tells about a file. -/
def factOf? (c : Call) (name : String) : Char → Option String
  | 'n' => some name
  | 'N' => some (fileArg name)
  | 's' => some (match c.tree.read (c.path name) with
      | .ok content => toString (Text.toBytes content).length
      | .error _ => "4096")
  | 'F' => some (match c.tree.read (c.path name) with
      | .ok content => if content = "" then "regular empty file" else "regular file"
      | .error _ => "directory")
  | 'a' => some (if c.tree.reachesDirectory (c.path name) then "755" else "644")
  | 'A' => some (if c.tree.reachesDirectory (c.path name) then "drwxr-xr-x" else "-rw-r--r--")
  | 'U' | 'G' => some "root"
  | 'u' | 'g' => some "0"
  | '%' => some "%"
  | _ => none

/-- A format filled with what is known about a file. -/
def factText (c : Call) (name : String) : List Char → String
  | [] => ""
  | ['%'] => "%"
  | '%' :: letter :: rest => (factOf? c name letter).getD "?" ++ factText c name rest
  | ch :: rest => ch.toString ++ factText c name rest

/-- Tell about files as a format asks for it. -/
def stat : Command :=
  let known := [valued "c" "format", valued "" "printf", flag "L" "dereference",
    flag "f" "file-system", flag "t" "terse"]
  withOptions known 1 fun o c =>
    let (format, ending, escapes) := match o.last? ["c", "printf"] with
      | some ("printf", text) => (text, "", true)
      | some (_, text) => (text, "\n", false)
      | none => ("  File: %n", "\n", false)
    if o.operands.isEmpty then c.misuse 1 "missing operand"
    else
      let told := o.operands.map fun name =>
        if c.tree.reaches (c.path name) then
          let text := factText c name format.toList ++ ending
          (Channel.output, if escapes then (unescape text.toList).1 else bytesOf text)
        else
          (Channel.errors, c.complaint ("cannot statx " ++ fileArg name
            ++ ": No such file or directory"))
      ⟨if told.all fun (channel, _) => channel = .output then 0 else 1, told, c.input, c.tree⟩

/-- Where a path leads to: all of it has to be there, or all but its last name, or
nothing. -/
def leadsTo? (c : Call) (needed : Nat) (text : String) : Option String :=
  let shown (place : List String) : String := "/" ++ "/".intercalate place
  match (c.tree.place (c.path text)).toOption with
  | some place =>
      if needed = 2 && !c.tree.holds place then none
      else if needed = 1 && !(c.tree.hasDirectory place.dropLast) then none
      else some (ofUnicode (shown place))
  | none =>
      if needed = 0 then some (ofUnicode (shown Files.workplace) ++ "/" ++ text) else none

/-- The options of `realpath` and `readlink`. -/
def pathOptions : List Known :=
  [flag "e" "canonicalize-existing", flag "m" "canonicalize-missing", flag "f" "canonicalize",
   flag "L" "logical", flag "P" "physical", flag "q" "quiet", flag "s" "strip",
   flag "s" "no-symlinks", flag "z" "zero", flag "n" "no-newline", flag "v" "verbose",
   valued "" "relative-to", valued "" "relative-base"]

/-- Tell where paths lead to; `links` tells whether only other names of files
do so without an option. -/
def tellPaths (links : Bool) : Command :=
  withOptions pathOptions 1 fun o c =>
    let needed := match o.last? ["e", "m", "f"] with
      | some ("e", _) => 2
      | some ("m", _) => 0
      | _ => 1
    let asked := !links || o.has "e" || o.has "m" || o.has "f"
    let ending := if o.has "z" then "\x00" else if o.has "n" then "" else "\n"
    let relative (place : String) : String :=
      match (o.value? "relative-to").bind (leadsTo? c needed) with
      | none => place
      | some base =>
          if place = base then "."
          else if (base ++ "/").toList.isPrefixOf place.toList then
            String.ofList (place.toList.drop (base.length + 1))
          else place
    if o.operands.isEmpty then c.misuse 1 "missing operand"
    else
      let told := o.operands.map fun name =>
        match if asked then leadsTo? c needed name else none with
        | some place => (Channel.output, bytesOf (relative place ++ ending))
        | none =>
            (Channel.errors, if links || o.has "q" then []
              else c.complaint (scriptArg name ++ ": No such file or directory"))
      ⟨if told.all fun (channel, _) => channel = .output then 0 else 1, told, c.input, c.tree⟩

/-- Take a file away. -/
def unlink : Command :=
  withOptions [] 1 fun o c =>
    match o.operands with
    | [] => c.misuse 1 "missing operand"
    | _ :: extra :: _ => c.misuse 1 ("extra operand " ++ quotedArg extra)
    | [name] =>
        match c.tree.read (c.path name), c.tree.place (c.path name) with
        | .ok _, .ok place => { c.silent 0 with tree := c.tree.erase place }
        | .error failure, _ | _, .error failure =>
            c.fail 1 ("cannot unlink " ++ fileArg name ++ ": " ++ failure.text)

/-- Give a file another name as well. -/
def link : Command :=
  withOptions [] 1 fun o c =>
    match o.operands with
    | [] => c.misuse 1 "missing operand"
    | [first] => c.misuse 1 ("missing operand after " ++ quotedArg first)
    | _ :: _ :: extra :: _ => c.misuse 1 ("extra operand " ++ quotedArg extra)
    | [source, target] =>
        let fail (why : String) : Result :=
          c.fail 1 ("cannot create link " ++ fileArg target ++ " to " ++ fileArg source ++ ": "
            ++ why)
        match c.tree.read (c.path source) with
        | .error failure => fail failure.text
        | .ok content =>
            if c.tree.reaches (c.path target) then fail "File exists"
            else
              match c.store c.tree target (Text.toBytes content) with
              | .ok tree => { c.silent 0 with tree }
              | .error failure => fail failure.text

/-! ## §2. Numbers. -/

/-- The primes that make up a number, from a divisor on that no lesser prime of it is
below, with fuel for so many steps. -/
def primesFrom : Nat → Nat → Nat → List Nat
  | 0, _, n => if 1 < n then [n] else []
  | fuel + 1, d, n =>
      if n < d * d then (if 1 < n then [n] else [])
      else if n % d = 0 then d :: primesFrom fuel d (n / d)
      else primesFrom fuel (if d = 2 then 3 else d + 2) n

/-- How many steps the search for primes takes at most. -/
def factorSteps : Nat := 5000000

/-- Primes with the number of times each is there. -/
def primePowers (primes : List Nat) : List String :=
  (primes.splitBy (· == ·)).map fun run =>
    toString (run.headD 0) ++ (if run.length = 1 then "" else "^" ++ toString run.length)

/-- Tell the primes that make up numbers. -/
def factor : Command :=
  withOptions [flag "h" "exponents"] 1 fun o c =>
    let given := if o.operands.isEmpty then
        (((textOf c.input).toList.splitBy fun a b => isSpaceChar a == isSpaceChar b).filter
          fun word => !(word.head?.any isSpaceChar)).map String.ofList
      else o.operands
    let told := given.map fun text =>
      let digits := text.toList.dropWhile (· == ' ')
      let digits := if digits.head? = some '+' then digits.tail else digits
      match readDigits 10 digits with
      | (n, true) =>
          let primes := if n = 0 then [] else primesFrom factorSteps 2 n
          let shown := if o.has "h" then primePowers primes else primes.map toString
          let row := toString n ++ ":" ++ String.join (shown.map (" " ++ ·)) ++ "\n"
          (Channel.output, bytesOf row)
      | (_, false) =>
          (Channel.errors, c.complaint (quotedArg text ++ " is not a valid positive integer"))
    ⟨if told.all fun (channel, _) => channel = .output then 0 else 1, told,
      if o.operands.isEmpty then [] else c.input, c.tree⟩

/-! ## §3. The system. -/

/-- Tell what system this is. -/
def uname : Command :=
  let known := [flag "a" "all", flag "s" "kernel-name", flag "n" "nodename",
    flag "r" "kernel-release", flag "v" "kernel-version", flag "m" "machine", flag "p" "processor",
    flag "i" "hardware-platform", flag "o" "operating-system"]
  withOptions known 1 fun o c =>
    match o.operands with
    | extra :: _ => c.misuse 1 ("extra operand " ++ quotedArg extra)
    | [] =>
        let parts := [("s", "Linux"), ("m", "x86_64"), ("o", "GNU/Linux")].filter fun (n, _) =>
          o.has n || o.has "a"
        let words := if parts.isEmpty then ["Linux"] else parts.map Prod.snd
        c.say (bytesOf (" ".intercalate words ++ "\n"))

/-- Tell the terminal: there is none. -/
def tty : Command :=
  withOptions [flag "s" "silent", flag "s" "quiet"] 2 fun o c =>
    match o.operands with
    | extra :: _ => c.misuse 2 ("extra operand " ++ quotedArg extra)
    | [] => { c.say (if o.has "s" then [] else bytesOf "not a tty\n") with status := 1 }

end Stencil.Script
