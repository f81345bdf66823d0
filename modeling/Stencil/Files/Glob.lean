/-
  Stencil.Files.Glob
  ──────────────────
  Patterns for file paths.

  A question mark stands for one character, a star for any run of them, and
  brackets for one character of a class or outside of it.  Two stars, alone
  between slashes, stand for any number of directories.  A pattern is matched
  part by part against a tree of files; what it finds comes in the order of
  a walk that takes the names of each directory in order.
-/
import Stencil.Files.Tree

namespace Stencil.Files

/-! ## §1. Patterns. -/

/-- A range of characters, both ends included. -/
structure CharRange where
  /-- The first character. -/
  low : Char
  /-- The last character. -/
  high : Char
  deriving Repr, DecidableEq

/-- A piece of a pattern. -/
inductive Wildcard where
  /-- This character. -/
  | char (c : Char)
  /-- Any one character. -/
  | anyChar
  /-- Any run of characters. -/
  | anyRun
  /-- Any number of directories. -/
  | anyDirectories
  /-- One character of these. -/
  | within (ranges : List CharRange)
  /-- One character but these. -/
  | except_ (ranges : List CharRange)
  deriving Repr, DecidableEq

/-- Why a text is no pattern. -/
inductive PatternFault where
  /-- More than two stars in a row. -/
  | tooManyStars
  /-- Two stars that are not alone between slashes. -/
  | crowdedStars
  /-- A bracket that opens no class. -/
  | openClass
  deriving Repr, DecidableEq

/-- A fault and the number of characters before it. -/
structure PatternError where
  /-- How many characters came before. -/
  position : Nat
  /-- What is wrong. -/
  fault : PatternFault
  deriving Repr, DecidableEq

/-- The wording of a pattern's fault. -/
def PatternError.message (e : PatternError) : String :=
  "Pattern syntax error near position " ++ toString e.position ++ ": "
    ++ (match e.fault with
      | .tooManyStars => "wildcards are either regular `*` or recursive `**`"
      | .crowdedStars => "recursive wildcards must form a single path component"
      | .openClass => "invalid range pattern")

/-! ## §2. Reading patterns. -/

/-- The ranges a class consists of. -/
def charRanges : List Char → List CharRange
  | low :: '-' :: high :: rest => ⟨low, high⟩ :: charRanges rest
  | c :: rest => ⟨c, c⟩ :: charRanges rest
  | [] => []

/-- The class behind an opening bracket, and how many characters it takes.
Its first character never closes it. -/
def classAt? (cs : List Char) : Option (Wildcard × Nat) :=
  let (outside, body) := match cs with
    | '!' :: rest => (true, rest)
    | rest => (false, rest)
  match body with
  | [] => none
  | first :: rest =>
      let more := rest.takeWhile (· != ']')
      if more.length < rest.length then
        let ranges := charRanges (first :: more)
        some (if outside then .except_ ranges else .within ranges,
          more.length + 2 + (if outside then 1 else 0))
      else none

/-- Read a pattern from a position on; `before` is the character before it. -/
def wildcardsFrom (position : Nat) (before : Option Char) (cs : List Char) :
    Except PatternError (List Wildcard) :=
  match _hcs : cs with
  | [] => .ok []
  | c :: rest =>
      if c = '?' then (wildcardsFrom (position + 1) (some c) rest).map (.anyChar :: ·)
      else if c = '*' then
        let stars := (rest.takeWhile (· == '*')).length + 1
        let after := rest.drop (stars - 1)
        if stars > 2 then .error ⟨position + 2, .tooManyStars⟩
        else if stars = 2 then
          if before.any (· != '/') then .error ⟨position - 1, .crowdedStars⟩
          else
            match after with
            | [] => .ok [.anyDirectories]
            | '/' :: _ =>
                (wildcardsFrom (position + 3) (some '/') (rest.drop 2)).map (.anyDirectories :: ·)
            | _ => .error ⟨position + 2, .crowdedStars⟩
        else (wildcardsFrom (position + 1) (some c) rest).map (.anyRun :: ·)
      else if c = '[' then
        match classAt? rest with
        | none => .error ⟨position, .openClass⟩
        | some (wildcard, n) =>
            (wildcardsFrom (position + 1 + n) (some ']') (rest.drop n)).map (wildcard :: ·)
      else (wildcardsFrom (position + 1) (some c) rest).map (.char c :: ·)
termination_by cs.length
decreasing_by
  all_goals subst _hcs; simp only [List.length_cons, List.length_drop]; omega

/-- Read a pattern. -/
def wildcards (cs : List Char) : Except PatternError (List Wildcard) :=
  wildcardsFrom 0 none cs

/-! ## §3. Matching names. -/

/-- Is the character in one of the ranges? -/
def inRanges (ranges : List CharRange) (c : Char) : Bool :=
  ranges.any fun r => r.low ≤ c && c ≤ r.high

/-- Does the piece stand for the character? -/
def Wildcard.accepts (w : Wildcard) (c : Char) : Bool :=
  match w with
  | char d => c == d
  | anyChar => true
  | within ranges => inRanges ranges c
  | except_ ranges => !inRanges ranges c
  | anyRun | anyDirectories => false

/-- From whether a test holds of each tail of a name to whether it holds of
some tail of each tail. -/
def holdsLater : List Bool → List Bool
  | [] => []
  | here :: later =>
      let rest := holdsLater later
      (here || rest.headD false) :: rest

/-- For each tail of a name, the name itself first and the empty one last: does
the pattern stand for the whole tail?  One row for each piece of the pattern is
all that is needed, however many runs there are. -/
def tailMatches : List Wildcard → List Char → List Bool
  | [], name => List.replicate name.length false ++ [true]
  | .anyRun :: ws, name => holdsLater (tailMatches ws name)
  | .anyDirectories :: ws, name => holdsLater (tailMatches ws name)
  | w :: ws, name =>
      List.zipWith (fun c later => w.accepts c && later) name (tailMatches ws name).tail ++ [false]

/-- Does the pattern stand for the whole name? -/
def matchesName (ws : List Wildcard) (name : List Char) : Bool :=
  (tailMatches ws name).headD false

/-- The text of a pattern that stands for itself. -/
def literal? : List Wildcard → Option (List Char)
  | [] => some []
  | .char c :: ws => (literal? ws).map (c :: ·)
  | _ :: _ => none

/-! ## §4. Walking. -/

/-- A pattern read part by part. -/
structure Glob where
  /-- Does it start at the root of all files? -/
  absolute : Bool
  /-- The patterns of the parts. -/
  parts : List (List Wildcard)
  /-- Does it ask for directories only? -/
  directoriesOnly : Bool
  deriving Repr, DecidableEq

/-- The parts of a path pattern: the pieces between slashes, without an empty
one at the end. -/
def patternParts (cs : List Char) : List (List Char) :=
  let all := pieces cs
  if all.getLast? = some [] then all.dropLast else all

/-- Read a path pattern. -/
def Glob.ofText (pattern : String) : Except PatternError Glob := do
  let cs := pattern.toList
  let _ ← wildcards cs
  let absolute := isAbsolute pattern
  let parts ← (patternParts (if absolute then cs.tail else cs)).mapM wildcards
  return ⟨absolute, parts, endsInSlash pattern⟩

/-- Stands for any number of directories. -/
def isRecursive (p : List Wildcard) : Bool :=
  p.contains .anyDirectories

/-- A path below another; the working directory is not written. -/
def below (path name : String) : String :=
  if Files.parts path = ["."] then name else join path name

namespace Glob

/-- Keep a path that was found. -/
def found (g : Glob) (t : Tree) (path : String) : List String :=
  if g.directoriesOnly && !t.reachesDirectory path then [] else [path]

mutual
/-- What the parts find inside a directory. -/
def fill (g : Glob) (t : Tree) (path : String) (ps : List (List Wildcard)) :
    Nat → List String
  | 0 => []
  | fuel + 1 =>
      match ps with
      | [] => []
      | p :: rest =>
          match literal? p with
          | some name =>
              let name := String.ofList name
              let special := name = "." || name = ".."
              let next := below path name
              let there := if special then t.reachesDirectory path else t.reaches next
              if there then g.add t next rest fuel else []
          | none =>
              if t.reachesDirectory path then
                let dots := if p.head? = some (.char '.') then
                    ["..", "."].filter fun d => matchesName p d.toList
                  else []
                let names := match t.place path with
                  | .ok place => t.children place
                  | .error _ => []
                dots.flatMap (fun d => g.add t (join path d) rest fuel)
                  ++ names.flatMap (fun name => g.visit t (below path name) name (p :: rest) fuel)
              else []

/-- Go on after a part that is known to lead here. -/
def add (g : Glob) (t : Tree) (path : String) (rest : List (List Wildcard)) :
    Nat → List String
  | 0 => []
  | fuel + 1 => if rest.isEmpty then g.found t path else g.fill t path rest fuel

/-- What the parts find at an entry of a directory and below it. -/
def visit (g : Glob) (t : Tree) (path name : String) (ps : List (List Wildcard)) :
    Nat → List String
  | 0 => []
  | fuel + 1 =>
      match ps with
      | [] => []
      | p :: rest =>
          if isRecursive p then
            let rest := rest.dropWhile isRecursive
            if t.reachesDirectory path then
              let inside := g.fill t path (p :: rest) fuel
              match rest with
              | [] => path :: inside
              | _ => g.accept t path name rest fuel ++ inside
            else
              match rest with
              | [] => []
              | _ => g.accept t path name rest fuel
          else g.accept t path name (p :: rest) fuel

/-- Match an entry's name against the first part. -/
def accept (g : Glob) (t : Tree) (path name : String) (ps : List (List Wildcard)) :
    Nat → List String
  | 0 => []
  | fuel + 1 =>
      match ps with
      | [] => []
      | p :: rest =>
          if matchesName p name.toList then g.add t path rest fuel else []
end

/-- Enough steps for every part at every depth. -/
def fuel (g : Glob) (t : Tree) : Nat :=
  let depth := (t.files.map Prod.fst ++ t.created ++ systemDirectories).map List.length
  4 * (g.parts.length + depth.foldl max 0 + 2)

/-- The paths of a tree that the pattern stands for. -/
def find (g : Glob) (t : Tree) : List String :=
  g.fill t (if g.absolute then "/" else ".") g.parts (g.fuel t)

end Glob

end Stencil.Files
