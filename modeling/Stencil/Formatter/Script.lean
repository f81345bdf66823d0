/-
  Stencil.Formatter.Script
  ────────────────────────
  Scripts, as they are understood.

  A script is a tree of commands: rows of words, one after the other, joined
  by conditions or by pipes, in loops and in branches.  A word is a row of
  parts; what is not quoted in it may give several words when it is expanded.
  Scripts and words inside of words are kept as they are written, and read
  when it is their turn.
-/
import Stencil.Formatter.Command.Table

namespace Stencil

namespace Script

/-- What is made of the value of a parameter. -/
inductive Change where
  /-- Nothing. -/
  | none
  /-- Its length. -/
  | length
  /-- A word takes its place if it is not set, or if it is empty as well. -/
  | orElse (orEmpty : Bool)
  /-- The same, and the parameter is set to the word. -/
  | assign (orEmpty : Bool)
  /-- Then the script ends. -/
  | fail (orEmpty : Bool)
  /-- A word takes its place if it is set, and not empty as well. -/
  | instead (orEmpty : Bool)
  /-- What matches a pattern is cut off its end: the least, or the most. -/
  | cutEnd (most : Bool)
  /-- What matches a pattern is cut off its start: the least, or the most. -/
  | cutStart (most : Bool)
  /-- Something that cannot be done. -/
  | unknown
  deriving Repr, DecidableEq

/-- A piece of a word. -/
inductive Part where
  /-- Text as it stands. -/
  | text (chars : List Char) (quoted : Bool)
  /-- The value of a parameter, with a change and the word for it. -/
  | parameter (name : String) (change : Change) (word : List Char) (quoted : Bool)
  /-- What another script writes. -/
  | output (source : List Char) (quoted : Bool)
  /-- What is computed. -/
  | arithmetic (source : List Char) (quoted : Bool)
  deriving Repr, DecidableEq

/-- A word as written. -/
abbrev Word := List Part

/-- How a file is written to. -/
inductive Writing where
  /-- From its start; an option may protect files that are there. -/
  | create
  /-- From its start in any case. -/
  | replace
  /-- Behind its end. -/
  | append
  deriving Repr, DecidableEq

/-- A change of where a command reads and writes, by the number of a lane. -/
inductive Redirect where
  /-- Write to a file. -/
  | write (lane : Nat) (path : Word) (writing : Writing)
  /-- Read a file. -/
  | read (lane : Nat) (path : Word)
  /-- Do as another lane does. -/
  | copy (lane : Nat) (other : Word)
  /-- Read what a word stands for. -/
  | given (lane : Nat) (content : Word)
  deriving Repr, DecidableEq

/-- Why a text is no script. -/
inductive Fault where
  /-- A quoted text has no end. -/
  | openQuote
  /-- A parameter in braces has no end. -/
  | openBrace
  /-- A sum has no end. -/
  | openSum
  /-- A script in back quotes has no end. -/
  | openBackQuote
  /-- A loop has no name for its variable. -/
  | loopVariable
  /-- A function cannot have the name. -/
  | functionName
  /-- A lane has no number. -/
  | laneNumber
  /-- Something stands where it cannot, perhaps in the place of something else. -/
  | unexpected (found : String) (expected : Option String)
  deriving Repr, DecidableEq

/-- The wording of a fault. -/
def Fault.message : Fault → String
  | openQuote => "Unterminated quoted string"
  | openBrace => "Missing '\x7d'"
  | openSum => "Missing '))'"
  | openBackQuote => "EOF in backquote substitution"
  | loopVariable => "Bad for loop variable"
  | functionName => "Bad function name"
  | laneNumber => "Bad fd number"
  | unexpected found none => found ++ " unexpected"
  | unexpected found (some expected) => found ++ " unexpected (expecting " ++ expected ++ ")"

end Script

/-- A script. -/
inductive Script where
  /-- Nothing to do. -/
  | nothing
  /-- Text that is no script, from a line on. -/
  | malformed (line : Nat) (fault : Script.Fault)
  /-- A script that starts in a line. -/
  | onLine (line : Nat) (script : Script)
  /-- A row of words, with assignments before them. -/
  | simple (assignments : List (String × Script.Word)) (words : List Script.Word)
  /-- One after the other. -/
  | sequence (first second : Script)
  /-- The second after success of the first. -/
  | andThen (first second : Script)
  /-- The second after failure of the first. -/
  | orElse (first second : Script)
  /-- Success for failure, and failure for success. -/
  | negated (script : Script)
  /-- The second reads what the first writes. -/
  | pipe (first second : Script)
  /-- With other inputs and outputs. -/
  | redirected (script : Script) (redirects : List Script.Redirect)
  /-- On its own: what it changes is lost. -/
  | apart (script : Script)
  /-- At the same time as what follows. -/
  | beside (script : Script)
  /-- One of two, by a condition. -/
  | branch (condition yes no : Script)
  /-- Again and again while a condition holds, or while it does not. -/
  | loop (holds : Bool) (condition body : Script)
  /-- Once for each word, which a variable holds. -/
  | each (name : String) (words : List Script.Word) (body : Script)
  /-- One of two, by whether a word matches a pattern. -/
  | choice (word : Script.Word) (patterns : List Script.Word) (yes no : Script)
  /-- A script under a name. -/
  | define (name : String) (body : Script)
  deriving Repr, DecidableEq

namespace Script

/-- One script and then another, if there is anything to do. -/
def followedBy (first second : Script) : Script :=
  if second = nothing then first else sequence first second

/-- A script with other inputs and outputs, if any. -/
def withRedirects (script : Script) (redirects : List Redirect) : Script :=
  if redirects.isEmpty then script else redirected script redirects

end Script

end Stencil
