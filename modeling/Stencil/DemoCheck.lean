/-
  Stencil.DemoCheck
  ─────────────────
  Demos against the sources they should give.

  A demo is a configuration in a directory, with the expected source beside
  it under the same name.  The source is generated again and compared line
  by line; line ends, trailing blanks on a line and blanks at the end of the
  document do not count.  The first line that differs is told.
-/
import Stencil.CommandLine

namespace Stencil.DemoCheck

open Files (Tree)

/-! ## §1. Comparison. -/

/-- A carriage return before a line feed goes. -/
def unifyLineEnds : List Char → List Char
  | [] => []
  | '\r' :: '\n' :: cs => '\n' :: unifyLineEnds cs
  | c :: cs => c :: unifyLineEnds cs

/-- A line without the spaces and tabs at its end. -/
def dropLineBlanks (line : List Char) : List Char :=
  (line.reverse.dropWhile fun c => c == ' ' || c == '\t').reverse

/-- The lines that count in a comparison. -/
def significantLines (document : String) : List (List Char) :=
  let trimmed := Text.trimEnd (unifyLineEnds document.toList)
  let lines := (Text.splitLines trimmed).map dropLineBlanks
  Text.linesOf lines

/-- A line of a document, or its end. -/
def lineText : Option (List Char) → String
  | some line => String.ofList line
  | none => "<end of file>"

/-- The first line that differs, counted from `n`, with both its forms. -/
def firstDifference (n : Nat) :
    List (List Char) → List (List Char) → Option (Nat × Option (List Char) × Option (List Char))
  | [], [] => none
  | e :: _, [] => some (n, some e, none)
  | [], a :: _ => some (n, none, some a)
  | e :: es, a :: as => if e = a then firstDifference (n + 1) es as else some (n, some e, some a)

/-- The wording of a difference. -/
def differenceText (d : Nat × Option (List Char) × Option (List Char)) : String :=
  "  line " ++ toString d.1 ++ "\n  - " ++ lineText d.2.1 ++ "\n  + " ++ lineText d.2.2

/-- The difference between an expected and a generated document. -/
def difference? (expected generated : String) : Option String :=
  (firstDifference 1 (significantLines expected) (significantLines generated)).map differenceText

/-! ## §2. Cases. -/

/-- How a demo fares. -/
inductive Status where
  /-- It gives what is expected. -/
  | pass
  /-- It gives something else. -/
  | mismatch
  /-- It gives nothing. -/
  | error
  deriving Repr, DecidableEq

/-- The status in a report for people. -/
def Status.label : Status → String
  | pass => "PASS"
  | mismatch => "DIFF"
  | error => "FAIL"

/-- The status in a report for programs. -/
def Status.word : Status → String
  | pass => "pass"
  | mismatch => "mismatch"
  | error => "error"

/-- What is told of a demo. -/
structure Case where
  /-- The configuration's path. -/
  config : String
  /-- How it fares. -/
  status : Status
  /-- What is wrong, if anything. -/
  detail : Option String
  deriving Repr, DecidableEq

/-- Generate a demo again. -/
def regenerate (tree : Tree) (path : String) : Except String String :=
  match CommandLine.loadConfig tree path with
  | .error failure => .error (failure.message path)
  | .ok config => config.generate.mapError (·.report)

/-- Check one demo. -/
def check (tree : Tree) (path : String) : Case :=
  match regenerate tree path with
  | .error detail => ⟨path, .error, some detail⟩
  | .ok generated =>
      let expectedPath := Files.withExtension path "sol"
      match tree.read expectedPath with
      | .error failure => ⟨path, .error, some (expectedPath ++ ": " ++ failure.message)⟩
      | .ok expected =>
          match difference? expected generated with
          | none => ⟨path, .pass, none⟩
          | some detail => ⟨path, .mismatch, some detail⟩

/-! ## §3. Reports. -/

/-- A case for people: one line, and the detail if there is one. -/
def Case.lines (c : Case) : List String :=
  (c.status.label ++ " " ++ c.config) :: c.detail.toList

/-- A case for programs. -/
def Case.toJson (c : Case) : Json :=
  .obj ([("config", .str c.config), ("status", .str c.status.word)]
    ++ c.detail.toList.map fun detail => ("detail", .str detail))

/-- The report of all cases. -/
def report (asJson : Bool) (cases : List Case) : String :=
  if asJson then (Json.arr (cases.map (·.toJson))).pretty ++ "\n"
  else Text.endLines (cases.flatMap Case.lines)

/-- Does a row of names come before another one, or is it the same? -/
def namesInOrder : List String → List String → Bool
  | [], _ => true
  | _ :: _, [] => false
  | a :: as, b :: bs => if a = b then namesInOrder as bs else decide (a ≤ b)

/-- Paths in the order of their parts. -/
def sortPaths (paths : List String) : List String :=
  paths.mergeSort fun a b => namesInOrder (Files.parts a) (Files.parts b)

/-- The demos of a directory. -/
def demoPaths (tree : Tree) (directory : String) : Except String (List String) :=
  let pattern := directory ++ "/*.json"
  match Files.Glob.ofText pattern with
  | .error e => .error ("bad pattern `" ++ pattern ++ "`: " ++ e.message)
  | .ok glob =>
      match glob.find tree with
      | [] => .error ("no configs match `" ++ pattern ++ "`")
      | paths => .ok (sortPaths paths)

/-- Check the demos of a directory. -/
def checkDirectory (tree : Tree) (directory : String) (asJson : Bool) : CommandLine.Outcome :=
  match demoPaths tree directory with
  | .error message => ⟨2, "", "error: " ++ message ++ "\n", tree⟩
  | .ok paths =>
      let cases := paths.map (check tree)
      let failed := cases.countP (·.status != .pass)
      let summary := toString (cases.length - failed) ++ " passed, " ++ toString failed
        ++ " failed\n"
      ⟨if failed = 0 then 0 else 1, report asJson cases, summary, tree⟩

/-! ## §4. The command line. -/

/-- What is asked for. -/
structure Options where
  /-- The directory, unless it is the usual one. -/
  directory : Option String
  /-- A report for programs. -/
  asJson : Bool
  deriving Repr, DecidableEq

/-- What a command line turns out to be. -/
inductive Parsed where
  /-- Options. -/
  | options (o : Options)
  /-- A question for help. -/
  | help
  /-- No proper command line. -/
  | misuse
  deriving Repr, DecidableEq

/-- Take the directory, of which there is one at most, and it has a name. -/
def Options.setDirectory (o : Options) (directory : String) : Option Options :=
  if o.directory.isSome || directory = "" then none
  else some { o with directory := some directory }

/-- Read words; after two hyphens alone none of them is an option. -/
def Options.words (o : Options) (plain : Bool) : List String → Parsed
  | [] => .options o
  | word :: rest =>
      if !plain && word = "--" then o.words true rest
      else if !plain && word = "--json" then
        if o.asJson then .misuse else { o with asJson := true }.words plain rest
      else if !plain && (word = "--help" || ['-', 'h'].isPrefixOf word.toList) then .help
      else if !plain && word.toList.head? = some '-' && 1 < word.length then .misuse
      else
        match o.setDirectory word with
        | some o => o.words plain rest
        | none => .misuse

/-- Where demos usually are. -/
def usualDirectory : String := "demos"

/-- How the check is used. -/
def usageLine : String := "Usage: [DIR] [--json]\n"

/-- Run a command line; none if it is no proper one. -/
def run (tree : Tree) (args : List String) : Option CommandLine.Outcome :=
  match Options.words ⟨none, false⟩ false args with
  | .options o => some (checkDirectory tree (o.directory.getD usualDirectory) o.asJson)
  | .help => some ⟨0, usageLine, "", tree⟩
  | .misuse => none

end Stencil.DemoCheck
