/-
  Stencil.Formatter.Script.Reader
  ───────────────────────────────
  Scripts, as they are written.

  The text is cut into words, redirections and marks.  Words end at blanks and
  at marks, unless they are quoted: single quotes keep everything, double
  quotes keep all but what a dollar sign or a back quote stands for.  The
  reader then follows the grammar of commands; a row of words that starts with
  one of the reserved words is a command of its own kind.  A script is read
  line by line, so that what comes before a fault is still understood.
-/
import Stencil.Formatter.Script

namespace Stencil.Script

/-! ## §1. Characters. -/

/-- Does the character end a word? -/
def endsWord (c : Char) : Bool :=
  " \t\n;&|<>()".toList.contains c

/-- May the character stand in a name? -/
def isNameChar (c : Char) : Bool :=
  c.isAlphanum || c == '_'

/-- Is the text a name? -/
def isName (cs : List Char) : Bool :=
  !cs.isEmpty && cs.all isNameChar && !cs.head?.any Char.isDigit

/-- Parameters of one character. -/
def isSpecial (c : Char) : Bool :=
  "@*#?$!-".toList.contains c

/-- What waits for its end inside of a script. -/
inductive Pending where
  /-- A parenthesis. -/
  | parenthesis
  /-- The cases for a word, where patterns end with a parenthesis too. -/
  | cases
  deriving Repr, DecidableEq

/-- The reserved words behind which a command may start. -/
def openers : List String :=
  ["if", "then", "else", "elif", "while", "until", "do", "!", "\x7b"]

/-- What waits after a word that may be the first of a command. -/
def pendingAfter (word : String) (pending : List Pending) : List Pending :=
  match word, pending with
  | "case", pending => .cases :: pending
  | "esac", .cases :: pending => pending
  | _, pending => pending

/-- The end of a text in messages. -/
def endOfFile : String := "end of file"

mutual
/-- What is left behind a double quote that ends a text. -/
def behindQuote : Nat → List Char → Except Fault (List Char)
  | 0, _ => .error .openQuote
  | _ + 1, [] => .error .openQuote
  | n + 1, c :: cs =>
      match c, cs with
      | '"', rest => .ok rest
      | '\\', _ :: rest => behindQuote n rest
      | '$', '(' :: '(' :: rest => do behindQuote n (← behindSum n 0 rest)
      | '$', '(' :: rest => do behindQuote n (← behindScript n [] true rest)
      | '$', '\x7b' :: rest => do behindQuote n (← behindBrace true n rest)
      | '\x60', rest => do behindQuote n (← behindBackQuote n rest)
      | _, rest => behindQuote n rest

/-- What is left behind a back quote. -/
def behindBackQuote : Nat → List Char → Except Fault (List Char)
  | 0, _ => .error .openBackQuote
  | _ + 1, [] => .error .openBackQuote
  | n + 1, c :: cs =>
      match c, cs with
      | '\x60', rest => .ok rest
      | '\\', _ :: rest => behindBackQuote n rest
      | _, rest => behindBackQuote n rest

/-- What is left behind a brace that ends a parameter; `quoted` tells whether
single quotes are plain characters. -/
def behindBrace (quoted : Bool) : Nat → List Char → Except Fault (List Char)
  | 0, _ => .error .openBrace
  | _ + 1, [] => .error (if quoted then .openQuote else .openBrace)
  | n + 1, c :: cs =>
      match c, cs with
      | '\x7d', rest => .ok rest
      | '\\', _ :: rest => behindBrace quoted n rest
      | '$', '(' :: '(' :: rest => do behindBrace quoted n (← behindSum n 0 rest)
      | '$', '(' :: rest => do behindBrace quoted n (← behindScript n [] true rest)
      | '$', '\x7b' :: rest => do behindBrace quoted n (← behindBrace quoted n rest)
      | '\x60', rest => do behindBrace quoted n (← behindBackQuote n rest)
      | '"', rest => do behindBrace quoted n (← behindQuote n rest)
      | '\x27', rest =>
          if quoted then behindBrace quoted n rest
          else if rest.contains '\x27' then
            behindBrace quoted n ((rest.dropWhile (· != '\x27')).drop 1)
          else .error .openQuote
      | _, rest => behindBrace quoted n rest

/-- What is left behind two parentheses that end a sum, inside of so many
others. -/
def behindSum : Nat → Nat → List Char → Except Fault (List Char)
  | 0, _, _ => .error .openSum
  | _ + 1, _, [] => .error .openSum
  | n + 1, level, c :: cs =>
      match c, cs with
      | ')', rest =>
          if level ≠ 0 then behindSum n (level - 1) rest
          else if rest.head? = some ')' then .ok rest.tail
          else behindSum n 0 rest
      | '(', rest => behindSum n (level + 1) rest
      | '\\', _ :: rest => behindSum n level rest
      | '$', '(' :: '(' :: rest => do behindSum n level (← behindSum n 0 rest)
      | '$', '(' :: rest => do behindSum n level (← behindScript n [] true rest)
      | '$', '\x7b' :: rest => do behindSum n level (← behindBrace true n rest)
      | '\x60', rest => do behindSum n level (← behindBackQuote n rest)
      | _, rest => behindSum n level rest

/-- What is left behind a parenthesis that ends a script; `first` tells whether
a word here is the first of a command. -/
def behindScript : Nat → List Pending → Bool → List Char → Except Fault (List Char)
  | 0, _, _, _ => .error (.unexpected endOfFile (some "\")\""))
  | _ + 1, _, _, [] => .error (.unexpected endOfFile (some "\")\""))
  | n + 1, pending, first, c :: cs =>
      match c, cs with
      | ')', rest =>
          match pending with
          | [] => .ok rest
          | .parenthesis :: pending => behindScript n pending true rest
          | pending => behindScript n pending true rest
      | '(', rest => behindScript n (.parenthesis :: pending) true rest
      | '\\', _ :: rest => behindScript n pending false rest
      | '$', '(' :: '(' :: rest => do behindScript n pending false (← behindSum n 0 rest)
      | '$', '(' :: rest => do behindScript n pending false (← behindScript n [] true rest)
      | '$', '\x7b' :: rest => do behindScript n pending false (← behindBrace false n rest)
      | '$', rest =>
          behindScript n pending false (if rest.head?.any isSpecial then rest.drop 1 else rest)
      | '\x60', rest => do behindScript n pending false (← behindBackQuote n rest)
      | '"', rest => do behindScript n pending false (← behindQuote n rest)
      | '\x27', rest =>
          if rest.contains '\x27' then
            behindScript n pending false ((rest.dropWhile (· != '\x27')).drop 1)
          else .error .openQuote
      | '#', rest => behindScript n pending first (rest.dropWhile (· != '\n'))
      | c, rest =>
          if c = ' ' || c = '\t' then behindScript n pending first rest
          else if endsWord c then behindScript n pending true rest
          else
            let word := (c :: rest).takeWhile fun c =>
              !endsWord c && !"\\$\x60\"\x27".toList.contains c
            let text := String.ofList word
            let left := (c :: rest).drop word.length
            if first then
              behindScript n (pendingAfter text pending) (openers.contains text) left
            else behindScript n pending false left
end

/-- A text up to where the rest of it starts, without the last characters. -/
def textBefore (cs rest : List Char) (closing : Nat) : List Char :=
  cs.take (cs.length - rest.length - closing)

/-- The script before a closing parenthesis, and what is left behind it. -/
def scriptInside (cs : List Char) : Except Fault (List Char × List Char) :=
  (behindScript (cs.length + 1) [] true cs).map fun rest => (textBefore cs rest 1, rest)

/-- The text before a closing brace, and what is left behind it. -/
def braceInside (quoted : Bool) (cs : List Char) : Except Fault (List Char × List Char) :=
  (behindBrace quoted (cs.length + 1) cs).map fun rest => (textBefore cs rest 1, rest)

/-- The sum before two closing parentheses, and what is left behind them. -/
def sumInside (cs : List Char) : Except Fault (List Char × List Char) :=
  (behindSum (cs.length + 1) 0 cs).map fun rest => (textBefore cs rest 2, rest)

/-- What comes before a back quote, and what comes after it; a backslash before
a back quote, a dollar sign or a backslash goes. -/
def backQuoted : List Char → Except Fault (List Char × List Char)
  | [] => .error .openBackQuote
  | '\x60' :: rest => .ok ([], rest)
  | '\\' :: c :: cs =>
      let kept := if c = '\x60' || c = '$' || c = '\\' then [c] else ['\\', c]
      (backQuoted cs).map fun (inner, rest) => (kept ++ inner, rest)
  | c :: cs => (backQuoted cs).map fun (inner, rest) => (c :: inner, rest)

/-! ## §2. Parts of words. -/

/-- The change that marks behind a parameter's name ask for, and the word
behind them. -/
def changeOf (cs : List Char) : Option (Change × List Char) :=
  match cs with
  | [] => some (.none, [])
  | ':' :: '-' :: word => some (.orElse true, word)
  | '-' :: word => some (.orElse false, word)
  | ':' :: '=' :: word => some (.assign true, word)
  | '=' :: word => some (.assign false, word)
  | ':' :: '?' :: word => some (.fail true, word)
  | '?' :: word => some (.fail false, word)
  | ':' :: '+' :: word => some (.instead true, word)
  | '+' :: word => some (.instead false, word)
  | '%' :: '%' :: word => some (.cutEnd true, word)
  | '%' :: word => some (.cutEnd false, word)
  | '#' :: '#' :: word => some (.cutStart true, word)
  | '#' :: word => some (.cutStart false, word)
  | _ => none

/-- A parameter in braces. -/
def bracedParameter (quoted : Bool) (inner : List Char) : Part :=
  let unknown : Part := .parameter (String.ofList inner) .unknown [] quoted
  let changed (name marks : List Char) : Part :=
    match changeOf marks with
    | some (change, word) => .parameter (String.ofList name) change word quoted
    | none => unknown
  match inner with
  | [] => unknown
  | '#' :: c :: rest =>
      let name := c :: rest
      if name.all isNameChar || (isSpecial c && rest.isEmpty) then
        .parameter (String.ofList name) .length [] quoted
      else changed ['#'] (c :: rest)
  | c :: rest =>
      let name := if isSpecial c then [c] else inner.takeWhile isNameChar
      if name.isEmpty then unknown
      else changed name (if isSpecial c then rest else inner.drop name.length)

/-- Why a text cannot be cut into words, and how many lines below: none for its
end. -/
abbrev Trouble := Fault × Option Nat

/-- A word that was read, and what is left behind it. -/
abbrev WordRead := Except Trouble (Word × List Char)

/-- A fault that shows at the end of the text. -/
def atLast {α : Type} (result : Except Fault α) : Except Trouble α :=
  result.mapError fun fault => (fault, none)

/-- How a script stands inside of a word. -/
inductive Enclosure where
  /-- A parenthesis closes it. -/
  | closed
  /-- Nothing closes it. -/
  | unclosed
  /-- It stands in back quotes. -/
  | backQuotes
  deriving Repr, DecidableEq

/-- What is wrong with the script inside of a word. -/
abbrev InnerCheck := Enclosure → List Char → Option Trouble

/-- The script in back quotes, and what is left behind it. -/
def backQuotedScript (check : InnerCheck) (cs : List Char) :
    Except Trouble (List Char × List Char) := do
  let (inner, rest) ← atLast (backQuoted cs)
  match check .backQuotes inner with
  | none => return (inner, rest)
  | some trouble => throw trouble

/-- The part behind a dollar sign, and what is left behind it. -/
def dollarPart (check : InnerCheck) (quoted : Bool) (cs : List Char) :
    Except Trouble (Part × List Char) :=
  let plain (name : List Char) (rest : List Char) : Except Trouble (Part × List Char) :=
    .ok (.parameter (String.ofList name) .none [] quoted, rest)
  match cs with
  | '(' :: '(' :: rest => do
      let (expression, rest) ← atLast (sumInside rest)
      return (.arithmetic expression quoted, rest)
  | '(' :: rest =>
      match scriptInside rest with
      | .ok (inner, rest) =>
          match check .closed inner with
          | none => .ok (.output inner quoted, rest)
          | some trouble => .error trouble
      | .error fault => .error ((check .unclosed rest).getD (fault, none))
  | '\x7b' :: rest => do
      let (inner, rest) ← atLast (braceInside quoted rest)
      return (bracedParameter quoted inner, rest)
  | c :: rest =>
      if c.isDigit || isSpecial c then plain [c] rest
      else if isNameChar c then
        let name := cs.takeWhile isNameChar
        plain name (cs.drop name.length)
      else .ok (.text ['$'] true, cs)
  | [] => .ok (.text ['$'] true, [])

/-- Put text before a word. -/
def addText (chars : List Char) (quoted : Bool) (word : Word) : Word :=
  match word with
  | .text more q :: rest =>
      if q = quoted then .text (chars ++ more) q :: rest else .text chars quoted :: word
  | word => .text chars quoted :: word

/-- What a double quote does to text in double quotes. -/
inductive QuoteRole where
  /-- It ends the text. -/
  | closes
  /-- It stands for itself, and the text goes on to its end. -/
  | plain
  /-- It is left out, and the text goes on to its end. -/
  | vanishes
  deriving Repr, DecidableEq

/-- The parts of double-quoted text, and what is left behind it. -/
def doubleQuoted (check : InnerCheck) (role : QuoteRole) : Nat → List Char → WordRead
  | 0, _ => .error (.openQuote, none)
  | _ + 1, [] => if role = .closes then .error (.openQuote, none) else .ok ([], [])
  | fuel + 1, c :: cs =>
      let plain (chars : List Char) (after : List Char) : WordRead :=
        (doubleQuoted check role fuel after).map fun (parts, rest) =>
          (addText chars true parts, rest)
      let special (part : Part) (after : List Char) : WordRead :=
        (doubleQuoted check role fuel after).map fun (parts, rest) => (part :: parts, rest)
      if c = '"' && role = .closes then .ok ([], cs)
      else if c = '"' && role = .vanishes then doubleQuoted check role fuel cs
      else match c, cs with
      | '$', rest => do let (part, rest) ← dollarPart check true rest; special part rest
      | '\x60', rest => do
          let (inner, rest) ← backQuotedScript check rest
          special (.output inner true) rest
      | '\\', '\n' :: rest => doubleQuoted check role fuel rest
      | '\\', e :: rest =>
          if "\\$\x60".toList.contains e || (e = '"' && role ≠ .plain) then plain [e] rest
          else plain ['\\', e] rest
      | c, rest => plain [c] rest

/-- The parts of a word, and what is left behind it; `stops` tells where a word
ends. -/
def wordParts (check : InnerCheck) (stops : Char → Bool) : Nat → List Char → WordRead
  | 0, _ => .error (.openQuote, none)
  | _ + 1, [] => .ok ([], [])
  | fuel + 1, c :: cs =>
      let plain (chars : List Char) (quoted : Bool) (after : List Char) : WordRead :=
        (wordParts check stops fuel after).map fun (parts, rest) =>
          (addText chars quoted parts, rest)
      let special (front : Word) (after : List Char) : WordRead :=
        (wordParts check stops fuel after).map fun (parts, rest) => (front ++ parts, rest)
      match c, cs with
      | '\x27', rest =>
          let inner := rest.takeWhile (· != '\x27')
          if inner.length = rest.length then .error (.openQuote, none)
          else plain inner true (rest.drop (inner.length + 1))
      | '"', rest => do
          let (inner, rest) ← doubleQuoted check .closes (rest.length + 1) rest
          special (if inner.isEmpty then [.text [] true] else inner) rest
      | '$', rest => do let (part, rest) ← dollarPart check false rest; special [part] rest
      | '\x60', rest => do
          let (inner, rest) ← backQuotedScript check rest
          special [.output inner false] rest
      | '\\', '\n' :: rest => wordParts check stops fuel rest
      | '\\', e :: rest => plain [e] true rest
      | c, rest => if stops c then .ok ([], c :: rest) else plain [c] false rest

/-- The word that was read; the text itself if there is none. -/
def wordOr (cs : List Char) (read : WordRead) : Word :=
  match read with
  | .ok (word, _) => word
  | .error _ => [.text cs true]

/-- What is inside of words was looked at before. -/
def unchecked : InnerCheck := fun _ _ => none

/-- All of a text as one word. -/
def wholeWord (cs : List Char) : Word :=
  wordOr cs (wordParts unchecked (fun _ => false) (cs.length + 1) cs)

/-- All of a text as if in double quotes, where a quote stands for itself. -/
def quotedWord (cs : List Char) : Word :=
  wordOr cs (doubleQuoted unchecked .plain (cs.length + 1) cs)

/-- All of a text inside of braces as if in double quotes, where quotes are left
out. -/
def bracedWord (cs : List Char) : Word :=
  wordOr cs (doubleQuoted unchecked .vanishes (cs.length + 1) cs)

/-! ## §3. Tokens. -/

/-- What a script is cut into. -/
inductive Token where
  /-- A word. -/
  | word (parts : Word)
  /-- A redirection. -/
  | redirect (r : Redirect)
  /-- A mark between words, or the end of a line. -/
  | mark (text : String)
  /-- Where the text cannot be cut any further. -/
  | trouble (fault : Fault)
  /-- The end, by what stands there. -/
  | ending (text : String)
  deriving Repr, DecidableEq

/-- A token with the line where it ends. -/
structure Lexeme where
  /-- The token. -/
  token : Token
  /-- The line. -/
  line : Nat
  deriving Repr, DecidableEq

/-- The text of a word, without its quotes. -/
def Part.plainText : Part → List Char
  | .text chars _ => chars
  | _ => []

/-- A word without quotes and parameters. -/
def Token.bareWord? : Token → Option String
  | .word [.text chars false] => some (String.ofList chars)
  | _ => none

/-- The reserved words. -/
def reservedWords : List String :=
  ["!", "case", "do", "done", "elif", "else", "esac", "fi", "for", "if", "in", "then", "until",
   "while", "\x7b", "\x7d"]

/-- A mark or a reserved word in messages. -/
def inMessage (text : String) : String := "\"" ++ text ++ "\""

/-- A token in messages; `reserved` tells whether words may be reserved ones. -/
def Token.shown (reserved : Bool) : Token → String
  | .mark "\n" => "newline"
  | .mark text => inMessage text
  | .redirect _ => "redirection"
  | .ending text => text
  | token =>
      match token.bareWord? with
      | some text => if reserved && reservedWords.contains text then inMessage text else "word"
      | none => "word"

/-- A word behind blanks, and what is left behind it. -/
def nextWord (check : InnerCheck) (cs : List Char) : WordRead :=
  let start := cs.dropWhile fun c => c == ' ' || c == '\t'
  wordParts check endsWord (start.length + 1) start

/-- Lines up to the one that ends them, and what is left behind it. -/
def linesUntil (ending : List Char) (strip : Bool) : Nat → List Char → List Char × List Char
  | 0, cs => ([], cs)
  | _ + 1, [] => ([], [])
  | fuel + 1, cs =>
      let line := cs.takeWhile (· != '\n')
      let rest := cs.drop (line.length + 1)
      let shown := if strip then line.dropWhile (· == '\t') else line
      if shown = ending then ([], rest)
      else if line.length = cs.length then (shown, [])
      else
        let (more, rest) := linesUntil ending strip fuel rest
        (shown ++ '\n' :: more, rest)

/-- An input given by the lines that follow the line with a mark: its content, and
the script without those lines. -/
def inputLines (check : InnerCheck) (strip : Bool) (mark : Word) (rest : List Char) :
    WordRead := do
  let sameLine := rest.takeWhile (· != '\n')
  let after := rest.drop (sameLine.length + 1)
  let (body, left) := linesUntil (mark.flatMap Part.plainText) strip (after.length + 1) after
  let literal := mark.any fun
    | .text _ quoted => quoted
    | _ => false
  if literal then return ([.text body true], sameLine ++ '\n' :: left)
  let (content, _) ← doubleQuoted check .plain (body.length + 1) body
  return (content, sameLine ++ '\n' :: left)

/-- What a sign of redirection asks for. -/
inductive Sign where
  /-- A redirection to a word. -/
  | onto (make : Word → Redirect)
  /-- An input from the lines that follow, whose tabs may be left out. -/
  | lines (lane : Nat) (strip : Bool)

/-- The sign of a redirection, and what is left behind it. -/
def sign? (lane : Option Nat) (cs : List Char) : Option (Sign × List Char) :=
  match cs with
  | '>' :: '>' :: rest => some (.onto (.write (lane.getD 1) · .append), rest)
  | '>' :: '&' :: rest => some (.onto (.copy (lane.getD 1)), rest)
  | '>' :: '|' :: rest => some (.onto (.write (lane.getD 1) · .replace), rest)
  | '>' :: rest => some (.onto (.write (lane.getD 1) · .create), rest)
  | '<' :: '<' :: '-' :: rest => some (.lines (lane.getD 0) true, rest)
  | '<' :: '<' :: rest => some (.lines (lane.getD 0) false, rest)
  | '<' :: '&' :: rest => some (.onto (.copy (lane.getD 0)), rest)
  | '<' :: '>' :: rest => some (.onto (.read (lane.getD 0)), rest)
  | '<' :: rest => some (.onto (.read (lane.getD 0)), rest)
  | _ => none

/-- How many line ends a text has. -/
def lineEnds (cs : List Char) : Nat := cs.count '\n'

/-- The tokens of a script from a line on, of which more follow that were taken
away; `closing` is what stands at its end. -/
def tokens (check : InnerCheck) (closing : String) : Nat → Nat → Nat → List Char → List Lexeme
  | 0, line, _, _ | _ + 1, line, _, [] => [⟨.ending closing, line⟩]
  | fuel + 1, line, taken, c :: cs =>
      let below (cs rest : List Char) : Nat := line + lineEnds (cs.take (cs.length - rest.length))
      let mark (text : String) (rest : List Char) : List Lexeme :=
        ⟨.mark text, line⟩ :: tokens check closing fuel line taken rest
      let trouble (cs : List Char) : Trouble → List Lexeme
        | (fault, some n) => [⟨.trouble fault, line + n⟩]
        | (fault, none) => [⟨.trouble fault, line + lineEnds cs⟩]
      let redirect (lane : Option Nat) (cs : List Char) : List Lexeme :=
        match sign? lane cs with
        | none => [⟨.ending closing, line⟩]
        | some (sign, start) =>
            match nextWord check start with
            | .error t => trouble start t
            | .ok ([], _) =>
                match tokens check closing fuel line taken start with
                | ⟨.trouble fault, line⟩ :: _ => [⟨.trouble fault, line⟩]
                | next :: _ =>
                    [⟨.trouble (.unexpected (next.token.shown false) none), next.line⟩]
                | [] => []
            | .ok (word, rest) =>
                let line := below start rest
                match sign with
                | .onto make => ⟨.redirect (make word), line⟩
                    :: tokens check closing fuel line taken rest
                | .lines lane strip =>
                    match inputLines check strip word rest with
                    | .error t => trouble rest t
                    | .ok (content, left) =>
                        ⟨.redirect (.given lane content), line⟩
                          :: tokens check closing fuel line
                            (taken + (lineEnds rest - lineEnds left)) left
      match c, cs with
      | '&', '&' :: rest => mark "&&" rest
      | '|', '|' :: rest => mark "||" rest
      | ';', ';' :: rest => mark ";;" rest
      | '\n', rest =>
          ⟨.mark "\n", line + 1⟩ :: tokens check closing fuel (line + 1 + taken) 0 rest
      | '&', rest => mark "&" rest
      | ';', rest => mark ";" rest
      | '|', rest => mark "|" rest
      | '(', rest => mark "(" rest
      | ')', rest => mark ")" rest
      | '#', rest => tokens check closing fuel line taken (rest.dropWhile (· != '\n'))
      | ' ', rest | '\t', rest => tokens check closing fuel line taken rest
      | '\\', '\n' :: rest => tokens check closing fuel (line + 1) taken rest
      | c, rest =>
          if c = '<' || c = '>' then redirect none (c :: rest)
          else
            let digits := (c :: rest).takeWhile Char.isDigit
            let behind := (c :: rest).drop digits.length
            if digits.length = 1 && behind.head?.any fun s => s == '<' || s == '>' then
              redirect (some (readDigits 10 digits).1) behind
            else
              match wordParts check endsWord (rest.length + 2) (c :: rest) with
              | .ok (parts, left) =>
                  let line := below (c :: rest) left
                  ⟨.word parts, line⟩ :: tokens check closing fuel line taken left
              | .error t => trouble (c :: rest) t

/-! ## §4. The grammar. -/

/-- A command that was read, and what is left behind it; or a line with a
fault. -/
abbrev CommandRead := Except (Nat × Fault) (Script × List Lexeme)

/-- The fault of a token that stands in the place of another one. -/
def refuseAs {α : Type} (reserved : Bool) (expected : Option String) :
    List Lexeme → Except (Nat × Fault) α
  | ⟨.trouble fault, line⟩ :: _ => .error (line, fault)
  | next :: _ => .error (next.line, .unexpected (next.token.shown reserved) expected)
  | [] => .error (0, .unexpected endOfFile expected)

/-- The fault of a token that stands in the place of another one, where words may
be reserved ones. -/
def refuse {α : Type} (expected : Option String) (tokens : List Lexeme) :
    Except (Nat × Fault) α :=
  refuseAs true expected tokens

/-- The reserved words that end a list of commands. -/
def closers : List String := ["then", "else", "elif", "fi", "do", "done", "esac", "\x7d"]

/-- Can the text not be cut any further? -/
def Token.isTrouble : Token → Bool
  | .trouble _ => true
  | _ => false

/-- Is this the end of the text? -/
def Token.isEnd (token : Token) : Bool := token = .ending endOfFile

/-- Does a token end a list of commands? -/
def Token.closes (token : Token) : Bool :=
  [Token.mark ")", .mark ";;", .ending (inMessage ")")].contains token
    || token.bareWord?.any closers.contains

/-- Does a mark stand here? -/
def startsWith (text : String) (tokens : List Lexeme) : Bool :=
  tokens.head?.any (·.token = .mark text)

/-- Tokens behind line ends. -/
def skipLines (tokens : List Lexeme) : List Lexeme :=
  tokens.dropWhile (·.token = .mark "\n")

/-- Tokens behind a reserved word, if it stands here. -/
def expect? (text : String) : List Lexeme → Option (List Lexeme)
  | next :: rest => if next.token.bareWord? = some text then some rest else none
  | [] => none

/-- Tokens behind a reserved word. -/
def expect (text : String) (tokens : List Lexeme) : Except (Nat × Fault) (List Lexeme) :=
  match expect? text tokens with
  | some rest => .ok rest
  | none => refuse (some (inMessage text)) tokens

/-- The name and the value of a word that assigns. -/
def assignment? : Word → Option (String × Word)
  | .text chars false :: parts =>
      let name := chars.takeWhile isNameChar
      match chars.drop name.length with
      | '=' :: value => if isName name then some (String.ofList name, .text value true :: parts)
          else none
      | _ => none
  | _ => none

/-- The words of tokens. -/
def wordsOf (tokens : List Lexeme) : List Word :=
  tokens.filterMap fun
    | ⟨.word parts, _⟩ => some parts
    | _ => none

/-- The redirections of tokens. -/
def redirectsOf (tokens : List Lexeme) : List Redirect :=
  tokens.filterMap fun
    | ⟨.redirect r, _⟩ => some r
    | _ => none

/-- Is the token a word? -/
def Lexeme.isWord : Lexeme → Bool
  | ⟨.word _, _⟩ => true
  | _ => false

/-- Is the token a redirection? -/
def Lexeme.isRedirect : Lexeme → Bool
  | ⟨.redirect _, _⟩ => true
  | _ => false

/-- A row of words and redirections, and what is left behind it. -/
def simpleCommand (tokens : List Lexeme) : CommandRead :=
  let own := tokens.takeWhile fun p => p.isWord || p.isRedirect
  let words := wordsOf own
  let assigning := words.takeWhile fun w => (assignment? w).isSome
  match own with
  | [] => refuse none tokens
  | first :: _ =>
      let row := simple (assigning.filterMap assignment?) (words.drop assigning.length)
      .ok (onLine first.line (row.withRedirects (redirectsOf own)), tokens.drop own.length)

/-- A command with the redirections behind it. -/
def attachRedirects (script : Script) (tokens : List Lexeme) : Script × List Lexeme :=
  let own := redirectsOf (tokens.takeWhile Lexeme.isRedirect)
  (script.withRedirects own, tokens.drop own.length)

/-- The patterns of a case, and what is left behind the parenthesis. -/
def casePatterns : List Lexeme → Except (Nat × Fault) (List Word × List Lexeme)
  | first :: ⟨.mark "|", _⟩ :: rest => do
      let (more, rest) ← casePatterns rest
      return (wordsOf [first] ++ more, rest)
  | first :: ⟨.mark ")", _⟩ :: rest => .ok (wordsOf [first], rest)
  | ⟨.trouble fault, line⟩ :: _ => .error (line, fault)
  | ⟨.ending text, line⟩ :: _ => .error (line, .unexpected text (some (inMessage ")")))
  | _ :: rest => refuseAs false (some (inMessage ")")) rest
  | [] => refuse none []

/-- The commands that no function takes the place of. -/
def specialNames : List String :=
  [":", ".", "break", "continue", "eval", "exec", "exit", "export", "readonly", "return", "set",
   "shift", "times", "trap", "unset", "local"]

/-- The name of a function that is defined here, if any, and what is left behind
the parentheses. -/
def functionName (tokens : List Lexeme) :
    Except (Nat × Fault) (Option (String × List Lexeme)) :=
  match tokens with
  | ⟨.word parts, _⟩ :: ⟨.mark "(", _⟩ :: rest =>
      if (assignment? parts).isSome then .ok none
      else if !startsWith ")" rest then refuseAs false (some (inMessage ")")) rest
      else
        match (Token.word parts).bareWord?, rest with
        | some name, last :: rest =>
            if isName name.toList && !specialNames.contains name then .ok (some (name, rest))
            else .error (last.line, .functionName)
        | _, rest => .error ((rest.head?.map Lexeme.line).getD 0, .functionName)
  | _ => .ok none

/-- The name of a loop's variable, and what is left behind it. -/
def loopName : List Lexeme → Except (Nat × Fault) (String × List Lexeme)
  | ⟨.trouble fault, line⟩ :: _ => .error (line, fault)
  | next :: rest =>
      match next.token.bareWord? with
      | some name =>
          if isName name.toList then .ok (name, skipLines rest)
          else .error (next.line, .loopVariable)
      | none => .error (next.line, .loopVariable)
  | [] => .error (0, .loopVariable)

/-- The words of a loop, and what is left behind them; these are all arguments if
there are none. -/
def loopWords (tokens : List Lexeme) : Except (Nat × Fault) (List Word × List Lexeme) :=
  match expect? "in" tokens with
  | some rest =>
      let own := rest.takeWhile Lexeme.isWord
      let left := rest.drop own.length
      if startsWith ";" left || startsWith "\n" left then .ok (wordsOf own, left.tail)
      else refuse none left
  | none =>
      .ok ([[.parameter "@" .none [] true]], if startsWith ";" tokens then tokens.tail else tokens)

/-- What a list of commands is. -/
inductive ListKind where
  /-- A line of a script. -/
  | line
  /-- A part of a command, with one command at least. -/
  | block
  /-- A part of a command that may be empty. -/
  | any
  deriving Repr, DecidableEq

mutual
/-- Commands up to where the list ends. -/
def readCommands (kind : ListKind) : Nat → List Lexeme → CommandRead
  | 0, tokens => refuse none tokens
  | n + 1, tokens =>
      let tokens := if kind = .line then tokens else skipLines tokens
      let ends := tokens.head?.any fun p =>
        p.token.isEnd || (kind = .line && p.token = .mark "\n")
          || (kind = .any && p.token.closes)
      if ends then .ok (nothing, tokens)
      else do
        let (first, rest) ← readConditional n tokens
        let next : ListKind := if kind = .line then .line else .any
        match rest with
        | ⟨.mark "&", _⟩ :: rest =>
            let (more, rest) ← readCommands next n rest
            return ((beside first).followedBy more, rest)
        | ⟨.mark ";", _⟩ :: rest =>
            let (more, rest) ← readCommands next n rest
            return (first.followedBy more, rest)
        | ⟨.mark "\n", _⟩ :: after =>
            if kind = .line then return (first, rest)
            else
              let (more, rest) ← readCommands next n after
              return (first.followedBy more, rest)
        | rest =>
            if kind = .line && !rest.head?.any (·.token.isEnd) then refuse none rest
            else return (first, rest)

/-- Pipelines joined by conditions. -/
def readConditional : Nat → List Lexeme → CommandRead
  | 0, tokens => refuse none tokens
  | n + 1, tokens => do
      let (first, rest) ← readPipeline n tokens
      readJoined n first rest

/-- More pipelines behind a first one. -/
def readJoined : Nat → Script → List Lexeme → CommandRead
  | 0, _, tokens => refuse none tokens
  | n + 1, first, tokens =>
      match tokens with
      | ⟨.mark "&&", _⟩ :: rest => do
          let (second, rest) ← readPipeline n (skipLines rest)
          readJoined n (andThen first second) rest
      | ⟨.mark "||", _⟩ :: rest => do
          let (second, rest) ← readPipeline n (skipLines rest)
          readJoined n (orElse first second) rest
      | _ => .ok (first, tokens)

/-- Commands joined by pipes; an exclamation mark before them negates. -/
def readPipeline : Nat → List Lexeme → CommandRead
  | 0, tokens => refuse none tokens
  | n + 1, tokens => do
      let (first, rest) ← readCommand n ((expect? "!" tokens).getD tokens)
      let (script, rest) ← readPiped n first rest
      return (if (expect? "!" tokens).isSome then negated script else script, rest)

/-- More commands behind a pipe. -/
def readPiped : Nat → Script → List Lexeme → CommandRead
  | 0, _, tokens => refuse none tokens
  | n + 1, first, tokens =>
      match tokens with
      | ⟨.mark "|", _⟩ :: rest => do
          let (second, rest) ← readCommand n (skipLines rest)
          readPiped n (pipe first second) rest
      | _ => .ok (first, tokens)

/-- One command. -/
def readCommand : Nat → List Lexeme → CommandRead
  | 0, tokens => refuse none tokens
  | n + 1, tokens =>
      match tokens with
      | [] => refuse none []
      | first :: rest =>
          match first.token, first.token.bareWord? with
          | .mark "(", _ => do
              let (inner, rest) ← readCommands .block n rest
              if startsWith ")" rest then
                return attachRedirects (onLine first.line (apart inner)) rest.tail
              else refuse (some (inMessage ")")) rest
          | _, some "\x7b" => do
              let (inner, rest) ← readCommands .block n rest
              -- a block is more than the one command it may hold
              return attachRedirects (sequence nothing inner) (← expect "\x7d" rest)
          | _, some "if" => do
              let (script, rest) ← readBranches n rest
              return attachRedirects script rest
          | _, some "while" => do
              let (condition, rest) ← readCommands .block n rest
              let (body, rest) ← readBody n rest
              return attachRedirects (loop true condition body) rest
          | _, some "until" => do
              let (condition, rest) ← readCommands .block n rest
              let (body, rest) ← readBody n rest
              return attachRedirects (loop false condition body) rest
          | _, some "for" => do
              let (name, rest) ← loopName rest
              let (words, rest) ← loopWords rest
              let (body, rest) ← readBody n (skipLines rest)
              return attachRedirects (onLine first.line (each name words body)) rest
          | _, some "case" =>
              match rest with
              | ⟨.word word, _⟩ :: rest => do
                  let rest ← expect "in" (skipLines rest)
                  let (script, rest) ← readCases n word (skipLines rest)
                  return attachRedirects (onLine first.line script) rest
              | rest => refuse (some "word") rest
          | _, some text => do
              if reservedWords.contains text then refuse none tokens
              match ← functionName tokens with
              | some (name, rest) =>
                  let (body, rest) ← readCommand n (skipLines rest)
                  return (define name body, rest)
              | none => simpleCommand tokens
          | _, none => do
              let _ ← functionName tokens
              simpleCommand tokens

/-- What comes behind `if` or `elif`, up to `fi`. -/
def readBranches : Nat → List Lexeme → CommandRead
  | 0, tokens => refuse none tokens
  | n + 1, tokens => do
      let (condition, rest) ← readCommands .block n tokens
      let (yes, rest) ← readCommands .block n (← expect "then" rest)
      match expect? "elif" rest, expect? "else" rest with
      | some rest, _ =>
          let (no, rest) ← readBranches n rest
          return (branch condition yes no, rest)
      | none, some rest =>
          let (no, rest) ← readCommands .block n rest
          return (branch condition yes no, ← expect "fi" rest)
      | none, none => return (branch condition yes nothing, ← expect "fi" rest)

/-- The body of a loop. -/
def readBody : Nat → List Lexeme → CommandRead
  | 0, tokens => refuse none tokens
  | n + 1, tokens => do
      let (body, rest) ← readCommands .block n (← expect "do" tokens)
      return (body, ← expect "done" rest)

/-- The cases for a word. -/
def readCases : Nat → Word → List Lexeme → CommandRead
  | 0, _, tokens => refuse none tokens
  | n + 1, word, tokens =>
      match expect? "esac" tokens with
      | some rest => .ok (nothing, rest)
      | none => do
          let start := if startsWith "(" tokens then tokens.tail else tokens
          let (patterns, rest) ← casePatterns start
          let (yes, rest) ← readCommands .any n rest
          let rest := skipLines rest
          if startsWith ";;" rest then
            let (no, rest) ← readCases n word (skipLines rest.tail)
            return (choice word patterns yes no, rest)
          else
            match expect? "esac" rest with
            | some rest => return (choice word patterns yes nothing, rest)
            | none => refuse (some (inMessage ";;")) rest
end

/-- How much fuel the grammar takes for tokens. -/
def grammarFuel (tokens : List Lexeme) : Nat := 8 * tokens.length + 8

/-- What is wrong with a script inside of a word, and inside of its words; so many
scripts may stand inside of one another. -/
def innerTrouble : Nat → InnerCheck
  | 0 => unchecked
  | depth + 1 => fun enclosure source =>
      let closing := if enclosure = .closed then inMessage ")" else endOfFile
      let all := tokens (innerTrouble depth) closing (source.length + 1) 0 0 source
      let result : Except (Nat × Fault) Unit := do
        let (_, rest) ← readCommands .any (grammarFuel all) all
        let broken := rest.head?.any (·.token.isTrouble)
        let complete := rest.head?.any (·.token = .ending (inMessage ")"))
        if complete || (enclosure = .backQuotes && !broken) then return ()
        else refuse (some (inMessage ")")) rest
      match result with
      | .error (line, fault) => some (fault, some line)
      | .ok () => none

/-- The lines of a script, one after the other; where the grammar is broken,
the script ends. -/
def readTokens : Nat → List Lexeme → Script
  | 0, _ => nothing
  | fuel + 1, tokens =>
      let start := skipLines tokens
      match readCommands .line (grammarFuel start) start with
      | .error (line, fault) => malformed line fault
      | .ok (line, ⟨.mark "\n", _⟩ :: rest) => line.followedBy (readTokens fuel rest)
      | .ok (line, _) => line

/-- Read a script that starts in a line. -/
def ofText (line : Nat) (source : List Char) : Script :=
  let all := tokens (innerTrouble source.length) endOfFile (source.length + 1) line 0 source
  readTokens (all.length + 1) all

end Stencil.Script
