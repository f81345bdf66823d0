/-
  Stencil.Formatter.Command.Options
  ─────────────────────────────────
  Options among the arguments of a command.

  An option is a letter behind a hyphen or a word behind two of them.  Letters
  may share a hyphen; a word may be cut short as long as it is clear which one
  is meant.  Some options have a value: the rest of the argument, what is
  behind an equals sign, or the next argument.  Two hyphens end the options.
-/
import Stencil.Formatter.Command

namespace Stencil.Script

/-! ## §1. The options of a command. -/

/-- What may follow an option. -/
inductive Takes where
  /-- Nothing. -/
  | nothing
  /-- A value. -/
  | value
  /-- A value, if it is in the same argument. -/
  | maybe
  deriving Repr, DecidableEq

/-- An option that a command knows. -/
structure Known where
  /-- Its letter; empty if it has none. -/
  letter : String
  /-- Its word; empty if it has none. -/
  word : String
  /-- What may follow. -/
  takes : Takes
  deriving Repr, DecidableEq

/-- An option without a value. -/
def flag (letter word : String) : Known := ⟨letter, word, .nothing⟩

/-- An option with a value. -/
def valued (letter word : String) : Known := ⟨letter, word, .value⟩

/-- An option that may have a value. -/
def optional (letter word : String) : Known := ⟨letter, word, .maybe⟩

/-- Options of one letter without values. -/
def flags (letters : String) : List Known := letters.toList.map fun l => flag l.toString ""

/-- What an option goes by: its letter, or its word without one. -/
def Known.name (k : Known) : String := if k.letter = "" then k.word else k.letter

/-- Why arguments cannot be sorted out. -/
inductive OptionFault where
  /-- No option has this letter. -/
  | strangeLetter (letter : Char)
  /-- No option has this word. -/
  | strangeWord (text : String)
  /-- Several options have words that start like this. -/
  | unclear (text : String) (words : List String)
  /-- The value of a letter is missing. -/
  | openLetter (letter : Char)
  /-- The value of a word is missing. -/
  | openWord (word : String)
  /-- The option has no value. -/
  | needless (word : String)
  deriving Repr, DecidableEq

/-- A fault in words. -/
def OptionFault.message : OptionFault → String
  | strangeLetter letter => "invalid option -- '" ++ letter.toString ++ "'"
  | strangeWord text => "unrecognized option '--" ++ text ++ "'"
  | unclear text words =>
      "option '--" ++ text ++ "' is ambiguous; possibilities:"
        ++ String.join (words.map fun w => " '--" ++ w ++ "'")
  | openLetter letter => "option requires an argument -- '" ++ letter.toString ++ "'"
  | openWord word => "option '--" ++ word ++ "' requires an argument"
  | needless word => "option '--" ++ word ++ "' doesn't allow an argument"

/-- The option that a word stands for, even if the word is cut short. -/
def findWord (known : List Known) (word text : String) : Except OptionFault Known :=
  let worded := known.filter (·.word ≠ "")
  match worded.find? (·.word = word) with
  | some k => .ok k
  | none =>
      match worded.filter fun k => word.toList.isPrefixOf k.word.toList with
      | [] => .error (.strangeWord text)
      | k :: more =>
          if more.all fun other => other.letter = k.letter && k.letter ≠ "" then .ok k
          else .error (.unclear text ((k :: more).map Known.word))

/-! ## §2. Arguments sorted out. -/

/-- Arguments, sorted out. -/
structure Options where
  /-- Options by their names, with their values, in order. -/
  flags : List (String × String)
  /-- All other arguments. -/
  operands : List String
  deriving Repr, DecidableEq

namespace Options

/-- Is the option there? -/
def has (o : Options) (name : String) : Bool :=
  o.flags.any fun (n, _) => n == name

/-- The value of an option; the last one counts. -/
def value? (o : Options) (name : String) : Option String :=
  (o.flags.reverse.find? fun (n, _) => n == name).map Prod.snd

/-- All values of an option. -/
def values (o : Options) (name : String) : List String :=
  (o.flags.filter fun (n, _) => n == name).map Prod.snd

/-- The last of several options that is there. -/
def last? (o : Options) (names : List String) : Option (String × String) :=
  o.flags.reverse.find? fun (n, _) => names.contains n

/-- Another option in front. -/
def withFlag (o : Options) (name value : String) : Options :=
  { o with flags := (name, value) :: o.flags }

/-- Another operand in front. -/
def withOperand (o : Options) (arg : String) : Options :=
  { o with operands := arg :: o.operands }

/-- The options that letters stand for, and the name of the last one if its
value has to be the next argument. -/
def letters (known : List Known) :
    List Char → Except OptionFault (List (String × String) × Option (String × Char))
  | [] => .ok ([], none)
  | c :: cs =>
      match known.find? (·.letter = c.toString) with
      | none => .error (.strangeLetter c)
      | some k =>
          match k.takes with
          | .nothing => (letters known cs).map fun (more, left) => ((k.name, "") :: more, left)
          | .value =>
              if cs.isEmpty then .ok ([], some (k.name, c))
              else .ok ([(k.name, String.ofList cs)], none)
          | .maybe => .ok ([(k.name, String.ofList cs)], none)

/-- Sort out arguments.  Other arguments end the options, unless options may
come behind them. -/
def ofArgs (known : List Known) (mixed : Bool) : List String → Except OptionFault Options
  | [] => .ok ⟨[], []⟩
  | arg :: rest =>
      match arg.toList with
      | ['-', '-'] => .ok ⟨[], rest⟩
      | '-' :: '-' :: cs => do
          let word := cs.takeWhile (· != '=')
          let k ← findWord known (String.ofList word) (String.ofList cs)
          let value := String.ofList (cs.drop (word.length + 1))
          match k.takes, decide (word.length = cs.length), rest with
          | .nothing, false, _ => throw (.needless k.word)
          | .value, true, [] => throw (.openWord k.word)
          | .value, true, next :: rest => return (← ofArgs known mixed rest).withFlag k.name next
          | _, _, rest => return (← ofArgs known mixed rest).withFlag k.name value
      | '-' :: c :: cs => do
          let (found, left) ← letters known (c :: cs)
          match left, rest with
          | some (_, letter), [] => throw (.openLetter letter)
          | some (name, _), value :: rest =>
              let o ← ofArgs known mixed rest
              return { o with flags := found ++ (name, value) :: o.flags }
          | none, rest =>
              let o ← ofArgs known mixed rest
              return { o with flags := found ++ o.flags }
      | _ =>
          if mixed then (ofArgs known mixed rest).map (·.withOperand arg)
          else .ok ⟨[], arg :: rest⟩

end Options

/-! ## §3. Commands with options. -/

/-- The advice behind a message about arguments. -/
def Call.hint (c : Call) : String :=
  "\nTry '" ++ c.name ++ " --help' for more information."

/-- End with a message about arguments. -/
def Call.misuse (c : Call) (status : Nat) (message : String) : Result :=
  c.fail status (message ++ c.hint)

/-- Run a command with its options sorted out. -/
def withOptions (known : List Known) (status : Nat) (run : Options → Command) : Command := fun c =>
  match Options.ofArgs known true c.args with
  | .ok o => run o c
  | .error fault => c.misuse status fault.message

/-- Run a command with the options sorted out that stand before all else. -/
def withFirstOptions (known : List Known) (status : Nat) (run : Options → Command) : Command :=
  fun c =>
    match Options.ofArgs known false c.args with
    | .ok o => run o c
    | .error fault => c.misuse status fault.message

/-- The word that a value stands for, even if it is cut short.  Words in one group
mean the same, and the first of them is given. -/
def chooseWord (option text : String) (groups : List (List String)) : Except String String :=
  let close := groups.filter fun group => group.any fun w => text.toList.isPrefixOf w.toList
  let choices := groups.map fun group => "\n  - " ++ ", ".intercalate (group.map quotedArg)
  let fault (kind : String) : String :=
    kind ++ " argument " ++ quotedArg text ++ " for " ++ quotedArg option
      ++ "\nValid arguments are:" ++ String.join choices
  match groups.find? (·.contains text), close with
  | some group, _ => .ok (group.headD text)
  | none, [group] => .ok (group.headD text)
  | none, [] => .error (fault "invalid")
  | none, _ => .error (fault "ambiguous")

/-- The words that the values of an option stand for; an option may be without a
value. -/
def Options.chosen (o : Options) (name : String) (groups : List (List String)) :
    Except String (List String) :=
  ((o.values name).filter (· ≠ "")).mapM fun text => chooseWord ("--" ++ name) text groups

/-- Run a command, or end with a message about arguments. -/
def Call.orMisuse (c : Call) (status : Nat) : Except String Result → Result
  | .ok r => r
  | .error message => c.misuse status message

end Stencil.Script
