/-
  Stencil.Proofs.Template.Printer
  ───────────────────────────────
  PRINTING TEMPLATES, AND READING THE TOKENS BACK.

  A tree is printed by way of its clauses: texts as they stand, actions
  between double braces with single blanks between their tokens.  Two texts
  that meet are kept apart by a comment.  A text that ends in a brace would
  run into the braces after it: there a blank follows, and a trim marker
  takes the blank away again.

    • `Printable.legible` — a printed token is read back, if what follows
      does not continue it,
    • `readAs_joined` — so are the tokens of a whole action,
    • `tokensFrom_printFrom` — and those of a whole template.
-/
import Stencil.Proofs.Template.WellFormed

namespace Stencil.Template

open Text (isBlank isWordStart isWordChar isIdentifier trimStart trimEnd)
open Schema (takeWhile_append_stop isWordChar_of_isIdentifier)
open Outcome

/-! ## §1. Tokens of clauses. -/

/-- The token an operand stands for. -/
def Arg.token : Arg → Token
  | dot => .dot
  | field names => .field names
  | function name => .word name
  | var name => .var name
  | str value => .str value
  | number text => .number text

@[simp] theorem Arg.arg?_token (arg : Arg) : arg.token.arg? = some arg := by
  cases arg <;> rfl

/-- The tokens of commands, with bars between them. -/
def commandTokens : List Command → List Token
  | [] => []
  | [cmd] => cmd.args.map Arg.token
  | cmd :: rest => cmd.args.map Arg.token ++ .pipe :: commandTokens rest

theorem commandTokens_cons_cons (cmd c : Command) (rest : List Command) :
    commandTokens (cmd :: c :: rest)
      = cmd.args.map Arg.token ++ .pipe :: commandTokens (c :: rest) := rfl

/-- The tokens of a pipeline. -/
def Pipeline.tokens (pipe : Pipeline) : List Token :=
  match pipe.declared with
  | some name => .var name :: .declare :: commandTokens pipe.commands
  | none => commandTokens pipe.commands

/-- The keyword that opens a block. -/
def BranchKind.word : BranchKind → Keyword
  | cond => .ifWord
  | loop => .rangeWord
  | scope => .withWord

/-- The keyword of a jump. -/
def JumpKind.word : JumpKind → Keyword
  | leave => .breakWord
  | next => .continueWord

/-- The tokens of an action, without its delimiters. -/
def Clause.inner : Clause → List Token
  | text _ => []
  | value pipe => pipe.tokens
  | opening kind pipe => .keyword kind.word :: pipe.tokens
  | otherwise => [.keyword .elseWord]
  | otherwiseIf pipe => .keyword .elseWord :: .keyword .ifWord :: pipe.tokens
  | closing => [.keyword .endWord]
  | jump kind => [.keyword kind.word]
  | invoke name => [.keyword .templateWord, .str name]

/-- The tokens of a clause. -/
def Clause.tokens : Clause → List Token
  | text content => [.text content]
  | clause => .leftDelim :: (clause.inner ++ [.rightDelim])

/-! ## §2. The printed form. -/

/-- A character inside a quoted string. -/
def escapeChar (c : Char) : List Char :=
  if c = '\n' then ['\\', 'n']
  else if c = '\t' then ['\\', 't']
  else if c = '\r' then ['\\', 'r']
  else if c = '\\' then ['\\', '\\']
  else if c = '"' then ['\\', '"']
  else [c]

/-- The characters of a token inside an action. -/
def Token.printed : Token → List Char
  | dot => ['.']
  | field names => names.flatMap fun name => '.' :: name.toList
  | word chars | number chars => chars.toList
  | var name => '$' :: name.toList
  | str value => '"' :: (value.toList.flatMap escapeChar ++ ['"'])
  | keyword k => k.spelling.toList
  | pipe => ['|']
  | declare => [':', '=']
  | assign => ['=']
  | leftParen => ['(']
  | rightParen => [')']
  | text _ | leftDelim | rightDelim | eof => []

/-- Tokens with a blank before each. -/
def spaced (ts : List Token) : List Char :=
  ts.flatMap fun t => ' ' :: t.printed

/-- Tokens with a blank between them. -/
def joined : List Token → List Char
  | [] => []
  | t :: ts => t.printed ++ spaced ts

/-- The opening delimiter after a text; it never runs into the text. -/
def opener (before : List Char) : List Char :=
  if before.getLast? = some '\x7b' then [' ', '\x7b', '\x7b', '-', ' '] else ['\x7b', '\x7b']

/-- Print clauses behind a text that is still to be written. -/
def printFrom (before : List Char) : List Clause → List Char
  | [] => before
  | .text content :: rest =>
      if before = [] then printFrom content.toList rest
      else before ++ opener before ++ "/**/\x7d\x7d".toList ++ printFrom content.toList rest
  | clause :: rest =>
      before ++ opener before ++ joined clause.inner ++ "\x7d\x7d".toList ++ printFrom [] rest

/-! ## §3. Tokens are read back. -/

/-- What a printed token may be followed by: a blank or a brace. -/
def Stops (rest : List Char) : Prop :=
  ∀ c ∈ rest.head?, c = ' ' ∨ c = '\x7d'

theorem stops_blank (rest : List Char) : Stops (' ' :: rest) := by
  simp [Stops]

theorem stops_brace (rest : List Char) : Stops ('\x7d' :: rest) := by
  simp [Stops]

theorem stops_spaced (ts : List Token) (rest : List Char) :
    Stops (spaced ts ++ '\x7d' :: rest) := by
  cases ts with
  | nil => exact stops_brace rest
  | cons => exact stops_blank _

theorem Stops.not {rest : List Char} (h : Stops rest) {p : Char → Bool} (hblank : p ' ' = false)
    (hbrace : p '\x7d' = false) : ∀ c ∈ rest.head?, p c = false := by
  intro c hc
  rcases h c hc with rfl | rfl
  · exact hblank
  · exact hbrace

/-- A token that is printed as `c :: cs` and read back from that. -/
structure Legible (t : Token) (c : Char) (cs : List Char) : Prop where
  /-- Its characters. -/
  printed : t.printed = c :: cs
  /-- It starts with no blank. -/
  visible : isBlank c = false
  /-- It starts no comment. -/
  slash : c ≠ '/'
  /-- It starts no closing delimiter. -/
  brace : c ≠ '\x7d'
  /-- A hyphen is the sign of a number. -/
  sign : c = '-' → ∃ d ds, cs = d :: ds ∧ d.isDigit = true
  /-- It is read back. -/
  operand : ∀ {rest : List Char}, Stops rest → operand c (cs ++ rest) = .ok (t, cs.length)

/-- A character is escaped, or it may stand for itself. -/
theorem escapeChar_cases (c : Char) :
    (∃ e, escapeChar c = ['\\', e] ∧ unescape? e = some c)
      ∨ escapeChar c = [c] ∧ c ≠ '"' ∧ c ≠ '\n' ∧ c ≠ '\\' := by
  unfold escapeChar
  split
  next h => exact .inl ⟨'n', rfl, by rw [h]; rfl⟩
  split
  next h => exact .inl ⟨'t', rfl, by rw [h]; rfl⟩
  split
  next h => exact .inl ⟨'r', rfl, by rw [h]; rfl⟩
  split
  next h => exact .inl ⟨'\\', rfl, by rw [h]; rfl⟩
  split
  next h => exact .inl ⟨'"', rfl, by rw [h]; rfl⟩
  next hfeed _ _ hslash hquote => exact .inr ⟨rfl, hquote, hfeed, hslash⟩

/-- A quoted string is read back. -/
theorem quotedValue_escaped (rest : List Char) : ∀ value : List Char,
    quotedValue (value.flatMap escapeChar ++ '"' :: rest)
      = .ok (value, (value.flatMap escapeChar).length + 1)
  | [] => by
      rw [quotedValue.eq_def]
      rfl
  | c :: value => by
      have ih := quotedValue_escaped rest value
      rw [List.flatMap_cons, List.append_assoc, quotedValue.eq_def]
      rcases escapeChar_cases c with ⟨e, he, hun⟩ | ⟨he, hquote, hfeed, hslash⟩
      · simp [he, hun, ih, Except.map]
      · simp [he, hquote, hfeed, hslash, ih, Except.map]

/-- A chain of members is read back. -/
theorem memberChain_append {rest : List Char} (hrest : Stops rest) : ∀ {names : List String},
    (∀ name ∈ names, isIdentifier name = true) →
    memberChain ((names.flatMap fun name => '.' :: name.toList) ++ rest)
      = names.map String.toList
  | [], _ => by
      rw [List.flatMap_nil, List.nil_append, memberChain.eq_def]
      split
      next c cs => exact absurd (hrest '.' (by simp)) (by decide)
      next => rfl
  | name :: names, h => by
      obtain ⟨hname, hnames⟩ := List.forall_mem_cons.mp h
      have ih := memberChain_append hrest hnames
      cases hchars : name.toList with
      | nil => simp [isIdentifier, hchars] at hname
      | cons c cs =>
        simp only [isIdentifier, hchars, Bool.and_eq_true, List.all_eq_true] at hname
        -- the name ends at the dot of the next one, or at what follows the chain
        have hstop : ∀ d ∈ ((names.flatMap fun name => '.' :: name.toList) ++ rest).head?,
            isWordChar d = false := by
          cases names with
          | nil => simpa using hrest.not (by decide) (by decide)
          | cons => simp; decide
        rw [List.flatMap_cons, hchars, List.append_assoc, List.cons_append, List.cons_append,
          memberChain, if_pos hname.1]
        simp only [takeWhile_append_stop hname.2 hstop, List.drop_left, ih, List.map_cons, hchars]

/-- Characters of a class differ from all others. -/
theorem ne_of_class {p : Char → Bool} {c d : Char} (hc : p c = true) (hd : p d = false) :
    c ≠ d := by
  rintro rfl
  rw [hc] at hd
  exact absurd hd (by decide)

/-- A word is told by its first character. -/
theorem operand_of_isWordStart {c : Char} (h : isWordStart c = true) (cs : List Char) :
    operand c cs
      = .ok (wordToken (c :: cs.takeWhile isWordChar), (cs.takeWhile isWordChar).length) := by
  have hword := Schema.toNat_of_isWordStart h
  have hne : ∀ d, isWordStart d = false → c ≠ d := fun d => ne_of_class h
  have hnumber : startsNumber c cs = false := by
    have hdigit : c.isDigit = false := by
      by_contra hd
      have hrange := Schema.toNat_of_isDigit (Bool.not_eq_false _ ▸ hd)
      omega
    simp [startsNumber, hdigit, hne '-' (by decide), hne '+' (by decide)]
  unfold operand
  simp [h, hnumber, hne '.' (by decide), hne '$' (by decide), hne ':' (by decide),
    hne '"' (by decide), hne '\x60' (by decide)]

/-- So is a number, together with the second one. -/
theorem operand_of_startsNumber {c : Char} {cs : List Char} (h : startsNumber c cs = true) :
    operand c cs
      = .ok (.number (String.ofList (c :: cs.takeWhile isNumberChar)),
          (cs.takeWhile isNumberChar).length) := by
  have hne : ∀ d, d.isDigit = false → d ≠ '-' → d ≠ '+' → c ≠ d := by
    rintro d hd hminus hplus rfl
    simp [startsNumber, hd, hminus, hplus] at h
  unfold operand
  simp [h, hne '.' (by decide) (by decide) (by decide), hne '$' (by decide) (by decide) (by decide),
    hne ':' (by decide) (by decide) (by decide), hne '"' (by decide) (by decide) (by decide),
    hne '\x60' (by decide) (by decide) (by decide)]

/-- The tokens that actions are printed with. -/
inductive Token.Printable : Token → Prop
  /-- An operand. -/
  | arg {arg : Arg} (h : arg.WellFormed) : Printable arg.token
  /-- A keyword. -/
  | keyword (k : Keyword) : Printable (.keyword k)
  /-- A bar. -/
  | pipe : Printable .pipe
  /-- The sign that declares a variable. -/
  | declare : Printable .declare

theorem Token.Printable.ne_rightDelim {t : Token} (h : t.Printable) : t ≠ .rightDelim := by
  cases h with
  | @arg arg _ => cases arg <;> simp [Arg.token]
  | keyword | pipe | declare => simp

/-- Words are legible, keywords and names alike. -/
theorem legible_word {t : Token} {word : String} (hid : isIdentifier word = true)
    (hprinted : t.printed = word.toList) (hread : wordToken word.toList = t) :
    ∃ c cs, Legible t c cs := by
  cases hchars : word.toList with
  | nil => simp [isIdentifier, hchars] at hid
  | cons c cs =>
    simp only [isIdentifier, hchars, Bool.and_eq_true, List.all_eq_true] at hid
    obtain ⟨hc, hcs⟩ := hid
    refine ⟨c, cs, hprinted.trans hchars,
      Schema.isBlank_of_isWordChar (Text.isWordChar_of_isWordStart hc), ne_of_class hc (by decide),
      ne_of_class hc (by decide), fun hsign => absurd hsign (ne_of_class hc (by decide)),
      fun hstop => ?_⟩
    rw [operand_of_isWordStart hc, takeWhile_append_stop hcs (hstop.not (by decide) (by decide)),
      ← hchars, hread]

theorem legible_number {text : String} (h : IsNumber text) :
    ∃ c cs, Legible (.number text) c cs := by
  obtain ⟨sign, digit, more, htext, hsign, hdigit, hmore⟩ := h
  have hnum : isNumberChar digit = true := by simp [isNumberChar, Char.isAlphanum, hdigit]
  have hall : ∀ c ∈ digit :: more, isNumberChar c = true :=
    List.forall_mem_cons.mpr ⟨hnum, hmore⟩
  have hblank := Schema.isBlank_of_isWordChar (Schema.isWordChar_of_isDigit hdigit)
  -- with a sign, the digit is the second character of the number
  have hsigned : ∀ c : Char, (c = '+' ∨ c = '-') → isBlank c = false → c ≠ '/' → c ≠ '\x7d' →
      text.toList = c :: digit :: more → ∃ c cs, Legible (.number text) c cs := by
    intro c hc hcblank hslash hbrace htext
    refine ⟨c, digit :: more, htext, hcblank, hslash, hbrace, fun _ => ⟨digit, more, rfl, hdigit⟩,
      fun {rest} hstop => ?_⟩
    have hstart : startsNumber c ((digit :: more) ++ rest) = true := by
      simp [startsNumber, hdigit, hc.symm]
    rw [operand_of_startsNumber hstart,
      takeWhile_append_stop hall (hstop.not (by decide) (by decide)), ← htext, String.ofList_toList]
  rcases hsign with rfl | rfl | rfl
  · refine ⟨digit, more, htext, hblank, ne_of_class hdigit (by decide),
      ne_of_class hdigit (by decide), fun hminus => absurd hminus (ne_of_class hdigit (by decide)),
      fun {rest} hstop => ?_⟩
    have hstart : startsNumber digit (more ++ rest) = true := by simp [startsNumber, hdigit]
    rw [List.nil_append] at htext
    rw [operand_of_startsNumber hstart,
      takeWhile_append_stop hmore (hstop.not (by decide) (by decide)), ← htext,
      String.ofList_toList]
  · exact hsigned '+' (.inl rfl) (by decide) (by decide) (by decide) htext
  · exact hsigned '-' (.inr rfl) (by decide) (by decide) (by decide) htext

theorem legible_field {names : List String} (hne : names ≠ [])
    (hid : ∀ name ∈ names, isIdentifier name = true) : ∃ c cs, Legible (.field names) c cs := by
  cases names with
  | nil => exact absurd rfl hne
  | cons name names =>
    refine ⟨'.', name.toList ++ names.flatMap fun name => '.' :: name.toList, rfl, by decide,
      by decide, by decide, by simp, fun {rest} hstop => ?_⟩
    have hchain := memberChain_append hstop hid
    rw [List.flatMap_cons, List.cons_append, List.cons_append] at hchain
    have hdotted : dotted (name.toList ++ (names.flatMap fun name => '.' :: name.toList) ++ rest)
        = (.field (name :: names),
            (name.toList ++ names.flatMap fun name => '.' :: name.toList).length) := by
      unfold dotted
      rw [hchain]
      simp [Function.comp_def]
    unfold operand
    rw [if_pos rfl, hdotted]

/-- **Printed tokens are read back,** and start neither a comment nor a
delimiter. -/
theorem Token.Printable.legible {t : Token} (h : t.Printable) : ∃ c cs, Legible t c cs := by
  cases h with
  | @arg arg h =>
    cases arg with
    | dot =>
      refine ⟨'.', [], rfl, by decide, by decide, by decide, by simp, fun {rest} hstop => ?_⟩
      have hchain : memberChain ('.' :: rest) = [] := by
        cases rest with
        | nil => rw [memberChain]; simp
        | cons c rest =>
          have hc := hstop.not (p := isWordStart) (by decide) (by decide) c (by simp)
          rw [memberChain, if_neg (by simp [hc])]
      unfold operand
      rw [if_pos rfl, List.nil_append, dotted, hchain]
      rfl
    | field names => exact legible_field h.1 h.2
    | function name =>
      refine legible_word h.1 rfl ?_
      simp [wordToken, h.2, Arg.token]
    | var name =>
      refine ⟨'$', name.toList, rfl, by decide, by decide, by decide, by simp,
        fun {rest} hstop => ?_⟩
      have hname := takeWhile_append_stop h (hstop.not (p := isWordChar) (by decide) (by decide))
      unfold operand
      rw [if_neg (by decide), if_pos rfl, hname]
      dsimp only
      rw [String.ofList_toList]
      rfl
    | str value =>
      refine ⟨'"', value.toList.flatMap escapeChar ++ ['"'], rfl, by decide, by decide, by decide,
        by simp, fun {rest} _ => ?_⟩
      unfold operand
      rw [if_neg (by decide), if_neg (by decide), if_neg (by simp), if_pos rfl,
        List.append_assoc, List.singleton_append, quotedValue_escaped]
      simp [Except.map, Arg.token]
    | number text => exact legible_number h
  | keyword k =>
    refine legible_word ?_ rfl ?_
    · cases k <;> decide
    · simp [wordToken, Keyword.ofWord?_spelling]
  | pipe => exact ⟨'|', [], rfl, by decide, by decide, by decide, by simp, fun _ => rfl⟩
  | declare => exact ⟨':', ['='], rfl, by decide, by decide, by decide, by simp, fun _ => rfl⟩

/-! ## §4. Actions are read back. -/

/-- A legible token starts no closing delimiter. -/
theorem Legible.closing? {t : Token} {c : Char} {cs : List Char} (h : Legible t c cs)
    (afterBlank : Bool) (rest : List Char) : closing? afterBlank (c :: cs ++ rest) = none := by
  rw [List.cons_append, Template.closing?.eq_def]
  split
  next heq => exact absurd (List.cons.inj heq).1 h.brace
  next heq =>
    -- behind a hyphen there is a digit, and no brace
    obtain ⟨hc, htail⟩ := List.cons.inj heq
    obtain ⟨d, ds, rfl, hd⟩ := h.sign hc
    obtain ⟨rfl, -⟩ := List.cons.inj htail
    exact absurd hd (by decide)
  next => rfl

/-- One token of an action, behind blanks or none. -/
theorem actionTokens_legible {t : Token} {c : Char} {cs : List Char} (h : Legible t c cs)
    {blanks rest : List Char} (hblanks : ∀ b ∈ blanks, isBlank b = true) (hstop : Stops rest)
    (start pos : Nat) :
    ∃ here next, actionTokens start pos (blanks ++ t.printed ++ rest)
      = (actionTokens start next rest).map fun more =>
          { more with
            tokens := ⟨here, t⟩ :: more.tokens
            count := (blanks ++ t.printed).length + more.count } := by
  have htake : (blanks ++ (c :: cs ++ rest)).takeWhile isBlank = blanks :=
    takeWhile_append_stop hblanks (by simp [h.visible])
  refine ⟨pos + Text.width blanks,
    pos + Text.width blanks + c.utf8Size + Text.width (List.take cs.length (cs ++ rest)), ?_⟩
  rw [h.printed, List.append_assoc, actionTokens.eq_def]
  simp only [htake]
  split
  next hnil =>
    rw [htake, List.drop_left] at hnil
    simp at hnil
  next d tail hcons =>
    rw [htake, List.drop_left, List.cons_append] at hcons
    obtain ⟨rfl, rfl⟩ := List.cons.inj hcons
    have hclose := h.closing? (!blanks.isEmpty) rest
    rw [List.cons_append] at hclose
    rw [hclose]
    dsimp only
    rw [h.operand hstop]
    dsimp only
    rw [List.drop_left]
    have hcount : blanks.length + 1 + cs.length = (blanks ++ c :: cs).length := by
      simp only [List.length_append, List.length_cons]
      omega
    rw [hcount]

/-- **The tokens of an action are read back,** up to its closing delimiter. -/
theorem actionTokens_spaced {ts : List Token} (hts : ∀ t ∈ ts, t.Printable) (rest : List Char)
    (start : Nat) : ∀ pos : Nat, ∃ found,
      actionTokens start pos (spaced ts ++ '\x7d' :: '\x7d' :: rest) = .ok found
      ∧ found.tokens.map PlacedToken.token = ts ++ [.rightDelim]
      ∧ found.trim = false ∧ found.count = (spaced ts).length + 2 := by
  induction ts with
  | nil =>
    intro pos
    refine ⟨⟨[⟨pos, .rightDelim⟩], false, 2⟩, ?_, rfl, rfl, rfl⟩
    show actionTokens start pos ('\x7d' :: '\x7d' :: rest) = _
    rw [actionTokens.eq_def]
    rfl
  | cons t ts ih =>
    intro pos
    obtain ⟨ht, hts⟩ := List.forall_mem_cons.mp hts
    obtain ⟨c, cs, hlegible⟩ := ht.legible
    obtain ⟨here, next, hstep⟩ := @actionTokens_legible t c cs hlegible [' '] _ (by simp; decide)
      (stops_spaced ts ('\x7d' :: rest)) start pos
    obtain ⟨found, hfound, htokens, htrim, hcount⟩ := ih hts next
    refine ⟨{ found with
      tokens := ⟨here, t⟩ :: found.tokens
      count := ([' '] ++ t.printed).length + found.count }, ?_, ?_, htrim, ?_⟩
    · have hchars : spaced (t :: ts) ++ '\x7d' :: '\x7d' :: rest
          = [' '] ++ t.printed ++ (spaced ts ++ '\x7d' :: '\x7d' :: rest) := by
        simp [spaced]
      rw [hchars, hstep, hfound]
      rfl
    · simp [htokens]
    · simp [hcount, spaced]
      omega

/-- Characters that are read as a whole action, which trims nothing and leaves
these tokens. -/
structure ReadAs (body : List Char) (ts : List Token) : Prop where
  /-- They start with no trim marker. -/
  unmarked : ∀ rest : List Char, opensWithTrim (body ++ rest) = false
  /-- They are read, behind blanks or none. -/
  read : ∀ (blanks rest : List Char), (∀ b ∈ blanks, isBlank b = true) → ∀ start pos : Nat,
    ∃ found, action start pos (blanks ++ (body ++ rest)) = .ok found
      ∧ found.tokens.map PlacedToken.token = ts ∧ found.trim = false
      ∧ found.count = (blanks ++ body).length

/-- **A printed action is read as its tokens.** -/
theorem readAs_joined {ts : List Token} (hne : ts ≠ []) (hts : ∀ t ∈ ts, t.Printable) :
    ReadAs (joined ts ++ "\x7d\x7d".toList) (.leftDelim :: (ts ++ [.rightDelim])) := by
  cases ts with
  | nil => exact absurd rfl hne
  | cons t ts =>
    obtain ⟨ht, hts⟩ := List.forall_mem_cons.mp hts
    obtain ⟨c, cs, hlegible⟩ := ht.legible
    constructor
    · intro rest
      rw [joined, hlegible.printed]
      show opensWithTrim (c :: (cs ++ spaced ts ++ "\x7d\x7d".toList ++ rest)) = false
      unfold opensWithTrim
      split
      next d _ heq =>
        -- what follows a hyphen is a digit, and no blank
        obtain ⟨hc, htail⟩ := List.cons.inj heq
        obtain ⟨e, es, rfl, he⟩ := hlegible.sign hc
        obtain ⟨rfl, -⟩ := List.cons.inj htail
        exact Schema.isBlank_of_isWordChar (Schema.isWordChar_of_isDigit he)
      next => rfl
    · intro blanks rest hblanks start pos
      have hchars : joined (t :: ts) ++ "\x7d\x7d".toList ++ rest
          = t.printed ++ (spaced ts ++ '\x7d' :: '\x7d' :: rest) := by
        simp [joined]
      have htake :
          (blanks ++ (t.printed ++ (spaced ts ++ '\x7d' :: '\x7d' :: rest))).takeWhile isBlank
            = blanks := takeWhile_append_stop hblanks (by simp [hlegible.printed, hlegible.visible])
      have hcomment : ['/', '*'].isPrefixOf (t.printed ++ (spaced ts ++ '\x7d' :: '\x7d' :: rest))
          = false := by
        simp [hlegible.printed, List.isPrefixOf, Ne.symm hlegible.slash]
      obtain ⟨here, next, hstep⟩ := @actionTokens_legible t c cs hlegible [] _ (by simp)
        (stops_spaced ts ('\x7d' :: rest)) start (pos + Text.width blanks)
      obtain ⟨found, hfound, htokens, htrim, hcount⟩ := actionTokens_spaced hts rest start next
      rw [List.nil_append, hfound] at hstep
      unfold action
      rw [hchars, htake]
      dsimp only
      rw [List.drop_left, hcomment, if_neg (by simp), hstep]
      refine ⟨_, rfl, ?_, htrim, ?_⟩
      · simp [htokens]
      · simp [hcount, joined]

/-- A comment leaves no token. -/
theorem readAs_comment : ReadAs "/**/\x7d\x7d".toList [] := by
  constructor
  · intro rest
    rfl
  · intro blanks rest hblanks start pos
    have htake : (blanks ++ ("/**/\x7d\x7d".toList ++ rest)).takeWhile isBlank = blanks :=
      takeWhile_append_stop hblanks (by simp; decide)
    refine ⟨⟨[], false, blanks.length + 6⟩, ?_, rfl, rfl, by simp⟩
    unfold action
    rw [htake]
    dsimp only
    rw [List.drop_left]
    rfl

/-! ## §5. Texts are read back. -/

theorem findPair_append {a : Char} (tail : List Char) : ∀ {cs : List Char}, ¬ [a, a] <:+: cs →
    cs.getLast? ≠ some a → findPair a a (cs ++ a :: a :: tail) = some cs.length
  | [], _, _ => by simp [findPair]
  | c :: cs, hpair, hlast => by
      rw [List.infix_cons_iff, not_or, pair_prefix_cons] at hpair
      have hlast' : cs.getLast? ≠ some a := by
        intro h
        exact hlast (by rw [List.getLast?_cons, h]; rfl)
      have ih := findPair_append tail hpair.2 hlast'
      rw [List.cons_append, findPair, if_neg, ih]
      · rfl
      · -- a pair here would be one of the text, or end it
        intro hhere
        simp only [Bool.and_eq_true, decide_eq_true_eq, beq_iff_eq] at hhere
        cases cs with
        | nil => exact hlast (by simp [hhere.1])
        | cons d cs => exact hpair.1 ⟨hhere.1, by simpa using hhere.2⟩

theorem findPair_eq_none {a : Char} : ∀ {cs : List Char}, ¬ [a, a] <:+: cs →
    findPair a a cs = none
  | [], _ => rfl
  | c :: cs, hpair => by
      rw [List.infix_cons_iff, not_or, pair_prefix_cons] at hpair
      rw [findPair, if_neg, findPair_eq_none hpair.2]
      · rfl
      · intro hhere
        simp only [Bool.and_eq_true, decide_eq_true_eq, beq_iff_eq] at hhere
        exact hpair.1 hhere

/-- The token of a text that is still to be written, if any. -/
def textToken (before : List Char) : List Token :=
  if before = [] then [] else [.text (String.ofList before)]

theorem map_token_textTokens (pos : Nat) {raw before : List Char} {trim : Bool}
    (h : (if trim then trimEnd raw else raw) = before) :
    (textTokens pos false trim raw).map PlacedToken.token = textToken before := by
  unfold textTokens textToken
  simp only [h, Bool.false_eq_true, if_false, List.isEmpty_iff]
  split <;> rfl

/-- The trim marker of an opening delimiter, if it has one. -/
def marker (marked : Bool) : List Char :=
  if marked then ['-'] else []

/-- A stretch of text and the action after it are read, with or without a
marker. -/
theorem tokensFrom_opening {raw before lead body : List Char} {ts : List Token} {marked : Bool}
    (hpair : ¬ ['\x7b', '\x7b'] <:+: raw) (hlast : raw.getLast? ≠ some '\x7b')
    (hkept : (if marked then trimEnd raw else raw) = before)
    (hlead : ∀ b ∈ lead, isBlank b = true) (hbody : ReadAs body ts) (rest : List Char)
    (hmark : opensWithTrim (marker marked ++ (lead ++ (body ++ rest))) = marked) (pos : Nat) :
    ∃ next placed, placed.map PlacedToken.token = textToken before ++ ts
      ∧ tokensFrom pos false
          (raw ++ (['\x7b', '\x7b'] ++ (marker marked ++ (lead ++ (body ++ rest)))))
        = (tokensFrom next false rest).map (placed ++ ·) := by
  generalize hcs : raw ++ (['\x7b', '\x7b'] ++ (marker marked ++ (lead ++ (body ++ rest)))) = cs
  have hfind : findPair '\x7b' '\x7b' cs = some raw.length := by
    rw [← hcs]
    exact findPair_append _ hpair hlast
  have hopens : opensAt cs raw.length
      = (marked, (raw ++ (['\x7b', '\x7b'] ++ marker marked)).length) := by
    have hdrop : cs.drop (raw.length + 2) = marker marked ++ (lead ++ (body ++ rest)) := by
      rw [← hcs, ← List.append_assoc]
      exact List.drop_left' (by simp)
    unfold opensAt
    rw [hdrop, hmark]
    cases marked <;> simp [marker]
  have hafter : cs.drop (opensAt cs raw.length).2 = lead ++ (body ++ rest) := by
    have hsplit : cs
        = (raw ++ (['\x7b', '\x7b'] ++ marker marked)) ++ (lead ++ (body ++ rest)) := by
      rw [← hcs]
      simp only [List.append_assoc]
    rw [hopens, hsplit]
    exact List.drop_left' rfl
  obtain ⟨found, hfound, htokens, htrim, hcount⟩ := hbody.read lead rest hlead
    (pos + Text.width (cs.take raw.length)) (pos + Text.width (cs.take (opensAt cs raw.length).2))
  rw [← hafter] at hfound
  have hrest : cs.drop ((opensAt cs raw.length).2 + found.count) = rest := by
    rw [← List.drop_drop, hafter, hcount, ← List.append_assoc]
    exact List.drop_left' rfl
  have htake : cs.take raw.length = raw := by
    rw [← hcs]
    exact List.take_left' rfl
  rw [tokensFrom_of_some hfind, hfound, ok_bind, hrest, htrim, hopens, htake]
  refine ⟨_, textTokens pos false marked raw ++ found.tokens, ?_, rfl⟩
  rw [List.map_append, map_token_textTokens pos hkept, htokens]

/-- **A text and the action after it are read back.** -/
theorem tokensFrom_opened {before body : List Char} {ts : List Token}
    (hbefore : ¬ ['\x7b', '\x7b'] <:+: before) (hbody : ReadAs body ts) (rest : List Char)
    (pos : Nat) :
    ∃ next placed, placed.map PlacedToken.token = textToken before ++ ts
      ∧ tokensFrom pos false (before ++ opener before ++ (body ++ rest))
        = (tokensFrom next false rest).map (placed ++ ·) := by
  unfold opener
  split
  next hlast =>
    -- a blank parts the braces, and the marker takes it away
    have hpair : ¬ ['\x7b', '\x7b'] <:+: before ++ [' '] := by
      rw [List.infix_concat_iff]
      rintro (⟨front, hsuffix⟩ | hin)
      · simpa using congrArg List.getLast? hsuffix
      · exact hbefore hin
    have hkept : trimEnd (before ++ [' ']) = before := by
      obtain ⟨front, rfl⟩ := List.getLast?_eq_some_iff.mp hlast
      have hblank : isBlank ' ' = true := by decide
      have hbrace : isBlank '\x7b' = false := by decide
      simp [trimEnd, hblank, hbrace]
    obtain ⟨next, placed, hplaced, hread⟩ := @tokensFrom_opening (before ++ [' ']) before [' ']
      body ts true hpair (by simp) hkept (by simp; decide) hbody rest rfl pos
    refine ⟨next, placed, hplaced, ?_⟩
    rw [← hread]
    simp [marker]
  next hlast =>
    obtain ⟨next, placed, hplaced, hread⟩ := @tokensFrom_opening before before [] body ts false
      hbefore hlast rfl (by simp) hbody rest (hbody.unmarked rest) pos
    refine ⟨next, placed, hplaced, ?_⟩
    rw [← hread]
    simp [marker]

/-! ## §6. Templates are read back. -/

theorem commandTokens_ne_nil : ∀ {commands : List Command}, commands ≠ [] →
    (∀ cmd ∈ commands, cmd.WellFormed) → commandTokens commands ≠ []
  | [], hne, _ => absurd rfl hne
  | [cmd], _, h => by simpa [commandTokens] using (h cmd (by simp)).nonempty
  | cmd :: c :: rest, _, _ => by simp [commandTokens]

theorem printable_args {cmd : Command} (h : cmd.WellFormed) :
    ∀ t ∈ cmd.args.map Arg.token, t.Printable := by
  intro t ht
  obtain ⟨arg, harg, rfl⟩ := List.mem_map.mp ht
  exact .arg (h.args arg harg)

theorem printable_commandTokens : ∀ {commands : List Command},
    (∀ cmd ∈ commands, cmd.WellFormed) → ∀ t ∈ commandTokens commands, t.Printable
  | [], _ => by simp [commandTokens]
  | [cmd], h => printable_args (h cmd (by simp))
  | cmd :: c :: rest, h => by
      obtain ⟨hcmd, hrest⟩ := List.forall_mem_cons.mp h
      rw [commandTokens_cons_cons, List.forall_mem_append, List.forall_mem_cons]
      exact ⟨printable_args hcmd, .pipe, printable_commandTokens hrest⟩

theorem Pipeline.WellFormed.printable {pipe : Pipeline} (h : pipe.WellFormed) :
    pipe.tokens ≠ [] ∧ ∀ t ∈ pipe.tokens, t.Printable := by
  have hcommands := printable_commandTokens h.commands
  have hname := h.declared
  unfold Pipeline.tokens
  split
  next name hdeclared =>
    rw [hdeclared] at hname
    refine ⟨by simp, ?_⟩
    rw [List.forall_mem_cons, List.forall_mem_cons]
    exact ⟨@Token.Printable.arg (.var name) (hname name rfl), .declare, hcommands⟩
  next => exact ⟨commandTokens_ne_nil h.nonempty h.commands, hcommands⟩

/-- Actions are printed with printable tokens. -/
theorem Clause.WellFormed.printable {clause : Clause} (h : clause.WellFormed)
    (haction : ∀ content, clause ≠ .text content) :
    clause.inner ≠ [] ∧ ∀ t ∈ clause.inner, t.Printable := by
  cases clause with
  | text content => exact absurd rfl (haction content)
  | value pipe => exact Pipeline.WellFormed.printable h
  | opening kind pipe =>
    obtain ⟨-, hpipe⟩ := Pipeline.WellFormed.printable h
    exact ⟨by simp [inner], List.forall_mem_cons.mpr ⟨.keyword _, hpipe⟩⟩
  | otherwiseIf pipe =>
    obtain ⟨-, hpipe⟩ := Pipeline.WellFormed.printable h
    exact ⟨by simp [inner],
      List.forall_mem_cons.mpr ⟨.keyword _, List.forall_mem_cons.mpr ⟨.keyword _, hpipe⟩⟩⟩
  | otherwise | closing | jump kind =>
    exact ⟨by simp [inner], List.forall_mem_cons.mpr ⟨.keyword _, by simp⟩⟩
  | invoke name =>
    exact ⟨by simp [inner], List.forall_mem_cons.mpr ⟨.keyword _,
      List.forall_mem_cons.mpr ⟨@Token.Printable.arg (.str name) trivial, by simp⟩⟩⟩

theorem tokens_of_ne_text {clause : Clause} (h : ∀ content, clause ≠ .text content) :
    clause.tokens = .leftDelim :: (clause.inner ++ [.rightDelim]) := by
  cases clause with
  | text content => exact absurd rfl (h content)
  | value | opening | otherwise | otherwiseIf | closing | jump | invoke => rfl

theorem printFrom_of_ne_text {clause : Clause} (h : ∀ content, clause ≠ .text content)
    (before : List Char) (rest : List Clause) :
    printFrom before (clause :: rest)
      = before ++ opener before
        ++ (joined clause.inner ++ "\x7d\x7d".toList ++ printFrom [] rest) := by
  cases clause with
  | text content => exact absurd rfl (h content)
  | value | opening | otherwise | otherwiseIf | closing | jump | invoke => simp [printFrom]

/-- The rest of a template without actions is one text. -/
theorem tokensFrom_text {before : List Char} (h : ¬ ['\x7b', '\x7b'] <:+: before) (pos : Nat) :
    ∃ ts, tokensFrom pos false before = .ok ts
      ∧ ts.map PlacedToken.token = textToken before ++ [.eof] := by
  refine ⟨_, tokensFrom_of_none (findPair_eq_none h), ?_⟩
  rw [List.map_append, @map_token_textTokens pos before before false rfl]
  rfl

/-- **The tokens of printed clauses are read back,** a text before them first. -/
theorem tokensFrom_printFrom : ∀ {clauses : List Clause}, (∀ c ∈ clauses, c.WellFormed) →
    ∀ {before : List Char}, ¬ ['\x7b', '\x7b'] <:+: before → ∀ pos : Nat,
    ∃ ts, tokensFrom pos false (printFrom before clauses) = .ok ts
      ∧ ts.map PlacedToken.token = textToken before ++ clauses.flatMap Clause.tokens ++ [.eof]
  | [], _, before, hbefore, pos => by simpa [printFrom] using tokensFrom_text hbefore pos
  | clause :: clauses, hwf, before, hbefore, pos => by
      obtain ⟨hclause, hclauses⟩ := List.forall_mem_cons.mp hwf
      by_cases htext : ∃ content, clause = .text content
      · obtain ⟨content, rfl⟩ := htext
        have hcontent : IsText content.toList := hclause
        have htoken : textToken content.toList = [.text content] := by
          simp [textToken, hcontent.nonempty]
        by_cases hempty : before = []
        · -- nothing is waiting, so the text waits now
          obtain ⟨ts, hts, htokens⟩ := tokensFrom_printFrom hclauses hcontent.noBraces pos
          refine ⟨ts, ?_, ?_⟩
          · rw [printFrom, if_pos hempty]
            exact hts
          · rw [htokens, htoken, hempty]
            simp [textToken, Clause.tokens]
        · -- a comment keeps the two texts apart
          obtain ⟨next, placed, hplaced, hread⟩ := tokensFrom_opened hbefore readAs_comment
            (printFrom content.toList clauses) pos
          obtain ⟨ts, hts, htokens⟩ := tokensFrom_printFrom hclauses hcontent.noBraces next
          refine ⟨placed ++ ts, ?_, ?_⟩
          · rw [printFrom, if_neg hempty, List.append_assoc, hread, hts]
            rfl
          · rw [List.map_append, hplaced, htokens, htoken]
            simp [Clause.tokens]
      · have haction : ∀ content, clause ≠ .text content := fun content heq => htext ⟨content, heq⟩
        obtain ⟨hne, hprintable⟩ := hclause.printable haction
        obtain ⟨next, placed, hplaced, hread⟩ := tokensFrom_opened hbefore
          (readAs_joined hne hprintable) (printFrom [] clauses) pos
        obtain ⟨ts, hts, htokens⟩ := @tokensFrom_printFrom clauses hclauses [] (by simp) next
        refine ⟨placed ++ ts, ?_, ?_⟩
        · rw [printFrom_of_ne_text haction, hread, hts]
          rfl
        · rw [List.map_append, hplaced, htokens, List.flatMap_cons, tokens_of_ne_text haction]
          simp [textToken]

end Stencil.Template
