/-
  Stencil.Proofs.Template.Coverage
  ────────────────────────────────
  THE TOKENS OF A TEMPLATE COVER IT.

  A template that can be cut is a row of stretches.  Every token is spelled by
  one of them, and stands where that one starts; what belongs to no token is
  blank, the hyphen of an opening marker, or a comment with its delimiters.
  Nothing is left out and nothing is read twice, since the stretches one after
  the other are the template.

    • `operand_spelled` — operands are read from their spellings,
    • `actionTokens_layout`, `action_layout` — actions and comments are rows of
      stretches,
    • `tokensFrom_layout` — so are whole templates,
    • `Layout.increasing`, `Layout.shape`, `Layout.proper` — what rows of
      stretches have in common,
    • `tokens_lossless` — so cutting loses nothing.
-/
import Stencil.Proofs.Program.Location
import Stencil.Proofs.Template.Printer

namespace Stencil.Template

open Text (isBlank isWordStart isWordChar isIdentifier trimStart trimEnd width)
open Outcome

/-! ## §1. Spellings. -/

/-- Characters between double quotes, and the text they stand for. -/
inductive Unescapes : List Char → List Char → Prop
  | nil : Unescapes [] []
  /-- A character stands for itself. -/
  | plain {c : Char} {cs value : List Char} (hquote : c ≠ '"') (hline : c ≠ '\n')
      (hescape : c ≠ '\\') (h : Unescapes cs value) : Unescapes (c :: cs) (c :: value)
  /-- A backslash and a letter stand for another character. -/
  | escape {e v : Char} {cs value : List Char} (he : unescape? e = some v)
      (h : Unescapes cs value) : Unescapes ('\\' :: e :: cs) (v :: value)

/-- The characters that spell a token. -/
inductive Token.SpelledBy : Token → List Char → Prop
  | leftDelim : SpelledBy .leftDelim ['\x7b', '\x7b']
  | rightDelim : SpelledBy .rightDelim ['\x7d', '\x7d']
  | trimming : SpelledBy .rightDelim ['-', '\x7d', '\x7d']
  | dot : SpelledBy .dot ['.']
  | field {names : List String} (hne : names ≠ [])
      (h : ∀ name ∈ names, isIdentifier name = true) :
      SpelledBy (.field names) (names.flatMap fun name => '.' :: name.toList)
  | word {text : String} (h : isIdentifier text = true) : SpelledBy (.word text) text.toList
  | var {name : String} (h : IsVariable name) : SpelledBy (.var name) ('$' :: name.toList)
  | quoted {value : String} {cs : List Char} (h : Unescapes cs value.toList) :
      SpelledBy (.str value) ('"' :: (cs ++ ['"']))
  | raw {value : String} (h : '\x60' ∉ value.toList) :
      SpelledBy (.str value) ('\x60' :: (value.toList ++ ['\x60']))
  | number {text : String} (h : IsNumber text) : SpelledBy (.number text) text.toList
  | keyword (k : Keyword) : SpelledBy (.keyword k) k.spelling.toList
  | pipe : SpelledBy .pipe ['|']
  | declare : SpelledBy .declare [':', '=']
  | assign : SpelledBy .assign ['=']
  | leftParen : SpelledBy .leftParen ['(']
  | rightParen : SpelledBy .rightParen [')']

/-- An operand, a keyword or a sign: what stands between delimiters. -/
def Token.IsInner : Token → Prop
  | text _ | leftDelim | rightDelim | eof => False
  | _ => True

/-- Spellings are not empty. -/
theorem Token.SpelledBy.ne_nil {t : Token} {cs : List Char} (h : t.SpelledBy cs) : cs ≠ [] := by
  have hid : ∀ {name : String}, isIdentifier name = true → name.toList ≠ [] := by
    intro name hname hnil
    simp [isIdentifier, hnil] at hname
  cases h with
  | field hne hnames =>
    obtain ⟨name, names, rfl⟩ := List.exists_cons_of_ne_nil hne
    simp
  | word hword => exact hid hword
  | number hnumber =>
    obtain ⟨sign, digit, more, htext, -⟩ := hnumber
    rw [htext]
    simp
  | keyword k => cases k <;> decide
  | _ => simp

theorem Token.SpelledBy.not_text {t : Token} {cs : List Char} (h : t.SpelledBy cs) :
    t ≠ .eof ∧ ∀ content, t ≠ .text content := by
  cases h <;> simp

/-! ## §2. Operands. -/

theorem quotedValue_unescapes {cs value : List Char} {n : Nat}
    (h : quotedValue cs = .ok (value, n)) :
    ∃ inner, cs.take n = inner ++ ['"'] ∧ Unescapes inner value := by
  fun_induction quotedValue cs generalizing value n with
  | case1 => simp at h
  | case2 cs =>
    obtain ⟨rfl, rfl⟩ := Prod.mk.inj (Except.ok.inj h)
    exact ⟨[], rfl, .nil⟩
  | case3 => simp at h
  | case4 => simp at h
  | case5 => simp at h
  | case6 e cs v hv _ _ ih =>
    obtain ⟨⟨value', m⟩, hread, heq⟩ := map_eq_ok.mp h
    obtain ⟨rfl, rfl⟩ := Prod.mk.inj heq
    obtain ⟨inner, htake, hinner⟩ := ih hread
    exact ⟨'\\' :: e :: inner, by rw [List.take_succ_cons, List.take_succ_cons, htake]; rfl,
      .escape hv hinner⟩
  | case7 c cs hquote hline hescape ih =>
    obtain ⟨⟨value', m⟩, hread, heq⟩ := map_eq_ok.mp h
    obtain ⟨rfl, rfl⟩ := Prod.mk.inj heq
    obtain ⟨inner, htake, hinner⟩ := ih hread
    exact ⟨c :: inner, by rw [List.take_succ_cons, htake]; rfl,
      .plain hquote hline hescape hinner⟩

theorem rawValue_eq_ok {cs value : List Char} {n : Nat} (h : rawValue cs = .ok (value, n)) :
    cs.take n = value ++ ['\x60'] ∧ '\x60' ∉ value := by
  unfold rawValue at h
  dsimp only at h
  split at h
  next hlt =>
    obtain ⟨rfl, rfl⟩ := Prod.mk.inj (Except.ok.inj h)
    have hdrop := Schema.drop_length_takeWhile (· != '\x60') cs
    obtain ⟨c, rest, hrest⟩ : ∃ c rest, cs.dropWhile (· != '\x60') = c :: rest := by
      refine List.exists_cons_of_ne_nil fun hnil => ?_
      have hlen := congrArg List.length (hdrop.trans hnil)
      rw [List.length_drop, List.length_nil] at hlen
      omega
    have hstop : c = '\x60' := by
      simpa using Schema.head?_dropWhile_not (· != '\x60') cs c (by rw [hrest]; rfl)
    refine ⟨?_, fun hmem => by simpa using List.mem_takeWhile_imp hmem⟩
    conv =>
      lhs
      arg 2
      rw [← List.takeWhile_append_dropWhile (p := (· != '\x60')) (l := cs), hrest, hstop]
    exact List.take_length_add_append 1
  next => simp at h

/-- The names of a chain with their dots are how it starts. -/
theorem memberChain_prefix (cs : List Char) : (memberChain cs).flatMap ('.' :: ·) <+: cs := by
  fun_induction memberChain cs with
  | case1 c cs hc more ih =>
    have hmore : cs = more ++ cs.drop more.length := by
      rw [Schema.drop_length_takeWhile]
      exact List.takeWhile_append_dropWhile.symm
    rw [List.flatMap_cons, List.cons_append, List.cons_append, List.cons_prefix_cons,
      List.cons_prefix_cons]
    refine ⟨rfl, rfl, ?_⟩
    conv => rhs; rw [hmore]
    exact List.prefix_append_right_inj _ |>.mpr ih
  | case2 => simp
  | case3 => simp

/-- A dot and what follows it start with a chain of members. -/
theorem take_flatMap_dots {cs name : List Char} {names : List (List Char)}
    (h : (name :: names).flatMap ('.' :: ·) <+: '.' :: cs) :
    '.' :: cs.take (((name :: names).flatMap ('.' :: ·)).length - 1)
      = (name :: names).flatMap ('.' :: ·) := by
  have htake := List.prefix_iff_eq_take.mp h
  rw [List.flatMap_cons, List.cons_append] at htake ⊢
  rw [List.length_cons, List.take_succ_cons] at htake
  rw [List.length_cons, Nat.add_sub_cancel]
  exact htake.symm

theorem dotted_spelled {cs : List Char} {t : Token} {n : Nat} (h : dotted cs = (t, n)) :
    t.SpelledBy ('.' :: cs.take n) ∧ t.IsInner := by
  have hids := isIdentifier_of_memberChain ('.' :: cs)
  have hprefix := memberChain_prefix ('.' :: cs)
  unfold dotted at h
  split at h
  next =>
    obtain ⟨rfl, rfl⟩ := Prod.mk.inj h
    exact ⟨.dot, trivial⟩
  next hne =>
    obtain ⟨rfl, rfl⟩ := Prod.mk.inj h
    refine ⟨?_, trivial⟩
    generalize memberChain ('.' :: cs) = names at hids hprefix hne ⊢
    obtain ⟨name, names, rfl⟩ := List.exists_cons_of_ne_nil hne
    have hspelling : '.' :: cs.take (((name :: names).flatMap ('.' :: ·)).length - 1)
        = ((name :: names).map String.ofList).flatMap fun name => '.' :: name.toList := by
      rw [List.flatMap_map]
      simp only [String.toList_ofList]
      exact take_flatMap_dots hprefix
    rw [hspelling]
    refine .field (by simp) fun word hword => ?_
    obtain ⟨word, hmem, rfl⟩ := List.mem_map.mp hword
    exact hids word hmem

theorem take_length_takeWhile (p : Char → Bool) (cs : List Char) :
    cs.take (cs.takeWhile p).length = cs.takeWhile p :=
  (List.prefix_iff_eq_take.mp (List.takeWhile_prefix p)).symm

theorem wordToken_spelled {c : Char} {cs : List Char} (hc : isWordStart c = true)
    (hcs : ∀ d ∈ cs, isWordChar d = true) :
    (wordToken (c :: cs)).SpelledBy (c :: cs) ∧ (wordToken (c :: cs)).IsInner := by
  unfold wordToken
  dsimp only
  split
  next k hk =>
    have hspelling : k.spelling = String.ofList (c :: cs) := by
      simpa using List.find?_some hk
    have hchars := Token.SpelledBy.keyword k
    rw [hspelling, String.toList_ofList] at hchars
    exact ⟨hchars, trivial⟩
  next =>
    have hchars := Token.SpelledBy.word (isIdentifier_ofList hc hcs)
    rw [String.toList_ofList] at hchars
    exact ⟨hchars, trivial⟩

theorem punctuation?_spelled {c : Char} {t : Token} (h : punctuation? c = some t) :
    t.SpelledBy [c] ∧ t.IsInner := by
  have ht : (c = '=' ∧ t = .assign) ∨ (c = '|' ∧ t = .pipe) ∨ (c = '(' ∧ t = .leftParen)
      ∨ c = ')' ∧ t = .rightParen := by
    unfold punctuation? at h
    grind
  rcases ht with ⟨rfl, rfl⟩ | ⟨rfl, rfl⟩ | ⟨rfl, rfl⟩ | ⟨rfl, rfl⟩
  · exact ⟨.assign, trivial⟩
  · exact ⟨.pipe, trivial⟩
  · exact ⟨.leftParen, trivial⟩
  · exact ⟨.rightParen, trivial⟩

/-- **Operands are read from their spellings.** -/
theorem operand_spelled {c : Char} {cs : List Char} {t : Token} {n : Nat}
    (h : operand c cs = .ok (t, n)) : t.SpelledBy (c :: cs.take n) ∧ t.IsInner := by
  unfold operand at h
  split at h
  next hdot =>
    obtain rfl := hdot
    exact dotted_spelled (Except.ok.inj h)
  split at h
  next hdollar =>
    obtain ⟨rfl, rfl⟩ := Prod.mk.inj (Except.ok.inj h)
    obtain rfl := hdollar
    have hname : IsVariable (String.ofList (cs.takeWhile isWordChar)) := by
      intro d hd
      rw [String.toList_ofList] at hd
      exact List.mem_takeWhile_imp hd
    have hchars := Token.SpelledBy.var hname
    rw [String.toList_ofList] at hchars
    rw [take_length_takeWhile]
    exact ⟨hchars, trivial⟩
  split at h
  next hdeclare =>
    obtain ⟨rfl, rfl⟩ := Prod.mk.inj (Except.ok.inj h)
    simp only [Bool.and_eq_true, decide_eq_true_eq, beq_iff_eq] at hdeclare
    obtain ⟨rfl, hhead⟩ := hdeclare
    obtain ⟨rest, rfl⟩ := List.head?_eq_some_iff.mp hhead
    exact ⟨.declare, trivial⟩
  split at h
  next hquote =>
    obtain rfl := hquote
    obtain ⟨⟨value, n⟩, hread, heq⟩ := map_eq_ok.mp h
    obtain ⟨rfl, rfl⟩ := Prod.mk.inj heq
    obtain ⟨inner, htake, hinner⟩ := quotedValue_unescapes hread
    rw [htake]
    exact ⟨.quoted (by rw [String.toList_ofList]; exact hinner), trivial⟩
  split at h
  next hback =>
    obtain rfl := hback
    obtain ⟨⟨value, n⟩, hread, heq⟩ := map_eq_ok.mp h
    obtain ⟨rfl, rfl⟩ := Prod.mk.inj heq
    obtain ⟨htake, hno⟩ := rawValue_eq_ok hread
    rw [← String.toList_ofList (l := value)] at htake hno
    rw [htake]
    exact ⟨.raw hno, trivial⟩
  split at h
  next hstart =>
    obtain ⟨rfl, rfl⟩ := Prod.mk.inj (Except.ok.inj h)
    have hchars := Token.SpelledBy.number (isNumber_of_startsNumber hstart)
    rw [String.toList_ofList] at hchars
    rw [take_length_takeWhile]
    exact ⟨hchars, trivial⟩
  split at h
  next hstart =>
    obtain ⟨rfl, rfl⟩ := Prod.mk.inj (Except.ok.inj h)
    rw [take_length_takeWhile]
    exact wordToken_spelled hstart fun d hd => List.mem_takeWhile_imp hd
  split at h
  next token hp =>
    obtain ⟨rfl, rfl⟩ := Prod.mk.inj (Except.ok.inj h)
    exact punctuation?_spelled hp
  next => simp at h

/-! ## §3. Stretches. -/

/-- A comment without its delimiters: it opens, and closes where it first can. -/
structure IsCommentBody (cs : List Char) : Prop where
  /-- It opens. -/
  opens : ['/', '*'] <+: cs
  /-- It closes. -/
  closes : ['*', '/'] <:+ cs
  /-- Nothing follows the first pair of characters that closes it. -/
  first : ∀ front back, cs = front ++ '*' :: '/' :: back → back = []

/-- Only blanks. -/
def AllBlank (cs : List Char) : Prop :=
  ∀ c ∈ cs, isBlank c = true

/-- A comment with its delimiters and their markers. -/
inductive IsComment : List Char → Prop
  | intro {marked : Bool} {lead body trail close : List Char} (hlead : AllBlank lead)
      (hmarked : marked = true → lead ≠ []) (hbody : IsCommentBody body) (htrail : AllBlank trail)
      (hclose : close = ['\x7d', '\x7d'] ∨ close = ['-', '\x7d', '\x7d'] ∧ trail ≠ []) :
      IsComment ('\x7b' :: '\x7b' :: (marker marked ++ (lead ++ (body ++ (trail ++ close)))))

/-- A stretch of a template. -/
inductive Stretch where
  /-- The spelling of a token other than text. -/
  | token (t : Token) (spelling : List Char)
  /-- A text, and the blanks that were trimmed before it. -/
  | text (lead content : List Char)
  /-- Blanks. -/
  | blanks (cs : List Char)
  /-- The hyphen of an opening marker. -/
  | hyphen
  /-- A comment with its delimiters. -/
  | comment (cs : List Char)

namespace Stretch

/-- The characters of a stretch. -/
def chars : Stretch → List Char
  | token _ cs | blanks cs | comment cs => cs
  | text lead content => lead ++ content
  | hyphen => ['-']

/-- The token that stands where the stretch starts. -/
def token? : Stretch → Option Token
  | token t _ => some t
  | text _ content => some (.text (String.ofList content))
  | blanks _ | hyphen | comment _ => none

/-- A stretch is what it is called. -/
def Proper : Stretch → Prop
  | token t cs => t.SpelledBy cs
  | text lead content => AllBlank lead ∧ IsText content
  | blanks cs => AllBlank cs
  | hyphen => True
  | comment cs => IsComment cs

end Stretch

/-- The characters of stretches in a row. -/
def charsOf (row : List Stretch) : List Char :=
  row.flatMap Stretch.chars

/-- The tokens of stretches in a row, the first of which starts at `pos`. -/
def placedFrom (pos : Nat) : List Stretch → List PlacedToken
  | [] => []
  | s :: row => (s.token?.map (PlacedToken.mk pos)).toList ++ placedFrom (pos + width s.chars) row

/-- Outside actions, or inside one. -/
inductive Region where
  | outside
  | inside

/-- Stretches in a row, from a place outside or inside an action to the end of
the template. -/
inductive Layout : Region → List Stretch → Prop
  | done : Layout .outside []
  | text {lead content : List Char} {row : List Stretch} (hlead : AllBlank lead)
      (hcontent : IsText content) (h : Layout .outside row) :
      Layout .outside (.text lead content :: row)
  | between {cs : List Char} {row : List Stretch} (hcs : AllBlank cs) (h : Layout .outside row) :
      Layout .outside (.blanks cs :: row)
  | comment {cs : List Char} {row : List Stretch} (hcs : IsComment cs) (h : Layout .outside row) :
      Layout .outside (.comment cs :: row)
  | opens {row : List Stretch} (h : Layout .inside row) :
      Layout .outside (.token .leftDelim ['\x7b', '\x7b'] :: row)
  | opensTrimming {cs : List Char} {row : List Stretch} (hne : cs ≠ []) (hcs : AllBlank cs)
      (h : Layout .inside row) :
      Layout .outside (.token .leftDelim ['\x7b', '\x7b'] :: .hyphen :: .blanks cs :: row)
  | blanks {cs : List Char} {row : List Stretch} (hcs : AllBlank cs) (h : Layout .inside row) :
      Layout .inside (.blanks cs :: row)
  | inner {t : Token} {cs : List Char} {row : List Stretch} (ht : t.IsInner)
      (hcs : t.SpelledBy cs) (h : Layout .inside row) : Layout .inside (.token t cs :: row)
  | closes {row : List Stretch} (h : Layout .outside row) :
      Layout .inside (.token .rightDelim ['\x7d', '\x7d'] :: row)
  | closesTrimming {cs : List Char} {row : List Stretch} (hne : cs ≠ []) (hcs : AllBlank cs)
      (h : Layout .outside row) :
      Layout .inside (.blanks cs :: .token .rightDelim ['-', '\x7d', '\x7d'] :: row)

/-- The stretches are these characters, with these tokens. -/
structure Covers (pos : Nat) (cs : List Char) (ts : List PlacedToken) (row : List Stretch) :
    Prop where
  /-- They are the characters. -/
  chars : charsOf row = cs
  /-- They have the tokens. -/
  tokens : placedFrom pos row = ts

theorem covers_single {pos : Nat} (s : Stretch) :
    Covers pos s.chars (s.token?.map (PlacedToken.mk pos)).toList [s] :=
  ⟨by simp [charsOf], by simp [placedFrom]⟩

/-- What follows covered characters may be covered after them. -/
theorem Covers.append {pos : Nat} {cs more : List Char} {ts others : List PlacedToken}
    {row rest : List Stretch} (h : Covers pos cs ts row)
    (hrest : Covers (pos + width cs) more others rest) :
    Covers pos (cs ++ more) (ts ++ others) (row ++ rest) := by
  obtain ⟨rfl, rfl⟩ := h
  obtain ⟨rfl, rfl⟩ := hrest
  refine ⟨by simp [charsOf], ?_⟩
  induction row generalizing pos with
  | nil => simp [placedFrom, charsOf]
  | cons s row ih =>
    rw [List.cons_append, placedFrom, placedFrom, ih, List.append_assoc]
    simp [charsOf, Nat.add_assoc]

/-! ## §4. Actions and comments. -/

/-- The first pair is found, and nothing before it. -/
theorem findPair_eq_some {a b : Char} : ∀ {cs : List Char} {n : Nat},
    findPair a b cs = some n → cs.take (n + 2) = cs.take n ++ [a, b]
      ∧ ∀ front back, cs.take (n + 2) = front ++ a :: b :: back → back = []
  | [], n, h => by simp [findPair] at h
  | c :: cs, n, h => by
      rw [findPair] at h
      split at h
      next hpair =>
        simp only [Bool.and_eq_true, decide_eq_true_eq, beq_iff_eq] at hpair
        obtain ⟨rfl, hhead⟩ := hpair
        obtain ⟨rest, rfl⟩ := List.head?_eq_some_iff.mp hhead
        obtain rfl : 0 = n := by simpa using h
        refine ⟨by simp, fun front back heq => ?_⟩
        have hlen := congrArg List.length heq
        simp only [List.length_take, List.length_append, List.length_cons] at hlen
        exact List.length_eq_zero_iff.mp (by omega)
      next hne =>
        simp only [Bool.and_eq_true, decide_eq_true_eq, beq_iff_eq] at hne
        obtain ⟨m, hm, rfl⟩ := Option.map_eq_some_iff.mp h
        obtain ⟨htake, hfirst⟩ := findPair_eq_some hm
        refine ⟨by rw [List.take_succ_cons, List.take_succ_cons, htake]; rfl, ?_⟩
        intro front back heq
        rw [List.take_succ_cons] at heq
        cases front with
        | nil =>
          obtain ⟨rfl, htail⟩ := List.cons.inj heq
          refine absurd ⟨rfl, ?_⟩ hne
          have hhead := congrArg List.head? htail
          simpa [List.head?_take] using hhead
        | cons d front => exact hfirst front back (List.cons.inj heq).2

/-- A closing delimiter, with a marker only after a blank. -/
theorem closing?_eq_some {afterBlank trim : Bool} {cs : List Char} {n : Nat}
    (h : closing? afterBlank cs = some (trim, n)) :
    (trim = true → afterBlank = true) ∧ n = (marker trim).length + 2
      ∧ cs.take n = marker trim ++ ['\x7d', '\x7d'] := by
  unfold closing? at h
  split at h
  next =>
    obtain ⟨rfl, rfl⟩ := Prod.mk.inj (Option.some.inj h)
    exact ⟨by simp, rfl, rfl⟩
  next =>
    split at h
    next hblank =>
      obtain ⟨rfl, rfl⟩ := Prod.mk.inj (Option.some.inj h)
      exact ⟨fun _ => hblank, rfl, rfl⟩
    next => simp at h
  next => simp at h

theorem allBlank_takeWhile (cs : List Char) : AllBlank (cs.takeWhile isBlank) :=
  fun _ hc => List.mem_takeWhile_imp hc

theorem take_blanks_add (cs : List Char) (n : Nat) :
    cs.take ((cs.takeWhile isBlank).length + n)
      = cs.takeWhile isBlank ++ (cs.drop (cs.takeWhile isBlank).length).take n := by
  rw [List.take_add, take_length_takeWhile]

/-- The characters of blanks, an operand and what is read after it. -/
theorem take_operand_add {cs rest : List Char} {c : Char}
    (h : cs.drop (cs.takeWhile isBlank).length = c :: rest) (n count : Nat) :
    cs.take ((cs.takeWhile isBlank).length + 1 + n + count)
      = cs.takeWhile isBlank ++ (c :: rest.take n ++ (rest.drop n).take count) := by
  rw [Nat.add_assoc, Nat.add_assoc, take_blanks_add, h,
    show 1 + (n + count) = n + count + 1 by omega, List.take_succ_cons, List.take_add]
  rfl

/-- **The tokens of an action cover it,** up to and with its closing delimiter. -/
theorem actionTokens_layout {start pos : Nat} {cs : List Char} {found : ActionTokens}
    (h : actionTokens start pos cs = .ok found) :
    ∃ row, Covers pos (cs.take found.count) found.tokens row
      ∧ ∀ rest, Layout .outside rest → Layout .inside (row ++ rest) := by
  fun_induction actionTokens start pos cs generalizing found
  case case1 => simp at h
  case case2 pos cs blanks here c rest hrest trim n hclose =>
    obtain rfl := Except.ok.inj h
    have hblanks : AllBlank blanks := allBlank_takeWhile cs
    dsimp only
    rw [take_blanks_add, hrest]
    obtain ⟨hne, -, htake⟩ := closing?_eq_some hclose
    refine ⟨[.blanks blanks, .token .rightDelim (marker trim ++ ['\x7d', '\x7d'])], ?_,
      fun rest hlayout => ?_⟩
    · rw [htake]
      exact (covers_single (.blanks blanks)).append (covers_single (.token .rightDelim _))
    · cases trim with
      | false => exact .blanks hblanks (.closes hlayout)
      | true => exact .closesTrimming (by simpa using hne rfl) hblanks hlayout
  case case3 => simp at h
  case case4 pos cs blanks here c rest hrest _ t n hoperand ih =>
    obtain ⟨more, hmore, rfl⟩ := map_eq_ok.mp h
    obtain ⟨row, hrow, hlayout⟩ := ih hmore
    obtain ⟨hspelled, hinner⟩ := operand_spelled hoperand
    have hblanks : AllBlank blanks := allBlank_takeWhile cs
    refine ⟨.blanks blanks :: .token t (c :: rest.take n) :: row, ?_, fun rest hrest => ?_⟩
    · dsimp only
      rw [take_operand_add hrest]
      refine (covers_single (.blanks blanks)).append ?_
      refine (covers_single (.token t (c :: rest.take n))).append ?_
      rw [Nat.add_assoc] at hrow
      exact hrow
    · exact .blanks hblanks (.inner hinner hspelled (hlayout rest hrest))

/-- A comment with blanks before it and its delimiters. -/
theorem comment_layout {start : Nat} {marked : Bool} {lead cs : List Char} {found : ActionTokens}
    (hlead : AllBlank lead) (hmarked : marked = true → lead ≠ []) (hopens : ['/', '*'] <+: cs)
    (h : comment start cs = .ok found) : found.tokens = []
      ∧ IsComment ('\x7b' :: '\x7b' :: (marker marked ++ (lead ++ cs.take found.count))) := by
  unfold comment at h
  split at h
  next => simp at h
  next n hpair =>
    dsimp only at h
    split at h
    next trim k hclose =>
      obtain rfl := Except.ok.inj h
      refine ⟨rfl, ?_⟩
      obtain ⟨htake, hfirst⟩ := findPair_eq_some hpair
      have hbody : IsCommentBody (cs.take (n + 2)) := by
        refine ⟨?_, ⟨cs.take n, htake.symm⟩, hfirst⟩
        exact List.prefix_take_iff.mpr ⟨hopens, by simp⟩
      dsimp only
      rw [Nat.add_assoc, List.take_add, take_blanks_add]
      refine .intro hlead hmarked hbody (allBlank_takeWhile _) ?_
      obtain ⟨hne, -, htake⟩ := closing?_eq_some hclose
      rw [htake]
      cases trim with
      | false => exact .inl rfl
      | true => exact .inr ⟨rfl, by simpa using hne rfl⟩
    next => simp at h

/-- The opening delimiter and its marker, after the text before it. -/
theorem take_opensAt {cs : List Char} {n : Nat} (h : findPair '\x7b' '\x7b' cs = some n) :
    cs.take (opensAt cs n).2 = cs.take n ++ '\x7b' :: '\x7b' :: marker (opensAt cs n).1
      ∧ ((opensAt cs n).1 = true → (cs.drop (opensAt cs n).2).takeWhile isBlank ≠ []) := by
  obtain ⟨htake, -⟩ := findPair_eq_some h
  unfold opensAt
  dsimp only
  cases hmarked : opensWithTrim (cs.drop (n + 2)) with
  | false =>
    refine ⟨?_, by simp⟩
    simpa [marker] using htake
  | true =>
    -- behind the braces there are a hyphen and a blank
    obtain ⟨c, rest, hdrop, hblank⟩ : ∃ c rest, cs.drop (n + 2) = '-' :: c :: rest
        ∧ isBlank c = true := by
      unfold opensWithTrim at hmarked
      split at hmarked
      next c rest hdrop => exact ⟨c, rest, hdrop, hmarked⟩
      next => simp at hmarked
    constructor
    · rw [if_pos rfl, show n + 3 = (n + 2) + 1 from rfl, List.take_add, htake, hdrop]
      simp [marker]
    · intro _
      rw [if_pos rfl, show n + 3 = (n + 2) + 1 from rfl, ← List.drop_drop, hdrop]
      simp [hblank]

/-- **An action or a comment is covered,** with its opening delimiter. -/
theorem action_layout {start : Nat} {marked : Bool} {cs : List Char} {found : ActionTokens}
    (hmarked : marked = true → cs.takeWhile isBlank ≠ [])
    (h : action start (start + width ('\x7b' :: '\x7b' :: marker marked)) cs = .ok found) :
    ∃ row, Covers start ('\x7b' :: '\x7b' :: (marker marked ++ cs.take found.count))
        found.tokens row
      ∧ ∀ rest, Layout .outside rest → Layout .outside (row ++ rest) := by
  have hblanks := allBlank_takeWhile cs
  unfold action at h
  dsimp only at h
  split at h
  next hcomment =>
    obtain ⟨found, hfound, rfl⟩ := map_eq_ok.mp h
    obtain ⟨htokens, hcomment⟩ :=
      comment_layout hblanks hmarked (List.isPrefixOf_iff_prefix.mp hcomment) hfound
    dsimp only
    rw [take_blanks_add, htokens]
    exact ⟨[.comment _], covers_single (.comment _), fun rest hrest => .comment hcomment hrest⟩
  next =>
    obtain ⟨found, hfound, rfl⟩ := map_eq_ok.mp h
    obtain ⟨row, hrow, hlayout⟩ := actionTokens_layout hfound
    dsimp only
    rw [take_blanks_add]
    have hopen : Covers start ['\x7b', '\x7b'] [⟨start, .leftDelim⟩]
      [.token .leftDelim ['\x7b', '\x7b']] := covers_single (.token .leftDelim _)
    cases marked with
    | false =>
      refine ⟨.token .leftDelim ['\x7b', '\x7b'] :: .blanks (cs.takeWhile isBlank) :: row, ?_,
        fun rest hrest => .opens (.blanks hblanks (hlayout rest hrest))⟩
      exact hopen.append ((covers_single (.blanks _)).append hrow)
    | true =>
      refine ⟨.token .leftDelim ['\x7b', '\x7b'] :: .hyphen :: .blanks (cs.takeWhile isBlank)
        :: row, ?_, fun rest hrest => .opensTrimming (hmarked rfl) hblanks (hlayout rest hrest)⟩
      refine hopen.append ((covers_single .hyphen).append ((covers_single (.blanks _)).append ?_))
      simpa [marker, Nat.add_assoc, Stretch.chars] using hrow

/-! ## §5. Whole templates. -/

/-- What trimming takes from a text is blank. -/
theorem exists_textTokens (pos : Nat) (trimLeft trimRight : Bool) (raw : List Char) :
    ∃ lead kept trail, raw = lead ++ (kept ++ trail) ∧ AllBlank lead ∧ AllBlank trail
      ∧ textTokens pos trimLeft trimRight raw
        = if kept = [] then [] else [⟨pos, .text (String.ofList kept)⟩] := by
  obtain ⟨lead, kept, hraw, hlead, hkept⟩ : ∃ lead kept, raw = lead ++ kept ∧ AllBlank lead
      ∧ (if trimLeft then trimStart raw else raw) = kept := by
    cases trimLeft with
    | false => exact ⟨[], raw, rfl, by simp [AllBlank], rfl⟩
    | true =>
      exact ⟨raw.takeWhile isBlank, trimStart raw, List.takeWhile_append_dropWhile.symm,
        allBlank_takeWhile raw, rfl⟩
  obtain ⟨kept', trail, hkept', htrail, hright⟩ : ∃ kept' trail, kept = kept' ++ trail
      ∧ AllBlank trail ∧ (if trimRight then trimEnd kept else kept) = kept' := by
    cases trimRight with
    | false => exact ⟨kept, [], (List.append_nil _).symm, by simp [AllBlank], rfl⟩
    | true =>
      refine ⟨trimEnd kept, (kept.reverse.takeWhile isBlank).reverse, ?_, ?_, rfl⟩
      · rw [trimEnd, ← List.reverse_append, List.takeWhile_append_dropWhile, List.reverse_reverse]
      · exact fun c hc => allBlank_takeWhile _ c (List.mem_reverse.mp hc)
  refine ⟨lead, kept', trail, by rw [hraw, hkept'], hlead, htrail, ?_⟩
  unfold textTokens
  dsimp only
  rw [hkept, hright]
  simp only [List.isEmpty_iff]

/-- **A text is covered,** and the blanks around it. -/
theorem textTokens_layout {raw : List Char} (hraw : ¬ ['\x7b', '\x7b'] <:+: raw) (pos : Nat)
    (trimLeft trimRight : Bool) :
    ∃ row, Covers pos raw (textTokens pos trimLeft trimRight raw) row
      ∧ ∀ rest, Layout .outside rest → Layout .outside (row ++ rest) := by
  obtain ⟨lead, kept, trail, rfl, hlead, htrail, htokens⟩ :=
    exists_textTokens pos trimLeft trimRight raw
  rw [htokens]
  by_cases hkept : kept = []
  · have hblank : AllBlank (lead ++ (kept ++ trail)) := by
      rw [hkept]
      exact List.forall_mem_append.mpr ⟨hlead, htrail⟩
    rw [if_pos hkept]
    exact ⟨[.blanks _], covers_single (.blanks _), fun rest hrest => .between hblank hrest⟩
  · have htext : IsText kept := by
      refine ⟨hkept, fun hin => hraw (hin.trans ?_)⟩
      exact ⟨lead, trail, by rw [List.append_assoc]⟩
    rw [if_neg hkept, ← List.append_assoc]
    refine ⟨[.text lead kept, .blanks trail], ?_,
      fun rest hrest => .text hlead htext (.between htrail hrest)⟩
    exact (covers_single (.text lead kept)).append (covers_single (.blanks trail))

/-- **A template that can be cut is a row of stretches,** up to its end. -/
theorem tokensFrom_layout {pos : Nat} {trim : Bool} {cs : List Char} {ts : List PlacedToken}
    (h : tokensFrom pos trim cs = .ok ts) :
    ∃ row front, Layout .outside row ∧ Covers pos cs front row
      ∧ ts = front ++ [⟨pos + width cs, .eof⟩] := by
  induction hlen : cs.length using Nat.strong_induction_on generalizing cs pos trim ts with
  | h len ih =>
    subst hlen
    cases hpair : findPair '\x7b' '\x7b' cs with
    | none =>
      rw [tokensFrom_of_none hpair] at h
      obtain rfl := Except.ok.inj h
      obtain ⟨row, hcovers, hlayout⟩ :=
        textTokens_layout (not_infix_of_findPair hpair) pos trim false
      exact ⟨row, _, by simpa using hlayout [] .done, hcovers, rfl⟩
    | some n =>
      rw [tokensFrom_of_some hpair] at h
      obtain ⟨found, hfound, h⟩ := bind_eq_ok.mp h
      obtain ⟨more, hmore, rfl⟩ := map_eq_ok.mp h
      obtain ⟨row, front, hlayout, hcovers, rfl⟩ :=
        ih _ (length_drop_opensAt_lt hpair found.count) hmore rfl
      obtain ⟨hopening, hmarked⟩ := take_opensAt hpair
      -- the three parts of the template: the text, the action and what follows
      obtain ⟨before, hbefore, hbeforeLayout⟩ :=
        textTokens_layout (not_infix_take_findPair hpair) pos trim (opensAt cs n).1
      rw [hopening, Text.width_append, ← Nat.add_assoc] at hfound
      obtain ⟨middle, hmiddle, hmiddleLayout⟩ := action_layout hmarked hfound
      have hused : cs.take ((opensAt cs n).2 + found.count) = cs.take n
          ++ '\x7b' :: '\x7b' :: (marker (opensAt cs n).1
            ++ (cs.drop (opensAt cs n).2).take found.count) := by
        rw [List.take_add, hopening]
        simp
      have hall := hbefore.append hmiddle
      rw [← hused] at hall
      have hcs := hall.append hcovers
      rw [List.take_append_drop] at hcs
      have hend : pos + width (cs.take ((opensAt cs n).2 + found.count))
          + width (cs.drop ((opensAt cs n).2 + found.count)) = pos + width cs := by
        rw [Nat.add_assoc, ← Text.width_append, List.take_append_drop]
      refine ⟨before ++ middle ++ row, _, ?_, hcs, ?_⟩
      · rw [List.append_assoc]
        exact hbeforeLayout _ (hmiddleLayout _ hlayout)
      · rw [hend, ← List.append_assoc]

/-! ## §6. What a layout says of its tokens. -/

/-- Texts, and operands between delimiters. -/
inductive TokenSequence : List Token → Prop
  | done : TokenSequence []
  | text {content : String} {ts : List Token} (h : TokenSequence ts) :
      TokenSequence (.text content :: ts)
  | action {inner ts : List Token} (hinner : ∀ t ∈ inner, t.IsInner) (h : TokenSequence ts) :
      TokenSequence (.leftDelim :: (inner ++ .rightDelim :: ts))

/-- Inside an action there is the rest of it first. -/
def Region.Sequence : Region → List Token → Prop
  | outside, ts => TokenSequence ts
  | inside, ts => ∃ inner more, ts = inner ++ .rightDelim :: more ∧ (∀ t ∈ inner, t.IsInner)
      ∧ TokenSequence more

theorem Region.Sequence.opened {ts : List Token} (h : Region.inside.Sequence ts) :
    Region.outside.Sequence (.leftDelim :: ts) := by
  obtain ⟨inner, more, rfl, hinner, hmore⟩ := h
  exact .action hinner hmore

/-- The tokens of stretches in a row, without their places. -/
def tokensOf (row : List Stretch) : List Token :=
  row.filterMap Stretch.token?

theorem map_token_placedFrom (row : List Stretch) (pos : Nat) :
    (placedFrom pos row).map PlacedToken.token = tokensOf row := by
  induction row generalizing pos with
  | nil => rfl
  | cons s row ih =>
    rw [placedFrom, List.map_append, ih, tokensOf, tokensOf, List.filterMap_cons]
    cases s.token? with
    | none => rfl
    | some t => rfl

namespace Layout

/-- **Outside actions there are texts and whole actions.** -/
theorem shape {region : Region} {row : List Stretch} (h : Layout region row) :
    region.Sequence (tokensOf row) := by
  induction h with
  | done => exact .done
  | text _ _ _ ih => exact .text ih
  | between _ _ ih => exact ih
  | comment _ _ ih => exact ih
  | opens _ ih => exact ih.opened
  | opensTrimming _ _ _ ih => exact ih.opened
  | blanks _ _ ih => exact ih
  | inner ht _ _ ih =>
    obtain ⟨inner, more, heq, hinner, hmore⟩ := ih
    exact ⟨_ :: inner, more, congrArg (_ :: ·) heq, List.forall_mem_cons.mpr ⟨ht, hinner⟩, hmore⟩
  | closes _ ih => exact ⟨[], _, rfl, by simp, ih⟩
  | closesTrimming _ _ _ ih => exact ⟨[], _, rfl, by simp, ih⟩

/-- **All stretches of a layout are what they are called.** -/
theorem proper {region : Region} {row : List Stretch} (h : Layout region row) :
    ∀ s ∈ row, s.Proper := by
  induction h with
  | done => simp
  | text hlead hcontent _ ih => exact List.forall_mem_cons.mpr ⟨⟨hlead, hcontent⟩, ih⟩
  | between hcs _ ih => exact List.forall_mem_cons.mpr ⟨hcs, ih⟩
  | comment hcs _ ih => exact List.forall_mem_cons.mpr ⟨hcs, ih⟩
  | opens _ ih => exact List.forall_mem_cons.mpr ⟨.leftDelim, ih⟩
  | opensTrimming _ hcs _ ih =>
    exact List.forall_mem_cons.mpr ⟨.leftDelim, List.forall_mem_cons.mpr
      ⟨trivial, List.forall_mem_cons.mpr ⟨hcs, ih⟩⟩⟩
  | blanks hcs _ ih => exact List.forall_mem_cons.mpr ⟨hcs, ih⟩
  | inner _ hcs _ ih => exact List.forall_mem_cons.mpr ⟨hcs, ih⟩
  | closes _ ih => exact List.forall_mem_cons.mpr ⟨.rightDelim, ih⟩
  | closesTrimming _ hcs _ ih =>
    exact List.forall_mem_cons.mpr ⟨hcs, List.forall_mem_cons.mpr ⟨.trimming, ih⟩⟩

end Layout

/-- A stretch with a token has characters. -/
theorem Stretch.Proper.width_pos {s : Stretch} {t : Token} (h : s.Proper) (ht : s.token? = some t) :
    0 < width s.chars := by
  have hpos : ∀ {cs : List Char}, cs ≠ [] → 0 < width cs := by
    intro cs hne
    obtain ⟨c, cs, rfl⟩ := List.exists_cons_of_ne_nil hne
    rw [Text.width_cons]
    exact Nat.lt_of_lt_of_le c.utf8Size_pos (Nat.le_add_right _ _)
  cases s with
  | token t cs => exact hpos (Token.SpelledBy.ne_nil h)
  | text lead content =>
    refine hpos fun hnil => h.2.nonempty ?_
    exact (List.append_eq_nil_iff.mp hnil).2
  | blanks | hyphen | comment => simp [Stretch.token?] at ht

/-- Tokens stand where their stretches start. -/
theorem mem_placedFrom {row : List Stretch} {pos : Nat} {t : PlacedToken}
    (h : t ∈ placedFrom pos row) : ∃ front s back, row = front ++ s :: back
      ∧ s.token? = some t.token ∧ t.pos = pos + width (charsOf front) := by
  induction row generalizing pos with
  | nil => simp [placedFrom] at h
  | cons s row ih =>
    rw [placedFrom] at h
    rcases List.mem_append.mp h with h | h
    · obtain ⟨token, htoken, rfl⟩ := by simpa using h
      exact ⟨[], s, row, rfl, htoken, rfl⟩
    · obtain ⟨front, s', back, rfl, htoken, hpos⟩ := ih h
      refine ⟨s :: front, s', back, rfl, htoken, ?_⟩
      rw [hpos, Nat.add_assoc, ← Text.width_append]
      rfl

/-- **Tokens come one after the other,** all before the end of their row. -/
theorem placedFrom_increasing {row : List Stretch} (h : ∀ s ∈ row, s.Proper) (pos : Nat) :
    (placedFrom pos row).Pairwise (fun t u => t.pos < u.pos)
      ∧ ∀ t ∈ placedFrom pos row, pos ≤ t.pos ∧ t.pos < pos + width (charsOf row) := by
  induction row generalizing pos with
  | nil => simp [placedFrom]
  | cons s row ih =>
    obtain ⟨hs, hrow⟩ := List.forall_mem_cons.mp h
    obtain ⟨hpairwise, hwithin⟩ := ih hrow (pos + width s.chars)
    have hchars : width (charsOf (s :: row)) = width s.chars + width (charsOf row) :=
      Text.width_append _ _
    rw [placedFrom, hchars]
    cases ht : s.token? with
    | none =>
      refine ⟨hpairwise, fun t hmem => ?_⟩
      have := hwithin t hmem
      omega
    | some token =>
      have hpos := hs.width_pos ht
      refine ⟨List.pairwise_cons.mpr ⟨fun t hmem => ?_, hpairwise⟩,
        List.forall_mem_cons.mpr ⟨?_, ?_⟩⟩
      · have := hwithin t hmem
        dsimp only
        omega
      · dsimp only
        omega
      · intro t hmem
        have := hwithin t hmem
        omega

/-! ## §7. Nothing is lost. -/

/-- The token is spelled in the source where it stands. -/
def SpelledIn (source : String) (t : PlacedToken) : Prop :=
  ∃ before spelling after, source.toList = before ++ (spelling ++ after)
    ∧ width before = t.pos ∧ t.token.SpelledBy spelling

/-- The text is found in the source where its token stands, after blanks at
most, and could be there. -/
def FoundIn (source : String) (pos : Nat) (content : String) : Prop :=
  ∃ before lead after, source.toList = before ++ (lead ++ (content.toList ++ after))
    ∧ width before = pos ∧ AllBlank lead ∧ IsText content.toList

/-- The tokens account for all of the source. -/
structure Lossless (source : String) (ts : List PlacedToken) : Prop where
  /-- The end comes last, and nowhere else. -/
  ends : ∃ front, ts = front ++ [⟨source.utf8ByteSize, .eof⟩] ∧ (∀ t ∈ front, t.token ≠ .eof)
    ∧ TokenSequence (front.map PlacedToken.token)
  /-- One token comes after the other. -/
  increasing : ts.Pairwise fun t u => t.pos < u.pos
  /-- All stand on boundaries of characters. -/
  boundaries : ∀ t ∈ ts, OnBoundary source t.pos
  /-- All but texts are spelled where they stand. -/
  spelled : ∀ t ∈ ts, t.token ≠ .eof → (∀ content, t.token ≠ .text content) → SpelledIn source t
  /-- Texts are found where they stand. -/
  texts : ∀ t ∈ ts, ∀ content, t.token = .text content → FoundIn source t.pos content
  /-- The source is one stretch after the other: the tokens', blanks, hyphens
  of opening markers, and comments. -/
  covered : ∃ row, Layout .outside row ∧ source.toList = charsOf row
    ∧ ts = placedFrom 0 row ++ [⟨source.utf8ByteSize, .eof⟩]

/-- Tokens with a place in a row are spelled or found there. -/
theorem spelledIn_of_mem {source : String} {row : List Stretch} (hrow : ∀ s ∈ row, s.Proper)
    (hsource : source.toList = charsOf row) {t : PlacedToken} (h : t ∈ placedFrom 0 row) :
    SpelledIn source t ∨ ∃ content, t.token = .text content ∧ FoundIn source t.pos content := by
  obtain ⟨front, s, back, rfl, htoken, hpos⟩ := mem_placedFrom h
  have hs : s.Proper := hrow s (by simp)
  have hsplit : source.toList = charsOf front ++ (s.chars ++ charsOf back) := by
    rw [hsource]
    simp [charsOf]
  rw [Nat.zero_add] at hpos
  cases s with
  | token token cs =>
    obtain rfl : token = t.token := by simpa [Stretch.token?] using htoken
    exact .inl ⟨charsOf front, cs, charsOf back, hsplit, hpos.symm, hs⟩
  | text lead content =>
    refine .inr ⟨String.ofList content, by simpa [Stretch.token?] using htoken.symm, charsOf front,
      lead, charsOf back, ?_, hpos.symm, hs.1, by simpa using hs.2⟩
    rw [hsplit, Stretch.chars, List.append_assoc, String.toList_ofList]
  | blanks | hyphen | comment => simp [Stretch.token?] at htoken

/-- **Cutting a template loses nothing.**  If a template can be cut into tokens,
the only end is the last token, where the source ends; tokens come one after
the other on boundaries of characters; they are texts and actions, an action
being operands, keywords and signs between delimiters; each is spelled in the
source where it stands, a text after blanks at most; and all that belongs to no
token is blank, the hyphen of an opening marker or a comment. -/
theorem tokens_lossless {source : String} {ts : List PlacedToken} (h : tokens source = .ok ts) :
    Lossless source ts := by
  have hlocated := tokens_located source
  rw [h] at hlocated
  obtain ⟨row, front, hlayout, hcovers, rfl⟩ := tokensFrom_layout h
  obtain ⟨hchars, rfl⟩ := hcovers
  have hsize : width source.toList = source.utf8ByteSize := by
    rw [width_eq_utf8ByteSize, String.ofList_toList]
  rw [Nat.zero_add, hsize] at hlocated ⊢
  have hfound : ∀ t ∈ placedFrom 0 row, SpelledIn source t
      ∨ ∃ content, t.token = .text content ∧ FoundIn source t.pos content :=
    fun t => spelledIn_of_mem hlayout.proper hchars.symm
  have hnoEof : ∀ t ∈ placedFrom 0 row, t.token ≠ .eof := by
    intro t ht
    rcases hfound t ht with ⟨_, _, _, -, -, hspelled⟩ | ⟨content, hcontent, -⟩
    · exact hspelled.not_text.1
    · simp [hcontent]
  have hcases : ∀ t ∈ placedFrom 0 row ++ [⟨source.utf8ByteSize, .eof⟩], t.token ≠ .eof →
      t ∈ placedFrom 0 row := by
    intro t ht hne
    rcases List.mem_append.mp ht with ht | ht
    · exact ht
    · exact absurd (congrArg PlacedToken.token (List.mem_singleton.mp ht)) hne
  obtain ⟨hpairwise, hwithin⟩ := placedFrom_increasing hlayout.proper 0
  refine ⟨⟨_, rfl, hnoEof, ?_⟩, ?_, fun t ht => ?_, fun t ht hne hnotText => ?_,
    fun t ht content hcontent => ?_, row, hlayout, hchars.symm, rfl⟩
  · rw [map_token_placedFrom]
    exact hlayout.shape
  · refine List.pairwise_append.mpr ⟨hpairwise, by simp, fun t ht u hu => ?_⟩
    rw [List.mem_singleton.mp hu, ← hsize, ← hchars]
    simpa using (hwithin t ht).2
  · exact onBoundary_of_between (hlocated.1 t ht)
  · rcases hfound t (hcases t ht hne) with hspelled | ⟨content, hcontent, -⟩
    · exact hspelled
    · exact absurd hcontent (hnotText content)
  · rcases hfound t (hcases t ht (by simp [hcontent])) with
      ⟨_, _, _, -, -, hspelled⟩ | ⟨content', hcontent', hfoundIn⟩
    · exact absurd hcontent (hspelled.not_text.2 content)
    · obtain rfl : content' = content := by simpa [hcontent'] using hcontent
      exact hfoundIn

/-- A text whose blank is trimmed, a chain of two names, a line feed that is
trimmed, and a comment. -/
theorem tokens_lossless_trimmed :
    tokens "\u00e9 \x7b\x7b- .a.b -\x7d\x7d\n\x7b\x7b/* c */\x7d\x7d" = .ok [⟨0, .text "\u00e9"⟩,
        ⟨3, .leftDelim⟩, ⟨7, .field ["a", "b"]⟩, ⟨12, .rightDelim⟩, ⟨27, .eof⟩]
      ∧ Lossless "\u00e9 \x7b\x7b- .a.b -\x7d\x7d\n\x7b\x7b/* c */\x7d\x7d" [⟨0, .text "\u00e9"⟩,
        ⟨3, .leftDelim⟩, ⟨7, .field ["a", "b"]⟩, ⟨12, .rightDelim⟩, ⟨27, .eof⟩] := by
  have h : tokens "\u00e9 \x7b\x7b- .a.b -\x7d\x7d\n\x7b\x7b/* c */\x7d\x7d" = .ok
      [⟨0, .text "\u00e9"⟩, ⟨3, .leftDelim⟩, ⟨7, .field ["a", "b"]⟩, ⟨12, .rightDelim⟩,
        ⟨27, .eof⟩] := by cbv
  exact ⟨h, tokens_lossless h⟩

end Stencil.Template
