/-
  Stencil.Proofs.Template.WellFormed
  ──────────────────────────────────
  WHAT ALL TREES OF TEMPLATES HAVE IN COMMON.

  A tree that a template is read into has texts without double braces,
  pipelines of commands with operands, and operands spelled as the language
  spells them.  The property is followed from the characters up: what one
  reader says of its results is what the next one needs.

    • `operand_proper`, `tokensFrom_proper` — tokens hold proper operands,
    • `clause_wellFormed` — so do the clauses,
    • `nestClause_wellFormed` — and nesting puts them into well-formed trees,
    • `parse_wellFormed` — so every tree read is well formed.
-/
import Mathlib.Data.List.TakeWhile
import Stencil.Template.Tree.Nesting
import Stencil.Proofs.Outcome
import Stencil.Proofs.Schema.Grammar

namespace Stencil.Template

open Text (isBlank isWordStart isWordChar isIdentifier trimStart trimEnd)
open Outcome

/-! ## §1. Well-formed trees. -/

/-- A digit, or a sign and a digit, and then letters, digits, points and
underscores. -/
def IsNumber (text : String) : Prop :=
  ∃ sign digit more, text.toList = sign ++ digit :: more
    ∧ (sign = [] ∨ sign = ['+'] ∨ sign = ['-']) ∧ digit.isDigit = true
    ∧ ∀ c ∈ more, isNumberChar c = true

/-- Letters, digits and underscores, in any order and number. -/
def IsVariable (name : String) : Prop :=
  ∀ c ∈ name.toList, isWordChar c = true

/-- A text that can stand outside actions. -/
structure IsText (cs : List Char) : Prop where
  /-- It is not empty. -/
  nonempty : cs ≠ []
  /-- It opens no action. -/
  noBraces : ¬ ['\x7b', '\x7b'] <:+: cs

/-- An operand as the language spells it. -/
def Arg.WellFormed : Arg → Prop
  | dot => True
  | field names => names ≠ [] ∧ ∀ name ∈ names, isIdentifier name = true
  | function name => isIdentifier name = true ∧ Keyword.ofWord? name = none
  | var name => IsVariable name
  | str _ => True
  | number text => IsNumber text

/-- One operand at least, and all well formed. -/
structure Command.WellFormed (cmd : Command) : Prop where
  /-- There is an operand. -/
  nonempty : cmd.args ≠ []
  /-- All are well formed. -/
  args : ∀ arg ∈ cmd.args, arg.WellFormed

/-- One command at least, all well formed, and maybe a variable. -/
structure Pipeline.WellFormed (pipe : Pipeline) : Prop where
  /-- What is declared is a variable. -/
  declared : ∀ name ∈ pipe.declared, IsVariable name
  /-- There is a command. -/
  nonempty : pipe.commands ≠ []
  /-- All are well formed. -/
  commands : ∀ cmd ∈ pipe.commands, cmd.WellFormed

/-- A node without bare lists, all of whose parts are well formed. -/
inductive Node.WellFormed : Node → Prop
  /-- Text that can stand outside actions. -/
  | text {pos : Nat} {content : String} (h : IsText content.toList) :
      WellFormed (.text pos content)
  /-- A value. -/
  | action {pos : Nat} {pipe : Pipeline} (h : pipe.WellFormed) : WellFormed (.action pos pipe)
  /-- A block. -/
  | branch {kind : BranchKind} {pos bodyPos : Nat} {pipe : Pipeline} {body : List Node}
      (h : pipe.WellFormed) (hbody : ∀ n ∈ body, WellFormed n) :
      WellFormed (.branch kind pos pipe bodyPos body)
  /-- A block with another part. -/
  | branchElse {kind : BranchKind} {pos bodyPos elsePos : Nat} {pipe : Pipeline}
      {body elseBody : List Node} (h : pipe.WellFormed) (hbody : ∀ n ∈ body, WellFormed n)
      (helse : ∀ n ∈ elseBody, WellFormed n) :
      WellFormed (.branchElse kind pos pipe bodyPos body elsePos elseBody)
  /-- A jump. -/
  | jump {kind : JumpKind} {pos : Nat} : WellFormed (.jump kind pos)
  /-- An invocation. -/
  | invoke {pos : Nat} {name : String} : WellFormed (.invoke pos name)

/-- The same of clauses. -/
def Clause.WellFormed : Clause → Prop
  | text content => IsText content.toList
  | value pipe | opening _ pipe | otherwiseIf pipe => pipe.WellFormed
  | otherwise | closing | jump _ | invoke _ => True

/-- A token whose contents are proper. -/
structure Token.Proper (t : Token) : Prop where
  /-- An operand is well formed. -/
  arg : ∀ arg ∈ t.arg?, arg.WellFormed
  /-- A text can stand outside actions. -/
  text : ∀ content, t = .text content → IsText content.toList

/-! ## §2. Operands. -/

theorem isIdentifier_ofList {c : Char} {cs : List Char} (hc : isWordStart c = true)
    (hcs : ∀ d ∈ cs, isWordChar d = true) : isIdentifier (String.ofList (c :: cs)) = true := by
  simp only [isIdentifier, String.toList_ofList, Bool.and_eq_true, List.all_eq_true]
  exact ⟨hc, hcs⟩

/-- The names of a chain are identifiers. -/
theorem isIdentifier_of_memberChain (cs : List Char) :
    ∀ name ∈ memberChain cs, isIdentifier (String.ofList name) = true := by
  fun_induction memberChain cs with
  | case1 c cs hc more ih =>
    intro name hname
    rcases List.mem_cons.mp hname with rfl | hname
    · exact isIdentifier_ofList hc fun d hd => List.mem_takeWhile_imp hd
    · exact ih name hname
  | case2 => simp
  | case3 => simp

theorem Token.proper_of_arg? {t : Token} (arg : Arg) (h : t.arg? = some arg)
    (harg : arg.WellFormed) : t.Proper := by
  refine ⟨fun a ha => ?_, ?_⟩
  · obtain rfl : arg = a := by simpa [h] using ha
    exact harg
  · rintro content rfl
    simp [Token.arg?] at h

/-- Tokens without contents are proper. -/
theorem Token.proper_of_none {t : Token} (h : t.arg? = none) (ht : ∀ content, t ≠ .text content) :
    t.Proper :=
  ⟨by simp [h], fun content heq => absurd heq (ht content)⟩

theorem dotted_proper (cs : List Char) : (dotted cs).1.Proper := by
  have hnames := isIdentifier_of_memberChain ('.' :: cs)
  unfold dotted
  split
  next => exact Token.proper_of_arg? .dot rfl trivial
  next hne =>
    refine Token.proper_of_arg? (.field _) rfl ⟨by simpa using hne, fun name hname => ?_⟩
    obtain ⟨cs, hcs, rfl⟩ := List.mem_map.mp hname
    exact hnames cs hcs

/-- A number starts as numbers do. -/
theorem isNumber_of_startsNumber {c : Char} {cs : List Char} (h : startsNumber c cs = true) :
    IsNumber (String.ofList (c :: cs.takeWhile isNumberChar)) := by
  have hmore : ∀ d ∈ cs.takeWhile isNumberChar, isNumberChar d = true :=
    fun d hd => List.mem_takeWhile_imp hd
  simp only [startsNumber, Bool.or_eq_true, Bool.and_eq_true, beq_iff_eq] at h
  rcases h with h | ⟨hsign, hdigit⟩
  · exact ⟨[], c, _, by simp, .inl rfl, h, hmore⟩
  · -- the digit behind the sign is a character of the number too
    cases cs with
    | nil => simp at hdigit
    | cons d ds =>
      have hd : d.isDigit = true := by simpa using hdigit
      have hnum : isNumberChar d = true := by simp [isNumberChar, Char.isAlphanum, hd]
      refine ⟨[c], d, ds.takeWhile isNumberChar, by simp [hnum], ?_, hd, fun e he => ?_⟩
      · rcases hsign with rfl | rfl
        · exact .inr (.inr rfl)
        · exact .inr (.inl rfl)
      · exact List.mem_takeWhile_imp he

theorem wordToken_proper {c : Char} {cs : List Char} (hc : isWordStart c = true)
    (hcs : ∀ d ∈ cs, isWordChar d = true) : (wordToken (c :: cs)).Proper := by
  unfold wordToken
  dsimp only
  split
  next => exact Token.proper_of_none rfl (by simp)
  next hnone => exact Token.proper_of_arg? (.function _) rfl ⟨isIdentifier_ofList hc hcs, hnone⟩

theorem punctuation?_proper {c : Char} {t : Token} (h : punctuation? c = some t) : t.Proper := by
  have ht : t = .assign ∨ t = .pipe ∨ t = .leftParen ∨ t = .rightParen := by
    unfold punctuation? at h
    grind
  rcases ht with rfl | rfl | rfl | rfl
  all_goals exact Token.proper_of_none rfl (by simp)

/-- **What is read as an operand is proper.** -/
theorem operand_proper {c : Char} {cs : List Char} {t : Token} {n : Nat}
    (h : operand c cs = .ok (t, n)) : t.Proper := by
  unfold operand at h
  split at h
  next =>
    have ht := dotted_proper cs
    rwa [Except.ok.inj h] at ht
  split at h
  next =>
    obtain ⟨rfl, -⟩ := Prod.mk.inj (Except.ok.inj h)
    refine Token.proper_of_arg? (.var _) rfl fun d hd => ?_
    rw [String.toList_ofList] at hd
    exact List.mem_takeWhile_imp hd
  split at h
  next =>
    obtain ⟨rfl, -⟩ := Prod.mk.inj (Except.ok.inj h)
    exact Token.proper_of_none rfl (by simp)
  split at h
  next =>
    obtain ⟨⟨value, n⟩, -, heq⟩ := map_eq_ok.mp h
    obtain ⟨rfl, -⟩ := Prod.mk.inj heq
    exact Token.proper_of_arg? (.str _) rfl trivial
  split at h
  next =>
    obtain ⟨⟨value, n⟩, -, heq⟩ := map_eq_ok.mp h
    obtain ⟨rfl, -⟩ := Prod.mk.inj heq
    exact Token.proper_of_arg? (.str _) rfl trivial
  split at h
  next hstart =>
    obtain ⟨rfl, -⟩ := Prod.mk.inj (Except.ok.inj h)
    exact Token.proper_of_arg? (.number _) rfl (isNumber_of_startsNumber hstart)
  split at h
  next hstart =>
    obtain ⟨rfl, -⟩ := Prod.mk.inj (Except.ok.inj h)
    exact wordToken_proper hstart fun d hd => List.mem_takeWhile_imp hd
  split at h
  next token hp =>
    obtain ⟨rfl, -⟩ := Prod.mk.inj (Except.ok.inj h)
    exact punctuation?_proper hp
  next => simp at h

/-! ## §3. Tokens. -/

theorem actionTokens_proper (start pos : Nat) (cs : List Char) :
    ∀ {found : ActionTokens}, actionTokens start pos cs = .ok found →
      ∀ t ∈ found.tokens, t.token.Proper := by
  fun_induction actionTokens start pos cs
  case case1 => simp
  case case2 =>
    intro found h t ht
    obtain rfl := Except.ok.inj h
    rw [List.mem_singleton.mp ht]
    exact Token.proper_of_none rfl (by simp)
  case case3 => simp
  case case4 hoperand ih =>
    intro found h t ht
    obtain ⟨more, hmore, rfl⟩ := map_eq_ok.mp h
    rcases List.mem_cons.mp ht with rfl | ht
    · exact operand_proper hoperand
    · exact ih hmore t ht

theorem action_proper {start pos : Nat} {cs : List Char} {found : ActionTokens}
    (h : action start pos cs = .ok found) : ∀ t ∈ found.tokens, t.token.Proper := by
  unfold action at h
  dsimp only at h
  split at h
  next =>
    -- a comment leaves no token
    obtain ⟨found', hfound, rfl⟩ := map_eq_ok.mp h
    unfold comment at hfound
    split at hfound
    · simp at hfound
    · dsimp only at hfound
      split at hfound
      · obtain rfl := Except.ok.inj hfound
        simp
      · simp at hfound
  next =>
    obtain ⟨found', hfound, rfl⟩ := map_eq_ok.mp h
    intro t ht
    rcases List.mem_cons.mp ht with rfl | ht
    · exact Token.proper_of_none rfl (by simp)
    · exact actionTokens_proper _ _ _ hfound t ht

/-- A pair at the head is what `findPair` looks for. -/
theorem pair_prefix_cons {a c : Char} {cs : List Char} :
    [a, a] <+: c :: cs ↔ c = a ∧ cs.head? = some a := by
  rw [List.cons_prefix_cons]
  cases cs with
  | nil => simp
  | cons d cs => simp [List.cons_prefix_cons, eq_comm]

/-- Before the first pair there is none. -/
theorem not_infix_take_findPair {a : Char} : ∀ {cs : List Char} {n : Nat},
    findPair a a cs = some n → ¬ [a, a] <:+: cs.take n
  | [], n, h => by simp [findPair] at h
  | c :: cs, n, h => by
      rw [findPair] at h
      split at h
      next =>
        obtain rfl : 0 = n := by simpa using h
        simp
      next hne =>
        simp only [Bool.and_eq_true, decide_eq_true_eq, beq_iff_eq] at hne
        obtain ⟨m, hm, rfl⟩ := Option.map_eq_some_iff.mp h
        have ih := not_infix_take_findPair hm
        rw [List.take_succ_cons, List.infix_cons_iff, pair_prefix_cons]
        rintro (⟨hc, hhead⟩ | hin)
        · exact hne ⟨hc, by
            cases m with
            | zero => simp at hhead
            | succ m => simpa [List.head?_take] using hhead⟩
        · exact ih hin

theorem not_infix_of_findPair {a : Char} : ∀ {cs : List Char}, findPair a a cs = none →
    ¬ [a, a] <:+: cs
  | [], _ => by simp
  | c :: cs, h => by
      rw [findPair] at h
      split at h
      next => simp at h
      next hne =>
        simp only [Bool.and_eq_true, decide_eq_true_eq, beq_iff_eq] at hne
        have ih := not_infix_of_findPair (Option.map_eq_none_iff.mp h)
        rw [List.infix_cons_iff, pair_prefix_cons]
        rintro (hpair | hin)
        · exact hne hpair
        · exact ih hin

theorem trimStart_infix (cs : List Char) : trimStart cs <:+: cs :=
  (List.dropWhile_suffix isBlank).isInfix

theorem trimEnd_infix (cs : List Char) : trimEnd cs <:+: cs := by
  have h := (List.dropWhile_suffix (l := cs.reverse) isBlank).isInfix
  rw [← List.reverse_infix, List.reverse_reverse] at h
  exact h

/-- Texts are stretches of the template, trimmed or not. -/
theorem textTokens_proper {pos : Nat} {trimLeft trimRight : Bool} {raw : List Char}
    (hraw : ¬ ['\x7b', '\x7b'] <:+: raw) :
    ∀ t ∈ textTokens pos trimLeft trimRight raw, t.token.Proper := by
  have hleft : (if trimLeft then trimStart raw else raw) <:+: raw := by
    split
    · exact trimStart_infix raw
    · exact List.infix_refl raw
  unfold textTokens
  generalize (if trimLeft then trimStart raw else raw) = kept at hleft
  have hright : (if trimRight then trimEnd kept else kept) <:+: kept := by
    split
    · exact trimEnd_infix kept
    · exact List.infix_refl kept
  dsimp only
  generalize (if trimRight then trimEnd kept else kept) = kept' at hright
  intro t ht
  split at ht
  next => simp at ht
  next hne =>
    obtain rfl : t = ⟨pos, .text (String.ofList kept')⟩ := by simpa using ht
    refine ⟨by simp [Token.arg?], fun content heq => ?_⟩
    obtain rfl := Token.text.inj heq
    rw [String.toList_ofList]
    exact ⟨by simpa using hne, fun hin => hraw (hin.trans (hright.trans hleft))⟩

/-- The opening delimiter at `n`: does it trim, and how far does it reach? -/
def opensAt (cs : List Char) (n : Nat) : Bool × Nat :=
  let marked := opensWithTrim (cs.drop (n + 2))
  (marked, n + if marked then 3 else 2)

/-- Without an action the template is text up to its end. -/
theorem tokensFrom_of_none {pos : Nat} {trim : Bool} {cs : List Char}
    (h : findPair '\x7b' '\x7b' cs = none) :
    tokensFrom pos trim cs
      = .ok (textTokens pos trim false cs ++ [⟨pos + Text.width cs, .eof⟩]) := by
  rw [tokensFrom.eq_def]
  split
  next => cases trim <;> rfl
  next => rw [h]

/-- With an action it is text, the action, and what follows. -/
theorem tokensFrom_of_some {pos : Nat} {trim : Bool} {cs : List Char} {n : Nat}
    (h : findPair '\x7b' '\x7b' cs = some n) :
    tokensFrom pos trim cs
      = (action (pos + Text.width (cs.take n)) (pos + Text.width (cs.take (opensAt cs n).2))
          (cs.drop (opensAt cs n).2)) >>= fun found =>
        (tokensFrom (pos + Text.width (cs.take ((opensAt cs n).2 + found.count))) found.trim
          (cs.drop ((opensAt cs n).2 + found.count))).map fun more =>
          textTokens pos trim (opensAt cs n).1 (cs.take n) ++ found.tokens ++ more := by
  conv => lhs; rw [tokensFrom.eq_def]
  split
  next => simp [findPair] at h
  next =>
    rw [h]
    dsimp only [opensAt]
    generalize action _ _ _ = result
    cases result <;> rfl

/-- What follows an action is shorter by its opening delimiter at least. -/
theorem length_drop_opensAt_lt {cs : List Char} {n : Nat}
    (h : findPair '\x7b' '\x7b' cs = some n) (count : Nat) :
    (cs.drop ((opensAt cs n).2 + count)).length < cs.length := by
  have hne : cs ≠ [] := by
    rintro rfl
    simp [findPair] at h
  have hpos := List.length_pos_iff.mpr hne
  have hopen : 2 ≤ (opensAt cs n).2 := by
    simp only [opensAt]
    split <;> omega
  rw [List.length_drop]
  omega

/-- **All tokens of a template are proper.** -/
theorem tokensFrom_proper {pos : Nat} {trim : Bool} {cs : List Char} {ts : List PlacedToken}
    (h : tokensFrom pos trim cs = .ok ts) : ∀ t ∈ ts, t.token.Proper := by
  induction hlen : cs.length using Nat.strong_induction_on generalizing cs pos trim ts with
  | h len ih =>
    subst hlen
    cases hpair : findPair '\x7b' '\x7b' cs with
    | none =>
      rw [tokensFrom_of_none hpair] at h
      obtain rfl := Except.ok.inj h
      refine List.forall_mem_append.mpr ⟨textTokens_proper (not_infix_of_findPair hpair), ?_⟩
      exact List.forall_mem_singleton.mpr (Token.proper_of_none rfl (by simp))
    | some n =>
      rw [tokensFrom_of_some hpair] at h
      obtain ⟨found, hfound, h⟩ := bind_eq_ok.mp h
      obtain ⟨more, hmore, rfl⟩ := map_eq_ok.mp h
      -- what follows an action is shorter by its delimiter at least
      have hrest := ih _ (length_drop_opensAt_lt hpair found.count) hmore rfl
      refine List.forall_mem_append.mpr ⟨List.forall_mem_append.mpr ⟨?_, ?_⟩, hrest⟩
      · exact textTokens_proper (not_infix_take_findPair hpair)
      · exact action_proper hfound

/-! ## §4. Clauses. -/

/-- Every command read has operands, and there is one at least. -/
theorem commandsFrom_wellFormed {s : Setting} : ∀ {ts : List PlacedToken} {piped : Bool}
    {pos : Nat} {args : List Arg} {commands : List Command}, (∀ t ∈ ts, t.token.Proper) →
    (∀ arg ∈ args, arg.WellFormed) → commandsFrom s piped pos args ts = .ok commands →
    commands ≠ [] ∧ ∀ cmd ∈ commands, cmd.WellFormed
  | [], piped, pos, args, commands, _, hargs, h => by
      rw [commandsFrom] at h
      split at h
      next hne =>
        obtain rfl := Except.ok.inj h
        refine ⟨by simp, fun cmd hcmd => ?_⟩
        rw [List.mem_singleton.mp hcmd]
        exact ⟨by simpa using hne, hargs⟩
      next => split at h <;> simp at h
  | t :: ts, piped, pos, args, commands, hts, hargs, h => by
      obtain ⟨ht, hts⟩ := List.forall_mem_cons.mp hts
      rw [commandsFrom] at h
      split at h
      next arg harg =>
        refine commandsFrom_wellFormed hts (fun a ha => ?_) h
        rcases List.mem_append.mp ha with ha | ha
        · exact hargs a ha
        · rw [List.mem_singleton.mp ha]
          exact ht.arg arg harg
      next =>
        split at h
        next =>
          split at h
          next => simp at h
          next hne =>
            -- a bar ends the command before it, which must have operands
            obtain ⟨rest, hrest, rfl⟩ := map_eq_ok.mp h
            obtain ⟨-, hrest⟩ := commandsFrom_wellFormed hts (by simp) hrest
            exact ⟨by simp, List.forall_mem_cons.mpr ⟨⟨by simpa using hne, hargs⟩, hrest⟩⟩
        all_goals simp at h

/-- What is declared is a variable, and the rest are tokens as before. -/
theorem declaration_proper {ts : List PlacedToken} (h : ∀ t ∈ ts, t.token.Proper) :
    (∀ name ∈ (declaration ts).1, IsVariable name) ∧ ∀ t ∈ (declaration ts).2, t.token.Proper := by
  unfold declaration
  split
  next p name q rest =>
    refine ⟨fun n hn => ?_, fun t ht => h t (by simp [ht])⟩
    obtain rfl : name = n := by simpa using hn
    exact (h ⟨p, .var name⟩ (by simp)).arg (.var name) rfl
  next p name q rest =>
    refine ⟨fun n hn => ?_, fun t ht => h t (by simp [ht])⟩
    obtain rfl : name = n := by simpa using hn
    exact (h ⟨p, .var name⟩ (by simp)).arg (.var name) rfl
  next => exact ⟨by simp, h⟩

theorem pipeline_wellFormed {s : Setting} {ts : List PlacedToken} {pipe : Pipeline}
    (hts : ∀ t ∈ ts, t.token.Proper) (h : pipeline s ts = .ok pipe) : pipe.WellFormed := by
  obtain ⟨hname, hrest⟩ := declaration_proper hts
  unfold pipeline at h
  obtain ⟨commands, hcommands, rfl⟩ := map_eq_ok.mp h
  obtain ⟨hne, hall⟩ := commandsFrom_wellFormed hrest (by simp) hcommands
  exact ⟨hname, hne, hall⟩

theorem endOfAction_eq_ok {form : ActionForm} {clause clause' : Clause} {ts : List PlacedToken}
    (h : endOfAction form clause ts = .ok clause') : clause' = clause := by
  unfold endOfAction at h
  split at h
  next => exact (Except.ok.inj h).symm
  next => simp at h

/-- An action that starts with a keyword is well formed. -/
theorem keywordClause_wellFormed {k : Keyword} {start stop : Nat} {ts : List PlacedToken}
    {clause : Clause} (hts : ∀ t ∈ ts, t.token.Proper)
    (h : keywordClause k start stop ts = .ok clause) : clause.WellFormed := by
  have hblock : ∀ {kind : BranchKind}, keywordClause.block start stop ts kind = .ok clause →
      clause.WellFormed := by
    intro kind h
    obtain ⟨pipe, hpipe, rfl⟩ := map_eq_ok.mp h
    exact pipeline_wellFormed hts hpipe
  have hend : ∀ {form : ActionForm} {c : Clause}, c.WellFormed →
      endOfAction form c ts = .ok clause → clause.WellFormed := by
    intro form c hc h
    rw [endOfAction_eq_ok h]
    exact hc
  cases k with
  | ifWord | rangeWord | withWord => exact hblock h
  | endWord | breakWord | continueWord => exact hend (by trivial) h
  | defineWord | blockWord => simp [keywordClause] at h
  | elseWord =>
    simp only [keywordClause, otherwiseClause] at h
    split at h
    next =>
      obtain ⟨pipe, hpipe, rfl⟩ := map_eq_ok.mp h
      exact pipeline_wellFormed (fun t ht => hts t (List.mem_cons_of_mem _ ht)) hpipe
    next => exact hend (by trivial) h
  | templateWord =>
    simp only [keywordClause, invokeClause] at h
    split at h
    next =>
      obtain rfl := Except.ok.inj h
      trivial
    next =>
      obtain ⟨pipe, -, rfl⟩ := map_eq_ok.mp h
      trivial
    next => simp at h

/-- A piece whose tokens are proper. -/
def Piece.Proper : Piece → Prop
  | text _ content => IsText content.toList
  | action _ inner _ => ∀ t ∈ inner, t.token.Proper

/-- **Proper pieces are read as well-formed clauses.** -/
theorem clause_wellFormed {piece : Piece} {clause : Clause} (hp : piece.Proper)
    (h : piece.clause = .ok clause) : clause.WellFormed := by
  cases piece with
  | text pos content =>
    obtain rfl := Except.ok.inj h
    exact hp
  | action start inner stop =>
    simp only [Piece.clause, actionClause] at h
    split at h
    next => exact keywordClause_wellFormed (fun t ht => hp t (List.mem_cons_of_mem _ ht)) h
    next =>
      obtain ⟨pipe, hpipe, rfl⟩ := map_eq_ok.mp h
      exact pipeline_wellFormed hp hpipe

/-- Cutting proper tokens gives proper pieces. -/
theorem pieces_proper (ts : List PlacedToken) : ∀ {list : List Piece} {finish : Nat},
    (∀ t ∈ ts, t.token.Proper) → pieces ts = .ok (list, finish) → ∀ piece ∈ list, piece.Proper := by
  fun_induction pieces ts
  case case1 | case2 =>
    intro list finish _ h
    obtain ⟨rfl, -⟩ := Prod.mk.inj (Except.ok.inj h)
    simp
  case case3 content rest ih =>
    intro list finish hts h
    obtain ⟨ht, hts⟩ := List.forall_mem_cons.mp hts
    obtain ⟨⟨more, finish'⟩, hmore, heq⟩ := map_eq_ok.mp h
    obtain ⟨rfl, -⟩ := Prod.mk.inj heq
    exact List.forall_mem_cons.mpr ⟨ht.text content rfl, ih hts hmore⟩
  case case5 ih =>
    intro list finish hts h
    obtain ⟨-, hts⟩ := List.forall_mem_cons.mp hts
    obtain ⟨⟨more, finish'⟩, hmore, heq⟩ := map_eq_ok.mp h
    obtain ⟨rfl, -⟩ := Prod.mk.inj heq
    refine List.forall_mem_cons.mpr ⟨fun t ht => ?_, ih (fun t ht => ?_) hmore⟩
    · exact hts t ((List.takeWhile_sublist _).mem ht)
    · exact hts t (List.mem_of_mem_drop ht)
  all_goals simp

/-! ## §5. Trees. -/

/-- What an open list will be part of is well formed. -/
def Holder.WellFormed : Holder → Prop
  | root => True
  | body _ _ pipe => pipe.WellFormed
  | other _ _ pipe _ first _ => pipe.WellFormed ∧ ∀ n ∈ first, n.WellFormed

/-- An open list of well-formed nodes. -/
structure OpenList.WellFormed (l : OpenList) : Prop where
  /-- So is what it will be part of. -/
  holder : l.holder.WellFormed
  /-- The nodes so far. -/
  nodes : ∀ n ∈ l.nodes, n.WellFormed

/-- All open lists are well formed. -/
def Nest.WellFormed (nest : Nest) : Prop :=
  nest.1.WellFormed ∧ ∀ l ∈ nest.2, l.WellFormed

theorem OpenList.nodes_add (l : OpenList) (node : Node) :
    (l.add node).nodes = l.nodes ++ [node] := by
  simp [OpenList.add, OpenList.nodes]

theorem OpenList.WellFormed.add {l : OpenList} (h : l.WellFormed) {node : Node}
    (hn : node.WellFormed) : (l.add node).WellFormed := by
  refine ⟨h.holder, fun n hmem => ?_⟩
  rw [OpenList.nodes_add] at hmem
  rcases List.mem_append.mp hmem with hmem | hmem
  · exact h.nodes n hmem
  · rw [List.mem_singleton.mp hmem]
    exact hn

/-- A list that has just been opened. -/
theorem OpenList.wellFormed_new (holder : Holder) (h : holder.WellFormed) (pos : Nat) :
    OpenList.WellFormed ⟨holder, pos, []⟩ :=
  ⟨h, by simp [OpenList.nodes]⟩

/-- Ending blocks keeps lists well formed. -/
theorem closeBlock_wellFormed : ∀ {below : List OpenList} {node : Node} {nest : Nest},
    node.WellFormed → (∀ l ∈ below, l.WellFormed) → closeBlock node below = some nest →
    nest.WellFormed
  | [], node, nest, _, _, h => by simp [closeBlock] at h
  | l :: below, node, nest, hn, hbelow, h => by
      obtain ⟨hl, hbelow⟩ := List.forall_mem_cons.mp hbelow
      rw [closeBlock] at h
      split at h
      next kind pos pipe bodyPos body hholder =>
        have hwf := hl.holder
        rw [hholder] at hwf
        exact closeBlock_wellFormed (.branchElse hwf.1 hwf.2 (hl.add hn).nodes) hbelow h
      next =>
        obtain rfl := Option.some.inj h
        exact ⟨hl.add hn, hbelow⟩

/-- **Taking in a well-formed clause keeps lists well formed.** -/
theorem nestClause_wellFormed {pos next : Nat} {clause : Clause} {nest nest' : Nest}
    (hc : clause.WellFormed) (hn : nest.WellFormed)
    (h : nestClause pos next clause nest = .ok nest') : nest'.WellFormed := by
  obtain ⟨l, below⟩ := nest
  obtain ⟨hl, hbelow⟩ := hn
  cases clause with
  | text content =>
    obtain rfl := Except.ok.inj h
    exact ⟨hl.add (.text hc), hbelow⟩
  | value pipe =>
    obtain rfl := Except.ok.inj h
    exact ⟨hl.add (.action hc), hbelow⟩
  | jump kind =>
    obtain rfl := Except.ok.inj h
    exact ⟨hl.add .jump, hbelow⟩
  | invoke name =>
    obtain rfl := Except.ok.inj h
    exact ⟨hl.add .invoke, hbelow⟩
  | opening kind pipe =>
    obtain rfl := Except.ok.inj h
    exact ⟨OpenList.wellFormed_new (.body kind pos pipe) hc next,
      List.forall_mem_cons.mpr ⟨hl, hbelow⟩⟩
  | otherwise =>
    simp only [nestClause, nestOtherwise] at h
    split at h
    next => simp at h
    next kind at_ pipe hholder =>
      have hwf := hl.holder
      rw [hholder] at hwf
      obtain rfl := Except.ok.inj h
      exact ⟨OpenList.wellFormed_new (.other kind at_ pipe l.pos l.nodes false)
        ⟨hwf, hl.nodes⟩ next, hbelow⟩
    next => simp at h
  | otherwiseIf pipe =>
    simp only [nestClause, nestOtherwiseIf] at h
    split at h
    next => simp at h
    next at_ outer hholder =>
      have hwf := hl.holder
      rw [hholder] at hwf
      obtain rfl := Except.ok.inj h
      refine ⟨OpenList.wellFormed_new (.body .cond pos pipe) hc next,
        List.forall_mem_cons.mpr ⟨?_, hbelow⟩⟩
      exact OpenList.wellFormed_new (.other .cond at_ outer l.pos l.nodes true) ⟨hwf, hl.nodes⟩ pos
    next => simp at h
    next => simp at h
  | closing =>
    simp only [nestClause, nestClosing] at h
    split at h
    next nest hnest =>
      obtain rfl := Except.ok.inj h
      obtain ⟨node, hnode, hclose⟩ := Option.bind_eq_some_iff.mp hnest
      refine closeBlock_wellFormed ?_ hbelow hclose
      have hwf := hl.holder
      split at hnode
      next => simp at hnode
      next hholder =>
        rw [hholder] at hwf
        obtain rfl := Option.some.inj hnode
        exact .branch hwf hl.nodes
      next hholder =>
        rw [hholder] at hwf
        obtain rfl := Option.some.inj hnode
        exact .branchElse hwf.1 hwf.2 hl.nodes
    next => simp at h

/-- Proper pieces nest into a well-formed tree. -/
theorem nestPieces_wellFormed {finish : Nat} : ∀ {list : List Piece} {nest : Nest} {block : Block},
    (∀ piece ∈ list, piece.Proper) → nest.WellFormed → nestPieces finish list nest = .ok block →
    ∀ n ∈ block.nodes, n.WellFormed
  | [], (l, below), block, _, hn, h => by
      rw [nestPieces] at h
      split at h
      next =>
        obtain rfl := Except.ok.inj h
        exact hn.1.nodes
      all_goals simp at h
  | piece :: rest, nest, block, hp, hn, h => by
      obtain ⟨hpiece, hp⟩ := List.forall_mem_cons.mp hp
      rw [nestPieces] at h
      obtain ⟨clause, hclause, h⟩ := bind_eq_ok.mp h
      obtain ⟨nest', hnest', h⟩ := bind_eq_ok.mp h
      have hwf := nestClause_wellFormed (clause_wellFormed hpiece hclause) hn hnest'
      exact nestPieces_wellFormed hp hwf h

/-- **Every tree that a template is read into is well formed.** -/
theorem parse_wellFormed {source : String} {block : Block} (h : parse source = .ok block) :
    ∀ n ∈ block.nodes, n.WellFormed := by
  unfold parse at h
  obtain ⟨ts, hts, h⟩ := bind_eq_ok.mp h
  unfold Block.ofTokens at h
  obtain ⟨⟨list, finish⟩, hlist, h⟩ := bind_eq_ok.mp h
  have hroot : Nest.WellFormed (⟨.root, nextPiecePos finish list, []⟩, []) :=
    ⟨OpenList.wellFormed_new .root trivial _, by simp⟩
  exact nestPieces_wellFormed (pieces_proper ts (tokensFrom_proper hts) hlist) hroot h

end Stencil.Template
