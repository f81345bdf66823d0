/-
  Stencil.Proofs.Template.Alignment
  ─────────────────────────────────
  ACTIONS ARE TAKEN FROM THE TOKENS WHOLE.

  Cutting a template operand by operand looks for an operand only where a
  character is left, so it comes to the same tokens.  These are texts and whole
  actions, with the end behind them: an action that does not close is a fault
  of cutting.

  From the tokens behind an opening delimiter an action is read as from its
  own tokens alone.  Nothing that stands behind its closing delimiter takes
  part, and nothing of it is left.

    • `scanFrom_eq` — operands are read only where there are characters,
    • `actionTokens_error`, `tokensFrom_error` — how cutting can fail,
    • `readClause_inner` — an action read from all tokens, and from its own,
    • `Aligned`, `aligned_of_tokens` — texts and whole actions before the end.
-/
import Stencil.Proofs.Template.Descent
import Stencil.Proofs.Template.Unmarking

namespace Stencil.Template

open Text (isBlank width width_cons)
open Outcome

/-! ## §1. Characters into tokens. -/

/-- **An operand is read only where a character is left.** -/
theorem scanAction_eq (start pos : Nat) (cs : List Char) :
    scanAction start pos cs = unguarded (actionTokens start pos cs) := by
  fun_induction actionTokens start pos cs
  case case1 pos cs blanks hnil =>
    rw [scanAction, hnil]
    rfl
  case case2 pos cs blanks here c rest hrest trim k hclose =>
    rw [scanAction, hrest, hclose]
    rfl
  case case3 pos cs blanks here c rest hrest hclose fault hoperand =>
    rw [scanAction, hrest, hclose]
    dsimp only
    rw [dif_neg (List.cons_ne_nil c rest), operandAt, hoperand]
    rfl
  case case4 pos cs blanks here c rest hrest hclose token k hoperand ih =>
    have hnext : here + width ((c :: rest).take (k + 1))
        = here + c.utf8Size + width (rest.take k) := by
      rw [List.take_succ_cons, width_cons, ← Nat.add_assoc]
    rw [scanAction, hrest, hclose]
    dsimp only
    -- something is left, so that an operand may be read
    rw [dif_neg (List.cons_ne_nil c rest), operandAt, hoperand]
    dsimp only
    rw [hnext, List.drop_succ_cons, ih, unguarded_map]

theorem scanOpened_eq (start pos : Nat) (cs : List Char) :
    scanOpened start pos cs = unguarded (action start pos cs) := by
  unfold scanOpened action
  dsimp only
  split
  next => exact (unguarded_map _ _).symm
  next => rw [scanAction_eq, unguarded_map]

/-- **Cutting a template operand by operand meets no guard.** -/
theorem scanFrom_eq (pos : Nat) (trim : Bool) (cs : List Char) :
    scanFrom pos trim cs = unguarded (tokensFrom pos trim cs) := by
  induction hlen : cs.length using Nat.strong_induction_on generalizing cs pos trim with
  | h len ih =>
    subst hlen
    rw [scanFrom]
    split
    next hpair => rw [tokensFrom_of_none hpair, unguarded_ok]
    next n hpair =>
      dsimp only
      rw [tokensFrom_of_some hpair, unguarded_bind, scanOpened_eq]
      refine bind_congr fun found => ?_
      rw [unguarded_map, ← ih _ (length_drop_opensAt_lt hpair found.count) _ _ _ rfl]
      rfl

/-! ## §2. Faults of cutting. -/

/-- The faults of cutting a template into tokens. -/
def Fault.OfCutting : Fault → Prop
  | unclosedAction | unclosedComment | commentNotLast | unterminatedQuoted | unterminatedRaw
  | unknownEscape _ | unexpectedChar _ => True
  | _ => False

theorem quotedValue_fault {cs : List Char} {fault : Fault} (h : quotedValue cs = .error fault) :
    fault.OfCutting := by
  fun_induction quotedValue cs
  case case6 ih => exact ih (map_eq_error.mp h)
  case case7 ih => exact ih (map_eq_error.mp h)
  all_goals cases h
  all_goals trivial

theorem rawValue_fault {cs : List Char} {fault : Fault} (h : rawValue cs = .error fault) :
    fault.OfCutting := by
  unfold rawValue at h
  dsimp only at h
  split at h
  next => nomatch h
  next =>
    cases h
    trivial

theorem operand_fault {c : Char} {cs : List Char} {fault : Fault}
    (h : operand c cs = .error fault) : fault.OfCutting := by
  revert h
  fun_cases operand c cs
  case case4 => exact fun h => quotedValue_fault (map_eq_error.mp h)
  case case5 => exact fun h => rawValue_fault (map_eq_error.mp h)
  case case9 =>
    rintro ⟨⟩
    trivial
  -- every other branch gives a token
  all_goals exact nofun

/-- **An action that cannot be cut does not close, or one of its operands is at
fault.** -/
theorem actionTokens_error {start pos : Nat} {cs : List Char} {e : Error}
    (h : actionTokens start pos cs = .error e) :
    e = .malformed .unclosedAction start
      ∨ ∃ here c rest fault, c :: rest <:+ cs ∧ operand c rest = .error fault
        ∧ e = .malformed fault here := by
  fun_induction actionTokens start pos cs
  case case1 =>
    obtain rfl := Except.error.inj h
    exact .inl rfl
  case case2 => cases h
  case case3 pos cs blanks here c rest hrest hclose fault hoperand =>
    obtain rfl := Except.error.inj h
    refine .inr ⟨here, c, rest, fault, ?_, hoperand, rfl⟩
    rw [← hrest]
    exact List.drop_suffix _ _
  case case4 pos cs blanks here c rest hrest hclose token k hoperand ih =>
    obtain hunclosed | ⟨here', c', rest', fault, hsuffix, hfault⟩ := ih (map_eq_error.mp h)
    · exact .inl hunclosed
    · refine .inr ⟨here', c', rest', fault, ?_, hfault⟩
      refine hsuffix.trans ((List.drop_suffix k rest).trans ?_)
      exact (List.suffix_cons c rest).trans (hrest ▸ List.drop_suffix _ cs)

theorem action_error {start pos : Nat} {cs : List Char} {e : Error}
    (h : action start pos cs = .error e) :
    ∃ fault at_, e = .malformed fault at_ ∧ fault.OfCutting := by
  unfold action at h
  dsimp only at h
  split at h
  next =>
    have hcomment := map_eq_error.mp h
    unfold comment at hcomment
    split at hcomment
    next =>
      obtain rfl := Except.error.inj hcomment
      exact ⟨_, _, rfl, trivial⟩
    next =>
      dsimp only at hcomment
      split at hcomment
      next => cases hcomment
      next =>
        obtain rfl := Except.error.inj hcomment
        exact ⟨_, _, rfl, trivial⟩
  next =>
    obtain rfl | ⟨here, c, rest, fault, -, hoperand, rfl⟩ := actionTokens_error (map_eq_error.mp h)
    · exact ⟨_, _, rfl, trivial⟩
    · exact ⟨_, _, rfl, operand_fault hoperand⟩

/-- **Cutting a template fails with a fault of cutting.** -/
theorem tokensFrom_error {pos : Nat} {trim : Bool} {cs : List Char} {e : Error}
    (h : tokensFrom pos trim cs = .error e) :
    ∃ fault at_, e = .malformed fault at_ ∧ fault.OfCutting := by
  induction hlen : cs.length using Nat.strong_induction_on generalizing cs pos trim with
  | h len ih =>
    subst hlen
    cases hpair : findPair '\x7b' '\x7b' cs with
    | none => nomatch (tokensFrom_of_none hpair).symm.trans h
    | some n =>
      rw [tokensFrom_of_some hpair] at h
      rcases bind_eq_error.mp h with haction | ⟨found, -, hmore⟩
      · exact action_error haction
      · exact ih _ (length_drop_opensAt_lt hpair found.count) (map_eq_error.mp hmore) rfl

/-! ## §3. One action. -/

/-- Operands, keywords and signs, and the closing delimiter at `stop` behind
them. -/
def closed (inner : List PlacedToken) (stop : Nat) (after : List PlacedToken) : List PlacedToken :=
  inner ++ ⟨stop, .rightDelim⟩ :: after

section
variable {start finish stop : Nat} {form : ActionForm} {after : List PlacedToken}

/-- Before the closing delimiter the next token is of the action. -/
theorem nextPos_closed (inner : List PlacedToken) :
    nextPos finish (closed inner stop after) = nextPos stop inner := by
  cases inner with
  | nil | cons => rfl

theorem readCommands_inner : ∀ {inner : List PlacedToken}, (∀ t ∈ inner, t.token.IsInner) →
    ∀ (piped : Bool) (pos : Nat) (args : List Arg),
      readCommands start finish form piped pos args (closed inner stop after)
        = unguarded ((commandsFrom ⟨form, start, stop⟩ piped pos args inner).map (·, after))
  | [], _, piped, pos, args => by
      rw [closed, List.nil_append, readCommands, commandsFrom]
      dsimp only [Token.arg?]
      split
      next => rfl
      next =>
        split
        next => rfl
        next => rfl
  | ⟨at_, token⟩ :: inner, hinner, piped, pos, args => by
      obtain ⟨htoken, hinner⟩ := List.forall_mem_cons.mp hinner
      have ih := readCommands_inner hinner
      rw [closed, List.cons_append, readCommands, commandsFrom]
      cases token with
      | dot | field | word | var | str | number => exact ih piped pos _
      | pipe =>
        dsimp only [Token.arg?]
        split
        next => rfl
        next =>
          change Except.map _ (readCommands start finish form true
            (nextPos finish (closed inner stop after)) [] (closed inner stop after)) = _
          rw [ih, nextPos_closed]
          cases commandsFrom ⟨form, start, stop⟩ true (nextPos stop inner) [] inner with
          | error e => rfl
          | ok commands => rfl
      | leftParen | rightParen | keyword | declare | assign => rfl
      | text | leftDelim | rightDelim | eof => exact htoken.elim

/-- A declaration is read from the action's own tokens. -/
theorem declaration_closed (inner : List PlacedToken) :
    declaration (closed inner stop after)
      = ((declaration inner).1, closed (declaration inner).2 stop after) := by
  rcases inner with _ | ⟨⟨pos, t⟩, _ | ⟨⟨pos', t'⟩, inner⟩⟩
  · rfl
  · cases t <;> rfl
  · cases t with
    | var => cases t' <;> rfl
    | _ => rfl

theorem declaration_subset (inner : List PlacedToken) : (declaration inner).2 ⊆ inner := by
  unfold declaration
  split
  next => exact fun t ht => List.mem_cons_of_mem _ (List.mem_cons_of_mem _ ht)
  next => exact fun t ht => List.mem_cons_of_mem _ (List.mem_cons_of_mem _ ht)
  next => exact List.Subset.refl _

variable {inner : List PlacedToken}

theorem readPipeline_inner (hinner : ∀ t ∈ inner, t.token.IsInner) :
    readPipeline start finish form (closed inner stop after)
      = unguarded ((pipeline ⟨form, start, stop⟩ inner).map (·, after)) := by
  unfold readPipeline pipeline
  rw [declaration_closed, nextPos_closed]
  dsimp only
  rw [nextPos_closed, readCommands_inner fun t ht => hinner t (declaration_subset inner ht)]
  cases commandsFrom _ _ _ _ _ with
  | error e => rfl
  | ok commands => rfl

/-- A clause made of a pipeline is made of it either way. -/
theorem map_readPipeline_inner (hinner : ∀ t ∈ inner, t.token.IsInner) (f : Pipeline → Clause) :
    (readPipeline start finish form (closed inner stop after)).map
        (fun (pipe, after) => (f pipe, after))
      = unguarded (((pipeline ⟨form, start, stop⟩ inner).map f).map (·, after)) := by
  rw [readPipeline_inner hinner]
  cases pipeline _ inner with
  | error e => rfl
  | ok pipe => rfl

theorem expectClose_inner (hinner : ∀ t ∈ inner, t.token.IsInner) (clause : Clause) :
    expectClose form clause (closed inner stop after)
      = unguarded ((endOfAction form clause inner).map (·, after)) := by
  rcases inner with _ | ⟨⟨pos, token⟩, inner⟩
  · rfl
  · have htoken := (List.forall_mem_cons.mp hinner).1
    cases token with
    | rightDelim => exact htoken.elim
    | _ => rfl

/-- A token before the closing delimiter is of the action. -/
theorem closed_eq_cons {t : PlacedToken} {rest : List PlacedToken}
    (h : closed inner stop after = t :: rest) (ht : t.token ≠ .rightDelim) :
    ∃ more, inner = t :: more ∧ rest = closed more stop after := by
  cases inner with
  | nil =>
    obtain ⟨rfl, -⟩ := List.cons.inj h
    exact absurd rfl ht
  | cons t' more =>
    obtain ⟨rfl, rfl⟩ := List.cons.inj h
    exact ⟨more, rfl, rfl⟩

theorem readOtherwise_inner (hinner : ∀ t ∈ inner, t.token.IsInner) :
    readOtherwise start finish (closed inner stop after)
      = unguarded ((otherwiseClause start stop inner).map (·, after)) := by
  unfold readOtherwise
  split
  next heq =>
    obtain ⟨more, rfl, rfl⟩ := closed_eq_cons heq (by simp)
    exact map_readPipeline_inner (List.forall_mem_cons.mp hinner).2 .otherwiseIf
  next hne =>
    rw [expectClose_inner hinner, otherwiseClause]
    rintro pos rest rfl
    exact hne pos _ rfl

theorem readInvoke_inner (hinner : ∀ t ∈ inner, t.token.IsInner) :
    readInvoke start finish (closed inner stop after)
      = unguarded ((invokeClause start stop inner).map (·, after)) := by
  rcases inner with _ | ⟨⟨pos, token⟩, inner⟩
  · rfl
  have hrest := (List.forall_mem_cons.mp hinner).2
  cases token with
  | str name =>
    rcases inner with _ | ⟨⟨pos', token'⟩, more⟩
    · rfl
    · have htoken := (List.forall_mem_cons.mp hrest).1
      cases token' with
      | rightDelim => exact htoken.elim
      | _ =>
        exact @map_readPipeline_inner start finish stop .invoke after _ hrest fun _ => .invoke name
  | _ => rfl

theorem readKeyword_inner (hinner : ∀ t ∈ inner, t.token.IsInner) (k : Keyword) :
    readKeyword start finish k (closed inner stop after)
      = unguarded ((keywordClause k start stop inner).map (·, after)) := by
  cases k with
  | ifWord => exact map_readPipeline_inner hinner (.opening .cond)
  | rangeWord => exact map_readPipeline_inner hinner (.opening .loop)
  | withWord => exact map_readPipeline_inner hinner (.opening .scope)
  | elseWord => exact readOtherwise_inner hinner
  | endWord | breakWord | continueWord => exact expectClose_inner hinner _
  | templateWord => exact readInvoke_inner hinner
  | defineWord | blockWord => rfl

/-- **An action is read as from its own tokens,** and what follows it is left. -/
theorem readClause_inner (hinner : ∀ t ∈ inner, t.token.IsInner) :
    readClause start finish (closed inner stop after)
      = unguarded ((actionClause start inner stop).map (·, after)) := by
  unfold readClause
  split
  next heq => exact absurd heq (by simp [closed])
  next heq =>
    obtain ⟨more, rfl, rfl⟩ := closed_eq_cons heq (by simp)
    exact readKeyword_inner (List.forall_mem_cons.mp hinner).2 _
  next hne =>
    have hword : ∀ pos k rest, inner ≠ ⟨pos, .keyword k⟩ :: rest := by
      rintro pos k rest rfl
      exact hne pos k _ rfl
    rw [actionClause_of_ne hword]
    exact map_readPipeline_inner hinner .value

end

/-! ## §4. Texts and whole actions. -/

/-- Texts and whole actions, and the end at `finish` behind them. -/
inductive Aligned (finish : Nat) : List PlacedToken → Prop
  | eof : Aligned finish [⟨finish, .eof⟩]
  | text {ts : List PlacedToken} (pos : Nat) (content : String) (h : Aligned finish ts) :
      Aligned finish (⟨pos, .text content⟩ :: ts)
  | action {inner ts : List PlacedToken} (start stop : Nat)
      (hinner : ∀ t ∈ inner, t.token.IsInner) (h : Aligned finish ts) :
      Aligned finish (⟨start, .leftDelim⟩ :: closed inner stop ts)

theorem aligned_of_sequence {front : List PlacedToken}
    (h : TokenSequence (front.map PlacedToken.token)) (finish : Nat) :
    Aligned finish (front ++ [⟨finish, .eof⟩]) := by
  generalize hts : front.map PlacedToken.token = ts at h
  induction h generalizing front with
  | done =>
    obtain rfl := List.map_eq_nil_iff.mp hts
    exact .eof
  | text _ ih =>
    obtain ⟨⟨pos, t⟩, rest, rfl, ht, hrest⟩ := List.map_eq_cons_iff.mp hts
    obtain rfl : t = .text _ := ht
    exact .text pos _ (ih hrest)
  | action hinner _ ih =>
    -- the tokens in place are split where the bare tokens are
    obtain ⟨⟨start, t⟩, rest, rfl, ht, hrest⟩ := List.map_eq_cons_iff.mp hts
    obtain rfl : t = .leftDelim := ht
    obtain ⟨inner, more, rfl, rfl, hmore⟩ := List.map_eq_append_iff.mp hrest
    obtain ⟨⟨stop, t⟩, rest, rfl, ht, hlater⟩ := List.map_eq_cons_iff.mp hmore
    obtain rfl : t = .rightDelim := ht
    have haction := Aligned.action start stop
      (fun t ht => hinner t.token (List.mem_map_of_mem ht)) (ih hlater)
    simpa [closed] using haction

/-- **The tokens of a template are texts and whole actions.** -/
theorem aligned_of_tokens {source : String} {ts : List PlacedToken} (h : tokens source = .ok ts) :
    Aligned source.utf8ByteSize ts := by
  obtain ⟨row, front, hlayout, ⟨-, rfl⟩, rfl⟩ := tokensFrom_layout h
  have hend : 0 + width source.toList = source.utf8ByteSize := by
    rw [Nat.zero_add, width_eq_utf8ByteSize, String.ofList_toList]
  rw [hend]
  refine aligned_of_sequence ?_ _
  rw [map_token_placedFrom]
  exact hlayout.shape

theorem Token.IsInner.ne_rightDelim {t : Token} (h : t.IsInner) : t ≠ .rightDelim := by
  rintro rfl
  exact h

/-- They can be cut into pieces. -/
theorem Aligned.pieces {finish : Nat} {ts : List PlacedToken} (h : Aligned finish ts) :
    ∃ ps, Template.pieces ts = .ok (ps, finish) ∧ nextPiecePos finish ps = nextPos finish ts := by
  induction h with
  | eof => exact ⟨[], by rw [Template.pieces], rfl⟩
  | text pos content _ ih =>
    obtain ⟨ps, hps, -⟩ := ih
    exact ⟨.text pos content :: ps, by rw [Template.pieces, hps]; rfl, rfl⟩
  | @action inner _ start stop hinner _ ih =>
    obtain ⟨ps, hps, -⟩ := ih
    refine ⟨.action start inner stop :: ps, ?_, rfl⟩
    rw [closed, pieces_action fun t ht => (hinner t ht).ne_rightDelim, hps]
    rfl

end Stencil.Template
