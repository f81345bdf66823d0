/-
  Stencil.Proofs.Template.Comments
  ────────────────────────────────
  COMMENTS ARE DROPPED, EXCEPT THOSE THAT START WITH A SLASH.

  Offsets are only ever added to while a template is cut, so a template that
  starts further on is cut into the same tokens further on.  A comment leaves
  no token and trims nothing.  What follows it is therefore cut as a template
  of its own, and shifted.

  The end of a comment is looked for from its opening slash on.  The star of
  the opening may so be that of the end: a body that starts with a slash ends
  at that slash, wherever the pair that was meant to end it stands.

    • `actionTokens_shift`, `action_shift`, `tokensFrom_shift` — cutting
      further on,
    • `findPair_append_of_ne` — where the end of a comment is found,
    • `tokensFrom_comment` — a comment at the head of a template,
    • `tokens_comment` — which comments are dropped, and what the others do.
-/
import Stencil.Proofs.Template.Unmarking

namespace Stencil

open Outcome

/-! ## §1. Results further on. -/

/-- The error `n` bytes further on. -/
def Error.shift (n : Nat) : Error → Error
  | schema name fault => .schema name fault
  | path place fault pos => .path place fault (pos + n)
  | condition place fault pos => .condition place fault (pos + n)
  | unsupported form pos => .unsupported form (pos + n)
  | malformed fault pos => .malformed fault (pos + n)

/-- The same computation `n` bytes further on; `f` takes its result there. -/
def shifted {α : Type} (n : Nat) (f : α → α) (x : Except Error α) : Except Error α :=
  (x.map f).mapError (Error.shift n)

section
variable {α β : Type}

@[simp] theorem shifted_ok (n : Nat) (f : α → α) (a : α) : shifted n f (.ok a) = .ok (f a) := rfl

/-- A result may be changed before it is shifted or after. -/
theorem shifted_map {n : Nat} {f : α → α} {f' : β → β} {g g' : α → β}
    (h : ∀ a, f' (g a) = g' (f a)) (x : Except Error α) :
    shifted n f' (x.map g) = (shifted n f x).map g' := by
  cases x with
  | ok a => exact congrArg Except.ok (h a)
  | error e => rfl

/-- The steps of a chain may be shifted one by one. -/
theorem shifted_bind {n : Nat} {f : α → α} {f' : β → β} {g g' : α → Except Error β}
    (h : ∀ a, shifted n f' (g a) = g' (f a)) (x : Except Error α) :
    shifted n f' (x >>= g) = shifted n f x >>= g' := by
  cases x with
  | ok a => exact h a
  | error e => rfl

end

namespace Template

open Text (isBlank width width_cons)
open Schema (takeWhile_append_stop)

/-- The token `n` bytes further on. -/
def PlacedToken.shift (n : Nat) (t : PlacedToken) : PlacedToken :=
  ⟨t.pos + n, t.token⟩

/-- All tokens `n` bytes further on. -/
def shiftTokens (n : Nat) (ts : List PlacedToken) : List PlacedToken :=
  ts.map (.shift n)

/-- What an action leaves behind, `n` bytes further on. -/
def ActionTokens.shift (n : Nat) (found : ActionTokens) : ActionTokens :=
  { found with tokens := shiftTokens n found.tokens }

@[simp] theorem shiftTokens_append (n : Nat) (ts us : List PlacedToken) :
    shiftTokens n (ts ++ us) = shiftTokens n ts ++ shiftTokens n us :=
  List.map_append

/-! ## §2. Cutting further on. -/

/-- **An action further on has the same tokens further on.** -/
theorem actionTokens_shift (n start pos : Nat) (cs : List Char) :
    actionTokens (start + n) (pos + n) cs
      = shifted n (.shift n) (actionTokens start pos cs) := by
  fun_induction actionTokens start pos cs
  case case1 pos cs blanks hnil =>
    rw [actionTokens.eq_def]
    dsimp only
    split
    next => rfl
    next hcons => exact absurd (hnil.symm.trans hcons) (by simp)
  case case2 pos cs blanks here c rest hrest trim k hclose =>
    obtain ⟨hcs, hc⟩ := eq_blanks_cons hrest
    rw [hcs, actionTokens_step (allBlank_takeWhile cs) hc, hclose, Nat.add_right_comm]
    rfl
  case case3 pos cs blanks here c rest hrest hclose fault hoperand =>
    obtain ⟨hcs, hc⟩ := eq_blanks_cons hrest
    rw [hcs, actionTokens_step (allBlank_takeWhile cs) hc, hclose]
    dsimp only
    rw [hoperand, Nat.add_right_comm]
    rfl
  case case4 pos cs blanks here c rest hrest hclose token k hoperand ih =>
    obtain ⟨hcs, hc⟩ := eq_blanks_cons hrest
    have hnext : pos + n + width blanks + c.utf8Size + width (rest.take k)
        = here + c.utf8Size + width (rest.take k) + n := by
      simp only [here]
      omega
    conv => lhs; rw [hcs, actionTokens_step (allBlank_takeWhile cs) hc, hclose]
    dsimp only
    rw [hoperand]
    dsimp only
    rw [hnext, ih, Nat.add_right_comm]
    exact (shifted_map (fun more => by rfl) _).symm

theorem comment_shift (n start : Nat) (cs : List Char) :
    comment (start + n) cs = shifted n (.shift n) (comment start cs) := by
  unfold comment
  split
  next => rfl
  next =>
    dsimp only
    split
    next => rfl
    next => rfl

theorem action_shift (n start pos : Nat) (cs : List Char) :
    action (start + n) (pos + n) cs = shifted n (.shift n) (action start pos cs) := by
  unfold action
  dsimp only
  split
  next =>
    rw [comment_shift]
    exact (shifted_map (fun found => by rfl) _).symm
  next =>
    rw [Nat.add_right_comm, actionTokens_shift]
    exact (shifted_map (fun found => by rfl) _).symm

theorem textTokens_shift (n pos : Nat) (trimLeft trimRight : Bool) (raw : List Char) :
    textTokens (pos + n) trimLeft trimRight raw
      = shiftTokens n (textTokens pos trimLeft trimRight raw) := by
  obtain ⟨kept, hkept⟩ : ∃ kept : List Char, ∀ pos, textTokens pos trimLeft trimRight raw
      = if kept.isEmpty then [] else [⟨pos, .text (String.ofList kept)⟩] := ⟨_, fun _ => rfl⟩
  rw [hkept, hkept]
  split
  next => rfl
  next => rfl

/-- **What is left of a template is cut alike wherever it stands.** -/
theorem tokensFrom_shift (n pos : Nat) (trim : Bool) (cs : List Char) :
    tokensFrom (pos + n) trim cs = shifted n (shiftTokens n) (tokensFrom pos trim cs) := by
  induction hlen : cs.length using Nat.strong_induction_on generalizing cs pos trim with
  | h len ih =>
    subst hlen
    cases hpair : findPair '\x7b' '\x7b' cs with
    | none =>
      rw [tokensFrom_of_none hpair, tokensFrom_of_none hpair, textTokens_shift,
        Nat.add_right_comm, shifted_ok, shiftTokens_append]
      rfl
    | some k =>
      rw [tokensFrom_of_some hpair, tokensFrom_of_some hpair, Nat.add_right_comm,
        Nat.add_right_comm pos n, action_shift, textTokens_shift]
      refine (shifted_bind (fun found => ?_) _).symm
      have hlater := ih _ (length_drop_opensAt_lt hpair found.count)
        (pos + width (cs.take ((opensAt cs k).2 + found.count))) found.trim _ rfl
      rw [Nat.add_right_comm] at hlater
      dsimp only [ActionTokens.shift]
      rw [hlater]
      exact shifted_map (fun more => by simp) _

/-! ## §3. The end of a comment. -/

theorem not_pair_cons {a b c : Char} {cs : List Char} (h : ¬ [a, b] <:+: c :: cs) :
    ¬ (c = a ∧ cs.head? = some b) ∧ ¬ [a, b] <:+: cs := by
  refine ⟨?_, fun hin => h (List.infix_cons hin)⟩
  rintro ⟨rfl, hhead⟩
  obtain ⟨rest, rfl⟩ := List.head?_eq_some_iff.mp hhead
  exact h ⟨[], rest, rfl⟩

/-- **A pair of two characters is found where it first stands.** -/
theorem findPair_append_of_ne {a b : Char} (hne : a ≠ b) (tail : List Char) : ∀ {cs : List Char},
    ¬ [a, b] <:+: cs → findPair a b (cs ++ a :: b :: tail) = some cs.length
  | [], _ => by simp [findPair]
  | c :: cs, h => by
      obtain ⟨hhere, hrest⟩ := not_pair_cons h
      rw [List.cons_append, findPair, if_neg, findPair_append_of_ne hne tail hrest]
      · rfl
      · intro hpair
        simp only [Bool.and_eq_true, decide_eq_true_eq, beq_iff_eq] at hpair
        cases cs with
        | nil => exact hne (by simpa using hpair.2)
        | cons d cs => exact hhere ⟨hpair.1, by simpa using hpair.2⟩

/-- The opening star of a comment ends it if a slash follows. -/
theorem not_pair_opened {body : List Char} (hbody : ¬ ['*', '/'] <:+: body)
    (hslash : body.head? ≠ some '/') : ¬ ['*', '/'] <:+: '/' :: '*' :: body := by
  intro h
  rcases List.infix_cons_iff.mp h with hprefix | h
  · simp [List.cons_prefix_cons] at hprefix
  rcases List.infix_cons_iff.mp h with hprefix | h
  · obtain ⟨-, hprefix⟩ := List.cons_prefix_cons.mp hprefix
    obtain ⟨rest, rfl⟩ := hprefix
    exact hslash rfl
  · exact hbody h

/-- The closing delimiter of a comment after blanks, and what follows it. -/
def Closes (rest : List Char) (marked : Bool) (after : List Char) : Prop :=
  ∃ blanks, rest = blanks ++ (marker marked ++ '\x7d' :: '\x7d' :: after) ∧ AllBlank blanks
    ∧ (marked = true → blanks ≠ [])

/-- A delimiter is closing exactly where it is read as one. -/
theorem closes_iff {rest after : List Char} {marked : Bool} :
    Closes rest marked after
      ↔ ∃ k, closing? (!(rest.takeWhile isBlank).isEmpty)
            (rest.drop (rest.takeWhile isBlank).length) = some (marked, k)
        ∧ rest.drop ((rest.takeWhile isBlank).length + k) = after := by
  constructor
  · rintro ⟨blanks, rfl, hblanks, hmarked⟩
    have hrun : (blanks ++ (marker marked ++ '\x7d' :: '\x7d' :: after)).takeWhile isBlank
        = blanks := takeWhile_append_stop hblanks (by cases marked <;> simp [marker] <;> decide)
    rw [hrun, List.drop_left]
    refine ⟨(marker marked).length + 2, ?_, ?_⟩
    · cases marked with
      | false => rfl
      | true =>
        have hne : (!blanks.isEmpty) = true := by simpa using hmarked rfl
        rw [hne]
        rfl
    · rw [← List.drop_drop, List.drop_left, ← List.drop_drop, List.drop_left]
      rfl
  · rintro ⟨k, hclose, rfl⟩
    obtain ⟨hmarked, -, htake⟩ := closing?_eq_some hclose
    refine ⟨rest.takeWhile isBlank, ?_, allBlank_takeWhile rest, fun h => by simpa using hmarked h⟩
    conv => lhs; rw [← List.take_append_drop ((rest.takeWhile isBlank).length + k) rest]
    rw [take_blanks_add, htake]
    simp

/-! ## §4. Comments at the head of a template. -/

/-- A comment at the head of a template is read first, and the rest is cut
behind it. -/
theorem tokensFrom_comment (cs : List Char) :
    tokensFrom 0 false ('\x7b' :: '\x7b' :: '/' :: '*' :: cs)
      = comment 0 ('/' :: '*' :: cs) >>= fun found =>
        (tokensFrom (2 + width (('/' :: '*' :: cs).take found.count)) found.trim
          (('/' :: '*' :: cs).drop found.count)).map (found.tokens ++ ·) := by
  have hopens : action 0 2 ('/' :: '*' :: cs) = comment 0 ('/' :: '*' :: cs) := by
    rw [← List.nil_append ('/' :: '*' :: cs),
      action_step (List.forall_mem_nil _) (by simp; decide), List.nil_append,
      if_pos (by simp [List.isPrefixOf])]
    cases comment 0 ('/' :: '*' :: cs) with
    | error e => rfl
    | ok found => simp [Except.map]
  have hfind : findPair '\x7b' '\x7b' ('\x7b' :: '\x7b' :: '/' :: '*' :: cs) = some 0 := rfl
  rw [tokensFrom_of_some hfind]
  change action 0 2 ('/' :: '*' :: cs) >>= _ = _
  rw [hopens]
  refine bind_congr fun found => ?_
  have hopensAt : opensAt ('\x7b' :: '\x7b' :: '/' :: '*' :: cs) 0 = (false, 2) := rfl
  have hwidth : width (('\x7b' :: '\x7b' :: '/' :: '*' :: cs).take (found.count + 2))
      = 2 + width (('/' :: '*' :: cs).take found.count) := by
    rw [List.take_succ_cons, List.take_succ_cons, width_cons, width_cons, ← Nat.add_assoc]
    rfl
  rw [hopensAt, Nat.zero_add, Nat.add_comm 2 found.count, hwidth, List.drop_succ_cons,
    List.drop_succ_cons]
  rfl

section
variable {cs front rest : List Char}

/-- Where a comment ends, and what its end must be. -/
theorem comment_append (hfront : ¬ ['*', '/'] <:+: front) (start : Nat) :
    comment start (front ++ '*' :: '/' :: rest)
      = match closing? (!(rest.takeWhile isBlank).isEmpty)
            (rest.drop (rest.takeWhile isBlank).length) with
        | some (trim, k) =>
            .ok ⟨[], trim, front.length + 2 + (rest.takeWhile isBlank).length + k⟩
        | none => .error (.malformed .commentNotLast start) := by
  have hdrop : (front ++ '*' :: '/' :: rest).drop (front.length + 2) = rest := by
    rw [← List.drop_drop, List.drop_left]
    rfl
  rw [comment, findPair_append_of_ne (by decide) rest hfront]
  dsimp only
  generalize (front ++ '*' :: '/' :: rest).drop (front.length + 2) = behind at hdrop ⊢
  subst hdrop
  rfl

/-- **What follows a comment is cut as a template of its own,** and stands
behind it. -/
theorem tokensFrom_closed (hcs : '/' :: '*' :: cs = front ++ '*' :: '/' :: rest)
    (hfront : ¬ ['*', '/'] <:+: front) {marked : Bool} {after : List Char}
    (hclose : Closes rest marked after) :
    ∃ n, n + width after = 4 + width cs
      ∧ tokensFrom 0 false ('\x7b' :: '\x7b' :: '/' :: '*' :: cs)
        = shifted n (shiftTokens n) (tokensFrom 0 marked after) := by
  obtain ⟨k, hclose, hafter⟩ := closes_iff.mp hclose
  have hcount : (front ++ '*' :: '/' :: rest).drop
      (front.length + 2 + (rest.takeWhile isBlank).length + k) = after := by
    rw [Nat.add_assoc, Nat.add_assoc, ← List.drop_drop, List.drop_left, ← List.drop_drop, ← hafter]
    rfl
  -- what the comment takes is as wide as all less what follows it
  have hwidth := congrArg width (List.take_append_drop
    (front.length + 2 + (rest.takeWhile isBlank).length + k) (front ++ '*' :: '/' :: rest))
  rw [Text.width_append, hcount] at hwidth
  have hall : width (front ++ '*' :: '/' :: rest) = 2 + width cs := by
    rw [← hcs, width_cons, width_cons, ← Nat.add_assoc]
    rfl
  refine ⟨2 + width ((front ++ '*' :: '/' :: rest).take
    (front.length + 2 + (rest.takeWhile isBlank).length + k)), by omega, ?_⟩
  rw [tokensFrom_comment, hcs, comment_append hfront, hclose]
  dsimp only
  rw [ok_bind, hcount, ← tokensFrom_shift, Nat.zero_add]
  dsimp only
  generalize tokensFrom _ marked after = result
  cases result with
  | error e => rfl
  | ok ts => rfl

/-- **A comment whose end does not close its action is a fault.** -/
theorem tokensFrom_notLast (hcs : '/' :: '*' :: cs = front ++ '*' :: '/' :: rest)
    (hfront : ¬ ['*', '/'] <:+: front) (hclose : ∀ marked after, ¬ Closes rest marked after) :
    tokensFrom 0 false ('\x7b' :: '\x7b' :: '/' :: '*' :: cs)
      = .error (.malformed .commentNotLast 0) := by
  have hnone : closing? (!(rest.takeWhile isBlank).isEmpty)
      (rest.drop (rest.takeWhile isBlank).length) = none := by
    refine Option.eq_none_iff_forall_ne_some.mpr fun (trim, k) hsome => ?_
    exact hclose trim _ (closes_iff.mpr ⟨k, hsome, rfl⟩)
  rw [tokensFrom_comment, hcs, comment_append hfront, hnone]
  rfl

end

/-! ## §5. Which comments are dropped. -/

/-- A comment with its delimiters. -/
def commented (body : String) : String :=
  "\x7b\x7b/*" ++ body ++ "*/\x7d\x7d"

theorem toList_commented (body source : String) : (commented body ++ source).toList
    = '\x7b' :: '\x7b' :: '/' :: '*'
      :: (body.toList ++ '*' :: '/' :: '\x7d' :: '\x7d' :: source.toList) := by
  simp [commented]

/-- **A comment is dropped, whatever it contains,** if its body does not start
with a slash: the rest of the template is cut as if it stood alone, and shifted
by the length of the comment.  A body that starts with a slash ends there, at
what would be the pair of the opening star and that slash.  If the characters
after it close the action, the rest of the template starts behind them, inside
of the body or behind it; otherwise they are a fault. -/
theorem tokens_comment {body : String} (hbody : ¬ ['*', '/'] <:+: body.toList) (source : String) :
    (body.toList.head? ≠ some '/' →
        tokens (commented body ++ source)
          = shifted (commented body).utf8ByteSize (shiftTokens (commented body).utf8ByteSize)
              (tokens source))
      ∧ ∀ more, body.toList = '/' :: more →
        (∀ marked after,
            Closes (more ++ '*' :: '/' :: '\x7d' :: '\x7d' :: source.toList) marked after →
            ∃ n, n + width after = (commented body ++ source).utf8ByteSize
              ∧ tokens (commented body ++ source)
                = shifted n (shiftTokens n) (tokensFrom 0 marked after))
          ∧ ((∀ marked after,
                ¬ Closes (more ++ '*' :: '/' :: '\x7d' :: '\x7d' :: source.toList) marked after) →
            tokens (commented body ++ source) = .error (.malformed .commentNotLast 0)) := by
  generalize hrest : '*' :: '/' :: '\x7d' :: '\x7d' :: source.toList = rest
  have hsize : (commented body ++ source).utf8ByteSize
      = 4 + width (body.toList ++ rest) := by
    rw [← String.ofList_toList (s := commented body ++ source), ← width_eq_utf8ByteSize,
      toList_commented, hrest]
    change 1 + (1 + (1 + (1 + width (body.toList ++ rest)))) = _
    omega
  -- the end is found behind the body, or at the slash the body starts with;
  -- what stands behind it decides the rest
  unfold tokens
  rw [toList_commented, hrest]
  refine ⟨fun hslash => ?_, fun more hmore => ⟨fun marked after hclose => ?_, fun hclose => ?_⟩⟩
  · have hfront := not_pair_opened hbody hslash
    obtain ⟨n, hn, htokens⟩ := @tokensFrom_closed (body.toList ++ rest) ('/' :: '*' :: body.toList)
      ('\x7d' :: '\x7d' :: source.toList) (by rw [← hrest]; rfl) hfront false source.toList
      ⟨[], rfl, List.forall_mem_nil _, by simp⟩
    obtain rfl : n = (commented body).utf8ByteSize := by
      rw [String.utf8ByteSize_append, ← String.ofList_toList (s := source),
        ← width_eq_utf8ByteSize] at hsize
      omega
    exact htokens
  · obtain ⟨n, hn, htokens⟩ := @tokensFrom_closed (body.toList ++ rest) ['/'] (more ++ rest)
      (by rw [hmore]; rfl) (by decide) marked after hclose
    exact ⟨n, hn.trans hsize.symm, htokens⟩
  · exact @tokensFrom_notLast (body.toList ++ rest) ['/'] (more ++ rest) (by rw [hmore]; rfl)
      (by decide) hclose

/-- A comment that holds delimiters, a quote and the characters of its own, before
a text of two bytes and an action; and two comments whose bodies start with a
slash, of which the first goes on with a closing delimiter. -/
theorem tokens_comment_knotty :
    ¬ ['*', '/'] <:+: "\x7d\x7d ** \"\x7b\x7b\n/".toList
      ∧ "\x7d\x7d ** \"\x7b\x7b\n/".toList.head? ≠ some '/'
      ∧ tokens (commented "\x7d\x7d ** \"\x7b\x7b\n/" ++ "\u00e9\x7b\x7b.b\x7d\x7d")
        = .ok [⟨19, .text "\u00e9"⟩, ⟨21, .leftDelim⟩, ⟨23, .field ["b"]⟩, ⟨25, .rightDelim⟩,
            ⟨27, .eof⟩]
      ∧ tokens (commented "/ \x7d\x7d" ++ "") = .ok [⟨8, .text "*/\x7d\x7d"⟩, ⟨12, .eof⟩]
      ∧ tokens (commented "/a" ++ "") = .error (.malformed .commentNotLast 0) := by
  have hbody : ¬ ['*', '/'] <:+: "\x7d\x7d ** \"\x7b\x7b\n/".toList := by decide +kernel
  have hslash : "\x7d\x7d ** \"\x7b\x7b\n/".toList.head? ≠ some '/' := by decide +kernel
  have hsource : tokens "\u00e9\x7b\x7b.b\x7d\x7d" = .ok [⟨0, .text "\u00e9"⟩, ⟨2, .leftDelim⟩,
      ⟨4, .field ["b"]⟩, ⟨6, .rightDelim⟩, ⟨8, .eof⟩] := by cbv
  refine ⟨hbody, hslash, ?_, ?_, ?_⟩
  · have hsize : (commented "\x7d\x7d ** \"\x7b\x7b\n/").utf8ByteSize = 19 := by decide +kernel
    rw [(tokens_comment hbody _).1 hslash, hsource, hsize]
    rfl
  · have hsize : (commented "/ \x7d\x7d" ++ "").utf8ByteSize = 12 := by decide +kernel
    have hafter : tokensFrom 0 false ['*', '/', '\x7d', '\x7d']
        = .ok [⟨0, .text "*/\x7d\x7d"⟩, ⟨4, .eof⟩] := by cbv
    obtain ⟨n, hn, htokens⟩ := ((@tokens_comment "/ \x7d\x7d" (by decide +kernel) "").2
      [' ', '\x7d', '\x7d'] rfl).1 false ['*', '/', '\x7d', '\x7d']
      ⟨[' '], rfl, List.forall_mem_singleton.mpr (by decide), by simp⟩
    obtain rfl : n = 8 := by
      rw [hsize] at hn
      exact Nat.add_right_cancel (m := 4) hn
    rw [htokens, hafter]
    rfl
  · refine ((@tokens_comment "/a" (by decide +kernel) "").2 ['a'] rfl).2 ?_
    rintro marked after hclose
    obtain ⟨k, hclose, -⟩ := closes_iff.mp hclose
    have hnone : closing? (!(("a*/\x7d\x7d".toList).takeWhile isBlank).isEmpty)
        (("a*/\x7d\x7d".toList).drop (("a*/\x7d\x7d".toList).takeWhile isBlank).length) = none := by
      cbv
    exact absurd (hnone.symm.trans hclose) (by simp)

/-- **A comment of one slash is a fault,** although no end stands in its body. -/
theorem tokens_slash_comment :
    ¬ ['*', '/'] <:+: "/".toList
      ∧ tokens (commented "/" ++ "") = .error (.malformed .commentNotLast 0)
      ∧ shifted (commented "/").utf8ByteSize (shiftTokens (commented "/").utf8ByteSize) (tokens "")
        = .ok [⟨9, .eof⟩] := by
  refine ⟨by decide +kernel, by cbv, ?_⟩
  have hempty : tokens "" = .ok [⟨0, .eof⟩] := by cbv
  have hsize : (commented "/").utf8ByteSize = 9 := by decide +kernel
  rw [hempty, hsize]
  rfl

end Template

end Stencil
