/-
  Stencil.Proofs.Template.Unmarking
  ─────────────────────────────────
  TEMPLATES WITHOUT THEIR TRIM MARKERS.

  A template is unmarked by replacing the hyphens of all trim markers that are
  met in cutting it by blanks.  Cutting sees little of that: an operand is told
  by its own characters and at most two behind it, a marker has a blank on the
  side of the operands, and blanks are skipped.  So the tokens are the same,
  except that texts are not trimmed.

    • `operand_alike` — an operand does not depend on what follows the next
      two characters, nor on what follows a blank,
    • `action_pad` — where an action stands and how many blanks lead it makes
      no difference to its tokens,
    • `action_unmarked` — nor does its closing marker,
    • `tokensFrom_unmarked` — so an unmarked template has the same settled
      tokens,
    • `unmarkedFrom_orBlanked`, `unmarkedFrom_unmarkedFrom` — only hyphens are
      replaced, and no marker is left.
-/
import Stencil.Proofs.Template.Settling

namespace Stencil.Template

open Text (isBlank isWordStart isWordChar)
open Schema (takeWhile_append_stop drop_length_takeWhile head?_dropWhile_not)
open Outcome

/-! ## §1. How far cutting looks ahead. -/

/-- The two start with the same two characters, or with the same blank. -/
inductive Alike : List Char → List Char → Prop
  | blank {c : Char} {xs ys : List Char} (h : isBlank c = true) : Alike (c :: xs) (c :: ys)
  | pair {c d : Char} {xs ys : List Char} : Alike (c :: d :: xs) (c :: d :: ys)

theorem Alike.head? {xs ys : List Char} (h : Alike xs ys) : ys.head? = xs.head? := by
  cases h with
  | blank => rfl
  | pair => rfl

theorem Alike.lt_length {cs tail : List Char} {n : Nat} (h : Alike (cs.drop n) tail) :
    n < cs.length := by
  have hne : cs.drop n ≠ [] := by
    intro hnil
    rw [hnil] at h
    nomatch h
  rwa [ne_eq, List.drop_eq_nil_iff, not_le] at hne

/-- An opening marker is a hyphen and a blank. -/
theorem Alike.opensWithTrim {xs ys : List Char} (h : Alike xs ys) :
    opensWithTrim ys = opensWithTrim xs := by
  cases h with
  | @blank c xs ys hblank =>
    have hne : c ≠ '-' := by
      rintro rfl
      exact absurd hblank (by decide)
    simp [Template.opensWithTrim, hne]
  | @pair c d xs ys =>
    by_cases hc : c = '-'
    · rw [hc]
      rfl
    · simp [Template.opensWithTrim, hc]

/-- A comment opens with two characters. -/
theorem Alike.opensComment {xs ys : List Char} (h : Alike xs ys) :
    ['/', '*'].isPrefixOf ys = ['/', '*'].isPrefixOf xs := by
  cases h with
  | @blank c xs ys hblank =>
    have hne : ('/' == c) = false := by
      rw [beq_eq_false_iff_ne]
      rintro rfl
      exact absurd hblank (by decide)
    simp [List.isPrefixOf, hne]
  | pair => rfl

/-- A run of a class ends where it did. -/
theorem takeWhile_alike {p : Char → Bool} {cs tail : List Char}
    (h : Alike (cs.drop (cs.takeWhile p).length) tail) :
    (cs.takeWhile p ++ tail).takeWhile p = cs.takeWhile p := by
  refine takeWhile_append_stop (fun c hc => List.mem_takeWhile_imp hc) ?_
  rw [h.head?, drop_length_takeWhile]
  exact head?_dropWhile_not p cs

/-- So does a chain of members. -/
theorem memberChain_alike {cs tail : List Char}
    (h : Alike (cs.drop ((memberChain cs).flatMap ('.' :: ·)).length) tail) :
    memberChain ((memberChain cs).flatMap ('.' :: ·) ++ tail) = memberChain cs := by
  fun_induction memberChain cs with
  | case1 c cs hc more ih =>
    have hlength : (((c :: more) :: memberChain (cs.drop more.length)).flatMap ('.' :: ·)).length
        = more.length + ((memberChain (cs.drop more.length)).flatMap ('.' :: ·)).length + 2 := by
      simp only [List.flatMap_cons, List.length_append, List.length_cons]
      omega
    rw [hlength, List.drop_succ_cons, List.drop_succ_cons, ← List.drop_drop] at h
    -- the name ends at the dot of the next one, or at what follows the chain
    have hstop : ∀ d ∈ ((memberChain (cs.drop more.length)).flatMap ('.' :: ·) ++ tail).head?,
        isWordChar d = false := by
      cases hnames : memberChain (cs.drop more.length) with
      | nil =>
        rw [hnames] at h
        rw [List.flatMap_nil, List.nil_append, h.head?]
        simpa [drop_length_takeWhile, more] using head?_dropWhile_not isWordChar cs
      | cons name names =>
        intro d hd
        obtain rfl : '.' = d := by simpa using hd
        decide
    have hmore : ∀ d ∈ more, isWordChar d = true := fun d hd => List.mem_takeWhile_imp hd
    rw [List.flatMap_cons, List.append_assoc, List.cons_append, List.cons_append, memberChain,
      if_pos hc]
    simp only [takeWhile_append_stop hmore hstop, List.drop_left, ih h]
  | case2 c cs hc =>
    rw [List.flatMap_nil, List.nil_append]
    cases h with
    | blank hblank => exact absurd hblank (by decide)
    | pair => rw [memberChain, if_neg hc]
  | case3 cs hne =>
    rw [List.flatMap_nil, List.nil_append, memberChain.eq_def]
    split
    next d ds =>
      -- a dot and a character could have been read before
      rw [List.flatMap_nil, List.length_nil, List.drop_zero] at h
      generalize htail : '.' :: d :: ds = tail at h
      cases h with
      | blank hblank =>
        obtain ⟨rfl, -⟩ := List.cons.inj htail
        exact absurd hblank (by decide)
      | pair =>
        obtain ⟨rfl, -⟩ := List.cons.inj htail
        exact (hne _ _ rfl).elim
    next => rfl

theorem quotedValue_alike {cs value : List Char} {n : Nat} (h : quotedValue cs = .ok (value, n))
    (tail : List Char) : quotedValue (cs.take n ++ tail) = .ok (value, n) := by
  fun_induction quotedValue cs generalizing value n with
  | case1 => simp at h
  | case2 cs =>
    obtain ⟨rfl, rfl⟩ := Prod.mk.inj (Except.ok.inj h)
    rw [quotedValue.eq_def]
    rfl
  | case3 => simp at h
  | case4 => simp at h
  | case5 => simp at h
  | case6 e cs v hv _ _ ih =>
    obtain ⟨⟨value', m⟩, hread, heq⟩ := map_eq_ok.mp h
    obtain ⟨rfl, rfl⟩ := Prod.mk.inj heq
    rw [List.take_succ_cons, List.take_succ_cons, List.cons_append, List.cons_append,
      quotedValue.eq_def]
    simp [hv, ih hread, Except.map]
  | case7 c cs hquote hline hescape ih =>
    obtain ⟨⟨value', m⟩, hread, heq⟩ := map_eq_ok.mp h
    obtain ⟨rfl, rfl⟩ := Prod.mk.inj heq
    rw [List.take_succ_cons, List.cons_append, quotedValue.eq_def]
    simp [hquote, hline, hescape, ih hread, Except.map]

theorem rawValue_alike {cs value : List Char} {n : Nat} (h : rawValue cs = .ok (value, n))
    (tail : List Char) : rawValue (cs.take n ++ tail) = .ok (value, n) := by
  obtain ⟨htake, hno⟩ := rawValue_eq_ok h
  have hn : n = value.length + 1 := by
    unfold rawValue at h
    dsimp only at h
    split at h
    next =>
      obtain ⟨rfl, rfl⟩ := Prod.mk.inj (Except.ok.inj h)
      rfl
    next => simp at h
  have hvalue : (value ++ '\x60' :: tail).takeWhile (· != '\x60') = value := by
    refine takeWhile_append_stop (fun c hc => ?_) (by simp)
    have hne : c ≠ '\x60' := by
      rintro rfl
      exact hno hc
    simpa using hne
  rw [htake, List.append_assoc]
  change rawValue (value ++ '\x60' :: tail) = _
  unfold rawValue
  simp [hvalue, hn]

theorem dotted_alike {cs tail : List Char} {t : Token} {n : Nat} (h : dotted cs = (t, n))
    (htail : Alike (cs.drop n) tail) : dotted (cs.take n ++ tail) = (t, n) := by
  have hprefix := memberChain_prefix ('.' :: cs)
  cases hnames : memberChain ('.' :: cs) with
  | nil =>
    obtain ⟨rfl, rfl⟩ : .dot = t ∧ 0 = n := by simpa [dotted, hnames] using h
    -- the dot is followed by the same character, which starts no name
    have hdot : Alike ('.' :: cs) ('.' :: tail) := by
      cases htail with
      | blank => exact .pair
      | pair => exact .pair
    have hchain := @memberChain_alike ('.' :: cs) ('.' :: tail) (by rw [hnames]; exact hdot)
    rw [hnames] at hchain
    change memberChain ('.' :: tail) = [] at hchain
    change dotted tail = _
    simp [dotted, hchain]
  | cons name names =>
    obtain ⟨rfl, rfl⟩ : .field ((name :: names).map String.ofList) = t
        ∧ ((name :: names).flatMap ('.' :: ·)).length - 1 = n := by
      simpa [dotted, hnames] using h
    rw [hnames] at hprefix
    have htake : '.' :: cs.take (((name :: names).flatMap ('.' :: ·)).length - 1)
        = (name :: names).flatMap ('.' :: ·) := take_flatMap_dots hprefix
    have hlength : ((name :: names).flatMap ('.' :: ·)).length
        = ((name :: names).flatMap ('.' :: ·)).length - 1 + 1 := by simp
    have hchain := @memberChain_alike ('.' :: cs) tail (by rw [hnames, hlength]; exact htail)
    rw [hnames, ← htake, List.cons_append] at hchain
    simp only [dotted, hchain]

theorem head?_take_append {cs tail : List Char} {n : Nat} (h : Alike (cs.drop n) tail) :
    (cs.take n ++ tail).head? = cs.head? := by
  conv => rhs; rw [← List.take_append_drop n cs]
  rw [List.head?_append, List.head?_append, h.head?]

/-- **An operand is told by its characters and the next two,** or the next one
if that is blank. -/
theorem operand_alike {c : Char} {cs tail : List Char} {t : Token} {n : Nat}
    (h : operand c cs = .ok (t, n)) (htail : Alike (cs.drop n) tail) :
    operand c (cs.take n ++ tail) = .ok (t, n) := by
  have hhead := head?_take_append htail
  have hstarts : startsNumber c (cs.take n ++ tail) = startsNumber c cs := by
    rw [startsNumber, startsNumber, hhead]
  unfold operand at h ⊢
  rw [hhead, hstarts]
  split at h
  next hdot => rw [if_pos hdot, dotted_alike (Except.ok.inj h) htail]
  next hdot =>
  rw [if_neg hdot]
  split at h
  next hdollar =>
    obtain ⟨rfl, rfl⟩ := Prod.mk.inj (Except.ok.inj h)
    rw [if_pos hdollar, take_length_takeWhile, takeWhile_alike htail]
  next hdollar =>
  rw [if_neg hdollar]
  split at h
  next hdeclare => rw [if_pos hdeclare, Except.ok.inj h]
  next hdeclare =>
  rw [if_neg hdeclare]
  split at h
  next hquote =>
    obtain ⟨⟨value, m⟩, hread, heq⟩ := map_eq_ok.mp h
    obtain ⟨rfl, rfl⟩ := Prod.mk.inj heq
    rw [if_pos hquote, quotedValue_alike hread]
    rfl
  next hquote =>
  rw [if_neg hquote]
  split at h
  next hback =>
    obtain ⟨⟨value, m⟩, hread, heq⟩ := map_eq_ok.mp h
    obtain ⟨rfl, rfl⟩ := Prod.mk.inj heq
    rw [if_pos hback, rawValue_alike hread]
    rfl
  next hback =>
  rw [if_neg hback]
  split at h
  next hnumber =>
    obtain ⟨rfl, rfl⟩ := Prod.mk.inj (Except.ok.inj h)
    rw [if_pos hnumber, take_length_takeWhile, takeWhile_alike htail]
  next hnumber =>
  rw [if_neg hnumber]
  split at h
  next hword =>
    obtain ⟨rfl, rfl⟩ := Prod.mk.inj (Except.ok.inj h)
    rw [if_pos hword, take_length_takeWhile, takeWhile_alike htail]
  next hword =>
  rw [if_neg hword]
  exact h

/-- What starts an operand closes no action. -/
theorem closing?_of_operand {c : Char} {cs : List Char} {found : Token × Nat}
    (h : operand c cs = .ok found) (afterBlank : Bool) : closing? afterBlank (c :: cs) = none := by
  unfold closing?
  split
  next heq =>
    obtain ⟨rfl, rfl⟩ := List.cons.inj heq
    simp [operand, startsNumber, isWordStart, punctuation?] at h
  next heq =>
    obtain ⟨rfl, rfl⟩ := List.cons.inj heq
    simp [operand, startsNumber, isWordStart, punctuation?] at h
  next => rfl

/-! ## §2. Actions wherever they stand. -/

/-- What an action leaves behind, without offsets. -/
def ActionTokens.digest (found : ActionTokens) : List Token × Bool × Nat :=
  (found.tokens.map PlacedToken.token, found.trim, found.count)

theorem ActionTokens.digest_eq_iff {found : ActionTokens} {ts : List Token} {trim : Bool}
    {count : Nat} : found.digest = (ts, trim, count)
      ↔ found.tokens.map PlacedToken.token = ts ∧ found.trim = trim ∧ found.count = count := by
  simp [ActionTokens.digest]

/-- A change that can be told from the view `d` of a result. -/
theorem unplace_map_view {α β : Type} (d : α → β) (g : β → β) {f : α → α}
    (h : ∀ a, d (f a) = g (d a)) (x : Except Error α) :
    (unplace (x.map f)).map d = ((unplace x).map d).map g := by
  cases x with
  | error e => rfl
  | ok a => exact congrArg Except.ok (h a)

/-- Blanks come first, and what follows them starts with none. -/
theorem eq_blanks_cons {cs rest : List Char} {c : Char}
    (h : cs.drop (cs.takeWhile isBlank).length = c :: rest) :
    cs = cs.takeWhile isBlank ++ c :: rest ∧ isBlank c = false := by
  rw [drop_length_takeWhile] at h
  refine ⟨by rw [← h, List.takeWhile_append_dropWhile], ?_⟩
  exact head?_dropWhile_not isBlank cs c (by rw [h]; rfl)

/-- One step of reading an action. -/
theorem actionTokens_step {lead : List Char} (hlead : AllBlank lead) {c : Char}
    (hc : isBlank c = false) (start pos : Nat) (rest : List Char) :
    actionTokens start pos (lead ++ c :: rest)
      = match closing? (!lead.isEmpty) (c :: rest) with
        | some (trim, n) =>
            .ok ⟨[⟨pos + Text.width lead, .rightDelim⟩], trim, lead.length + n⟩
        | none =>
            match operand c rest with
            | .error fault => .error (.malformed fault (pos + Text.width lead))
            | .ok (token, n) =>
                (actionTokens start
                    (pos + Text.width lead + c.utf8Size + Text.width (rest.take n))
                    (rest.drop n)).map
                  fun more =>
                    { more with
                      tokens := ⟨pos + Text.width lead, token⟩ :: more.tokens
                      count := lead.length + 1 + n + more.count } := by
  have htake : (lead ++ c :: rest).takeWhile isBlank = lead :=
    takeWhile_append_stop hlead (by simpa using hc)
  rw [actionTokens.eq_def]
  simp only [htake]
  split
  next hnil =>
    rw [htake, List.drop_left] at hnil
    simp at hnil
  next d tail hcons =>
    rw [htake, List.drop_left] at hcons
    obtain ⟨rfl, rfl⟩ := List.cons.inj hcons
    rfl

/-- **Offsets make no difference to an action.** -/
theorem actionTokens_digest (start pos start' pos' : Nat) (cs : List Char) :
    (unplace (actionTokens start pos cs)).map ActionTokens.digest
      = (unplace (actionTokens start' pos' cs)).map ActionTokens.digest := by
  fun_induction actionTokens start pos cs generalizing pos'
  case case1 pos cs blanks hnil =>
    rw [actionTokens.eq_def]
    dsimp only
    split
    next => rfl
    next hcons => exact absurd (hnil.symm.trans hcons) (by simp)
  case case2 pos cs blanks here c rest hrest trim n hclose =>
    obtain ⟨hcs, hc⟩ := eq_blanks_cons hrest
    rw [hcs, actionTokens_step (allBlank_takeWhile cs) hc, hclose]
    rfl
  case case3 pos cs blanks here c rest hrest hclose fault hoperand =>
    obtain ⟨hcs, hc⟩ := eq_blanks_cons hrest
    rw [hcs, actionTokens_step (allBlank_takeWhile cs) hc, hclose]
    dsimp only
    rw [hoperand]
    rfl
  case case4 pos cs blanks here c rest hrest hclose token n hoperand ih =>
    obtain ⟨hcs, hc⟩ := eq_blanks_cons hrest
    conv => rhs; rw [hcs, actionTokens_step (allBlank_takeWhile cs) hc, hclose]
    dsimp only
    rw [hoperand]
    dsimp only
    let put (d : List Token × Bool × Nat) : List Token × Bool × Nat :=
      (token :: d.1, d.2.1, blanks.length + 1 + n + d.2.2)
    rw [unplace_map_view ActionTokens.digest put fun _ => rfl,
      unplace_map_view ActionTokens.digest put fun _ => rfl, ih]

theorem comment_digest (start start' : Nat) (cs : List Char) :
    (unplace (comment start cs)).map ActionTokens.digest
      = (unplace (comment start' cs)).map ActionTokens.digest := by
  unfold comment
  split
  next => rfl
  next =>
    dsimp only
    split
    next => rfl
    next => rfl

/-- **Neither do blanks before it.** -/
theorem action_pad {lead : List Char} (hlead : AllBlank lead) (start pos start' pos' : Nat)
    (cs : List Char) :
    (unplace (action start' pos' (lead ++ cs))).map ActionTokens.digest
      = ((unplace (action start pos cs)).map ActionTokens.digest).map fun d =>
        (d.1, d.2.1, lead.length + d.2.2) := by
  have htake : (lead ++ cs).takeWhile isBlank = lead ++ cs.takeWhile isBlank :=
    List.takeWhile_append_of_pos hlead
  have hdrop : (lead ++ cs).drop (lead ++ cs.takeWhile isBlank).length
      = cs.drop (cs.takeWhile isBlank).length := by
    rw [List.length_append, ← List.drop_drop, List.drop_left]
  unfold action
  rw [htake]
  dsimp only
  rw [hdrop]
  split
  next =>
    rw [unplace_map_view _ (fun d => (d.1, d.2.1, (lead ++ cs.takeWhile isBlank).length + d.2.2))
        fun _ => rfl,
      unplace_map_view _ (fun d => (d.1, d.2.1, (cs.takeWhile isBlank).length + d.2.2))
        fun _ => rfl,
      comment_digest start' start]
    cases unplace (comment start (cs.drop (cs.takeWhile isBlank).length)) with
    | error e => rfl
    | ok found => simp [Except.map, Nat.add_assoc]
  next =>
    rw [unplace_map_view _ (fun d =>
          (.leftDelim :: d.1, d.2.1, (lead ++ cs.takeWhile isBlank).length + d.2.2)) fun _ => rfl,
      unplace_map_view _ (fun d =>
          (.leftDelim :: d.1, d.2.1, (cs.takeWhile isBlank).length + d.2.2)) fun _ => rfl,
      actionTokens_digest start' _ start (pos + Text.width (cs.takeWhile isBlank))]
    cases unplace (actionTokens start (pos + Text.width (cs.takeWhile isBlank))
        (cs.drop (cs.takeWhile isBlank).length)) with
    | error e => rfl
    | ok found => simp [Except.map, Nat.add_assoc]

/-! ## §3. Actions without closing markers. -/

/-- A blank in the place of a marker's hyphen, if there is a marker. -/
def spacer (marked : Bool) : List Char :=
  if marked then [' '] else []

theorem allBlank_spacer (marked : Bool) : AllBlank (spacer marked) := by
  cases marked with
  | false => simp [AllBlank, spacer]
  | true =>
    intro c hc
    obtain rfl : c = ' ' := by simpa [spacer] using hc
    decide

theorem length_spacer (marked : Bool) : (spacer marked).length = (marker marked).length := by
  cases marked with
  | false => rfl
  | true => rfl

/-- A marker may close an action only behind a blank. -/
def Closable (body : List Char) (trim : Bool) : Prop :=
  trim = true → ∃ front c, body = front ++ [c] ∧ isBlank c = true

/-- Nothing before a closing delimiter sees whether it has a marker. -/
theorem Closable.alike {body : List Char} {trim : Bool} (h : Closable body trim)
    (rest tail : List Char) :
    Alike (body ++ (marker trim ++ '\x7d' :: '\x7d' :: rest))
      (body ++ (spacer trim ++ '\x7d' :: '\x7d' :: tail)) := by
  cases trim with
  | false =>
    rcases body with _ | ⟨c, _ | ⟨d, body⟩⟩
    · exact .pair
    · exact .pair
    · exact .pair
  | true =>
    obtain ⟨front, c, rfl, hblank⟩ := h rfl
    rcases front with _ | ⟨d, _ | ⟨e, front⟩⟩
    · exact .blank hblank
    · exact .pair
    · exact .pair

theorem closable_blanks {blanks : List Char} (hblanks : AllBlank blanks) {trim : Bool}
    (h : trim = true → blanks ≠ []) : Closable blanks trim := by
  intro htrim
  rcases List.eq_nil_or_concat blanks with rfl | ⟨front, c, rfl⟩
  · exact absurd rfl (h htrim)
  · rw [List.concat_eq_append]
    exact ⟨front, c, rfl, hblanks c (by simp)⟩

theorem Closable.append {body : List Char} {trim : Bool} (h : Closable body trim)
    (front : List Char) : Closable (front ++ body) trim := by
  intro htrim
  obtain ⟨before, c, rfl, hblank⟩ := h htrim
  exact ⟨front ++ before, c, by rw [List.append_assoc], hblank⟩

/-- Reading these characters leaves `found`, and without the closing marker it
leaves the same, except that nothing is trimmed. -/
structure Unmarks (read : Nat → Nat → List Char → Except Error ActionTokens) (cs : List Char)
    (found : ActionTokens) (body : List Char) : Prop where
  /-- A marker has a blank before it. -/
  closable : Closable body found.trim
  /-- How many characters are read. -/
  counted : found.count = body.length + ((marker found.trim).length + 2)
  /-- The characters that are read. -/
  taken : cs.take found.count = body ++ (marker found.trim ++ ['\x7d', '\x7d'])
  /-- What is read without the marker. -/
  reads : ∀ (start pos : Nat) (tail : List Char), ∃ found',
    read start pos (body ++ (spacer found.trim ++ '\x7d' :: '\x7d' :: tail)) = .ok found'
      ∧ found'.digest = (found.tokens.map PlacedToken.token, false, found.count)

section
variable {read : Nat → Nat → List Char → Except Error ActionTokens} {cs body : List Char}
  {found : ActionTokens}

theorem Unmarks.eq_append (h : Unmarks read cs found body) :
    cs = body ++ (marker found.trim ++ '\x7d' :: '\x7d' :: cs.drop found.count) := by
  conv => lhs; rw [← List.take_append_drop found.count cs, h.taken]
  simp

/-- What was read starts as what is read without the marker. -/
theorem Unmarks.alike (h : Unmarks read cs found body) (tail : List Char) :
    Alike cs (body ++ (spacer found.trim ++ '\x7d' :: '\x7d' :: tail)) := by
  conv => lhs; rw [h.eq_append]
  exact h.closable.alike _ tail

end

/-- **The tokens of an action do not depend on its closing marker.** -/
theorem actionTokens_unmarked {start pos : Nat} {cs : List Char} {found : ActionTokens}
    (h : actionTokens start pos cs = .ok found) : ∃ body, Unmarks actionTokens cs found body := by
  fun_induction actionTokens start pos cs generalizing found
  case case1 => simp at h
  case case2 pos cs blanks here c rest hrest trim n hclose =>
    obtain rfl := Except.ok.inj h
    obtain ⟨hne, hn, htake⟩ := closing?_eq_some hclose
    have hblanks : AllBlank blanks := allBlank_takeWhile cs
    refine ⟨blanks, closable_blanks hblanks fun htrim => by simpa using hne htrim, ?_, ?_, ?_⟩
    · exact congrArg (blanks.length + ·) hn
    · dsimp only
      rw [take_blanks_add, hrest, htake]
    · intro start pos tail
      have hlead : AllBlank (blanks ++ spacer trim) :=
        List.forall_mem_append.mpr ⟨hblanks, allBlank_spacer trim⟩
      dsimp only
      rw [← List.append_assoc, actionTokens_step hlead (by decide)]
      refine ⟨_, rfl, ?_⟩
      simp [ActionTokens.digest, hn, length_spacer, Nat.add_assoc]
  case case3 => simp at h
  case case4 pos cs blanks here c rest hrest hclose token n hoperand ih =>
    obtain ⟨more, hmore, rfl⟩ := map_eq_ok.mp h
    obtain ⟨body, hbody⟩ := ih hmore
    obtain ⟨hcs, hc⟩ := eq_blanks_cons hrest
    have hlength : (rest.take n).length = n :=
      List.length_take_of_le (hbody.alike []).lt_length.le
    refine ⟨blanks ++ (c :: rest.take n ++ body), ?_, ?_, ?_, ?_⟩
    · exact (hbody.closable.append _).append blanks
    · simp only [List.length_append, List.length_cons, hlength, hbody.counted]
      omega
    · dsimp only
      rw [take_operand_add hrest, hbody.taken]
      simp [blanks]
    · intro start pos tail
      have halike := hbody.alike tail
      have hread := operand_alike hoperand halike
      have hdrop : (rest.take n ++ (body ++ (spacer more.trim ++ '\x7d' :: '\x7d' :: tail))).drop n
          = body ++ (spacer more.trim ++ '\x7d' :: '\x7d' :: tail) :=
        List.drop_left' hlength
      obtain ⟨found', hfound', hdigest⟩ := hbody.reads start
        (pos + Text.width blanks + c.utf8Size + Text.width ((rest.take n
          ++ (body ++ (spacer more.trim ++ '\x7d' :: '\x7d' :: tail))).take n)) tail
      dsimp only
      rw [List.append_assoc, List.append_assoc, List.cons_append,
        actionTokens_step (allBlank_takeWhile cs) hc, closing?_of_operand hread]
      dsimp only
      rw [hread]
      dsimp only
      rw [hdrop, hfound']
      refine ⟨_, rfl, ?_⟩
      obtain ⟨htokens, htrim, hcount⟩ := ActionTokens.digest_eq_iff.mp hdigest
      exact ActionTokens.digest_eq_iff.mpr ⟨congrArg (token :: ·) htokens, htrim,
        congrArg (blanks.length + 1 + n + ·) hcount⟩

/-- What stands at a pair and before it tells where it is. -/
theorem findPair_take {a b : Char} : ∀ {cs : List Char} {n : Nat}, findPair a b cs = some n →
    ∀ tail, findPair a b (cs.take (n + 2) ++ tail) = some n
  | [], n, h, tail => by simp [findPair] at h
  | c :: cs, n, h, tail => by
      rw [findPair] at h
      split at h
      next hpair =>
        obtain rfl := Option.some.inj h
        rw [Bool.and_eq_true, decide_eq_true_eq, beq_iff_eq] at hpair
        obtain ⟨rfl, hhead⟩ := hpair
        obtain ⟨rest, rfl⟩ := List.head?_eq_some_iff.mp hhead
        simp [findPair]
      next hpair =>
        obtain ⟨m, hm, rfl⟩ := Option.map_eq_some_iff.mp h
        have hhead : (cs.take (m + 2) ++ tail).head? = cs.head? := by
          cases cs with
          | nil => simp [findPair] at hm
          | cons d cs => rfl
        rw [List.take_succ_cons, List.cons_append, findPair, hhead, if_neg hpair,
          findPair_take hm tail]
        rfl

theorem length_take_findPair {a b : Char} {cs : List Char} {n : Nat}
    (h : findPair a b cs = some n) : (cs.take (n + 2)).length = n + 2 := by
  have hlength := congrArg List.length (findPair_eq_some h).1
  simp only [List.length_take, List.length_append, List.length_cons, List.length_nil] at hlength ⊢
  omega

/-- **A comment leaves nothing,** whatever its closing marker. -/
theorem comment_unmarked {start : Nat} {cs : List Char} {found : ActionTokens}
    (h : comment start cs = .ok found) :
    ∃ body, Unmarks (fun start _ => comment start) cs found body := by
  unfold comment at h
  split at h
  next => simp at h
  next n hpair =>
    dsimp only at h
    split at h
    next trim k hclose =>
      obtain rfl := Except.ok.inj h
      obtain ⟨hne, hk, htake⟩ := closing?_eq_some hclose
      have hblanks := allBlank_takeWhile (cs.drop (n + 2))
      generalize hrun : (cs.drop (n + 2)).takeWhile isBlank = blanks at *
      refine ⟨cs.take (n + 2) ++ blanks, ?_, ?_, ?_, ?_⟩
      · exact (closable_blanks hblanks fun htrim => by simpa using hne htrim).append _
      · rw [List.length_append, length_take_findPair hpair, hk]
      · dsimp only
        rw [Nat.add_assoc, List.take_add, ← hrun, take_blanks_add, hrun, htake, List.append_assoc]
      · intro start pos tail
        have hlead : AllBlank (blanks ++ spacer trim) :=
          List.forall_mem_append.mpr ⟨hblanks, allBlank_spacer trim⟩
        have hafter : (blanks ++ spacer trim ++ '\x7d' :: '\x7d' :: tail).takeWhile isBlank
            = blanks ++ spacer trim := takeWhile_append_stop hlead (by simp; decide)
        dsimp only
        rw [List.append_assoc, ← List.append_assoc blanks, comment, findPair_take hpair]
        dsimp only
        rw [List.drop_left' (length_take_findPair hpair), hafter, List.drop_left]
        refine ⟨_, rfl, ?_⟩
        simp [ActionTokens.digest, hk, length_spacer, Nat.add_assoc]
    next => simp at h

/-- Reading an action or a comment behind blanks. -/
theorem action_step {lead rest : List Char} (hlead : AllBlank lead)
    (hrest : ∀ c ∈ rest.head?, isBlank c = false) (start pos : Nat) :
    action start pos (lead ++ rest)
      = if ['/', '*'].isPrefixOf rest then
          (comment start rest).map fun found => { found with count := lead.length + found.count }
        else
          (actionTokens start (pos + Text.width lead) rest).map fun found =>
            { found with
              tokens := ⟨start, .leftDelim⟩ :: found.tokens
              count := lead.length + found.count } := by
  unfold action
  rw [takeWhile_append_stop hlead hrest]
  dsimp only
  rw [List.drop_left]

/-- Reading behind blanks, where tokens may be put before. -/
theorem Unmarks.behind {read : Nat → Nat → List Char → Except Error ActionTokens}
    {lead cs body : List Char} {found : ActionTokens} {before : Nat → List PlacedToken}
    (h : Unmarks read cs found body)
    (hread : ∀ start pos rest, Alike cs rest → action start pos (lead ++ rest)
      = (read start (pos + Text.width lead) rest).map fun found =>
        { found with tokens := before start ++ found.tokens, count := lead.length + found.count })
    (hbefore : ∀ start start',
      (before start).map PlacedToken.token = (before start').map PlacedToken.token)
    (start : Nat) : Unmarks action (lead ++ cs)
      { found with tokens := before start ++ found.tokens, count := lead.length + found.count }
      (lead ++ body) := by
  refine ⟨h.closable.append lead, ?_, ?_, fun start' pos tail => ?_⟩
  · simp only [List.length_append, h.counted, Nat.add_assoc]
  · rw [List.take_length_add_append, h.taken, List.append_assoc]
  · obtain ⟨found', hfound', hdigest⟩ := h.reads start' (pos + Text.width lead) tail
    obtain ⟨htokens, htrim, hcount⟩ := ActionTokens.digest_eq_iff.mp hdigest
    rw [List.append_assoc, hread start' pos _ (h.alike tail), hfound']
    refine ⟨_, rfl, ?_⟩
    simp [ActionTokens.digest, htokens, htrim, hcount, hbefore start' start]

/-- **Actions and comments leave the same without their closing markers.** -/
theorem action_unmarked {start pos : Nat} {cs : List Char} {found : ActionTokens}
    (h : action start pos cs = .ok found) : ∃ body, Unmarks action cs found body := by
  have hblanks := allBlank_takeWhile cs
  have hhead : ∀ c ∈ (cs.dropWhile isBlank).head?, isBlank c = false :=
    head?_dropWhile_not isBlank cs
  rw [← @List.takeWhile_append_dropWhile _ isBlank cs] at h ⊢
  generalize cs.takeWhile isBlank = lead at *
  generalize cs.dropWhile isBlank = rest at *
  rw [action_step hblanks hhead] at h
  split at h
  next hopens =>
    obtain ⟨found, hfound, rfl⟩ := map_eq_ok.mp h
    obtain ⟨body, hbody⟩ := comment_unmarked hfound
    refine ⟨_, @Unmarks.behind _ lead _ _ _ (fun _ => []) hbody ?_ (fun _ _ => rfl) start⟩
    intro start pos rest halike
    rw [action_step hblanks (by rwa [halike.head?]), if_pos (by rwa [halike.opensComment])]
    rfl
  next hopens =>
    obtain ⟨found, hfound, rfl⟩ := map_eq_ok.mp h
    obtain ⟨body, hbody⟩ := actionTokens_unmarked hfound
    refine ⟨_, @Unmarks.behind _ lead _ _ _ (fun start => [⟨start, .leftDelim⟩]) hbody ?_
      (fun _ _ => rfl) start⟩
    intro start pos rest halike
    rw [action_step hblanks (by rwa [halike.head?]), if_neg (by rwa [halike.opensComment])]
    rfl

theorem digest_eq_ok {x : Except Error ActionTokens} {d : List Token × Bool × Nat} :
    (unplace x).map ActionTokens.digest = .ok d ↔ ∃ found, x = .ok found ∧ found.digest = d := by
  cases x with
  | error e => simp [Except.map]
  | ok found => simp [Except.map]

theorem digest_eq_error {x : Except Error ActionTokens} {e : Error} :
    (unplace x).map ActionTokens.digest = .error e ↔ ∃ e', x = .error e' ∧ e'.unplaced = e := by
  cases x with
  | error e => simp [Except.map]
  | ok found => simp [Except.map]

/-- Blanks before it make no difference. -/
theorem Unmarks.reads_pad {cs body lead : List Char} {found : ActionTokens}
    (h : Unmarks action cs found body) (hlead : AllBlank lead) (start pos : Nat)
    (tail : List Char) : ∃ found',
    action start pos (lead ++ (body ++ (spacer found.trim ++ '\x7d' :: '\x7d' :: tail)))
        = .ok found'
      ∧ found'.tokens.map PlacedToken.token = found.tokens.map PlacedToken.token
      ∧ found'.trim = false
      ∧ (lead ++ (body ++ (spacer found.trim ++ '\x7d' :: '\x7d' :: tail))).drop found'.count
        = tail := by
  obtain ⟨read, hread, hdigest⟩ := h.reads start pos tail
  have hpad := action_pad hlead start pos start pos
    (body ++ (spacer found.trim ++ '\x7d' :: '\x7d' :: tail))
  rw [hread, unplace_ok] at hpad
  obtain ⟨found', hfound', hdigest'⟩ := digest_eq_ok.mp hpad
  rw [hdigest] at hdigest'
  obtain ⟨htokens, htrim, hcount⟩ := ActionTokens.digest_eq_iff.mp hdigest'
  refine ⟨found', hfound', htokens, htrim, ?_⟩
  rw [hcount, h.counted, ← length_spacer]
  simp [← List.drop_drop]

/-! ## §4. Templates without markers. -/

/-- The characters with a blank at this place, if a marker's hyphen stands
there. -/
def blankAt (marked : Bool) (i : Nat) (cs : List Char) : List Char :=
  if marked then cs.set i ' ' else cs

/-- The template with a blank in the place of the hyphen of every marker.
Markers are what cutting takes for markers: after an action that cannot be cut
there are none. -/
def unmarkedFrom (cs : List Char) : List Char :=
  match _h : findPair '\x7b' '\x7b' cs with
  | none => cs
  | some n =>
      let front := blankAt (opensAt cs n).1 (n + 2) (cs.take (opensAt cs n).2)
      let rest := cs.drop (opensAt cs n).2
      match action 0 0 rest with
      | .error _ => front ++ rest
      | .ok found =>
          front ++ (blankAt found.trim (found.count - 3) (rest.take found.count)
            ++ unmarkedFrom (cs.drop ((opensAt cs n).2 + found.count)))
termination_by cs.length
decreasing_by exact length_drop_opensAt_lt _h found.count

/-- The source of a template with a blank in the place of the hyphen of every
trim marker. -/
def unmark (source : String) : String :=
  String.ofList (unmarkedFrom source.toList)

theorem blankAt_marker {marked : Bool} {i : Nat} {front : List Char}
    (h : marked = true → i = front.length) (back : List Char) :
    blankAt marked i (front ++ (marker marked ++ back)) = front ++ (spacer marked ++ back) := by
  cases marked with
  | false => rfl
  | true => simp [blankAt, marker, spacer, h]

/-- Where an action stands does not tell whether it can be read, nor what it
leaves but for offsets. -/
theorem action_digest (start pos start' pos' : Nat) (cs : List Char) :
    (unplace (action start' pos' cs)).map ActionTokens.digest
      = (unplace (action start pos cs)).map ActionTokens.digest := by
  have h := @action_pad [] (by simp [AllBlank]) start pos start' pos' cs
  rw [List.nil_append] at h
  rw [h]
  cases unplace (action start pos cs) with
  | error e => rfl
  | ok found => simp [Except.map, ActionTokens.digest]

/-- The text, the opening delimiter and its marker. -/
theorem take_opensAt_marker {cs : List Char} {n : Nat} (h : findPair '\x7b' '\x7b' cs = some n) :
    cs.take (opensAt cs n).2 = cs.take (n + 2) ++ marker (opensAt cs n).1 := by
  rw [(take_opensAt h).1, (findPair_eq_some h).1]
  simp

theorem unmarkedFrom_of_none {cs : List Char} (h : findPair '\x7b' '\x7b' cs = none) :
    unmarkedFrom cs = cs := by
  rw [unmarkedFrom.eq_def]
  split
  next => rfl
  next n hn => simp [h] at hn

/-- **With an action,** markers are replaced on both sides of it and in what
follows; behind an action that cannot be read there are none. -/
theorem unmarkedFrom_of_some {cs : List Char} {n : Nat} (h : findPair '\x7b' '\x7b' cs = some n)
    (start pos : Nat) :
    (∃ e, action start pos (cs.drop (opensAt cs n).2) = .error e
      ∧ unmarkedFrom cs
        = cs.take (n + 2) ++ (spacer (opensAt cs n).1 ++ cs.drop (opensAt cs n).2))
    ∨ ∃ found body, action start pos (cs.drop (opensAt cs n).2) = .ok found
      ∧ Unmarks action (cs.drop (opensAt cs n).2) found body
      ∧ unmarkedFrom cs = cs.take (n + 2) ++ (spacer (opensAt cs n).1
        ++ (body ++ (spacer found.trim ++ '\x7d' :: '\x7d'
          :: unmarkedFrom (cs.drop ((opensAt cs n).2 + found.count))))) := by
  have hfront : blankAt (opensAt cs n).1 (n + 2) (cs.take (opensAt cs n).2)
      = cs.take (n + 2) ++ spacer (opensAt cs n).1 := by
    have hblank := @blankAt_marker (opensAt cs n).1 (n + 2) (cs.take (n + 2))
      (fun _ => (length_take_findPair h).symm) []
    rwa [List.append_nil, List.append_nil, ← take_opensAt_marker h] at hblank
  rw [unmarkedFrom.eq_def]
  split
  next hnone => simp [h] at hnone
  next m hm =>
    obtain rfl : n = m := Option.some.inj (h.symm.trans hm)
    dsimp only
    rw [hfront]
    have hsame := action_digest 0 0 start pos (cs.drop (opensAt cs n).2)
    split
    next e he =>
      rw [he] at hsame
      obtain ⟨e', he', -⟩ := digest_eq_error.mp hsame
      exact .inl ⟨e', he', List.append_assoc _ _ _⟩
    next found hfound =>
      rw [hfound] at hsame
      obtain ⟨found', hfound', hdigest⟩ := digest_eq_ok.mp hsame
      obtain ⟨-, htrim, hcount⟩ := ActionTokens.digest_eq_iff.mp hdigest
      obtain ⟨body, hbody⟩ := action_unmarked hfound'
      refine .inr ⟨found', body, hfound', hbody, ?_⟩
      have hlast : found'.trim = true → found'.count - 3 = body.length := by
        intro hmarked
        simp [hbody.counted, hmarked, marker]
      rw [← htrim, ← hcount, hbody.taken, blankAt_marker hlast]
      simp

/-- An opening delimiter has no marker once the hyphen is a blank, nor does it
get one. -/
theorem opensAt_unmarked {cs more : List Char} {n : Nat}
    (h : findPair '\x7b' '\x7b' cs = some n)
    (hmore : opensWithTrim more = opensWithTrim (cs.drop (opensAt cs n).2)) :
    opensAt (cs.take (n + 2) ++ (spacer (opensAt cs n).1 ++ more)) n = (false, n + 2) := by
  have hdrop : (cs.take (n + 2) ++ (spacer (opensAt cs n).1 ++ more)).drop (n + 2)
      = spacer (opensAt cs n).1 ++ more := List.drop_left' (length_take_findPair h)
  have hopens : opensWithTrim (spacer (opensAt cs n).1 ++ more) = false := by
    cases hmarked : (opensAt cs n).1 with
    | true => rfl
    | false =>
      have hplain : opensWithTrim (cs.drop (n + 2)) = false := hmarked
      rw [opensAt, hplain] at hmore
      exact hmore.trans hplain
  rw [opensAt, hdrop, hopens]
  rfl

/-- Cutting at that delimiter; the offsets do not matter. -/
theorem tokensFrom_opensAt_unmarked {cs more : List Char} {n : Nat}
    (h : findPair '\x7b' '\x7b' cs = some n)
    (hmore : opensWithTrim more = opensWithTrim (cs.drop (opensAt cs n).2)) (pos : Nat)
    (trim : Bool) : ∃ (start inside : Nat) (next : ActionTokens → Nat),
    tokensFrom pos trim (cs.take (n + 2) ++ (spacer (opensAt cs n).1 ++ more))
      = action start inside (spacer (opensAt cs n).1 ++ more) >>= fun found =>
        (tokensFrom (next found) found.trim
          ((spacer (opensAt cs n).1 ++ more).drop found.count)).map fun later =>
            textTokens pos trim false (cs.take n) ++ found.tokens ++ later := by
  have htwo := length_take_findPair h
  have hbefore : (cs.take (n + 2) ++ (spacer (opensAt cs n).1 ++ more)).take n = cs.take n := by
    rw [List.take_append_of_le_length (by omega), List.take_take, min_eq_left (by omega)]
  generalize hunmarked : cs.take (n + 2) ++ (spacer (opensAt cs n).1 ++ more) = unmarked at *
  refine ⟨pos + Text.width (cs.take n), pos + Text.width (unmarked.take (n + 2)),
    fun found => pos + Text.width (unmarked.take (n + 2 + found.count)), ?_⟩
  have hfind : findPair '\x7b' '\x7b' unmarked = some n := hunmarked ▸ findPair_take h _
  have hopens : opensAt unmarked n = (false, n + 2) := hunmarked ▸ opensAt_unmarked h hmore
  have hdrop : unmarked.drop (n + 2) = spacer (opensAt cs n).1 ++ more := by
    rw [← hunmarked]
    exact List.drop_left' htwo
  rw [tokensFrom_of_some hfind, hopens, hbefore]
  simp only [← List.drop_drop, hdrop]

/-- What trimming leaves of a text settles as the text does. -/
theorem settleTokens_textTokens (pos : Nat) (trimLeft trimRight : Bool) (raw : List Char) :
    settleTokens (textTokens pos trimLeft trimRight raw)
      = (settledText? (String.ofList raw)).toList.map fun kept => ⟨0, .text kept⟩ := by
  obtain ⟨lead, kept, trail, rfl, hlead, htrail, htokens⟩ :=
    exists_textTokens pos trimLeft trimRight raw
  have hkept : settledText? (String.ofList (lead ++ (kept ++ trail)))
      = settledText? (String.ofList kept) := by
    simp only [settledText?, String.toList_ofList, trim_pad hlead htrail]
  rw [htokens, hkept]
  split
  next hnil =>
    rw [hnil]
    rfl
  next =>
    rw [settleTokens, List.filterMap_cons, Token.settled?]
    cases settledText? (String.ofList kept) with
    | none => rfl
    | some content => rfl

/-- **A template without its markers is cut into the same settled tokens,** or
for the same reason into none. -/
theorem tokensFrom_unmarked (pos pos' : Nat) (trim : Bool) (cs : List Char) :
    (unplace (tokensFrom pos' false (unmarkedFrom cs))).map settleTokens
      = (unplace (tokensFrom pos trim cs)).map settleTokens := by
  induction hlen : cs.length using Nat.strong_induction_on generalizing cs pos pos' trim with
  | h len ih =>
    subst hlen
    cases hpair : findPair '\x7b' '\x7b' cs with
    | none =>
      rw [unmarkedFrom_of_none hpair, tokensFrom_of_none hpair, tokensFrom_of_none hpair]
      refine congrArg Except.ok ?_
      rw [settleTokens_append, settleTokens_append, settleTokens_textTokens,
        settleTokens_textTokens]
      rfl
    | some n =>
      rw [@tokensFrom_of_some pos trim cs n hpair]
      rcases unmarkedFrom_of_some hpair (pos + Text.width (cs.take n))
          (pos + Text.width (cs.take (opensAt cs n).2)) with
        ⟨e, he, hunmarked⟩ | ⟨found, body, hfound, hbody, hunmarked⟩
      · -- the action fails behind one more blank as it did
        obtain ⟨start, inside, next, hstep⟩ :=
          tokensFrom_opensAt_unmarked hpair rfl pos' false
        have hpad := action_pad (allBlank_spacer (opensAt cs n).1) (pos + Text.width (cs.take n))
          (pos + Text.width (cs.take (opensAt cs n).2)) start inside (cs.drop (opensAt cs n).2)
        rw [he] at hpad
        obtain ⟨e', he', hsame⟩ := digest_eq_error.mp hpad
        rw [hunmarked, hstep, he, he']
        exact congrArg Except.error hsame
      · -- the action ends where it did, and what it trims does not matter
        generalize hrest : cs.drop ((opensAt cs n).2 + found.count) = rest at *
        obtain ⟨start, inside, next, hstep⟩ := tokensFrom_opensAt_unmarked hpair
          (hbody.alike (unmarkedFrom rest)).opensWithTrim pos' false
        obtain ⟨found', hfound', htokens, htrim, hdrop⟩ :=
          hbody.reads_pad (allBlank_spacer (opensAt cs n).1) start inside (unmarkedFrom rest)
        have hlater := ih rest.length (hrest ▸ length_drop_opensAt_lt hpair found.count)
          (pos + Text.width (cs.take ((opensAt cs n).2 + found.count))) (next found') found.trim
          rest rfl
        rw [hunmarked, hstep, hfound, hfound', ok_bind, ok_bind, htrim, hdrop, hrest,
          unplace_map_view settleTokens (fun later =>
            settleTokens (textTokens pos' false false (cs.take n) ++ found'.tokens) ++ later)
            fun later => settleTokens_append _ later,
          unplace_map_view settleTokens (fun later =>
            settleTokens (textTokens pos trim (opensAt cs n).1 (cs.take n) ++ found.tokens)
              ++ later) fun later => settleTokens_append _ later, hlater]
        rw [settleTokens_append, settleTokens_append, settleTokens_textTokens,
          settleTokens_textTokens, settleTokens_congr htokens]

/-- The character, or a blank instead of a hyphen. -/
def OrBlanked (c d : Char) : Prop :=
  d = c ∨ c = '-' ∧ d = ' '

theorem orBlanked_refl (cs : List Char) : List.Forall₂ OrBlanked cs cs :=
  List.forall₂_same.mpr fun _ _ => .inl rfl

theorem orBlanked_spacer (marked : Bool) :
    List.Forall₂ OrBlanked (marker marked) (spacer marked) := by
  cases marked with
  | false => exact .nil
  | true => exact .cons (.inr ⟨rfl, rfl⟩) .nil

/-- **Only hyphens are replaced,** and by blanks. -/
theorem unmarkedFrom_orBlanked (cs : List Char) :
    List.Forall₂ OrBlanked cs (unmarkedFrom cs) := by
  induction hlen : cs.length using Nat.strong_induction_on generalizing cs with
  | h len ih =>
    subst hlen
    cases hpair : findPair '\x7b' '\x7b' cs with
    | none =>
      rw [unmarkedFrom_of_none hpair]
      exact orBlanked_refl cs
    | some n =>
      have hcs : cs = cs.take (n + 2) ++ (marker (opensAt cs n).1 ++ cs.drop (opensAt cs n).2) := by
        conv => lhs; rw [← List.take_append_drop (opensAt cs n).2 cs, take_opensAt_marker hpair]
        rw [List.append_assoc]
      have hfront {xs ys : List Char} (h : List.Forall₂ OrBlanked xs ys) :
          List.Forall₂ OrBlanked (cs.take (n + 2) ++ (marker (opensAt cs n).1 ++ xs))
            (cs.take (n + 2) ++ (spacer (opensAt cs n).1 ++ ys)) :=
        List.rel_append (orBlanked_refl _) (List.rel_append (orBlanked_spacer _) h)
      rcases unmarkedFrom_of_some hpair 0 0 with
        ⟨e, he, hunmarked⟩ | ⟨found, body, hfound, hbody, hunmarked⟩
      · rw [hunmarked]
        conv => lhs; rw [hcs]
        exact hfront (orBlanked_refl _)
      · have hlater := ih _ (length_drop_opensAt_lt hpair found.count) _ rfl
        rw [hunmarked]
        conv => lhs; rw [hcs, hbody.eq_append, List.drop_drop]
        exact hfront (List.rel_append (orBlanked_refl _) (List.rel_append (orBlanked_spacer _)
          (.cons (.inl rfl) (.cons (.inl rfl) hlater))))

/-- Nothing is replaced in an action without markers that has none after it. -/
theorem unmarkedFrom_eq_self {cs rest : List Char} {n : Nat}
    (h : findPair '\x7b' '\x7b' cs = some n) (hopens : opensAt cs n = (false, n + 2))
    (hdrop : cs.drop (n + 2) = rest)
    (hrest : ∀ found, action 0 0 rest = .ok found →
      found.trim = false ∧ unmarkedFrom (rest.drop found.count) = rest.drop found.count) :
    unmarkedFrom cs = cs := by
  have hstep := unmarkedFrom_of_some h 0 0
  simp only [hopens, ← List.drop_drop, hdrop] at hstep
  conv => rhs; rw [← List.take_append_drop (n + 2) cs, hdrop]
  rcases hstep with ⟨e, he, hunmarked⟩ | ⟨found, body, hfound, hbody, hunmarked⟩
  · exact hunmarked
  · obtain ⟨htrim, hlater⟩ := hrest found hfound
    have hsplit := hbody.eq_append
    rw [htrim] at hsplit
    rw [hunmarked, hlater, htrim]
    exact congrArg (cs.take (n + 2) ++ ·) hsplit.symm

/-- **No marker is left.** -/
theorem unmarkedFrom_unmarkedFrom (cs : List Char) :
    unmarkedFrom (unmarkedFrom cs) = unmarkedFrom cs := by
  induction hlen : cs.length using Nat.strong_induction_on generalizing cs with
  | h len ih =>
    subst hlen
    cases hpair : findPair '\x7b' '\x7b' cs with
    | none => rw [unmarkedFrom_of_none hpair, unmarkedFrom_of_none hpair]
    | some n =>
      have hdrop (more : List Char) : (cs.take (n + 2) ++ more).drop (n + 2) = more :=
        List.drop_left' (length_take_findPair hpair)
      rcases unmarkedFrom_of_some hpair 0 0 with
        ⟨e, he, hunmarked⟩ | ⟨found, body, hfound, hbody, hunmarked⟩
      · rw [hunmarked]
        refine unmarkedFrom_eq_self (findPair_take hpair _) (opensAt_unmarked hpair rfl)
          (hdrop _) fun found hfound => ?_
        -- it could not be read with its marker either
        have hpad := action_pad (allBlank_spacer (opensAt cs n).1) 0 0 0 0
          (cs.drop (opensAt cs n).2)
        rw [he, hfound] at hpad
        nomatch hpad
      · rw [hunmarked]
        refine unmarkedFrom_eq_self (findPair_take hpair _)
          (opensAt_unmarked hpair (hbody.alike _).opensWithTrim) (hdrop _) fun read hread => ?_
        obtain ⟨found', hfound', -, htrim, hlater⟩ :=
          hbody.reads_pad (allBlank_spacer (opensAt cs n).1) 0 0
            (unmarkedFrom (cs.drop ((opensAt cs n).2 + found.count)))
        obtain rfl : found' = read := Except.ok.inj (hfound'.symm.trans hread)
        rw [hlater]
        exact ⟨htrim, ih _ (length_drop_opensAt_lt hpair found.count) _ rfl⟩

end Stencil.Template
