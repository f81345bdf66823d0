/-
  Stencil.Proofs.Schema.Grammar
  ─────────────────────────────
  THE GRAMMAR OF TYPE EXPRESSIONS, and that reading accepts exactly it.

      type    := base suffix*
      base    := scalar | ("record" | "tuple") "(" member ("," member)* ")" | name
      member  := type word
      suffix  := "[" "]" | "[" digits "]"

  The grammar is said in two layers, neither of which mentions the reader:
  `Spaced` cuts a text into lexemes, with blanks between them and every
  lexeme as long as it can be; `Derives` builds a type from lexemes, with the
  side conditions on members and sizes.

    • `lexemes_eq_iff` — cutting finds the one sequence a text is spaced into,
    • `readType_sound`, `readType_of_derives` — the reader against `Derives`,
    • `read_eq_ok_iff` — a text is read as a type exactly if the grammar
      derives that type from it.
-/
import Stencil.Schema.TypeExpr
import Stencil.Proofs.Outcome
import Stencil.Proofs.Schema.Keyword

namespace Stencil.Schema

open Text (isBlank isWordStart isWordChar isIdentifier width)
open Outcome

/-! ## §1. Texts as lexemes. -/

/-- The characters of a lexeme. -/
def Lexeme.chars : Lexeme → List Char
  | word text => text.toList
  | digits ds => ds
  | mark char => [char]

/-- What a lexeme can be: an identifier, a run of digits, or one character
that starts neither of them. -/
def Lexeme.Proper : Lexeme → Prop
  | word text => isIdentifier text = true
  | digits ds => ds ≠ [] ∧ ∀ c ∈ ds, c.isDigit = true
  | mark char => isBlank char = false ∧ isWordStart char = false ∧ char.isDigit = false

/-- Would the lexeme go on with this character? -/
def Lexeme.takes : Lexeme → Char → Bool
  | word _, c => isWordChar c
  | digits _, c => c.isDigit
  | mark _, _ => false

/-- The text consists of these lexemes with blanks around them, and no lexeme
would go on with the character after it. -/
inductive Spaced : List Char → List Lexeme → Prop
  /-- Blanks hold no lexeme. -/
  | done {blanks : List Char} (hb : ∀ c ∈ blanks, isBlank c = true) : Spaced blanks []
  /-- Blanks, a lexeme, and what follows it. -/
  | next {blanks rest : List Char} {l : Lexeme} {ls : List Lexeme}
      (hb : ∀ c ∈ blanks, isBlank c = true) (hl : l.Proper)
      (hstop : ∀ c ∈ rest.head?, l.takes c = false) (h : Spaced rest ls) :
      Spaced (blanks ++ (l.chars ++ rest)) (l :: ls)

/-- A blank in front changes nothing. -/
theorem Spaced.blank {c : Char} {cs : List Char} {ls : List Lexeme}
    (hc : isBlank c = true) (h : Spaced cs ls) : Spaced (c :: cs) ls := by
  have hcons : ∀ {blanks : List Char}, (∀ c ∈ blanks, isBlank c = true) →
      ∀ d ∈ c :: blanks, isBlank d = true := by
    intro blanks hb d hd
    rcases List.mem_cons.mp hd with rfl | hd
    · exact hc
    · exact hb d hd
  -- the blank joins those before the first lexeme, or those at the end
  cases h with
  | done hb => exact .done (hcons hb)
  | next hb hl hstop h => exact @Spaced.next (c :: _) _ _ _ (hcons hb) hl hstop h

/-- All lexemes of a spaced text are proper. -/
theorem Spaced.proper {cs : List Char} {ls : List Lexeme} (h : Spaced cs ls) :
    ∀ l ∈ ls, l.Proper := by
  induction h with
  | done => simp
  | next _ hl _ _ ih =>
    intro l hmem
    rcases List.mem_cons.mp hmem with rfl | hmem
    · exact hl
    · exact ih l hmem

/-! ## §2. Cutting a text finds its lexemes. -/

theorem toNat_of_isDigit {c : Char} (h : c.isDigit = true) : 48 ≤ c.toNat ∧ c.toNat ≤ 57 := by
  simp only [Char.isDigit, Bool.and_eq_true, decide_eq_true_eq] at h
  exact ⟨h.1, h.2⟩

/-- A word starts with a letter or an underscore. -/
theorem toNat_of_isWordStart {c : Char} (h : isWordStart c = true) :
    (65 ≤ c.toNat ∧ c.toNat ≤ 90) ∨ (97 ≤ c.toNat ∧ c.toNat ≤ 122) ∨ c.toNat = 95 := by
  have hcases : isWordStart c
      = (decide (c.val ≥ 65 ∧ c.val ≤ 90) || (c.val ≥ 97 && c.val ≤ 122) || c == '_') := rfl
  rw [hcases] at h
  simp only [Bool.or_eq_true, Bool.and_eq_true, decide_eq_true_eq, beq_iff_eq] at h
  rcases h with (h | h) | rfl
  · exact .inl ⟨h.1, h.2⟩
  · exact .inr (.inl ⟨h.1, h.2⟩)
  · exact .inr (.inr rfl)

/-- No letter, digit or underscore is blank. -/
theorem isBlank_of_isWordChar {c : Char} (h : isWordChar c = true) : isBlank c = false := by
  have hn : (48 ≤ c.toNat ∧ c.toNat ≤ 57) ∨ (65 ≤ c.toNat ∧ c.toNat ≤ 90)
      ∨ (97 ≤ c.toNat ∧ c.toNat ≤ 122) ∨ c.toNat = 95 := by
    simp only [isWordChar, Char.isAlphanum, Bool.or_eq_true] at h
    rcases h with (h | h) | h
    · exact .inr (toNat_of_isWordStart (by simp [isWordStart, h]))
    · exact .inl (toNat_of_isDigit h)
    · exact .inr (toNat_of_isWordStart (by simp [isWordStart, h]))
  simp only [isBlank, Bool.or_eq_false_iff, Bool.and_eq_false_iff, decide_eq_false_iff_not,
    beq_eq_false_iff_ne, ne_eq]
  omega

theorem isWordChar_of_isDigit {c : Char} (h : c.isDigit = true) : isWordChar c = true := by
  simp [isWordChar, Char.isAlphanum, h]

/-- An identifier followed by a number is an identifier. -/
theorem isIdentifier_append_toString {word : String} (h : isIdentifier word = true) (n : Nat) :
    isIdentifier (word ++ toString n) = true := by
  have hdigits : ∀ c ∈ (toString n).toList, isWordChar c = true :=
    fun c hc => isWordChar_of_isDigit (isDigit_of_mem_toString hc)
  unfold isIdentifier at h ⊢
  rw [String.toList_append]
  cases hw : word.toList with
  | nil => simp [hw] at h
  | cons c cs =>
    rw [hw] at h
    simp only [Bool.and_eq_true, List.all_eq_true, List.cons_append] at h ⊢
    refine ⟨h.1, fun d hd => ?_⟩
    rcases List.mem_append.mp hd with hd | hd
    · exact h.2 d hd
    · exact hdigits d hd

/-- Canonical names of elementary types are identifiers. -/
theorem isIdentifier_of_isCanonical {name : String} (h : IsCanonical name) :
    isIdentifier name = true := by
  obtain ⟨word, hk⟩ := h
  cases hk with
  | plain h =>
    simp only [List.mem_cons, List.not_mem_nil, or_false] at h
    rcases h with rfl | rfl | rfl | rfl <;> decide
  | uint => decide
  | int => decide
  | unsigned k => exact isIdentifier_append_toString (by decide) (8 * k)
  | signed k => exact isIdentifier_append_toString (by decide) (8 * k)
  | sizedBytes k => exact isIdentifier_append_toString (by decide) k

/-- What a run leaves out is what follows it. -/
theorem drop_length_takeWhile {α : Type} (p : α → Bool) (cs : List α) :
    cs.drop (cs.takeWhile p).length = cs.dropWhile p := by
  conv => lhs; rw [← List.takeWhile_append_dropWhile (p := p) (l := cs)]
  rw [List.drop_left']
  rw [List.takeWhile_append_dropWhile]

/-- A run stops where its class does. -/
theorem head?_dropWhile_not {α : Type} (p : α → Bool) (cs : List α) :
    ∀ c ∈ (cs.dropWhile p).head?, p c = false := by
  induction cs with
  | nil => simp
  | cons a as ih =>
    rw [List.dropWhile_cons]
    split
    · exact ih
    · rename_i ha
      intro c hc
      obtain rfl : a = c := by simpa using hc
      simpa using ha

/-- The first lexeme of a text: proper, spelled by the text's beginning, and
as long as it can be. -/
theorem first_spec (c : Char) (cs : List Char) (hc : isBlank c = false) :
    (Lexeme.first c cs).1.Proper
      ∧ c :: cs = (Lexeme.first c cs).1.chars ++ cs.drop (Lexeme.first c cs).2
      ∧ ∀ d ∈ (cs.drop (Lexeme.first c cs).2).head?, (Lexeme.first c cs).1.takes d = false := by
  unfold Lexeme.first
  split
  next hw =>
    -- a word takes all word characters that follow its first
    simp only [Lexeme.Proper, Lexeme.chars, Lexeme.takes, drop_length_takeWhile]
    refine ⟨?_, ?_, head?_dropWhile_not _ _⟩
    · simp only [isIdentifier, String.toList_ofList, hw, Bool.true_and, List.all_eq_true]
      exact List.all_eq_true.mp List.all_takeWhile
    · rw [String.toList_ofList, List.cons_append, List.takeWhile_append_dropWhile]
  next hw =>
    split
    next hd =>
      -- a run of digits does so with digits; any other character stands alone
      simp only [Lexeme.Proper, Lexeme.chars, Lexeme.takes, drop_length_takeWhile]
      refine ⟨⟨by simp, ?_⟩, ?_, head?_dropWhile_not _ _⟩
      · intro x hx
        rcases List.mem_cons.mp hx with rfl | hx
        · exact hd
        · exact List.all_eq_true.mp List.all_takeWhile x hx
      · rw [List.cons_append, List.takeWhile_append_dropWhile]
    next hd =>
      refine ⟨⟨hc, by simpa using hw, by simpa using hd⟩, rfl, ?_⟩
      intro d _
      rfl

/-- The lexemes found space the text. -/
theorem spaced_lexemes (pos : Nat) (cs : List Char) :
    Spaced cs ((lexemes pos cs).map (·.lexeme)) := by
  fun_induction lexemes pos cs with
  | case1 pos => exact .done (by simp)
  | case2 pos c cs hc ih => exact ih.blank hc
  | case3 pos c cs hc lexeme count hfirst stop ih =>
    obtain ⟨hl, hcs, hstop⟩ := first_spec c cs (by simpa using hc)
    rw [hfirst] at hl hcs hstop
    rw [hcs]
    exact @Spaced.next [] _ _ _ (by simp) hl hstop ih

/-- A run that is all of its class, before something that is not. -/
theorem takeWhile_append_stop {α : Type} {p : α → Bool} {more rest : List α}
    (hall : ∀ c ∈ more, p c = true) (hstop : ∀ c ∈ rest.head?, p c = false) :
    (more ++ rest).takeWhile p = more := by
  rw [List.takeWhile_append_of_pos hall]
  cases rest with
  | nil => simp
  | cons a as =>
    have ha : p a = false := hstop a (by simp)
    simp [ha]

/-- A proper lexeme is cut off again as it was put. -/
theorem first_chars {l : Lexeme} {c : Char} {more rest : List Char} (hl : l.Proper)
    (hchars : l.chars = c :: more) (hstop : ∀ d ∈ rest.head?, l.takes d = false) :
    Lexeme.first c (more ++ rest) = (l, more.length) := by
  unfold Lexeme.first
  cases l with
  | word text =>
    simp only [Lexeme.chars] at hchars
    simp only [Lexeme.Proper, isIdentifier, hchars, Bool.and_eq_true, List.all_eq_true] at hl
    rw [if_pos hl.1]
    simp only [takeWhile_append_stop hl.2 hstop, ← hchars, String.ofList_toList]
  | digits ds =>
    simp only [Lexeme.chars] at hchars
    subst hchars
    have hc : c.isDigit = true := hl.2 c (by simp)
    have hw : ¬ (isWordStart c = true) := by
      intro hstart
      have hdigit := toNat_of_isDigit hc
      have hword := toNat_of_isWordStart hstart
      omega
    rw [if_neg hw, if_pos hc]
    have hmore : ∀ x ∈ more, x.isDigit = true := fun x hx => hl.2 x (by simp [hx])
    simp only [takeWhile_append_stop hmore hstop]
  | mark char =>
    simp only [Lexeme.chars, List.cons.injEq] at hchars
    obtain ⟨rfl, rfl⟩ := hchars
    obtain ⟨-, hw, hd⟩ := hl
    simp [hw, hd]

/-- A proper lexeme has a first character, and that is no blank. -/
theorem exists_chars_cons {l : Lexeme} (hl : l.Proper) :
    ∃ c more, l.chars = c :: more ∧ isBlank c = false := by
  cases l with
  | word text =>
    simp only [Lexeme.Proper, isIdentifier] at hl
    split at hl
    next => simp at hl
    next c cs heq =>
      simp only [Bool.and_eq_true] at hl
      exact ⟨c, cs, heq, isBlank_of_isWordChar (Text.isWordChar_of_isWordStart hl.1)⟩
  | digits ds =>
    obtain ⟨hne, hall⟩ := hl
    cases ds with
    | nil => exact absurd rfl hne
    | cons c cs =>
      exact ⟨c, cs, rfl, isBlank_of_isWordChar (isWordChar_of_isDigit (hall c (by simp)))⟩
  | mark char => exact ⟨char, [], rfl, hl.1⟩

/-- Cutting passes over blanks. -/
theorem lexemes_blanks {blanks : List Char} (hb : ∀ c ∈ blanks, isBlank c = true)
    (pos : Nat) (cs : List Char) :
    ∃ pos', lexemes pos (blanks ++ cs) = lexemes pos' cs := by
  induction blanks generalizing pos with
  | nil => exact ⟨pos, rfl⟩
  | cons c rest ih =>
    rw [List.cons_append, lexemes, if_pos (hb c (by simp))]
    exact ih (fun d hd => hb d (by simp [hd])) _

/-- A text is cut into the lexemes it is spaced into. -/
theorem map_lexemes_of_spaced {cs : List Char} {ls : List Lexeme} (h : Spaced cs ls) :
    ∀ pos, (lexemes pos cs).map (·.lexeme) = ls := by
  induction h with
  | done hb =>
    intro pos
    obtain ⟨pos', hpos⟩ := lexemes_blanks hb pos []
    rw [List.append_nil] at hpos
    rw [hpos, lexemes, List.map_nil]
  | @next blanks rest l ls hb hl hstop _ ih =>
    intro pos
    obtain ⟨pos', hpos⟩ := lexemes_blanks hb pos (l.chars ++ rest)
    obtain ⟨c, more, hchars, hc⟩ := exists_chars_cons hl
    have hfirst := first_chars hl hchars hstop
    -- the first lexeme is cut off as it was put, and the rest is the induction's
    rw [hpos, hchars, List.cons_append, lexemes, if_neg (by simp [hc])]
    simp only [hfirst, List.map_cons, List.drop_left, ih]

/-- **Cutting finds the one sequence of lexemes a text is spaced into.** -/
theorem lexemes_eq_iff {pos : Nat} {cs : List Char} {ls : List Lexeme} :
    (lexemes pos cs).map (·.lexeme) = ls ↔ Spaced cs ls :=
  ⟨fun h => h ▸ spaced_lexemes pos cs, fun h => map_lexemes_of_spaced h pos⟩

/-! ## §3. Types from lexemes. -/

/-- What the grammar derives: a type, or the members of a record. -/
inductive Phrase where
  /-- A type. -/
  | type (expr : TypeExpr)
  /-- Members in order. -/
  | members (list : List (String × TypeExpr))

/-- The grammar, rule by rule. -/
inductive Derives : List Lexeme → Phrase → Prop
  /-- A keyword is an elementary type. -/
  | scalar {w name : String} (hk : Keyword w name) : Derives [.word w] (.type (.scalar name))
  /-- Any other word refers to a named type. -/
  | reference {w : String} (hr : isRecordWord w = false) (hk : ∀ name, ¬ Keyword w name) :
      Derives [.word w] (.type (.reference w))
  /-- A record has members of different names. -/
  | record {w : String} {ls : List Lexeme} {ms : List (String × TypeExpr)}
      (hw : isRecordWord w = true) (h : Derives ls (.members ms))
      (hd : (ms.map Prod.fst).Nodup) :
      Derives (.word w :: .mark '(' :: (ls ++ [.mark ')'])) (.type (.record ms))
  /-- A pair of brackets makes a sequence. -/
  | sequence {ls : List Lexeme} {e : TypeExpr} (h : Derives ls (.type e)) :
      Derives (ls ++ [.mark '[', .mark ']']) (.type (.sequence e))
  /-- A size in brackets makes an array of that size. -/
  | fixed {ls : List Lexeme} {e : TypeExpr} {ds : List Char} (h : Derives ls (.type e))
      (low : 0 < decimalValue ds) (high : decimalValue ds < sizeLimit) :
      Derives (ls ++ [.mark '[', .digits ds, .mark ']']) (.type (.fixed e (decimalValue ds)))
  /-- A record has at least one member. -/
  | one {ls : List Lexeme} {t : TypeExpr} {n : String} (h : Derives ls (.type t)) :
      Derives (ls ++ [.word n]) (.members [(n, t)])
  /-- Members are separated by commas. -/
  | more {ls rest : List Lexeme} {t : TypeExpr} {n : String} {ms : List (String × TypeExpr)}
      (h : Derives ls (.type t)) (hs : Derives rest (.members ms)) :
      Derives (ls ++ .word n :: .mark ',' :: rest) (.members ((n, t) :: ms))

/-- The text is a type expression of the grammar, and this is its type. -/
def InGrammar (source : String) (expr : TypeExpr) : Prop :=
  ∃ ls, Spaced source.toList ls ∧ Derives ls (.type expr)

/-! ## §4. What is read is in the grammar. -/

/-- The lexemes of placed lexemes. -/
def plain (ps : List PlacedLexeme) : List Lexeme :=
  ps.map (·.lexeme)

@[simp] theorem plain_nil : plain [] = [] := rfl

@[simp] theorem plain_cons (p : PlacedLexeme) (ps : List PlacedLexeme) :
    plain (p :: ps) = p.lexeme :: plain ps := rfl

@[simp] theorem plain_append (ps qs : List PlacedLexeme) :
    plain (ps ++ qs) = plain ps ++ plain qs := by
  simp [plain]

/-- Suffixes extend what was derived before them. -/
theorem readSuffixes_sound {ty e : TypeExpr} {refs : List String} {finish : Nat}
    {ps : List PlacedLexeme} {c : Cursor} {before : List Lexeme}
    (hty : Derives before (.type ty))
    (h : readSuffixes ty refs finish ps = .ok (e, c)) :
    ∃ used, ps = used ++ c.rest ∧ Derives (before ++ plain used) (.type e) := by
  -- the type so far is derived from all before the suffix that comes next
  fun_induction readSuffixes ty refs finish ps generalizing before with
  | case1 ty start stop start' stop' rest ih =>
    obtain ⟨used, rfl, hd⟩ := ih (.sequence hty) h
    exact ⟨_ :: _ :: used, rfl, by simpa using hd⟩
  | case2 => simp at h
  | case3 => simp at h
  | case4 ty start stop digits start' stop' size hlimit hzero start'' stop'' rest =>
    rename_i ih
    obtain ⟨used, rfl, hd⟩ := ih (.fixed hty (by omega) (by omega)) h
    exact ⟨_ :: _ :: _ :: used, rfl, by simpa using hd⟩
  | case5 => simp at h
  | case6 => simp at h
  | case7 ty rest =>
    simp only [Except.ok.injEq, Prod.mk.injEq] at h
    obtain ⟨rfl, rfl⟩ := h
    exact ⟨[], rfl, by simpa using hty⟩

/-- Passing a lexeme leaves what follows it. -/
theorem Cursor.rest_skip {c : Cursor} {p : PlacedLexeme} {rest : List PlacedLexeme}
    (h : c.rest = p :: rest) : c.skip.rest = rest := by
  simp [Cursor.skip, h]

/-- A word that is read is the next lexeme. -/
theorem Cursor.word_eq_ok {c c' : Cursor} {text : String} {stop : Nat}
    (h : c.word = .ok (text, stop, c')) :
    c' = c.skip ∧ ∃ start rest, c.rest = ⟨.word text, start, stop⟩ :: rest := by
  unfold Cursor.word at h
  split at h
  next text' start stop' rest heq =>
    simp only [Except.ok.injEq, Prod.mk.injEq] at h
    obtain ⟨rfl, rfl, rfl⟩ := h
    exact ⟨rfl, start, rest, heq⟩
  next => simp at h

/-- A character that is read is the next lexeme. -/
theorem Cursor.mark_eq_ok {c c' : Cursor} {char : Char} (h : c.mark char = .ok c') :
    c' = c.skip ∧ ∃ start stop rest, c.rest = ⟨.mark char, start, stop⟩ :: rest := by
  unfold Cursor.mark at h
  split at h
  next hp =>
    simp only [Except.ok.injEq] at h
    obtain ⟨⟨l, start, stop⟩, hhead, hl⟩ := Option.map_eq_some_iff.mp hp
    obtain ⟨rest, hrest⟩ := List.head?_eq_some_iff.mp hhead
    exact ⟨h.symm, start, stop, rest, by rw [hrest]; simpa using hl⟩
  next => simp at h

mutual
/-- **What is read as a type is derived as one.** -/
theorem readType_sound : ∀ {fuel : Nat} {c c' : Cursor} {e : TypeExpr},
    (∀ p ∈ c.rest, p.lexeme.Proper) → readType fuel c = .ok (e, c') →
    ∃ used, c.rest = used ++ c'.rest ∧ Derives (plain used) (.type e)
  | 0, c, c', e, _, h => by simp [readType] at h
  | fuel + 1, c, c', e, hp, h => by
      rw [readType] at h
      obtain ⟨⟨word, stop, c₁⟩, hword, h⟩ := bind_eq_ok.mp h
      obtain ⟨rfl, start, rest, hrest⟩ := Cursor.word_eq_ok hword
      have hskip := Cursor.rest_skip hrest
      -- a proper word is an identifier, which the lookup of keywords needs
      have hid : isIdentifier word = true :=
        hp ⟨.word word, start, stop⟩ (by rw [hrest]; exact List.mem_cons_self)
      dsimp only at h
      split at h
      next hrecord =>
        obtain ⟨c₂, hmark, h⟩ := bind_eq_ok.mp h
        obtain ⟨rfl, start', stop', rest', hrest'⟩ := Cursor.mark_eq_ok hmark
        split at h
        next => simp at h
        next =>
          obtain ⟨⟨ms, c₃⟩, hmembers, h⟩ := bind_eq_ok.mp h
          have hskip' := Cursor.rest_skip hrest'
          have hp' : ∀ p ∈ c.skip.skip.rest, p.lexeme.Proper := by
            rw [hskip']
            rw [hskip] at hrest'
            intro p hmem
            exact hp p (by rw [hrest, hrest']; simp [hmem])
          obtain ⟨used, new, s, t, hused, rfl, hd, hnew⟩ :=
            readMembers_sound hp' hmembers (by simp)
          obtain ⟨used', hused', he⟩ := readSuffixes_sound (.record hrecord hnew hd) h
          -- word, parenthesis, members, parenthesis, and the suffixes after them
          refine ⟨⟨.word word, start, stop⟩ :: ⟨.mark '(', start', stop'⟩ ::
            (used ++ ⟨.mark ')', s, t⟩ :: used'), ?_, ?_⟩
          · rw [hrest, ← hskip, hrest', ← hskip', hused, hused']
            simp
          · simpa using he
      next hrecord =>
        have hrecord : isRecordWord word = false := by simpa using hrecord
        split at h
        next name hname =>
          rw [scalarName?_eq_some_iff hid] at hname
          obtain ⟨used, hused, he⟩ := readSuffixes_sound (.scalar hname) h
          exact ⟨_ :: used, by rw [hrest, ← hskip, hused]; rfl, by simpa using he⟩
        next hname =>
          have hnone : ∀ name, ¬ Keyword word name := by
            intro name hk
            rw [scalarName?_of_keyword hk] at hname
            simp at hname
          obtain ⟨used, hused, he⟩ := readSuffixes_sound (.reference hrecord hnone) h
          have hmeet : (c.skip.meet word).rest = rest := hskip
          rw [hmeet] at hused
          exact ⟨_ :: used, by rw [hrest, hused]; rfl, by simpa using he⟩

/-- What is read as members is derived as members, after those before. -/
theorem readMembers_sound : ∀ {fuel : Nat} {before ms : List (String × TypeExpr)} {c c' : Cursor},
    (∀ p ∈ c.rest, p.lexeme.Proper) → readMembers fuel before c = .ok (ms, c') →
    (before.map Prod.fst).Nodup →
    ∃ used new start stop, c.rest = used ++ ⟨.mark ')', start, stop⟩ :: c'.rest
      ∧ ms = before ++ new ∧ (ms.map Prod.fst).Nodup ∧ Derives (plain used) (.members new)
  | 0, before, ms, c, c', _, h, _ => by simp [readMembers] at h
  | fuel + 1, before, ms, c, c', hp, h, hd => by
      rw [readMembers] at h
      obtain ⟨⟨ty, c₁⟩, htype, h⟩ := bind_eq_ok.mp h
      obtain ⟨used, hused, hty⟩ := readType_sound hp htype
      obtain ⟨⟨name, stop, c₂⟩, hword, h⟩ := bind_eq_ok.mp h
      obtain ⟨rfl, start, rest, hrest⟩ := Cursor.word_eq_ok hword
      have hskip := Cursor.rest_skip hrest
      dsimp only at h
      split at h
      next => simp at h
      next hfresh =>
        have hd' : ((before ++ [(name, ty)]).map Prod.fst).Nodup := by
          have hnot : name ∉ before.map Prod.fst := by
            intro hmem
            obtain ⟨m, hm, hname⟩ := List.mem_map.mp hmem
            exact hfresh (List.any_eq_true.mpr ⟨m, hm, by simpa using hname⟩)
          rw [List.map_append, List.nodup_append]
          refine ⟨hd, by simp, ?_⟩
          intro a ha b hb hab
          obtain rfl : b = name := by simpa using hb
          exact hnot (hab ▸ ha)
        split at h
        next hcomma =>
          obtain ⟨⟨l, start', stop'⟩, hhead, hl⟩ := Option.map_eq_some_iff.mp hcomma
          obtain ⟨rest', hrest'⟩ := List.head?_eq_some_iff.mp hhead
          have hskip' := Cursor.rest_skip hrest'
          have hp' : ∀ p ∈ c₁.skip.skip.rest, p.lexeme.Proper := by
            rw [hskip']
            rw [hskip] at hrest'
            intro p hmem
            exact hp p (by rw [hused, hrest, hrest']; simp [hmem])
          obtain ⟨used', new, s, t, hused', rfl, hnd, hnew⟩ := readMembers_sound hp' h hd'
          refine ⟨used ++ ⟨.word name, start, stop⟩ :: ⟨l, start', stop'⟩ :: used',
            (name, ty) :: new, s, t, ?_, by simp, hnd, ?_⟩
          · rw [hused, hrest, ← hskip, hrest', ← hskip', hused']
            simp
          · have hl : l = .mark ',' := hl
            simpa [hl] using Derives.more hty hnew
        next =>
          obtain ⟨c₃, hmark, h⟩ := bind_eq_ok.mp h
          obtain ⟨rfl, start', stop', rest', hrest'⟩ := Cursor.mark_eq_ok hmark
          simp only [pure_eq, Except.ok.injEq, Prod.mk.injEq] at h
          obtain ⟨rfl, rfl⟩ := h
          refine ⟨used ++ [⟨.word name, start, stop⟩], [(name, ty)], start', stop', ?_, rfl, hd', ?_⟩
          · rw [hused, hrest, ← hskip, Cursor.rest_skip hrest', hrest']
            simp
          · simpa using Derives.one hty
end

/-! ## §5. What is in the grammar is read. -/

/-- Types and members that a derivation promises to be read, whatever follows
them.  After a type the reader goes on with suffixes; members end at the
closing parenthesis. -/
def Phrase.Read (ls : List Lexeme) : Phrase → Prop
  | .type e => ∀ (fuel : Nat) (ps rest : List PlacedLexeme) (refs : List String) (finish : Nat),
      plain ps = ls → ls.length ≤ fuel →
      ∃ refs', readType fuel ⟨refs, ps ++ rest, finish⟩ = readSuffixes e refs' finish rest
  | .members ms => ∀ (fuel : Nat) (before : List (String × TypeExpr))
      (ps rest : List PlacedLexeme) (close : PlacedLexeme) (refs : List String) (finish : Nat),
      plain ps = ls → ls.length ≤ fuel → close.lexeme = .mark ')' →
      ((before ++ ms).map Prod.fst).Nodup →
      ∃ refs', readMembers fuel before ⟨refs, ps ++ close :: rest, finish⟩
        = .ok (before ++ ms, ⟨refs', rest, finish⟩)

/-- A keyword opens no record. -/
theorem isRecordWord_of_keyword {w name : String} (h : Keyword w name) :
    isRecordWord w = false := by
  have hs := scalarName?_of_keyword h
  cases hr : isRecordWord w with
  | false => rfl
  | true =>
    have hw : w = "record" ∨ w = "tuple" := by simpa [isRecordWord] using hr
    rcases hw with rfl | rfl
    · rw [show scalarName? "record" = none by decide] at hs
      simp at hs
    · rw [show scalarName? "tuple" = none by decide] at hs
      simp at hs

/-- A placed lexeme is its lexeme at some place. -/
theorem plain_eq_cons {ps : List PlacedLexeme} {l : Lexeme} {ls : List Lexeme}
    (h : plain ps = l :: ls) :
    ∃ start stop ps', ps = ⟨l, start, stop⟩ :: ps' ∧ plain ps' = ls := by
  obtain ⟨⟨l', start, stop⟩, ps', rfl, hl, hls⟩ := List.map_eq_cons_iff.mp h
  obtain rfl : l' = l := hl
  exact ⟨start, stop, ps', rfl, hls⟩

/-- Every phrase starts with a word. -/
theorem Derives.starts_with_word {ls : List Lexeme} {ph : Phrase} (h : Derives ls ph) :
    ∃ w ls', ls = .word w :: ls' := by
  induction h with
  | scalar | reference => exact ⟨_, _, rfl⟩
  | record => exact ⟨_, _, rfl⟩
  | sequence _ ih | fixed _ _ _ ih | one _ ih | more _ _ ih =>
    obtain ⟨w, ls', rfl⟩ := ih
    exact ⟨w, _, rfl⟩

/-- Reading a record that is not empty reads its members. -/
theorem readType_record {w : String} (hw : isRecordWord w = true) (fuel : Nat)
    {start stop start' stop' : Nat} {rest : List PlacedLexeme} {refs : List String}
    {finish : Nat} (hpeek : Cursor.peek ⟨refs, rest, finish⟩ ≠ some (.mark ')')) :
    readType (fuel + 1)
        ⟨refs, ⟨.word w, start, stop⟩ :: ⟨.mark '(', start', stop'⟩ :: rest, finish⟩
      = readMembers fuel [] ⟨refs, rest, finish⟩ >>= fun r =>
          readSuffixes (.record r.1) r.2.references r.2.finish r.2.rest := by
  have hmark : Cursor.mark ⟨refs, ⟨.mark '(', start', stop'⟩ :: rest, finish⟩ '('
      = .ok ⟨refs, rest, finish⟩ := by
    simp [Cursor.mark, Cursor.peek, Cursor.skip]
  rw [readType]
  show (if isRecordWord w = true then
      Cursor.mark ⟨refs, ⟨.mark '(', start', stop'⟩ :: rest, finish⟩ '(' >>= _ else _) = _
  rw [if_pos hw, hmark, ok_bind, if_neg hpeek]

/-- One member with a new name is read, and the next lexeme decides how it
goes on. -/
theorem readMembers_step {fuel : Nat} {before : List (String × TypeExpr)} {c : Cursor}
    {e : TypeExpr} {n : String} {start stop : Nat} {rest : List PlacedLexeme}
    {refs' : List String} {finish : Nat}
    (hread : readType fuel c = readSuffixes e refs' finish (⟨.word n, start, stop⟩ :: rest))
    (hfresh : n ∉ before.map Prod.fst) :
    readMembers (fuel + 1) before c
      = if Cursor.peek ⟨refs', rest, finish⟩ = some (.mark ',') then
          readMembers fuel (before ++ [(n, e)]) ⟨refs', rest.tail, finish⟩
        else Cursor.mark ⟨refs', rest, finish⟩ ')' >>= fun c => .ok (before ++ [(n, e)], c) := by
  -- the reader's test for a name that came before fails
  have hnew : ¬ (before.any (·.1 == n) = true) := by
    intro hany
    obtain ⟨m, hm, hname⟩ := List.any_eq_true.mp hany
    exact hfresh (List.mem_map.mpr ⟨m, hm, by simpa using hname⟩)
  have hstop : readSuffixes e refs' finish (⟨.word n, start, stop⟩ :: rest)
      = .ok (e, ⟨refs', ⟨.word n, start, stop⟩ :: rest, finish⟩) := by
    simp [readSuffixes]
  rw [readMembers, hread, hstop, ok_bind]
  show (if before.any (·.1 == n) = true then _ else _) = _
  rw [if_neg hnew]
  rfl

namespace Phrase.Read

/-- There is fuel for one more step. -/
theorem exists_fuel {ls : List Lexeme} {l : Lexeme} {fuel : Nat} (hl : l ∈ ls)
    (h : ls.length ≤ fuel) : ∃ f, fuel = f + 1 := by
  have hpos := List.length_pos_of_mem hl
  exact ⟨fuel - 1, by omega⟩

theorem scalar {w name : String} (hk : Keyword w name) :
    (Phrase.type (.scalar name)).Read [.word w] := by
  intro fuel ps rest refs finish hps hfuel
  obtain ⟨start, stop, ps', rfl, hnil⟩ := plain_eq_cons hps
  obtain rfl : ps' = [] := List.map_eq_nil_iff.mp hnil
  obtain ⟨fuel, rfl⟩ := exists_fuel List.mem_cons_self hfuel
  refine ⟨refs, ?_⟩
  simp [readType, Cursor.word, Cursor.skip, isRecordWord_of_keyword hk, scalarName?_of_keyword hk]

theorem reference {w : String} (hw : isIdentifier w = true) (hr : isRecordWord w = false)
    (hk : ∀ name, ¬ Keyword w name) : (Phrase.type (.reference w)).Read [.word w] := by
  intro fuel ps rest refs finish hps hfuel
  obtain ⟨start, stop, ps', rfl, hnil⟩ := plain_eq_cons hps
  obtain rfl : ps' = [] := List.map_eq_nil_iff.mp hnil
  obtain ⟨fuel, rfl⟩ := exists_fuel List.mem_cons_self hfuel
  have hnone : scalarName? w = none := by
    cases hs : scalarName? w with
    | none => rfl
    | some name => exact absurd ((scalarName?_eq_some_iff hw).mp hs) (hk name)
  refine ⟨refs ++ [w], ?_⟩
  simp [readType, Cursor.word, Cursor.skip, Cursor.meet, hr, hnone]

/-- A record is read if its members are, which start with a word. -/
theorem record {w w' : String} {ls : List Lexeme} {ms : List (String × TypeExpr)}
    (hw : isRecordWord w = true) (hd : (ms.map Prod.fst).Nodup)
    (h : (Phrase.members ms).Read (.word w' :: ls)) :
    (Phrase.type (.record ms)).Read (.word w :: .mark '(' :: (.word w' :: ls ++ [.mark ')'])) := by
  intro fuel ps rest refs finish hps hfuel
  obtain ⟨start, stop, ps', rfl, hps'⟩ := plain_eq_cons hps
  obtain ⟨start', stop', ps'', rfl, hps''⟩ := plain_eq_cons hps'
  obtain ⟨inner, closes, rfl, hinner, hcloses⟩ := List.map_eq_append_iff.mp hps''
  obtain ⟨s, t, last, rfl, hnil⟩ := plain_eq_cons hcloses
  obtain rfl : last = [] := List.map_eq_nil_iff.mp hnil
  obtain ⟨fuel, rfl⟩ := exists_fuel List.mem_cons_self hfuel
  obtain ⟨refs', hmembers⟩ := h fuel [] inner rest ⟨.mark ')', s, t⟩ refs finish hinner
    (by simp at hfuel ⊢; omega) rfl (by simpa using hd)
  -- the reader looks for an empty record first
  have hpeek : ∀ q, Cursor.peek ⟨refs, inner ++ q, finish⟩ ≠ some (.mark ')') := by
    obtain ⟨_, _, _, rfl, _⟩ := plain_eq_cons hinner
    simp [Cursor.peek]
  refine ⟨refs', ?_⟩
  rw [List.cons_append, List.cons_append, List.append_assoc, readType_record hw _ (hpeek _)]
  rw [List.singleton_append, hmembers, ok_bind]
  rfl

theorem sequence {ls : List Lexeme} {e : TypeExpr} (h : (Phrase.type e).Read ls) :
    (Phrase.type (.sequence e)).Read (ls ++ [.mark '[', .mark ']']) := by
  intro fuel ps rest refs finish hps hfuel
  obtain ⟨inner, suffix, rfl, hinner, hsuffix⟩ := List.map_eq_append_iff.mp hps
  obtain ⟨s, t, last, rfl, hlast⟩ := plain_eq_cons hsuffix
  obtain ⟨s', t', last, rfl, hnil⟩ := plain_eq_cons hlast
  obtain rfl : last = [] := List.map_eq_nil_iff.mp hnil
  obtain ⟨refs', hread⟩ := h fuel inner (⟨.mark '[', s, t⟩ :: ⟨.mark ']', s', t'⟩ :: rest)
    refs finish hinner (by simp at hfuel; omega)
  refine ⟨refs', ?_⟩
  rw [List.append_assoc]
  exact hread.trans (by rw [readSuffixes])

theorem fixed {ls : List Lexeme} {e : TypeExpr} {ds : List Char} (low : 0 < decimalValue ds)
    (high : decimalValue ds < sizeLimit) (h : (Phrase.type e).Read ls) :
    (Phrase.type (.fixed e (decimalValue ds))).Read
      (ls ++ [.mark '[', .digits ds, .mark ']']) := by
  intro fuel ps rest refs finish hps hfuel
  obtain ⟨inner, suffix, rfl, hinner, hsuffix⟩ := List.map_eq_append_iff.mp hps
  obtain ⟨s, t, last, rfl, hlast⟩ := plain_eq_cons hsuffix
  obtain ⟨s', t', last, rfl, hlast'⟩ := plain_eq_cons hlast
  obtain ⟨s'', t'', last, rfl, hnil⟩ := plain_eq_cons hlast'
  obtain rfl : last = [] := List.map_eq_nil_iff.mp hnil
  obtain ⟨refs', hread⟩ := h fuel inner
    (⟨.mark '[', s, t⟩ :: ⟨.digits ds, s', t'⟩ :: ⟨.mark ']', s'', t''⟩ :: rest)
    refs finish hinner (by simp at hfuel; omega)
  refine ⟨refs', ?_⟩
  rw [List.append_assoc]
  refine hread.trans ?_
  rw [readSuffixes]
  simp only [if_neg (show ¬ sizeLimit ≤ decimalValue ds by omega),
    if_neg (show ¬ decimalValue ds = 0 by omega)]

/-- The name of a member is new where all names are different. -/
theorem fresh {before ms : List (String × TypeExpr)} {n : String} {t : TypeExpr}
    (hd : ((before ++ (n, t) :: ms).map Prod.fst).Nodup) : n ∉ before.map Prod.fst := by
  intro hmem
  simp only [List.map_append, List.map_cons, List.nodup_append] at hd
  exact hd.2.2 n hmem n List.mem_cons_self rfl

theorem one {ls : List Lexeme} {t : TypeExpr} {n : String} (h : (Phrase.type t).Read ls) :
    (Phrase.members [(n, t)]).Read (ls ++ [.word n]) := by
  intro fuel before ps rest close refs finish hps hfuel hclose hd
  obtain ⟨inner, named, rfl, hinner, hnamed⟩ := List.map_eq_append_iff.mp hps
  obtain ⟨s, t', last, rfl, hnil⟩ := plain_eq_cons hnamed
  obtain rfl : last = [] := List.map_eq_nil_iff.mp hnil
  obtain ⟨fuel, rfl⟩ := exists_fuel (List.mem_append_right ls List.mem_cons_self) hfuel
  obtain ⟨refs', hread⟩ := h fuel inner (⟨.word n, s, t'⟩ :: close :: rest) refs finish hinner
    (by simp at hfuel; omega)
  refine ⟨refs', ?_⟩
  rw [List.append_assoc, List.singleton_append, readMembers_step hread (fresh hd)]
  simp [Cursor.peek, Cursor.mark, Cursor.skip, hclose]

theorem more {ls rest : List Lexeme} {t : TypeExpr} {n : String}
    {ms : List (String × TypeExpr)} (h : (Phrase.type t).Read ls)
    (hs : (Phrase.members ms).Read rest) :
    (Phrase.members ((n, t) :: ms)).Read (ls ++ .word n :: .mark ',' :: rest) := by
  intro fuel before ps rest' close refs finish hps hfuel hclose hd
  obtain ⟨inner, named, rfl, hinner, hnamed⟩ := List.map_eq_append_iff.mp hps
  obtain ⟨s, t', more, rfl, hmore⟩ := plain_eq_cons hnamed
  obtain ⟨s', t'', more, rfl, hrest⟩ := plain_eq_cons hmore
  obtain ⟨fuel, rfl⟩ := exists_fuel (List.mem_append_right ls List.mem_cons_self) hfuel
  obtain ⟨refs', hread⟩ := h fuel inner
    (⟨.word n, s, t'⟩ :: ⟨.mark ',', s', t''⟩ :: (more ++ close :: rest')) refs finish hinner
    (by simp at hfuel; omega)
  obtain ⟨refs'', hmembers⟩ := hs fuel (before ++ [(n, t)]) more rest' close refs' finish hrest
    (by simp at hfuel; omega) hclose (by simpa using hd)
  refine ⟨refs'', ?_⟩
  have hcomma : Cursor.peek ⟨refs', ⟨.mark ',', s', t''⟩ :: (more ++ close :: rest'), finish⟩
      = some (.mark ',') := rfl
  rw [List.append_assoc, List.cons_append, List.cons_append,
    readMembers_step hread (fresh hd), if_pos hcomma]
  simpa using hmembers

end Phrase.Read

/-- **What is derived is read.** -/
theorem read_of_derives {ls : List Lexeme} {ph : Phrase} (h : Derives ls ph) :
    (∀ l ∈ ls, l.Proper) → ph.Read ls := by
  induction h with
  | scalar hk => exact fun _ => .scalar hk
  | @reference w hr hk =>
    intro hp
    have hw : isIdentifier w = true := hp (.word w) (by simp)
    exact .reference hw hr hk
  | record hw h hd ih =>
    intro hp
    have hmembers := ih fun l hl => hp l (by simp [hl])
    obtain ⟨w', ls', rfl⟩ := h.starts_with_word
    exact .record hw hd hmembers
  | sequence _ ih => exact fun hp => .sequence (ih fun l hl => hp l (by simp [hl]))
  | fixed _ low high ih => exact fun hp => .fixed low high (ih fun l hl => hp l (by simp [hl]))
  | one _ ih => exact fun hp => .one (ih fun l hl => hp l (by simp [hl]))
  | more _ _ ih ihs =>
    intro hp
    exact .more (ih fun l hl => hp l (by simp [hl])) (ihs fun l hl => hp l (by simp [hl]))

/-! ## §6. Reading a whole text. -/

/-- **A text is read as a type exactly if the grammar derives that type from
it.** -/
theorem read_eq_ok_iff {source : String} {expr : TypeExpr} :
    TypeExpr.read source = .ok expr ↔ InGrammar source expr := by
  unfold TypeExpr.read
  constructor
  · intro h
    obtain ⟨⟨ty, rest⟩, hread, h⟩ := bind_eq_ok.mp h
    -- nothing is left over, so the lexemes derived from are all there are
    have hspaced := spaced_lexemes 0 source.toList
    have hproper : ∀ p ∈ lexemes 0 source.toList, p.lexeme.Proper :=
      fun p hp => hspaced.proper p.lexeme (List.mem_map_of_mem hp)
    obtain ⟨used, hused, hd⟩ := readType_sound hproper hread
    dsimp only at h hused
    split at h
    next hempty =>
      simp only [pure_eq, Except.ok.injEq] at h
      subst h
      rw [List.isEmpty_iff.mp hempty, List.append_nil] at hused
      exact ⟨plain used, hused ▸ hspaced, hd⟩
    next => simp at h
  · rintro ⟨ls, hspaced, hd⟩
    -- the reader has one unit of fuel more than there are lexemes
    have hls := map_lexemes_of_spaced hspaced 0
    have hlen : ls.length = (lexemes 0 source.toList).length := by
      rw [← hls, List.length_map]
    obtain ⟨refs, hread⟩ := read_of_derives hd hspaced.proper
      ((lexemes 0 source.toList).length + 1) (lexemes 0 source.toList) [] []
      (width source.toList) hls (by omega)
    rw [List.append_nil] at hread
    simp only [hread, readSuffixes, ok_bind]
    rfl

/-- A text is read as one type at most. -/
theorem InGrammar.unique {source : String} {e₁ e₂ : TypeExpr} (h₁ : InGrammar source e₁)
    (h₂ : InGrammar source e₂) : e₁ = e₂ := by
  have h := (read_eq_ok_iff.mpr h₁).symm.trans (read_eq_ok_iff.mpr h₂)
  simpa using h

end Stencil.Schema
