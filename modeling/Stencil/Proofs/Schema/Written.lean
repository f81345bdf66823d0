/-
  Stencil.Proofs.Schema.Written
  ─────────────────────────────
  THE WRITTEN FORM OF A TYPE, and that it is read back.

  Every lawful type is written as a text whose lexemes denote it, with no
  name among them to look up.  Members may be called whatever an identifier
  can be, keywords and the words that open a record included: after a type
  only a name can stand.

    • `Spaced.append` — texts that keep apart are cut one after the other,
    • `Spells` — a text means something whatever names are looked up as,
    • `Ty.Lawful.spells` — the written form means the type,
    • `Spells.resolve`, `Spells.met_eq_nil` — it is resolved, without looking
      up any name,
    • `Spells.unique` — and it means no other type.
-/
import Stencil.Proofs.Schema.Invariant

namespace Stencil.Schema

open Text (isBlank isWordStart isWordChar isIdentifier)

/-! ## §1. Texts put together. -/

/-- Two texts keep apart where no word or number can run from one into the
other. -/
def Apart (xs ys : List Char) : Prop :=
  (∀ c ∈ xs.getLast?, isWordChar c = false) ∨ ∀ c ∈ ys.head?, isWordChar c = false

/-- A text that starts like no word keeps apart from whatever comes before. -/
theorem Apart.of_head {xs ys : List Char} (h : ys.head?.all (!isWordChar ·) = true) :
    Apart xs ys := by
  refine .inr fun c hc => ?_
  rw [Option.mem_def.mp hc] at h
  simpa using h

/-- A text that ends like no word keeps apart from whatever follows. -/
theorem Apart.of_end {xs tail ys : List Char} (h : tail.getLast?.any (!isWordChar ·) = true) :
    Apart (xs ++ tail) ys := by
  obtain ⟨last, hlast, hword⟩ := (Option.any_eq_true _ _).mp h
  refine .inl fun c hc => ?_
  rw [List.getLast?_append, hlast, Option.some_or] at hc
  obtain rfl : last = c := Option.some.inj hc
  simpa using hword

/-- Only letters, digits and underscores go on with a lexeme. -/
theorem Lexeme.takes_eq_false {l : Lexeme} {c : Char} (h : isWordChar c = false) :
    l.takes c = false := by
  cases l with
  | word text => exact h
  | digits ds =>
    show c.isDigit = false
    rw [Bool.eq_false_iff] at h ⊢
    exact fun hdigit => h (isWordChar_of_isDigit hdigit)
  | mark char => rfl

/-- A lexeme that does not end like a word takes nothing more. -/
theorem Lexeme.takes_of_getLast? {l : Lexeme} (hl : l.Proper)
    (h : ∀ c ∈ l.chars.getLast?, isWordChar c = false) (c : Char) : l.takes c = false := by
  have hne : l.chars ≠ [] := by
    obtain ⟨first, more, hchars, -⟩ := exists_chars_cons hl
    simp [hchars]
  have hlast := h (l.chars.getLast hne) (List.getLast_mem_getLast? hne)
  have hmem := List.getLast_mem hne
  cases l with
  | word text =>
    rw [isWordChar_of_isIdentifier hl _ hmem] at hlast
    simp at hlast
  | digits ds =>
    rw [isWordChar_of_isDigit (hl.2 _ hmem)] at hlast
    simp at hlast
  | mark char => rfl

/-- **Texts that keep apart are cut one after the other.** -/
theorem Spaced.append {xs ys : List Char} {ls ms : List Lexeme} (hx : Spaced xs ls)
    (hy : Spaced ys ms) (hapart : Apart xs ys) : Spaced (xs ++ ys) (ls ++ ms) := by
  induction hx with
  | @done blanks hb =>
    clear hapart
    induction blanks with
    | nil => exact hy
    | cons c blanks ih => exact (ih fun d hd => hb d (by simp [hd])).blank (hb c (by simp))
  | @next blanks rest l ls hb hl hstop _ ih =>
    simp only [List.append_assoc, List.cons_append]
    refine .next hb hl (fun c hc => ?_) (ih ?_)
    · cases rest with
      | cons d rest => exact hstop c hc
      | nil =>
        -- the lexeme ends the first text, so it meets the second one
        rcases hapart with hend | hstart
        · have hchars : ∀ d ∈ l.chars.getLast?, isWordChar d = false := by
            intro d hd
            refine hend d ?_
            rw [List.append_nil, List.getLast?_append, Option.mem_def.mp hd]
            rfl
          exact Lexeme.takes_of_getLast? hl hchars c
        · exact Lexeme.takes_eq_false (hstart c (by simpa using hc))
    · refine hapart.imp (fun hend c hc => hend c ?_) id
      rw [List.getLast?_append, List.getLast?_append, Option.mem_def.mp hc]
      rfl

/-- A proper lexeme is a text of its own. -/
theorem Spaced.single {l : Lexeme} (hl : l.Proper) : Spaced l.chars [l] := by
  have h : Spaced ([] ++ (l.chars ++ [])) [l] := .next (by simp) hl (by simp) (.done (by simp))
  simpa using h

/-- A fixed text is cut as evaluating says. -/
theorem Spaced.of_lexemes {cs : List Char} {ls : List Lexeme}
    (h : (lexemes 0 cs).map (·.lexeme) = ls) : Spaced cs ls :=
  lexemes_eq_iff.mp h

/-- The blank keeps the type of a member and its name apart. -/
theorem Spaced.member {text name : String} {ls : List Lexeme} (h : Spaced text.toList ls)
    (hname : isIdentifier name = true) :
    Spaced (text ++ " " ++ name).toList (ls ++ [.word name]) := by
  have hblank : Spaced " ".toList [] := .of_lexemes (by cbv)
  have hword : Spaced name.toList [.word name] := .single (l := .word name) hname
  have hbefore := h.append hblank (.of_head (by decide))
  have hmember := hbefore.append hword (.of_end (by decide))
  simpa using hmember

/-! ## §2. What a text means by itself. -/

/-- The lexemes of the text denote this, whatever names are looked up as. -/
def Spells (text : String) (m : Meaning) : Prop :=
  ∃ ls, Spaced text.toList ls
    ∧ ∀ (ε : Type) (lookup : String → Except ε Ty), Denotes lookup ls m

namespace Spells

theorem scalar {name : String} (h : IsCanonical name) : Spells name (.type (.scalar name)) := by
  have hid := isIdentifier_of_isCanonical h
  obtain ⟨word, hk⟩ := h
  exact ⟨[.word name], .single (l := .word name) hid, fun _ _ => .scalar hk.self⟩

theorem record {text : String} {ms : List (String × Ty)} (h : Spells text (.members ms))
    (hd : (ms.map Prod.fst).Nodup) :
    Spells ("record(" ++ text ++ ")") (.type (.record ms)) := by
  obtain ⟨ls, hspaced, hdenotes⟩ := h
  have hopen : Spaced "record(".toList [.word "record", .mark '('] := .of_lexemes (by cbv)
  have hclose : Spaced ")".toList [.mark ')'] := .of_lexemes (by cbv)
  refine ⟨_, ?_, fun ε lookup => .record (.inl rfl) (hdenotes ε lookup) hd⟩
  rw [String.toList_append, String.toList_append]
  exact (hopen.append hspaced (@Apart.of_end [] _ _ (by decide))).append hclose (.of_head (by decide))

theorem sequence {text : String} {ty : Ty} (h : Spells text (.type ty)) :
    Spells (text ++ "[]") (.type (.sequence ty)) := by
  obtain ⟨ls, hspaced, hdenotes⟩ := h
  have hsuffix : Spaced "[]".toList [.mark '[', .mark ']'] := .of_lexemes (by cbv)
  refine ⟨_, ?_, fun ε lookup => .sequence (hdenotes ε lookup)⟩
  rw [String.toList_append]
  exact hspaced.append hsuffix (.of_head (by decide))

/-- A size is written in digits that stand for it. -/
theorem fixed {text : String} {ty : Ty} {size : Nat} (h : Spells text (.type ty))
    (low : 1 ≤ size) (high : size ≤ 2 ^ 64 - 1) :
    Spells (text ++ "[" ++ toString size ++ "]") (.type (.fixed ty size)) := by
  obtain ⟨ls, hspaced, hdenotes⟩ := h
  have hvalue := decimalValue_toString size
  have hdigits : Spaced (toString size).toList [.digits (toString size).toList] := by
    refine .single (l := .digits (toString size).toList) ⟨?_, fun c => isDigit_of_mem_toString⟩
    -- no digits would stand for zero
    intro hnil
    rw [hnil] at hvalue
    exact absurd hvalue (by simp [decimalValue]; omega)
  have hopen : Spaced "[".toList [.mark '['] := .of_lexemes (by cbv)
  have hclose : Spaced "]".toList [.mark ']'] := .of_lexemes (by cbv)
  refine ⟨ls ++ [.mark '[', .digits (toString size).toList, .mark ']'], ?_, fun ε lookup => ?_⟩
  · have hopened := hspaced.append hopen (.of_head (by decide))
    have hsized := hopened.append hdigits (.of_end (by decide))
    have hclosed := hsized.append hclose (.of_head (by decide))
    simpa using hclosed
  · have hfixed := @Denotes.fixed ε lookup ls ty (toString size).toList (hdenotes ε lookup)
    rw [hvalue] at hfixed
    exact hfixed low high

theorem one {text name : String} {ty : Ty} (h : Spells text (.type ty))
    (hname : isIdentifier name = true) : Spells (text ++ " " ++ name) (.members [(name, ty)]) := by
  obtain ⟨ls, hspaced, hdenotes⟩ := h
  exact ⟨_, hspaced.member hname, fun ε lookup => .one (hdenotes ε lookup)⟩

theorem more {text name rest : String} {ty : Ty} {ms : List (String × Ty)}
    (h : Spells text (.type ty)) (hname : isIdentifier name = true)
    (hs : Spells rest (.members ms)) :
    Spells (text ++ " " ++ name ++ ", " ++ rest) (.members ((name, ty) :: ms)) := by
  obtain ⟨ls, hspaced, hdenotes⟩ := h
  obtain ⟨ls', hspaced', hdenotes'⟩ := hs
  have hcomma : Spaced ", ".toList [.mark ','] := .of_lexemes (by cbv)
  have hbefore := (hspaced.member hname).append hcomma (.of_head (by decide))
  have hall := hbefore.append hspaced' (.of_end (by decide))
  refine ⟨ls ++ .word name :: .mark ',' :: ls', ?_,
    fun ε lookup => .more (hdenotes ε lookup) (hdenotes' ε lookup)⟩
  simpa using hall

/-- Members are written one by one. -/
theorem members : ∀ {ms : List (String × Ty)}, ms ≠ [] →
    (∀ m ∈ ms, isIdentifier m.1 = true) → (∀ m ∈ ms, Spells m.2.text (.type m.2)) →
    Spells (Ty.memberText ms) (.members ms)
  | [], hne, _, _ => absurd rfl hne
  | [(name, ty)], _, hid, h => by
      rw [Ty.memberText]
      exact .one (h (name, ty) (by simp)) (hid (name, ty) (by simp))
  | (name, ty) :: next :: ms, _, hid, h => by
      have hrest := @members (next :: ms) (by simp) (fun m hm => hid m (by simp [hm]))
        (fun m hm => h m (by simp [hm]))
      rw [Ty.memberText]
      · exact .more (h (name, ty) (by simp)) (hid (name, ty) (by simp)) hrest
      · simp

end Spells

/-- **The written form of a lawful type means the type.** -/
theorem Ty.Lawful.spells {ty : Ty} (h : ty.Lawful) : Spells ty.text (.type ty) := by
  induction h with
  | scalar h =>
    rw [Ty.text]
    exact .scalar h
  | record hne hd hid _ ih =>
    rw [Ty.text]
    exact .record (.members hne hid ih) hd
  | sequence _ ih =>
    rw [Ty.text]
    exact .sequence ih
  | fixed _ low high ih =>
    rw [Ty.text]
    exact .fixed ih low high

/-! ## §3. Reading what is written. -/

namespace Spells

/-- What a text means by itself is an expression without names. -/
theorem exists_expr {text : String} {ty : Ty} (h : Spells text (.type ty)) :
    ∃ expr, InGrammar text expr ∧ expr.references = []
      ∧ ∀ (ε : Type) (lookup : String → Except ε Ty), expr.expand lookup = .ok ty := by
  obtain ⟨ls, hspaced, hdenotes⟩ := h
  -- even where every lookup fails the text is read and expands
  obtain ⟨expr, hderives, hexpand⟩ := denotes_iff.mp (hdenotes Unit fun _ => .error ())
  have hnames := (exists_expand_iff expr).mp ⟨ty, hexpand⟩
  refine ⟨expr, ⟨ls, hspaced, hderives⟩, List.eq_nil_iff_forall_not_mem.mpr fun n hn => ?_,
    fun ε lookup => ?_⟩
  · obtain ⟨_, hfound⟩ := hnames n hn
    simp at hfound
  · obtain ⟨expr', hderives', hexpand'⟩ := denotes_iff.mp (hdenotes ε lookup)
    obtain rfl : expr = expr' :=
      InGrammar.unique ⟨ls, hspaced, hderives⟩ ⟨ls, hspaced, hderives'⟩
    exact hexpand'

/-- It is resolved however names are looked up. -/
theorem resolve {text : String} {ty : Ty} (h : Spells text (.type ty)) (hsize : ty.nodes ≤ 4096)
    {ε : Type} (fail : Fault → ε) (lookup : String → Except ε Ty) :
    resolve fail lookup text = .ok ty := by
  obtain ⟨expr, hgrammar, -, hexpand⟩ := h.exists_expr
  exact resolve_eq_ok.mpr ⟨expr, hgrammar, hexpand ε lookup, hsize⟩

/-- No name is met in reading it. -/
theorem met_eq_nil {text : String} {ty : Ty} (h : Spells text (.type ty)) :
    TypeExpr.met text = [] := by
  obtain ⟨expr, hgrammar, hnone, -⟩ := h.exists_expr
  rw [met_of_inGrammar hgrammar, hnone]

/-- **A text means one type at most by itself.** -/
theorem unique {text : String} {ty₁ ty₂ : Ty} (h₁ : Spells text (.type ty₁))
    (h₂ : Spells text (.type ty₂)) : ty₁ = ty₂ := by
  obtain ⟨expr₁, hgrammar₁, -, hexpand₁⟩ := h₁.exists_expr
  obtain ⟨expr₂, hgrammar₂, -, hexpand₂⟩ := h₂.exists_expr
  obtain rfl := hgrammar₁.unique hgrammar₂
  have hsame := (hexpand₁ Unit fun _ => .error ()).symm.trans (hexpand₂ Unit fun _ => .error ())
  exact Except.ok.inj hsame

end Spells

end Stencil.Schema
