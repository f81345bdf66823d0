/-
  Stencil.Proofs.Schema.Denotation
  ────────────────────────────────
  WHICH TYPE A TEXT DENOTES, and that resolving finds exactly it.

  The rules of the grammar are said once more, this time for resolved types:
  where the grammar of expressions leaves a reference, `Denotes` puts the
  type that the name is looked up as.  No reader, no expression tree and no
  order of lookups occurs in them.

    • `denotes_iff` — a type is denoted exactly if the grammar derives an
      expression that expands to it,
    • `resolve_eq_ok` — when resolving succeeds, in terms of expressions,
    • `resolve_exact` — resolving gives a type exactly if the text is cut
      into lexemes of the grammar that denote it, and it is small.
-/
import Stencil.Proofs.Schema.Incremental

namespace Stencil.Schema

open Outcome

/-! ## §1. Texts in lexemes of the grammar. -/

/-- Words, runs of digits, and the five characters that the grammar uses. -/
def Lexeme.Grammatical : Lexeme → Prop
  | word _ | digits _ => True
  | mark char => char ∈ ['(', ')', '[', ']', ',']

/-- The whole text is cut into lexemes of the grammar. -/
structure Tokenised (source : String) (ls : List Lexeme) : Prop where
  /-- Blanks stand between them, and each is as long as it can be. -/
  spaced : Spaced source.toList ls
  /-- No other character occurs. -/
  grammatical : ∀ l ∈ ls, l.Grammatical

/-- The rules use no other lexemes. -/
theorem Derives.grammatical {ls : List Lexeme} {ph : Phrase} (h : Derives ls ph) :
    ∀ l ∈ ls, l.Grammatical := by
  have hword : ∀ w, (Lexeme.word w).Grammatical := fun _ => trivial
  have hdigits : ∀ ds, (Lexeme.digits ds).Grammatical := fun _ => trivial
  have hmark : ∀ c ∈ ['(', ')', '[', ']', ','], (Lexeme.mark c).Grammatical := fun _ hc => hc
  have hnil : ∀ l ∈ ([] : List Lexeme), l.Grammatical := by simp
  induction h with
  | scalar | reference => exact List.forall_mem_cons.mpr ⟨hword _, hnil⟩
  | record _ _ _ ih =>
    simp only [List.forall_mem_cons, List.forall_mem_append]
    exact ⟨hword _, hmark '(' (by simp), ih, hmark ')' (by simp), hnil⟩
  | sequence _ ih =>
    simp only [List.forall_mem_cons, List.forall_mem_append]
    exact ⟨ih, hmark '[' (by simp), hmark ']' (by simp), hnil⟩
  | fixed _ _ _ ih =>
    simp only [List.forall_mem_cons, List.forall_mem_append]
    exact ⟨ih, hmark '[' (by simp), hdigits _, hmark ']' (by simp), hnil⟩
  | one _ ih =>
    simp only [List.forall_mem_cons, List.forall_mem_append]
    exact ⟨ih, hword _, hnil⟩
  | more _ _ ih ihs =>
    simp only [List.forall_mem_cons, List.forall_mem_append]
    exact ⟨ih, hword _, hmark ',' (by simp), ihs⟩

/-! ## §2. Resolved types from lexemes. -/

/-- What lexemes can denote: a type, or the members of a record. -/
inductive Meaning where
  /-- A type. -/
  | type (ty : Ty)
  /-- Members in order. -/
  | members (list : List (String × Ty))

/-- The grammar, rule by rule, for resolved types. -/
inductive Denotes {ε : Type} (lookup : String → Except ε Ty) : List Lexeme → Meaning → Prop
  /-- A keyword is an elementary type. -/
  | scalar {w name : String} (hk : Keyword w name) :
      Denotes lookup [.word w] (.type (.scalar name))
  /-- Any other word is the type it is looked up as. -/
  | reference {w : String} {ty : Ty} (hr : w ≠ "record" ∧ w ≠ "tuple")
      (hk : ∀ name, ¬ Keyword w name) (hl : lookup w = .ok ty) :
      Denotes lookup [.word w] (.type ty)
  /-- A record has members of different names. -/
  | record {w : String} {ls : List Lexeme} {ms : List (String × Ty)}
      (hw : w = "record" ∨ w = "tuple") (h : Denotes lookup ls (.members ms))
      (hd : (ms.map Prod.fst).Nodup) :
      Denotes lookup (.word w :: .mark '(' :: (ls ++ [.mark ')'])) (.type (.record ms))
  /-- A pair of brackets makes a sequence of what stands before it. -/
  | sequence {ls : List Lexeme} {ty : Ty} (h : Denotes lookup ls (.type ty)) :
      Denotes lookup (ls ++ [.mark '[', .mark ']']) (.type (.sequence ty))
  /-- A size of 64 bits in brackets makes an array of that size. -/
  | fixed {ls : List Lexeme} {ty : Ty} {ds : List Char} (h : Denotes lookup ls (.type ty))
      (low : 1 ≤ decimalValue ds) (high : decimalValue ds ≤ 2 ^ 64 - 1) :
      Denotes lookup (ls ++ [.mark '[', .digits ds, .mark ']'])
        (.type (.fixed ty (decimalValue ds)))
  /-- A record has at least one member. -/
  | one {ls : List Lexeme} {ty : Ty} {n : String} (h : Denotes lookup ls (.type ty)) :
      Denotes lookup (ls ++ [.word n]) (.members [(n, ty)])
  /-- Members are separated by commas. -/
  | more {ls rest : List Lexeme} {ty : Ty} {n : String} {ms : List (String × Ty)}
      (h : Denotes lookup ls (.type ty)) (hs : Denotes lookup rest (.members ms)) :
      Denotes lookup (ls ++ .word n :: .mark ',' :: rest) (.members ((n, ty) :: ms))

/-! ## §3. Expressions and their types. -/

theorem isRecordWord_iff {w : String} : isRecordWord w = true ↔ w = "record" ∨ w = "tuple" := by
  simp [isRecordWord]

theorem isRecordWord_eq_false_iff {w : String} :
    isRecordWord w = false ↔ w ≠ "record" ∧ w ≠ "tuple" := by
  simp [isRecordWord]

/-- A size below the limit is one of 64 bits. -/
theorem lt_sizeLimit_iff {n : Nat} : n < sizeLimit ↔ n ≤ 2 ^ 64 - 1 := by
  unfold sizeLimit
  omega

/-- What a phrase means once its names are looked up. -/
def Phrase.expand {ε : Type} (lookup : String → Except ε Ty) : Phrase → Except ε Meaning
  | .type e => (e.expand lookup).map .type
  | .members ms => (expandMembers lookup ms).map .members

section
variable {ε : Type} {lookup : String → Except ε Ty}

theorem Phrase.expand_type {e : TypeExpr} {m : Meaning} :
    (Phrase.type e).expand lookup = .ok m ↔ ∃ ty, e.expand lookup = .ok ty ∧ m = .type ty := by
  rw [Phrase.expand, map_eq_ok]
  exact exists_congr fun _ => and_congr_right fun _ => eq_comm

theorem Phrase.expand_members {ms : List (String × TypeExpr)} {m : Meaning} :
    (Phrase.members ms).expand lookup = .ok m
      ↔ ∃ tys, expandMembers lookup ms = .ok tys ∧ m = .members tys := by
  rw [Phrase.expand, map_eq_ok]
  exact exists_congr fun _ => and_congr_right fun _ => eq_comm

/-- A phrase that means a type is a type that expands to it. -/
theorem exists_type {ls : List Lexeme} {ty : Ty}
    (h : ∃ ph, Derives ls ph ∧ ph.expand lookup = .ok (.type ty)) :
    ∃ expr, Derives ls (.type expr) ∧ expr.expand lookup = .ok ty := by
  obtain ⟨ph, hderives, hexpand⟩ := h
  cases ph with
  | type expr =>
    obtain ⟨ty', hty, heq⟩ := Phrase.expand_type.mp hexpand
    exact ⟨expr, hderives, by rw [hty, Meaning.type.inj heq]⟩
  | members ms =>
    obtain ⟨_, -, heq⟩ := Phrase.expand_members.mp hexpand
    simp at heq

/-- A phrase that means members is members that expand to them. -/
theorem exists_members {ls : List Lexeme} {tys : List (String × Ty)}
    (h : ∃ ph, Derives ls ph ∧ ph.expand lookup = .ok (.members tys)) :
    ∃ ms, Derives ls (.members ms) ∧ expandMembers lookup ms = .ok tys := by
  obtain ⟨ph, hderives, hexpand⟩ := h
  cases ph with
  | type expr =>
    obtain ⟨_, -, heq⟩ := Phrase.expand_type.mp hexpand
    simp at heq
  | members ms =>
    obtain ⟨tys', htys, heq⟩ := Phrase.expand_members.mp hexpand
    exact ⟨ms, hderives, by rw [htys, Meaning.members.inj heq]⟩

/-- Members expand if the first does and the others do. -/
theorem expandMembers_cons {n : String} {e : TypeExpr} {ms : List (String × TypeExpr)}
    {tys : List (String × Ty)} :
    expandMembers lookup ((n, e) :: ms) = .ok tys
      ↔ ∃ ty rest, e.expand lookup = .ok ty ∧ expandMembers lookup ms = .ok rest
        ∧ tys = (n, ty) :: rest := by
  rw [expandMembers]
  constructor
  · intro h
    obtain ⟨ty, hty, h⟩ := bind_eq_ok.mp h
    obtain ⟨rest, hrest, h⟩ := bind_eq_ok.mp h
    exact ⟨ty, rest, hty, hrest, (Except.ok.inj h).symm⟩
  · rintro ⟨ty, rest, hty, hrest, rfl⟩
    rw [hty, ok_bind, hrest]
    rfl

/-- What is derived and expands is denoted. -/
theorem denotes_of_derives {ls : List Lexeme} {ph : Phrase} (h : Derives ls ph) :
    ∀ {m : Meaning}, ph.expand lookup = .ok m → Denotes lookup ls m := by
  induction h with
  | scalar hk =>
    intro m hm
    obtain ⟨ty, hty, rfl⟩ := Phrase.expand_type.mp hm
    obtain rfl := Except.ok.inj hty
    exact .scalar hk
  | reference hr hk =>
    intro m hm
    obtain ⟨ty, hty, rfl⟩ := Phrase.expand_type.mp hm
    exact .reference (isRecordWord_eq_false_iff.mp hr) hk hty
  | record hw _ hd ih =>
    intro m hm
    obtain ⟨ty, hty, rfl⟩ := Phrase.expand_type.mp hm
    obtain ⟨tys, htys, rfl⟩ := map_eq_ok.mp hty
    refine .record (isRecordWord_iff.mp hw) (ih (Phrase.expand_members.mpr ⟨tys, htys, rfl⟩)) ?_
    rw [map_fst_of_expandMembers htys]
    exact hd
  | sequence _ ih =>
    intro m hm
    obtain ⟨ty, hty, rfl⟩ := Phrase.expand_type.mp hm
    obtain ⟨element, helement, rfl⟩ := map_eq_ok.mp hty
    exact .sequence (ih (Phrase.expand_type.mpr ⟨element, helement, rfl⟩))
  | fixed _ low high ih =>
    intro m hm
    obtain ⟨ty, hty, rfl⟩ := Phrase.expand_type.mp hm
    obtain ⟨element, helement, rfl⟩ := map_eq_ok.mp hty
    exact .fixed (ih (Phrase.expand_type.mpr ⟨element, helement, rfl⟩)) low
      (lt_sizeLimit_iff.mp high)
  | one _ ih =>
    intro m hm
    obtain ⟨tys, htys, rfl⟩ := Phrase.expand_members.mp hm
    obtain ⟨ty, rest, hty, hrest, rfl⟩ := expandMembers_cons.mp htys
    obtain rfl := Except.ok.inj hrest
    exact .one (ih (Phrase.expand_type.mpr ⟨ty, hty, rfl⟩))
  | more _ _ ih ihs =>
    intro m hm
    obtain ⟨tys, htys, rfl⟩ := Phrase.expand_members.mp hm
    obtain ⟨ty, rest, hty, hrest, rfl⟩ := expandMembers_cons.mp htys
    exact .more (ih (Phrase.expand_type.mpr ⟨ty, hty, rfl⟩))
      (ihs (Phrase.expand_members.mpr ⟨rest, hrest, rfl⟩))

/-- What is denoted is derived as an expression that expands to it. -/
theorem derives_of_denotes {ls : List Lexeme} {m : Meaning} (h : Denotes lookup ls m) :
    ∃ ph, Derives ls ph ∧ ph.expand lookup = .ok m := by
  induction h with
  | scalar hk => exact ⟨_, .scalar hk, rfl⟩
  | reference hr hk hl =>
    exact ⟨_, .reference (isRecordWord_eq_false_iff.mpr hr) hk,
      Phrase.expand_type.mpr ⟨_, hl, rfl⟩⟩
  | record hw _ hd ih =>
    obtain ⟨exprs, hderives, hexprs⟩ := exists_members ih
    have hnames := map_fst_of_expandMembers hexprs
    refine ⟨_, .record (isRecordWord_iff.mpr hw) hderives (hnames ▸ hd), ?_⟩
    exact Phrase.expand_type.mpr ⟨_, map_eq_ok.mpr ⟨_, hexprs, rfl⟩, rfl⟩
  | sequence _ ih =>
    obtain ⟨expr, hderives, hexpr⟩ := exists_type ih
    refine ⟨_, .sequence hderives, ?_⟩
    exact Phrase.expand_type.mpr ⟨_, map_eq_ok.mpr ⟨_, hexpr, rfl⟩, rfl⟩
  | fixed _ low high ih =>
    obtain ⟨expr, hderives, hexpr⟩ := exists_type ih
    refine ⟨_, .fixed hderives low (lt_sizeLimit_iff.mpr high), ?_⟩
    exact Phrase.expand_type.mpr ⟨_, map_eq_ok.mpr ⟨_, hexpr, rfl⟩, rfl⟩
  | one _ ih =>
    obtain ⟨expr, hderives, hexpr⟩ := exists_type ih
    refine ⟨_, .one hderives, ?_⟩
    exact Phrase.expand_members.mpr ⟨_, expandMembers_cons.mpr ⟨_, _, hexpr, rfl, rfl⟩, rfl⟩
  | more _ _ ih ihs =>
    obtain ⟨expr, hderives, hexpr⟩ := exists_type ih
    obtain ⟨exprs, hmore, hexprs⟩ := exists_members ihs
    refine ⟨_, .more hderives hmore, ?_⟩
    exact Phrase.expand_members.mpr
      ⟨_, expandMembers_cons.mpr ⟨_, _, hexpr, hexprs, rfl⟩, rfl⟩

/-- **A type is denoted exactly if an expression is derived that expands to
it.** -/
theorem denotes_iff {ls : List Lexeme} {ty : Ty} :
    Denotes lookup ls (.type ty)
      ↔ ∃ expr, Derives ls (.type expr) ∧ expr.expand lookup = .ok ty := by
  constructor
  · exact fun h => exists_type (derives_of_denotes h)
  · rintro ⟨expr, hderives, hexpand⟩
    exact denotes_of_derives hderives (Phrase.expand_type.mpr ⟨ty, hexpand, rfl⟩)

/-! ## §4. Resolving. -/

/-- A text is resolved exactly if it is in the grammar, its names look up and
the result is small. -/
theorem resolve_eq_ok {fail : Fault → ε} {source : String} {ty : Ty} :
    resolve fail lookup source = .ok ty
      ↔ ∃ expr, InGrammar source expr ∧ expr.expand lookup = .ok ty ∧ ty.nodes ≤ 4096 := by
  unfold resolve
  constructor
  · intro h
    obtain ⟨_, -, hcomplete⟩ := bind_eq_ok.mp h
    exact complete_eq_ok.mp hcomplete
  · rintro ⟨expr, hexpr, hexpand, hsize⟩
    -- the names met on the way are those of the expression, and all look up
    have hnames := (exists_expand_iff expr).mp ⟨ty, hexpand⟩
    rw [met_of_inGrammar hexpr, Registry.forM_lookup hnames, ok_bind]
    exact complete_eq_ok.mpr ⟨expr, hexpr, hexpand, hsize⟩

/-- **Resolving accepts exactly the grammar.**  Whatever a failure is worded
with and whatever names are looked up as, a text is resolved as a type if and
only if it is cut completely into lexemes of the grammar, these denote the
type, and the type is small. -/
theorem resolve_exact (fail : Fault → ε) (lookup : String → Except ε Ty) (source : String)
    (ty : Ty) :
    resolve fail lookup source = .ok ty
      ↔ ∃ ls, Tokenised source ls ∧ Denotes lookup ls (.type ty) ∧ ty.nodes ≤ 4096 := by
  rw [resolve_eq_ok]
  constructor
  · rintro ⟨expr, ⟨ls, hspaced, hderives⟩, hexpand, hsize⟩
    exact ⟨ls, ⟨hspaced, hderives.grammatical⟩, denotes_iff.mpr ⟨expr, hderives, hexpand⟩, hsize⟩
  · rintro ⟨ls, htokens, hdenotes, hsize⟩
    obtain ⟨expr, hderives, hexpand⟩ := denotes_iff.mp hdenotes
    exact ⟨expr, ⟨ls, htokens.spaced, hderives⟩, hexpand, hsize⟩

-- Leading zeros count in no size, and any blank may stand between lexemes.
example : resolve id (fun _ => .error .undefinedInput) "bool\u2003[ 007 ]"
    = .ok (.fixed (.scalar "bool") 7) := by cbv

end

end Stencil.Schema
