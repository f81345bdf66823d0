/-
  Stencil.Proofs.Schema.WellFormed
  ────────────────────────────────
  WHAT ALL TYPES OF A REGISTRY HAVE IN COMMON.

  Types that come out of the grammar have canonical elementary types, members
  of different names that are identifiers, and array sizes of 64 bits.
  Looking names up keeps that, so every type of a registry has it, however
  the registry came about.

    • `InGrammar.wellFormed` — the grammar gives well-formed expressions,
    • `wellFormed_of_expand` — and expansion keeps them so.
-/
import Stencil.Proofs.Schema.Grammar

namespace Stencil.Schema

open Text (isIdentifier)
open Outcome

/-! ## §1. Well-formed types. -/

/-- A resolved type of canonical elementary types, with members that are
different identifiers and sizes of 64 bits. -/
inductive Ty.WellFormed : Ty → Prop
  /-- Elementary types are canonical. -/
  | scalar {name : String} (h : IsCanonical name) : WellFormed (.scalar name)
  /-- Members are different identifiers. -/
  | record {members : List (String × Ty)} (hd : (members.map Prod.fst).Nodup)
      (hid : ∀ m ∈ members, isIdentifier m.1 = true) (h : ∀ m ∈ members, WellFormed m.2) :
      WellFormed (.record members)
  /-- An array of any length. -/
  | sequence {element : Ty} (h : WellFormed element) : WellFormed (.sequence element)
  /-- An array of a positive size. -/
  | fixed {element : Ty} {size : Nat} (h : WellFormed element) (low : 0 < size)
      (high : size < sizeLimit) : WellFormed (.fixed element size)

/-- The same of a type as written; a name may refer to anything. -/
inductive TypeExpr.WellFormed : TypeExpr → Prop
  /-- Elementary types are canonical. -/
  | scalar {name : String} (h : IsCanonical name) : WellFormed (.scalar name)
  /-- A name. -/
  | reference (name : String) : WellFormed (.reference name)
  /-- Members are different identifiers. -/
  | record {members : List (String × TypeExpr)} (hd : (members.map Prod.fst).Nodup)
      (hid : ∀ m ∈ members, isIdentifier m.1 = true) (h : ∀ m ∈ members, WellFormed m.2) :
      WellFormed (.record members)
  /-- An array of any length. -/
  | sequence {element : TypeExpr} (h : WellFormed element) : WellFormed (.sequence element)
  /-- An array of a positive size. -/
  | fixed {element : TypeExpr} {size : Nat} (h : WellFormed element) (low : 0 < size)
      (high : size < sizeLimit) : WellFormed (.fixed element size)

/-! ## §2. The grammar gives well-formed types. -/

/-- What a phrase of the grammar is. -/
def Phrase.WellFormed : Phrase → Prop
  | .type e => e.WellFormed
  | .members ms => ∀ m ∈ ms, isIdentifier m.1 = true ∧ m.2.WellFormed

/-- **What is derived from proper lexemes is well formed.** -/
theorem Derives.wellFormed {ls : List Lexeme} {ph : Phrase} (h : Derives ls ph) :
    (∀ l ∈ ls, l.Proper) → ph.WellFormed := by
  induction h with
  | @scalar w name hk => exact fun _ => .scalar ⟨w, hk⟩
  | @reference w _ _ => exact fun _ => .reference w
  | record _ _ hd ih =>
    intro hp
    have hms := ih fun l hl => hp l (by simp [hl])
    exact .record hd (fun m hm => (hms m hm).1) (fun m hm => (hms m hm).2)
  | sequence _ ih =>
    intro hp
    exact .sequence (ih fun l hl => hp l (by simp [hl]))
  | fixed _ low high ih =>
    intro hp
    exact .fixed (ih fun l hl => hp l (by simp [hl])) low high
  | @one ls t n _ ih =>
    intro hp m hm
    obtain rfl : m = (n, t) := by simpa using hm
    exact ⟨hp (.word n) (by simp), ih fun l hl => hp l (by simp [hl])⟩
  | @more ls rest t n ms _ _ ih ihs =>
    intro hp m hm
    rcases List.mem_cons.mp hm with rfl | hm
    · exact ⟨hp (.word n) (by simp), ih fun l hl => hp l (by simp [hl])⟩
    · exact ihs (fun l hl => hp l (by simp [hl])) m hm

theorem InGrammar.wellFormed {source : String} {expr : TypeExpr} (h : InGrammar source expr) :
    expr.WellFormed := by
  obtain ⟨ls, hspaced, hd⟩ := h
  exact hd.wellFormed hspaced.proper

/-! ## §3. Expansion keeps types well formed. -/

/-- Expanded members keep their names. -/
theorem map_fst_of_expandMembers {ε : Type} {lookup : String → Except ε Ty}
    {members : List (String × TypeExpr)} :
    ∀ {tys : List (String × Ty)}, expandMembers lookup members = .ok tys →
      tys.map Prod.fst = members.map Prod.fst := by
  induction members with
  | nil =>
    intro tys h
    obtain rfl : [] = tys := by simpa [expandMembers] using h
    rfl
  | cons m members ih =>
    intro tys h
    rw [expandMembers] at h
    obtain ⟨ty, -, h⟩ := bind_eq_ok.mp h
    obtain ⟨rest, hrest, h⟩ := bind_eq_ok.mp h
    obtain rfl : (m.1, ty) :: rest = tys := by simpa using h
    rw [List.map_cons, List.map_cons, ih hrest]

mutual
/-- **Well-formed types in the place of names make a well-formed type.** -/
theorem wellFormed_of_expand {ε : Type} {lookup : String → Except ε Ty}
    (hl : ∀ name ty, lookup name = .ok ty → ty.WellFormed) :
    ∀ (expr : TypeExpr) {ty : Ty}, expr.WellFormed → expr.expand lookup = .ok ty →
      ty.WellFormed
  | .scalar name, ty, hw, h => by
      obtain rfl : Ty.scalar name = ty := by simpa [TypeExpr.expand] using h
      cases hw with
      | scalar hc => exact .scalar hc
  | .reference name, ty, _, h => hl name ty h
  | .record members, ty, hw, h => by
      obtain ⟨tys, htys, rfl⟩ := map_eq_ok.mp h
      cases hw with
      | record hd hid hms =>
        -- expanding changes no name, so they stay different identifiers
        have hnames := map_fst_of_expandMembers htys
        refine .record (hnames ▸ hd) (fun m hm => ?_)
          (wellFormed_of_expandMembers hl members hms htys)
        have hmem : m.1 ∈ members.map Prod.fst := hnames ▸ List.mem_map_of_mem hm
        obtain ⟨m', hm', hname⟩ := List.mem_map.mp hmem
        exact hname ▸ hid m' hm'
  | .sequence element, ty, hw, h => by
      obtain ⟨inner, hinner, rfl⟩ := map_eq_ok.mp h
      cases hw with
      | sequence hw => exact .sequence (wellFormed_of_expand hl element hw hinner)
  | .fixed element size, ty, hw, h => by
      obtain ⟨inner, hinner, rfl⟩ := map_eq_ok.mp h
      cases hw with
      | fixed hw low high => exact .fixed (wellFormed_of_expand hl element hw hinner) low high

/-- The same for members. -/
theorem wellFormed_of_expandMembers {ε : Type} {lookup : String → Except ε Ty}
    (hl : ∀ name ty, lookup name = .ok ty → ty.WellFormed) :
    ∀ (members : List (String × TypeExpr)) {tys : List (String × Ty)},
    (∀ m ∈ members, m.2.WellFormed) → expandMembers lookup members = .ok tys →
      ∀ m ∈ tys, m.2.WellFormed
  | [], tys, _, h => by
      obtain rfl : [] = tys := by simpa [expandMembers] using h
      simp
  | (name, expr) :: members, tys, hw, h => by
      rw [expandMembers] at h
      obtain ⟨ty, hty, h⟩ := bind_eq_ok.mp h
      obtain ⟨rest, hrest, h⟩ := bind_eq_ok.mp h
      obtain rfl : (name, ty) :: rest = tys := by simpa using h
      intro m hm
      rcases List.mem_cons.mp hm with rfl | hm
      · exact wellFormed_of_expand hl expr (hw (name, expr) List.mem_cons_self) hty
      · exact wellFormed_of_expandMembers hl members
          (fun m hm => hw m (List.mem_cons_of_mem _ hm)) hrest m hm
end

end Stencil.Schema
