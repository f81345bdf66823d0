/-
  Stencil.Proofs.Library.Declarations
  ───────────────────────────────────
  THE STRUCTURES OF A LIBRARY STAND FOR ITS TYPES.

  A library writes every record as a structure and every other type in terms
  of elementary types, structure names and array suffixes.  Nothing of a type
  is lost that way: whoever knows the structures can unfold a written type
  (`Unfolds`) and comes to the type it was written for, and to no other.

    • `names_typeReference` — written types name only what is declared with
      them, and structures only what stands before them (`Ordered`),
    • `unfolds_typeReference`, `Unfolds.unique` — a written type unfolds to
      its type, and to no other if no structure name comes twice,
    • `structs_specification` — all of it for the structures and parameters of
      a compiled library.

  Structure names start with a capital or an underscore, so they are never
  mistaken for elementary types (`StructName.not_isCanonical`).
-/
import Stencil.Proofs.Library.Compilation
import Stencil.Proofs.Schema.Incremental

namespace Stencil

open Text (isIdentifier isWordStart isWordChar)
open Schema (Ty Registry IsCanonical)
open Outcome

/-! ## §1. Written types. -/

/-- The name in a written type, without its array suffixes. -/
def baseName (text : String) : String :=
  String.ofList (text.toList.takeWhile (· != '['))

/-- The written type is about an elementary type or one of these structures. -/
def Names (structs : List Declaration) (text : String) : Prop :=
  IsCanonical (baseName text) ∨ ∃ d ∈ structs, d.name = baseName text

/-- Structures whose fields are only about structures before them. -/
def Ordered (structs : List Declaration) : Prop :=
  ∀ before d after, structs = before ++ d :: after → ∀ field ∈ d.fields, Names before field.2

/-- What a written type stands for, given the structures: an elementary type
itself, a structure name the record of its fields, a suffix an array. -/
inductive Unfolds (structs : List Declaration) : String → Ty → Prop
  /-- Elementary types stay. -/
  | scalar {name : String} (h : IsCanonical name) : Unfolds structs name (.scalar name)
  /-- A structure is the record of its fields. -/
  | record {d : Declaration} (hd : d ∈ structs) {members : List (String × Ty)}
      (hnames : members.map Prod.fst = d.fields.map Prod.fst)
      (h : ∀ p ∈ d.fields.zip members, Unfolds structs p.1.2 p.2.2) :
      Unfolds structs d.name (.record members)
  /-- An array of any length. -/
  | sequence {text : String} {element : Ty} (h : Unfolds structs text element) :
      Unfolds structs (text ++ "[]") (.sequence element)
  /-- An array of a fixed length. -/
  | fixed {text : String} {element : Ty} (size : Nat) (h : Unfolds structs text element) :
      Unfolds structs (text ++ "[" ++ toString size ++ "]") (.fixed element size)

mutual
/-- The number of records in a type. -/
def Schema.Ty.records : Ty → Nat
  | .scalar _ => 0
  | .record members => 1 + memberRecords members
  | .sequence element => element.records
  | .fixed element _ => element.records

/-- The records of all members together. -/
def memberRecords : List (String × Ty) → Nat
  | [] => 0
  | (_, ty) :: members => ty.records + memberRecords members
end

/-- The types whose values live in memory. -/
inductive InMemory : Ty → Prop
  /-- Records. -/
  | record (members : List (String × Ty)) : InMemory (.record members)
  /-- Arrays of any length. -/
  | sequence (element : Ty) : InMemory (.sequence element)
  /-- Arrays of a fixed length. -/
  | fixed (element : Ty) (size : Nat) : InMemory (.fixed element size)
  /-- Strings. -/
  | string : InMemory (.scalar "string")
  /-- Byte strings of any length. -/
  | bytes : InMemory (.scalar "bytes")

theorem dataLocation_eq_memory {ty : Ty} : dataLocation ty = some "memory" ↔ InMemory ty := by
  cases ty with
  | scalar name =>
    by_cases hs : name = "string"
    · subst hs
      exact ⟨fun _ => .string, fun _ => rfl⟩
    · by_cases hb : name = "bytes"
      · subst hb
        exact ⟨fun _ => .bytes, fun _ => rfl⟩
      · have hnone : dataLocation (.scalar name) = none := by simp [dataLocation, hs, hb]
        rw [hnone]
        refine ⟨fun h => by simp at h, fun h => ?_⟩
        cases h with
        | string => exact absurd rfl hs
        | bytes => exact absurd rfl hb
  | record members => exact ⟨fun _ => .record members, fun _ => rfl⟩
  | sequence element => exact ⟨fun _ => .sequence element, fun _ => rfl⟩
  | fixed element size => exact ⟨fun _ => .fixed element size, fun _ => rfl⟩

/-! ## §2. The names of structures. -/

/-- A name that structures have: a capital letter or an underscore, and then
the characters of words. -/
structure StructName (name : String) : Prop where
  /-- The first character is a capital letter or an underscore. -/
  capital : ∃ c, name.toList.head? = some c ∧ (c.isUpper = true ∨ c = '_')
  /-- All characters belong to words. -/
  word : ∀ c ∈ name.toList, isWordChar c = true

/-- Among the ASCII characters only the small letters change in upper case:
all other entries of the tables lie beyond. -/
theorem upperCase_of_ascii {c : Char} (h : c.toNat < 128) :
    Text.upperCase c
      = if 97 ≤ c.toNat ∧ c.toNat ≤ 122 then [Char.ofNat (c.toNat - 32)] else [c] := by
  have hlong : Text.longUpperCases.lookup c.toNat = none := by
    have hbeyond : ∀ entry ∈ Text.longUpperCases, 128 ≤ entry.1 := by decide
    rw [List.lookup_eq_none_iff]
    intro entry hentry
    have hfirst := hbeyond entry hentry
    rw [bne_iff_ne]
    omega
  have hruns : Text.caseRuns.tail.findSome? (·.image? c.toNat) = none := by
    have hbeyond : ∀ run ∈ Text.caseRuns.tail, 128 ≤ run.first := by decide +kernel
    rw [List.findSome?_eq_none_iff]
    intro run hrun
    have hfirst := hbeyond run hrun
    unfold Text.CaseRun.image?
    rw [if_neg]
    simp only [Bool.and_eq_true, decide_eq_true_eq, not_and]
    omega
  have hsplit : Text.caseRuns = ⟨0x61, 26, 1, 0x41⟩ :: Text.caseRuns.tail := rfl
  have hfirst : Text.CaseRun.image? ⟨0x61, 26, 1, 0x41⟩ c.toNat
      = if 97 ≤ c.toNat ∧ c.toNat ≤ 122 then some (c.toNat - 32) else none := by
    unfold Text.CaseRun.image?
    by_cases hsmall : 97 ≤ c.toNat ∧ c.toNat ≤ 122
    · rw [if_pos hsmall, if_pos (by simp; omega)]
      simp only [Option.some.injEq]
      omega
    · rw [if_neg hsmall, if_neg (by simp; omega)]
  unfold Text.upperCase
  rw [hlong, hsplit, List.findSome?_cons, hfirst, hruns]
  by_cases hsmall : 97 ≤ c.toNat ∧ c.toNat ≤ 122
  · rw [if_pos hsmall, if_pos hsmall]
  · rw [if_neg hsmall, if_neg hsmall]

/-- Characters that start a word, in upper case. -/
theorem upperCase_of_isWordStart {c : Char} (h : isWordStart c = true) :
    ∃ u, Text.upperCase c = [u] ∧ (u.isUpper = true ∨ u = '_') ∧ isWordChar u = true := by
  have hletter : ∀ k, k < 26 → (Char.ofNat (65 + k)).isUpper = true
      ∧ isWordChar (Char.ofNat (65 + k)) = true := by decide
  have hcapital : ∀ {n : Nat}, 65 ≤ n → n ≤ 90 → (Char.ofNat n).isUpper = true
      ∧ isWordChar (Char.ofNat n) = true := by
    intro n hlow hhigh
    have hn := hletter (n - 65) (by omega)
    rwa [show 65 + (n - 65) = n by omega] at hn
  have hrange := Schema.toNat_of_isWordStart h
  rw [upperCase_of_ascii (by omega)]
  rcases hrange with ⟨hlow, hhigh⟩ | ⟨hlow, hhigh⟩ | hunder
  · rw [if_neg (by omega)]
    have hc := hcapital hlow hhigh
    rw [Char.ofNat_toNat] at hc
    exact ⟨c, rfl, .inl hc.1, hc.2⟩
  · rw [if_pos ⟨hlow, hhigh⟩]
    have hc := hcapital (n := c.toNat - 32) (by omega) (by omega)
    exact ⟨_, rfl, .inl hc.1, hc.2⟩
  · rw [if_neg (by omega)]
    obtain rfl : c = '_' := by
      rw [← Char.ofNat_toNat c, hunder]
    exact ⟨'_', rfl, .inr rfl, by decide⟩

/-- A capitalised identifier is a name of structures. -/
theorem structName_capitalize {name : String} (h : isIdentifier name = true) :
    StructName (Text.capitalize name) := by
  have hword := Schema.isWordChar_of_isIdentifier h
  unfold isIdentifier at h
  unfold Text.capitalize
  cases hlist : name.toList with
  | nil => simp [hlist] at h
  | cons c cs =>
    rw [hlist] at h hword
    simp only [Bool.and_eq_true, List.all_eq_true] at h
    obtain ⟨u, hu, hcapital, huword⟩ := upperCase_of_isWordStart h.1
    constructor
    case capital => exact ⟨u, by simp [hu], hcapital⟩
    case word => simpa [hu, huword] using h.2

/-- Canonical names of elementary types start with a small letter. -/
theorem head?_of_isCanonical {name : String} (h : IsCanonical name) :
    ∃ c, name.toList.head? = some c ∧ c.isLower = true := by
  obtain ⟨word, hk⟩ := h
  cases hk with
  | plain h =>
    simp only [List.mem_cons, List.not_mem_nil, or_false] at h
    rcases h with rfl | rfl | rfl | rfl <;> exact ⟨_, rfl, by decide⟩
  | uint => exact ⟨'u', rfl, by decide⟩
  | int => exact ⟨'i', rfl, by decide⟩
  | unsigned k => exact ⟨'u', by simp, by decide⟩
  | signed k => exact ⟨'i', by simp, by decide⟩
  | sizedBytes k => exact ⟨'b', by simp, by decide⟩

/-- **No structure has the name of an elementary type.** -/
theorem StructName.not_isCanonical {name : String} (h : StructName name) : ¬ IsCanonical name := by
  intro hc
  obtain ⟨c, hhead, hcapital⟩ := h.capital
  obtain ⟨c', hhead', hlower⟩ := head?_of_isCanonical hc
  obtain rfl : c = c' := by simpa [hhead] using hhead'
  rcases hcapital with hupper | rfl
  · simp only [Char.isUpper, Char.isLower, Bool.and_eq_true, decide_eq_true_eq] at hupper hlower
    have h₁ := UInt32.le_iff_toNat_le.mp hupper.2
    have h₂ := UInt32.le_iff_toNat_le.mp hlower.1
    simp at h₁ h₂
    omega
  · exact absurd hlower (by decide)

/-- A name of structures holds no bracket. -/
theorem StructName.no_bracket {name : String} (h : StructName name) :
    '[' ∉ name.toList ∧ ']' ∉ name.toList :=
  ⟨fun hmem => absurd (h.word _ hmem) (by decide), fun hmem => absurd (h.word _ hmem) (by decide)⟩

/-- Nor does a canonical name. -/
theorem no_bracket_of_isCanonical {name : String} (h : IsCanonical name) :
    '[' ∉ name.toList ∧ ']' ∉ name.toList := by
  obtain ⟨word, hk⟩ := h
  -- behind the letters of a sized name stand digits only
  have hdigits : ∀ k : Nat, '[' ∉ (toString k).toList ∧ ']' ∉ (toString k).toList := by
    intro k
    exact ⟨fun hmem => absurd (Schema.isDigit_of_mem_toString hmem) (by decide),
      fun hmem => absurd (Schema.isDigit_of_mem_toString hmem) (by decide)⟩
  cases hk with
  | plain h =>
    simp only [List.mem_cons, List.not_mem_nil, or_false] at h
    rcases h with rfl | rfl | rfl | rfl <;> decide
  | uint => decide
  | int => decide
  | unsigned k => simpa using hdigits (8 * k)
  | signed k => simpa using hdigits (8 * k)
  | sizedBytes k => simpa using hdigits k

/-! ## §3. Written types name what is declared. -/

theorem takeWhile_append_bracket (xs ys : List Char) :
    (xs ++ '[' :: ys).takeWhile (· != '[') = xs.takeWhile (· != '[') := by
  induction xs with
  | nil => simp
  | cons x xs ih =>
    by_cases hx : x = '['
    · simp [hx]
    · simp [hx, ih]

/-- Array suffixes do not count for the name. -/
theorem baseName_append_bracket (text suffix : String) :
    baseName (text ++ "[" ++ suffix) = baseName text := by
  unfold baseName
  rw [String.append_assoc, String.toList_append]
  have hbracket : ("[" ++ suffix).toList = '[' :: suffix.toList := by simp
  rw [hbracket, takeWhile_append_bracket]

/-- A text without a bracket is its own name. -/
theorem baseName_of_no_bracket {text : String} (h : '[' ∉ text.toList) : baseName text = text := by
  have hall : ∀ c ∈ text.toList, (c != '[') = true := by
    intro c hc
    rw [bne_iff_ne]
    rintro rfl
    exact h hc
  unfold baseName
  rw [List.takeWhile_eq_self_iff.mpr hall, String.ofList_toList]

theorem Names.mono {structs more : List Declaration} {text : String} (h : Names structs text)
    (hsub : ∀ d ∈ structs, d ∈ more) : Names more text := by
  rcases h with h | ⟨d, hd, hname⟩
  · exact .inl h
  · exact .inr ⟨d, hsub d hd, hname⟩

theorem Names.suffix {structs : List Declaration} {text : String} (h : Names structs text)
    (suffix : String) : Names structs (text ++ "[" ++ suffix) := by
  unfold Names
  rw [baseName_append_bracket]
  exact h

/-- **A written type names an elementary type or a structure declared with it.** -/
theorem names_typeReference {name : String} (hname : isIdentifier name = true) :
    ∀ {ty : Ty}, ty.WellFormed → Names (declarationsOf name ty) (typeReference name ty) := by
  intro ty h
  induction h with
  | @scalar keyword h =>
    refine .inl ?_
    show IsCanonical (baseName keyword)
    rw [baseName_of_no_bracket (no_bracket_of_isCanonical h).1]
    exact h
  | @record members _ _ _ _ =>
    have hbase := baseName_of_no_bracket (structName_capitalize hname).no_bracket.1
    rw [declarationsOf]
    exact .inr ⟨_, List.mem_append_right _ List.mem_cons_self, hbase.symm⟩
  | sequence _ ih =>
    rw [declarationsOf, typeReference, show "[]" = "[" ++ "]" from rfl, ← String.append_assoc]
    exact ih.suffix "]"
  | @fixed element size _ _ _ ih =>
    rw [declarationsOf, typeReference, String.append_assoc]
    exact ih.suffix (toString size ++ "]")

theorem ordered_nil : Ordered [] := by
  intro before d after h
  simp at h

/-- Ordered structures behind ordered ones are ordered. -/
theorem Ordered.append {xs ys : List Declaration} (hx : Ordered xs) (hy : Ordered ys) :
    Ordered (xs ++ ys) := by
  intro before d after hsplit field hfield
  rcases List.append_eq_append_iff.mp hsplit with ⟨front, rfl, hys⟩ | ⟨back, rfl, hback⟩
  · exact (hy front d after hys field hfield).mono fun e he => List.mem_append_right _ he
  · cases back with
    | nil =>
      have hfront : Names [] field.2 := hy [] d after hback.symm field hfield
      exact hfront.mono (by simp)
    | cons e back =>
      obtain ⟨rfl, rfl⟩ := List.cons.inj hback
      exact hx before d back rfl field hfield

/-- A structure about ordered ones may stand behind them. -/
theorem Ordered.concat {xs : List Declaration} {d : Declaration} (hx : Ordered xs)
    (hd : ∀ field ∈ d.fields, Names xs field.2) : Ordered (xs ++ [d]) := by
  intro before e after hsplit field hfield
  rcases List.append_eq_append_iff.mp hsplit with ⟨front, rfl, hone⟩ | ⟨back, rfl, hback⟩
  · cases front with
    | nil =>
      obtain ⟨rfl, -⟩ := List.cons.inj hone
      exact (hd field hfield).mono (by simp)
    | cons _ front => simp at hone
  · cases back with
    | nil =>
      obtain ⟨rfl, -⟩ := List.cons.inj hback
      exact (hd field hfield).mono (by simp)
    | cons b back =>
      obtain ⟨rfl, -⟩ := List.cons.inj hback
      exact hx before _ back rfl field hfield

/-- The structures of a member are among those of all members. -/
theorem mem_memberDeclarations {m : String × Ty} : ∀ {members : List (String × Ty)},
    m ∈ members → ∀ d ∈ declarationsOf m.1 m.2, d ∈ memberDeclarations members
  | (name, ty) :: members, hm, d, hd => by
      rw [memberDeclarations]
      rcases List.mem_cons.mp hm with rfl | hm
      · exact List.mem_append_left _ hd
      · exact List.mem_append_right _ (mem_memberDeclarations hm d hd)

mutual
/-- **The structures of a type are ordered:** a record comes behind the records
of its members. -/
theorem ordered_declarationsOf : ∀ (ty : Ty) (name : String), ty.WellFormed →
    Ordered (declarationsOf name ty)
  | .scalar keyword, name, _ => by
      rw [declarationsOf]
      exact ordered_nil
  | .record members, name, h => by
      cases h with
      | record _ hid hms =>
        rw [declarationsOf]
        refine (ordered_memberDeclarations members hms).concat fun field hfield => ?_
        obtain ⟨m, hm, rfl⟩ := List.mem_map.mp hfield
        exact (names_typeReference (hid m hm) (hms m hm)).mono (mem_memberDeclarations hm)
  | .sequence element, name, h => by
      cases h with
      | sequence h =>
        rw [declarationsOf]
        exact ordered_declarationsOf element name h
  | .fixed element size, name, h => by
      cases h with
      | fixed h =>
        rw [declarationsOf]
        exact ordered_declarationsOf element name h

/-- The same for members. -/
theorem ordered_memberDeclarations : ∀ (members : List (String × Ty)),
    (∀ m ∈ members, m.2.WellFormed) → Ordered (memberDeclarations members)
  | [], _ => by
      rw [memberDeclarations]
      exact ordered_nil
  | (name, ty) :: members, h => by
      rw [memberDeclarations]
      exact (ordered_declarationsOf ty name (h _ List.mem_cons_self)).append
        (ordered_memberDeclarations members fun m hm => h m (List.mem_cons_of_mem _ hm))
end

mutual
/-- A type has as many structures as it has records. -/
theorem length_declarationsOf : ∀ (ty : Ty) (name : String),
    (declarationsOf name ty).length = ty.records
  | .scalar keyword, name => rfl
  | .record members, name => by
      rw [declarationsOf, Schema.Ty.records, List.length_append, length_memberDeclarations members,
        List.length_singleton]
      omega
  | .sequence element, name => by
      rw [declarationsOf, Schema.Ty.records, length_declarationsOf element name]
  | .fixed element size, name => by
      rw [declarationsOf, Schema.Ty.records, length_declarationsOf element name]

theorem length_memberDeclarations : ∀ (members : List (String × Ty)),
    (memberDeclarations members).length = memberRecords members
  | [] => rfl
  | (name, ty) :: members => by
      rw [memberDeclarations, memberRecords, List.length_append, length_declarationsOf ty name,
        length_memberDeclarations members]
end

mutual
/-- The structures of a type have names of structures. -/
theorem structName_of_mem : ∀ (ty : Ty) {name : String}, isIdentifier name = true →
    ty.WellFormed → ∀ d ∈ declarationsOf name ty, StructName d.name
  | .scalar keyword, name, _, _ => by simp [declarationsOf]
  | .record members, name, hname, h => by
      cases h with
      | record _ hid hms =>
        intro d hd
        rw [declarationsOf] at hd
        rcases List.mem_append.mp hd with hd | hd
        · exact structName_of_mem_members members hid hms d hd
        · obtain rfl := List.mem_singleton.mp hd
          exact structName_capitalize hname
  | .sequence element, name, hname, h => by
      cases h with
      | sequence h =>
        rw [declarationsOf]
        exact structName_of_mem element hname h
  | .fixed element size, name, hname, h => by
      cases h with
      | fixed h =>
        rw [declarationsOf]
        exact structName_of_mem element hname h

theorem structName_of_mem_members : ∀ (members : List (String × Ty)),
    (∀ m ∈ members, isIdentifier m.1 = true) → (∀ m ∈ members, m.2.WellFormed) →
    ∀ d ∈ memberDeclarations members, StructName d.name
  | [], _, _ => by simp [memberDeclarations]
  | (name, ty) :: members, hid, h => by
      intro d hd
      rw [memberDeclarations] at hd
      rcases List.mem_append.mp hd with hd | hd
      · exact structName_of_mem ty (hid _ List.mem_cons_self) (h _ List.mem_cons_self) d hd
      · exact structName_of_mem_members members (fun m hm => hid m (List.mem_cons_of_mem _ hm))
          (fun m hm => h m (List.mem_cons_of_mem _ hm)) d hd
end

/-! ## §4. Unfolding. -/

/-- **A written type unfolds to its type,** wherever its structures are known. -/
theorem unfolds_typeReference {structs : List Declaration} {ty : Ty} (h : ty.WellFormed) :
    ∀ {name : String}, (∀ d ∈ declarationsOf name ty, d ∈ structs) →
      Unfolds structs (typeReference name ty) ty := by
  induction h with
  | scalar h => exact fun _ => .scalar h
  | @record members _ _ _ ih =>
    intro name hsub
    rw [declarationsOf] at hsub
    have hself := hsub ⟨Text.capitalize name, members.map fun m => (m.1, typeReference m.1 m.2)⟩
      (List.mem_append_right _ List.mem_cons_self)
    refine .record hself (by simp [Function.comp_def]) fun p hp => ?_
    -- a field stands beside the member it was written for
    obtain ⟨m, hm, rfl⟩ : ∃ m ∈ members, p = ((m.1, typeReference m.1 m.2), m) := by
      have hzip : (members.map fun m => (m.1, typeReference m.1 m.2)).zip (members.map id)
          = members.map fun m => ((m.1, typeReference m.1 m.2), m) := List.zip_map'
      rw [List.map_id] at hzip
      rw [hzip] at hp
      obtain ⟨m, hm, rfl⟩ := List.mem_map.mp hp
      exact ⟨m, hm, rfl⟩
    exact ih m hm fun d hd =>
      hsub d (List.mem_append_left _ (mem_memberDeclarations hm d hd))
  | sequence _ ih =>
    intro name hsub
    rw [declarationsOf] at hsub
    exact .sequence (ih hsub)
  | @fixed element size _ _ _ ih =>
    intro name hsub
    rw [declarationsOf] at hsub
    exact .fixed size (ih hsub)

/-- A text that ends with a bracket has one, and is no name. -/
theorem ne_of_bracket {name text : String} (h : ']' ∉ name.toList) (hend : ']' ∈ text.toList) :
    name ≠ text := by
  rintro rfl
  exact h hend

/-- The digits of a number hold no bracket, and there is one at least. -/
theorem digits_toString (n : Nat) : '[' ∉ (toString n).toList ∧ toString n ≠ "" := by
  have htoList : (toString n).toList = Nat.toDigits 10 n := by
    rw [Nat.toString_eq_repr, Nat.toList_repr]
  rw [htoList]
  refine ⟨fun hmem => ?_, fun hempty => ?_⟩
  · exact absurd (Nat.isDigit_of_mem_toDigits (by omega) (by omega) hmem) (by decide)
  · rw [hempty] at htoList
    exact Nat.toDigits_ne_nil htoList.symm

/-- The last suffix of a written type can be cut off in one way only. -/
theorem suffix_inj {text text' size size' : String} (h : '[' ∉ size.toList)
    (h' : '[' ∉ size'.toList)
    (heq : text ++ "[" ++ size ++ "]" = text' ++ "[" ++ size' ++ "]") :
    text = text' ∧ size = size' := by
  have hlist := congrArg (fun s => s.toList.reverse) heq
  simp only [String.toList_append, List.reverse_append] at hlist
  -- read from the end: the size comes before the bracket that opens the suffix
  have hcut : size.toList.reverse ++ '[' :: text.toList.reverse
      = size'.toList.reverse ++ '[' :: text'.toList.reverse := by simpa using hlist
  have htake : ∀ {s : String}, '[' ∉ s.toList →
      s.toList.reverse.takeWhile (· != '[') = s.toList.reverse := by
    intro s hs
    rw [List.takeWhile_eq_self_iff]
    intro c hc
    rw [bne_iff_ne]
    rintro rfl
    exact hs (List.mem_reverse.mp hc)
  have hsize := congrArg (List.takeWhile (· != '[')) hcut
  rw [takeWhile_append_bracket, takeWhile_append_bracket, htake h, htake h'] at hsize
  rw [hsize] at hcut
  have htext := (List.cons.inj (List.append_cancel_left hcut)).2
  exact ⟨String.toList_injective (List.reverse_injective htext),
    String.toList_injective (List.reverse_injective hsize)⟩

theorem sequence_text (text : String) : text ++ "[]" = text ++ "[" ++ "" ++ "]" := by
  rw [String.append_empty, String.append_assoc]
  rfl

/-- **A written type unfolds to one type only,** if no structure name comes
twice and none is an elementary type or has a bracket. -/
theorem Unfolds.unique {structs : List Declaration} (hd : (structs.map Declaration.name).Nodup)
    (hs : ∀ d ∈ structs, StructName d.name) {text : String} {ty : Ty}
    (h : Unfolds structs text ty) : ∀ {ty' : Ty}, Unfolds structs text ty' → ty = ty' := by
  -- what ends with a bracket is neither an elementary type nor a structure
  have hscalar : ∀ {name text : String}, IsCanonical name → ']' ∈ text.toList → name ≠ text :=
    fun hc => ne_of_bracket (no_bracket_of_isCanonical hc).2
  have hstruct : ∀ {d : Declaration} {text : String}, d ∈ structs → ']' ∈ text.toList →
      d.name ≠ text := fun hd => ne_of_bracket (hs _ hd).no_bracket.2
  induction h with
  | @scalar name hc =>
    intro ty' h'
    generalize hname : name = text' at h'
    cases h' with
    | scalar => rfl
    | record hd' =>
      rw [hname] at hc
      exact absurd hc (hs _ hd').not_isCanonical
    | sequence => exact absurd hname (hscalar hc (by simp))
    | fixed => exact absurd hname (hscalar hc (by simp))
  | @record d hmem members hnames _ ih =>
    intro ty' h'
    generalize hname : d.name = text' at h'
    cases h' with
    | scalar hc => exact absurd (hname ▸ hc) (hs d hmem).not_isCanonical
    | @record d' hmem' members' hnames' h' =>
      -- one name is one structure, so the members agree one by one
      obtain rfl : d = d' := List.inj_on_of_nodup_map hd hmem hmem' hname
      have hlen : ∀ {ms : List (String × Ty)}, ms.map Prod.fst = d.fields.map Prod.fst →
          ms.length = d.fields.length := fun hm => by simpa using congrArg List.length hm
      congr 1
      apply List.ext_getElem (by rw [hlen hnames, hlen hnames'])
      intro n hn hn'
      have hnf : n < d.fields.length := by
        rw [← hlen hnames]
        exact hn
      have hfst : members[n].1 = members'[n].1 := by
        have := congrArg (fun l => l[n]?) (hnames.trans hnames'.symm)
        simpa [hn, hn'] using this
      have hzip : (d.fields[n], members[n]) ∈ d.fields.zip members :=
        List.mem_iff_getElem.mpr ⟨n, by simp [hn, hnf], by simp⟩
      have hzip' : (d.fields[n], members'[n]) ∈ d.fields.zip members' :=
        List.mem_iff_getElem.mpr ⟨n, by simp [hn', hnf], by simp⟩
      exact Prod.ext hfst (ih _ hzip (h' _ hzip'))
    | sequence => exact absurd hname (hstruct hmem (by simp))
    | fixed => exact absurd hname (hstruct hmem (by simp))
  | @sequence text element _ ih =>
    intro ty' h'
    generalize htext : text ++ "[]" = text' at h'
    cases h' with
    | scalar hc => exact absurd htext.symm (hscalar hc (by simp))
    | record hd' => exact absurd htext.symm (hstruct hd' (by simp))
    | sequence h' =>
      rw [sequence_text, sequence_text] at htext
      obtain ⟨rfl, -⟩ := suffix_inj (by simp) (by simp) htext
      rw [ih h']
    | fixed size h' =>
      rw [sequence_text] at htext
      have hsize := (suffix_inj (by simp) (digits_toString size).1 htext).2
      exact absurd hsize.symm (digits_toString size).2
  | @fixed text element size _ ih =>
    intro ty' h'
    generalize htext : text ++ "[" ++ toString size ++ "]" = text' at h'
    cases h' with
    | scalar hc => exact absurd htext.symm (hscalar hc (by simp))
    | record hd' => exact absurd htext.symm (hstruct hd' (by simp))
    | sequence h' =>
      rw [sequence_text] at htext
      have hsize := (suffix_inj (digits_toString size).1 (by simp) htext).2
      exact absurd hsize (digits_toString size).2
    | fixed size' h' =>
      obtain ⟨rfl, hsize⟩ :=
        suffix_inj (digits_toString size).1 (digits_toString size').1 htext
      rw [ih h', toString_inj hsize]

/-! ## §5. Libraries. -/

/-- The structures of one entry of a registry. -/
def entryStructs (registry : Registry) (name : String) : List Declaration :=
  match registry.get? name with
  | some ty => declarationsOf name ty
  | none => []

/-- Declare an entry of a registry, if it has one of that name. -/
def declareNamed (registry : Registry) (d : Declarations) (name : String) : Declarations :=
  match registry.get? name with
  | some ty => (d.declareEntry name ty).1
  | none => d

/-- A new entry puts its structures at the end, and is remembered. -/
theorem declareNamed_new {registry : Registry} {d : Declarations} {name : String} {ty : Ty}
    (hty : registry.get? name = some ty) (hnew : d.references.get? name = none) :
    declareNamed registry d name = ⟨d.list ++ declarationsOf name ty,
      d.references.put name (typeReference name ty)⟩ := by
  simp only [declareNamed, hty, Declarations.declareEntry, hnew]
  rfl

/-- Declaring new entries one after the other puts their structures in that
order, and remembers how each is written. -/
theorem foldl_declareNamed {registry : Registry} : ∀ {names : List String} {d : Declarations},
    names.Nodup → (∀ name ∈ names, d.references.get? name = none) →
    (∀ name ∈ names, ∃ ty, registry.get? name = some ty) →
    (names.foldl (declareNamed registry) d).list
        = d.list ++ names.flatMap (entryStructs registry)
      ∧ ∀ name ty, registry.get? name = some ty →
        name ∈ names ∨ d.references.get? name = some (typeReference name ty) →
        (names.foldl (declareNamed registry) d).references.get? name
          = some (typeReference name ty)
  | [], d, _, _, _ => ⟨by simp, fun name ty _ hname => by simpa using hname⟩
  | first :: names, d, hnd, hnew, hall => by
      obtain ⟨hfirst, hnd⟩ := List.nodup_cons.mp hnd
      obtain ⟨ty₁, hget⟩ := hall first List.mem_cons_self
      have hstep := declareNamed_new hget (hnew first List.mem_cons_self)
      -- the other names are still new after the first
      have hnew' : ∀ name ∈ names,
          (declareNamed registry d first).references.get? name = none := by
        intro name hname
        have hne : name ≠ first := by
          rintro rfl
          exact hfirst hname
        rw [hstep]
        show (d.references.put first _).get? name = none
        rw [Catalog.get?_put_of_ne _ _ hne]
        exact hnew name (List.mem_cons_of_mem _ hname)
      obtain ⟨hlist, hrefs⟩ := foldl_declareNamed hnd hnew'
        fun name hname => hall name (List.mem_cons_of_mem _ hname)
      rw [List.foldl_cons]
      refine ⟨?_, fun name ty hty hname => ?_⟩
      · rw [hlist, hstep]
        simp [entryStructs, hget]
      refine hrefs name ty hty ?_
      rw [hstep]
      by_cases hsame : name = first
      · subst hsame
        obtain rfl : ty₁ = ty := by simpa [hget] using hty
        exact .inr (by simp)
      · rcases hname with hname | hname
        · exact .inl ((List.mem_cons.mp hname).resolve_left hsame)
        · refine .inr ?_
          show (d.references.put first _).get? name = _
          rw [Catalog.get?_put_of_ne _ _ hsame]
          exact hname

/-- The structures of a configuration, entry by entry, and how its entries are
written. -/
theorem declarations_of_entries {config : Config} {registry : Registry}
    (hall : ∀ name ∈ config.structs.names, ∃ ty, registry.get? name = some ty) :
    (config.declarations registry).list = config.structs.names.flatMap (entryStructs registry)
      ∧ ∀ name ∈ config.structs.names, ∀ ty, registry.get? name = some ty →
        (config.declarations registry).reference? name = some (typeReference name ty) := by
  have hfold := @foldl_declareNamed registry _ .empty
    (show config.structs.names.Nodup from config.structs.distinct) (fun _ _ => rfl) hall
  exact ⟨hfold.1, fun name hname ty hty => hfold.2 name ty hty (.inl hname)⟩

/-- The parameters of inputs, each beside its input. -/
theorem forall₂_inputParams {registry : Registry} (declarations : Declarations) :
    ∀ {inputs : List String} {types : List Ty} (k : Nat),
      inputs.map registry.get? = types.map some →
      List.Forall₂
        (fun input p => ∃ ty, registry.get? input = some ty
          ∧ p.type = (declarations.reference? input).getD input ∧ p.location = dataLocation ty)
        inputs
        (((inputs.zip types).zipIdx k).map fun ((input, ty), n) =>
          (⟨(declarations.reference? input).getD input, dataLocation ty, inputName n⟩ : Param))
  | [], _, _, _ => by
      rw [List.zip_nil_left]
      exact .nil
  | input :: inputs, [], _, h => by simp at h
  | input :: inputs, ty :: types, k, h => by
      rw [List.map_cons, List.map_cons] at h
      obtain ⟨hty, hrest⟩ := List.cons.inj h
      rw [List.zip_cons_cons, List.zipIdx_cons, List.map_cons]
      exact .cons ⟨ty, hty, rfl, rfl⟩ (forall₂_inputParams declarations (k + 1) hrest)

/-- What is known of the entries of a configuration whose types are built. -/
theorem entries_of_registry {config : Config} {registry : Registry}
    (h : config.registry = .ok registry) :
    (∀ name ty, registry.get? name = some ty →
        name ∈ config.structs.names ∧ isIdentifier name = true ∧ ty.WellFormed)
      ∧ ∀ name ∈ config.structs.names, ∃ ty, registry.get? name = some ty := by
  have hsources : config.sources.names = config.structs.names := by
    simp [Config.sources, Catalog.names, Function.comp_def]
  obtain ⟨hsound, hnames⟩ := Registry.sound_of_ofSources h
  refine ⟨fun name ty hty => ?_, fun name hname => ?_⟩
  · have hmem : name ∈ config.sources.names := (hnames name).mp (Catalog.mem_names_of_get? hty)
    exact ⟨hsources ▸ hmem, (Registry.typeName_of_ofSources h name hmem).identifier,
      hsound.wellFormed name ty hty⟩
  · rw [← hsources] at hname
    exact Catalog.mem_names_iff.mp ((hnames name).mpr hname)

/-- The structures of all entries are ordered, and have names of structures. -/
theorem ordered_flatMap (registry : Registry) : ∀ {names : List String},
    (∀ name ∈ names, ∃ ty, registry.get? name = some ty ∧ isIdentifier name = true
      ∧ ty.WellFormed) →
    Ordered (names.flatMap (entryStructs registry))
      ∧ ∀ d ∈ names.flatMap (entryStructs registry), StructName d.name
  | [], _ => ⟨ordered_nil, by simp⟩
  | name :: names, h => by
      obtain ⟨ty, hty, hid, hw⟩ := h name List.mem_cons_self
      obtain ⟨hordered, hstructs⟩ :=
        ordered_flatMap registry fun n hn => h n (List.mem_cons_of_mem _ hn)
      have hentry : entryStructs registry name = declarationsOf name ty := by
        simp [entryStructs, hty]
      rw [List.flatMap_cons, hentry]
      refine ⟨(ordered_declarationsOf ty name hw).append hordered, fun d hd => ?_⟩
      rcases List.mem_append.mp hd with hd | hd
      · exact structName_of_mem ty hid hw d hd
      · exact hstructs d hd

/-- **The structures of a library are closed, ordered and faithful.**  Fields
and parameters are about elementary types and structures, fields only about
structures before their own; there is one structure for each record in the
types of the entries.  A parameter is written as the type of its input is, so
it unfolds to that type and to no other unless a structure name comes twice,
and it lives in memory exactly if values of its type do. -/
theorem structs_specification {config : Config} {table : Builtins} {library : Library}
    (h : config.compile table = .ok library) :
    ∃ registry, config.registry = .ok registry
      ∧ Ordered library.structs
      ∧ (∀ f ∈ library.functions, ∀ p ∈ f.params, Names library.structs p.type)
      ∧ library.structs.length
          = (config.structs.names.map fun name => (registry.get? name).elim 0 Ty.records).sum
      ∧ ∀ f ∈ library.functions, ∃ d, (f.name, d) ∈ config.functions.entries
          ∧ List.Forall₂
              (fun input p => ∃ ty, registry.get? input = some ty
                ∧ (p.location = some "memory" ↔ InMemory ty)
                ∧ ((library.structs.map Declaration.name).Nodup →
                    ∀ ty', Unfolds library.structs p.type ty' ↔ ty' = ty))
              d.inputs f.params := by
  obtain ⟨registry, results, hregistry, -, hlibrary⟩ := Config.compile_eq_ok h
  obtain ⟨hentries, hall⟩ := entries_of_registry hregistry
  have hstructs : library.structs = config.structs.names.flatMap (entryStructs registry) := by
    rw [hlibrary]
    exact (declarations_of_entries hall).1
  obtain ⟨hordered, hnamed⟩ := ordered_flatMap registry fun name hname => by
    obtain ⟨ty, hty⟩ := hall name hname
    exact ⟨ty, hty, (hentries name ty hty).2⟩
  rw [← hstructs] at hordered hnamed
  -- the structures of an entry are among those of the library
  have hsub : ∀ {name : String} {ty : Ty}, registry.get? name = some ty →
      ∀ d ∈ declarationsOf name ty, d ∈ library.structs := by
    intro name ty hty d hd
    rw [hstructs]
    exact List.mem_flatMap.mpr
      ⟨name, (hentries name ty hty).1, by simpa [entryStructs, hty] using hd⟩
  -- a parameter is written as the entry of its input is
  have hparams : ∀ f ∈ library.functions, ∃ d, (f.name, d) ∈ config.functions.entries
      ∧ List.Forall₂ (fun input p => ∃ ty, registry.get? input = some ty
          ∧ p.type = typeReference input ty ∧ p.location = dataLocation ty)
        d.inputs f.params := by
    intro f hf
    obtain ⟨registry', d, hregistry', hentry, hcompile⟩ := Config.mem_functions h hf
    obtain rfl : registry = registry' := Except.ok.inj (hregistry.symm.trans hregistry')
    obtain ⟨types, tree, program, htypes, -, -, heq⟩ := compileFunction_eq_ok hcompile
    refine ⟨d, hentry, ?_⟩
    have hzip := forall₂_inputParams (config.declarations registry) 0
      (inputTypes_eq_ok htypes)
    rw [show f.params = inputParams (config.declarations registry) d.inputs types from
      congrArg Function.params heq]
    refine hzip.imp fun input p hp => ?_
    obtain ⟨ty, hty, htype, hlocation⟩ := hp
    rw [(declarations_of_entries hall).2 input (hentries input ty hty).1 ty hty] at htype
    exact ⟨ty, hty, htype, hlocation⟩
  refine ⟨registry, hregistry, hordered, fun f hf p hp => ?_, ?_, fun f hf => ?_⟩
  · obtain ⟨d, -, hforall⟩ := hparams f hf
    obtain ⟨input, -, ty, hty, htype, -⟩ := exists_of_forall₂_mem hforall hp
    rw [htype]
    exact (names_typeReference (hentries input ty hty).2.1 (hentries input ty hty).2.2).mono
      (hsub hty)
  · rw [hstructs, List.length_flatMap]
    congr 1
    refine List.map_congr_left fun name hname => ?_
    obtain ⟨ty, hty⟩ := hall name hname
    simp [entryStructs, hty, length_declarationsOf]
  · obtain ⟨d, hentry, hforall⟩ := hparams f hf
    refine ⟨d, hentry, hforall.imp fun input p hp => ?_⟩
    obtain ⟨ty, hty, htype, hlocation⟩ := hp
    refine ⟨ty, hty, by rw [hlocation]; exact dataLocation_eq_memory, fun hnodup ty' => ?_⟩
    have hunfolds := unfolds_typeReference (hentries input ty hty).2.2 (hsub hty)
    rw [htype]
    exact ⟨fun h' => (hunfolds.unique hnodup hnamed h').symm, fun h' => h' ▸ hunfolds⟩

/-- Two types, of which one is records in arrays in a record. -/
def orderConfig : Config :=
  { contractName := "Orders"
    structs := ⟨[("Order",
        ⟨"record(uint8 id, record(string name, record(uint8 n)[2][] sizes)[] items)"⟩),
      ("Count", ⟨"uint8"⟩)], by decide⟩
    functions := ⟨[("encodeOrder",
      ⟨"\x7b\x7b.obj0.id\x7d\x7d\x7b\x7b.obj1\x7d\x7d", ["Order", "Count"]⟩)], by decide⟩ }

/-- The innermost record. -/
def sizeType : Ty :=
  .record [("n", .scalar "uint8")]

/-- The record around it. -/
def itemType : Ty :=
  .record [("name", .scalar "string"), ("sizes", .sequence (.fixed sizeType 2))]

/-- The record around both. -/
def orderType : Ty :=
  .record [("id", .scalar "uint8"), ("items", .sequence itemType)]

/-- What the configuration compiles to: a structure for each record, the
innermost first. -/
def orderLibrary : Library :=
  { contractName := "Orders"
    structs := [⟨"Sizes", [("n", "uint8")]⟩,
      ⟨"Items", [("name", "string"), ("sizes", "Sizes[2][]")]⟩,
      ⟨"Order", [("id", "uint8"), ("items", "Items[]")]⟩]
    functions := [⟨"encodeOrder", [⟨"Order", some "memory", "obj0"⟩, ⟨"uint8", none, "obj1"⟩],
      [.group [.value "obj0.id", .value "obj1"]]⟩] }

theorem registry_order : orderConfig.registry
    = .ok ⟨⟨[("Order", orderType), ("Count", .scalar "uint8")], by decide⟩⟩ := by
  have horder : Schema.InGrammar
      "record(uint8 id, record(string name, record(uint8 n)[2][] sizes)[] items)"
      (.record [("id", .scalar "uint8"), ("items", .sequence (.record [("name", .scalar "string"),
        ("sizes", .sequence (.fixed (.record [("n", .scalar "uint8")]) 2))]))]) :=
    Schema.read_eq_ok_iff.mp (by cbv)
  have hcount : Schema.InGrammar "uint8" (.scalar "uint8") := Schema.read_eq_ok_iff.mp (by cbv)
  refine @Registry.build_of_defineAll orderConfig.sources
    [("Order", "record(uint8 id, record(string name, record(uint8 n)[2][] sizes)[] items)"),
      ("Count", "uint8")] _ _ (by decide) ?_
  refine Registry.defineAll_cons_eq_ok.mpr ⟨_, orderType, Registry.define_of_expand
    (Schema.checkName_eq_ok.mp rfl) (by decide) horder rfl (by decide), ?_⟩
  exact Registry.defineAll_cons_eq_ok.mpr ⟨_, _, Registry.define_of_expand
    (Schema.checkName_eq_ok.mp rfl) (by decide) hcount rfl (by decide), rfl⟩

theorem compile_order : orderConfig.compile Builtin.standard = .ok orderLibrary := by
  have hparse : Template.parse "\x7b\x7b.obj0.id\x7d\x7d\x7b\x7b.obj1\x7d\x7d"
      = .ok ⟨0, [.action 0 ⟨2, none, [⟨2, [.field ["obj0", "id"]]⟩]⟩,
          .action 12 ⟨14, none, [⟨14, [.field ["obj1"]]⟩]⟩]⟩ := by cbv
  unfold Config.compile
  rw [registry_order]
  unfold Config.compileFunctions orderConfig
  simp only [List.mapM_cons, compileUnit, compileFunction, hparse, ok_bind]
  rfl

/-- The three structures are in order; the first parameter unfolds through all
of them to its type and lives in memory, the second does not. -/
theorem structs_specification_order :
    orderConfig.compile Builtin.standard = .ok orderLibrary
      ∧ Ordered orderLibrary.structs
      ∧ (∀ ty, Unfolds orderLibrary.structs "Order" ty ↔ ty = orderType)
      ∧ InMemory orderType ∧ ¬ InMemory (.scalar "uint8") := by
  refine ⟨compile_order, ?_⟩
  obtain ⟨registry, hregistry, hordered, -, -, hparams⟩ := structs_specification compile_order
  obtain rfl := Except.ok.inj (registry_order.symm.trans hregistry)
  obtain ⟨d, hentry, hforall⟩ := hparams _ List.mem_cons_self
  obtain rfl : d = ⟨_, ["Order", "Count"]⟩ := by simpa [orderConfig] using hentry
  rcases hforall with _ | ⟨hfirst, _ | ⟨hsecond, -⟩⟩
  obtain ⟨ty, hty, hmemory, hunfolds⟩ := hfirst
  obtain rfl : orderType = ty := Option.some.inj hty
  obtain ⟨count, hcount, hnone, -⟩ := hsecond
  obtain rfl : Ty.scalar "uint8" = count := Option.some.inj hcount
  exact ⟨hordered, hunfolds (by decide), hmemory.mp rfl, mt hnone.mpr (by decide)⟩

end Stencil
