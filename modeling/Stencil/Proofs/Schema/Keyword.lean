/-
  Stencil.Proofs.Schema.Keyword
  ─────────────────────────────
  THE KEYWORDS OF ELEMENTARY TYPES, said without the reader.

  `Keyword word name` lists the words that mean an elementary type, each with
  the canonical name it stands for; `IsIntegerName` picks out the canonical
  names of numbers.  The lookup of the library finds exactly these:

    • `scalarName?_eq_some_iff` — on identifiers, `scalarName?` is `Keyword`,
    • `isNumeric_iff` — among canonical names, the prefix test for numbers
      accepts the integers and nothing else.

  The work is in the sizes: a run of digits that does not start with a zero is
  the decimal spelling of its own value (`toDigits_decimalValue`).
-/
import Stencil.Schema.Scalar
import Stencil.Schema.Ty
import Stencil.Text.Word

namespace Stencil.Schema

/-! ## §1. The table. -/

/-- The words that mean an elementary type, with the canonical names. -/
inductive Keyword : String → String → Prop
  /-- The types without a size are their own names. -/
  | plain {word : String} (h : word ∈ ["bool", "address", "string", "bytes"]) :
      Keyword word word
  /-- The widest unsigned integers. -/
  | uint : Keyword "uint" "uint256"
  /-- The widest signed integers. -/
  | int : Keyword "int" "int256"
  /-- Unsigned integers of a given width. -/
  | unsigned (k : Nat) (low : 1 ≤ k) (high : k ≤ 32) :
      Keyword ("uint" ++ toString (8 * k)) ("uint" ++ toString (8 * k))
  /-- Signed integers of a given width. -/
  | signed (k : Nat) (low : 1 ≤ k) (high : k ≤ 32) :
      Keyword ("int" ++ toString (8 * k)) ("int" ++ toString (8 * k))
  /-- Byte strings of a given length. -/
  | sizedBytes (k : Nat) (low : 1 ≤ k) (high : k ≤ 32) :
      Keyword ("bytes" ++ toString k) ("bytes" ++ toString k)

/-- The canonical names of elementary types. -/
def IsCanonical (name : String) : Prop :=
  ∃ word, Keyword word name

/-- The canonical names of numbers: `uintN` and `intN`. -/
def IsIntegerName (name : String) : Prop :=
  ∃ k, 1 ≤ k ∧ k ≤ 32 ∧
    (name = "uint" ++ toString (8 * k) ∨ name = "int" ++ toString (8 * k))

/-! ## §2. Decimal sizes. -/

/-- A digit stands for a number below ten, and is its spelling. -/
theorem digitChar_of_isDigit {c : Char} (h : c.isDigit = true) :
    c.toNat - '0'.toNat < 10 ∧ Nat.digitChar (c.toNat - '0'.toNat) = c := by
  have hlow : 48 ≤ c.toNat ∧ c.toNat ≤ 57 := by
    simp only [Char.isDigit, Bool.and_eq_true, decide_eq_true_eq] at h
    exact ⟨h.1, h.2⟩
  -- ten cases, once the character is written as its number
  obtain ⟨d, hd⟩ : ∃ d, c.toNat - 48 = d := ⟨_, rfl⟩
  have hc : c = Char.ofNat (48 + d) := by
    rw [show 48 + d = c.toNat by omega, Char.ofNat_toNat]
  have hlt : d < 10 := by omega
  show c.toNat - 48 < 10 ∧ Nat.digitChar (c.toNat - 48) = c
  rw [hd, hc]
  refine ⟨hlt, ?_⟩
  clear hd hc hlow h
  revert d
  decide

/-- The value of a longer run of digits. -/
theorem decimalValue_concat (ds : List Char) (d : Char) :
    decimalValue (ds ++ [d]) = 10 * decimalValue ds + (d.toNat - '0'.toNat) := by
  unfold decimalValue
  rw [List.foldl_append]
  rfl

/-- **A run of digits without a zero in front spells its own value.** -/
theorem toDigits_decimalValue (ds : List Char) (hne : ds ≠ [])
    (hall : ∀ c ∈ ds, c.isDigit = true) (hhead : ds.head? ≠ some '0') :
    Nat.toDigits 10 (decimalValue ds) = ds ∧ 0 < decimalValue ds := by
  -- the value grows at the end of the run, so the induction is from the end
  induction hn : ds.length generalizing ds with
  | zero => exact absurd (List.length_eq_zero_iff.mp hn) hne
  | succ n ih =>
    obtain ⟨front, d, rfl⟩ : ∃ front d, ds = front ++ [d] :=
      ⟨ds.dropLast, ds.getLast hne, (List.dropLast_concat_getLast hne).symm⟩
    have hd := digitChar_of_isDigit (hall d (by simp))
    rw [decimalValue_concat]
    by_cases hf : front = []
    · subst hf
      -- a single digit, which is not zero
      have hzero : d ≠ '0' := by simpa using hhead
      have hpos : 0 < d.toNat - '0'.toNat := by
        rcases Nat.eq_zero_or_pos (d.toNat - '0'.toNat) with h0 | h0
        · rw [h0] at hd
          exact absurd hd.2.symm hzero
        · exact h0
      show Nat.toDigits 10 (0 + (d.toNat - '0'.toNat)) = [d] ∧ _
      rw [Nat.zero_add, Nat.toDigits_of_lt_base hd.1, hd.2]
      exact ⟨rfl, by omega⟩
    · have hfront := ih front hf (fun c hc => hall c (by simp [hc]))
        (by cases front with
            | nil => exact absurd rfl hf
            | cons a as => simpa using hhead)
        (by simpa using hn)
      -- the front is positive, so its digits come before the last one
      rw [← Nat.toDigits_append_toDigits (by omega) hfront.2 hd.1, hfront.1,
        Nat.toDigits_of_lt_base hd.1, hd.2]
      exact ⟨rfl, by omega⟩

/-- A number is spelled in digits. -/
theorem isDigit_of_mem_toString {n : Nat} {c : Char} (h : c ∈ (toString n).toList) :
    c.isDigit = true := by
  rw [Nat.toString_eq_repr, Nat.toList_repr] at h
  exact Nat.isDigit_of_mem_toDigits (by omega) (by omega) h

/-- And they stand for it. -/
theorem decimalValue_toString (n : Nat) : decimalValue (toString n).toList = n := by
  rw [Nat.toString_eq_repr, Nat.toList_repr]
  exact Nat.ofDigitChars_ten_toDigits

/-! ## §3. Sized keywords. -/

/-- What follows a keyword, put back after it. -/
theorem eq_append_of_afterKeyword? :
    ∀ {ks cs rest : List Char}, afterKeyword? ks cs = some rest → cs = ks ++ rest
  | [], cs, rest, h => by simpa [afterKeyword?] using h
  | k :: ks, [], rest, h => by simp [afterKeyword?] at h
  | k :: ks, c :: cs, rest, h => by
      rw [afterKeyword?] at h
      split at h
      next hkc => rw [hkc, eq_append_of_afterKeyword? h]; rfl
      next => simp at h

/-- A text that goes on after a keyword has that rest after it. -/
theorem afterKeyword?_append (ks rest : List Char) :
    afterKeyword? ks (ks ++ rest) = some rest := by
  induction ks with
  | nil => simp [afterKeyword?]
  | cons k ks ih => simpa [afterKeyword?] using ih

/-- A size that is found spells its own value: an identifier holds no plus
sign, so the digits are all there is. -/
theorem eq_toDigits_of_sizeSuffix? {cs : List Char} {n : Nat}
    (hword : ∀ c ∈ cs, Text.isWordChar c = true) (h : sizeSuffix? cs = some n) :
    cs = Nat.toDigits 10 n := by
  -- a plus sign would be dropped, but no word holds one
  have hplain : unsignedDigits cs = cs := by
    cases cs with
    | nil => rfl
    | cons c cs =>
      have hc := hword c (by simp)
      by_cases hplus : c = '+'
      · subst hplus
        exact absurd hc (by decide)
      · unfold unsignedDigits
        split
        next heq => simp at heq; exact absurd heq.1 hplus
        next => rfl
  unfold sizeSuffix? at h
  rw [hplain] at h
  simp only [Bool.and_eq_true, Bool.not_eq_true', List.all_eq_true, bne_iff_ne, ne_eq] at h
  split at h
  next hok =>
    obtain ⟨⟨⟨hne, hall⟩, -⟩, hhead⟩ := hok
    have hvalue : decimalValue cs = n := by simpa using h
    rw [← hvalue]
    exact (toDigits_decimalValue cs (by simpa using hne) hall hhead).1.symm
  next => simp at h

/-- The word after a keyword, rebuilt from the size found there. -/
theorem eq_keyword_append {word keyword : String} {rest : List Char} {n : Nat}
    (hid : ∀ c ∈ word.toList, Text.isWordChar c = true)
    (hrest : afterKeyword? keyword.toList word.toList = some rest)
    (hsize : sizeSuffix? rest = some n) :
    word = keyword ++ toString n := by
  have happ := eq_append_of_afterKeyword? hrest
  have hdigits := eq_toDigits_of_sizeSuffix?
    (fun c hc => hid c (by rw [happ]; exact List.mem_append_right _ hc)) hsize
  apply String.toList_injective
  rw [happ, hdigits, String.toList_append, Nat.toString_eq_repr, Nat.toList_repr]

/-- Every character of an identifier may stand inside a word. -/
theorem isWordChar_of_isIdentifier {word : String} (h : Text.isIdentifier word = true) :
    ∀ c ∈ word.toList, Text.isWordChar c = true := by
  unfold Text.isIdentifier at h
  split at h
  next => simp at h
  next c cs heq =>
    rw [heq]
    simp only [Bool.and_eq_true, List.all_eq_true] at h
    intro x hx
    rcases List.mem_cons.mp hx with hx | hx
    · exact hx ▸ Text.isWordChar_of_isWordStart h.1
    · exact h.2 x hx

/-- A size that is found and passes a test. -/
theorem exists_size_of_any {rest : List Char} {p : Nat → Bool}
    (h : (sizeSuffix? rest).any p = true) : ∃ n, sizeSuffix? rest = some n ∧ p n = true := by
  cases hn : sizeSuffix? rest with
  | none => rw [hn] at h; simp at h
  | some n => rw [hn] at h; exact ⟨n, rfl, by simpa using h⟩

/-- The width of an integer is a number of bytes from 1 to 32. -/
theorem exists_bytes_of_isIntegerWidth {n : Nat} (h : isIntegerWidth n = true) :
    ∃ k, n = 8 * k ∧ 1 ≤ k ∧ k ≤ 32 := by
  simp only [isIntegerWidth, Bool.and_eq_true, beq_iff_eq, decide_eq_true_eq] at h
  exact ⟨n / 8, by omega, by omega, by omega⟩

/-- A sized keyword is one of the table. -/
theorem keyword_of_isSizedScalar {word : String} (hid : Text.isIdentifier word = true)
    (h : isSizedScalar word.toList = true) : Keyword word word := by
  have hword := isWordChar_of_isIdentifier hid
  unfold isSizedScalar at h
  split at h
  next rest hrest =>
    obtain ⟨n, hn, hw⟩ := exists_size_of_any h
    obtain ⟨k, rfl, hlow, hhigh⟩ := exists_bytes_of_isIntegerWidth hw
    rw [eq_keyword_append hword hrest hn]
    exact .unsigned k hlow hhigh
  next =>
    split at h
    next rest hrest =>
      obtain ⟨n, hn, hw⟩ := exists_size_of_any h
      obtain ⟨k, rfl, hlow, hhigh⟩ := exists_bytes_of_isIntegerWidth hw
      rw [eq_keyword_append hword hrest hn]
      exact .signed k hlow hhigh
    next =>
      split at h
      next rest hrest =>
        obtain ⟨n, hn, hw⟩ := exists_size_of_any h
        simp only [isByteCount, Bool.and_eq_true, decide_eq_true_eq] at hw
        rw [eq_keyword_append hword hrest hn]
        exact .sizedBytes n hw.1 hw.2
      next => simp at h

/-! ## §4. The lookup. -/

/-- Every word of the table is found, under its canonical name. -/
theorem scalarName?_of_keyword {word name : String} (h : Keyword word name) :
    scalarName? word = some name := by
  cases h with
  | plain h =>
    simp only [List.mem_cons, List.not_mem_nil, or_false] at h
    rcases h with rfl | rfl | rfl | rfl <;> decide
  | uint => decide
  | int => decide
  -- 32 sizes of each sort, counted from zero
  | unsigned k low high =>
    obtain ⟨j, rfl⟩ : ∃ j, k = j + 1 := ⟨k - 1, by omega⟩
    have hj : j < 32 := by omega
    clear low high
    revert j
    decide
  | signed k low high =>
    obtain ⟨j, rfl⟩ : ∃ j, k = j + 1 := ⟨k - 1, by omega⟩
    have hj : j < 32 := by omega
    clear low high
    revert j
    decide
  | sizedBytes k low high =>
    obtain ⟨j, rfl⟩ : ∃ j, k = j + 1 := ⟨k - 1, by omega⟩
    have hj : j < 32 := by omega
    clear low high
    revert j
    decide

/-- **On identifiers the lookup is the table.** -/
theorem scalarName?_eq_some_iff {word name : String} (hid : Text.isIdentifier word = true) :
    scalarName? word = some name ↔ Keyword word name := by
  refine ⟨fun h => ?_, scalarName?_of_keyword⟩
  unfold scalarName? at h
  split at h
  next hplain =>
    obtain rfl : word = name := by simpa using h
    exact .plain (by simpa [or_assoc] using hplain)
  next =>
    split at h
    next huint =>
      obtain rfl : "uint256" = name := by simpa using h
      exact huint ▸ .uint
    next =>
      split at h
      next hint =>
        obtain rfl : "int256" = name := by simpa using h
        exact hint ▸ .int
      next =>
        split at h
        next hsized =>
          obtain rfl : word = name := by simpa using h
          exact keyword_of_isSizedScalar hid hsized
        next => simp at h

/-- A canonical name is a keyword for itself. -/
theorem Keyword.self {word name : String} (h : Keyword word name) : Keyword name name := by
  cases h with
  | plain h => exact .plain h
  | uint => exact .unsigned 32 (by decide) (by decide)
  | int => exact .signed 32 (by decide) (by decide)
  | unsigned k low high => exact .unsigned k low high
  | signed k low high => exact .signed k low high
  | sizedBytes k low high => exact .sizedBytes k low high

/-- The short forms of integers are not canonical. -/
theorem not_isCanonical_short : ¬ IsCanonical "uint" ∧ ¬ IsCanonical "int" := by
  constructor
  · rintro ⟨word, hk⟩
    exact absurd (scalarName?_of_keyword hk.self) (by decide)
  · rintro ⟨word, hk⟩
    exact absurd (scalarName?_of_keyword hk.self) (by decide)

/-- Integers are the canonical names that start like integers. -/
theorem isNumeric_iff {name : String} (h : IsCanonical name) :
    (Ty.scalar name).isNumeric = true ↔ IsIntegerName name := by
  constructor
  · intro hnum
    obtain ⟨word, hk⟩ := h
    cases hk with
    | plain h =>
      simp only [List.mem_cons, List.not_mem_nil, or_false] at h
      rcases h with rfl | rfl | rfl | rfl <;> exact absurd hnum (by decide)
    | uint => exact ⟨32, by decide, by decide, .inl (by decide)⟩
    | int => exact ⟨32, by decide, by decide, .inr (by decide)⟩
    | unsigned k low high => exact ⟨k, low, high, .inl rfl⟩
    | signed k low high => exact ⟨k, low, high, .inr rfl⟩
    | sizedBytes k low high =>
      -- byte strings start with a letter that no number starts with
      simp [Ty.isNumeric, String.toList_append, List.isPrefixOf] at hnum
  · rintro ⟨k, -, -, rfl | rfl⟩ <;>
      simp [Ty.isNumeric, String.toList_append, List.isPrefixOf]

end Stencil.Schema
