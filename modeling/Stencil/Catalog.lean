/-
  Stencil.Catalog
  ───────────────
  Named things in the order in which their names first came.

  Putting a thing under a known name replaces it at its old place; a new name
  goes to the end.  No name comes twice, and the type says so.

  Main facts:
    • the names after `put` are the old ones, with the new name at the end if
      it was not known (`names_put`),
    • `get?` after `put` (`get?_put_self`, `get?_put_of_ne`),
    • the names are those that `get?` finds (`mem_names_iff`),
    • pairs with distinct names are a catalog as they stand (`entries_ofList`).
-/
namespace Stencil

/-! ## §1. Lists of named things. -/

/-- Replace the thing of that name, or add it at the end. -/
def putEntry {α : Type} (name : String) (value : α) :
    List (String × α) → List (String × α)
  | [] => [(name, value)]
  | (n, v) :: rest =>
      if n = name then (n, value) :: rest else (n, v) :: putEntry name value rest

theorem map_fst_putEntry {α : Type} (name : String) (value : α)
    (entries : List (String × α)) :
    (putEntry name value entries).map Prod.fst =
      if name ∈ entries.map Prod.fst then entries.map Prod.fst
      else entries.map Prod.fst ++ [name] := by
  induction entries with
  | nil => simp [putEntry]
  | cons entry rest ih =>
      obtain ⟨n, v⟩ := entry
      by_cases h : n = name
      · simp [putEntry, h]
      · by_cases hm : name ∈ rest.map Prod.fst
        · simp only [putEntry, h, if_false, List.map_cons, ih, if_pos hm]
          simp [hm]
        · simp only [putEntry, h, if_false, List.map_cons, ih, if_neg hm]
          have hn : ¬ (name ∈ n :: rest.map Prod.fst) := by
            simp only [List.mem_cons, not_or]
            exact ⟨fun e => h e.symm, hm⟩
          rw [if_neg hn]
          rfl

theorem nodup_putEntry {α : Type} (name : String) (value : α)
    {entries : List (String × α)} (h : (entries.map Prod.fst).Nodup) :
    ((putEntry name value entries).map Prod.fst).Nodup := by
  rw [map_fst_putEntry]
  split
  · exact h
  · rename_i hm
    rw [List.nodup_append]
    refine ⟨h, by simp, ?_⟩
    intro a ha b hb e
    simp only [List.mem_singleton] at hb
    exact hm (hb ▸ e ▸ ha)

theorem lookup_putEntry_self {α : Type} (name : String) (value : α)
    (entries : List (String × α)) :
    (putEntry name value entries).lookup name = some value := by
  induction entries with
  | nil => simp [putEntry]
  | cons entry rest ih =>
      obtain ⟨n, v⟩ := entry
      by_cases h : n = name
      · simp [putEntry, h]
      · have h' : (name == n) = false := by
          simp only [beq_eq_false_iff_ne]
          exact fun e => h e.symm
        simp [putEntry, h, List.lookup_cons, h', ih]

theorem lookup_putEntry_of_ne {α : Type} {name other : String} (value : α)
    (entries : List (String × α)) (hne : other ≠ name) :
    (putEntry name value entries).lookup other = entries.lookup other := by
  have hb : (other == name) = false := by simp [hne]
  induction entries with
  | nil => simp [putEntry, List.lookup_cons, hb]
  | cons entry rest ih =>
      obtain ⟨n, v⟩ := entry
      by_cases h : n = name
      · subst h
        simp [putEntry, List.lookup_cons, hb]
      · simp only [putEntry, h, if_false, List.lookup_cons, ih]

/-- A new name goes to the end. -/
theorem putEntry_of_not_mem {α : Type} {name : String} (value : α)
    {entries : List (String × α)} (h : name ∉ entries.map Prod.fst) :
    putEntry name value entries = entries ++ [(name, value)] := by
  induction entries with
  | nil => rfl
  | cons entry rest ih =>
      obtain ⟨n, v⟩ := entry
      simp only [List.map_cons, List.mem_cons, not_or] at h
      rw [putEntry, if_neg fun e => h.1 e.symm, ih h.2, List.cons_append]

/-! ## §2. Catalogs. -/

/-- Named things in the order of their names' first appearance. -/
structure Catalog (α : Type) where
  /-- The names with their things, in order. -/
  entries : List (String × α)
  /-- No name comes twice. -/
  distinct : (entries.map Prod.fst).Nodup

namespace Catalog

variable {α : Type}

/-- Two catalogs with the same entries are the same. -/
theorem eq_of_entries : {a b : Catalog α} → a.entries = b.entries → a = b
  | ⟨_, _⟩, ⟨_, _⟩, rfl => rfl

instance [DecidableEq α] : DecidableEq (Catalog α) := fun a b =>
  decidable_of_iff (a.entries = b.entries) ⟨eq_of_entries, fun h => h ▸ rfl⟩

/-- The catalog of nothing. -/
def empty : Catalog α := ⟨[], by simp⟩

instance : EmptyCollection (Catalog α) := ⟨empty⟩
instance : Inhabited (Catalog α) := ⟨empty⟩

/-- The names, in order. -/
def names (c : Catalog α) : List String :=
  c.entries.map Prod.fst

/-- The thing of a name. -/
def get? (c : Catalog α) (name : String) : Option α :=
  c.entries.lookup name

/-- Is the name known? -/
def contains (c : Catalog α) (name : String) : Bool :=
  (c.get? name).isSome

/-- How many things there are. -/
def size (c : Catalog α) : Nat :=
  c.entries.length

/-- Put a thing under a name. -/
def put (c : Catalog α) (name : String) (value : α) : Catalog α :=
  ⟨putEntry name value c.entries, nodup_putEntry name value c.distinct⟩

/-- Put the pairs one after the other. -/
def ofList (pairs : List (String × α)) : Catalog α :=
  pairs.foldl (fun c pair => c.put pair.1 pair.2) empty

/-- A thing under a new name comes last. -/
theorem entries_put_of_not_mem {c : Catalog α} {name : String} (value : α)
    (h : name ∉ c.names) : (c.put name value).entries = c.entries ++ [(name, value)] :=
  putEntry_of_not_mem value h

/-- Pairs with names that are new and distinct are put as they stand. -/
theorem entries_foldl_put : ∀ {pairs : List (String × α)} {c : Catalog α},
    (pairs.map Prod.fst).Nodup → (∀ pair ∈ pairs, pair.1 ∉ c.names) →
    (pairs.foldl (fun c pair => c.put pair.1 pair.2) c).entries = c.entries ++ pairs
  | [], c, _, _ => by simp
  | (name, value) :: pairs, c, hd, hnew => by
      obtain ⟨hfirst, hd⟩ := List.nodup_cons.mp hd
      have hput := entries_put_of_not_mem value (hnew (name, value) List.mem_cons_self)
      rw [List.foldl_cons, entries_foldl_put hd, hput, List.append_assoc, List.singleton_append]
      -- the other names are still new after the first
      intro pair hpair hmem
      rw [names, hput, List.map_append, List.mem_append] at hmem
      rcases hmem with hmem | hmem
      · exact hnew pair (List.mem_cons_of_mem _ hpair) hmem
      · have hname : pair.1 = name := by simpa using hmem
        exact hfirst (List.mem_map.mpr ⟨pair, hpair, hname⟩)

/-- A list of pairs with distinct names is a catalog as it stands. -/
theorem entries_ofList {pairs : List (String × α)} (h : (pairs.map Prod.fst).Nodup) :
    (ofList pairs).entries = pairs := by
  unfold ofList
  rw [entries_foldl_put h fun _ _ => by simp [names, empty]]
  rfl

theorem names_put (c : Catalog α) (name : String) (value : α) :
    (c.put name value).names = if name ∈ c.names then c.names else c.names ++ [name] :=
  map_fst_putEntry name value c.entries

@[simp] theorem get?_put_self (c : Catalog α) (name : String) (value : α) :
    (c.put name value).get? name = some value :=
  lookup_putEntry_self name value c.entries

theorem get?_put_of_ne (c : Catalog α) {name other : String} (value : α)
    (h : other ≠ name) : (c.put name value).get? other = c.get? other :=
  lookup_putEntry_of_ne value c.entries h

/-- The thing of a name stands with it among the entries. -/
theorem get?_eq_some_iff {c : Catalog α} {name : String} {value : α} :
    c.get? name = some value ↔ (name, value) ∈ c.entries := by
  have hd := c.distinct
  unfold get?
  generalize c.entries = entries at hd
  induction entries with
  | nil => simp
  | cons entry rest ih =>
      obtain ⟨n, v⟩ := entry
      simp only [List.map_cons, List.nodup_cons] at hd
      by_cases hn : name = n
      · subst hn
        have hnot : (name, value) ∉ rest := fun hm =>
          hd.1 (List.mem_map_of_mem (f := Prod.fst) hm)
        simp [hnot, eq_comm]
      · have hb : (name == n) = false := by simp [hn]
        have hl : List.lookup name ((n, v) :: rest) = rest.lookup name := by
          simp only [List.lookup_cons, hb]
        rw [hl]
        exact (ih hd.2).trans (by simp [hn])

/-- The names are those that have a thing. -/
theorem mem_names_iff {c : Catalog α} {name : String} :
    name ∈ c.names ↔ ∃ value, c.get? name = some value := by
  simp only [get?_eq_some_iff, names, List.mem_map]
  constructor
  · rintro ⟨⟨n, v⟩, hm, rfl⟩
    exact ⟨v, hm⟩
  · rintro ⟨v, hm⟩
    exact ⟨(name, v), hm, rfl⟩

/-- A name with a thing is one of the names. -/
theorem mem_names_of_get? {c : Catalog α} {name : String} {value : α}
    (h : c.get? name = some value) : name ∈ c.names :=
  mem_names_iff.mpr ⟨value, h⟩

end Catalog

end Stencil
