/-
  Stencil.Proofs.Files.Writing
  ────────────────────────────
  FILES THAT ARE WRITTEN INTO A DIRECTORY.

  Putting a file somewhere takes no directory away and changes no other file.
  So a path that leads to a file leads there still when other files have been
  put beside it, a directory that was created need not be created again, and
  of files that are put into a directory one after the other, each is there
  unless a later one has its name.

    • `hasDirectory_put`, `file?_put` — what a new file changes,
    • `target_mono`, `createDirectories_again` — paths keep their meaning,
    • `file?_fill` — the last file of a name is the one that is there,
    • `read_of_target` — what was written can be read.
-/
import Stencil.Files.Tree
import Stencil.Proofs.Files.Naming
import Stencil.Proofs.Outcome

namespace Stencil.Files.Tree

open Outcome

variable {t u : Tree} {place other : List String} {path content : String}

/-! ## §1. A new file. -/

theorem lookup_replace (files : List (List String × String)) (content : String)
    (place other : List String) :
    (files.map fun (p, c) => (p, if p = place then content else c)).lookup other
      = (files.lookup other).map fun c => if other = place then content else c := by
  induction files with
  | nil => rfl
  | cons file files ih =>
    obtain ⟨p, c⟩ := file
    rw [List.map_cons, List.lookup_cons, List.lookup_cons, ih]
    by_cases h : other = p
    · simp [h]
    · simp [beq_false_of_ne h]

theorem lookup_put (h : isDevice place = false) (t : Tree) (content : String)
    (other : List String) :
    (t.put place content).files.lookup other
      = if other = place then some content else t.files.lookup other := by
  rw [put, if_neg (by simp [h])]
  split
  · rename_i hthere
    obtain ⟨before, hbefore⟩ := Option.isSome_iff_exists.mp hthere
    rw [lookup_replace]
    by_cases ho : other = place
    · simp [ho, hbefore]
    · simp [ho]
  · rename_i hmissing
    by_cases ho : other = place
    · simp [ho, List.lookup_append, Option.not_isSome_iff_eq_none.mp hmissing]
    · simp [List.lookup_append, List.lookup_cons, beq_false_of_ne ho, ho]

/-- A file is there once it is put, and all others are as before. -/
theorem file?_put (h : isDevice place = false) (t : Tree) (content : String)
    (other : List String) :
    (t.put place content).file? other = if other = place then some content else t.file? other := by
  -- two devices are always empty, but nothing can be put there
  have hnull : place ≠ nullDevice := by rintro rfl; revert h; decide
  have hinput : place ≠ ["dev", "stdin"] := by rintro rfl; revert h; decide
  unfold file?
  rw [lookup_put h]
  by_cases ho : other = place
  · simp [ho, hnull, hinput]
  · simp only [if_neg ho]

/-- The places of files after one was put are those before, and that of the file if it is new. -/
theorem places_put (t : Tree) (place : List String) (content : String) :
    (t.put place content).files.map Prod.fst = t.files.map Prod.fst ∨
      (t.put place content).files.map Prod.fst = t.files.map Prod.fst ++ [place] := by
  unfold put
  split
  · left; rfl
  · split
    · left; simp [Function.comp_def]
    · right; simp

theorem created_put (t : Tree) (place : List String) (content : String) :
    (t.put place content).created = t.created := by
  unfold put
  split
  · rfl
  · split <;> rfl

theorem hasDirectory_eq_any (t : Tree) (place : List String) :
    t.hasDirectory place = (place.isPrefixOf workplace || systemDirectories.contains place
      || t.created.any (place.isPrefixOf ·)
      || (t.files.map Prod.fst).any fun names =>
          decide (names.length > place.length) && place.isPrefixOf names) := by
  simp [hasDirectory, List.any_map, Function.comp_def]

/-! ## §2. Directories that stay. -/

/-- Every directory of one tree is one of the other. -/
def Grows (t u : Tree) : Prop :=
  ∀ place, t.hasDirectory place = true → u.hasDirectory place = true

theorem Grows.refl (t : Tree) : Grows t t := fun _ h => h

theorem Grows.trans {v : Tree} (h : Grows t u) (h' : Grows u v) : Grows t v :=
  fun place hplace => h' place (h place hplace)

theorem grows_put (t : Tree) (place : List String) (content : String) :
    Grows t (t.put place content) := by
  intro other h
  rw [hasDirectory_eq_any] at h ⊢
  rw [created_put]
  obtain hsame | hnew := places_put t place content
  · rwa [hsame]
  · rw [hnew, List.any_append, ← Bool.or_assoc, h, Bool.true_or]

/-- A file makes no directory of its own place, nor of one that is as deep. -/
theorem hasDirectory_put (t : Tree) (content : String) (h : place.length ≤ other.length) :
    (t.put place content).hasDirectory other = t.hasDirectory other := by
  rw [hasDirectory_eq_any, hasDirectory_eq_any, created_put]
  obtain hsame | hnew := places_put t place content
  · rw [hsame]
  · -- a file only makes directories on the way to it, and those are less deep
    have : ¬ place.length > other.length := by omega
    simp [hnew, this]

theorem enter_mono (h : Grows t u) {place reached : List String} {along : List String}
    (henter : t.enter place along = .ok reached) : u.enter place along = .ok reached := by
  induction along generalizing place with
  | nil => exact henter
  | cons name rest ih =>
    simp only [Tree.enter] at henter ⊢
    split at henter
    · simp at henter
    · split at henter
      · rename_i hdirectory
        rw [if_pos (h _ hdirectory)]
        exact ih henter
      · simp at henter

theorem spot_mono (h : Grows t u) {spot : Spot} (hspot : t.spot path = .ok spot) :
    u.spot path = .ok spot := by
  unfold Tree.spot at hspot ⊢
  split at hspot
  · simp at hspot
  · split at hspot
    · simp at hspot
    · rename_i hpath hlimit
      obtain ⟨reached, henter, hreached⟩ := map_eq_ok.mp hspot
      rw [if_neg hpath, if_neg hlimit]
      exact map_eq_ok.mpr ⟨reached, enter_mono h henter, hreached⟩

theorem place_mono (h : Grows t u) (hplace : t.place path = .ok place) :
    u.place path = .ok place := by
  obtain ⟨spot, hspot, hplace⟩ := bind_eq_ok.mp hplace
  exact bind_eq_ok.mpr ⟨spot, spot_mono h hspot, hplace⟩

theorem reachesDirectory_iff :
    t.reachesDirectory path = true ↔
      ∃ place, t.place path = .ok place ∧ t.hasDirectory place = true := by
  unfold reachesDirectory
  split <;> simp_all

theorem reachesDirectory_mono (h : Grows t u) (hreaches : t.reachesDirectory path = true) :
    u.reachesDirectory path = true := by
  obtain ⟨place, hplace, hdirectory⟩ := reachesDirectory_iff.mp hreaches
  exact reachesDirectory_iff.mpr ⟨place, place_mono h hplace, h place hdirectory⟩

/-! ## §3. Directories that are created. -/

theorem createDirectory_of_reaches (h : t.reachesDirectory path = true) :
    t.createDirectory path = .error .exists_ := by
  obtain ⟨place, hplace, hdirectory⟩ := reachesDirectory_iff.mp h
  obtain ⟨spot, hspot, hplace⟩ := bind_eq_ok.mp hplace
  cases hends : spot.isDirectory with
  | true => simp [createDirectory, hspot, hends]
  | false => simp [createDirectory, hspot, hends, hplace, holds, hdirectory]

/-- A directory that is there need not be created. -/
theorem ensureDirectory_of_reaches (h : t.reachesDirectory path = true) :
    t.ensureDirectory path = .ok t := by
  simp [ensureDirectory, createDirectory_of_reaches h, h]

theorem createDirectory_eq_ok (h : t.createDirectory path = .ok u) :
    ∃ place, t.place path = .ok place ∧ u = { t with created := t.created ++ [place] } := by
  obtain ⟨spot, hspot, h⟩ := bind_eq_ok.mp h
  cases hends : spot.isDirectory with
  | true => simp [hends] at h
  | false =>
    simp only [hends, Bool.false_eq_true, if_false] at h
    obtain ⟨place, hplace, h⟩ := bind_eq_ok.mp h
    refine ⟨place, bind_eq_ok.mpr ⟨spot, hspot, hplace⟩, ?_⟩
    cases hholds : t.holds place <;> cases habout : isAboutProcesses place <;> simp_all

/-- A directory is there once it is created. -/
theorem reaches_of_createDirectory (h : t.createDirectory path = .ok u) :
    u.reachesDirectory path = true := by
  obtain ⟨place, hplace, rfl⟩ := createDirectory_eq_ok h
  have hgrows : Grows t { t with created := t.created ++ [place] } := by
    intro other hother
    simp only [hasDirectory, List.any_append, Bool.or_eq_true] at hother ⊢
    tauto
  refine reachesDirectory_iff.mpr ⟨place, place_mono hgrows hplace, ?_⟩
  simp [hasDirectory]

theorem reaches_of_ensureDirectory (h : t.ensureDirectory path = .ok u) :
    u.reachesDirectory path = true := by
  unfold ensureDirectory at h
  split at h
  · rename_i hcreated
    exact reaches_of_createDirectory (Except.ok.inj h ▸ hcreated)
  · split at h
    · rename_i hreaches
      rw [← Except.ok.inj h]
      simp_all
    · simp at h

/-- **A directory that was created need not be created again, whatever else was.** -/
theorem createDirectories_again {v : Tree} (h : t.createDirectories path = .ok u)
    (hgrows : Grows u v) : v.createDirectories path = .ok v := by
  unfold createDirectories at h ⊢
  cases hlineage : lineage path with
  | nil => rfl
  | cons first above =>
    -- the last thing that was done was to see that it is there, with or without those above it
    have hreaches : u.reachesDirectory first = true := by
      rw [hlineage, createAll] at h
      split at h
      · rename_i hensured
        exact reaches_of_ensureDirectory (Except.ok.inj h ▸ hensured)
      · split at h
        · obtain ⟨w, -, hensured⟩ := bind_eq_ok.mp h
          exact reaches_of_ensureDirectory hensured
        · simp at h
    rw [createAll, ensureDirectory_of_reaches (reachesDirectory_mono hgrows hreaches)]

/-! ## §4. What paths lead to. -/

theorem eq_of_ofPlace_eq_file (h : Target.ofPlace other = .file place) : other = place := by
  unfold Target.ofPlace at h
  split at h
  · simp at h
  · split at h
    · simp at h
    · split at h <;> simp_all

/-- When a path leads to a file that can be written. -/
theorem target_eq_file :
    t.target path = .ok (.file place) ↔
      ∃ spot, t.spot path = .ok spot ∧ spot.place = .ok place ∧
        (spot.isDirectory || endsInSlash path) = false ∧ t.hasDirectory place = false ∧
        place ≠ ["dev", "tty"] ∧ isAboutProcesses place = false ∧
        Target.ofPlace place = .file place := by
  constructor
  · intro h
    obtain ⟨spot, hspot, h⟩ := bind_eq_ok.mp h
    -- one refusal after the other, in the order in which they are looked for
    cases hends : spot.isDirectory || endsInSlash path with
    | true => simp [hends] at h
    | false =>
      simp only [hends, Bool.false_eq_true, if_false] at h
      obtain ⟨reached, hreached, h⟩ := bind_eq_ok.mp h
      cases hdirectory : t.hasDirectory reached with
      | true => simp [hdirectory] at h
      | false =>
        by_cases htty : reached = ["dev", "tty"]
        · subst htty
          simp [hdirectory] at h
        · cases habout : isAboutProcesses reached with
          | true => simp [hdirectory, htty, habout] at h
          | false =>
            have hfile : Target.ofPlace reached = .file place := by
              simpa [hdirectory, htty, habout] using h
            obtain rfl := eq_of_ofPlace_eq_file hfile
            exact ⟨spot, hspot, hreached, hends, hdirectory, htty, habout, hfile⟩
  · rintro ⟨spot, hspot, hplace, hends, hdirectory, htty, habout, hfile⟩
    obtain ⟨hspotDirectory, hslash⟩ := Bool.or_eq_false_iff.mp hends
    simp [target, hspot, hplace, hspotDirectory, hslash, hdirectory, htty, habout, hfile]

/-- A path leads to the same file in a tree that has more directories, but none in its place. -/
theorem target_mono (hgrows : Grows t u) (h : t.target path = .ok (.file place))
    (hplace : u.hasDirectory place = false) : u.target path = .ok (.file place) := by
  obtain ⟨spot, hspot, hspotPlace, hends, -, hrest⟩ := target_eq_file.mp h
  exact target_eq_file.mpr ⟨spot, spot_mono hgrows hspot, hspotPlace, hends, hplace, hrest⟩

/-- **What is in the file a path leads to can be read.** -/
theorem read_of_target (h : t.target path = .ok (.file place))
    (hfile : t.file? place = some content) : t.read path = .ok content := by
  obtain ⟨spot, hspot, hplace, hends, -⟩ := target_eq_file.mp h
  have hslash : endsInSlash path = false := (Bool.or_eq_false_iff.mp hends).2
  have hplace : t.place path = .ok place := bind_eq_ok.mpr ⟨spot, hspot, hplace⟩
  simp [read, hplace, hfile, hslash]

/-- Where a directory is; the names in it are behind it. -/
def directory (t : Tree) (path : String) : Except Failure (List String) :=
  t.enter (if isAbsolute (String.ofList (wayInto path)) then [] else workplace)
    (names (String.ofList (wayInto path)))

/-- A name in a directory leads to that name behind the directory's place. -/
theorem target_join {name : String} (hname : IsName name) (hdot : name ≠ ".") (hdots : name ≠ "..")
    (h : t.target (join path name) = .ok (.file place)) :
    ∃ reached, t.directory path = .ok reached ∧ place = reached ++ [name] := by
  obtain ⟨spot, hspot, hplace, -⟩ := target_eq_file.mp h
  unfold Tree.spot at hspot
  split at hspot
  · simp at hspot
  · split at hspot
    · simp at hspot
    · simp only [hname.names_join, hname.isAbsolute_join, List.dropLast_concat,
        List.getLast?_concat] at hspot
      obtain ⟨reached, hreached, rfl⟩ := map_eq_ok.mp hspot
      refine ⟨reached, hreached, ?_⟩
      simp only [Spot.place, step, if_neg hdot, if_neg hdots] at hplace
      split at hplace
      · simp at hplace
      · exact (Except.ok.inj hplace).symm

/-! ## §5. Files beside each other. -/

/-- No device has a dot in its name. -/
theorem isDevice_append {name : String} (h : '.' ∈ name.toList) (reached : List String) :
    isDevice (reached ++ [name]) = false := by
  have hplain : ∀ device ∈ devices, '.' ∉ device.toList := by decide
  unfold isDevice
  split
  · rename_i device heq
    have hlast : device = name := by simpa using (congrArg List.getLast? heq).symm
    simpa [hlast] using fun hmem => hplain name hmem h
  · rfl

/-- The tree after files were put into a directory, each by its name. -/
def fill (t : Tree) (reached : List String) (entries : List (String × String)) : Tree :=
  entries.foldl (fun t (name, content) => t.put (reached ++ [name]) content) t

variable {reached : List String} {entries : List (String × String)}

theorem fill_concat (t : Tree) (reached : List String) (entries : List (String × String))
    (name content : String) :
    t.fill reached (entries ++ [(name, content)])
      = (t.fill reached entries).put (reached ++ [name]) content := by
  simp [fill]

theorem grows_fill (t : Tree) (reached : List String) (entries : List (String × String)) :
    Grows t (t.fill reached entries) := by
  induction entries generalizing t with
  | nil => exact .refl t
  | cons entry entries ih => exact (grows_put t _ _).trans (ih _)

theorem hasDirectory_fill (t : Tree) (entries : List (String × String))
    (h : reached.length < other.length) :
    (t.fill reached entries).hasDirectory other = t.hasDirectory other := by
  induction entries generalizing t with
  | nil => rfl
  | cons entry entries ih =>
    have hlength : (reached ++ [entry.1]).length ≤ other.length := by
      rw [List.length_append]
      exact h
    rw [fill, List.foldl_cons, ← fill, ih, hasDirectory_put _ _ hlength]

theorem file?_fill_of_not_mem (hdevice : ∀ entry ∈ entries, isDevice (reached ++ [entry.1]) = false)
    {name : String} (h : name ∉ entries.map Prod.fst) (t : Tree) :
    (t.fill reached entries).file? (reached ++ [name]) = t.file? (reached ++ [name]) := by
  induction entries generalizing t with
  | nil => rfl
  | cons entry entries ih =>
    rw [List.forall_mem_cons] at hdevice
    rw [List.map_cons, List.mem_cons, not_or] at h
    rw [fill, List.foldl_cons, ← fill, ih hdevice.2 h.2, file?_put hdevice.1]
    simp [h.1]

/-- **Of the files of one name, the last is there.** -/
theorem file?_fill {before after : List (String × String)} {name : String}
    (hdevice : ∀ entry ∈ before ++ (name, content) :: after,
      isDevice (reached ++ [entry.1]) = false)
    (h : name ∉ after.map Prod.fst) (t : Tree) :
    (t.fill reached (before ++ (name, content) :: after)).file? (reached ++ [name])
      = some content := by
  have hsplit : t.fill reached (before ++ (name, content) :: after)
      = ((t.fill reached before).put (reached ++ [name]) content).fill reached after := by
    simp [fill]
  rw [hsplit, file?_fill_of_not_mem (fun entry hentry => hdevice entry (by simp [hentry])) h,
    file?_put (hdevice (name, content) (by simp)), if_pos rfl]

end Stencil.Files.Tree
