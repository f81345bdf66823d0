/-
  Stencil.Proofs.Files.Naming
  ───────────────────────────
  NAMES IN A DIRECTORY.

  A path into a directory is the text that leads into it, followed by a name.
  A name is text without slashes; its stem ends at its last dot.  A new
  extension is set on what is then left of a stem that has a dot itself.

    • `stemOf_cases` — a name is its stem, or its stem, a dot and its tail,
    • `fileName?_join`, `names_join` — a name is the last part of its path,
    • `parent?_join` — all names in a directory are under the same path,
    • `withExtension_join` — an extension set on a name in a directory.
-/
import Mathlib.Data.List.Basic
import Mathlib.Data.List.TakeWhile
import Stencil.Files.Name

namespace Stencil.Files

/-! ## §1. Names. -/

/-- A name that can be part of a path. -/
structure IsName (name : String) : Prop where
  /-- There is something to it. -/
  nonempty : name.toList ≠ []
  /-- It is a single name. -/
  no_slash : '/' ∉ name.toList

/-- A name without its last dot and what follows it; a dot that comes first
does not count. -/
def bareName (name : String) : String :=
  String.ofList (stemOf name.toList)

theorem stem?_eq (path : String) : stem? path = (fileName? path).map bareName := rfl

theorem tailOf_append {tail : List Char} (htail : '.' ∉ tail) (before : List Char) :
    tailOf (before ++ '.' :: tail) = tail := by
  have hdot : ∀ c ∈ tail.reverse, (c != '.') = true := by
    intro c hc
    have : c ≠ '.' := fun h => htail (by simpa [h] using hc)
    simpa using this
  simp [tailOf, List.takeWhile_append_of_pos hdot]

theorem stemOf_append {tail : List Char} (htail : '.' ∉ tail) (before : List Char) :
    stemOf (before ++ '.' :: tail) = if before = [] then '.' :: tail else before := by
  have hlength : (before ++ '.' :: tail).length - tail.length - 1 = before.length := by
    rw [List.length_append, List.length_cons]
    omega
  rw [stemOf, tailOf_append htail, hlength, List.take_left]
  by_cases hbefore : before = [] <;> simp [hbefore]

/-- **A name is its own stem, or its stem and its tail around a dot.** -/
theorem stemOf_cases (name : List Char) :
    stemOf name = name ∨ stemOf name ≠ [] ∧ stemOf name ++ '.' :: tailOf name = name := by
  by_cases hdot : '.' ∈ name
  · -- the last dot is the first one from behind
    obtain ⟨tail, before, hsplit, htail⟩ :=
      List.eq_append_cons_of_mem (List.mem_reverse.mpr hdot)
    obtain rfl : name = before.reverse ++ '.' :: tail.reverse := by
      simpa using congrArg List.reverse hsplit
    have htail : '.' ∉ tail.reverse := by simpa using htail
    rw [stemOf_append htail, tailOf_append htail]
    by_cases hbefore : before.reverse = [] <;> simp [hbefore]
  · left
    have hall : ∀ c ∈ name.reverse, (c != '.') = true := by
      intro c hc
      have : c ≠ '.' := fun h => hdot (by simpa [h] using hc)
      simpa using this
    have htail : tailOf name = name := by
      rw [tailOf, List.takeWhile_eq_self_iff.mpr hall, List.reverse_reverse]
    simp [stemOf, htail]

theorem IsName.bareName {name : String} (h : IsName name) : IsName (bareName name) := by
  obtain hself | ⟨hne, hname⟩ := stemOf_cases name.toList
  · rwa [Files.bareName, hself, String.ofList_toList]
  · refine ⟨by simpa [Files.bareName] using hne, fun hslash => h.no_slash ?_⟩
    rw [Files.bareName, String.toList_ofList] at hslash
    rw [← hname]
    exact List.mem_append_left _ hslash

/-- A name with more than a dot for a stem is not one of the dots that lead elsewhere. -/
theorem ne_dots_of_bareName {name : String} (h : bareName name ≠ ".") :
    name ≠ "." ∧ name ≠ ".." :=
  ⟨fun he => h (by rw [he]; decide), fun he => h (by rw [he]; decide)⟩

theorem IsName.append {name tail : String} (h : IsName name) (htail : '/' ∉ tail.toList) :
    IsName (name ++ tail) := by
  constructor
  · simp [h.nonempty]
  · simp [h.no_slash, htail]

/-! ## §2. Pieces of a path. -/

theorem pieces_ne_nil (cs : List Char) : pieces cs ≠ [] := by
  cases cs with
  | nil => simp [pieces]
  | cons c cs =>
    simp only [pieces]
    split
    · simp
    · split <;> simp

theorem pieces_eq_singleton {cs : List Char} (h : '/' ∉ cs) : pieces cs = [cs] := by
  induction cs with
  | nil => rfl
  | cons c cs ih =>
    rw [List.mem_cons, not_or] at h
    simp [pieces, ih h.2, Ne.symm h.1]

theorem pieces_append_slash (before after : List Char) :
    pieces (before ++ '/' :: after) = pieces before ++ pieces after := by
  induction before with
  | nil =>
    obtain ⟨piece, rest, h⟩ := List.exists_cons_of_ne_nil (pieces_ne_nil after)
    simp [pieces, h]
  | cons c before ih =>
    obtain ⟨piece, rest, h⟩ := List.exists_cons_of_ne_nil (pieces_ne_nil before)
    by_cases hc : c = '/' <;> simp [pieces, ih, h, hc]

theorem not_slash_of_mem_pieces {cs piece : List Char} (h : piece ∈ pieces cs) : '/' ∉ piece := by
  induction cs generalizing piece with
  | nil => simp_all [pieces]
  | cons c cs ih =>
    obtain ⟨first, rest, hcs⟩ := List.exists_cons_of_ne_nil (pieces_ne_nil cs)
    rw [hcs] at ih
    by_cases hc : c = '/'
    · simp only [pieces, hcs, if_pos hc, List.mem_cons] at h
      grind
    · simp only [pieces, hcs, if_neg hc, List.mem_cons] at h
      grind

/-- The name at the end of a path is a name. -/
theorem isName_of_fileName? {path name : String} (h : fileName? path = some name) :
    IsName name := by
  -- the name is one of the parts, and each of them is a piece between slashes
  have hmem : name ∈ parts path := by
    unfold fileName? at h
    split at h
    · rename_i last hlast
      split at h
      · simp at h
      · exact Option.some.inj h ▸ List.mem_of_getLast? hlast
    · simp at h
  simp only [parts, List.mem_map, List.mem_append, List.mem_filter, Bool.and_eq_true,
    Bool.not_eq_true', List.isEmpty_eq_false_iff] at hmem
  obtain ⟨piece, hpiece, rfl⟩ := hmem
  obtain ⟨hmem, hne, -⟩ | ⟨hmem, hne, -⟩ := hpiece
  · exact ⟨by simpa using hne,
      by simpa using not_slash_of_mem_pieces (List.mem_of_mem_take hmem)⟩
  · exact ⟨by simpa using hne,
      by simpa using not_slash_of_mem_pieces (List.mem_of_mem_drop hmem)⟩

theorem isName_of_stem? {path stem : String} (h : stem? path = some stem) : IsName stem := by
  obtain ⟨name, hname, rfl⟩ := Option.map_eq_some_iff.mp (stem?_eq path ▸ h)
  exact (isName_of_fileName? hname).bareName

/-! ## §3. Names in a directory. -/

/-- The text that leads into a directory: what comes before the names in it. -/
def wayInto (directory : String) : List Char :=
  if directory = "" || directory.toList.getLast? = some '/' then directory.toList
  else directory.toList ++ ['/']

theorem wayInto_cases (directory : String) :
    wayInto directory = [] ∨ ∃ above, wayInto directory = above ++ ['/'] := by
  unfold wayInto
  split
  · rename_i h
    obtain rfl | hlast : directory = "" ∨ directory.toList.getLast? = some '/' := by simpa using h
    · left; rfl
    · right
      exact ⟨_, (List.dropLast_append_getLast? _ hlast).symm⟩
  · right
    exact ⟨_, rfl⟩

/-- The path that is above the names in a directory. -/
def holder (directory : String) : String :=
  String.ofList (dropIdleEnd (wayInto directory).reverse).reverse

namespace IsName

variable {name : String} (h : IsName name)
include h

theorem not_isAbsolute : isAbsolute name = false := by
  obtain ⟨c, cs, hname⟩ := List.exists_cons_of_ne_nil h.nonempty
  have : c ≠ '/' := fun hc => h.no_slash (by simp [hname, hc])
  simpa [isAbsolute, hname] using this

/-- A path in a directory is the way into it and a name. -/
theorem toList_join (directory : String) :
    (join directory name).toList = wayInto directory ++ name.toList := by
  rw [join, if_neg (by simp [h.not_isAbsolute]), wayInto]
  split <;> simp

theorem join_inj {other : String} (hother : IsName other) {directory : String} :
    join directory name = join directory other ↔ name = other := by
  rw [← String.toList_inj, h.toList_join, hother.toList_join, List.append_cancel_left_eq,
    String.toList_inj]

/-- The last part of a path in a directory is the name. -/
theorem getLast?_parts (hdot : name ≠ ".") (directory : String) :
    (parts (join directory name)).getLast? = some name := by
  have hdot' : name.toList ≠ ['.'] := fun he => hdot (String.toList_inj.mp he)
  obtain hway | ⟨above, hway⟩ := wayInto_cases directory
  · simp [parts, h.toList_join, hway, pieces_eq_singleton h.no_slash, h.nonempty]
  · obtain ⟨first, rest, hfirst⟩ := List.exists_cons_of_ne_nil (pieces_ne_nil above)
    have hpieces : pieces (wayInto directory ++ name.toList)
        = first :: (rest ++ [name.toList]) := by
      rw [hway, List.append_assoc, List.singleton_append, pieces_append_slash, hfirst,
        pieces_eq_singleton h.no_slash, List.cons_append]
    simp only [parts, h.toList_join, hpieces, List.drop_succ_cons, List.drop_zero]
    simp [h.nonempty, hdot']

theorem fileName?_join (hdot : name ≠ ".") (hdots : name ≠ "..") (directory : String) :
    fileName? (join directory name) = some name := by
  simp [fileName?, h.getLast?_parts hdot, hdot, hdots]

theorem isAbsolute_join (directory : String) :
    isAbsolute (join directory name) = isAbsolute (String.ofList (wayInto directory)) := by
  obtain hway | ⟨above, hway⟩ := wayInto_cases directory
  · simpa [hway, isAbsolute, h.toList_join] using h.not_isAbsolute
  · cases above <;> simp [hway, isAbsolute, h.toList_join]

/-- The names on the way to a name in a directory are those on the way into the directory, and
the name. -/
theorem names_join (directory : String) :
    names (join directory name) = names (String.ofList (wayInto directory)) ++ [name] := by
  obtain hway | ⟨above, hway⟩ := wayInto_cases directory <;>
    simp [names, h.toList_join, hway, pieces_append_slash, pieces_eq_singleton h.no_slash,
      h.nonempty, pieces]

/-- Nothing at the end of a name is idle. -/
theorem dropIdleEnd_join (hdot : name ≠ ".") (directory : String) :
    dropIdleEnd (join directory name).toList.reverse
      = name.toList.reverse ++ (wayInto directory).reverse := by
  have hdot' : name.toList ≠ ['.'] := fun he => hdot (String.toList_inj.mp he)
  have hslash : '/' ∉ name.toList.reverse := by simpa using h.no_slash
  rw [h.toList_join, List.reverse_append]
  -- what is idle is a slash, or a dot behind one: a name has no slash among its last two
  -- characters, and a single dot is excluded
  match hname : name.toList.reverse with
  | [] => simp [h.nonempty] at hname
  | [c] =>
    have hc : c ≠ '/' := fun he => hslash (by simp [hname, he])
    have hc' : c ≠ '.' := fun he => hdot' (by simpa [he] using hname)
    simp [dropIdleEnd, hc, hc']
  | c :: d :: rest =>
    have hc : c ≠ '/' := fun he => hslash (by simp [hname, he])
    have hd : d ≠ '/' := fun he => hslash (by simp [hname, he])
    simp [dropIdleEnd, hc, hd]

/-- What is above the last slash of a path in a directory. -/
theorem dropWhile_reverse (directory : String) :
    (name.toList.reverse ++ (wayInto directory).reverse).dropWhile (· != '/')
      = (wayInto directory).reverse := by
  have hslash : ∀ c ∈ name.toList.reverse, (c != '/') = true := by
    intro c hc
    have : c ≠ '/' := fun he => h.no_slash (by simpa [he] using hc)
    simpa using this
  rw [List.dropWhile_append_of_pos hslash]
  obtain hway | ⟨above, hway⟩ := wayInto_cases directory <;> simp [hway]

/-- **All names in a directory are under the same path.** -/
theorem parent?_join (hdot : name ≠ ".") (directory : String) :
    parent? (join directory name) = some (holder directory) := by
  have hparts := h.getLast?_parts hdot directory
  unfold parent?
  split
  · rename_i hnil
    rw [hnil] at hparts
    simp at hparts
  · simp only [h.dropIdleEnd_join hdot, h.dropWhile_reverse, holder]

/-! ## §4. Extensions. -/

theorem setExtension_join (hdot : name ≠ ".") (hdots : name ≠ "..") (directory : String)
    {extension : String} (hext : '/' ∉ extension.toList) :
    setExtension (join directory name) extension
      = join directory (Files.bareName name ++ "." ++ extension) := by
  have hname : IsName (Files.bareName name ++ "." ++ extension) :=
    (h.bareName.append (by decide)).append hext
  have hstem : stem? (join directory name) = some (Files.bareName name) := by
    rw [stem?_eq, h.fileName?_join hdot hdots, Option.map_some]
  rw [← String.toList_inj, hname.toList_join]
  simp only [setExtension, hstem, h.dropIdleEnd_join hdot, h.dropWhile_reverse,
    List.reverse_reverse]
  simp

/-- What is left of a name without its tail has the same stem. -/
theorem bareName_append_dot :
    Files.bareName (Files.bareName name ++ ".") = Files.bareName name := by
  have hne := h.bareName.nonempty
  have htoList : (Files.bareName name ++ ".").toList = (Files.bareName name).toList ++ ['.'] := by
    simp
  rw [Files.bareName, htoList, stemOf_append (List.not_mem_nil), if_neg hne, String.ofList_toList]

/-- **An extension comes behind what is left of a name without its last dot.** -/
theorem withExtension_join (hbare : Files.bareName name ≠ ".") (directory : String)
    {extension : String} (hext : '/' ∉ extension.toList) :
    withExtension (join directory name) extension
      = join directory (Files.bareName name ++ "." ++ extension) := by
  obtain ⟨hdot, hdots⟩ := ne_dots_of_bareName hbare
  have hlength : (join directory name).length = (wayInto directory ++ name.toList).length := by
    rw [← String.length_toList, h.toList_join]
  simp only [withExtension, extensionLength, h.fileName?_join hdot hdots, hlength, h.toList_join]
  obtain hself | ⟨-, hname⟩ := stemOf_cases name.toList
  · rw [if_pos hself, Nat.sub_zero, List.take_length, ← h.toList_join, String.ofList_toList,
      h.setExtension_join hdot hdots _ hext]
  · -- the tail is cut off with no regard to the dot before it, which goes when the stem's end
    -- is found again
    have hcut : IsName (Files.bareName name ++ ".") := h.bareName.append (by decide)
    have hcutDots := ne_dots_of_bareName (h.bareName_append_dot.symm ▸ hbare)
    have hshort : stemOf name.toList ≠ name.toList := by
      intro he
      have := congrArg List.length hname
      simp [he] at this
    have hsplit : wayInto directory ++ name.toList
        = (join directory (Files.bareName name ++ ".")).toList ++ tailOf name.toList := by
      rw [hcut.toList_join, List.append_assoc]
      simpa [Files.bareName] using hname.symm
    rw [if_neg hshort, hsplit, List.length_append, Nat.add_sub_cancel, List.take_left,
      String.ofList_toList, hcut.setExtension_join hcutDots.1 hcutDots.2 _ hext,
      h.bareName_append_dot]

end IsName

end Stencil.Files
