/-
  Stencil.Proofs.Program.Report
  ─────────────────────────────
  A REPORT TELLS THE OFFSET OF ITS ERROR.

  A report shows a kind, a line, a column and a text, and all four can be
  read off it again.  On the boundaries of characters, where all errors of a
  template stand, the line and the column grow with the offset.  So two
  reports that look the same are about the same offset.

    • `locate_strictMonoOn` — offsets on boundaries are located in order,
    • `exists_next_boundary` — the others are located at the next boundary,
    • `Diagnostic.report_inj` — what can be read off a report,
    • `RaisedBy.onBoundary` — where errors stand,
    • `report_identifies_offset` — all of it together.
-/
import Mathlib.Order.Bounds.Basic
import Mathlib.Tactic.IntervalCases
import Stencil.Proofs.Program.Location
import Stencil.Proofs.Program.Scope
import Stencil.Proofs.Text.Compaction
import Stencil.Proofs.Text.Location

namespace Stencil

open Schema (Ty)
open Template (Between parse)
open Text (Location locate openLine)

/-! ## §1. Boundaries. -/

theorem width_toList (source : String) : Text.width source.toList = source.utf8ByteSize := by
  rw [width_eq_utf8ByteSize, String.ofList_toList]

/-- Boundaries are the places between characters. -/
theorem onBoundary_iff_between {source : String} {p : Nat} :
    OnBoundary source p ↔ Between source.toList p := by
  refine ⟨?_, onBoundary_of_between⟩
  rintro ⟨-, hvalid⟩
  obtain ⟨front, rest, rfl, hfront⟩ := String.Pos.Raw.isValid_iff_exists_append.mp hvalid
  refine ⟨rest.toList, front.toList, String.toList_append, ?_⟩
  rw [width_toList]
  exact (congrArg String.Pos.Raw.byteIdx hfront).symm

/-- **On a boundary, the line and the column count what is before it.** -/
theorem locate_of_onBoundary {source : String} {p : Nat} (h : OnBoundary source p) :
    ∃ front rest : String, source = front ++ rest ∧ front.utf8ByteSize = p
      ∧ locate source.toList p
        = ⟨1 + front.toList.count '\n', 1 + (openLine front.toList).length⟩ := by
  obtain ⟨front, rest, rfl, hfront⟩ := String.Pos.Raw.isValid_iff_exists_append.mp h.2
  obtain rfl : p = front.utf8ByteSize := congrArg String.Pos.Raw.byteIdx hfront
  refine ⟨front, rest, rfl, rfl, ?_⟩
  rw [String.toList_append, ← width_toList, Text.locate_width]

/-- **Boundaries are located in their order.** -/
theorem locate_strictMonoOn (source : String) :
    StrictMonoOn (locate source.toList) {p | OnBoundary source p} := by
  intro p hp q hq hlt
  obtain ⟨rest, front, hsource, rfl⟩ := onBoundary_iff_between.mp hp
  obtain ⟨rest', front', hsource', rfl⟩ := onBoundary_iff_between.mp hq
  -- the front that takes less is the beginning of the other
  rcases List.append_eq_append_iff.mp (hsource.symm.trans hsource') with
    ⟨between, rfl, rfl⟩ | ⟨between, rfl, -⟩
  · have hne : between ≠ [] := by
      rintro rfl
      simp at hlt
    rw [hsource]
    exact Text.locate_lt_locate rest' hne
  · rw [Text.width_append] at hlt
    omega

/-- **An offset that is not past the end is located at the next boundary.** -/
theorem exists_next_boundary {source : String} {p : Nat} (h : p ≤ source.utf8ByteSize) :
    ∃ q, IsLeast {r | OnBoundary source r ∧ p ≤ r} q
      ∧ locate source.toList p = locate source.toList q := by
  rw [← width_toList] at h
  -- the next boundary is the end of the characters that begin before the offset
  refine ⟨Text.width (Text.before source.toList p), ⟨⟨?_, Text.le_width_before h⟩, ?_⟩,
    (Text.locate_width_before _ _).symm⟩
  · exact onBoundary_of_between
      ⟨Text.after source.toList p, _, (Text.before_append_after _ _).symm, rfl⟩
  · rintro r ⟨hr, hle⟩
    obtain ⟨rest, front, hsource, rfl⟩ := onBoundary_iff_between.mp hr
    rw [hsource, Text.before_append rest hle]
    exact Text.width_before_le front p

/-! ## §2. Reading reports. -/

/-- Texts are cut at the first mark of a kind. -/
theorem mark_inj {mark : Char} {xs ys xs' ys' : List Char} (hxs : mark ∉ xs) (hys : mark ∉ ys)
    (h : xs ++ mark :: xs' = ys ++ mark :: ys') : xs = ys ∧ xs' = ys' := by
  have hnone : ∀ {zs : List Char}, mark ∉ zs → zs.countP (· == mark) = 0 :=
    fun hzs => List.count_eq_zero.mpr hzs
  have hcount := (hnone hxs).trans (hnone hys).symm
  exact (Text.append_cons_inj (p := (· == mark)) (beq_self_eq_true mark) hcount).mp h

theorem colon_notMem_toString (n : Nat) : ':' ∉ (toString n).toList :=
  fun hmem => absurd (Schema.isDigit_of_mem_toString hmem) (by decide)

/-- A number with a colon behind it can be read off. -/
theorem number_inj {m n : Nat} {xs ys : List Char}
    (h : (toString m).toList ++ ':' :: xs = (toString n).toList ++ ':' :: ys) :
    m = n ∧ xs = ys := by
  obtain ⟨hdigits, hrest⟩ := mark_inj (colon_notMem_toString m) (colon_notMem_toString n) h
  exact ⟨toString_inj (String.toList_inj.mp hdigits), hrest⟩

namespace Diagnostic

/-- What a report says behind the kind. -/
def remark (d : Diagnostic) (source : String) : List Char :=
  match d.pos?.map (locate source.toList) with
  | some here =>
      " line ".toList ++ ((toString here.line).toList ++ ':' ::
        ((toString here.column).toList ++ ':' :: (' ' :: d.text.toList)))
  | none => ' ' :: d.text.toList

theorem toList_report (d : Diagnostic) (source : String) :
    (d.report source).toList = '[' :: (d.kind.toList ++ ']' :: d.remark source) := by
  unfold report remark
  cases d.pos? <;> simp

theorem bracket_notMem_kind (d : Diagnostic) : ']' ∉ d.kind.toList := by
  cases d <;> simp [kind]

/-- All kinds but one come with an offset. -/
theorem isSome_pos?_iff (d : Diagnostic) : d.pos?.isSome = true ↔ d.kind ≠ "schema" := by
  cases d <;> simp [kind, pos?]

/-- **The kind, the place and the text can be read off a report.** -/
theorem report_inj {d e : Diagnostic} {source : String} (h : d.report source = e.report source) :
    d.kind = e.kind ∧ d.pos?.map (locate source.toList) = e.pos?.map (locate source.toList)
      ∧ d.text = e.text := by
  have hlist := congrArg String.toList h
  rw [toList_report, toList_report] at hlist
  obtain ⟨hkind, hremark⟩ :=
    mark_inj d.bracket_notMem_kind e.bracket_notMem_kind (List.cons.inj hlist).2
  have hsame : d.kind = e.kind := String.toList_inj.mp hkind
  -- diagnostics of one kind have an offset both or neither
  have hplaced : d.pos?.isSome = true ↔ e.pos?.isSome = true := by
    rw [isSome_pos?_iff, isSome_pos?_iff, hsame]
  refine ⟨hsame, ?_⟩
  unfold remark at hremark
  cases hd : d.pos? with
  | none =>
    cases he : e.pos? with
    | none =>
      simp only [hd, he, Option.map_none] at hremark
      exact ⟨rfl, String.toList_inj.mp (List.cons.inj hremark).2⟩
    | some q => simp [hd, he] at hplaced
  | some p =>
    cases he : e.pos? with
    | none => simp [hd, he] at hplaced
    | some q =>
      simp only [hd, he, Option.map_some] at hremark
      obtain ⟨hline, hrest⟩ := number_inj (List.append_cancel_left hremark)
      obtain ⟨hcolumn, htext⟩ := number_inj hrest
      refine ⟨congrArg some ?_, String.toList_inj.mp (List.cons.inj htext).2⟩
      exact Location.key_injective (congrArg toLex (Prod.ext hline hcolumn))

/-- If offsets stand on boundaries, they can be read off, too. -/
theorem pos?_eq_of_report {d e : Diagnostic} {source : String}
    (hd : ∀ p, d.pos? = some p → OnBoundary source p)
    (he : ∀ p, e.pos? = some p → OnBoundary source p)
    (h : d.report source = e.report source) : d.pos? = e.pos? := by
  obtain ⟨-, hplace, -⟩ := report_inj h
  cases hpos : d.pos? with
  | none =>
    rw [hpos, Option.map_none] at hplace
    exact (Option.map_eq_none_iff.mp hplace.symm).symm
  | some p =>
    rw [hpos, Option.map_some] at hplace
    obtain ⟨q, hq, hlocate⟩ := Option.map_eq_some_iff.mp hplace.symm
    rw [hq, (locate_strictMonoOn source).injOn (he q hq) (hd p hpos) hlocate]

end Diagnostic

/-! ## §3. Errors of templates. -/

/-- Reading the template ends in the error, or compiling it against some record
with some functions. -/
def RaisedBy (source : String) (e : Error) : Prop :=
  parse source = .error e
    ∨ ∃ block table root, parse source = .ok block ∧ compile table root block.nodes = .error e

/-- Trees and the errors of reading them stand between characters. -/
theorem parse_located (source : String) :
    Located (Between source.toList)
      (fun block => ∀ p ∈ block.positions, Between source.toList p) (parse source) := by
  unfold parse
  exact (tokens_located source).bind fun ts h => Template.ofTokens_located h.1 h.2

/-- **Errors of a template stand on boundaries.** -/
theorem RaisedBy.onBoundary {source : String} {e : Error} (h : RaisedBy source e) :
    ∃ p, e.offset? = some p ∧ OnBoundary source p := by
  have hparse := parse_located source
  obtain ⟨p, hp, hbetween⟩ : ∃ p, e.offset? = some p ∧ Between source.toList p := by
    rcases h with h | ⟨block, table, root, h, hcompile⟩
    · rwa [h] at hparse
    · rw [h] at hparse
      have hnodes := Template.forall_positionsOf.mp (List.forall_mem_cons.mp hparse).2
      have hcompiled := @compileNodes_located _ table block.nodes 0 (.root root) hnodes
      unfold compile at hcompile
      rwa [hcompile] at hcompiled
  exact ⟨p, hp, onBoundary_of_between hbetween⟩

/-- **A line and a column identify an offset.**  On the boundaries of the
characters of a source, an offset further on is located strictly further on in
the order of reading; the line is one more than the number of line feeds
before the offset, and the column one more than the number of characters since
the last of them, or since the start.  Any other offset is located at the next
boundary, or at the end if there is none.  So two reports that are the same
are about the same offset if both offsets are on boundaries, as those of all
errors are that the source raises. -/
theorem report_identifies_offset (source : String) :
    StrictMonoOn (locate source.toList) {p | OnBoundary source p}
    ∧ (∀ p, OnBoundary source p → ∃ front rest : String,
        source = front ++ rest ∧ front.utf8ByteSize = p
        ∧ locate source.toList p
          = ⟨1 + front.toList.count '\n', 1 + (openLine front.toList).length⟩)
    ∧ (∀ p, p ≤ source.utf8ByteSize → ∃ q, IsLeast {r | OnBoundary source r ∧ p ≤ r} q
        ∧ locate source.toList p = locate source.toList q)
    ∧ (∀ p, source.utf8ByteSize < p →
        locate source.toList p = locate source.toList source.utf8ByteSize)
    ∧ (∀ d e : Diagnostic, (∀ p, d.pos? = some p → OnBoundary source p) →
        (∀ p, e.pos? = some p → OnBoundary source p) →
        d.report source = e.report source → d.pos? = e.pos?)
    ∧ (∀ e e', RaisedBy source e → RaisedBy source e' →
        e.diagnostic.report source = e'.diagnostic.report source →
        ∃ p, OnBoundary source p ∧ e.diagnostic.pos? = some p ∧ e'.diagnostic.pos? = some p) := by
  refine ⟨locate_strictMonoOn source, fun p => locate_of_onBoundary, fun p => exists_next_boundary,
    fun p h => ?_, fun d e => Diagnostic.pos?_eq_of_report, fun e e' h h' hreport => ?_⟩
  · rw [← width_toList] at h ⊢
    exact Text.locate_of_width_le h.le
  · obtain ⟨p, hp, hboundary⟩ := h.onBoundary
    obtain ⟨p', hp', hboundary'⟩ := h'.onBoundary
    rw [← Error.pos?_diagnostic] at hp hp'
    have hsame := Diagnostic.pos?_eq_of_report
      (fun q hq => Option.some.inj (hp.symm.trans hq) ▸ hboundary)
      (fun q hq => Option.some.inj (hp'.symm.trans hq) ▸ hboundary') hreport
    exact ⟨p, hboundary, hp, hsame.symm.trans hp⟩

/-- Characters of two, one and three bytes before an action: the offset behind
all of them is ahead of the one behind the first, an offset inside the third
is located behind it, and one past the end at the end.  Two diagnostics with the
same report have the same offset, and the error of a member that the record
does not have stands on a boundary. -/
theorem report_identifies_offset_euro :
    let source := "\u00e9\n\u20ac\x7b\x7b.x\x7d\x7d"
    (OnBoundary source 2 ∧ OnBoundary source 6
      ∧ locate source.toList 2 < locate source.toList 6)
    ∧ (∃ front rest : String, source = front ++ rest ∧ front.utf8ByteSize = 6
      ∧ locate source.toList 6
        = ⟨1 + front.toList.count '\n', 1 + (openLine front.toList).length⟩)
    ∧ (4 ≤ source.utf8ByteSize ∧ locate source.toList 4 = locate source.toList 6)
    ∧ (source.utf8ByteSize < 99
      ∧ locate source.toList 99 = locate source.toList source.utf8ByteSize)
    ∧ ((Diagnostic.path "" "m" 6).report source = (Diagnostic.path "." "m" 6).report source
      ∧ (Diagnostic.path "" "m" 6).pos? = (Diagnostic.path "." "m" 6).pos?)
    ∧ RaisedBy source (.path "" (.noMember "x") 8)
    ∧ ∃ p, OnBoundary source p ∧ (Error.path "" (.noMember "x") 8).diagnostic.pos? = some p := by
  intro source
  have hsize : source.utf8ByteSize = 12 := by decide
  have hboundary : ∀ p, p ≤ 12 → String.Pos.Raw.IsValid source ⟨p⟩ → OnBoundary source p :=
    fun p hp hvalid => ⟨hp.trans hsize.ge, hvalid⟩
  have htwo : OnBoundary source 2 := hboundary 2 (by decide) (by decide)
  have hsix : OnBoundary source 6 := hboundary 6 (by decide) (by decide)
  have htree : parse source = .ok ⟨0, [.text 0 "\u00e9\n\u20ac",
      .action 6 ⟨8, none, [⟨8, [.field ["x"]]⟩]⟩]⟩ := by cbv
  have hmember : compile Builtin.standard (.record [("y", .scalar "bool")])
      [.text 0 "\u00e9\n\u20ac", .action 6 ⟨8, none, [⟨8, [.field ["x"]]⟩]⟩]
      = .error (.path "" (.noMember "x") 8) := by cbv
  have hraised : RaisedBy source (.path "" (.noMember "x") 8) := .inr ⟨_, _, _, htree, hmember⟩
  have hreport : (Diagnostic.path "" "m" 6).report source
      = (Diagnostic.path "." "m" 6).report source := rfl
  obtain ⟨hmono, hcount, hnext, hpast, hpos, herror⟩ := report_identifies_offset source
  refine ⟨⟨htwo, hsix, hmono htwo hsix (by decide)⟩, hcount 6 hsix, ⟨by omega, ?_⟩,
    ⟨by omega, hpast 99 (by omega)⟩, ⟨hreport, hpos _ _ ?_ ?_ hreport⟩, hraised, ?_⟩
  · -- the offsets 4 and 5 are inside of the third character
    obtain ⟨q, ⟨⟨hq, hle⟩, hleast⟩, hlocate⟩ := hnext 4 (by omega)
    have hq6 : q ≤ 6 := hleast ⟨hsix, by decide⟩
    obtain rfl : q = 6 := by
      interval_cases q
      · exact absurd hq.2 (by decide)
      · exact absurd hq.2 (by decide)
      · rfl
    exact hlocate
  · intro p hp
    exact Option.some.inj hp ▸ hsix
  · intro p hp
    exact Option.some.inj hp ▸ hsix
  · obtain ⟨p, hp, hsame, -⟩ := herror _ _ hraised hraised rfl
    exact ⟨p, hp, hsame⟩

end Stencil
