/-
  Stencil.Proofs.DemoCheck.Comparison
  ───────────────────────────────────
  DOCUMENTS THAT DIFFER IN NOTHING THAT COUNTS.

  A document is written line by line: the text of a line, spaces and tabs
  behind it, and either of two endings, which the last line may lack.  The
  comparison of two documents sees none of that, and no blank at the end of
  the whole document.

    • `trimEnd_unifyLineEnds_write` — endings are all alike,
    • `significantLines_content` — the lines that are compared,
    • `firstDifference_append` — lines in common are passed,
    • `difference?_documents` — there is no difference exactly if the lines
      that count are the same; otherwise the first one that differs is told,
      and how the documents are written does not matter.
-/
import Mathlib.Data.List.DropRight
import Stencil.DemoCheck

namespace Stencil.DemoCheck

open Text (isBlank trimEnd splitLines linesOf)

/-! ## §1. Documents. -/

/-- A line as it is written. -/
structure WrittenLine where
  /-- Its text. -/
  text : List Char
  /-- What is written behind the text. -/
  blanks : List Char
  /-- It ends with a carriage return and a line feed, and not with a line feed
  alone. -/
  withReturn : Bool
  /-- The text is on one line. -/
  no_return : '\r' ∉ text := by simp
  /-- The text is on one line. -/
  no_feed : '\n' ∉ text := by simp
  /-- Only spaces and tabs are behind it. -/
  only_blanks : ∀ c ∈ blanks, c = ' ' ∨ c = '\t' := by simp

/-- What ends a line. -/
def WrittenLine.ending (line : WrittenLine) : List Char :=
  if line.withReturn then ['\r', '\n'] else ['\n']

/-- A line without its ending. -/
def WrittenLine.body (line : WrittenLine) : List Char :=
  line.text ++ line.blanks

/-- The line with nothing behind its text and the short ending. -/
def WrittenLine.plain (line : WrittenLine) : WrittenLine :=
  { line with blanks := [], withReturn := false, only_blanks := by simp }

/-- Write lines; the last one need not be ended. -/
def writeLines (ended : Bool) : List WrittenLine → List Char
  | [] => []
  | [last] => last.body ++ if ended then last.ending else []
  | line :: rest => line.body ++ (line.ending ++ writeLines ended rest)

/-- Lines in order. -/
structure Document where
  /-- The lines. -/
  lines : List WrittenLine
  /-- The last line is ended, too. -/
  ended : Bool

/-- A document as it is written. -/
def Document.content (d : Document) : String :=
  String.ofList (writeLines d.ended d.lines)

/-- The same lines, written plainly. -/
def Document.plain (d : Document) : Document :=
  ⟨d.lines.map WrittenLine.plain, true⟩

/-- What is left of lines if their document may not end with blanks: lines that
are blank to the end go, and the one before them is trimmed. -/
def withoutEnd : List (List Char) → List (List Char)
  | [] => []
  | line :: rest =>
      match withoutEnd rest with
      | [] => if line.rdropWhile isBlank = [] then [] else [line.rdropWhile isBlank]
      | kept => line :: kept

/-- The lines that count: without the spaces and tabs at their ends, and
without the blanks at the end of the document. -/
def Document.significant (d : Document) : List (List Char) :=
  withoutEnd (d.lines.map fun line => line.text.rdropWhile fun c => c == ' ' || c == '\t')

/-! ## §2. Dropping from the end. -/

section

variable {α : Type} {p q : α → Bool}

/-- What is dropped from the end of two lists, one after the other. -/
theorem rdropWhile_append (xs ys : List α) :
    (xs ++ ys).rdropWhile p
      = if ys.rdropWhile p = [] then xs.rdropWhile p else xs ++ ys.rdropWhile p := by
  simp only [List.rdropWhile, List.reverse_append, List.dropWhile_append, List.isEmpty_iff,
    List.reverse_eq_nil_iff]
  split
  next => rfl
  next => simp

/-- To drop less first makes no difference. -/
theorem rdropWhile_rdropWhile (h : ∀ x, p x = true → q x = true) (xs : List α) :
    (xs.rdropWhile p).rdropWhile q = xs.rdropWhile q := by
  have hrest : (xs.rtakeWhile p).rdropWhile q = [] :=
    List.rdropWhile_eq_nil_iff.mpr fun x hx => h x (List.mem_rtakeWhile_imp hx)
  conv_rhs =>
    rw [← List.rdropWhile_append_rtakeWhile (p := p) (l := xs), rdropWhile_append, if_pos hrest]

/-- Nor does dropping less afterwards. -/
theorem rdropWhile_of_rdropWhile (h : ∀ x, p x = true → q x = true) (xs : List α) :
    (xs.rdropWhile q).rdropWhile p = xs.rdropWhile q :=
  List.rdropWhile_eq_self_iff.mpr fun hne hlast => List.rdropWhile_last_not q xs hne (h _ hlast)

end

theorem trimEnd_append (xs ys : List Char) :
    trimEnd (xs ++ ys) = if trimEnd ys = [] then trimEnd xs else xs ++ trimEnd ys :=
  rdropWhile_append xs ys

theorem trimEnd_congr {ys zs : List Char} (xs : List Char) (h : trimEnd ys = trimEnd zs) :
    trimEnd (xs ++ ys) = trimEnd (xs ++ zs) := by
  rw [trimEnd_append, trimEnd_append, h]

theorem isBlank_of_lineBlank {c : Char} (h : (c == ' ' || c == '\t') = true) :
    isBlank c = true := by
  simp only [Bool.or_eq_true, beq_iff_eq] at h
  rcases h with rfl | rfl <;> decide

/-- Spaces and tabs at the end are blanks at the end. -/
theorem trimEnd_dropLineBlanks (line : List Char) : trimEnd (dropLineBlanks line) = trimEnd line :=
  rdropWhile_rdropWhile (fun _ => isBlank_of_lineBlank) line

theorem dropLineBlanks_trimEnd (line : List Char) : dropLineBlanks (trimEnd line) = trimEnd line :=
  rdropWhile_of_rdropWhile (fun _ => isBlank_of_lineBlank) line

theorem dropLineBlanks_body (line : WrittenLine) :
    dropLineBlanks line.body = dropLineBlanks line.text := by
  have hblanks : line.blanks.rdropWhile (fun c => c == ' ' || c == '\t') = [] :=
    List.rdropWhile_eq_nil_iff.mpr fun c hc => by simpa using line.only_blanks c hc
  exact (rdropWhile_append line.text line.blanks).trans (if_pos hblanks)

theorem mem_of_mem_trimEnd {c : Char} {cs : List Char} (h : c ∈ trimEnd cs) : c ∈ cs :=
  (List.rdropWhile_prefix isBlank cs).mem h

theorem mem_of_mem_dropLineBlanks {c : Char} {cs : List Char} (h : c ∈ dropLineBlanks cs) :
    c ∈ cs :=
  (List.rdropWhile_prefix (fun c => c == ' ' || c == '\t') cs).mem h

/-! ## §3. Endings. -/

theorem unifyLineEnds_append {xs : List Char} (h : '\r' ∉ xs) (ys : List Char) :
    unifyLineEnds (xs ++ ys) = xs ++ unifyLineEnds ys := by
  induction xs with
  | nil => rfl
  | cons x xs ih =>
    simp only [List.mem_cons, not_or] at h
    rw [List.cons_append, List.cons_append, unifyLineEnds, ih h.2]
    rintro cs rfl
    exact absurd rfl h.1

theorem WrittenLine.not_mem_body (line : WrittenLine) : '\r' ∉ line.body ∧ '\n' ∉ line.body := by
  have hblanks : ∀ c, c ≠ ' ' → c ≠ '\t' → c ∉ line.blanks := by
    intro c hspace htab hc
    rcases line.only_blanks c hc with h | h
    · exact hspace h
    · exact htab h
  simp only [body, List.mem_append, not_or]
  exact ⟨⟨line.no_return, hblanks _ (by decide) (by decide)⟩,
    line.no_feed, hblanks _ (by decide) (by decide)⟩

/-- Both endings come to a line feed. -/
theorem unifyLineEnds_ending (line : WrittenLine) (rest : List Char) :
    unifyLineEnds (line.ending ++ rest) = '\n' :: unifyLineEnds rest := by
  unfold WrittenLine.ending
  split
  next => rfl
  next => simp [unifyLineEnds]

/-- **Written lines are their bodies with line feeds between them,** but for
what is blank at the end. -/
theorem trimEnd_unifyLineEnds_write (ended : Bool) (lines : List WrittenLine) :
    trimEnd (unifyLineEnds (writeLines ended lines))
      = trimEnd (['\n'].intercalate (lines.map WrittenLine.body)) := by
  induction lines with
  | nil => rfl
  | cons line rest ih =>
    have hbody := line.not_mem_body.1
    cases rest with
    | nil =>
      rw [writeLines, unifyLineEnds_append hbody, List.map_singleton, List.intercalate_singleton,
        trimEnd_append, if_pos]
      cases ended with
      | false => rfl
      | true =>
        have hending := unifyLineEnds_ending line []
        rw [List.append_nil] at hending
        rw [if_pos rfl, hending]
        rfl
    | cons next rest =>
      show trimEnd
        (unifyLineEnds (line.body ++ (line.ending ++ writeLines ended (next :: rest)))) = _
      rw [unifyLineEnds_append hbody, unifyLineEnds_ending, List.map_cons, List.map_cons,
        List.intercalate_cons_cons, ← List.map_cons, List.append_cons]
      exact trimEnd_congr (line.body ++ ['\n']) ih

/-! ## §4. The lines that count. -/

/-- A document ends in its first line if the rest is blank. -/
theorem trimEnd_intercalate_cons (body : List Char) (rest : List (List Char)) :
    trimEnd (['\n'].intercalate (body :: rest))
      = if trimEnd (['\n'].intercalate rest) = [] then trimEnd body
        else body ++ '\n' :: trimEnd (['\n'].intercalate rest) := by
  cases rest with
  | nil =>
    rw [List.intercalate_singleton]
    exact (if_pos rfl).symm
  | cons next rest =>
    have hfeed : trimEnd (body ++ ['\n']) = trimEnd body :=
      (trimEnd_append body ['\n']).trans (if_pos rfl)
    rw [List.intercalate_cons_cons, trimEnd_append, hfeed, List.append_assoc]
    rfl

/-- **The lines of a trimmed document.**  Without the blanks at their ends they
are the lines that are left if the document may not end with blanks. -/
theorem linesOf_trimEnd {bodies : List (List Char)}
    (h : ∀ body ∈ bodies, '\r' ∉ body ∧ '\n' ∉ body) :
    linesOf ((splitLines (trimEnd (['\n'].intercalate bodies))).map dropLineBlanks)
        = withoutEnd (bodies.map dropLineBlanks)
      ∧ (trimEnd (['\n'].intercalate bodies) = []
        ↔ withoutEnd (bodies.map dropLineBlanks) = []) := by
  induction bodies with
  | nil => exact ⟨rfl, by simp [withoutEnd, trimEnd]⟩
  | cons body rest ih =>
    obtain ⟨⟨hreturn, hfeed⟩, hrest⟩ := List.forall_mem_cons.mp h
    obtain ⟨ih, hempty⟩ := ih hrest
    rw [trimEnd_intercalate_cons, List.map_cons, withoutEnd]
    by_cases hblank : trimEnd (['\n'].intercalate rest) = []
    · -- the document ends in this line
      have hone : linesOf ((splitLines (trimEnd body)).map dropLineBlanks)
          = if trimEnd body = [] then [] else [trimEnd body] := by
        rw [Text.splitLines_eq_singleton fun hmem => hfeed (mem_of_mem_trimEnd hmem),
          List.map_singleton, dropLineBlanks_trimEnd, linesOf]
      have hkept : (dropLineBlanks body).rdropWhile isBlank = trimEnd body :=
        trimEnd_dropLineBlanks body
      rw [if_pos hblank, hempty.mp hblank, hkept, hone]
      exact ⟨rfl, by split <;> simp_all⟩
    · obtain ⟨line, lines, hkept⟩ := List.exists_cons_of_ne_nil (mt hempty.mpr hblank)
      have hpieces : (splitLines (trimEnd (['\n'].intercalate rest))).map dropLineBlanks ≠ [] := by
        simpa using Text.splitLines_ne_nil _
      have hkeep : Text.dropReturn (dropLineBlanks body) = dropLineBlanks body :=
        Text.dropReturn_eq_self fun hmem => hreturn (mem_of_mem_dropLineBlanks hmem)
      rw [if_neg hblank, Text.splitLines_append hfeed, List.map_cons, Text.linesOf_cons hpieces,
        hkeep, ih, hkept]
      exact ⟨rfl, by simp⟩

/-- The lines that are compared are those that count. -/
theorem significantLines_content (d : Document) : significantLines d.content = d.significant := by
  have hproper : ∀ body ∈ d.lines.map WrittenLine.body, '\r' ∉ body ∧ '\n' ∉ body := by
    intro body hbody
    obtain ⟨line, -, rfl⟩ := List.mem_map.mp hbody
    exact line.not_mem_body
  have hbodies : (d.lines.map WrittenLine.body).map dropLineBlanks
      = d.lines.map fun line => line.text.rdropWhile fun c => c == ' ' || c == '\t' := by
    rw [List.map_map]
    exact List.map_congr_left fun line _ => dropLineBlanks_body line
  unfold significantLines Document.content Document.significant
  rw [String.toList_ofList, trimEnd_unifyLineEnds_write, (linesOf_trimEnd hproper).1, hbodies]

/-! ## §5. Differences. -/

/-- Lines in common are passed. -/
theorem firstDifference_append (common es gs : List (List Char)) (n : Nat) :
    firstDifference n (common ++ es) (common ++ gs)
      = firstDifference (n + common.length) es gs := by
  induction common generalizing n with
  | nil => rfl
  | cons line common ih =>
    rw [List.cons_append, List.cons_append, firstDifference, if_pos rfl, ih, List.length_cons,
      Nat.add_assoc, Nat.add_comm 1]

/-- Lines that differ are told, or that one document ends. -/
theorem firstDifference_of_ne {es gs : List (List Char)} (h : es.head? ≠ gs.head?) (n : Nat) :
    firstDifference n es gs = some (n, es.head?, gs.head?) := by
  cases es with
  | nil =>
    cases gs with
    | nil => exact absurd rfl h
    | cons g gs => rfl
  | cons e es =>
    cases gs with
    | nil => rfl
    | cons g gs => exact if_neg fun heq => h (congrArg some heq)

theorem firstDifference_self (lines : List (List Char)) (n : Nat) :
    firstDifference n lines lines = none := by
  have hpass := firstDifference_append lines [] [] n
  rw [List.append_nil] at hpass
  rw [hpass, firstDifference]

/-- Lists that differ have a longest beginning in common. -/
theorem exists_common {α : Type} {xs ys : List α} (h : xs ≠ ys) :
    ∃ common xs' ys', xs = common ++ xs' ∧ ys = common ++ ys' ∧ xs'.head? ≠ ys'.head? := by
  induction xs generalizing ys with
  | nil =>
    obtain ⟨y, ys, rfl⟩ := List.exists_cons_of_ne_nil (Ne.symm h)
    exact ⟨[], [], y :: ys, rfl, rfl, by simp⟩
  | cons x xs ih =>
    cases ys with
    | nil => exact ⟨[], x :: xs, [], rfl, rfl, by simp⟩
    | cons y ys =>
      by_cases hhead : x = y
      · subst hhead
        obtain ⟨common, xs', ys', rfl, rfl, hne⟩ := ih fun heq => h (congrArg (x :: ·) heq)
        exact ⟨x :: common, xs', ys', rfl, rfl, hne⟩
      · exact ⟨[], x :: xs, y :: ys, rfl, rfl, by simpa using hhead⟩

theorem significant_plain (d : Document) : d.plain.significant = d.significant := by
  unfold Document.significant Document.plain
  rw [List.map_map]
  rfl

theorem lineText_eq (line : Option (List Char)) :
    lineText line = (line.map String.ofList).getD "<end of file>" := by
  cases line <;> rfl

/-- **The comparison of two documents.**  It finds no difference exactly if the
lines that count are the same.  Otherwise it tells the line behind the longest
common beginning of these lines, with both its forms or the end of a document.
How the lines are ended and what blanks are behind them makes no difference: the
documents may as well be written plainly. -/
theorem difference?_documents (expected generated : Document) :
    (difference? expected.content generated.content = none
        ↔ expected.significant = generated.significant)
      ∧ (expected.significant = generated.significant
        ∨ ∃ common es gs, expected.significant = common ++ es
          ∧ generated.significant = common ++ gs ∧ es.head? ≠ gs.head?
          ∧ difference? expected.content generated.content
            = some ("  line " ++ toString (1 + common.length)
                ++ "\n  - " ++ (es.head?.map String.ofList).getD "<end of file>"
                ++ "\n  + " ++ (gs.head?.map String.ofList).getD "<end of file>"))
      ∧ difference? expected.content generated.content
        = difference? expected.plain.content generated.plain.content := by
  have hlines : ∀ d d' : Document, difference? d.content d'.content
      = (firstDifference 1 d.significant d'.significant).map differenceText := by
    intro d d'
    rw [difference?, significantLines_content, significantLines_content]
  have hdiffers : expected.significant ≠ generated.significant →
      ∃ common es gs, expected.significant = common ++ es
        ∧ generated.significant = common ++ gs ∧ es.head? ≠ gs.head?
        ∧ difference? expected.content generated.content
          = some ("  line " ++ toString (1 + common.length)
              ++ "\n  - " ++ (es.head?.map String.ofList).getD "<end of file>"
              ++ "\n  + " ++ (gs.head?.map String.ofList).getD "<end of file>") := by
    intro hne
    obtain ⟨common, es, gs, he, hg, hhead⟩ := exists_common hne
    refine ⟨common, es, gs, he, hg, hhead, ?_⟩
    rw [hlines, he, hg, firstDifference_append, firstDifference_of_ne hhead, Option.map_some,
      differenceText, lineText_eq, lineText_eq]
  refine ⟨⟨fun hnone => ?_, fun heq => ?_⟩, ?_, ?_⟩
  · by_contra hne
    obtain ⟨common, es, gs, -, -, -, hsome⟩ := hdiffers hne
    rw [hnone] at hsome
    cases hsome
  · rw [hlines, heq, firstDifference_self, Option.map_none]
  · exact Decidable.or_iff_not_imp_left.mpr hdiffers
  · rw [hlines, hlines, significant_plain, significant_plain]

/-- Two lines, ended in both ways and with blanks behind the first. -/
def twoLines : Document :=
  ⟨[{ text := ['a'], blanks := [' ', '\t'], withReturn := true },
    { text := ['b'], blanks := [], withReturn := false }], true⟩

/-- The same lines, written in another way, with an empty line behind them. -/
def twoLinesAgain : Document :=
  ⟨[{ text := ['a', ' '], blanks := [], withReturn := false },
    { text := ['b'], blanks := ['\t'], withReturn := true },
    { text := [], blanks := [' '], withReturn := false }], false⟩

/-- The second line is gone. -/
def oneLine : Document :=
  ⟨[{ text := ['a'], blanks := [], withReturn := false }], false⟩

/-- Writing the two lines in another way makes no difference; the second is
missed where the document ends before it. -/
theorem difference?_documents_twoLines :
    twoLines.content = "a \t\r\nb\n" ∧ twoLinesAgain.content = "a \nb\t\r\n "
      ∧ oneLine.content = "a"
      ∧ difference? twoLines.content twoLinesAgain.content = none
      ∧ difference? twoLines.content oneLine.content
        = some "  line 2\n  - b\n  + <end of file>" := by
  have htwo : twoLines.significant = [['a'], ['b']] := by decide
  have hagain : twoLinesAgain.significant = [['a'], ['b']] := by decide
  have hone : oneLine.significant = [['a']] := by decide
  have hsame := (difference?_documents twoLines twoLinesAgain).1.mpr (htwo.trans hagain.symm)
  have hmissed : difference? twoLines.content oneLine.content
      = some "  line 2\n  - b\n  + <end of file>" := by
    obtain heq | ⟨common, es, gs, he, hg, hhead, htext⟩ :=
      (difference?_documents twoLines oneLine).2.1
    · rw [htwo, hone] at heq
      exact absurd heq (by decide)
    · rw [htwo] at he
      rw [hone] at hg
      -- the first line is all they have in common
      rcases common with _ | ⟨line, _ | ⟨next, common⟩⟩
      · rw [List.nil_append] at he hg
        exact absurd (by rw [← he, ← hg]; rfl) hhead
      · obtain ⟨rfl, rfl⟩ := List.cons.inj he
        obtain ⟨-, rfl⟩ := List.cons.inj hg
        exact htext.trans (by decide)
      · simp at hg
  exact ⟨by decide, by decide, by decide, hsame, hmissed⟩

end Stencil.DemoCheck
