/-
  Stencil.Proofs.Program.Rendering
  ────────────────────────────────
  RENDERING LOSES NOTHING.

  A compiled program is rendered as one line for each operation.  The readers
  here go the other way, from the characters of a line alone: a group is told
  by what its line starts and ends with, its arguments are cut at the commas
  outside literals, and what stands between quotes is a literal.  Template
  text may hold quotes, backslashes, commas and brackets, and still never ends
  its literal.

    • `readGroup_render` — a group is read back from its line,
    • `compileNodes_clean` — compiled programs hold no line break, and their
      values none of the characters that arguments are cut by,
    • `lines_renderOps` — the lines of a rendering are those of the operations,
    • `render_lossless` — so programs with one rendering are the same.
-/
import Stencil.Text.Lines
import Stencil.Proofs.Library.Compilation

namespace Stencil

open Text (isIdentifier)
open Schema (Ty afterKeyword? eq_append_of_afterKeyword?)
open Template (Node)
open Outcome

/-! ## §1. Reading lines. -/

/-- Put characters before the first piece. -/
def onFirst (front : List Char) : List (List Char) → List (List Char)
  | [] => [front]
  | piece :: pieces => (front ++ piece) :: pieces

/-- Cut arguments at each comma with a blank after it that stands outside
literals.  A quote opens a literal and the next one closes it; inside, a
backslash takes the next character with it. -/
def cutArguments : Bool → List Char → List (List Char)
  | _, [] => [[]]
  | true, '\\' :: c :: cs => onFirst ['\\', c] (cutArguments true cs)
  | true, c :: cs => onFirst [c] (cutArguments (c != '\x27') cs)
  | false, ',' :: ' ' :: cs => [] :: cutArguments false cs
  | false, c :: cs => onFirst [c] (cutArguments (c == '\x27') cs)

/-- Take the backslash from each pair of a backslash and a character. -/
def unescape : List Char → List Char
  | [] => []
  | '\\' :: c :: cs => c :: unescape cs
  | c :: cs => c :: unescape cs

/-- Read an argument: what stands in quotes is a literal, all else a value. -/
def readArgument (piece : String) : Fragment String :=
  match (enclosed? "'" "'" piece).or (enclosed? "unicode'" "'" piece) with
  | some inner => .literal (String.ofList (unescape inner))
  | none => .value piece

/-- Read the line of a group. -/
def readGroup (line : String) : Option (List (Fragment String)) :=
  (enclosed? "body = abi.encodePacked(body, " ");" line).map fun args =>
    (cutArguments false args).map fun piece => readArgument (String.ofList piece)

/-- Read a line as an operation. -/
def readOp (line : String) : Op :=
  match readGroup line with
  | some fragments => .group fragments
  | none => .statement line

/-! ## §2. Clean operations. -/

/-- A text without line breaks. -/
def OneLine (text : String) : Prop :=
  '\n' ∉ text.toList ∧ '\r' ∉ text.toList

instance (text : String) : Decidable (OneLine text) :=
  inferInstanceAs (Decidable (_ ∧ _))

@[simp] theorem oneLine_append {a b : String} : OneLine (a ++ b) ↔ OneLine a ∧ OneLine b := by
  simp only [OneLine, String.toList_append, List.mem_append]
  tauto

/-- The characters a value is spelled with. -/
def isValueChar (c : Char) : Bool :=
  Path.isPathChar c || c == '(' || c == ')'

/-- A text of such characters. -/
def ValueChars (text : String) : Prop :=
  text.toList.all isValueChar = true

instance (text : String) : Decidable (ValueChars text) :=
  inferInstanceAs (Decidable (_ = _))

theorem valueChars_append {a b : String} : ValueChars (a ++ b) ↔ ValueChars a ∧ ValueChars b := by
  simp only [ValueChars, String.toList_append, List.all_append, Bool.and_eq_true]

/-- Values have nothing of a literal, a comma or a line break. -/
theorem ValueChars.not_mem {text : String} (h : ValueChars text) {c : Char}
    (hc : isValueChar c = false) : c ∉ text.toList := by
  intro hmem
  rw [List.all_eq_true.mp h c hmem] at hc
  exact absurd hc (by decide)

theorem ValueChars.oneLine {text : String} (h : ValueChars text) : OneLine text :=
  ⟨h.not_mem (by decide), h.not_mem (by decide)⟩

theorem Path.Spelled.valueChars {p : Path} (h : p.Spelled) : ValueChars p.text := by
  refine List.all_eq_true.mpr fun c hc => ?_
  simp [isValueChar, h.isPathChar c hc]

theorem valueChars_of_isIdentifier {name : String} (h : isIdentifier name = true) :
    ValueChars name :=
  Path.Spelled.valueChars (p := .member .root name) (.param h)

/-- A literal without line breaks, or a value. -/
def Fragment.Clean : Fragment String → Prop
  | literal text => OneLine text
  | value expr => ValueChars expr

/-- Groups of clean fragments, and lines of spelled paths. -/
def Instr.Clean : Instr → Prop
  | append fragments => fragments ≠ [] ∧ ∀ f ∈ fragments, f.Clean
  | instr => instr.Spelled

/-! ## §3. Arguments are read back. -/

theorem onFirst_append (front more : List Char) (pieces : List (List Char)) :
    onFirst (front ++ more) pieces = onFirst front (onFirst more pieces) := by
  cases pieces with
  | nil => rfl
  | cons piece pieces => simp [onFirst]

theorem onFirst_ne_nil (front : List Char) (pieces : List (List Char)) :
    onFirst front pieces ≠ [] := by
  cases pieces <;> simp [onFirst]

theorem onFirst_nil {pieces : List (List Char)} (h : pieces ≠ []) : onFirst [] pieces = pieces := by
  cases pieces with
  | nil => exact absurd rfl h
  | cons piece pieces => simp [onFirst]

theorem cutArguments_ne_nil (inside : Bool) (cs : List Char) : cutArguments inside cs ≠ [] := by
  fun_cases cutArguments inside cs <;> simp [onFirst_ne_nil]

/-- Outside literals, all but commas stays in the piece; a quote opens a
literal. -/
theorem cutArguments_outside {c : Char} (hcomma : c ≠ ',') (cs : List Char) :
    cutArguments false (c :: cs) = onFirst [c] (cutArguments (c == '\x27') cs) := by
  rw [cutArguments]
  rintro cs' rfl
  exact absurd rfl hcomma

/-- Inside a literal, all but backslashes stands for itself, and a quote
closes it. -/
theorem cutArguments_inside {c : Char} (hslash : c ≠ '\\') (cs : List Char) :
    cutArguments true (c :: cs) = onFirst [c] (cutArguments (c != '\x27') cs) := by
  rw [cutArguments]
  rintro c' cs' rfl
  exact absurd rfl hslash

/-- A text with neither commas nor quotes stays in one piece. -/
theorem cutArguments_plain {rest : List Char} : ∀ {cs : List Char}, ',' ∉ cs → '\x27' ∉ cs →
    cutArguments false (cs ++ rest) = onFirst cs (cutArguments false rest)
  | [], _, _ => (onFirst_nil (cutArguments_ne_nil false rest)).symm
  | c :: cs, hcomma, hquote => by
      simp only [List.mem_cons, not_or] at hcomma hquote
      have hout : (c == '\x27') = false := by simpa using Ne.symm hquote.1
      rw [List.cons_append, cutArguments_outside (Ne.symm hcomma.1), hout,
        cutArguments_plain hcomma.2 hquote.2, ← onFirst_append]
      rfl

/-- A character comes with a backslash, or is neither quote nor backslash. -/
theorem literalChar_cases (c : Char) :
    literalChar c = ['\\', c] ∨ literalChar c = [c] ∧ c ≠ '\\' ∧ c ≠ '\x27' := by
  unfold literalChar
  split
  next => exact .inl rfl
  next h =>
    simp only [Bool.or_eq_true, decide_eq_true_eq, not_or] at h
    exact .inr ⟨rfl, h⟩

/-- The characters of a literal, whatever they are, do not end it. -/
theorem cutArguments_escaped {rest : List Char} : ∀ text : List Char,
    cutArguments true (text.flatMap literalChar ++ rest)
      = onFirst (text.flatMap literalChar) (cutArguments true rest)
  | [] => (onFirst_nil (cutArguments_ne_nil true rest)).symm
  | c :: text => by
      rw [List.flatMap_cons, List.append_assoc]
      rcases literalChar_cases c with h | ⟨h, hslash, hquote⟩
      · rw [h, List.cons_append, List.singleton_append, cutArguments, cutArguments_escaped text,
          ← onFirst_append]
      · have hin : (c != '\x27') = true := by simpa using hquote
        rw [h, List.singleton_append, cutArguments_inside hslash, hin, cutArguments_escaped text,
          ← onFirst_append]

/-- Undoing the backslashes gives the text of a literal. -/
theorem unescape_escaped : ∀ text : List Char, unescape (text.flatMap literalChar) = text
  | [] => rfl
  | c :: text => by
      rw [List.flatMap_cons]
      rcases literalChar_cases c with h | ⟨h, hslash, -⟩
      · rw [h, List.cons_append, List.singleton_append, unescape, unescape_escaped text]
      · rw [h, List.singleton_append, unescape, unescape_escaped text]
        rintro c' cs' rfl
        exact absurd rfl hslash

/-- A literal from its first quote on. -/
def quoted (text : String) : List Char :=
  '\x27' :: (text.toList.flatMap literalChar ++ ['\x27'])

theorem toList_literalText (text : String) :
    (literalText text).toList = quoted text
      ∨ (literalText text).toList = "unicode".toList ++ quoted text := by
  unfold literalText quoted
  dsimp only
  split
  · left
    simp
  · right
    simp

theorem cutArguments_quoted (text : String) (rest : List Char) :
    cutArguments false (quoted text ++ rest) = onFirst (quoted text) (cutArguments false rest) := by
  unfold quoted
  rw [List.cons_append, List.append_assoc, cutArguments_outside (by decide)]
  show onFirst _ (cutArguments true (text.toList.flatMap literalChar ++ ('\x27' :: rest))) = _
  -- the quote after the text is the first that nothing escapes
  rw [cutArguments_escaped, cutArguments_inside (by decide), ← onFirst_append, ← onFirst_append]
  rfl

/-- **A clean argument is one piece,** whatever follows it. -/
theorem cutArguments_render {f : Fragment String} (h : f.Clean) (rest : List Char) :
    cutArguments false (f.render.toList ++ rest)
      = onFirst f.render.toList (cutArguments false rest) := by
  cases f with
  | value expr =>
    have hv : ValueChars expr := h
    exact cutArguments_plain (hv.not_mem (by decide)) (hv.not_mem (by decide))
  | literal text =>
    rw [Fragment.render]
    rcases toList_literalText text with heq | heq
    · rw [heq, cutArguments_quoted]
    · rw [heq, List.append_assoc, cutArguments_plain (by decide) (by decide),
        cutArguments_quoted, ← onFirst_append]

/-- Arguments with commas between them are cut into themselves. -/
theorem cutArguments_intercalate : ∀ {fragments : List (Fragment String)}, fragments ≠ [] →
    (∀ f ∈ fragments, f.Clean) →
    cutArguments false (", ".intercalate (fragments.map (·.render))).toList
      = fragments.map (·.render.toList)
  | [], hne, _ => absurd rfl hne
  | [f], _, hclean => by
      have hcut := cutArguments_render (hclean f List.mem_cons_self) []
      rw [List.append_nil] at hcut
      rw [List.map_cons, List.map_nil, String.intercalate_singleton, hcut]
      simp [cutArguments, onFirst]
  | f :: g :: fragments, _, hclean => by
      have hrest := @cutArguments_intercalate (g :: fragments) (by simp)
        fun f' hf' => hclean f' (List.mem_cons_of_mem _ hf')
      rw [List.map_cons] at hrest
      rw [List.map_cons, List.map_cons, String.intercalate_cons_cons, String.toList_append,
        String.toList_append, List.append_assoc, cutArguments_render (hclean f List.mem_cons_self)]
      have hsep : ", ".toList = [',', ' '] := rfl
      rw [hsep, List.cons_append, List.singleton_append, cutArguments, hrest]
      simp [onFirst]

/-- What does not hold what must come first is not enclosed. -/
theorem enclosed?_eq_none {opening closing word : String} {c : Char} (hc : c ∈ opening.toList)
    (hword : c ∉ word.toList) : enclosed? opening closing word = none := by
  unfold enclosed?
  cases hrest : afterKeyword? opening.toList word.toList with
  | none => rfl
  | some rest =>
    rw [eq_append_of_afterKeyword? hrest] at hword
    exact absurd (List.mem_append_left _ hc) hword

/-- **A clean argument is read back.** -/
theorem readArgument_render {f : Fragment String} (h : f.Clean) : readArgument f.render = f := by
  cases f with
  | value expr =>
    have hv : ValueChars expr := h
    have hquote : '\x27' ∉ expr.toList := hv.not_mem (by decide)
    rw [Fragment.render, readArgument, enclosed?_eq_none (c := '\x27') (by decide) hquote,
      enclosed?_eq_none (c := '\x27') (by decide) hquote]
    rfl
  | literal text =>
    have hread : ∀ opening : String,
        enclosed? opening "'" (opening ++ String.ofList (text.toList.flatMap literalChar) ++ "'")
          = some (text.toList.flatMap literalChar) := fun opening => enclosed?_append _ _ _
    rw [Fragment.render, literalText]
    split
    · rw [readArgument, hread]
      simp [unescape_escaped]
    · -- the mark begins with another letter, so the quote alone does not fit
      have hmark : enclosed? "'" "'"
          ("unicode'" ++ String.ofList (text.toList.flatMap literalChar) ++ "'") = none := by
        simp [enclosed?, afterKeyword?]
      rw [readArgument, hmark, hread]
      simp [unescape_escaped]

/-- **A group of clean fragments is read back from its line.** -/
theorem readGroup_render {fragments : List (Fragment String)} (hne : fragments ≠ [])
    (hclean : ∀ f ∈ fragments, f.Clean) :
    readGroup (Op.group fragments).render = some fragments := by
  have hargs := enclosed?_append "body = abi.encodePacked(body, " ");"
    (", ".intercalate (fragments.map (·.render))).toList
  rw [String.ofList_toList] at hargs
  rw [Op.render_group, readGroup, hargs, Option.map_some, cutArguments_intercalate hne hclean,
    List.map_map]
  have hread : fragments.map ((fun piece => readArgument (String.ofList piece)) ∘
      (·.render.toList)) = fragments := by
    rw [List.map_congr_left (g := id) fun f hf => ?_, List.map_id]
    simp only [Function.comp_apply, String.ofList_toList, readArgument_render (hclean f hf), id_eq]
  rw [hread]

/-! ## §4. Clean operations are read back. -/

/-- A line that ends in a brace is no group. -/
theorem readGroup_eq_none {line : String} {c : Char} (hlast : line.toList.reverse.head? = some c)
    (hc : c ≠ ';') : readGroup line = none := by
  unfold readGroup enclosed?
  cases hrest : afterKeyword? "body = abi.encodePacked(body, ".toList line.toList with
  | none => rfl
  | some rest =>
    have hclose : afterKeyword? ");".toList.reverse rest.reverse = none := by
      rw [eq_append_of_afterKeyword? hrest, List.reverse_append] at hlast
      -- the last character of the line is the last of what follows the opening
      cases hrev : rest.reverse with
      | nil => rfl
      | cons d cs =>
        rw [hrev] at hlast
        obtain rfl : d = c := by simpa using hlast
        simp [afterKeyword?, Ne.symm hc]
    rw [Option.bind_some, hclose]
    rfl

/-- **A clean instruction is read back from its line.** -/
theorem Instr.Clean.readOp_render {instr : Instr} (h : instr.Clean) :
    readOp instr.op.render = instr.op := by
  cases instr with
  | append fragments => rw [Instr.op, readOp, readGroup_render h.1 h.2]
  | opens cond =>
    rw [Instr.op, Op.render_statement, readOp,
      readGroup_eq_none (c := '\x7b') (by simp [ifLine]) (by decide)]
  | loop i source =>
    rw [Instr.op, Op.render_statement, readOp,
      readGroup_eq_none (c := '\x7b') (by unfold forLine; simp) (by decide)]
  | otherwise => rfl
  | close => rfl

theorem oneLine_test {t : Test} (h : t.path.Spelled) : OneLine t.text := by
  have hpath := h.valueChars.oneLine
  cases t with
  | nonzero p => exact oneLine_append.mpr ⟨hpath, by decide⟩
  | holds p => exact hpath
  | nonempty p =>
    exact oneLine_append.mpr ⟨oneLine_append.mpr ⟨hpath, by decide⟩, by decide⟩

theorem oneLine_lengthText {p : Path} (h : p.Spelled) : OneLine p.lengthText :=
  oneLine_append.mpr ⟨h.valueChars.oneLine, by decide⟩

theorem oneLine_ifLine {condition : String} (h : OneLine condition) :
    OneLine (ifLine condition) := by
  unfold ifLine
  exact oneLine_append.mpr ⟨oneLine_append.mpr ⟨by decide, h⟩, by decide⟩

theorem oneLine_forLine {i length : String} (hi : OneLine i) (hl : OneLine length) :
    OneLine (forLine i length) := by
  unfold forLine
  simp only [oneLine_append, hi, hl]
  decide

/-- Escaping brings in no line break. -/
theorem oneLine_literalText {text : String} (h : OneLine text) : OneLine (literalText text) := by
  have hescaped : ∀ {c : Char}, c ≠ '\\' → c ∉ text.toList →
      c ∉ text.toList.flatMap literalChar := by
    intro c hslash hc hmem
    obtain ⟨d, hd, hmem⟩ := List.mem_flatMap.mp hmem
    rcases literalChar_cases d with heq | ⟨heq, -, -⟩
    · rw [heq] at hmem
      simp only [List.mem_cons, List.not_mem_nil, or_false] at hmem
      rcases hmem with rfl | rfl
      · exact hslash rfl
      · exact hc hd
    · rw [heq, List.mem_singleton] at hmem
      exact hc (hmem ▸ hd)
  have hquoted : OneLine (String.ofList (text.toList.flatMap literalChar)) := by
    unfold OneLine
    rw [String.toList_ofList]
    exact ⟨hescaped (by decide) h.1, hescaped (by decide) h.2⟩
  unfold literalText
  dsimp only
  refine oneLine_append.mpr ⟨oneLine_append.mpr ⟨?_, hquoted⟩, by decide⟩
  split <;> decide

theorem Fragment.Clean.oneLine {f : Fragment String} (h : f.Clean) : OneLine f.render := by
  cases f with
  | literal text => exact oneLine_literalText h
  | value expr => exact ValueChars.oneLine h

theorem oneLine_intercalate {sep : String} (hsep : OneLine sep) : ∀ {texts : List String},
    (∀ t ∈ texts, OneLine t) → OneLine (sep.intercalate texts)
  | [], _ => by
      rw [String.intercalate_nil]
      decide
  | [t], h => by
      rw [String.intercalate_singleton]
      exact h t List.mem_cons_self
  | t :: u :: texts, h => by
      rw [String.intercalate_cons_cons]
      exact oneLine_append.mpr ⟨oneLine_append.mpr ⟨h t List.mem_cons_self, hsep⟩,
        oneLine_intercalate hsep fun v hv => h v (List.mem_cons_of_mem _ hv)⟩

/-- **A clean instruction is a line.** -/
theorem Instr.Clean.oneLine {instr : Instr} (h : instr.Clean) : OneLine instr.op.render := by
  cases instr with
  | append fragments =>
    have hargs : OneLine (", ".intercalate (fragments.map (·.render))) := by
      refine oneLine_intercalate (by decide) fun t ht => ?_
      obtain ⟨f, hf, rfl⟩ := List.mem_map.mp ht
      exact (h.2 f hf).oneLine
    rw [Instr.op, Op.render_group]
    exact oneLine_append.mpr ⟨oneLine_append.mpr ⟨by decide, hargs⟩, by decide⟩
  | opens cond =>
    cases cond with
    | test t => exact oneLine_ifLine (oneLine_test h)
    | more i source =>
      refine oneLine_ifLine ?_
      show OneLine (moreText i source.lengthText)
      unfold moreText
      simp only [oneLine_append, (valueChars_of_isIdentifier h.1).oneLine, oneLine_lengthText h.2]
      decide
  | loop i source =>
    exact oneLine_forLine (valueChars_of_isIdentifier h.1).oneLine (oneLine_lengthText h.2)
  | otherwise => decide
  | close => decide

/-- Every line has characters. -/
theorem Instr.render_ne (instr : Instr) : instr.op.render ≠ "" := by
  cases instr with
  | append fragments =>
    rw [Instr.op, Op.render_group]
    simp
  | opens cond => simp [Instr.op, ifLine]
  | loop i source =>
    rw [Instr.op, Op.render_statement]
    unfold forLine
    simp
  | otherwise | close => decide

/-! ## §5. Lines. -/

/-- **Lines put together are found again.** -/
theorem lines_intercalate : ∀ {texts : List String}, (∀ t ∈ texts, t ≠ "" ∧ OneLine t) →
    Text.lines ("\n".intercalate texts).toList = texts.map String.toList
  | [], _ => by decide
  | [t], h => by
      obtain ⟨hne, hfeed, -⟩ := h t List.mem_cons_self
      rw [String.intercalate_singleton, Text.lines, Text.splitLines_eq_singleton hfeed,
        Text.linesOf, if_neg (by simpa using hne)]
      rfl
  | t :: u :: texts, h => by
      obtain ⟨-, hfeed, hreturn⟩ := h t List.mem_cons_self
      have hrest := lines_intercalate fun v hv => h v (List.mem_cons_of_mem t hv)
      have htext : ("\n".intercalate (t :: u :: texts)).toList
          = t.toList ++ '\n' :: ("\n".intercalate (u :: texts)).toList := by
        rw [String.intercalate_cons_cons]
        simp
      unfold Text.lines at hrest ⊢
      rw [htext, Text.splitLines_append hfeed, Text.linesOf_cons (Text.splitLines_ne_nil _),
        Text.dropReturn_eq_self hreturn, hrest]
      rfl

/-! ## §6. Compiled programs are clean. -/

/-- All instructions are clean. -/
def Program.Clean (p : Program) : Prop :=
  ∀ instr ∈ instrsOf p, instr.Clean

theorem instrsOf_append (q : Program) : ∀ p : Program,
    instrsOf (p ++ q) = instrsOf p ++ instrsOf q
  | [] => rfl
  | s :: p => by rw [List.cons_append, instrsOf, instrsOf, instrsOf_append q p, List.append_assoc]

theorem Program.clean_nil : Program.Clean [] := by
  simp [Program.Clean, instrsOf]

theorem Program.clean_cons {s : Stmt} {p : Program} :
    Program.Clean (s :: p) ↔ (∀ instr ∈ s.instrs, instr.Clean) ∧ Program.Clean p := by
  simp [Program.Clean, instrsOf, or_imp, forall_and]

theorem Program.clean_singleton {s : Stmt} :
    Program.Clean [s] ↔ ∀ instr ∈ s.instrs, instr.Clean := by
  simp [Program.clean_cons, Program.clean_nil]

theorem Program.clean_append {p q : Program} :
    Program.Clean (p ++ q) ↔ p.Clean ∧ q.Clean := by
  simp [Program.Clean, instrsOf_append, or_imp, forall_and]

/-- Fragments that meet in a join are clean together. -/
theorem Program.Clean.join {p q : Program} (hp : p.Clean) (hq : q.Clean) :
    (Program.join p q).Clean := by
  rcases Program.join_cases p q with h | ⟨front, xs, ys, rest, rfl, rfl, h⟩
  · rw [h]
    exact Program.clean_append.mpr ⟨hp, hq⟩
  · obtain ⟨hfront, hxs⟩ := Program.clean_append.mp hp
    obtain ⟨hys, hrest⟩ := Program.clean_cons.mp hq
    have hx : (Instr.append (xs.map (·.map Value.text))).Clean :=
      Program.clean_singleton.mp hxs _ (by simp [Stmt.instrs])
    have hy : (Instr.append (ys.map (·.map Value.text))).Clean := hys _ (by simp [Stmt.instrs])
    rw [h]
    refine Program.clean_append.mpr ⟨hfront, Program.clean_cons.mpr ⟨?_, hrest⟩⟩
    intro instr hinstr
    obtain rfl : instr = .append ((xs ++ ys).map (·.map Value.text)) := by
      simpa [Stmt.instrs] using hinstr
    rw [List.map_append]
    exact ⟨by simp [hx.1], fun f hf => (List.mem_append.mp hf).elim (hx.2 f) (hy.2 f)⟩

/-- Where a template may be compiled: at the record of the parameters, or at a
path of identifiers. -/
inductive Path.Rooted : Path → Ty → Prop
  /-- The record of the parameters. -/
  | root {members : List (String × Ty)} : Rooted .root (.record members)
  /-- A path with a spelling. -/
  | spelled {p : Path} {ty : Ty} (h : p.Spelled) : Rooted p ty

namespace Path

theorem Rooted.member {p : Path} {ty ty' : Ty} {name : String} (h : p.Rooted ty)
    (hw : ty.WellFormed) (hm : ty.member? name = some ty') :
    (p.member name).Spelled ∧ ty'.WellFormed := by
  cases hw with
  | scalar | sequence | fixed => simp [Ty.member?] at hm
  | record _ hid hms =>
    have hmem := mem_of_lookup hm
    refine ⟨?_, hms _ hmem⟩
    cases h with
    | root => exact .param (hid _ hmem)
    | spelled h => exact .member h (hid _ hmem)

/-- Members of members are named by identifiers. -/
theorem Rooted.along : ∀ {chain : List String} {p : Path} {ty ty' : Ty}, p.Rooted ty →
    ty.WellFormed → ty.along? chain = some ty' → (p.along chain).Rooted ty' ∧ ty'.WellFormed
  | [], p, ty, ty', h, hw, ha => by
      obtain rfl : ty = ty' := by simpa [Ty.along?] using ha
      exact ⟨h, hw⟩
  | name :: chain, p, ty, ty', h, hw, ha => by
      obtain ⟨ty₁, hty₁, ha⟩ := Option.bind_eq_some_iff.mp ha
      obtain ⟨hp, hw₁⟩ := h.member hw hty₁
      show ((p.member name).along chain).Rooted ty' ∧ ty'.WellFormed
      exact Rooted.along (.spelled hp) hw₁ ha

/-- All but the record of the parameters has a spelling. -/
theorem Rooted.spelled_of_ne {p : Path} {ty : Ty} (h : p.Rooted ty)
    (hne : ∀ members, ty ≠ .record members) : p.Spelled := by
  cases h with
  | root => exact absurd rfl (hne _)
  | spelled h => exact h

theorem Rooted.spelled_of_text {p : Path} {ty : Ty} (h : p.Rooted ty) (hne : p.text ≠ "") :
    p.Spelled := by
  cases h with
  | root => exact absurd rfl hne
  | spelled h => exact h

end Path

/-- A record is tested for nothing, so what is tested has a spelling. -/
theorem Ref.Tests.spelled {p : Path} {ty : Ty} {t : Test} (h : Ref.Tests ty p t)
    (hp : p.Rooted ty) : t.path.Spelled := by
  cases h with
  | nonzero h =>
    refine hp.spelled_of_ne ?_
    rintro members rfl
    simp [Ty.isNumeric] at h
  | holds h =>
    refine hp.spelled_of_ne ?_
    rintro members rfl
    simp [Ty.isBool] at h
  | nonempty h =>
    refine hp.spelled_of_ne ?_
    rintro members rfl
    simp [Ty.element?] at h

/-- The calls of the standard functions are spelled like values. -/
theorem valueChars_of_pass? : ∀ {names : List String} {r r' : Ref}, ValueChars r.text →
    Ref.pass? Builtin.standard names r = some r' → ValueChars r'.text
  | [], r, r', hr, h => by
      obtain rfl : r = r' := by simpa [Ref.pass?] using h
      exact hr
  | name :: names, r, r', hr, h => by
      obtain ⟨f, hf, h⟩ := Option.bind_eq_some_iff.mp h
      split at h
      next => simp at h
      next =>
        refine valueChars_of_pass? ?_ h
        have hmem := mem_standardFunctions hf
        have hname : ValueChars f.name := by
          simp only [Builtin.standardFunctions, List.mem_cons, List.not_mem_nil, or_false] at hmem
          rcases hmem with rfl | rfl
          · decide
          · decide
        show ValueChars (f.spell r.text)
        rw [spell_standard hmem]
        simp only [valueChars_append, hname, hr]
        decide

/-- What a pipeline writes is spelled like a value. -/
theorem valueChars_of_resolve? {ty : Ty} {path : Path} {s : Template.Shape} {r : Ref}
    (hp : path.Rooted ty) (hw : ty.WellFormed)
    (hres : Ref.resolve? Builtin.standard ty path s = some r) (hne : r.text ≠ "") :
    ValueChars r.text := by
  obtain ⟨ty', hty', hpass⟩ := Option.bind_eq_some_iff.mp hres
  have hspelled := (hp.along hw hty').1.spelled_of_text (Ref.text_ne_of_pass? hpass hne)
  have hplace : ValueChars (Ref.place ty' (path.along s.chain)).text := hspelled.valueChars
  exact valueChars_of_pass? hplace hpass

/-- Compact text has no line breaks. -/
theorem oneLine_compact (content : String) : OneLine (Text.compact content) := by
  have hlayout : ∀ c ∈ Text.compactChars content.toList, Text.isLayout c = false := by
    intro c hc
    have hmem := (Text.dropLooseBlanks_sublist _ _).mem hc
    simpa using (List.mem_filter.mp hmem).2
  unfold OneLine Text.compact
  rw [String.toList_ofList]
  exact ⟨fun h => absurd (hlayout _ h) (by decide), fun h => absurd (hlayout _ h) (by decide)⟩

theorem clean_compileText (content : String) : (compileText content).Clean := by
  unfold compileText
  dsimp only
  split
  · exact Program.clean_nil
  · refine Program.clean_singleton.mpr fun instr hinstr => ?_
    obtain rfl : instr = .append [.literal (Text.compact content)] := by
      simpa [Stmt.instrs, Fragment.map] using hinstr
    refine ⟨by simp, fun f hf => ?_⟩
    obtain rfl : f = .literal (Text.compact content) := by simpa using hf
    exact oneLine_compact content

mutual
/-- **A node compiled at a spelled place gives a clean program.** -/
theorem compileNode_clean : ∀ (node : Node) {depth : Nat} {ty : Ty} {path : Path}
    {program : Program}, path.Rooted ty → ty.WellFormed →
    compileNode Builtin.standard depth (.place ty path) node = .ok program → program.Clean
  | .text _ content, depth, ty, path, program, _, _, h => by
      obtain rfl : compileText content = program := by simpa [compileNode] using h
      exact clean_compileText content
  | .action _ pipe, depth, ty, path, program, hp, hw, h => by
      obtain ⟨s, r, -, hres, hne, rfl⟩ := compileNode_action.mp h
      refine Program.clean_singleton.mpr fun instr hinstr => ?_
      obtain rfl : instr = .append [.value r.text] := by
        simpa [Stmt.instrs, Fragment.map, Ref.text] using hinstr
      refine ⟨by simp, fun f hf => ?_⟩
      obtain rfl : f = .value r.text := by simpa using hf
      exact valueChars_of_resolve? hp hw hres hne
  | .branch .cond pos pipe _ body, depth, ty, path, program, hp, hw, h => by
      obtain ⟨chain, ty', t, inner, -, hty, htests, hinner, rfl⟩ := compileNode_cond.mp h
      have ht : (Instr.opens (.test t)).Clean := htests.spelled (hp.along hw hty).1
      have hbody := compileNodes_clean body hp hw hinner
      refine Program.clean_singleton.mpr ?_
      simp only [Stmt.instrs, List.forall_mem_cons, List.forall_mem_append]
      exact ⟨ht, hbody, trivial, by simp⟩
  | .branchElse .cond pos pipe _ body _ elseBody, depth, ty, path, program, hp, hw, h => by
      obtain ⟨chain, ty', t, inner, other, -, hty, htests, hinner, hother, rfl⟩ :=
        compileNode_condElse.mp h
      have ht : (Instr.opens (.test t)).Clean := htests.spelled (hp.along hw hty).1
      have hbody := compileNodes_clean body hp hw hinner
      have helse := compileNodes_clean elseBody hp hw hother
      refine Program.clean_singleton.mpr ?_
      simp only [Stmt.instrs, List.forall_mem_cons, List.forall_mem_append]
      exact ⟨ht, hbody, trivial, helse, trivial, by simp⟩
  | .branch .loop pos pipe _ body, depth, ty, path, program, hp, hw, h => by
      obtain ⟨chain, ty', element, inner, -, hty, he, hinner, rfl⟩ := compileNode_loop.mp h
      obtain ⟨hrooted, hw'⟩ := hp.along hw hty
      -- a record has no elements, so what is looped over has a spelling
      have hsource : (path.along chain).Spelled :=
        hrooted.spelled_of_ne (by rintro members rfl; simp [Ty.element?] at he)
      have hi := isIdentifier_loopVariable depth
      have hbody := compileNodes_clean body (.spelled (.index hsource hi))
        (Path.wellFormed_element hw' he) hinner
      have hmore : (Instr.opens (.more (loopVariable depth) (path.along chain))).Clean :=
        ⟨hi, hsource⟩
      have hcomma : (Instr.append [.literal separator]).Clean :=
        ⟨by simp, by simpa [Fragment.Clean] using (by decide : OneLine separator)⟩
      refine Program.clean_singleton.mpr ?_
      simp only [Stmt.instrs, List.forall_mem_cons, List.forall_mem_append]
      exact ⟨⟨hi, hsource⟩, hbody, hmore, hcomma, trivial, trivial, by simp⟩
  | .branchElse .loop pos _ _ _ _ _, _, _, _, _, _, _, h => by simp [compileNode] at h
  | .branch .scope pos _ _ _, _, _, _, _, _, _, h => by simp [compileNode] at h
  | .branchElse .scope pos _ _ _ _ _, _, _, _, _, _, _, h => by simp [compileNode] at h
  | .group _ nodes, depth, ty, path, program, hp, hw, h => by
      rw [compileNode] at h
      exact compileNodes_clean nodes hp hw h
  | .jump kind pos, _, _, _, _, _, _, h => by simp [compileNode] at h
  | .invoke pos name, _, _, _, _, _, _, h => by simp [compileNode] at h

/-- The same for nodes in order. -/
theorem compileNodes_clean : ∀ (nodes : List Node) {depth : Nat} {ty : Ty} {path : Path}
    {program : Program}, path.Rooted ty → ty.WellFormed →
    compileNodes Builtin.standard depth (.place ty path) nodes = .ok program → program.Clean
  | [], _, _, _, program, _, _, h => by
      obtain rfl : [] = program := by simpa [compileNodes] using h
      exact Program.clean_nil
  | node :: nodes, depth, ty, path, program, hp, hw, h => by
      obtain ⟨first, rest, hfirst, hrest, rfl⟩ := compileNodes_cons.mp h
      exact (compileNode_clean node hp hw hfirst).join (compileNodes_clean nodes hp hw hrest)
end

/-! ## §7. Rendered programs. -/

namespace Program

/-- Every operation of a clean program says a clean instruction. -/
theorem Clean.exists_instr {p : Program} (h : p.Clean) {op : Op} (hop : op ∈ p.ops) :
    ∃ instr : Instr, instr.Clean ∧ op = instr.op := by
  unfold Program.ops at hop
  rw [opsOf_eq] at hop
  obtain ⟨instr, hinstr, rfl⟩ := List.mem_map.mp hop
  exact ⟨instr, h instr hinstr, rfl⟩

theorem Clean.line {p : Program} (h : p.Clean) {op : Op} (hop : op ∈ p.ops) :
    op.render ≠ "" ∧ OneLine op.render := by
  obtain ⟨instr, hinstr, rfl⟩ := h.exists_instr hop
  exact ⟨instr.render_ne, hinstr.oneLine⟩

/-- The lines of the rendering are those of the operations. -/
theorem Clean.lines_renderOps {p : Program} (h : p.Clean) :
    Text.lines (renderOps p.ops).toList = p.ops.map (·.render.toList) := by
  unfold renderOps
  rw [lines_intercalate, List.map_map]
  · rfl
  · intro t ht
    obtain ⟨op, hop, rfl⟩ := List.mem_map.mp ht
    exact h.line hop

/-- **The operations are read back from the rendering,** line by line. -/
theorem Clean.readOp_lines {p : Program} (h : p.Clean) :
    (Text.lines (renderOps p.ops).toList).map (fun line => readOp (String.ofList line))
      = p.ops := by
  rw [h.lines_renderOps, List.map_map, List.map_congr_left (g := id) fun op hop => ?_, List.map_id]
  obtain ⟨instr, hinstr, rfl⟩ := h.exists_instr hop
  simp only [Function.comp_apply, String.ofList_toList, hinstr.readOp_render, id_eq]

end Program

/-- Templates compile to clean programs. -/
theorem clean_of_compile {members : List (String × Ty)} {nodes : List Node} {program : Program}
    (hw : (Ty.record members).WellFormed)
    (h : compile Builtin.standard (.record members) nodes = .ok program) : program.Clean :=
  compileNodes_clean nodes .root hw h

/-- **Rendering loses nothing.**  The program of a template against a record
of well-formed types renders as one non-empty line for each operation; the
arguments of each group are read back from its line; and programs with the
same rendering are the same. -/
theorem render_lossless {members : List (String × Ty)} {nodes : List Node} {program : Program}
    (hw : (Ty.record members).WellFormed)
    (h : compile Builtin.standard (.record members) nodes = .ok program) :
    (∀ op ∈ program.ops, op.render ≠ "" ∧ '\n' ∉ op.render.toList ∧ '\r' ∉ op.render.toList)
      ∧ Text.lines (renderOps program.ops).toList = program.ops.map (·.render.toList)
      ∧ (∀ fragments, .group fragments ∈ program.ops →
          readGroup (Op.group fragments).render = some fragments)
      ∧ ∀ members' nodes' program', (Ty.record members').WellFormed →
          compile Builtin.standard (.record members') nodes' = .ok program' →
          renderOps program'.ops = renderOps program.ops → program'.ops = program.ops := by
  have hclean := clean_of_compile hw h
  refine ⟨fun op hop => hclean.line hop, hclean.lines_renderOps, fun fragments hgroup => ?_, ?_⟩
  · obtain ⟨instr, hinstr, heq⟩ := hclean.exists_instr hgroup
    cases instr with
    | append fragments' =>
      obtain rfl : fragments = fragments' := Op.group.inj heq
      exact readGroup_render hinstr.1 hinstr.2
    | opens | loop | otherwise | close => simp [Instr.op] at heq
  · intro members' nodes' program' hw' h' hrender
    rw [← (clean_of_compile hw' h').readOp_lines, hrender, hclean.readOp_lines]

/-- A text with all that arguments are cut by, and a call with its brackets. -/
theorem render_lossless_quotes :
    (Ty.record [("x", .scalar "uint256")]).WellFormed
      ∧ ∃ program, compile Builtin.standard (.record [("x", .scalar "uint256")])
            [.text 0 "\"a', 'ü\\\"",
              .action 10 ⟨12, none, [⟨12, [.function "toString", .field ["x"]]⟩]⟩] = .ok program
        ∧ renderOps program.ops
          = "body = abi.encodePacked(body, unicode'\"a\\', \\'ü\\\\\"', LibString.toString(x));"
        ∧ program.ops = [.group [.literal "\"a', 'ü\\\"", .value "LibString.toString(x)"]]
        ∧ readGroup (renderOps program.ops)
          = some [.literal "\"a', 'ü\\\"", .value "LibString.toString(x)"] := by
  have hw : (Ty.record [("x", .scalar "uint256")]).WellFormed :=
    .record (by decide) (by simp; decide) (by simpa using Ty.WellFormed.scalar ⟨"uint", .uint⟩)
  obtain ⟨program, hcompile, hops⟩ : ∃ program,
      compile Builtin.standard (.record [("x", .scalar "uint256")])
        [.text 0 "\"a', 'ü\\\"",
          .action 10 ⟨12, none, [⟨12, [.function "toString", .field ["x"]]⟩]⟩] = .ok program
        ∧ program.ops = [.group [.literal "\"a', 'ü\\\"", .value "LibString.toString(x)"]] :=
    ⟨_, rfl, by cbv⟩
  have hread := (render_lossless hw hcompile).2.2.1 _
    (by rw [hops]; exact List.mem_singleton_self _)
  refine ⟨hw, program, hcompile, ?_, hops, ?_⟩
  · rw [hops]
    rfl
  · rw [hops]
    exact hread

end Stencil
