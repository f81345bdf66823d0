/-
  Stencil.Proofs.Solidity.StringLiteral
  ─────────────────────────────────────
  WHICH TEXTS MAKE PROPER LITERALS.

  A string literal of the target language has printable ASCII between single
  quotes, or any text without line breaks between single quotes with `unicode`
  before them; in both, quotes and backslashes come with a backslash.  Texts
  of a template end up in such literals after they were compacted.  The
  escapes are always right, but a text can hold characters that neither form
  takes, or that the chosen form does not take.

    • `isLiteral_literalText_iff` — when the spelling of a text is a literal,
    • `isLiteral_compact_iff` — the same for the compact form, told from the
      text it comes from,
    • `literalsOf_compileNodes` — the literals of a program are the compact
      texts of its template, and a separator for each loop,
    • `literals_wellFormed_iff` — the literals of a program are proper exactly
      if its texts are expressible,
    • `literal_of_delete` — an ASCII character that is not printable.
-/
import Stencil.Proofs.Program.Emission
import Stencil.Proofs.Program.Rendering
import Stencil.Proofs.Text.QuoteParity

namespace Stencil

open Schema (Ty)
open Template (Node)
open Outcome
open Text (compact compactChars isBlank isLayout InString kept)

/-! ## §1. Literals. -/

/-- Printable ASCII. -/
def isPrintable (c : Char) : Bool :=
  0x20 ≤ c.toNat && c.toNat ≤ 0x7E

/-- The characters that end a line. -/
def isLineBreak (c : Char) : Bool :=
  let n := c.toNat
  (0x0A ≤ n && n ≤ 0x0D) || n == 0x85 || n == 0x2028 || n == 0x2029

/-- Between the quotes of a literal: a quote or a backslash has a backslash
before it. -/
inductive Escaped : List Char → Prop where
  /-- Nothing. -/
  | nil : Escaped []
  /-- A character that stands for itself. -/
  | plain {c : Char} {cs : List Char} : c ≠ '\\' → c ≠ '\x27' → Escaped cs → Escaped (c :: cs)
  /-- A quote or a backslash. -/
  | escape {c : Char} {cs : List Char} : c = '\\' ∨ c = '\x27' → Escaped cs →
      Escaped ('\\' :: c :: cs)

/-- A proper string literal. -/
inductive IsLiteral : List Char → Prop where
  /-- Printable ASCII in quotes. -/
  | ascii {inner : List Char} : Escaped inner → (∀ c ∈ inner, isPrintable c = true) →
      IsLiteral ('\x27' :: (inner ++ ['\x27']))
  /-- Text without line breaks, marked as beyond ASCII. -/
  | unicode {inner : List Char} : Escaped inner → (∀ c ∈ inner, isLineBreak c = false) →
      IsLiteral ("unicode".toList ++ '\x27' :: (inner ++ ['\x27']))

/-! ## §2. The spelling of a text. -/

/-- **Quotes and backslashes are always escaped.** -/
theorem escaped_flatMap (text : List Char) : Escaped (text.flatMap literalChar) := by
  induction text with
  | nil => exact .nil
  | cons c text ih =>
    rw [List.flatMap_cons, literalChar]
    split
    next h => exact .escape (by simpa using h) ih
    next h =>
      simp only [Bool.or_eq_true, decide_eq_true_eq, not_or] at h
      exact .plain h.1 h.2 ih

/-- An escape brings in nothing but backslashes. -/
theorem forall_mem_escaped {p : Char → Prop} (hslash : p '\\') (text : List Char) :
    (∀ c ∈ text.flatMap literalChar, p c) ↔ ∀ c ∈ text, p c := by
  induction text with
  | nil => simp
  | cons c text ih =>
    rw [List.flatMap_cons, List.forall_mem_append, List.forall_mem_cons, ih]
    rcases literalChar_cases c with h | ⟨h, -⟩
    · simp [h, hslash]
    · simp [h]

/-- A text of ASCII characters only. -/
def IsAscii (text : List Char) : Prop :=
  text.all (·.toNat < 128) = true

theorem IsAscii.lt {text : List Char} (h : IsAscii text) {c : Char} (hc : c ∈ text) :
    c.toNat < 128 := by
  simpa using List.all_eq_true.mp h c hc

theorem toList_literalText_of_ascii {text : String} (h : IsAscii text.toList) :
    (literalText text).toList = quoted text := by
  rw [IsAscii] at h
  simp [literalText, h, quoted]

theorem toList_literalText_of_not_ascii {text : String} (h : ¬ IsAscii text.toList) :
    (literalText text).toList = "unicode".toList ++ quoted text := by
  rw [IsAscii] at h
  simp only [literalText, if_neg h, quoted, String.toList_append, String.toList_ofList]
  simp

theorem isLiteral_quoted_iff (text : String) :
    IsLiteral (quoted text) ↔ ∀ c ∈ text.toList, isPrintable c = true := by
  constructor
  · intro h
    generalize hquoted : quoted text = spelling at h
    cases h with
    | ascii _ hprintable =>
      have hinner := List.append_cancel_right (List.cons.inj hquoted).2
      rw [← hinner] at hprintable
      exact (forall_mem_escaped (by decide) _).mp hprintable
    | unicode => exact absurd (List.cons.inj hquoted).1 (by decide)
  · intro h
    exact .ascii (escaped_flatMap _) ((forall_mem_escaped (by decide) _).mpr h)

theorem isLiteral_unicode_iff (text : String) :
    IsLiteral ("unicode".toList ++ quoted text) ↔ ∀ c ∈ text.toList, isLineBreak c = false := by
  constructor
  · intro h
    generalize hquoted : "unicode".toList ++ quoted text = spelling at h
    cases h with
    | ascii => exact absurd (List.cons.inj hquoted).1 (by decide)
    | unicode _ hbreak =>
      have hrest := List.append_cancel_left hquoted
      have hinner := List.append_cancel_right (List.cons.inj hrest).2
      rw [← hinner] at hbreak
      exact (forall_mem_escaped (by decide) _).mp hbreak
  · intro h
    exact .unicode (escaped_flatMap _) ((forall_mem_escaped (by decide) _).mpr h)

/-- **When the spelling of a text is a proper literal.**  ASCII has to be
printable, and a text beyond ASCII has to be without line breaks. -/
theorem isLiteral_literalText_iff (text : String) :
    IsLiteral (literalText text).toList
      ↔ (IsAscii text.toList ∧ ∀ c ∈ text.toList, isPrintable c = true)
        ∨ (¬ IsAscii text.toList ∧ ∀ c ∈ text.toList, isLineBreak c = false) := by
  by_cases h : IsAscii text.toList
  · rw [toList_literalText_of_ascii h, isLiteral_quoted_iff]
    simp [h]
  · rw [toList_literalText_of_not_ascii h, isLiteral_unicode_iff]
    simp [h]

/-! ## §3. Texts that can be expressed. -/

/-- A control character that compaction leaves where it is. -/
def isControl (c : Char) : Bool :=
  (c.toNat < 0x20 && !isBlank c) || c.toNat == 0x7F

/-- A text that makes a proper literal: no line break is in one of its strings
(those that are layout go even there), and it has control characters only next
to something beyond ASCII. -/
def Expressible (content : String) : Prop :=
  (∀ before c after, content.toList = before ++ c :: after →
      isLineBreak c = true ∧ isLayout c = false → ¬ InString before after)
    ∧ ((∀ c ∈ content.toList, isControl c = false) ∨ ¬ IsAscii (compact content).toList)

/-- A character that is no blank stays. -/
theorem mem_compactChars_of_not_blank {cs : List Char} {c : Char} (h : isBlank c = false) :
    c ∈ compactChars cs ↔ c ∈ cs := by
  have hfilter := congrArg (c ∈ ·) (Text.filter_kept [] cs [])
  simpa [Text.compactChars_eq_kept, h] using hfilter

/-- Of what compaction leaves in ASCII, line breaks and control characters are not
printable, and all else is. -/
theorem isPrintable_iff {c : Char} (hascii : c.toNat < 128) (hlayout : isLayout c = false) :
    isPrintable c = true ↔ isLineBreak c = false ∧ isControl c = false := by
  have hall : ∀ n < 128, isLayout (Char.ofNat n) = false →
      (isPrintable (Char.ofNat n) = true
        ↔ isLineBreak (Char.ofNat n) = false ∧ isControl (Char.ofNat n) = false) := by
    decide
  have hc := hall c.toNat hascii
  rw [Char.ofNat_toNat] at hc
  exact hc hlayout

theorem isBlank_of_isLineBreak {c : Char} (h : isLineBreak c = true) : isBlank c = true := by
  simp only [isLineBreak, isBlank, Bool.or_eq_true, Bool.and_eq_true, decide_eq_true_eq,
    beq_iff_eq] at h ⊢
  omega

theorem not_isBlank_of_isControl {c : Char} (h : isControl c = true) : isBlank c = false := by
  rw [isControl, Bool.or_eq_true, Bool.and_eq_true, beq_iff_eq] at h
  rcases h with ⟨-, h⟩ | h
  · simpa using h
  · simp [isBlank, h]

/-- Texts whose line breaks are layout, and without control characters, are fine. -/
theorem expressible_of_all {content : String}
    (h : content.toList.all (fun c => (!isLineBreak c || isLayout c) && !isControl c) = true) :
    Expressible content := by
  simp only [List.all_eq_true, Bool.and_eq_true, Bool.or_eq_true, Bool.not_eq_true'] at h
  refine ⟨?_, .inl fun c hc => (h c hc).2⟩
  rintro before c after hsplit ⟨hbreak, hlayout⟩ -
  have hmem : c ∈ content.toList := by simp [hsplit]
  rcases (h c hmem).1 with h | h
  · exact Bool.false_ne_true (h.symm.trans hbreak)
  · exact Bool.false_ne_true (hlayout.symm.trans h)

theorem not_isLayout_of_mem {cs : List Char} {c : Char} (h : c ∈ compactChars cs) :
    isLayout c = false := by
  rw [Text.compactChars_eq_kept] at h
  obtain ⟨before, after, -, hstays⟩ := Text.mem_kept_iff.mp h
  simpa using fun hlayout => hstays (.inl hlayout)

/-- Line breaks stay only in strings. -/
theorem forall_not_isLineBreak_iff (cs : List Char) :
    (∀ c ∈ compactChars cs, isLineBreak c = false)
      ↔ ∀ before c after, cs = before ++ c :: after →
          isLineBreak c = true ∧ isLayout c = false → ¬ InString before after := by
  have hstays : ∀ c, isLineBreak c = true → (c ∈ compactChars cs ↔ ∃ before after,
      cs = before ++ c :: after ∧ isLayout c = false ∧ InString before after) := by
    intro c hbreak
    rw [Text.compactChars_eq_kept, Text.mem_kept_iff]
    simp [isBlank_of_isLineBreak hbreak]
  constructor
  · rintro h before c after hsplit ⟨hbreak, hlayout⟩ hstring
    have hmem := (hstays c hbreak).mpr ⟨before, after, hsplit, hlayout, hstring⟩
    rw [h c hmem] at hbreak
    exact Bool.false_ne_true hbreak
  · intro h c hmem
    by_contra hbreak
    rw [Bool.not_eq_false] at hbreak
    obtain ⟨before, after, hsplit, hlayout, hstring⟩ := (hstays c hbreak).mp hmem
    exact h before c after hsplit ⟨hbreak, hlayout⟩ hstring

/-- Control characters stay wherever they are. -/
theorem forall_not_isControl_iff (cs : List Char) :
    (∀ c ∈ compactChars cs, isControl c = false) ↔ ∀ c ∈ cs, isControl c = false := by
  have hstays : ∀ c, isControl c = true → (c ∈ compactChars cs ↔ c ∈ cs) :=
    fun c hc => mem_compactChars_of_not_blank (not_isBlank_of_isControl hc)
  constructor
  · intro h c hmem
    by_contra hc
    rw [Bool.not_eq_false] at hc
    exact absurd (h c ((hstays c hc).mpr hmem)) (by simp [hc])
  · intro h c hmem
    by_contra hc
    rw [Bool.not_eq_false] at hc
    exact absurd (h c ((hstays c hc).mp hmem)) (by simp [hc])

/-- **When the compact form of a text makes a proper literal.** -/
theorem isLiteral_compact_iff (content : String) :
    IsLiteral (literalText (compact content)).toList ↔ Expressible content := by
  have hchars : (compact content).toList = compactChars content.toList := by
    rw [compact, String.toList_ofList]
  rw [isLiteral_literalText_iff, Expressible, ← forall_not_isLineBreak_iff,
    ← forall_not_isControl_iff, hchars]
  by_cases hascii : IsAscii (compactChars content.toList)
  · have hprintable : (∀ c ∈ compactChars content.toList, isPrintable c = true)
        ↔ ∀ c ∈ compactChars content.toList, isLineBreak c = false ∧ isControl c = false :=
      forall₂_congr fun c hc => isPrintable_iff (hascii.lt hc) (not_isLayout_of_mem hc)
    simp only [hascii, hprintable, true_and, not_true, false_and, or_false, forall_and]
  · simp [hascii]

/-! ## §4. The literals of a program. -/

/-- The text of a literal. -/
def Fragment.literal? : Fragment String → Option String
  | literal text => some text
  | value _ => none

@[simp] theorem Fragment.render_literal (text : String) :
    (Fragment.literal text).render = literalText text := rfl

/-- The literals of a stream, in order. -/
def literalsOf (ops : List Op) : List String :=
  ops.flatMap fun
    | .group fragments => fragments.filterMap Fragment.literal?
    | .statement _ => []

@[simp] theorem literalsOf_nil : literalsOf [] = [] := rfl

@[simp] theorem literalsOf_group (fragments : List (Fragment String)) (ops : List Op) :
    literalsOf (.group fragments :: ops)
      = fragments.filterMap Fragment.literal? ++ literalsOf ops := rfl

@[simp] theorem literalsOf_statement (text : String) (ops : List Op) :
    literalsOf (.statement text :: ops) = literalsOf ops := rfl

@[simp] theorem literalsOf_append (p q : List Op) :
    literalsOf (p ++ q) = literalsOf p ++ literalsOf q :=
  List.flatMap_append

/-- Streams that meet keep their literals. -/
theorem literalsOf_meet (p q : List Op) : literalsOf (meet p q) = literalsOf p ++ literalsOf q := by
  rcases meet_cases p q with ⟨front, xs, ys, rest, rfl, rfl, h⟩ | ⟨h, -⟩
  · rw [h]
    simp
  · rw [h, literalsOf_append]

mutual
/-- The texts of a node in the order of the document, and nothing for the
separator behind each loop. -/
def writtenByNode : Node → List (Option String)
  | .text _ content => [some content]
  | .branch .loop _ _ _ body => writtenBy body ++ [none]
  | .branch _ _ _ _ body => writtenBy body
  | .branchElse _ _ _ _ body _ elseBody => writtenBy body ++ writtenBy elseBody
  | .group _ nodes => writtenBy nodes
  | .action .. | .jump .. | .invoke .. => []

/-- The texts of nodes in order. -/
def writtenBy : List Node → List (Option String)
  | [] => []
  | node :: nodes => writtenByNode node ++ writtenBy nodes
end

/-- The literal of a text, if anything stays of it, and that of a separator. -/
def literalFor? : Option String → Option String
  | none => some separator
  | some content => if compact content = "" then none else some (compact content)

mutual
/-- **A node leaves the literals of its texts.** -/
theorem literalsOf_compileNode {table : Builtins} : ∀ {node : Node} {depth : Nat} {current : Ref}
    {p : Program}, compileNode table depth current node = .ok p →
    literalsOf p.ops = (writtenByNode node).filterMap literalFor?
  | .text _ content, _, _, p, h => by
      rw [compileNode] at h
      obtain rfl := Except.ok.inj h
      by_cases hempty : compact content = ""
      · simp [compileText, writtenByNode, literalFor?, hempty, Program.ops, opsOf]
      · simp [compileText, writtenByNode, literalFor?, hempty, Program.ops, opsOf, Stmt.ops,
          Fragment.map, Fragment.literal?]
  | .action _ pipe, _, _, p, h => by
      rw [compileNode] at h
      obtain ⟨r, -, h⟩ := bind_eq_ok.mp h
      obtain ⟨value, -, h⟩ := bind_eq_ok.mp h
      obtain rfl := Except.ok.inj h
      rfl
  | .branch .cond pos pipe _ body, _, _, p, h => by
      rw [compileNode] at h
      obtain ⟨r, -, h⟩ := bind_eq_ok.mp h
      obtain ⟨test, -, h⟩ := bind_eq_ok.mp h
      obtain ⟨inner, hbody, h⟩ := bind_eq_ok.mp h
      obtain rfl := Except.ok.inj h
      have hinner := literalsOf_compileNodes hbody
      simpa [Program.ops, opsOf, Stmt.ops, writtenByNode] using hinner
  | .branchElse .cond pos pipe _ body _ elseBody, _, _, p, h => by
      rw [compileNode] at h
      obtain ⟨r, -, h⟩ := bind_eq_ok.mp h
      obtain ⟨test, -, h⟩ := bind_eq_ok.mp h
      obtain ⟨inner, hbody, h⟩ := bind_eq_ok.mp h
      obtain ⟨other, helse, h⟩ := bind_eq_ok.mp h
      obtain rfl := Except.ok.inj h
      have hinner := literalsOf_compileNodes hbody
      have hother := literalsOf_compileNodes helse
      simp only [Program.ops] at hinner hother
      simp [Program.ops, opsOf, Stmt.ops, writtenByNode, hinner, hother]
  | .branch .loop pos pipe _ body, _, _, p, h => by
      rw [compileNode] at h
      obtain ⟨r, -, h⟩ := bind_eq_ok.mp h
      obtain ⟨⟨path, element⟩, -, h⟩ := bind_eq_ok.mp h
      obtain ⟨inner, hbody, h⟩ := bind_eq_ok.mp h
      obtain rfl := Except.ok.inj h
      have hinner := literalsOf_compileNodes hbody
      simp only [Program.ops] at hinner
      simp [Program.ops, opsOf, Stmt.ops, writtenByNode, literalFor?, Fragment.literal?, hinner]
  | .branchElse .loop _ _ _ _ _ _, _, _, _, h => by simp [compileNode] at h
  | .branch .scope _ _ _ _, _, _, _, h => by simp [compileNode] at h
  | .branchElse .scope _ _ _ _ _ _, _, _, _, h => by simp [compileNode] at h
  | .group _ nodes, _, _, p, h => by
      rw [compileNode] at h
      exact literalsOf_compileNodes h
  | .jump _ _, _, _, _, h => by simp [compileNode] at h
  | .invoke _ _, _, _, _, h => by simp [compileNode] at h

/-- So do nodes in order. -/
theorem literalsOf_compileNodes {table : Builtins} : ∀ {nodes : List Node} {depth : Nat}
    {current : Ref} {p : Program}, compileNodes table depth current nodes = .ok p →
    literalsOf p.ops = (writtenBy nodes).filterMap literalFor?
  | [], _, _, p, h => by
      rw [compileNodes] at h
      obtain rfl := Except.ok.inj h
      rfl
  | node :: nodes, _, _, p, h => by
      rw [compileNodes] at h
      obtain ⟨first, hfirst, h⟩ := bind_eq_ok.mp h
      obtain ⟨rest, hrest, h⟩ := bind_eq_ok.mp h
      obtain rfl := Except.ok.inj h
      rw [ops_join, literalsOf_meet, literalsOf_compileNode hfirst, literalsOf_compileNodes hrest,
        writtenBy, List.filterMap_append]
end

/-- A literal in its quotes, with every quote and backslash inside escaped. -/
theorem literalText_escaped (text : String) : ∃ inner, Escaped inner
    ∧ unescape inner = text.toList
    ∧ ((literalText text).toList = '\x27' :: (inner ++ ['\x27'])
      ∨ (literalText text).toList = "unicode".toList ++ '\x27' :: (inner ++ ['\x27'])) :=
  ⟨text.toList.flatMap literalChar, escaped_flatMap _, unescape_escaped _,
    toList_literalText text⟩

/-- Printable ASCII makes a proper literal. -/
theorem isLiteral_of_all {text : String} (h : text.toList.all isPrintable = true) :
    IsLiteral (literalText text).toList := by
  have hprintable := List.all_eq_true.mp h
  have hascii : IsAscii text.toList := by
    refine List.all_eq_true.mpr fun c hc => ?_
    have hc := hprintable c hc
    simp only [isPrintable, Bool.and_eq_true, decide_eq_true_eq] at hc ⊢
    omega
  exact (isLiteral_literalText_iff _).mpr (.inl ⟨hascii, hprintable⟩)

/-- **Which literals of a program are proper.**  The literals of a compiled
template are its texts in their compact form and a separator for each loop.
Each is written in single quotes, with its quotes and backslashes escaped.  That
of a text is a proper string literal exactly if the text is expressible, so the
literals of a program are proper exactly if all texts of its template are
expressible. -/
theorem literals_wellFormed_iff {table : Builtins} {root : Ty} {nodes : List Node}
    {program : Program} (hcompile : compile table root nodes = .ok program) :
    literalsOf program.ops = (writtenBy nodes).filterMap literalFor?
      ∧ (∀ text ∈ literalsOf program.ops, ∃ inner, Escaped inner ∧ unescape inner = text.toList
          ∧ ((Fragment.literal text).render.toList = '\x27' :: (inner ++ ['\x27'])
            ∨ (Fragment.literal text).render.toList
              = "unicode".toList ++ '\x27' :: (inner ++ ['\x27'])))
      ∧ (∀ content, some content ∈ writtenBy nodes →
          (IsLiteral (Fragment.literal (compact content)).render.toList ↔ Expressible content))
      ∧ ((∀ text ∈ literalsOf program.ops, IsLiteral (Fragment.literal text).render.toList)
          ↔ ∀ content, some content ∈ writtenBy nodes → Expressible content) := by
  have hliterals := literalsOf_compileNodes hcompile
  refine ⟨hliterals, fun text _ => literalText_escaped text,
    fun content _ => isLiteral_compact_iff content, ?_⟩
  simp only [hliterals, Fragment.render_literal]
  constructor
  · intro h content hcontent
    rw [← isLiteral_compact_iff]
    by_cases hempty : compact content = ""
    · -- no literal is left, and an empty one would be proper
      rw [hempty]
      exact isLiteral_of_all (by decide)
    · exact h _ (List.mem_filterMap.mpr ⟨some content, hcontent, by simp [literalFor?, hempty]⟩)
  · intro h text htext
    obtain ⟨written, hwritten, hfor⟩ := List.mem_filterMap.mp htext
    cases written with
    | none =>
      obtain rfl : separator = text := Option.some.inj hfor
      exact isLiteral_of_all (by decide)
    | some content =>
      by_cases hempty : compact content = ""
      · simp [literalFor?, hempty] at hfor
      · obtain rfl : compact content = text := by simpa [literalFor?, hempty] using hfor
        exact (isLiteral_compact_iff content).mpr (h content hwritten)

/-- A loop between texts with all that is escaped, one of them beyond ASCII. -/
def quotedLoop : List Node :=
  [.text 0 " \"it's\" [",
    .branch .loop 9 ⟨17, none, [⟨17, [.field ["xs"]]⟩]⟩ 22 [.text 22 "\\ é"], .text 36 "]\n"]

theorem literals_wellFormed_iff_quotes :
    ∃ program, compile Builtin.standard (.record [("xs", .sequence (.scalar "bool"))]) quotedLoop
        = .ok program
      ∧ literalsOf program.ops = ["\"it's\"[", "\\é", separator, "]"]
      ∧ ∀ text ∈ literalsOf program.ops, IsLiteral (Fragment.literal text).render.toList := by
  have hok : ∃ program,
      compile Builtin.standard (.record [("xs", .sequence (.scalar "bool"))]) quotedLoop
        = .ok program := ⟨_, rfl⟩
  obtain ⟨program, hcompile⟩ := hok
  obtain ⟨hliterals, -, -, hproper⟩ := literals_wellFormed_iff hcompile
  refine ⟨program, hcompile, by rw [hliterals]; cbv, hproper.mpr ?_⟩
  intro content hcontent
  obtain rfl | rfl | rfl : content = " \"it's\" [" ∨ content = "\\ é" ∨ content = "]\n" := by
    simpa [quotedLoop, writtenBy, writtenByNode] using hcontent
  all_goals exact expressible_of_all (by decide)

/-- **Not every literal is proper.**  A delete character is ASCII, so its text is
not marked as being beyond it, but it is not printable. -/
theorem literal_of_delete :
    (compile Builtin.standard (.record [("a", .scalar "bool")]) [.text 0 "\"\x7f\""]).map
        Program.ops = .ok [.group [.literal "\"\x7f\""]]
      ∧ (Fragment.literal "\"\x7f\"").render = "'\"\x7f\"'"
      ∧ ¬ IsLiteral "'\"\x7f\"'".toList := by
  refine ⟨by rfl, by cbv, ?_⟩
  rw [show "'\"\x7f\"'" = literalText "\"\x7f\"" by cbv, isLiteral_literalText_iff]
  rintro (⟨-, hprintable⟩ | ⟨hascii, -⟩)
  · exact absurd (hprintable '\x7f' (by simp)) (by decide)
  · exact hascii (show _ = true by decide)

end Stencil
