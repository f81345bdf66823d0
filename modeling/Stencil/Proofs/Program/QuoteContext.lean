/-
  Stencil.Proofs.Program.QuoteContext
  ───────────────────────────────────
  THE STRINGS OF A DOCUMENT, ACROSS ACTIONS.

  A template of texts with actions between them compiles to one group of
  fragments.  Each text is compacted where it stands, with no regard to the
  texts around it, so a string of the document that an action interrupts is
  not seen as one.

    • `join_appended` — groups that meet are one group,
    • `compileNodes_alternates` — the fragments of texts and actions in turn,
    • `compile_compacts_texts` — written out, they are the texts compacted
      one by one; that is the document compacted as a whole exactly if the
      texts see its strings,
    • `compile_loses_blank` — a blank between two names in one string is lost.

  The whole of Mathlib is imported for `cbv`, which evaluates the example at
  the end with equations that are spread over it.
-/
import Mathlib
import Stencil.Program.Op
import Stencil.Proofs.Program.Resolution
import Stencil.Proofs.Text.Compaction
import Stencil.Template.Tree.Nesting

namespace Stencil

open Schema (Ty)
open Template (Node)
open Text (compact compactChars isBlank SeesStrings)

/-! ## §1. Fragments, written out. -/

/-- What a group of fragments writes if every value is the one character `c`. -/
def written {ν : Type} (c : Char) (fragments : List (Fragment ν)) : List Char :=
  fragments.flatMap fun
    | .literal text => text.toList
    | .value _ => [c]

@[simp] theorem written_nil {ν : Type} (c : Char) :
    written c ([] : List (Fragment ν)) = [] := rfl

@[simp] theorem written_literal {ν : Type} (c : Char) (text : String) (rest : List (Fragment ν)) :
    written c (.literal text :: rest) = text.toList ++ written c rest := rfl

@[simp] theorem written_value {ν : Type} (c : Char) (expr : ν) (rest : List (Fragment ν)) :
    written c (.value expr :: rest) = c :: written c rest := rfl

@[simp] theorem written_append {ν : Type} (c : Char) (xs ys : List (Fragment ν)) :
    written c (xs ++ ys) = written c xs ++ written c ys :=
  List.flatMap_append

/-- How values are spelled does not matter. -/
theorem written_map {ν μ : Type} (c : Char) (f : ν → μ) (fragments : List (Fragment ν)) :
    written c (fragments.map (·.map f)) = written c fragments := by
  induction fragments with
  | nil => rfl
  | cons fragment rest ih =>
    cases fragment with
    | literal text => exact congrArg (text.toList ++ ·) ih
    | value expr => exact congrArg (c :: ·) ih

/-! ## §2. Programs of one group. -/

/-- The program that appends fragments, if there are any. -/
def appended (fragments : List (Fragment Value)) : Program :=
  if fragments = [] then [] else [.append fragments]

/-- **Groups that meet are one group.** -/
theorem join_appended (xs ys : List (Fragment Value)) :
    Program.join (appended xs) (appended ys) = appended (xs ++ ys) := by
  cases xs with
  | nil => rfl
  | cons x xs =>
    cases ys with
    | nil => simp [appended, Program.join]
    | cons y ys => rfl

/-- A text appends its compact form. -/
theorem exists_compileText (c : Char) (content : String) :
    ∃ fragments, compileText content = appended fragments
      ∧ written c fragments = compactChars content.toList := by
  unfold compileText
  by_cases h : compact content = ""
  · refine ⟨[], by simp [h, appended], ?_⟩
    have hchars := congrArg String.toList h
    simpa [compact] using hchars.symm
  · exact ⟨[.literal (compact content)], by simp [h, appended], by simp [compact]⟩

/-! ## §3. Texts with actions between them. -/

/-- The nodes of a text; an empty text may have none. -/
def TextNodes (content : String) (nodes : List Node) : Prop :=
  (∃ pos, nodes = [.text pos content]) ∨ (content = "" ∧ nodes = [])

/-- Nodes are the given texts with one action between each two. -/
inductive Alternates : List String → List Node → Prop where
  /-- One text alone. -/
  | last {content : String} {nodes : List Node} :
      TextNodes content nodes → Alternates [content] nodes
  /-- A text, an action, and the rest. -/
  | next {content : String} {texts : List String} {nodes rest : List Node} {pos : Nat}
      {pipe : Template.Pipeline} :
      TextNodes content nodes → Alternates texts rest →
      Alternates (content :: texts) (nodes ++ .action pos pipe :: rest)

theorem Alternates.ne_nil {texts : List String} {nodes : List Node} (h : Alternates texts nodes) :
    texts ≠ [] := by
  cases h with
  | last => exact List.cons_ne_nil _ _
  | next => exact List.cons_ne_nil _ _

section

variable {table : Builtins} {depth : Nat} {ty : Ty} {path : Path} {program : Program}

/-- A text appends its compact form before what follows it. -/
theorem compileNodes_textNodes (c : Char) {content : String} {nodes rest : List Node}
    (hnodes : TextNodes content nodes)
    (hcompile : compileNodes table depth (.place ty path) (nodes ++ rest) = .ok program) :
    ∃ fragments others, written c fragments = compactChars content.toList
      ∧ compileNodes table depth (.place ty path) rest = .ok others
      ∧ program = Program.join (appended fragments) others := by
  rcases hnodes with ⟨pos, rfl⟩ | ⟨rfl, rfl⟩
  · obtain ⟨first, others, hfirst, hothers, rfl⟩ := compileNodes_cons.mp hcompile
    obtain ⟨fragments, htext, hwritten⟩ := exists_compileText c content
    rw [compileNode, htext] at hfirst
    obtain rfl := Except.ok.inj hfirst
    exact ⟨fragments, others, hwritten, hothers, rfl⟩
  · exact ⟨[], program, rfl, hcompile, rfl⟩

/-- Texts and actions in turn compile to one group, which has each text in its
compact form and a value for each action. -/
theorem compileNodes_alternates (c : Char) {texts : List String} {nodes : List Node}
    (h : Alternates texts nodes)
    (hcompile : compileNodes table depth (.place ty path) nodes = .ok program) :
    ∃ fragments, program = appended fragments
      ∧ written c fragments = [c].intercalate (texts.map fun text => compactChars text.toList) := by
  induction h generalizing program with
  | @last content nodes hnodes =>
    rw [← List.append_nil nodes] at hcompile
    obtain ⟨fragments, others, hwritten, hothers, rfl⟩ := compileNodes_textNodes c hnodes hcompile
    rw [compileNodes] at hothers
    obtain rfl : appended [] = others := Except.ok.inj hothers
    refine ⟨fragments, ?_, by simp [hwritten]⟩
    rw [join_appended, List.append_nil]
  | @next content texts nodes rest pos pipe hnodes hrest ih =>
    obtain ⟨fragments, others, hwritten, hothers, rfl⟩ := compileNodes_textNodes c hnodes hcompile
    obtain ⟨action, after, haction, hafter, rfl⟩ := compileNodes_cons.mp hothers
    obtain ⟨-, r, -, -, -, rfl⟩ := compileNode_action.mp haction
    obtain ⟨more, rfl, hmore⟩ := ih hafter
    refine ⟨fragments ++ ([.value r.value] ++ more), ?_, ?_⟩
    · rw [← join_appended, ← join_appended]
      rfl
    · obtain ⟨text, texts, rfl⟩ := List.exists_cons_of_ne_nil hrest.ne_nil
      rw [List.map_cons] at hmore
      rw [List.map_cons, List.map_cons, List.intercalate_cons_cons]
      simp [hwritten, hmore]

end

/-! ## §4. The document. -/

/-- **A template of texts and actions is compacted text by text.**  It compiles
to one group.  Written out, with some mark for each value, the group is the
texts compacted one by one; that is what compacting the whole document gives
exactly if the texts see its strings. -/
theorem compile_compacts_texts {table : Builtins} {root : Ty} {texts : List String}
    {nodes : List Node} {program : Program} {c : Char} (h : Alternates texts nodes)
    (hlength : 2 ≤ texts.length) (hcompile : compile table root nodes = .ok program)
    (hblank : isBlank c = false) (hquote : c ≠ '"') :
    ∃ fragments, program.ops = [.group fragments]
      ∧ written c fragments = [c].intercalate (texts.map fun text => compactChars text.toList)
      ∧ (written c fragments = compactChars ([c].intercalate (texts.map String.toList))
          ↔ SeesStrings (texts.map String.toList)) := by
  obtain ⟨fragments, rfl, hwritten⟩ := compileNodes_alternates c h hcompile
  -- an action writes something, so there is a group
  have hne : fragments ≠ [] := by
    rintro rfl
    obtain ⟨first, second, rest, rfl⟩ : ∃ first second rest, texts = first :: second :: rest := by
      match texts, hlength with
      | first :: second :: rest, _ => exact ⟨first, second, rest, rfl⟩
    simp [List.intercalate_cons_cons] at hwritten
  refine ⟨fragments.map (·.map Value.text), by simp [appended, hne, Program.ops, opsOf, Stmt.ops],
    ?_, ?_⟩
  · rw [written_map, hwritten]
  · rw [written_map, hwritten, ← Text.compactChars_intercalate_iff hblank hquote, List.map_map]
    rfl

/-- The nodes of `{"a b": {{.n}}, "c": {{.n}}}`. -/
def recordNodes : List Node :=
  [.text 0 "\x7b\"a b\": ", .action 8 ⟨10, none, [⟨10, [.field ["n"]]⟩]⟩,
    .text 14 ", \"c\": ", .action 21 ⟨23, none, [⟨23, [.field ["n"]]⟩]⟩, .text 27 "\x7d"]

/-- Texts with their quotes in pairs: the blank in the string stays, and those
behind the colons and the comma go. -/
theorem compile_compacts_texts_pairs :
    ∃ program fragments,
      compile Builtin.standard (.record [("n", .scalar "uint256")]) recordNodes = .ok program
        ∧ program.ops = [.group fragments]
        ∧ written '0' fragments = compactChars "\x7b\"a b\": 0, \"c\": 0\x7d".toList := by
  have hok : ∃ program,
      compile Builtin.standard (.record [("n", .scalar "uint256")]) recordNodes = .ok program :=
    ⟨_, rfl⟩
  obtain ⟨program, hcompile⟩ := hok
  have halternates : Alternates ["\x7b\"a b\": ", ", \"c\": ", "\x7d"] recordNodes :=
    .next (.inl ⟨0, rfl⟩) (.next (.inl ⟨14, rfl⟩) (.last (.inl ⟨27, rfl⟩)))
  obtain ⟨fragments, hops, -, hiff⟩ :=
    compile_compacts_texts halternates (by decide) hcompile
      (show isBlank '0' = false by decide) (by decide)
  refine ⟨program, fragments, hcompile, hops, ?_⟩
  exact hiff.mpr (Text.seesStrings_of_even (by decide))

/-- The nodes of `"{{.first}} {{.last}}"`. -/
def nameNodes : List Node :=
  [.text 0 "\"", .action 1 ⟨3, none, [⟨3, [.field ["first"]]⟩]⟩, .text 11 " ",
    .action 12 ⟨14, none, [⟨14, [.field ["last"]]⟩]⟩, .text 21 "\""]

/-- **The strings of a document are not seen across actions.**  In a template
that quotes two names with a blank between them, the blank is in a string of
the document, and it is lost. -/
theorem compile_loses_blank :
    Template.parse "\"\x7b\x7b.first\x7d\x7d \x7b\x7b.last\x7d\x7d\"" = .ok ⟨0, nameNodes⟩
      ∧ Alternates ["\"", " ", "\""] nameNodes
      ∧ (compile Builtin.standard
            (.record [("first", .scalar "string"), ("last", .scalar "string")]) nameNodes).map
          Program.ops
        = .ok [.group [.literal "\"", .value "first", .value "last", .literal "\""]]
      ∧ written '0' [.literal "\"", .value "first", .value "last", .literal "\""]
        ≠ compactChars "\"0 0\"".toList := by
  refine ⟨by cbv, ?_, by rfl, by decide⟩
  exact .next (.inl ⟨0, rfl⟩) (.next (.inl ⟨11, rfl⟩) (.last (.inl ⟨21, rfl⟩)))

end Stencil
