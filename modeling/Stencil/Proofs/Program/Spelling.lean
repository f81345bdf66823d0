/-
  Stencil.Proofs.Program.Spelling
  ───────────────────────────────
  READING OPERATIONS BACK.

  A compiled program is a stream of operations, and what an operation says is
  in the characters of a line.  The readers here take a line apart again,
  from its characters alone: a path word by word, a line by its blanks.

    • `readPath_text` — a path of identifiers is read back from its text,
    • `instr?_op` — so is every line that opens, splits or closes a block,
    • `mapM_instr?_op` — and so are the operations of a whole program.

  What is proved of the instructions read is therefore proved of the text.
-/
import Stencil.Program.Op
import Stencil.Proofs.Schema.Grammar

namespace Stencil

open Text (isWordStart isWordChar isIdentifier)
open Schema (afterKeyword? afterKeyword?_append takeWhile_append_stop
  isWordChar_of_isIdentifier)

/-! ## §1. Words. -/

/-- The identifier a text begins with, and what follows it. -/
def word? (cs : List Char) : Option (String × List Char) :=
  if isIdentifier (String.ofList (cs.takeWhile isWordChar)) then
    some (String.ofList (cs.takeWhile isWordChar), cs.dropWhile isWordChar)
  else none

/-- What follows a word is no longer than the text. -/
theorem length_of_word? {cs rest : List Char} {word : String}
    (h : word? cs = some (word, rest)) : rest.length ≤ cs.length := by
  unfold word? at h
  split at h
  next =>
    simp only [Option.some.injEq, Prod.mk.injEq] at h
    rw [← h.2]
    exact (List.dropWhile_sublist _).length_le
  next => simp at h

/-- An identifier is read back, whatever follows that does not continue it. -/
theorem word?_append {name : String} {rest : List Char} (h : isIdentifier name = true)
    (hstop : ∀ c ∈ rest.head?, isWordChar c = false) :
    word? (name.toList ++ rest) = some (name, rest) := by
  have hall := isWordChar_of_isIdentifier h
  have htake := takeWhile_append_stop hall hstop
  -- the name is taken whole, so what is dropped leaves the rest
  have hdrop : (name.toList ++ rest).dropWhile isWordChar = rest := by
    have happ := List.takeWhile_append_dropWhile (p := isWordChar) (l := name.toList ++ rest)
    rw [htake] at happ
    exact List.append_cancel_left happ
  unfold word?
  rw [htake, hdrop, String.ofList_toList, if_pos h]

/-! ## §2. Paths. -/

/-- Read the steps that follow a path. -/
def readSteps (base : Path) (cs : List Char) : Option Path :=
  match cs with
  | [] => some base
  | '.' :: cs =>
      match _h : word? cs with
      | some (name, rest) => readSteps (base.member name) rest
      | none => none
  | '[' :: cs =>
      match _h : word? cs with
      | some (i, ']' :: rest) => readSteps (base.index i) rest
      | _ => none
  | _ => none
termination_by cs.length
decreasing_by
  all_goals
    have hle := length_of_word? _h
    simp only [List.length_cons] at hle ⊢
    omega

/-- Read a whole text as a path: the name of a parameter, then its steps. -/
def readPath (cs : List Char) : Option Path :=
  match word? cs with
  | some (name, rest) => readSteps (.member .root name) rest
  | none => none

/-- A path that starts at a parameter and has identifiers in all places. -/
inductive Path.Spelled : Path → Prop
  /-- A parameter. -/
  | param {name : String} (h : isIdentifier name = true) : Spelled (.member .root name)
  /-- A member of what comes before. -/
  | member {base : Path} {name : String} (hb : Spelled base) (h : isIdentifier name = true) :
      Spelled (.member base name)
  /-- An element of what comes before. -/
  | index {base : Path} {i : String} (hb : Spelled base) (h : isIdentifier i = true) :
      Spelled (.index base i)

namespace Path

theorem Spelled.text_ne {p : Path} (h : p.Spelled) : p.text ≠ "" := by
  induction h with
  | @param name h =>
    intro htext
    have hname : name = "" := htext
    rw [hname] at h
    exact absurd h (by decide)
  | @member base name hb h ih =>
    rw [Path.text, if_neg ih]
    simp
  | index => simp [Path.text]

theorem toList_text_member {base : Path} (hb : base.Spelled) (name : String) :
    (member base name).text.toList = base.text.toList ++ '.' :: name.toList := by
  rw [Path.text, if_neg hb.text_ne]
  simp

theorem toList_text_index (base : Path) (i : String) :
    (index base i).text.toList = base.text.toList ++ '[' :: (i.toList ++ [']']) := by
  simp [Path.text]

/-- Reading the text of a path comes to the path, and goes on after it. -/
theorem readPath_append {p : Path} (h : p.Spelled) :
    ∀ rest : List Char, (∀ c ∈ rest.head?, isWordChar c = false) →
      readPath (p.text.toList ++ rest) = readSteps p rest := by
  induction h with
  | @param name h =>
    intro rest hstop
    have htext : (member root name).text = name := rfl
    rw [htext, readPath, word?_append h hstop]
  | @member base name hb h ih =>
    intro rest hstop
    -- reading comes to the base, and a dot or a bracket continues no name
    rw [toList_text_member hb, List.append_assoc, ih _ (by simp; decide)]
    rw [List.cons_append, readSteps, word?_append h hstop]
  | @index base i hb h ih =>
    intro rest hstop
    -- the variable ends at the bracket that closes it
    rw [toList_text_index, List.append_assoc, ih _ (by simp; decide)]
    rw [List.cons_append, List.append_assoc, readSteps, word?_append h (by simp; decide)]
    rfl

/-- **A spelled path is read back from its text.** -/
theorem readPath_text {p : Path} (h : p.Spelled) : readPath p.text.toList = some p := by
  have hread := readPath_append h [] (by simp)
  rw [List.append_nil] at hread
  rw [hread, readSteps]

/-- The characters a path is spelled with. -/
def isPathChar (c : Char) : Bool :=
  isWordChar c || c == '.' || c == '[' || c == ']'

theorem Spelled.isPathChar {p : Path} (h : p.Spelled) :
    ∀ c ∈ p.text.toList, isPathChar c = true := by
  have hword : ∀ {name : String}, isIdentifier name = true →
      ∀ c ∈ name.toList, Path.isPathChar c = true := by
    intro name hid c hc
    simp [Path.isPathChar, isWordChar_of_isIdentifier hid c hc]
  induction h with
  | param h => exact hword h
  | @member base name hb h ih =>
    rw [toList_text_member hb]
    intro c hc
    simp only [List.mem_append, List.mem_cons] at hc
    rcases hc with hc | rfl | hc
    · exact ih c hc
    · rfl
    · exact hword h c hc
  | @index base i hb h ih =>
    rw [toList_text_index]
    intro c hc
    simp only [List.mem_append, List.mem_cons, List.not_mem_nil, or_false] at hc
    rcases hc with hc | rfl | hc | rfl
    · exact ih c hc
    · rfl
    · exact hword h c hc
    · rfl

end Path

/-! ## §3. Instructions. -/

/-- What the line that opens a block may ask. -/
inductive Cond where
  /-- A test of the template. -/
  | test (test : Test)
  /-- Does another element follow the one at `i`? -/
  | more (i : String) (source : Path)
  deriving DecidableEq

/-- How a condition is spelled. -/
def Cond.text : Cond → String
  | test t => t.text
  | more i source => moreText i source.lengthText

/-- What an operation says. -/
inductive Instr where
  /-- Append fragments. -/
  | append (fragments : List (Fragment String))
  /-- Open a block under a condition. -/
  | opens (cond : Cond)
  /-- Open a loop over the indexes of an array. -/
  | loop (i : String) (source : Path)
  /-- Go over to the other part of a block. -/
  | otherwise
  /-- Close a block. -/
  | close
  deriving DecidableEq

/-- The operation that says it. -/
def Instr.op : Instr → Op
  | append fragments => .group fragments
  | opens cond => .statement (ifLine cond.text)
  | loop i source => .statement (forLine i source.lengthText)
  | otherwise => .statement elseLine
  | close => .statement closeLine

/-- The path of a test. -/
def Test.path : Test → Path
  | nonzero path | holds path | nonempty path => path

/-- Conditions of spelled paths. -/
def Cond.Spelled : Cond → Prop
  | test t => t.path.Spelled
  | more i source => isIdentifier i = true ∧ source.Spelled

/-- Instructions of spelled paths. -/
def Instr.Spelled : Instr → Prop
  | opens cond => cond.Spelled
  | loop i source => isIdentifier i = true ∧ source.Spelled
  | append _ | otherwise | close => True

/-! ## §4. Reading instructions. -/

/-- The part of a word between what it must start and end with. -/
def enclosed? (opening closing : String) (word : String) : Option (List Char) :=
  (afterKeyword? opening.toList word.toList).bind fun rest =>
    (afterKeyword? closing.toList.reverse rest.reverse).map List.reverse

/-- Read a path between what a word must start and end with. -/
def pathIn? (opening closing : String) (word : String) : Option Path :=
  (enclosed? opening closing word).bind readPath

/-- Read an identifier behind what a word must start with. -/
def nameIn? (opening : String) (word : String) : Option String :=
  (enclosed? opening "" word).bind fun cs =>
    if isIdentifier (String.ofList cs) then some (String.ofList cs) else none

/-- The words of a line. -/
def lineWords (text : String) : List String :=
  (text.toList.splitOn ' ').map String.ofList

/-- Read a line. -/
def readLine (text : String) : Option Instr :=
  match lineWords text with
  | ["\x7d"] => some .close
  | ["\x7d", "else", "\x7b"] => some .otherwise
  | ["if", p, "\x7b"] => (pathIn? "(" ")" p).map fun p => .opens (.test (.holds p))
  | ["if", p, "!=", "0)", "\x7b"] => (pathIn? "(" "" p).map fun p => .opens (.test (.nonzero p))
  | ["if", p, ">", "0)", "\x7b"] =>
      (pathIn? "(" ".length" p).map fun p => .opens (.test (.nonempty p))
  | ["if", i, "<", p, "-", "1)", "\x7b"] =>
      (nameIn? "(" i).bind fun i => (pathIn? "" ".length" p).map fun p => .opens (.more i p)
  | ["for", "(uint64", i, "=", "0;", j, "<", p, k, "\x7b"] =>
      if j = i ∧ k = i ++ "++)" then
        (nameIn? "" i).bind fun i => (pathIn? "" ".length;" p).map fun p => .loop i p
      else none
  | _ => none

/-- Read an operation. -/
def Op.instr? : Op → Option Instr
  | group fragments => some (.append fragments)
  | statement text => readLine text

/-- A line of words without blanks is cut into them. -/
theorem lineWords_eq {text : String} {words : List String} (hne : words ≠ [])
    (hblank : ∀ w ∈ words, ' ' ∉ w.toList)
    (htext : text.toList = [' '].intercalate (words.map String.toList)) :
    lineWords text = words := by
  unfold lineWords
  rw [htext, List.splitOn_intercalate]
  · simp
  · intro w hw
    obtain ⟨v, hv, rfl⟩ := List.mem_map.mp hw
    exact hblank v hv
  · simpa using hne

/-- What is enclosed is found again. -/
theorem enclosed?_append (opening closing : String) (cs : List Char) :
    enclosed? opening closing (opening ++ String.ofList cs ++ closing) = some cs := by
  unfold enclosed?
  simp only [String.toList_append, String.toList_ofList, List.append_assoc, afterKeyword?_append,
    Option.bind_some, List.reverse_append, Option.map_some, List.reverse_reverse]

/-- A path between what a word starts and ends with is read back. -/
theorem pathIn?_text {p : Path} (h : p.Spelled) (opening closing : String) :
    pathIn? opening closing (opening ++ p.text ++ closing) = some p := by
  have henclosed := enclosed?_append opening closing p.text.toList
  rw [String.ofList_toList] at henclosed
  rw [pathIn?, henclosed, Option.bind_some, Path.readPath_text h]

/-- An identifier behind what a word starts with is read back. -/
theorem nameIn?_append {i : String} (h : isIdentifier i = true) (opening : String) :
    nameIn? opening (opening ++ i) = some i := by
  have henclosed := enclosed?_append opening "" i.toList
  rw [String.ofList_toList, String.append_empty] at henclosed
  rw [nameIn?, henclosed, Option.bind_some, String.ofList_toList, if_pos h]

theorem Path.Spelled.no_blank {p : Path} (h : p.Spelled) : ' ' ∉ p.text.toList := by
  intro hmem
  exact absurd (h.isPathChar ' ' hmem) (by decide)

theorem no_blank_of_isIdentifier {i : String} (h : isIdentifier i = true) : ' ' ∉ i.toList := by
  intro hmem
  exact absurd (isWordChar_of_isIdentifier h ' ' hmem) (by decide)

/-- The line of a test is read back. -/
theorem readLine_test {t : Test} (h : t.path.Spelled) :
    readLine (ifLine t.text) = some (.opens (.test t)) := by
  -- each test is told apart by how many words its line has, and which
  have hblank := h.no_blank
  cases t with
  | nonzero p =>
    have hwords : lineWords (ifLine (Test.nonzero p).text)
        = ["if", "(" ++ p.text, "!=", "0)", "\x7b"] :=
      lineWords_eq (by simp) (by simpa [Test.path] using hblank)
        (by simp [ifLine, Test.text, List.intercalate])
    have hp := pathIn?_text h "(" ""
    rw [String.append_empty] at hp
    rw [readLine, hwords]
    simp only [Test.path] at hp
    simp only [hp, Option.map_some]
  | holds p =>
    have hwords : lineWords (ifLine (Test.holds p).text) = ["if", "(" ++ p.text ++ ")", "\x7b"] :=
      lineWords_eq (by simp) (by simpa [Test.path] using hblank)
        (by simp [ifLine, Test.text, List.intercalate])
    have hp := pathIn?_text h "(" ")"
    rw [readLine, hwords]
    simp only [Test.path] at hp
    simp only [hp, Option.map_some]
  | nonempty p =>
    have hwords : lineWords (ifLine (Test.nonempty p).text)
        = ["if", "(" ++ p.text ++ ".length", ">", "0)", "\x7b"] :=
      lineWords_eq (by simp) (by simpa [Test.path] using hblank)
        (by simp [ifLine, Test.text, Path.lengthText, List.intercalate])
    have hp := pathIn?_text h "(" ".length"
    rw [readLine, hwords]
    simp only [Test.path] at hp
    simp only [hp, Option.map_some]

/-- The line that asks for another element is read back. -/
theorem readLine_more {i : String} {p : Path} (hi : isIdentifier i = true) (h : p.Spelled) :
    readLine (ifLine (moreText i p.lengthText)) = some (.opens (.more i p)) := by
  have hwords : lineWords (ifLine (moreText i p.lengthText))
      = ["if", "(" ++ i, "<", "" ++ p.text ++ ".length", "-", "1)", "\x7b"] :=
    lineWords_eq (by simp) (by simpa using ⟨no_blank_of_isIdentifier hi, h.no_blank⟩)
      (by simp [ifLine, moreText, Path.lengthText, List.intercalate])
  rw [readLine, hwords]
  simp only [nameIn?_append hi, pathIn?_text h, Option.bind_some, Option.map_some]

/-- The line that opens a loop is read back. -/
theorem readLine_loop {i : String} {p : Path} (hi : isIdentifier i = true) (h : p.Spelled) :
    readLine (forLine i p.lengthText) = some (.loop i p) := by
  have hwords : lineWords (forLine i p.lengthText)
      = ["for", "(uint64", i, "=", "0;", i, "<", "" ++ p.text ++ ".length;", i ++ "++)", "\x7b"] :=
    lineWords_eq (by simp) (by simpa using ⟨no_blank_of_isIdentifier hi, h.no_blank,
      no_blank_of_isIdentifier hi⟩) (by
        -- unfolded first: the words are then compared as closed texts
        unfold forLine Path.lengthText
        simp [List.intercalate])
  have hname := nameIn?_append hi ""
  rw [String.empty_append] at hname
  rw [readLine, hwords]
  simp only [and_self, if_true, hname, pathIn?_text h, Option.bind_some, Option.map_some]

/-- **Instructions of spelled paths are read back from their operations.** -/
theorem Instr.instr?_op {instr : Instr} (h : instr.Spelled) : instr.op.instr? = some instr := by
  cases instr with
  | append fragments => rfl
  | opens cond =>
    cases cond with
    | test t =>
      rw [Instr.op, Op.instr?, Cond.text]
      exact readLine_test h
    | more i source =>
      rw [Instr.op, Op.instr?, Cond.text]
      exact readLine_more h.1 h.2
  | loop i source =>
    rw [Instr.op, Op.instr?]
    exact readLine_loop h.1 h.2
  | otherwise =>
    have hwords : lineWords elseLine = ["\x7d", "else", "\x7b"] := by decide
    rw [Instr.op, Op.instr?, readLine, hwords]
    rfl
  | close =>
    have hwords : lineWords closeLine = ["\x7d"] := by decide
    rw [Instr.op, Op.instr?, readLine, hwords]
    rfl

/-! ## §5. Programs as instructions. -/

/-- Programs are joined as lists, except that groups that meet become one. -/
theorem Program.join_cases : ∀ p q : Program,
    Program.join p q = p ++ q
      ∨ ∃ front xs ys rest, p = front ++ [.append xs] ∧ q = .append ys :: rest
        ∧ Program.join p q = front ++ .append (xs ++ ys) :: rest := by
  intro p q
  fun_induction Program.join p q with
  | case1 q => exact .inl rfl
  | case2 xs ys q => exact .inr ⟨[], xs, ys, q, rfl, rfl, rfl⟩
  | case3 s p q _ ih =>
    -- groups meet only where the first program ends
    rcases ih with h | ⟨front, xs, ys, rest, rfl, rfl, h⟩
    · exact .inl (by rw [h]; rfl)
    · exact .inr ⟨s :: front, xs, ys, rest, rfl, rfl, by rw [h]; rfl⟩

mutual
/-- The instructions of a statement. -/
def Stmt.instrs : Stmt → List Instr
  | .append fragments => [.append (fragments.map (·.map Value.text))]
  | .ifThen test body => .opens (.test test) :: (instrsOf body ++ [.close])
  | .ifElse test body other =>
      .opens (.test test) :: (instrsOf body ++ .otherwise :: (instrsOf other ++ [.close]))
  | .each i source body =>
      .loop i source :: (instrsOf body
        ++ [.opens (.more i source), .append [.literal separator], .close, .close])

/-- The instructions of statements in order. -/
def instrsOf : List Stmt → List Instr
  | [] => []
  | s :: rest => s.instrs ++ instrsOf rest
end

mutual
/-- A statement's operations say its instructions. -/
theorem Stmt.ops_eq : ∀ s : Stmt, s.ops = s.instrs.map Instr.op
  | .append fragments => rfl
  | .ifThen test body => by simp [Stmt.ops, Stmt.instrs, opsOf_eq body, Instr.op, Cond.text]
  | .ifElse test body other => by
      simp [Stmt.ops, Stmt.instrs, opsOf_eq body, opsOf_eq other, Instr.op, Cond.text]
  | .each i source body => by
      simp [Stmt.ops, Stmt.instrs, opsOf_eq body, Instr.op, Cond.text]

theorem opsOf_eq : ∀ p : List Stmt, opsOf p = (instrsOf p).map Instr.op
  | [] => rfl
  | s :: rest => by rw [opsOf, instrsOf, List.map_append, Stmt.ops_eq s, opsOf_eq rest]
end

/-- **Spelled instructions are read back from their operations,** all of them
in order. -/
theorem mapM_instr?_op : ∀ {instrs : List Instr}, (∀ instr ∈ instrs, instr.Spelled) →
    (instrs.map Instr.op).mapM Op.instr? = some instrs
  | [], _ => rfl
  | instr :: instrs, h => by
      have hfirst := Instr.instr?_op (h instr List.mem_cons_self)
      have hrest := mapM_instr?_op fun i hi => h i (List.mem_cons_of_mem _ hi)
      rw [List.map_cons, List.mapM_cons, hfirst, hrest]
      rfl

end Stencil
