/-
  Stencil.Proofs.Solidity.Indentation
  ───────────────────────────────────
  BLOCKS AND INDENTATION OF GENERATED SOURCES.

  The layout of a function looks at the first and the last character of each
  rendered operation; that its blocks are balanced is known from the program
  the operations spell.  `Nested` ties the two together: it is the grammar of
  operation streams, and counts the blocks around each operation.

    • `Stmt.nested` — the operations of a program are nested,
    • `opLines_of_nested` — nested operations are laid out at the depth the
      grammar gives them, and come back to the level they started from,
    • `blocks_indented` — so every library is laid out by its blocks, from
      any level, and sources of several libraries are put together from the
      sources of each.
-/
import Stencil.Proofs.Library.Compilation
import Stencil.Solidity

namespace Stencil

open Schema (Ty)
open Template (Node)

/-! ## §1. The grammar of statements. -/

/-- The statement an operation is, if it appends nothing. -/
def Op.statement? : Op → Option String
  | group _ => none
  | statement text => some text

/-- The statements of a stream, without the groups between them. -/
def statements (ops : List Op) : List String :=
  ops.filterMap Op.statement?

/-- Statements in properly closed blocks.  A loop ends with the block of its
separator, which has no statement in it. -/
inductive BlockGrammar : List String → Prop
  /-- No statement. -/
  | empty : BlockGrammar []
  /-- A block under a condition. -/
  | cond (c : String) {body rest : List String} (hb : BlockGrammar body)
      (hr : BlockGrammar rest) : BlockGrammar (ifLine c :: (body ++ closeLine :: rest))
  /-- Two blocks, one of which is taken. -/
  | condElse (c : String) {body other rest : List String} (hb : BlockGrammar body)
      (ho : BlockGrammar other) (hr : BlockGrammar rest) :
      BlockGrammar (ifLine c :: (body ++ elseLine :: (other ++ closeLine :: rest)))
  /-- A loop. -/
  | loop (i length c : String) {body rest : List String} (hb : BlockGrammar body)
      (hr : BlockGrammar rest) :
      BlockGrammar (forLine i length ::
        (body ++ ifLine c :: closeLine :: closeLine :: rest))

/-- The same grammar with the groups in it: operations in properly closed
blocks, and for each of them the number of blocks around it, counted from `d`.
The lines that split and close a block stand outside of it. -/
inductive Nested : Nat → List Op → List Nat → Prop
  /-- No operation. -/
  | empty (d : Nat) : Nested d [] []
  /-- A group. -/
  | group {d : Nat} (fragments : List (Fragment String)) {rest : List Op} {rs : List Nat}
      (hr : Nested d rest rs) : Nested d (.group fragments :: rest) (d :: rs)
  /-- A block under a condition. -/
  | cond {d : Nat} (c : String) {body rest : List Op} {bs rs : List Nat}
      (hb : Nested (d + 1) body bs) (hr : Nested d rest rs) :
      Nested d (.statement (ifLine c) :: (body ++ .statement closeLine :: rest))
        (d :: (bs ++ d :: rs))
  /-- Two blocks, one of which is taken. -/
  | condElse {d : Nat} (c : String) {body other rest : List Op} {bs os rs : List Nat}
      (hb : Nested (d + 1) body bs) (ho : Nested (d + 1) other os) (hr : Nested d rest rs) :
      Nested d (.statement (ifLine c) :: (body ++ .statement elseLine
          :: (other ++ .statement closeLine :: rest)))
        (d :: (bs ++ d :: (os ++ d :: rs)))
  /-- A loop, with the block of its separator at the end. -/
  | loop {d : Nat} (i length c : String) (fragments : List (Fragment String))
      {body rest : List Op} {bs rs : List Nat} (hb : Nested (d + 1) body bs)
      (hr : Nested d rest rs) :
      Nested d (.statement (forLine i length) :: (body ++ .statement (ifLine c)
          :: .group fragments :: .statement closeLine :: .statement closeLine :: rest))
        (d :: (bs ++ (d + 1) :: (d + 2) :: (d + 1) :: d :: rs))

/-! ## §2. Programs spell nested operations. -/

/-- Without its groups, a nested stream belongs to the grammar. -/
theorem Nested.blockGrammar {d : Nat} {ops : List Op} {ds : List Nat} (h : Nested d ops ds) :
    BlockGrammar (statements ops) := by
  induction h with
  | empty => exact .empty
  | group _ _ ih => exact ih
  | cond c _ _ ihb ihr =>
    simp only [statements, Op.statement?, List.filterMap_cons, List.filterMap_append] at *
    exact .cond c ihb ihr
  | condElse c _ _ _ ihb iho ihr =>
    simp only [statements, Op.statement?, List.filterMap_cons, List.filterMap_append] at *
    exact .condElse c ihb iho ihr
  | loop i length c _ _ _ ihb ihr =>
    simp only [statements, Op.statement?, List.filterMap_cons, List.filterMap_append] at *
    exact .loop i length c ihb ihr

/-- Nested streams one after the other are nested. -/
theorem Nested.append {d : Nat} {ops more : List Op} {ds es : List Nat} (h : Nested d ops ds)
    (hm : Nested d more es) : Nested d (ops ++ more) (ds ++ es) := by
  induction h with
  | empty => exact hm
  | group fragments _ ih => exact .group fragments (ih hm)
  | cond c hb _ _ ih =>
    simp only [List.cons_append, List.append_assoc]
    exact .cond c hb (ih hm)
  | condElse c hb ho _ _ _ ih =>
    simp only [List.cons_append, List.append_assoc]
    exact .condElse c hb ho (ih hm)
  | loop i length c fragments hb _ _ ih =>
    simp only [List.cons_append, List.append_assoc]
    exact .loop i length c fragments hb (ih hm)

mutual
/-- **The operations of a statement are nested,** at every depth. -/
theorem Stmt.nested : ∀ (s : Stmt) (d : Nat), ∃ ds, Nested d s.ops ds
  | .append fragments, d => ⟨_, .group _ (.empty d)⟩
  | .ifThen t body, d => by
      obtain ⟨bs, hb⟩ := opsOf_nested body (d + 1)
      exact ⟨_, .cond t.text hb (.empty d)⟩
  | .ifElse t body other, d => by
      obtain ⟨bs, hb⟩ := opsOf_nested body (d + 1)
      obtain ⟨os, ho⟩ := opsOf_nested other (d + 1)
      exact ⟨_, .condElse t.text hb ho (.empty d)⟩
  | .each i source body, d => by
      obtain ⟨bs, hb⟩ := opsOf_nested body (d + 1)
      exact ⟨_, .loop i source.lengthText (moreText i source.lengthText) _ hb (.empty d)⟩

/-- The same for statements in order. -/
theorem opsOf_nested : ∀ (p : List Stmt) (d : Nat), ∃ ds, Nested d (opsOf p) ds
  | [], d => ⟨[], .empty d⟩
  | s :: rest, d => by
      obtain ⟨ds, hs⟩ := Stmt.nested s d
      obtain ⟨rs, hr⟩ := opsOf_nested rest d
      exact ⟨ds ++ rs, hs.append hr⟩
end

namespace Solidity

/-! ## §3. Lines that open and close. -/

/-- Whether a line opens a block is decided by its end. -/
theorem opensBlock_append (a : String) {b : String} (hb : b ≠ "") :
    opensBlock (a ++ b) = opensBlock b := by
  unfold opensBlock
  rw [String.toList_append, List.getLast?_append_of_ne_nil]
  simpa using hb

/-- Whether a line closes a block is decided by its start. -/
theorem closesBlock_append {a : String} (ha : a ≠ "") (b : String) :
    closesBlock (a ++ b) = closesBlock a := by
  unfold closesBlock
  rw [String.toList_append, List.head?_append_of_ne_nil]
  simpa using ha

theorem opensBlock_ifLine (c : String) : opensBlock (ifLine c) = true := by
  unfold ifLine
  rw [opensBlock_append _ (by decide)]
  decide

theorem closesBlock_ifLine (c : String) : closesBlock (ifLine c) = false := by
  unfold ifLine
  rw [String.append_assoc, closesBlock_append (by decide)]
  decide

theorem opensBlock_forLine (i length : String) : opensBlock (forLine i length) = true := by
  unfold forLine
  rw [opensBlock_append _ (by decide)]
  decide

theorem closesBlock_forLine (i length : String) : closesBlock (forLine i length) = false := by
  unfold forLine
  simp only [String.append_assoc]
  rw [closesBlock_append (by decide)]
  decide

/-- Whatever is appended, a group opens no block: its call stands around it. -/
theorem opensBlock_group (fragments : List (Fragment String)) :
    opensBlock (Op.group fragments).render = false := by
  rw [Op.render_group, opensBlock_append _ (by decide)]
  decide

/-- Nor does it close one. -/
theorem closesBlock_group (fragments : List (Fragment String)) :
    closesBlock (Op.group fragments).render = false := by
  rw [Op.render_group, String.append_assoc, closesBlock_append (by decide)]
  decide

/-! ## §4. Operations in their places. -/

/-- Operations are laid out one after the other. -/
theorem opLines_append (more : List Op) : ∀ (d : Nat) (ops : List Op),
    opLines d (ops ++ more)
      = ((opLines d ops).1 ++ (opLines (opLines d ops).2 more).1,
        (opLines (opLines d ops).2 more).2)
  | d, [] => rfl
  | d, op :: ops => by
      rw [List.cons_append, opLines, opLines, opLines_append more _ ops]
      rfl

/-- Operations behind a level, each with the depth the grammar gives it. -/
def placed (level : Nat) (ds : List Nat) (ops : List Op) : List Line :=
  List.zipWith (fun d op => ⟨level + d, op.render⟩) ds ops

/-- An operation that opens a block puts the next ones one level deeper. -/
theorem opLines_opening {text : String} (ho : opensBlock text = true)
    (hc : closesBlock text = false) (level : Nat) (ops : List Op) :
    opLines level (.statement text :: ops)
      = (⟨level, text⟩ :: (opLines (level + 1) ops).1, (opLines (level + 1) ops).2) := by
  simp [opLines, ho, hc]

theorem opLines_otherwise (level : Nat) (ops : List Op) :
    opLines (level + 1) (.statement elseLine :: ops)
      = (⟨level, elseLine⟩ :: (opLines (level + 1) ops).1, (opLines (level + 1) ops).2) := by
  have ho : opensBlock elseLine = true := by decide
  have hc : closesBlock elseLine = true := by decide
  simp [opLines, ho, hc]

theorem opLines_closing (level : Nat) (ops : List Op) :
    opLines (level + 1) (.statement closeLine :: ops)
      = (⟨level, closeLine⟩ :: (opLines level ops).1, (opLines level ops).2) := by
  have ho : opensBlock closeLine = false := by decide
  have hc : closesBlock closeLine = true := by decide
  simp [opLines, ho, hc]

theorem opLines_group (level : Nat) (fragments : List (Fragment String)) (ops : List Op) :
    opLines level (.group fragments :: ops)
      = (⟨level, (Op.group fragments).render⟩ :: (opLines level ops).1, (opLines level ops).2) := by
  simp [opLines, opensBlock_group, closesBlock_group]

/-- **Nested operations are laid out by their blocks,** and the level after
them is the level before them. -/
theorem opLines_of_nested {d : Nat} {ops : List Op} {ds : List Nat} (h : Nested d ops ds)
    (level : Nat) : ds.length = ops.length
      ∧ opLines (level + d) ops = (placed level ds ops, level + d) := by
  -- a block more around the operations is a level more for their lines
  have hdeep : ∀ d, level + d + 1 = level + (d + 1) := fun d => by omega
  induction h with
  | empty => exact ⟨rfl, rfl⟩
  | group fragments _ ih =>
    obtain ⟨hlen, hr⟩ := ih
    refine ⟨by simp [hlen], ?_⟩
    rw [opLines_group, hr]
    rfl
  | @cond d c body rest bs rs _ _ ihb ihr =>
    obtain ⟨hblen, hb⟩ := ihb
    obtain ⟨hrlen, hr⟩ := ihr
    refine ⟨by simp [hblen, hrlen], ?_⟩
    rw [opLines_opening (opensBlock_ifLine c) (closesBlock_ifLine c), opLines_append, hdeep, hb,
      ← hdeep, opLines_closing, hr]
    simp [placed, List.zipWith_append hblen]
  | @condElse d c body other rest bs os rs _ _ _ ihb iho ihr =>
    obtain ⟨hblen, hb⟩ := ihb
    obtain ⟨holen, ho⟩ := iho
    obtain ⟨hrlen, hr⟩ := ihr
    refine ⟨by simp [hblen, holen, hrlen], ?_⟩
    rw [opLines_opening (opensBlock_ifLine c) (closesBlock_ifLine c), opLines_append, hdeep, hb,
      ← hdeep, opLines_otherwise, opLines_append, hdeep, ho, ← hdeep, opLines_closing, hr]
    simp [placed, List.zipWith_append hblen, List.zipWith_append holen]
  | @loop d i length c fragments body rest bs rs _ _ ihb ihr =>
    obtain ⟨hblen, hb⟩ := ihb
    obtain ⟨hrlen, hr⟩ := ihr
    refine ⟨by simp [hblen, hrlen], ?_⟩
    rw [opLines_opening (opensBlock_forLine i length) (closesBlock_forLine i length),
      opLines_append, hdeep, hb, ← hdeep,
      opLines_opening (opensBlock_ifLine c) (closesBlock_ifLine c), opLines_group,
      opLines_closing, opLines_closing, hr]
    simp [placed, List.zipWith_append hblen, Nat.add_assoc]

/-- No line that closes a block does so at the outermost level: the level
before it is read off the depth it is laid out at. -/
theorem level_pos_of_closing {level : Nat} {before : List Op} (after : List Op) {op : Op}
    (hdeep : ∀ line ∈ (opLines level (before ++ op :: after)).1, 0 < line.depth)
    (hclose : closesBlock op.render = true) : 0 < (opLines level before).2 := by
  rw [opLines_append, opLines, hclose] at hdeep
  have hline := hdeep ⟨(opLines level before).2 - 1, op.render⟩ (by simp)
  have hpos : 0 < (opLines level before).2 - 1 := hline
  omega

theorem depth_pos_of_placed {level : Nat} (hlevel : 0 < level) :
    ∀ {ds : List Nat} {ops : List Op}, ∀ line ∈ placed level ds ops, 0 < line.depth
  | [], _, line, hline => by simp [placed] at hline
  | _ :: _, [], line, hline => by simp [placed] at hline
  | d :: ds, op :: ops, line, hline => by
      rcases List.mem_cons.mp hline with rfl | hline
      · show 0 < level + d
        omega
      · exact depth_pos_of_placed hlevel line hline

/-! ## §5. Functions. -/

/-- A text behind blanks. -/
def indented (n : Nat) (text : String) : String :=
  String.ofList (List.replicate n ' ') ++ text

/-- Four blanks for each level stand before a text. -/
theorem render_line {text : String} (htext : text ≠ "") (depth : Nat) :
    Line.render ⟨depth, text⟩ = indented (4 * depth) text := by
  have hjoin : String.join (List.replicate depth "    ")
      = String.ofList (List.replicate (4 * depth) ' ') := by
    induction depth with
    | zero => rfl
    | succ d ih =>
      rw [List.replicate_succ, String.join_cons, ih, show 4 * (d + 1) = 4 + 4 * d by omega,
        List.replicate_add, String.ofList_append]
      rfl
  unfold Line.render indented
  rw [if_neg htext, hjoin]

/-- Every operation has a text: a group its call, a nested statement its
keyword or its brace. -/
theorem render_ne_of_nested {d : Nat} {ops : List Op} {ds : List Nat} (h : Nested d ops ds) :
    ∀ op ∈ ops, op.render ≠ "" := by
  have hgroup : ∀ fragments : List (Fragment String), (Op.group fragments).render ≠ "" := by
    intro fragments
    rw [Op.render_group]
    simp
  have hif : ∀ c, ifLine c ≠ "" := fun c => by simp [ifLine]
  have hfor : ∀ i length, forLine i length ≠ "" := by
    intro i length
    unfold forLine
    simp
  induction h with
  | empty => simp
  | group fragments _ ih => simpa [hgroup] using ih
  | cond c _ _ ihb ihr =>
    simp only [List.forall_mem_cons, List.forall_mem_append, Op.render_statement]
    exact ⟨hif c, ihb, by decide, ihr⟩
  | condElse c _ _ _ ihb iho ihr =>
    simp only [List.forall_mem_cons, List.forall_mem_append, Op.render_statement]
    exact ⟨hif c, ihb, by decide, iho, by decide, ihr⟩
  | loop i length c fragments _ _ ihb ihr =>
    simp only [List.forall_mem_cons, List.forall_mem_append, Op.render_statement]
    exact ⟨hfor i length, ihb, hif c, hgroup fragments, by decide, by decide, ihr⟩

/-- The lines of a function by the depths of its operations. -/
def functionPage (level : Nat) (f : Function) (ds : List Nat) : List Line :=
  ⟨level, signature f⟩ :: ⟨level + 1, "bytes memory body;"⟩ :: placed (level + 1) ds f.ops
    ++ [⟨level + 1, "return body;"⟩, ⟨level, "\x7d"⟩]

/-- A function of nested operations is laid out by its blocks, and ends at the
level it starts from. -/
theorem functionLines_eq {f : Function} {ds : List Nat} (h : Nested 0 f.ops ds) (level : Nat) :
    functionLines level f = (functionPage level f ds, level) := by
  have hops := (opLines_of_nested h (level + 1)).2
  rw [Nat.add_zero] at hops
  unfold functionLines
  rw [hops]
  rfl

/-- Functions of nested operations: every page is laid out from the same level. -/
theorem allFunctionLines_eq (level : Nat) : ∀ {fs : List Function},
    (∀ f ∈ fs, ∃ ds, Nested 0 f.ops ds) →
    ∃ pages, allFunctionLines level fs = (pages, level)
      ∧ List.Forall₂ (fun f page => ∀ ds, Nested 0 f.ops ds → page = functionPage level f ds)
          fs pages
  | [], _ => ⟨[], rfl, .nil⟩
  | f :: fs, h => by
      obtain ⟨ds, hds⟩ := h f List.mem_cons_self
      obtain ⟨pages, hpages, hall⟩ :=
        allFunctionLines_eq level fun g hg => h g (List.mem_cons_of_mem _ hg)
      refine ⟨functionPage level f ds :: pages, ?_, .cons (fun ds' hds' => ?_) hall⟩
      · rw [allFunctionLines, functionLines_eq hds]
        show (_ :: (allFunctionLines level fs).1, (allFunctionLines level fs).2) = _
        rw [hpages]
      -- the depths are the ones the layout computes, so there is one list of them
      · have hsame := (functionLines_eq hds level).symm.trans (functionLines_eq hds' level)
        exact (Prod.mk.inj hsame).1

/-! ## §6. Libraries. -/

/-- A page of text is that of a function: every operation stands behind four
blanks for the two levels of library and function and for each block around it. -/
def PageOf (level : Nat) (f : Function) (page : List Line) : Prop :=
  (∃ ds, Nested 0 f.ops ds)
    ∧ ∀ ds, Nested 0 f.ops ds → ds.length = f.ops.length
      ∧ page.map Line.render
        = indented (4 * (level + 1)) (signature f)
          :: indented (4 * (level + 2)) "bytes memory body;"
          :: List.zipWith (fun d op => indented (4 * (level + 2 + d)) op.render) ds f.ops
          ++ [indented (4 * (level + 2)) "return body;", indented (4 * (level + 1)) "\x7d"]

/-- What writing a library out comes to. -/
structure LaidOut (g : Codegen) (l : Library) : Prop where
  /-- The level after the library is the level before it. -/
  back : (g.emit l).level = g.level
  /-- The header, the structures and the functions are written line by line,
  each behind its blanks and before a line feed. -/
  lines : ∃ pages, List.Forall₂ (PageOf g.level) l.functions pages
    ∧ (g.emit l).out = g.out ++ String.join (List.map (fun line : Line => line.render ++ "\n")
        ((header ++ [""]).map (⟨g.level, ·⟩)
          ++ ⟨g.level, "library " ++ l.contractName ++ " \x7b"⟩
          :: [⟨0, ""⟩].intercalate (l.structs.map (declarationLines (g.level + 1)) ++ pages)
          ++ [⟨g.level, "\x7d"⟩]))
  /-- Where an operation closes a block, there is a level to go back from. -/
  closes : ∀ fs f gs, l.functions = fs ++ f :: gs →
    ∀ before op after, f.ops = before ++ op :: after → closesBlock op.render = true →
      0 < (opLines ((allFunctionLines (g.level + 1) fs).2 + 1) before).2
  /-- So there is where a function ends. -/
  endsFunction : ∀ fs f gs, l.functions = fs ++ f :: gs →
    0 < (opLines ((allFunctionLines (g.level + 1) fs).2 + 1) f.ops).2
  /-- And where the library ends. -/
  endsLibrary : 0 < (allFunctionLines (g.level + 1) l.functions).2

theorem signature_ne (f : Function) : signature f ≠ "" := by
  unfold signature
  simp

/-- Operations in their places, each behind its blanks. -/
theorem map_render_placed (level : Nat) : ∀ (ds : List Nat) {ops : List Op},
    (∀ op ∈ ops, op.render ≠ "") →
    (placed level ds ops).map Line.render
      = List.zipWith (fun d op => indented (4 * (level + d)) op.render) ds ops
  | [], _, _ => rfl
  | _ :: _, [], _ => rfl
  | d :: ds, op :: ops, hne => by
      obtain ⟨hop, hops⟩ := List.forall_mem_cons.mp hne
      show Line.render ⟨level + d, op.render⟩ :: (placed level ds ops).map _ = _
      rw [render_line hop, map_render_placed level ds hops]
      rfl

/-- The page of a function, written out. -/
theorem pageOf_functionPage {level : Nat} {f : Function} {page : List Line}
    (hn : ∃ ds, Nested 0 f.ops ds)
    (h : ∀ ds, Nested 0 f.ops ds → page = functionPage (level + 1) f ds) :
    PageOf level f page := by
  refine ⟨hn, fun ds hds => ⟨(opLines_of_nested hds level).1, ?_⟩⟩
  have hops := map_render_placed (level + 2) ds (render_ne_of_nested hds)
  rw [h ds hds]
  unfold functionPage
  rw [List.map_append, List.map_cons, List.map_cons, hops, render_line (signature_ne f),
    render_line (by decide), List.map_cons, List.map_cons, List.map_nil,
    render_line (by decide), render_line (by decide)]

/-- Groups of lines have an empty line between them. -/
theorem separated_eq_intercalate : ∀ groups : List (List Line),
    separated groups = [⟨0, ""⟩].intercalate groups
  | [] => rfl
  | [group] => by simp [separated]
  | group :: next :: groups => by
      rw [separated, separated_eq_intercalate (next :: groups)]
      · simp [List.intercalate]
      · simp

/-- The lines of a library are written behind what has been written, each with
a line feed after it. -/
theorem emit_eq (out : String) {level final : Nat} {l : Library} {lines : List Line}
    (h : libraryLines level l = (lines, final)) :
    Codegen.emit ⟨out, level⟩ l
      = ⟨out ++ String.join (List.map (fun line : Line => line.render ++ "\n") lines), final⟩ := by
  unfold Codegen.emit Text.endLines
  rw [h]
  simp [Function.comp_def]

/-- **A library of nested functions is laid out by its blocks.** -/
theorem laidOut_of_nested {l : Library} (h : ∀ f ∈ l.functions, ∃ ds, Nested 0 f.ops ds)
    (g : Codegen) : LaidOut g l := by
  obtain ⟨out, level⟩ := g
  obtain ⟨pages, hpages, hall⟩ := allFunctionLines_eq (level + 1) h
  -- every function starts from the level of the first
  have hstart : ∀ fs f gs, l.functions = fs ++ f :: gs →
      (allFunctionLines (level + 1) fs).2 = level + 1 ∧ ∃ ds, Nested 0 f.ops ds := by
    intro fs f gs hcut
    have hfs : ∀ g ∈ fs, ∃ ds, Nested 0 g.ops ds := fun g hg => h g (by simp [hcut, hg])
    obtain ⟨before, hbefore, -⟩ := allFunctionLines_eq (level + 1) hfs
    exact ⟨by rw [hbefore], h f (by simp [hcut])⟩
  have hlines : libraryLines level l
      = ((header ++ [""]).map (⟨level, ·⟩) ++ ⟨level, "library " ++ l.contractName ++ " \x7b"⟩
          :: [⟨0, ""⟩].intercalate (l.structs.map (declarationLines (level + 1)) ++ pages)
          ++ [⟨level, "\x7d"⟩], level) := by
    rw [← separated_eq_intercalate]
    unfold libraryLines
    rw [hpages]
    rfl
  constructor
  case back => rw [emit_eq out hlines]
  case lines =>
    refine ⟨pages, ?_, by rw [emit_eq out hlines]⟩
    refine List.forall₂_iff_zip.mpr ⟨hall.length_eq, fun {f page} hmem => ?_⟩
    exact pageOf_functionPage (h f (List.of_mem_zip hmem).1) (List.forall₂_zip hall hmem)
  case closes =>
    intro fs f gs hcut before op after hops hclose
    obtain ⟨hlevel, ds, hds⟩ := hstart fs f gs hcut
    have hplaced := (opLines_of_nested hds (level + 2)).2
    rw [hlevel]
    refine level_pos_of_closing after ?_ hclose
    rw [← hops]
    show ∀ line ∈ (opLines (level + 2 + 0) f.ops).1, 0 < line.depth
    rw [hplaced]
    exact depth_pos_of_placed (by omega)
  case endsFunction =>
    intro fs f gs hcut
    obtain ⟨hlevel, ds, hds⟩ := hstart fs f gs hcut
    have hplaced := (opLines_of_nested hds (level + 2)).2
    rw [hlevel]
    show 0 < (opLines (level + 2 + 0) f.ops).2
    rw [hplaced]
    show 0 < level + 2 + 0
    omega
  case endsLibrary =>
    rw [hpages]
    show 0 < level + 1
    omega

/-- A compiled library has nested functions. -/
theorem nested_of_compile {config : Config} {table : Builtins} {l : Library}
    (h : config.compile table = .ok l) : ∀ f ∈ l.functions, ∃ ds, Nested 0 f.ops ds := by
  intro f hf
  obtain ⟨registry, d, -, -, hcompile⟩ := Config.mem_functions h hf
  obtain ⟨types, tree, program, -, -, -, heq⟩ := compileFunction_eq_ok hcompile
  have hops : f.ops = program.ops := congrArg Function.ops heq
  rw [hops]
  exact opsOf_nested program 0

/-- What a library adds does not depend on what has been written before it. -/
theorem emit_out (out : String) (level : Nat) (l : Library) :
    (Codegen.emit ⟨out, level⟩ l).out = out ++ (Codegen.emit ⟨"", level⟩ l).out := by
  unfold Codegen.emit
  simp

/-- Libraries that each come back to their level are written one after the
other as if each stood alone. -/
theorem foldl_emit_eq_join : ∀ {libraries : List Library} (out : String),
    (∀ l ∈ libraries, ∀ g : Codegen, (g.emit l).level = g.level) →
    libraries.foldl Codegen.emit ⟨out, 0⟩ = ⟨out ++ String.join (libraries.map render), 0⟩
  | [], out, _ => by simp
  | l :: ls, out, h => by
      obtain ⟨hl, hls⟩ := List.forall_mem_cons.mp h
      have hone : Codegen.emit ⟨out, 0⟩ l = ⟨out ++ render l, 0⟩ := by
        calc Codegen.emit ⟨out, 0⟩ l
            = ⟨(Codegen.emit ⟨out, 0⟩ l).out, (Codegen.emit ⟨out, 0⟩ l).level⟩ := rfl
          _ = ⟨out ++ render l, 0⟩ := by rw [emit_out, hl]; rfl
      rw [List.foldl_cons, hone, foldl_emit_eq_join (out ++ render l) hls, List.map_cons,
        String.join_cons, String.append_assoc]

/-- **Blocks and indentation.**  The statements of a compiled program belong
to the grammar of blocks; a compiled library is written out by its blocks from
every level, each line behind four blanks for its depth, and comes back to that
level without ever going below; and so the source of several libraries is that
of each, one after the other. -/
theorem blocks_indented :
    (∀ (table : Builtins) (root : Ty) (nodes : List Node) (program : Program),
      compile table root nodes = .ok program → BlockGrammar (statements program.ops))
    ∧ (∀ (config : Config) (table : Builtins) (l : Library), config.compile table = .ok l →
      ∀ g : Codegen, LaidOut g l)
    ∧ (∀ line : Line,
      line.render = if line.text = "" then "" else indented (4 * line.depth) line.text)
    ∧ (∀ l : Library, render l = (Codegen.emit ⟨"", 0⟩ l).out)
    ∧ ∀ libraries : List Library,
      (∀ l ∈ libraries, ∃ (config : Config) (table : Builtins), config.compile table = .ok l) →
      source libraries = String.join (libraries.map render) := by
  refine ⟨fun table root nodes program _ => ?_, fun config table l h g => ?_,
    fun line => ?_, fun _ => rfl, fun libraries h => ?_⟩
  · obtain ⟨ds, hds⟩ := opsOf_nested program 0
    exact hds.blockGrammar
  · exact laidOut_of_nested (nested_of_compile h) g
  · by_cases htext : line.text = ""
    · simp [Line.render, htext]
    · rw [if_neg htext, ← render_line htext]
  · have hback : ∀ l ∈ libraries, ∀ g : Codegen, (g.emit l).level = g.level := by
      intro l hl g
      obtain ⟨config, table, hcompile⟩ := h l hl
      exact (laidOut_of_nested (nested_of_compile hcompile) g).back
    show (libraries.foldl Codegen.emit ⟨"", 0⟩).out = _
    rw [foldl_emit_eq_join "" hback, String.empty_append]

/-- A loop in a condition, laid out from the third level behind a text, and
twice in one source. -/
theorem blocks_indented_bag :
    bagConfig.compile Builtin.standard = .ok bagLibrary
      ∧ BlockGrammar (statements bagOps)
      ∧ LaidOut ⟨"// \n", 3⟩ bagLibrary
      ∧ source [bagLibrary, bagLibrary] = render bagLibrary ++ render bagLibrary := by
  obtain ⟨hblocks, hlaid, -, -, hsource⟩ := blocks_indented
  obtain ⟨program, hprogram, hops⟩ : ∃ program,
      compile Builtin.standard (inputRecord [bagType]) bagTree = .ok program
        ∧ program.ops = bagOps := ⟨_, rfl, rfl⟩
  refine ⟨compile_bag, hops ▸ hblocks _ _ _ _ hprogram, hlaid _ _ _ compile_bag _, ?_⟩
  rw [hsource _ (by simpa using ⟨bagConfig, Builtin.standard, compile_bag⟩)]
  simp [String.join_cons]

end Solidity

end Stencil
