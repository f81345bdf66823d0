/-
  Stencil.Proofs.Program.Emission
  ───────────────────────────────
  WHERE STREAMS OF OPERATIONS MEET.

  Nodes are compiled one by one and their programs joined, so what is compiled
  from a list depends on how the list is put together only where groups of
  fragments meet.  The streams of operations are compared with those of a
  machine that walks the nodes and adds fragments and lines to one stream as
  it goes; the machine is given how it adds a fragment.

    • `compileNodes_merged` — compiled streams have no groups side by side,
      and nothing empty in them,
    • `emitNodes_eq` — whichever way fragments are added, the machine adds
      what is compiled, in order,
    • `addAll_merging`, `addAll_apart` — adding to the last group joins streams
      where they meet, adding groups of one splits them,
    • `emitNodes_grouped` — the machine takes a list for the nodes it holds,
    • `compile_merge_law` — compiling of lists, of lists in lists, and the two
      machines.
-/
import Mathlib.Data.List.Chain
import Stencil.Program.Compile
import Stencil.Proofs.Outcome
import Stencil.Proofs.Program.Spelling

namespace Stencil

open Schema (Ty)
open Template (Node Pipeline BranchKind)
open Outcome

/-! ## §1. Streams that meet. -/

/-- The operation appends fragments. -/
def Op.IsGroup : Op → Prop
  | .group _ => True
  | .statement _ => False

/-- One stream after the other; if a group ends the first and a group starts
the second, the two become one. -/
def meet (p q : List Op) : List Op :=
  match p.getLast?, q with
  | some (.group xs), .group ys :: rest => p.dropLast ++ .group (xs ++ ys) :: rest
  | _, _ => p ++ q

theorem meet_groups (front : List Op) (xs ys : List (Fragment String)) (rest : List Op) :
    meet (front ++ [.group xs]) (.group ys :: rest) = front ++ .group (xs ++ ys) :: rest := by
  simp [meet]

theorem meet_eq_append_of_last {p q : List Op} (h : ∀ xs, p.getLast? ≠ some (.group xs)) :
    meet p q = p ++ q := by
  unfold meet
  split
  next xs _ _ hlast => exact absurd hlast (h xs)
  next => rfl

theorem meet_eq_append_of_head {p q : List Op} (h : ∀ xs, q.head? ≠ some (.group xs)) :
    meet p q = p ++ q := by
  unfold meet
  split
  next ys rest _ => exact absurd rfl (h ys)
  next => rfl

@[simp] theorem meet_nil_left (q : List Op) : meet [] q = q :=
  meet_eq_append_of_last (by simp)

@[simp] theorem meet_nil_right (p : List Op) : meet p [] = p := by
  rw [meet_eq_append_of_head (by simp), List.append_nil]

/-- What a stream ends with decides how it meets another. -/
theorem meet_append_left (front : List Op) {p : List Op} (hp : p ≠ []) (q : List Op) :
    meet (front ++ p) q = front ++ meet p q := by
  have hlast : (front ++ p).getLast? = p.getLast? := by
    rw [List.getLast?_append_of_ne_nil front hp]
  unfold meet
  rw [hlast]
  split
  next => rw [List.dropLast_append_of_ne_nil hp, List.append_assoc]
  next => rw [List.append_assoc]

/-- Two streams either meet in groups, or one comes after the other. -/
theorem meet_cases (p q : List Op) :
    (∃ front xs ys rest, p = front ++ [.group xs] ∧ q = .group ys :: rest
        ∧ meet p q = front ++ .group (xs ++ ys) :: rest)
      ∨ meet p q = p ++ q ∧ ∀ x ∈ p.getLast?, ∀ y ∈ q.head?, ¬ (x.IsGroup ∧ y.IsGroup) := by
  by_cases h : ∃ xs, p.getLast? = some (.group xs)
  · obtain ⟨xs, hlast⟩ := h
    obtain ⟨front, rfl⟩ := List.getLast?_eq_some_iff.mp hlast
    match q with
    | [] => exact .inr ⟨meet_nil_right _ ▸ (List.append_nil _).symm, by simp⟩
    | .group ys :: rest => exact .inl ⟨front, xs, ys, rest, rfl, rfl, meet_groups front xs ys rest⟩
    | .statement text :: rest =>
      exact .inr ⟨meet_eq_append_of_head (by simp), by simp [Op.IsGroup]⟩
  · refine .inr ⟨meet_eq_append_of_last fun xs hxs => h ⟨xs, hxs⟩, ?_⟩
    rintro x hx y - ⟨hgroup, -⟩
    cases x with
    | group xs => exact h ⟨xs, hx⟩
    | statement text => exact hgroup

/-- A stream in which all that can be merged is, and nothing is empty. -/
structure Merged (ops : List Op) : Prop where
  /-- No group is empty. -/
  groups : .group [] ∉ ops
  /-- No literal is empty. -/
  literals : ∀ xs, .group xs ∈ ops → .literal "" ∉ xs
  /-- No two groups stand side by side. -/
  apart : ops.IsChain fun x y => ¬ (x.IsGroup ∧ y.IsGroup)

theorem merged_nil : Merged [] :=
  ⟨by simp, by simp, by simp⟩

theorem merged_group {xs : List (Fragment String)} (hne : xs ≠ []) (hlit : .literal "" ∉ xs) :
    Merged [.group xs] :=
  ⟨by simpa using hne.symm, by simpa using hlit, by simp⟩

theorem merged_statement (text : String) : Merged [.statement text] :=
  ⟨by simp, by simp, by simp⟩

/-- Streams that do not meet in groups stay merged one after the other. -/
theorem Merged.append {p q : List Op} (hp : Merged p) (hq : Merged q)
    (h : ∀ x ∈ p.getLast?, ∀ y ∈ q.head?, ¬ (x.IsGroup ∧ y.IsGroup)) : Merged (p ++ q) := by
  refine ⟨?_, ?_, List.isChain_append.mpr ⟨hp.apart, hq.apart, h⟩⟩
  · simpa using ⟨hp.groups, hq.groups⟩
  · intro xs hxs
    rcases List.mem_append.mp hxs with hxs | hxs
    · exact hp.literals xs hxs
    · exact hq.literals xs hxs

theorem Merged.tail {op : Op} {q : List Op} (h : Merged (op :: q)) : Merged q :=
  ⟨fun hmem => h.groups (List.mem_cons_of_mem _ hmem),
    fun xs hmem => h.literals xs (List.mem_cons_of_mem _ hmem), (List.isChain_cons.mp h.apart).2⟩

/-- A line may stand anywhere. -/
theorem Merged.statement_cons {text : String} {q : List Op} (hq : Merged q) :
    Merged (.statement text :: q) :=
  (merged_statement text).append hq (by simp [Op.IsGroup])

theorem Merged.append_statement {p q : List Op} {text : String} (hp : Merged p)
    (hq : Merged q) : Merged (p ++ .statement text :: q) :=
  hp.append hq.statement_cons (by simp [Op.IsGroup])

/-- **Merged streams meet in a merged stream.** -/
theorem Merged.meet {p q : List Op} (hp : Merged p) (hq : Merged q) : Merged (meet p q) := by
  rcases meet_cases p q with ⟨front, xs, ys, rest, rfl, rfl, h⟩ | ⟨h, hapart⟩
  · rw [h]
    obtain ⟨hfront, -, hxs⟩ := List.isChain_append.mp hp.apart
    refine ⟨?_, ?_, ?_⟩
    · have hne : xs ≠ [] := by
        rintro rfl
        exact hp.groups (by simp)
      have h₁ : .group [] ∉ front := fun hmem => hp.groups (by simp [hmem])
      have h₂ : .group [] ∉ rest := fun hmem => hq.groups (by simp [hmem])
      simp [h₁, h₂, hne]
    · intro zs hzs
      rcases List.mem_append.mp hzs with hzs | hzs
      · exact hp.literals zs (by simp [hzs])
      · rcases List.mem_cons.mp hzs with hzs | hzs
        · obtain rfl := Op.group.inj hzs
          have h₁ := hp.literals xs (by simp)
          have h₂ := hq.literals ys (by simp)
          simp [h₁, h₂]
        · exact hq.literals zs (by simp [hzs])
    · -- the joined group has the neighbours of its two halves
      refine List.isChain_append.mpr ⟨hfront, ?_, ?_⟩
      · have hrest := hq.apart
        rw [List.isChain_cons] at hrest ⊢
        exact hrest
      · intro x hx y hy
        obtain rfl : .group (xs ++ ys) = y := by simpa using hy
        exact hxs x hx (.group xs) (by simp)
  · rw [h]
    exact hp.append hq hapart

/-! ## §2. Compiled streams. -/

@[simp] theorem opsOf_append (p q : List Stmt) : opsOf (p ++ q) = opsOf p ++ opsOf q := by
  induction p with
  | nil => rfl
  | cons s p ih => rw [List.cons_append, opsOf, opsOf, ih, List.append_assoc]

/-- A statement other than appending is in lines of its own. -/
theorem Stmt.ops_ends (s : Stmt) :
    (∃ fragments, s = .append fragments)
      ∨ ∃ first inner last, s.ops = .statement first :: (inner ++ [.statement last]) := by
  cases s with
  | append fragments => exact .inl ⟨fragments, rfl⟩
  | ifThen test body => exact .inr ⟨_, opsOf body, _, by rw [Stmt.ops]⟩
  | ifElse test body other =>
    refine .inr ⟨ifLine test.text, opsOf body ++ .statement elseLine :: opsOf other, closeLine, ?_⟩
    rw [Stmt.ops, List.append_assoc]
    rfl
  | each i source body =>
    refine .inr ⟨forLine i source.lengthText, opsOf body
      ++ [.statement (ifLine (moreText i source.lengthText)), .group [.literal separator],
        .statement closeLine], closeLine, ?_⟩
    rw [Stmt.ops, List.append_assoc]
    rfl

/-- **Joined programs are streams that meet.** -/
theorem ops_join (p q : Program) : (Program.join p q).ops = meet p.ops q.ops := by
  fun_induction Program.join p q with
  | case1 q => exact (meet_nil_left _).symm
  | case2 xs ys q =>
    simp only [Program.ops, opsOf, Stmt.ops, List.map_append, List.append_nil, List.cons_append,
      List.nil_append]
    exact (meet_groups [] _ _ _).symm
  | case3 s p q hnot ih =>
    change s.ops ++ (Program.join p q).ops = meet (s.ops ++ opsOf p) q.ops
    rw [ih]
    rcases p with _ | ⟨t, p⟩
    · -- the last statement does not append, or the next does not
      change s.ops ++ meet [] q.ops = meet (s.ops ++ []) q.ops
      rw [meet_nil_left, List.append_nil]
      rcases s.ops_ends with ⟨xs, rfl⟩ | ⟨first, inner, last, hs⟩
      · refine (meet_eq_append_of_head ?_).symm
        rcases q with _ | ⟨u, q⟩
        · simp [Program.ops, opsOf]
        · rcases u.ops_ends with ⟨ys, rfl⟩ | ⟨first, inner, last, hu⟩
          · exact (hnot xs ys q rfl rfl rfl).elim
          · simp [Program.ops, opsOf, hu]
      · refine (meet_eq_append_of_last ?_).symm
        intro xs
        rw [hs, ← List.cons_append, List.getLast?_concat]
        simp
    · refine (meet_append_left s.ops ?_ q.ops).symm
      rcases t.ops_ends with ⟨xs, rfl⟩ | ⟨first, inner, last, ht⟩
      · simp [Program.ops, opsOf, Stmt.ops]
      · simp [Program.ops, opsOf, ht]

/-- A text leaves a literal that is not empty, or nothing. -/
theorem compileText_merged (content : String) : Merged (compileText content).ops := by
  unfold compileText
  dsimp only
  split
  next => exact merged_nil
  next hne => exact merged_group (by simp) (by simpa [Fragment.map] using Ne.symm hne)

mutual
/-- **What a node is compiled to is merged.** -/
theorem compileNode_merged {table : Builtins} : ∀ {node : Node} {depth : Nat} {current : Ref}
    {p : Program}, compileNode table depth current node = .ok p → Merged p.ops
  | .text _ content, _, _, p, h => by
      rw [compileNode] at h
      obtain rfl := Except.ok.inj h
      exact compileText_merged content
  | .action _ pipe, _, _, p, h => by
      rw [compileNode] at h
      obtain ⟨r, -, h⟩ := bind_eq_ok.mp h
      obtain ⟨value, -, h⟩ := bind_eq_ok.mp h
      obtain rfl := Except.ok.inj h
      exact merged_group (by simp) (by simp [Fragment.map])
  | .branch .cond pos pipe _ body, _, _, p, h => by
      rw [compileNode] at h
      obtain ⟨r, -, h⟩ := bind_eq_ok.mp h
      obtain ⟨test, -, h⟩ := bind_eq_ok.mp h
      obtain ⟨inner, hbody, h⟩ := bind_eq_ok.mp h
      obtain rfl := Except.ok.inj h
      have hinner := compileNodes_merged hbody
      simpa [Program.ops, opsOf, Stmt.ops] using
        (hinner.append_statement merged_nil).statement_cons
  | .branchElse .cond pos pipe _ body _ elseBody, _, _, p, h => by
      rw [compileNode] at h
      obtain ⟨r, -, h⟩ := bind_eq_ok.mp h
      obtain ⟨test, -, h⟩ := bind_eq_ok.mp h
      obtain ⟨inner, hbody, h⟩ := bind_eq_ok.mp h
      obtain ⟨other, helse, h⟩ := bind_eq_ok.mp h
      obtain rfl := Except.ok.inj h
      have hinner := compileNodes_merged hbody
      have hother := compileNodes_merged helse
      simpa [Program.ops, opsOf, Stmt.ops] using
        (hinner.append_statement (hother.append_statement merged_nil)).statement_cons
  | .branch .loop pos pipe _ body, _, _, p, h => by
      rw [compileNode] at h
      obtain ⟨r, -, h⟩ := bind_eq_ok.mp h
      obtain ⟨⟨path, element⟩, -, h⟩ := bind_eq_ok.mp h
      obtain ⟨inner, hbody, h⟩ := bind_eq_ok.mp h
      obtain rfl := Except.ok.inj h
      have hinner := compileNodes_merged hbody
      have hbetween : Merged [.group [.literal separator]] :=
        merged_group (by simp) (by simp [separator])
      simpa [Program.ops, opsOf, Stmt.ops] using (hinner.append_statement
        (hbetween.append_statement (merged_statement closeLine))).statement_cons
  | .branchElse .loop _ _ _ _ _ _, _, _, _, h => by simp [compileNode] at h
  | .branch .scope _ _ _ _, _, _, _, h => by simp [compileNode] at h
  | .branchElse .scope _ _ _ _ _ _, _, _, _, h => by simp [compileNode] at h
  | .group _ nodes, _, _, p, h => by
      rw [compileNode] at h
      exact compileNodes_merged h
  | .jump _ _, _, _, _, h => by simp [compileNode] at h
  | .invoke _ _, _, _, _, h => by simp [compileNode] at h

/-- So is what nodes are compiled to. -/
theorem compileNodes_merged {table : Builtins} : ∀ {nodes : List Node} {depth : Nat}
    {current : Ref} {p : Program}, compileNodes table depth current nodes = .ok p → Merged p.ops
  | [], _, _, p, h => by
      rw [compileNodes] at h
      obtain rfl := Except.ok.inj h
      exact merged_nil
  | node :: nodes, _, _, p, h => by
      rw [compileNodes] at h
      obtain ⟨first, hfirst, h⟩ := bind_eq_ok.mp h
      obtain ⟨rest, hrest, h⟩ := bind_eq_ok.mp h
      obtain rfl := Except.ok.inj h
      rw [ops_join]
      exact (compileNode_merged hfirst).meet (compileNodes_merged hrest)
end

/-! ## §3. Walking the nodes with one stream. -/

/-- A way to add a fragment to a stream. -/
abbrev Adder := List Op → Fragment String → List Op

mutual
/-- Walk one node, adding to the stream. -/
def emitNode (add : Adder) (table : Builtins) (depth : Nat) (current : Ref) (ops : List Op) :
    Node → Except Error (List Op)
  | .text _ content =>
      let text := Text.compact content
      .ok (if text = "" then ops else add ops (.literal text))
  | .action _ pipe => do
      let r ← current.ofPipeline table pipe
      let value ← r.checkedValue pipe.pos
      return add ops (.value value.text)
  | .branch .cond pos pipe _ body => do
      let test ← (← current.ofPipeline table pipe).test pos
      let ops ← emitNodes add table depth current (ops ++ [.statement (ifLine test.text)]) body
      return ops ++ [.statement closeLine]
  | .branchElse .cond pos pipe _ body _ elseBody => do
      let test ← (← current.ofPipeline table pipe).test pos
      let ops ← emitNodes add table depth current (ops ++ [.statement (ifLine test.text)]) body
      let ops ← emitNodes add table depth current (ops ++ [.statement elseLine]) elseBody
      return ops ++ [.statement closeLine]
  | .branch .loop pos pipe _ body => do
      let (path, element) ← (← current.ofPipeline table pipe).source pos
      let i := loopVariable depth
      let ops ← emitNodes add table (depth + 1) (.place element (path.index i))
        (ops ++ [.statement (forLine i path.lengthText)]) body
      let ops := add (ops ++ [.statement (ifLine (moreText i path.lengthText))])
        (.literal separator)
      return ops ++ [.statement closeLine] ++ [.statement closeLine]
  | .branchElse .loop pos _ _ _ _ _ => .error (.unsupported .loopElse pos)
  | .branch .scope pos _ _ _ => .error (.unsupported .scope pos)
  | .branchElse .scope pos _ _ _ _ _ => .error (.unsupported .scope pos)
  | .group _ nodes => emitNodes add table depth current ops nodes
  | .jump kind pos => .error (.unsupported (.jump kind) pos)
  | .invoke pos name => .error (.unsupported (.invocation name) pos)

/-- Walk nodes in order. -/
def emitNodes (add : Adder) (table : Builtins) (depth : Nat) (current : Ref) (ops : List Op) :
    List Node → Except Error (List Op)
  | [] => .ok ops
  | node :: nodes => do
      let ops ← emitNode add table depth current ops node
      emitNodes add table depth current ops nodes
end

/-- Add one operation: the fragments of a group one by one, or a line. -/
def Op.addTo (add : Adder) (ops : List Op) : Op → List Op
  | .group xs => xs.foldl add ops
  | .statement text => ops ++ [.statement text]

/-- Add all operations of a stream to another. -/
def addAll (add : Adder) (ops more : List Op) : List Op :=
  more.foldl (Op.addTo add) ops

section
variable {add : Adder}

@[simp] theorem addAll_nil (ops : List Op) : addAll add ops [] = ops := rfl

@[simp] theorem addAll_group (ops : List Op) (xs : List (Fragment String)) (more : List Op) :
    addAll add ops (.group xs :: more) = addAll add (xs.foldl add ops) more := rfl

@[simp] theorem addAll_statement (ops : List Op) (text : String) (more : List Op) :
    addAll add ops (.statement text :: more) = addAll add (ops ++ [.statement text]) more := rfl

@[simp] theorem addAll_append (ops more rest : List Op) :
    addAll add ops (more ++ rest) = addAll add (addAll add ops more) rest :=
  List.foldl_append

/-- Whether groups were joined makes no difference to adding them. -/
theorem addAll_join (ops : List Op) (p q : Program) :
    addAll add ops (Program.join p q).ops = addAll add (addAll add ops p.ops) q.ops := by
  rcases Program.join_cases p q with h | ⟨front, xs, ys, rest, rfl, rfl, h⟩
  · rw [h, Program.ops, opsOf_append, addAll_append]
    rfl
  · rw [h]
    simp [Program.ops, opsOf, Stmt.ops]

/-- Nodes in two lists are walked one list after the other. -/
theorem emitNodes_append {table : Builtins} {depth : Nat} {current : Ref} (b : List Node) :
    ∀ (a : List Node) (ops : List Op), emitNodes add table depth current ops (a ++ b)
      = emitNodes add table depth current ops a
          >>= fun ops => emitNodes add table depth current ops b
  | [], ops => rfl
  | node :: a, ops => by
      rw [List.cons_append, emitNodes, emitNodes, bind_assoc]
      exact bind_congr fun ops => emitNodes_append b a ops

mutual
/-- **Walking a node adds what it is compiled to,** or fails as compiling does. -/
theorem emitNode_eq {table : Builtins} : ∀ (node : Node) {depth : Nat} {current : Ref}
    {ops : List Op}, emitNode add table depth current ops node
      = (compileNode table depth current node).map fun p => addAll add ops p.ops
  | .text _ content, _, _, ops => by
      rw [emitNode, compileNode, compileText]
      by_cases h : Text.compact content = ""
      · simp only [h, if_true]
        rfl
      · simp only [h, if_false]
        rfl
  | .action _ pipe, _, _, ops => by
      rw [emitNode, compileNode, bind_then_map]
      refine bind_congr fun r => ?_
      rw [bind_then_map]
      rfl
  | .branch .cond pos pipe _ body, _, _, ops => by
      rw [emitNode, compileNode, bind_then_map]
      refine bind_congr fun r => ?_
      rw [bind_then_map]
      refine bind_congr fun test => ?_
      rw [emitNodes_eq body, bind_then_map, map_then_bind]
      refine bind_congr fun inner => ?_
      simp [Except.map, Program.ops, opsOf, Stmt.ops]
  | .branchElse .cond pos pipe _ body _ elseBody, _, _, ops => by
      rw [emitNode, compileNode, bind_then_map]
      refine bind_congr fun r => ?_
      rw [bind_then_map]
      refine bind_congr fun test => ?_
      rw [emitNodes_eq body, bind_then_map, map_then_bind]
      refine bind_congr fun inner => ?_
      rw [emitNodes_eq elseBody, bind_then_map, map_then_bind]
      refine bind_congr fun other => ?_
      simp [Except.map, Program.ops, opsOf, Stmt.ops]
  | .branch .loop pos pipe _ body, _, _, ops => by
      rw [emitNode, compileNode, bind_then_map]
      refine bind_congr fun r => ?_
      rw [bind_then_map]
      refine bind_congr fun source => ?_
      dsimp only
      rw [emitNodes_eq body, bind_then_map, map_then_bind]
      refine bind_congr fun inner => ?_
      simp [Except.map, Program.ops, opsOf, Stmt.ops]
  | .branchElse .loop _ _ _ _ _ _, _, _, _ => by rw [emitNode, compileNode]; rfl
  | .branch .scope _ _ _ _, _, _, _ => by rw [emitNode, compileNode]; rfl
  | .branchElse .scope _ _ _ _ _ _, _, _, _ => by rw [emitNode, compileNode]; rfl
  | .group _ nodes, _, _, _ => by rw [emitNode, compileNode, emitNodes_eq nodes]
  | .jump _ _, _, _, _ => by rw [emitNode, compileNode]; rfl
  | .invoke _ _, _, _, _ => by rw [emitNode, compileNode]; rfl

/-- So does walking nodes in order. -/
theorem emitNodes_eq {table : Builtins} : ∀ (nodes : List Node) {depth : Nat} {current : Ref}
    {ops : List Op}, emitNodes add table depth current ops nodes
      = (compileNodes table depth current nodes).map fun p => addAll add ops p.ops
  | [], _, _, _ => by rw [emitNodes, compileNodes]; rfl
  | node :: nodes, _, _, ops => by
      rw [emitNodes, compileNodes, emitNode_eq node, bind_then_map, map_then_bind]
      refine bind_congr fun first => ?_
      rw [emitNodes_eq nodes, bind_then_map]
      cases compileNodes table _ _ nodes with
      | error e => rfl
      | ok rest => exact congrArg Except.ok (addAll_join ops first rest).symm
end

end

/-! ## §4. Adding to the last group, and adding groups of one. -/

/-- Add a fragment to the last group, if a group is last. -/
def Adder.merging : Adder := fun ops fragment =>
  match ops.getLast? with
  | some (.group xs) => ops.dropLast ++ [.group (xs ++ [fragment])]
  | _ => ops ++ [.group [fragment]]

/-- Add a fragment in a group of its own. -/
def Adder.apart : Adder := fun ops fragment => ops ++ [.group [fragment]]

/-- A group of one for each fragment of the operation. -/
def Op.split : Op → List Op
  | .group xs => xs.map fun x => .group [x]
  | .statement text => [.statement text]

/-- The stream with all groups split. -/
def splitGroups (ops : List Op) : List Op :=
  ops.flatMap Op.split

theorem merging_eq_meet (ops : List Op) (fragment : Fragment String) :
    Adder.merging ops fragment = meet ops [.group [fragment]] := by
  unfold Adder.merging meet
  split
  next xs h => rw [h]
  next h =>
    split
    next xs _ _ hlast _ => exact absurd hlast (h xs)
    next => rfl

/-- Meeting the fragments of a group one by one is meeting the group. -/
theorem meet_meet_group (ops : List Op) (xs ys : List (Fragment String)) :
    meet (meet ops [.group xs]) [.group ys] = meet ops [.group (xs ++ ys)] := by
  rcases meet_cases ops [.group xs] with ⟨front, zs, xs', rest, rfl, -, -⟩ | ⟨h, hapart⟩
  · rw [meet_groups, meet_groups, meet_groups, List.append_assoc]
  · have hlast : ∀ zs, ops.getLast? ≠ some (.group zs) := fun zs hzs =>
      hapart (.group zs) hzs (.group xs) rfl ⟨trivial, trivial⟩
    rw [h, meet_groups, meet_eq_append_of_last hlast]

theorem foldl_merging (ops : List Op) : ∀ (x : Fragment String) (xs : List (Fragment String)),
    (x :: xs).foldl Adder.merging ops = meet ops [.group (x :: xs)] := by
  intro x xs
  induction xs using List.reverseRecOn with
  | nil => exact merging_eq_meet ops x
  | append_singleton xs y ih =>
    rw [← List.cons_append, List.foldl_append, ih, List.foldl_cons, List.foldl_nil, merging_eq_meet,
      meet_meet_group]

/-- **Adding a merged stream to the last group is meeting it.** -/
theorem addAll_merging : ∀ {more : List Op}, Merged more →
    ∀ ops, addAll .merging ops more = meet ops more
  | [], _, ops => by rw [addAll_nil, meet_nil_right]
  | .statement text :: more, h, ops => by
      have hmore : Merged more := h.tail
      rw [addAll_statement, addAll_merging hmore, meet_eq_append_of_last (by simp),
        meet_eq_append_of_head (by simp), List.append_assoc]
      rfl
  | .group [] :: more, h, ops => (h.groups List.mem_cons_self).elim
  | .group (x :: xs) :: more, h, ops => by
      have hmore : Merged more := h.tail
      have hhead : ∀ ys, more.head? ≠ some (.group ys) := fun ys hys =>
        (List.isChain_cons.mp h.apart).1 (.group ys) hys ⟨trivial, trivial⟩
      rw [addAll_group, foldl_merging, addAll_merging hmore, meet_eq_append_of_head hhead]
      rcases meet_cases ops [.group (x :: xs)] with ⟨front, zs, ys, rest, rfl, -, -⟩ | ⟨-, hapart⟩
      · rw [meet_groups, meet_groups]
        simp
      · have hlast : ∀ zs, ops.getLast? ≠ some (.group zs) := fun zs hzs =>
          hapart (.group zs) hzs (.group (x :: xs)) rfl ⟨trivial, trivial⟩
        rw [meet_eq_append_of_last hlast, meet_eq_append_of_last hlast, List.append_assoc]
        rfl

theorem foldl_apart (xs : List (Fragment String)) (ops : List Op) :
    xs.foldl Adder.apart ops = ops ++ xs.map fun x => .group [x] := by
  induction xs generalizing ops with
  | nil => simp
  | cons x xs ih =>
    rw [List.foldl_cons, ih, Adder.apart, List.append_assoc]
    rfl

/-- **Adding groups of one splits all groups.** -/
theorem addAll_apart (more ops : List Op) : addAll .apart ops more = ops ++ splitGroups more := by
  induction more generalizing ops with
  | nil => simp [splitGroups]
  | cons op more ih =>
    cases op with
    | group xs =>
      rw [addAll_group, foldl_apart, ih, List.append_assoc]
      rfl
    | statement text =>
      rw [addAll_statement, ih, List.append_assoc]
      rfl

/-! ## §5. Lists in the place of their nodes. -/

/-- Nodes in a row are replaced by one list of them, somewhere in the tree. -/
inductive Grouped : List Node → List Node → Prop
  | here (before nodes after : List Node) (pos : Nat) :
      Grouped (before ++ nodes ++ after) (before ++ .group pos nodes :: after)
  | branch {body body' : List Node} (before after : List Node) (kind : BranchKind) (pos : Nat)
      (pipe : Pipeline) (bodyPos : Nat) : Grouped body body' →
      Grouped (before ++ .branch kind pos pipe bodyPos body :: after)
        (before ++ .branch kind pos pipe bodyPos body' :: after)
  | branchElse {body body' : List Node} (before after : List Node) (kind : BranchKind) (pos : Nat)
      (pipe : Pipeline) (bodyPos elsePos : Nat) (elseBody : List Node) : Grouped body body' →
      Grouped (before ++ .branchElse kind pos pipe bodyPos body elsePos elseBody :: after)
        (before ++ .branchElse kind pos pipe bodyPos body' elsePos elseBody :: after)
  | otherwise {elseBody elseBody' : List Node} (before after : List Node) (kind : BranchKind)
      (pos : Nat) (pipe : Pipeline) (bodyPos elsePos : Nat) (body : List Node) :
      Grouped elseBody elseBody' →
      Grouped (before ++ .branchElse kind pos pipe bodyPos body elsePos elseBody :: after)
        (before ++ .branchElse kind pos pipe bodyPos body elsePos elseBody' :: after)
  | group {nodes nodes' : List Node} (before after : List Node) (pos : Nat) : Grouped nodes nodes' →
      Grouped (before ++ .group pos nodes :: after) (before ++ .group pos nodes' :: after)

section
variable {add : Adder} {table : Builtins}

/-- A node that is walked as another may stand in its place. -/
theorem emitNodes_replace {node node' : Node} {depth : Nat} {current : Ref}
    (h : ∀ ops, emitNode add table depth current ops node'
      = emitNode add table depth current ops node) (before after : List Node) (ops : List Op) :
    emitNodes add table depth current ops (before ++ node' :: after)
      = emitNodes add table depth current ops (before ++ node :: after) := by
  rw [emitNodes_append, emitNodes_append]
  refine bind_congr fun ops => ?_
  rw [emitNodes, emitNodes, h]

/-- **Walking takes a list for the nodes it holds,** at any depth. -/
theorem emitNodes_grouped {a b : List Node} (h : Grouped a b) : ∀ {depth : Nat} {current : Ref}
    (ops : List Op), emitNodes add table depth current ops b
      = emitNodes add table depth current ops a := by
  induction h with
  | here before nodes after pos =>
    intro depth current ops
    rw [emitNodes_append, emitNodes_append, emitNodes_append, bind_assoc]
    refine bind_congr fun ops => ?_
    rw [emitNodes, emitNode]
  | branch before after kind pos pipe bodyPos _ ih =>
    intro depth current
    refine emitNodes_replace (fun ops => ?_) before after
    cases kind with
    | cond => simp only [emitNode, ih]
    | loop => simp only [emitNode, ih]
    | scope => simp only [emitNode]
  | branchElse before after kind pos pipe bodyPos elsePos elseBody _ ih =>
    intro depth current
    refine emitNodes_replace (fun ops => ?_) before after
    cases kind with
    | cond => simp only [emitNode, ih]
    | loop => simp only [emitNode]
    | scope => simp only [emitNode]
  | otherwise before after kind pos pipe bodyPos elsePos body _ ih =>
    intro depth current
    refine emitNodes_replace (fun ops => ?_) before after
    cases kind with
    | cond => simp only [emitNode, ih]
    | loop => simp only [emitNode]
    | scope => simp only [emitNode]
  | group before after pos _ ih =>
    intro depth current
    refine emitNodes_replace (fun ops => ?_) before after
    rw [emitNode, emitNode, ih]

end

/-! ## §6. The merge law. -/

/-- The stream of operations that nodes are compiled to. -/
def compileOps (table : Builtins) (root : Ty) (nodes : List Node) : Except Error (List Op) :=
  (compile table root nodes).map Program.ops

theorem merged_of_compileOps {table : Builtins} {root : Ty} {nodes : List Node} {ops : List Op}
    (h : compileOps table root nodes = .ok ops) : Merged ops := by
  obtain ⟨p, hp, rfl⟩ := map_eq_ok.mp h
  exact compileNodes_merged hp

/-- Whichever way fragments are added, walking adds the stream. -/
theorem emitNodes_eq_compileOps (add : Adder) (table : Builtins) (root : Ty) (nodes : List Node)
    (ops : List Op) : emitNodes add table 0 (.root root) ops nodes
      = (compileOps table root nodes).map (addAll add ops) := by
  rw [emitNodes_eq, compileOps, compile]
  cases compileNodes table 0 (.root root) nodes with
  | error e => rfl
  | ok p => rfl

/-- **Compiling is walking with fragments added to the last group.** -/
theorem emitNodes_merging (table : Builtins) (root : Ty) (nodes : List Node) (ops : List Op) :
    emitNodes .merging table 0 (.root root) ops nodes
      = (compileOps table root nodes).map (meet ops) := by
  rw [emitNodes_eq_compileOps]
  cases h : compileOps table root nodes with
  | error e => rfl
  | ok more => exact congrArg Except.ok (addAll_merging (merged_of_compileOps h) ops)

theorem compileOps_eq_emitNodes (table : Builtins) (root : Ty) (nodes : List Node) :
    compileOps table root nodes = emitNodes .merging table 0 (.root root) [] nodes := by
  rw [emitNodes_merging]
  cases compileOps table root nodes with
  | error e => rfl
  | ok ops => exact congrArg Except.ok (meet_nil_left ops).symm

/-- **The merge law.**  A list of nodes put together from two is compiled to
the streams of the two where they meet, and the first of the two that fails
decides; a list of nodes in the place of these nodes, at any depth, makes no
difference; streams have no empty group, no empty literal and no groups side
by side; and if all their groups are split they are what is written by walking
the nodes and adding each fragment in a group of its own. -/
theorem compile_merge_law (table : Builtins) (root : Ty) :
    (∀ a b, compileOps table root (a ++ b) = do
        let p ← compileOps table root a
        let q ← compileOps table root b
        return meet p q)
      ∧ (∀ a b, Grouped a b → compileOps table root b = compileOps table root a)
      ∧ (∀ nodes ops, compileOps table root nodes = .ok ops → Merged ops)
      ∧ (∀ nodes, (compileOps table root nodes).map splitGroups
          = emitNodes .apart table 0 (.root root) [] nodes) := by
  refine ⟨fun a b => ?_, fun a b h => ?_, fun nodes ops => merged_of_compileOps, fun nodes => ?_⟩
  · rw [compileOps_eq_emitNodes table root (a ++ b), emitNodes_append, ← compileOps_eq_emitNodes]
    refine bind_congr fun p => ?_
    rw [emitNodes_merging]
    cases compileOps table root b with
    | error e => rfl
    | ok q => rfl
  · rw [compileOps_eq_emitNodes, compileOps_eq_emitNodes, emitNodes_grouped h]
  · rw [emitNodes_eq_compileOps]
    cases compileOps table root nodes with
    | error e => rfl
    | ok ops => exact congrArg Except.ok (addAll_apart ops []).symm

/-- A value and the text behind it. -/
def sumNodes : List Node :=
  [.action 5 ⟨7, none, [⟨7, [.field ["n"]]⟩]⟩, .text 11 " \n]"]

/-- A text before a value meets it in one group, whether or not the value and
what follows it are in a list of their own. -/
theorem compile_merge_law_sum :
    compileOps Builtin.standard (.record [("n", .scalar "uint8")]) (.text 0 "[ " :: sumNodes)
        = .ok [.group [.literal "[", .value "n", .literal "]"]]
      ∧ compileOps Builtin.standard (.record [("n", .scalar "uint8")])
          [.text 0 "[ ", .group 5 sumNodes]
        = .ok [.group [.literal "[", .value "n", .literal "]"]]
      ∧ Merged [.group [.literal "[", .value "n", .literal "]"]] := by
  obtain ⟨-, hgrouped, hmerged, -⟩ :=
    compile_merge_law Builtin.standard (.record [("n", .scalar "uint8")])
  have h : compileOps Builtin.standard (.record [("n", .scalar "uint8")]) (.text 0 "[ " :: sumNodes)
      = .ok [.group [.literal "[", .value "n", .literal "]"]] := by rfl
  have hlist : Grouped (.text 0 "[ " :: sumNodes) [.text 0 "[ ", .group 5 sumNodes] :=
    .here [.text 0 "[ "] sumNodes [] 5
  exact ⟨h, (hgrouped _ _ hlist).trans h, hmerged _ _ h⟩

end Stencil
