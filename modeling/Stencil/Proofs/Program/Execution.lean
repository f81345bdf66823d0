/-
  Stencil.Proofs.Program.Execution
  ────────────────────────────────
  WHAT A STREAM OF OPERATIONS DOES.

  The operations are read from their text and put together into the blocks
  they spell (`assemble`), and these are run: the document starts empty,
  groups append to it, conditions choose, loops count.  Paths are read from
  the parameters and the loop variables.  Whatever a checked machine would
  refuse is a `Trap`: an index past the end of an array, a length of zero
  less one, a counter past 64 bits, a name that nothing declares.

    • `assemble_instrs` — the operations of a program spell its own blocks,
    • `exec_ops` — so to execute them is to run those blocks.
-/
import Stencil.Proofs.Program.Spelling
import Stencil.Text.Utf8

namespace Stencil

open Outcome

/-! ## §1. Values and stores. -/

/-- A value of a template's data.  Elementary values know the name of their
type, on which their encoding may depend. -/
inductive Val where
  /-- A number. -/
  | int (type : String) (n : Int)
  /-- A truth value. -/
  | bool (b : Bool)
  /-- Text, bytes or an address. -/
  | bytes (type : String) (bs : List Text.Byte)
  /-- Named members. -/
  | record (fields : List (String × Val))
  /-- Elements in order. -/
  | array (items : List Val)

/-- Why execution stops short. -/
inductive Trap where
  /-- An index past the end of an array. -/
  | outOfRange
  /-- A difference below zero. -/
  | underflow
  /-- A counter past 64 bits. -/
  | overflow
  /-- A name that nothing declares, or a value of the wrong sort. -/
  | stuck
  /-- Operations that spell no blocks. -/
  | malformed
  deriving DecidableEq

/-- What can be read: the parameters, and the loop variables, innermost first. -/
structure Store where
  /-- The parameters. -/
  params : List (String × Val)
  /-- The loop variables. -/
  loops : List (String × Nat)

/-- The store inside a loop. -/
def Store.bind (store : Store) (i : String) (k : Nat) : Store :=
  { store with loops := (i, k) :: store.loops }

/-- Read a path. -/
def Path.read (store : Store) : Path → Except Trap Val
  | root => .ok (.record store.params)
  | member base name => do
      match ← base.read store with
      | .record fields =>
          match fields.lookup name with
          | some v => .ok v
          | none => .error .stuck
      | _ => .error .stuck
  | index base i => do
      match ← base.read store, store.loops.lookup i with
      | .array items, some k =>
          match items[k]? with
          | some v => .ok v
          | none => .error .outOfRange
      | _, _ => .error .stuck

/-- The length of the array at a path. -/
def Path.lengthIn (store : Store) (p : Path) : Except Trap Nat := do
  match ← p.read store with
  | .array items => .ok items.length
  | _ => .error .stuck

/-- Does a condition hold? -/
def Cond.holds (store : Store) : Cond → Except Trap Bool
  | test (.nonzero p) => do
      match ← p.read store with
      | .int _ n => .ok (n != 0)
      | _ => .error .stuck
  | test (.holds p) => do
      match ← p.read store with
      | .bool b => .ok b
      | _ => .error .stuck
  | test (.nonempty p) => do return 0 < (← p.lengthIn store)
  | more i p => do
      let n ← p.lengthIn store
      if n = 0 then .error .underflow
      else
        match store.loops.lookup i with
        | some k => .ok (k < n - 1)
        | none => .error .stuck

/-! ## §2. Blocks. -/

/-- Operations put together into blocks. -/
inductive Code where
  /-- Append fragments. -/
  | append (fragments : List (Fragment String))
  /-- Do one thing or the other. -/
  | branch (cond : Cond) (body other : List Code)
  /-- Do something for every index of an array. -/
  | loop (i : String) (source : Path) (body : List Code)

/-- A block that is being put together, with what came before it. -/
inductive Frame where
  /-- The first part of a condition. -/
  | branch (cond : Cond) (before : List Code)
  /-- The other part of a condition, after its first part. -/
  | other (cond : Cond) (body before : List Code)
  /-- A loop. -/
  | loop (i : String) (source : Path) (before : List Code)

/-- Put instructions together; `frames` are the open blocks, innermost first,
and `done` is what came before in the innermost. -/
def assemble (frames : List Frame) (done : List Code) : List Instr → Option (List Code)
  | [] =>
      match frames with
      | [] => some done
      | _ :: _ => none
  | .append fragments :: rest => assemble frames (done ++ [.append fragments]) rest
  | .opens cond :: rest => assemble (.branch cond done :: frames) [] rest
  | .loop i source :: rest => assemble (.loop i source done :: frames) [] rest
  | .otherwise :: rest =>
      match frames with
      | .branch cond before :: frames => assemble (.other cond done before :: frames) [] rest
      | _ => none
  | .close :: rest =>
      match frames with
      | .branch cond before :: frames =>
          assemble frames (before ++ [.branch cond done []]) rest
      | .other cond body before :: frames =>
          assemble frames (before ++ [.branch cond body done]) rest
      | .loop i source before :: frames =>
          assemble frames (before ++ [.loop i source done]) rest
      | [] => none

/-- The blocks that operations spell. -/
def decode (ops : List Op) : Option (List Code) :=
  (ops.mapM Op.instr?).bind (assemble [] [])

/-! ## §3. Running. -/

/-- What the machine does with values: how it encodes them, what it makes of
the expressions in a group, and what the functions of a table compute.  Both
laws are about expressions: a path is read from the store, and a function
spelled around an expression computes from its value. -/
structure Target (table : Builtins) where
  /-- The bytes of a value. -/
  encode : Val → List Text.Byte
  /-- What a function computes. -/
  apply : Builtin → Val → Val
  /-- The value of an expression. -/
  eval : Store → String → Except Trap Val
  /-- Paths are read. -/
  eval_path : ∀ store text p, readPath text.toList = some p → eval store text = p.read store
  /-- Functions are applied. -/
  eval_call : ∀ store text v name f, table.get? name = some f → eval store text = .ok v →
    eval store (f.spell text) = .ok (apply f v)

section

variable {table : Builtins} (target : Target table)

/-- The bytes of a fragment. -/
def fragmentBytes (store : Store) : Fragment String → Except Trap (List Text.Byte)
  | .literal text => .ok (Text.toBytes text)
  | .value text => (target.eval store text).map target.encode

/-- Append fragments to the document. -/
def appendAll (store : Store) (body : List Text.Byte) (fragments : List (Fragment String)) :
    Except Trap (List Text.Byte) :=
  fragments.foldlM (fun body fragment => (fragmentBytes target store fragment).map (body ++ ·)) body

/-- Counters have 64 bits. -/
def counterLimit : Nat := 0x10000000000000000

/-- Count from `k` on, below a length that is asked for each time. -/
def countFrom (length : Nat → Except Trap Nat)
    (step : Nat → List Text.Byte → Except Trap (List Text.Byte)) (k : Nat)
    (body : List Text.Byte) : Except Trap (List Text.Byte) := do
  let n ← length k
  if k < n then
    let body ← step k body
    if _h : k + 1 < counterLimit then countFrom length step (k + 1) body
    else .error .overflow
  else .ok body
termination_by counterLimit - k

mutual
/-- Run a block on a document. -/
def Code.run : Code → Store → List Text.Byte → Except Trap (List Text.Byte)
  | .append fragments, store, body => appendAll target store body fragments
  | .branch cond inner other, store, body => do
      if ← cond.holds store then runAll inner store body else runAll other store body
  | .loop i source inner, store, body =>
      countFrom (fun k => source.lengthIn (store.bind i k))
        (fun k body => runAll inner (store.bind i k) body) 0 body

/-- Run blocks in order. -/
def runAll : List Code → Store → List Text.Byte → Except Trap (List Text.Byte)
  | [], _, body => .ok body
  | code :: rest, store, body => do runAll rest store (← code.run store body)
end

/-- Execute operations: the document starts empty. -/
def exec (params : List (String × Val)) (ops : List Op) : Except Trap (List Text.Byte) :=
  match decode ops with
  | some code => runAll target code ⟨params, []⟩ []
  | none => .error .malformed

end

/-! ## §4. The blocks of a program. -/

mutual
/-- The blocks of a statement. -/
def Stmt.code : Stmt → Code
  | .append fragments => .append (fragments.map (·.map Value.text))
  | .ifThen test body => .branch (.test test) (codeOf body) []
  | .ifElse test body other => .branch (.test test) (codeOf body) (codeOf other)
  | .each i source body =>
      .loop i source (codeOf body ++ [.branch (.more i source) [.append [.literal separator]] []])

/-- The blocks of statements in order. -/
def codeOf : List Stmt → List Code
  | [] => []
  | s :: rest => s.code :: codeOf rest
end

mutual
/-- **The instructions of a statement are put together into its blocks,**
wherever they stand and whatever follows. -/
theorem assemble_stmt : ∀ (s : Stmt) (frames : List Frame) (done : List Code) (rest : List Instr),
    assemble frames done (s.instrs ++ rest) = assemble frames (done ++ [s.code]) rest
  | .append fragments, frames, done, rest => rfl
  -- opening starts a frame, and closing ends just that one
  | .ifThen test body, frames, done, rest => by
      rw [Stmt.instrs, List.cons_append, assemble, List.append_assoc, assemble_instrs body]
      rfl
  | .ifElse test body other, frames, done, rest => by
      rw [Stmt.instrs, List.cons_append, assemble, List.append_assoc, assemble_instrs body,
        List.cons_append, assemble, List.append_assoc, assemble_instrs other]
      rfl
  | .each i source body, frames, done, rest => by
      rw [Stmt.instrs, List.cons_append, assemble, List.append_assoc, assemble_instrs body]
      rfl

/-- The same for statements in order. -/
theorem assemble_instrs : ∀ (p : List Stmt) (frames : List Frame) (done : List Code)
    (rest : List Instr),
    assemble frames done (instrsOf p ++ rest) = assemble frames (done ++ codeOf p) rest
  | [], frames, done, rest => by simp [instrsOf, codeOf]
  | s :: p, frames, done, rest => by
      rw [instrsOf, List.append_assoc, assemble_stmt s, assemble_instrs p, codeOf,
        List.append_assoc]
      rfl
end

/-- The operations of a spelled program spell its blocks. -/
theorem decode_ops {p : Program} (h : ∀ instr ∈ instrsOf p, instr.Spelled) :
    decode p.ops = some (codeOf p) := by
  -- nothing is open at the start, and nothing is left open
  have hassemble := assemble_instrs p [] [] []
  rw [List.append_nil] at hassemble
  show ((opsOf p).mapM Op.instr?).bind _ = _
  rw [opsOf_eq, mapM_instr?_op h, Option.bind_some, hassemble, List.nil_append]
  rfl

/-- **To execute the operations of a spelled program is to run its blocks.** -/
theorem exec_ops {table : Builtins} (target : Target table) {params : List (String × Val)}
    {p : Program} (h : ∀ instr ∈ instrsOf p, instr.Spelled) :
    exec target params p.ops = runAll target (codeOf p) ⟨params, []⟩ [] := by
  rw [exec, decode_ops h]

/-! ## §5. Running in order. -/

section

variable {table : Builtins} {target : Target table} {store : Store}

theorem runAll_append {more : List Code} : ∀ {code : List Code} {body : List Text.Byte},
    runAll target (code ++ more) store body
      = runAll target code store body >>= runAll target more store
  | [], body => by rw [List.nil_append, runAll, ok_bind]
  | c :: code, body => by
      rw [List.cons_append, runAll, runAll]
      cases c.run target store body with
      | error e => rfl
      | ok body => exact runAll_append

theorem appendAll_append {fragments more : List (Fragment String)} {body : List Text.Byte} :
    appendAll target store body (fragments ++ more)
      = appendAll target store body fragments >>= fun body => appendAll target store body more := by
  unfold appendAll
  rw [List.foldlM_append]

theorem codeOf_append {q : Program} : ∀ {p : Program}, codeOf (p ++ q) = codeOf p ++ codeOf q
  | [] => rfl
  | s :: p => by rw [List.cons_append, codeOf, codeOf, codeOf_append, List.cons_append]

/-- **Joined programs run one after the other.** -/
theorem runAll_join {p q : Program} {body : List Text.Byte} :
    runAll target (codeOf (Program.join p q)) store body
      = runAll target (codeOf p) store body >>= runAll target (codeOf q) store := by
  rcases Program.join_cases p q with h | ⟨front, xs, ys, rest, rfl, rfl, h⟩
  · rw [h, codeOf_append, runAll_append]
  · rw [h, codeOf_append, codeOf_append, runAll_append, runAll_append]
    cases runAll target (codeOf front) store body with
    | error e => rfl
    | ok body =>
      -- the one group does what the two did
      simp only [ok_bind, codeOf, Stmt.code, runAll, Code.run, List.map_append, appendAll_append]
      cases appendAll target store body (xs.map (·.map Value.text)) with
      | error e => rfl
      | ok body => rfl

end

end Stencil
