/-
  Stencil.Proofs.Program.Preservation
  ───────────────────────────────────
  COMPILED PROGRAMS WRITE WHAT THEIR TEMPLATES SAY.

  A template has a meaning of its own on a value: its texts compacted, its
  values encoded, one part or the other of a condition, and every element of
  an array with separators between (`substituteAll`).  No path, no variable
  and no block takes part in it.

  The operations that the template is compiled to, executed on the same
  value, write exactly that, and nothing traps.  What carries the proof is
  `Standing`: the path of the current reference, read in the store at hand,
  is the current value of the template, and the variables of deeper loops are
  still unused.

    • `run_compileNodes` — one run of compiled code against one substitution,
    • `countFrom_eq` — the loop, with its counter, its separators and its end,
    • `exec_compile` — whole templates, from the text of the operations.
-/
import Stencil.Proofs.Program.Execution
import Stencil.Proofs.Program.Safety

namespace Stencil

open Text (isIdentifier)
open Schema (Ty Registry IsCanonical IsIntegerName)
open Template (Node Pipeline)
open Outcome

/-! ## §1. Values of a type. -/

/-- The value is of the type, every array has fewer than 2⁶⁴ elements, and
every array of a fixed size has that many. -/
inductive Val.Fits : Val → Ty → Prop
  /-- A number. -/
  | int {name : String} (h : IsIntegerName name) (n : Int) : Fits (.int name n) (.scalar name)
  /-- A truth value. -/
  | bool (b : Bool) : Fits (.bool b) (.scalar "bool")
  /-- A value of any other elementary type. -/
  | bytes {name : String} (hc : IsCanonical name) (hn : ¬ IsIntegerName name)
      (hb : name ≠ "bool") (bs : List Text.Byte) : Fits (.bytes name bs) (.scalar name)
  /-- A record has its members, of their types. -/
  | record {members : List (String × Ty)} {fields : List (String × Val)}
      (hn : fields.map Prod.fst = members.map Prod.fst)
      (h : ∀ name ty v, members.lookup name = some ty → fields.lookup name = some v → Fits v ty) :
      Fits (.record fields) (.record members)
  /-- A sequence has elements of its type. -/
  | sequence {element : Ty} {items : List Val} (hlen : items.length < counterLimit)
      (h : ∀ v ∈ items, Fits v element) : Fits (.array items) (.sequence element)
  /-- An array has elements of its type, as many as its size. -/
  | fixed {element : Ty} {items : List Val} {size : Nat} (hlen : items.length < counterLimit)
      (hsize : items.length = size) (h : ∀ v ∈ items, Fits v element) :
      Fits (.array items) (.fixed element size)

/-! ## §2. What a template says. -/

/-- A member of a value. -/
def Val.member? : Val → String → Option Val
  | record fields, name => fields.lookup name
  | _, _ => none

/-- A member of a member of a member. -/
def Val.along? (v : Val) : List String → Option Val
  | [] => some v
  | name :: chain => (v.member? name).bind (·.along? chain)

/-- Numbers are true unless zero, truth values themselves, arrays if they have
an element. -/
def Val.truth? : Val → Option Bool
  | int _ n => some (n != 0)
  | bool b => some b
  | array items => some (0 < items.length)
  | bytes _ _ | record _ => none

section

variable {table : Builtins} (target : Target table)

/-- The functions of a pipeline applied to a value, one after the other. -/
def applyAll? : List String → Val → Option Val
  | [], v => some v
  | name :: names, v => (table.get? name).bind fun f => applyAll? names (target.apply f v)

/-- The value of a pipeline. -/
def pipeValue? (current : Val) (pipe : Pipeline) : Option Val :=
  pipe.shape?.bind fun s => (current.along? s.chain).bind (applyAll? target s.functions)

mutual
/-- What a node says of the current value. -/
def substitute : Node → Val → Option (List Text.Byte)
  | .text _ content, _ => some (Text.toBytes (Text.compact content))
  | .action _ pipe, v => (pipeValue? target v pipe).map target.encode
  | .branch .cond _ pipe _ body, v => do
      if ← (pipeValue? target v pipe).bind Val.truth? then substituteAll body v else some []
  | .branchElse .cond _ pipe _ body _ elseBody, v => do
      if ← (pipeValue? target v pipe).bind Val.truth? then substituteAll body v
      else substituteAll elseBody v
  | .branch .loop _ pipe _ body, v =>
      match pipeValue? target v pipe with
      | some (.array items) =>
          (items.mapM fun item => substituteAll body item).map
            (Text.toBytes separator).intercalate
      | _ => none
  | .group _ nodes, v => substituteAll nodes v
  | .branchElse .loop _ _ _ _ _ _, _ | .branch .scope _ _ _ _, _
  | .branchElse .scope _ _ _ _ _ _, _ | .jump _ _, _ | .invoke _ _, _ => none

/-- What nodes say, one after the other. -/
def substituteAll : List Node → Val → Option (List Text.Byte)
  | [], _ => some []
  | node :: nodes, v => do return (← substitute node v) ++ (← substituteAll nodes v)
end

end

/-! ## §3. Reading paths. -/

/-- A path that can be read is read the same inside one more loop. -/
theorem Path.read_bind {store : Store} {i : String} {k : Nat}
    (hfresh : store.loops.lookup i = none) :
    ∀ {p : Path} {v : Val}, p.read store = .ok v → p.read (store.bind i k) = .ok v
  | .root, v, h => h
  | .member base name, v, h => by
      rw [Path.read] at h ⊢
      obtain ⟨b, hb, h⟩ := bind_eq_ok.mp h
      rw [Path.read_bind hfresh hb, ok_bind]
      exact h
  -- an index is looked up among the loops, which have one more variable now
  | .index base j, v, h => by
      rw [Path.read] at h ⊢
      obtain ⟨b, hb, h⟩ := bind_eq_ok.mp h
      rw [Path.read_bind hfresh hb, ok_bind]
      -- the new variable is not the one that indexes here
      have hlookup : (store.bind i k).loops.lookup j = store.loops.lookup j := by
        by_cases hj : j = i
        · subst hj
          rw [hfresh] at h
          cases b <;> simp at h
        · have hb : (j == i) = false := by simp [hj]
          simp [Store.bind, List.lookup_cons, hb]
      rw [hlookup]
      exact h

/-- A member that the type has is there. -/
theorem Val.Fits.member {v : Val} {ty ty' : Ty} {name : String} (h : v.Fits ty)
    (hm : ty.member? name = some ty') : ∃ v', v.member? name = some v' ∧ v'.Fits ty' := by
  cases h with
  | @record members fields hn h =>
    have hm : members.lookup name = some ty' := hm
    have hmem : name ∈ fields.map Prod.fst := by
      rw [hn]
      exact List.mem_map_of_mem (f := Prod.fst) (Path.mem_of_lookup hm)
    -- the value has the names of the type, so the lookup succeeds
    obtain ⟨v', hv'⟩ : ∃ v', fields.lookup name = some v' := by
      cases hl : fields.lookup name with
      | some v' => exact ⟨v', rfl⟩
      | none =>
        obtain ⟨⟨n, w⟩, hw, rfl⟩ := List.mem_map.mp hmem
        have := List.lookup_eq_none_iff.mp hl (n, w) hw
        simp at this
    exact ⟨v', hv', h name ty' v' hm hv'⟩
  | int | bool | bytes | sequence | fixed => simp [Ty.member?] at hm

/-- Following members on paths and on values comes to the same. -/
theorem read_along {store : Store} : ∀ {chain : List String} {p : Path} {v : Val} {ty ty' : Ty},
    p.read store = .ok v → v.Fits ty → ty.along? chain = some ty' →
    ∃ v', v.along? chain = some v' ∧ (p.along chain).read store = .ok v' ∧ v'.Fits ty'
  | [], p, v, ty, ty', hr, hf, ha => by
      obtain rfl : ty = ty' := by simpa [Ty.along?] using ha
      exact ⟨v, rfl, hr, hf⟩
  | name :: chain, p, v, ty, ty', hr, hf, ha => by
      obtain ⟨ty₁, hty₁, ha⟩ := Option.bind_eq_some_iff.mp ha
      obtain ⟨v₁, hv₁, hf₁⟩ := hf.member hty₁
      have hr₁ : (p.member name).read store = .ok v₁ := by
        rw [Path.read, hr, ok_bind]
        cases v with
        | record fields =>
          have hv₁ : fields.lookup name = some v₁ := hv₁
          simp only [hv₁]
        | int | bool | bytes | array => simp [Val.member?] at hv₁
      obtain ⟨v', hv', hr', hf'⟩ := read_along hr₁ hf₁ ha
      exact ⟨v', by rw [Val.along?, hv₁]; exact hv', hr', hf'⟩

/-! ## §4. Loops. -/

/-- Parts with separators, the first part taken off. -/
theorem intercalate_drop (sep : List Text.Byte) (parts : List (List Text.Byte)) (k : Nat)
    (hk : k < parts.length) :
    sep.intercalate (parts.drop k)
      = parts[k] ++ ((if k < parts.length - 1 then sep else [])
        ++ sep.intercalate (parts.drop (k + 1))) := by
  rw [List.drop_eq_getElem_cons hk]
  -- after the last part there is neither separator nor part
  by_cases hlast : k < parts.length - 1
  · have hk' : k + 1 < parts.length := by omega
    rw [if_pos hlast, List.drop_eq_getElem_cons hk', List.intercalate_cons_cons, List.append_assoc]
  · have hnil : parts.drop (k + 1) = [] := List.drop_eq_nil_iff.mpr (by omega)
    rw [if_neg hlast, hnil, List.intercalate_singleton]
    simp [List.intercalate]

/-- **A loop whose body writes the parts in turn, each with a separator but the
last, writes them all and ends:** the counter stays below its limit because
the length does. -/
theorem countFrom_eq {length : Nat → Except Trap Nat}
    {step : Nat → List Text.Byte → Except Trap (List Text.Byte)} {sep : List Text.Byte}
    {parts : List (List Text.Byte)} (hlimit : parts.length < counterLimit)
    (hlength : ∀ k, length k = .ok parts.length)
    (hstep : ∀ k (hk : k < parts.length) (body : List Text.Byte),
      step k body = .ok (body ++ (parts[k] ++ if k < parts.length - 1 then sep else []))) :
    ∀ (left k : Nat) (body : List Text.Byte), k + left = parts.length →
      countFrom length step k body = .ok (body ++ sep.intercalate (parts.drop k))
  | 0, k, body, hk => by
      have hnil : parts.drop k = [] := List.drop_eq_nil_iff.mpr (by omega)
      rw [countFrom, hlength, ok_bind, if_neg (by omega), hnil]
      simp [List.intercalate]
  | left + 1, k, body, hk => by
      have hlt : k < parts.length := by omega
      have hnext : k + 1 < counterLimit := by omega
      rw [countFrom, hlength, ok_bind, if_pos hlt, hstep k hlt, ok_bind, dif_pos hnext,
        countFrom_eq hlimit hlength hstep left (k + 1) _ (by omega),
        intercalate_drop sep parts k hlt]
      simp only [List.append_assoc]

/-! ## §5. Values. -/

/-- Where compiling and running stand together: the path of the current
reference is in scope and reads as the current value, which fits its type, and
no loop that is still to come has its variable in the store. -/
structure Standing (types : List Ty) (loops : Loops) (depth : Nat) (store : Store) (ty : Ty)
    (path : Path) (v : Val) : Prop where
  /-- The path is in scope. -/
  scope : path.At types loops ty
  /-- The loops in scope are the outer ones. -/
  below : loops.Below depth
  /-- The path reads as the value. -/
  read : path.read store = .ok v
  /-- The value fits the type. -/
  fits : v.Fits ty
  /-- Inner variables are unused. -/
  fresh : ∀ d, depth ≤ d → store.loops.lookup (loopVariable d) = none

section

variable {table : Builtins} {target : Target table} {types : List Ty}

/-- Functions spelled around an expression compute from its value. -/
theorem eval_of_pass? {store : Store} : ∀ {names : List String} {r r' : Ref} {v : Val},
    target.eval store r.text = .ok v → Ref.pass? table names r = some r' →
    ∃ v', applyAll? target names v = some v' ∧ target.eval store r'.text = .ok v'
  | [], r, r', v, hv, h => by
      obtain rfl : r = r' := by simpa [Ref.pass?] using h
      exact ⟨v, rfl, hv⟩
  | name :: names, r, r', v, hv, h => by
      obtain ⟨f, hf, h⟩ := Option.bind_eq_some_iff.mp h
      split at h
      next => simp at h
      next =>
        have hcall : target.eval store (Ref.result f r.value).text = .ok (target.apply f v) :=
          target.eval_call store _ v name f hf hv
        obtain ⟨v', hv', heval⟩ := eval_of_pass? hcall h
        exact ⟨v', by rw [applyAll?, hf]; exact hv', heval⟩

/-- **The expression a pipeline is compiled to has the pipeline's value.** -/
theorem eval_of_resolve? (target : Target table) (hw : ∀ ty ∈ types, ty.WellFormed)
    {loops : Loops} {depth : Nat} {store : Store} {ty : Ty} {path : Path} {v : Val}
    (h : Standing types loops depth store ty path v) {pipe : Pipeline} {s : Template.Shape}
    (hs : pipe.shape? = some s) {r : Ref} (hres : Ref.resolve? table ty path s = some r)
    (hne : r.text ≠ "") :
    ∃ v', pipeValue? target v pipe = some v' ∧ target.eval store r.text = .ok v' := by
  obtain ⟨ty', hty', hpass⟩ := Option.bind_eq_some_iff.mp hres
  obtain ⟨v₁, hv₁, hread, -⟩ := read_along h.read h.fits hty'
  -- what functions are given is spelled, so it is not the parameter record
  have htyped := (h.scope.along hty').hasTy_of_text (Ref.text_ne_of_pass? hpass hne)
  have heval : target.eval store (Ref.place ty' (path.along s.chain)).text = .ok v₁ := by
    rw [← hread]
    exact target.eval_path _ _ _ (Path.readPath_text (htyped.spelled hw h.below.identifier))
  obtain ⟨v', hv', heval'⟩ := eval_of_pass? heval hpass
  exact ⟨v', by rw [pipeValue?, hs, Option.bind_some, hv₁, Option.bind_some, hv'], heval'⟩

/-- A pipeline that calls nothing has the value at the path it leads to. -/
theorem Standing.along (target : Target table) {loops : Loops} {depth : Nat} {store : Store}
    {ty ty' : Ty} {path : Path} {v : Val}
    (h : Standing types loops depth store ty path v) {pipe : Pipeline}
    {chain : List String} (hs : pipe.shape? = some ⟨chain, []⟩) (hty : ty.along? chain = some ty') :
    ∃ v', pipeValue? target v pipe = some v'
      ∧ Standing types loops depth store ty' (path.along chain) v' := by
  obtain ⟨v', hv', hread, hfits⟩ := read_along h.read h.fits hty
  refine ⟨v', ?_, h.scope.along hty, h.below, hread, hfits, h.fresh⟩
  rw [pipeValue?, hs, Option.bind_some, hv', Option.bind_some, applyAll?]

/-- The name of the truth values is no integer's. -/
theorem not_isIntegerName_bool : ¬ IsIntegerName "bool" := by
  rintro ⟨k, -, -, h | h⟩
  · exact absurd (congrArg (·.toList.head?) h) (by simp)
  · exact absurd (congrArg (·.toList.head?) h) (by simp)

/-- A test of a place holds exactly if its value is true. -/
theorem holds_of_tests {store : Store} {ty : Ty} {path : Path} {v : Val} {t : Test}
    (ht : Ref.Tests ty path t) (hread : path.read store = .ok v) (hfits : v.Fits ty) :
    ∃ b, v.truth? = some b ∧ (Cond.test t).holds store = .ok b := by
  -- each test is put to values of its own type; the other cases do not fit
  cases ht with
  | nonzero hn =>
    cases hfits with
    | int _ n => exact ⟨n != 0, rfl, by rw [Cond.holds, hread]; rfl⟩
    | bool => exact absurd hn (by decide)
    | bytes hc hnot => exact absurd ((Schema.isNumeric_iff hc).mp hn) hnot
    | record | sequence | fixed => simp [Ty.isNumeric] at hn
  | holds hb =>
    cases hfits with
    | @int name h =>
      obtain rfl : name = "bool" := by simpa [Ty.isBool] using hb
      exact absurd h not_isIntegerName_bool
    | bool b => exact ⟨b, rfl, by rw [Cond.holds, hread]; rfl⟩
    | bytes _ _ hne => exact absurd (by simpa [Ty.isBool] using hb) hne
    | record | sequence | fixed => simp [Ty.isBool] at hb
  | nonempty he =>
    cases hfits with
    | @sequence _ items | @fixed _ items =>
      exact ⟨0 < items.length, rfl, by rw [Cond.holds, Path.lengthIn, hread]; rfl⟩
    | int | bool | bytes | record => simp [Ty.element?] at he

/-- The elements of a value of an array's type. -/
theorem Val.Fits.items {v : Val} {ty element : Ty} (h : v.Fits ty)
    (he : ty.element? = some element) :
    ∃ items, v = .array items ∧ items.length < counterLimit ∧ ∀ w ∈ items, w.Fits element := by
  cases h with
  | @sequence element' items hlen h | @fixed element' items _ hlen _ h =>
    obtain rfl : element' = element := by simpa [Ty.element?] using he
    exact ⟨items, rfl, hlen, h⟩
  | int | bool | bytes | record => simp [Ty.element?] at he

/-- Inside a loop, the current value is the element at the counter. -/
theorem Standing.inside {loops : Loops} {depth : Nat} {store : Store} {ty element : Ty}
    {path : Path} {items : List Val}
    (h : Standing types loops depth store ty path (.array items))
    (he : ty.element? = some element) {k : Nat} (hk : k < items.length)
    (hfits : items[k].Fits element) :
    Standing types ((loopVariable depth, path) :: loops) (depth + 1)
      (store.bind (loopVariable depth) k) element (path.index (loopVariable depth)) items[k] := by
  have hfresh := h.fresh depth (Nat.le_refl depth)
  have htyped : path.HasTy types loops ty :=
    h.scope.hasTy_of_ne (by rintro members rfl; simp [Ty.element?] at he)
  refine ⟨?_, h.below.cons path, ?_, hfits, fun d hd => ?_⟩
  · exact .typed (.index (htyped.weaken fun l hl => List.mem_cons_of_mem _ hl) he
      List.mem_cons_self)
  · have hlookup : (store.bind (loopVariable depth) k).loops.lookup (loopVariable depth)
        = some k := by simp [Store.bind]
    rw [Path.read, Path.read_bind hfresh h.read, ok_bind, hlookup]
    simp [hk]
  · have hne : loopVariable d ≠ loopVariable depth := fun heq => by
      have := loopVariable_inj heq
      omega
    have hb : (loopVariable d == loopVariable depth) = false := by simp [hne]
    simp only [Store.bind, List.lookup_cons, hb]
    exact h.fresh d (by omega)

/-! ## §6. Running compiled nodes. -/

/-- The run appends the bytes to whatever the document holds. -/
def Writes (target : Target table) (store : Store) (code : List Code) (bytes : List Text.Byte) :
    Prop :=
  ∀ body, runAll target code store body = .ok (body ++ bytes)

theorem writes_nil {store : Store} : Writes target store [] [] :=
  fun body => congrArg Except.ok (List.append_nil body).symm

/-- A literal is written as it stands. -/
theorem writes_literal {store : Store} (text : String) :
    Writes target store [.append [.literal text]] (Text.toBytes text) :=
  fun _ => rfl

/-- A condition that holds or not chooses what is written. -/
theorem writes_branch {store : Store} {cond : Cond} {b : Bool} {inner other : List Code}
    {x y : List Text.Byte} (hholds : cond.holds store = .ok b) (hx : Writes target store inner x)
    (hy : Writes target store other y) :
    Writes target store [.branch cond inner other] (if b then x else y) := by
  intro body
  rw [runAll, Code.run, hholds, ok_bind]
  cases b with
  | true => rw [if_pos rfl, hx]; rfl
  | false => rw [if_neg (by simp), hy]; rfl

/-- The separator is written after every element but the last. -/
theorem writes_more {store : Store} {i : String} {path : Path} {items : List Val} {k : Nat}
    (hread : path.read store = .ok (.array items)) (hlookup : store.loops.lookup i = some k)
    (hk : k < items.length) :
    Writes target store [.branch (.more i path) [.append [.literal separator]] []]
      (if k < items.length - 1 then Text.toBytes separator else []) := by
  have hholds : (Cond.more i path).holds store = .ok (decide (k < items.length - 1)) := by
    rw [Cond.holds, Path.lengthIn, hread, ok_bind, ok_bind, if_neg (by omega), hlookup]
  simpa using writes_branch hholds (writes_literal separator) writes_nil

/-- A step that has a result for every element has one for all of them. -/
theorem mapM_total {α β : Type} {f : α → Option β} : ∀ {xs : List α},
    (∀ x ∈ xs, ∃ y, f x = some y) →
    ∃ ys, xs.mapM f = some ys ∧ ys.length = xs.length
      ∧ ∀ k (hx : k < xs.length) (hy : k < ys.length), f xs[k] = some ys[k]
  | [], _ => ⟨[], rfl, rfl, fun k hx => absurd hx (by simp)⟩
  | x :: xs, h => by
      obtain ⟨y, hy⟩ := h x List.mem_cons_self
      obtain ⟨ys, hys, hlen, hget⟩ := mapM_total fun x hx => h x (List.mem_cons_of_mem _ hx)
      refine ⟨y :: ys, by rw [List.mapM_cons, hy, hys]; rfl, by simp [hlen], fun k hx hk => ?_⟩
      cases k with
      | zero => exact hy
      | succ k => exact hget k (by simpa using hx) (by simpa using hk)

/-- **A loop writes its elements with separators between them,** if its body
writes every element. -/
theorem writes_loop (say : Val → Option (List Text.Byte)) {loops : Loops} {depth : Nat}
    {store : Store} {ty : Ty} {path : Path} {items : List Val} {inner : List Code}
    (h : Standing types loops depth store ty path (.array items))
    (hlimit : items.length < counterLimit)
    (hbody : ∀ k (hk : k < items.length), ∃ bytes, say items[k] = some bytes
      ∧ Writes target (store.bind (loopVariable depth) k) inner bytes) :
    ∃ parts, items.mapM say = some parts
      ∧ Writes target store
        [.loop (loopVariable depth) path
          (inner ++ [.branch (.more (loopVariable depth) path) [.append [.literal separator]] []])]
        ((Text.toBytes separator).intercalate parts) := by
  have htotal : ∀ x ∈ items, ∃ bytes, say x = some bytes := by
    intro x hx
    obtain ⟨k, hk, rfl⟩ := List.getElem_of_mem hx
    obtain ⟨bytes, hbytes, -⟩ := hbody k hk
    exact ⟨bytes, hbytes⟩
  obtain ⟨parts, hparts, hlen, hget⟩ := mapM_total htotal
  -- the counter does not disturb what the array's own path reads
  have hread : ∀ k, path.read (store.bind (loopVariable depth) k) = .ok (.array items) :=
    fun k => Path.read_bind (h.fresh depth (Nat.le_refl depth)) h.read
  have hlength : ∀ k, path.lengthIn (store.bind (loopVariable depth) k) = .ok parts.length := by
    intro k
    rw [Path.lengthIn, hread, ok_bind, hlen]
  -- one turn writes the element, and a separator unless it was the last
  have hstep : ∀ k (hk : k < parts.length) (body : List Text.Byte),
      runAll target (inner ++ [.branch (.more (loopVariable depth) path)
          [.append [.literal separator]] []]) (store.bind (loopVariable depth) k) body
        = .ok (body ++ (parts[k]
          ++ if k < parts.length - 1 then Text.toBytes separator else [])) := by
    intro k hk body
    have hk' : k < items.length := by omega
    obtain ⟨bytes, hbytes, hwrites⟩ := hbody k hk'
    obtain rfl : bytes = parts[k] := by
      have hsame := hget k hk' hk
      rw [hbytes] at hsame
      exact Option.some.inj hsame
    have hlookup : (store.bind (loopVariable depth) k).loops.lookup (loopVariable depth)
        = some k := by simp [Store.bind]
    rw [runAll_append, hwrites, ok_bind, writes_more (hread k) hlookup hk', hlen,
      List.append_assoc]
  refine ⟨parts, hparts, fun body => ?_⟩
  rw [runAll, Code.run, countFrom_eq (by omega) hlength hstep parts.length 0 body (by omega),
    List.drop_zero]
  rfl

mutual
/-- **A compiled node, run, writes what the node says of the current value.** -/
theorem run_compileNode (hw : ∀ ty ∈ types, ty.WellFormed) :
    ∀ (node : Node) {depth : Nat} {loops : Loops} {store : Store} {ty : Ty} {path : Path}
      {v : Val} {program : Program}, Standing types loops depth store ty path v →
      compileNode table depth (.place ty path) node = .ok program →
      ∃ bytes, substitute target node v = some bytes
        ∧ Writes target store (codeOf program) bytes
  | .text _ content, depth, loops, store, ty, path, v, program, _, h => by
      obtain rfl : compileText content = program := by simpa [compileNode] using h
      refine ⟨Text.toBytes (Text.compact content), rfl, fun body => ?_⟩
      unfold compileText
      dsimp only
      split
      next hempty =>
        have hnone : Text.toBytes "" = [] := by simp [Text.toBytes]
        rw [hempty, hnone]
        exact writes_nil body
      next => exact writes_literal _ body
  | .action _ pipe, depth, loops, store, ty, path, v, program, hstand, h => by
      obtain ⟨s, r, hs, hres, hne, rfl⟩ := compileNode_action.mp h
      obtain ⟨v', hv', heval⟩ := eval_of_resolve? target hw hstand hs hres hne
      refine ⟨target.encode v', by rw [substitute, hv']; rfl, fun body => ?_⟩
      have hfragment : fragmentBytes target store (.value r.value.text)
          = .ok (target.encode v') := by
        rw [fragmentBytes, show r.value.text = r.text from rfl, heval]
        rfl
      show (appendAll target store body [.value r.value.text] >>= _) = _
      rw [appendAll, List.foldlM_cons, hfragment]
      rfl
  | .branch .cond pos pipe _ body, depth, loops, store, ty, path, v, program, hstand, h => by
      obtain ⟨chain, ty', t, inner, hs, hty, htests, hinner, rfl⟩ := compileNode_cond.mp h
      obtain ⟨v', hv', hthere⟩ := hstand.along target hs hty
      obtain ⟨b, hb, hholds⟩ := holds_of_tests htests hthere.read hthere.fits
      -- both outcomes are run from the same standing
      obtain ⟨bytes, hbytes, hwrites⟩ := run_compileNodes hw body hstand hinner
      refine ⟨if b then bytes else [], ?_, writes_branch hholds hwrites writes_nil⟩
      rw [substitute, hv', Option.bind_some, hb, hbytes]
      cases b <;> rfl
  | .branchElse .cond pos pipe _ body _ elseBody, depth, loops, store, ty, path, v, program,
      hstand, h => by
      obtain ⟨chain, ty', t, inner, other, hs, hty, htests, hinner, hother, rfl⟩ :=
        compileNode_condElse.mp h
      obtain ⟨v', hv', hthere⟩ := hstand.along target hs hty
      obtain ⟨b, hb, hholds⟩ := holds_of_tests htests hthere.read hthere.fits
      obtain ⟨bytes, hbytes, hwrites⟩ := run_compileNodes hw body hstand hinner
      obtain ⟨bytes', hbytes', hwrites'⟩ := run_compileNodes hw elseBody hstand hother
      refine ⟨if b then bytes else bytes', ?_, writes_branch hholds hwrites hwrites'⟩
      rw [substitute, hv', Option.bind_some, hb, hbytes, hbytes']
      cases b <;> rfl
  | .branch .loop pos pipe _ body, depth, loops, store, ty, path, v, program, hstand, h => by
      obtain ⟨chain, ty', element, inner, hs, hty, he, hinner, rfl⟩ := compileNode_loop.mp h
      obtain ⟨v', hv', hthere⟩ := hstand.along target hs hty
      obtain ⟨items, rfl, hlimit, hfits⟩ := hthere.fits.items he
      -- the body is compiled once and run at every element
      obtain ⟨parts, hparts, hwrites⟩ := writes_loop (substituteAll target body) hthere hlimit
        fun k hk =>
          run_compileNodes hw body (hthere.inside he hk (hfits _ (List.getElem_mem hk))) hinner
      refine ⟨_, ?_, hwrites⟩
      rw [substitute, hv']
      exact congrArg (Option.map _) hparts
  | .branchElse .loop pos _ _ _ _ _, _, _, _, _, _, _, _, _, h => by simp [compileNode] at h
  | .branch .scope pos _ _ _, _, _, _, _, _, _, _, _, h => by simp [compileNode] at h
  | .branchElse .scope pos _ _ _ _ _, _, _, _, _, _, _, _, _, h => by simp [compileNode] at h
  | .group _ nodes, depth, loops, store, ty, path, v, program, hstand, h => by
      rw [compileNode] at h
      rw [substitute]
      exact run_compileNodes hw nodes hstand h
  | .jump kind pos, _, _, _, _, _, _, _, _, h => by simp [compileNode] at h
  | .invoke pos name, _, _, _, _, _, _, _, _, h => by simp [compileNode] at h

/-- The same for nodes in order. -/
theorem run_compileNodes (hw : ∀ ty ∈ types, ty.WellFormed) :
    ∀ (nodes : List Node) {depth : Nat} {loops : Loops} {store : Store} {ty : Ty} {path : Path}
      {v : Val} {program : Program}, Standing types loops depth store ty path v →
      compileNodes table depth (.place ty path) nodes = .ok program →
      ∃ bytes, substituteAll target nodes v = some bytes
        ∧ Writes target store (codeOf program) bytes
  | [], _, _, _, _, _, _, program, _, h => by
      obtain rfl : [] = program := by simpa [compileNodes] using h
      exact ⟨[], rfl, writes_nil⟩
  | node :: nodes, depth, loops, store, ty, path, v, program, hstand, h => by
      obtain ⟨first, rest, hfirst, hrest, rfl⟩ := compileNodes_cons.mp h
      obtain ⟨bytes, hbytes, hwrites⟩ := run_compileNode hw node hstand hfirst
      obtain ⟨more, hmore, hwrites'⟩ := run_compileNodes hw nodes hstand hrest
      refine ⟨bytes ++ more, by rw [substituteAll, hbytes, hmore]; rfl, fun body => ?_⟩
      rw [runAll_join, hwrites, ok_bind, hwrites', List.append_assoc]
end

end

/-! ## §7. Whole templates. -/

/-- **Compiled templates write what they say.**  For the parameters of a
function and every value that fits them, executing the operations ends without
a trap, and the document is the direct substitution of the template. -/
theorem exec_compile {table : Builtins} (target : Target table) {registry : Registry}
    (hr : registry.Built) {inputs : List String} {types : List Ty}
    (htypes : inputTypes registry inputs = .ok types) {nodes : List Node} {program : Program}
    (h : compile table (inputRecord types) nodes = .ok program) {params : List (String × Val)}
    (hfits : (Val.record params).Fits (inputRecord types)) :
    ∃ bytes, substituteAll target nodes (.record params) = some bytes
      ∧ exec target params program.ops = .ok bytes := by
  have hw := wellFormed_of_inputTypes hr htypes
  have hstand : Standing types [] 0 ⟨params, []⟩ (inputRecord types) .root (.record params) :=
    ⟨.root, by simp [Loops.Below], rfl, hfits, fun _ _ => rfl⟩
  obtain ⟨bytes, hbytes, hwrites⟩ := run_compileNodes hw nodes hstand h
  -- the program is in scope, so its text is read back as what it says
  have hscoped : Program.Scoped table types 2 [] program :=
    compileNodes_scoped hw nodes .root (by simp [Loops.Below]) h
  have hsteps : Steps table types 2 [] (instrsOf program) [] :=
    Program.Scoped.steps hw program hscoped (by simp [loopsOf])
  refine ⟨bytes, hbytes, ?_⟩
  rw [exec_ops target hsteps.spelled, hwrites, List.nil_append]

/-! ## §8. The standard functions. -/

/-- The standard function that an expression calls, and what it is called on. -/
def standardCall? (text : String) : Option (Builtin × String) :=
  Builtin.standardFunctions.findSome? fun f =>
    (enclosed? ("LibString." ++ f.name ++ "(") ")" text).map (f, String.ofList ·)

/-- What is enclosed is shorter than what encloses it. -/
theorem length_of_enclosed? {opening closing word : String} {cs : List Char}
    (h : enclosed? opening closing word = some cs) :
    word.toList.length = opening.toList.length + cs.length + closing.toList.length := by
  obtain ⟨rest, hrest, h⟩ := Option.bind_eq_some_iff.mp h
  obtain ⟨back, hback, rfl⟩ := Option.map_eq_some_iff.mp h
  have h₁ := congrArg List.length (Schema.eq_append_of_afterKeyword? hrest)
  have h₂ := congrArg List.length (Schema.eq_append_of_afterKeyword? hback)
  simp only [List.length_append, List.length_reverse] at h₁ h₂ ⊢
  omega

theorem length_of_standardCall? {text inner : String} {f : Builtin}
    (h : standardCall? text = some (f, inner)) : inner.toList.length < text.toList.length := by
  obtain ⟨g, -, hg⟩ := List.exists_of_findSome?_eq_some h
  obtain ⟨cs, hcs, heq⟩ := Option.map_eq_some_iff.mp hg
  obtain ⟨rfl, rfl⟩ := Prod.mk.inj heq
  have hlen := length_of_enclosed? hcs
  rw [String.toList_ofList]
  simp at hlen
  omega

/-- Evaluate an expression of paths and standard functions. -/
def standardEval (apply : Builtin → Val → Val) (store : Store) (text : String) :
    Except Trap Val :=
  match readPath text.toList with
  | some p => p.read store
  | none =>
      match _h : standardCall? text with
      | some (f, inner) => (standardEval apply store inner).map (apply f)
      | none => .error .stuck
termination_by text.toList.length
decreasing_by exact length_of_standardCall? _h

/-- A call is no path. -/
theorem readPath_call {name : String} (h : isIdentifier name = true) (rest : List Char) :
    readPath ("LibString".toList ++ '.' :: (name.toList ++ '(' :: rest)) = none := by
  rw [readPath, word?_append (by decide) (by simp; decide)]
  show readSteps _ ('.' :: (name.toList ++ '(' :: rest)) = none
  rw [readSteps, word?_append h (by simp; decide)]
  show readSteps _ ('(' :: rest) = none
  simp [readSteps]

/-- A call is taken apart again. -/
theorem standardCall?_spell {f : Builtin} (hf : f ∈ Builtin.standardFunctions) (text : String) :
    standardCall? (f.spell text) = some (f, text) := by
  have hfound := enclosed?_append ("LibString." ++ f.name ++ "(") ")" text.toList
  rw [String.ofList_toList] at hfound
  rw [spell_standard hf, standardCall?, Builtin.standardFunctions]
  simp only [Builtin.standardFunctions, List.mem_cons, List.not_mem_nil, or_false] at hf
  rcases hf with rfl | rfl
  · rw [List.findSome?_cons, hfound]
    simp
  · -- the first function's name does not fit
    have hnone : enclosed? ("LibString." ++ "toString" ++ "(") ")"
        ("LibString." ++ "toHexString" ++ "(" ++ text ++ ")") = none := by
      refine Option.eq_none_iff_forall_ne_some.mpr fun cs hcs => ?_
      obtain ⟨rest, hrest, -⟩ := Option.bind_eq_some_iff.mp hcs
      have hlist := Schema.eq_append_of_afterKeyword? hrest
      rw [String.append_assoc, String.toList_append] at hlist
      have hchar := congrArg (·[12]?) hlist
      rw [List.getElem?_append_left (by decide), List.getElem?_append_left (by decide)] at hchar
      exact absurd hchar (by decide)
    rw [List.findSome?_cons]
    simp only [hnone, Option.map_none, List.findSome?_cons, hfound, Option.map_some,
      String.ofList_toList]

/-- The machine of the standard functions, whatever they compute and however
values are encoded. -/
def Target.standard (encode : Val → List Text.Byte) (apply : Builtin → Val → Val) :
    Target Builtin.standard where
  encode := encode
  apply := apply
  eval := standardEval apply
  eval_path store text p h := by rw [standardEval, h]
  eval_call store text v name f hf hv := by
    have hmem := mem_standardFunctions hf
    have hname : isIdentifier f.name = true := by
      simp only [Builtin.standardFunctions, List.mem_cons, List.not_mem_nil, or_false] at hmem
      rcases hmem with rfl | rfl <;> decide
    have hpath : readPath (f.spell text).toList = none := by
      have hcall := readPath_call hname (text.toList ++ [')'])
      rw [spell_standard hmem]
      simpa using hcall
    rw [standardEval, hpath]
    dsimp only
    split
    next g inner hcall =>
      rw [standardCall?_spell hmem] at hcall
      obtain ⟨rfl, rfl⟩ := Prod.mk.inj (Option.some.inj hcall)
      rw [hv]
      rfl
    next hcall => simp [standardCall?_spell hmem] at hcall

/-- A machine that writes numbers in decimal. -/
def decimalTarget : Target Builtin.standard :=
  .standard (fun | .bytes _ bs => bs | _ => [])
    (fun _ => fun | .int _ n => .bytes "string" (Text.toBytes (toString n)) | v => v)

/-- The numbers 7 and 8, written in a loop: the document is both of them with
a comma between. -/
theorem exec_compile_numbers :
    exec decimalTarget [("obj0", .array [.int "uint256" 7, .int "uint256" 8])]
      [.statement "for (uint64 i = 0; i < obj0.length; i++) \x7b",
        .group [.value "LibString.toString(obj0[i])"],
        .statement "if (i < obj0.length - 1) \x7b",
        .group [.literal ","],
        .statement "\x7d",
        .statement "\x7d"]
      = .ok (Text.toBytes "7" ++ (Text.toBytes "," ++ Text.toBytes "8")) := by
  have htypes : inputTypes numbersRegistry ["Numbers"]
      = .ok [.sequence (.scalar "uint256")] := rfl
  obtain ⟨program, hcompile, hops⟩ : ∃ program,
      compile Builtin.standard (inputRecord [.sequence (.scalar "uint256")])
        [.branch .loop 0 ⟨8, none, [⟨8, [.field ["obj0"]]⟩]⟩ 15
          [.action 15 ⟨17, none, [⟨17, [.function "toString", .dot]⟩]⟩]] = .ok program
      ∧ program.ops = [.statement "for (uint64 i = 0; i < obj0.length; i++) \x7b",
        .group [.value "LibString.toString(obj0[i])"],
        .statement "if (i < obj0.length - 1) \x7b",
        .group [.literal ","],
        .statement "\x7d",
        .statement "\x7d"] := ⟨_, rfl, rfl⟩
  have hinteger : IsIntegerName "uint256" := ⟨32, by decide, by decide, .inl (by decide)⟩
  have harray : (Val.array [.int "uint256" 7, .int "uint256" 8]).Fits (.sequence (.scalar "uint256")) := by
    refine .sequence (by decide) fun v hv => ?_
    simp only [List.mem_cons, List.not_mem_nil, or_false] at hv
    rcases hv with rfl | rfl
    · exact .int hinteger 7
    · exact .int hinteger 8
  have hfits : (Val.record [("obj0", .array [.int "uint256" 7, .int "uint256" 8])]).Fits
      (inputRecord [.sequence (.scalar "uint256")]) := by
    refine .record (by decide) fun name ty v hty hv => ?_
    obtain ⟨-, rfl⟩ := Prod.mk.inj (List.mem_singleton.mp (Path.mem_of_lookup hty))
    obtain ⟨-, rfl⟩ := Prod.mk.inj (List.mem_singleton.mp (Path.mem_of_lookup hv))
    exact harray
  obtain ⟨bytes, hbytes, hexec⟩ :=
    exec_compile decimalTarget numbersRegistry_built htypes hcompile hfits
  rw [← hops, hexec]
  have hsaid : some ((Text.toBytes ",").intercalate
      [Text.toBytes "7" ++ [], Text.toBytes "8" ++ []] ++ []) = some bytes := hbytes
  simpa [List.intercalate] using hsaid.symm

end Stencil
