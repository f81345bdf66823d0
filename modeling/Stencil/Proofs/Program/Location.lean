/-
  Stencil.Proofs.Program.Location
  ───────────────────────────────
  EVERY ERROR OF A TEMPLATE POINTS AT A REAL PLACE IN ITS SOURCE.

  Compiling computes no offsets; its errors stand where the tree says that
  its nodes, pipelines and commands stand.  The tree has its offsets from the
  tokens, and these stand between characters of the source.

    • `compileNodes_located` — the errors of compiling stand at offsets of
      the tree,
    • `onBoundary_of_between` — an offset between characters is on a boundary
      of the encoded text,
    • `errors_located` — from the source to the error.

  The whole of Mathlib is imported for `cbv`, which evaluates the example at
  the end with equations that are spread over it.
-/
import Mathlib
import Stencil.Proofs.Template.Positions

namespace Stencil

open Schema (Ty)
open Template
open Outcome

/-! ## §1. Compiling. -/

/-- The offset that is reported is the error's own. -/
theorem Error.pos?_diagnostic (e : Error) : e.diagnostic.pos? = e.offset? := by
  cases e <;> rfl

section
variable {P : Nat → Prop}

/-- A computation all of whose errors stand at one offset. -/
theorem located_at {α : Type} {x : Except Error α} {pos : Nat} (hpos : P pos)
    (h : ∀ e, x = .error e → e.offset? = some pos) : Located P (fun _ => True) x := by
  cases x with
  | ok a => trivial
  | error e => exact ⟨pos, h e rfl, hpos⟩

theorem ofPipeline_located {table : Builtins} {current : Ref} {pipe : Pipeline}
    (h : ∀ p ∈ pipe.offsets, P p) :
    Located P (fun _ => True) (current.ofPipeline table pipe) := by
  cases hx : current.ofPipeline table pipe with
  | ok r => trivial
  | error e =>
    obtain ⟨p, hp, he⟩ := Ref.offset_of_ofPipeline hx
    exact ⟨p, he, h p hp⟩

mutual
/-- **The errors of a node stand at one of its offsets.** -/
theorem compileNode_located {table : Builtins} : ∀ (node : Node) {depth : Nat} {current : Ref},
    node.Within P → Located P (fun _ => True) (compileNode table depth current node)
  | .text pos content, depth, current, _ => by
      rw [compileNode]
      trivial
  | .action pos pipe, depth, current, h => by
      obtain ⟨-, hpipe⟩ := Node.within_action.mp h
      rw [compileNode]
      refine (ofPipeline_located hpipe).bind fun r _ => ?_
      refine (located_at (hpipe pipe.pos List.mem_cons_self) fun e =>
        Ref.offset_of_checkedValue).bind fun value _ => ?_
      trivial
  | .branch .cond pos pipe bodyPos body, depth, current, h => by
      obtain ⟨hpos, hpipe, -, hbody⟩ := Node.within_branch.mp h
      rw [compileNode]
      refine (ofPipeline_located hpipe).bind fun r _ => ?_
      refine (located_at hpos fun e => Ref.offset_of_test).bind fun test _ => ?_
      refine (compileNodes_located body hbody).bind fun inner _ => ?_
      trivial
  | .branchElse .cond pos pipe bodyPos body elsePos elseBody, depth, current, h => by
      obtain ⟨hpos, hpipe, -, hbody, -, helse⟩ := Node.within_branchElse.mp h
      rw [compileNode]
      refine (ofPipeline_located hpipe).bind fun r _ => ?_
      refine (located_at hpos fun e => Ref.offset_of_test).bind fun test _ => ?_
      refine (compileNodes_located body hbody).bind fun inner _ => ?_
      refine (compileNodes_located elseBody helse).bind fun other _ => ?_
      trivial
  | .branch .loop pos pipe bodyPos body, depth, current, h => by
      obtain ⟨hpos, hpipe, -, hbody⟩ := Node.within_branch.mp h
      rw [compileNode]
      refine (ofPipeline_located hpipe).bind fun r _ => ?_
      refine (located_at hpos fun e => Ref.offset_of_source).bind ?_
      rintro ⟨path, element⟩ -
      refine (compileNodes_located body hbody).bind fun inner _ => ?_
      trivial
  | .branch .scope pos pipe bodyPos body, depth, current, h => by
      rw [compileNode]
      exact ⟨pos, rfl, (Node.within_branch.mp h).1⟩
  | .branchElse .loop pos pipe bodyPos body elsePos elseBody, depth, current, h => by
      rw [compileNode]
      exact ⟨pos, rfl, (Node.within_branchElse.mp h).1⟩
  | .branchElse .scope pos pipe bodyPos body elsePos elseBody, depth, current, h => by
      rw [compileNode]
      exact ⟨pos, rfl, (Node.within_branchElse.mp h).1⟩
  | .group pos nodes, depth, current, h => by
      rw [compileNode]
      exact compileNodes_located nodes (Node.within_group.mp h).2
  | .jump kind pos, depth, current, h => by
      rw [compileNode]
      exact ⟨pos, rfl, h pos (by simp [Node.positions])⟩
  | .invoke pos name, depth, current, h => by
      rw [compileNode]
      exact ⟨pos, rfl, h pos (by simp [Node.positions])⟩

/-- The same for nodes in order. -/
theorem compileNodes_located {table : Builtins} :
    ∀ (nodes : List Node) {depth : Nat} {current : Ref}, (∀ n ∈ nodes, n.Within P) →
      Located P (fun _ => True) (compileNodes table depth current nodes)
  | [], depth, current, _ => by
      rw [compileNodes]
      trivial
  | node :: nodes, depth, current, h => by
      obtain ⟨hnode, hnodes⟩ := List.forall_mem_cons.mp h
      rw [compileNodes]
      refine (compileNode_located node hnode).bind fun first _ => ?_
      refine (compileNodes_located nodes hnodes).bind fun rest _ => ?_
      trivial
end

end

/-! ## §2. Boundaries of the encoded text. -/

/-- The offset lies within the source, and on a boundary of its encoding. -/
def OnBoundary (source : String) (p : Nat) : Prop :=
  p ≤ source.utf8ByteSize ∧ String.Pos.Raw.IsValid source ⟨p⟩

theorem width_eq_utf8ByteSize (cs : List Char) :
    Text.width cs = (String.ofList cs).utf8ByteSize := by
  induction cs with
  | nil => rfl
  | cons c cs ih =>
    rw [String.ofList_cons, String.utf8ByteSize_append, String.utf8ByteSize_singleton,
      Text.width_cons, ih]

/-- Between characters there is a boundary. -/
theorem onBoundary_of_between {source : String} {p : Nat} (h : Between source.toList p) :
    OnBoundary source p := by
  obtain ⟨cs, front, hsource, rfl⟩ := h
  have hsplit : source = String.ofList front ++ String.ofList cs := by
    rw [← String.ofList_append, ← hsource, String.ofList_toList]
  rw [width_eq_utf8ByteSize]
  constructor
  · conv => rhs; rw [hsplit]
    rw [String.utf8ByteSize_append]
    omega
  · exact String.Pos.Raw.isValid_iff_exists_append.mpr
      ⟨String.ofList front, String.ofList cs, hsplit, rfl⟩

/-! ## §3. Whole templates. -/

/-- Cutting starts with all characters left. -/
theorem tokens_located (source : String) :
    Located (Between source.toList) (fun ts => TokensBetween source.toList ts ∧ EndsInEof ts)
      (tokens source) :=
  tokensFrom_located ⟨[], rfl, rfl⟩

/-- **Errors point at real places.**  An error of cutting a template stands
within the source, on the boundary of a character.  So does every token; and
the errors of building the tree, all offsets that the tree remembers, and the
errors of compiling it against any record with any functions are offsets of
tokens. -/
theorem errors_located (source : String) :
    (∀ e, tokens source = .error e → ∃ p, e.diagnostic.pos? = some p ∧ OnBoundary source p)
    ∧ ∀ ts, tokens source = .ok ts →
      (∀ t ∈ ts, OnBoundary source t.pos)
      ∧ (∀ e, parse source = .error e → ∃ t ∈ ts, e.diagnostic.pos? = some t.pos)
      ∧ ∀ block, parse source = .ok block →
        (∀ p ∈ block.positions, ∃ t ∈ ts, t.pos = p)
        ∧ ∀ (table : Builtins) (root : Ty) e, compile table root block.nodes = .error e →
          ∃ t ∈ ts, e.diagnostic.pos? = some t.pos := by
  have hlocated := tokens_located source
  constructor
  · intro e h
    rw [h] at hlocated
    obtain ⟨p, hp, hbetween⟩ := hlocated
    exact ⟨p, by rw [Error.pos?_diagnostic, hp], onBoundary_of_between hbetween⟩
  · intro ts hts
    rw [hts] at hlocated
    obtain ⟨hbetween, hend⟩ := hlocated
    have hparse : parse source = Block.ofTokens ts := by
      unfold parse
      rw [hts, ok_bind]
    -- from here on all offsets are those of tokens
    have htoken : ∀ t ∈ ts, ∃ t' ∈ ts, t'.pos = t.pos := fun t ht => ⟨t, ht, rfl⟩
    have htree := ofTokens_located (P := fun p => ∃ t ∈ ts, t.pos = p) htoken hend
    rw [← hparse] at htree
    have herror : ∀ {e : Error}, (∃ p, e.offset? = some p ∧ ∃ t ∈ ts, t.pos = p) →
        ∃ t ∈ ts, e.diagnostic.pos? = some t.pos := by
      rintro e ⟨p, hp, t, ht, rfl⟩
      exact ⟨t, ht, by rw [Error.pos?_diagnostic, hp]⟩
    refine ⟨fun t ht => onBoundary_of_between (hbetween t ht), fun e h => ?_, fun block h => ?_⟩
    · rw [h] at htree
      exact herror htree
    · rw [h] at htree
      refine ⟨htree, fun table root e hcompile => ?_⟩
      have hnodes := forall_positionsOf.mp (List.forall_mem_cons.mp htree).2
      have hcompiled := @compileNodes_located _ table block.nodes 0 (.root root) hnodes
      unfold compile at hcompile
      rw [hcompile] at hcompiled
      exact herror hcompiled

/-- Behind a letter of two bytes: an action that is never closed, an end of
nothing, and a member that the record does not have. -/
theorem errors_located_accent :
    (tokens "\u00e9\x7b\x7b" = .error (.malformed .unclosedAction 2)
      ∧ OnBoundary "\u00e9\x7b\x7b" 2)
    ∧ (parse "\u00e9\x7b\x7bend\x7d\x7d" = .error (.malformed .strayEnd 2)
      ∧ ∃ ts, tokens "\u00e9\x7b\x7bend\x7d\x7d" = .ok ts ∧ ∃ t ∈ ts, t.pos = 2)
    ∧ ∃ ts block, tokens "\u00e9\x7b\x7b.x\x7d\x7d" = .ok ts
      ∧ parse "\u00e9\x7b\x7b.x\x7d\x7d" = .ok block
      ∧ compile Builtin.standard (.record [("y", .scalar "bool")]) block.nodes
        = .error (.path "" (.noMember "x") 4)
      ∧ ∃ t ∈ ts, t.pos = 4 ∧ OnBoundary "\u00e9\x7b\x7b.x\x7d\x7d" t.pos := by
  have hcut : tokens "\u00e9\x7b\x7b" = .error (.malformed .unclosedAction 2) := by cbv
  have hend : tokens "\u00e9\x7b\x7bend\x7d\x7d" = .ok [⟨0, .text "\u00e9"⟩, ⟨2, .leftDelim⟩,
      ⟨4, .keyword .endWord⟩, ⟨7, .rightDelim⟩, ⟨9, .eof⟩] := by cbv
  have hstray : parse "\u00e9\x7b\x7bend\x7d\x7d" = .error (.malformed .strayEnd 2) := by cbv
  have hfield : tokens "\u00e9\x7b\x7b.x\x7d\x7d" = .ok [⟨0, .text "\u00e9"⟩, ⟨2, .leftDelim⟩,
      ⟨4, .field ["x"]⟩, ⟨6, .rightDelim⟩, ⟨8, .eof⟩] := by cbv
  have htree : parse "\u00e9\x7b\x7b.x\x7d\x7d" = .ok ⟨0, [.text 0 "\u00e9",
      .action 2 ⟨4, none, [⟨4, [.field ["x"]]⟩]⟩]⟩ := by cbv
  have hmember : compile Builtin.standard (.record [("y", .scalar "bool")]) [.text 0 "\u00e9",
      .action 2 ⟨4, none, [⟨4, [.field ["x"]]⟩]⟩] = .error (.path "" (.noMember "x") 4) := by cbv
  refine ⟨⟨hcut, ?_⟩, ⟨hstray, _, hend, ?_⟩, _, _, hfield, htree, hmember, ?_⟩
  · obtain ⟨p, hp, hboundary⟩ := (errors_located _).1 _ hcut
    obtain rfl : 2 = p := Option.some.inj hp
    exact hboundary
  · obtain ⟨-, herror, -⟩ := (errors_located _).2 _ hend
    obtain ⟨t, ht, hpos⟩ := herror _ hstray
    exact ⟨t, ht, (Option.some.inj hpos).symm⟩
  · obtain ⟨htokens, -, htrees⟩ := (errors_located _).2 _ hfield
    obtain ⟨t, ht, hpos⟩ := (htrees _ htree).2 _ _ _ hmember
    exact ⟨t, ht, (Option.some.inj hpos).symm, htokens t ht⟩

end Stencil
