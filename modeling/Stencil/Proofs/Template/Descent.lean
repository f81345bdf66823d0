/-
  Stencil.Proofs.Template.Descent
  ───────────────────────────────
  READING A TEMPLATE TOKEN BY TOKEN.

  A template can be read by descent: one procedure reads a list, and for each
  block in it one reads the block, which reads lists again.  Every procedure
  takes the tokens that are left and gives back those it leaves.  Each of them
  has to leave the tokens where the next one takes them up, and guards against
  being called where it must not be: behind the end, on a token that belongs
  inside an action, or on an action that does not close.

  The guards are results of their own here.  So it can be said that none of
  them is ever met, and what follows an action is a matter of proof: `Behind`
  is what stands behind the first closing delimiter, and no procedure that
  reads an action leaves anything else.

    • `scanAction`, `scanFrom` — characters into tokens, operand by operand,
    • `readClause` — one action, up to its closing delimiter,
    • `readClause_behind` — what it leaves,
    • `readList`, `readBranch`, `readTree` — lists, blocks and templates.
-/
import Stencil.Proofs.Template.WellFormed

namespace Stencil.Template

open Text (isBlank width)
open Outcome

/-! ## §1. Guards. -/

/-- What a reader guards against. -/
inductive Guard where
  /-- A token of actions stands in a list. -/
  | outsideAction (token : Token) (pos : Nat)
  /-- Nothing follows the opening delimiter at `start`. -/
  | nothingOpened (start : Nat)
  /-- The template ends in a pipeline of the action at `start`. -/
  | endInPipeline (start : Nat)
  /-- An operand is read where no character is left. -/
  | noOperand (pos : Nat)
  /-- A token is taken from behind the end. -/
  | behindEnd

/-- Why a reader stops. -/
inductive Halt where
  /-- The template is at fault. -/
  | fault (e : Error)
  /-- A guard is met. -/
  | guard (g : Guard)

/-- A computation that meets no guard. -/
def unguarded {α : Type} (x : Except Error α) : Except Halt α :=
  x.mapError .fault

section
variable {α β : Type}

@[simp] theorem unguarded_ok (a : α) : unguarded (.ok a) = .ok a := rfl

theorem unguarded_map (f : α → β) (x : Except Error α) :
    unguarded (x.map f) = (unguarded x).map f :=
  mapError_map _ f x

theorem unguarded_bind (x : Except Error α) (f : α → Except Error β) :
    unguarded (x >>= f) = unguarded x >>= fun a => unguarded (f a) :=
  mapError_bind _ x f

end

/-! ## §2. Characters into tokens. -/

/-- The operand that stands here, and how many of the characters behind its
first one belong to it. -/
def operandAt (pos : Nat) : List Char → Except Halt (Token × Nat)
  | [] => .error (.guard (.noOperand pos))
  | c :: cs =>
      match operand c cs with
      | .ok found => .ok found
      | .error fault => .error (.fault (.malformed fault pos))

/-- The tokens of an action up to its closing delimiter, operand by operand. -/
def scanAction (start pos : Nat) (cs : List Char) : Except Halt ActionTokens :=
  let blanks := cs.takeWhile isBlank
  let here := pos + width blanks
  let rest := cs.drop blanks.length
  match closing? (!blanks.isEmpty) rest with
  | some (trim, n) => .ok ⟨[⟨here, .rightDelim⟩], trim, blanks.length + n⟩
  | none =>
      if _h : rest = [] then .error (.fault (.malformed .unclosedAction start))
      else
        match operandAt here rest with
        | .error halt => .error halt
        | .ok (token, n) =>
            (scanAction start (here + width (rest.take (n + 1))) (rest.drop (n + 1))).map
              fun more =>
                { more with
                  tokens := ⟨here, token⟩ :: more.tokens
                  count := blanks.length + 1 + n + more.count }
termination_by cs.length
decreasing_by
  have hlt : (cs.takeWhile isBlank).length < cs.length := by
    simpa [rest, blanks] using _h
  simp only [List.length_drop]
  omega

/-- A comment or an action, operand by operand. -/
def scanOpened (start pos : Nat) (cs : List Char) : Except Halt ActionTokens :=
  let blanks := cs.takeWhile isBlank
  let rest := cs.drop blanks.length
  if ['/', '*'].isPrefixOf rest then
    (unguarded (comment start rest)).map fun found =>
      { found with count := blanks.length + found.count }
  else
    (scanAction start (pos + width blanks) rest).map fun found =>
      { found with
        tokens := ⟨start, .leftDelim⟩ :: found.tokens
        count := blanks.length + found.count }

/-- The tokens of what is left of a template. -/
def scanFrom (pos : Nat) (trim : Bool) (cs : List Char) : Except Halt (List PlacedToken) :=
  match _h : findPair '\x7b' '\x7b' cs with
  | none => .ok (textTokens pos trim false cs ++ [⟨pos + width cs, .eof⟩])
  | some n => do
      let opens := opensAt cs n
      let found ← scanOpened (pos + width (cs.take n)) (pos + width (cs.take opens.2))
        (cs.drop opens.2)
      let used := opens.2 + found.count
      let more ← scanFrom (pos + width (cs.take used)) found.trim (cs.drop used)
      return textTokens pos trim opens.1 (cs.take n) ++ found.tokens ++ more
termination_by cs.length
decreasing_by exact length_drop_opensAt_lt _h found.count

/-! ## §3. One action. -/

section
variable (start finish : Nat)

/-- The commands from here on, and the closing delimiter.  The current one
starts at `pos` and has the operands `args` so far; `piped` says whether a bar
came before it. -/
def readCommands (form : ActionForm) (piped : Bool) (pos : Nat) (args : List Arg) :
    List PlacedToken → Except Halt (List Command × List PlacedToken)
  | [] => .error (.guard .behindEnd)
  | t :: rest =>
      match t.token.arg? with
      | some arg => readCommands form piped pos (args ++ [arg]) rest
      | none =>
          match t.token with
          | .rightDelim =>
              if !args.isEmpty then .ok ([⟨pos, args⟩], rest)
              else if piped then .error (.fault (.malformed .missingAfter pos))
              else .error (.fault (.malformed (.missingValue form) start))
          | .pipe =>
              if args.isEmpty then .error (.fault (.malformed .missingBefore t.pos))
              else
                (readCommands form true (nextPos finish rest) [] rest).map
                  fun (more, after) => (⟨pos, args⟩ :: more, after)
          | .leftParen | .rightParen => .error (.fault (.unsupported .parentheses t.pos))
          | .eof => .error (.guard (.endInPipeline start))
          | token => .error (.fault (.malformed (.unexpectedToken token form) t.pos))

/-- A pipeline and the closing delimiter. -/
def readPipeline (form : ActionForm) (ts : List PlacedToken) :
    Except Halt (Pipeline × List PlacedToken) :=
  let (declared, rest) := declaration ts
  (readCommands start finish form false (nextPos finish rest) [] rest).map
    fun (commands, after) => (⟨nextPos finish ts, declared, commands⟩, after)

/-- The closing delimiter of an action that holds nothing more. -/
def expectClose (form : ActionForm) (clause : Clause) :
    List PlacedToken → Except Halt (Clause × List PlacedToken)
  | [] => .error (.guard .behindEnd)
  | t :: rest =>
      match t.token with
      | .rightDelim => .ok (clause, rest)
      | token => .error (.fault (.malformed (.unexpectedToken token form) t.pos))

/-- What follows the word `else`. -/
def readOtherwise : List PlacedToken → Except Halt (Clause × List PlacedToken)
  | ⟨_, .keyword .ifWord⟩ :: rest =>
      (readPipeline start finish .otherwiseIf rest).map
        fun (pipe, after) => (.otherwiseIf pipe, after)
  | ts => expectClose .otherwise .otherwise ts

/-- What follows the word `template`. -/
def readInvoke : List PlacedToken → Except Halt (Clause × List PlacedToken)
  | [] => .error (.guard .behindEnd)
  | ⟨_, .str name⟩ :: ⟨_, .rightDelim⟩ :: rest => .ok (.invoke name, rest)
  | ⟨_, .str name⟩ :: rest =>
      (readPipeline start finish .invoke rest).map fun (_, after) => (.invoke name, after)
  | t :: _ => .error (.fault (.malformed .unquotedName t.pos))

/-- What follows a keyword. -/
def readKeyword (k : Keyword) (ts : List PlacedToken) :
    Except Halt (Clause × List PlacedToken) :=
  match k with
  | .ifWord => block .cond
  | .rangeWord => block .loop
  | .withWord => block .scope
  | .elseWord => readOtherwise start finish ts
  | .endWord => expectClose .close .closing ts
  | .breakWord => expectClose (.jump .leave) (.jump .leave) ts
  | .continueWord => expectClose (.jump .next) (.jump .next) ts
  | .templateWord => readInvoke start finish ts
  | .defineWord => .error (.fault (.unsupported .define start))
  | .blockWord => .error (.fault (.unsupported .block start))
where
  block (kind : BranchKind) : Except Halt (Clause × List PlacedToken) :=
    (readPipeline start finish (.branch kind) ts).map
      fun (pipe, after) => (.opening kind pipe, after)

/-- What follows the opening delimiter at `start`, up to and with the closing
one. -/
def readClause : List PlacedToken → Except Halt (Clause × List PlacedToken)
  | [] => .error (.guard (.nothingOpened start))
  | ⟨_, .keyword k⟩ :: rest => readKeyword start finish k rest
  | ts => (readPipeline start finish .command ts).map fun (pipe, after) => (.value pipe, after)

end

/-! ## §4. What an action leaves. -/

/-- `after` is what stands behind the first closing delimiter of `ts`. -/
def Behind (ts after : List PlacedToken) : Prop :=
  ∃ inner close, ts = inner ++ close :: after ∧ close.token = .rightDelim
    ∧ ∀ t ∈ inner, t.token ≠ .rightDelim

namespace Behind

variable {t : PlacedToken} {ts after : List PlacedToken}

theorem here (ht : t.token = .rightDelim) (after : List PlacedToken) : Behind (t :: after) after :=
  ⟨[], t, rfl, ht, List.forall_mem_nil _⟩

theorem cons (ht : t.token ≠ .rightDelim) (h : Behind ts after) : Behind (t :: ts) after := by
  obtain ⟨inner, close, rfl, hclose, hinner⟩ := h
  exact ⟨t :: inner, close, rfl, hclose, List.forall_mem_cons.mpr ⟨ht, hinner⟩⟩

theorem length_lt (h : Behind ts after) : after.length < ts.length := by
  obtain ⟨inner, close, rfl, -⟩ := h
  simp only [List.length_append, List.length_cons]
  omega

theorem of_declaration (h : Behind (declaration ts).2 after) : Behind ts after := by
  unfold declaration at h
  split at h
  next => exact (h.cons (by simp)).cons (by simp)
  next => exact (h.cons (by simp)).cons (by simp)
  next => exact h

end Behind

section
variable {start finish : Nat} {form : ActionForm} {ts after : List PlacedToken}

theorem readCommands_behind {piped : Bool} {pos : Nat} {args : List Arg} {commands : List Command}
    (h : readCommands start finish form piped pos args ts = .ok (commands, after)) :
    Behind ts after := by
  fun_induction readCommands start finish form piped pos args ts generalizing commands
  case case2 t rest arg harg ih =>
    refine (ih h).cons ?_
    intro ht
    simp [ht, Token.arg?] at harg
  case case3 ht _ =>
    cases h
    exact .here ht _
  case case7 t rest _ ht _ ih =>
    obtain ⟨⟨more, _⟩, hmore, heq⟩ := map_eq_ok.mp h
    cases heq
    exact (ih hmore).cons (by simp [ht])
  -- every other branch fails
  all_goals cases h

theorem readPipeline_behind {pipe : Pipeline}
    (h : readPipeline start finish form ts = .ok (pipe, after)) : Behind ts after := by
  obtain ⟨⟨commands, _⟩, hcommands, heq⟩ := map_eq_ok.mp h
  cases heq
  exact (readCommands_behind hcommands).of_declaration

/-- A pipeline leaves the same whatever clause is made of it. -/
theorem map_readPipeline_behind {f : Pipeline × List PlacedToken → Clause × List PlacedToken}
    {clause : Clause} (hf : ∀ found, (f found).2 = found.2)
    (h : (readPipeline start finish form ts).map f = .ok (clause, after)) : Behind ts after := by
  obtain ⟨⟨pipe, rest⟩, hpipe, heq⟩ := map_eq_ok.mp h
  obtain rfl : rest = after := (hf (pipe, rest)).symm.trans (congrArg Prod.snd heq)
  exact readPipeline_behind hpipe

theorem expectClose_behind {expected clause : Clause}
    (h : expectClose form expected ts = .ok (clause, after)) : Behind ts after := by
  unfold expectClose at h
  split at h
  next => cases h
  next t rest =>
    split at h
    next ht =>
      cases h
      exact .here ht _
    next => cases h

theorem readOtherwise_behind {clause : Clause}
    (h : readOtherwise start finish ts = .ok (clause, after)) : Behind ts after := by
  unfold readOtherwise at h
  split at h
  next => exact (map_readPipeline_behind (fun _ => rfl) h).cons (by simp)
  next => exact expectClose_behind h

theorem readInvoke_behind {clause : Clause}
    (h : readInvoke start finish ts = .ok (clause, after)) : Behind ts after := by
  unfold readInvoke at h
  split at h
  next => nomatch h
  next =>
    cases h
    exact (Behind.here rfl after).cons (by simp)
  next => exact (map_readPipeline_behind (fun _ => rfl) h).cons (by simp)
  next => nomatch h

theorem readKeyword_behind {k : Keyword} {clause : Clause}
    (h : readKeyword start finish k ts = .ok (clause, after)) : Behind ts after := by
  cases k with
  | ifWord | rangeWord | withWord => exact map_readPipeline_behind (fun _ => rfl) h
  | elseWord => exact readOtherwise_behind h
  | endWord | breakWord | continueWord => exact expectClose_behind h
  | templateWord => exact readInvoke_behind h
  | defineWord | blockWord => nomatch h

/-- **A reader of an action stands behind its closing delimiter.** -/
theorem readClause_behind {clause : Clause}
    (h : readClause start finish ts = .ok (clause, after)) : Behind ts after := by
  unfold readClause at h
  split at h
  next => nomatch h
  next => exact (readKeyword_behind h).cons (by simp)
  next => exact map_readPipeline_behind (fun _ => rfl) h

end

/-! ## §5. Lists and blocks. -/

/-- What stops a list. -/
inductive Terminator where
  /-- The end of the template. -/
  | eof
  /-- The end of a block, in an action at `pos`. -/
  | closing (pos : Nat)
  /-- The other part of a block. -/
  | otherwise (pos : Nat)
  /-- The other part of a block, under a condition of its own. -/
  | otherwiseIf (pos : Nat) (pipe : Pipeline)

/-- What an action is to the list it stands in. -/
inductive Step where
  /-- A node. -/
  | leaf (node : Node)
  /-- The opening of a block. -/
  | block (kind : BranchKind) (pipe : Pipeline)
  /-- What stops the list. -/
  | stop (terminator : Terminator)

/-- What the clause at `pos` is to the list it stands in. -/
def Clause.step (pos : Nat) : Clause → Step
  | text content => .leaf (.text pos content)
  | value pipe => .leaf (.action pos pipe)
  | jump kind => .leaf (.jump kind pos)
  | invoke name => .leaf (.invoke pos name)
  | opening kind pipe => .block kind pipe
  | closing => .stop (.closing pos)
  | otherwise => .stop (.otherwise pos)
  | otherwiseIf pipe => .stop (.otherwiseIf pos pipe)

/-- What is read from some tokens, and those it leaves, which are fewer. -/
structure Reading (α : Type) (ts : List PlacedToken) where
  /-- What is read. -/
  value : α
  /-- The tokens that are left. -/
  rest : List PlacedToken
  /-- They are fewer. -/
  shorter : rest.length < ts.length

/-- The same reading of more tokens. -/
def Reading.widen {α : Type} {ts us : List PlacedToken} (r : Reading α ts)
    (h : ts.length ≤ us.length) : Reading α us :=
  ⟨r.value, r.rest, Nat.lt_of_lt_of_le r.shorter h⟩

/-- One action, and the tokens behind it. -/
def readAction (start finish : Nat) (ts : List PlacedToken) : Except Halt (Reading Clause ts) :=
  match h : readClause start finish ts with
  | .ok (clause, after) => .ok ⟨clause, after, (readClause_behind h).length_lt⟩
  | .error halt => .error halt

mutual
/-- A list from here on, behind the nodes read so far, and what stops it. -/
def readList (finish : Nat) (nodes : List Node) (ts : List PlacedToken) :
    Except Halt (Reading (List Node × Terminator) ts) :=
  match ts with
  | [] => .error (.guard .behindEnd)
  | ⟨_, .eof⟩ :: rest => .ok ⟨(nodes, .eof), rest, Nat.lt_succ_self _⟩
  | ⟨pos, .text content⟩ :: rest =>
      (readList finish (nodes ++ [.text pos content]) rest).map (·.widen (Nat.le_succ _))
  | ⟨pos, .leftDelim⟩ :: rest => do
      let action ← readAction pos finish rest
      have haction := action.shorter
      match action.value.step pos with
      | .leaf node =>
          (readList finish (nodes ++ [node]) action.rest).map
            (·.widen (haction.le.trans (Nat.le_succ _)))
      | .block kind pipe => do
          let block ← readBranch finish kind pos pipe action.rest
          have hblock := block.shorter
          (readList finish (nodes ++ [block.value]) block.rest).map
            (·.widen ((hblock.trans haction).le.trans (Nat.le_succ _)))
      | .stop terminator =>
          .ok ⟨(nodes, terminator), action.rest, haction.trans (Nat.lt_succ_self _)⟩
  | ⟨pos, token⟩ :: _ => .error (.guard (.outsideAction token pos))
termination_by (ts.length, 0)
decreasing_by
  all_goals simp_wf
  all_goals omega

/-- The block whose opening action stood at `pos`, up to its end. -/
def readBranch (finish : Nat) (kind : BranchKind) (pos : Nat) (pipe : Pipeline)
    (ts : List PlacedToken) : Except Halt (Reading Node ts) := do
  let body ← readList finish [] ts
  have hbody := body.shorter
  match body.value.2 with
  | .closing _ =>
      return ⟨.branch kind pos pipe (nextPos finish ts) body.value.1, body.rest, hbody⟩
  | .eof => throw (.fault (.malformed (.missingEnd kind) pos))
  | .otherwise _ => do
      let other ← readList finish [] body.rest
      match other.value.2 with
      | .closing _ =>
          return ⟨.branchElse kind pos pipe (nextPos finish ts) body.value.1
            (nextPos finish body.rest) other.value.1, other.rest, other.shorter.trans hbody⟩
      | .eof => throw (.fault (.malformed (.missingEnd kind) pos))
      | .otherwise at_ | .otherwiseIf at_ _ => throw (.fault (.malformed .secondElse at_))
  | .otherwiseIf at_ inner =>
      if kind = .cond then do
        let other ← readBranch finish .cond at_ inner body.rest
        return ⟨.branchElse kind pos pipe (nextPos finish ts) body.value.1 at_ [other.value],
          other.rest, other.shorter.trans hbody⟩
      else throw (.fault (.malformed (.elseIfInside kind) at_))
termination_by (ts.length, 1)
decreasing_by
  all_goals omega
end

/-- The tree of a template's tokens. -/
def readTree (finish : Nat) (ts : List PlacedToken) : Except Halt Block := do
  let list ← readList finish [] ts
  match list.value.2 with
  | .eof => return ⟨nextPos finish ts, list.value.1⟩
  | .closing pos => throw (.fault (.malformed .strayEnd pos))
  | .otherwise pos | .otherwiseIf pos _ => throw (.fault (.malformed .strayElse pos))

/-- The tree of a template. -/
def read (source : String) : Except Halt Block := do
  readTree source.utf8ByteSize (← scanFrom 0 false source.toList)

end Stencil.Template
