/-
  Stencil.Proofs.Outcome
  ──────────────────────
  Computations that may fail, taken apart.

  Every reader and every compiler step of the library is a chain of steps in
  `Except`, of which the first that fails decides.  The lemmas here say when
  such a chain succeeds and when it fails, so that no proof has to unfold it:

    • `bind_eq_ok`, `bind_eq_error` — one step and what follows it,
    • `map_eq_ok`, `bind_then_map`, `map_then_bind` — a step whose result is changed,
    • `mapError_eq_ok`, `mapError_map`, `mapError_bind` — a chain whose errors are changed,
    • `foldlM_total` — a fold succeeds if every step does, and keeps what
      every step keeps,
    • `foldlM_eq_error` — a fold fails at its first step that does,
    • `Matched.bind`, `Matched.bind_same`, `Matched.foldlM` — a chain does what
      another one does if each of its steps does.
-/
namespace Stencil.Outcome

variable {ε α β : Type}

@[simp] theorem ok_bind (a : α) (f : α → Except ε β) : (Except.ok a >>= f) = f a := rfl

@[simp] theorem error_bind (e : ε) (f : α → Except ε β) :
    ((Except.error e : Except ε α) >>= f) = .error e := rfl

@[simp] theorem pure_eq (a : α) : (pure a : Except ε α) = .ok a := rfl

@[simp] theorem throw_eq (e : ε) : (throw e : Except ε α) = .error e := rfl

/-- A chain succeeds if its first step does and the rest does after it. -/
theorem bind_eq_ok {x : Except ε α} {f : α → Except ε β} {b : β} :
    (x >>= f) = .ok b ↔ ∃ a, x = .ok a ∧ f a = .ok b := by
  cases x with
  | ok a => simp
  | error e => simp

/-- A chain fails if its first step does, or if that succeeds and the rest fails. -/
theorem bind_eq_error {x : Except ε α} {f : α → Except ε β} {e : ε} :
    (x >>= f) = .error e ↔ x = .error e ∨ ∃ a, x = .ok a ∧ f a = .error e := by
  cases x with
  | ok a => simp
  | error e => simp

theorem exists_error_iff {x : Except ε α} : (∃ e, x = .error e) ↔ ¬ ∃ a, x = .ok a := by
  cases x with
  | ok a => simp
  | error e => simp

theorem map_eq_ok {x : Except ε α} {f : α → β} {b : β} :
    x.map f = .ok b ↔ ∃ a, x = .ok a ∧ f a = b := by
  cases x with
  | ok a => simp [Except.map]
  | error e => simp [Except.map]

theorem map_eq_error {x : Except ε α} {f : α → β} {e : ε} :
    x.map f = .error e ↔ x = .error e := by
  cases x with
  | ok a => simp [Except.map]
  | error e => simp [Except.map]

theorem exists_map_eq_ok {x : Except ε α} {f : α → β} :
    (∃ b, x.map f = .ok b) ↔ ∃ a, x = .ok a := by
  cases x with
  | ok a => simp [Except.map]
  | error e => simp [Except.map]

/-- The result of a chain is changed after its last step. -/
theorem bind_then_map {γ : Type} (f : β → γ) (x : Except ε α) (g : α → Except ε β) :
    (x >>= g).map f = x >>= fun a => (g a).map f := by
  cases x with
  | ok a => rfl
  | error e => rfl

/-- A changed result is what the next step gets. -/
theorem map_then_bind {γ : Type} (f : α → β) (x : Except ε α) (g : β → Except ε γ) :
    x.map f >>= g = x >>= fun a => g (f a) := by
  cases x with
  | ok a => rfl
  | error e => rfl

/-- A change of errors leaves results as they are. -/
theorem mapError_eq_ok {ε' : Type} {f : ε → ε'} {x : Except ε α} {a : α} :
    x.mapError f = .ok a ↔ x = .ok a := by
  constructor
  · intro h
    cases x with
    | ok b =>
      cases h
      rfl
    | error e => cases h
  · intro h
    rw [h]
    rfl

theorem mapError_map {ε' : Type} (f : ε → ε') (g : α → β) (x : Except ε α) :
    (x.map g).mapError f = (x.mapError f).map g := by
  cases x with
  | ok a => rfl
  | error e => rfl

/-- The errors of a chain are changed in the step that fails. -/
theorem mapError_bind {ε' : Type} (f : ε → ε') (x : Except ε α) (g : α → Except ε β) :
    (x >>= g).mapError f = x.mapError f >>= fun a => (g a).mapError f := by
  cases x with
  | ok a => rfl
  | error e => rfl

/-- A fold whose every step succeeds from where it may stand succeeds. -/
theorem foldlM_total {f : β → α → Except ε β} {P : β → Prop} :
    ∀ {xs : List α} {b : β}, (∀ x ∈ xs, ∀ b, P b → ∃ b', f b x = .ok b' ∧ P b') →
      P b → ∃ b', xs.foldlM f b = .ok b' ∧ P b'
  | [], b, _, hb => ⟨b, rfl, hb⟩
  | x :: xs, b, hstep, hb => by
      obtain ⟨b₁, h₁, hb₁⟩ := hstep x List.mem_cons_self b hb
      rw [List.foldlM_cons, h₁, ok_bind]
      exact foldlM_total (fun y hy => hstep y (List.mem_cons_of_mem _ hy)) hb₁

/-- A fold fails at one of its steps, after all steps before it succeeded. -/
theorem foldlM_eq_error {f : β → α → Except ε β} {e : ε} :
    ∀ {xs : List α} {b : β}, xs.foldlM f b = .error e →
      ∃ front x rest b', xs = front ++ x :: rest ∧ front.foldlM f b = .ok b' ∧ f b' x = .error e
  | [], b, h => by simp at h
  | x :: xs, b, h => by
      rw [List.foldlM_cons] at h
      rcases bind_eq_error.mp h with hx | ⟨b₁, hx, h⟩
      · exact ⟨[], x, xs, b, rfl, rfl, hx⟩
      · obtain ⟨front, y, rest, b', rfl, hfront, hy⟩ := foldlM_eq_error h
        refine ⟨x :: front, y, rest, b', rfl, ?_, hy⟩
        rw [List.foldlM_cons, hx, ok_bind]
        exact hfront

/-- If the first computation succeeds then so does the second, with a result
that is related to that of the first. -/
def Matched (R : α → β → Prop) (x : Except ε α) (y : Except ε β) : Prop :=
  ∀ a, x = .ok a → ∃ b, y = .ok b ∧ R a b

namespace Matched

variable {γ δ : Type} {R : α → β → Prop} {S : γ → δ → Prop}

theorem ok {a : α} {b : β} (h : R a b) : Matched R (.ok a : Except ε α) (.ok b) := by
  rintro a' ha
  obtain rfl := Except.ok.inj ha
  exact ⟨b, rfl, h⟩

theorem error (e : ε) (y : Except ε β) : Matched R (.error e) y :=
  fun _ h => nomatch h

theorem eq_ok {x y : Except ε α} (h : Matched Eq x y) {a : α} (hx : x = .ok a) : y = .ok a := by
  obtain ⟨b, hy, rfl⟩ := h a hx
  exact hy

theorem bind {x : Except ε α} {y : Except ε β} {f : α → Except ε γ} {g : β → Except ε δ}
    (h : Matched R x y) (hrest : ∀ a b, R a b → Matched S (f a) (g b)) :
    Matched S (x >>= f) (y >>= g) := by
  intro c hc
  obtain ⟨a, hx, ha⟩ := bind_eq_ok.mp hc
  obtain ⟨b, hy, hab⟩ := h a hx
  rw [hy, ok_bind]
  exact hrest a b hab c ha

/-- After steps of equal results the rest has one result to start from. -/
theorem bind_same {x y : Except ε α} {f : α → Except ε γ} {g : α → Except ε δ}
    (h : Matched Eq x y) (hrest : ∀ a, Matched S (f a) (g a)) :
    Matched S (x >>= f) (y >>= g) := by
  refine h.bind ?_
  rintro a _ rfl
  exact hrest a

/-- Folds match if their steps do, from related states. -/
theorem foldlM {f : α → γ → Except ε α} {g : β → γ → Except ε β}
    (hstep : ∀ x a b, R a b → Matched R (f a x) (g b x)) : ∀ (xs : List γ) {a : α} {b : β},
      R a b → Matched R (xs.foldlM f a) (xs.foldlM g b)
  | [], _, _, h => ok h
  | x :: xs, a, b, h => by
      rw [List.foldlM_cons, List.foldlM_cons]
      exact (hstep x a b h).bind fun a b hab => foldlM hstep xs hab

end Matched

end Stencil.Outcome
