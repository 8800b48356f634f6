import Mathlib.Order.Defs.Unbundled

/-!
# Code that changes a state and may raise

A computation in `EStateM ε σ` returns or raises, and in both cases leaves a state: what it had changed before the
exception stays changed.

- `bind_ok`, `bind_error`: a sequence is run from its first part;
- `Raises`: that a computation raises, with its rules for sequences;
- `Keeps`: a preorder between the state before and the state after, whichever way the computation ends; `Keeps.bind`
  and `Keeps.modify` prove it of code from its steps.
-/

set_option autoImplicit false

namespace Sys

universe u

variable {ε σ α β : Type u}

/-- The state after code has returned or raised. -/
def finalState (x : EStateM ε σ α) (s : σ) : σ :=
  match x s with
  | .ok _ s' => s'
  | .error _ s' => s'

/-! ## Running code -/

@[simp] theorem pure_run (a : α) (s : σ) : (pure a : EStateM ε σ α) s = .ok a s := rfl

@[simp] theorem get_run (s : σ) : (get : EStateM ε σ σ) s = .ok s s := rfl

@[simp] theorem modify_run (f : σ → σ) (s : σ) : (modify f : EStateM ε σ PUnit) s = .ok ⟨⟩ (f s) := rfl

theorem bind_ok {x : EStateM ε σ α} {f : α → EStateM ε σ β} {s s' : σ} {a : α} (h : x s = .ok a s') :
    (x >>= f) s = f a s' := by
  show EStateM.bind x f s = f a s'
  simp [EStateM.bind, h]

theorem bind_error {x : EStateM ε σ α} {f : α → EStateM ε σ β} {s s' : σ} {e : ε} (h : x s = .error e s') :
    (x >>= f) s = .error e s' := by
  show EStateM.bind x f s = .error e s'
  simp [EStateM.bind, h]

theorem finalState_ok {x : EStateM ε σ α} {s s' : σ} {a : α} (h : x s = .ok a s') : finalState x s = s' := by
  simp [finalState, h]

theorem finalState_error {x : EStateM ε σ α} {s s' : σ} {e : ε} (h : x s = .error e s') : finalState x s = s' := by
  simp [finalState, h]

/-! ## Raising -/

/-- The code raises when it is run on `s`. -/
def Raises (x : EStateM ε σ α) (s : σ) : Prop := ∃ e s', x s = .error e s'

instance (x : EStateM ε σ α) (s : σ) : Decidable (Raises x s) :=
  match h : x s with
  | .ok _ _ => isFalse fun hr => by
    obtain ⟨e, s', he⟩ := hr
    rw [h] at he
    cases he
  | .error e s' => isTrue ⟨e, s', h⟩

theorem Raises.bind_left {x : EStateM ε σ α} {f : α → EStateM ε σ β} {s : σ} (h : Raises x s) :
    Raises (x >>= f) s := by
  obtain ⟨e, s', h⟩ := h
  exact ⟨e, s', bind_error h⟩

theorem Raises.bind_right {x : EStateM ε σ α} {f : α → EStateM ε σ β} {s s' : σ} {a : α} (hx : x s = .ok a s')
    (h : Raises (f a) s') : Raises (x >>= f) s := by
  unfold Raises
  rw [bind_ok hx]
  exact h

theorem not_raises_of_ok {x : EStateM ε σ α} {s s' : σ} {a : α} (h : x s = .ok a s') : ¬ Raises x s := by
  rintro ⟨e, s'', he⟩
  rw [h] at he
  cases he

/-- A sequence raises in its first part or in its second. -/
theorem bind_raised {x : EStateM ε σ α} {f : α → EStateM ε σ β} {s s'' : σ} {e : ε}
    (h : (x >>= f) s = .error e s'') :
    x s = .error e s'' ∨ ∃ a s', x s = .ok a s' ∧ f a s' = .error e s'' := by
  cases hx : x s with
  | ok a s' =>
    rw [bind_ok hx] at h
    exact Or.inr ⟨a, s', rfl, h⟩
  | error e' s' =>
    rw [bind_error hx] at h
    obtain ⟨rfl, rfl⟩ := EStateM.Result.error.inj h
    exact Or.inl rfl

/-! ## What code leaves alone -/

/-- However the code ends, the state after it is related to the state before it. -/
def Keeps (R : σ → σ → Prop) (x : EStateM ε σ α) : Prop := ∀ s, R s (finalState x s)

variable {R : σ → σ → Prop}

theorem Keeps.ok {x : EStateM ε σ α} {s s' : σ} {a : α} (hx : Keeps R x) (h : x s = .ok a s') : R s s' := by
  rw [← finalState_ok h]
  exact hx s

theorem Keeps.error {x : EStateM ε σ α} {s s' : σ} {e : ε} (hx : Keeps R x) (h : x s = .error e s') : R s s' := by
  rw [← finalState_error h]
  exact hx s

theorem Keeps.modify {f : σ → σ} (h : ∀ s, R s (f s)) : Keeps R (modify f : EStateM ε σ PUnit) := h

theorem Keeps.pure [Std.Refl R] (a : α) : Keeps R (Pure.pure a : EStateM ε σ α) := fun s => Std.Refl.refl s

theorem Keeps.get [Std.Refl R] : Keeps R (MonadState.get : EStateM ε σ σ) := fun s => Std.Refl.refl s

theorem Keeps.throw [Std.Refl R] (e : ε) : Keeps R (MonadExcept.throw e : EStateM ε σ α) := fun s => Std.Refl.refl s

theorem Keeps.bind [IsTrans σ R] {x : EStateM ε σ α} {f : α → EStateM ε σ β} (hx : Keeps R x)
    (hf : ∀ a, Keeps R (f a)) : Keeps R (x >>= f) := by
  intro s
  cases h : x s with
  | ok a s' =>
    have hs : finalState (x >>= f) s = finalState (f a) s' := by simp only [finalState, bind_ok h]
    rw [hs]
    exact IsTrans.trans s s' _ (hx.ok h) (hf a s')
  | error e s' =>
    rw [finalState_error (bind_error h)]
    exact hx.error h

end Sys
