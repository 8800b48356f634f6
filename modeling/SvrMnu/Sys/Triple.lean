import SvrMnu.Sys.Effect

/-!
# Triples

`Triple P x Q E`: from a state in `P` the code `x` returns an `a` in a state of `Q a`, or raises in a state of `E`. The
rules follow the way code is put together; `Triple.of_finalState` is for code whose end does not matter.
-/

set_option autoImplicit false

namespace Sys

universe u

variable {ε σ α β : Type u}

/-- From `P`, the code returns into `Q` or raises into `E`. -/
def Triple (P : σ → Prop) (x : EStateM ε σ α) (Q : α → σ → Prop) (E : σ → Prop) : Prop :=
  ∀ s, P s → (∀ a s', x s = .ok a s' → Q a s') ∧ (∀ e s', x s = .error e s' → E s')

variable {P P' : σ → Prop} {x : EStateM ε σ α} {Q Q' : α → σ → Prop} {E E' : σ → Prop}

theorem Triple.ok (h : Triple P x Q E) {s s' : σ} {a : α} (hs : P s) (hx : x s = .ok a s') : Q a s' :=
  (h s hs).1 a s' hx

theorem Triple.error (h : Triple P x Q E) {s s' : σ} {e : ε} (hs : P s) (hx : x s = .error e s') : E s' :=
  (h s hs).2 e s' hx

theorem Triple.conseq (h : Triple P x Q E) (hP : ∀ s, P' s → P s) (hQ : ∀ a s, Q a s → Q' a s)
    (hE : ∀ s, E s → E' s) : Triple P' x Q' E' := by
  intro s hs
  obtain ⟨hok, herr⟩ := h s (hP s hs)
  exact ⟨fun a s' hx => hQ a s' (hok a s' hx), fun e s' hx => hE s' (herr e s' hx)⟩

theorem Triple.pure (a : α) (h : ∀ s, P s → Q a s) : Triple P (Pure.pure a : EStateM ε σ α) Q E := by
  intro s hs
  refine ⟨fun b s' hx => ?_, fun e s' hx => by cases hx⟩
  cases hx
  exact h s hs

theorem Triple.modify {f : σ → σ} {Q : PUnit → σ → Prop} (h : ∀ s, P s → Q ⟨⟩ (f s)) :
    Triple P (modify f : EStateM ε σ PUnit) Q E := by
  intro s hs
  refine ⟨fun b s' hx => ?_, fun e s' hx => by cases hx⟩
  cases hx
  exact h s hs

/-- A sequence, through what holds in the middle. -/
theorem Triple.bind {f : α → EStateM ε σ β} {M : α → σ → Prop} {Q : β → σ → Prop} (hx : Triple P x M E)
    (hf : ∀ a, Triple (M a) (f a) Q E) : Triple P (x >>= f) Q E := by
  intro s hs
  cases h : x s with
  | ok a s₁ =>
    rw [bind_ok h]
    exact hf a s₁ (hx.ok hs h)
  | error e s₁ =>
    rw [bind_error h]
    refine ⟨fun b s' hb => ?_, fun e' s' hb => ?_⟩
    · cases hb
    · cases hb
      exact hx.error hs h

/-- A property of the state that the code leaves, however it ends. -/
theorem Triple.of_finalState {R : σ → Prop} (h : ∀ s, P s → R (finalState x s)) : Triple P x (fun _ => R) R := by
  intro s hs
  have hr := h s hs
  refine ⟨fun a s' hx => ?_, fun e s' hx => ?_⟩
  · rwa [finalState_ok hx] at hr
  · rwa [finalState_error hx] at hr

end Sys
