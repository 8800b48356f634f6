import Mathlib.Data.List.Induction

/-!
# Machines and their runs

A machine takes events one at a time; an event that cannot happen in a state has no step. `run` is the state after a
list of events and `trace` the list of its steps, each with the state it was taken from, so a history of a run is a
function of its trace.

- `run_history`: what holds of the empty trace and is kept by one more step holds of every run with its trace;
- `run_history_along`: the same for the runs whose steps all satisfy a condition;
- `run_events`, `run_events_along`: both for a history that is only about the events;
- `invariant`, `invariant_along`: both for a property of states alone;
- `Since`: something has happened, and nothing of another kind after it; `since_snoc` follows it from event to event;
- `run_simulates`, `run_realizes`: a step-for-step simulation takes the runs of one machine to runs of the other, and
  back; `run_projects`: a part of the state that every step changes by a run of another machine;
- `along_congr`: two conditions on steps that agree wherever an invariant holds agree on whole runs.
-/

set_option autoImplicit false

namespace Sys

/-- What an event does to a state, `none` where it cannot happen. -/
structure Machine (σ ε : Type*) where
  step : σ → ε → Option σ

namespace Machine

variable {σ ε : Type*} (M : Machine σ ε)

/-- The state after the events, if every one of them could happen. -/
def run : σ → List ε → Option σ
  | s, [] => some s
  | s, e :: es => (M.step s e).bind fun s' => run s' es

/-- The steps of a run, each with the state it is taken from. -/
def trace : σ → List ε → List (σ × ε)
  | _, [] => []
  | s, e :: es => (s, e) :: ((M.step s e).elim [] fun s' => trace s' es)

/-- Every step of the run satisfies `C`. -/
def Along (C : σ → ε → Prop) (s : σ) (es : List ε) : Prop := ∀ x ∈ M.trace s es, C x.1 x.2

instance (C : σ → ε → Prop) [∀ s e, Decidable (C s e)] (s : σ) (es : List ε) : Decidable (M.Along C s es) :=
  inferInstanceAs (Decidable (∀ x ∈ M.trace s es, C x.1 x.2))

variable {M}

/-! ## One more event -/

theorem run_append (es fs : List ε) (s : σ) : M.run s (es ++ fs) = (M.run s es).bind (M.run · fs) := by
  induction es generalizing s with
  | nil => rfl
  | cons e es ih =>
    simp only [List.cons_append, run]
    cases M.step s e with
    | none => rfl
    | some s' => exact ih s'

theorem run_single (e : ε) (s : σ) : M.run s [e] = M.step s e := by simp [run]

theorem run_snoc (es : List ε) (e : ε) (s : σ) : M.run s (es ++ [e]) = (M.run s es).bind (M.step · e) := by
  rw [run_append]
  congr 1
  funext s'
  exact run_single e s'

/-- A run of more than no event has a first step. -/
theorem run_cons {e : ε} {es : List ε} {s s' : σ} (h : M.run s (e :: es) = some s') :
    ∃ t, M.step s e = some t ∧ M.run t es = some s' := Option.bind_eq_some_iff.mp h

theorem trace_snoc (e : ε) {es : List ε} {s s' : σ} (h : M.run s es = some s') :
    M.trace s (es ++ [e]) = M.trace s es ++ [(s', e)] := by
  induction es generalizing s with
  | nil =>
    cases Option.some.inj h
    simp only [List.nil_append, trace]
    cases M.step s' e <;> rfl
  | cons a es ih =>
    obtain ⟨t, ha, ht⟩ := run_cons h
    simp only [List.cons_append, trace, ha, Option.elim_some]
    rw [ih ht]

/-- A run that takes every event has the events themselves in its trace. -/
theorem trace_events {es : List ε} {s s' : σ} (h : M.run s es = some s') : (M.trace s es).map Prod.snd = es := by
  induction es generalizing s with
  | nil => rfl
  | cons a es ih =>
    obtain ⟨t, ha, ht⟩ := run_cons h
    simp only [trace, List.map_cons, ha, Option.elim_some]
    rw [ih ht]

/-! ## Induction over runs -/

/-- **Induction over runs with their history.** -/
theorem run_history {I : List (σ × ε) → σ → Prop} {s₀ : σ} (h₀ : I [] s₀)
    (hstep : ∀ tr s e s', I tr s → M.step s e = some s' → I (tr ++ [(s, e)]) s') {es : List ε} :
    ∀ {s : σ}, M.run s₀ es = some s → I (M.trace s₀ es) s := by
  induction es using List.reverseRecOn with
  | nil => intro s h; cases Option.some.inj h; exact h₀
  | append_singleton es e ih =>
    intro s h
    rw [run_snoc] at h
    obtain ⟨t, ht, hs⟩ := Option.bind_eq_some_iff.mp h
    rw [trace_snoc e ht]
    exact hstep _ t e s (ih ht) hs

/-- **Induction over the runs whose steps all satisfy `C`, with their history.** -/
theorem run_history_along {I : List (σ × ε) → σ → Prop} {C : σ → ε → Prop} {s₀ s : σ} {es : List ε} (h₀ : I [] s₀)
    (hstep : ∀ tr s e s', I tr s → C s e → M.step s e = some s' → I (tr ++ [(s, e)]) s') (h : M.run s₀ es = some s)
    (hC : M.Along C s₀ es) : I (M.trace s₀ es) s := by
  refine run_history (I := fun tr s => (∀ x ∈ tr, C x.1 x.2) → I tr s) (fun _ => h₀) ?_ h hC
  intro tr s e s' hi hs hall
  refine hstep tr s e s' (hi fun x hx => hall x (List.mem_append_left _ hx)) ?_ hs
  exact hall (s, e) (List.mem_append_right _ (List.mem_singleton_self _))

/-- Induction over runs with the events that led to each state. -/
theorem run_events {I : List ε → σ → Prop} {s₀ s : σ} {es : List ε} (h₀ : I [] s₀)
    (hstep : ∀ es s e s', I es s → M.step s e = some s' → I (es ++ [e]) s') (h : M.run s₀ es = some s) : I es s := by
  have ht : I ((M.trace s₀ es).map Prod.snd) s := by
    refine run_history (I := fun tr s => I (tr.map Prod.snd) s) h₀ (fun tr s e s' hi hs => ?_) h
    rw [List.map_append]
    exact hstep _ s e s' hi hs
  rwa [trace_events h] at ht

theorem run_events_along {I : List ε → σ → Prop} {C : σ → ε → Prop} {s₀ s : σ} {es : List ε} (h₀ : I [] s₀)
    (hstep : ∀ es s e s', I es s → C s e → M.step s e = some s' → I (es ++ [e]) s') (h : M.run s₀ es = some s)
    (hC : M.Along C s₀ es) : I es s := by
  have ht : I ((M.trace s₀ es).map Prod.snd) s := by
    refine run_history_along (I := fun tr s => I (tr.map Prod.snd) s) h₀ (fun tr s e s' hi hc hs => ?_) h hC
    rw [List.map_append]
    exact hstep _ s e s' hi hc hs
  rwa [trace_events h] at ht

/-- **Invariants.** -/
theorem invariant {I : σ → Prop} {s₀ s : σ} {es : List ε} (h₀ : I s₀)
    (hstep : ∀ s e s', I s → M.step s e = some s' → I s') (h : M.run s₀ es = some s) : I s :=
  run_history (I := fun _ s => I s) h₀ (fun _ s e s' hi hs => hstep s e s' hi hs) h

/-- **Invariants of the runs whose steps all satisfy `C`.** -/
theorem invariant_along {I : σ → Prop} {C : σ → ε → Prop} {s₀ s : σ} {es : List ε} (h₀ : I s₀)
    (hstep : ∀ s e s', I s → C s e → M.step s e = some s' → I s') (h : M.run s₀ es = some s)
    (hC : M.Along C s₀ es) : I s :=
  run_history_along (I := fun _ s => I s) h₀ (fun _ s e s' hi hc hs => hstep s e s' hi hc hs) h hC

/-- Two conditions that agree under an invariant, which steps satisfying the second keep, hold along the same runs. -/
theorem along_congr {J : σ → Prop} {P Q : σ → ε → Prop} (hPQ : ∀ s e, J s → (P s e ↔ Q s e))
    (hJ : ∀ s e s', J s → Q s e → M.step s e = some s' → J s') :
    ∀ {es : List ε} {s : σ}, J s → (M.Along P s es ↔ M.Along Q s es) := by
  intro es
  induction es with
  | nil =>
    intro s _
    simp [Along, trace]
  | cons e es ih =>
    intro s hs
    simp only [Along, trace, List.mem_cons, forall_eq_or_imp]
    rw [hPQ s e hs]
    refine and_congr_right fun hq => ?_
    cases he : M.step s e with
    | none => simp
    | some t => exact ih (hJ s e t hs hq he)

/-- A condition on the events alone holds along every run of events that satisfy it. -/
theorem along_of_forall {C : ε → Prop} {es : List ε} (h : ∀ e ∈ es, C e) (s : σ) : M.Along (fun _ e => C e) s es := by
  induction es generalizing s with
  | nil => intro x hx; cases hx
  | cons e es ih =>
    obtain ⟨he, hes⟩ := List.forall_mem_cons.mp h
    intro x hx
    simp only [trace, List.mem_cons] at hx
    rcases hx with rfl | hx
    · exact he
    · cases hs : M.step s e with
      | none => rw [hs] at hx; cases hx
      | some s' => rw [hs] at hx; exact ih hes s' x hx

/-! ## Simulations -/

section Simulations

variable {τ δ : Type*} {N : Machine τ δ} {R : τ → σ → Prop} {f : ε → δ}

/-- **Forward simulation.** If the steps from related states are steps of `N`, with the events renamed, and lead to
related states, so do the runs. -/
theorem run_simulates
    (hstep : ∀ t s e s', R t s → M.step s e = some s' → ∃ t', N.step t (f e) = some t' ∧ R t' s')
    {es : List ε} {t : τ} {s s' : σ} (hR : R t s) (h : M.run s es = some s') :
    ∃ t', N.run t (es.map f) = some t' ∧ R t' s' := by
  induction es generalizing t s with
  | nil =>
    cases Option.some.inj h
    exact ⟨t, rfl, hR⟩
  | cons e es ih =>
    obtain ⟨u, he, hu⟩ := run_cons h
    obtain ⟨v, hv, hR⟩ := hstep t s e u hR he
    obtain ⟨t', ht, hR⟩ := ih hR hu
    refine ⟨t', ?_, hR⟩
    simp only [List.map_cons, run, hv, Option.bind_some]
    exact ht

/-- **Backward.** If the steps of `N` are steps of `M`, its runs are runs of `M`. -/
theorem run_realizes
    (hstep : ∀ t s d t', R t s → N.step t d = some t' → ∃ e s', f e = d ∧ M.step s e = some s' ∧ R t' s')
    {ds : List δ} {t t' : τ} {s : σ} (hR : R t s) (h : N.run t ds = some t') :
    ∃ es s', es.map f = ds ∧ M.run s es = some s' ∧ R t' s' := by
  induction ds generalizing t s with
  | nil =>
    cases Option.some.inj h
    exact ⟨[], s, rfl, rfl, hR⟩
  | cons d ds ih =>
    obtain ⟨u, hd, hu⟩ := run_cons h
    obtain ⟨e, v, rfl, he, hR⟩ := hstep t s d u hR hd
    obtain ⟨es, s', rfl, hs, hR⟩ := ih hR hu
    refine ⟨e :: es, s', rfl, ?_, hR⟩
    simp only [run, he, Option.bind_some]
    exact hs

/-- The part `g` of the state runs as `N` does. -/
theorem run_projects {g : σ → τ} (hstep : ∀ s e s', M.step s e = some s' → ∃ ds, N.run (g s) ds = some (g s'))
    {es : List ε} {s s' : σ} (h : M.run s es = some s') : ∃ ds, N.run (g s) ds = some (g s') := by
  induction es generalizing s with
  | nil =>
    cases Option.some.inj h
    exact ⟨[], rfl⟩
  | cons e es ih =>
    obtain ⟨u, he, hu⟩ := run_cons h
    obtain ⟨ds, hd⟩ := hstep s e u he
    obtain ⟨ds', hd'⟩ := ih hu
    refine ⟨ds ++ ds', ?_⟩
    rw [run_append, hd]
    exact hd'

end Simulations

end Machine

/-! ## Histories -/

section Since

variable {α : Type*} {p q : α → Prop} {l : List α}

/-- Something in `p` is in the list, with nothing in `q` after it. -/
def Since (p q : α → Prop) (l : List α) : Prop := ∃ l₁ a l₂, l = l₁ ++ a :: l₂ ∧ p a ∧ ∀ b ∈ l₂, ¬ q b

theorem since_snoc {a : α} : Since p q (l ++ [a]) ↔ p a ∨ (¬ q a ∧ Since p q l) := by
  constructor
  · rintro ⟨l₁, b, l₂, he, hp, hq⟩
    rcases List.eq_nil_or_concat l₂ with rfl | ⟨l₃, c, rfl⟩
    · obtain ⟨-, ha⟩ := List.append_inj' he rfl
      obtain rfl := List.singleton_inj.mp ha
      exact Or.inl hp
    · rw [List.concat_eq_append] at he hq
      have he : l ++ [a] = (l₁ ++ b :: l₃) ++ [c] := by rw [he, List.append_assoc, List.cons_append]
      obtain ⟨hl, ha⟩ := List.append_inj' he rfl
      obtain rfl := List.singleton_inj.mp ha
      have hqa : ¬ q a := hq a (List.mem_append_right _ (List.mem_singleton_self _))
      exact Or.inr ⟨hqa, l₁, b, l₃, hl, hp, fun c hc => hq c (List.mem_append_left _ hc)⟩
  · rintro (hp | ⟨hqa, l₁, b, l₂, rfl, hp, hq⟩)
    · exact ⟨l, a, [], rfl, hp, fun b hb => absurd hb List.not_mem_nil⟩
    · refine ⟨l₁, b, l₂ ++ [a], by rw [List.append_assoc, List.cons_append], hp, fun c hc => ?_⟩
      rcases List.mem_append.mp hc with hc | hc
      · exact hq c hc
      · cases List.mem_singleton.mp hc
        exact hqa

theorem since_cons {a : α} : Since p q (a :: l) ↔ Since p q l ∨ (p a ∧ ∀ b ∈ l, ¬ q b) := by
  constructor
  · rintro ⟨_ | ⟨c, l₁⟩, b, l₂, he, hp, hq⟩
    · obtain ⟨rfl, rfl⟩ := List.cons.inj he
      exact Or.inr ⟨hp, hq⟩
    · obtain ⟨-, rfl⟩ := List.cons.inj he
      exact Or.inl ⟨l₁, b, l₂, rfl, hp, hq⟩
  · rintro (⟨l₁, b, l₂, rfl, hp, hq⟩ | ⟨hp, hq⟩)
    · exact ⟨a :: l₁, b, l₂, rfl, hp, hq⟩
    · exact ⟨[], a, l, rfl, hp, hq⟩

theorem not_since_nil : ¬ Since p q [] := by
  rintro ⟨l₁, a, l₂, he, -⟩
  cases l₁ <;> cases he

instance decidableSince [DecidablePred p] [DecidablePred q] : (l : List α) → Decidable (Since p q l)
  | [] => isFalse not_since_nil
  | a :: l =>
    have : Decidable (Since p q l) := decidableSince l
    decidable_of_iff (Since p q l ∨ (p a ∧ ∀ b ∈ l, ¬ q b)) since_cons.symm

/-- A list that has something in `q` has a last such thing. -/
theorem exists_since (h : ∃ a ∈ l, q a) : ∃ a, q a ∧ Since (· = a) q l := by
  induction l using List.reverseRecOn with
  | nil =>
    obtain ⟨a, ha, _⟩ := h
    cases ha
  | append_singleton l b ih =>
    by_cases hb : q b
    · exact ⟨b, hb, since_snoc.mpr (Or.inl rfl)⟩
    · obtain ⟨a, ha, hqa⟩ := h
      rcases List.mem_append.mp ha with ha | ha
      · obtain ⟨c, hc, hs⟩ := ih ⟨a, ha, hqa⟩
        exact ⟨c, hc, since_snoc.mpr (Or.inr ⟨hb, hs⟩)⟩
      · cases List.mem_singleton.mp ha
        exact absurd hqa hb

theorem Since.mem {a : α} (h : Since (· = a) q l) : a ∈ l := by
  obtain ⟨l₁, b, l₂, rfl, rfl, _⟩ := h
  exact List.mem_append_right _ List.mem_cons_self

end Since

end Sys
