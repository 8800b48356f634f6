import SvrMnu.Sys.Machine
import Mathlib.Data.Fintype.Card
import Mathlib.Algebra.Group.Nat.Defs

/-!
# The barrier of the hid library

`pthread_barrier_wait` counts the threads that arrive under a mutex. The last one sets the count back and wakes the
others, which sleep on a condition variable, once, and return when they are woken; nothing tells them for which round.

- `barrier_meets`: if no thread wakes up by itself, a thread comes back from a round only when every thread has arrived
  at it, and sleeps only as long as another has not;
- `spurious_passes`: a thread that wakes up by itself comes back from a round to which not every thread has arrived.
-/

set_option autoImplicit false

namespace SvrMnu.Hid

open Sys

/-- `pthread_barrier_t`, apart from its mutex and its condition. -/
structure Barrier where
  count : Nat
  tripCount : Nat
  deriving DecidableEq

/-- `pthread_barrier_init`, which refuses a barrier for no thread. -/
def pthreadBarrierInit (count : Nat) : Option Barrier := if count = 0 then none else some ⟨0, count⟩

/-- Where a thread is in `pthread_barrier_wait`. -/
inductive Phase
  | outside
  | asleep
  /-- `pthread_cond_wait` waits for the mutex. -/
  | woken
  deriving DecidableEq

/-- A barrier with the threads that use it. -/
structure Meeting (T : Type) where
  barrier : Barrier
  phase : T → Phase
  /-- How many calls of the thread have returned. -/
  passed : T → Nat

/-- What a thread does while it has the mutex. -/
inductive Wait (T : Type)
  /-- From the call to the sleep, or to the return of the last thread. -/
  | arrive (t : T)
  /-- From the sleep to the return. -/
  | leave (t : T)
  /-- `pthread_cond_wait` may return without a broadcast. -/
  | spurious (t : T)
  deriving DecidableEq

namespace Meeting

variable {T : Type} [DecidableEq T]

/-- `pthread_cond_broadcast` -/
def broadcast (phase : T → Phase) (t : T) : Phase := if phase t = .asleep then .woken else phase t

def comeBack (passed : T → Nat) (t : T) : T → Nat := Function.update passed t (passed t + 1)

theorem comeBack_self (passed : T → Nat) (t : T) : comeBack passed t t = passed t + 1 := Function.update_self ..

theorem comeBack_of_ne (passed : T → Nat) {t u : T} (h : u ≠ t) : comeBack passed t u = passed u :=
  Function.update_of_ne h ..

omit [DecidableEq T] in
theorem broadcast_ne_asleep (phase : T → Phase) (t : T) : broadcast phase t ≠ .asleep := by
  unfold broadcast
  split
  · exact nofun
  · next h => exact h

def step (s : Meeting T) : Wait T → Option (Meeting T)
  | .arrive t =>
    if s.phase t = .outside then
      if s.barrier.count + 1 ≥ s.barrier.tripCount then
        some ⟨{ s.barrier with count := 0 }, broadcast s.phase, comeBack s.passed t⟩
      else some ⟨{ s.barrier with count := s.barrier.count + 1 }, Function.update s.phase t .asleep, s.passed⟩
    else none
  | .leave t =>
    if s.phase t = .woken then
      some { s with phase := Function.update s.phase t .outside, passed := comeBack s.passed t }
    else none
  | .spurious t =>
    if s.phase t = .asleep then some { s with phase := Function.update s.phase t .woken } else none

def machine (T : Type) [DecidableEq T] : Machine (Meeting T) (Wait T) := ⟨step⟩

def start (B : Barrier) : Meeting T := ⟨B, fun _ => .outside, fun _ => 0⟩

/-- The round that the thread is in, or the last one it was in. -/
def arrived (s : Meeting T) (t : T) : Nat := s.passed t + if s.phase t = .outside then 0 else 1

/-- What a step is to one thread: it comes back, or it has not moved but for falling asleep and being woken. -/
theorem step_thread {s s' : Meeting T} {w : Wait T} (hs : s.step w = some s') (t : T) :
    (s'.passed t = s.passed t ∧ (s.phase t = .outside → w = .arrive t ∨ s'.phase t = .outside) ∧
      (s.phase t ≠ .outside → s'.phase t ≠ .outside)) ∨
    (s'.passed t = s.passed t + 1 ∧ s'.phase t = .outside ∧ (w = .arrive t ∨ s.phase t ≠ .outside)) := by
  cases w with
  | arrive u =>
    simp only [step] at hs
    split at hs
    · next hu =>
      split at hs <;> cases Option.some.inj hs <;> by_cases htu : t = u
      · subst htu
        exact Or.inr ⟨comeBack_self .., by simp [broadcast, hu], Or.inl rfl⟩
      · refine Or.inl ⟨comeBack_of_ne _ htu, fun h => Or.inr (by simp [broadcast, h]), fun h => ?_⟩
        simp only [broadcast]
        split
        · exact nofun
        · exact h
      · subst htu
        exact Or.inl ⟨rfl, fun _ => Or.inl rfl, fun h => absurd hu h⟩
      · simp only [Function.update_of_ne htu]
        exact Or.inl ⟨trivial, fun h => Or.inr h, fun h => h⟩
    · cases hs
  | leave u =>
    simp only [step] at hs
    split at hs
    · next hu =>
      cases Option.some.inj hs
      by_cases htu : t = u
      · subst htu
        exact Or.inr ⟨comeBack_self .., Function.update_self .., Or.inr (by rw [hu]; exact nofun)⟩
      · simp only [Function.update_of_ne htu, comeBack_of_ne _ htu]
        exact Or.inl ⟨trivial, fun h => Or.inr h, fun h => h⟩
    · cases hs
  | spurious u =>
    simp only [step] at hs
    split at hs
    · next hu =>
      cases Option.some.inj hs
      by_cases htu : t = u
      · subst htu
        refine Or.inl ⟨rfl, fun h => ?_, fun _ => by simp⟩
        rw [hu] at h
        cases h
      · simp only [Function.update_of_ne htu]
        exact Or.inl ⟨trivial, fun h => Or.inr h, fun h => h⟩
    · cases hs

/-- Some thread falls asleep or comes back in every step. -/
theorem step_moves {s s' : Meeting T} {w : Wait T} (hs : s.step w = some s') (hw : ∀ t, w ≠ .spurious t) :
    ∃ t, s'.passed t = s.passed t + 1 ∨ (s.phase t = .outside ∧ s'.phase t = .asleep) := by
  cases w with
  | arrive t =>
    simp only [step] at hs
    split at hs
    · next ht =>
      split at hs <;> cases Option.some.inj hs
      · exact ⟨t, Or.inl (comeBack_self ..)⟩
      · exact ⟨t, Or.inr ⟨ht, Function.update_self ..⟩⟩
    · cases hs
  | leave t =>
    simp only [step] at hs
    split at hs
    · cases Option.some.inj hs
      exact ⟨t, Or.inl (comeBack_self ..)⟩
    · cases hs
  | spurious t => exact absurd rfl (hw t)

/-! ## Rounds -/

variable [Fintype T]

/-- The threads that sleep. -/
def sleepers (s : Meeting T) : Finset T := Finset.univ.filter fun t => s.phase t = .asleep

/-- Where a thread is in relation to the number of rounds that are over. -/
def InStep (n passed : Nat) : Phase → Prop
  | .outside | .asleep => passed = n
  | .woken => passed + 1 = n

/-- `n` rounds are over: those that sleep have arrived at the next one, and those that are woken have still to come back
from the last one. -/
structure Round (n : Nat) (s : Meeting T) : Prop where
  trip : s.barrier.tripCount = Fintype.card T
  count : s.barrier.count = s.sleepers.card
  lt : s.sleepers.card < Fintype.card T
  inStep : ∀ t, InStep n (s.passed t) (s.phase t)

variable {s s' : Meeting T} {n : Nat}

omit [DecidableEq T] in
theorem round_start {B : Barrier} (h : pthreadBarrierInit (Fintype.card T) = some B) :
    Round 0 (start B : Meeting T) := by
  unfold pthreadBarrierInit at h
  split at h
  · cases h
  · next hn =>
    cases Option.some.inj h
    have hs : (start ⟨0, Fintype.card T⟩ : Meeting T).sleepers = ∅ :=
      Finset.filter_eq_empty_iff.mpr fun t _ => by simp [start]
    refine ⟨rfl, by rw [hs]; rfl, ?_, fun t => rfl⟩
    rw [hs]
    exact Nat.pos_of_ne_zero hn

/-- The last thread to arrive finds all others asleep. -/
theorem Round.last (h : Round n s) {t : T} (ht : s.phase t = .outside)
    (hc : s.barrier.count + 1 ≥ s.barrier.tripCount) : ∀ u, u ≠ t → s.phase u = .asleep := by
  have hsub : s.sleepers ⊆ Finset.univ.erase t := by
    intro u hu
    refine Finset.mem_erase.mpr ⟨?_, Finset.mem_univ u⟩
    rintro rfl
    have hu := (Finset.mem_filter.mp hu).2
    rw [ht] at hu
    cases hu
  have hcard : (Finset.univ.erase t).card ≤ s.sleepers.card := by
    rw [Finset.card_erase_of_mem (Finset.mem_univ t), Finset.card_univ, ← h.count, ← h.trip]
    omega
  intro u hu
  have hmem : u ∈ s.sleepers := by
    rw [Finset.eq_of_subset_of_card_le hsub hcard]
    exact Finset.mem_erase.mpr ⟨hu, Finset.mem_univ u⟩
  exact (Finset.mem_filter.mp hmem).2

/-- The last thread ends the round. -/
theorem Round.trips (h : Round n s) {t : T} (ht : s.phase t = .outside)
    (hc : s.barrier.count + 1 ≥ s.barrier.tripCount) :
    Round (n + 1) ⟨{ s.barrier with count := 0 }, broadcast s.phase, comeBack s.passed t⟩ := by
  have hs : sleepers ⟨{ s.barrier with count := 0 }, broadcast s.phase, comeBack s.passed t⟩ = ∅ :=
    Finset.filter_eq_empty_iff.mpr fun u _ => broadcast_ne_asleep s.phase u
  refine ⟨h.trip, by rw [hs]; rfl, ?_, fun u => ?_⟩
  · rw [hs]
    exact lt_of_le_of_lt (Nat.zero_le _) h.lt
  · have hu := h.inStep u
    by_cases hut : u = t
    · subst hut
      rw [ht] at hu
      simp only [broadcast, ht, comeBack_self, reduceCtorEq, if_false]
      exact congrArg (· + 1) hu
    · rw [h.last ht hc u hut] at hu
      simp only [broadcast, h.last ht hc u hut, comeBack_of_ne _ hut, if_true]
      exact congrArg (· + 1) hu

theorem round_step (h : Round n s) {w : Wait T} (hw : ∀ t, w ≠ .spurious t)
    (hs : (machine T).step s w = some s') : Round n s' ∨ Round (n + 1) s' := by
  cases w with
  | arrive t =>
    simp only [machine, step] at hs
    split at hs
    · next ht =>
      split at hs
      · next hc =>
        cases Option.some.inj hs
        exact Or.inr (h.trips ht hc)
      · next hc =>
        cases Option.some.inj hs
        -- one more thread sleeps
        have ht' : t ∉ s.sleepers := fun hm => by
          have hm := (Finset.mem_filter.mp hm).2
          rw [ht] at hm
          cases hm
        have hsleep : sleepers ⟨{ s.barrier with count := s.barrier.count + 1 }, Function.update s.phase t .asleep,
            s.passed⟩ = insert t s.sleepers := by
          ext u
          by_cases hut : u = t
          · subst hut
            simp [sleepers]
          · simp [sleepers, hut]
        refine Or.inl ⟨h.trip, ?_, ?_, fun u => ?_⟩
        · rw [hsleep, Finset.card_insert_of_notMem ht', ← h.count]
        · rw [hsleep, Finset.card_insert_of_notMem ht', ← h.count, ← h.trip]
          omega
        · have hu := h.inStep u
          by_cases hut : u = t
          · subst hut
            rw [ht] at hu
            simp only [Function.update_self]
            exact hu
          · simp only [Function.update_of_ne hut]
            exact hu
    · cases hs
  | leave t =>
    simp only [machine, step] at hs
    split at hs
    · next ht =>
      cases Option.some.inj hs
      have hsleep : sleepers { s with phase := Function.update s.phase t .outside, passed := comeBack s.passed t } =
          s.sleepers := by
        ext u
        by_cases hut : u = t
        · subst hut
          simp [sleepers, ht]
        · simp [sleepers, Function.update_of_ne hut]
      refine Or.inl ⟨h.trip, by rw [hsleep]; exact h.count, by rw [hsleep]; exact h.lt, fun u => ?_⟩
      have hu := h.inStep u
      by_cases hut : u = t
      · subst hut
        rw [ht] at hu
        simp only [Function.update_self, comeBack_self]
        exact hu
      · simp only [Function.update_of_ne hut, comeBack_of_ne _ hut]
        exact hu
    · cases hs
  | spurious t => exact absurd rfl (hw t)

theorem round_run {B : Barrier} (hB : pthreadBarrierInit (Fintype.card T) = some B) {ws : List (Wait T)}
    (hw : ∀ t, .spurious t ∉ ws) (h : (machine T).run (start B) ws = some s) : ∃ n, Round n s := by
  refine Machine.invariant_along (I := fun s => ∃ n, Round n s) (C := fun _ w => ∀ t, w ≠ Wait.spurious t)
    ⟨0, round_start hB⟩ ?_ h (Machine.along_of_forall (C := fun w => ∀ t, w ≠ Wait.spurious t) ?_ _)
  · rintro s w s' ⟨n, hr⟩ hw hs
    rcases round_step hr hw hs with hr | hr
    · exact ⟨n, hr⟩
    · exact ⟨n + 1, hr⟩
  · rintro w hmem t rfl
    exact hw t hmem

omit [DecidableEq T] in
theorem Round.passed_le (h : Round n s) (t : T) : s.passed t ≤ n := by
  have ht := h.inStep t
  cases hp : s.phase t <;> rw [hp] at ht <;> simp only [InStep] at ht <;> omega

omit [DecidableEq T] in
theorem Round.le_arrived (h : Round n s) (t : T) : n ≤ s.arrived t := by
  have ht := h.inStep t
  unfold arrived
  cases hp : s.phase t <;> rw [hp] at ht <;> simp only [InStep] at ht <;> simp <;> omega

omit [DecidableEq T] in
/-- Somebody has not arrived at the next round. -/
theorem Round.exists_behind (h : Round n s) : ∃ u, s.arrived u = n ∧ s.phase u ≠ .asleep := by
  have hex : ∃ u, u ∉ s.sleepers := by
    by_contra hall
    have huniv : s.sleepers = Finset.univ := Finset.eq_univ_of_forall fun u => not_not.mp (not_exists.mp hall u)
    have hlt := h.lt
    rw [huniv, Finset.card_univ] at hlt
    exact Nat.lt_irrefl _ hlt
  obtain ⟨u, hu⟩ := hex
  have hne : s.phase u ≠ .asleep := fun he => hu (Finset.mem_filter.mpr ⟨Finset.mem_univ u, he⟩)
  refine ⟨u, ?_, hne⟩
  have hstep := h.inStep u
  unfold arrived
  cases hp : s.phase u with
  | asleep => exact absurd hp hne
  | outside =>
    rw [hp] at hstep
    exact hstep
  | woken =>
    rw [hp] at hstep
    simp only [reduceCtorEq, if_false]
    exact hstep

/-- **The threads meet.** If none wakes up by itself, none has come back from more rounds than every other has arrived
at; and while one sleeps, another has not arrived at its round. -/
theorem barrier_meets {B : Barrier} (hB : pthreadBarrierInit (Fintype.card T) = some B) {ws : List (Wait T)}
    (hw : ∀ t, .spurious t ∉ ws) (h : (machine T).run (start B) ws = some s) :
    (∀ t u, s.passed t ≤ s.arrived u) ∧ ∀ t, s.phase t = .asleep → ∃ u, s.arrived u < s.arrived t := by
  obtain ⟨n, hr⟩ := round_run hB hw h
  refine ⟨fun t u => (hr.passed_le t).trans (hr.le_arrived u), fun t ht => ?_⟩
  obtain ⟨u, hu, -⟩ := hr.exists_behind
  refine ⟨u, ?_⟩
  have hstep := hr.inStep t
  rw [ht] at hstep
  simp only [InStep] at hstep
  rw [hu, arrived, ht, hstep]
  simp

/-- The first of two threads sleeps until the second one has come. -/
theorem barrier_meets_first : ∃ s, (machine Bool).run (start ⟨0, 2⟩) [.arrive true] = some s ∧
    s.phase true = .asleep ∧ ∃ u, s.arrived u < s.arrived true := by
  have hrun : ((machine Bool).run (start ⟨0, 2⟩) [.arrive true]).any (fun s => s.phase true == .asleep) = true := by
    decide
  obtain ⟨s, hs, hp⟩ := (Option.any_eq_true _ _).mp hrun
  have ht : s.phase true = .asleep := beq_iff_eq.mp hp
  exact ⟨s, hs, ht, (barrier_meets (T := Bool) rfl (by simp) hs).2 true ht⟩

/-- **A thread that wakes up by itself passes.** Whenever a thread sleeps, and none has woken up by itself before, it
can come back from its round while another has not arrived at it, if `pthread_cond_wait` returns without a broadcast. -/
theorem spurious_passes {B : Barrier} (hB : pthreadBarrierInit (Fintype.card T) = some B) {ws : List (Wait T)}
    (hw : ∀ t, .spurious t ∉ ws) (h : (machine T).run (start B) ws = some s) {t : T} (ht : s.phase t = .asleep) :
    ∃ s', (machine T).run s [.spurious t, .leave t] = some s' ∧ ∃ u, s'.arrived u < s'.passed t := by
  obtain ⟨n, hr⟩ := round_run hB hw h
  obtain ⟨u, hu, hne⟩ := hr.exists_behind
  have hut : u ≠ t := by
    rintro rfl
    exact hne ht
  have hstep := hr.inStep t
  rw [ht] at hstep
  refine ⟨⟨s.barrier, Function.update (Function.update s.phase t .woken) t .outside, comeBack s.passed t⟩, ?_, u, ?_⟩
  · simp [machine, Machine.run, step, ht]
  · have harr : arrived (⟨s.barrier, Function.update (Function.update s.phase t .woken) t .outside,
        comeBack s.passed t⟩ : Meeting T) u = s.arrived u := by
      simp only [arrived, comeBack_of_ne _ hut, Function.update_of_ne hut]
    rw [harr, hu]
    show n < comeBack s.passed t t
    rw [comeBack_self, show s.passed t = n from hstep]
    exact Nat.lt_succ_self n

theorem spurious_passes_first : ∃ s s', (machine Bool).run (start ⟨0, 2⟩) [.arrive true] = some s ∧
    (machine Bool).run s [.spurious true, .leave true] = some s' ∧ ∃ u, s'.arrived u < s'.passed true := by
  have hrun : ((machine Bool).run (start ⟨0, 2⟩) [.arrive true]).any (fun s => s.phase true == .asleep) = true := by
    decide
  obtain ⟨s, hs, hp⟩ := (Option.any_eq_true _ _).mp hrun
  obtain ⟨s', hs', hu⟩ := spurious_passes (T := Bool) rfl (by simp) hs (t := true) (beq_iff_eq.mp hp)
  exact ⟨s, s', hs, hs', hu⟩

end Meeting

end SvrMnu.Hid
