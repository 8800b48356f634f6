import Mathlib.Data.List.Basic

/-!
# One-shot timers with identity

A run loop holds the live timers; a timer is a number that is never given out twice, and it carries what it will do.
Firing or invalidating a timer takes it out for good. Code that keeps its timer in one variable, and invalidates that
variable before it arms a new one, never has more than one timer live (`OwnedBy`).
-/

set_option autoImplicit false

namespace Sys

/-- The live timers, each with its payload, and the number of the next one. -/
structure Timers (α : Type*) where
  live : List (Nat × α)
  next : Nat
  fresh : ∀ p ∈ live, p.1 < next

namespace Timers

variable {α : Type*}

def empty : Timers α := ⟨[], 0, fun _ h => absurd h List.not_mem_nil⟩

/-- Arm a new timer, number `T.next`. -/
def schedule (T : Timers α) (a : α) : Timers α where
  live := (T.next, a) :: T.live
  next := T.next + 1
  fresh := fun p hp => by
    rcases List.mem_cons.mp hp with rfl | hp
    · exact Nat.lt_succ_self _
    · exact Nat.lt_succ_of_lt (T.fresh p hp)

/-- Take timer `i` out; nothing happens to a timer that is not live. -/
def remove (T : Timers α) (i : Nat) : Timers α where
  live := T.live.filter (·.1 != i)
  next := T.next
  fresh := fun p hp => T.fresh p (List.mem_filter.mp hp).1

/-- Invalidate the timer a variable holds, if it holds one. -/
def invalidate (T : Timers α) (o : Option Nat) : Timers α := o.elim T T.remove

/-- The payload of a live timer, and the timers left once it has fired. -/
def fire (T : Timers α) (i : Nat) : Option (α × Timers α) := (T.live.lookup i).map fun a => (a, T.remove i)

/-- No timer is live but the one the variable `o` holds. -/
def OwnedBy (T : Timers α) (o : Option Nat) : Prop := T.live = [] ∨ ∃ i a, o = some i ∧ T.live = [(i, a)]

/-! ## Laws of the single owner -/

theorem OwnedBy.of_nil {T : Timers α} {o : Option Nat} (h : T.live = []) : T.OwnedBy o := Or.inl h

theorem OwnedBy.invalidate {T : Timers α} {o : Option Nat} (h : T.OwnedBy o) : (T.invalidate o).live = [] := by
  rcases h with h | ⟨i, a, rfl, h⟩
  · cases o <;> simp [Timers.invalidate, remove, h]
  · simp [Timers.invalidate, remove, h]

theorem live_schedule {T : Timers α} (h : T.live = []) (a : α) : (T.schedule a).live = [(T.next, a)] := by
  simp [schedule, h]

theorem OwnedBy.schedule {T : Timers α} (h : T.live = []) (a : α) : (T.schedule a).OwnedBy (some T.next) :=
  Or.inr ⟨T.next, a, rfl, live_schedule h a⟩

theorem fire_of_live {T : Timers α} {i : Nat} {a : α} (h : T.live = [(i, a)]) : T.fire i = some (a, T.remove i) := by
  simp [Timers.fire, h]

/-- The timer that fires is the owner's, and none is live after it. -/
theorem OwnedBy.fire {T T' : Timers α} {o : Option Nat} {i : Nat} {a : α} (h : T.OwnedBy o)
    (hf : T.fire i = some (a, T')) : o = some i ∧ T.live = [(i, a)] ∧ T'.live = [] := by
  unfold Timers.fire at hf
  obtain ⟨b, hb, he⟩ := Option.map_eq_some_iff.mp hf
  obtain ⟨rfl, rfl⟩ := Prod.mk.inj he
  rcases h with h | ⟨j, c, rfl, h⟩
  · rw [h] at hb; cases hb
  · rw [h] at hb ⊢
    by_cases hij : i = j
    · subst hij
      simp only [List.lookup_cons, beq_self_eq_true, Option.some.injEq] at hb
      subst hb
      exact ⟨rfl, rfl, by simp [remove, h]⟩
    · have : (i == j) = false := by simpa using hij
      simp [List.lookup_cons, this] at hb

end Timers

end Sys
