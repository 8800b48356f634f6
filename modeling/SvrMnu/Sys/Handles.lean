import Mathlib.Data.List.Nodup

/-!
# Handles of system objects

A program asks the system for objects of several kinds and gives each back once. A handle is a kind with a number that
is never given out twice; giving back, or using, a handle that is not live is a fault of the program.

The laws are about the live handles up to their order, `H.live.Perm l`, so code is proved with the handles of all other
code standing unchanged in the tail of `l`.
-/

set_option autoImplicit false

namespace Sys

/-- The live handles and the number of the next one. -/
structure Handles (κ : Type*) where
  live : List (κ × Nat)
  next : Nat
  fresh : ∀ p ∈ live, p.2 < next
  nodup : live.Nodup

namespace Handles

variable {κ : Type*}

def empty : Handles κ := ⟨[], 0, fun _ h => absurd h List.not_mem_nil, List.nodup_nil⟩

/-- A new object of kind `k`, with number `H.next`. -/
def create (H : Handles κ) (k : κ) : Handles κ where
  live := (k, H.next) :: H.live
  next := H.next + 1
  fresh := fun p hp => by
    rcases List.mem_cons.mp hp with rfl | hp
    · exact Nat.lt_succ_self _
    · exact Nat.lt_succ_of_lt (H.fresh p hp)
  nodup := List.nodup_cons.mpr ⟨fun h => absurd (H.fresh _ h) (Nat.lt_irrefl _), H.nodup⟩

/-- Give a handle back; `none` if it is not live. -/
def release [DecidableEq κ] (H : Handles κ) (p : κ × Nat) : Option (Handles κ) :=
  if p ∈ H.live then
    some {
      live := H.live.erase p
      next := H.next
      fresh := fun q hq => H.fresh q (List.mem_of_mem_erase hq)
      nodup := H.nodup.erase p }
  else none

/-! ## Laws -/

theorem perm_create {H : Handles κ} {l : List (κ × Nat)} (h : H.live.Perm l) (k : κ) :
    (H.create k).live.Perm ((k, H.next) :: l) := h.cons _

/-- A live handle can be given back, and is the only one that goes. -/
theorem release_perm [DecidableEq κ] {H : Handles κ} {l : List (κ × Nat)} {p : κ × Nat} (h : H.live.Perm (p :: l)) :
    ∃ H', H.release p = some H' ∧ H'.live.Perm l := by
  have hp : p ∈ H.live := h.symm.subset List.mem_cons_self
  refine ⟨_, if_pos hp, ?_⟩
  have he : (H.live.erase p).Perm ((p :: l).erase p) := h.erase p
  rwa [List.erase_cons_head] at he

end Handles

end Sys
