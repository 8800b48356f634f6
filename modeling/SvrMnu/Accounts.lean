import SvrMnu.Upkeep

/-!
# Requests, replies and makeMenus calls

Each `_refresh` that is not suspended sends one request for each menu, each request completes at most once, and each
completion queues one `makeMenus`. `Accounted` is that balance for one menu after a list of activities.

- `accounted_step`: every activity keeps it, also one that ends in an exception;
- `nothing_lost`: so no request, reply or `makeMenus` call is lost or made twice in any nested run.
-/

set_option autoImplicit false

namespace SvrMnu

open Sys Relation

variable {ι : Type} [DecidableEq ι]

namespace Activity

/-- A request of menu `m` completes. -/
def completes (m : ι) : Activity ι → Bool
  | .callback (.complete k _ _) => k = m
  | _ => false

/-- Request `k` of menu `m` completes. -/
def completesRequest (m : ι) (k : Nat) : Activity ι → Bool
  | .callback (.complete m' k' _) => m' = m ∧ k' = k
  | _ => false

/-- A queued `makeMenus` of menu `m` starts. -/
def starts (m : ι) : Activity ι → Bool
  | .makeMenus k _ => k = m
  | _ => false

end Activity

omit [DecidableEq ι] in
/-- The activity is a `_refresh` that is not suspended. -/
def RunLoop.polls (x : RunLoop ι × Activity ι) : Bool :=
  match x.2 with
  | .callback .runRefresh => !x.1.world.delegate.suspended
  | _ => false

/-- The balance of menu `m` after `polls` unsuspended `_refresh` calls, all among the activities `as`. -/
structure Accounted (bar : MenuBar ι) (m : ι) (polls : Nat) (as : List (Activity ι)) (w : World ι) : Prop where
  sent : w.issued m = if m ∈ bar.mnus then polls else 0
  underWay : w.issued m = (w.outstanding m).length + as.countP (Activity.completes m)
  queued : as.countP (Activity.completes m) = w.rebuilds m + as.countP (Activity.starts m)
  nodup : (w.outstanding m).Nodup
  pending : ∀ k ∈ w.outstanding m, k < w.issued m
  once : ∀ k, as.countP (Activity.completesRequest m k) = if k < w.issued m ∧ k ∉ w.outstanding m then 1 else 0

variable {bar : MenuBar ι} {m : ι} {polls : Nat} {as : List (Activity ι)} {w w' : World ι}

/-! ## One activity -/

/-- Activities that send nothing to menu `m`, complete nothing of it and start none of its `makeMenus` calls. -/
theorem Accounted.frame {a : Activity ι} (h : Accounted bar m polls as w) (hi : w'.issued m = w.issued m)
    (ho : w'.outstanding m = w.outstanding m) (hr : w'.rebuilds m = w.rebuilds m) (hc : a.completes m = false)
    (hs : a.starts m = false) : Accounted bar m polls (as ++ [a]) w' := by
  have hck (k : Nat) : a.completesRequest m k = false := by
    cases a with
    | callback e =>
      cases e with
      | complete k' i reply =>
        have hne : k' ≠ m := by simpa [Activity.completes] using hc
        simp [Activity.completesRequest, hne]
      | _ => rfl
    | _ => rfl
  refine ⟨by rw [hi]; exact h.sent, ?_, ?_, by rw [ho]; exact h.nodup, by rw [hi, ho]; exact h.pending, fun k => ?_⟩
  · rw [hi, ho, List.countP_append, List.countP_singleton, hc]
    exact h.underWay
  · rw [hr, List.countP_append, List.countP_append, List.countP_singleton, List.countP_singleton, hc, hs]
    exact h.queued
  · rw [hi, ho, List.countP_append, List.countP_singleton, hck]
    exact h.once k

/-- A `_refresh` sends the next request of each menu of the bar. -/
theorem Accounted.polled (h : Accounted bar m polls as w) :
    Accounted bar m (polls + 1) (as ++ [.callback .runRefresh]) (w.polled bar.mnus) := by
  by_cases hm : m ∈ bar.mnus
  · have hsent := h.sent
    have hi : (w.polled bar.mnus).issued m = w.issued m + 1 := by simp only [World.polled, hm, if_true]
    have ho : (w.polled bar.mnus).outstanding m = w.issued m :: w.outstanding m := by
      simp only [World.polled, hm, if_true]
    have hfresh : w.issued m ∉ w.outstanding m := fun hk => Nat.lt_irrefl _ (h.pending _ hk)
    refine ⟨?_, ?_, ?_, ?_, fun k hk => ?_, fun k => ?_⟩
    · rw [if_pos hm] at hsent ⊢
      omega
    · have hu := h.underWay
      rw [hi, ho, List.countP_append, List.length_cons]
      simp only [List.countP_singleton, Activity.completes, Bool.false_eq_true, if_false]
      omega
    · rw [List.countP_append, List.countP_append]
      exact h.queued
    · rw [ho]
      exact List.nodup_cons.mpr ⟨hfresh, h.nodup⟩
    · rw [ho] at hk
      rw [hi]
      rcases List.mem_cons.mp hk with rfl | hk
      · exact Nat.lt_succ_self _
      · exact Nat.lt_succ_of_lt (h.pending k hk)
    · have hcount : (as ++ [Activity.callback Event.runRefresh]).countP (Activity.completesRequest m k) =
          as.countP (Activity.completesRequest m k) := List.countP_append
      rw [hcount, h.once, hi, ho]
      by_cases hk : k = w.issued m
      · subst hk
        simp
      · have hlt : k < w.issued m + 1 ↔ k < w.issued m := by omega
        simp only [List.mem_cons, hk, false_or, hlt]
  · have hi : (w.polled bar.mnus).issued m = w.issued m := by simp only [World.polled, hm, if_false]
    have hsent : w.issued m = if m ∈ bar.mnus then polls + 1 else 0 := by
      rw [h.sent, if_neg hm, if_neg hm]
    have hf : Accounted bar m (polls + 1) as w := ⟨hsent, h.underWay, h.queued, h.nodup, h.pending, h.once⟩
    refine hf.frame hi ?_ rfl rfl rfl
    simp only [World.polled, hm, if_false]

/-- A completion takes its request out and queues a `makeMenus`. -/
theorem Accounted.complete (h : Accounted bar m polls as w) {i : Nat} (reply : Reply) (hi : i ∈ w.outstanding m) :
    Accounted bar m polls (as ++ [.callback (.complete m i reply)]) (w.complete m i reply) := by
  have ho : (w.complete m i reply).outstanding m = (w.outstanding m).erase i := by
    simp only [World.complete, Function.update_self]
  have hr : (w.complete m i reply).rebuilds m = w.rebuilds m + 1 := by
    simp only [World.complete, Function.update_self]
  have hc : (as ++ [Activity.callback (.complete m i reply)]).countP (Activity.completes m) =
      as.countP (Activity.completes m) + 1 := by
    rw [List.countP_append]
    simp [Activity.completes]
  refine ⟨h.sent, ?_, ?_, ?_, fun k hk => ?_, fun k => ?_⟩
  · have hu := h.underWay
    have hlen := List.length_erase_of_mem hi
    have hpos := List.length_pos_of_mem hi
    show w.issued m = _
    rw [ho, hc]
    omega
  · have hq := h.queued
    have hs : (as ++ [Activity.callback (.complete m i reply)]).countP (Activity.starts m) =
        as.countP (Activity.starts m) := List.countP_append
    rw [hc, hr, hs]
    omega
  · rw [ho]
    exact h.nodup.erase i
  · rw [ho] at hk
    exact h.pending k (List.mem_of_mem_erase hk)
  · have hissued : (w.complete m i reply).issued m = w.issued m := rfl
    rw [List.countP_append, h.once k, ho, hissued]
    by_cases hk : k = i
    · subst hk
      have hn : k ∉ (w.outstanding m).erase k := fun hm => (h.nodup.mem_erase_iff.mp hm).1 rfl
      simp [Activity.completesRequest, hi, hn, h.pending k hi]
    · have hmem : k ∈ (w.outstanding m).erase i ↔ k ∈ w.outstanding m := List.mem_erase_of_ne hk
      simp [Activity.completesRequest, Ne.symm hk, hmem]

/-- A queued `makeMenus` starts. -/
theorem Accounted.dequeue (h : Accounted bar m polls as w) (installed : Bool) (hr : 0 < w.rebuilds m) :
    Accounted bar m polls (as ++ [.makeMenus m installed]) (w.dequeue m) := by
  have hc : (as ++ [Activity.makeMenus m installed]).countP (Activity.completes m) =
      as.countP (Activity.completes m) := List.countP_append
  have hs : (as ++ [Activity.makeMenus m installed]).countP (Activity.starts m) =
      as.countP (Activity.starts m) + 1 := by
    rw [List.countP_append]
    simp [Activity.starts]
  have hd : (w.dequeue m).rebuilds m = w.rebuilds m - 1 := by simp only [World.dequeue, Function.update_self]
  refine ⟨h.sent, ?_, ?_, h.nodup, h.pending, fun k => ?_⟩
  · rw [hc]
    exact h.underWay
  · have hq := h.queued
    rw [hc, hs, hd]
    omega
  · rw [List.countP_append]
    exact h.once k

/-- The requests, replies and queues are not among what statements change. -/
theorem Accounted.stmts (h : Accounted bar m polls as w) (hs : ReflTransGen (World.Stmt bar) w w') :
    Accounted bar m polls as w' := by
  obtain ⟨hi, ho, hr⟩ := stmts_queues hs
  refine ⟨?_, ?_, ?_, ?_, ?_, ?_⟩
  · rw [hi]; exact h.sent
  · rw [hi, ho]; exact h.underWay
  · rw [hr]; exact h.queued
  · rw [ho]; exact h.nodup
  · rw [hi, ho]; exact h.pending
  · rw [hi, ho]; exact h.once

theorem accounted_step {s s' : RunLoop ι} {a : Activity ι} (h : Accounted bar m polls as s.world)
    (hs : (RunLoop.machine bar).step s a = some s') :
    Accounted bar m (polls + if RunLoop.polls (s, a) then 1 else 0) (as ++ [a]) s'.world := by
  rcases RunLoop.activity_cases hs with ⟨e, rfl, he, hstep, -⟩ | ⟨k, installed, rfl, hr, hw⟩ | ⟨hc, hm, hw⟩
  · generalize s'.world = w' at hstep
    cases hstep with
    | notice | enableBlink => exact h.frame rfl rfl rfl rfl rfl
    | suspended _ hguard =>
      have hp : RunLoop.polls (s, (.callback .runRefresh : Activity ι)) = false := by
        have hsusp := (AppDelegate.suspended_restartTimer _ _).symm.trans hguard
        simp [RunLoop.polls, hsusp]
      rw [hp]
      exact h.frame rfl rfl rfl rfl rfl
    | poll _ hguard =>
      have hp : RunLoop.polls (s, (.callback .runRefresh : Activity ι)) = true := by
        have hsusp := (AppDelegate.suspended_restartTimer _ _).symm.trans hguard
        simp [RunLoop.polls, hsusp]
      rw [hp]
      refine Accounted.polled ?_
      exact ⟨h.sent, h.underWay, h.queued, h.nodup, h.pending, h.once⟩
    | @complete k i reply hi =>
      by_cases hk : k = m
      · subst hk
        exact h.complete reply hi
      · refine h.frame rfl ?_ ?_ ?_ rfl
        · simp only [World.complete, Function.update_of_ne (Ne.symm hk)]
        · simp only [World.complete, Function.update_of_ne (Ne.symm hk)]
        · simp [Activity.completes, hk]
    | makeMenus | makeMenusRaised | setPrimaryMnu | setPrimaryRaised => cases he
  · refine Accounted.stmts ?_ hw
    by_cases hk : k = m
    · subst hk
      exact h.dequeue installed hr
    · refine h.frame rfl rfl ?_ rfl ?_
      · simp only [World.dequeue, Function.update_of_ne (Ne.symm hk)]
      · simp [Activity.starts, hk]
  · refine Accounted.stmts ?_ hw
    cases a with
    | callback e => exact absurd rfl (hc e)
    | makeMenus k installed => exact absurd rfl (hm k installed)
    | setPrimaryMnu | answer => exact h.frame rfl rfl rfl rfl rfl

/-! ## Every run -/

theorem accounted_run (L : Launch ι) {s : RunLoop ι} (h : (RunLoop.machine L.bar).run (RunLoop.launch L) as = some s)
    (m : ι) : Accounted L.bar m (((RunLoop.machine L.bar).trace (RunLoop.launch L) as).countP RunLoop.polls) as
      s.world := by
  have ht := Machine.trace_events h
  have hi : Accounted L.bar m (((RunLoop.machine L.bar).trace (RunLoop.launch L) as).countP RunLoop.polls)
      (((RunLoop.machine L.bar).trace (RunLoop.launch L) as).map Prod.snd) s.world := by
    refine Machine.run_history
      (I := fun tr (s : RunLoop ι) => Accounted L.bar m (tr.countP RunLoop.polls) (tr.map Prod.snd) s.world) ?_ ?_ h
    · refine ⟨?_, rfl, rfl, List.nodup_nil, fun k hk => absurd hk List.not_mem_nil, fun k => ?_⟩
      · exact (ite_self 0).symm
      · exact (if_neg fun hk => Nat.not_lt_zero k hk.1).symm
    · intro tr s a s' hi hs
      rw [List.countP_append, List.countP_singleton, List.map_append]
      exact accounted_step hi hs
  rwa [ht] at hi

/-- **Nothing is lost or done twice.** In every nested run, exceptions included: each menu of the bar has sent one
request for each unsuspended `_refresh`; each request has completed, once, or is under way; and each completion has
queued one `makeMenus`, which has started or is still queued. -/
theorem nothing_lost (L : Launch ι) {s : RunLoop ι} (h : (RunLoop.machine L.bar).run (RunLoop.launch L) as = some s)
    (m : ι) :
    (m ∈ L.bar.mnus →
      s.world.issued m = ((RunLoop.machine L.bar).trace (RunLoop.launch L) as).countP RunLoop.polls) ∧
    s.world.issued m = (s.world.outstanding m).length + s.world.rebuilds m + as.countP (Activity.starts m) ∧
    as.countP (Activity.completes m) = s.world.rebuilds m + as.countP (Activity.starts m) ∧
    ∀ k, as.countP (Activity.completesRequest m k) ≤ 1 ∧
      (k ∈ s.world.outstanding m ↔
        k < s.world.issued m ∧ as.countP (Activity.completesRequest m k) = 0) := by
  have ha := accounted_run L h m
  have hu := ha.underWay
  have hq := ha.queued
  refine ⟨fun hm => by rw [ha.sent, if_pos hm], by omega, hq, fun k => ?_⟩
  rw [ha.once k]
  constructor
  · split
    · exact le_refl _
    · exact Nat.zero_le _
  · constructor
    · intro hk
      have hlt := ha.pending k hk
      exact ⟨hlt, if_neg fun hn => hn.2 hk⟩
    · rintro ⟨hlt, hz⟩
      by_contra hk
      rw [if_pos ⟨hlt, hk⟩] at hz
      cases hz

theorem nothing_lost_waiting : ∃ s,
    (RunLoop.machine appBar).run (RunLoop.launch firstLaunch) RunLoop.waiting = some s ∧
    s.world.issued .wfhMenu = 1 ∧ s.world.rebuilds .wfhMenu = 0 := by
  obtain ⟨s, hs, -⟩ := RunLoop.waiting_run
  obtain ⟨hsent, -, hqueued, -⟩ := nothing_lost firstLaunch hs .wfhMenu
  have hpolls : ((RunLoop.machine appBar).trace (RunLoop.launch firstLaunch) RunLoop.waiting).countP
      RunLoop.polls = 1 := by decide +kernel
  have hqueued : 1 = s.world.rebuilds .wfhMenu + 1 := hqueued
  exact ⟨s, hs, (hsent (by decide)).trans hpolls, by omega⟩

end SvrMnu
