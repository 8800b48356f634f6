import SvrMnu.Steps
import Mathlib.Tactic.Linarith

/-!
# The refresh timer

The refresh timer is made, replaced, cancelled and fired from four places, and `addTimer` has a path that queues a
`_refresh` and leaves the old timer as it is. `Scheduled` is what every event keeps: one timer at most, never neither
timer nor queued `_refresh`, and, when no `_refresh` is queued, a fire date that belongs to the current rate.

- `addTimer_scheduled`: `addTimer` establishes it, whichever path it takes;
- `countsDown_iff`: the countdown is right up to the fire date iff the seconds of a rate fit into an `int`;
- `scheduled_step`, `scheduled_run`: every event keeps it, so it holds in every run;
- `polls_on_time`: what follows for the timer, the polls and the countdown; `countdown_overflows` is a rate whose
  seconds do not fit.
-/

set_option autoImplicit false

namespace SvrMnu

open Sys

variable {ι : Type}

/-- The fire date is `rate` minutes after the last `_refresh`, less than a second late. -/
def OnRate (d : AppDelegate ι) (date : ℚ) : Prop :=
  d.lastRefresh + 60 * d.refreshRate ≤ date ∧ date < d.lastRefresh + 60 * d.refreshRate + 1

structure Scheduled (d : AppDelegate ι) : Prop where
  owned : d.timers.OwnedBy d.refreshTimer
  polling : d.timers.live ≠ [] ∨ 0 < d.refreshes
  deadline : d.refreshes = 0 → ∀ t ∈ d.timers.live, OnRate d t.2
  rate_pos : 0 < d.refreshRate

/-! ## addTimer -/

/-- The date `addTimer` takes: the elapsed time is rounded down, so the rounding is what the timer is late. -/
theorem interval_bounds {t : ℚ} {r : Int} (h : t ≤ r * 60) :
    60 * r ≤ t + AppDelegate.timerInterval (60 * r - ⌊t⌋) ∧
    t + AppDelegate.timerInterval (60 * r - ⌊t⌋) < 60 * r + 1 := by
  have h1 : (⌊t⌋ : ℚ) ≤ t := Int.floor_le t
  have h2 : t < ⌊t⌋ + 1 := Int.lt_floor_add_one t
  unfold AppDelegate.timerInterval
  split
  · next hle =>
    constructor
    · linarith
    · linarith
  · constructor
    · linarith
    · linarith

/-- The two paths of `addTimer`. -/
theorem addTimer_cases (d : AppDelegate ι) :
    d.addTimer = d.refresh ∨ ∃ date, OnRate d date ∧ d.addTimer =
      { d with timers := (d.timers.invalidate d.refreshTimer).schedule date,
               refreshTimer := some (d.timers.invalidate d.refreshTimer).next } := by
  unfold AppDelegate.addTimer
  by_cases h : d.now - d.lastRefresh > d.refreshRate * 60
  · exact Or.inl (if_pos h)
  · refine Or.inr ⟨_, ?_, if_neg h⟩
    have hb := interval_bounds (not_lt.mp h)
    constructor
    · linarith [hb.1]
    · linarith [hb.2]

theorem addTimer_scheduled {d : AppDelegate ι} (ho : d.timers.OwnedBy d.refreshTimer) (hr : 0 < d.refreshRate) :
    Scheduled d.addTimer := by
  rcases addTimer_cases d with h | ⟨date, hd, h⟩
  · rw [h]
    exact ⟨ho, Or.inr (Nat.succ_pos _), fun hz => absurd hz (Nat.succ_ne_zero _), hr⟩
  · rw [h]
    have hl := Timers.live_schedule (Timers.OwnedBy.invalidate ho) date
    refine ⟨Timers.OwnedBy.schedule (Timers.OwnedBy.invalidate ho) date, Or.inl ?_, fun _ t ht => ?_, hr⟩
    · show (Timers.schedule _ date).live ≠ []
      rw [hl]
      simp
    · have ht : t ∈ (Timers.schedule (d.timers.invalidate d.refreshTimer) date).live := ht
      rw [hl] at ht
      cases List.mem_singleton.mp ht
      exact hd

/-! ## The countdown -/

/-- The title that `updateRefresher` sets tells the time to `date`, to the second. -/
def CountsDown (d : AppDelegate ι) (date : ℚ) : Prop :=
  ∃ seconds : Int32, d.updateRefresher.refresherTitle = "Refresh(next in " ++ toString seconds ++ "s)" ∧
    0 ≤ seconds.toInt ∧ seconds.toInt ≤ 60 * d.refreshRate ∧ |(seconds.toInt : ℚ) - (date - d.now)| < 1

/-- The number that is shown, before it is converted. -/
theorem seconds_bounds {d : AppDelegate ι} {date : ℚ} (h : OnRate d date) (h₀ : d.lastRefresh ≤ d.now)
    (h₁ : d.now ≤ date) :
    0 ≤ 60 * d.refreshRate - ⌊d.now - d.lastRefresh⌋ ∧
    60 * d.refreshRate - ⌊d.now - d.lastRefresh⌋ ≤ 60 * d.refreshRate ∧
    |((60 * d.refreshRate - ⌊d.now - d.lastRefresh⌋ : Int) : ℚ) - (date - d.now)| < 1 := by
  obtain ⟨hlo, hhi⟩ := h
  have hf0 : 0 ≤ ⌊d.now - d.lastRefresh⌋ := Int.floor_nonneg.mpr (by linarith)
  have hf1 : (⌊d.now - d.lastRefresh⌋ : ℚ) ≤ d.now - d.lastRefresh := Int.floor_le _
  have hf2 : d.now - d.lastRefresh < ⌊d.now - d.lastRefresh⌋ + 1 := Int.lt_floor_add_one _
  have hf3 : ⌊d.now - d.lastRefresh⌋ < 60 * d.refreshRate + 1 := by
    rw [Int.floor_lt]
    push_cast
    linarith
  refine ⟨by omega, by omega, ?_⟩
  push_cast
  rw [abs_lt]
  constructor
  · linarith
  · linarith

/-- A countdown that is right after a `_refresh` starts with all seconds of the rate. -/
theorem CountsDown.fits {d : AppDelegate ι} {date : ℚ} (h : CountsDown d date) (hdate : OnRate d date)
    (hnow : d.now = d.lastRefresh) : 60 * d.refreshRate ≤ 2147483647 := by
  obtain ⟨n, -, -, -, habs⟩ := h
  have hlo : (60 * d.refreshRate - 1 : ℚ) < n.toInt := by
    rw [hnow] at habs
    linarith [(abs_lt.mp habs).1, hdate.1]
  have hlo : 60 * d.refreshRate - 1 < n.toInt := by exact_mod_cast hlo
  have hn := n.toInt_lt
  omega

/-- **The countdown is right until the timer fires iff the seconds of the rate fit into an `int`.** -/
theorem countsDown_iff {d : AppDelegate ι} {date : ℚ} (h : OnRate d date) (hr : 0 < d.refreshRate) :
    (∀ now, d.lastRefresh ≤ now → now ≤ date → CountsDown { d with now := now } date) ↔
      60 * d.refreshRate ≤ 2147483647 := by
  constructor
  · intro hall
    have hrate : (0 : ℚ) < d.refreshRate := by exact_mod_cast hr
    have hdate : d.lastRefresh ≤ date := by linarith [h.1]
    exact (hall d.lastRefresh (le_refl _) hdate).fits h rfl
  · intro hfits now h₀ h₁
    obtain ⟨hlo, hhi, habs⟩ := seconds_bounds (d := { d with now := now }) h h₀ h₁
    have hshown : AppDelegate.seconds { d with now := now } = intOfDouble _ := rfl
    have hint := toInt_intOfDouble (le_trans (by decide) hlo) (le_trans hhi hfits)
    refine ⟨AppDelegate.seconds { d with now := now }, rfl, ?_, ?_, ?_⟩
    · rw [hshown, hint]
      exact hlo
    · rw [hshown, hint]
      exact hhi
    · rw [hshown, hint]
      exact habs

/-! ## Every event -/

section Events

variable {d : AppDelegate ι}

/-- `_refresh` cancels the timer and makes a new one. -/
theorem Scheduled.restartTimer (h : Scheduled d) (n : Nat) : Scheduled { d with refreshes := n }.restartTimer :=
  addTimer_scheduled (Timers.OwnedBy.of_nil h.owned.invalidate) h.rate_pos

theorem Scheduled.notice {d' : AppDelegate ι} {n : Notice} (h : Scheduled d) (hn : d.notice n = some d') :
    Scheduled d' := by
  cases AppDelegate.notice_cases hn with
  | refresh | forceRefresh | didWake | didUserActive =>
    exact ⟨h.owned, Or.inr (Nat.succ_pos _), fun hz => absurd hz (Nat.succ_ne_zero _), h.rate_pos⟩
  | changeRefreshRate items ht => exact addTimer_scheduled h.owned ht
  | @fireRefresh _ _ timers hf hdue =>
    -- the timer that fires is gone, but the `_refresh` it stands for is queued
    have ho : timers.OwnedBy d.refreshTimer := Timers.OwnedBy.of_nil (h.owned.fire hf).2.2
    exact ⟨ho, Or.inr (Nat.succ_pos _), fun hz => absurd hz (Nat.succ_ne_zero _), h.rate_pos⟩
  | clock | didScreenSleep | didSleep | didUserDeactive | updateRefresher | enumerate | firePulse =>
    exact ⟨h.owned, h.polling, h.deadline, h.rate_pos⟩

theorem Scheduled.setTitle [DecidableEq ι] (h : Scheduled d) (title : Option String) (m : ι) :
    Scheduled (d.setTitle title m) := by
  rw [AppDelegate.setTitle_frame]
  exact ⟨h.owned, h.polling, h.deadline, h.rate_pos⟩

theorem now_notice {d' : AppDelegate ι} {n : Notice} (h : d.notice n = some d') : d.now ≤ d'.now := by
  cases AppDelegate.notice_cases h with
  | clock hle => exact hle
  | changeRefreshRate => rw [AppDelegate.addTimer_frame]
  | _ => exact le_refl _

end Events

variable [DecidableEq ι]

theorem scheduled_launch (L : Launch ι) : Scheduled (AppDelegate.launch L) := by
  simp only [AppDelegate.launch]
  rw [AppDelegate.setupMenu_eq]
  exact ⟨Timers.OwnedBy.of_nil rfl, Or.inr Nat.zero_lt_one, fun hz => absurd hz (Nat.succ_ne_zero _), L.rate_pos⟩

theorem scheduled_step {bar : MenuBar ι} {w w' : World ι} {e : Event ι} (h : Scheduled w.delegate)
    (hs : World.Step bar w e w') : Scheduled w'.delegate := by
  cases hs with
  | notice hn => exact h.notice hn
  | suspended => exact h.restartTimer _
  | poll => exact h.restartTimer _
  | complete => exact h
  | makeMenus => exact h.setTitle _ _
  | makeMenusRaised | setPrimaryMnu | enableBlink => exact ⟨h.owned, h.polling, h.deadline, h.rate_pos⟩
  | setPrimaryRaised _ _ hw =>
    rw [hw.rest, AppDelegate.setupMenu_eq]
    exact ⟨h.owned, h.polling, h.deadline, h.rate_pos⟩

theorem scheduled_run {L : Launch ι} {es : List (Event ι)} {w : World ι}
    (h : (World.machine L.bar).run (World.launch L) es = some w) : Scheduled w.delegate :=
  Machine.invariant (I := fun w => Scheduled w.delegate) (scheduled_launch L)
    (fun _ _ _ hi hs => scheduled_step hi (World.step_cases hs)) h

/-! ## The clock -/

theorem now_step {bar : MenuBar ι} {w w' : World ι} {e : Event ι} (hs : World.Step bar w e w') :
    w.delegate.now ≤ w'.delegate.now := by
  cases hs with
  | notice hn => exact now_notice hn
  | suspended => rw [AppDelegate.restartTimer_frame]
  | poll =>
    simp only [World.polled]
    rw [AppDelegate.restartTimer_frame]
  | makeMenus env =>
    simp only [World.rebuild]
    rw [AppDelegate.setTitle_frame]
    exact le_refl _
  | setPrimaryRaised _ _ hw =>
    rw [hw.rest, AppDelegate.setupMenu_eq]
  | complete | makeMenusRaised | setPrimaryMnu | enableBlink => exact le_refl _

/-- A `_refresh` is stamped with a time no earlier than that of any state before it. -/
theorem stamp_run {bar : MenuBar ι} {w w' : World ι} {es : List (Event ι)}
    (h : (World.machine bar).run w (es ++ [.runRefresh]) = some w') : w.delegate.now ≤ w'.delegate.lastRefresh := by
  rw [Machine.run_snoc] at h
  obtain ⟨v, hv, hs⟩ := Option.bind_eq_some_iff.mp h
  have hle : w.delegate.now ≤ v.delegate.now :=
    Machine.invariant (I := fun v => w.delegate.now ≤ v.delegate.now) (le_refl _)
      (fun _ _ _ hi hs => le_trans hi (now_step (World.step_cases hs))) hv
  cases World.step_cases hs with
  | suspended =>
    rw [AppDelegate.restartTimer_frame]
    exact hle
  | poll =>
    simp only [World.polled]
    rw [AppDelegate.restartTimer_frame]
    exact hle

/-! ## The refresh schedule -/

/-- **The refresh schedule, in every state of every run.** One timer at most is live, and `refreshTimer` holds it;
there is a timer or a queued `_refresh`; the timer is due `refreshRate` minutes after the last `_refresh`, so that a
`_refresh` that comes from it is never early; and the countdown is within a second of the time that is left, at all
times until then, iff the seconds of the rate fit into the `int` that `updateRefresher` puts them in. -/
theorem polls_on_time (L : Launch ι) {es : List (Event ι)} {w : World ι}
    (h : (World.machine L.bar).run (World.launch L) es = some w) :
    (w.delegate.timers.live = [] ∨
      ∃ i date, w.delegate.refreshTimer = some i ∧ w.delegate.timers.live = [(i, date)]) ∧
    (w.delegate.timers.live ≠ [] ∨ 0 < w.delegate.refreshes) ∧
    (w.delegate.refreshes = 0 →
      (∀ t ∈ w.delegate.timers.live, w.delegate.lastRefresh + 60 * w.delegate.refreshRate ≤ t.2 ∧
        t.2 < w.delegate.lastRefresh + 60 * w.delegate.refreshRate + 1) ∧
      (∀ i fs w', (World.machine L.bar).run w (.notice (.fireRefresh i) :: (fs ++ [.runRefresh])) = some w' →
        w.delegate.lastRefresh + 60 * w.delegate.refreshRate ≤ w'.delegate.lastRefresh) ∧
      (∀ t ∈ w.delegate.timers.live,
        (∀ now, w.delegate.lastRefresh ≤ now → now ≤ t.2 → CountsDown { w.delegate with now := now } t.2) ↔
          60 * w.delegate.refreshRate ≤ 2147483647)) := by
  have hi := scheduled_run h
  refine ⟨hi.owned, hi.polling, fun hz => ⟨hi.deadline hz, ?_, ?_⟩⟩
  · intro i fs w' hrun
    obtain ⟨v, hv, hrun⟩ := Machine.run_cons hrun
    have hle : w.delegate.lastRefresh + 60 * w.delegate.refreshRate ≤ v.delegate.now := by
      cases World.step_cases hv with
      | notice hn =>
        cases AppDelegate.notice_cases hn with
        | @fireRefresh _ date _ hf hdue =>
          have hm : (i, date) ∈ w.delegate.timers.live := by
            rw [(hi.owned.fire hf).2.1]
            exact List.mem_singleton_self _
          exact le_trans (hi.deadline hz _ hm).1 hdue
    exact le_trans hle (stamp_run hrun)
  · intro t ht
    exact countsDown_iff (hi.deadline hz t ht) hi.rate_pos

/-- The first `_refresh` of a launch at time `0` leaves a timer that is due after a minute, and the countdown to it. -/
theorem polls_on_time_firstLaunch : ∃ w,
    (World.machine appBar).run (World.launch firstLaunch) [.runRefresh] = some w ∧
    ∃ i date, w.delegate.refreshTimer = some i ∧ w.delegate.timers.live = [(i, date)] ∧ 60 ≤ date ∧ date < 61 ∧
      CountsDown w.delegate date := by
  have hrun : ((World.machine appBar).run (World.launch firstLaunch) [.runRefresh]).any (fun w =>
      w.delegate.refreshes == 0 && w.delegate.lastRefresh == 0 && w.delegate.now == 0 &&
        w.delegate.refreshRate == 1) = true := by decide +kernel
  obtain ⟨w, hw, hp⟩ := (Option.any_eq_true _ _).mp hrun
  simp only [Bool.and_eq_true, beq_iff_eq] at hp
  obtain ⟨⟨⟨hz, hlast⟩, hnow⟩, hrate⟩ := hp
  obtain ⟨howned, hpolling, h⟩ := polls_on_time firstLaunch hw
  obtain ⟨hdate, -, hcount⟩ := h hz
  refine ⟨w, hw, ?_⟩
  rcases howned with hl | ⟨i, date, hi, hl⟩
  · exact absurd hl (hpolling.resolve_right (by omega))
  · have hmem : (i, date) ∈ w.delegate.timers.live := by
      rw [hl]
      exact List.mem_singleton_self _
    obtain ⟨hlo, hhi⟩ := hdate (i, date) hmem
    simp only [hlast, hrate, Int.cast_one] at hlo hhi
    refine ⟨i, date, hi, hl, by linarith, by linarith, ?_⟩
    refine (hcount (i, date) hmem).mpr (by omega) w.delegate.now ?_ ?_
    · rw [hlast, hnow]
    · rw [hnow]
      linarith

/-- A rate of 35791395 minutes is stored. After the first `_refresh` its seconds do not fit into an `int`. -/
theorem countdown_overflows : ∃ w,
    (World.machine appBar).run (World.launch { firstLaunch with refreshRate := 35791395, rate_pos := by decide })
      [.runRefresh, .notice .updateRefresher] = some w ∧
    w.delegate.refreshes = 0 ∧ w.delegate.refresherTitle = "Refresh(next in -2147483648s)" ∧
    ∃ i, w.delegate.timers.live = [(i, 2147483700)] ∧ w.delegate.lastRefresh = 0 ∧ w.delegate.now = 0 ∧
      ¬ CountsDown w.delegate 2147483700 := by
  have hrun : ((World.machine appBar).run
      (World.launch { firstLaunch with refreshRate := 35791395, rate_pos := by decide })
      [.runRefresh, .notice .updateRefresher]).any (fun w => w.delegate.refreshes == 0 &&
        w.delegate.refresherTitle == "Refresh(next in -2147483648s)" && w.delegate.timers.live == [(0, 2147483700)] &&
        w.delegate.lastRefresh == 0 && w.delegate.now == 0 && w.delegate.refreshRate == 35791395) = true := by
    decide +kernel
  obtain ⟨w, hw, hp⟩ := (Option.any_eq_true _ _).mp hrun
  simp only [Bool.and_eq_true, beq_iff_eq] at hp
  obtain ⟨⟨⟨⟨⟨hz, ht⟩, hl⟩, hlast⟩, hnow⟩, hrate⟩ := hp
  refine ⟨w, hw, hz, ht, 0, hl, hlast, hnow, fun hc => ?_⟩
  have hdate : OnRate w.delegate 2147483700 := by
    rw [OnRate, hlast, hrate]
    norm_num
  have hfits := hc.fits hdate (hnow.trans hlast.symm)
  rw [hrate] at hfits
  omega

end SvrMnu
