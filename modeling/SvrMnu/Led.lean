import SvrMnu.Pulse
import SvrMnu.Steps

/-!
# The LED

A background `_enableBlink` job carries nothing: it reads the primary menu and its value when it runs. So the LED is
right as long as every change of the one or the other is followed by a job, and jobs that are late or run twice do no
harm; this is `Lit`.

- `blink_run`: the application only drives the blink(1) by its methods, so that it always shows a `Pulse`;
- `led_agrees`: with no job left, the LED shows the value of the primary menu, in the runs in which every
  `setPrimaryMnu:` can read the responses; `led_dark_after_exception` is a run in which one cannot;
- `dark_while_deactive`: while the user is inactive the LED is dark, in the runs in which no job finds players to show;
  `lit_while_deactive` is a run in which a job does.
-/

set_option autoImplicit false

namespace SvrMnu

open Sys

variable {ι : Type} [DecidableEq ι]

def Notice.isOff : Notice → Bool
  | .didSleep | .didUserDeactive => true
  | _ => false

/-- The event turns the LED off. -/
def Event.isOff : Event ι → Bool
  | .notice n => n.isOff
  | _ => false

/-- The LED shows `value`: nothing, yellow pulses for one player or magenta ones for more. -/
structure Agrees (value : Int32) (b : Blink1) : Prop where
  none : value ≤ 0 → b.currentColor = some NSColor.black ∧ b.Dark
  one : value = 1 → b.Pulsing NSColor.yellow
  more : 2 ≤ value → b.Pulsing NSColor.magenta

/-! ## What each event does to the LED -/

theorem blinkFor_pos {b : Blink1} {value : Int32} (h : 0 < value) :
    blinkFor value b = if value > 1 then b.setPulse NSColor.magenta else b.setPulse NSColor.yellow := by
  have hn : ¬ value < 0 := Int32.not_lt.mpr (Int32.le_of_lt h)
  simp only [blinkFor, hn, if_false, gt_iff_lt, h, if_true]

/-- For a negative value `off` is called twice. -/
theorem blinkFor_nonpos {b : Blink1} {value : Int32} (h : value ≤ 0) :
    blinkFor value b = if value < 0 then b.off.off else b.off := by
  have hn : ¬ 0 < value := Int32.not_lt.mpr h
  simp only [blinkFor, gt_iff_lt, hn, if_false]

theorem dark_blinkFor {b : Blink1} (h : b.Owned) {value : Int32} (hv : value ≤ 0) :
    (blinkFor value b).currentColor = some NSColor.black ∧ (blinkFor value b).Dark := by
  rw [blinkFor_nonpos hv]
  split
  · exact ⟨rfl, Blink1.dark_off (Blink1.owned_off h)⟩
  · exact ⟨rfl, Blink1.dark_off h⟩

theorem owned_blinkFor {b : Blink1} (h : b.Owned) (value : Int32) : (blinkFor value b).Owned := by
  by_cases hv : value ≤ 0
  · exact Timers.OwnedBy.of_nil (dark_blinkFor h hv).2.1
  · rw [blinkFor_pos (Int32.not_le.mp hv)]
    split
    · exact Blink1.owned_setPulse h _
    · exact Blink1.owned_setPulse h _

theorem blinkFor_agrees {b : Blink1} (h : b.Owned) (value : Int32) : Agrees value (blinkFor value b) where
  none := dark_blinkFor h
  one := by
    rintro rfl
    exact Blink1.pulsing_setPulse h _
  more := by
    intro hv
    have h1 : (1 : Int32) < value := Int32.lt_of_lt_of_le (by decide) hv
    rw [blinkFor_pos (Int32.lt_trans (by decide) h1), if_pos h1]
    exact Blink1.pulsing_setPulse h _

/-- A pulse timer does not change what the LED shows. -/
theorem Agrees.fire {value : Int32} {b b' : Blink1} {i : Nat} (h : Agrees value b) (ho : b.Owned)
    (hf : b.fire i = some b') : Agrees value b' where
  none := by
    intro hv
    rw [Blink1.fire_none (h.none hv).2.1] at hf
    cases hf
  one := fun hv => Blink1.pulsing_fire ho (h.one hv) hf
  more := fun hv => Blink1.pulsing_fire ho (h.more hv) hf

theorem Agrees.enumerate {value : Int32} {b : Blink1} (h : Agrees value b) (n : Nat) : Agrees value (b.enumerate n) :=
  ⟨h.none, h.one, h.more⟩

omit [DecidableEq ι] in
/-- A notification turns the LED off, fires a pulse timer, or at most counts the devices and adds a job. -/
theorem blink_notice {d d' : AppDelegate ι} {n : Notice} (h : d.notice n = some d') :
    d'.primaryMnu = d.primaryMnu ∧
    ((n.isOff = true ∧ d'.blink = d.blink.off) ∨
      (d'.jobs = d.jobs ∧ d'.userDeactive = d.userDeactive ∧ ∃ i, d.blink.fire i = some d'.blink) ∨
      (d.jobs ≤ d'.jobs ∧ (d'.userDeactive = true → d.userDeactive = true) ∧ ∃ k, d'.blink = d.blink.enumerate k)) := by
  cases AppDelegate.notice_cases h with
  | didSleep | didUserDeactive => exact ⟨rfl, Or.inl ⟨rfl, rfl⟩⟩
  | firePulse hf => exact ⟨rfl, Or.inr (Or.inl ⟨rfl, rfl, _, hf⟩)⟩
  | enumerate serialnums => exact ⟨rfl, Or.inr (Or.inr ⟨le_refl _, id, serialnums, rfl⟩)⟩
  | changeRefreshRate items ht =>
    rw [AppDelegate.addTimer_frame]
    exact ⟨rfl, Or.inr (Or.inr ⟨le_refl _, id, d.blink.serialnums, rfl⟩)⟩
  | forceRefresh =>
    exact ⟨rfl, Or.inr (Or.inr ⟨le_refl _, fun hf => absurd hf Bool.false_ne_true, d.blink.serialnums, rfl⟩)⟩
  | didUserActive =>
    exact ⟨rfl, Or.inr (Or.inr ⟨Nat.le_succ _, fun hf => absurd hf Bool.false_ne_true, d.blink.serialnums, rfl⟩)⟩
  | didWake => exact ⟨rfl, Or.inr (Or.inr ⟨Nat.le_succ _, id, d.blink.serialnums, rfl⟩)⟩
  | clock | refresh | didScreenSleep | updateRefresher | fireRefresh =>
    exact ⟨rfl, Or.inr (Or.inr ⟨le_refl _, id, d.blink.serialnums, rfl⟩)⟩

/-! ## The blink(1) of the application -/

/-- A job calls `off` or `setPulse:`, or `off` twice. -/
theorem run_blinkFor (value : Int32) (b : Blink1) : ∃ fs, Blink1.machine.run b fs = some (blinkFor value b) := by
  by_cases hv : value ≤ 0
  · rw [blinkFor_nonpos hv]
    split
    · exact ⟨[.off, .off], rfl⟩
    · exact ⟨[.off], rfl⟩
  · rw [blinkFor_pos (Int32.not_le.mp hv)]
    split
    · exact ⟨[.setPulse NSColor.magenta], rfl⟩
    · exact ⟨[.setPulse NSColor.yellow], rfl⟩

theorem blink_step {bar : MenuBar ι} {w w' : World ι} {e : Event ι} (hs : World.Step bar w e w') :
    ∃ fs, Blink1.machine.run w.delegate.blink fs = some w'.delegate.blink := by
  cases hs with
  | @notice n d hn =>
    obtain ⟨_, ⟨_, hoff⟩ | ⟨_, _, i, hf⟩ | ⟨_, _, k, hk⟩⟩ := blink_notice hn
    · exact ⟨[.off], congrArg some hoff.symm⟩
    · exact ⟨[.fire i], (Machine.run_single (M := Blink1.machine) _ _).trans hf⟩
    · exact ⟨[.enumerate k], congrArg some hk.symm⟩
  | enableBlink => exact run_blinkFor w.primaryValue w.delegate.blink
  | suspended | poll =>
    rw [AppDelegate.restartTimer_frame]
    exact ⟨[], rfl⟩
  | makeMenus env =>
    unfold World.rebuild
    rw [AppDelegate.setTitle_frame]
    exact ⟨[], rfl⟩
  | setPrimaryRaised _ _ hw =>
    rw [hw.rest, AppDelegate.setupMenu_eq]
    exact ⟨[], rfl⟩
  | complete | makeMenusRaised | setPrimaryMnu => exact ⟨[], rfl⟩

theorem launch_blink (L : Launch ι) :
    (World.launch L).delegate.blink = Blink1.init L.serialnums ∧ (World.launch L).delegate.userDeactive = false := by
  simp only [World.launch, AppDelegate.launch]
  rw [AppDelegate.setupMenu_eq]
  exact ⟨rfl, rfl⟩

/-- **The blink(1) of the application is a run of its own.** -/
theorem blink_run {L : Launch ι} {es : List (Event ι)} {w : World ι}
    (h : (World.machine L.bar).run (World.launch L) es = some w) :
    ∃ fs, Blink1.machine.run (Blink1.init L.serialnums) fs = some w.delegate.blink := by
  rw [← (launch_blink L).1]
  exact Machine.run_projects (g := fun w : World ι => w.delegate.blink)
    (fun _ _ _ hs => blink_step (World.step_cases hs)) h

/-- So it shows a pulse, whatever the application does. -/
theorem blink_shows {L : Launch ι} {es : List (Event ι)} {w : World ι}
    (h : (World.machine L.bar).run (World.launch L) es = some w) : ∃ p, Blink1.Shows p w.delegate.blink := by
  obtain ⟨fs, hf⟩ := blink_run h
  exact Blink1.shows_of_run hf

/-! ## The LED and the primary menu -/

/-- A job has run since the launch and since the LED was last turned off. -/
def JobSinceOff (es : List (Event ι)) : Prop := Since (fun e => e = .runEnableBlink) (fun e => e.isOff = true) es

/-- Once a job has run, another is to come or the LED is right. -/
structure Lit (es : List (Event ι)) (w : World ι) : Prop where
  owned : w.delegate.blink.Owned
  shown : JobSinceOff es → 0 < w.delegate.jobs ∨ Agrees w.primaryValue w.delegate.blink

variable {bar : MenuBar ι} {es : List (Event ι)} {w w' : World ι}

omit [DecidableEq ι] in
/-- Steps that leave the LED and the value of the primary menu, or add a job. -/
theorem Lit.frame {e : Event ι} (h : Lit es w) (he : e ≠ .runEnableBlink)
    (hb : w'.delegate.blink = w.delegate.blink) (hj : w.delegate.jobs ≤ w'.delegate.jobs)
    (hv : w'.primaryValue = w.primaryValue ∨ 0 < w'.delegate.jobs) : Lit (es ++ [e]) w' where
  owned := by rw [hb]; exact h.owned
  shown := by
    intro hs
    obtain ⟨_, hs⟩ := (since_snoc.mp hs).resolve_left he
    rcases hv with hv | hv
    · rw [hv, hb]
      exact (h.shown hs).imp_left fun hp => lt_of_lt_of_le hp hj
    · exact Or.inl hv

omit [DecidableEq ι] in
theorem Lit.notice {n : Notice} {d : AppDelegate ι} (h : Lit es w) (hn : w.delegate.notice n = some d) :
    Lit (es ++ [.notice n]) { w with delegate := d } := by
  obtain ⟨hp, hoff | ⟨hj, _, i, hf⟩ | ⟨hj, _, k, hk⟩⟩ := blink_notice hn
  · refine ⟨?_, fun hs => ?_⟩
    · show d.blink.Owned
      rw [hoff.2]
      exact Blink1.owned_off h.owned
    · rcases since_snoc.mp hs with hs | ⟨hs, _⟩
      · cases hs
      · exact absurd hoff.1 hs
  · refine ⟨(Blink1.fire_spec h.owned hf).1, fun hs => ?_⟩
    obtain ⟨_, hs⟩ := (since_snoc.mp hs).resolve_left (by rintro ⟨⟩)
    show 0 < d.jobs ∨ Agrees (w.menu d.primaryMnu).value d.blink
    rw [hj, hp]
    exact (h.shown hs).imp_right fun ha => ha.fire h.owned hf
  · refine ⟨?_, fun hs => ?_⟩
    · show d.blink.Owned
      rw [hk]
      exact h.owned
    · obtain ⟨_, hs⟩ := (since_snoc.mp hs).resolve_left (by rintro ⟨⟩)
      show 0 < d.jobs ∨ Agrees (w.menu d.primaryMnu).value d.blink
      rw [hp, hk]
      exact (h.shown hs).imp (fun hp => lt_of_lt_of_le hp hj) fun ha => ha.enumerate k

/-- A `makeMenus` of the primary menu adds a job; that of another leaves the value the job reads. -/
theorem Lit.makeMenus (h : Lit es w) (m : ι) (env : Env) :
    Lit (es ++ [.makeMenus m env]) ((w.dequeue m).rebuild m env) := by
  by_cases hp : w.delegate.primaryMnu = m
  · have hd : ((w.dequeue m).rebuild m env).delegate.jobs = w.delegate.jobs + 1 := by
      simp only [World.rebuild, World.dequeue]
      rw [AppDelegate.setTitle_primary _ hp]
    refine h.frame (by rintro ⟨⟩) ?_ (by omega) (Or.inr (by omega))
    simp only [World.rebuild, World.dequeue]
    rw [AppDelegate.setTitle_frame]
  · have hd : ((w.dequeue m).rebuild m env).delegate = w.delegate := AppDelegate.setTitle_other _ (Ne.symm hp)
    refine h.frame (by rintro ⟨⟩) (by rw [hd]) (by rw [hd]) (Or.inl ?_)
    unfold World.primaryValue
    rw [hd]
    simp only [World.rebuild, World.dequeue, Function.update_of_ne hp]

/-- Nothing but a whole `makeMenus` gives a menu another value. -/
theorem value_update (w : World ι) {m : ι} {x : SvrMnuMenu} (h : x.value = (w.menu m).value) (k : ι) :
    (Function.update w.menu m x k).value = (w.menu k).value := by
  by_cases hk : k = m
  · subst hk
    rw [Function.update_self, h]
  · rw [Function.update_of_ne hk]

theorem lit_step {e : Event ι} (h : Lit es w) (hret : e.selects = true → w.Returns bar e)
    (hs : World.Step bar w e w') : Lit (es ++ [e]) w' := by
  cases hs with
  | notice hn => exact h.notice hn
  | suspended =>
    rw [AppDelegate.restartTimer_frame]
    exact h.frame (by rintro ⟨⟩) rfl (le_refl _) (Or.inl rfl)
  | poll =>
    rw [AppDelegate.restartTimer_frame]
    refine h.frame (by rintro ⟨⟩) rfl (le_refl _) (Or.inl ?_)
    simp only [World.primaryValue, World.polled, SvrMnuMenu.refresh]
    split <;> rfl
  | complete reply =>
    refine h.frame (by rintro ⟨⟩) rfl (le_refl _) (Or.inl ?_)
    exact value_update w (by rw [World.completionHandler_eq]) _
  | makeMenus env => exact h.makeMenus _ env
  | @makeMenusRaised m _ x _ _ hx =>
    have hv : x.value = (w.menu m).value := by
      obtain ⟨_, _, _, rfl⟩ := hx
      rfl
    exact h.frame (by rintro ⟨⟩) rfl (le_refl _) (Or.inl (value_update w hv _))
  | setPrimaryMnu env hm => exact h.frame (by rintro ⟨⟩) rfl (Nat.le_succ _) (Or.inr (Nat.succ_pos _))
  | setPrimaryRaised _ hr => exact absurd (hret rfl) hr
  | enableBlink => exact ⟨owned_blinkFor h.owned _, fun _ => Or.inr (blinkFor_agrees h.owned _)⟩

theorem lit_launch (L : Launch ι) : Lit [] (World.launch L) where
  owned := by
    rw [(launch_blink L).1]
    exact Blink1.owned_init _
  shown := by
    rintro ⟨es₁, e, es₂, he, _⟩
    cases es₁ <;> cases he

/-- **The LED agrees with the primary menu**, in every run whose `setPrimaryMnu:` calls can read the responses of all
menus: once a job has run since the LED was turned off, and no job is left, it shows the value of the primary menu. -/
theorem led_agrees (L : Launch ι) (h : (World.machine L.bar).run (World.launch L) es = some w)
    (hread : (World.machine L.bar).Along (fun w e => e.selects = true → w.Reads L.bar e) (World.launch L) es)
    (hjobs : w.delegate.jobs = 0) (hs : JobSinceOff es) :
    (w.primaryValue ≤ 0 → w.delegate.blink.currentColor = some NSColor.black ∧ w.delegate.blink.Dark) ∧
    (w.primaryValue = 1 → w.delegate.blink.Pulsing ⟨1, 1, 0⟩) ∧
    (2 ≤ w.primaryValue → w.delegate.blink.Pulsing ⟨1, 0, 1⟩) := by
  have hl : Lit es w := Machine.run_events_along (lit_launch L)
    (fun _ _ _ _ hi hr hs => lit_step hi (fun hsel => World.returns_iff.mpr (hr hsel)) (World.step_cases hs)) h hread
  have ha := (hl.shown hs).resolve_left (by omega)
  exact ⟨ha.none, ha.one, ha.more⟩

/-- The first reply of a launch tells of one player, and the LED turns yellow. -/
theorem led_agrees_onePlayer : ∃ w,
    (World.machine appBar).run (World.launch firstLaunch) [.runRefresh,
      .complete .wfhMenu 0 (.data (some onePlayer)), .makeMenus .wfhMenu ⟨none, true⟩, .runEnableBlink] = some w ∧
    w.delegate.blink.Pulsing ⟨1, 1, 0⟩ := by
  have hrun : ((World.machine appBar).run (World.launch firstLaunch) [.runRefresh,
      .complete .wfhMenu 0 (.data (some onePlayer)), .makeMenus .wfhMenu ⟨none, true⟩, .runEnableBlink]).any
      (fun w => w.delegate.jobs == 0 && w.primaryValue == 1) = true := by decide +kernel
  obtain ⟨w, hw, hp⟩ := (Option.any_eq_true _ _).mp hrun
  simp only [Bool.and_eq_true, beq_iff_eq] at hp
  refine ⟨w, hw, (led_agrees firstLaunch hw ?_ hp.1 ?_).2.1 hp.2⟩
  · decide +kernel
  · exact ⟨[_, _, _], _, [], rfl, rfl, fun f hf => absurd hf List.not_mem_nil⟩

/-- The second menu knows of one player, a job has turned the LED off for the first, and the response of the first
cannot be read any more. The `setPrimaryMnu:` that chooses the second menu ends there and starts no job: the LED is dark
for a primary menu with one player. -/
theorem led_dark_after_exception : ∃ w, (World.machine appBar).run (World.launch firstLaunch) [.runRefresh,
      .complete .anuMenu 0 (.data (some onePlayer)), .makeMenus .anuMenu ⟨none, true⟩,
      .complete .wfhMenu 0 (.data (some nullGames)), .notice .didWake, .runEnableBlink,
      .setPrimaryMnu .anuMenu fun _ => ⟨none, true⟩] = some w ∧
    JobSinceOff [.runRefresh, .complete .anuMenu 0 (.data (some onePlayer)), .makeMenus .anuMenu ⟨none, true⟩,
      .complete .wfhMenu 0 (.data (some nullGames)), .notice .didWake, .runEnableBlink,
      .setPrimaryMnu Mnu.anuMenu fun _ => ⟨none, true⟩] ∧
    w.delegate.jobs = 0 ∧ w.primaryValue = 1 ∧ ¬ w.delegate.blink.Pulsing ⟨1, 1, 0⟩ := by
  have hrun : ((World.machine appBar).run (World.launch firstLaunch) [.runRefresh,
      .complete .anuMenu 0 (.data (some onePlayer)), .makeMenus .anuMenu ⟨none, true⟩,
      .complete .wfhMenu 0 (.data (some nullGames)), .notice .didWake, .runEnableBlink,
      .setPrimaryMnu .anuMenu fun _ => ⟨none, true⟩]).any (fun w => w.delegate.jobs == 0 && w.primaryValue == 1 &&
        w.delegate.blink.timers.live.length == 0) = true := by decide +kernel
  obtain ⟨w, hw, hp⟩ := (Option.any_eq_true _ _).mp hrun
  simp only [Bool.and_eq_true, beq_iff_eq] at hp
  obtain ⟨⟨hj, hv⟩, hl⟩ := hp
  refine ⟨w, hw, ⟨[_, _, _, _, _], .runEnableBlink, [_], rfl, rfl, fun e he => ?_⟩, hj, hv, ?_⟩
  · cases List.mem_singleton.mp he
    exact Bool.false_ne_true
  · rintro ⟨-, hlive⟩
    omega

/-! ## An inactive user -/

/-- A job that finds players to show while the user is inactive: `_enableBlink` does not look, as `_refresh` does. -/
def World.JobWhileDeactive (w : World ι) (e : Event ι) : Prop :=
  e = .runEnableBlink ∧ w.delegate.userDeactive = true ∧ 0 < w.primaryValue

instance (w : World ι) : ∀ e, Decidable (w.JobWhileDeactive e)
  | .runEnableBlink =>
    decidable_of_iff (w.delegate.userDeactive = true ∧ 0 < w.primaryValue) (by simp [World.JobWhileDeactive])
  | .notice _ | .runRefresh | .complete _ _ _ | .makeMenus _ _ | .setPrimaryMnu _ _ => isFalse (by rintro ⟨⟨⟩, _⟩)

structure Resting (w : World ι) : Prop where
  owned : w.delegate.blink.Owned
  dark : w.delegate.userDeactive = true → w.delegate.blink.Dark

theorem resting_step {e : Event ι} (h : Resting w) (hc : ¬ w.JobWhileDeactive e) (hs : World.Step bar w e w') :
    Resting w' := by
  cases hs with
  | @notice n d hn =>
    obtain ⟨_, ⟨_, hd⟩ | ⟨_, hu, i, hf⟩ | ⟨_, hu, k, hk⟩⟩ := blink_notice hn
    · refine ⟨?_, fun _ => ?_⟩
      · show d.blink.Owned
        rw [hd]
        exact Blink1.owned_off h.owned
      · show d.blink.Dark
        rw [hd]
        exact Blink1.dark_off h.owned
    · refine ⟨(Blink1.fire_spec h.owned hf).1, fun hu' => ?_⟩
      -- a dark LED has no timer that could fire
      rw [Blink1.fire_none (h.dark (hu ▸ hu')).1] at hf
      cases hf
    · refine ⟨?_, fun hu' => ?_⟩
      · show d.blink.Owned
        rw [hk]
        exact h.owned
      · show d.blink.Dark
        rw [hk]
        exact h.dark (hu hu')
  | suspended =>
    rw [AppDelegate.restartTimer_frame]
    exact ⟨h.owned, h.dark⟩
  | poll =>
    rw [AppDelegate.restartTimer_frame]
    exact ⟨h.owned, h.dark⟩
  | makeMenus env =>
    unfold World.rebuild
    rw [AppDelegate.setTitle_frame]
    exact ⟨h.owned, h.dark⟩
  | setPrimaryRaised _ _ hw =>
    rw [hw.rest, AppDelegate.setupMenu_eq]
    exact ⟨h.owned, h.dark⟩
  | complete | makeMenusRaised | setPrimaryMnu => exact ⟨h.owned, h.dark⟩
  | enableBlink =>
    refine ⟨owned_blinkFor h.owned _, fun hu => ?_⟩
    refine (dark_blinkFor h.owned (Int32.not_lt.mp fun hv => hc ⟨rfl, hu, ?_⟩)).2
    exact hv

theorem resting_launch (L : Launch ι) : Resting (World.launch L) where
  owned := (lit_launch L).owned
  dark := by
    rw [(launch_blink L).2]
    intro h
    cases h

theorem pulsing_blinkFor {b : Blink1} (h : b.Owned) {value : Int32} (hv : 0 < value) :
    (blinkFor value b).timers.live.length = 1 := by
  rw [blinkFor_pos hv]
  split
  · exact (Blink1.pulsing_setPulse h _).2
  · exact (Blink1.pulsing_setPulse h _).2

/-- **The LED is dark while the user is inactive**, as long as no job has found players to show in that time; the first
job that does makes it pulse. -/
theorem dark_while_deactive (L : Launch ι) (h : (World.machine L.bar).run (World.launch L) es = some w)
    (hc : (World.machine L.bar).Along (fun w e => ¬ w.JobWhileDeactive e) (World.launch L) es) :
    (w.delegate.userDeactive = true →
      w.delegate.blink.timers.live = [] ∧ w.delegate.blink.requested.head? = some (some NSColor.black)) ∧
    (∀ e w', w.JobWhileDeactive e → (World.machine L.bar).step w e = some w' →
      w'.delegate.userDeactive = true ∧ w'.delegate.blink.timers.live.length = 1) := by
  have hr : Resting w := Machine.invariant_along (resting_launch L)
    (fun _ _ _ hi hc hs => resting_step hi hc (World.step_cases hs)) h hc
  refine ⟨hr.dark, ?_⟩
  rintro e w' ⟨rfl, hu, hv⟩ hs
  cases World.step_cases hs with
  | enableBlink => exact ⟨hu, pulsing_blinkFor hr.owned hv⟩

/-- The LED is lit, the user becomes inactive, and the reply to another request fails: its job turns the LED off
again. -/
theorem dark_while_deactive_firstLaunch : ∃ v w,
    (World.machine appBar).run (World.launch firstLaunch) [.runRefresh,
      .complete .wfhMenu 0 (.data (some onePlayer)), .makeMenus .wfhMenu ⟨none, true⟩, .runEnableBlink] = some v ∧
    v.delegate.blink.timers.live.length = 1 ∧
    (World.machine appBar).run (World.launch firstLaunch) [.runRefresh,
      .complete .wfhMenu 0 (.data (some onePlayer)), .makeMenus .wfhMenu ⟨none, true⟩, .runEnableBlink,
      .notice .refresh, .runRefresh, .notice .didUserDeactive, .complete .wfhMenu 1 .error,
      .makeMenus .wfhMenu ⟨none, true⟩, .runEnableBlink] = some w ∧
    w.delegate.userDeactive = true ∧ w.delegate.blink.timers.live = [] ∧
    w.delegate.blink.requested.head? = some (some NSColor.black) := by
  have hlit : ((World.machine appBar).run (World.launch firstLaunch) [.runRefresh,
      .complete .wfhMenu 0 (.data (some onePlayer)), .makeMenus .wfhMenu ⟨none, true⟩, .runEnableBlink]).any
      (fun v => v.delegate.blink.timers.live.length == 1) = true := by decide +kernel
  have hrun : ((World.machine appBar).run (World.launch firstLaunch) [.runRefresh,
      .complete .wfhMenu 0 (.data (some onePlayer)), .makeMenus .wfhMenu ⟨none, true⟩, .runEnableBlink,
      .notice .refresh, .runRefresh, .notice .didUserDeactive, .complete .wfhMenu 1 .error,
      .makeMenus .wfhMenu ⟨none, true⟩, .runEnableBlink]).any (fun w => w.delegate.userDeactive) = true := by
    decide +kernel
  obtain ⟨v, hv, hone⟩ := (Option.any_eq_true _ _).mp hlit
  obtain ⟨w, hw, hu⟩ := (Option.any_eq_true _ _).mp hrun
  obtain ⟨hl, hd⟩ := (dark_while_deactive firstLaunch hw (by decide +kernel)).1 hu
  exact ⟨v, w, hv, beq_iff_eq.mp hone, hw, hu, hl, hd⟩

/-- A request is sent, the user becomes inactive, and the reply starts the LED. -/
theorem lit_while_deactive : ∃ w,
    (World.machine appBar).run (World.launch firstLaunch) [.runRefresh, .notice .didUserDeactive,
      .complete .wfhMenu 0 (.data (some onePlayer)), .makeMenus .wfhMenu ⟨none, true⟩, .runEnableBlink] = some w ∧
    w.delegate.userDeactive = true ∧ w.delegate.jobs = 0 ∧ ¬ w.delegate.blink.Dark := by
  have hrun : ((World.machine appBar).run (World.launch firstLaunch) [.runRefresh, .notice .didUserDeactive,
      .complete .wfhMenu 0 (.data (some onePlayer)), .makeMenus .wfhMenu ⟨none, true⟩, .runEnableBlink]).any
      (fun w => w.delegate.userDeactive && w.delegate.jobs == 0 && w.delegate.blink.timers.live.length == 1) =
        true := by decide +kernel
  obtain ⟨w, hw, hp⟩ := (Option.any_eq_true _ _).mp hrun
  simp only [Bool.and_eq_true, beq_iff_eq] at hp
  obtain ⟨⟨hu, hj⟩, hl⟩ := hp
  refine ⟨w, hw, hu, hj, ?_⟩
  rintro ⟨hd, _⟩
  rw [hd] at hl
  cases hl

end SvrMnu
