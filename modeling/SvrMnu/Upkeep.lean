import SvrMnu.RunLoop
import SvrMnu.Schedule

/-!
# What every nested run keeps up

Properties of the world that each callback and each statement of the menus keeps, so that they hold in every run of the
nested loops, however many calls wait and whichever of them an exception ends.

- `polls_nested`: the refresh timer is never lost, and left to itself the program comes to the next `_refresh` after two
  activities at most;
- `launcher_once`: no menu holds its launcher twice;
- `status_menu_nested`: the status menu and the rates in it follow the primary menu and the stored rate;
- `requests_while_suspended`: nothing is requested while nobody would see it.
-/

set_option autoImplicit false

namespace SvrMnu

open Sys Relation

variable {ι : Type} [DecidableEq ι] {bar : MenuBar ι}

/-! ## Frames of the statements -/

namespace World

variable {w w' : World ι}

/-- Statements change the delegate in its selection, its title and its jobs. -/
theorem Stmt.delegate (h : Stmt bar w w') : ∃ primaryMnu statusTitle statusMenu refresher primaryIndex jobs,
    w'.delegate = { w.delegate with
      primaryMnu := primaryMnu, statusTitle := statusTitle, statusMenu := statusMenu, refresher := refresher,
      primaryIndex := primaryIndex, jobs := jobs } := by
  cases h with
  | draw => exact ⟨_, _, _, _, _, _, rfl⟩
  | finish m titleString selfie installed =>
    obtain ⟨title, hd⟩ : ∃ title, (w.finishMenus m titleString selfie installed).delegate =
      w.delegate.setTitle title m := ⟨_, rfl⟩
    rw [hd, AppDelegate.setTitle_frame]
    exact ⟨_, _, _, _, _, _, rfl⟩
  | select hm =>
    unfold selectMnu
    rw [AppDelegate.setupMenu_eq]
    exact ⟨_, _, _, _, _, _, rfl⟩
  | store => exact ⟨_, _, _, _, _, _, rfl⟩

/-- What `finishMenus` adds to its menu, and that it tells the delegate. -/
theorem finishMenus_eq (w : World ι) (m : ι) (titleString : String) (selfie installed : Bool) : ∃ title value,
    w.finishMenus m titleString selfie installed =
      { w with
        menu := Function.update w.menu m { w.menu m with
          value := value
          title := titleString
          submenu := (w.menu m).submenu.filter (!·.isLauncher) ++ (if installed then [.launcher] else []) ++
            [.primarySetter (w.delegate.primaryMnu = m)] }
        delegate := w.delegate.setTitle title m } := by
  refine ⟨(w.menu m).gameInfo.map fun _ => toString (w.menu m).numPlayers,
    if (w.menu m).gameInfo.isSome then (if selfie then (w.menu m).numPlayers - 1 else (w.menu m).numPlayers)
    else -1, ?_⟩
  simp only [finishMenus, put, SvrMnuMenu.finishMenus, SvrMnuMenu.updateDelegate, SvrMnuMenu.statusText,
    SvrMnuMenu.removeLauncher, SvrMnuMenu.addItem, SvrMnuMenu.primarySetter, AppDelegate.delegate,
    AppDelegate.setTitle_primaryMnu]
  cases installed <;> simp

/-- They leave the requests and the queue of the `makeMenus` calls. -/
theorem Stmt.queues (h : Stmt bar w w') :
    w'.issued = w.issued ∧ w'.outstanding = w.outstanding ∧ w'.rebuilds = w.rebuilds := by
  cases h <;> exact ⟨rfl, rfl, rfl⟩

end World

theorem stmts_queues {w w' : World ι} (h : ReflTransGen (World.Stmt bar) w w') :
    w'.issued = w.issued ∧ w'.outstanding = w.outstanding ∧ w'.rebuilds = w.rebuilds := by
  refine RunLoop.stmts_invariant
    (I := fun v => v.issued = w.issued ∧ v.outstanding = w.outstanding ∧ v.rebuilds = w.rebuilds) ?_ h ⟨rfl, rfl, rfl⟩
  rintro v v' ⟨hi, ho, hr⟩ hs
  obtain ⟨hi', ho', hr'⟩ := hs.queues
  exact ⟨hi'.trans hi, ho'.trans ho, hr'.trans hr⟩

/-! ## The refresh timer -/

theorem scheduled_stmt {w w' : World ι} (h : Scheduled w.delegate) (hs : World.Stmt bar w w') :
    Scheduled w'.delegate := by
  obtain ⟨_, _, _, _, _, _, hd⟩ := hs.delegate
  rw [hd]
  exact ⟨h.owned, h.polling, h.deadline, h.rate_pos⟩

omit [DecidableEq ι] in
/-- What goes on by itself: time passes, the live timer fires once it is due, and a queued `_refresh` runs. -/
def Activity.unprompted : Activity ι → Bool
  | .callback (.notice (.clock _)) | .callback (.notice (.fireRefresh _)) | .callback .runRefresh => true
  | _ => false

/-- A queued `_refresh` runs at any depth, and is stamped with the time. -/
theorem runRefresh_step (bar : MenuBar ι) (s : RunLoop ι) (h : 0 < s.world.delegate.refreshes) : ∃ s',
    (RunLoop.machine bar).step s (.callback .runRefresh) = some s' ∧ s'.stack = s.stack ∧
    s'.world.delegate.now = s.world.delegate.now ∧ s'.world.delegate.lastRefresh = s.world.delegate.now := by
  let w : World ι := { s.world with
    delegate := { s.world.delegate with refreshes := s.world.delegate.refreshes - 1 } }
  refine ⟨⟨w._refresh bar, s.stack⟩, ?_, rfl, ?_⟩
  · simp only [RunLoop.machine, RunLoop.step, Event.isRebuild, Bool.false_eq_true, if_false, World.step, h, if_true,
      Option.map_some]
    rfl
  · simp only [World.refresh_eq]
    rw [AppDelegate.restartTimer_frame]
    split
    · exact ⟨rfl, rfl⟩
    · exact ⟨rfl, rfl⟩

/-- The live timer fires once it is due, at any depth, and queues a `_refresh`. -/
theorem timer_run (bar : MenuBar ι) (s : RunLoop ι) {i : Nat} {date : ℚ}
    (h : s.world.delegate.timers.live = [(i, date)]) : ∃ bs s',
    bs.length = 2 ∧ (∀ a ∈ bs, a.unprompted = true) ∧ (RunLoop.machine bar).run s bs = some s' ∧
    s'.stack = s.stack ∧ 0 < s'.world.delegate.refreshes ∧
    s'.world.delegate.now = max s.world.delegate.now date := by
  have hf := Timers.fire_of_live h
  have hnow : s.world.delegate.now ≤ max s.world.delegate.now date := le_max_left _ _
  have hdue : date ≤ max s.world.delegate.now date := le_max_right _ _
  let d : AppDelegate ι := { s.world.delegate with
    now := max s.world.delegate.now date, timers := s.world.delegate.timers.remove i }
  refine ⟨[.callback (.notice (.clock (max s.world.delegate.now date))), .callback (.notice (.fireRefresh i))],
    ⟨{ s.world with delegate := d.refresh }, s.stack⟩, rfl, ?_, ?_, rfl, Nat.succ_pos _, rfl⟩
  · intro a ha
    rcases List.mem_pair.mp ha with rfl | rfl
    · rfl
    · rfl
  · simp only [RunLoop.machine, Machine.run, RunLoop.step, Event.isRebuild, Bool.false_eq_true, if_false, World.step,
      AppDelegate.notice, hnow, if_true, Option.map_some, Option.bind_some, hf, hdue]
    rfl

/-- **Polling goes on in nested loops.** In every state of every run one refresh timer at most is live, there is a timer
or a queued `_refresh`, and the timer is due a rate after the last `_refresh`; and whatever waits, after two activities
at most that go on by themselves, without a notification from outside, a `_refresh` runs, stamped within a second of
that date or of the present. -/
theorem polls_nested (L : Launch ι) {as : List (Activity ι)} {s : RunLoop ι}
    (h : (RunLoop.machine L.bar).run (RunLoop.launch L) as = some s) :
    s.world.delegate.timers.live.length ≤ 1 ∧
    (s.world.delegate.timers.live ≠ [] ∨ 0 < s.world.delegate.refreshes) ∧
    (s.world.delegate.refreshes = 0 → ∀ t ∈ s.world.delegate.timers.live, OnRate s.world.delegate t.2) ∧
    ∃ bs s', bs.length ≤ 2 ∧ (∀ a ∈ bs, a.unprompted = true) ∧
      (RunLoop.machine L.bar).run s (bs ++ [.callback .runRefresh]) = some s' ∧
      s'.stack = s.stack ∧ s'.world.delegate.lastRefresh = s'.world.delegate.now ∧
      s'.world.delegate.now ≤ max s.world.delegate.now
        (s.world.delegate.lastRefresh + 60 * s.world.delegate.refreshRate + 1) := by
  have hi : Scheduled s.world.delegate :=
    RunLoop.world_invariant (I := fun w : World ι => Scheduled w.delegate)
      (fun w m hi => hi) (fun w e w' hi _ hs => scheduled_step hi hs) (fun w w' hi hs => scheduled_stmt hi hs)
      (scheduled_launch L) h
  refine ⟨?_, hi.polling, hi.deadline, ?_⟩
  · rcases hi.owned with hl | ⟨i, date, -, hl⟩
    · rw [hl]
      exact Nat.zero_le _
    · rw [hl]
      exact le_refl _
  · by_cases hz : 0 < s.world.delegate.refreshes
    · obtain ⟨s', hs, hst, hnow, hlast⟩ := runRefresh_step L.bar s hz
      refine ⟨[], s', Nat.zero_le _, fun a ha => absurd ha List.not_mem_nil, (Machine.run_single _ _).trans hs, hst,
        by rw [hlast, hnow], ?_⟩
      rw [hnow]
      exact le_max_left _ _
    · have hzero : s.world.delegate.refreshes = 0 := by omega
      rcases hi.owned with hl | ⟨i, date, -, hl⟩
      · exact absurd hl (hi.polling.resolve_right hz)
      · obtain ⟨bs, s₁, hlen, hbs, hs₁, hst₁, hz₁, hnow₁⟩ := timer_run L.bar s hl
        obtain ⟨s₂, hs₂, hst₂, hnow₂, hlast₂⟩ := runRefresh_step L.bar s₁ hz₁
        have hdate : OnRate s.world.delegate date :=
          hi.deadline hzero (i, date) (by rw [hl]; exact List.mem_singleton_self _)
        refine ⟨bs, s₂, hlen.le, hbs, ?_, hst₂.trans hst₁, by rw [hlast₂, hnow₂], ?_⟩
        · rw [Machine.run_append, hs₁]
          exact (Machine.run_single _ _).trans hs₂
        · rw [hnow₂, hnow₁]
          exact max_le_max (le_refl _) (le_of_lt hdate.2)

theorem polls_nested_waiting : ∃ s s' bs,
    (RunLoop.machine appBar).run (RunLoop.launch firstLaunch) RunLoop.waiting = some s ∧
    s.stack = [⟨.wfhMenu, .queued⟩] ∧ s.world.delegate.timers.live.length ≤ 1 ∧
    (∀ a ∈ bs, a.unprompted = true) ∧ (RunLoop.machine appBar).run s (bs ++ [.callback .runRefresh]) = some s' ∧
    s'.world.delegate.lastRefresh = s'.world.delegate.now := by
  obtain ⟨s, hs, hst⟩ := RunLoop.waiting_run
  obtain ⟨hone, -, -, bs, s', -, hbs, hs', -, hlast, -⟩ := polls_nested firstLaunch hs
  exact ⟨s, s', bs, hs, hst, hone, hbs, hs', hlast⟩

/-! ## The launchers -/

/-- The launcher items of a menu. -/
def launchers (x : SvrMnuMenu) : Nat := x.submenu.countP Item.isLauncher

theorem launchers_draw {x y : SvrMnuMenu} (h : SvrMnuMenu.Draws x y) : launchers y ≤ launchers x := by
  cases h with
  | clear => exact Nat.zero_le _
  | count => exact le_refl _
  | row title =>
    unfold launchers SvrMnuMenu.addItem
    rw [List.countP_append]
    exact le_refl _

/-- `finishMenus` takes the launcher out before it adds it. -/
theorem launchers_finish (w : World ι) (m : ι) (titleString : String) (selfie installed : Bool) :
    launchers ((w.finishMenus m titleString selfie installed).menu m) ≤ 1 := by
  have hfilter (l : List Item) : (l.filter (!·.isLauncher)).countP Item.isLauncher = 0 := by
    rw [List.countP_eq_zero]
    intro i hi
    have hn := (List.mem_filter.mp hi).2
    simpa using hn
  obtain ⟨title, value, hw⟩ := World.finishMenus_eq w m titleString selfie installed
  rw [hw]
  simp only [launchers, Function.update_self]
  rw [List.countP_append, List.countP_append, hfilter]
  cases installed with
  | false => exact Nat.zero_le _
  | true => exact le_refl _

/-- **No menu holds its launcher twice**, at whatever point its `makeMenus` calls wait or raise. -/
theorem launcher_once (L : Launch ι) {as : List (Activity ι)} {s : RunLoop ι}
    (h : (RunLoop.machine L.bar).run (RunLoop.launch L) as = some s) (m : ι) :
    (s.world.menu m).submenu.countP Item.isLauncher ≤ 1 := by
  refine RunLoop.world_invariant (I := fun w : World ι => launchers (w.menu m) ≤ 1) ?_ ?_ ?_ ?_ h
  · exact fun w k hi => hi
  · intro w e w' hi he hs
    cases hs with
    | notice | suspended | enableBlink => exact hi
    | poll =>
      simp only [World.polled]
      split
      · exact hi
      · exact hi
    | @complete k i reply =>
      by_cases hk : m = k
      · subst hk
        simp only [World.complete, Function.update_self, World.completionHandler_eq]
        exact hi
      · simp only [World.complete, Function.update_of_ne hk]
        exact hi
    | makeMenus | makeMenusRaised | setPrimaryMnu | setPrimaryRaised => cases he
  · intro w w' hi hs
    cases hs with
    | @draw k x hd =>
      by_cases hk : m = k
      · subst hk
        show launchers (Function.update w.menu m x m) ≤ 1
        rw [Function.update_self]
        exact le_trans (launchers_draw hd) hi
      · show launchers (Function.update w.menu k x m) ≤ 1
        rw [Function.update_of_ne hk]
        exact hi
    | finish k titleString selfie installed =>
      by_cases hk : m = k
      · subst hk
        exact launchers_finish w m titleString selfie installed
      · simp only [World.finishMenus, World.put, Function.update_of_ne hk]
        exact hi
    | select | store => exact hi
  · simp only [RunLoop.launch, World.launch, World.init_eq, launchers]
    cases L.installed m with
    | false => exact Nat.zero_le _
    | true => exact le_refl _

/-- Two replies of one menu, the second `makeMenus` started while the first waits: the menu gets two `Set as primary`
items, and one launcher. -/
theorem launcher_once_overlapping : ∃ s, (RunLoop.machine appBar).run (RunLoop.launch firstLaunch)
      [.callback .runRefresh, .callback (.notice .forceRefresh), .callback .runRefresh,
        .callback (.complete .wfhMenu 0 (.data (some onePlayer))),
        .callback (.complete .wfhMenu 1 (.data (some onePlayer))), .makeMenus .wfhMenu true, .makeMenus .wfhMenu true,
        .answer none fun _ => true, .answer none fun _ => true] = some s ∧
    (s.world.menu .wfhMenu).submenu.countP Item.isSetter = 2 ∧
    (s.world.menu .wfhMenu).submenu.countP Item.isLauncher ≤ 1 := by
  have hrun : ((RunLoop.machine appBar).run (RunLoop.launch firstLaunch)
      [.callback .runRefresh, .callback (.notice .forceRefresh), .callback .runRefresh,
        .callback (.complete .wfhMenu 0 (.data (some onePlayer))),
        .callback (.complete .wfhMenu 1 (.data (some onePlayer))), .makeMenus .wfhMenu true, .makeMenus .wfhMenu true,
        .answer none fun _ => true, .answer none fun _ => true]).any
      (fun s => (s.world.menu .wfhMenu).submenu.countP Item.isSetter == 2) = true := by decide +kernel
  obtain ⟨s, hs, hp⟩ := (Option.any_eq_true _ _).mp hrun
  exact ⟨s, hs, beq_iff_eq.mp hp, launcher_once firstLaunch hs .wfhMenu⟩

/-! ## The status menu -/

/-- The rates in the submenu of `refresher`, each with its check mark. -/
def rates (refreshRate : Int) : List (Int × Bool) := [1, 2, 5, 10].map fun tag => (tag, tag == refreshRate)

/-- The status menu follows the primary menu and the stored rate. -/
structure AppDelegate.Arranged (bar : MenuBar ι) (d : AppDelegate ι) : Prop where
  mem : d.primaryMnu ∈ bar.mnus
  layout : d.statusMenu = AppDelegate.layout bar d.primaryMnu
  rates : d.refresher = some (rates d.refreshRate)

/-- The menus of the bar, in another order. -/
theorem perm_layout {m : ι} (hm : m ∈ bar.mnus) :
    (AppDelegate.layout bar m).Perm (bar.mnus.map .mnu ++ [.refresher, .loginMenu, .quit]) := by
  have he : bar.mnus.erase m = bar.mnus.filter (· ≠ m) := by
    rw [bar.nodup.erase_eq_filter]
    refine List.filter_congr fun k _ => ?_
    by_cases hk : k = m <;> simp [hk]
  have hp : (m :: bar.mnus.filter (· ≠ m)).Perm bar.mnus := by
    rw [← he]
    exact (List.perm_cons_erase hm).symm
  exact (hp.map StatusMenuItem.mnu).append_right _

/-- Marking the rates anew only looks at the tags. -/
theorem map_rates (old new : Int) : (rates old).map (fun i => (i.1, i.1 == new)) = rates new := by
  unfold rates
  rw [List.map_map]
  rfl

/-- One rate is checked if the stored one is in the menu, and none otherwise. -/
theorem countP_rates (refreshRate : Int) :
    (rates refreshRate).countP Prod.snd = if refreshRate ∈ ([1, 2, 5, 10] : List Int) then 1 else 0 := by
  have hcount : (rates refreshRate).countP Prod.snd = ([1, 2, 5, 10] : List Int).count refreshRate := by
    unfold rates
    rw [List.countP_map]
    rfl
  have hnd : ([1, 2, 5, 10] : List Int).Nodup := by decide
  rw [hcount, hnd.count]

theorem arranged_notice {d d' : AppDelegate ι} {n : Notice} (h : d.Arranged bar) (hn : d.notice n = some d') :
    d'.Arranged bar := by
  cases hn' : n with
  | changeRefreshRate tag =>
    subst hn'
    simp only [AppDelegate.notice] at hn
    split at hn
    · cases Option.some.inj hn
      simp only [AppDelegate.changeRefreshRate]
      rw [AppDelegate.addTimer_frame]
      refine ⟨h.mem, h.layout, ?_⟩
      show d.refresher.map _ = some (rates tag)
      rw [h.rates, Option.map_some, map_rates]
    · cases hn
  | _ =>
    cases AppDelegate.notice_cases hn with
    | changeRefreshRate => cases hn'
    | _ => exact ⟨h.mem, h.layout, h.rates⟩

/-- A `setupMenu` lays the menu out anew, and makes the rates only once. -/
theorem arranged_setupMenu {d : AppDelegate ι} (hm : d.primaryMnu ∈ bar.mnus)
    (hr : d.refresher = none ∨ d.refresher = some (rates d.refreshRate)) : (d.setupMenu bar).Arranged bar := by
  rw [AppDelegate.setupMenu_eq]
  refine ⟨hm, rfl, ?_⟩
  unfold AppDelegate.setupMenu AppDelegate.changeRefreshRate
  rcases hr with hr | hr
  · simp only [hr]
    rfl
  · simp only [hr]

theorem arranged_run (L : Launch ι) {as : List (Activity ι)} {s : RunLoop ι}
    (h : (RunLoop.machine L.bar).run (RunLoop.launch L) as = some s) : s.world.delegate.Arranged L.bar := by
  refine RunLoop.world_invariant (I := fun w : World ι => w.delegate.Arranged L.bar) ?_ ?_ ?_ ?_ h
  · exact fun w m hi => hi
  · intro w e w' hi he hs
    cases hs with
    | notice hn => exact arranged_notice hi hn
    | suspended | poll =>
      simp only [World.polled]
      rw [AppDelegate.restartTimer_frame]
      exact ⟨hi.mem, hi.layout, hi.rates⟩
    | complete => exact hi
    | enableBlink => exact ⟨hi.mem, hi.layout, hi.rates⟩
    | makeMenus | makeMenusRaised | setPrimaryMnu | setPrimaryRaised => cases he
  · intro w w' hi hs
    cases hs with
    | draw => exact hi
    | finish m titleString selfie installed =>
      obtain ⟨title, hd⟩ : ∃ title, (w.finishMenus m titleString selfie installed).delegate =
        w.delegate.setTitle title m := ⟨_, rfl⟩
      rw [hd, AppDelegate.setTitle_frame]
      exact ⟨hi.mem, hi.layout, hi.rates⟩
    | select hm => exact arranged_setupMenu hm (Or.inr hi.rates)
    | store => exact ⟨hi.mem, hi.layout, hi.rates⟩
  · have hrefresh {d : AppDelegate ι} (hd : d.Arranged L.bar) : d.refresh.Arranged L.bar :=
      ⟨hd.mem, hd.layout, hd.rates⟩
    exact hrefresh (arranged_setupMenu (List.get_mem _ _) (Or.inl rfl))

/-- **The status menu is in order in every nested run**: the primary menu is one of the bar and comes first, each other
menu comes once after it, and a rate of the menu is checked iff it is the one that is stored, so that none is when the
stored rate is not in the menu. -/
theorem status_menu_nested (L : Launch ι) {as : List (Activity ι)} {s : RunLoop ι}
    (h : (RunLoop.machine L.bar).run (RunLoop.launch L) as = some s) :
    s.world.delegate.primaryMnu ∈ L.bar.mnus ∧
    s.world.delegate.statusMenu = .mnu s.world.delegate.primaryMnu ::
      (L.bar.mnus.filter (· ≠ s.world.delegate.primaryMnu)).map .mnu ++ [.refresher, .loginMenu, .quit] ∧
    s.world.delegate.statusMenu.Perm (L.bar.mnus.map .mnu ++ [.refresher, .loginMenu, .quit]) ∧
    ∃ items, s.world.delegate.refresher = some items ∧ items.map Prod.fst = [1, 2, 5, 10] ∧
      (∀ i ∈ items, i.2 = true ↔ i.1 = s.world.delegate.refreshRate) ∧
      items.countP Prod.snd = if s.world.delegate.refreshRate ∈ ([1, 2, 5, 10] : List Int) then 1 else 0 := by
  have hi := arranged_run L h
  refine ⟨hi.mem, hi.layout, ?_, rates s.world.delegate.refreshRate, hi.rates, rfl, ?_, countP_rates _⟩
  · rw [hi.layout]
    exact perm_layout hi.mem
  · intro i hmem
    obtain ⟨tag, -, rfl⟩ := List.mem_map.mp hmem
    exact beq_iff_eq

theorem status_menu_waiting : ∃ s,
    (RunLoop.machine appBar).run (RunLoop.launch firstLaunch) RunLoop.waiting = some s ∧
    s.world.delegate.statusMenu.Perm [.mnu .wfhMenu, .mnu .anuMenu, .refresher, .loginMenu, .quit] := by
  obtain ⟨s, hs, -⟩ := RunLoop.waiting_run
  exact ⟨s, hs, (status_menu_nested firstLaunch hs).2.2.1⟩

/-! ## While nobody would see it -/

/-- The notification may end what suspends the requests. -/
def Notice.wakes : Notice → Bool
  | .forceRefresh | .didWake | .didUserActive => true
  | .enumerate serialnums => 0 < serialnums
  | _ => false

omit [DecidableEq ι] in
def Activity.wakes : Activity ι → Bool
  | .callback (.notice n) => n.wakes
  | _ => false

theorem isHere_blinkFor (value : Int32) (b : Blink1) : (blinkFor value b).isHere = b.isHere := by
  unfold blinkFor
  split <;> split <;> (try split) <;> rfl

theorem isHere_fire {b b' : Blink1} {i : Nat} (h : b.fire i = some b') : b'.isHere = b.isHere := by
  obtain ⟨⟨selector, timers⟩, -, rfl⟩ := Option.map_eq_some_iff.mp h
  cases selector <;> rfl

omit [DecidableEq ι] in
/-- What suspends the requests lasts until a notification that wakes. -/
theorem suspended_notice {d d' : AppDelegate ι} {n : Notice} (h : d.suspended = true) (hw : n.wakes = false)
    (hn : d.notice n = some d') : d'.suspended = true := by
  have hs : d.userDeactive = true ∨ (d.screenAsleep = true ∧ d.blink.isHere = false) := by
    simpa [AppDelegate.suspended] using h
  have hgoal (hs' : d'.userDeactive = true ∨ (d'.screenAsleep = true ∧ d'.blink.isHere = false)) :
      d'.suspended = true := by simpa [AppDelegate.suspended] using hs'
  apply hgoal
  cases AppDelegate.notice_cases hn with
  | forceRefresh | didWake | didUserActive => cases hw
  | didScreenSleep | didSleep => exact hs.imp_right fun ha => ⟨rfl, ha.2⟩
  | didUserDeactive => exact Or.inl rfl
  | changeRefreshRate =>
    rw [AppDelegate.addTimer_frame]
    exact hs
  | firePulse hf =>
    refine hs.imp_right fun ha => ⟨ha.1, ?_⟩
    exact (isHere_fire hf).trans ha.2
  | enumerate serialnums =>
    refine hs.imp_right fun ha => ⟨ha.1, ?_⟩
    exact hw
  | clock | refresh | updateRefresher | fireRefresh => exact hs

theorem suspended_stmts {w w' : World ι} (h : ReflTransGen (World.Stmt bar) w w') :
    w'.delegate.suspended = w.delegate.suspended := by
  refine RunLoop.stmts_invariant (I := fun v => v.delegate.suspended = w.delegate.suspended) ?_ h rfl
  intro v v' hi hs
  obtain ⟨_, _, _, _, _, _, hd⟩ := hs.delegate
  rw [hd]
  exact hi

theorem suspended_step {s s' : RunLoop ι} {a : Activity ι} (h : s.world.delegate.suspended = true)
    (hw : a.wakes = false) (hs : (RunLoop.machine bar).step s a = some s') :
    s'.world.issued = s.world.issued ∧ s'.world.delegate.suspended = true := by
  rcases RunLoop.activity_cases hs with ⟨e, rfl, he, hstep, -⟩ | ⟨m, installed, -, -, hw'⟩ | ⟨-, -, hw'⟩
  · generalize s'.world = w' at hstep
    cases hstep with
    | notice hn => exact ⟨rfl, suspended_notice h hw hn⟩
    | suspended => exact ⟨rfl, (AppDelegate.suspended_restartTimer _ _).trans h⟩
    | poll _ hguard =>
      -- the guard of `_refresh` is what the state already says
      have hguard := (AppDelegate.suspended_restartTimer _ _).symm.trans hguard
      rw [h] at hguard
      cases hguard
    | complete => exact ⟨rfl, h⟩
    | enableBlink =>
      refine ⟨rfl, ?_⟩
      simp only [World._enableBlink, AppDelegate.suspended, isHere_blinkFor]
      exact h
    | makeMenus | makeMenusRaised | setPrimaryMnu | setPrimaryRaised => cases he
  · exact ⟨(stmts_queues hw').1, (suspended_stmts hw').trans h⟩
  · exact ⟨(stmts_queues hw').1, (suspended_stmts hw').trans h⟩

/-- **Nothing is requested while nobody would see it**: from a state in which the user is inactive, or the screen asleep
and no blink(1) attached, no activity sends a request until one that wakes; and the first `_refresh` after the user is
active again, or asks for one, sends a request for each menu of the bar. -/
theorem requests_while_suspended {s s' : RunLoop ι} {as : List (Activity ι)}
    (h : s.world.delegate.suspended = true) (hs : (RunLoop.machine bar).run s as = some s')
    (hw : ∀ a ∈ as, a.wakes = false) :
    s'.world.issued = s.world.issued ∧ s'.world.delegate.suspended = true ∧
    ∀ n, n = .forceRefresh ∨ n = .didUserActive → ∃ s'',
      (RunLoop.machine bar).run s' [.callback (.notice n), .callback .runRefresh] = some s'' ∧
      ∀ m ∈ bar.mnus, s''.world.issued m = s.world.issued m + 1 := by
  have hi : s'.world.issued = s.world.issued ∧ s'.world.delegate.suspended = true := by
    refine Machine.invariant_along
      (I := fun v : RunLoop ι => v.world.issued = s.world.issued ∧ v.world.delegate.suspended = true)
      (C := fun _ a => a.wakes = false) ⟨rfl, h⟩ ?_ hs (Machine.along_of_forall hw s)
    rintro v a v' ⟨hv, hsusp⟩ ha hstep
    obtain ⟨hi, hsusp'⟩ := suspended_step hsusp ha hstep
    exact ⟨hi.trans hv, hsusp'⟩
  refine ⟨hi.1, hi.2, ?_⟩
  rintro n hn
  have hnotice : ∃ d, s'.world.delegate.notice n = some d ∧ 0 < d.refreshes ∧ d.suspended = false := by
    rcases hn with rfl | rfl
    · exact ⟨_, rfl, Nat.succ_pos _, rfl⟩
    · exact ⟨_, rfl, Nat.succ_pos _, rfl⟩
  obtain ⟨d, hd, hpos, hsusp⟩ := hnotice
  have hrestart : { d with refreshes := d.refreshes - 1 }.restartTimer.suspended = false :=
    (AppDelegate.suspended_restartTimer _ _).trans hsusp
  let w : World ι := { s'.world with delegate := { d with refreshes := d.refreshes - 1 } }
  refine ⟨⟨w._refresh bar, s'.stack⟩, ?_, fun m hm => ?_⟩
  · simp only [RunLoop.machine, Machine.run, RunLoop.step, Event.isRebuild, Bool.false_eq_true, if_false, World.step,
      hd, hpos, if_true, Option.map_some, Option.bind_some]
    rfl
  · simp only [World.refresh_eq, w, hrestart, Bool.false_eq_true, if_false, World.polled, hm, if_true, hi.1]

/-- The user is inactive, a `_refresh` is due, and a `makeMenus` still waits. -/
theorem requests_while_waiting : ∃ s s' : RunLoop Mnu, s.stack = [⟨.wfhMenu, .queued⟩] ∧
    (RunLoop.machine appBar).run s [.callback (.notice .refresh), .callback .runRefresh,
      .answer none fun _ => true] = some s' ∧ s'.world.issued = s.world.issued := by
  have hrun : ((RunLoop.machine appBar).run (RunLoop.launch firstLaunch)
      (RunLoop.waiting ++ [.callback (.notice .didUserDeactive)])).any (fun s => s.world.delegate.suspended &&
        s.stack == [⟨.wfhMenu, .queued⟩] && ((RunLoop.machine appBar).run s [.callback (.notice .refresh),
          .callback .runRefresh, .answer none fun _ => true]).isSome) = true := by decide +kernel
  obtain ⟨s, -, hp⟩ := (Option.any_eq_true _ _).mp hrun
  simp only [Bool.and_eq_true, beq_iff_eq] at hp
  obtain ⟨⟨hsusp, hst⟩, hsome⟩ := hp
  obtain ⟨s', hs'⟩ := Option.isSome_iff_exists.mp hsome
  exact ⟨s, s', hst, hs', (requests_while_suspended hsusp hs' (by decide)).1⟩

end SvrMnu
