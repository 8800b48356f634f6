import SvrMnu.App

/-!
# What a step of the application does

Every method that loops over the menus or rebuilds one is shown to be a plain update of the world, once, so that no
invariant has to look into it again:

- `makeMenus_run`: a `makeMenus` that can read its response is `rebuild`, one menu and the title of the delegate;
- `setPrimaryMnu_run`: if all of them can, a `setPrimaryMnu:` is `switched`, all menus of the bar and the delegate;
- `returns_iff`: a call runs to its end iff it can read the responses it finds;
- `keeps_makeMenus`, `keeps_rebuildAll`: what an exception on the way leaves behind;
- `refresh_eq`: a `_refresh` restarts the timer, and `polled` sends one request for each menu.

`Noticed` lists what the notices do to the delegate and `Step` lists the steps in these terms; `notice_cases` and
`step_cases` say that there are no others.
-/

set_option autoImplicit false

namespace SvrMnu

open GameInfo Sys

namespace AppDelegate

variable {ι : Type}

/-! ## The delegate -/

/-- `addTimer` touches the timer and the queue only. -/
theorem addTimer_frame (d : AppDelegate ι) : d.addTimer =
    { d with timers := d.addTimer.timers, refreshTimer := d.addTimer.refreshTimer,
             refreshes := d.addTimer.refreshes } := by
  by_cases h : d.now - d.lastRefresh > d.refreshRate * 60
  · have he : d.addTimer = d.refresh := if_pos h
    rw [he]
    rfl
  · have he : d.addTimer = { d with timers := _, refreshTimer := _ } := if_neg h
    rw [he]

theorem restartTimer_frame (d : AppDelegate ι) : d.restartTimer =
    { d with lastRefresh := d.now, timers := d.restartTimer.timers, refreshTimer := d.restartTimer.refreshTimer,
             refreshes := d.restartTimer.refreshes } :=
  addTimer_frame _

/-- The guard of `_refresh` looks at nothing that its first lines change. -/
theorem suspended_restartTimer (d : AppDelegate ι) (n : Nat) :
    { d with refreshes := n }.restartTimer.suspended = d.suspended := by
  rw [restartTimer_frame]
  rfl

/-- `changeRefreshRate:` with a sender stores its tag and restarts the countdown. -/
theorem changeRefreshRate_sender (d : AppDelegate ι) (tag : Int) : ∃ items,
    d.changeRefreshRate (some tag) = { d with refreshRate := tag, refresher := items }.addTimer :=
  ⟨_, rfl⟩

/-- The notices, as updates of the delegate. -/
inductive Noticed (d : AppDelegate ι) : Notice → AppDelegate ι → Prop
  | clock {now : ℚ} (h : d.now ≤ now) : Noticed d (.clock now) { d with now := now }
  | refresh : Noticed d .refresh d.refresh
  | forceRefresh : Noticed d .forceRefresh d.forceRefresh
  | didWake : Noticed d .didWake d.didWake
  | didScreenSleep : Noticed d .didScreenSleep d.didScreenSleep
  | didSleep : Noticed d .didSleep d.didSleep
  | didUserActive : Noticed d .didUserActive d.didUserActive
  | didUserDeactive : Noticed d .didUserDeactive d.didUserDeactive
  | changeRefreshRate {tag : Int} (items : Option (List (Int × Bool))) (h : 0 < tag) :
      Noticed d (.changeRefreshRate tag) { d with refreshRate := tag, refresher := items }.addTimer
  | updateRefresher : Noticed d .updateRefresher d.updateRefresher
  | fireRefresh {timer : Nat} {date : ℚ} {timers : Timers ℚ} (hf : d.timers.fire timer = some (date, timers))
      (h : date ≤ d.now) : Noticed d (.fireRefresh timer) { d with timers := timers }.refresh
  | firePulse {timer : Nat} {blink : Blink1} (hf : d.blink.fire timer = some blink) :
      Noticed d (.firePulse timer) { d with blink := blink }
  | enumerate (serialnums : Nat) :
      Noticed d (.enumerate serialnums) { d with blink := d.blink.enumerate serialnums }

theorem notice_cases {d d' : AppDelegate ι} {n : Notice} (h : d.notice n = some d') : Noticed d n d' := by
  cases n with
  | clock now =>
    simp only [notice] at h
    split at h
    · next hle => cases Option.some.inj h; exact .clock hle
    · cases h
  | changeRefreshRate tag =>
    simp only [notice] at h
    split at h
    · next ht =>
      obtain ⟨items, he⟩ := changeRefreshRate_sender d tag
      cases Option.some.inj h
      rw [he]
      exact .changeRefreshRate items ht
    · cases h
  | fireRefresh timer =>
    simp only [notice] at h
    split at h
    · next date timers hf =>
      split at h
      · next hdue => cases Option.some.inj h; exact .fireRefresh hf hdue
      · cases h
    · cases h
  | firePulse timer =>
    obtain ⟨blink, hf, rfl⟩ := Option.map_eq_some_iff.mp h
    exact .firePulse hf
  | refresh => cases Option.some.inj h; exact .refresh
  | forceRefresh => cases Option.some.inj h; exact .forceRefresh
  | didWake => cases Option.some.inj h; exact .didWake
  | didScreenSleep => cases Option.some.inj h; exact .didScreenSleep
  | didSleep => cases Option.some.inj h; exact .didSleep
  | didUserActive => cases Option.some.inj h; exact .didUserActive
  | didUserDeactive => cases Option.some.inj h; exact .didUserDeactive
  | updateRefresher => cases Option.some.inj h; exact .updateRefresher
  | enumerate serialnums => cases Option.some.inj h; exact .enumerate serialnums

variable [DecidableEq ι]

/-- The items `setupMenu` puts into the status menu. -/
def layout (bar : MenuBar ι) (primary : ι) : List (StatusMenuItem ι) :=
  .mnu primary :: (bar.mnus.filter (· ≠ primary)).map .mnu ++ [.refresher, .loginMenu, .quit]

theorem setupMenu_eq (bar : MenuBar ι) (d : AppDelegate ι) : d.setupMenu bar =
    { d with statusTitle := "...", statusMenu := layout bar d.primaryMnu,
             refresher := (d.setupMenu bar).refresher } := by
  unfold setupMenu changeRefreshRate layout
  cases d.refresher <;> simp

theorem setTitle_primary (title : Option String) {m : ι} {d : AppDelegate ι} (h : d.primaryMnu = m) :
    d.setTitle title m = { d with jobs := d.jobs + 1, statusTitle := title.getD "..." } := by
  subst h
  unfold setTitle enableBlink
  by_cases ht : title = some d.statusTitle
  · simp [ht]
  · simp [ht]

theorem setTitle_other (title : Option String) {m : ι} {d : AppDelegate ι} (h : m ≠ d.primaryMnu) :
    d.setTitle title m = d := by
  simp [setTitle, h]

@[simp] theorem setTitle_primaryMnu (title : Option String) (m : ι) (d : AppDelegate ι) :
    (d.setTitle title m).primaryMnu = d.primaryMnu := by
  by_cases h : m = d.primaryMnu
  · rw [setTitle_primary title h.symm]
  · rw [setTitle_other title h]

/-- `setTitle:sender:` touches the title and the jobs only. -/
theorem setTitle_frame (title : Option String) (m : ι) (d : AppDelegate ι) : d.setTitle title m =
    { d with jobs := (d.setTitle title m).jobs, statusTitle := (d.setTitle title m).statusTitle } := by
  by_cases h : m = d.primaryMnu
  · rw [setTitle_primary title h.symm]
  · rw [setTitle_other title h]

end AppDelegate

/-- The status title for a response: its number of players. -/
def statusText (g : Option Obj) : String := (g.map fun _ => toString (total g)).getD "..."

/-- Menu `m` after a `makeMenus`, when `primary` is the primary menu. -/
def shown {ι : Type} [DecidableEq ι] (primary m : ι) (env : Env) (x : SvrMnuMenu) : SvrMnuMenu :=
  { x with
    title := GameInfo.title x.isa x.gameInfo
    submenu := GameInfo.submenu x.gameInfo env.installed (decide (primary = m))
    numServers := active x.gameInfo
    numPlayers := total x.gameInfo
    value := GameInfo.value env.publicAddress x.gameInfo }

namespace World

variable {ι : Type} [DecidableEq ι]

/-- A `makeMenus` of menu `m` can read the response of its menu. -/
def Legible (w : World ι) (m : ι) (env : Env) : Prop :=
  ∀ g, (w.menu m).gameInfo = some g → readable env.publicAddress.isSome g = true

instance (w : World ι) (m : ι) (env : Env) : Decidable (w.Legible m env) :=
  inferInstanceAs (Decidable (∀ g ∈ (w.menu m).gameInfo, readable env.publicAddress.isSome g = true))

/-- The `makeMenus` calls of the event can read the responses they find. -/
def Reads (bar : MenuBar ι) (w : World ι) : Event ι → Prop
  | .makeMenus m env => w.Legible m env
  | .setPrimaryMnu _ env => ∀ k ∈ bar.mnus, w.Legible k (env k)
  | _ => True

instance (bar : MenuBar ι) (w : World ι) : ∀ e, Decidable (Reads bar w e)
  | .makeMenus m env => inferInstanceAs (Decidable (w.Legible m env))
  | .setPrimaryMnu _ env => inferInstanceAs (Decidable (∀ k ∈ bar.mnus, w.Legible k (env k)))
  | .notice _ | .runRefresh | .complete _ _ _ | .runEnableBlink => inferInstanceAs (Decidable True)

/-! ## Code on a scene -/

theorem onScene_ok {α : Type} {m : ι} {x : ObjC (Scene (AppDelegate ι)) α} {w : World ι} {a : α}
    {s : Scene (AppDelegate ι)} (h : x ⟨w.menu m, w.delegate⟩ = .ok a s) : onScene m x w = .ok a (w.put m s) := by
  simp only [onScene, h]

theorem onScene_error {α : Type} {m : ι} {x : ObjC (Scene (AppDelegate ι)) α} {w : World ι} {e : NSException}
    {s : Scene (AppDelegate ι)} (h : x ⟨w.menu m, w.delegate⟩ = .error e s) :
    onScene m x w = .error e (w.put m s) := by
  simp only [onScene, h]

theorem raises_onScene {α : Type} {m : ι} {x : ObjC (Scene (AppDelegate ι)) α} {w : World ι}
    (h : Raises x ⟨w.menu m, w.delegate⟩) : Raises (onScene m x) w := by
  obtain ⟨e, s, hs⟩ := h
  exact ⟨e, w.put m s, onScene_error hs⟩

/-! ## One makeMenus -/

/-- The world after an undisturbed `makeMenus` of menu `m`. -/
def rebuild (m : ι) (env : Env) (w : World ι) : World ι :=
  { w with
    menu := Function.update w.menu m (shown w.delegate.primaryMnu m env (w.menu m))
    delegate := w.delegate.setTitle ((w.menu m).gameInfo.map fun _ => toString (total (w.menu m).gameInfo)) m }

theorem makeMenus_run {w : World ι} {m : ι} {env : Env} (h : w.Legible m env) :
    makeMenus m env w = .ok () (w.rebuild m env) := by
  unfold makeMenus
  rw [onScene_ok (makeMenus_ok (s := ⟨w.menu m, w.delegate⟩) h)]
  simp [rebuild, put, rebuilt, shown, isPrimary, notified, AppDelegate.delegate]

theorem makeMenus_raises {w : World ι} {m : ι} {env : Env} (h : ¬ w.Legible m env) : Raises (makeMenus m env) w := by
  obtain ⟨g, hg⟩ := not_forall.mp h
  obtain ⟨hg, hr⟩ := Classical.not_imp.mp hg
  apply raises_onScene
  exact SvrMnu.makeMenus_raises hg (by simpa using hr)

/-- An exception leaves the submenu of menu `m` half drawn, and everything else as it was. -/
theorem makeMenus_error {w w' : World ι} {m : ι} {env : Env} {e : NSException} (h : makeMenus m env w = .error e w') :
    ∃ x, Drawn (w.menu m) x ∧ w' = { w with menu := Function.update w.menu m x } := by
  simp only [makeMenus, onScene] at h
  split at h
  · cases h
  · next s hs =>
    cases h
    obtain ⟨hm, hd⟩ := makeMenus_raised hs
    refine ⟨s.menu, hm, ?_⟩
    simp only [put, hd]

theorem rebuild_gameInfo (m : ι) (env : Env) (w : World ι) (k : ι) :
    ((w.rebuild m env).menu k).gameInfo = (w.menu k).gameInfo := by
  by_cases hk : k = m
  · subst hk; simp [rebuild, shown]
  · simp [rebuild, Function.update_of_ne hk]

/-- `w'` is `w` with other things drawn on its menus, and other titles and jobs. -/
structure Redrawn (w w' : World ι) : Prop where
  gameInfo : ∀ k, (w'.menu k).gameInfo = (w.menu k).gameInfo
  rest : w' = { w with
    menu := w'.menu
    delegate := { w.delegate with statusTitle := w'.delegate.statusTitle, jobs := w'.delegate.jobs } }

omit [DecidableEq ι] in
theorem Redrawn.trans {a b c : World ι} (h₁ : Redrawn a b) (h₂ : Redrawn b c) : Redrawn a c := by
  refine ⟨fun k => (h₂.gameInfo k).trans (h₁.gameInfo k), ?_⟩
  rw [h₂.rest, h₁.rest]

omit [DecidableEq ι] in
instance : Std.Refl (Redrawn : World ι → World ι → Prop) := ⟨fun _ => ⟨fun _ => rfl, rfl⟩⟩

omit [DecidableEq ι] in
instance : IsTrans (World ι) Redrawn := ⟨fun _ _ _ => Redrawn.trans⟩

theorem keeps_makeMenus (m : ι) (env : Env) : Keeps Redrawn (makeMenus m env : ObjC (World ι) Unit) := by
  intro w
  by_cases h : w.Legible m env
  · rw [finalState_ok (makeMenus_run h)]
    refine ⟨rebuild_gameInfo m env w, ?_⟩
    unfold rebuild
    rw [AppDelegate.setTitle_frame]
  · obtain ⟨e, w', hw⟩ := makeMenus_raises h
    obtain ⟨x, ⟨u, n, p, rfl⟩, rfl⟩ := makeMenus_error hw
    rw [finalState_error hw]
    refine ⟨fun k => ?_, rfl⟩
    by_cases hk : k = m
    · subst hk; simp
    · simp [Function.update_of_ne hk]

/-! ## All of them -/

theorem keeps_rebuildAll (env : ι → Env) (ms : List ι) : Keeps Redrawn (rebuildAll env ms) := by
  induction ms with
  | nil => exact Keeps.pure _
  | cons m ms ih => exact (keeps_makeMenus m (env m)).bind fun _ => ih

theorem legible_rebuild (m : ι) (env : Env) (w : World ι) (k : ι) (env' : Env) :
    (w.rebuild m env).Legible k env' ↔ w.Legible k env' := by
  unfold Legible
  rw [rebuild_gameInfo]

theorem rebuildAll_run (env : ι → Env) (ms : List ι) {w : World ι} (h : ∀ m ∈ ms, w.Legible m (env m)) :
    rebuildAll env ms w = .ok () (ms.foldl (fun w m => w.rebuild m (env m)) w) := by
  induction ms generalizing w with
  | nil => rfl
  | cons m ms ih =>
    obtain ⟨hm, hms⟩ := List.forall_mem_cons.mp h
    unfold rebuildAll
    rw [bind_ok (makeMenus_run hm)]
    apply ih
    intro k hk
    rw [legible_rebuild]
    exact hms k hk

theorem rebuildAll_raises (env : ι → Env) (ms : List ι) {w : World ι} (h : ¬ ∀ m ∈ ms, w.Legible m (env m)) :
    Raises (rebuildAll env ms) w := by
  induction ms generalizing w with
  | nil => exact absurd (fun _ hk => absurd hk List.not_mem_nil) h
  | cons m ms ih =>
    unfold rebuildAll
    by_cases hm : w.Legible m (env m)
    · refine Raises.bind_right (makeMenus_run hm) (ih fun hms => h ?_)
      refine List.forall_mem_cons.mpr ⟨hm, fun k hk => ?_⟩
      rw [← legible_rebuild m (env m)]
      exact hms k hk
    · exact (makeMenus_raises hm).bind_left

/-- Rebuilding distinct menus rebuilds each from what it held at first; the delegate hears of the primary one. -/
theorem foldl_rebuild (env : ι → Env) {ms : List ι} (hnd : ms.Nodup) (w : World ι) :
    ms.foldl (fun w m => w.rebuild m (env m)) w =
      { w with
        menu := fun k => if k ∈ ms then shown w.delegate.primaryMnu k (env k) (w.menu k) else w.menu k
        delegate := if w.delegate.primaryMnu ∈ ms then
          w.delegate.setTitle ((w.menu w.delegate.primaryMnu).gameInfo.map fun _ =>
            toString (total (w.menu w.delegate.primaryMnu).gameInfo)) w.delegate.primaryMnu else w.delegate } := by
  induction ms generalizing w with
  | nil => simp
  | cons m ms ih =>
    obtain ⟨hm, hnd⟩ := List.nodup_cons.mp hnd
    rw [List.foldl_cons, ih hnd]
    have hmenu : (fun k => if k ∈ ms then
        shown (w.rebuild m (env m)).delegate.primaryMnu k (env k) ((w.rebuild m (env m)).menu k)
          else (w.rebuild m (env m)).menu k) =
        fun k => if k ∈ m :: ms then shown w.delegate.primaryMnu k (env k) (w.menu k) else w.menu k := by
      funext k
      by_cases hk : k = m
      · subst hk; simp [rebuild, hm]
      · simp [rebuild, hk]
    rw [hmenu]
    by_cases hp : w.delegate.primaryMnu = m
    · subst hp
      simp [rebuild, hm]
    · have hd : (w.rebuild m (env m)).delegate = w.delegate := AppDelegate.setTitle_other _ (Ne.symm hp)
      simp only [hd]
      simp [rebuild, hp]

/-- The world after `setPrimaryMnu:` with menu `m`. -/
def switched (bar : MenuBar ι) (m : ι) (env : ι → Env) (w : World ι) : World ι :=
  { w with
    menu := fun k => if k ∈ bar.mnus then shown m k (env k) (w.menu k) else w.menu k
    delegate := { w.delegate with
      primaryMnu := m
      statusTitle := statusText (w.menu m).gameInfo
      statusMenu := AppDelegate.layout bar m
      refresher := ({ w.delegate with primaryMnu := m }.setupMenu bar).refresher
      jobs := w.delegate.jobs + 1
      primaryIndex := bar.mnus.idxOf m } }

theorem setPrimaryMnu_run {bar : MenuBar ι} {m : ι} (hm : m ∈ bar.mnus) {w : World ι} {env : ι → Env}
    (h : ∀ k ∈ bar.mnus, w.Legible k (env k)) : setPrimaryMnu bar m env w = .ok () (w.switched bar m env) := by
  unfold setPrimaryMnu
  rw [bind_ok (modify_run _ _), AppDelegate.setupMenu_eq]
  rw [bind_ok (rebuildAll_run env bar.mnus (by exact h)), foldl_rebuild env bar.nodup]
  simp only [hm, if_true, modify_run]
  rw [AppDelegate.setTitle_primary]
  · rfl
  · rfl

theorem setPrimaryMnu_raises {bar : MenuBar ι} (m : ι) {w : World ι} {env : ι → Env}
    (h : ¬ ∀ k ∈ bar.mnus, w.Legible k (env k)) : Raises (setPrimaryMnu bar m env) w := by
  unfold setPrimaryMnu
  refine Raises.bind_right (modify_run _ _) (Raises.bind_left ?_)
  exact rebuildAll_raises env bar.mnus (by exact h)

/-- The calls that can read their responses are those that run to their end. -/
theorem returns_iff {bar : MenuBar ι} {w : World ι} {e : Event ι} : w.Returns bar e ↔ w.Reads bar e := by
  cases e with
  | makeMenus m env =>
    constructor
    · intro hret
      by_contra hl
      exact hret (makeMenus_raises (w := w.dequeue m) hl)
    · intro hl
      exact not_raises_of_ok (makeMenus_run (w := w.dequeue m) hl)
  | setPrimaryMnu m env =>
    constructor
    · intro hret
      by_contra hl
      exact hret (setPrimaryMnu_raises m hl)
    · rintro hl ⟨e, w', he⟩
      unfold setPrimaryMnu at he
      rw [bind_ok (modify_run _ _), bind_ok (rebuildAll_run env bar.mnus (by exact hl))] at he
      cases he
  | notice | runRefresh | complete | runEnableBlink => exact Iff.rfl

/-- After an exception the new menu is the primary one, and its index is not stored. -/
theorem setPrimaryMnu_error {bar : MenuBar ι} {m : ι} {w w' : World ι} {env : ι → Env} {e : NSException}
    (h : setPrimaryMnu bar m env w = .error e w') :
    Redrawn { w with delegate := { w.delegate with primaryMnu := m }.setupMenu bar } w' := by
  unfold setPrimaryMnu at h
  rw [bind_ok (modify_run _ _)] at h
  rcases bind_raised h with h | ⟨_, _, _, h⟩
  · exact (keeps_rebuildAll env bar.mnus).error h
  · cases h

/-! ## _refresh -/

/-- One more request for each menu of `ms`. -/
def polled (ms : List ι) (w : World ι) : World ι :=
  { w with
    menu := fun m => if m ∈ ms then (w.menu m).refresh else w.menu m
    issued := fun m => if m ∈ ms then w.issued m + 1 else w.issued m
    outstanding := fun m => if m ∈ ms then w.issued m :: w.outstanding m else w.outstanding m }

theorem foldl_refreshMenu {ms : List ι} (hnd : ms.Nodup) (w : World ι) :
    ms.foldl (fun w m => w.refreshMenu m) w = w.polled ms := by
  induction ms generalizing w with
  | nil => simp [polled]
  | cons m ms ih =>
    obtain ⟨hm, hnd⟩ := List.nodup_cons.mp hnd
    rw [List.foldl_cons, ih hnd]
    unfold polled refreshMenu
    congr 1
    all_goals
      funext k
      by_cases hk : k = m
      · subst hk; simp [hm]
      · simp [hk]

theorem refresh_eq (bar : MenuBar ι) (w : World ι) : w._refresh bar =
    (if w.delegate.restartTimer.suspended then { w with delegate := w.delegate.restartTimer }
      else { w with delegate := w.delegate.restartTimer }.polled bar.mnus) := by
  unfold _refresh
  simp only [foldl_refreshMenu bar.nodup]

/-! ## Steps -/

/-- The steps of the application, as updates of the world. -/
inductive Step (bar : MenuBar ι) (w : World ι) : Event ι → World ι → Prop
  | notice {n : Notice} {d : AppDelegate ι} (h : w.delegate.notice n = some d) :
      Step bar w (.notice n) { w with delegate := d }
  | suspended (h : 0 < w.delegate.refreshes)
      (hs : { w.delegate with refreshes := w.delegate.refreshes - 1 }.restartTimer.suspended = true) :
      Step bar w .runRefresh
        { w with delegate := { w.delegate with refreshes := w.delegate.refreshes - 1 }.restartTimer }
  | poll (h : 0 < w.delegate.refreshes)
      (hs : { w.delegate with refreshes := w.delegate.refreshes - 1 }.restartTimer.suspended = false) :
      Step bar w .runRefresh
        ({ w with delegate := { w.delegate with refreshes := w.delegate.refreshes - 1 }.restartTimer }.polled bar.mnus)
  | complete {m : ι} {k : Nat} (reply : Reply) (h : k ∈ w.outstanding m) :
      Step bar w (.complete m k reply) (w.complete m k reply)
  | makeMenus {m : ι} (env : Env) (h : 0 < w.rebuilds m) : Step bar w (.makeMenus m env) ((w.dequeue m).rebuild m env)
  | makeMenusRaised {m : ι} {env : Env} {x : SvrMnuMenu} (h : 0 < w.rebuilds m)
      (hr : ¬ Returns bar w (.makeMenus m env)) (hx : Drawn (w.menu m) x) :
      Step bar w (.makeMenus m env) { w.dequeue m with menu := Function.update w.menu m x }
  | setPrimaryMnu {m : ι} (env : ι → Env) (h : m ∈ bar.mnus) :
      Step bar w (.setPrimaryMnu m env) (w.switched bar m env)
  | setPrimaryRaised {m : ι} {env : ι → Env} {w' : World ι} (h : m ∈ bar.mnus)
      (hr : ¬ Returns bar w (.setPrimaryMnu m env))
      (hw : Redrawn { w with delegate := { w.delegate with primaryMnu := m }.setupMenu bar } w') :
      Step bar w (.setPrimaryMnu m env) w'
  | enableBlink (h : 0 < w.delegate.jobs) :
      Step bar w .runEnableBlink
        ({ w with delegate := { w.delegate with jobs := w.delegate.jobs - 1 } }._enableBlink)

/-- Every step of the code is one of these. -/
theorem step_cases {bar : MenuBar ι} {w w' : World ι} {e : Event ι} (h : (machine bar).step w e = some w') :
    Step bar w e w' := by
  cases e with
  | notice n =>
    obtain ⟨d, hd, rfl⟩ := Option.map_eq_some_iff.mp h
    exact .notice hd
  | runRefresh =>
    simp only [machine, step] at h
    split at h
    · next hn =>
      cases Option.some.inj h
      rw [refresh_eq]
      split
      · next hs => exact .suspended hn hs
      · next hs => exact .poll hn (by simpa using hs)
    · cases h
  | complete m k reply =>
    simp only [machine, step] at h
    split at h
    · next hk => cases Option.some.inj h; exact .complete reply hk
    · cases h
  | makeMenus m env =>
    simp only [machine, step] at h
    split at h
    · next hn =>
      cases Option.some.inj h
      by_cases hl : (w.dequeue m).Legible m env
      · rw [finalState_ok (makeMenus_run hl)]
        exact .makeMenus env hn
      · have hr := makeMenus_raises hl
        obtain ⟨e, w', hw⟩ := hr
        obtain ⟨x, hx, hw'⟩ := makeMenus_error hw
        rw [finalState_error hw, hw']
        exact .makeMenusRaised hn (fun hret => hret ⟨e, w', hw⟩) hx
    · cases h
  | setPrimaryMnu m env =>
    simp only [machine, step] at h
    split at h
    · next hm =>
      cases Option.some.inj h
      by_cases hl : ∀ k ∈ bar.mnus, w.Legible k (env k)
      · rw [finalState_ok (setPrimaryMnu_run hm hl)]
        exact .setPrimaryMnu env hm
      · obtain ⟨e, w', hw⟩ := setPrimaryMnu_raises m hl
        rw [finalState_error hw]
        exact .setPrimaryRaised hm (fun hret => hret ⟨e, w', hw⟩) (setPrimaryMnu_error hw)
    · cases h
  | runEnableBlink =>
    simp only [machine, step] at h
    split at h
    · next hn => cases Option.some.inj h; exact .enableBlink hn
    · cases h

theorem polled_gameInfo (ms : List ι) (w : World ι) (k : ι) :
    ((w.polled ms).menu k).gameInfo = (w.menu k).gameInfo := by
  simp only [polled]
  split <;> rfl

/-- The handler replaces what its menu holds by the outcome of the request. -/
theorem completionHandler_eq (reply : Reply) (x : SvrMnuMenu) :
    x.completionHandler reply = { x with gameInfo := reply.outcome } := by
  rcases reply with _ | (_ | json) <;> rfl

theorem complete_gameInfo (m : ι) (k : Nat) (reply : Reply) (w : World ι) (k' : ι) :
    ((w.complete m k reply).menu k').gameInfo = if k' = m then reply.outcome else (w.menu k').gameInfo := by
  by_cases hk : k' = m
  · subst hk; simp [complete, completionHandler_eq]
  · simp [complete, hk]

/-! ## The launch -/

/-- A menu that has been initialised shows no response, and no check mark as it has no delegate yet. -/
theorem init_eq (C : MenuClass) (installed : Bool) : SvrMnuMenu.init C installed =
    { isa := C, title := C.unable, submenu := GameInfo.submenu none installed false, gameInfo := none,
      numServers := 0, numPlayers := 0, value := -1 } := by
  have hm : SvrMnuMenu.makeMenus (none : Option (SvrMnuMenuDelegate Unit Unit)) () ⟨none, installed⟩
      ⟨⟨C, C.initTitle, [], none, 0, 0, 0⟩, ()⟩ = .ok () _ := makeMenus_none rfl
  unfold SvrMnuMenu.init
  simp only [finalState_ok hm]
  simp [rebuilt, isPrimary]

end World

end SvrMnu
