import SvrMnu.MainLoop

/-!
# Nested runs of makeMenus

A `makeMenus` clears its menu before it waits for the address and adds to the menu after it. If another one of the same
menu starts in between, both add to what the inner one cleared. `Half` is how far a menu is from what its response says
in that time, in terms of the depth at which its last `makeMenus` started.

- `half_step`: every turn of the main loop keeps it;
- `menu_shown_iff`: a menu that is at rest shows its response exactly iff its last `makeMenus` did not start inside
  another one, and no request has been announced in its title since one ended; `players_counted_twice` is a run in
  which one did start inside another.
-/

set_option autoImplicit false

namespace SvrMnu

open Sys GameInfo

variable {ι : Type} [DecidableEq ι]

/-- The `Set as primary` items of a menu. -/
def setters (x : SvrMnuMenu) : Nat := x.submenu.countP Item.isSetter

/-- Menu `m` lists what its response says. -/
structure World.Lists (m : ι) (w : World ι) : Prop where
  players : (w.menu m).numPlayers = total (w.menu m).gameInfo
  submenu : ∃ installed checked, (w.menu m).submenu = GameInfo.submenu (w.menu m).gameInfo installed checked

/-- Menu `m` shows what its response says, in its submenu and in its title. -/
structure World.Shows (m : ι) (w : World ι) : Prop extends w.Lists m where
  title : (w.menu m).title = GameInfo.title (w.menu m).isa (w.menu m).gameInfo

namespace MainLoop

/-- How many `makeMenus` calls of menu `m` the last one of them found waiting when it started. -/
def depthAfter (m : ι) (n : Nat) (x : MainLoop ι × Turn ι) : Nat :=
  match x.2 with
  | .start k _ => if k = m then x.1.stack.count m else n
  | _ => n

@[simp] theorem depthAfter_self (m : ι) (n : Nat) (s : MainLoop ι) (installed : Bool) :
    depthAfter m n (s, .start m installed) = s.stack.count m := if_pos rfl

theorem depthAfter_other {m k : ι} (h : k ≠ m) (n : Nat) (s : MainLoop ι) (installed : Bool) :
    depthAfter m n (s, .start k installed) = n := if_neg h

def depth (m : ι) (tr : List (MainLoop ι × Turn ι)) : Nat := tr.foldl (depthAfter m) 0

/-- The turn is a `_refresh` that sends a request of menu `m`, and says so in its title. -/
def announces (bar : MenuBar ι) (m : ι) (x : MainLoop ι × Turn ι) : Bool :=
  match x.2 with
  | .callback .runRefresh => m ∈ bar.mnus && !x.1.world.delegate.suspended
  | _ => false

/-- The turn ends a `makeMenus` of menu `m`, which sets its title. -/
def finishes (m : ι) (x : MainLoop ι × Turn ι) : Bool :=
  match x.2 with
  | .callback _ => false
  | .start k _ => k = m && (x.1.world.menu m).gameInfo.isNone
  | .resume _ => x.1.stack.head? = some m

/-- A request of menu `m` has been sent since its last `makeMenus` ended, or since the launch if none has. -/
def Announced (bar : MenuBar ι) (m : ι) (tr : List (MainLoop ι × Turn ι)) : Prop :=
  Since (fun x => announces bar m x = true) (fun x => finishes m x = true) tr

instance (bar : MenuBar ι) (m : ι) (tr : List (MainLoop ι × Turn ι)) : Decidable (Announced bar m tr) :=
  inferInstanceAs (Decidable (Since _ _ tr))

/-- Menu `m` on the way to what its response says, with its last `makeMenus` started at depth `n`; `announced` is that
its title speaks of a request. -/
structure Half (m : ι) (n : Nat) (announced : Prop) (s : MainLoop ι) : Prop where
  /-- Every `makeMenus` that was cleared away and has not ended yet will add an item of its own. -/
  count : setters (s.world.menu m) + s.stack.count m = n + 1
  waiting : n = 0 → m ∈ s.stack → s.world.rebuilds m = 0 → ∃ g, (s.world.menu m).gameInfo = some g ∧
    (s.world.menu m).submenu = motd (some g) ∧ (s.world.menu m).numPlayers = 0
  lists : n = 0 → m ∉ s.stack → s.world.rebuilds m = 0 → s.world.Lists m
  refreshing : announced → (s.world.menu m).title = (s.world.menu m).isa.refreshing
  title : n = 0 → m ∉ s.stack → s.world.rebuilds m = 0 → ¬ announced →
    (s.world.menu m).title = GameInfo.title (s.world.menu m).isa (s.world.menu m).gameInfo

/-! ## Counting the setters -/

omit [DecidableEq ι] in
theorem countP_text {l : List Item} (h : ∀ i ∈ l, ∃ t, i = Item.row t) : l.countP Item.isSetter = 0 := by
  rw [List.countP_eq_zero]
  intro i hi
  obtain ⟨t, rfl⟩ := h i hi
  simp [Item.isSetter]

theorem countP_motd (g : Option Obj) : (motd g).countP Item.isSetter = 0 :=
  countP_text fun i hi => text_row g i (List.mem_append_left _ hi)

theorem countP_rows (g : Option Obj) : (rows g).countP Item.isSetter = 0 :=
  countP_text fun i hi => text_row g i (List.mem_append_right _ hi)

/-- Taking the launcher out leaves the setters in. -/
theorem countP_filter_launcher (l : List Item) :
    (l.filter (!·.isLauncher)).countP Item.isSetter = l.countP Item.isSetter := by
  rw [List.countP_filter]
  refine List.countP_congr fun i _ => ?_
  cases i <;> simp [Item.isSetter, Item.isLauncher]

theorem countP_submenu (g : Option Obj) (installed checked : Bool) :
    (GameInfo.submenu g installed checked).countP Item.isSetter = 1 := by
  unfold GameInfo.submenu
  rw [List.countP_append, List.countP_append, List.countP_append, countP_motd, countP_rows]
  cases installed <;> rfl

theorem setters_finished (w : World ι) (m : ι) (env : Env) :
    setters ((w.finished m env).menu m) = setters (w.menu m) + 1 := by
  simp only [setters, World.finished, Function.update_self]
  rw [List.countP_append, List.countP_append, countP_filter_launcher, List.countP_append, countP_rows]
  cases env.installed <;> rfl

/-! ## Turns of other menus -/

variable {m : ι} {n : Nat} {announced announced' : Prop} {s s' : MainLoop ι}

theorem Half.congr (h : Half m n announced s) (ha : announced' ↔ announced) (hm : s'.world.menu m = s.world.menu m)
    (hr : s'.world.rebuilds m = s.world.rebuilds m) (hs : s'.stack.count m = s.stack.count m) :
    Half m n announced' s' := by
  have hmem : m ∈ s'.stack ↔ m ∈ s.stack := by
    rw [← List.count_pos_iff, ← List.count_pos_iff, hs]
  refine ⟨by rw [hm, hs]; exact h.count, fun hn hst hz => ?_, fun hn hst hz => ?_, fun hp => ?_,
    fun hn hst hz hp => ?_⟩
  · rw [hm]
    exact h.waiting hn (hmem.mp hst) (hr ▸ hz)
  · obtain ⟨hplayers, hsub⟩ := h.lists hn (fun hc => hst (hmem.mpr hc)) (hr ▸ hz)
    exact ⟨by rw [hm]; exact hplayers, by rw [hm]; exact hsub⟩
  · rw [hm]
    exact h.refreshing (ha.mp hp)
  · rw [hm]
    exact h.title hn (fun hc => hst (hmem.mpr hc)) (hr ▸ hz) fun hc => hp (ha.mpr hc)

/-! ## Callbacks -/

/-- A `_refresh` only announces a request in the titles. -/
theorem Half.polled {w : World ι} {stack : List ι} (h : Half m n announced ⟨w, stack⟩) {ms : List ι} (hm : m ∈ ms) :
    Half m n True ⟨w.polled ms, stack⟩ := by
  have hmenu : (w.polled ms).menu m = (w.menu m).refresh := by simp only [World.polled, hm, if_true]
  refine ⟨by rw [hmenu]; exact h.count, fun hn hst hz => ?_, fun hn hst hz => ?_, fun _ => by rw [hmenu]; rfl,
    fun _ _ _ hp => absurd trivial hp⟩
  · rw [hmenu]
    exact h.waiting hn hst hz
  · obtain ⟨hplayers, hsub⟩ := h.lists hn hst hz
    exact ⟨by rw [hmenu]; exact hplayers, by rw [hmenu]; exact hsub⟩

/-- A completion queues a `makeMenus`, so that its menu is not at rest. -/
theorem Half.complete (h : Half m n announced s) (k : ι) (i : Nat) (reply : Reply) :
    Half m n announced ⟨s.world.complete k i reply, s.stack⟩ := by
  by_cases hk : m = k
  · subst hk
    have hr : (s.world.complete m i reply).rebuilds m ≠ 0 := by simp [World.complete]
    have hmenu : (s.world.complete m i reply).menu m = { s.world.menu m with gameInfo := reply.outcome } := by
      simp only [World.complete, Function.update_self, World.completionHandler_eq]
    refine ⟨by rw [hmenu]; exact h.count, fun _ _ hz => absurd hz hr, fun _ _ hz => absurd hz hr, fun hp => ?_,
      fun _ _ hz => absurd hz hr⟩
    rw [hmenu]
    exact h.refreshing hp
  · refine h.congr Iff.rfl ?_ ?_ rfl
    · simp only [World.complete, Function.update_of_ne hk]
    · simp only [World.complete, Function.update_of_ne hk]

theorem Half.callback {bar : MenuBar ι} {e : Event ι} {w : World ι} (h : Half m n announced s)
    (he : e.isRebuild = false) (hs : World.Step bar s.world e w) :
    Half m n (announces bar m (s, .callback e) = true ∨ announced) ⟨w, s.stack⟩ := by
  have hnone {e : Event ι} (hn : announces bar m (s, .callback e) = false) :
      announces bar m (s, .callback e) = true ∨ announced ↔ announced := by rw [hn]; simp
  cases hs with
  | notice | enableBlink => exact h.congr (hnone rfl) rfl rfl rfl
  | suspended _ hguard =>
    rw [AppDelegate.suspended_restartTimer] at hguard
    exact h.congr (hnone (by simp [announces, hguard])) rfl rfl rfl
  | poll _ hguard =>
    rw [AppDelegate.suspended_restartTimer] at hguard
    by_cases hm : m ∈ bar.mnus
    · have ha : announces bar m (s, .callback .runRefresh) = true ∨ announced ↔ True := by
        simp [announces, hguard, hm]
      rw [ha]
      refine Half.polled (?_ : Half m n announced _) hm
      exact h.congr Iff.rfl rfl rfl rfl
    · refine h.congr (hnone (by simp [announces, hm])) ?_ rfl rfl
      simp only [World.polled, hm, if_false]
  | complete reply => exact (h.complete _ _ reply).congr (hnone rfl) rfl rfl rfl
  | makeMenus | makeMenusRaised | setPrimaryMnu | setPrimaryRaised => cases he

/-! ## makeMenus -/

/-- Without a response `makeMenus` clears the menu and ends; what has been waiting will add to it. -/
theorem Half.start_finished (w : World ι) (stack : List ι) (m : ι) (installed : Bool) :
    Half m (stack.count m) False ⟨w.rebuild m ⟨none, installed⟩, stack⟩ := by
  have hmenu : (w.rebuild m ⟨none, installed⟩).menu m =
      SvrMnu.shown w.delegate.primaryMnu m ⟨none, installed⟩ (w.menu m) := by
    simp only [World.rebuild, Function.update_self]
  refine ⟨?_, fun hn hst _ => ?_, fun _ _ _ => ⟨?_, ?_⟩, False.elim, fun _ _ _ _ => ?_⟩
  · have hc : setters ((w.rebuild m ⟨none, installed⟩).menu m) = 1 := by
      rw [hmenu]
      exact countP_submenu _ _ _
    show setters ((w.rebuild m ⟨none, installed⟩).menu m) + stack.count m = stack.count m + 1
    omega
  · exact absurd hst (List.count_eq_zero.mp hn)
  · rw [hmenu]; rfl
  · rw [hmenu]; exact ⟨_, _, rfl⟩
  · rw [hmenu]; rfl

/-- With one it clears the menu and waits; the title stays as it is. -/
theorem Half.start_suspended {w : World ι} (stack : List ι) {m : ι} {g : Obj} (hg : (w.menu m).gameInfo = some g)
    (ha : announced → (w.menu m).title = (w.menu m).isa.refreshing) :
    Half m (stack.count m) announced ⟨w.begun m, m :: stack⟩ := by
  have hmenu : (w.begun m).menu m =
      { w.menu m with submenu := motd (w.menu m).gameInfo, numServers := 0, numPlayers := 0 } := by
    simp only [World.begun, Function.update_self]
  refine ⟨?_, fun _ _ _ => ⟨g, ?_, ?_, ?_⟩, fun _ hst _ => absurd List.mem_cons_self hst, fun hp => ?_,
    fun _ hst _ => absurd List.mem_cons_self hst⟩
  · have hc : setters ((w.begun m).menu m) = 0 := by
      rw [hmenu]
      exact countP_motd _
    show setters ((w.begun m).menu m) + (m :: stack).count m = stack.count m + 1
    rw [List.count_cons_self]
    omega
  · rw [hmenu]; exact hg
  · rw [hmenu, hg]
  · rw [hmenu]
  · rw [hmenu]; exact ha hp

/-- The second half adds one item, and the players of the response to those that were counted before. -/
theorem Half.resume {w : World ι} {stack : List ι} (h : Half m n announced ⟨w, m :: stack⟩) (env : Env) :
    Half m n False ⟨w.finished m env, stack⟩ := by
  have hcount : setters ((w.finished m env).menu m) + stack.count m = n + 1 := by
    have hc : setters (w.menu m) + (m :: stack).count m = n + 1 := h.count
    rw [List.count_cons_self] at hc
    rw [setters_finished]
    omega
  refine ⟨hcount, fun hn hst _ => ?_, fun hn _ hz => ?_, False.elim, fun hn _ hz _ => ?_⟩
  · -- the last `makeMenus` found nothing waiting, so nothing waits once it has ended
    have hpos : 0 < stack.count m := List.count_pos_iff.mpr hst
    rw [setters_finished] at hcount
    omega
  · obtain ⟨g, hg, hsub, hp⟩ := h.waiting hn List.mem_cons_self hz
    have hg : (w.menu m).gameInfo = some g := hg
    have hsub : (w.menu m).submenu = motd (some g) := hsub
    have hp : (w.menu m).numPlayers = 0 := hp
    have ht := filter_text (text_row (some g))
    refine ⟨?_, ⟨env.installed, decide (w.delegate.primaryMnu = m), ?_⟩⟩
    · simp only [World.finished, Function.update_self, hp, Int32.zero_add]
    · simp only [World.finished, Function.update_self, hg, hsub, ht, GameInfo.submenu]
  · obtain ⟨g, hg, -⟩ := h.waiting hn List.mem_cons_self hz
    have hg : (w.menu m).gameInfo = some g := hg
    simp only [World.finished, Function.update_self, hg, GameInfo.title, Option.isSome_some, if_true]

theorem half_step {bar : MenuBar ι} {t : Turn ι} (h : Half m n announced s) (hs : Step bar s t s') :
    Half m (depthAfter m n (s, t))
      (announces bar m (s, t) = true ∨ (¬ finishes m (s, t) = true ∧ announced)) s' := by
  have hsilent {t : Turn ι} (ha : announces bar m (s, t) = false) (hf : finishes m (s, t) = false) :
      announces bar m (s, t) = true ∨ (¬ finishes m (s, t) = true ∧ announced) ↔ announced := by rw [ha, hf]; simp
  have hends {t : Turn ι} (ha : announces bar m (s, t) = false) (hf : finishes m (s, t) = true) :
      announces bar m (s, t) = true ∨ (¬ finishes m (s, t) = true ∧ announced) ↔ False := by rw [ha, hf]; simp
  cases hs with
  | callback he hs => exact (h.callback he hs).congr (by simp [finishes]) rfl rfl rfl
  | @finished k installed _ hg =>
    by_cases hk : k = m
    · subst hk
      rw [depthAfter_self, hends rfl (by simp [finishes, hg])]
      exact Half.start_finished _ _ _ _
    · rw [depthAfter_other hk, hsilent rfl (by simp [finishes, hk])]
      refine h.congr Iff.rfl ?_ ?_ rfl
      · simp only [World.rebuild, World.dequeue, Function.update_of_ne (Ne.symm hk)]
      · simp only [World.rebuild, World.dequeue, Function.update_of_ne (Ne.symm hk)]
  | @suspended k g installed _ hg =>
    by_cases hk : k = m
    · subst hk
      rw [depthAfter_self, hsilent rfl (by simp [finishes, hg])]
      exact Half.start_suspended (w := s.world.dequeue k) _ hg h.refreshing
    · rw [depthAfter_other hk, hsilent rfl (by simp [finishes, hk])]
      refine h.congr Iff.rfl ?_ ?_ (List.count_cons_of_ne hk)
      · simp only [World.begun, World.dequeue, Function.update_of_ne (Ne.symm hk)]
      · simp only [World.begun, World.dequeue, Function.update_of_ne (Ne.symm hk)]
  | @resumed k stack env hst =>
    by_cases hk : k = m
    · subst hk
      rw [hends rfl (by simp [finishes, hst])]
      obtain ⟨w, st⟩ := s
      obtain rfl : st = k :: stack := hst
      exact h.resume env
    · rw [hsilent rfl (by simp [finishes, hst, hk])]
      refine h.congr Iff.rfl ?_ rfl ?_
      · simp only [World.finished, Function.update_of_ne (Ne.symm hk)]
      · rw [hst, List.count_cons_of_ne hk]

/-! ## Every run -/

theorem half_launch (L : Launch ι) (m : ι) : Half m 0 False (launch L) where
  count := by
    simp only [launch, World.launch, World.init_eq, setters, countP_submenu, List.count_nil]
  waiting := by
    intro _ hst
    cases hst
  lists := by
    intro _ _ _
    refine ⟨?_, ?_⟩
    · simp only [launch, World.launch, World.init_eq, total_none]
    · simp only [launch, World.launch, World.init_eq]
      exact ⟨_, _, rfl⟩
  refreshing := False.elim
  title := by
    intro _ _ _ _
    simp only [launch, World.launch, World.init_eq, title_none]

theorem half_run {L : Launch ι} {ts : List (Turn ι)} (m : ι) (h : (machine L.bar).run (launch L) ts = some s)
    (hret : (machine L.bar).Along Returns (launch L) ts) :
    Half m (depth m ((machine L.bar).trace (launch L) ts)) (Announced L.bar m ((machine L.bar).trace (launch L) ts))
      s := by
  refine Machine.run_history_along (I := fun tr s => Half m (depth m tr) (Announced L.bar m tr) s) ?_ ?_ h hret
  · exact (half_launch L m).congr (iff_false_intro not_since_nil) rfl rfl rfl
  · intro tr s t s' hi hr hs
    have hd : depth m (tr ++ [(s, t)]) = depthAfter m (depth m tr) (s, t) := by
      simp only [depth, List.foldl_append, List.foldl_cons, List.foldl_nil]
    rw [hd]
    exact (half_step hi (step_cases hr hs)).congr since_snoc rfl rfl rfl

theorem depth_eq_zero {m : ι} {tr : List (MainLoop ι × Turn ι)}
    (h : ∀ x ∈ tr, ∀ installed, x.2 = .start m installed → m ∉ x.1.stack) : depth m tr = 0 := by
  unfold depth
  induction tr with
  | nil => rfl
  | cons x tr ih =>
    have hx : depthAfter m 0 x = 0 := by
      obtain ⟨s, t⟩ := x
      cases t with
      | callback | resume => rfl
      | start k installed =>
        by_cases hk : k = m
        · subst hk
          rw [depthAfter_self]
          exact List.count_eq_zero.mpr (h _ List.mem_cons_self installed rfl)
        · rw [depthAfter_other hk]
    rw [List.foldl_cons, hx]
    exact ih fun y hy => h y (List.mem_cons_of_mem _ hy)

/-- A menu stays an object of its class. -/
theorem isa_step {bar : MenuBar ι} {t : Turn ι} (hs : Step bar s t s') (m : ι) :
    (s'.world.menu m).isa = (s.world.menu m).isa := by
  have hupdate (w : World ι) {k : ι} {x : SvrMnuMenu} (hx : x.isa = (w.menu k).isa) :
      (Function.update w.menu k x m).isa = (w.menu m).isa := by
    by_cases hm : m = k
    · subst hm
      rw [Function.update_self, hx]
    · rw [Function.update_of_ne hm]
  cases hs with
  | finished | suspended | resumed => exact hupdate s.world rfl
  | callback he hs =>
    cases hs with
    | notice | suspended | enableBlink => rfl
    | poll =>
      simp only [World.polled]
      split <;> rfl
    | complete reply => exact hupdate s.world (by rw [World.completionHandler_eq])
    | makeMenus | makeMenusRaised | setPrimaryMnu | setPrimaryRaised => cases he

theorem isa_run {L : Launch ι} {ts : List (Turn ι)} (h : (machine L.bar).run (launch L) ts = some s)
    (hret : (machine L.bar).Along Returns (launch L) ts) (m : ι) : (s.world.menu m).isa = L.bar.cls m := by
  refine Machine.invariant_along (I := fun s : MainLoop ι => (s.world.menu m).isa = L.bar.cls m) ?_ ?_ h hret
  · simp only [launch, World.launch, World.init_eq]
  · intro s t s' hi hr hs
    exact (isa_step (step_cases hr hs) m).trans hi

/-- **A menu at rest shows its response iff its last makeMenus did not start inside another one of the same menu and no
request has been announced since one ended**, in every run in which the halves of `makeMenus` return. What it lists
only depends on the first of the two, which holds in the runs in which none is nested. -/
theorem menu_shown_iff (L : Launch ι) {ts : List (Turn ι)} (h : (machine L.bar).run (launch L) ts = some s)
    (hret : (machine L.bar).Along Returns (launch L) ts) {m : ι}
    (hcls : L.bar.cls m = SvrMnuWFHMenu ∨ L.bar.cls m = SvrMnuANUMenu) (hstack : m ∉ s.stack)
    (hqueue : s.world.rebuilds m = 0) :
    (s.world.Shows m ↔ depth m ((machine L.bar).trace (launch L) ts) = 0 ∧
      ¬ Announced L.bar m ((machine L.bar).trace (launch L) ts)) ∧
    (s.world.Lists m ↔ depth m ((machine L.bar).trace (launch L) ts) = 0) ∧
    (Announced L.bar m ((machine L.bar).trace (launch L) ts) →
      (s.world.menu m).title = (L.bar.cls m).refreshing) ∧
    ((machine L.bar).Along (fun s t => ∀ installed, t = .start m installed → m ∉ s.stack) (launch L) ts →
      depth m ((machine L.bar).trace (launch L) ts) = 0) := by
  have hh := half_run m h hret
  have hisa := isa_run h hret m
  have hlists : s.world.Lists m ↔ depth m ((machine L.bar).trace (launch L) ts) = 0 := by
    constructor
    · rintro ⟨-, installed, checked, hsub⟩
      have hc := hh.count
      rw [setters, hsub, countP_submenu, List.count_eq_zero.mpr hstack] at hc
      omega
    · intro hz
      exact hh.lists hz hstack hqueue
  refine ⟨⟨fun hshows => ⟨hlists.mp hshows.toLists, fun ha => ?_⟩, fun ⟨hz, ha⟩ => ?_⟩, hlists, ?_, depth_eq_zero⟩
  · have ht := hshows.title
    rw [hh.refreshing ha, hisa] at ht
    exact title_ne_refreshing hcls _ ht.symm
  · exact ⟨hlists.mpr hz, hh.title hz hstack hqueue ha⟩
  · rw [← hisa]
    exact hh.refreshing

/-- A request, its reply and an undisturbed `makeMenus`. -/
theorem menu_shown_onePlayer : ∃ s,
    (machine appBar).run (launch firstLaunch) [.callback .runRefresh,
      .callback (.complete .wfhMenu 0 (.data (some onePlayer))), .start .wfhMenu true, .resume ⟨none, true⟩] = some s ∧
    s.world.Shows .wfhMenu := by
  have hrun : ((machine appBar).run (launch firstLaunch) [.callback .runRefresh,
      .callback (.complete .wfhMenu 0 (.data (some onePlayer))), .start .wfhMenu true, .resume ⟨none, true⟩]).any
      (fun s => s.stack.isEmpty && s.world.rebuilds .wfhMenu == 0) = true := by decide +kernel
  obtain ⟨s, hs, hp⟩ := (Option.any_eq_true _ _).mp hrun
  simp only [Bool.and_eq_true, beq_iff_eq, List.isEmpty_iff] at hp
  refine ⟨s, hs, (menu_shown_iff firstLaunch hs ?_ (Or.inl rfl) ?_ hp.2).1.mpr ⟨?_, ?_⟩⟩
  · decide +kernel
  · rw [hp.1]
    exact List.not_mem_nil
  · decide +kernel
  · decide +kernel

/-- Two replies arrive, and the `makeMenus` of the second starts while that of the first waits for the address: the one
player is counted twice, and there are two `Set as primary` items. -/
theorem players_counted_twice : ∃ s,
    (machine appBar).run (launch firstLaunch) [.callback .runRefresh, .callback (.notice .forceRefresh),
      .callback .runRefresh, .callback (.complete .wfhMenu 0 (.data (some onePlayer))),
      .callback (.complete .wfhMenu 1 (.data (some onePlayer))), .start .wfhMenu true, .start .wfhMenu true,
      .resume ⟨none, true⟩, .resume ⟨none, true⟩] = some s ∧
    s.stack = [] ∧ s.world.rebuilds .wfhMenu = 0 ∧ s.world.outstanding .wfhMenu = [] ∧
    total (s.world.menu .wfhMenu).gameInfo = 1 ∧ (s.world.menu .wfhMenu).numPlayers = 2 ∧
    setters (s.world.menu .wfhMenu) = 2 := by
  have hrun : ((machine appBar).run (launch firstLaunch) [.callback .runRefresh, .callback (.notice .forceRefresh),
      .callback .runRefresh, .callback (.complete .wfhMenu 0 (.data (some onePlayer))),
      .callback (.complete .wfhMenu 1 (.data (some onePlayer))), .start .wfhMenu true, .start .wfhMenu true,
      .resume ⟨none, true⟩, .resume ⟨none, true⟩]).any (fun s => s.stack.isEmpty && s.world.rebuilds .wfhMenu == 0 &&
        (s.world.outstanding .wfhMenu).isEmpty && total (s.world.menu .wfhMenu).gameInfo == 1 &&
        (s.world.menu .wfhMenu).numPlayers == 2 && setters (s.world.menu .wfhMenu) == 2) = true := by
    decide +kernel
  obtain ⟨s, hs, hp⟩ := (Option.any_eq_true _ _).mp hrun
  simp only [Bool.and_eq_true, beq_iff_eq, List.isEmpty_iff] at hp
  obtain ⟨⟨⟨⟨⟨hst, hr⟩, ho⟩, ht⟩, hn⟩, hc⟩ := hp
  exact ⟨s, hs, hst, hr, ho, ht, hn, hc⟩

end MainLoop

end SvrMnu
