import SvrMnu.Steps

/-!
# The primary menu

The selection lives in five places: the variable `primaryMnu`, the order of the status menu, the status title, the
check marks in the submenus and the stored index. `Coherent` is how the other four follow the first, in every state
that a history of events leads to; a completion breaks it for its own menu only, until the `makeMenus` it queues.

- `coherent_step`, `coherent_run`: every event whose `makeMenus` calls can read their responses keeps it, so it holds in
  every run of such events;
- `primary_coherent`: what follows for the whole of the status menu, and for a relaunch; `selection_lost` is a run in
  which a response cannot be read.
-/

set_option autoImplicit false

namespace SvrMnu

open GameInfo Sys

variable {ι : Type} [DecidableEq ι]

/-- The event rebuilds menu `m` of the bar. -/
def Event.rebuilds (m : ι) : Event ι → Bool
  | .makeMenus k _ => k = m
  | .setPrimaryMnu _ _ => true
  | _ => false

/-- The menus of the bar with a checked item, once for each of those items. -/
def World.checked (bar : MenuBar ι) (w : World ι) : List ι :=
  bar.mnus.flatMap fun m => ((w.menu m).submenu.filter Item.isChecked).map fun _ => m

/-- The five places agree, after the events `es`. -/
structure Coherent (bar : MenuBar ι) (es : List (Event ι)) (w : World ι) : Prop where
  mem : w.delegate.primaryMnu ∈ bar.mnus
  layout : w.delegate.statusMenu = AppDelegate.layout bar w.delegate.primaryMnu
  players : ∀ m, w.rebuilds m = 0 → (w.menu m).numPlayers = total (w.menu m).gameInfo
  status : w.rebuilds w.delegate.primaryMnu = 0 →
    w.delegate.statusTitle = statusText (w.menu w.delegate.primaryMnu).gameInfo
  checks : ∀ m ∈ bar.mnus, (∃ e ∈ es, e.rebuilds m = true) →
    (w.menu m).submenu.filter Item.isChecked = if w.delegate.primaryMnu = m then [.primarySetter true] else []
  stored : (∃ e ∈ es, e.selects = true) → w.delegate.primaryIndex = bar.mnus.idxOf w.delegate.primaryMnu

/-! ## Steps that have no part in it -/

/-- `w'` has the selection of `w`, and the same menus but for their titles. -/
structure SameSelection (w w' : World ι) : Prop where
  primary : w'.delegate.primaryMnu = w.delegate.primaryMnu
  layout : w'.delegate.statusMenu = w.delegate.statusMenu
  status : w'.delegate.statusTitle = w.delegate.statusTitle
  stored : w'.delegate.primaryIndex = w.delegate.primaryIndex
  rebuilds : w'.rebuilds = w.rebuilds
  menus : ∀ m, ∃ title, w'.menu m = { w.menu m with title := title }

omit [DecidableEq ι] in
theorem SameSelection.notice {w : World ι} {d : AppDelegate ι} {n : Notice} (h : w.delegate.notice n = some d) :
    SameSelection w { w with delegate := d } := by
  cases AppDelegate.notice_cases h with
  | changeRefreshRate =>
    rw [AppDelegate.addTimer_frame]
    exact ⟨rfl, rfl, rfl, rfl, rfl, fun _ => ⟨_, rfl⟩⟩
  | _ => exact ⟨rfl, rfl, rfl, rfl, rfl, fun _ => ⟨_, rfl⟩⟩

omit [DecidableEq ι] in
theorem SameSelection.restartTimer (w : World ι) (n : Nat) :
    SameSelection w { w with delegate := { w.delegate with refreshes := n }.restartTimer } := by
  rw [AppDelegate.restartTimer_frame]
  exact ⟨rfl, rfl, rfl, rfl, rfl, fun _ => ⟨_, rfl⟩⟩

theorem SameSelection.polled {w w' : World ι} (h : SameSelection w w') (ms : List ι) :
    SameSelection w (w'.polled ms) := by
  refine ⟨h.primary, h.layout, h.status, h.stored, h.rebuilds, fun m => ?_⟩
  obtain ⟨title, ht⟩ := h.menus m
  simp only [World.polled, SvrMnuMenu.refresh, ht]
  split
  · exact ⟨_, rfl⟩
  · exact ⟨_, rfl⟩

variable {bar : MenuBar ι} {es : List (Event ι)} {w w' : World ι}

/-- An event that neither rebuilds nor selects adds nothing to what has been rebuilt. -/
theorem rebuilt_snoc {e : Event ι} {m : ι} (he : e.rebuilds m = false) (h : ∃ f ∈ es ++ [e], f.rebuilds m = true) :
    ∃ f ∈ es, f.rebuilds m = true := by
  obtain ⟨f, hf, hr⟩ := h
  rcases List.mem_append.mp hf with hf | hf
  · exact ⟨f, hf, hr⟩
  · cases List.mem_singleton.mp hf
    rw [he] at hr
    cases hr

omit [DecidableEq ι] in
theorem selected_snoc {e : Event ι} (he : e.selects = false) (h : ∃ f ∈ es ++ [e], f.selects = true) :
    ∃ f ∈ es, f.selects = true := by
  obtain ⟨f, hf, hr⟩ := h
  rcases List.mem_append.mp hf with hf | hf
  · exact ⟨f, hf, hr⟩
  · cases List.mem_singleton.mp hf
    rw [he] at hr
    cases hr

theorem Coherent.frame {e : Event ι} (h : Coherent bar es w) (hs : SameSelection w w')
    (hr : ∀ m, e.rebuilds m = false) (he : e.selects = false) : Coherent bar (es ++ [e]) w' where
  mem := by rw [hs.primary]; exact h.mem
  layout := by rw [hs.layout, hs.primary]; exact h.layout
  players := by
    intro m hm
    rw [hs.rebuilds] at hm
    obtain ⟨title, ht⟩ := hs.menus m
    rw [ht]
    exact h.players m hm
  status := by
    intro hm
    rw [hs.rebuilds, hs.primary] at hm
    obtain ⟨title, ht⟩ := hs.menus w.delegate.primaryMnu
    rw [hs.status, hs.primary, ht]
    exact h.status hm
  checks := by
    intro m hm hre
    obtain ⟨title, ht⟩ := hs.menus m
    rw [ht, hs.primary]
    exact h.checks m hm (rebuilt_snoc (hr m) hre)
  stored := by
    intro hse
    rw [hs.stored, hs.primary]
    exact h.stored (selected_snoc he hse)

/-! ## Steps that do -/

/-- A response is not shown before the `makeMenus` that the handler queues. -/
theorem Coherent.complete (h : Coherent bar es w) (m : ι) (k : Nat) (reply : Reply) :
    Coherent bar (es ++ [.complete m k reply]) (w.complete m k reply) where
  mem := h.mem
  layout := h.layout
  players := by
    intro k' hk
    by_cases hm : k' = m
    · subst hm
      simp [World.complete] at hk
    · simp only [World.complete, Function.update_of_ne hm] at hk ⊢
      exact h.players k' hk
  status := by
    intro hk
    by_cases hm : w.delegate.primaryMnu = m
    · simp [World.complete, hm] at hk
    · simp only [World.complete, Function.update_of_ne hm] at hk ⊢
      exact h.status hk
  checks := by
    intro k' hk hre
    have hc := h.checks k' hk (rebuilt_snoc rfl hre)
    by_cases hm : k' = m
    · subst hm
      simp only [World.complete, Function.update_self, World.completionHandler_eq]
      exact hc
    · simp only [World.complete, Function.update_of_ne hm]
      exact hc
  stored := fun hse => h.stored (selected_snoc rfl hse)

/-- A menu that is rebuilt checks its item exactly when it is the primary one. -/
theorem shown_checks (primary m : ι) (env : Env) (x : SvrMnuMenu) :
    (shown primary m env x).submenu.filter Item.isChecked = if primary = m then [.primarySetter true] else [] := by
  simp [shown, filter_isChecked]

/-- The status title follows the primary menu, and no other. -/
theorem rebuild_statusTitle (w : World ι) (m : ι) (env : Env) : (w.rebuild m env).delegate.statusTitle =
    if w.delegate.primaryMnu = m then statusText (w.menu m).gameInfo else w.delegate.statusTitle := by
  unfold World.rebuild
  split
  · next hp => rw [AppDelegate.setTitle_primary _ hp]; rfl
  · next hp => rw [AppDelegate.setTitle_other _ (Ne.symm hp)]

theorem rebuild_selection (w : World ι) (m : ι) (env : Env) :
    (w.rebuild m env).delegate.primaryMnu = w.delegate.primaryMnu ∧
    (w.rebuild m env).delegate.statusMenu = w.delegate.statusMenu ∧
    (w.rebuild m env).delegate.primaryIndex = w.delegate.primaryIndex := by
  unfold World.rebuild
  rw [AppDelegate.setTitle_frame]
  exact ⟨rfl, rfl, rfl⟩

theorem Coherent.makeMenus (h : Coherent bar es w) (m : ι) (env : Env) :
    Coherent bar (es ++ [.makeMenus m env]) ((w.dequeue m).rebuild m env) := by
  obtain ⟨hprimary, hlayout, hstored⟩ := rebuild_selection (w.dequeue m) m env
  constructor
  case mem => rw [hprimary]; exact h.mem
  case layout => rw [hlayout, hprimary]; exact h.layout
  case players =>
    intro k hk
    by_cases hm : k = m
    · subst hm
      simp [World.rebuild, shown]
    · simp only [World.rebuild, World.dequeue, Function.update_of_ne hm] at hk ⊢
      exact h.players k hk
  case status =>
    intro hk
    rw [hprimary] at hk ⊢
    rw [rebuild_statusTitle, World.rebuild_gameInfo]
    split
    · next hp => rw [← hp]; rfl
    · next hp =>
      have hp : w.delegate.primaryMnu ≠ m := hp
      simp only [World.rebuild, World.dequeue, Function.update_of_ne hp] at hk
      exact h.status hk
  case checks =>
    intro k hk hre
    rw [hprimary]
    by_cases hm : k = m
    · subst hm
      simp only [World.rebuild, Function.update_self]
      exact shown_checks _ _ _ _
    · simp only [World.rebuild, World.dequeue, Function.update_of_ne hm]
      exact h.checks k hk (rebuilt_snoc (by simpa [Event.rebuilds] using Ne.symm hm) hre)
  case stored =>
    intro hse
    rw [hstored, hprimary]
    exact h.stored (selected_snoc rfl hse)

theorem Coherent.setPrimaryMnu (h : Coherent bar es w) {m : ι} (env : ι → Env) (hm : m ∈ bar.mnus) :
    Coherent bar (es ++ [.setPrimaryMnu m env]) (w.switched bar m env) where
  mem := hm
  layout := rfl
  players := by
    intro k hk
    simp only [World.switched]
    split
    · rfl
    · exact h.players k hk
  status := by
    intro _
    simp only [World.switched, hm, if_true, shown]
  checks := by
    intro k hk _
    simp only [World.switched, hk, if_true]
    exact shown_checks m k (env k) (w.menu k)
  stored := fun _ => rfl

/-! ## Every run -/

theorem coherent_step {e : Event ι} (h : Coherent bar es w) (hret : w.Returns bar e) (hs : World.Step bar w e w') :
    Coherent bar (es ++ [e]) w' := by
  cases hs with
  | notice hn => exact h.frame (SameSelection.notice hn) (fun _ => rfl) rfl
  | suspended => exact h.frame (SameSelection.restartTimer w _) (fun _ => rfl) rfl
  | poll => exact h.frame ((SameSelection.restartTimer w _).polled bar.mnus) (fun _ => rfl) rfl
  | complete reply => exact h.complete _ _ reply
  | makeMenus env => exact h.makeMenus _ env
  | setPrimaryMnu env hm => exact h.setPrimaryMnu env hm
  | makeMenusRaised _ hr => exact absurd hret hr
  | setPrimaryRaised _ hr => exact absurd hret hr
  | enableBlink => exact h.frame ⟨rfl, rfl, rfl, rfl, rfl, fun _ => ⟨_, rfl⟩⟩ (fun _ => rfl) rfl

theorem coherent_launch (L : Launch ι) : Coherent L.bar [] (World.launch L) where
  mem := List.get_mem _ _
  layout := by
    simp only [World.launch, AppDelegate.launch]
    rw [AppDelegate.setupMenu_eq]
    rfl
  players := by
    intro m _
    simp [World.launch, World.init_eq]
  status := by
    intro _
    simp only [World.launch, World.init_eq, AppDelegate.launch]
    rw [AppDelegate.setupMenu_eq]
    rfl
  checks := by
    rintro m _ ⟨e, he, _⟩
    cases he
  stored := by
    rintro ⟨e, he, _⟩
    cases he

theorem coherent_run {L : Launch ι} (h : (World.machine L.bar).run (World.launch L) es = some w)
    (hread : (World.machine L.bar).Along (World.Reads L.bar) (World.launch L) es) : Coherent L.bar es w :=
  Machine.run_events_along (coherent_launch L)
    (fun _ _ _ _ hi hr hs => coherent_step hi (World.returns_iff.mpr hr) (World.step_cases hs)) h hread

/-! ## The whole bar -/

/-- One name out of a list without duplicates. -/
theorem flatMap_eq_singleton {α : Type} [DecidableEq α] {p : α} {l : List α} (hnd : l.Nodup) (hp : p ∈ l) :
    l.flatMap (fun a => if p = a then [a] else []) = [p] := by
  induction l with
  | nil => cases hp
  | cons a l ih =>
    obtain ⟨ha, hnd⟩ := List.nodup_cons.mp hnd
    rw [List.flatMap_cons]
    by_cases hpa : p = a
    · subst hpa
      have hnil : l.flatMap (fun a => if p = a then [a] else []) = [] := by
        rw [List.flatMap_eq_nil_iff]
        intro b hb
        rw [if_neg fun h : p = b => ha (h ▸ hb)]
      rw [if_pos rfl, hnil]
      rfl
    · rw [if_neg hpa, List.nil_append]
      exact ih hnd ((List.mem_cons.mp hp).resolve_left hpa)

theorem Coherent.checked (h : Coherent bar es w) (hall : ∀ m ∈ bar.mnus, ∃ e ∈ es, e.rebuilds m = true) :
    w.checked bar = [w.delegate.primaryMnu] := by
  rw [← flatMap_eq_singleton bar.nodup h.mem]
  unfold World.checked
  refine List.flatMap_congr fun m hm => ?_
  rw [h.checks m hm (hall m hm)]
  split <;> rfl

omit [DecidableEq ι] in
/-- What is stored is not trusted. -/
theorem launchPrimary_outside (bar : MenuBar ι) {i : Int} (h : i < 0 ∨ (bar.mnus.length : Int) ≤ i) :
    bar.launchPrimary i = bar.mnus.head bar.ne_nil := by
  have hi : i ≥ bar.mnus.length ∨ i < 0 := h.symm
  unfold MenuBar.launchPrimary MenuBar.launchIndex
  rw [dif_pos hi, List.get_eq_getElem, List.head_eq_getElem]

theorem launchPrimary_idxOf (bar : MenuBar ι) {m : ι} (hm : m ∈ bar.mnus) :
    bar.launchPrimary (bar.mnus.idxOf m) = m := by
  have hlt := List.idxOf_lt_length_of_mem hm
  have hi : ¬ ((bar.mnus.idxOf m : Int) ≥ bar.mnus.length ∨ (bar.mnus.idxOf m : Int) < 0) := by omega
  unfold MenuBar.launchPrimary MenuBar.launchIndex
  rw [dif_neg hi]
  simp

theorem launch_primaryMnu (L : Launch ι) :
    (World.launch L).delegate.primaryMnu = L.bar.launchPrimary L.primaryIndex := by
  simp only [World.launch, AppDelegate.launch]
  rw [AppDelegate.setupMenu_eq]
  rfl

/-- **The five places agree in every state of every run** whose `makeMenus` calls can read the responses they find. -/
theorem primary_coherent (L : Launch ι) (h : (World.machine L.bar).run (World.launch L) es = some w)
    (hread : (World.machine L.bar).Along (World.Reads L.bar) (World.launch L) es) :
    (w.delegate.primaryMnu ∈ L.bar.mnus ∧ w.delegate.statusMenu =
      .mnu w.delegate.primaryMnu :: (L.bar.mnus.filter (· ≠ w.delegate.primaryMnu)).map .mnu ++
        [.refresher, .loginMenu, .quit]) ∧
    (w.rebuilds w.delegate.primaryMnu = 0 → w.delegate.statusTitle =
      if (w.menu w.delegate.primaryMnu).gameInfo.isSome then toString (w.menu w.delegate.primaryMnu).numPlayers
      else "...") ∧
    ((∀ m ∈ L.bar.mnus, ∃ e ∈ es, e.rebuilds m = true) → w.checked L.bar = [w.delegate.primaryMnu]) ∧
    ((∃ e ∈ es, e.selects = true) → w.delegate.primaryIndex = L.bar.mnus.idxOf w.delegate.primaryMnu ∧
      (World.launch { L with primaryIndex := w.delegate.primaryIndex }).delegate.primaryMnu =
        w.delegate.primaryMnu) ∧
    (∀ i : Int, i < 0 ∨ L.bar.mnus.length ≤ i →
      (World.launch { L with primaryIndex := i }).delegate.primaryMnu = L.bar.mnus.head L.bar.ne_nil) := by
  have hc := coherent_run h hread
  refine ⟨⟨hc.mem, hc.layout⟩, fun hz => ?_, hc.checked, fun hs => ⟨hc.stored hs, ?_⟩, fun i hi => ?_⟩
  · rw [hc.status hz, hc.players _ hz]
    unfold statusText
    cases (w.menu w.delegate.primaryMnu).gameInfo <;> rfl
  · rw [launch_primaryMnu, hc.stored hs]
    exact launchPrimary_idxOf L.bar hc.mem
  · rw [launch_primaryMnu]
    exact launchPrimary_outside L.bar hi

/-- The second menu knows of one player and is chosen: the check mark, the status menu, the status title and the stored
index move to it. -/
theorem primary_coherent_anuMenu : ∃ w, (World.machine appBar).run (World.launch firstLaunch) [.runRefresh,
      .complete .anuMenu 0 (.data (some onePlayer)), .makeMenus .anuMenu ⟨none, true⟩,
      .setPrimaryMnu .anuMenu fun _ => ⟨none, true⟩] = some w ∧
    w.delegate.statusMenu = [.mnu .anuMenu, .mnu .wfhMenu, .refresher, .loginMenu, .quit] ∧
    w.delegate.statusTitle = "1" ∧ w.checked appBar = [.anuMenu] ∧ w.delegate.primaryIndex = 1 := by
  let es : List (Event Mnu) := [.runRefresh, .complete .anuMenu 0 (.data (some onePlayer)),
    .makeMenus .anuMenu ⟨none, true⟩, .setPrimaryMnu .anuMenu fun _ => ⟨none, true⟩]
  have hrun : ((World.machine appBar).run (World.launch firstLaunch) es).any (fun w =>
      w.delegate.primaryMnu == .anuMenu && w.rebuilds .anuMenu == 0 && (w.menu .anuMenu).gameInfo.isSome &&
        (w.menu .anuMenu).numPlayers == 1) = true := by decide +kernel
  obtain ⟨w, hw, hp⟩ := (Option.any_eq_true _ _).mp hrun
  simp only [Bool.and_eq_true, beq_iff_eq] at hp
  obtain ⟨⟨⟨hprimary, hz⟩, hg⟩, hn⟩ := hp
  obtain ⟨⟨-, hmenu⟩, htitle, hchecked, hstored, -⟩ := primary_coherent firstLaunch hw (by decide +kernel)
  rw [hprimary] at hmenu htitle hchecked hstored
  have htitle := htitle hz
  rw [if_pos hg, hn] at htitle
  refine ⟨w, hw, hmenu, htitle, hchecked fun m _ => ?_, (hstored ?_).1⟩
  · exact ⟨.setPrimaryMnu .anuMenu fun _ => ⟨none, true⟩, by simp [es], rfl⟩
  · exact ⟨.setPrimaryMnu .anuMenu fun _ => ⟨none, true⟩, by simp [es], rfl⟩

/-- The second menu knows of one player, but the response of the first cannot be read. The `setPrimaryMnu:` that chooses
the second menu ends there: nothing is left to run, and the status title is still the one of `setupMenu` and the stored
index still that of the first menu. -/
theorem selection_lost : ∃ w, (World.machine appBar).run (World.launch firstLaunch) [.runRefresh,
      .complete .wfhMenu 0 (.data (some nullGames)), .complete .anuMenu 0 (.data (some onePlayer)),
      .makeMenus .wfhMenu ⟨none, true⟩, .makeMenus .anuMenu ⟨none, true⟩,
      .setPrimaryMnu .anuMenu fun _ => ⟨none, true⟩] = some w ∧
    w.delegate.primaryMnu = .anuMenu ∧ (∀ m, w.rebuilds m = 0) ∧
    (w.menu .anuMenu).gameInfo.isSome = true ∧ (w.menu .anuMenu).numPlayers = 1 ∧ w.delegate.statusTitle = "..." ∧
    w.delegate.primaryIndex = 0 ∧
    (World.launch { firstLaunch with primaryIndex := w.delegate.primaryIndex }).delegate.primaryMnu = .wfhMenu := by
  have hrun : ((World.machine appBar).run (World.launch firstLaunch) [.runRefresh,
      .complete .wfhMenu 0 (.data (some nullGames)), .complete .anuMenu 0 (.data (some onePlayer)),
      .makeMenus .wfhMenu ⟨none, true⟩, .makeMenus .anuMenu ⟨none, true⟩,
      .setPrimaryMnu .anuMenu fun _ => ⟨none, true⟩]).any (fun w => w.delegate.primaryMnu == .anuMenu &&
        w.rebuilds .wfhMenu == 0 && w.rebuilds .anuMenu == 0 && (w.menu .anuMenu).gameInfo.isSome &&
        (w.menu .anuMenu).numPlayers == 1 && w.delegate.statusTitle == "..." && w.delegate.primaryIndex == 0) =
          true := by decide +kernel
  obtain ⟨w, hw, hp⟩ := (Option.any_eq_true _ _).mp hrun
  simp only [Bool.and_eq_true, beq_iff_eq] at hp
  obtain ⟨⟨⟨⟨⟨⟨hprimary, hwfh⟩, hanu⟩, hg⟩, hn⟩, ht⟩, hi⟩ := hp
  refine ⟨w, hw, hprimary, fun m => ?_, hg, hn, ht, hi, ?_⟩
  · cases m with
    | wfhMenu => exact hwfh
    | anuMenu => exact hanu
  · rw [hi]
    rfl

end SvrMnu
