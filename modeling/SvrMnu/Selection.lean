import SvrMnu.Accounts
import SvrMnu.Led
import SvrMnu.Primary

/-!
# The primary menu in nested run loops

A `setPrimaryMnu:` chooses the new primary menu at once, rebuilds every menu after that, and stores the index last; in
between it may wait any number of times, and others may choose another menu. `Settled` is what holds but for what the
calls that wait still owe: `toClear` are the menus a loop of `setPrimaryMnu:` has still to clear, `toFinish` those it
has still to finish.

- `triple_continueLoop`, `triple_resumePrimary`, `triple_resumeQueued`: the parts of `setPrimaryMnu:` and of a queued
  `makeMenus` pay what they owe;
- `settled_step`: every activity keeps it, unless an exception ends a `setPrimaryMnu:`;
- `led_agrees_nested`, `selection_nested`: so the LED, the check marks and the stored index are right whenever no
  `setPrimaryMnu:` waits; `lit_after_exception` is a run in which an exception ends one.
-/

set_option autoImplicit false

namespace SvrMnu

open Sys Relation

variable {ι : Type} [DecidableEq ι]

/-! ## What the frames owe -/

/-- The menus a frame has still to clear. -/
def Frame.toClear (f : Frame ι) : List ι :=
  match f.caller with
  | .queued => []
  | .setPrimaryMnu rest => rest

/-- The menus it has still to finish, in a loop of `setPrimaryMnu:`. -/
def Frame.toFinish (f : Frame ι) : List ι :=
  match f.caller with
  | .queued => []
  | .setPrimaryMnu rest => f.mnu :: rest

namespace Activity

/-- The activity starts to rebuild menu `m` of the bar. -/
def rebuilds (m : ι) : Activity ι → Bool
  | .makeMenus k _ => k = m
  | .setPrimaryMnu _ _ => true
  | _ => false

def selects : Activity ι → Bool
  | .setPrimaryMnu _ _ => true
  | _ => false

def isOff : Activity ι → Bool
  | .callback e => e.isOff
  | _ => false

end Activity

/-- A job has run since the launch and since the LED was last turned off. -/
def RunLoop.JobSinceOff (as : List (Activity ι)) : Prop :=
  Since (fun a => a = .callback .runEnableBlink) (fun a => a.isOff = true) as

/-- After the activities `as` everything follows the primary menu, but for the menus that are still to be cleared or
finished, and for the index while a `setPrimaryMnu:` runs. -/
structure Settled (bar : MenuBar ι) (as : List (Activity ι)) (toClear toFinish : List ι) (running : Prop)
    (w : World ι) : Prop where
  checks : ∀ m ∈ bar.mnus, m ∉ toClear → (∃ a ∈ as, a.rebuilds m = true) →
    ∀ checked, .primarySetter checked ∈ (w.menu m).submenu → checked = decide (w.delegate.primaryMnu = m)
  owned : w.delegate.blink.Owned
  lit : RunLoop.JobSinceOff as → w.delegate.primaryMnu ∈ toFinish ∨ 0 < w.delegate.jobs ∨
    Agrees w.primaryValue w.delegate.blink
  /-- A relaunch would choose the same menu. -/
  stored : running ∨ (w.delegate.primaryMnu ∈ bar.mnus →
    bar.launchPrimary w.delegate.primaryIndex = w.delegate.primaryMnu)

variable {bar : MenuBar ι} {as : List (Activity ι)} {toClear toFinish : List ι} {running : Prop} {w w' : World ι}

/-- Owing more says less. -/
theorem Settled.mono (h : Settled bar as toClear toFinish running w) {clear' finish' : List ι} {running' : Prop}
    (hc : ∀ m ∈ toClear, m ∈ clear') (hf : ∀ m ∈ toFinish, m ∈ finish') (hr : running → running') :
    Settled bar as clear' finish' running' w where
  checks := fun m hm hn => h.checks m hm fun hcl => hn (hc m hcl)
  owned := h.owned
  lit := fun hj => (h.lit hj).imp_left (hf _)
  stored := h.stored.imp_left hr

/-! ## Statements -/

/-- Drawing adds no `Set as primary` item and changes no value. -/
theorem draws_setters {x y : SvrMnuMenu} (h : ReflTransGen SvrMnuMenu.Draws x y) :
    (∀ checked, Item.primarySetter checked ∈ y.submenu → Item.primarySetter checked ∈ x.submenu) ∧
    y.value = x.value := by
  induction h with
  | refl => exact ⟨fun _ hi => hi, rfl⟩
  | tail _ hd ih =>
    obtain ⟨hs, hv⟩ := ih
    cases hd with
    | clear => exact ⟨fun _ hi => absurd hi List.not_mem_nil, hv⟩
    | count => exact ⟨hs, hv⟩
    | row title =>
      refine ⟨fun checked hi => ?_, hv⟩
      rcases List.mem_append.mp hi with hi | hi
      · exact hs checked hi
      · cases List.mem_singleton.mp hi

theorem Settled.draw (h : Settled bar as toClear toFinish running w) {m : ι} {x : SvrMnuMenu}
    (hx : ReflTransGen SvrMnuMenu.Draws (w.menu m) x) :
    Settled bar as toClear toFinish running { w with menu := Function.update w.menu m x } := by
  obtain ⟨hs, hv⟩ := draws_setters hx
  refine ⟨fun k hk hn ha checked hi => ?_, h.owned, ?_, h.stored⟩
  · refine h.checks k hk hn ha checked ?_
    have hi : Item.primarySetter checked ∈ (Function.update w.menu m x k).submenu := hi
    by_cases hkm : k = m
    · subst hkm
      rw [Function.update_self] at hi
      exact hs checked hi
    · rwa [Function.update_of_ne hkm] at hi
  · have hp : World.primaryValue { w with menu := Function.update w.menu m x } = w.primaryValue :=
      value_update w hv _
    rw [hp]
    exact h.lit

/-- A menu without `Set as primary` items is as good as one with the right ones. -/
theorem Settled.cleared {m : ι} (h : Settled bar as (m :: toClear) toFinish running w)
    (hm : ∀ checked, Item.primarySetter checked ∉ (w.menu m).submenu) :
    Settled bar as toClear toFinish running w := by
  refine ⟨fun k hk hn ha checked hi => ?_, h.owned, h.lit, h.stored⟩
  by_cases hkm : k = m
  · subst hkm
    exact absurd hi (hm checked)
  · exact h.checks k hk (by simp [hkm, hn]) ha checked hi

/-- The end of a `makeMenus` adds the right item, and a job if its menu is the primary one. -/
theorem Settled.finish {m : ι} (h : Settled bar as toClear (m :: toFinish) running w) (titleString : String)
    (selfie installed : Bool) :
    Settled bar as toClear toFinish running (w.finishMenus m titleString selfie installed) := by
  obtain ⟨title, value, hw⟩ := World.finishMenus_eq w m titleString selfie installed
  rw [hw]
  refine ⟨fun k hk hn ha checked hi => ?_, ?_, fun hj => ?_, ?_⟩
  · rw [AppDelegate.setTitle_primaryMnu]
    by_cases hkm : k = m
    · subst hkm
      simp only [Function.update_self, List.mem_append, List.mem_filter, List.mem_singleton] at hi
      rcases hi with (⟨hi, -⟩ | hi) | hi
      · exact h.checks k hk hn ha checked hi
      · cases installed with
        | true => cases List.mem_singleton.mp hi
        | false => cases hi
      · injection hi
    · simp only [Function.update_of_ne hkm] at hi
      exact h.checks k hk hn ha checked hi
  · rw [AppDelegate.setTitle_frame]
    exact h.owned
  · by_cases hp : w.delegate.primaryMnu = m
    · rw [AppDelegate.setTitle_primary title hp]
      exact Or.inr (Or.inl (Nat.succ_pos _))
    · rw [AppDelegate.setTitle_other title (Ne.symm hp)]
      refine (h.lit hj).imp (fun hf => (List.mem_cons.mp hf).resolve_left hp) (Or.imp_right fun ha => ?_)
      unfold World.primaryValue
      simp only [Function.update_of_ne hp]
      exact ha
  · rw [AppDelegate.setTitle_frame]
    exact h.stored

/-- A selection makes every menu of the bar one to clear and to finish. -/
theorem Settled.select (h : Settled bar as toClear toFinish running w) {m : ι} (hm : m ∈ bar.mnus)
    (as' : List (Activity ι)) :
    Settled bar as' (bar.mnus ++ toClear) (bar.mnus ++ toFinish) True (w.selectMnu bar m) := by
  unfold World.selectMnu
  rw [AppDelegate.setupMenu_eq]
  refine ⟨fun k hk hn => ?_, h.owned, fun _ => ?_, Or.inl trivial⟩
  · exact absurd (List.mem_append_left _ hk) hn
  · exact Or.inl (List.mem_append_left _ hm)

theorem Settled.store (h : Settled bar as toClear toFinish running w) (running' : Prop) :
    Settled bar as toClear toFinish running' (w.storeIndex bar) :=
  ⟨h.checks, h.owned, h.lit, Or.inr fun hm => launchPrimary_idxOf bar hm⟩

/-! ## The parts of the code -/

/-- Everything follows the primary menu, but for what the frames of the stack owe. -/
def SettledOn (bar : MenuBar ι) (as : List (Activity ι)) (stack : List (Frame ι)) : World ι → Prop :=
  Settled bar as (stack.flatMap Frame.toClear) (stack.flatMap Frame.toFinish) (∃ f ∈ stack, f.caller ≠ .queued)

/-- A `makeMenus` has cleared its menu of `Set as primary` items when it gets to its wait, and when it raises. -/
theorem beginMenus_setters (x : SvrMnuMenu) (checked : Bool) :
    Item.primarySetter checked ∉ (finalState SvrMnuMenu.beginMenus x).submenu := by
  -- a menu that is clear already comes to the same
  have hx : finalState SvrMnuMenu.beginMenus x =
      finalState SvrMnuMenu.beginMenus { x with submenu := [], numServers := 0, numPlayers := 0 } := rfl
  rw [hx]
  intro hi
  exact absurd ((draws_setters (draws_beginMenus _)).1 checked hi) List.not_mem_nil

theorem triple_beginMenus (m : ι) :
    Triple (Settled bar as (m :: toClear) toFinish running) (World.beginMenus m)
      (fun _ => Settled bar as toClear toFinish running) (Settled bar as toClear toFinish running) := by
  refine Triple.of_finalState fun w h => ?_
  have hw : finalState (World.beginMenus m) w =
      { w with menu := Function.update w.menu m (finalState SvrMnuMenu.beginMenus (w.menu m)) } :=
    World.finalState_onMenu m SvrMnuMenu.beginMenus w
  rw [hw]
  refine (h.draw (draws_beginMenus (w.menu m))).cleared fun checked hi => ?_
  have hi : Item.primarySetter checked ∈
    (Function.update w.menu m (finalState SvrMnuMenu.beginMenus (w.menu m)) m).submenu := hi
  rw [Function.update_self] at hi
  exact beginMenus_setters _ checked hi

theorem triple_unableMenus (m : ι) (installed : Bool) (E : World ι → Prop) :
    Triple (Settled bar as toClear (m :: toFinish) running) (World.unableMenus m installed)
      (fun _ => Settled bar as toClear toFinish running) E := by
  intro w h
  refine ⟨fun a w' hx => ?_, fun e w' hx => by cases hx⟩
  cases hx
  exact h.finish _ false installed

/-- The rest of a `makeMenus` finishes its menu, or has only drawn on it when it raises. -/
theorem triple_resumeMenus (m : ι) (env : Env) {finish' : List ι} (hf : ∀ k ∈ toFinish, k ∈ m :: finish') :
    Triple (Settled bar as toClear toFinish running) (World.resumeMenus m env)
      (fun _ => Settled bar as toClear finish' running) (Settled bar as toClear toFinish running) := by
  unfold World.resumeMenus
  rw [World.onScene_bind]
  refine Triple.bind (M := fun _ => Settled bar as toClear toFinish running) ?_ ?_
  · refine Triple.of_finalState fun w h => ?_
    rw [World.finalState_onMenu]
    exact h.draw (draws_readServers _ _)
  · rintro ⟨titleString, selfie⟩ w h
    refine ⟨fun a w' hx => ?_, fun e w' hx => by cases hx⟩
    cases hx
    exact (h.mono (fun _ hk => hk) hf id).finish titleString selfie env.installed

/-- The loop of `setPrimaryMnu:` goes on until a frame of its own takes over what it owes, or to its end. -/
theorem triple_continueLoop (installed : ι → Bool) (stack : List (Frame ι)) (ms : List ι) :
    Triple (Settled bar as (ms ++ stack.flatMap Frame.toClear) (ms ++ stack.flatMap Frame.toFinish) True)
      (World.continueLoop bar installed ms) (fun o => SettledOn bar as (o.toList ++ stack)) fun _ => True := by
  induction ms with
  | nil =>
    refine Triple.bind (M := fun _ => SettledOn bar as stack) (Triple.modify fun w h => h.store _) fun _ => ?_
    exact Triple.pure none fun w h => h
  | cons m ms ih =>
    refine Triple.bind (M := fun _ =>
      Settled bar as (ms ++ stack.flatMap Frame.toClear) (m :: ms ++ stack.flatMap Frame.toFinish) True) ?_ fun b => ?_
    · exact (triple_beginMenus m).conseq (fun _ h => h) (fun _ _ h => h) fun _ _ => trivial
    · cases b with
      | true =>
        let f : Frame ι := ⟨m, .setPrimaryMnu ms⟩
        refine Triple.pure (some f) fun w h => ?_
        have hf : f.caller ≠ .queued := by rintro ⟨⟩
        exact h.mono (fun _ hk => hk) (fun _ hk => hk) fun _ => ⟨f, List.mem_cons_self, hf⟩
      | false => exact Triple.bind (triple_unableMenus m (installed m) _) fun _ => ih

/-- A `makeMenus` that the run loop calls owes nothing, whether it waits, ends or raises. -/
theorem triple_startMenus (m : ι) (installed : Bool) (stack : List (Frame ι)) :
    Triple (Settled bar as (m :: stack.flatMap Frame.toClear) (stack.flatMap Frame.toFinish)
        (∃ f ∈ stack, f.caller ≠ .queued))
      (World.startMenus m installed) (fun o => SettledOn bar as (o.toList ++ stack)) (SettledOn bar as stack) := by
  refine Triple.bind (triple_beginMenus m) fun b => ?_
  cases b with
  | true =>
    let f : Frame ι := ⟨m, .queued⟩
    refine Triple.pure (some f) fun w h => h.mono (fun _ hk => hk) (fun _ hk => hk) ?_
    rintro ⟨g, hg, hc⟩
    exact ⟨g, List.mem_cons_of_mem _ hg, hc⟩
  | false =>
    refine Triple.bind (M := fun _ => SettledOn bar as stack) ?_ fun _ => Triple.pure none fun w h => h
    refine (triple_unableMenus m installed _).conseq (fun w h => ?_) (fun _ _ h => h) fun _ h => h
    exact h.mono (fun _ hk => hk) (fun _ hk => List.mem_cons_of_mem _ hk) id

theorem triple_startPrimary {m : ι} (hm : m ∈ bar.mnus) (installed : ι → Bool) (stack : List (Frame ι))
    (as' : List (Activity ι)) :
    Triple (SettledOn bar as stack) (World.startPrimary bar m installed)
      (fun o => SettledOn bar as' (o.toList ++ stack)) fun _ => True := by
  refine Triple.bind (Triple.modify fun w h => ?_) fun _ => triple_continueLoop installed stack bar.mnus
  exact Settled.select h hm as'

/-- A frame of the run loop is done when its `makeMenus` ends, and owes nothing if it raises. -/
theorem triple_resumeQueued (m : ι) (publicAddress : Option String) (installed : ι → Bool)
    (stack : List (Frame ι)) :
    Triple (SettledOn bar as (⟨m, .queued⟩ :: stack))
      (World.resumeFrame bar ⟨m, .queued⟩ publicAddress installed)
      (fun o => SettledOn bar as (o.toList ++ stack)) (SettledOn bar as stack) := by
  have hpop {w : World ι} (h : SettledOn bar as (⟨m, .queued⟩ :: stack) w) : SettledOn bar as stack w := by
    refine Settled.mono h (fun _ hk => hk) (fun _ hk => hk) ?_
    rintro ⟨f, hf, hc⟩
    rcases List.mem_cons.mp hf with rfl | hf
    · exact absurd rfl hc
    · exact ⟨f, hf, hc⟩
  refine Triple.bind (M := fun _ => SettledOn bar as stack) ?_ fun _ => Triple.pure none fun w h => h
  exact (triple_resumeMenus m _ fun _ hk => List.mem_cons_of_mem _ hk).conseq (fun _ h => hpop h) (fun _ _ h => h)
    fun _ h => h

/-- A frame of `setPrimaryMnu:` goes on with the loop. -/
theorem triple_resumePrimary (m : ι) (rest : List ι) (publicAddress : Option String) (installed : ι → Bool)
    (stack : List (Frame ι)) :
    Triple (SettledOn bar as (⟨m, .setPrimaryMnu rest⟩ :: stack))
      (World.resumeFrame bar ⟨m, .setPrimaryMnu rest⟩ publicAddress installed)
      (fun o => SettledOn bar as (o.toList ++ stack)) fun _ => True := by
  refine Triple.bind (M := fun _ => Settled bar as (rest ++ stack.flatMap Frame.toClear)
    (rest ++ stack.flatMap Frame.toFinish) True) ?_ fun _ => triple_continueLoop installed stack rest
  refine (triple_resumeMenus m _ fun _ hk => hk).conseq (fun w h => ?_) (fun _ _ h => h) fun _ _ => trivial
  exact Settled.mono h (fun _ hk => hk) (fun _ hk => hk) fun _ => trivial

/-! ## Activities -/

/-- A job is still to come or the LED is right, after each callback that does not turn the LED off. -/
theorem agrees_callback {e : Event ι} (he : e.isRebuild = false) (hoff : e.isOff = false)
    (ho : w.delegate.blink.Owned) (h : 0 < w.delegate.jobs ∨ Agrees w.primaryValue w.delegate.blink)
    (hs : World.Step bar w e w') : 0 < w'.delegate.jobs ∨ Agrees w'.primaryValue w'.delegate.blink := by
  have hl : Lit [.runEnableBlink] w := ⟨ho, fun _ => h⟩
  have hsel : e.selects = true → w.Returns bar e := by
    intro hsel
    cases e with
    | setPrimaryMnu => cases he
    | _ => cases hsel
  refine (lit_step hl hsel hs).shown ⟨[], .runEnableBlink, [e], rfl, rfl, fun b hb hb' => ?_⟩
  cases List.mem_singleton.mp hb
  rw [hoff] at hb'
  cases hb'

/-- Callbacks leave the items and the selection alone. -/
theorem frame_callback {e : Event ι} (he : e.isRebuild = false) (hs : World.Step bar w e w') :
    w'.delegate.primaryMnu = w.delegate.primaryMnu ∧ w'.delegate.primaryIndex = w.delegate.primaryIndex ∧
    ∀ m, (w'.menu m).submenu = (w.menu m).submenu := by
  cases hs with
  | notice hn =>
    cases AppDelegate.notice_cases hn with
    | changeRefreshRate =>
      rw [AppDelegate.addTimer_frame]
      exact ⟨rfl, rfl, fun _ => rfl⟩
    | _ => exact ⟨rfl, rfl, fun _ => rfl⟩
  | suspended =>
    rw [AppDelegate.restartTimer_frame]
    exact ⟨rfl, rfl, fun _ => rfl⟩
  | poll =>
    simp only [World.polled]
    rw [AppDelegate.restartTimer_frame]
    refine ⟨rfl, rfl, fun m => ?_⟩
    split <;> rfl
  | @complete k i reply =>
    refine ⟨rfl, rfl, fun m => ?_⟩
    by_cases hk : m = k
    · subst hk
      simp only [World.complete, Function.update_self, World.completionHandler_eq]
    · simp only [World.complete, Function.update_of_ne hk]
  | enableBlink => exact ⟨rfl, rfl, fun _ => rfl⟩
  | makeMenus | makeMenusRaised | setPrimaryMnu | setPrimaryRaised => cases he

/-- A callback keeps the timer of the blink(1) its own. -/
theorem owned_callback {e : Event ι} (he : e.isRebuild = false) (ho : w.delegate.blink.Owned)
    (hs : World.Step bar w e w') : w'.delegate.blink.Owned := by
  have hl : Lit [] w := ⟨ho, by rintro ⟨_ | _, _, _, hn, _⟩ <;> cases hn⟩
  have hsel : e.selects = true → w.Returns bar e := by
    intro hsel
    cases e with
    | setPrimaryMnu => cases he
    | _ => cases hsel
  exact (lit_step hl hsel hs).owned

theorem Settled.callback {e : Event ι} (h : Settled bar as toClear toFinish running w) (he : e.isRebuild = false)
    (hs : World.Step bar w e w') : Settled bar (as ++ [.callback e]) toClear toFinish running w' := by
  obtain ⟨hp, hi, hsub⟩ := frame_callback he hs
  refine ⟨fun m hm hn ha checked hc => ?_, owned_callback he h.owned hs, fun hj => ?_, ?_⟩
  · rw [hp]
    rw [hsub m] at hc
    obtain ⟨a, ha, hr⟩ := ha
    rcases List.mem_append.mp ha with ha | ha
    · exact h.checks m hm hn ⟨a, ha, hr⟩ checked hc
    · cases List.mem_singleton.mp ha
      cases hr
  · rw [hp]
    rcases since_snoc.mp hj with hrun | ⟨hoff, hj⟩
    · obtain rfl : e = .runEnableBlink := by injection hrun
      cases hs with
      | enableBlink => exact Or.inr (Or.inr (blinkFor_agrees h.owned _))
    · have hoff : e.isOff = false := by simpa [Activity.isOff] using hoff
      rcases h.lit hj with hf | ha
      · exact Or.inl hf
      · exact Or.inr (agrees_callback he hoff h.owned ha hs)
  · rw [hp, hi]
    exact h.stored

/-- Another activity of the menus, before its code runs. -/
theorem Settled.snoc {a : Activity ι} (h : Settled bar as toClear toFinish running w)
    (hc : ∀ e, a ≠ .callback e) {clear' : List ι} (hsub : ∀ m ∈ toClear, m ∈ clear')
    (hr : ∀ m, a.rebuilds m = true → m ∈ clear') : Settled bar (as ++ [a]) clear' toFinish running w where
  checks := by
    rintro m hm hn ⟨b, hb, hrb⟩
    rcases List.mem_append.mp hb with hb | hb
    · exact h.checks m hm (fun hk => hn (hsub m hk)) ⟨b, hb, hrb⟩
    · cases List.mem_singleton.mp hb
      exact absurd (hr m hrb) hn
  owned := h.owned
  lit := by
    intro hj
    rcases since_snoc.mp hj with hrun | ⟨-, hj⟩
    · exact absurd hrun (hc _)
    · exact h.lit hj
  stored := h.stored

namespace RunLoop

/-- An exception in the activity ends a `setPrimaryMnu:`, one that waits or its own. -/
def Interrupts (bar : MenuBar ι) (s : RunLoop ι) (a : Activity ι) : Prop :=
  Raised bar s a ∧ (a.selects = true ∨ ∃ f ∈ s.stack, f.caller ≠ .queued)

instance (bar : MenuBar ι) (s : RunLoop ι) (a : Activity ι) : Decidable (Interrupts bar s a) :=
  inferInstanceAs (Decidable (_ ∧ (_ ∨ ∃ f ∈ s.stack, f.caller ≠ .queued)))

/-- Frames of the run loop owe nothing, so that losing them loses nothing. -/
theorem settledOn_nil {stack : List (Frame ι)} (hq : ¬ ∃ f ∈ stack, f.caller ≠ .queued)
    (h : SettledOn bar as stack w) : SettledOn bar as [] w := by
  have hqueued (f : Frame ι) (hf : f ∈ stack) : f.caller = .queued := by
    by_contra hc
    exact hq ⟨f, hf, hc⟩
  refine Settled.mono h (fun m hm => ?_) (fun m hm => ?_) fun hr => absurd hr hq
  · obtain ⟨f, hf, hm⟩ := List.mem_flatMap.mp hm
    rw [Frame.toClear, hqueued f hf] at hm
    cases hm
  · obtain ⟨f, hf, hm⟩ := List.mem_flatMap.mp hm
    rw [Frame.toFinish, hqueued f hf] at hm
    cases hm

/-- What a part of the code has paid, in the state it leaves. -/
theorem settled_settle {P : World ι → Prop} {x : ObjC (World ι) (Option (Frame ι))} {stack : List (Frame ι)}
    {E : World ι → Prop} (ht : Triple P x (fun o => SettledOn bar as (o.toList ++ stack)) E) (hw : P w)
    (hE : ∀ e w', x w = .error e w' → E w' → SettledOn bar as [] w') :
    SettledOn bar as (settle stack (x w)).stack (settle stack (x w)).world := by
  cases hx : x w with
  | error e w' => exact hE e w' hx (ht.error hw hx)
  | ok o w' =>
    have h := ht.ok hw hx
    cases o with
    | none => exact h
    | some f => exact h

theorem settled_step {s s' : RunLoop ι} {a : Activity ι} (h : SettledOn bar as s.stack s.world)
    (hi : ¬ Interrupts bar s a) (hs : (machine bar).step s a = some s') :
    SettledOn bar (as ++ [a]) s'.stack s'.world := by
  obtain ⟨w, stack⟩ := s
  cases a with
  | callback e =>
    rcases activity_cases hs with ⟨e', he', hr, hw, hst⟩ | ⟨m, installed, he', -, -⟩ | ⟨he', -, -⟩
    · cases he'
      rw [hst]
      exact Settled.callback h hr hw
    · cases he'
    · exact absurd rfl (he' e)
  | makeMenus m installed =>
    simp only [machine, step] at hs
    split at hs
    · cases Option.some.inj hs
      have hw : Settled bar (as ++ [.makeMenus m installed]) (m :: stack.flatMap Frame.toClear)
          (stack.flatMap Frame.toFinish) (∃ f ∈ stack, f.caller ≠ .queued) (w.dequeue m) := by
        have hd : SettledOn bar as stack (w.dequeue m) := ⟨h.checks, h.owned, h.lit, h.stored⟩
        refine Settled.snoc hd (fun e => by rintro ⟨⟩) (fun k hk => List.mem_cons_of_mem _ hk) fun k hk => ?_
        obtain rfl : m = k := by simpa [Activity.rebuilds] using hk
        exact List.mem_cons_self
      refine settled_settle (triple_startMenus m installed stack) hw fun e w' hx hE => settledOn_nil ?_ hE
      exact fun hc => hi ⟨⟨e, w', hx⟩, Or.inr hc⟩
    · cases hs
  | setPrimaryMnu m installed =>
    simp only [machine, step] at hs
    split at hs
    · next hm =>
      cases Option.some.inj hs
      refine settled_settle (triple_startPrimary hm installed stack _) h fun e w' hx _ => ?_
      exact absurd ⟨⟨e, w', hx⟩, Or.inl rfl⟩ hi
    · cases hs
  | answer publicAddress installed =>
    cases stack with
    | nil => cases hs
    | cons f stack =>
      cases Option.some.inj hs
      have hw : SettledOn bar (as ++ [.answer publicAddress installed]) (f :: stack) w :=
        Settled.snoc h (fun e => by rintro ⟨⟩) (fun k hk => hk) fun k hk => by cases hk
      have hraised (e : NSException) (w' : World ι)
          (hx : World.resumeFrame bar f publicAddress installed w = .error e w') :
          ¬ ∃ g ∈ f :: stack, g.caller ≠ .queued :=
        fun hc => hi ⟨⟨f, rfl, e, w', hx⟩, Or.inr hc⟩
      obtain ⟨m, caller⟩ := f
      cases caller with
      | queued =>
        refine settled_settle (triple_resumeQueued m publicAddress installed stack) hw fun e w' hx hE => ?_
        refine settledOn_nil (fun hc => hraised e w' hx ?_) hE
        obtain ⟨g, hg, hc⟩ := hc
        exact ⟨g, List.mem_cons_of_mem _ hg, hc⟩
      | setPrimaryMnu rest =>
        refine settled_settle (triple_resumePrimary m rest publicAddress installed stack) hw fun e w' hx _ => ?_
        exact absurd ⟨_, List.mem_cons_self, by rintro ⟨⟩⟩ (hraised e w' hx)

theorem settled_launch (L : Launch ι) : SettledOn L.bar [] (launch L).stack (launch L).world where
  checks := by
    rintro m hm hn ⟨a, ha, hr⟩
    cases ha
  owned := (lit_launch L).owned
  lit := by
    rintro ⟨l₁, a, l₂, he, _⟩
    cases l₁ <;> cases he
  stored := Or.inr fun _ => (launch_primaryMnu L).symm

/-- The runs in which no exception ends a `setPrimaryMnu:`, in the states in which none waits. -/
theorem settled_run (L : Launch ι) {s : RunLoop ι} (h : (machine L.bar).run (launch L) as = some s)
    (hc : (machine L.bar).Along (fun s a => ¬ Interrupts L.bar s a) (launch L) as)
    (hstack : ∀ f ∈ s.stack, f.caller = .queued) : SettledOn L.bar as [] s.world := by
  have hs : SettledOn L.bar as s.stack s.world :=
    Machine.run_events_along (I := fun as (s : RunLoop ι) => SettledOn L.bar as s.stack s.world) (settled_launch L)
      (fun _ _ _ _ hi hc hs => settled_step hi hc hs) h hc
  refine settledOn_nil ?_ hs
  rintro ⟨f, hf, hc⟩
  exact hc (hstack f hf)

/-- Both menus know of one player, and a `setPrimaryMnu:` waits twice, with a `makeMenus` of its own menu inside it. -/
def choosing : List (Activity Mnu) :=
  [.callback .runRefresh, .callback (.complete .wfhMenu 0 (.data (some onePlayer))),
    .callback (.complete .anuMenu 0 (.data (some onePlayer))), .setPrimaryMnu .anuMenu fun _ => true,
    .makeMenus .anuMenu true, .answer none fun _ => true, .answer none fun _ => true, .answer none fun _ => true,
    .callback .runEnableBlink, .callback .runEnableBlink]

theorem choosing_run : ∃ s, (machine appBar).run (launch firstLaunch) choosing = some s ∧ s.stack = [] ∧
    s.world.delegate.jobs = 0 ∧ s.world.primaryValue = 1 ∧ s.world.delegate.primaryMnu = .anuMenu := by
  have hrun : ((machine appBar).run (launch firstLaunch) choosing).any (fun s => s.stack.isEmpty &&
      s.world.delegate.jobs == 0 && s.world.primaryValue == 1 && s.world.delegate.primaryMnu == .anuMenu) = true := by
    decide +kernel
  obtain ⟨s, hs, hp⟩ := (Option.any_eq_true _ _).mp hrun
  simp only [Bool.and_eq_true, beq_iff_eq, List.isEmpty_iff] at hp
  exact ⟨s, hs, hp.1.1.1, hp.1.1.2, hp.1.2, hp.2⟩

theorem choosing_uninterrupted :
    (machine appBar).Along (fun s a => ¬ Interrupts appBar s a) (launch firstLaunch) choosing := by decide +kernel

/-- **The LED agrees with the primary menu in nested runs**, as long as no exception ends a `setPrimaryMnu:`: once a job
has run since the LED was turned off, no job is left and no `setPrimaryMnu:` waits, it shows the value of the primary
menu. -/
theorem led_agrees_nested (L : Launch ι) {s : RunLoop ι} (h : (machine L.bar).run (launch L) as = some s)
    (hc : (machine L.bar).Along (fun s a => ¬ Interrupts L.bar s a) (launch L) as)
    (hstack : ∀ f ∈ s.stack, f.caller = .queued) (hjobs : s.world.delegate.jobs = 0) (hj : JobSinceOff as) :
    (s.world.primaryValue ≤ 0 → s.world.delegate.blink.currentColor = some NSColor.black ∧
      s.world.delegate.blink.Dark) ∧
    (s.world.primaryValue = 1 → s.world.delegate.blink.Pulsing ⟨1, 1, 0⟩) ∧
    (2 ≤ s.world.primaryValue → s.world.delegate.blink.Pulsing ⟨1, 0, 1⟩) := by
  have hs := settled_run L h hc hstack
  rcases hs.lit hj with hf | hpos | ha
  · cases hf
  · exact absurd hjobs (Nat.ne_of_gt hpos)
  · exact ⟨ha.none, ha.one, ha.more⟩

theorem led_agrees_choosing : ∃ s, (machine appBar).run (launch firstLaunch) choosing = some s ∧
    s.world.delegate.blink.Pulsing ⟨1, 1, 0⟩ := by
  obtain ⟨s, hs, hst, hjobs, hv, -⟩ := choosing_run
  have hqueued : ∀ f ∈ s.stack, f.caller = .queued := by
    rw [hst]
    intro f hf
    cases hf
  refine ⟨s, hs, (led_agrees_nested firstLaunch hs choosing_uninterrupted hqueued hjobs ?_).2.1 hv⟩
  exact ⟨choosing.take 9, .callback .runEnableBlink, [], rfl, rfl, fun b hb => absurd hb List.not_mem_nil⟩

/-- The reply of the other menu cannot be read, and the `setPrimaryMnu:` that chooses it is ended by the exception: the
LED keeps pulsing for a menu that is not the primary one any more. -/
theorem lit_after_exception : ∃ s, (machine appBar).run (launch firstLaunch) [.callback .runRefresh,
      .callback (.complete .wfhMenu 0 (.data (some onePlayer))), .makeMenus .wfhMenu true, .answer none fun _ => true,
      .callback .runEnableBlink, .callback (.complete .anuMenu 0 (.data (some nullGames))),
      .setPrimaryMnu .anuMenu fun _ => true, .answer none fun _ => true, .answer none fun _ => true] = some s ∧
    s.stack = [] ∧ s.world.delegate.jobs = 0 ∧ s.world.primaryValue = -1 ∧ ¬ s.world.delegate.blink.Dark := by
  have hrun : ((machine appBar).run (launch firstLaunch) [.callback .runRefresh,
      .callback (.complete .wfhMenu 0 (.data (some onePlayer))), .makeMenus .wfhMenu true, .answer none fun _ => true,
      .callback .runEnableBlink, .callback (.complete .anuMenu 0 (.data (some nullGames))),
      .setPrimaryMnu .anuMenu fun _ => true, .answer none fun _ => true, .answer none fun _ => true]).any
      (fun s => s.stack.isEmpty && s.world.delegate.jobs == 0 && s.world.primaryValue == -1 &&
        s.world.delegate.blink.timers.live.length == 1) = true := by decide +kernel
  obtain ⟨s, hs, hp⟩ := (Option.any_eq_true _ _).mp hrun
  simp only [Bool.and_eq_true, beq_iff_eq, List.isEmpty_iff] at hp
  refine ⟨s, hs, hp.1.1.1, hp.1.1.2, hp.1.2, ?_⟩
  rintro ⟨hd, -⟩
  have hl := hp.2
  rw [hd] at hl
  cases hl

/-- **The check marks and the stored index follow the primary menu in nested runs**, as long as no exception ends a
`setPrimaryMnu:`. When none waits, each `Set as primary` item of a menu that has been rebuilt is checked iff its menu is
the primary one, and a relaunch chooses the primary menu again. -/
theorem selection_nested (L : Launch ι) {s : RunLoop ι} (h : (machine L.bar).run (launch L) as = some s)
    (hc : (machine L.bar).Along (fun s a => ¬ Interrupts L.bar s a) (launch L) as)
    (hstack : ∀ f ∈ s.stack, f.caller = .queued) :
    (∀ m ∈ L.bar.mnus, (∃ a ∈ as, a.rebuilds m = true) →
      ∀ checked, .primarySetter checked ∈ (s.world.menu m).submenu →
        (checked = true ↔ m = s.world.delegate.primaryMnu)) ∧
    (World.launch { L with primaryIndex := s.world.delegate.primaryIndex }).delegate.primaryMnu =
      s.world.delegate.primaryMnu := by
  have hs := settled_run L h hc hstack
  have hmem := (arranged_run L h).mem
  refine ⟨fun m hm ha checked hi => ?_, ?_⟩
  · rw [hs.checks m hm List.not_mem_nil ha checked hi, decide_eq_true_iff]
    exact eq_comm
  · have hstored := hs.stored.resolve_left (by rintro ⟨f, hf, _⟩; cases hf)
    rw [launch_primaryMnu]
    exact hstored hmem

theorem selection_choosing : ∃ s, (machine appBar).run (launch firstLaunch) choosing = some s ∧
    (∀ m checked, .primarySetter checked ∈ (s.world.menu m).submenu → (checked = true ↔ m = .anuMenu)) ∧
    (World.launch { firstLaunch with primaryIndex := s.world.delegate.primaryIndex }).delegate.primaryMnu =
      .anuMenu := by
  obtain ⟨s, hs, hst, -, -, hp⟩ := choosing_run
  have hqueued : ∀ f ∈ s.stack, f.caller = .queued := by
    rw [hst]
    intro f hf
    cases hf
  obtain ⟨hchecks, hstored⟩ := selection_nested firstLaunch hs choosing_uninterrupted hqueued
  rw [hp] at hchecks hstored
  refine ⟨s, hs, fun m => hchecks m ?_ ⟨.setPrimaryMnu .anuMenu fun _ => true, by simp [choosing], rfl⟩, hstored⟩
  cases m <;> decide

end RunLoop

end SvrMnu
