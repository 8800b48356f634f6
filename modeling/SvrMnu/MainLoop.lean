import SvrMnu.Steps

/-!
# The main loop while makeMenus waits

`findPublicAddress` runs the run loop until the address is known, so callbacks run inside a `makeMenus` that is half
way, and other `makeMenus` calls may be among them. `MainLoop` is the world with the menus whose `makeMenus` waits, the
innermost first: `start` takes a queued `makeMenus` up to `findPublicAddress`, `resume` goes on with the innermost one,
and an exception ends them all. `setPrimaryMnu:` is left out here.

- `start_resume`: a `makeMenus` that is resumed at once is the `makeMenus` of the application;
- `step_cases`: what a turn of the loop does to the world, if the code it runs returns.
-/

set_option autoImplicit false

namespace SvrMnu

open Sys GameInfo

variable {ι : Type} [DecidableEq ι]

omit [DecidableEq ι] in
/-- The event runs `makeMenus`. -/
def Event.isRebuild : Event ι → Bool
  | .makeMenus _ _ | .setPrimaryMnu _ _ => true
  | _ => false

/-! ## The two halves of makeMenus -/

namespace World

/-- `makeMenus` up to `findPublicAddress`; answers whether it gets there. -/
def beginMenus (m : ι) : ObjC (World ι) Bool := onScene m (SvrMnuMenu.onMenu SvrMnuMenu.beginMenus)

/-- The rest of a `makeMenus` without a `gameInfo`. -/
def unableMenus (m : ι) (installed : Bool) : ObjC (World ι) Unit :=
  onScene m (modify fun s =>
    SvrMnuMenu.finishMenus (some AppDelegate.delegate) m s.menu.isa.unable false installed s)

/-- The rest of a `makeMenus` that has waited for the address. -/
def resumeMenus (m : ι) (env : Env) : ObjC (World ι) Unit :=
  onScene m do
    let (titleString, selfie) ← SvrMnuMenu.onMenu (SvrMnuMenu.readServers env.publicAddress)
    modify (SvrMnuMenu.finishMenus (some AppDelegate.delegate) m titleString selfie env.installed)

end World

/-! ## The loop -/

structure MainLoop (ι : Type) where
  world : World ι
  /-- The menus whose `makeMenus` is in `findPublicAddress`, the innermost first. -/
  stack : List ι

/-- What the run loop does next, at any depth. -/
inductive Turn (ι : Type)
  | callback (e : Event ι)
  | start (m : ι) (installed : Bool)
  | resume (env : Env)

namespace MainLoop

def step (bar : MenuBar ι) (s : MainLoop ι) : Turn ι → Option (MainLoop ι)
  | .callback e => if e.isRebuild then none else ((World.step bar s.world e).map fun w => { s with world := w })
  | .start m installed =>
    if 0 < s.world.rebuilds m then
      some (match World.beginMenus m (s.world.dequeue m) with
        | .ok true w => ⟨w, m :: s.stack⟩
        | .ok false w => ⟨finalState (World.unableMenus m installed) w, s.stack⟩
        | .error _ w => ⟨w, []⟩)
    else none
  | .resume env =>
    match s.stack with
    | [] => none
    | m :: stack =>
      some (match World.resumeMenus m env s.world with
        | .ok _ w => ⟨w, stack⟩
        | .error _ w => ⟨w, []⟩)

def machine (bar : MenuBar ι) : Machine (MainLoop ι) (Turn ι) := ⟨step bar⟩

def launch (L : Launch ι) : MainLoop ι := ⟨World.launch L, []⟩

/-- The half of `makeMenus` that the turn runs, if it runs one, returns. -/
def Returns (s : MainLoop ι) : Turn ι → Prop
  | .callback _ => True
  | .start m _ => ¬ Raises (World.beginMenus m) (s.world.dequeue m)
  | .resume env => ∀ m ∈ s.stack.head?, ¬ Raises (World.resumeMenus m env) s.world

instance (s : MainLoop ι) : ∀ t, Decidable (Returns s t)
  | .callback _ => inferInstanceAs (Decidable True)
  | .start m _ => inferInstanceAs (Decidable (¬ Raises (World.beginMenus m) (s.world.dequeue m)))
  | .resume env => inferInstanceAs (Decidable (∀ m ∈ s.stack.head?, ¬ Raises (World.resumeMenus m env) s.world))

end MainLoop

/-! ## What the halves do -/

namespace World

/-- Code on a scene is run part by part. -/
theorem onScene_bind {α β : Type} (m : ι) (x : ObjC (Scene (AppDelegate ι)) α)
    (f : α → ObjC (Scene (AppDelegate ι)) β) : onScene m (x >>= f) = onScene m x >>= fun a => onScene m (f a) := by
  funext w
  cases hx : x ⟨w.menu m, w.delegate⟩ with
  | ok a s =>
    rw [bind_ok (onScene_ok hx)]
    simp only [onScene, bind_ok hx]
    have hput : (⟨(w.put m s).menu m, (w.put m s).delegate⟩ : Scene (AppDelegate ι)) = s := by simp [put]
    rw [hput]
    cases f a s <;> simp [put]
  | error e s =>
    rw [bind_error (onScene_error hx), onScene_error (bind_error hx)]

/-- `makeMenus` is its two halves. -/
theorem makeMenus_eq (m : ι) (env : Env) : makeMenus m env = (do
    if ← beginMenus m then resumeMenus m env else unableMenus m env.installed) := by
  unfold makeMenus SvrMnuMenu.makeMenus
  rw [onScene_bind]
  congr 1
  funext b
  cases b <;> rfl

/-- Menu `m` is cleared. -/
def begun (m : ι) (w : World ι) : World ι :=
  { w with
    menu := Function.update w.menu m
      { w.menu m with submenu := motd (w.menu m).gameInfo, numServers := 0, numPlayers := 0 } }

theorem beginMenus_run {m : ι} {w : World ι} (h : ¬ Raises (beginMenus m) w) :
    beginMenus m w = .ok (w.menu m).gameInfo.isSome (w.begun m) := by
  have hr : ¬ Raises SvrMnuMenu.beginMenus (w.menu m) := fun hr =>
    h (raises_onScene (raises_onMenu (s := ⟨w.menu m, w.delegate⟩) hr))
  unfold beginMenus
  rw [onScene_ok (onMenu_ok (s := ⟨w.menu m, w.delegate⟩) (beginMenus_returns hr))]
  rfl

/-- Without a `gameInfo` the whole of `makeMenus` is one turn of the loop. -/
theorem unableMenus_run {m : ι} {w : World ι} (hg : (w.menu m).gameInfo = none) (hb : ¬ Raises (beginMenus m) w)
    (installed : Bool) : unableMenus m installed (w.begun m) = .ok () (w.rebuild m ⟨none, installed⟩) := by
  have hl : w.Legible m ⟨none, installed⟩ := by
    intro g h
    rw [hg] at h
    cases h
  have hm := makeMenus_run hl
  rw [makeMenus_eq, bind_ok (beginMenus_run hb), hg] at hm
  exact hm

/-- The second half of a `makeMenus` of menu `m` adds to what the menu has by now. -/
def finished (m : ι) (env : Env) (w : World ι) : World ι :=
  { w with
    menu := Function.update w.menu m
      { w.menu m with
        title := (w.menu m).isa.titleString (active (w.menu m).gameInfo)
        submenu := ((w.menu m).submenu ++ rows (w.menu m).gameInfo).filter (!·.isLauncher) ++
          (if env.installed then [.launcher] else []) ++ [.primarySetter (w.delegate.primaryMnu = m)]
        numServers := active (w.menu m).gameInfo
        numPlayers := (w.menu m).numPlayers + total (w.menu m).gameInfo
        value := if (w.menu m).gameInfo.isSome then
          (if selfie env.publicAddress (w.menu m).gameInfo then (w.menu m).numPlayers + total (w.menu m).gameInfo - 1
            else (w.menu m).numPlayers + total (w.menu m).gameInfo) else -1 }
    delegate := w.delegate.setTitle ((w.menu m).gameInfo.map fun _ =>
      toString ((w.menu m).numPlayers + total (w.menu m).gameInfo)) m }

theorem resumeMenus_run {m : ι} {env : Env} {w : World ι} (h : ¬ Raises (resumeMenus m env) w) :
    resumeMenus m env w = .ok () (w.finished m env) := by
  have hr : ¬ Raises (SvrMnuMenu.readServers env.publicAddress) (w.menu m) := fun hr =>
    h (raises_onScene (Raises.bind_left (raises_onMenu (s := ⟨w.menu m, w.delegate⟩) hr)))
  have hs := onMenu_ok (s := ⟨w.menu m, w.delegate⟩) (readServers_returns hr)
  unfold resumeMenus
  rw [onScene_ok ((bind_ok hs).trans (modify_run _ _))]
  congr 1
  simp only [put, SvrMnuMenu.finishMenus, SvrMnuMenu.updateDelegate, SvrMnuMenu.statusText, SvrMnuMenu.removeLauncher,
    SvrMnuMenu.addItem, SvrMnuMenu.primarySetter, AppDelegate.delegate, finished, AppDelegate.setTitle_primaryMnu]
  cases env.installed <;> simp

end World

namespace MainLoop

/-! ## Turns -/

/-- What a turn does if the code it runs returns. -/
inductive Step (bar : MenuBar ι) (s : MainLoop ι) : Turn ι → MainLoop ι → Prop
  | callback {e : Event ι} {w : World ι} (he : e.isRebuild = false) (h : World.Step bar s.world e w) :
      Step bar s (.callback e) ⟨w, s.stack⟩
  | finished {m : ι} (installed : Bool) (h : 0 < s.world.rebuilds m) (hg : (s.world.menu m).gameInfo = none) :
      Step bar s (.start m installed) ⟨(s.world.dequeue m).rebuild m ⟨none, installed⟩, s.stack⟩
  | suspended {m : ι} {g : Obj} (installed : Bool) (h : 0 < s.world.rebuilds m)
      (hg : (s.world.menu m).gameInfo = some g) :
      Step bar s (.start m installed) ⟨(s.world.dequeue m).begun m, m :: s.stack⟩
  | resumed {m : ι} {stack : List ι} (env : Env) (h : s.stack = m :: stack) :
      Step bar s (.resume env) ⟨s.world.finished m env, stack⟩

theorem step_cases {bar : MenuBar ι} {s s' : MainLoop ι} {t : Turn ι} (hret : s.Returns t)
    (h : (machine bar).step s t = some s') : Step bar s t s' := by
  cases t with
  | callback e =>
    simp only [machine, step] at h
    split at h
    · cases h
    · next he =>
      obtain ⟨w, hw, rfl⟩ := Option.map_eq_some_iff.mp h
      exact .callback (by simpa using he) (World.step_cases hw)
  | start m installed =>
    simp only [machine, step] at h
    split at h
    · next hn =>
      rw [World.beginMenus_run hret] at h
      cases hg : (s.world.menu m).gameInfo with
      | none =>
        have hu := World.unableMenus_run (w := s.world.dequeue m) hg hret installed
        simp only [show ((s.world.dequeue m).menu m).gameInfo = none from hg, Option.isSome_none] at h
        cases Option.some.inj h
        rw [finalState_ok hu]
        exact .finished installed hn hg
      | some g =>
        simp only [show ((s.world.dequeue m).menu m).gameInfo = some g from hg, Option.isSome_some] at h
        cases Option.some.inj h
        exact .suspended installed hn hg
    · cases h
  | resume env =>
    simp only [machine, step] at h
    split at h
    · cases h
    · next m stack hst =>
      rw [World.resumeMenus_run (hret m (by rw [hst]; rfl))] at h
      cases Option.some.inj h
      exact .resumed env hst

/-- **A `makeMenus` during which nothing else runs is the one of the application.** -/
theorem start_resume (bar : MenuBar ι) (s : MainLoop ι) {m : ι} (env : Env) (h : 0 < s.world.rebuilds m)
    (hret : ¬ Raises (World.makeMenus m env) (s.world.dequeue m)) : ∃ ts,
    (ts = [.start m env.installed] ∨ ts = [.start m env.installed, .resume env]) ∧
    (machine bar).run s ts = (World.step bar s.world (.makeMenus m env)).map fun w => ⟨w, s.stack⟩ := by
  cases hm : World.makeMenus m env (s.world.dequeue m) with
  | error e w => exact absurd ⟨e, w, hm⟩ hret
  | ok _ w =>
    have hstep : World.step bar s.world (.makeMenus m env) = some w := by
      simp only [World.step, h, if_true, finalState_ok hm]
    rw [hstep]
    rw [World.makeMenus_eq] at hm
    cases hb : World.beginMenus m (s.world.dequeue m) with
    | error e w₁ => rw [bind_error hb] at hm; cases hm
    | ok b w₁ =>
      rw [bind_ok hb] at hm
      cases b with
      | false =>
        refine ⟨_, Or.inl rfl, ?_⟩
        have hu : World.unableMenus m env.installed w₁ = .ok () w := hm
        simp only [machine, Machine.run, step, h, if_true, hb, finalState_ok hu, Option.bind_some, Option.map_some]
      | true =>
        refine ⟨_, Or.inr rfl, ?_⟩
        have hu : World.resumeMenus m env w₁ = .ok () w := hm
        simp only [machine, Machine.run, step, h, if_true, hb, hu, Option.bind_some, Option.map_some]

end MainLoop

end SvrMnu
