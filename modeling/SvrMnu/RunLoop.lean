import SvrMnu.Requests
import SvrMnu.Sys.Triple
import Mathlib.Logic.Relation

/-!
# The whole application in nested run loops

`makeMenus` is called by the run loop and by `setPrimaryMnu:`, and in both places it runs the run loop in the middle,
in `findPublicAddress`. `RunLoop` is the world with the `makeMenus` calls that wait there, the innermost first, each
with what called it: a call from `setPrimaryMnu:` goes on with the rest of the loop over the menus. Callbacks, other
`makeMenus` calls and other `setPrimaryMnu:` calls run at any depth, and an exception ends every call that waits.

- `world_run`: every run of the application in which nothing is nested is a run of this machine;
- `mainLoop_run`: so is every run of the main loop without `setPrimaryMnu:`;
- `Stmt` lists what the code of the menus does to the world, one statement at a time, and `activity_cases` says that
  every activity is a callback or a sequence of them, however it ends; `world_invariant` is the rule that follows.
-/

set_option autoImplicit false

namespace SvrMnu

open Sys Relation

variable {ι : Type} [DecidableEq ι]

/-- What a `makeMenus` returns to. -/
inductive Caller (ι : Type)
  | queued
  /-- The loop of `setPrimaryMnu:`, before the menus `rest`. -/
  | setPrimaryMnu (rest : List ι)
  deriving DecidableEq

/-- A `makeMenus` in `findPublicAddress`. -/
structure Frame (ι : Type) where
  mnu : ι
  caller : Caller ι
  deriving DecidableEq

/-! ## setPrimaryMnu: in parts -/

namespace World

/-- The first lines of `setPrimaryMnu:`. -/
def selectMnu (bar : MenuBar ι) (m : ι) (w : World ι) : World ι :=
  { w with delegate := { w.delegate with primaryMnu := m }.setupMenu bar }

/-- Its last lines. -/
def storeIndex (bar : MenuBar ι) (w : World ι) : World ι :=
  { w with delegate := { w.delegate with primaryIndex := bar.mnus.idxOf w.delegate.primaryMnu } }

/-- The loop of `setPrimaryMnu:` from `ms` on, to its end or to a `makeMenus` that waits for the address. -/
def continueLoop (bar : MenuBar ι) (installed : ι → Bool) : List ι → ObjC (World ι) (Option (Frame ι))
  | [] => do
    modify (storeIndex bar)
    return none
  | m :: ms => do
    if ← beginMenus m then
      return some ⟨m, .setPrimaryMnu ms⟩
    else
      unableMenus m (installed m)
      continueLoop bar installed ms

/-- A `makeMenus` that the run loop calls, up to its wait. -/
def startMenus (m : ι) (installed : Bool) : ObjC (World ι) (Option (Frame ι)) := do
  if ← beginMenus m then
    return some ⟨m, .queued⟩
  else
    unableMenus m installed
    return none

def startPrimary (bar : MenuBar ι) (m : ι) (installed : ι → Bool) : ObjC (World ι) (Option (Frame ι)) := do
  modify (selectMnu bar m)
  continueLoop bar installed bar.mnus

/-- From the answer of `findPublicAddress` on. -/
def returnTo (bar : MenuBar ι) (installed : ι → Bool) : Caller ι → ObjC (World ι) (Option (Frame ι))
  | .queued => return none
  | .setPrimaryMnu rest => continueLoop bar installed rest

def resumeFrame (bar : MenuBar ι) (f : Frame ι) (publicAddress : Option String) (installed : ι → Bool) :
    ObjC (World ι) (Option (Frame ι)) := do
  resumeMenus f.mnu ⟨publicAddress, installed f.mnu⟩
  returnTo bar installed f.caller

end World

/-! ## The loop -/

structure RunLoop (ι : Type) where
  world : World ι
  /-- The `makeMenus` calls in `findPublicAddress`, the innermost first. -/
  stack : List (Frame ι)

/-- What a run loop does next, at any depth; `installed` is what `doesAppExist:` says of the app of each menu. -/
inductive Activity (ι : Type)
  | callback (e : Event ι)
  | makeMenus (m : ι) (installed : Bool)
  | setPrimaryMnu (m : ι) (installed : ι → Bool)
  /-- The innermost `findPublicAddress` returns. -/
  | answer (publicAddress : Option String) (installed : ι → Bool)

namespace RunLoop

/-- After code that has waited, ended or raised, with `stack` under it. -/
def settle (stack : List (Frame ι)) : EStateM.Result NSException (World ι) (Option (Frame ι)) → RunLoop ι
  | .ok (some f) w => ⟨w, f :: stack⟩
  | .ok none w => ⟨w, stack⟩
  | .error _ w => ⟨w, []⟩

def step (bar : MenuBar ι) (s : RunLoop ι) : Activity ι → Option (RunLoop ι)
  | .callback e => if e.isRebuild then none else (World.step bar s.world e).map fun w => { s with world := w }
  | .makeMenus m installed =>
    if 0 < s.world.rebuilds m then some (settle s.stack (World.startMenus m installed (s.world.dequeue m))) else none
  | .setPrimaryMnu m installed =>
    if m ∈ bar.mnus then some (settle s.stack (World.startPrimary bar m installed s.world)) else none
  | .answer publicAddress installed =>
    match s.stack with
    | [] => none
    | f :: stack => some (settle stack (World.resumeFrame bar f publicAddress installed s.world))

def machine (bar : MenuBar ι) : Machine (RunLoop ι) (Activity ι) := ⟨step bar⟩

def launch (L : Launch ι) : RunLoop ι := ⟨World.launch L, []⟩

/-- The code that the activity runs raises. -/
def Raised (bar : MenuBar ι) (s : RunLoop ι) : Activity ι → Prop
  | .callback _ => False
  | .makeMenus m installed => Raises (World.startMenus m installed) (s.world.dequeue m)
  | .setPrimaryMnu m installed => Raises (World.startPrimary bar m installed) s.world
  | .answer publicAddress installed =>
    ∃ f ∈ s.stack.head?, Raises (World.resumeFrame bar f publicAddress installed) s.world

instance (bar : MenuBar ι) (s : RunLoop ι) : ∀ a, Decidable (Raised bar s a)
  | .callback _ => inferInstanceAs (Decidable False)
  | .makeMenus m installed => inferInstanceAs (Decidable (Raises (World.startMenus m installed) (s.world.dequeue m)))
  | .setPrimaryMnu m installed => inferInstanceAs (Decidable (Raises (World.startPrimary bar m installed) s.world))
  | .answer publicAddress installed => inferInstanceAs (Decidable
      (∃ f ∈ s.stack.head?, Raises (World.resumeFrame bar f publicAddress installed) s.world))

/-! ## Runs with nothing nested -/

/-- A `makeMenus` that gets to `findPublicAddress` goes on with its answer. -/
theorem makeMenus_waited {m : ι} {env : Env} {w w₁ : World ι} (h : World.beginMenus m w = .ok true w₁) :
    World.makeMenus m env w = World.resumeMenus m env w₁ := by
  rw [World.makeMenus_eq, bind_ok h]
  rfl

theorem makeMenus_unable {m : ι} {env : Env} {w w₁ : World ι} (h : World.beginMenus m w = .ok false w₁) :
    World.makeMenus m env w = World.unableMenus m env.installed w₁ := by
  rw [World.makeMenus_eq, bind_ok h]
  rfl

theorem makeMenus_stopped {m : ι} {env : Env} {w w₁ : World ι} {e : NSException}
    (h : World.beginMenus m w = .error e w₁) : World.makeMenus m env w = .error e w₁ := by
  rw [World.makeMenus_eq, bind_error h]

/-- The loop of `setPrimaryMnu:`, each address answered as soon as it is asked for. -/
theorem continueLoop_run (bar : MenuBar ι) (env : ι → Env) (ms : List ι) (w : World ι) : ∃ as,
    (machine bar).run (settle [] (World.continueLoop bar (fun k => (env k).installed) ms w)) as =
      some ⟨finalState (do World.rebuildAll env ms; modify (World.storeIndex bar)) w, []⟩ := by
  induction ms generalizing w with
  | nil => exact ⟨[], rfl⟩
  | cons m ms ih =>
    unfold World.continueLoop World.rebuildAll
    cases hb : World.beginMenus m w with
    | error e w₁ =>
      have hm : World.makeMenus m (env m) w = .error e w₁ := makeMenus_stopped hb
      rw [bind_error hb, finalState_error (bind_error (bind_error hm))]
      exact ⟨[], rfl⟩
    | ok b w₁ =>
      rw [bind_ok hb]
      cases b with
      | false =>
        have hm : World.makeMenus m (env m) w = .ok () _ := makeMenus_unable hb
        obtain ⟨as, has⟩ := ih _
        refine ⟨as, has.trans ?_⟩
        simp only [finalState, bind_assoc, bind_ok hm]
      | true =>
        have hm : World.makeMenus m (env m) w = World.resumeMenus m (env m) w₁ := makeMenus_waited hb
        cases hr : World.resumeMenus m (env m) w₁ with
        | error e w₂ =>
          refine ⟨[.answer (env m).publicAddress fun k => (env k).installed], ?_⟩
          have hf : World.resumeFrame bar ⟨m, .setPrimaryMnu ms⟩ (env m).publicAddress
              (fun k => (env k).installed) w₁ = .error e w₂ := bind_error hr
          rw [finalState_error (bind_error (bind_error (hm.trans hr)))]
          simp only [machine, Machine.run, step, if_true, pure_run, settle, hf, Option.bind_some]
        | ok _ w₂ =>
          obtain ⟨as, has⟩ := ih w₂
          refine ⟨.answer (env m).publicAddress (fun k => (env k).installed) :: as, ?_⟩
          have hf : World.resumeFrame bar ⟨m, .setPrimaryMnu ms⟩ (env m).publicAddress
              (fun k => (env k).installed) w₁ = World.continueLoop bar (fun k => (env k).installed) ms w₂ := bind_ok hr
          simp only [machine, Machine.run, step, if_true, pure_run, settle, hf, Option.bind_some]
          refine has.trans ?_
          simp only [finalState, bind_assoc, bind_ok (hm.trans hr)]

/-- One event of the application, with no `makeMenus` waiting before it or after it. -/
theorem world_step (bar : MenuBar ι) {w w' : World ι} {e : Event ι}
    (h : (World.machine bar).step w e = some w') : ∃ as, (machine bar).run ⟨w, []⟩ as = some ⟨w', []⟩ := by
  have hcallback (he : e.isRebuild = false) : ∃ as, (machine bar).run ⟨w, []⟩ as = some ⟨w', []⟩ := by
    refine ⟨[.callback e], (Machine.run_single _ _).trans ?_⟩
    have hs : World.step bar w e = some w' := h
    simp only [machine, step, he, Bool.false_eq_true, if_false, hs, Option.map_some]
  cases e with
  | makeMenus m env =>
    simp only [World.machine, World.step] at h
    split at h
    · next hn =>
      cases Option.some.inj h
      cases hb : World.beginMenus m (w.dequeue m) with
      | error e w₁ =>
        refine ⟨[.makeMenus m env.installed], (Machine.run_single _ _).trans ?_⟩
        have hs : World.startMenus m env.installed (w.dequeue m) = .error e w₁ := bind_error hb
        rw [finalState_error (makeMenus_stopped hb)]
        simp only [machine, step, hn, if_true, hs, settle]
      | ok b w₁ =>
        cases b with
        | false =>
          refine ⟨[.makeMenus m env.installed], (Machine.run_single _ _).trans ?_⟩
          have hm : World.makeMenus m env (w.dequeue m) = .ok () _ := makeMenus_unable hb
          have hs : World.startMenus m env.installed (w.dequeue m) = .ok none _ := bind_ok hb
          rw [finalState_ok hm]
          simp only [machine, step, hn, if_true, hs, settle]
        | true =>
          refine ⟨[.makeMenus m env.installed, .answer env.publicAddress fun _ => env.installed], ?_⟩
          have hm : World.makeMenus m env (w.dequeue m) = World.resumeMenus m env w₁ := makeMenus_waited hb
          have hs : World.startMenus m env.installed (w.dequeue m) = .ok (some ⟨m, .queued⟩) w₁ := bind_ok hb
          cases hr : World.resumeMenus m env w₁ with
          | error e w₂ =>
            have hf : World.resumeFrame bar ⟨m, .queued⟩ env.publicAddress (fun _ => env.installed) w₁ =
              .error e w₂ := bind_error hr
            rw [finalState_error (hm.trans hr)]
            simp only [machine, Machine.run, step, hn, if_true, hs, settle, hf, Option.bind_some]
          | ok _ w₂ =>
            have hf : World.resumeFrame bar ⟨m, .queued⟩ env.publicAddress (fun _ => env.installed) w₁ =
              .ok none w₂ := bind_ok hr
            rw [finalState_ok (hm.trans hr)]
            simp only [machine, Machine.run, step, hn, if_true, hs, settle, hf, Option.bind_some]
    · cases h
  | setPrimaryMnu m env =>
    simp only [World.machine, World.step] at h
    split at h
    · next hm =>
      cases Option.some.inj h
      obtain ⟨as, has⟩ := continueLoop_run bar env bar.mnus (w.selectMnu bar m)
      refine ⟨.setPrimaryMnu m (fun k => (env k).installed) :: as, ?_⟩
      simp only [machine, Machine.run, step, hm, if_true, Option.bind_some]
      exact has
    · cases h
  | notice | runRefresh | complete | runEnableBlink => exact hcallback rfl

/-- **The application without nesting is a part of the whole.** Every run of `World.machine` is a run of the nested run
loops, exceptions included. -/
theorem world_run (L : Launch ι) {es : List (Event ι)} {w : World ι}
    (h : (World.machine L.bar).run (World.launch L) es = some w) :
    ∃ as, (machine L.bar).run (launch L) as = some ⟨w, []⟩ :=
  Machine.run_projects (g := fun w => (⟨w, []⟩ : RunLoop ι)) (fun _ _ _ hs => world_step L.bar hs) h

theorem world_run_onePlayer : ∃ as s, (machine appBar).run (launch firstLaunch) as = some s ∧
    (s.world.menu .wfhMenu).numPlayers = 1 := by
  have hrun : ((World.machine appBar).run (World.launch firstLaunch) [.runRefresh,
      .complete .wfhMenu 0 (.data (some onePlayer)), .makeMenus .wfhMenu ⟨none, true⟩]).any
      (fun w => (w.menu .wfhMenu).numPlayers == 1) = true := by decide +kernel
  obtain ⟨w, hw, hp⟩ := (Option.any_eq_true _ _).mp hrun
  obtain ⟨as, has⟩ := world_run firstLaunch hw
  exact ⟨as, ⟨w, []⟩, has, beq_iff_eq.mp hp⟩

end RunLoop

/-! ## Runs without setPrimaryMnu: -/

omit [DecidableEq ι] in
/-- A turn of the main loop as an activity. -/
def Turn.activity : Turn ι → Activity ι
  | .callback e => .callback e
  | .start m installed => .makeMenus m installed
  | .resume env => .answer env.publicAddress fun _ => env.installed

omit [DecidableEq ι] in
def MainLoop.runLoop (s : MainLoop ι) : RunLoop ι := ⟨s.world, s.stack.map fun m => ⟨m, .queued⟩⟩

namespace RunLoop

theorem mainLoop_step (bar : MenuBar ι) (s : MainLoop ι) (t : Turn ι) :
    (machine bar).step s.runLoop t.activity = ((MainLoop.machine bar).step s t).map MainLoop.runLoop := by
  cases t with
  | callback e =>
    simp only [machine, MainLoop.machine, Turn.activity, step, MainLoop.step]
    split
    · rfl
    · rw [Option.map_map]
      exact Option.map_congr fun w _ => rfl
  | start m installed =>
    simp only [machine, MainLoop.machine, Turn.activity, step, MainLoop.step]
    have hw : s.runLoop.world = s.world := rfl
    rw [hw]
    split
    · unfold World.startMenus
      cases hb : World.beginMenus m (s.world.dequeue m) with
      | error e w₁ => rw [bind_error hb]; rfl
      | ok b w₁ => rw [bind_ok hb]; cases b <;> rfl
    · rfl
  | resume env =>
    obtain ⟨w, stack⟩ := s
    cases stack with
    | nil => rfl
    | cons m stack =>
      simp only [machine, MainLoop.machine, Turn.activity, step, MainLoop.step, MainLoop.runLoop, List.map_cons,
        World.resumeFrame]
      cases hr : World.resumeMenus m env w with
      | error e w₁ => rw [bind_error hr]; rfl
      | ok _ w₁ => rw [bind_ok hr]; rfl

/-- The main loop without `setPrimaryMnu:` takes exactly the steps that the whole takes on its activities. -/
theorem mainLoop_run (bar : MenuBar ι) (s : MainLoop ι) (ts : List (Turn ι)) :
    (machine bar).run s.runLoop (ts.map Turn.activity) =
      ((MainLoop.machine bar).run s ts).map MainLoop.runLoop := by
  induction ts generalizing s with
  | nil => rfl
  | cons t ts ih =>
    simp only [List.map_cons, Machine.run, mainLoop_step]
    cases (MainLoop.machine bar).step s t with
    | none => rfl
    | some s' => exact ih s'

end RunLoop

/-! ## Statements -/

/-- What the statements of `makeMenus` do to the menu itself, up to `finishMenus`. -/
inductive SvrMnuMenu.Draws : SvrMnuMenu → SvrMnuMenu → Prop
  | clear (m : SvrMnuMenu) : Draws m { m with submenu := [], numServers := 0, numPlayers := 0 }
  | count (m : SvrMnuMenu) (numServers numPlayers : Int32) :
      Draws m { m with numServers := numServers, numPlayers := numPlayers }
  | row (m : SvrMnuMenu) (title : Text) : Draws m (m.addItem (.row title))

section Draws

open SvrMnuMenu (Draws)

theorem draws_beginMenus : Keeps (ReflTransGen Draws) SvrMnuMenu.beginMenus := by
  unfold SvrMnuMenu.beginMenus
  refine Keeps.bind (Keeps.modify fun m => .single (.clear m)) fun _ => Keeps.get.bind fun m => ?_
  split
  · exact Keeps.pure _
  · refine (keeps_send _).bind fun message => ?_
    split
    · exact (Keeps.modify fun m => .single (.row m _)).bind fun _ => Keeps.pure _
    · exact Keeps.pure _

theorem draws_addServer (ip : Option String) (s : Obj) : Keeps (ReflTransGen Draws) (SvrMnuMenu.addServer ip s) := by
  unfold SvrMnuMenu.addServer
  refine (keeps_send _).bind fun players => (keeps_send _).bind fun n => Keeps.bind ?_ fun _ => ?_
  · exact Keeps.modify fun m => .single (.count m m.numServers _)
  · refine (keeps_send _).bind fun serverIp => (keeps_send _).bind fun here => (keeps_send _).bind fun map => ?_
    exact (Keeps.modify fun m => .single (.row m _)).bind fun _ => Keeps.pure _

theorem draws_addServers (ip : Option String) (ss : List Obj) (here : Bool) :
    Keeps (ReflTransGen Draws) (SvrMnuMenu.addServers ip ss here) := by
  induction ss generalizing here with
  | nil => exact Keeps.pure here
  | cons s ss ih => exact (draws_addServer ip s).bind fun _ => ih _

theorem draws_readServers (ip : Option String) : Keeps (ReflTransGen Draws) (SvrMnuMenu.readServers ip) := by
  unfold SvrMnuMenu.readServers
  refine Keeps.get.bind fun m => (keeps_send _).bind fun active => (keeps_send _).bind fun n => ?_
  refine Keeps.bind (Keeps.modify fun m => .single (.count m n m.numPlayers)) fun _ => Keeps.get.bind fun m => ?_
  dsimp only
  split
  · refine Keeps.get.bind fun m => (keeps_send _).bind fun servers => (keeps_send _).bind fun list => ?_
    exact (draws_addServers ip list false).bind fun _ => Keeps.pure _
  · exact Keeps.pure _

end Draws

namespace World

/-- The end of a `makeMenus` of menu `m`. -/
def finishMenus (m : ι) (titleString : String) (selfie installed : Bool) (w : World ι) : World ι :=
  w.put m (SvrMnuMenu.finishMenus (some AppDelegate.delegate) m titleString selfie installed ⟨w.menu m, w.delegate⟩)

/-- What the statements of `makeMenus` and `setPrimaryMnu:` do to the world. -/
inductive Stmt (bar : MenuBar ι) (w : World ι) : World ι → Prop
  | draw {m : ι} {x : SvrMnuMenu} (h : SvrMnuMenu.Draws (w.menu m) x) :
      Stmt bar w { w with menu := Function.update w.menu m x }
  | finish (m : ι) (titleString : String) (selfie installed : Bool) :
      Stmt bar w (w.finishMenus m titleString selfie installed)
  | select {m : ι} (h : m ∈ bar.mnus) : Stmt bar w (w.selectMnu bar m)
  | store : Stmt bar w (w.storeIndex bar)

variable {bar : MenuBar ι}

/-- Drawing on a menu, as a sequence of statements of the world. -/
theorem stmts_draw {w : World ι} {m : ι} {x : SvrMnuMenu} (h : ReflTransGen SvrMnuMenu.Draws (w.menu m) x) :
    ReflTransGen (Stmt bar) w { w with menu := Function.update w.menu m x } := by
  induction h with
  | refl =>
    rw [Function.update_eq_self]
  | @tail y z _ hd ih =>
    refine ih.tail ?_
    have hw : ({ w with menu := Function.update w.menu m z } : World ι) =
        { { w with menu := Function.update w.menu m y } with
          menu := Function.update (Function.update w.menu m y) m z } := by
      rw [Function.update_idem]
    rw [hw]
    apply Stmt.draw
    show SvrMnuMenu.Draws (Function.update w.menu m y m) z
    rw [Function.update_self]
    exact hd

/-- Code of a menu leaves the rest of the world alone. -/
theorem finalState_onMenu {α : Type} (m : ι) (x : ObjC SvrMnuMenu α) (w : World ι) :
    finalState (onScene m (SvrMnuMenu.onMenu x)) w =
      { w with menu := Function.update w.menu m (finalState x (w.menu m)) } := by
  unfold finalState onScene SvrMnuMenu.onMenu
  cases x (w.menu m) <;> rfl

theorem stmts_onMenu {α : Type} {m : ι} {x : ObjC SvrMnuMenu α} (h : Keeps (ReflTransGen SvrMnuMenu.Draws) x) :
    Keeps (ReflTransGen (Stmt bar)) (onScene m (SvrMnuMenu.onMenu x)) := by
  intro w
  rw [finalState_onMenu]
  exact stmts_draw (h (w.menu m))

theorem stmts_beginMenus (m : ι) : Keeps (ReflTransGen (Stmt bar)) (beginMenus m) := stmts_onMenu draws_beginMenus

theorem stmts_unableMenus (m : ι) (installed : Bool) : Keeps (ReflTransGen (Stmt bar)) (unableMenus m installed) :=
  fun _ => .single (.finish m _ false installed)

theorem stmts_resumeMenus (m : ι) (env : Env) : Keeps (ReflTransGen (Stmt bar)) (resumeMenus m env) := by
  unfold resumeMenus
  rw [onScene_bind]
  refine (stmts_onMenu (draws_readServers _)).bind ?_
  rintro ⟨titleString, selfie⟩
  exact fun _ => .single (.finish m titleString selfie env.installed)

theorem stmts_startMenus (m : ι) (installed : Bool) : Keeps (ReflTransGen (Stmt bar)) (startMenus m installed) := by
  refine (stmts_beginMenus m).bind fun b => ?_
  cases b with
  | true => exact Keeps.pure _
  | false => exact (stmts_unableMenus m installed).bind fun _ => Keeps.pure _

theorem stmts_continueLoop (installed : ι → Bool) (ms : List ι) :
    Keeps (ReflTransGen (Stmt bar)) (continueLoop bar installed ms) := by
  induction ms with
  | nil => exact (Keeps.modify fun _ => .single .store).bind fun _ => Keeps.pure _
  | cons m ms ih =>
    refine (stmts_beginMenus m).bind fun b => ?_
    cases b with
    | true => exact Keeps.pure _
    | false => exact (stmts_unableMenus m (installed m)).bind fun _ => ih

theorem stmts_startPrimary {m : ι} (h : m ∈ bar.mnus) (installed : ι → Bool) :
    Keeps (ReflTransGen (Stmt bar)) (startPrimary bar m installed) :=
  (Keeps.modify fun _ => .single (.select h)).bind fun _ => stmts_continueLoop installed _

theorem stmts_resumeFrame (f : Frame ι) (publicAddress : Option String) (installed : ι → Bool) :
    Keeps (ReflTransGen (Stmt bar)) (resumeFrame bar f publicAddress installed) := by
  refine (stmts_resumeMenus _ _).bind fun _ => ?_
  cases f.caller with
  | queued => exact Keeps.pure _
  | setPrimaryMnu rest => exact stmts_continueLoop installed rest

end World

namespace RunLoop

variable {bar : MenuBar ι}

omit [DecidableEq ι] in
theorem settle_world (stack : List (Frame ι)) (x : ObjC (World ι) (Option (Frame ι))) (w : World ι) :
    (settle stack (x w)).world = finalState x w := by
  unfold finalState
  cases x w with
  | error e w' => rfl
  | ok o w' => cases o <;> rfl

/-- **Every activity is a callback or a sequence of statements**, whether its code ends, waits or raises. A queued
`makeMenus` is taken out of the queue before them. -/
theorem activity_cases {s s' : RunLoop ι} {a : Activity ι} (h : (machine bar).step s a = some s') :
    (∃ e, a = .callback e ∧ e.isRebuild = false ∧ World.Step bar s.world e s'.world ∧ s'.stack = s.stack) ∨
    (∃ m installed, a = .makeMenus m installed ∧ 0 < s.world.rebuilds m ∧
      ReflTransGen (World.Stmt bar) (s.world.dequeue m) s'.world) ∨
    ((∀ e, a ≠ .callback e) ∧ (∀ m installed, a ≠ .makeMenus m installed) ∧
      ReflTransGen (World.Stmt bar) s.world s'.world) := by
  cases a with
  | callback e =>
    simp only [machine, step] at h
    split at h
    · cases h
    · next he =>
      obtain ⟨w, hw, rfl⟩ := Option.map_eq_some_iff.mp h
      exact Or.inl ⟨e, rfl, by simpa using he, World.step_cases hw, rfl⟩
  | makeMenus m installed =>
    simp only [machine, step] at h
    split at h
    · next hn =>
      cases Option.some.inj h
      refine Or.inr (Or.inl ⟨m, installed, rfl, hn, ?_⟩)
      rw [settle_world]
      exact World.stmts_startMenus m installed _
    · cases h
  | setPrimaryMnu m installed =>
    simp only [machine, step] at h
    split at h
    · next hm =>
      cases Option.some.inj h
      refine Or.inr (Or.inr ⟨fun e => by rintro ⟨⟩, fun k i => by rintro ⟨⟩, ?_⟩)
      rw [settle_world]
      exact World.stmts_startPrimary hm installed _
    · cases h
  | answer publicAddress installed =>
    simp only [machine, step] at h
    split at h
    · cases h
    · next f stack hst =>
      cases Option.some.inj h
      refine Or.inr (Or.inr ⟨fun e => by rintro ⟨⟩, fun k i => by rintro ⟨⟩, ?_⟩)
      rw [settle_world]
      exact World.stmts_resumeFrame f publicAddress installed _

/-- What every statement keeps, a sequence of them keeps. -/
theorem stmts_invariant {I : World ι → Prop} (hstmt : ∀ w w', I w → World.Stmt bar w w' → I w') {w w' : World ι}
    (h : ReflTransGen (World.Stmt bar) w w') (hi : I w) : I w' := by
  induction h with
  | refl => exact hi
  | tail _ hs ih => exact hstmt _ _ ih hs

/-- **Invariants of the world**, in every run of the nested loops. -/
theorem world_invariant {I : World ι → Prop} (hdequeue : ∀ w m, I w → I (w.dequeue m))
    (hstep : ∀ w e w', I w → e.isRebuild = false → World.Step bar w e w' → I w')
    (hstmt : ∀ w w', I w → World.Stmt bar w w' → I w') {s s' : RunLoop ι} {as : List (Activity ι)} (h₀ : I s.world)
    (h : (machine bar).run s as = some s') : I s'.world := by
  refine Machine.invariant (I := fun s => I s.world) h₀ (fun s a s' hi hs => ?_) h
  rcases activity_cases hs with ⟨e, -, he, hw, -⟩ | ⟨m, installed, -, -, hw⟩ | ⟨-, -, hw⟩
  · exact hstep _ e _ hi he hw
  · exact stmts_invariant hstmt hw (hdequeue _ m hi)
  · exact stmts_invariant hstmt hw hi

/-! ## A run that waits -/

/-- The first reply of a launch, and its `makeMenus` up to `findPublicAddress`. -/
def waiting : List (Activity Mnu) :=
  [.callback .runRefresh, .callback (.complete .wfhMenu 0 (.data (some onePlayer))), .makeMenus .wfhMenu true]

theorem waiting_run : ∃ s, (machine appBar).run (launch firstLaunch) waiting = some s ∧
    s.stack = [⟨.wfhMenu, .queued⟩] := by
  have hrun : ((machine appBar).run (launch firstLaunch) waiting).any
      (fun s => s.stack == [⟨.wfhMenu, .queued⟩]) = true := by decide +kernel
  obtain ⟨s, hs, hp⟩ := (Option.any_eq_true _ _).mp hrun
  exact ⟨s, hs, beq_iff_eq.mp hp⟩

end RunLoop

end SvrMnu
