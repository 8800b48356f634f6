import SvrMnu.Sys.Machine
import SvrMnu.Blink
import SvrMnu.Rebuild

/-!
# The application

`AppDelegate` owns the status item, the refresh timer and the blink(1), and is the delegate of the menus. `World` is
the delegate, the menus by name, their requests, and what the run loop still has to do: queued `_refresh` and
`makeMenus` calls and background `_enableBlink` jobs, which carry nothing and so are numbers. `World.step` is one
callback of the main thread, or one job, run from beginning to end.

The menus of the bar are any list of distinct names; `ι` is their type.
-/

set_option autoImplicit false

namespace SvrMnu

open Sys (Timers Machine Raises finalState)

/-- The list `mnus`, with the class of each menu. -/
structure MenuBar (ι : Type) where
  mnus : List ι
  cls : ι → MenuClass
  nodup : mnus.Nodup
  ne_nil : mnus ≠ []

/-- The index `applicationWillFinishLaunching:` makes of the stored integer. -/
def MenuBar.launchIndex {ι : Type} (bar : MenuBar ι) (primaryIndex : Int) : Fin bar.mnus.length :=
  if h : primaryIndex ≥ bar.mnus.length ∨ primaryIndex < 0 then ⟨0, List.length_pos_iff.mpr bar.ne_nil⟩
  else ⟨primaryIndex.toNat, by omega⟩

/-- The menu `applicationWillFinishLaunching:` makes the primary one. -/
def MenuBar.launchPrimary {ι : Type} (bar : MenuBar ι) (primaryIndex : Int) : ι :=
  bar.mnus.get (bar.launchIndex primaryIndex)

/-- The menus of the application. -/
inductive Mnu
  | wfhMenu
  | anuMenu
  deriving DecidableEq

def Mnu.cls : Mnu → MenuClass
  | .wfhMenu => SvrMnuWFHMenu
  | .anuMenu => SvrMnuANUMenu

def appBar : MenuBar Mnu where
  mnus := [.wfhMenu, .anuMenu]
  cls := Mnu.cls
  nodup := by decide
  ne_nil := by simp

/-- What a launch finds: the stored defaults, the time, the number of blink(1) devices, and which apps there are. -/
structure Launch (ι : Type) where
  bar : MenuBar ι
  refreshRate : Int
  primaryIndex : Int
  now : ℚ
  serialnums : Nat
  installed : ι → Bool
  rate_pos : 0 < refreshRate

/-- A first launch of the application at time `0`, with one blink(1) attached. -/
def firstLaunch : Launch Mnu where
  bar := appBar
  refreshRate := 1
  primaryIndex := 0
  now := 0
  serialnums := 1
  installed := fun _ => true
  rate_pos := by decide

/-- One active game with one player. -/
def onePlayer : Obj := .dict [("activegames", .number 1), ("servers", .array [.dict [("players", .number 1)]])]

/-- A body with a null for the number of games, which has no `intValue`. -/
def nullGames : Obj := .dict [("activegames", .null)]

/-! ## The delegate -/

/-- The items of the status menu. -/
inductive StatusMenuItem (ι : Type)
  | mnu (m : ι)
  | refresher
  | loginMenu
  | quit
  deriving DecidableEq

/-- The instance variables of the delegate, the user defaults and the clock it reads, and what it has queued. -/
structure AppDelegate (ι : Type) where
  primaryMnu : ι
  statusTitle : String
  statusMenu : List (StatusMenuItem ι)
  /-- The items of the submenu of `refresher`, as tag and check mark, once it is made. -/
  refresher : Option (List (Int × Bool))
  refresherTitle : String
  refreshTimer : Option Nat
  lastRefresh : ℚ
  screenAsleep : Bool
  userDeactive : Bool
  blink : Blink1
  /-- The user defaults `refreshRate` and `primaryMnu`. -/
  refreshRate : Int
  primaryIndex : Int
  now : ℚ
  /-- The live refresh timers, with their fire dates. -/
  timers : Timers ℚ
  /-- The queued `_refresh` calls. -/
  refreshes : Nat
  /-- The background `_enableBlink` jobs that have not run. -/
  jobs : Nat

namespace AppDelegate

variable {ι : Type}

/-! ### The refresh timer -/

def refresh (d : AppDelegate ι) : AppDelegate ι := { d with refreshes := d.refreshes + 1 }

def cancelRefresh (d : AppDelegate ι) : AppDelegate ι := { d with timers := d.timers.invalidate d.refreshTimer }

/-- `scheduledTimerWithTimeInterval:` takes 0.1 ms for an interval that is not positive. -/
def timerInterval (t : ℚ) : ℚ := if t ≤ 0 then 1 / 10000 else t

def addTimer (d : AppDelegate ι) : AppDelegate ι :=
  let timeSince := d.now - d.lastRefresh
  if timeSince > d.refreshRate * 60 then d.refresh
  else
    let d := { d with timers := d.timers.invalidate d.refreshTimer }
    let interval := timerInterval (60 * d.refreshRate - ⌊timeSince⌋)
    { d with timers := d.timers.schedule (d.now + interval), refreshTimer := some d.timers.next }

/-- `changeRefreshRate:`, with the tag of the sender. -/
def changeRefreshRate (sender : Option Int) (d : AppDelegate ι) : AppDelegate ι :=
  let d := match sender with
    | some tag => { d with refreshRate := tag }
    | none => d
  let d := { d with refresher := d.refresher.map fun items => items.map fun i => (i.1, i.1 == d.refreshRate) }
  match sender with
  | some _ => d.addTimer
  | none => d

/-- The `int seconds` of `updateRefresher`. -/
def seconds (d : AppDelegate ι) : Int32 := intOfDouble (60 * d.refreshRate - ⌊d.now - d.lastRefresh⌋)

def updateRefresher (d : AppDelegate ι) : AppDelegate ι :=
  { d with refresherTitle := "Refresh(next in " ++ toString d.seconds ++ "s)" }

/-- `_refresh`, up to the menus. -/
def restartTimer (d : AppDelegate ι) : AppDelegate ι :=
  let d := d.cancelRefresh
  let d := { d with lastRefresh := d.now }
  d.addTimer

/-- The guard of `_refresh`: nothing is requested while nobody would see it. -/
def suspended (d : AppDelegate ι) : Bool := d.userDeactive || (d.screenAsleep && !d.blink.isHere)

/-! ### Notifications -/

def forceRefresh (d : AppDelegate ι) : AppDelegate ι :=
  { d with screenAsleep := false, userDeactive := false }.refresh

def enableBlink (d : AppDelegate ι) : AppDelegate ι := { d with jobs := d.jobs + 1 }

def didWake (d : AppDelegate ι) : AppDelegate ι := { d with screenAsleep := false }.enableBlink.refresh

def didScreenSleep (d : AppDelegate ι) : AppDelegate ι := { d with screenAsleep := true }

def didSleep (d : AppDelegate ι) : AppDelegate ι := { d with screenAsleep := true, blink := d.blink.off }

def didUserActive (d : AppDelegate ι) : AppDelegate ι := { d with userDeactive := false }.didWake

def didUserDeactive (d : AppDelegate ι) : AppDelegate ι := { d with userDeactive := true, blink := d.blink.off }

/-! ### The status menu -/

def setupMenu [DecidableEq ι] (bar : MenuBar ι) (d : AppDelegate ι) : AppDelegate ι :=
  let d : AppDelegate ι := { d with statusTitle := "...", statusMenu := [] }
  let d : AppDelegate ι := match d.refresher with
    | none => { d with refresher := some [(1, false), (2, false), (5, false), (10, false)] }.changeRefreshRate none
    | some _ => d
  let d : AppDelegate ι := { d with statusMenu := d.statusMenu ++ [.mnu d.primaryMnu] }
  let d : AppDelegate ι :=
    { d with statusMenu := d.statusMenu ++ (bar.mnus.filter (· ≠ d.primaryMnu)).map StatusMenuItem.mnu }
  { d with statusMenu := d.statusMenu ++ [.refresher, .loginMenu, .quit] }

/-- Only the primary menu sets the status title; a title that is already there is not set again. -/
def setTitle [DecidableEq ι] (title : Option String) (sender : ι) (d : AppDelegate ι) : AppDelegate ι :=
  if sender = d.primaryMnu then
    let d := d.enableBlink
    if title ≠ some d.statusTitle then { d with statusTitle := title.getD "..." } else d
  else d

def delegate [DecidableEq ι] : SvrMnuMenuDelegate ι (AppDelegate ι) where
  setTitle := setTitle
  getPrimaryMnu := fun d => d.primaryMnu

/-- `applicationWillFinishLaunching:` -/
def launch [DecidableEq ι] (L : Launch ι) : AppDelegate ι :=
  let d : AppDelegate ι :=
    { primaryMnu := L.bar.launchPrimary L.primaryIndex, statusTitle := "", statusMenu := [], refresher := none,
      refresherTitle := "Refresh", refreshTimer := none, lastRefresh := 0, screenAsleep := false,
      userDeactive := false, blink := Blink1.init L.serialnums, refreshRate := L.refreshRate,
      primaryIndex := L.primaryIndex, now := L.now, timers := Timers.empty, refreshes := 0, jobs := 0 }
  (d.setupMenu L.bar).refresh

end AppDelegate

/-- The events that only concern the delegate. -/
inductive Notice
  | clock (now : ℚ)
  | refresh
  | forceRefresh
  | didWake
  | didScreenSleep
  | didSleep
  | didUserActive
  | didUserDeactive
  | changeRefreshRate (tag : Int)
  | updateRefresher
  | fireRefresh (timer : Nat)
  | firePulse (timer : Nat)
  | enumerate (serialnums : Nat)

/-- Time does not go back, the tags of the rates are positive, and a timer fires when it is live and due. -/
def AppDelegate.notice {ι : Type} (d : AppDelegate ι) : Notice → Option (AppDelegate ι)
  | .clock now => if d.now ≤ now then some { d with now := now } else none
  | .refresh => some d.refresh
  | .forceRefresh => some d.forceRefresh
  | .didWake => some d.didWake
  | .didScreenSleep => some d.didScreenSleep
  | .didSleep => some d.didSleep
  | .didUserActive => some d.didUserActive
  | .didUserDeactive => some d.didUserDeactive
  | .changeRefreshRate tag => if 0 < tag then some (d.changeRefreshRate (some tag)) else none
  | .updateRefresher => some d.updateRefresher
  | .fireRefresh timer =>
    match d.timers.fire timer with
    | some (date, timers) => if date ≤ d.now then some ({ d with timers := timers }.refresh) else none
    | none => none
  | .firePulse timer => (d.blink.fire timer).map fun blink => { d with blink := blink }
  | .enumerate serialnums => some { d with blink := d.blink.enumerate serialnums }

/-- The body of `_enableBlink`, for the value of the primary menu. -/
def blinkFor (value : Int32) (blink : Blink1) : Blink1 :=
  let blink :=
    if value > 0 then
      (if value > 1 then blink.setPulse NSColor.magenta else blink.setPulse NSColor.yellow)
    else blink.off
  if value < 0 then blink.off else blink

/-! ## The world -/

structure World (ι : Type) where
  delegate : AppDelegate ι
  menu : ι → SvrMnuMenu
  /-- How many requests a menu has sent; they are numbered from `0`. -/
  issued : ι → Nat
  /-- The requests without a reply. -/
  outstanding : ι → List Nat
  /-- The queued `makeMenus` calls. -/
  rebuilds : ι → Nat

inductive Event (ι : Type)
  | notice (n : Notice)
  /-- A queued `_refresh` runs. -/
  | runRefresh
  /-- Request `k` of menu `m` comes back. -/
  | complete (m : ι) (k : Nat) (reply : Reply)
  /-- A queued `makeMenus` of menu `m` runs. -/
  | makeMenus (m : ι) (env : Env)
  | setPrimaryMnu (m : ι) (env : ι → Env)
  /-- A background `_enableBlink` job runs. -/
  | runEnableBlink

/-- The event chooses a primary menu. -/
def Event.selects {ι : Type} : Event ι → Bool
  | .setPrimaryMnu _ _ => true
  | _ => false

namespace World

variable {ι : Type} [DecidableEq ι]

def put (m : ι) (s : Scene (AppDelegate ι)) (w : World ι) : World ι :=
  { w with menu := Function.update w.menu m s.menu, delegate := s.delegate }

/-- Code of menu `m` and its delegate. -/
def onScene {α : Type} (m : ι) (x : ObjC (Scene (AppDelegate ι)) α) : ObjC (World ι) α := fun w =>
  match x ⟨w.menu m, w.delegate⟩ with
  | .ok a s => .ok a (w.put m s)
  | .error e s => .error e (w.put m s)

def makeMenus (m : ι) (env : Env) : ObjC (World ι) Unit :=
  onScene m (SvrMnuMenu.makeMenus (some AppDelegate.delegate) m env)

/-- The loop of `setPrimaryMnu:`. -/
def rebuildAll (env : ι → Env) : List ι → ObjC (World ι) Unit
  | [] => pure ()
  | m :: ms => do
    makeMenus m (env m)
    rebuildAll env ms

def setPrimaryMnu (bar : MenuBar ι) (m : ι) (env : ι → Env) : ObjC (World ι) Unit := do
  modify fun w => { w with delegate := { w.delegate with primaryMnu := m }.setupMenu bar }
  rebuildAll env bar.mnus
  modify fun w => { w with
    delegate := { w.delegate with primaryIndex := bar.mnus.idxOf w.delegate.primaryMnu } }

/-- `refresh` of menu `m`, which sends the next request. -/
def refreshMenu (m : ι) (w : World ι) : World ι :=
  { w with
    menu := Function.update w.menu m (w.menu m).refresh
    issued := Function.update w.issued m (w.issued m + 1)
    outstanding := Function.update w.outstanding m (w.issued m :: w.outstanding m) }

def _refresh (bar : MenuBar ι) (w : World ι) : World ι :=
  let w := { w with delegate := w.delegate.restartTimer }
  if w.delegate.suspended then w else bar.mnus.foldl (fun w m => w.refreshMenu m) w

/-- The completion handler of request `k` of menu `m`. -/
def complete (m : ι) (k : Nat) (reply : Reply) (w : World ι) : World ι :=
  { w with
    menu := Function.update w.menu m ((w.menu m).completionHandler reply)
    outstanding := Function.update w.outstanding m ((w.outstanding m).erase k)
    rebuilds := Function.update w.rebuilds m (w.rebuilds m + 1) }

/-- Take a queued `makeMenus` of menu `m` out of the queue. -/
def dequeue (m : ι) (w : World ι) : World ι :=
  { w with rebuilds := Function.update w.rebuilds m (w.rebuilds m - 1) }

/-- The value `_enableBlink` reads. -/
def primaryValue (w : World ι) : Int32 := (w.menu w.delegate.primaryMnu).value

def _enableBlink (w : World ι) : World ι :=
  { w with delegate := { w.delegate with blink := blinkFor w.primaryValue w.delegate.blink } }

def step (bar : MenuBar ι) (w : World ι) : Event ι → Option (World ι)
  | .notice n => (w.delegate.notice n).map fun d => { w with delegate := d }
  | .runRefresh =>
    if 0 < w.delegate.refreshes then
      some ({ w with delegate := { w.delegate with refreshes := w.delegate.refreshes - 1 } }._refresh bar)
    else none
  | .complete m k reply => if k ∈ w.outstanding m then some (w.complete m k reply) else none
  | .makeMenus m env => if 0 < w.rebuilds m then some (finalState (makeMenus m env) (w.dequeue m)) else none
  | .setPrimaryMnu m env => if m ∈ bar.mnus then some (finalState (setPrimaryMnu bar m env) w) else none
  | .runEnableBlink =>
    if 0 < w.delegate.jobs then
      some ({ w with delegate := { w.delegate with jobs := w.delegate.jobs - 1 } }._enableBlink)
    else none

/-- The end of `applicationWillFinishLaunching:`. -/
def launch (L : Launch ι) : World ι where
  delegate := AppDelegate.launch L
  menu := fun m => SvrMnuMenu.init (L.bar.cls m) (L.installed m)
  issued := fun _ => 0
  outstanding := fun _ => []
  rebuilds := fun _ => 0

def machine (bar : MenuBar ι) : Machine (World ι) (Event ι) := ⟨step bar⟩

/-- The `makeMenus` calls of the event run to their end. An exception ends them early, and the run loop goes on. -/
def Returns (bar : MenuBar ι) (w : World ι) : Event ι → Prop
  | .makeMenus m env => ¬ Raises (makeMenus m env) (w.dequeue m)
  | .setPrimaryMnu m env => ¬ Raises (setPrimaryMnu bar m env) w
  | _ => True

instance (bar : MenuBar ι) (w : World ι) : ∀ e, Decidable (Returns bar w e)
  | .makeMenus m env => inferInstanceAs (Decidable (¬ Raises (makeMenus m env) (w.dequeue m)))
  | .setPrimaryMnu m env => inferInstanceAs (Decidable (¬ Raises (setPrimaryMnu bar m env) w))
  | .notice _ | .runRefresh | .complete _ _ _ | .runEnableBlink => inferInstanceAs (Decidable True)

end World

end SvrMnu
