import SvrMnu.Hid.Barrier

/-!
# Opening and closing a hid device

`hid_open_path` starts a thread that runs a run loop of its own, and `hid_close` stops it. The two meet at a barrier
when the thread has set up its loop, and at another one before it ends; every other step of theirs may come in any
order. `Device` is what the two share, with how far each has come.

- `device_safe`: the main thread signals a source and wakes up a run loop that are there, the device is freed when the
  thread has ended, and nothing uses it after that;
- `close_returns`: once `hid_close` has told the thread to stop, it returns after a bounded number of steps in whatever
  order they come, and does not rely on the run loop to return by itself.

Both are about runs in which no thread wakes up at a barrier by itself.
-/

set_option autoImplicit false

namespace SvrMnu.Hid

open Sys

inductive Party
  | main
  | reader
  deriving DecidableEq

instance : Fintype Party := ⟨{.main, .reader}, fun p => by cases p <;> decide⟩

/-- How far the main thread has come in `hid_open_path`, from `pthread_create` on, and in `hid_close`. -/
inductive MainPc
  /-- At `barrier`. -/
  | starting
  | opened
  /-- `hid_close` has disconnected the callbacks. -/
  | unregistered
  /-- It has set `shutdown_thread`. -/
  | stopping
  /-- It has signaled the source. -/
  | signaled
  /-- It has woken up the run loop, and is at `shutdown_barrier`. -/
  | wokenUp
  /-- At `pthread_join`. -/
  | joining
  | joined
  | freed
  deriving DecidableEq

/-- How far `read_thread` has come. -/
inductive ReaderPc
  | starting
  /-- It has created the source. -/
  | sourced
  /-- It has stored its run loop, and is at `barrier`. -/
  | ready
  /-- At the condition of its loop. -/
  | testing
  /-- In `CFRunLoopRunInMode`. -/
  | running
  /-- In `CFRunLoopRunInMode`, after a `CFRunLoopStop`. -/
  | halting
  /-- After its loop. -/
  | stopping
  /-- It has told the readers, and is at `shutdown_barrier`. -/
  | stopped
  | ended
  deriving DecidableEq

/-- The order in which a thread goes through its steps, apart from the loop. -/
@[simp] def MainPc.order : MainPc → Nat
  | .starting => 0
  | .opened => 1
  | .unregistered => 2
  | .stopping => 3
  | .signaled => 4
  | .wokenUp => 5
  | .joining => 6
  | .joined => 7
  | .freed => 8

@[simp] def ReaderPc.order : ReaderPc → Nat
  | .starting => 0
  | .sourced => 1
  | .ready => 2
  | .testing => 3
  | .running => 4
  | .halting => 5
  | .stopping => 6
  | .stopped => 7
  | .ended => 8

theorem MainPc.order_injective : Function.Injective MainPc.order := by
  intro m m' h
  cases m <;> cases m' <;> first | rfl | cases h

theorem MainPc.order_pos {m : MainPc} (h : m ≠ .starting) : 0 < m.order := by cases m <;> simp at h ⊢

theorem ReaderPc.order_injective : Function.Injective ReaderPc.order := by
  intro r r' h
  cases r <;> cases r' <;> first | rfl | cases h

theorem ReaderPc.eq_ended {r : ReaderPc} (h : 8 ≤ r.order) : r = .ended := by cases r <;> simp at h ⊢

structure Device where
  main : MainPc
  reader : ReaderPc
  shutdownThread : Bool
  disconnected : Bool
  source : Bool
  runLoop : Bool
  /-- The source is signaled, and has not been performed. -/
  signal : Bool
  barrier : Meeting Party
  shutdownBarrier : Meeting Party

/-- What `CFRunLoopRunInMode` returns. -/
inductive Code
  | finished
  | stopped
  | timedOut
  | handledSource
  deriving DecidableEq

inductive DeviceEvent
  -- `read_thread`
  | createSource
  | storeRunLoop
  | test
  /-- `perform_signal_callback` -/
  | perform
  /-- `hid_device_removal_callback` -/
  | removal
  /-- The run loop returns by itself. -/
  | return (code : Code)
  /-- It returns because it has been stopped. -/
  | halt
  | broadcast
  -- `hid_close`
  | unregister
  | setShutdown
  | signalSource
  | wakeUp
  | join
  | free
  -- either
  | barrier (w : Wait Party)
  | shutdownBarrier (w : Wait Party)
  deriving DecidableEq

namespace Device

/-- `hid_open_path` after `pthread_create`. -/
def opening : Device where
  main := .starting
  reader := .starting
  shutdownThread := false
  disconnected := false
  source := false
  runLoop := false
  signal := false
  barrier := Meeting.start ⟨0, 2⟩
  shutdownBarrier := Meeting.start ⟨0, 2⟩

/-- The rest of the body of the loop of `read_thread`, after a code. -/
def returned (d : Device) : Code → Device
  | .finished => { d with disconnected := true, reader := .stopping }
  | .stopped => { d with shutdownThread := true, reader := .stopping }
  | .timedOut | .handledSource => { d with reader := .testing }

/-- `pthread_barrier_wait` is called where the code calls it. -/
def calls (d : Device) (main : MainPc) (reader : ReaderPc) : Wait Party → Bool
  | .arrive .main => d.main = main
  | .arrive .reader => d.reader = reader
  | .leave _ | .spurious _ => true

/-- The threads that have come back from `barrier` go on. -/
def passBarrier (d : Device) (M : Meeting Party) : Device :=
  { d with
    barrier := M
    main := if d.main = .starting ∧ M.passed .main = 1 then .opened else d.main
    reader := if d.reader = .ready ∧ M.passed .reader = 1 then .testing else d.reader }

def passShutdown (d : Device) (M : Meeting Party) : Device :=
  { d with
    shutdownBarrier := M
    main := if d.main = .wokenUp ∧ M.passed .main = 1 then .joining else d.main
    reader := if d.reader = .stopped ∧ M.passed .reader = 1 then .ended else d.reader }

def step (d : Device) : DeviceEvent → Option Device
  | .createSource => if d.reader = .starting then some { d with reader := .sourced, source := true } else none
  | .storeRunLoop => if d.reader = .sourced then some { d with reader := .ready, runLoop := true } else none
  | .test =>
    if d.reader = .testing then
      some { d with reader := if !d.shutdownThread && !d.disconnected then .running else .stopping }
    else none
  | .perform =>
    if d.reader = .running ∧ d.signal = true then some { d with reader := .halting, signal := false } else none
  -- `hid_close` sets the callback to `NULL`
  | .removal =>
    if d.reader = .running ∧ (d.main = .starting ∨ d.main = .opened) then
      some { d with reader := .halting, disconnected := true }
    else none
  | .return code => if d.reader = .running then some (d.returned code) else none
  | .halt => if d.reader = .halting then some (d.returned .stopped) else none
  | .broadcast => if d.reader = .stopping then some { d with reader := .stopped } else none
  | .unregister => if d.main = .opened then some { d with main := .unregistered } else none
  | .setShutdown =>
    if d.main = .unregistered then some { d with main := .stopping, shutdownThread := true } else none
  | .signalSource => if d.main = .stopping then some { d with main := .signaled, signal := true } else none
  | .wakeUp => if d.main = .signaled then some { d with main := .wokenUp } else none
  | .join => if d.main = .joining ∧ d.reader = .ended then some { d with main := .joined } else none
  | .free => if d.main = .joined then some { d with main := .freed } else none
  | .barrier w => if d.calls .starting .ready w then (d.barrier.step w).map d.passBarrier else none
  | .shutdownBarrier w => if d.calls .wokenUp .stopped w then (d.shutdownBarrier.step w).map d.passShutdown else none

def machine : Machine Device DeviceEvent := ⟨step⟩

/-- No thread wakes up by itself at a barrier. -/
def Woken : DeviceEvent → Prop
  | .barrier w | .shutdownBarrier w => ∀ t, w ≠ .spurious t
  | _ => True

/-! ## The barriers -/

/-- How far a thread has come. -/
def order (d : Device) : Party → Nat
  | .main => d.main.order
  | .reader => d.reader.order

@[simp] theorem order_main (d : Device) : d.order .main = d.main.order := rfl

@[simp] theorem order_reader (d : Device) : d.order .reader = d.reader.order := rfl

inductive Gate
  /-- `barrier` -/
  | opens
  /-- `shutdown_barrier` -/
  | closes
  deriving DecidableEq

/-- How far a thread is when it stands at a barrier. -/
def Gate.place : Gate → Party → Nat
  | .opens, .main => MainPc.starting.order
  | .opens, .reader => ReaderPc.ready.order
  | .closes, .main => MainPc.wokenUp.order
  | .closes, .reader => ReaderPc.stopped.order

theorem Gate.place_main (g : Gate) : g.place .main = 0 ∨ g.place .main = 5 := by cases g <;> decide

theorem Gate.place_reader (g : Gate) : g.place .reader = 2 ∨ g.place .reader = 7 := by cases g <;> decide

def Gate.event : Gate → Wait Party → DeviceEvent
  | .opens => .barrier
  | .closes => .shutdownBarrier

def meeting (d : Device) : Gate → Meeting Party
  | .opens => d.barrier
  | .closes => d.shutdownBarrier

/-- Whether `w` is a call of who stands at the barrier, or a step that needs none. -/
def callsAt (d : Device) (w : Wait Party) : Gate → Bool
  | .opens => d.calls .starting .ready w
  | .closes => d.calls .wokenUp .stopped w

def pass (d : Device) (M : Meeting Party) : Gate → Device
  | .opens => d.passBarrier M
  | .closes => d.passShutdown M

/-- Where a thread is in relation to a barrier that it goes through once. -/
inductive Stage
  | before
  | here
  | after
  deriving DecidableEq

def AtStage (M : Meeting Party) (t : Party) : Stage → Prop
  | .before => M.passed t = 0 ∧ M.phase t = .outside
  | .here => M.passed t = 0
  | .after => M.passed t = 1 ∧ M.phase t = .outside

/-- A thread is at the barrier until it has come back from it. -/
def Stage.pass (a : Stage) (passed : Nat) : Stage := if a = .here ∧ passed = 1 then .after else a

/-- A thread stays where it is, or comes to the barrier. -/
def Stage.Comes (a a' : Stage) : Prop := a' = a ∨ (a = .before ∧ a' = .here)

def stage (d : Device) (g : Gate) (t : Party) : Stage :=
  if d.order t < g.place t then .before else if d.order t = g.place t then .here else .after

/-- The threads have come to the barrier as far as their stages say. -/
def Met (M : Meeting Party) (stage : Party → Stage) : Prop := (∃ n, M.Round n) ∧ ∀ t, AtStage M t (stage t)

variable {M M' : Meeting Party} {t u : Party} {a a' : Stage} {as as' : Party → Stage} {g g' : Gate} {d d' : Device}
  {w : Wait Party} {e : DeviceEvent} {es : List DeviceEvent}

theorem AtStage.comes (h : AtStage M t a) (ha : a.Comes a') : AtStage M t a' := by
  rcases ha with rfl | ⟨rfl, rfl⟩
  · exact h
  · exact h.1

theorem AtStage.step (h : AtStage M t a) (hs : M.step w = some M') (hw : w = .arrive t → a = .here) :
    AtStage M' t (a.pass (M'.passed t)) := by
  have ht := Meeting.step_thread hs t
  cases a with
  | here =>
    have hp : M.passed t = 0 := h
    rcases ht with ⟨hp', -, -⟩ | ⟨hp', ho, -⟩
    · rw [hp', hp]
      exact hp'.trans hp
    · rw [hp', hp]
      exact ⟨by rw [hp', hp], ho⟩
  | before | after =>
    obtain ⟨hp, ho⟩ := h
    rcases ht with ⟨hp', ho', -⟩ | ⟨-, -, hc⟩
    · refine ⟨hp'.trans hp, ?_⟩
      rcases ho' ho with he | ho'
      · exact absurd (hw he) nofun
      · exact ho'
    · rcases hc with he | hn
      · exact absurd (hw he) nofun
      · exact absurd ho hn

theorem Met.comes (h : Met M as) (hc : ∀ t, (as t).Comes (as' t)) : Met M as' :=
  ⟨h.1, fun t => (h.2 t).comes (hc t)⟩

theorem Met.step (h : Met M as) (hs : M.step w = some M') (hw : ∀ t, w ≠ .spurious t)
    (ha : ∀ t, w = .arrive t → as t = .here) : Met M' fun t => (as t).pass (M'.passed t) := by
  obtain ⟨⟨n, hr⟩, hg⟩ := h
  refine ⟨?_, fun t => (hg t).step hs (ha t)⟩
  rcases Meeting.round_step hr hw hs with hr | hr
  · exact ⟨n, hr⟩
  · exact ⟨n + 1, hr⟩

/-- A thread that is past the barrier has met the other one there. -/
theorem Met.past (h : Met M as) (ht : as t = .after) (u : Party) :
    as u = .after ∨ (as u = .here ∧ M.phase u = .woken) := by
  obtain ⟨⟨n, hr⟩, hg⟩ := h
  have hn : 1 ≤ n := by
    have hp := hg t
    rw [ht] at hp
    rw [← hp.1]
    exact hr.passed_le t
  have hu := hg u
  have hin := hr.inStep u
  cases hs : as u with
  | after => exact Or.inl rfl
  | before =>
    rw [hs] at hu
    rw [hu.1, hu.2] at hin
    have hin : 0 = n := hin
    omega
  | here =>
    rw [hs] at hu
    have hu : M.passed u = 0 := hu
    rw [hu] at hin
    refine Or.inr ⟨rfl, ?_⟩
    cases hp : M.phase u with
    | woken => rfl
    | outside =>
      rw [hp] at hin
      have hin : 0 = n := hin
      omega
    | asleep =>
      rw [hp] at hin
      have hin : 0 = n := hin
      omega

theorem Met.outside (h : Met M as) (ht : as t = .after) : M.phase t = .outside := by
  have hp := h.2 t
  rw [ht] at hp
  exact hp.2

theorem stage_here : d.stage g t = .here ↔ d.order t = g.place t := by
  unfold stage
  split
  · simp only [reduceCtorEq, false_iff]
    omega
  · split <;> simp [*]

theorem stage_after : d.stage g t = .after ↔ g.place t < d.order t := by
  unfold stage
  split
  · simp only [reduceCtorEq, false_iff]
    omega
  · split
    · simp only [reduceCtorEq, false_iff]
      omega
    · simp only [true_iff]
      omega

theorem stage_of_order (h : d'.order t = d.order t) (g : Gate) : d'.stage g t = d.stage g t := by
  simp only [stage, h]

@[simp] theorem meeting_pass (d : Device) (M : Meeting Party) (g : Gate) : (d.pass M g).meeting g = M := by
  cases g <;> rfl

theorem meeting_pass_other (M : Meeting Party) (h : g' ≠ g) : (d.pass M g).meeting g' = d.meeting g' := by
  cases g <;> cases g' <;> first | rfl | exact absurd rfl h

/-- A thread that has come back from a barrier goes on, and the others stay. -/
theorem order_pass (d : Device) (M : Meeting Party) (g : Gate) (t : Party) :
    (d.pass M g).order t = if d.stage g t = .here ∧ M.passed t = 1 then d.order t + 1 else d.order t := by
  simp only [stage_here]
  cases t with
  | main =>
    cases g <;> cases hm : d.main <;> by_cases hp : M.passed .main = 1 <;>
      simp [pass, passBarrier, passShutdown, Gate.place, hm, hp]
  | reader =>
    cases g <;> cases hr : d.reader <;> by_cases hp : M.passed .reader = 1 <;>
      simp [pass, passBarrier, passShutdown, Gate.place, hr, hp]

theorem order_pass_cases (d : Device) (M : Meeting Party) (g : Gate) (t : Party) :
    (d.pass M g).order t = d.order t ∨ (d.order t = g.place t ∧ (d.pass M g).order t = d.order t + 1) := by
  rw [order_pass]
  split
  · next h => exact Or.inr ⟨stage_here.mp h.1, rfl⟩
  · exact Or.inl rfl

theorem stage_pass (d : Device) (M : Meeting Party) (g : Gate) (t : Party) :
    (d.pass M g).stage g t = (d.stage g t).pass (M.passed t) := by
  by_cases h : d.stage g t = .here ∧ M.passed t = 1
  · rw [Stage.pass, if_pos h, stage_after, order_pass, if_pos h, stage_here.mp h.1]
    exact Nat.lt_succ_self _
  · rw [Stage.pass, if_neg h]
    exact stage_of_order (by rw [order_pass, if_neg h]) g

/-- Who goes on at one barrier is far from the other one. -/
theorem stage_pass_other (M : Meeting Party) (h : g' ≠ g) (t : Party) : (d.pass M g).stage g' t = d.stage g' t := by
  rcases order_pass_cases d M g t with ho | ⟨hp, ho⟩
  · exact stage_of_order ho g'
  · rw [stage, stage, ho, hp]
    cases g <;> cases g' <;> first | exact absurd rfl h | cases t <;> decide

theorem step_event (d : Device) (g : Gate) (w : Wait Party) : machine.step d (g.event w) =
    if d.callsAt w g then ((d.meeting g).step w).map fun M => d.pass M g else none := by
  cases g <;> rfl

theorem callsAt_arrive : d.callsAt (.arrive t) g = true ↔ d.stage g t = .here := by
  rw [stage_here]
  cases t with
  | main => cases g <;> exact decide_eq_true_iff.trans MainPc.order_injective.eq_iff.symm
  | reader => cases g <;> exact decide_eq_true_iff.trans ReaderPc.order_injective.eq_iff.symm

/-! ## Every step -/

/-- The steps one by one. -/
inductive Does (d : Device) : DeviceEvent → Device → Prop
  | createSource (hr : d.reader = .starting) : Does d .createSource { d with reader := .sourced, source := true }
  | storeRunLoop (hr : d.reader = .sourced) : Does d .storeRunLoop { d with reader := .ready, runLoop := true }
  | enter (hr : d.reader = .testing) (ht : d.shutdownThread = false) : Does d .test { d with reader := .running }
  | leave (hr : d.reader = .testing) (ho : d.shutdownThread = true ∨ d.disconnected = true) :
      Does d .test { d with reader := .stopping }
  | perform (hr : d.reader = .running) (hsi : d.signal = true) :
      Does d .perform { d with reader := .halting, signal := false }
  | removal (hr : d.reader = .running) (hm : d.main = .starting ∨ d.main = .opened) :
      Does d .removal { d with reader := .halting, disconnected := true }
  | return (code : Code) (hr : d.reader = .running) : Does d (.return code) (d.returned code)
  | halt (hr : d.reader = .halting) : Does d .halt (d.returned .stopped)
  | broadcast (hr : d.reader = .stopping) : Does d .broadcast { d with reader := .stopped }
  | unregister (hm : d.main = .opened) : Does d .unregister { d with main := .unregistered }
  | setShutdown (hm : d.main = .unregistered) :
      Does d .setShutdown { d with main := .stopping, shutdownThread := true }
  | signalSource (hm : d.main = .stopping) : Does d .signalSource { d with main := .signaled, signal := true }
  | wakeUp (hm : d.main = .signaled) : Does d .wakeUp { d with main := .wokenUp }
  | join (hm : d.main = .joining) (hr : d.reader = .ended) : Does d .join { d with main := .joined }
  | free (hm : d.main = .joined) : Does d .free { d with main := .freed }
  | gate (g : Gate) {w : Wait Party} {M : Meeting Party} (hc : ∀ t, w = .arrive t → d.stage g t = .here)
      (hs : (d.meeting g).step w = some M) : Does d (g.event w) (d.pass M g)

theorem step_does (hs : machine.step d e = some d') : Does d e d' := by
  cases e with
  | test =>
    simp only [machine, step, Option.ite_none_right_eq_some, Option.some.injEq] at hs
    obtain ⟨hr, rfl⟩ := hs
    split
    · next hc =>
      rw [Bool.and_eq_true, Bool.not_eq_true'] at hc
      exact .enter hr hc.1
    · next hc =>
      refine .leave hr ?_
      cases hsh : d.shutdownThread with
      | true => exact Or.inl rfl
      | false => exact Or.inr (by simpa [hsh] using hc)
  | perform =>
    simp only [machine, step, Option.ite_none_right_eq_some, Option.some.injEq] at hs
    obtain ⟨⟨hr, hsi⟩, rfl⟩ := hs
    exact .perform hr hsi
  | removal =>
    simp only [machine, step, Option.ite_none_right_eq_some, Option.some.injEq] at hs
    obtain ⟨⟨hr, hm⟩, rfl⟩ := hs
    exact .removal hr hm
  | join =>
    simp only [machine, step, Option.ite_none_right_eq_some, Option.some.injEq] at hs
    obtain ⟨⟨hm, hr⟩, rfl⟩ := hs
    exact .join hm hr
  | barrier w =>
    simp only [machine, step, Option.ite_none_right_eq_some, Option.map_eq_some_iff] at hs
    obtain ⟨hc, M, hs, rfl⟩ := hs
    refine .gate .opens (fun t ht => ?_) hs
    subst ht
    exact callsAt_arrive.mp hc
  | shutdownBarrier w =>
    simp only [machine, step, Option.ite_none_right_eq_some, Option.map_eq_some_iff] at hs
    obtain ⟨hc, M, hs, rfl⟩ := hs
    refine .gate .closes (fun t ht => ?_) hs
    subst ht
    exact callsAt_arrive.mp hc
  | _ =>
    simp only [machine, step, Option.ite_none_right_eq_some, Option.some.injEq] at hs
    obtain ⟨h, rfl⟩ := hs
    constructor
    exact h

/-- What the threads have stored, once they are past the step that stores it. -/
structure Stored (d : Device) : Prop where
  source : 1 ≤ d.reader.order → d.source = true
  runLoop : 2 ≤ d.reader.order → d.runLoop = true
  shutdown : 3 ≤ d.main.order → d.shutdownThread = true
  /-- A signal is there until it stops the loop. -/
  signal : 4 ≤ d.main.order → d.reader.order ≤ 4 → d.signal = true
  joined : 7 ≤ d.main.order → 8 ≤ d.reader.order
  ending : 6 ≤ d.reader.order → d.shutdownThread = true ∨ d.disconnected = true

structure Sound (d : Device) : Prop where
  stored : Stored d
  met : ∀ g, Met (d.meeting g) (d.stage g)

theorem sound_opening : Sound opening where
  stored := ⟨by decide, by decide, by decide, by decide, by decide, by decide⟩
  met := by
    refine fun g => ⟨⟨0, ?_⟩, fun t => ?_⟩
    · cases g <;> exact Meeting.round_start (by decide)
    · cases g <;> cases t <;> first | exact ⟨rfl, rfl⟩ | exact rfl

/-- The steps that have nothing new to store keep what is stored. -/
theorem Stored.of_order (h : Stored d) (hso : d'.source = d.source) (hl : d'.runLoop = d.runLoop)
    (hsh : d.shutdownThread = true → d'.shutdownThread = true)
    (hsi : d'.signal = d.signal ∨ 5 ≤ d'.reader.order)
    (hr : d'.order .reader = d.order .reader ∨
      (2 ≤ d.order .reader ∧ d.order .reader < 8 ∧ (d'.order .reader ≤ 4 → d.order .reader ≤ 4)))
    (hm : d'.order .main = d.order .main ∨ (d'.order .main = d.order .main + 1 ∧ d'.order .main ≠ 3 ∧
      d'.order .main ≠ 4 ∧ (7 ≤ d'.order .main → 8 ≤ d'.order .reader)))
    (ho : 6 ≤ d'.reader.order → d'.shutdownThread = true ∨ d'.disconnected = true) : Stored d' := by
  simp only [order_main, order_reader] at hr hm
  refine ⟨fun h1 => ?_, fun h2 => ?_, fun h3 => ?_, fun h4 hr4 => ?_, fun h7 => ?_, ho⟩
  · rw [hso]
    exact h.source (by omega)
  · rw [hl]
    exact h.runLoop (by omega)
  · exact hsh (h.shutdown (by omega))
  · rcases hsi with hsi | hsi
    · rw [hsi]
      exact h.signal (by omega) (by omega)
    · omega
  · rcases hm with hm | ⟨-, -, -, hj⟩
    · have he := h.joined (by omega)
      omega
    · exact hj h7

theorem stored_step (h : Stored d) (hs : machine.step d e = some d') : Stored d' := by
  cases step_does hs with
  | @gate g w M hc hM =>
    have hr := order_pass_cases d M g .reader
    have hm := order_pass_cases d M g .main
    have hkept : (d.pass M g).source = d.source ∧ (d.pass M g).runLoop = d.runLoop ∧
        (d.pass M g).shutdownThread = d.shutdownThread ∧ (d.pass M g).disconnected = d.disconnected ∧
        (d.pass M g).signal = d.signal := by cases g <;> exact ⟨rfl, rfl, rfl, rfl, rfl⟩
    obtain ⟨hso, hl, hsh, hdi, hsi⟩ := hkept
    have hpr := g.place_reader
    have hpm := g.place_main
    refine h.of_order hso hl (hsh ▸ id) (Or.inl hsi) (hr.imp_right ?_) (hm.imp_right ?_) fun h6 => ?_
    · omega
    · omega
    · rw [hsh, hdi]
      rw [order_reader, order_reader] at hr
      exact h.ending (by omega)
  | createSource hr =>
    have hsi : 4 ≤ d.main.order → d.signal = true := fun hm => h.signal hm (by simp [hr])
    exact ⟨fun _ => rfl, fun h2 => absurd h2 (by simp), h.shutdown, fun hm _ => hsi hm,
      fun hm => absurd (h.joined hm) (by simp [hr]), fun h6 => absurd h6 (by simp)⟩
  | storeRunLoop hr =>
    have hsi : 4 ≤ d.main.order → d.signal = true := fun hm => h.signal hm (by simp [hr])
    exact ⟨fun _ => h.source (by simp [hr]), fun _ => rfl, h.shutdown, fun hm _ => hsi hm,
      fun hm => absurd (h.joined hm) (by simp [hr]), fun h6 => absurd h6 (by simp)⟩
  | setShutdown hm =>
    exact ⟨h.source, h.runLoop, fun _ => rfl, fun h4 => absurd h4 (by simp), fun h7 => absurd h7 (by simp),
      fun _ => Or.inl rfl⟩
  | signalSource hm =>
    exact ⟨h.source, h.runLoop, fun _ => h.shutdown (by simp [hm]), fun _ _ => rfl, fun h7 => absurd h7 (by simp),
      h.ending⟩
  | perform hr hsi =>
    exact h.of_order rfl rfl id (Or.inr (by simp)) (Or.inr (by simp [hr])) (Or.inl rfl) (by simp)
  | «return» code hr =>
    cases code <;>
      exact h.of_order rfl rfl (by simp [returned]) (Or.inl rfl) (Or.inr (by simp [hr])) (Or.inl rfl)
        (by simp [returned])
  | halt hr =>
    exact h.of_order rfl rfl (fun _ => rfl) (Or.inl rfl) (Or.inr (by simp [hr, returned])) (Or.inl rfl)
      fun _ => Or.inl rfl
  | leave hr ho => exact h.of_order rfl rfl id (Or.inl rfl) (Or.inr (by simp [hr])) (Or.inl rfl) fun _ => ho
  | broadcast hr =>
    exact h.of_order rfl rfl id (Or.inl rfl) (Or.inr (by simp [hr])) (Or.inl rfl) fun _ => h.ending (by simp [hr])
  | enter hr | removal hr => exact h.of_order rfl rfl id (Or.inl rfl) (Or.inr (by simp [hr])) (Or.inl rfl) (by simp)
  | unregister hm | wakeUp hm =>
    exact h.of_order rfl rfl id (Or.inl rfl) (Or.inl rfl) (Or.inr (by simp [hm])) h.ending
  | join hm hr => exact h.of_order rfl rfl id (Or.inl rfl) (Or.inl rfl) (Or.inr (by simp [hm, hr])) h.ending
  | free hm =>
    exact h.of_order rfl rfl id (Or.inl rfl) (Or.inl rfl)
      (Or.inr ⟨by simp [hm], by simp, by simp, fun _ => h.joined (by simp [hm])⟩) h.ending

/-- A flag that is set stays set. -/
theorem flags_stay (hs : machine.step d e = some d') (h : d'.shutdownThread = false ∧ d'.disconnected = false) :
    d.shutdownThread = false ∧ d.disconnected = false := by
  cases step_does hs with
  | «return» code hr => cases code <;> simp_all [returned]
  | removal hr | setShutdown hm | halt hr => simp_all [returned]
  | gate g => cases g <;> exact h
  | _ => exact h

/-- Only the broadcast takes the thread past it. -/
theorem broadcast_of_stopped (hs : machine.step d e = some d') (h : 7 ≤ d'.reader.order) :
    7 ≤ d.reader.order ∨ e = .broadcast := by
  cases step_does hs with
  | broadcast hr => exact Or.inr rfl
  | @gate g w M hc hM =>
    have hr := order_pass_cases d M g .reader
    have hpr := g.place_reader
    rw [order_reader, order_reader] at hr
    exact Or.inl (by omega)
  | «return» code hr => cases code <;> exact absurd h (by simp [returned])
  | createSource hr | storeRunLoop hr | enter hr | leave hr | perform hr | removal hr | halt hr =>
    exact absurd h (by simp [returned])
  | unregister hm | setShutdown hm | signalSource hm | wakeUp hm | join hm | free hm => exact Or.inl h

/-- A step of one thread, which goes through no barrier. -/
theorem Sound.moves (h : Sound d) (hst : Stored d') (hm : d'.meeting = d.meeting) (t : Party)
    (hu : ∀ u, u = t ∨ d'.order u = d.order u) (hc : ∀ g, (d.stage g t).Comes (d'.stage g t)) : Sound d' := by
  refine ⟨hst, fun g => ?_⟩
  rw [hm]
  refine (h.met g).comes fun u => ?_
  rcases hu u with rfl | hu
  · exact hc g
  · exact Or.inl (stage_of_order hu g)

theorem woken_event : Woken (g.event w) ↔ ∀ t, w ≠ .spurious t := by cases g <;> exact Iff.rfl

theorem sound_step (h : Sound d) (hw : Woken e) (hs : machine.step d e = some d') : Sound d' := by
  have hst := stored_step h.stored hs
  cases step_does hs with
  | @gate g w M hc hM =>
    refine ⟨hst, fun g' => ?_⟩
    by_cases hg : g' = g
    · subst hg
      rw [meeting_pass, funext (stage_pass d M g')]
      exact (h.met g').step hM (woken_event.mp hw) hc
    · rw [meeting_pass_other M hg, funext (stage_pass_other M hg)]
      exact h.met g'
  | «return» code hr =>
    refine h.moves hst ?_ .reader (fun u => ?_) fun g => ?_
    · cases code <;> rfl
    · cases code <;> cases u <;> simp [returned]
    · cases code <;> cases g <;> simp [Stage.Comes, stage, Gate.place, returned, hr]
  | createSource hr | storeRunLoop hr | enter hr | leave hr | perform hr | removal hr | halt hr | broadcast hr =>
    refine h.moves hst rfl .reader (fun u => ?_) fun g => ?_
    · cases u <;> simp [returned]
    · cases g <;> simp [Stage.Comes, stage, Gate.place, returned, hr]
  | unregister hm | setShutdown hm | signalSource hm | wakeUp hm | join hm | free hm =>
    refine h.moves hst rfl .main (fun u => ?_) fun g => ?_
    · cases u <;> simp
    · cases g <;> simp [Stage.Comes, stage, Gate.place, hm]

theorem sound_run (hw : ∀ e ∈ es, Woken e) (h : machine.run opening es = some d) : Sound d :=
  Machine.invariant_along (C := fun _ e => Woken e) sound_opening (fun _ _ _ hd he hs => sound_step hd he hs) h
    (Machine.along_of_forall hw _)

/-! ## Safety -/

/-- When one thread is past a barrier, the other one is there, and can go on. -/
theorem Sound.past (h : Sound d) (g : Gate) (ht : g.place t < d.order t) (u : Party) :
    g.place u ≤ d.order u ∧ (d.order u = g.place u → (d.meeting g).phase u = .woken) := by
  rcases (h.met g).past (stage_after.mpr ht) u with hu | ⟨hu, hwoken⟩
  · have hlt := stage_after.mp hu
    exact ⟨hlt.le, fun he => absurd he.symm hlt.ne⟩
  · exact ⟨(stage_here.mp hu).ge, fun _ => hwoken⟩

theorem Sound.past_open (h : Sound d) (hm : d.main ≠ .starting) : 2 ≤ d.reader.order :=
  (h.past .opens (t := .main) (MainPc.order_pos hm) .reader).1

theorem Sound.freed (h : Sound d) (hm : d.main = .freed) (hw : Woken e) : machine.step d e = none := by
  have hr : d.reader = .ended := ReaderPc.eq_ended (h.stored.joined (by simp [hm]))
  have hafter : ∀ g t, d.stage g t = .after := fun g t =>
    stage_after.mpr (by cases g <;> cases t <;> simp [Gate.place, hm, hr])
  by_contra hne
  obtain ⟨d', hs⟩ := Option.ne_none_iff_exists'.mp hne
  cases step_does hs with
  | @gate g w M hc hM =>
    cases w with
    | arrive t =>
      have hhere := hc t rfl
      rw [hafter] at hhere
      cases hhere
    | leave t => simp [Meeting.step, (h.met g).outside (hafter g t)] at hM
    | spurious t => exact woken_event.mp hw t rfl
  | removal hr' => simp [hr] at hr'
  | join hm' => simp [hm] at hm'
  | createSource hr' | storeRunLoop hr' | enter hr' | leave hr' | perform hr' | «return» _ hr' | halt hr'
    | broadcast hr' => simp [hr] at hr'
  | unregister hm' | setShutdown hm' | signalSource hm' | wakeUp hm' | free hm' => simp [hm] at hm'

/-- When `hid_close` has come past the barrier, the thread has told the readers. -/
theorem Sound.stopped (h : Sound d) (hm : 6 ≤ d.main.order) : 7 ≤ d.reader.order :=
  (h.past .closes (t := .main) hm .reader).1

/-- **What is used is there.** After `hid_open_path` the source and the run loop are there; the thread does not end
before `hid_close` has woken up its run loop; the device is freed when it has ended; and after that nothing happens. -/
theorem device_safe (hw : ∀ e ∈ es, Woken e) (h : machine.run opening es = some d) :
    (d.main ≠ .starting → d.source = true ∧ d.runLoop = true) ∧
    (d.reader = .ended → MainPc.wokenUp.order ≤ d.main.order) ∧
    (d.main = .freed → d.reader = .ended ∧ ∀ e, Woken e → machine.step d e = none) := by
  have hd := sound_run hw h
  refine ⟨fun hm => ?_, fun hr => ?_, fun hm => ⟨?_, fun e => hd.freed hm⟩⟩
  · have hr := hd.past_open hm
    exact ⟨hd.stored.source (by omega), hd.stored.runLoop hr⟩
  · exact (hd.past .closes (t := .reader) (by simp [Gate.place, hr]) .main).1
  · exact ReaderPc.eq_ended (hd.stored.joined (by simp [hm]))

/-- `hid_open_path`, and `hid_close` up to where the thread is told to stop. -/
def untilTold : List DeviceEvent :=
  [.createSource, .storeRunLoop, .barrier (.arrive .main), .barrier (.arrive .reader), .barrier (.leave .main), .test,
    .unregister, .setShutdown]

/-- The rest of `hid_close`. -/
def untilFreed : List DeviceEvent :=
  [.signalSource, .wakeUp, .perform, .halt, .broadcast, .shutdownBarrier (.arrive .main),
    .shutdownBarrier (.arrive .reader), .shutdownBarrier (.leave .main), .join, .free]

theorem woken_untilTold : ∀ e ∈ untilTold, Woken e := by simp [untilTold, Woken]

theorem woken_untilFreed : ∀ e ∈ untilFreed, Woken e := by simp [untilFreed, Woken]

theorem device_safe_freed : ∃ d, machine.run opening (untilTold ++ untilFreed) = some d ∧ d.main = .freed ∧
    d.reader = .ended := by
  have hrun : (machine.run opening (untilTold ++ untilFreed)).any (fun d => d.main = .freed) = true := by
    decide +kernel
  obtain ⟨d, hd, hp⟩ := (Option.any_eq_true _ _).mp hrun
  have hm : d.main = .freed := of_decide_eq_true hp
  have hw : ∀ e ∈ untilTold ++ untilFreed, Woken e :=
    List.forall_mem_append.mpr ⟨woken_untilTold, woken_untilFreed⟩
  exact ⟨d, hd, hm, ((device_safe hw hd).2.2 hm).1⟩

/-! ## The end of `hid_close` -/

/-- How many steps a thread still has before it ends, once it is told to stop, without those at `shutdown_barrier`. -/
def left (d : Device) : Party → Nat
  | .main => 8 - d.main.order
  | .reader =>
    match d.reader with
    | .starting => 7
    | .sourced => 6
    | .ready => 5
    | .running => 4
    | .testing | .halting => 3
    | .stopping => 2
    | .stopped => 1
    | .ended => 0

/-- It falls asleep at the barrier and comes back. -/
def cost (d : Device) (t : Party) : Nat :=
  d.left t + (if d.stage .closes t = .after then 0 else 1) + if d.shutdownBarrier.phase t = .outside then 1 else 0

def rank (d : Device) : Nat := d.cost .main + d.cost .reader

theorem left_of_order (h : d'.order t = d.order t) : d'.left t = d.left t := by
  cases t with
  | main => exact congrArg (8 - ·) h
  | reader => simp only [left, ReaderPc.order_injective h]

theorem left_pass (d : Device) (M : Meeting Party) (t : Party) :
    (d.pass M .closes).left t = d.left t - if d.stage .closes t = .here ∧ M.passed t = 1 then 1 else 0 := by
  simp only [stage_here]
  cases t with
  | main =>
    cases hm : d.main <;> by_cases hp : M.passed .main = 1 <;> simp [pass, Gate.place, passShutdown, left, hm, hp]
  | reader =>
    cases hr : d.reader <;> by_cases hp : M.passed .reader = 1 <;>
      simp [pass, Gate.place, passShutdown, left, hr, hp]

theorem left_pos (h : d.stage .closes t = .here) : 0 < d.left t := by
  have hp := stage_here.mp h
  cases t with
  | main => cases hm : d.main <;> simp [Gate.place, left, hm] at hp ⊢
  | reader => cases hr : d.reader <;> simp [Gate.place, left, hr] at hp ⊢

/-- What a step at `shutdown_barrier` leaves to a thread. -/
theorem cost_pass (h : Sound d) (hs : d.shutdownBarrier.step w = some M)
    (hc : ∀ t, w = .arrive t → d.stage .closes t = .here) (t : Party) :
    (d.pass M .closes).cost t ≤ d.cost t ∧
    (M.passed t = d.shutdownBarrier.passed t + 1 ∨ (d.shutdownBarrier.phase t = .outside ∧ M.phase t = .asleep) →
      (d.pass M .closes).cost t < d.cost t) := by
  have hstage := (h.met .closes).2 t
  simp only [cost, left_pass, stage_pass, Stage.pass]
  by_cases hg : d.stage .closes t = .here
  · rw [hg] at hstage
    have hp : d.shutdownBarrier.passed t = 0 := hstage
    have hpos := left_pos hg
    rcases Meeting.step_thread hs t with ⟨hp', -, hn⟩ | ⟨hp', ho, -⟩
    · -- it still stands there
      rw [hp] at hp'
      have hle : (if M.phase t = .outside then 1 else 0) ≤ if d.shutdownBarrier.phase t = .outside then 1 else 0 := by
        split
        · next ho => rw [if_pos (not_imp_not.mp hn ho)]
        · exact Nat.zero_le _
      simp only [hg, hp', hp, show (d.pass M .closes).shutdownBarrier = M from rfl]
      refine ⟨by simpa using hle, ?_⟩
      rintro (hm | ⟨ho, ha⟩)
      · cases hm
      · simp [ho, ha]
    · -- it comes back
      simp only [hg, hp', hp, ho, show (d.pass M .closes).shutdownBarrier = M from rfl]
      simp
      omega
  · have harrive : w ≠ .arrive t := fun ha => hg (hc t ha)
    have ho : d.shutdownBarrier.phase t = .outside := by
      cases hs : d.stage .closes t with
      | here => exact absurd hs hg
      | before | after =>
        rw [hs] at hstage
        exact hstage.2
    rcases Meeting.step_thread hs t with ⟨hp', ho', -⟩ | ⟨-, -, hb⟩
    · have ho' := (ho' ho).resolve_left harrive
      simp only [hg, hp', ho', ho, show (d.pass M .closes).shutdownBarrier = M from rfl]
      simp
    · rcases hb with hb | hb
      · exact absurd hb harrive
      · exact absurd ho hb

theorem rank_lt (t : Party) (hlt : d'.cost t < d.cost t) (hle : ∀ u, d'.cost u ≤ d.cost u) : d'.rank < d.rank := by
  cases t with
  | main => exact Nat.add_lt_add_of_lt_of_le hlt (hle .reader)
  | reader => exact Nat.add_lt_add_of_le_of_lt (hle .main) hlt

/-- A step of one thread leaves the other one its steps. -/
theorem rank_of_moves (hsb : d'.shutdownBarrier = d.shutdownBarrier) (t : Party)
    (hu : ∀ u, u = t ∨ d'.order u = d.order u)
    (ht : d'.left t + (if d'.stage .closes t = .after then 0 else 1) <
      d.left t + if d.stage .closes t = .after then 0 else 1) : d'.rank < d.rank := by
  have hlt : d'.cost t < d.cost t := by
    simp only [cost, hsb]
    exact Nat.add_lt_add_right ht _
  refine rank_lt t hlt fun u => ?_
  rcases hu u with rfl | hu
  · exact hlt.le
  · simp only [cost, hsb, left_of_order hu, stage_of_order hu, le_refl]

/-- At `barrier` only the thread can still move, and that takes it on. -/
theorem rank_passBarrier (h : Sound d) (ht : 3 ≤ d.main.order) (hs : d.barrier.step w = some M)
    (hw : ∀ t, w ≠ .spurious t) (hc : ∀ t, w = .arrive t → d.stage .opens t = .here) :
    (d.pass M .opens).rank < d.rank ∧ (d.pass M .opens).main = d.main := by
  have hne : d.main ≠ .starting := by
    intro he
    simp [he] at ht
  have hafter : d.stage .opens .main = .after := stage_after.mpr (MainPc.order_pos hne)
  have hmet := (h.met .opens).step hs hw hc
  have hmain : (d.pass M .opens).main = d.main := by simp [pass, passBarrier, hne]
  -- a thread that moves is not past the barrier
  have hstill : ∀ t, d.stage .opens t = .after → ¬ (M.passed t = d.barrier.passed t + 1 ∨
      (d.barrier.phase t = .outside ∧ M.phase t = .asleep)) := by
    intro t hg hm
    have hold : d.barrier.passed t = 1 ∧ d.barrier.phase t = .outside := by
      have hat := (h.met .opens).2 t
      rwa [hg] at hat
    have hnew : M.passed t = 1 ∧ M.phase t = .outside := by
      have hat : AtStage M t ((d.stage .opens t).pass (M.passed t)) := hmet.2 t
      rwa [hg] at hat
    rcases hm with hm | ⟨-, hm⟩
    · have := hold.1
      have := hnew.1
      omega
    · rw [hnew.2] at hm
      cases hm
  obtain ⟨t, hm⟩ := Meeting.step_moves hs hw
  cases t with
  | main => exact absurd hm (hstill .main hafter)
  | reader =>
    rcases (h.met .opens).past hafter .reader with hr | ⟨hr, hwoken⟩
    · exact absurd hm (hstill .reader hr)
    · have hready : d.reader = .ready := ReaderPc.order_injective (stage_here.mp hr)
      have hpassed : M.passed .reader = 1 := by
        have hold : d.barrier.passed .reader = 0 := by
          have hat := (h.met .opens).2 .reader
          rwa [hr] at hat
        rcases hm with hm | ⟨hm, -⟩
        · rw [hm, hold]
        · rw [show d.barrier.phase .reader = .woken from hwoken] at hm
          cases hm
      have htest : (d.pass M .opens).reader = .testing := by simp [pass, passBarrier, hready, hpassed]
      refine ⟨rank_of_moves rfl .reader (fun u => ?_) ?_, hmain⟩
      · cases u <;> simp [hmain]
      · simp [left, stage, Gate.place, htest, hready]

theorem rank_step (h : Sound d) (ht : 3 ≤ d.main.order) (hw : Woken e) (hs : machine.step d e = some d') :
    d'.rank < d.rank ∧ 3 ≤ d'.main.order := by
  cases step_does hs with
  | @gate g w M hc hM =>
    have hw := woken_event.mp hw
    cases g with
    | opens =>
      obtain ⟨hlt, hm⟩ := rank_passBarrier h ht hM hw hc
      exact ⟨hlt, hm ▸ ht⟩
    | closes =>
      refine ⟨?_, ?_⟩
      · obtain ⟨t, hm⟩ := Meeting.step_moves hM hw
        exact rank_lt t ((cost_pass h hM hc t).2 hm) fun u => (cost_pass h hM hc u).1
      · have hm := order_pass_cases d M .closes .main
        rw [order_main, order_main] at hm
        omega
  | enter hr hsh =>
    have hsh' := h.stored.shutdown ht
    rw [hsh] at hsh'
    cases hsh'
  | «return» code hr =>
    refine ⟨rank_of_moves ?_ .reader (fun u => ?_) ?_, ?_⟩
    · cases code <;> rfl
    · cases code <;> cases u <;> simp [returned]
    · cases code <;> simp [left, stage, Gate.place, returned, hr]
    · cases code <;> exact ht
  | createSource hr | storeRunLoop hr | leave hr | perform hr | removal hr | halt hr | broadcast hr =>
    refine ⟨rank_of_moves rfl .reader (fun u => ?_) ?_, ht⟩
    · cases u <;> simp [returned]
    · simp [left, stage, Gate.place, returned, hr]
  | unregister hm | setShutdown hm => simp [hm] at ht
  | signalSource hm | wakeUp hm | join hm | free hm =>
    refine ⟨rank_of_moves rfl .main (fun u => ?_) ?_, by simp⟩
    · cases u <;> simp
    · simp [left, stage, Gate.place, hm]

theorem rank_run {fs : List DeviceEvent} (h : Sound d) (ht : 3 ≤ d.main.order) (hw : ∀ e ∈ fs, Woken e)
    (hs : machine.run d fs = some d') : fs.length + d'.rank ≤ d.rank ∧ Sound d' ∧ 3 ≤ d'.main.order := by
  induction fs generalizing d with
  | nil =>
    cases Option.some.inj hs
    exact ⟨(Nat.zero_add _).le, h, ht⟩
  | cons e fs ih =>
    obtain ⟨d₁, he, hs⟩ := Machine.run_cons hs
    obtain ⟨hwe, hw⟩ := List.forall_mem_cons.mp hw
    obtain ⟨hlt, ht₁⟩ := rank_step h ht hwe he
    obtain ⟨hle, h', ht'⟩ := ih (sound_step h hwe he) ht₁ hw hs
    refine ⟨?_, h', ht'⟩
    rw [List.length_cons]
    omega

theorem rank_le (h : Sound d) (ht : 3 ≤ d.main.order) : d.rank ≤ 14 := by
  have hne : d.main ≠ .starting := by
    intro he
    simp [he] at ht
  have hr := h.past_open hne
  have hmain : d.left .main ≤ 5 := by
    simp only [left]
    omega
  have hreader : d.left .reader ≤ 5 := by
    cases hp : d.reader <;> simp_all [left]
  have hbound : ∀ t, d.cost t ≤ d.left t + 2 := by
    intro t
    simp only [cost]
    split <;> split <;> omega
  have := hbound .main
  have := hbound .reader
  simp only [rank]
  omega

/-- A thread that stands at a barrier, and does not sleep, can go on there. -/
theorem at_gate (hp : d.stage g t = .here) (ha : (d.meeting g).phase t ≠ .asleep) :
    ∃ e, Woken e ∧ (∀ c, e ≠ .return c) ∧ machine.step d e ≠ none := by
  have hreturn : ∀ w c, g.event w ≠ .return c := by
    cases g <;> exact fun w c => DeviceEvent.noConfusion
  cases hph : (d.meeting g).phase t with
  | asleep => exact absurd hph ha
  | woken =>
    refine ⟨g.event (.leave t), woken_event.mpr (by simp), hreturn _, ?_⟩
    have hc : d.callsAt (.leave t) g = true := by cases g <;> rfl
    rw [step_event, if_pos hc]
    simp [Meeting.step, hph]
  | outside =>
    refine ⟨g.event (.arrive t), woken_event.mpr (by simp), hreturn _, ?_⟩
    rw [step_event, if_pos (callsAt_arrive.mpr hp)]
    simp only [Meeting.step, hph, if_true]
    split <;> simp

/-- The thread can go on by itself until it has come back from `shutdown_barrier`, or sleeps there. -/
theorem Sound.reader_progress (h : Sound d) (hm : MainPc.wokenUp.order ≤ d.main.order) (hr : d.reader ≠ .ended)
    (ha : d.reader = .stopped → d.shutdownBarrier.phase .reader ≠ .asleep) :
    ∃ e, Woken e ∧ (∀ c, e ≠ .return c) ∧ machine.step d e ≠ none := by
  have hm' : 5 ≤ d.main.order := hm
  have hopen : Gate.opens.place .main < d.order .main := (Nat.zero_lt_succ _).trans_le hm'
  have hpast := h.past .opens hopen .reader
  cases hp : d.reader with
  | starting | sourced => simp [Gate.place, hp] at hpast
  | ready =>
    have hplace : d.order .reader = Gate.opens.place .reader := by simp [Gate.place, hp]
    exact at_gate (stage_here.mpr hplace) (by simp [hpast.2 hplace])
  | testing => exact ⟨.test, trivial, by simp, by simp [machine, step, hp]⟩
  | running =>
    have hsi := h.stored.signal (by omega) (by simp [hp])
    exact ⟨.perform, trivial, by simp, by simp [machine, step, hp, hsi]⟩
  | halting => exact ⟨.halt, trivial, by simp, by simp [machine, step, hp]⟩
  | stopping => exact ⟨.broadcast, trivial, by simp, by simp [machine, step, hp]⟩
  | stopped => exact at_gate (g := .closes) (stage_here.mpr (by simp [Gate.place, hp])) (ha hp)
  | ended => exact absurd hp hr

theorem Sound.progress (h : Sound d) (ht : 3 ≤ d.main.order) (hf : d.main ≠ .freed) :
    ∃ e, Woken e ∧ (∀ c, e ≠ .return c) ∧ machine.step d e ≠ none := by
  cases hp : d.main with
  | starting | opened | unregistered => simp [hp] at ht
  | stopping => exact ⟨.signalSource, trivial, by simp, by simp [machine, step, hp]⟩
  | signaled => exact ⟨.wakeUp, trivial, by simp, by simp [machine, step, hp]⟩
  | wokenUp =>
    have hplace : d.order .main = Gate.closes.place .main := by simp [Gate.place, hp]
    by_cases hasleep : (d.meeting .closes).phase .main = .asleep
    · -- the other one has still to come
      obtain ⟨n, hround⟩ := (h.met .closes).1
      obtain ⟨u, hu, hne⟩ := hround.exists_behind
      cases u with
      | main => exact absurd hasleep hne
      | reader =>
        refine h.reader_progress (by simp [hp]) ?_ fun _ => hne
        intro hr
        have hwoken := (h.past .closes (t := .reader) (by simp [Gate.place, hr]) .main).2 hplace
        rw [hasleep] at hwoken
        cases hwoken
    · exact at_gate (stage_here.mpr hplace) hasleep
  | joining =>
    by_cases hr : d.reader = .ended
    · exact ⟨.join, trivial, by simp, by simp [machine, step, hp, hr]⟩
    · refine h.reader_progress (by simp [hp]) hr fun hstop ha => ?_
      have hwoken := (h.past .closes (t := .main) (by simp [Gate.place, hp]) .reader).2 (by simp [Gate.place, hstop])
      rw [show (d.meeting .closes).phase .reader = .asleep from ha] at hwoken
      cases hwoken
  | joined => exact ⟨.free, trivial, by simp, by simp [machine, step, hp]⟩
  | freed => exact absurd hp hf

/-- **`hid_close` returns.** Once it has told the thread to stop, the two have at most 14 steps left, in whatever order;
and until the device is freed one of them has a step to take for which the run loop need not return by itself. -/
theorem close_returns (hw : ∀ e ∈ es, Woken e) (h : machine.run opening es = some d)
    (ht : MainPc.stopping.order ≤ d.main.order) {fs : List DeviceEvent} (hf : ∀ e ∈ fs, Woken e)
    (h' : machine.run d fs = some d') :
    fs.length ≤ 14 ∧
    (d'.main = .freed ∨ ∃ e, Woken e ∧ (∀ code, e ≠ .return code) ∧ machine.step d' e ≠ none) := by
  have hd := sound_run hw h
  obtain ⟨hle, hd', ht'⟩ := rank_run hd ht hf h'
  have hbound := rank_le hd ht
  refine ⟨by omega, ?_⟩
  by_cases hfr : d'.main = .freed
  · exact Or.inl hfr
  · exact Or.inr (hd'.progress ht' hfr)

theorem close_returns_freed : ∃ d d', machine.run opening untilTold = some d ∧ machine.run d untilFreed = some d' ∧
    untilFreed.length ≤ 14 := by
  have hrun : (machine.run opening untilTold).any (fun d => decide (d.main = .stopping) &&
      (machine.run d untilFreed).isSome) = true := by decide +kernel
  obtain ⟨d, hd, hp⟩ := (Option.any_eq_true _ _).mp hrun
  rw [Bool.and_eq_true, decide_eq_true_eq] at hp
  obtain ⟨d', hd'⟩ := Option.isSome_iff_exists.mp hp.2
  exact ⟨d, d', hd, hd', (close_returns woken_untilTold hd (by simp [hp.1]) woken_untilFreed hd').1⟩

end Device

end SvrMnu.Hid
