import SvrMnu.Hid.Device
import Mathlib.Algebra.BigOperators.Group.Finset.Piecewise
import Mathlib.Algebra.BigOperators.Group.Finset.Basic

/-!
# The reports of a hid device and the threads that read them

`hid_report_callback` runs in the run loop of `read_thread` and puts each report into a list; `hid_read_timeout` takes
the oldest one, or sleeps on a condition variable until it is signaled. Any number of threads may read. `Reading` is
the device with its list and its readers.

- `reports_run`: the reports leave the list in the order in which they came, each one once; at most 32 wait, and one is
  dropped only for a newer one that finds 32;
- `readers_woken`: while the device is there, no reader sleeps on more reports than there are readers already woken;
- `readers_told`: none sleeps any more once `read_thread` has told them, nor when `hid_close` has come past the
  barrier, although the flags they look at are set without the mutex.
-/

set_option autoImplicit false

namespace SvrMnu.Hid

open Sys

/-- The bytes of an input report. -/
abbrev Report : Type := List UInt8

/-- The arguments of a read that are needed after a sleep. -/
structure Call where
  length : Nat
  timed : Bool
  deriving DecidableEq

/-- Where a thread is in `hid_read_timeout`. -/
inductive ReadPhase
  | outside
  | asleep (c : Call)
  /-- `pthread_cond_wait` waits for the mutex. -/
  | woken (c : Call)
  /-- `pthread_cond_timedwait` does, at the end of its time. -/
  | timedOut
  deriving DecidableEq

def ReadPhase.isAsleep : ReadPhase → Bool
  | .asleep _ => true
  | _ => false

def ReadPhase.isWoken : ReadPhase → Bool
  | .woken _ => true
  | _ => false

structure Reading (T : Type) where
  device : Device
  reports : List Report
  phase : T → ReadPhase

inductive ReadEvent (T : Type)
  | device (e : DeviceEvent)
  /-- `hid_report_callback`, with the thread that `pthread_cond_signal` wakes up. -/
  | report (r : Report) (signaled : Option T)
  /-- A read, up to its return or its sleep. -/
  | read (t : T) (length : Nat) (milliseconds : Int)
  /-- A thread that has been woken has the mutex again. -/
  | resume (t : T)
  | spurious (t : T)
  | timeout (t : T)
  /-- A thread whose time is over has it again. -/
  | expire (t : T)

/-- What a thread does next that has the mutex. -/
inductive Next
  /-- `return_data` -/
  | take (r : Report) (rest : List Report)
  | give (code : Int)
  | sleep (c : Call)

/-- `return_data` -/
def returnData (r : Report) (length : Nat) : Int × Report :=
  let len := if length < r.length then length else r.length
  (len, r.take len)

/-- What becomes of a report. -/
inductive Fate (T : Type)
  /-- A thread has read it, with this answer. -/
  | read (t : T) (answer : Int × Report)
  | dropped
  | cleared
  deriving DecidableEq

def Next.fate {T : Type} (t : T) (length : Nat) : Next → List (Fate T × Report)
  | .take r _ => [(.read t (returnData r length), r)]
  | .give _ | .sleep _ => []

/-- A report that is taken is the oldest one, and only for want of one does a thread sleep. -/
def Next.Heads (reports : List Report) : Next → Prop
  | .take r rest => reports = r :: rest
  | .give _ => True
  | .sleep _ => reports = []

namespace Reading

/-- The list after `hid_report_callback`. -/
def hidReportCallback (reports : List Report) (r : Report) : List Report :=
  match reports with
  | [] => [r]
  | first :: rest =>
    -- the steps to the end of the list
    let numQueued := rest.length
    if numQueued > 30 then rest ++ [r] else first :: rest ++ [r]

section Steps

variable {T : Type}

def ending (s : Reading T) : Bool := s.device.shutdownThread || s.device.disconnected

/-- `hid_read_timeout` from its lock. -/
def hidReadTimeout (s : Reading T) (length : Nat) (milliseconds : Int) : Next :=
  match s.reports with
  | r :: rest => .take r rest
  | [] =>
    if s.device.disconnected then .give (-1)
    else if s.device.shutdownThread then .give (-1)
    else if milliseconds = -1 then .sleep ⟨length, false⟩
    else if milliseconds > 0 then .sleep ⟨length, true⟩
    else .give 0

/-- `cond_wait` and `cond_timedwait` after a sleep. -/
def condWait (s : Reading T) (c : Call) : Next :=
  if s.device.shutdownThread || s.device.disconnected then .give (-1)
  else
    match s.reports with
    | r :: rest => .take r rest
    | [] => .sleep c

variable [DecidableEq T]

def goes (s : Reading T) (t : T) : Next → Reading T
  | .take _ rest => { s with reports := rest, phase := Function.update s.phase t .outside }
  | .give _ => { s with phase := Function.update s.phase t .outside }
  | .sleep c => { s with phase := Function.update s.phase t (.asleep c) }

/-- What `pthread_cond_broadcast` is to a thread. -/
def wake : ReadPhase → ReadPhase
  | .asleep c => .woken c
  | p => p

variable [Fintype T]

/-- `pthread_cond_signal` wakes up a thread, if one sleeps. -/
def signal (phase : T → ReadPhase) : Option T → Option (T → ReadPhase)
  | some t => if (phase t).isAsleep then some (Function.update phase t (wake (phase t))) else none
  | none => if ∀ t, (phase t).isAsleep = false then some phase else none

def step (s : Reading T) : ReadEvent T → Option (Reading T)
  | .device e =>
    (Device.machine.step s.device e).map fun d =>
      { device := d
        -- `hid_close` empties the list before it frees the device
        reports := if e = .free then [] else s.reports
        phase := if e = .broadcast then fun t => wake (s.phase t) else s.phase }
  -- `hid_close` sets the callback to `NULL`
  | .report r signaled =>
    if s.device.reader = .running ∧ (s.device.main = .starting ∨ s.device.main = .opened) then
      (signal s.phase signaled).map fun phase => { s with reports := hidReportCallback s.reports r, phase := phase }
    else none
  | .read t length milliseconds =>
    if s.phase t = .outside ∧ s.device.main ≠ .starting ∧ s.device.main ≠ .freed then
      some (s.goes t (s.hidReadTimeout length milliseconds))
    else none
  | .resume t =>
    match s.phase t with
    | .woken c => if s.device.main ≠ .freed then some (s.goes t (s.condWait c)) else none
    | _ => none
  | .spurious t =>
    match s.phase t with
    | .asleep c => some { s with phase := Function.update s.phase t (.woken c) }
    | _ => none
  | .timeout t =>
    match s.phase t with
    | .asleep c => if c.timed then some { s with phase := Function.update s.phase t .timedOut } else none
    | _ => none
  | .expire t =>
    if s.phase t = .timedOut ∧ s.device.main ≠ .freed then some (s.goes t (.give 0)) else none

def machine (T : Type) [DecidableEq T] [Fintype T] : Machine (Reading T) (ReadEvent T) := ⟨step⟩

/-- The steps one by one. -/
inductive Does (s : Reading T) : ReadEvent T → Reading T → Prop
  | device {e : DeviceEvent} {d : Device} (hd : Device.machine.step s.device e = some d) :
      Does s (.device e)
        ⟨d, if e = .free then [] else s.reports, if e = .broadcast then fun t => wake (s.phase t) else s.phase⟩
  | report {r : Report} {signaled : Option T} {phase : T → ReadPhase} (hp : signal s.phase signaled = some phase) :
      Does s (.report r signaled) ⟨s.device, hidReportCallback s.reports r, phase⟩
  | read {t : T} {length : Nat} {milliseconds : Int} (hp : s.phase t = .outside) :
      Does s (.read t length milliseconds) (s.goes t (s.hidReadTimeout length milliseconds))
  | resume {t : T} {c : Call} (hp : s.phase t = .woken c) : Does s (.resume t) (s.goes t (s.condWait c))
  | spurious {t : T} {c : Call} (hp : s.phase t = .asleep c) :
      Does s (.spurious t) { s with phase := Function.update s.phase t (.woken c) }
  | timeout {t : T} {c : Call} (hp : s.phase t = .asleep c) :
      Does s (.timeout t) { s with phase := Function.update s.phase t .timedOut }
  | expire {t : T} (hp : s.phase t = .timedOut) : Does s (.expire t) (s.goes t (.give 0))

theorem step_does {s s' : Reading T} {e : ReadEvent T} (hs : (machine T).step s e = some s') : Does s e s' := by
  cases e with
  | device e =>
    obtain ⟨d, hd, rfl⟩ := Option.map_eq_some_iff.mp hs
    exact .device hd
  | report r signaled =>
    simp only [machine, step, Option.ite_none_right_eq_some, Option.map_eq_some_iff] at hs
    obtain ⟨-, phase, hp, rfl⟩ := hs
    exact .report hp
  | read t length milliseconds =>
    simp only [machine, step, Option.ite_none_right_eq_some, Option.some.injEq] at hs
    obtain ⟨⟨hp, -⟩, rfl⟩ := hs
    exact .read hp
  | resume t =>
    simp only [machine, step] at hs
    split at hs
    · next c hp =>
      simp only [Option.ite_none_right_eq_some, Option.some.injEq] at hs
      obtain ⟨-, rfl⟩ := hs
      exact .resume hp
    · cases hs
  | spurious t =>
    simp only [machine, step] at hs
    split at hs
    · next c hp =>
      cases Option.some.inj hs
      exact .spurious hp
    · cases hs
  | timeout t =>
    simp only [machine, step] at hs
    split at hs
    · next c hp =>
      simp only [Option.ite_none_right_eq_some, Option.some.injEq] at hs
      obtain ⟨-, rfl⟩ := hs
      exact .timeout hp
    · cases hs
  | expire t =>
    simp only [machine, step, Option.ite_none_right_eq_some, Option.some.injEq] at hs
    obtain ⟨⟨hp, -⟩, rfl⟩ := hs
    exact .expire hp

end Steps

/-- `hid_open_path` -/
def opening (T : Type) : Reading T := ⟨.opening, [], fun _ => .outside⟩

/-- `hid_open_path` up to the run loop of the thread. -/
def untilRunning (T : Type) : List (ReadEvent T) :=
  [.createSource, .storeRunLoop, .barrier (.arrive .main), .barrier (.arrive .reader), .barrier (.leave .main),
    .test].map .device

/-! ## What becomes of the reports -/

variable {T : Type}

/-- The report that a step puts into the list. -/
def comes : ReadEvent T → List Report
  | .report r _ => [r]
  | .device _ | .read _ _ _ | .resume _ | .spurious _ | .timeout _ | .expire _ => []

/-- The reports that have come, the first one first. -/
def received (tr : List (Reading T × ReadEvent T)) : List Report := tr.flatMap fun x => comes x.2

/-- The reports that a step takes out of the list. -/
def removes (s : Reading T) : ReadEvent T → List (Fate T × Report)
  | .report _ _ =>
    match s.reports with
    | [] => []
    | first :: rest => if rest.length > 30 then [(.dropped, first)] else []
  | .read t length milliseconds => Next.fate t length (s.hidReadTimeout length milliseconds)
  | .resume t =>
    match s.phase t with
    | .woken c => Next.fate t c.length (s.condWait c)
    | _ => []
  | .device e => if e = .free then s.reports.map fun r => (.cleared, r) else []
  | .spurious _ | .timeout _ | .expire _ => []

/-- The reports that have left the list, the first one first. -/
def removed (tr : List (Reading T × ReadEvent T)) : List (Fate T × Report) := tr.flatMap fun x => x.1.removes x.2

variable {s s' : Reading T} {e : ReadEvent T} {es : List (ReadEvent T)} {t : T} {n : Next}

theorem heads_hidReadTimeout (length : Nat) (milliseconds : Int) :
    (s.hidReadTimeout length milliseconds).Heads s.reports := by
  unfold hidReadTimeout
  split
  · next h => exact h
  · next h =>
    split
    · trivial
    · split
      · trivial
      · split
        · exact h
        · split
          · exact h
          · trivial

theorem heads_condWait (c : Call) : (s.condWait c).Heads s.reports := by
  unfold condWait
  split
  · trivial
  · split
    · next h => exact h
    · next h => exact h

section Ledger

variable [DecidableEq T]

theorem goes_ledger (h : n.Heads s.reports) (length : Nat) :
    (n.fate t length).map Prod.snd ++ (s.goes t n).reports = s.reports := by
  cases n with
  | take r rest => exact h.symm
  | give code | sleep c => rfl

omit [DecidableEq T] in
theorem callback_ledger (s : Reading T) (r : Report) (signaled : Option T) :
    (s.removes (.report r signaled)).map Prod.snd ++ hidReportCallback s.reports r = s.reports ++ [r] := by
  simp only [removes, hidReportCallback]
  cases s.reports with
  | nil => rfl
  | cons first rest =>
    by_cases h : rest.length > 30
    · simp [h]
    · simp [h]

theorem hidReportCallback_length {reports : List Report} (h : reports.length ≤ 32) (r : Report) :
    (hidReportCallback reports r).length ≤ 32 := by
  simp only [hidReportCallback]
  split
  · simp
  · next first rest =>
    rw [List.length_cons] at h
    split
    · rw [List.length_append, List.length_singleton]
      exact h
    · rw [List.length_append, List.length_cons, List.length_singleton]
      omega

theorem goes_length (h : n.Heads s.reports) : (s.goes t n).reports.length ≤ s.reports.length := by
  rw [← goes_ledger (s := s) (t := t) h 0, List.length_append]
  omega

variable [Fintype T]

/-- Every report is in the list or has left it. -/
theorem step_ledger (hs : (machine T).step s e = some s') :
    (s.removes e).map Prod.snd ++ s'.reports = s.reports ++ comes e := by
  cases step_does hs with
  | @device e d hd =>
    by_cases he : e = .free
    · simp [removes, comes, he, Function.comp_def]
    · simp [removes, comes, he]
  | report hp => exact callback_ledger s _ _
  | read hp =>
    rw [comes, List.append_nil]
    exact goes_ledger (heads_hidReadTimeout _ _) _
  | resume hp =>
    rw [comes, List.append_nil]
    simp only [removes, hp]
    exact goes_ledger (heads_condWait _) _
  | spurious hp | timeout hp | expire hp => simp [removes, comes, goes]

theorem step_length (h : s.reports.length ≤ 32) (hs : (machine T).step s e = some s') : s'.reports.length ≤ 32 := by
  cases step_does hs with
  | device hd =>
    dsimp only
    split
    · exact Nat.zero_le _
    · exact h
  | report hp => exact hidReportCallback_length h _
  | read hp => exact (goes_length (heads_hidReadTimeout _ _)).trans h
  | resume hp => exact (goes_length (heads_condWait _)).trans h
  | spurious hp | timeout hp | expire hp => exact h

omit [DecidableEq T] [Fintype T] in
/-- Only a full list gives a report up. -/
theorem length_of_dropped (h : s.reports.length ≤ 32) {r : Report} (hr : (.dropped, r) ∈ s.removes e) :
    s.reports.length = 32 := by
  have hfate : ∀ (t : T) (length : Nat) (n : Next), (.dropped, r) ∉ n.fate t length := by
    intro t length n
    cases n <;> simp [Next.fate]
  cases e with
  | report r' signaled =>
    simp only [removes] at hr
    split at hr
    · cases hr
    · next first rest hq =>
      split at hr
      · rw [hq, List.length_cons] at h ⊢
        omega
      · cases hr
  | read t length milliseconds => exact absurd hr (hfate _ _ _)
  | resume t =>
    simp only [removes] at hr
    split at hr
    · exact absurd hr (hfate _ _ _)
    · cases hr
  | device e =>
    simp only [removes] at hr
    split at hr
    · simp at hr
    · cases hr
  | spurious t | timeout t | expire t => cases hr

/-- **First in, first out.** The reports that have come are those that have been read, dropped or cleared, in this
order, and after them those that wait; at most 32 wait, and one is dropped only when 32 do. -/
theorem reports_run (h : (machine T).run (opening T) es = some s) :
    received ((machine T).trace (opening T) es) =
      (removed ((machine T).trace (opening T) es)).map Prod.snd ++ s.reports ∧
    s.reports.length ≤ 32 ∧
    ∀ x ∈ (machine T).trace (opening T) es, ∀ r, (.dropped, r) ∈ x.1.removes x.2 → x.1.reports.length = 32 := by
  refine Machine.run_history (I := fun tr s => received tr = (removed tr).map Prod.snd ++ s.reports ∧
    s.reports.length ≤ 32 ∧ ∀ x ∈ tr, ∀ r, (.dropped, r) ∈ x.1.removes x.2 → x.1.reports.length = 32) ?_ ?_ h
  · exact ⟨rfl, Nat.zero_le _, fun x hx => nomatch hx⟩
  · rintro tr s e s' ⟨hr, hl, hd⟩ hs
    refine ⟨?_, step_length hl hs, ?_⟩
    · have hstep := step_ledger hs
      simp only [received, removed, List.flatMap_append, List.flatMap_singleton, List.map_append] at hr ⊢
      rw [hr, List.append_assoc, List.append_assoc, hstep]
    · intro x hx r hx'
      rcases List.mem_append.mp hx with hx | hx
      · exact hd x hx r hx'
      · cases List.mem_singleton.mp hx
        exact length_of_dropped hl hx'

/-- Two reports come, and a thread reads with a buffer of two bytes. -/
def twoReports : List (ReadEvent Bool) :=
  untilRunning Bool ++ [.report [1, 2, 3] none, .report [4] none, .read true 2 (-1)]

/-- The first report has been read, as far as the buffer reaches, and the other one waits. -/
theorem reports_run_two :
    removed ((machine Bool).trace (opening Bool) twoReports) = [(.read true (2, [1, 2]), [1, 2, 3])] ∧
    ∃ s, (machine Bool).run (opening Bool) twoReports = some s ∧ s.reports = [[4]] := by
  have hrun : ((machine Bool).run (opening Bool) twoReports).isSome = true := by decide +kernel
  have hreceived : received ((machine Bool).trace (opening Bool) twoReports) = [[1, 2, 3], [4]] := by decide +kernel
  have hremoved : removed ((machine Bool).trace (opening Bool) twoReports) =
      [(.read true (2, [1, 2]), [1, 2, 3])] := by decide +kernel
  obtain ⟨s, hs⟩ := Option.isSome_iff_exists.mp hrun
  refine ⟨hremoved, s, hs, ?_⟩
  have hledger := (reports_run hs).1
  rw [hreceived, hremoved] at hledger
  exact (List.cons.inj hledger).2.symm

end Ledger

/-! ## Waking up -/

section Waking

variable [DecidableEq T] [Fintype T] {phase phase' : T → ReadPhase} {p : ReadPhase}

/-- The threads that have been signaled, and have not looked at the list since. -/
def woken (phase : T → ReadPhase) : Finset T := Finset.univ.filter fun t => (phase t).isWoken

/-- No thread sleeps, or enough of them are woken for the reports that wait. -/
def Served (reports : List Report) (phase : T → ReadPhase) : Prop :=
  (∀ t, (phase t).isAsleep = false) ∨ reports.length ≤ (woken phase).card

omit [Fintype T] in
theorem awake_update (h : ∀ t, (phase t).isAsleep = false) (hp : p.isAsleep = false) :
    ∀ u, (Function.update phase t p u).isAsleep = false := by
  intro u
  by_cases hu : u = t
  · subst hu
    rw [Function.update_self]
    exact hp
  · rw [Function.update_of_ne hu]
    exact h u

theorem woken_update_wake (ht : (phase t).isWoken = false) (hp : p.isWoken = true) :
    (woken (Function.update phase t p)).card = (woken phase).card + 1 := by
  have hins : woken (Function.update phase t p) = insert t (woken phase) := by
    ext u
    by_cases hu : u = t
    · subst hu
      simp [woken, hp]
    · simp [woken, hu]
  rw [hins, Finset.card_insert_of_notMem (by simp [woken, ht])]

theorem woken_update_rest (ht : (phase t).isWoken = true) (hp : p.isWoken = false) :
    (woken (Function.update phase t p)).card + 1 = (woken phase).card := by
  have hers : woken (Function.update phase t p) = (woken phase).erase t := by
    ext u
    by_cases hu : u = t
    · subst hu
      simp [woken, hp]
    · simp [woken, hu]
  rw [hers, Finset.card_erase_add_one (by simp [woken, ht])]

theorem woken_update_same (ht : (phase t).isWoken = false) (hp : p.isWoken = false) :
    woken (Function.update phase t p) = woken phase := by
  ext u
  by_cases hu : u = t
  · subst hu
    simp [woken, hp, ht]
  · simp [woken, hu]

/-- One report more at the most, for which a thread is signaled. -/
theorem Served.signal {reports reports' : List Report} {signaled : Option T} (h : Served reports phase)
    (hr : reports'.length ≤ reports.length + 1) (hs : signal phase signaled = some phase') :
    Served reports' phase' := by
  cases signaled with
  | none =>
    simp only [Reading.signal, Option.ite_none_right_eq_some, Option.some.injEq] at hs
    obtain ⟨hall, rfl⟩ := hs
    exact Or.inl hall
  | some t =>
    simp only [Reading.signal, Option.ite_none_right_eq_some, Option.some.injEq] at hs
    obtain ⟨ht, rfl⟩ := hs
    rcases h with h | h
    · rw [h t] at ht
      cases ht
    · refine Or.inr ?_
      have hwake : (wake (phase t)).isWoken = true := by
        cases hp : phase t <;> simp_all [wake, ReadPhase.isAsleep, ReadPhase.isWoken]
      have ht' : (phase t).isWoken = false := by
        cases hp : phase t <;> simp_all [ReadPhase.isAsleep, ReadPhase.isWoken]
      rw [woken_update_wake ht' hwake]
      omega

/-- One report fewer, and one thread that is not waiting for it. -/
theorem Served.take {r : Report} {rest : List Report} (h : Served (r :: rest) phase) :
    Served rest (Function.update phase t .outside) := by
  rcases h with h | h
  · exact Or.inl (awake_update h rfl)
  · refine Or.inr ?_
    rw [List.length_cons] at h
    cases ht : (phase t).isWoken with
    | true =>
      have hcard := woken_update_rest (p := .outside) ht rfl
      omega
    | false =>
      rw [woken_update_same ht rfl]
      omega

theorem Served.rest {reports : List Report} (h : Served reports phase) (ht : (phase t).isWoken = false)
    (hw : p.isWoken = false) (ha : p.isAsleep = false) : Served reports (Function.update phase t p) := by
  rcases h with h | h
  · exact Or.inl (awake_update h ha)
  · refine Or.inr ?_
    rw [woken_update_same ht hw]
    exact h

omit [DecidableEq T] in
theorem served_nil : Served [] phase := Or.inr (Nat.zero_le _)

theorem Served.goes (h : Served s.reports s.phase) (hn : n.Heads s.reports)
    (ht : (s.phase t).isWoken = true → ∀ code, n ≠ .give code) : Served (s.goes t n).reports (s.goes t n).phase := by
  cases n with
  | take r rest =>
    have hn : s.reports = r :: rest := hn
    exact Served.take (hn ▸ h)
  | give code =>
    refine h.rest ?_ rfl rfl
    exact Bool.eq_false_iff.mpr fun hw => ht hw code rfl
  | sleep c =>
    have hn : s.reports = [] := hn
    simp only [Reading.goes, hn]
    exact served_nil

omit [Fintype T] in
theorem goes_device (s : Reading T) (t : T) (n : Next) : (s.goes t n).device = s.device := by cases n <;> rfl

omit [Fintype T] in
theorem ending_goes (s : Reading T) (t : T) (n : Next) : (s.goes t n).ending = s.ending := by
  simp only [ending, goes_device]

theorem hidReportCallback_le (reports : List Report) (r : Report) :
    (hidReportCallback reports r).length ≤ reports.length + 1 := by
  simp only [hidReportCallback]
  split
  · simp
  · split <;> simp

theorem served_step (h : s.ending = false → Served s.reports s.phase) (hs : (machine T).step s e = some s')
    (ho : s'.ending = false) : Served s'.reports s'.phase := by
  cases step_does hs with
  | @device e d hd =>
    have ho' : s.ending = false := by
      simp only [ending, Bool.or_eq_false_iff] at ho ⊢
      exact Device.flags_stay hd ho
    by_cases he : e = .free
    · simp only [he, if_true]
      exact served_nil
    · by_cases hb : e = .broadcast
      · refine Or.inl fun t => ?_
        simp only [hb, if_true]
        cases s.phase t <;> rfl
      · simp only [he, hb, if_false]
        exact h ho'
  | report hp => exact (h ho).signal (hidReportCallback_le _ _) hp
  | read hp =>
    rw [ending_goes] at ho
    refine (h ho).goes (heads_hidReadTimeout _ _) fun hw => ?_
    rw [hp] at hw
    cases hw
  | @resume t c hp =>
    rw [ending_goes] at ho
    refine (h ho).goes (heads_condWait _) fun _ code hg => ?_
    have ho' : (s.device.shutdownThread || s.device.disconnected) = false := ho
    simp only [condWait, ho', Bool.false_eq_true, if_false] at hg
    split at hg <;> cases hg
  | @spurious t c hp =>
    rcases h ho with hall | hle
    · have ht := hall t
      rw [hp] at ht
      cases ht
    · refine Or.inr ?_
      rw [woken_update_wake (by rw [hp]; rfl) rfl]
      exact hle.trans (Nat.le_succ _)
  | @timeout t c hp => exact (h ho).rest (by rw [hp]; rfl) rfl rfl
  | expire hp =>
    rw [ending_goes] at ho
    refine (h ho).goes trivial fun hw => ?_
    rw [hp] at hw
    cases hw

/-- **No wake-up is lost.** While the device is there, either no thread sleeps or no more reports wait than threads are
on their way to them. -/
theorem readers_woken (h : (machine T).run (opening T) es = some s) (ho : s.ending = false) :
    (∀ t c, s.phase t ≠ .asleep c) ∨ s.reports.length ≤ (woken s.phase).card := by
  have hserved := Machine.invariant (I := fun s => s.ending = false → Served s.reports s.phase) (fun _ => served_nil)
    (fun _ _ _ hi hs => served_step hi hs) h ho
  refine hserved.imp_left fun hall t c hp => ?_
  have ht := hall t
  rw [hp] at ht
  cases ht

/-- A thread that sleeps is woken by a report. -/
theorem readers_woken_one : ∃ s, (machine Bool).run (opening Bool)
    (untilRunning Bool ++ [.read true 8 (-1), .report [1] (some true)]) = some s ∧
    ((∀ t c, s.phase t ≠ .asleep c) ∨ s.reports.length ≤ (woken s.phase).card) := by
  have hrun : ((machine Bool).run (opening Bool)
      (untilRunning Bool ++ [.read true 8 (-1), .report [1] (some true)])).any (fun s => !s.ending) = true := by
    decide +kernel
  obtain ⟨s, hs, ho⟩ := (Option.any_eq_true _ _).mp hrun
  exact ⟨s, hs, readers_woken hs (by simpa using ho)⟩

/-! ## The end -/

/-- Once the thread has told the readers, none sleeps. -/
structure Told (s : Reading T) : Prop where
  stored : s.device.Stored
  awake : 7 ≤ s.device.reader.order → ∀ t, (s.phase t).isAsleep = false

omit [Fintype T] in
/-- Then a thread that has the mutex does not go to sleep. -/
theorem Told.goes (h : Told s) (hn : s.ending = true → ∀ c, n ≠ .sleep c) : Told (s.goes t n) := by
  refine ⟨(goes_device s t n).symm ▸ h.stored, fun hr => ?_⟩
  rw [goes_device] at hr
  have hending : s.ending = true := by
    rw [ending, Bool.or_eq_true]
    exact h.stored.ending (by omega)
  cases n with
  | take r rest => exact awake_update (h.awake hr) rfl
  | give code => exact awake_update (h.awake hr) rfl
  | sleep c => exact absurd rfl (hn hending c)

omit [DecidableEq T] [Fintype T] in
theorem hidReadTimeout_ending (ho : s.ending = true) (length : Nat) (milliseconds : Int) (c : Call) :
    s.hidReadTimeout length milliseconds ≠ .sleep c := by
  intro hc
  unfold hidReadTimeout at hc
  rw [ending, Bool.or_eq_true] at ho
  split at hc
  · cases hc
  · rcases ho with ho | ho
    · rw [ho] at hc
      split at hc <;> simp at hc
    · simp [ho] at hc

omit [DecidableEq T] [Fintype T] in
theorem condWait_ending (ho : s.ending = true) (c c' : Call) : s.condWait c ≠ .sleep c' := by
  rw [ending] at ho
  simp [condWait, ho]

theorem told_step (h : Told s) (hs : (machine T).step s e = some s') : Told s' := by
  cases step_does hs with
  | @device e d hd =>
    refine ⟨Device.stored_step h.stored hd, fun hr t => ?_⟩
    by_cases hb : e = .broadcast
    · simp only [hb, if_true]
      cases s.phase t <;> rfl
    · simp only [hb, if_false]
      exact h.awake ((Device.broadcast_of_stopped hd hr).resolve_right hb) t
  | @report r signaled phase hp =>
    refine ⟨h.stored, fun hr => ?_⟩
    have hall := h.awake hr
    cases signaled with
    | none =>
      simp only [signal, Option.ite_none_right_eq_some, Option.some.injEq] at hp
      exact hp.2 ▸ hall
    | some t => simp [signal, hall t] at hp
  | read hp => exact h.goes fun ho => hidReadTimeout_ending ho _ _
  | resume hp => exact h.goes fun ho => condWait_ending ho _
  | spurious hp | timeout hp => exact ⟨h.stored, fun hr => awake_update (h.awake hr) rfl⟩
  | expire hp => exact h.goes fun _ _ => nofun

theorem device_run (hw : ∀ e, .device e ∈ es → Device.Woken e) (h : (machine T).run (opening T) es = some s) :
    s.device.Sound := by
  refine Machine.invariant_along (I := fun s : Reading T => s.device.Sound)
    (C := fun _ e => ∀ d, e = ReadEvent.device d → Device.Woken d) Device.sound_opening ?_ h
    (Machine.along_of_forall (C := fun e => ∀ d, e = ReadEvent.device d → Device.Woken d) ?_ _)
  · intro s e s' hi hc hs
    cases step_does hs with
    | device hd => exact Device.sound_step hi (hc _ rfl) hd
    | read hp | resume hp | expire hp =>
      rw [goes_device]
      exact hi
    | report hp | spurious hp | timeout hp => exact hi
  · rintro e he d rfl
    exact hw d he

/-- **No reader is left asleep.** None sleeps when `read_thread` has told the readers to stop, and so none does either
when `hid_close` waits for the end of that thread, or frees the device. -/
theorem readers_told (h : (machine T).run (opening T) es = some s) :
    (ReaderPc.stopped.order ≤ s.device.reader.order → ∀ t c, s.phase t ≠ .asleep c) ∧
    ((∀ e, .device e ∈ es → Device.Woken e) → MainPc.joining.order ≤ s.device.main.order →
      ∀ t c, s.phase t ≠ .asleep c) := by
  have htold : Told s := Machine.invariant (I := fun s : Reading T => Told s)
    ⟨Device.sound_opening.stored, fun _ _ => rfl⟩ (fun _ _ _ hi hs => told_step hi hs) h
  have hawake : 7 ≤ s.device.reader.order → ∀ t c, s.phase t ≠ .asleep c := by
    intro hr t c hp
    have ht := htold.awake hr t
    rw [hp] at ht
    cases ht
  exact ⟨hawake, fun hw hm => hawake ((device_run hw h).stopped hm)⟩

/-- The device is pulled out while a thread sleeps. -/
theorem readers_told_removal : ∃ s, (machine Bool).run (opening Bool) (untilRunning Bool ++
    [.read true 8 (-1), .device .removal, .device .halt, .device .broadcast]) = some s ∧
    ∀ t c, s.phase t ≠ .asleep c := by
  have hrun : ((machine Bool).run (opening Bool) (untilRunning Bool ++
      [.read true 8 (-1), .device .removal, .device .halt, .device .broadcast])).any
      (fun s => s.device.reader = .stopped) = true := by decide +kernel
  obtain ⟨s, hs, hr⟩ := (Option.any_eq_true _ _).mp hrun
  refine ⟨s, hs, (readers_told hs).1 ?_⟩
  rw [of_decide_eq_true hr]

end Waking

end Reading

end SvrMnu.Hid
