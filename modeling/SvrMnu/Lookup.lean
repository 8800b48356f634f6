import SvrMnu.PortMapper
import SvrMnu.RunLoop

/-!
# findPublicAddress

A lookup opens a mapper that asks for no mapping, runs the run loop until the mapper has an error or an address, and
closes the mapper again.

- `answered` is what a lookup is for: the first pass of the run loop that ends with an error or an address decides;
- `findPublicAddress_run`: the code answers that, asks for no mapping, and gives back what it held.
-/

set_option autoImplicit false

namespace SvrMnu

open Sys

/-- What a lookup answers when `waitTillOpened` returns. -/
def Session.answer (x : Session) : Option String :=
  if x.status.error = 0 then stringFromIPv4Addr x.status.address else none

namespace PortMapper

/-- One `runMode:beforeDate:`: it has nothing to run, or it has called `serviceCallback` any number of times, since
other lookups may run the run loop inside it. -/
inductive Pass
  | stopped
  | ran (results : List Processed)

/-- The calls of `serviceCallback` in one pass, which end when the source is taken from the run loop. -/
def deliver : List Processed → Native PUnit
  | [] => pure ⟨⟩
  | p :: ps => do
    if (← get).mapper.socketSource.isSome then
      serviceCallback p
      deliver ps
    else pure ⟨⟩

/-- The condition of the loop in `waitTillOpened`. -/
def waits (m : PortMapper) : Bool := decide (m.error = 0) && m.publicAddress.isNone

/-- The loop and the return value of `waitTillOpened`; `none` if it still waits after these passes. -/
def waitLoop : List Pass → Native (Option Bool)
  | [] => do
    let m := (← get).mapper
    if m.waits then return none else return some (decide (m.error = 0))
  | pass :: passes => do
    let m := (← get).mapper
    if m.waits then
      match pass with
      | .stopped => return some (decide (m.error = 0))
      | .ran results => do
        deliver results
        waitLoop passes
    else return some (decide (m.error = 0))

def waitTillOpened (o : Opening) (passes : List Pass) : Native (Option Bool) := do
  if (← get).mapper.socketSource.isNone then
    if ← openMapper o then waitLoop passes else return some false
  else waitLoop passes

/-- The mapper of a lookup, before it is opened. -/
def lookupMapper : PortMapper := { initWithPort 0 with mapTCP := false, mapUDP := false }

/-- `findPublicAddress`, once `waitTillOpened` has returned. -/
def endLookup (opened : Bool) : Native (Option String) := do
  let m := (← get).mapper
  close
  return if opened then m.publicAddress else none

/-- `findPublicAddress`, from `waitTillOpened` on. -/
def lookup (o : Opening) (passes : List Pass) : Native (Option (Option String)) := do
  match ← waitTillOpened o passes with
  | none => return none
  | some opened => return some (← endLookup opened)

def findPublicAddress (o : Opening) (passes : List Pass) : EStateM Fault System (Option (Option String)) := fun S =>
  match lookup o passes ⟨lookupMapper, S⟩ with
  | .ok addr s => .ok addr s.system
  | .error e s => .error e s.system

/-! ## What a lookup is for -/

/-- The last thing that a pass has reported, as an error and an address: a failure of the connection comes last. -/
def reported : List Processed → Option (Int32 × UInt32)
  | [] => none
  | p :: ps =>
    if p.error ≠ 0 then some (p.error, 0)
    else (reported ps).or (p.replies.getLast?.map fun r => (r.errorCode, r.publicAddress))

/-- An error answers nil, and an address answers itself. -/
def decided : Int32 × UInt32 → Option (Option String)
  | (error, address) =>
    if error ≠ 0 then some none else if address ≠ 0 then some (stringFromIPv4Addr address) else none

def Pass.decides : Pass → Option (Option String)
  | stopped => some none
  | ran results => (reported results).bind decided

/-- The answer of a lookup: nil if it cannot be opened, else that of the first pass that decides. -/
def answered (o : Opening) (passes : List Pass) : Option (Option String) :=
  if o.opens then passes.findSome? Pass.decides else some none

variable {l : List (Resource × Nat)} {s : Host} {x : Session} {m : PortMapper}

/-! ## One pass -/

theorem foldl_closed (d : UInt16) (e : Int32) (ps : List Processed) :
    ps.foldl (fun x p => Session.process d p x) (.closed e) = .closed e := by
  induction ps with
  | nil => rfl
  | cons p ps ih => exact ih

/-- With no port asked for, every status is taken as it was reported. -/
theorem judge_zero (errorCode : Int32) (port : UInt16) : judge 0 errorCode port = errorCode := by
  simp [judge]

theorem process_opened (p : Processed) (last : Status) :
    Session.process 0 p (.opened last) =
      if p.error ≠ 0 then .closed p.error
      else .opened (p.replies.getLast?.elim last fun r => ⟨r.errorCode, r.publicAddress, ntohs r.publicPort⟩) := by
  simp only [Session.process, foldl_reply, judge_zero]

/-- A pass leaves what it has reported, or what was there before. -/
theorem foldl_process (ps : List Processed) (last : Status) :
    (fun st : Status => (st.error, st.address))
        (ps.foldl (fun x p => Session.process 0 p x) (.opened last)).status =
      (reported ps).getD (last.error, last.address) ∧
    ∀ e, ps.foldl (fun x p => Session.process 0 p x) (.opened last) = .closed e → e ≠ 0 := by
  induction ps generalizing last with
  | nil => exact ⟨rfl, fun e he => by cases he⟩
  | cons p ps ih =>
    rw [List.foldl_cons, process_opened]
    by_cases hp : p.error = 0
    · simp only [hp, ne_eq, not_true_eq_false, if_false, reported]
      obtain ⟨h₁, h₂⟩ := ih (p.replies.getLast?.elim last fun r => ⟨r.errorCode, r.publicAddress, ntohs r.publicPort⟩)
      refine ⟨h₁.trans ?_, h₂⟩
      cases reported ps with
      | some r => rfl
      | none => cases p.replies.getLast? <;> rfl
    · simp only [hp, ne_eq, not_false_eq_true, if_true, reported, foldl_closed]
      refine ⟨rfl, fun e he => ?_⟩
      cases he
      exact hp

theorem deliver_run (ps : List Processed) (hx : Shows x s.mapper) (hl : Holds l s) :
    ∃ s', deliver ps s = .ok ⟨⟩ s' ∧
      Shows (ps.foldl (fun x p => Session.process s.mapper.desiredPublicPort p x) x) s'.mapper ∧ Holds l s' ∧
      s'.mapper.settings = s.mapper.settings ∧ s'.system.requests = s.system.requests := by
  induction ps generalizing s x with
  | nil => exact ⟨s, rfl, hx, hl, rfl, rfl⟩
  | cons p ps ih =>
    unfold deliver
    rw [bind_ok (get_run s), hx.source]
    cases x with
    | closed e =>
      refine ⟨s, rfl, ?_, hl, rfl, rfl⟩
      rw [foldl_closed]
      exact hx
    | opened last =>
      obtain ⟨s₁, h₁, hs₁, hl₁, hset₁, hreq₁⟩ := serviceCallback_run hx hl p
      obtain ⟨s₂, h₂, hs₂, hl₂, hset₂, hreq₂⟩ := ih hs₁ hl₁
      refine ⟨s₂, ?_, ?_, hl₂, hset₂.trans hset₁, hreq₂.trans hreq₁⟩
      · show (serviceCallback p >>= fun _ => deliver ps) s = .ok ⟨⟩ s₂
        rw [bind_ok h₁]
        exact h₂
      · rw [desiredPublicPort_eq hset₁] at hs₂
        exact hs₂

/-! ## The wait -/

theorem stringFromIPv4Addr_isNone (a : UInt32) : (stringFromIPv4Addr a).isNone = decide (a = 0) := by
  unfold stringFromIPv4Addr
  by_cases h : a = 0 <;> simp [h]

theorem Shows.waits_iff (hx : Shows x m) : m.waits = true ↔ x.status.error = 0 ∧ x.status.address = 0 := by
  unfold waits
  rw [hx.error, hx.text, stringFromIPv4Addr_isNone, Bool.and_eq_true, decide_eq_true_iff, decide_eq_true_iff]

/-- Nothing has been decided as long as the loop goes on. -/
theorem decided_eq_none (r : Int32 × UInt32) : decided r = none ↔ r.1 = 0 ∧ r.2 = 0 := by
  obtain ⟨error, address⟩ := r
  unfold decided
  by_cases he : error = 0 <;> by_cases ha : address = 0 <;> simp [he, ha]

theorem waitLoop_done (h : s.mapper.waits = false) (ps : List Pass) :
    waitLoop ps s = .ok (some (decide (s.mapper.error = 0))) s := by
  cases ps <;>
    · unfold waitLoop
      rw [bind_ok (get_run s)]
      simp only [h, Bool.false_eq_true, if_false]
      rfl

theorem decided_eq_some {r : Int32 × UInt32} {a : Option String} (h : decided r = some a) :
    a = if r.1 = 0 then stringFromIPv4Addr r.2 else none := by
  obtain ⟨error, address⟩ := r
  unfold decided at h
  by_cases he : error = 0
  · by_cases ha : address = 0
    · simp [he, ha] at h
    · simpa [he, ha] using h.symm
  · simpa [he] using h.symm

/-- **The wait ends with the first pass that decides.** -/
theorem waitLoop_run (ps : List Pass) {last : Status} (hx : Shows (.opened last) s.mapper) (hl : Holds l s)
    (hd : s.mapper.desiredPublicPort = 0) (hlast : last.error = 0 ∧ last.address = 0) :
    ∃ r s' x, waitLoop ps s = .ok r s' ∧ Shows x s'.mapper ∧ Holds l s' ∧
      s'.system.requests = s.system.requests ∧ ps.findSome? Pass.decides = r.map (fun _ => x.answer) ∧
      ∀ opened, r = some opened → opened = decide (x.status.error = 0) := by
  have hwaits : s.mapper.waits = true := hx.waits_iff.mpr hlast
  have herror : s.mapper.error = 0 := hx.error.trans hlast.1
  induction ps generalizing s last with
  | nil =>
    refine ⟨none, s, .opened last, ?_, hx, hl, rfl, rfl, fun opened h => by cases h⟩
    unfold waitLoop
    rw [bind_ok (get_run s)]
    simp only [hwaits, if_true]
    rfl
  | cons pass ps ih =>
    cases pass with
    | stopped =>
      refine ⟨some true, s, .opened last, ?_, hx, hl, rfl, ?_, fun opened h => ?_⟩
      · unfold waitLoop
        rw [bind_ok (get_run s)]
        simp only [hwaits, if_true, herror, decide_true]
        rfl
      · have ha : Session.answer (.opened last) = none := by
          simp [Session.answer, Session.status, hlast, stringFromIPv4Addr]
        rw [Option.map_some, ha]
        rfl
      · simp [Session.status, hlast, ← Option.some.inj h]
    | ran results =>
      obtain ⟨s₁, h₁, hs₁, hl₁, hset₁, hreq₁⟩ := deliver_run results hx hl
      rw [hd] at hs₁
      have hd₁ : s₁.mapper.desiredPublicPort = 0 := (desiredPublicPort_eq hset₁).trans hd
      have hloop : waitLoop (.ran results :: ps) s = waitLoop ps s₁ := by
        rw [waitLoop]
        rw [bind_ok (get_run s)]
        simp only [hwaits, if_true]
        exact bind_ok h₁
      obtain ⟨hrep, hne⟩ := foldl_process results last
      let y := results.foldl (fun x p => Session.process 0 p x) (.opened last)
      have hdec : decided (y.status.error, y.status.address) = (reported results).bind decided := by
        show decided ((fun st : Status => (st.error, st.address)) y.status) = _
        rw [hrep, hlast.1, hlast.2]
        cases reported results <;> rfl
      have hfind : (Pass.ran results :: ps).findSome? Pass.decides =
          ((reported results).bind decided).or (ps.findSome? Pass.decides) := by
        rw [List.findSome?_cons]
        simp only [Pass.decides]
        cases (reported results).bind decided <;> rfl
      rw [hloop, hfind, ← hdec]
      cases hdy : decided (y.status.error, y.status.address) with
      | none =>
        have hzero : y.status.error = 0 ∧ y.status.address = 0 := (decided_eq_none _).mp hdy
        cases hy : y with
        | closed e =>
          rw [hy] at hzero
          exact absurd hzero.1 (hne e hy)
        | opened last₁ =>
          rw [hy] at hzero
          have hs₁ : Shows (.opened last₁) s₁.mapper := by
            rw [← hy]
            exact hs₁
          have hw₁ : s₁.mapper.waits = true := hs₁.waits_iff.mpr hzero
          obtain ⟨r, s', x, hr, hs', hl', hreq', hf, ho⟩ := ih hs₁ hl₁ hd₁ hzero hw₁ (hs₁.error.trans hzero.1)
          exact ⟨r, s', x, hr, hs', hl', hreq'.trans hreq₁, hf, ho⟩
      | some a =>
        have hw₁ : s₁.mapper.waits = false := by
          refine Bool.eq_false_iff.mpr fun hw => ?_
          rw [(decided_eq_none _).mpr (hs₁.waits_iff.mp hw)] at hdy
          cases hdy
        refine ⟨some (decide (s₁.mapper.error = 0)), s₁, y, waitLoop_done hw₁ ps, hs₁, hl₁, hreq₁, ?_,
          fun opened h => ?_⟩
        · rw [decided_eq_some hdy]
          rfl
        · rw [← Option.some.inj h, hs₁.error]

/-! ## The lookup -/

theorem endLookup_run (hx : Shows x s.mapper) (hl : Holds l s) (opened : Bool) :
    ∃ s', endLookup opened s = .ok (if opened then stringFromIPv4Addr x.status.address else none) s' ∧
      s'.system.handles.live.Perm l ∧ s'.system.requests = s.system.requests := by
  obtain ⟨s', hr, hs, hl', -, hreq⟩ := close_run hx hl
  refine ⟨s', ?_, ?_, hreq⟩
  · unfold endLookup
    rw [bind_ok (get_run s)]
    simp only [hx.text]
    exact bind_ok hr
  · have := hl'
    unfold Holds at this
    rwa [held_closed hs] at this

theorem shows_lookupMapper : Shows (.closed 0) lookupMapper := ⟨rfl, rfl, rfl, rfl, rfl, rfl, rfl⟩

/-- No port and no protocol: no mapping is created. -/
theorem request_lookupMapper : lookupMapper.request = ⟨0, 0, 0⟩ := by decide

theorem start_closed {o : Opening} (h : o.opens = true) (e : Int32) :
    Session.start o (.closed e) = .opened ⟨0, 0, 0⟩ := by
  have he : o.error = 0 := by
    unfold Opening.opens at h
    simp only [Bool.and_eq_true, decide_eq_true_eq] at h
    exact h.1.1
  simp [Session.start, he, h]

/-- **`findPublicAddress`** never faults. Once it returns, its answer is that of the first pass that decides; it has
asked for no port and no protocol, and no handle is live that was not before. -/
theorem findPublicAddress_run (o : Opening) (ps : List Pass) (S : System) :
    ∃ S', findPublicAddress o ps S = .ok (answered o ps) S' ∧ S'.requests = S.requests ++ [⟨0, 0, 0⟩] ∧
      (answered o ps ≠ none → S'.handles.live.Perm S.handles.live) := by
  have hl : Holds S.handles.live ⟨lookupMapper, S⟩ := by
    unfold Holds
    rw [held_closed shows_lookupMapper]
    exact List.Perm.refl _
  obtain ⟨s₁, h₁, hs₁, hl₁, hset₁, hreq₁⟩ := openMapper_run shows_lookupMapper hl o
  have hreq₁ : s₁.system.requests = S.requests ++ [⟨0, 0, 0⟩] := request_lookupMapper ▸ hreq₁
  have hopen : waitTillOpened o ps ⟨lookupMapper, S⟩ =
      (if o.opens then waitLoop ps else return some false) s₁ := by
    unfold waitTillOpened
    rw [bind_ok (get_run _)]
    exact bind_ok h₁
  -- the end of a lookup in the session `x`
  have hend {s' : Host} {x : Session} {opened : Bool}
      (hw : waitTillOpened o ps ⟨lookupMapper, S⟩ = .ok (some opened) s')
      (hx : Shows x s'.mapper) (hl' : Holds S.handles.live s') (hreq : s'.system.requests = s₁.system.requests) :
      ∃ S', findPublicAddress o ps S = .ok (some (if opened then stringFromIPv4Addr x.status.address else none)) S' ∧
        S'.requests = S.requests ++ [⟨0, 0, 0⟩] ∧ S'.handles.live.Perm S.handles.live := by
    obtain ⟨t, ht, hlt, hreqt⟩ := endLookup_run hx hl' opened
    refine ⟨t.system, ?_, (hreqt.trans hreq).trans hreq₁, hlt⟩
    have hr : lookup o ps ⟨lookupMapper, S⟩ =
        .ok (some (if opened then stringFromIPv4Addr x.status.address else none)) t := by
      unfold lookup
      rw [bind_ok hw]
      exact bind_ok ht
    simp only [findPublicAddress, hr]
  cases ho : o.opens with
  | false =>
    rw [ho] at hopen
    have hanswer : answered o ps = some none := by simp [answered, ho]
    obtain ⟨S', hr, hreq, hlive⟩ := hend (hopen.trans rfl) hs₁ hl₁ rfl
    rw [hanswer]
    exact ⟨S', hr, hreq, fun _ => hlive⟩
  | true =>
    rw [ho] at hopen
    rw [start_closed ho] at hs₁
    have hanswer : answered o ps = ps.findSome? Pass.decides := by simp [answered, ho]
    obtain ⟨r, s', x, hr, hx, hl', hreq, hf, hopened⟩ :=
      waitLoop_run ps hs₁ hl₁ (desiredPublicPort_eq hset₁) ⟨rfl, rfl⟩
    rw [hanswer, hf]
    cases r with
    | none =>
      refine ⟨s'.system, ?_, hreq.trans hreq₁, fun h => absurd rfl h⟩
      have hw : waitTillOpened o ps ⟨lookupMapper, S⟩ = .ok none s' := hopen.trans hr
      have hlookup : lookup o ps ⟨lookupMapper, S⟩ = .ok none s' := by
        unfold lookup
        rw [bind_ok hw]
        rfl
      simp only [findPublicAddress, hlookup]
      rfl
    | some opened =>
      obtain ⟨S', hres, hreqs, hlive⟩ := hend (hopen.trans hr) hx hl' hreq
      refine ⟨S', ?_, hreqs, fun _ => hlive⟩
      rw [hres]
      simp only [Option.map_some, Session.answer, hopened opened rfl, decide_eq_true_eq]

end PortMapper

end SvrMnu
