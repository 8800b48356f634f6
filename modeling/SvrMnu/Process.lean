import SvrMnu.Lookup
import Mathlib.Algebra.Order.BigOperators.Group.List

/-!
# The lookups of the whole application

Each `makeMenus` that waits is a lookup with a mapper of its own. While the innermost one runs the run loop, the replies
for all of them are delivered, and the outer ones only see theirs when the inner ones have returned. `Process` is the
nested run loops with the mappers and the handles of the process; an exception leaves the mappers of the lookups it ends
as they are.

- `process_projects`: every run of the process is one of the run loops, with answers that are nil or an address;
- `owned_run`: the live handles are those of the mappers, and no mapping is ever asked for;
- `handles_returned`: without an exception that ends a lookup, the live handles are those of the lookups that wait;
- `leak_stays`: what an exception leaves open stays open for as long as its connection works.
-/

set_option autoImplicit false

namespace SvrMnu

open Sys PortMapper

variable {ι : Type} [DecidableEq ι]

structure Process (ι : Type) where
  loop : RunLoop ι
  /-- The mappers of the lookups that wait, the innermost first, and after them those of lookups that were ended. -/
  mappers : List PortMapper
  system : System

inductive ProcessEvent (ι : Type)
  /-- An activity of the run loop; `o` is for the lookup it may start. -/
  | activity (a : Activity ι) (o : Opening)
  /-- The `serviceCallback` of a mapper. -/
  | deliver (k : Nat) (p : Processed)
  /-- The innermost lookup returns, and the code after it goes on, perhaps to another lookup. -/
  | answer (stopped : Bool) (installed : ι → Bool) (o : Opening)

namespace Process

/-- After an activity that found `depth` lookups waiting: one more is started, or none. -/
def settle (o : Opening) (S : System) (ms : List PortMapper) (depth : Nat) (loop : RunLoop ι) : Option (Process ι) :=
  if depth < loop.stack.length then
    match openMapper o ⟨lookupMapper, S⟩ with
    | .ok _ s => some ⟨loop, s.mapper :: ms, s.system⟩
    | .error _ _ => none
  else some ⟨loop, ms, S⟩

def step (bar : MenuBar ι) (P : Process ι) : ProcessEvent ι → Option (Process ι)
  | .activity (.answer _ _) _ => none
  | .activity a o => (RunLoop.step bar P.loop a).bind (settle o P.system P.mappers P.loop.stack.length)
  | .deliver k p =>
    match P.mappers[k]? with
    | none => none
    | some m =>
      if m.socketSource.isSome then
        match serviceCallback p ⟨m, P.system⟩ with
        | .ok _ s => some { P with mappers := P.mappers.set k s.mapper, system := s.system }
        | .error _ _ => none
      else none
  | .answer stopped installed o =>
    match P.mappers with
    | [] => none
    | m :: ms =>
      if m.waits && !stopped then none
      else
        match endLookup (decide (m.error = 0)) ⟨m, P.system⟩ with
        | .ok addr s =>
          (RunLoop.step bar P.loop (.answer addr installed)).bind (settle o s.system ms (P.loop.stack.length - 1))
        | .error _ _ => none

def machine (bar : MenuBar ι) : Machine (Process ι) (ProcessEvent ι) := ⟨step bar⟩

def launch (L : Launch ι) : Process ι := ⟨RunLoop.launch L, [], ⟨Handles.empty, []⟩⟩

/-! ## Who holds the handles -/

/-- The mappers are mappers of lookups, and every live handle belongs to one of them. -/
structure Owned (S : System) (ms : List PortMapper) : Prop where
  shows : ∀ m ∈ ms, (∃ x, Shows x m) ∧ m.settings = lookupMapper.settings
  live : S.handles.live.Perm (ms.flatMap held)
  requests : ∀ q ∈ S.requests, q = ⟨0, 0, 0⟩

variable {S : System} {ms : List PortMapper} {m : PortMapper}

theorem owned_open (h : Owned S ms) (o : Opening) :
    ∃ s, openMapper o ⟨lookupMapper, S⟩ = .ok o.opens s ∧ Owned s.system (s.mapper :: ms) := by
  have hl : Holds (ms.flatMap held) ⟨lookupMapper, S⟩ := by
    unfold Holds
    rw [held_closed shows_lookupMapper]
    exact h.live
  obtain ⟨s, hr, hs, hl', hset, hreq⟩ := openMapper_run shows_lookupMapper hl o
  refine ⟨s, hr, ?_, hl', fun q hq => ?_⟩
  · intro m hm
    rcases List.mem_cons.mp hm with rfl | hm
    · exact ⟨⟨_, hs⟩, hset⟩
    · exact h.shows m hm
  · rw [hreq] at hq
    rcases List.mem_append.mp hq with hq | hq
    · exact h.requests q hq
    · exact (List.mem_singleton.mp hq).trans request_lookupMapper

/-- Each mapper in turn is the one whose handles come first. -/
theorem Owned.holds (h : Owned S ms) (hm : m ∈ ms) : ∃ l, Holds l ⟨m, S⟩ := by
  obtain ⟨l₁, l₂, rfl⟩ := List.append_of_mem hm
  exact ⟨(l₁ ++ l₂).flatMap held, h.live.trans (List.perm_middle.flatMap_right held)⟩

theorem owned_deliver (h : Owned S ms) {k : Nat} (hk : ms[k]? = some m) (ha : m.socketSource.isSome = true)
    (p : Processed) :
    ∃ s, serviceCallback p ⟨m, S⟩ = .ok ⟨⟩ s ∧ Owned s.system (ms.set k s.mapper) := by
  obtain ⟨hlt, rfl⟩ := List.getElem?_eq_some_iff.mp hk
  obtain ⟨⟨x, hx⟩, hset⟩ := h.shows _ (List.getElem_mem hlt)
  have hl : Holds ((ms.eraseIdx k).flatMap held) ⟨ms[k], S⟩ :=
    h.live.trans ((List.getElem_cons_eraseIdx_perm hlt).symm.flatMap_right held)
  cases x with
  | closed e =>
    rw [hx.source] at ha
    cases ha
  | opened last =>
    obtain ⟨s, hr, hs, hl', hset', hreq⟩ := serviceCallback_run hx hl p
    refine ⟨s, hr, fun m hm => ?_, ?_, hreq ▸ h.requests⟩
    · rcases List.mem_or_eq_of_mem_set hm with hm | rfl
      · exact h.shows m hm
      · exact ⟨⟨_, hs⟩, hset'.trans hset⟩
    · exact hl'.trans ((List.set_perm_cons_eraseIdx hlt s.mapper).symm.flatMap_right held)

theorem owned_answer (h : Owned S (m :: ms)) (opened : Bool) :
    ∃ s x, Shows x m ∧ endLookup opened ⟨m, S⟩ = .ok (if opened then stringFromIPv4Addr x.status.address else none) s ∧
      Owned s.system ms := by
  obtain ⟨⟨x, hx⟩, -⟩ := h.shows m List.mem_cons_self
  have hl : Holds (ms.flatMap held) ⟨m, S⟩ := h.live
  obtain ⟨s, hr, hl', hreq⟩ := endLookup_run hx hl opened
  exact ⟨s, x, hx, hr, fun m hm => h.shows m (List.mem_cons_of_mem _ hm), hl', hreq ▸ h.requests⟩

/-! ## One event -/

section Stacks

variable {bar : MenuBar ι} {s s' : RunLoop ι}

omit [DecidableEq ι] in
theorem settle_stack (stack : List (Frame ι)) (x : ObjC (World ι) (Option (Frame ι))) (w : World ι) :
    (RunLoop.settle stack (x w)).stack = stack ∨ (∃ f, (RunLoop.settle stack (x w)).stack = f :: stack) ∨
      (Raises x w ∧ (RunLoop.settle stack (x w)).stack = []) := by
  cases hx : x w with
  | error e w' => exact Or.inr (Or.inr ⟨⟨e, w', hx⟩, rfl⟩)
  | ok f w' =>
    cases f with
    | none => exact Or.inl rfl
    | some f => exact Or.inr (Or.inl ⟨f, rfl⟩)

/-- The lookups that wait below an activity: an answer ends the innermost one first. -/
def below (stack : List (Frame ι)) : Activity ι → List (Frame ι)
  | .answer _ _ => stack.tail
  | _ => stack

/-- An activity starts one lookup or none, or it raises and ends them all. -/
theorem stack_cases {a : Activity ι} (h : RunLoop.step bar s a = some s') :
    s'.stack = below s.stack a ∨ (∃ f, s'.stack = f :: below s.stack a) ∨
      (RunLoop.Raised bar s a ∧ s'.stack = []) := by
  cases a with
  | callback e =>
    simp only [RunLoop.step] at h
    split at h
    · cases h
    · obtain ⟨w, -, rfl⟩ := Option.map_eq_some_iff.mp h
      exact Or.inl rfl
  | makeMenus m installed =>
    simp only [RunLoop.step] at h
    split at h
    · cases Option.some.inj h
      exact settle_stack s.stack (World.startMenus m installed) (s.world.dequeue m)
    · cases h
  | setPrimaryMnu m installed =>
    simp only [RunLoop.step] at h
    split at h
    · cases Option.some.inj h
      exact settle_stack s.stack (World.startPrimary bar m installed) s.world
    · cases h
  | answer addr installed =>
    simp only [RunLoop.step] at h
    split at h
    · cases h
    · next f stack hst =>
      cases Option.some.inj h
      have hbelow : below s.stack (.answer addr installed) = stack := by rw [hst]; rfl
      rw [hbelow]
      rcases settle_stack stack (World.resumeFrame bar f addr installed) s.world with hs | hs | ⟨hr, hs⟩
      · exact Or.inl hs
      · exact Or.inr (Or.inl hs)
      · refine Or.inr (Or.inr ⟨⟨f, ?_, hr⟩, hs⟩)
        rw [hst]
        rfl

end Stacks

section Steps

variable {bar : MenuBar ι} {P P' : Process ι} {e : ProcessEvent ι}

/-- The answer of a lookup that returns now. -/
def address (m : PortMapper) : Option String := if m.error = 0 then m.publicAddress else none

/-- The activity of the run loops in an event, if there is one. -/
def loopActivity (P : Process ι) : ProcessEvent ι → Option (Activity ι)
  | .activity a _ => some a
  | .deliver _ _ => none
  | .answer _ installed _ => some (.answer (P.mappers.head?.bind address) installed)

/-- The activity `a` of the run loops, with `ms` for the mappers of the lookups below it and of those ended before. -/
structure Moves (bar : MenuBar ι) (P P' : Process ι) (a : Activity ι) (ms : List PortMapper) : Prop where
  step : RunLoop.step bar P.loop a = some P'.loop
  left : (P.mappers = ms ∧ below P.loop.stack a = P.loop.stack) ∨
    ∃ m f, P.mappers = m :: ms ∧ P.loop.stack = f :: below P.loop.stack a
  started : (P'.mappers = ms ∧ P'.loop.stack.length ≤ (below P.loop.stack a).length) ∨
    ∃ m, P'.mappers = m :: ms ∧ (below P.loop.stack a).length < P'.loop.stack.length
  owned : Owned P'.system P'.mappers

omit [DecidableEq ι] in
theorem settle_cases {o : Opening} {S : System} {ms : List PortMapper} {depth : Nat} {loop : RunLoop ι}
    (ho : Owned S ms) (h : settle o S ms depth loop = some P') :
    P'.loop = loop ∧ Owned P'.system P'.mappers ∧
      ((P'.mappers = ms ∧ loop.stack.length ≤ depth) ∨ ∃ m, P'.mappers = m :: ms ∧ depth < loop.stack.length) := by
  unfold settle at h
  split at h
  · next hd =>
    obtain ⟨s, hr, hs⟩ := owned_open ho o
    rw [hr] at h
    cases Option.some.inj h
    exact ⟨rfl, hs, Or.inr ⟨s.mapper, rfl, hd⟩⟩
  · next hd =>
    cases Option.some.inj h
    exact ⟨rfl, ho, Or.inl ⟨rfl, Nat.le_of_not_lt hd⟩⟩

/-- **What an event does**: it is a reply for a mapper, or an activity of the run loops that may start a lookup. -/
theorem step_cases (ho : Owned P.system P.mappers) (h : step bar P e = some P') :
    (∃ k p m s, e = .deliver k p ∧ P.mappers[k]? = some m ∧ m.socketSource.isSome = true ∧
      serviceCallback p ⟨m, P.system⟩ = .ok ⟨⟩ s ∧ Owned s.system (P.mappers.set k s.mapper) ∧
      P' = { P with mappers := P.mappers.set k s.mapper, system := s.system }) ∨
    ∃ a ms, loopActivity P e = some a ∧ Moves bar P P' a ms := by
  cases e with
  | activity a o =>
    have hs : (RunLoop.step bar P.loop a).bind (settle o P.system P.mappers P.loop.stack.length) = some P' ∧
        below P.loop.stack a = P.loop.stack := by
      cases a with
      | answer addr installed => simp [step] at h
      | callback | makeMenus | setPrimaryMnu => exact ⟨h, rfl⟩
    obtain ⟨loop, hl, hset⟩ := Option.bind_eq_some_iff.mp hs.1
    obtain ⟨rfl, howned, hstart⟩ := settle_cases ho hset
    refine Or.inr ⟨a, P.mappers, rfl, hl, Or.inl ⟨rfl, hs.2⟩, ?_, howned⟩
    rw [hs.2]
    exact hstart
  | deliver k p =>
    simp only [step] at h
    cases hk : P.mappers[k]? with
    | none => simp [hk] at h
    | some m =>
      rw [hk] at h
      simp only at h
      split at h
      · next ha =>
        obtain ⟨s, hr, hs⟩ := owned_deliver ho hk ha p
        rw [hr] at h
        cases Option.some.inj h
        exact Or.inl ⟨k, p, m, s, rfl, hk, ha, hr, hs, rfl⟩
      · cases h
  | answer stopped installed o =>
    simp only [step] at h
    cases hm : P.mappers with
    | nil => simp [hm] at h
    | cons m ms =>
      rw [hm] at h ho
      simp only at h
      split at h
      · cases h
      · obtain ⟨s, x, hx, hr, hs⟩ := owned_answer ho (decide (m.error = 0))
        rw [hr] at h
        have haddr : (if decide (m.error = 0) = true then stringFromIPv4Addr x.status.address else none) =
            address m := by
          unfold address
          rw [hx.text]
          simp only [decide_eq_true_eq]
        simp only [haddr] at h
        obtain ⟨loop, hl, hset⟩ := Option.bind_eq_some_iff.mp h
        have hstack : ∃ f, P.loop.stack = f :: below P.loop.stack (.answer (address m) installed) := by
          simp only [RunLoop.step] at hl
          split at hl
          · cases hl
          · next f stack hst => exact ⟨f, by rw [hst]; rfl⟩
        obtain ⟨f, hf⟩ := hstack
        obtain ⟨rfl, howned, hstart⟩ := settle_cases hs hset
        refine Or.inr ⟨.answer (address m) installed, ms, ?_, hl, Or.inr ⟨m, f, hm, hf⟩, ?_, howned⟩
        · simp only [loopActivity, hm]
          rfl
        · have hlen : P.loop.stack.length - 1 = (below P.loop.stack (.answer (address m) installed)).length := by
            rw [hf]
            rfl
          rw [← hlen]
          exact hstart

/-- The handles of the process belong to its mappers, of which those that wait are the first. -/
structure Kept (P : Process ι) : Prop where
  owned : Owned P.system P.mappers
  waiting : P.loop.stack.length ≤ P.mappers.length

omit [DecidableEq ι] in
theorem kept_launch [DecidableEq ι] (L : Launch ι) : Kept (launch L) :=
  ⟨⟨fun _ hm => absurd hm List.not_mem_nil, List.Perm.refl _, fun _ hq => absurd hq List.not_mem_nil⟩, le_refl _⟩

theorem Moves.stack_le {a : Activity ι} {ms : List PortMapper} (hm : Moves bar P P' a ms) :
    P'.loop.stack.length ≤ (below P.loop.stack a).length + 1 := by
  rcases stack_cases hm.step with hs | ⟨f, hs⟩ | ⟨-, hs⟩ <;> rw [hs]
  · exact Nat.le_succ _
  · exact le_refl _
  · exact Nat.zero_le _

/-- The mappers stand for the lookups that wait on top of some others, before the event and after it. -/
theorem Moves.mappers {a : Activity ι} {ms top base : List PortMapper} (hm : Moves bar P P' a ms)
    (h : P.mappers = top ++ base) (hle : P.loop.stack.length ≤ top.length) :
    ∃ top', P'.mappers = top' ++ base ∧ P'.loop.stack.length ≤ top'.length := by
  have hleft : ∃ t, ms = t ++ base ∧ (below P.loop.stack a).length ≤ t.length := by
    rcases hm.left with ⟨hl, hb⟩ | ⟨m, f, hl, hb⟩
    · exact ⟨top, hl.symm.trans h, by rwa [hb]⟩
    · cases top with
      | nil =>
        rw [hb] at hle
        exact absurd hle (by simp)
      | cons t ts =>
        rw [h] at hl
        obtain ⟨-, hts⟩ := List.cons.inj hl
        rw [hb] at hle
        exact ⟨ts, hts.symm, Nat.le_of_succ_le_succ hle⟩
  obtain ⟨t, rfl, ht⟩ := hleft
  rcases hm.started with ⟨hs, hle'⟩ | ⟨m, hs, -⟩
  · exact ⟨t, hs, hle'.trans ht⟩
  · exact ⟨m :: t, hs, hm.stack_le.trans (Nat.succ_le_succ ht)⟩

theorem kept_step (hk : Kept P) (h : (machine bar).step P e = some P') : Kept P' := by
  rcases step_cases hk.owned h with ⟨k, p, m, s, -, -, -, -, hs, rfl⟩ | ⟨a, ms, -, hm⟩
  · exact ⟨hs, by rw [List.length_set]; exact hk.waiting⟩
  · obtain ⟨top, ht, hle⟩ := hm.mappers (List.append_nil P.mappers).symm hk.waiting
    rw [List.append_nil] at ht
    exact ⟨hm.owned, ht ▸ hle⟩

end Steps

/-! ## Runs -/

section Runs

variable {L : Launch ι} {es : List (ProcessEvent ι)} {P : Process ι}

theorem kept_run (h : (machine L.bar).run (launch L) es = some P) : Kept P :=
  Machine.invariant (kept_launch L) (fun _ _ _ hk hs => kept_step hk hs) h

omit [DecidableEq ι] in
theorem address_cases {m : PortMapper} {x : Session} (hx : Shows x m) :
    address m = none ∨ ∃ raw, raw ≠ 0 ∧ address m = stringFromIPv4Addr raw := by
  unfold address
  rw [hx.text]
  by_cases he : m.error = 0
  · by_cases ha : x.status.address = 0
    · exact Or.inl (by simp [he, ha, stringFromIPv4Addr])
    · exact Or.inr ⟨_, ha, if_pos he⟩
  · exact Or.inl (if_neg he)

/-- **The process runs the run loops.** What holds of every nested run holds of every run with its lookups, and there
the lookups answer nil or an address. -/
theorem process_projects (h : (machine L.bar).run (launch L) es = some P) :
    ∃ as, (RunLoop.machine L.bar).run (RunLoop.launch L) as = some P.loop ∧
      ∀ addr installed, .answer addr installed ∈ as →
        addr = none ∨ ∃ raw, raw ≠ 0 ∧ addr = stringFromIPv4Addr raw := by
  let I (P : Process ι) : Prop := ∃ as, (RunLoop.machine L.bar).run (RunLoop.launch L) as = some P.loop ∧
    ∀ addr installed, .answer addr installed ∈ as → addr = none ∨ ∃ raw, raw ≠ 0 ∧ addr = stringFromIPv4Addr raw
  have hi : Kept P ∧ I P := by
    refine Machine.invariant (I := fun P => Kept P ∧ I P) ⟨kept_launch L, [], rfl, fun _ _ ha => by cases ha⟩ ?_ h
    rintro P e P' ⟨hk, as, has, haddr⟩ hs
    refine ⟨kept_step hk hs, ?_⟩
    rcases step_cases hk.owned hs with ⟨k, p, m, s, -, -, -, -, -, rfl⟩ | ⟨a, ms, ha, hm⟩
    · exact ⟨as, has, haddr⟩
    · refine ⟨as ++ [a], ?_, fun addr installed hmem => ?_⟩
      · rw [Machine.run_snoc, has]
        exact hm.step
      rcases List.mem_append.mp hmem with hmem | hmem
      · exact haddr addr installed hmem
      · cases List.mem_singleton.mp hmem
        rcases hm.left with ⟨-, hb⟩ | ⟨m, f, hl, -⟩
        · -- an answer is for a lookup that waits
          have hstack : P.loop.stack = [] := by
            cases hst : P.loop.stack with
            | nil => rfl
            | cons f rest =>
              rw [hst] at hb
              exact absurd (congrArg List.length hb) (by simp [below])
          have hnone := hm.step
          simp [RunLoop.step, hstack] at hnone
        · obtain ⟨⟨x, hx⟩, -⟩ := hk.owned.shows m (by rw [hl]; exact List.mem_cons_self)
          have hcases := address_cases hx
          cases e with
          | activity b o =>
            cases Option.some.inj ha
            simp [machine, step] at hs
          | deliver k p => cases ha
          | answer stopped inst o =>
            have : addr = address m := by
              have he := (Activity.answer.inj (Option.some.inj ha)).1
              rw [hl] at he
              exact he.symm
            rwa [this]
  exact hi.2

/-- The first reply of a launch, and its `makeMenus` with the lookup it waits for. -/
def lookingUp : List (ProcessEvent Mnu) :=
  [.activity (.callback .runRefresh) ⟨0, true, true⟩,
    .activity (.callback (.complete .wfhMenu 0 (.data (some onePlayer)))) ⟨0, true, true⟩,
    .activity (.makeMenus .wfhMenu true) ⟨0, true, true⟩, .deliver 0 ⟨[⟨0, 0x0100000A, 0⟩], 0⟩]

theorem lookingUp_run : ∃ P, (machine appBar).run (launch firstLaunch) lookingUp = some P ∧
    P.loop.stack = [⟨.wfhMenu, .queued⟩] ∧ P.system.handles.live.length = 3 := by
  have hrun : ((machine appBar).run (launch firstLaunch) lookingUp).any (fun P =>
      P.loop.stack == [⟨.wfhMenu, .queued⟩] && P.system.handles.live.length == 3) = true := by decide +kernel
  obtain ⟨P, hP, hp⟩ := (Option.any_eq_true _ _).mp hrun
  simp only [Bool.and_eq_true, beq_iff_eq] at hp
  exact ⟨P, hP, hp.1, hp.2⟩

/-- **Handles are used while they are live.** In every run, exceptions included, the live handles are those of the
mappers, three for one that is open and none for one that is closed; replies can be delivered and lookups can return
without a fault; and no mapping is ever asked for. -/
theorem owned_run (h : (machine L.bar).run (launch L) es = some P) :
    P.system.handles.live.Perm (P.mappers.flatMap held) ∧
    (∀ m ∈ P.mappers, m.held.length = if m.service.isSome then 3 else 0) ∧
    (∀ m ∈ P.mappers, (m.socketSource.isSome → ∀ p, ¬ Raises (serviceCallback p) ⟨m, P.system⟩) ∧
      ∀ opened, ¬ Raises (endLookup opened) ⟨m, P.system⟩) ∧
    ∀ q ∈ P.system.requests, q = ⟨0, 0, 0⟩ := by
  have ho := (kept_run h).owned
  refine ⟨ho.live, fun m hm => ?_, fun m hm => ?_, ho.requests⟩
  · obtain ⟨⟨x, hx⟩, -⟩ := ho.shows m hm
    exact hx.length_held
  · obtain ⟨⟨x, hx⟩, -⟩ := ho.shows m hm
    obtain ⟨l, hl⟩ := ho.holds hm
    refine ⟨fun ha p => ?_, fun opened => ?_⟩
    · cases x with
      | closed e =>
        rw [hx.source] at ha
        cases ha
      | opened last =>
        obtain ⟨s, hr, -⟩ := serviceCallback_run hx hl p
        exact not_raises_of_ok hr
    · obtain ⟨s, hr, -⟩ := endLookup_run hx hl opened
      exact not_raises_of_ok hr

theorem process_projects_lookingUp : ∃ P as, (machine appBar).run (launch firstLaunch) lookingUp = some P ∧
    (RunLoop.machine appBar).run (RunLoop.launch firstLaunch) as = some P.loop := by
  obtain ⟨P, hP, -⟩ := lookingUp_run
  obtain ⟨as, has, -⟩ := process_projects (L := firstLaunch) hP
  exact ⟨P, as, hP, has⟩

theorem owned_lookingUp : ∃ P, (machine appBar).run (launch firstLaunch) lookingUp = some P ∧
    P.system.handles.live.length = 3 ∧ P.system.handles.live.Perm (P.mappers.flatMap held) := by
  obtain ⟨P, hP, -, hlive⟩ := lookingUp_run
  exact ⟨P, hP, hlive, (owned_run (L := firstLaunch) hP).1⟩

/-! ## Exceptions -/

/-- An exception in the event ends a lookup that waits. -/
def Ends (bar : MenuBar ι) (P : Process ι) (e : ProcessEvent ι) : Prop :=
  ∃ a ∈ loopActivity P e, RunLoop.Raised bar P.loop a ∧ below P.loop.stack a ≠ []

instance (bar : MenuBar ι) (P : Process ι) (e : ProcessEvent ι) : Decidable (Ends bar P e) :=
  inferInstanceAs (Decidable (∃ a ∈ loopActivity P e, _))

omit [DecidableEq ι] in
theorem live_le {S : System} {ms : List PortMapper} (h : Owned S ms) : S.handles.live.length ≤ 3 * ms.length := by
  have hheld (n : Nat) (hn : n ∈ ms.map fun m => m.held.length) : n ≤ 3 := by
    obtain ⟨m, hm, rfl⟩ := List.mem_map.mp hn
    obtain ⟨⟨x, hx⟩, -⟩ := h.shows m hm
    rw [hx.length_held]
    split <;> omega
  have hsum := List.sum_le_card_nsmul _ 3 hheld
  rw [h.live.length_eq, List.length_flatMap]
  rw [List.length_map, Nat.nsmul_eq_mul] at hsum
  omega

/-- Without an exception that ends a lookup there is a mapper for each that waits, and no other. -/
theorem mappers_eq (h : (machine L.bar).run (launch L) es = some P)
    (hc : (machine L.bar).Along (fun P e => ¬ Ends L.bar P e) (launch L) es) :
    P.mappers.length = P.loop.stack.length := by
  have hi : Kept P ∧ P.mappers.length = P.loop.stack.length := by
    refine Machine.invariant_along (I := fun P => Kept P ∧ P.mappers.length = P.loop.stack.length)
      ⟨kept_launch L, rfl⟩ ?_ h hc
    rintro P e P' ⟨hk, hlen⟩ hne hs
    refine ⟨kept_step hk hs, ?_⟩
    rcases step_cases hk.owned hs with ⟨k, p, m, s, -, -, -, -, -, rfl⟩ | ⟨a, ms, ha, hm⟩
    · rw [List.length_set]
      exact hlen
    · have hms : ms.length = (below P.loop.stack a).length := by
        rcases hm.left with ⟨hl, hb⟩ | ⟨m, f, hl, hb⟩
        · rw [hb, ← hl, hlen]
        · rw [hl, hb] at hlen
          exact Nat.succ_injective hlen
      have hstack : (below P.loop.stack a).length ≤ P'.loop.stack.length := by
        rcases stack_cases hm.step with hst | ⟨f, hst⟩ | ⟨hr, hst⟩
        · rw [hst]
        · rw [hst]
          exact Nat.le_succ _
        · by_cases hb : below P.loop.stack a = []
          · rw [hb]
            exact Nat.zero_le _
          · exact absurd ⟨a, ha, hr, hb⟩ hne
      have hle := hm.stack_le
      rcases hm.started with ⟨hs', hge⟩ | ⟨m, hs', hlt⟩
      · rw [hs']
        omega
      · rw [hs', List.length_cons]
        omega
  exact hi.2

/-- **Every lookup gives back what it holds.** In runs in which no exception ends a lookup that waits, there are three
live handles at most for each of them, and none when none waits. -/
theorem handles_returned (h : (machine L.bar).run (launch L) es = some P)
    (hc : (machine L.bar).Along (fun P e => ¬ Ends L.bar P e) (launch L) es) :
    P.system.handles.live.length ≤ 3 * P.loop.stack.length ∧
      (P.loop.stack = [] → P.system.handles.live = []) := by
  have hle := live_le (kept_run h).owned
  rw [mappers_eq h hc] at hle
  refine ⟨hle, fun hs => ?_⟩
  rw [hs] at hle
  exact List.length_eq_zero_iff.mp (Nat.le_zero.mp hle)

theorem handles_returned_lookingUp : ∃ P, (machine appBar).run (launch firstLaunch)
      (lookingUp ++ [.answer false (fun _ => true) ⟨0, true, true⟩]) = some P ∧
    P.loop.stack = [] ∧ P.system.handles.live = [] := by
  have hrun : ((machine appBar).run (launch firstLaunch)
      (lookingUp ++ [.answer false (fun _ => true) ⟨0, true, true⟩])).any (fun P => P.loop.stack.isEmpty) = true := by
    decide +kernel
  obtain ⟨P, hP, hp⟩ := (Option.any_eq_true _ _).mp hrun
  have hstack : P.loop.stack = [] := List.isEmpty_iff.mp hp
  exact ⟨P, hP, hstack, (handles_returned (L := firstLaunch) hP (by decide +kernel)).2 hstack⟩

omit [DecidableEq ι] in
theorem flatMap_set {ms : List PortMapper} {k : Nat} {m m' : PortMapper} (hk : ms[k]? = some m)
    (h : m'.held = m.held) : (ms.set k m').flatMap held = ms.flatMap held := by
  have hmap : (ms.set k m').map held = ms.map held := by
    have hget : (ms.map held)[k]? = some m.held := by rw [List.getElem?_map, hk, Option.map_some]
    obtain ⟨hlt, hget⟩ := List.getElem?_eq_some_iff.mp hget
    rw [List.map_set, h, ← hget, List.set_getElem_self]
  rw [List.flatMap_def, hmap, ← List.flatMap_def]

/-- **What an exception leaves open stays open.** The handles that are live while no lookup waits are live in every
later state, as long as no connection fails. -/
theorem leak_stays {fs : List (ProcessEvent ι)} {P' : Process ι}
    (h : (machine L.bar).run (launch L) es = some P) (hstack : P.loop.stack = [])
    (h' : (machine L.bar).run P fs = some P') (hfs : ∀ k p, .deliver k p ∈ fs → p.error = 0) :
    ∀ q ∈ P.system.handles.live, q ∈ P'.system.handles.live := by
  let J (Q : Process ι) : Prop := Owned Q.system Q.mappers ∧ ∃ top base, Q.mappers = top ++ base ∧
    Q.loop.stack.length ≤ top.length ∧ base.flatMap held = P.mappers.flatMap held
  have hk := (kept_run h).owned
  have h₀ : J P := ⟨hk, [], P.mappers, rfl, by rw [hstack]; exact le_refl _, rfl⟩
  have hJ : J P' := by
    refine Machine.invariant_along (C := fun _ (e : ProcessEvent ι) => ∀ k p, e = .deliver k p → p.error = 0) h₀ ?_ h'
      (Machine.along_of_forall (C := fun e : ProcessEvent ι => ∀ k p, e = .deliver k p → p.error = 0) ?_ P)
    · rintro Q e Q' ⟨ho, top, base, hm, hle, hb⟩ he hs
      rcases step_cases ho hs with ⟨k, p, m, s, rfl, hget, ha, hr, hos, rfl⟩ | ⟨a, ms, -, hmv⟩
      · refine ⟨hos, ?_⟩
        have hheld : s.mapper.held = m.held := by
          obtain ⟨⟨x, hx⟩, -⟩ := ho.shows m (List.mem_of_getElem? hget)
          obtain ⟨l, hl⟩ := ho.holds (List.mem_of_getElem? hget)
          cases x with
          | closed e =>
            rw [hx.source] at ha
            cases ha
          | opened last => exact serviceCallback_held hx hl (he k p rfl) hr
        rw [hm] at hget
        by_cases hlt : k < top.length
        · refine ⟨top.set k s.mapper, base, ?_, by rwa [List.length_set], hb⟩
          show Q.mappers.set k s.mapper = _
          rw [hm, List.set_append_left _ _ hlt]
        · have hlt : top.length ≤ k := Nat.le_of_not_lt hlt
          rw [List.getElem?_append_right hlt] at hget
          refine ⟨top, base.set (k - top.length) s.mapper, ?_, hle, ?_⟩
          · show Q.mappers.set k s.mapper = _
            rw [hm, List.set_append_right _ _ hlt]
          · rw [flatMap_set hget hheld, hb]
      · obtain ⟨top', hm', hle'⟩ := hmv.mappers hm hle
        exact ⟨hmv.owned, top', base, hm', hle', hb⟩
    · rintro e he k p rfl
      exact hfs k p he
  obtain ⟨ho, top, base, hm, -, hb⟩ := hJ
  intro q hq
  have hq : q ∈ P.mappers.flatMap held := hk.live.subset hq
  refine ho.live.symm.subset ?_
  rw [hm, List.flatMap_append, hb]
  exact List.mem_append_right _ hq

/-- A `makeMenus` that raises while another waits. -/
def leaking : List (ProcessEvent Mnu) :=
  lookingUp ++ [.activity (.callback (.complete .anuMenu 0 (.data (some .null)))) ⟨0, true, true⟩,
    .activity (.makeMenus .anuMenu true) ⟨0, true, true⟩]

/-- It leaves a service, a socket and a source behind. -/
theorem leaking_run : ∃ P, (machine appBar).run (launch firstLaunch) leaking = some P ∧ P.loop.stack = [] ∧
    P.system.handles.live.length = 3 := by
  have hrun : ((machine appBar).run (launch firstLaunch) leaking).any (fun P =>
      P.loop.stack.isEmpty && P.system.handles.live.length == 3) = true := by decide +kernel
  obtain ⟨P, hP, hp⟩ := (Option.any_eq_true _ _).mp hrun
  simp only [Bool.and_eq_true, beq_iff_eq, List.isEmpty_iff] at hp
  exact ⟨P, hP, hp.1, hp.2⟩

theorem leak_stays_leaking : ∃ P P', (machine appBar).run (launch firstLaunch) leaking = some P ∧
    (machine appBar).run P [.deliver 0 ⟨[], 0⟩] = some P' ∧ P.system.handles.live.length = 3 ∧
    ∀ q ∈ P.system.handles.live, q ∈ P'.system.handles.live := by
  obtain ⟨P, hP, hstack, hlive⟩ := leaking_run
  have hrun : ((machine appBar).run (launch firstLaunch) (leaking ++ [.deliver 0 ⟨[], 0⟩])).isSome = true := by
    decide +kernel
  rw [Machine.run_append, hP] at hrun
  obtain ⟨P', hP'⟩ := Option.isSome_iff_exists.mp hrun
  refine ⟨P, P', hP, hP', hlive, leak_stays (L := firstLaunch) hP hstack hP' fun k p hk => ?_⟩
  cases List.mem_singleton.mp hk
  rfl

end Runs

end Process

end SvrMnu
