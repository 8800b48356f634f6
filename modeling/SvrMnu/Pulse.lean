import SvrMnu.Sys.Machine
import SvrMnu.Blink
import Mathlib.Tactic.Linarith

/-!
# Pulses

`Pulse` is what a blink(1) is for, with no timer in it: it keeps one colour, or alternates between a colour and a dimmed
one of the same hue. `Blink1.machine` is the object as the application uses it: its methods, and its own timers.

- `shows_step`, `pulse_step`: the steps of the two match, the colour of a dimmed half apart; so `shows_run` and
  `pulse_run` for their runs;
- `pulse_timers`: what follows for the timers of every run;
- `pulse_hue_iff`: the colour after `n` firings is the one of the pulse iff `n` is even or the colour is a grey, since
  `endPulse` dims the red component three times; `yellow_dims_to_grey` is a colour that loses its hue.
-/

set_option autoImplicit false

namespace SvrMnu

open Sys (Machine Timers)

/-! ## Pulses -/

/-- The colour of the same hue with each component times `k`. -/
def NSColor.scale (k : ℚ) (c : NSColor) : NSColor := ⟨c.red * k, c.green * k, c.blue * k⟩

/-- What is shown: nothing yet, one colour, or the first or second half of a pulse. -/
inductive Pulse
  | new
  | steady (c : NSColor)
  | bright (c : NSColor)
  | dim (c : NSColor)

inductive PulseEvent
  | steady (c : NSColor)
  | pulse (c : NSColor)
  /-- One half of a pulse is over. -/
  | turn
  | idle

namespace Pulse

/-- A pulse goes on for ever, and only a pulse does. -/
def step (p : Pulse) : PulseEvent → Option Pulse
  | .steady c => some (.steady c)
  | .pulse c => some (.bright c)
  | .turn =>
    match p with
    | .new | .steady _ => none
    | .bright c => some (.dim c)
    | .dim c => some (.bright c)
  | .idle => some p

def machine : Machine Pulse PulseEvent := ⟨step⟩

/-- The colour it was asked for. -/
def base : Pulse → Option NSColor
  | .new => none
  | .steady c | .bright c | .dim c => some c

/-- The colour it should have: in the second half of a pulse, a tenth of each component. -/
def color : Pulse → Option NSColor
  | .dim c => some (c.scale (1 / 10))
  | p => p.base

/-- The method that ends the half of a pulse. -/
def selector : Pulse → Option PulseSelector
  | .new | .steady _ => none
  | .bright _ => some .endPulse
  | .dim _ => some .startPulse

/-- The pulse of `c` after `n` halves. -/
def after (c : NSColor) (n : Nat) : Pulse := if n % 2 = 0 then .bright c else .dim c

theorem step_after (c : NSColor) (n : Nat) : (after c n).step .turn = some (after c (n + 1)) := by
  unfold after
  rcases Nat.mod_two_eq_zero_or_one n with h | h
  · have h' : (n + 1) % 2 = 1 := by omega
    rw [h, h']
    rfl
  · have h' : (n + 1) % 2 = 0 := by omega
    rw [h, h']
    rfl

theorem run_after (c : NSColor) (n k : Nat) :
    machine.run (after c k) (List.replicate n .turn) = some (after c (k + n)) := by
  induction n generalizing k with
  | zero => rfl
  | succ n ih =>
    have hs : machine.step (after c k) .turn = some (after c (k + 1)) := step_after c k
    rw [List.replicate_succ]
    simp only [Machine.run, hs, Option.bind_some]
    rw [ih, Nat.add_right_comm]
    rfl

/-- `setPulse:` and `n` firings. -/
theorem run_pulse (p : Pulse) (c : NSColor) (n : Nat) :
    machine.run p (.pulse c :: List.replicate n .turn) = some (after c n) := by
  have h := run_after c n 0
  rw [Nat.zero_add] at h
  exact h

end Pulse

/-! ## The object as a machine -/

/-- A call, a live timer that fires, or devices that come and go. -/
inductive BlinkEvent
  | setColor (c : NSColor)
  | off
  | setPulse (c : NSColor)
  | fire (timer : Nat)
  | enumerate (serialnums : Nat)

namespace BlinkEvent

def isCall : BlinkEvent → Bool
  | .setColor _ | .off | .setPulse _ => true
  | .fire _ | .enumerate _ => false

/-- What the event means for the pulse. -/
def meaning : BlinkEvent → PulseEvent
  | .setColor c => .steady c
  | .off => .steady NSColor.black
  | .setPulse c => .pulse c
  | .fire _ => .turn
  | .enumerate _ => .idle

theorem meaning_eq_pulse {e : BlinkEvent} {c : NSColor} (h : e.meaning = .pulse c) : e = .setPulse c := by
  cases e with
  | setPulse c' => cases h; rfl
  | _ => cases h

theorem meaning_eq_turn {e : BlinkEvent} : e.meaning = .turn ↔ ∃ i, e = .fire i := by
  constructor
  · intro h
    cases e with
    | fire i => exact ⟨i, rfl⟩
    | _ => cases h
  · rintro ⟨i, rfl⟩
    rfl

end BlinkEvent

namespace Blink1

def step (b : Blink1) : BlinkEvent → Option Blink1
  | .setColor c => some (b.setColor c)
  | .off => some b.off
  | .setPulse c => some (b.setPulse c)
  | .fire timer => b.fire timer
  | .enumerate serialnums => some (b.enumerate serialnums)

def machine : Machine Blink1 BlinkEvent := ⟨step⟩

/-- What `endPulse` requests in place of a dimmed colour. -/
def endColor (c : NSColor) : NSColor := ⟨c.red * (1 / 10), c.red * (1 / 10), c.red * (1 / 10)⟩

/-- The colour that is requested on the way to `p`. -/
def requestFor : Pulse → Option NSColor
  | .dim c => some (endColor c)
  | p => p.base

/-- The object is where `p` is. -/
structure Shows (p : Pulse) (b : Blink1) : Prop where
  current : b.currentColor = p.base
  armed : b.Armed p.selector
  request : b.requested.head? = (requestFor p).map some

variable {p p' : Pulse} {b b' : Blink1}

/-! ## The steps -/

theorem shows_init (serialnums : Nat) : Shows .new (init serialnums) := ⟨rfl, rfl, rfl⟩

theorem shows_setColor (h : b.Owned) (c : NSColor) : Shows (.steady c) (b.setColor c) :=
  ⟨rfl, live_setColor h c, rfl⟩

/-- `startPulse` and `endPulse`, when the timer before is dead. -/
theorem shows_startPulse {c : NSColor} (hc : b.currentColor = some c) (h : b.timers.live = []) :
    Shows (.bright c) b.startPulse where
  current := hc
  armed := armed_startPulse h
  request := by
    show some b.currentColor = some (some c)
    rw [hc]

theorem shows_endPulse {c : NSColor} (hc : b.currentColor = some c) (h : b.timers.live = []) :
    Shows (.dim c) b.endPulse where
  current := hc
  armed := armed_endPulse h
  request := by
    have hr : b.redComponent = c.red := by simp only [redComponent, hc, Option.elim_some]
    show some (some _) = some (some (endColor c))
    rw [hr]
    rfl

theorem shows_setPulse (h : b.Owned) (c : NSColor) : Shows (.bright c) (b.setPulse c) :=
  shows_startPulse (b := { b with currentColor := some c, timers := _ }) rfl h.invalidate

theorem Shows.enumerate (h : Shows p b) (serialnums : Nat) : Shows p (b.enumerate serialnums) :=
  ⟨h.current, h.armed.enumerate serialnums, h.request⟩

/-- A timer that fires ends the half of a pulse that the object is in. -/
theorem Shows.fire (h : Shows p b) {i : Nat} (hf : b.fire i = some b') :
    ∃ p', p.step .turn = some p' ∧ Shows p' b' := by
  obtain ⟨⟨selector, timers⟩, ht, rfl⟩ := Option.map_eq_some_iff.mp hf
  obtain ⟨_, hl, hn⟩ := Timers.OwnedBy.fire h.armed.owned ht
  have ha := h.armed
  cases p with
  | new | steady c =>
    have hnil : b.timers.live = [] := ha
    rw [hnil] at hl
    cases hl
  | bright c =>
    obtain ⟨j, _, hj⟩ := ha
    rw [hj] at hl
    cases hl
    exact ⟨.dim c, rfl, shows_endPulse (b := { b with timers := timers }) h.current hn⟩
  | dim c =>
    obtain ⟨j, _, hj⟩ := ha
    rw [hj] at hl
    cases hl
    exact ⟨.bright c, rfl, shows_startPulse (b := { b with timers := timers }) h.current hn⟩

/-- And there is one to fire as long as the pulse goes on. -/
theorem Shows.can_fire (h : Shows p b) (hp : p.step .turn = some p') : ∃ i b', b.fire i = some b' := by
  have ha := h.armed
  cases p with
  | new | steady c => cases hp
  | bright c | dim c =>
    obtain ⟨i, _, hl⟩ := ha
    exact ⟨i, _, by rw [Blink1.fire, Timers.fire_of_live hl]; rfl⟩

/-- **Every step of the object is one of the pulse.** -/
theorem shows_step {e : BlinkEvent} (h : Shows p b) (hs : machine.step b e = some b') :
    ∃ p', Pulse.machine.step p e.meaning = some p' ∧ Shows p' b' := by
  cases e with
  | setColor c =>
    cases Option.some.inj hs
    exact ⟨.steady c, rfl, shows_setColor h.armed.owned c⟩
  | off =>
    cases Option.some.inj hs
    exact ⟨.steady NSColor.black, rfl, shows_setColor h.armed.owned _⟩
  | setPulse c =>
    cases Option.some.inj hs
    exact ⟨.bright c, rfl, shows_setPulse h.armed.owned c⟩
  | fire i => exact h.fire hs
  | enumerate serialnums =>
    cases Option.some.inj hs
    exact ⟨p, rfl, h.enumerate serialnums⟩

/-- **And the other way.** -/
theorem pulse_step {d : PulseEvent} (h : Shows p b) (hs : Pulse.machine.step p d = some p') :
    ∃ e b', e.meaning = d ∧ machine.step b e = some b' ∧ Shows p' b' := by
  cases d with
  | steady c =>
    cases Option.some.inj hs
    exact ⟨.setColor c, _, rfl, rfl, shows_setColor h.armed.owned c⟩
  | pulse c =>
    cases Option.some.inj hs
    exact ⟨.setPulse c, _, rfl, rfl, shows_setPulse h.armed.owned c⟩
  | turn =>
    obtain ⟨i, b', hf⟩ := h.can_fire hs
    obtain ⟨p'', hp, hb⟩ := h.fire hf
    have he : p'' = p' := Option.some.inj (hp.symm.trans hs)
    subst he
    exact ⟨.fire i, b', rfl, hf, hb⟩
  | idle =>
    cases Option.some.inj hs
    exact ⟨.enumerate b.serialnums, _, rfl, rfl, h.enumerate b.serialnums⟩

/-! ## The runs -/

theorem shows_run {es : List BlinkEvent} (h : Shows p b) (hrun : machine.run b es = some b') :
    ∃ p', Pulse.machine.run p (es.map BlinkEvent.meaning) = some p' ∧ Shows p' b' :=
  Machine.run_simulates (fun _ _ _ _ hR hs => shows_step hR hs) h hrun

theorem pulse_run {ds : List PulseEvent} (h : Shows p b) (hrun : Pulse.machine.run p ds = some p') :
    ∃ es b', es.map BlinkEvent.meaning = ds ∧ machine.run b es = some b' ∧ Shows p' b' :=
  Machine.run_realizes (fun _ _ _ _ hR hs => pulse_step hR hs) h hrun

/-- Wherever a run leads, the object shows some pulse. -/
theorem shows_of_run {serialnums : Nat} {es : List BlinkEvent} (h : machine.run (init serialnums) es = some b) :
    ∃ p, Shows p b := by
  obtain ⟨p, _, hp⟩ := shows_run (shows_init serialnums) h
  exact ⟨p, hp⟩

/-! ## The timers -/

/-- Between two calls a dark or steady blink(1) requests nothing. -/
theorem quiet_run {fs : List BlinkEvent} (hl : b.timers.live = []) (hf : ∀ f ∈ fs, f.isCall = false)
    (hrun : machine.run b fs = some b') : b'.requested = b.requested ∧ b'.timers.live = [] := by
  refine Machine.invariant_along (I := fun v => v.requested = b.requested ∧ v.timers.live = []) ⟨rfl, hl⟩ ?_ hrun
    (Machine.along_of_forall hf b)
  rintro v e v' ⟨hr, hv⟩ he hs
  cases e with
  | setColor | off | setPulse => cases he
  | fire i =>
    have hs : v.fire i = some v' := hs
    rw [fire_none hv] at hs
    cases hs
  | enumerate serialnums =>
    cases Option.some.inj hs
    exact ⟨hr, hv⟩

/-- **Timers never multiply, and off is final.** In every run, of any calls and any firings: one timer at most is live,
and it is the one in `timer`; one is after `setPulse:` and after each firing; and none is after `setColor:` or `off`, so
that nothing is requested until the next call. -/
theorem pulse_timers (serialnums : Nat) {es : List BlinkEvent} (h : machine.run (init serialnums) es = some b) :
    (b.timers.live = [] ∨ ∃ i selector, b.timer = some i ∧ b.timers.live = [(i, selector)]) ∧
    (∀ e b', ((∃ c, e = .setPulse c) ∨ ∃ i, e = .fire i) → machine.step b e = some b' →
      ∃ i selector, b'.timer = some i ∧ b'.timers.live = [(i, selector)]) ∧
    (∀ e b', ((∃ c, e = .setColor c) ∨ e = .off) → machine.step b e = some b' → b'.timers.live = [] ∧
      ∀ fs b'', (∀ f ∈ fs, f.isCall = false) → machine.run b' fs = some b'' →
        b''.requested = b'.requested ∧ b''.timers.live = []) := by
  obtain ⟨p, hp⟩ := shows_of_run h
  refine ⟨hp.armed.live, ?_, ?_⟩
  · rintro e b' he hs
    obtain ⟨p', hstep, hp'⟩ := shows_step hp hs
    have ha := hp'.armed
    rcases he with ⟨c, rfl⟩ | ⟨i, rfl⟩
    · cases Option.some.inj hstep
      obtain ⟨j, hj⟩ := ha
      exact ⟨j, _, hj⟩
    · cases p with
      | new | steady c => cases hstep
      | bright c | dim c =>
        cases Option.some.inj hstep
        obtain ⟨j, hj⟩ := ha
        exact ⟨j, _, hj⟩
  · rintro e b' he hs
    have hl : b'.timers.live = [] := by
      rcases he with ⟨c, rfl⟩ | rfl
      · cases Option.some.inj hs
        exact live_setColor hp.armed.owned c
      · cases Option.some.inj hs
        exact live_setColor hp.armed.owned _
    exact ⟨hl, fun fs b'' hf hrun => quiet_run hl hf hrun⟩

/-- A pulse, two firings and `off`. -/
theorem pulse_timers_off : ∃ b,
    machine.run (init 1) [.setPulse NSColor.magenta, .fire 0, .fire 1, .off] = some b ∧ b.timers.live = [] := by
  have hrun : machine.run (init 1) [.setPulse NSColor.magenta, .fire 0, .fire 1] = some _ := rfl
  obtain ⟨-, -, hoff⟩ := pulse_timers 1 hrun
  exact ⟨_, rfl, (hoff .off _ (Or.inr rfl) rfl).1⟩

/-! ## The hue -/

/-- The three components agree exactly when the red one may stand for the others. -/
theorem endColor_eq_iff (c : NSColor) :
    endColor c = c.scale (1 / 10) ↔ c.green = c.red ∧ c.blue = c.red := by
  unfold endColor NSColor.scale
  rw [NSColor.mk.injEq]
  constructor
  · rintro ⟨-, hg, hb⟩
    constructor
    · linarith
    · linarith
  · rintro ⟨hg, hb⟩
    rw [hg, hb]
    exact ⟨rfl, rfl, rfl⟩

/-- What is requested has the colour of the pulse, but for the dimmed half of a colour that is no grey. -/
theorem Shows.request_iff (h : Shows p b) :
    b.requested.head? = p.color.map some ↔ ∀ c, p = .dim c → c.green = c.red ∧ c.blue = c.red := by
  rw [h.request]
  cases p with
  | new | steady c | bright c => exact iff_of_true rfl fun c' hc => by cases hc
  | dim c =>
    show some (some (endColor c)) = some (some (c.scale (1 / 10))) ↔ _
    rw [Option.some.injEq, Option.some.injEq, endColor_eq_iff]
    constructor
    · rintro hg c' hc
      cases hc
      exact hg
    · intro hg
      exact hg c rfl

theorem color_after (c : NSColor) (n : Nat) :
    (Pulse.after c n).color = some (if n % 2 = 0 then c else c.scale (1 / 10)) := by
  unfold Pulse.after
  split
  · rfl
  · rfl

theorem meaning_firings {fs : List BlinkEvent} {n : Nat} :
    fs.map BlinkEvent.meaning = List.replicate n .turn ↔ fs.length = n ∧ ∀ f ∈ fs, ∃ i, f = .fire i := by
  rw [List.eq_replicate_iff, List.length_map]
  refine and_congr_right fun _ => ?_
  simp only [List.mem_map, forall_exists_index, and_imp, forall_apply_eq_imp_iff₂, BlinkEvent.meaning_eq_turn]

/-- **A pulse keeps its hue iff it is of a grey.** Wherever `setPulse:` is called, the pulse goes on for any number `n`
of firings, and after them the colour requested last is `c` or `c` dimmed, as it should, iff `n` is even or the
components of `c` are equal. -/
theorem pulse_hue_iff (serialnums : Nat) {es : List BlinkEvent} (h : machine.run (init serialnums) es = some b)
    (c : NSColor) (n : Nat) :
    (∃ fs b', fs.length = n ∧ (∀ f ∈ fs, ∃ i, f = .fire i) ∧ machine.run b (.setPulse c :: fs) = some b') ∧
    ∀ fs b', fs.length = n → (∀ f ∈ fs, ∃ i, f = .fire i) → machine.run b (.setPulse c :: fs) = some b' →
      (b'.requested.head? = some (some (if n % 2 = 0 then c else c.scale (1 / 10))) ↔
        n % 2 = 0 ∨ (c.green = c.red ∧ c.blue = c.red)) := by
  obtain ⟨p, hp⟩ := shows_of_run h
  constructor
  · obtain ⟨es, b', hes, hrun, _⟩ := pulse_run hp (Pulse.run_pulse p c n)
    obtain ⟨e, fs, rfl, he, hfs⟩ := List.map_eq_cons_iff.mp hes
    obtain rfl := BlinkEvent.meaning_eq_pulse he
    obtain ⟨hn, hf⟩ := meaning_firings.mp hfs
    exact ⟨fs, b', hn, hf, hrun⟩
  · intro fs b' hn hf hrun
    obtain ⟨p', hp', hb'⟩ := shows_run hp hrun
    have hmap : (BlinkEvent.setPulse c :: fs).map BlinkEvent.meaning = .pulse c :: List.replicate n .turn := by
      rw [List.map_cons, meaning_firings.mpr ⟨hn, hf⟩]
      rfl
    rw [hmap, Pulse.run_pulse] at hp'
    obtain rfl := Option.some.inj hp'
    have hc : (Pulse.after c n).color.map some = some (some (if n % 2 = 0 then c else c.scale (1 / 10))) := by
      rw [color_after, Option.map_some]
    rw [← hc, hb'.request_iff]
    unfold Pulse.after
    by_cases hz : n % 2 = 0
    · simp [hz]
    · simp [hz]

/-- White keeps its hue. -/
theorem pulse_hue_white : ∃ b, machine.run (init 1) [.setPulse ⟨1, 1, 1⟩, .fire 0] = some b ∧
    b.requested.head? = some (some ⟨1 / 10, 1 / 10, 1 / 10⟩) := by
  obtain ⟨-, hhue⟩ := pulse_hue_iff 1 (show machine.run (init 1) [] = some _ from rfl) ⟨1, 1, 1⟩ 1
  have hf : ∀ f ∈ [BlinkEvent.fire 0], ∃ i, f = .fire i := fun f hf => ⟨0, List.mem_singleton.mp hf⟩
  have hc := (hhue [.fire 0] _ rfl hf rfl).mpr (Or.inr ⟨rfl, rfl⟩)
  refine ⟨_, rfl, hc.trans ?_⟩
  decide +kernel

/-- The yellow of one player dims to a grey. -/
theorem yellow_dims_to_grey : ∃ b, machine.run (init 1) [.setPulse NSColor.yellow, .fire 0] = some b ∧
    b.requested.head? = some (some ⟨1 / 10, 1 / 10, 1 / 10⟩) ∧
    b.requested.head? ≠ some (some (NSColor.yellow.scale (1 / 10))) := by
  refine ⟨_, rfl, ?_, ?_⟩
  · decide +kernel
  · decide +kernel

end Blink1

end SvrMnu
