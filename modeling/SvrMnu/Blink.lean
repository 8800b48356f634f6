import SvrMnu.Sys.Timers
import Mathlib.Data.Rat.Floor

/-!
# Blink1

The blink(1) shows one colour, or pulses: `startPulse` and `endPulse` are one-shot timers that arm each other, and
each overwrites the `timer` variable. `fadeToRGB` is where a colour is requested of the device; `requested` keeps the
requests, the last one first.

- `Owned`: no pulse timer is live but the one in `timer`; every method keeps it, and `Armed` says what it will call;
- `dark_off`, `pulsing_setPulse`, `pulsing_fire`: what the LED does after `off`, `setPulse:` and a timer.
-/

set_option autoImplicit false

namespace SvrMnu

open Sys (Timers)

/-- `colorWithCalibratedRed:green:blue:alpha:` with alpha 1 and exact components. -/
structure NSColor where
  red : ℚ
  green : ℚ
  blue : ℚ
  deriving DecidableEq

namespace NSColor

def black : NSColor := ⟨0, 0, 0⟩

def yellow : NSColor := ⟨1, 1, 0⟩

def magenta : NSColor := ⟨1, 0, 1⟩

end NSColor

/-- The methods a pulse timer calls. -/
inductive PulseSelector
  | startPulse
  | endPulse
  deriving DecidableEq

structure Blink1 where
  currentColor : Option NSColor
  timer : Option Nat
  /-- The pulse timers of the main run loop. -/
  timers : Timers PulseSelector
  /-- How many serial numbers the last `enumerate` found. -/
  serialnums : Nat
  lastColor : Option NSColor
  requested : List (Option NSColor)

namespace Blink1

/-- A new object has no colour, and a timer that was never added to a run loop. -/
def init (serialnums : Nat) : Blink1 := ⟨none, none, Timers.empty, serialnums, none, []⟩

def enumerate (count : Nat) (b : Blink1) : Blink1 := { b with serialnums := count }

def isHere (b : Blink1) : Bool := b.serialnums > 0

def fadeToRGB (c : Option NSColor) (b : Blink1) : Blink1 :=
  { b with requested := c :: b.requested, lastColor := if b.isHere then c else b.lastColor }

def setColor (c : NSColor) (b : Blink1) : Blink1 :=
  let b := { b with currentColor := some c }
  let b := b.fadeToRGB b.currentColor
  { b with timers := b.timers.invalidate b.timer }

def off (b : Blink1) : Blink1 := b.setColor NSColor.black

/-- Arm a pulse timer and keep it in `timer`. -/
def arm (selector : PulseSelector) (b : Blink1) : Blink1 :=
  { b with timers := b.timers.schedule selector, timer := some b.timers.next }

def startPulse (b : Blink1) : Blink1 := (b.fadeToRGB b.currentColor).arm .endPulse

/-- The `redComponent` of `currentColor`, `0` if it is nil. -/
def redComponent (b : Blink1) : ℚ := b.currentColor.elim 0 NSColor.red

/-- All three components of the dimmed colour are taken from the red one. -/
def endPulse (b : Blink1) : Blink1 :=
  (b.fadeToRGB (some ⟨b.redComponent * (1 / 10), b.redComponent * (1 / 10), b.redComponent * (1 / 10)⟩)).arm .startPulse

def setPulse (c : NSColor) (b : Blink1) : Blink1 :=
  let b := { b with currentColor := some c }
  let b := { b with timers := b.timers.invalidate b.timer }
  b.startPulse

/-- A live pulse timer fires. -/
def fire (i : Nat) (b : Blink1) : Option Blink1 :=
  (b.timers.fire i).map fun (selector, timers) =>
    let b := { b with timers := timers }
    match selector with
    | .startPulse => b.startPulse
    | .endPulse => b.endPulse

/-! ## One timer at most -/

/-- No pulse timer is live but the one in `timer`. -/
def Owned (b : Blink1) : Prop := b.timers.OwnedBy b.timer

/-- No timer is live, or only the one in `timer`, which calls `selector`. -/
def Armed (b : Blink1) : Option PulseSelector → Prop
  | none => b.timers.live = []
  | some selector => ∃ i, b.timer = some i ∧ b.timers.live = [(i, selector)]

/-- No pulse timer is live and black was requested last. -/
def Dark (b : Blink1) : Prop := b.timers.live = [] ∧ b.requested.head? = some (some NSColor.black)

/-- Exactly one pulse timer is live, and `c` is the colour it pulses. -/
def Pulsing (c : NSColor) (b : Blink1) : Prop := b.currentColor = some c ∧ b.timers.live.length = 1

variable {b b' : Blink1}

theorem Armed.live {o : Option PulseSelector} (h : b.Armed o) :
    b.timers.live = [] ∨ ∃ i selector, b.timer = some i ∧ b.timers.live = [(i, selector)] := by
  cases o with
  | none => exact Or.inl h
  | some selector =>
    obtain ⟨i, ht, hl⟩ := h
    exact Or.inr ⟨i, selector, ht, hl⟩

theorem Armed.owned {o : Option PulseSelector} (h : b.Armed o) : b.Owned := h.live

theorem Armed.length {selector : PulseSelector} (h : b.Armed (some selector)) : b.timers.live.length = 1 := by
  obtain ⟨i, _, hl⟩ := h
  rw [hl]
  rfl

theorem Armed.enumerate {o : Option PulseSelector} (h : b.Armed o) (serialnums : Nat) :
    (b.enumerate serialnums).Armed o := by
  cases o with
  | none => exact h
  | some selector => exact h

theorem owned_init (n : Nat) : (init n).Owned := Timers.OwnedBy.of_nil rfl

theorem live_setColor (h : b.Owned) (c : NSColor) : (b.setColor c).timers.live = [] := h.invalidate

theorem owned_setColor (h : b.Owned) (c : NSColor) : (b.setColor c).Owned :=
  Timers.OwnedBy.of_nil (live_setColor h c)

theorem owned_off (h : b.Owned) : b.off.Owned := owned_setColor h _

theorem dark_off (h : b.Owned) : b.off.Dark := ⟨live_setColor h _, rfl⟩

/-- Whatever `timer` held is dead before it is overwritten. -/
theorem armed_arm (h : b.timers.live = []) (selector : PulseSelector) : (b.arm selector).Armed (some selector) :=
  ⟨b.timers.next, rfl, Timers.live_schedule h selector⟩

theorem armed_startPulse (h : b.timers.live = []) : b.startPulse.Armed (some .endPulse) :=
  armed_arm (b := b.fadeToRGB _) h .endPulse

theorem armed_endPulse (h : b.timers.live = []) : b.endPulse.Armed (some .startPulse) :=
  armed_arm (b := b.fadeToRGB _) h .startPulse

theorem armed_setPulse (h : b.Owned) (c : NSColor) : (b.setPulse c).Armed (some .endPulse) :=
  armed_startPulse (b := { b with currentColor := some c, timers := _ }) h.invalidate

theorem owned_setPulse (h : b.Owned) (c : NSColor) : (b.setPulse c).Owned := (armed_setPulse h c).owned

theorem pulsing_setPulse (h : b.Owned) (c : NSColor) : (b.setPulse c).Pulsing c := ⟨rfl, (armed_setPulse h c).length⟩

/-- A pulse timer hands over to one new timer and keeps the colour. -/
theorem fire_spec (h : b.Owned) {i : Nat} (hf : b.fire i = some b') :
    b'.Owned ∧ b'.currentColor = b.currentColor ∧ b'.timers.live.length = 1 ∧ b.timers.live.length = 1 := by
  obtain ⟨⟨selector, timers⟩, ht, rfl⟩ := Option.map_eq_some_iff.mp hf
  obtain ⟨_, hl, hn⟩ := Timers.OwnedBy.fire h ht
  have hb : b.timers.live.length = 1 := by rw [hl]; rfl
  cases selector with
  | startPulse =>
    have ha := armed_startPulse (b := { b with timers := timers }) hn
    exact ⟨ha.owned, rfl, ha.length, hb⟩
  | endPulse =>
    have ha := armed_endPulse (b := { b with timers := timers }) hn
    exact ⟨ha.owned, rfl, ha.length, hb⟩

theorem pulsing_fire (h : b.Owned) {i : Nat} {c : NSColor} (hp : b.Pulsing c) (hf : b.fire i = some b') :
    b'.Pulsing c := by
  obtain ⟨_, hc, hl, _⟩ := fire_spec h hf
  exact ⟨hc.trans hp.1, hl⟩

/-- A dark LED has no timer to fire. -/
theorem fire_none (hd : b.timers.live = []) (i : Nat) : b.fire i = none := by
  simp [fire, Timers.fire, hd]

end Blink1

end SvrMnu
