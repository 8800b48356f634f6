import SvrMnu.Hid.Reports
import SvrMnu.Blink
import SvrMnu.Sys.Rounding

/-!
# The commands of a blink(1)

A command is a feature report of nine bytes; the answer to one is read after a second report. `Wire` is the way to an
open device: what each call of the system gives, and the reports that have been sent.

- `colour_shown`: the bytes for a colour keep the order of its components, and are dark below 16 of 255, which the
  product with 255 is rounded to;
- `patternLine_roundTrip`: a pattern line that is read as it was written has its fade time iff that is below 2550 ms;
- `failed_read`: no command tells its caller that a read has failed;
- `serialnumwrite_run`: `blink1_serialnumwrite` writes bytes until one has failed twice, and always returns 0.
-/

set_option autoImplicit false

namespace SvrMnu.Hid

/-! ## The bytes of a command -/

def blink1ReportId : UInt8 := 1

/-- `blink1_degamma`, which is `blink1_degamma_log2lin`. -/
def blink1Degamma (n : Nat) : Nat :=
  ((1 <<< (n / 32)) - 1) + ((1 <<< (n / 32)) * (n % 32 + 1) + 15) / 32

/-- A byte of a colour, as `blink1_enable_degamma` has it. -/
def component (enableDegamma : Bool) (c : UInt8) : UInt8 :=
  if enableDegamma then UInt8.ofNat (blink1Degamma c.toNat) else c

/-- What `fadeToRGB:atTime:` passes on of a component: `r *= 255` for a `CGFloat`, which is a `double`, and then
`(int)r` as a `uint8_t`. -/
def byteOfComponent (c : ℚ) : UInt8 :=
  let r := Sys.binary64 (c * 255)
  UInt8.ofInt (if 0 ≤ r then ⌊r⌋ else ⌈r⌉)

/-- The bytes of a time in 10 ms: the second one is a remainder by 255. -/
def fadeBytes (millis : UInt16) : UInt8 × UInt8 :=
  let dms := millis.toNat / 10
  (UInt8.ofNat (dms >>> 8), UInt8.ofNat (dms % 0xff))

/-- The buffer of `blink1_fadeToRGB`, the last two bytes of which are not set. -/
def fadeToRGBReport (enableDegamma : Bool) (fadeMillis : UInt16) (r g b : UInt8) (unset : UInt8 × UInt8) : Report :=
  let (hi, lo) := fadeBytes fadeMillis
  [blink1ReportId, 'c'.toUInt8, component enableDegamma r, component enableDegamma g, component enableDegamma b, hi, lo,
    unset.1, unset.2]

/-- The report of `fadeToRGB:atTime:`. -/
def colourReport (c : NSColor) (fadeMillis : UInt16) (unset : UInt8 × UInt8) : Report :=
  fadeToRGBReport true fadeMillis (byteOfComponent c.red) (byteOfComponent c.green) (byteOfComponent c.blue) unset

/-- The bytes for the three lights. -/
def lights (buf : Report) : List UInt8 := (buf.drop 2).take 3

/-- The buffer of `blink1_writePatternLine`. -/
def writePatternLineReport (enableDegamma : Bool) (fadeMillis : UInt16) (r g b pos : UInt8) : Report :=
  let (hi, lo) := fadeBytes fadeMillis
  [blink1ReportId, 'P'.toUInt8, component enableDegamma r, component enableDegamma g, component enableDegamma b, hi, lo,
    pos, 0]

structure PatternLine where
  fadeMillis : UInt16
  r : UInt8
  g : UInt8
  b : UInt8
  deriving DecidableEq

/-- What `blink1_readPatternLine` makes of its buffer. -/
def readPatternLineOf (buf : Report) : PatternLine where
  -- modulo 2 ^ 16 a negative `buf[5]` is the same
  fadeMillis := UInt16.ofNat (((buf.getD 5 0).toNat <<< 8 + (buf.getD 6 0).toNat) * 10)
  r := buf.getD 2 0
  g := buf.getD 3 0
  b := buf.getD 4 0

/-! ## Colours -/

/-- No component of the first colour is greater. -/
def Below (c c' : NSColor) : Prop := c.red ≤ c'.red ∧ c.green ≤ c'.green ∧ c.blue ≤ c'.blue

section Degamma

variable {m n : Nat}

/-- The values in block `k` of 32. -/
theorem degamma_eq (k : Nat) (h : m < 32) : blink1Degamma (32 * k + m) = (2 ^ k - 1) + (2 ^ k * (m + 1) + 15) / 32 := by
  have hdiv : (32 * k + m) / 32 = k := by omega
  have hmod : (32 * k + m) % 32 = m := by omega
  simp only [blink1Degamma, hdiv, hmod, Nat.one_shiftLeft]

theorem degamma_le (k : Nat) (h : m < 32) : blink1Degamma (32 * k + m) ≤ 2 ^ (k + 1) - 1 := by
  have hpos : 0 < 2 ^ k := Nat.two_pow_pos k
  have hle : 2 ^ k * (m + 1) ≤ 2 ^ k * 32 := Nat.mul_le_mul_left _ h
  rw [degamma_eq k h, Nat.pow_succ]
  omega

theorem le_degamma (k : Nat) (h : m < 32) : 2 ^ k - 1 ≤ blink1Degamma (32 * k + m) := by
  rw [degamma_eq k h]
  exact Nat.le_add_right _ _

theorem degamma_succ (n : Nat) : blink1Degamma n ≤ blink1Degamma (n + 1) := by
  obtain ⟨k, m, hm, rfl⟩ : ∃ k m, m < 32 ∧ n = 32 * k + m := ⟨n / 32, n % 32, Nat.mod_lt _ (by omega), by omega⟩
  by_cases hlast : m = 31
  · -- the next block begins
    have hnext : 32 * k + m + 1 = 32 * (k + 1) + 0 := by omega
    rw [hnext]
    exact (degamma_le k hm).trans (le_degamma (k + 1) (by omega))
  · have hlt : m + 1 < 32 := by omega
    rw [Nat.add_assoc, degamma_eq k hm, degamma_eq k hlt]
    have hle : 2 ^ k * (m + 1) ≤ 2 ^ k * (m + 1 + 1) := Nat.mul_le_mul_left _ (Nat.le_succ _)
    omega

theorem degamma_mono : Monotone blink1Degamma := monotone_nat_of_le_succ degamma_succ

theorem degamma_byte (c : UInt8) : (component true c).toNat = blink1Degamma c.toNat := by
  have hc : c.toNat = 32 * (c.toNat / 32) + c.toNat % 32 := by omega
  have hk : c.toNat / 32 ≤ 7 := by
    have hlt := c.toNat_lt
    omega
  have hle : blink1Degamma c.toNat ≤ 2 ^ (7 + 1) - 1 := by
    rw [hc]
    refine (degamma_le _ (Nat.mod_lt _ (by omega))).trans ?_
    exact Nat.sub_le_sub_right (Nat.pow_le_pow_right (by omega) (Nat.succ_le_succ hk)) 1
  simp only [component, if_true]
  rw [UInt8.toNat_ofNat', Nat.mod_eq_of_lt (by omega)]

/-- The lowest values are dark. -/
theorem degamma_eq_zero : blink1Degamma n = 0 ↔ n < 16 := by
  constructor
  · intro h
    by_contra hn
    have hle : blink1Degamma 16 ≤ blink1Degamma n := degamma_mono (by omega)
    rw [h] at hle
    exact absurd hle (by decide)
  · intro h
    have hle : blink1Degamma n ≤ blink1Degamma 15 := degamma_mono (by omega)
    exact Nat.le_zero.mp hle

/-- The component of a colour before it becomes a byte. -/
theorem scaled_bounds {c : ℚ} (h0 : 0 ≤ c) (h1 : c ≤ 1) :
    0 ≤ Sys.binary64 (c * 255) ∧ Sys.binary64 (c * 255) < 256 := by
  have hc : 0 ≤ c * 255 := by positivity
  refine ⟨Sys.roundTo_nonneg hc, ?_⟩
  have hlt := Sys.binary64_lt_two_pow (k := 8) (by omega) hc
  norm_num at hlt
  exact hlt.mpr (by linarith)

/-- The numbers from 16 − 2⁻⁵⁰ on are rounded to 16. -/
theorem scaled_lt_sixteen {c : ℚ} (h0 : 0 ≤ c) : Sys.binary64 (c * 255) < 16 ↔ c * 255 < 16 - 1 / 2 ^ 50 := by
  have hc : 0 ≤ c * 255 := by positivity
  have hlt := Sys.binary64_lt_two_pow (k := 4) (by omega) hc
  norm_num at hlt ⊢
  exact hlt

theorem byteOfComponent_toNat {c : ℚ} (h0 : 0 ≤ c) (h1 : c ≤ 1) :
    ((byteOfComponent c).toNat : Int) = ⌊Sys.binary64 (c * 255)⌋ := by
  obtain ⟨hlo, hhi⟩ := scaled_bounds h0 h1
  have hnonneg : 0 ≤ ⌊Sys.binary64 (c * 255)⌋ := Int.floor_nonneg.mpr hlo
  have hlt : ⌊Sys.binary64 (c * 255)⌋ < 256 := Int.floor_lt.mpr (by exact_mod_cast hhi)
  rw [byteOfComponent, if_pos hlo, UInt8.ofInt, UInt8.toNat_ofNat']
  omega

/-- The greater of two components gives no smaller a byte, and no light iff its product with 255 is not rounded to
16. -/
theorem component_light {c c' : ℚ} (h0 : 0 ≤ c) (h : c ≤ c') (h1 : c' ≤ 1) :
    component true (byteOfComponent c) ≤ component true (byteOfComponent c') ∧
    (component true (byteOfComponent c') = 0 ↔ c' * 255 < 16 - 1 / 2 ^ 50) := by
  have hround : Sys.binary64 (c * 255) ≤ Sys.binary64 (c' * 255) := Sys.roundTo_mono (by positivity) (by linarith)
  have hfloor := Int.floor_le_floor hround
  have hc' := byteOfComponent_toNat (h0.trans h) h1
  refine ⟨?_, ?_⟩
  · rw [UInt8.le_iff_toNat_le, degamma_byte, degamma_byte]
    apply degamma_mono
    have hc := byteOfComponent_toNat h0 (h.trans h1)
    omega
  · rw [← UInt8.toNat_inj, degamma_byte]
    refine degamma_eq_zero.trans ?_
    have hfl : ⌊Sys.binary64 (c' * 255)⌋ < 16 ↔ Sys.binary64 (c' * 255) < 16 := by
      exact_mod_cast Int.floor_lt (z := 16) (a := Sys.binary64 (c' * 255))
    rw [← scaled_lt_sixteen (h0.trans h), ← hfl]
    omega

/-- **The LED shows colours in their order.** No light of a colour is brighter than that of one with components as
great, and all are off iff every component is so far below 16 of 255 that its product with 255 is rounded to less. -/
theorem colour_shown {c c' : NSColor} (h0 : Below NSColor.black c) (h : Below c c') (h1 : Below c' ⟨1, 1, 1⟩)
    (fadeMillis : UInt16) (unset : UInt8 × UInt8) :
    List.Forall₂ (· ≤ ·) (lights (colourReport c fadeMillis unset)) (lights (colourReport c' fadeMillis unset)) ∧
    (lights (colourReport c' fadeMillis unset) = [0, 0, 0] ↔ c'.red * 255 < 16 - 1 / 2 ^ 50 ∧
      c'.green * 255 < 16 - 1 / 2 ^ 50 ∧ c'.blue * 255 < 16 - 1 / 2 ^ 50) := by
  obtain ⟨hr, hr0⟩ := component_light h0.1 h.1 h1.1
  obtain ⟨hg, hg0⟩ := component_light h0.2.1 h.2.1 h1.2.1
  obtain ⟨hb, hb0⟩ := component_light h0.2.2 h.2.2 h1.2.2
  have hlights : ∀ c : NSColor, lights (colourReport c fadeMillis unset) = [component true (byteOfComponent c.red),
      component true (byteOfComponent c.green), component true (byteOfComponent c.blue)] := fun _ => rfl
  rw [hlights, hlights]
  refine ⟨List.Forall₂.cons hr (List.Forall₂.cons hg (List.Forall₂.cons hb List.Forall₂.nil)), ?_⟩
  rw [List.cons.injEq, List.cons.injEq, List.cons.injEq, hr0, hg0, hb0]
  simp

/-- The `double` nearest to 16/255, which is below it. -/
def sixteenOf255 : ℚ := 282578800148737 / 2 ^ 52

/-- With it the LED is on, and no less bright than black. -/
theorem colour_shown_sixteenOf255 : sixteenOf255 < 16 / 255 ∧
    List.Forall₂ (· ≤ ·) (lights (colourReport NSColor.black 0 (0, 0)))
      (lights (colourReport ⟨sixteenOf255, 0, 0⟩ 0 (0, 0))) ∧
    lights (colourReport ⟨sixteenOf255, 0, 0⟩ 0 (0, 0)) ≠ [0, 0, 0] := by
  have hle : Below NSColor.black ⟨sixteenOf255, 0, 0⟩ := by norm_num [Below, NSColor.black, sixteenOf255]
  have h1 : Below ⟨sixteenOf255, 0, 0⟩ ⟨1, 1, 1⟩ := by norm_num [Below, sixteenOf255]
  obtain ⟨hbelow, hdark⟩ := colour_shown ⟨le_rfl, le_rfl, le_rfl⟩ hle h1 0 (0, 0)
  refine ⟨by norm_num [sixteenOf255], hbelow, fun h => ?_⟩
  have hlt : sixteenOf255 * 255 < 16 - 1 / 2 ^ 50 := (hdark.mp h).1
  norm_num [sixteenOf255] at hlt

end Degamma

/-! ## Fade times -/

/-- A pattern line as it is read back. -/
def reread (enableDegamma : Bool) (fadeMillis : UInt16) (r g b pos : UInt8) : PatternLine :=
  readPatternLineOf (writePatternLineReport enableDegamma fadeMillis r g b pos)

/-- **The fade time of a pattern line.** A line that is read as it was written has its colour, as it was sent, and its
time to 10 ms iff that is below 2550 ms: the writer takes a remainder by 255, the reader a product by 256. -/
theorem patternLine_roundTrip (enableDegamma : Bool) (fadeMillis : UInt16) (r g b pos : UInt8) :
    lights (writePatternLineReport enableDegamma fadeMillis r g b pos) =
      [(reread enableDegamma fadeMillis r g b pos).r, (reread enableDegamma fadeMillis r g b pos).g,
        (reread enableDegamma fadeMillis r g b pos).b] ∧
    ((reread enableDegamma fadeMillis r g b pos).fadeMillis.toNat = fadeMillis.toNat / 10 * 10 ↔
      fadeMillis.toNat < 2550) := by
  refine ⟨rfl, ?_⟩
  have hf := fadeMillis.toNat_lt
  show (UInt16.ofNat (((UInt8.ofNat ((fadeMillis.toNat / 10) >>> 8)).toNat <<< 8 +
    (UInt8.ofNat (fadeMillis.toNat / 10 % 0xff)).toNat) * 10)).toNat = _ ↔ _
  have hhi : (UInt8.ofNat ((fadeMillis.toNat / 10) >>> 8)).toNat = fadeMillis.toNat / 10 / 256 := by
    rw [UInt8.toNat_ofNat', Nat.shiftRight_eq_div_pow]
    omega
  have hlo : (UInt8.ofNat (fadeMillis.toNat / 10 % 0xff)).toNat = fadeMillis.toNat / 10 % 255 := by
    rw [UInt8.toNat_ofNat']
    omega
  rw [hhi, hlo, UInt16.toNat_ofNat', Nat.shiftLeft_eq]
  by_cases hd : fadeMillis.toNat / 10 < 255
  · have hmod : fadeMillis.toNat / 10 % 255 = fadeMillis.toNat / 10 := Nat.mod_eq_of_lt hd
    have hdiv : fadeMillis.toNat / 10 / 256 = 0 := Nat.div_eq_of_lt (by omega)
    rw [hmod, hdiv]
    omega
  · -- a product that leaves 16 bits is no multiple of ten
    generalize hx : fadeMillis.toNat / 10 = d at *
    have hne : d / 256 * 2 ^ 8 + d % 255 ≠ d := by omega
    omega

/-! ## Sending and reading -/

/-- An open device. -/
structure Wire where
  /-- Whether the calls of `IOHIDDeviceSetReport` succeed, on a device that is not disconnected. -/
  set : Nat → Bool
  /-- What those of `IOHIDDeviceGetReport` give. -/
  get : Nat → Option Report
  /-- The reports that have been sent, and whether that succeeded. -/
  sent : List (Report × Bool)
  got : Nat

/-- `set_report` for a feature report. -/
def hidSendFeatureReport (data : Report) (w : Wire) : Int × Wire :=
  -- without numbered reports the number is not sent
  let dataToSend := if data.headD 0 = 0 then data.tail else data
  let res := w.set w.sent.length
  (if res then data.length else -1, { w with sent := w.sent ++ [(dataToSend, res)] })

/-- The length that was read, and the buffer. -/
def hidGetFeatureReport (data : Report) (w : Wire) : (Int × Report) × Wire :=
  let w' := { w with got := w.got + 1 }
  match w.get w.got with
  | some answer => ((answer.length, answer ++ data.drop answer.length), w')
  | none => ((-1, data), w')

def blink1Write (dev : Bool) (buf : Report) (w : Wire) : Int × Wire :=
  if dev = false then (-1, w) else hidSendFeatureReport buf w

def blink1Read (dev : Bool) (buf : Report) (w : Wire) : (Int × Report) × Wire :=
  if dev = false then ((-1, buf), w)
  else
    let (_, w) := hidSendFeatureReport buf w
    let ((len, buf), w) := hidGetFeatureReport buf w
    -- `rc` is what the comparison gives
    ((if len = -1 then 1 else 0, buf), w)

/-- A command with an answer: write, and read if that has not failed. -/
def exchange (dev : Bool) (buf : Report) (w : Wire) : (Int × Report) × Wire :=
  let (rc, w) := blink1Write dev buf w
  if rc ≠ -1 then blink1Read dev buf w else ((rc, buf), w)

/-- A `char` of the buffer. -/
def charAt (buf : Report) (i : Nat) : Int := (buf.getD i 0).toInt8.toInt

def blink1GetVersion (dev : Bool) (w : Wire) : Int × Wire :=
  let ((rc, buf), w) := exchange dev [blink1ReportId, 'v'.toUInt8, 0, 0, 0, 0, 0, 0, 0] w
  (if rc ≠ -1 then (charAt buf 3 - 48) * 100 + (charAt buf 4 - 48) else rc, w)

/-- The second component is what is stored through `val`. -/
def blink1Eeread (dev : Bool) (addr : UInt16) (w : Wire) : (Int × Option UInt8) × Wire :=
  let ((rc, buf), w) := exchange dev [blink1ReportId, 'e'.toUInt8, addr.toUInt8, 0, 0, 0, 0, 0, 0] w
  ((rc, if rc ≠ -1 then some (buf.getD 3 0) else none), w)

def blink1ReadPatternLine (dev : Bool) (pos : UInt8) (w : Wire) : (Int × Option PatternLine) × Wire :=
  let ((rc, buf), w) := exchange dev [blink1ReportId, 'R'.toUInt8, 0, 0, 0, 0, 0, pos, 0] w
  ((rc, if rc ≠ -1 then some (readPatternLineOf buf) else none), w)

theorem send_fails (data : Report) (w : Wire) (h : data ≠ []) :
    (hidSendFeatureReport data w).1 = -1 ↔ w.set w.sent.length = false := by
  have hlen : 0 < data.length := List.length_pos_iff.mpr h
  simp only [hidSendFeatureReport]
  cases w.set w.sent.length with
  | true =>
    simp only [if_true, Bool.true_eq_false, iff_false]
    omega
  | false => simp

/-- What a command gets back when its report has been sent. -/
theorem exchange_sent {buf : Report} {w : Wire} (hbuf : buf ≠ []) (h : w.set w.sent.length = true) :
    (exchange true buf w).1 = (w.get w.got).elim (1, buf) fun answer => (0, answer ++ buf.drop answer.length) := by
  have hrc : (hidSendFeatureReport buf w).1 ≠ -1 := by
    rw [Ne, send_fails buf w hbuf, h]
    exact Bool.noConfusion
  simp only [exchange, blink1Write, blink1Read, Bool.true_eq_false, if_false, hrc, ne_eq, not_false_eq_true, if_true,
    hidGetFeatureReport]
  have hget : (hidSendFeatureReport buf (hidSendFeatureReport buf w).2).2.get = w.get := rfl
  have hgot : (hidSendFeatureReport buf (hidSendFeatureReport buf w).2).2.got = w.got := rfl
  rw [hget, hgot]
  cases w.get w.got with
  | none => rfl
  | some answer =>
    have hlen : ((answer.length : Int) = -1) = False := eq_false (by omega)
    simp only [hlen, if_false, Option.elim_some]

theorem exchange_unsent {buf : Report} {w : Wire} (hbuf : buf ≠ []) (h : w.set w.sent.length = false) :
    (exchange true buf w).1 = (-1, buf) := by
  have hrc : (hidSendFeatureReport buf w).1 = -1 := (send_fails buf w hbuf).mpr h
  simp only [exchange, blink1Write, Bool.true_eq_false, if_false, hrc, ne_eq, not_true_eq_false]

/-- A command fails iff its report cannot be sent. -/
theorem exchange_fails {buf : Report} (hbuf : buf ≠ []) (w : Wire) :
    (exchange true buf w).1.1 = -1 ↔ w.set w.sent.length = false := by
  cases h : w.set w.sent.length with
  | true =>
    rw [exchange_sent hbuf h]
    cases w.get w.got <;> simp
  | false =>
    rw [exchange_unsent hbuf h]
    simp

/-- **A read that fails goes unseen.** The commands of an open device fail iff their report cannot be sent. Where only
the answer cannot be read they take the bytes that they have sent for it. -/
theorem failed_read (w : Wire) (addr : UInt16) (pos : UInt8) :
    ((blink1Eeread true addr w).1.1 = -1 ↔ w.set w.sent.length = false) ∧
    ((blink1ReadPatternLine true pos w).1.1 = -1 ↔ w.set w.sent.length = false) ∧
    (w.set w.sent.length = true ∧ w.get w.got = none →
      (blink1GetVersion true w).1 = -4848 ∧ (blink1Eeread true addr w).1 = (1, some 0) ∧
      (blink1ReadPatternLine true pos w).1 = (1, some ⟨0, 0, 0, 0⟩)) := by
  refine ⟨exchange_fails (List.cons_ne_nil _ _) w, exchange_fails (List.cons_ne_nil _ _) w, fun ⟨hset, hget⟩ => ?_⟩
  have hsent : ∀ buf : Report, buf ≠ [] → (exchange true buf w).1 = (1, buf) := by
    intro buf hbuf
    rw [exchange_sent hbuf hset, hget]
    rfl
  refine ⟨?_, ?_, ?_⟩
  · have hv := hsent [blink1ReportId, 'v'.toUInt8, 0, 0, 0, 0, 0, 0, 0] (List.cons_ne_nil _ _)
    simp only [blink1GetVersion, hv]
    decide
  · have he := hsent [blink1ReportId, 'e'.toUInt8, addr.toUInt8, 0, 0, 0, 0, 0, 0] (List.cons_ne_nil _ _)
    simp only [blink1Eeread, he]
    rfl
  · have hr := hsent [blink1ReportId, 'R'.toUInt8, 0, 0, 0, 0, 0, pos, 0] (List.cons_ne_nil _ _)
    simp only [blink1ReadPatternLine, hr]
    rfl

/-! ## The serial number -/

def blink1EeaddrSerialnum : UInt16 := 2

/-- `toupper` of the C locale. -/
def toupper (c : UInt8) : UInt8 := if 'a'.toUInt8 ≤ c ∧ c ≤ 'z'.toUInt8 then c - 32 else c

def parseHex (c : UInt8) : UInt8 :=
  let c := toupper c
  if c ≥ '0'.toUInt8 ∧ c ≤ '9'.toUInt8 then c - '0'.toUInt8
  else if c ≥ 'A'.toUInt8 ∧ c ≤ 'F'.toUInt8 then c - 'A'.toUInt8 + 10
  else 0

def eewriteReport (addr : UInt16) (val : UInt8) : Report :=
  [blink1ReportId, 'E'.toUInt8, addr.toUInt8, val, 0, 0, 0, 0, 0]

def blink1Eewrite (dev : Bool) (addr : UInt16) (val : UInt8) (w : Wire) : Int × Wire :=
  blink1Write dev (eewriteReport addr val) w

/-- The bytes of a serial number from its digits. -/
def serialnumOf (serialnumstr : Nat → UInt8) : List UInt8 :=
  (List.range 4).map fun i => parseHex (serialnumstr (2 * i)) * 16 + parseHex (serialnumstr (2 * i + 1))

/-- The loop over the bytes, from the `i`-th one on. -/
def serialnumLoop (dev : Bool) : Nat → List UInt8 → Wire → Wire
  | _, [], w => w
  | i, v :: vs, w =>
    let (rc, w) := blink1Eewrite dev (blink1EeaddrSerialnum + UInt16.ofNat i) v w
    if rc = -1 then
      let (rc, w) := blink1Eewrite dev (blink1EeaddrSerialnum + UInt16.ofNat i) v w
      if rc = -1 then w else serialnumLoop dev (i + 1) vs w
    else serialnumLoop dev (i + 1) vs w

/-- The `rc` of the loop is another variable than the one that is returned. -/
def blink1Serialnumwrite (dev : Bool) (serialnumstr : Nat → UInt8) (w : Wire) : Int × Wire :=
  (0, serialnumLoop dev 0 (serialnumOf serialnumstr) w)

/-- The reports that a device has taken. -/
def Wire.taken (w : Wire) : List Report := (w.sent.filter Prod.snd).map Prod.fst

/-- The writes of the loop, in their order. -/
def serialnumReports (i : Nat) : List UInt8 → List Report
  | [] => []
  | v :: vs => eewriteReport (blink1EeaddrSerialnum + UInt16.ofNat i) v :: serialnumReports (i + 1) vs

/-- An upper-case hexadecimal digit. -/
def hexDigit (n : Nat) : UInt8 := if n < 10 then UInt8.ofNat (48 + n) else UInt8.ofNat (55 + n)

/-- Four bytes as eight digits. -/
def digitsOf (bytes : Nat → UInt8) (i : Nat) : UInt8 :=
  hexDigit (if i % 2 = 0 then (bytes (i / 2)).toNat / 16 else (bytes (i / 2)).toNat % 16)

theorem parseHex_hexDigit : ∀ n < 16, (parseHex (hexDigit n)).toNat = n := by decide

/-- The bytes whose digits are given are written. -/
theorem serialnumOf_digitsOf (bytes : Nat → UInt8) : serialnumOf (digitsOf bytes) = (List.range 4).map bytes := by
  refine List.map_congr_left fun i _ => ?_
  have hhi : 2 * i % 2 = 0 := by omega
  have hlo : (2 * i + 1) % 2 ≠ 0 := by omega
  have hi : 2 * i / 2 = i := by omega
  have hi' : (2 * i + 1) / 2 = i := by omega
  have hlt := (bytes i).toNat_lt
  rw [← UInt8.toNat_inj]
  simp only [digitsOf, hhi, hlo, hi, hi', if_true, if_false, UInt8.toNat_add, UInt8.toNat_mul]
  rw [parseHex_hexDigit _ (by omega), parseHex_hexDigit _ (by omega), show (16 : UInt8).toNat = 16 from rfl]
  omega

/-- An attempt to write a byte. -/
theorem eewrite_spec (addr : UInt16) (val : UInt8) (w : Wire) :
    ∃ ok w', blink1Eewrite true addr val w = (if ok then 9 else -1, w') ∧
      w'.sent = w.sent ++ [(eewriteReport addr val, ok)] :=
  ⟨w.set w.sent.length, _, rfl, rfl⟩

theorem taken_append {w w' : Wire} {r : Report} {ok : Bool} (h : w'.sent = w.sent ++ [(r, ok)]) :
    w'.taken = w.taken ++ if ok then [r] else [] := by
  cases ok <;> simp [Wire.taken, h]

/-- The loop ends after the last byte, or where a byte has failed twice. -/
theorem serialnumLoop_run (i : Nat) (vs : List UInt8) (w : Wire) :
    ∃ k, (serialnumLoop true i vs w).taken = w.taken ++ (serialnumReports i vs).take k ∧
      (k = vs.length ∨ ∃ r before, (serialnumReports i vs)[k]? = some r ∧
        (serialnumLoop true i vs w).sent = before ++ [(r, false), (r, false)]) := by
  induction vs generalizing i w with
  | nil => exact ⟨0, by simp [serialnumLoop], Or.inl rfl⟩
  | cons v vs ih =>
    -- the byte is written, and the loop goes on from `w'`
    have hnext : ∀ w' : Wire,
        w'.taken = w.taken ++ [eewriteReport (blink1EeaddrSerialnum + UInt16.ofNat i) v] →
        serialnumLoop true i (v :: vs) w = serialnumLoop true (i + 1) vs w' →
        ∃ k, (serialnumLoop true i (v :: vs) w).taken = w.taken ++ (serialnumReports i (v :: vs)).take k ∧
          (k = (v :: vs).length ∨ ∃ r before, (serialnumReports i (v :: vs))[k]? = some r ∧
            (serialnumLoop true i (v :: vs) w).sent = before ++ [(r, false), (r, false)]) := by
      intro w' ht hw'
      obtain ⟨k, hk, hend⟩ := ih (i + 1) w'
      rw [hw']
      refine ⟨k + 1, ?_, ?_⟩
      · rw [hk, ht, serialnumReports, List.take_succ_cons, List.append_assoc, List.singleton_append]
      · rcases hend with rfl | hend
        · exact Or.inl rfl
        · exact Or.inr hend
    obtain ⟨ok₁, w₁, hw₁, hs₁⟩ := eewrite_spec (blink1EeaddrSerialnum + UInt16.ofNat i) v w
    have ht₁ := taken_append hs₁
    cases ok₁ with
    | true => exact hnext w₁ ht₁ (by simp [serialnumLoop, hw₁])
    | false =>
      obtain ⟨ok₂, w₂, hw₂, hs₂⟩ := eewrite_spec (blink1EeaddrSerialnum + UInt16.ofNat i) v w₁
      have ht₂ := taken_append hs₂
      rw [ht₁] at ht₂
      cases ok₂ with
      | true => exact hnext w₂ (by simpa using ht₂) (by simp [serialnumLoop, hw₁, hw₂])
      | false =>
        have hloop : serialnumLoop true i (v :: vs) w = w₂ := by simp [serialnumLoop, hw₁, hw₂]
        rw [hloop]
        refine ⟨0, by simpa using ht₂, Or.inr ⟨_, w.sent, rfl, ?_⟩⟩
        rw [hs₂, hs₁, List.append_assoc, List.singleton_append]

/-- **The serial number is written without a report.** `blink1_serialnumwrite` returns 0. The device has taken the
first bytes in their order, up to all four or up to one that has failed twice, after which none is sent. -/
theorem serialnumwrite_run (dev : Bool) (serialnumstr : Nat → UInt8) (w : Wire) :
    (blink1Serialnumwrite dev serialnumstr w).1 = 0 ∧
    ∃ k, (blink1Serialnumwrite true serialnumstr w).2.taken =
        w.taken ++ (serialnumReports 0 (serialnumOf serialnumstr)).take k ∧
      (k = 4 ∨ ∃ r before, (serialnumReports 0 (serialnumOf serialnumstr))[k]? = some r ∧
        (blink1Serialnumwrite true serialnumstr w).2.sent = before ++ [(r, false), (r, false)]) :=
  ⟨rfl, serialnumLoop_run 0 (serialnumOf serialnumstr) w⟩

end SvrMnu.Hid
