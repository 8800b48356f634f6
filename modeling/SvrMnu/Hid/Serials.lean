import SvrMnu.Hid.Commands
import Mathlib.Data.List.Sort
import Mathlib.Data.List.Lex
import Mathlib.Data.PNat.Basic

/-!
# Which blink(1) is opened

`blink1_enumerate` keeps the paths and the serial numbers of the devices in two arrays and sorts the second one;
`blink1_openById` opens the first device with the serial number in a slot.

- `wcsncmp_le`: the comparison of the sort is the lexicographic order;
- `openById_least`: the device of id 0 is the one with the least serial number, whatever order the system lists the
  devices in, and none if that number is empty or the system does not open it;
- `paths_iff_sorted`: the two arrays agree iff the devices were found in the order of their serial numbers.
-/

set_option autoImplicit false

namespace SvrMnu.Hid

/-- A `wchar_t` string; the `0` at its end is left out. -/
abbrev Serial : Type := List ℕ+

/-- A device that the system has. -/
structure IOHIDDevice where
  vendorId : Nat
  productId : Nat
  /-- What `make_path` makes of its transport, its identifiers and its location. -/
  path : String
  serialNumber : Option Serial
  deriving DecidableEq

structure HidDeviceInfo where
  path : String
  vendorId : Nat
  productId : Nat
  serialNumber : Serial

/-- `get_serial_number` with a buffer of 256. -/
def getSerialNumber (dev : IOHIDDevice) : Serial := (dev.serialNumber.getD []).take 255

def infoOf (dev : IOHIDDevice) : HidDeviceInfo := ⟨dev.path, dev.vendorId, dev.productId, getSerialNumber dev⟩

/-- `hid_enumerate`, in the order in which the system lists the devices. -/
def hidEnumerate (devs : List IOHIDDevice) (vendorId productId : Nat) : List HidDeviceInfo :=
  (devs.filter fun dev =>
    (vendorId = 0 ∨ vendorId = dev.vendorId) ∧ (productId = 0 ∨ productId = dev.productId)).map infoOf

/-- `hid_open_path` finds the first device with the path, and gives up if that cannot be opened. What
`IOHIDDeviceOpen` answers for a device is in `opens`: another program may have seized it. -/
def hidOpenPath (opens : IOHIDDevice → Bool) (devs : List IOHIDDevice) (path : String) : Option IOHIDDevice :=
  match devs.find? (·.path = path) with
  | some osDev => if opens osDev then some osDev else none
  | none => none

/-- `hid_open` with a serial number. -/
def hidOpen (opens : IOHIDDevice → Bool) (devs : List IOHIDDevice) (vendorId productId : Nat) (serialNumber : Serial) :
    Option IOHIDDevice :=
  ((hidEnumerate devs vendorId productId).find? fun info =>
    info.vendorId = vendorId ∧ info.productId = productId ∧ serialNumber = info.serialNumber).bind fun info =>
      hidOpenPath opens devs info.path

def blink1Vid : Nat := 0xB8 + 256 * 0x27

def blink1Pid : Nat := 0xED + 256 * 0x01

/-- The static arrays, of 16 slots each, and how many are in use. -/
structure Cache where
  paths : Nat → String
  serials : Nat → Serial
  count : Nat

/-- The loop of `blink1_enumerateByVidPid`, which writes over the arrays if there are too many devices or too long
strings. -/
def fill (vid pid : Nat) : List HidDeviceInfo → Cache → Option Cache
  | [], cache => some cache
  | info :: infos, cache =>
    if info.vendorId ≠ 0 ∧ info.productId ≠ 0 ∧ info.vendorId = vid ∧ info.productId = pid then
      if cache.count < 16 ∧ info.path.utf8ByteSize < 128 ∧ info.serialNumber.length < 9 then
        fill vid pid infos
          { paths := Function.update cache.paths cache.count info.path
            serials := Function.update cache.serials cache.count info.serialNumber
            count := cache.count + 1 }
      else none
    else fill vid pid infos cache

/-- The comparison of the first `n` characters. -/
def wcsncmp : Nat → Serial → Serial → Int
  | 0, _, _ => 0
  | _ + 1, [], [] => 0
  | _ + 1, [], b :: _ => -b
  | _ + 1, a :: _, [] => a
  | n + 1, a :: as, b :: bs => if a ≠ b then a - b else wcsncmp n as bs

/-- `cmp_serial` -/
def CmpSerial (a b : Serial) : Prop := wcsncmp 9 a b ≤ 0

instance : DecidableRel CmpSerial := fun a b => inferInstanceAs (Decidable (wcsncmp 9 a b ≤ 0))

/-- `blink1_sortSerials`; `qsort` as an insertion sort. -/
def blink1SortSerials (cache : Cache) : Cache :=
  let sorted := ((List.range cache.count).map cache.serials).insertionSort CmpSerial
  { cache with serials := fun i => (sorted[i]?).getD (cache.serials i) }

/-- `blink1_enumerateByVidPid`, `none` where it writes over its arrays. -/
def blink1EnumerateByVidPid (devs : List IOHIDDevice) (vid pid : Nat) (cache : Cache) : Option Cache :=
  (fill vid pid (hidEnumerate devs vid pid) { cache with count := 0 }).map blink1SortSerials

def blink1Enumerate (devs : List IOHIDDevice) (cache : Cache) : Option Cache :=
  blink1EnumerateByVidPid devs blink1Vid blink1Pid cache

def blink1OpenBySerial (opens : IOHIDDevice → Bool) (devs : List IOHIDDevice) (serial : Serial) : Option IOHIDDevice :=
  if serial.length = 0 then none else hidOpen opens devs blink1Vid blink1Pid serial

def blink1OpenById (opens : IOHIDDevice → Bool) (devs : List IOHIDDevice) (cache : Cache) (i : Nat) :
    Option IOHIDDevice :=
  blink1OpenBySerial opens devs (cache.serials i)

/-! ## The order of the serial numbers -/

theorem wcsncmp_lex (n : Nat) (a b : Serial) :
    wcsncmp n a b ≤ 0 ↔ ¬ List.Lex (· < ·) (b.take n) (a.take n) := by
  induction n generalizing a b with
  | zero => simp [wcsncmp]
  | succ n ih =>
    cases a with
    | nil => cases b <;> simp [wcsncmp]
    | cons x a =>
      cases b with
      | nil => simp [wcsncmp]
      | cons y b =>
        rw [List.take_succ_cons, List.take_succ_cons, List.cons_lex_cons_iff]
        simp only [wcsncmp]
        by_cases hxy : x = y
        · subst hxy
          simp [ih]
        · have hne : (x : Nat) ≠ y := fun h => hxy (PNat.coe_injective h)
          have hlt : y < x ↔ (y : Nat) < x := (PNat.coe_lt_coe y x).symm
          have hyx : ¬ y = x := fun h => hxy h.symm
          simp only [ne_eq, hxy, not_false_eq_true, if_true, hyx, false_and, or_false, hlt]
          omega

/-- The comparison is the order of the strings, as far as it looks. -/
theorem wcsncmp_le (n : Nat) (a b : Serial) : wcsncmp n a b ≤ 0 ↔ a.take n ≤ b.take n := by
  rw [wcsncmp_lex, ← not_lt]
  exact Iff.rfl

theorem cmpSerial_iff {a b : Serial} (ha : a.length < 9) (hb : b.length < 9) : CmpSerial a b ↔ a ≤ b := by
  rw [CmpSerial, wcsncmp_le, List.take_of_length_le (by omega), List.take_of_length_le (by omega)]

instance : Std.Total CmpSerial where
  total a b := by
    simp only [CmpSerial, wcsncmp_le]
    exact le_total _ _

instance : IsTrans Serial CmpSerial where
  trans a b c := by
    simp only [CmpSerial, wcsncmp_le]
    exact le_trans

/-! ## What the arrays hold -/

def IsBlink1 (dev : IOHIDDevice) : Prop := dev.vendorId = blink1Vid ∧ dev.productId = blink1Pid

instance : DecidablePred IsBlink1 := fun dev =>
  inferInstanceAs (Decidable (dev.vendorId = blink1Vid ∧ dev.productId = blink1Pid))

def blink1s (devs : List IOHIDDevice) : List IOHIDDevice := devs.filter IsBlink1

variable {opens : IOHIDDevice → Bool} {devs devs' : List IOHIDDevice} {cache cache' : Cache}

theorem hidEnumerate_blink1 (devs : List IOHIDDevice) :
    hidEnumerate devs blink1Vid blink1Pid = (blink1s devs).map infoOf := by
  refine congrArg (List.map infoOf) (List.filter_congr fun dev _ => ?_)
  have hvid : blink1Vid ≠ 0 := by decide
  have hpid : blink1Pid ≠ 0 := by decide
  simp only [IsBlink1, hvid, hpid, false_or, eq_comm]

theorem range_map_update {α : Type} (f : Nat → α) (n : Nat) (x : α) :
    (List.range (n + 1)).map (Function.update f n x) = (List.range n).map f ++ [x] := by
  rw [List.range_succ, List.map_append, List.map_singleton, Function.update_self]
  congr 1
  refine List.map_congr_left fun i hi => ?_
  have hne : i ≠ n := (List.mem_range.mp hi).ne
  exact Function.update_of_ne hne ..

/-- The arrays are filled from the front. -/
theorem fill_run {infos : List HidDeviceInfo}
    (hall : ∀ info ∈ infos, info.vendorId = blink1Vid ∧ info.productId = blink1Pid)
    (h : fill blink1Vid blink1Pid infos cache = some cache') :
    cache'.count = cache.count + infos.length ∧
    (List.range cache'.count).map cache'.paths =
      (List.range cache.count).map cache.paths ++ infos.map HidDeviceInfo.path ∧
    (List.range cache'.count).map cache'.serials =
      (List.range cache.count).map cache.serials ++ infos.map HidDeviceInfo.serialNumber ∧
    ∀ info ∈ infos, info.serialNumber.length < 9 := by
  induction infos generalizing cache with
  | nil =>
    cases Option.some.inj h
    exact ⟨rfl, by simp, by simp, nofun⟩
  | cons info infos ih =>
    obtain ⟨hinfo, hall⟩ := List.forall_mem_cons.mp hall
    have hmatch : info.vendorId ≠ 0 ∧ info.productId ≠ 0 ∧ info.vendorId = blink1Vid ∧ info.productId = blink1Pid := by
      rw [hinfo.1, hinfo.2]
      decide
    rw [fill, if_pos hmatch] at h
    split at h
    · next hfits =>
      obtain ⟨hc, hp, hs, hl⟩ := ih hall h
      refine ⟨?_, ?_, ?_, List.forall_mem_cons.mpr ⟨hfits.2.2, hl⟩⟩
      · rw [hc, List.length_cons, Nat.add_right_comm, Nat.add_assoc]
      · rw [hp, range_map_update, List.map_cons, List.append_assoc, List.singleton_append]
      · rw [hs, range_map_update, List.map_cons, List.append_assoc, List.singleton_append]
    · cases h

/-- The arrays after `blink1_enumerate`. -/
structure Enumerated (devs : List IOHIDDevice) (cache : Cache) : Prop where
  count : cache.count = (blink1s devs).length
  paths : (List.range cache.count).map cache.paths = (blink1s devs).map IOHIDDevice.path
  serials : (List.range cache.count).map cache.serials = ((blink1s devs).map getSerialNumber).insertionSort CmpSerial
  short : ∀ dev ∈ blink1s devs, (getSerialNumber dev).length < 9

theorem enumerated (h : blink1Enumerate devs cache = some cache') : Enumerated devs cache' := by
  obtain ⟨filled, hf, rfl⟩ := Option.map_eq_some_iff.mp h
  rw [hidEnumerate_blink1] at hf
  have hall : ∀ info ∈ (blink1s devs).map infoOf, info.vendorId = blink1Vid ∧ info.productId = blink1Pid := by
    intro info hinfo
    obtain ⟨dev, hdev, rfl⟩ := List.mem_map.mp hinfo
    exact of_decide_eq_true (List.mem_filter.mp hdev).2
  obtain ⟨hc, hp, hs, hl⟩ := fill_run hall hf
  simp only [List.range_zero, List.map_nil, List.nil_append, List.map_map, Nat.zero_add, List.length_map] at hc hp hs
  refine ⟨hc, hp, ?_, fun dev hdev => hl _ (List.mem_map_of_mem hdev)⟩
  have hsort : (List.range filled.count).map filled.serials = (blink1s devs).map getSerialNumber := hs
  simp only [blink1SortSerials, hsort]
  apply List.ext_getElem
  · rw [List.length_map, List.length_range, List.length_insertionSort, List.length_map, hc]
  · intro i _ hi
    rw [List.getElem_map, List.getElem_range, List.getElem?_eq_getElem hi, Option.getD_some]

/-! ## The device that is opened -/

theorem Enumerated.serial_mem (h : Enumerated devs cache) {i : Nat} (hi : i < cache.count) :
    ∃ dev ∈ blink1s devs, getSerialNumber dev = cache.serials i := by
  have hmem : cache.serials i ∈ (List.range cache.count).map cache.serials :=
    List.mem_map_of_mem (List.mem_range.mpr hi)
  rw [h.serials, List.mem_insertionSort] at hmem
  exact List.mem_map.mp hmem

/-- The first slot has the least serial number. -/
theorem Enumerated.least (h : Enumerated devs cache) (hc : 0 < cache.count) {dev : IOHIDDevice}
    (hdev : dev ∈ blink1s devs) : cache.serials 0 ≤ getSerialNumber dev := by
  have hsorted := List.pairwise_insertionSort CmpSerial ((blink1s devs).map getSerialNumber)
  have hmem : getSerialNumber dev ∈ ((blink1s devs).map getSerialNumber).insertionSort CmpSerial :=
    (List.mem_insertionSort CmpSerial).mpr (List.mem_map_of_mem hdev)
  obtain ⟨dev₀, hdev₀, hs₀⟩ := h.serial_mem hc
  have hcmp : CmpSerial (cache.serials 0) (getSerialNumber dev) := by
    rw [← h.serials] at hsorted hmem
    obtain ⟨n, hn⟩ := Nat.exists_eq_add_of_lt hc
    rw [Nat.zero_add] at hn
    rw [hn, List.range_succ_eq_map, List.map_cons] at hsorted hmem
    rcases List.mem_cons.mp hmem with he | ht
    · rw [he]
      exact (total_of CmpSerial _ _).elim id id
    · exact (List.pairwise_cons.mp hsorted).1 _ ht
  exact (cmpSerial_iff (hs₀ ▸ h.short dev₀ hdev₀) (h.short dev hdev)).mp hcmp

/-- No two devices have the path of a blink(1). -/
def PathsDiffer (devs : List IOHIDDevice) : Prop :=
  ∀ dev ∈ devs, IsBlink1 dev → ∀ dev' ∈ devs, dev'.path = dev.path → dev' = dev

theorem mem_blink1s {dev : IOHIDDevice} : dev ∈ blink1s devs ↔ dev ∈ devs ∧ IsBlink1 dev := by
  simp only [blink1s, List.mem_filter, decide_eq_true_eq]

/-- The path of a blink(1) leads to it and to no other device. -/
theorem hidOpenPath_blink1 (hpaths : PathsDiffer devs) {dev : IOHIDDevice} (hdev : dev ∈ blink1s devs) :
    hidOpenPath opens devs dev.path = if opens dev then some dev else none := by
  obtain ⟨hmem, hblink⟩ := mem_blink1s.mp hdev
  unfold hidOpenPath
  cases hfind : devs.find? (·.path = dev.path) with
  | none => exact absurd (decide_eq_true rfl) (List.find?_eq_none.mp hfind dev hmem)
  | some dev' =>
    have hpath : dev'.path = dev.path := by simpa using List.find?_some hfind
    rw [hpaths dev hmem hblink dev' (List.mem_of_find?_eq_some hfind) hpath]

/-- `hid_open` finds a blink(1) with the serial number, if there is one, and opens it if it can. -/
theorem hidOpen_blink1 {serial : Serial} (opens : IOHIDDevice → Bool) (hpaths : PathsDiffer devs)
    (h : ∃ dev ∈ blink1s devs, getSerialNumber dev = serial) :
    ∃ dev ∈ blink1s devs, getSerialNumber dev = serial ∧
      hidOpen opens devs blink1Vid blink1Pid serial = if opens dev then some dev else none := by
  obtain ⟨dev, hdev, hserial⟩ := h
  unfold hidOpen
  rw [hidEnumerate_blink1]
  cases hfind : ((blink1s devs).map infoOf).find? fun info =>
      decide (info.vendorId = blink1Vid ∧ info.productId = blink1Pid ∧ serial = info.serialNumber) with
  | none =>
    have hno := List.find?_eq_none.mp hfind (infoOf dev) (List.mem_map_of_mem hdev)
    obtain ⟨hvid, hpid⟩ := (mem_blink1s.mp hdev).2
    exact absurd (decide_eq_true ⟨hvid, hpid, hserial.symm⟩) hno
  | some info =>
    obtain ⟨dev₀, hdev₀, rfl⟩ := List.mem_map.mp (List.mem_of_find?_eq_some hfind)
    have hsome := List.find?_some hfind
    obtain ⟨-, -, hs₀⟩ := of_decide_eq_true hsome
    exact ⟨dev₀, hdev₀, hs₀.symm, hidOpenPath_blink1 hpaths hdev₀⟩

/-- **The blink(1) that shows the players.** When the devices are those of the last `blink1_enumerate`, in any order,
what id 0 stands for is a blink(1) with the least serial number. It is opened, and not iff that number is empty or the
system does not open it. -/
theorem openById_least (opens : IOHIDDevice → Bool) (hp : devs'.Perm devs) (hpaths : PathsDiffer devs')
    (h : blink1Enumerate devs cache = some cache') (hc : 0 < cache'.count) :
    ∃ dev ∈ devs, IsBlink1 dev ∧ (∀ dev' ∈ devs, IsBlink1 dev' → getSerialNumber dev ≤ getSerialNumber dev') ∧
      blink1OpenById opens devs' cache' 0 =
        if getSerialNumber dev = [] ∨ opens dev = false then none else some dev := by
  have henum := enumerated h
  obtain ⟨dev, hdev, hserial⟩ := henum.serial_mem hc
  obtain ⟨hmem, hblink⟩ := mem_blink1s.mp hdev
  have hdev' : dev ∈ blink1s devs' := mem_blink1s.mpr ⟨hp.mem_iff.mpr hmem, hblink⟩
  obtain ⟨dev₁, hdev₁, hs₁, hopen⟩ := hidOpen_blink1 opens hpaths ⟨dev, hdev', hserial⟩
  obtain ⟨hmem₁, hblink₁⟩ := mem_blink1s.mp hdev₁
  refine ⟨dev₁, hp.mem_iff.mp hmem₁, hblink₁, fun dev' hmem' hblink' => ?_, ?_⟩
  · rw [hs₁]
    exact henum.least hc (mem_blink1s.mpr ⟨hmem', hblink'⟩)
  · unfold blink1OpenById blink1OpenBySerial
    rw [hs₁, hopen]
    by_cases hempty : cache'.serials 0 = []
    · rw [if_pos (List.length_eq_zero_iff.mpr hempty), if_pos (Or.inl hempty)]
    · rw [if_neg (mt List.length_eq_zero_iff.mp hempty)]
      cases opens dev₁ <;> simp [hempty]

/-- Two devices, found in the other order than that of their serial numbers. -/
def twoDevices : List IOHIDDevice := [⟨blink1Vid, blink1Pid, "b", some [2]⟩, ⟨blink1Vid, blink1Pid, "a", some [1]⟩]

def emptyCache : Cache := ⟨fun _ => "", fun _ => [], 0⟩

/-- The second one is what id 0 stands for, and is not opened while another program has it. -/
theorem openById_least_two : ∃ cache, blink1Enumerate twoDevices emptyCache = some cache ∧
    blink1OpenById (fun _ => true) twoDevices.reverse cache 0 = some ⟨blink1Vid, blink1Pid, "a", some [1]⟩ ∧
    blink1OpenById (fun dev => decide (dev.path = "b")) twoDevices.reverse cache 0 = none := by
  have hrun : (blink1Enumerate twoDevices emptyCache).any (fun cache => decide (cache.count = 2)) = true := by
    decide +kernel
  obtain ⟨cache, henum, hcount⟩ := (Option.any_eq_true _ _).mp hrun
  have hc : 0 < cache.count := by rw [of_decide_eq_true hcount]; decide
  have hp : twoDevices.reverse.Perm twoDevices := List.reverse_perm _
  have hpaths : PathsDiffer twoDevices.reverse := by simp [PathsDiffer, twoDevices]
  -- a device that is as small as both is the second one
  have hleast : ∀ dev ∈ twoDevices, (∀ dev' ∈ twoDevices, IsBlink1 dev' → getSerialNumber dev ≤ getSerialNumber dev') →
      dev = ⟨blink1Vid, blink1Pid, "a", some [1]⟩ := by decide +kernel
  obtain ⟨dev, hdev, -, hle, hopen⟩ := openById_least (fun _ => true) hp hpaths henum hc
  obtain ⟨dev', hdev', -, hle', hopen'⟩ :=
    openById_least (fun dev => decide (dev.path = "b")) hp hpaths henum hc
  cases hleast dev hdev hle
  cases hleast dev' hdev' hle'
  exact ⟨cache, henum, hopen, hopen'⟩

/-- The slots in which the arrays agree. -/
theorem Enumerated.serial_iff (h : Enumerated devs cache) (hpaths : PathsDiffer devs) {i : Nat} {dev : IOHIDDevice}
    (hi : (blink1s devs)[i]? = some dev) :
    (∃ dev ∈ devs, IsBlink1 dev ∧ cache.paths i = dev.path ∧ cache.serials i = getSerialNumber dev) ↔
      cache.serials i = getSerialNumber dev := by
  obtain ⟨hmem, hblink⟩ := mem_blink1s.mp (List.mem_of_getElem? hi)
  have hlt : i < cache.count := h.count ▸ (List.getElem?_eq_some_iff.mp hi).1
  have hpath : cache.paths i = dev.path := by
    have hat := congrArg (fun l => l[i]?) h.paths
    simp only [List.getElem?_map, List.getElem?_range hlt, hi, Option.map_some, Option.some.injEq] at hat
    exact hat
  constructor
  · rintro ⟨dev', hmem', -, hp', hs'⟩
    rw [hs', hpaths dev hmem hblink dev' hmem' (hp'.symm.trans hpath)]
  · intro hs
    exact ⟨dev, hmem, hblink, hpath, hs⟩

/-- **The two arrays.** The path and the serial number in a slot are those of one device, for every slot, iff the
devices were found in the order of their serial numbers: only the serial numbers are sorted. -/
theorem paths_iff_sorted (hpaths : PathsDiffer devs) (h : blink1Enumerate devs cache = some cache') :
    (∀ i < cache'.count, ∃ dev ∈ devs, IsBlink1 dev ∧ cache'.paths i = dev.path ∧
      cache'.serials i = getSerialNumber dev) ↔
    ((blink1s devs).map getSerialNumber).Pairwise (· ≤ ·) := by
  have henum := enumerated h
  have hshort : ∀ a ∈ (blink1s devs).map getSerialNumber, a.length < 9 := by
    intro a ha
    obtain ⟨dev, hdev, rfl⟩ := List.mem_map.mp ha
    exact henum.short dev hdev
  constructor
  · intro hall
    -- the sorted list is the list that was found
    have heq : ((blink1s devs).map getSerialNumber).insertionSort CmpSerial = (blink1s devs).map getSerialNumber := by
      rw [← henum.serials, henum.count]
      apply List.ext_getElem
      · rw [List.length_map, List.length_map, List.length_range]
      · intro i hi hi'
        rw [List.length_map] at hi'
        rw [List.getElem_map, List.getElem_map, List.getElem_range]
        exact (henum.serial_iff hpaths (List.getElem?_eq_getElem hi')).mp (hall i (henum.count ▸ hi'))
    have hsorted := List.pairwise_insertionSort CmpSerial ((blink1s devs).map getSerialNumber)
    rw [heq] at hsorted
    exact hsorted.imp_of_mem fun ha hb hab => (cmpSerial_iff (hshort _ ha) (hshort _ hb)).mp hab
  · intro hsorted i hi
    have hcmp : ((blink1s devs).map getSerialNumber).Pairwise CmpSerial :=
      hsorted.imp_of_mem fun ha hb hab => (cmpSerial_iff (hshort _ ha) (hshort _ hb)).mpr hab
    have hi' : i < (blink1s devs).length := henum.count ▸ hi
    refine (henum.serial_iff hpaths (List.getElem?_eq_getElem hi')).mpr ?_
    have hat := congrArg (fun l => l[i]?) henum.serials
    rw [hcmp.insertionSort_eq] at hat
    simpa [hi, hi'] using hat

theorem paths_iff_sorted_two : ∃ cache, blink1Enumerate twoDevices emptyCache = some cache ∧
    ¬ ∀ i < cache.count, ∃ dev ∈ twoDevices, IsBlink1 dev ∧ cache.paths i = dev.path ∧
      cache.serials i = getSerialNumber dev := by
  have hrun : (blink1Enumerate twoDevices emptyCache).isSome = true := by decide +kernel
  obtain ⟨cache, henum⟩ := Option.isSome_iff_exists.mp hrun
  have hpaths : PathsDiffer twoDevices := by simp [PathsDiffer, twoDevices]
  refine ⟨cache, henum, fun hall => ?_⟩
  have hsorted := (paths_iff_sorted hpaths henum).mp hall
  revert hsorted
  decide +kernel

end SvrMnu.Hid
