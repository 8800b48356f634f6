import SvrMnu.PortMapper
import SvrMnu.Exact
import Std.Data.String.ToNat

/-!
# Addresses as text and as numbers

A server tells its address as text, and the public address is found as a number: `makeMenus` compares their texts.

- `stringFromIPv4Addr_inj`: two addresses have the same text only if they are the same;
- `ownServer_iff`: so `makeMenus` takes off the user iff a server has the public address;
- `localAddressIsPrivate_iff`: the masks and values of `kPrivateRanges` are the six ranges they stand for.
-/

set_option autoImplicit false

namespace SvrMnu

open Sys

/-! ## Text -/

/-- Fields without the separator end where the separator comes first. -/
theorem append_sep_inj {c : Char} {x y r s : List Char} (hx : c ∉ x) (hy : c ∉ y) (h : x ++ c :: r = y ++ c :: s) :
    x = y ∧ r = s := by
  induction x generalizing y with
  | nil =>
    cases y with
    | nil => exact ⟨rfl, (List.cons.inj h).2⟩
    | cons e y =>
      obtain ⟨rfl, -⟩ := List.cons.inj h
      exact absurd List.mem_cons_self hy
  | cons d x ih =>
    cases y with
    | nil =>
      obtain ⟨rfl, -⟩ := List.cons.inj h
      exact absurd List.mem_cons_self hx
    | cons e y =>
      obtain ⟨rfl, htail⟩ := List.cons.inj h
      obtain ⟨rfl, hr⟩ := ih (fun hc => hx (List.mem_cons_of_mem _ hc)) (fun hc => hy (List.mem_cons_of_mem _ hc)) htail
      exact ⟨rfl, hr⟩

theorem dot_notMem_repr (n : Nat) : '.' ∉ n.repr.toList := by
  rw [Nat.toList_repr]
  intro h
  have hd := Nat.isDigit_of_mem_toDigits (by decide) (by decide) h
  cases hd

/-- The text of four numbers. -/
def quad (a b c d : Nat) : String :=
  toString a ++ "." ++ toString b ++ "." ++ toString c ++ "." ++ toString d

theorem toList_quad (a b c d : Nat) : (quad a b c d).toList =
    a.repr.toList ++ '.' :: (b.repr.toList ++ '.' :: (c.repr.toList ++ '.' :: d.repr.toList)) := by
  have hdot : (".").toList = ['.'] := rfl
  simp only [quad, Nat.toString_eq_repr, String.toList_append, hdot, List.append_assoc, List.cons_append,
    List.nil_append]

theorem quad_inj {a b c d a' b' c' d' : Nat} (h : quad a b c d = quad a' b' c' d') :
    a = a' ∧ b = b' ∧ c = c' ∧ d = d' := by
  have hl := congrArg String.toList h
  rw [toList_quad, toList_quad] at hl
  obtain ⟨ha, hl⟩ := append_sep_inj (dot_notMem_repr a) (dot_notMem_repr a') hl
  obtain ⟨hb, hl⟩ := append_sep_inj (dot_notMem_repr b) (dot_notMem_repr b') hl
  obtain ⟨hc, hd⟩ := append_sep_inj (dot_notMem_repr c) (dot_notMem_repr c') hl
  exact ⟨Nat.repr_injective (String.toList_inj.mp ha), Nat.repr_injective (String.toList_inj.mp hb),
    Nat.repr_injective (String.toList_inj.mp hc), Nat.repr_injective (String.toList_inj.mp hd)⟩

/-- An address is its bytes. -/
theorem toNat_eq_bytes (a : UInt32) : a.toNat =
    addrByte a 0 + 2 ^ 8 * addrByte a 1 + 2 ^ 16 * addrByte a 2 + 2 ^ 24 * addrByte a 3 := by
  have h := a.toNat_lt
  simp only [addrByte, Nat.shiftRight_eq_div_pow, Nat.reduceMul, Nat.reducePow]
  omega

theorem stringFromIPv4Addr_inj {a b : UInt32} (h : stringFromIPv4Addr a = stringFromIPv4Addr b) : a = b := by
  unfold stringFromIPv4Addr at h
  by_cases ha : a = 0 <;> by_cases hb : b = 0
  · rw [ha, hb]
  · simp [ha, hb] at h
  · simp [ha, hb] at h
  · rw [if_pos ha, if_pos hb] at h
    obtain ⟨h₀, h₁, h₂, h₃⟩ := quad_inj (Option.some.inj h)
    apply UInt32.toNat_inj.mp
    rw [toNat_eq_bytes a, toNat_eq_bytes b, h₀, h₁, h₂, h₃]

/-! ## The user's own server -/

section OwnServer

open SvrMnuMenu GameInfo

variable {ι δ : Type} [DecidableEq ι]

/-- The server tells the address `a` in dotted-quad notation. -/
def TellsAddress (o : Obj) (a : UInt32) : Prop :=
  a ≠ 0 ∧ field "ip" (some o) = (stringFromIPv4Addr a).map Obj.string

theorem hostedAt_iff {o : Obj} {a b : UInt32} (h : TellsAddress o b) :
    hostedAt (stringFromIPv4Addr a) o = true ↔ b = a := by
  obtain ⟨hb, hf⟩ := h
  unfold hostedAt
  rw [hf]
  have hsome : stringFromIPv4Addr b = some (quad (addrByte b 0) (addrByte b 1) (addrByte b 2) (addrByte b 3)) :=
    if_pos hb
  cases ha : stringFromIPv4Addr a with
  | none =>
    refine iff_of_false Bool.false_ne_true fun hba => ?_
    rw [← hba, hsome] at ha
    cases ha
  | some s =>
    rw [hsome]
    simp only [Option.map_some, beq_iff_eq]
    constructor
    · rintro rfl
      exact stringFromIPv4Addr_inj (hsome.trans ha.symm)
    · rintro rfl
      exact Option.some.inj (ha.symm.trans hsome)

/-- **The user is taken off iff a server has the public address.** When the servers tell their addresses, and the lookup
has found the address `a`, the value is one less than the number of players iff `a` is one of theirs, as numbers. -/
theorem ownServer_iff (P : Option (SvrMnuMenuDelegate ι δ)) (self : ι) (a : UInt32) (installed : Bool) (s : Scene δ)
    (address : Obj → UInt32) (g : Obj) (hg : s.menu.gameInfo = some g)
    (hr : readable (stringFromIPv4Addr a).isSome g = true)
    (h : ∀ o ∈ servers (some g), TellsAddress o (address o)) :
    ∃ t, makeMenus P self ⟨stringFromIPv4Addr a, installed⟩ s = .ok () t ∧
      t.menu.value = if a ∈ (servers (some g)).map address then t.menu.numPlayers - 1 else t.menu.numPlayers := by
  have hselfie : selfie (stringFromIPv4Addr a) (some g) = decide (a ∈ (servers (some g)).map address) := by
    rw [Bool.eq_iff_iff, decide_eq_true_iff, selfie, List.any_eq_true, List.mem_map]
    constructor
    · rintro ⟨o, ho, hh⟩
      exact ⟨o, ho, (hostedAt_iff (h o ho)).mp hh⟩
    · rintro ⟨o, ho, ha⟩
      exact ⟨o, ho, (hostedAt_iff (h o ho)).mpr ha⟩
  refine ⟨rebuilt P self ⟨stringFromIPv4Addr a, installed⟩ s, makeMenus_ok fun g' hg' => ?_, ?_⟩
  · rw [hg] at hg'
    cases Option.some.inj hg'
    exact hr
  · show GameInfo.value (stringFromIPv4Addr a) s.menu.gameInfo =
      if _ then total s.menu.gameInfo - 1 else total s.menu.gameInfo
    rw [hg]
    unfold GameInfo.value
    rw [hselfie]
    simp only [Option.isSome_some, if_true, decide_eq_true_eq]

theorem ownServer_taken_off : ∃ t,
    makeMenus (none : Option (SvrMnuMenuDelegate Unit Unit)) () ⟨stringFromIPv4Addr 0x077100CB, true⟩
      ⟨{ SvrMnuMenu.init SvrMnuWFHMenu true with gameInfo := some ownServer }, ()⟩ = .ok () t ∧
    t.menu.value = t.menu.numPlayers - 1 := by
  obtain ⟨t, ht, hv⟩ := ownServer_iff (none : Option (SvrMnuMenuDelegate Unit Unit)) () 0x077100CB true
    ⟨{ SvrMnuMenu.init SvrMnuWFHMenu true with gameInfo := some ownServer }, ()⟩ (fun _ => 0x077100CB) ownServer rfl rfl
    (fun o ho => by
      cases List.mem_singleton.mp ho
      exact ⟨by decide, rfl⟩)
  exact ⟨t, ht, hv.trans (if_pos List.mem_cons_self)⟩

end OwnServer

/-! ## Private addresses -/

/-- An entry of `getifaddrs`: the flags, and the family and address if it has one. -/
structure Interface where
  flags : UInt32
  addr : Option (UInt8 × UInt32)

def IFF_UP : UInt32 := 0x1

def IFF_LOOPBACK : UInt32 := 0x8

def AF_INET : UInt8 := 2

namespace PortMapper

/-- The loop of `rawLocalAddress`: the first active interface with IPv4 that is not a loopback. -/
def firstAddress : List Interface → UInt32
  | [] => 0
  | interface :: interfaces =>
    if interface.flags &&& IFF_UP ≠ 0 ∧ interface.flags &&& IFF_LOOPBACK = 0 then
      match interface.addr with
      | some (family, s_addr) => if family = AF_INET then s_addr else firstAddress interfaces
      | none => firstAddress interfaces
    else firstAddress interfaces

/-- `none` if `getifaddrs` fails. -/
def rawLocalAddress : Option (List Interface) → UInt32
  | none => 0
  | some interfaces => firstAddress interfaces

def localAddress (interfaces : Option (List Interface)) : Option String :=
  stringFromIPv4Addr (rawLocalAddress interfaces)

/-- The first byte in memory is the most significant. -/
def ntohl (a : UInt32) : UInt32 :=
  UInt32.ofNat (2 ^ 24 * addrByte a 0 + 2 ^ 16 * addrByte a 1 + 2 ^ 8 * addrByte a 2 + addrByte a 3)

/-- Masks and values, up to a mask of zero. -/
def kPrivateRanges : List (UInt32 × UInt32) :=
  [(0xFF000000, 0x00000000), (0xFF000000, 0x0A000000), (0xFF000000, 0x7F000000), (0xFFFF0000, 0xA9FE0000),
    (0xFFF00000, 0xAC100000), (0xFFFF0000, 0xC0A80000), (0, 0)]

/-- The loop of `localAddressIsPrivate`. -/
def isInRanges (address : UInt32) : List (UInt32 × UInt32) → Bool
  | [] => false
  | (mask, value) :: ranges =>
    if mask = 0 then false
    else if address &&& mask = value then true
    else isInRanges address ranges

def localAddressIsPrivate (interfaces : Option (List Interface)) : Bool :=
  isInRanges (ntohl (rawLocalAddress interfaces)) kPrivateRanges

/-- A mask of the high bits keeps the quotient. -/
theorem and_mask {n k : Nat} (hk : k ≤ 32) (hn : n < 2 ^ 32) : n &&& (2 ^ 32 - 2 ^ k) = n / 2 ^ k * 2 ^ k := by
  have hmask : 2 ^ 32 - 2 ^ k = (2 ^ (32 - k) - 1) * 2 ^ k := by
    rw [Nat.sub_mul, ← Nat.pow_add, Nat.sub_add_cancel hk, Nat.one_mul]
  apply Nat.eq_of_testBit_eq
  intro i
  rw [hmask, Nat.testBit_and, Nat.testBit_mul_two_pow, Nat.testBit_mul_two_pow, Nat.testBit_two_pow_sub_one,
    Nat.testBit_div_two_pow]
  by_cases hki : k ≤ i
  · rw [Nat.sub_add_cancel hki]
    by_cases hi : i < 32
    · have hlt : i - k < 32 - k := by omega
      simp [hki, hlt]
    · have hbit : n.testBit i = false :=
        Nat.testBit_lt_two_pow (lt_of_lt_of_le hn (Nat.pow_le_pow_right (by decide) (Nat.le_of_not_lt hi)))
      simp [hbit]
  · simp [hki]

/-- An address is in a range iff it starts with the bits of the range. -/
theorem and_eq_iff {address mask value : UInt32} {k : Nat} (hk : k ≤ 32) (hm : mask.toNat = 2 ^ 32 - 2 ^ k) :
    address &&& mask = value ↔ address.toNat / 2 ^ k * 2 ^ k = value.toNat := by
  rw [← UInt32.toNat_inj, UInt32.toNat_and, hm, and_mask hk address.toNat_lt]

theorem ntohl_toNat (a : UInt32) : (ntohl a).toNat =
    2 ^ 24 * addrByte a 0 + 2 ^ 16 * addrByte a 1 + 2 ^ 8 * addrByte a 2 + addrByte a 3 := by
  have h (i : Nat) : addrByte a i < 256 := Nat.mod_lt _ (by decide)
  have h₀ := h 0
  have h₁ := h 1
  have h₂ := h 2
  have h₃ := h 3
  unfold ntohl
  rw [UInt32.toNat_ofNat']
  exact Nat.mod_eq_of_lt (by omega)

theorem isInRanges_cons {address mask value : UInt32} {ranges : List (UInt32 × UInt32)} (hm : mask ≠ 0) :
    isInRanges address ((mask, value) :: ranges) = true ↔
      address &&& mask = value ∨ isInRanges address ranges = true := by
  rw [isInRanges, if_neg hm]
  split
  · next h => exact iff_of_true rfl (Or.inl h)
  · next h => exact ⟨Or.inr, fun ho => ho.resolve_left h⟩

/-- **`localAddressIsPrivate`** holds of 0.x.x.x, also when there is no address, of 10.x.x.x, 127.x.x.x and 169.254.x.x,
of 172.16.x.x to 172.31.x.x, and of 192.168.x.x. -/
theorem localAddressIsPrivate_iff (interfaces : Option (List Interface)) :
    localAddressIsPrivate interfaces = true ↔
      let byte := addrByte (rawLocalAddress interfaces)
      byte 0 = 0 ∨ byte 0 = 10 ∨ byte 0 = 127 ∨ (byte 0 = 169 ∧ byte 1 = 254) ∨
        (byte 0 = 172 ∧ 16 ≤ byte 1 ∧ byte 1 ≤ 31) ∨ (byte 0 = 192 ∧ byte 1 = 168) := by
  have hlt (i : Nat) : addrByte (rawLocalAddress interfaces) i < 256 := Nat.mod_lt _ (by decide)
  have h₀ := hlt 0
  have h₁ := hlt 1
  have h₂ := hlt 2
  have h₃ := hlt 3
  have hend : isInRanges (ntohl (rawLocalAddress interfaces)) [(0, 0)] = false := rfl
  unfold localAddressIsPrivate kPrivateRanges
  rw [isInRanges_cons (by decide), isInRanges_cons (by decide), isInRanges_cons (by decide),
    isInRanges_cons (by decide), isInRanges_cons (by decide), isInRanges_cons (by decide), hend,
    and_eq_iff (k := 24) (by decide) (by decide), and_eq_iff (k := 24) (by decide) (by decide),
    and_eq_iff (k := 24) (by decide) (by decide), and_eq_iff (k := 16) (by decide) (by decide),
    and_eq_iff (k := 20) (by decide) (by decide), and_eq_iff (k := 16) (by decide) (by decide), ntohl_toNat]
  dsimp only
  generalize addrByte (rawLocalAddress interfaces) 0 = b₀ at *
  generalize addrByte (rawLocalAddress interfaces) 1 = b₁ at *
  generalize addrByte (rawLocalAddress interfaces) 2 = b₂ at *
  generalize addrByte (rawLocalAddress interfaces) 3 = b₃ at *
  have hfirst : (2 ^ 24 * b₀ + 2 ^ 16 * b₁ + 2 ^ 8 * b₂ + b₃) / 2 ^ 24 = b₀ := by omega
  have htwelve : (2 ^ 24 * b₀ + 2 ^ 16 * b₁ + 2 ^ 8 * b₂ + b₃) / 2 ^ 20 = 16 * b₀ + b₁ / 16 := by omega
  have htwo : (2 ^ 24 * b₀ + 2 ^ 16 * b₁ + 2 ^ 8 * b₂ + b₃) / 2 ^ 16 = 256 * b₀ + b₁ := by omega
  rw [hfirst, htwelve, htwo]
  simp only [UInt32.reduceToNat, Bool.false_eq_true, or_false]
  -- a range of the table, a range of the address
  have hlocal : (256 * b₀ + b₁) * 2 ^ 16 = 2851995648 ↔ b₀ = 169 ∧ b₁ = 254 := by constructor <;> omega
  have hmiddle : (16 * b₀ + b₁ / 16) * 2 ^ 20 = 2886729728 ↔ b₀ = 172 ∧ 16 ≤ b₁ ∧ b₁ ≤ 31 := by constructor <;> omega
  have hhome : (256 * b₀ + b₁) * 2 ^ 16 = 3232235520 ↔ b₀ = 192 ∧ b₁ = 168 := by constructor <;> omega
  rw [hlocal, hmiddle, hhome]
  refine or_congr ?_ (or_congr ?_ (or_congr ?_ Iff.rfl)) <;> constructor <;> omega

end PortMapper

end SvrMnu
