import SvrMnu.Rebuild

/-!
# What an uninterrupted makeMenus shows

- `reply_shown_iff`: after a reply, `makeMenus` returns iff the object it parsed to is readable. The class of the
  message is checked, the classes of `activegames`, `servers`, `players` and `ip` are not: `null_activegames_raises`.
- `makeMenus_exact`: on a readable `gameInfo` the submenu, the counter and the value are those of the response,
  whatever the menu showed before, and rebuilding the result changes nothing.
- `value_sentinel_iff`: on a `gameInfo` with counts the value is that of the other players, and negative only without a
  `gameInfo`, iff somebody plays where the user is taken to play; `empty_own_server` is a server on which nobody does.
-/

set_option autoImplicit false

namespace SvrMnu

open Sys SvrMnuMenu GameInfo

variable {ι δ : Type} [DecidableEq ι]

/-! ## Replies from the network -/

/-- **makeMenus returns on exactly the readable replies.** -/
theorem reply_shown_iff (P : Option (SvrMnuMenuDelegate ι δ)) (self : ι) (env : Env) (s : Scene δ) (json : Obj) :
    (∃ t, makeMenus P self env { s with menu := s.menu.completionHandler (.data (some json)) } = .ok () t) ↔
      readable env.publicAddress.isSome json = true := by
  constructor
  · rintro ⟨t, ht⟩
    by_contra hr
    refine not_raises_of_ok ht (makeMenus_raises (g := json) rfl ?_)
    simpa using hr
  · intro hr
    refine ⟨_, makeMenus_ok ?_⟩
    intro g hg
    cases Option.some.inj hg
    exact hr

/-- `{"activegames": null}` empties the submenu of a connected menu and raises before anything else is done. -/
theorem null_activegames_raises :
    ¬ (∃ t, makeMenus (none : Option (SvrMnuMenuDelegate Unit Unit)) () ⟨some "203.0.113.7", true⟩
      ⟨(SvrMnuMenu.init SvrMnuWFHMenu true).completionHandler (.data (some (.dict [("activegames", .null)]))), ()⟩ =
        .ok () t) ∧
    (SvrMnuMenu.init SvrMnuWFHMenu true).submenu ≠ [] ∧
    (finalState (makeMenus (none : Option (SvrMnuMenuDelegate Unit Unit)) () ⟨some "203.0.113.7", true⟩)
      ⟨(SvrMnuMenu.init SvrMnuWFHMenu true).completionHandler (.data (some (.dict [("activegames", .null)]))),
        ()⟩).menu.submenu = [] := by
  refine ⟨?_, ?_, rfl⟩
  · rintro ⟨t, ht⟩
    cases ht
  · intro h
    cases h

/-! ## Exactness -/

/-- A sum in 32 bits is the exact sum, brought to 32 bits once. -/
theorem sum_eq_ofInt (l : List Int32) : l.sum = Int32.ofInt (l.map Int32.toInt).sum := by
  induction l with
  | nil => rfl
  | cons a l ih => simp [ih, Int32.ofInt_add]

theorem total_eq (g : Option Obj) : total g =
    if active g > 0 then Int32.ofInt ((elements (field "servers" g)).map fun s => (players s).toInt).sum else 0 := by
  unfold total servers
  split
  · rw [sum_eq_ofInt, List.map_map]; rfl
  · rfl

theorem rows_eq (g : Option Obj) :
    rows g = if active g > 0 then (elements (field "servers" g)).map row else [] := by
  unfold rows servers
  split <;> rfl

theorem selfie_iff (ip : Option String) (g : Option Obj) :
    selfie ip g = true ↔ active g > 0 ∧ ∃ s ∈ elements (field "servers" g), hostedAt ip s = true := by
  unfold selfie servers
  split
  · next h => simp [h]
  · next h => simp [h]

/-- **A makeMenus shows its response and nothing else.** `m` is any other menu with the same response, in particular
the result itself. -/
theorem makeMenus_exact (P : Option (SvrMnuMenuDelegate ι δ)) (self : ι) (env : Env) (s : Scene δ)
    (h : ∀ g, s.menu.gameInfo = some g → readable env.publicAddress.isSome g = true) :
    ∃ t, makeMenus P self env s = .ok () t ∧
      t.menu.submenu =
        (if isKindOfString (field "message" s.menu.gameInfo) then
          [.row [.lit "MOTD: ", .obj (field "message" s.menu.gameInfo)]] else []) ++
        (if active s.menu.gameInfo > 0 then (elements (field "servers" s.menu.gameInfo)).map row else []) ++
        (if env.installed then [.launcher] else []) ++ [.primarySetter (isPrimary P self t.delegate)] ∧
      t.menu.numPlayers = (if active s.menu.gameInfo > 0 then
        Int32.ofInt ((elements (field "servers" s.menu.gameInfo)).map fun o => (players o).toInt).sum else 0) ∧
      (s.menu.gameInfo = none → t.menu.value = -1) ∧
      (s.menu.gameInfo ≠ none →
        (active s.menu.gameInfo > 0 ∧
          (∃ o ∈ elements (field "servers" s.menu.gameInfo), hostedAt env.publicAddress o = true) →
            t.menu.value = t.menu.numPlayers - 1) ∧
        (¬ (active s.menu.gameInfo > 0 ∧
          ∃ o ∈ elements (field "servers" s.menu.gameInfo), hostedAt env.publicAddress o = true) →
            t.menu.value = t.menu.numPlayers)) ∧
      t.menu.isa = s.menu.isa ∧ t.menu.gameInfo = s.menu.gameInfo ∧
      ∀ (m : SvrMnuMenu) (d : δ), m.isa = s.menu.isa → m.gameInfo = s.menu.gameInfo →
        isPrimary P self (notified P self s.menu.gameInfo d) = isPrimary P self t.delegate →
        ∃ d', makeMenus P self env ⟨m, d⟩ = .ok () ⟨t.menu, d'⟩ := by
  refine ⟨rebuilt P self env s, makeMenus_ok h, ?_, total_eq _, ?_, ?_, rfl, rfl, ?_⟩
  · simp only [rebuilt, GameInfo.submenu, rows_eq]
    rfl
  · intro hg
    simp [rebuilt, hg]
  · intro hg
    have hs : s.menu.gameInfo.isSome = true := Option.isSome_iff_ne_none.mpr hg
    rw [← selfie_iff]
    refine ⟨fun hv => ?_, fun hv => ?_⟩
    · simp [rebuilt, GameInfo.value, hs, hv]
    · simp [rebuilt, GameInfo.value, hs, hv]
  · intro m d hisa hg hd
    refine ⟨notified P self s.menu.gameInfo d, ?_⟩
    rw [makeMenus_ok (s := ⟨m, d⟩) (by simpa [hg] using h)]
    have hd : isPrimary P self (notified P self s.menu.gameInfo d) =
        isPrimary P self (notified P self s.menu.gameInfo s.delegate) := hd
    obtain ⟨isa, title, sub, g, ns, np, v⟩ := m
    simp only at hisa hg
    subst hisa hg
    simp only [rebuilt, hd]

/-- One server with three players, on the user's own address. -/
def ownServer : Obj := .dict [("activegames", .string "1"), ("servers", .array [
  .dict [("players", .string "3"), ("map", .string "Canyon"), ("ip", .string "203.0.113.7")]])]

theorem makeMenus_exact_ownServer : ∃ t,
    makeMenus (none : Option (SvrMnuMenuDelegate Unit Unit)) () ⟨some "203.0.113.7", true⟩
      ⟨{ SvrMnuMenu.init SvrMnuWFHMenu true with gameInfo := some ownServer }, ()⟩ = .ok () t ∧
    t.menu.numPlayers = 3 ∧ t.menu.value = t.menu.numPlayers - 1 := by
  obtain ⟨t, ht, _, hn, _, hv, _⟩ := makeMenus_exact (none : Option (SvrMnuMenuDelegate Unit Unit)) ()
    ⟨some "203.0.113.7", true⟩ ⟨{ SvrMnuMenu.init SvrMnuWFHMenu true with gameInfo := some ownServer }, ()⟩
    (fun g hg => by cases Option.some.inj hg; rfl)
  refine ⟨t, ht, ?_, (hv (by simp)).1 ⟨?_, _, List.mem_singleton_self _, ?_⟩⟩
  · rw [hn]; rfl
  · decide
  · rfl

/-! ## The sentinel -/

namespace GameInfo

/-- The players of a response are counted without overflow. -/
structure Counted (g : Option Obj) : Prop where
  nonneg : ∀ o ∈ servers g, 0 ≤ players o
  fits : ((servers g).map fun o => (players o).toInt).sum ≤ 2147483647

/-- The user plays: some server on the public address has a player. -/
def playing (ip : Option String) (g : Option Obj) : Bool :=
  (servers g).any fun o => hostedAt ip o && decide (0 < players o)

/-- The players of the response other than the user. -/
def others (ip : Option String) (g : Option Obj) : Int :=
  ((servers g).map fun o => (players o).toInt).sum - if playing ip g then 1 else 0

theorem playing_iff {ip : Option String} {g : Option Obj} :
    playing ip g = true ↔ ∃ o ∈ servers g, hostedAt ip o = true ∧ 0 < players o := by
  simp [playing]

/-- A sum of counts is not negative, and positive iff one of them is. -/
theorem sum_counts {l : List Obj} (h : ∀ o ∈ l, 0 ≤ players o) :
    0 ≤ (l.map fun o => (players o).toInt).sum ∧
    (0 < (l.map fun o => (players o).toInt).sum ↔ ∃ o ∈ l, 0 < players o) := by
  induction l with
  | nil => simp
  | cons o l ih =>
    obtain ⟨ho, hl⟩ := List.forall_mem_cons.mp h
    obtain ⟨h₀, hpos⟩ := ih hl
    have ho' : 0 ≤ (players o).toInt := Int32.le_iff_toInt_le.mp ho
    simp only [List.map_cons, List.sum_cons, List.mem_cons, exists_eq_or_imp]
    rw [← hpos, Int32.lt_iff_toInt_lt]
    constructor
    · omega
    · show 0 < (players o).toInt + _ ↔ 0 < (players o).toInt ∨ _
      omega

variable {ip : Option String} {g : Option Obj}

theorem total_toInt (h : Counted g) : (total g).toInt = ((servers g).map fun o => (players o).toInt).sum := by
  have h₀ := (sum_counts h.nonneg).1
  have h₁ := h.fits
  have hs : total g = Int32.ofInt ((servers g).map fun o => (players o).toInt).sum := by
    unfold total
    rw [sum_eq_ofInt, List.map_map]
    rfl
  rw [hs]
  exact Int32.toInt_ofInt_of_le (by omega) (by omega)

/-- The value of a connected menu, which is never out of range. -/
theorem value_toInt (h : Counted g) (hg : g.isSome = true) : (value ip g).toInt =
    ((servers g).map fun o => (players o).toInt).sum - if selfie ip g then 1 else 0 := by
  have h₀ := (sum_counts h.nonneg).1
  have h₁ := h.fits
  have ht := total_toInt h
  unfold value
  rw [if_pos hg]
  split
  · rw [Int32.toInt_sub, ht]
    exact Int.bmod_eq_of_le (by simp only [Int32.toInt_one]; omega) (by simp only [Int32.toInt_one]; omega)
  · rw [ht, Int.sub_zero]

theorem selfie_of_playing (h : playing ip g = true) : selfie ip g = true := by
  obtain ⟨o, ho, hip, _⟩ := playing_iff.mp h
  exact List.any_eq_true.mpr ⟨o, ho, hip⟩

/-- A connected menu reports a negative value when the user's own servers are counted and nobody plays anywhere. -/
theorem value_neg_iff (ip : Option String) (h : Counted g) (hg : g.isSome = true) :
    value ip g < 0 ↔ selfie ip g = true ∧ ¬ ∃ o ∈ servers g, 0 < players o := by
  obtain ⟨h₀, hpos⟩ := sum_counts h.nonneg
  rw [Int32.lt_iff_toInt_lt, value_toInt h hg, ← hpos]
  show _ < (0 : Int) ↔ _
  cases selfie ip g with
  | false => simp only [Bool.false_eq_true, if_false, false_and, iff_false]; omega
  | true => simp only [if_true, true_and]; omega

/-- It takes off one player for the user, who plays or not. -/
theorem value_others_iff (ip : Option String) (h : Counted g) (hg : g.isSome = true) :
    (value ip g).toInt = others ip g ↔ (selfie ip g = true → playing ip g = true) := by
  rw [value_toInt h hg]
  unfold others
  cases hp : playing ip g with
  | true =>
    rw [selfie_of_playing hp]
    exact iff_of_true rfl fun _ => rfl
  | false =>
    cases selfie ip g with
    | false => exact iff_of_true rfl fun hs => hs
    | true => simp

end GameInfo

theorem exists_hosted_iff (ip : Option String) (g : Option Obj) :
    (∃ o ∈ servers g, hostedAt ip o = true) ↔ selfie ip g = true := by
  unfold selfie
  rw [List.any_eq_true]

/-- **The value tells the players other than the user iff the user is one of those that are counted**: a server on the
public address takes one player off, even if nobody plays there. `-1` is the value of a connected menu in the same case
if nobody plays anywhere. -/
theorem value_sentinel_iff (P : Option (SvrMnuMenuDelegate ι δ)) (self : ι) (env : Env) (s : Scene δ)
    (h : ∀ g, s.menu.gameInfo = some g → readable env.publicAddress.isSome g = true)
    (hc : Counted s.menu.gameInfo) :
    ∃ t, makeMenus P self env s = .ok () t ∧
      (((t.menu.value < 0 ↔ s.menu.gameInfo = none) ∧
          (s.menu.gameInfo ≠ none → t.menu.value.toInt = others env.publicAddress s.menu.gameInfo)) ↔
        ((∃ o ∈ servers s.menu.gameInfo, hostedAt env.publicAddress o = true) →
          ∃ o ∈ servers s.menu.gameInfo, hostedAt env.publicAddress o = true ∧ 0 < players o)) ∧
      ((t.menu.value < 0 ↔ s.menu.gameInfo = none) ↔
        ((∃ o ∈ servers s.menu.gameInfo, hostedAt env.publicAddress o = true) →
          ∃ o ∈ servers s.menu.gameInfo, 0 < players o)) := by
  refine ⟨rebuilt P self env s, makeMenus_ok h, ?_⟩
  show ((GameInfo.value env.publicAddress s.menu.gameInfo < 0 ↔ _) ∧
    (_ → (GameInfo.value env.publicAddress s.menu.gameInfo).toInt = _) ↔ _) ∧
    ((GameInfo.value env.publicAddress s.menu.gameInfo < 0 ↔ _) ↔ _)
  rw [exists_hosted_iff, ← playing_iff]
  cases hg : s.menu.gameInfo with
  | none => simp
  | some g =>
    rw [hg] at hc
    have hneg := value_neg_iff env.publicAddress hc rfl
    have hothers := value_others_iff env.publicAddress hc rfl
    have hsent : (GameInfo.value env.publicAddress (some g) < 0 ↔ some g = none) ↔
        (selfie env.publicAddress (some g) = true → ∃ o ∈ servers (some g), 0 < players o) := by
      rw [hneg]
      simp only [reduceCtorEq, iff_false, not_and, not_not]
    refine ⟨?_, hsent⟩
    rw [hsent, hothers]
    constructor
    · rintro ⟨-, ho⟩
      exact ho (by simp)
    · intro hplay
      refine ⟨fun hs => ?_, fun _ => hplay⟩
      obtain ⟨o, ho, _, hpos⟩ := playing_iff.mp (hplay hs)
      exact ⟨o, ho, hpos⟩

theorem value_sentinel_ownServer : ∃ t,
    makeMenus (none : Option (SvrMnuMenuDelegate Unit Unit)) () ⟨some "203.0.113.7", true⟩
      ⟨{ SvrMnuMenu.init SvrMnuWFHMenu true with gameInfo := some ownServer }, ()⟩ = .ok () t ∧
    ¬ t.menu.value < 0 := by
  obtain ⟨t, ht, -, hs⟩ := value_sentinel_iff (none : Option (SvrMnuMenuDelegate Unit Unit)) ()
    ⟨some "203.0.113.7", true⟩ ⟨{ SvrMnuMenu.init SvrMnuWFHMenu true with gameInfo := some ownServer }, ()⟩
    (fun g hg => by cases Option.some.inj hg; rfl)
    ⟨fun o ho => by cases List.mem_singleton.mp ho; decide, by decide⟩
  refine ⟨t, ht, ?_⟩
  rw [hs.mpr fun _ => ⟨_, List.mem_singleton_self _, by decide⟩]
  intro hg
  cases hg

/-- An empty server on the user's own address: the menu is connected and reports `-1`. -/
theorem empty_own_server : ∃ t,
    makeMenus (none : Option (SvrMnuMenuDelegate Unit Unit)) () ⟨some "203.0.113.7", true⟩
      ⟨{ SvrMnuMenu.init SvrMnuWFHMenu true with gameInfo := some (.dict [("activegames", .number 1),
        ("servers", .array [
          .dict [("players", .number 0), ("map", .string "Canyon"), ("ip", .string "203.0.113.7")]])]) }, ()⟩ =
      .ok () t ∧
    t.menu.gameInfo ≠ none ∧ t.menu.value = -1 := by
  refine ⟨_, rfl, ?_, ?_⟩
  · intro hg
    cases hg
  · decide +kernel

end SvrMnu
