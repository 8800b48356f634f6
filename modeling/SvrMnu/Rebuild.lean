import SvrMnu.GameInfo

/-!
# makeMenus

What one `makeMenus` does, for every menu it starts from.

- `readServers_ok`: the loop adds the rows and the players of the response to whatever the submenu and the counter
  hold; `readServers_raises`: it raises on every response that is not readable.
- `makeMenus_ok`: on a readable response an uninterrupted `makeMenus` leaves the menu `rebuilt`, which only looks at
  the class, the response and the answers of the system, not at what the menu showed before;
- `makeMenus_raises`: on the others it raises.
-/

set_option autoImplicit false

namespace SvrMnu

open Sys SvrMnuMenu GameInfo

/-! ## The loop over the servers -/

section Loop

variable {ip : Option String}

theorem addServer_ok {s : Obj} (h : serverReadable ip.isSome s = true) (m : SvrMnuMenu) :
    addServer ip s m = .ok (hostedAt ip s)
      { m with numPlayers := m.numPlayers + players s, submenu := m.submenu ++ [row s] } := by
  obtain ⟨kvs, rfl⟩ : ∃ kvs, s = .dict kvs := by cases s <;> first | exact ⟨_, rfl⟩ | cases h
  simp only [serverReadable, Bool.and_eq_true, Bool.or_eq_true, Bool.not_eq_true'] at h
  have hip : isEqualToString ip (kvs.lookup "ip") = .ok (hostedAt ip (.dict kvs)) :=
    isEqualToString_ok (s := .dict kvs) fun hk => by
      rcases h.2 with h | h
      · rw [hk] at h; cases h
      · exact h
  unfold addServer
  simp only [valueForKey_dict]
  rw [bind_ok (send_ok _ _), intValue_ok h.1, bind_ok (send_ok _ _), bind_ok (modify_run _ _),
    bind_ok (send_ok _ _), hip, bind_ok (send_ok _ _), bind_ok (send_ok _ _), bind_ok (modify_run _ _)]
  rfl

theorem addServer_raises {s : Obj} (h : serverReadable ip.isSome s = false) (m : SvrMnuMenu) :
    Raises (addServer ip s) m := by
  unfold addServer
  by_cases hd : ∃ kvs, s = .dict kvs
  · obtain ⟨kvs, rfl⟩ := hd
    simp only [valueForKey_dict]
    refine Raises.bind_right (send_ok _ _) ?_
    by_cases hp : intReadable (kvs.lookup "players") = true
    · simp only [serverReadable, hp, Bool.true_and, Bool.or_eq_false_iff, Bool.not_eq_false'] at h
      obtain ⟨e, he⟩ := isEqualToString_error h.1 h.2
      rw [intValue_ok hp]
      refine Raises.bind_right (send_ok _ _) (Raises.bind_right (modify_run _ _) ?_)
      exact Raises.bind_right (send_ok _ _) (raises_send he _).bind_left
    · obtain ⟨e, he⟩ := intValue_error (by simpa using hp)
      exact (raises_send he _).bind_left
  · exact raises_intValue_notDict "players" (fun kvs hk => hd ⟨kvs, hk⟩) _ m

theorem addServers_ok {ss : List Obj} (h : ss.all (serverReadable ip.isSome) = true) (here : Bool) (m : SvrMnuMenu) :
    addServers ip ss here m = .ok (here || ss.any (hostedAt ip))
      { m with numPlayers := m.numPlayers + (ss.map players).sum, submenu := m.submenu ++ ss.map row } := by
  induction ss generalizing here m with
  | nil => simp [addServers]
  | cons s ss ih =>
    simp only [List.all_cons, Bool.and_eq_true] at h
    unfold addServers
    rw [bind_ok (addServer_ok h.1 m), ih h.2]
    simp [Int32.add_assoc, Bool.or_assoc]

theorem addServers_raises {ss : List Obj} (h : ss.all (serverReadable ip.isSome) = false) (here : Bool)
    (m : SvrMnuMenu) : Raises (addServers ip ss here) m := by
  induction ss generalizing here m with
  | nil => cases h
  | cons s ss ih =>
    unfold addServers
    by_cases hs : serverReadable ip.isSome s = true
    · simp only [List.all_cons, hs, Bool.true_and] at h
      exact Raises.bind_right (addServer_ok hs m) (ih h _ _)
    · exact (addServer_raises (by simpa using hs) m).bind_left

/-- A readable list of servers is enumerated as its elements. -/
theorem enumerate_ok {o : Option Obj} (h : serversReadable ip.isSome o = true) :
    enumerate o = .ok (elements o) ∧ (elements o).all (serverReadable ip.isSome) = true := by
  rcases o with _ | (_ | _ | _ | _ | xs | (_ | ⟨kv, kvs⟩)) <;> first | cases h | skip
  · exact ⟨rfl, rfl⟩
  · exact ⟨rfl, h⟩
  · exact ⟨rfl, rfl⟩

/-- Any other cannot be enumerated, or goes over an object the loop raises on. -/
theorem enumerate_raises {o : Option Obj} (h : serversReadable ip.isSome o = false) :
    (∃ e, enumerate o = .error e) ∨ ∃ ss, enumerate o = .ok ss ∧ ss.all (serverReadable ip.isSome) = false :=
  match o, h with
  | some .null, _ | some (.bool _), _ | some (.number _), _ | some (.string _), _ => Or.inl ⟨_, rfl⟩
  | some (.array xs), h => Or.inr ⟨xs, rfl, h⟩
  -- the keys of a dictionary are strings, which have no `players`
  | some (.dict (kv :: kvs)), _ => Or.inr ⟨(kv :: kvs).map fun kv => .string kv.1, rfl, rfl⟩

/-- Without a `gameInfo` there are no servers to read. -/
theorem readServers_none {m : SvrMnuMenu} (h : m.gameInfo = none) :
    readServers ip m = .ok (m.isa.noGames, false) { m with numServers := 0 } := by
  have hv : valueForKey "activegames" m.gameInfo = .ok none := by rw [h, valueForKey_none]
  unfold readServers
  rw [bind_ok (get_run _), hv, bind_ok (send_ok _ _)]
  rfl

/-- **The loop adds what the response says to what is there.** -/
theorem readServers_ok {m : SvrMnuMenu} {g : Obj} (hg : m.gameInfo = some g) (h : readable ip.isSome g = true) :
    readServers ip m = .ok (m.isa.titleString (active (some g)), selfie ip (some g))
      { m with
        numServers := active (some g)
        numPlayers := m.numPlayers + total (some g)
        submenu := m.submenu ++ rows (some g) } := by
  obtain ⟨kvs, rfl⟩ : ∃ kvs, g = .dict kvs := by cases g <;> first | exact ⟨_, rfl⟩ | cases h
  simp only [readable, Bool.and_eq_true, Bool.or_eq_true, decide_eq_true_eq] at h
  unfold readServers
  rw [bind_ok (get_run _), hg, valueForKey_dict, bind_ok (send_ok _ _), intValue_ok h.1, bind_ok (send_ok _ _),
    bind_ok (modify_run _ _), bind_ok (get_run _)]
  by_cases ha : int (kvs.lookup "activegames") > 0
  · have hs := h.2.resolve_left fun hn => hn ha
    obtain ⟨he, hall⟩ := enumerate_ok hs
    simp only [ha, if_true]
    rw [bind_ok (get_run _)]
    simp only [hg, valueForKey_dict]
    rw [bind_ok (send_ok _ _), he, bind_ok (send_ok _ _), bind_ok (addServers_ok hall _ _)]
    simp [active, selfie, total, rows, servers, field, ha]
  · simp only [ha, if_false]
    simp [active, selfie, total, rows, servers, field, ha, hg]

theorem readServers_raises {m : SvrMnuMenu} {g : Obj} (hg : m.gameInfo = some g)
    (h : readable ip.isSome g = false) : Raises (readServers ip) m := by
  unfold readServers
  refine Raises.bind_right (get_run _) ?_
  rw [hg]
  by_cases hd : ∃ kvs, g = .dict kvs
  · obtain ⟨kvs, rfl⟩ := hd
    rw [valueForKey_dict]
    refine Raises.bind_right (send_ok _ _) ?_
    by_cases hi : intReadable (kvs.lookup "activegames") = true
    · simp only [readable, hi, Bool.true_and, Bool.or_eq_false_iff, decide_eq_false_iff_not, not_not] at h
      rw [intValue_ok hi]
      refine Raises.bind_right (send_ok _ _) (Raises.bind_right (modify_run _ _) (Raises.bind_right (get_run _) ?_))
      simp only [h.1, if_true]
      refine Raises.bind_right (get_run _) ?_
      simp only [hg, valueForKey_dict]
      refine Raises.bind_right (send_ok _ _) ?_
      rcases enumerate_raises h.2 with ⟨e, he⟩ | ⟨ss, he, hss⟩
      · exact (raises_send he _).bind_left
      · rw [he]
        exact Raises.bind_right (send_ok _ _) (addServers_raises hss _ _).bind_left
    · obtain ⟨e, he⟩ := intValue_error (by simpa using hi)
      exact (raises_send he _).bind_left
  · exact raises_intValue_notDict "activegames" (fun kvs hk => hd ⟨kvs, hk⟩) _ m

/-- What the loop does if it returns, whatever `gameInfo` has become while `findPublicAddress` waited. -/
theorem readServers_returns {m : SvrMnuMenu} (h : ¬ Raises (readServers ip) m) :
    readServers ip m = .ok (m.isa.titleString (active m.gameInfo), selfie ip m.gameInfo)
      { m with
        numServers := active m.gameInfo
        numPlayers := m.numPlayers + total m.gameInfo
        submenu := m.submenu ++ rows m.gameInfo } := by
  cases hg : m.gameInfo with
  | none =>
    rw [readServers_none hg]
    simp [MenuClass.titleString, hg]
  | some g =>
    have hr : readable ip.isSome g = true := by
      by_contra hn
      exact h (readServers_raises hg (by simpa using hn))
    rw [readServers_ok hg hr, hg]

/-! What is drawn on a menu, on the way to an exception too, is its submenu and its counters. -/

/-- `m'` is `m` with another submenu and other counters. -/
def Drawn (m m' : SvrMnuMenu) : Prop := ∃ submenu numServers numPlayers,
  m' = { m with submenu := submenu, numServers := numServers, numPlayers := numPlayers }

instance : Std.Refl Drawn := ⟨fun m => ⟨m.submenu, m.numServers, m.numPlayers, rfl⟩⟩

instance : IsTrans SvrMnuMenu Drawn := ⟨by
  rintro a _ _ ⟨_, _, _, rfl⟩ ⟨u, n, p, rfl⟩
  exact ⟨u, n, p, rfl⟩⟩

theorem keeps_addServer (s : Obj) : Keeps Drawn (addServer ip s) := by
  unfold addServer
  refine (keeps_send _).bind fun players => (keeps_send _).bind fun n => Keeps.bind ?_ fun _ => ?_
  · exact Keeps.modify fun m => ⟨_, _, _, rfl⟩
  · refine (keeps_send _).bind fun serverIp => (keeps_send _).bind fun here => (keeps_send _).bind fun map => ?_
    exact (Keeps.modify fun m => ⟨_, _, _, rfl⟩).bind fun _ => Keeps.pure _

theorem keeps_addServers (ss : List Obj) (here : Bool) : Keeps Drawn (addServers ip ss here) := by
  induction ss generalizing here with
  | nil => exact Keeps.pure here
  | cons s ss ih => exact (keeps_addServer s).bind fun _ => ih _

theorem keeps_readServers : Keeps Drawn (readServers ip) := by
  unfold readServers
  refine Keeps.get.bind fun m => (keeps_send _).bind fun active => (keeps_send _).bind fun n => ?_
  refine Keeps.bind ?_ fun _ => ?_
  · exact Keeps.modify fun m => ⟨_, _, _, rfl⟩
  · refine Keeps.get.bind fun m => ?_
    dsimp only
    split
    · refine Keeps.get.bind fun m => (keeps_send _).bind fun servers => (keeps_send _).bind fun list => ?_
      exact (keeps_addServers list false).bind fun _ => Keeps.pure _
    · exact Keeps.pure _

theorem keeps_beginMenus : Keeps Drawn beginMenus := by
  unfold beginMenus
  refine Keeps.bind (Keeps.modify fun m => ⟨_, _, _, rfl⟩) fun _ => Keeps.get.bind fun m => ?_
  split
  · exact Keeps.pure _
  · refine (keeps_send _).bind fun message => ?_
    split
    · exact (Keeps.modify fun m => ⟨_, _, _, rfl⟩).bind fun _ => Keeps.pure _
    · exact Keeps.pure _

end Loop

/-! ## Before and after the loop -/

section Ends

variable {ι δ : Type} [DecidableEq ι]

theorem beginMenus_none {m : SvrMnuMenu} (h : m.gameInfo = none) :
    beginMenus m = .ok false { m with submenu := [], numServers := 0, numPlayers := 0 } := by
  unfold beginMenus
  rw [bind_ok (modify_run _ m), bind_ok (get_run _)]
  simp only [h, pure_run]

theorem beginMenus_dict {m : SvrMnuMenu} {kvs : List (String × Obj)} (h : m.gameInfo = some (.dict kvs)) :
    beginMenus m = .ok true { m with submenu := motd m.gameInfo, numServers := 0, numPlayers := 0 } := by
  unfold beginMenus
  rw [bind_ok (modify_run _ m), bind_ok (get_run _)]
  simp only [h]
  rw [valueForKey_dict, bind_ok (send_ok _ _)]
  by_cases hm : isKindOfString (kvs.lookup "message") = true
  · simp only [hm, if_true]
    rw [bind_ok (modify_run _ _)]
    simp [motd, field, hm, addItem]
  · simp [motd, field, hm]

/-- On anything but a dictionary `beginMenus` raises, or has added nothing. -/
theorem beginMenus_notDict {m : SvrMnuMenu} {g : Obj} (hg : m.gameInfo = some g) (h : ∀ kvs, g ≠ .dict kvs) :
    Raises beginMenus m ∨
      beginMenus m = .ok true { m with submenu := [], numServers := 0, numPlayers := 0 } := by
  unfold beginMenus
  rw [bind_ok (modify_run _ m), bind_ok (get_run _)]
  simp only [hg]
  rcases valueForKey_notDict "message" h with ⟨e, he⟩ | ⟨ys, hy⟩
  · refine Or.inl (Raises.bind_right (modify_run _ m) (Raises.bind_right (get_run _) ?_))
    simp only [hg]
    exact (raises_send he _).bind_left
  · right
    rw [hy, bind_ok (send_ok _ _)]
    rfl

theorem beginMenus_returns {m : SvrMnuMenu} (h : ¬ Raises beginMenus m) :
    beginMenus m = .ok m.gameInfo.isSome { m with submenu := motd m.gameInfo, numServers := 0, numPlayers := 0 } := by
  cases hg : m.gameInfo with
  | none =>
    rw [beginMenus_none hg, hg]
    rfl
  | some g =>
    by_cases hd : ∃ kvs, g = .dict kvs
    · obtain ⟨kvs, rfl⟩ := hd
      rw [beginMenus_dict hg, hg]
      rfl
    · have hm : motd (some g) = [] := by
        cases g with
        | dict kvs => exact absurd ⟨kvs, rfl⟩ hd
        | _ => rfl
      rw [(beginMenus_notDict hg fun kvs hk => hd ⟨kvs, hk⟩).resolve_left h, hm, hg]
      rfl

/-- The self-check of `primarySetter`. -/
def isPrimary (P : Option (SvrMnuMenuDelegate ι δ)) (self : ι) (d : δ) : Bool :=
  match P with
  | none => false
  | some P => P.getPrimaryMnu d = self

theorem primarySetter_eq (P : Option (SvrMnuMenuDelegate ι δ)) (self : ι) (d : δ) :
    primarySetter P self d = .primarySetter (isPrimary P self d) := by cases P <;> rfl

/-- The delegate once it has been told about a `gameInfo`. -/
def notified (P : Option (SvrMnuMenuDelegate ι δ)) (self : ι) (g : Option Obj) (d : δ) : δ :=
  match P with
  | none => d
  | some P => P.setTitle (g.map fun _ => toString (total g)) self d

/-- What follows the loop, given the players it counted. -/
theorem finishMenus_eq (P : Option (SvrMnuMenuDelegate ι δ)) (self : ι) (titleString : String) (here installed : Bool)
    {s : Scene δ} (hn : s.menu.numPlayers = total s.menu.gameInfo) :
    finishMenus P self titleString here installed s =
      { menu := { s.menu with
          title := titleString
          value := if s.menu.gameInfo.isSome then
            (if here then total s.menu.gameInfo - 1 else total s.menu.gameInfo) else -1
          submenu := s.menu.submenu.filter (!·.isLauncher) ++ (if installed then [.launcher] else []) ++
            [.primarySetter (isPrimary P self (notified P self s.menu.gameInfo s.delegate))] }
        delegate := notified P self s.menu.gameInfo s.delegate } := by
  unfold finishMenus updateDelegate notified statusText removeLauncher addItem
  cases P <;> cases installed <;> simp [primarySetter_eq, hn]

/-- The launcher is none of the rows of text. -/
theorem filter_text {l : List Item} (h : ∀ i ∈ l, ∃ t, i = Item.row t) : l.filter (!·.isLauncher) = l := by
  rw [List.filter_eq_self]
  intro i hi
  obtain ⟨t, rfl⟩ := h i hi
  rfl

end Ends

/-! ## A whole makeMenus -/

section Whole

variable {ι δ : Type} [DecidableEq ι] (P : Option (SvrMnuMenuDelegate ι δ)) (self : ι) (env : Env)

/-- The menu and its delegate after a `makeMenus`. -/
def rebuilt (s : Scene δ) : Scene δ where
  menu := { s.menu with
    title := GameInfo.title s.menu.isa s.menu.gameInfo
    submenu := GameInfo.submenu s.menu.gameInfo env.installed
      (isPrimary P self (notified P self s.menu.gameInfo s.delegate))
    numServers := active s.menu.gameInfo
    numPlayers := total s.menu.gameInfo
    value := GameInfo.value env.publicAddress s.menu.gameInfo }
  delegate := notified P self s.menu.gameInfo s.delegate

variable {P self env}

theorem onMenu_ok {α : Type} {x : ObjC SvrMnuMenu α} {s : Scene δ} {a : α} {m : SvrMnuMenu} (h : x s.menu = .ok a m) :
    onMenu x s = .ok a { s with menu := m } := by
  simp [onMenu, h]

theorem raises_onMenu {α : Type} {x : ObjC SvrMnuMenu α} {s : Scene δ} (h : Raises x s.menu) :
    Raises (SvrMnuMenu.onMenu x) s := by
  obtain ⟨e, m, h⟩ := h
  exact ⟨e, { s with menu := m }, by simp [SvrMnuMenu.onMenu, h]⟩

theorem makeMenus_none {s : Scene δ} (h : s.menu.gameInfo = none) :
    makeMenus P self env s = .ok () (rebuilt P self env s) := by
  unfold makeMenus
  rw [bind_ok (onMenu_ok (beginMenus_none h))]
  simp only [Bool.false_eq_true, if_false, modify_run]
  rw [finishMenus_eq _ _ _ _ _ (by simp [h])]
  simp [rebuilt, h, GameInfo.submenu]

/-- **A readable response is shown exactly.** -/
theorem makeMenus_ok {s : Scene δ}
    (h : ∀ g, s.menu.gameInfo = some g → readable env.publicAddress.isSome g = true) :
    makeMenus P self env s = .ok () (rebuilt P self env s) := by
  cases hg : s.menu.gameInfo with
  | none => exact makeMenus_none hg
  | some g =>
    have hr := h g hg
    obtain ⟨kvs, rfl⟩ : ∃ kvs, g = .dict kvs := by cases g <;> first | exact ⟨_, rfl⟩ | cases hr
    unfold makeMenus
    rw [bind_ok (onMenu_ok (beginMenus_dict hg))]
    simp only [if_true]
    rw [bind_ok (onMenu_ok (readServers_ok (by exact hg) hr))]
    simp only [modify_run]
    rw [finishMenus_eq _ _ _ _ _ (by simp [hg])]
    have ht := text_row (some (.dict kvs))
    have hm := filter_text fun i hi => ht i (List.mem_append_left _ hi)
    have hrows := filter_text fun i hi => ht i (List.mem_append_right _ hi)
    simp [rebuilt, hg, GameInfo.title, GameInfo.submenu, GameInfo.value, hm, hrows]

theorem makeMenus_raises {s : Scene δ} {g : Obj} (hg : s.menu.gameInfo = some g)
    (h : readable env.publicAddress.isSome g = false) : Raises (makeMenus P self env) s := by
  unfold makeMenus
  by_cases hd : ∃ kvs, g = .dict kvs
  · obtain ⟨kvs, rfl⟩ := hd
    refine Raises.bind_right (onMenu_ok (beginMenus_dict hg)) ?_
    simp only [if_true]
    exact (raises_onMenu (readServers_raises (by exact hg) h)).bind_left
  · rcases beginMenus_notDict hg (fun kvs hk => hd ⟨kvs, hk⟩) with hb | hb
    · exact (raises_onMenu hb).bind_left
    · refine Raises.bind_right (onMenu_ok hb) ?_
      simp only [if_true]
      exact (raises_onMenu (readServers_raises (by exact hg) h)).bind_left

omit [DecidableEq ι] in
theorem keeps_onMenu {α : Type} {x : ObjC SvrMnuMenu α} (h : Keeps Drawn x) :
    Keeps (fun s t : Scene δ => Drawn s.menu t.menu ∧ t.delegate = s.delegate) (onMenu x) := by
  intro s
  cases hx : x s.menu with
  | ok a m =>
    rw [finalState_ok (onMenu_ok hx)]
    exact ⟨h.ok hx, rfl⟩
  | error e m =>
    have hs : onMenu x s = .error e { s with menu := m } := by simp [onMenu, hx]
    rw [finalState_error hs]
    exact ⟨h.error hx, rfl⟩

/-- An exception leaves the delegate as it was, and the menu half drawn. -/
theorem makeMenus_raised {s t : Scene δ} {e : NSException} (h : makeMenus P self env s = .error e t) :
    Drawn s.menu t.menu ∧ t.delegate = s.delegate := by
  unfold makeMenus at h
  rcases bind_raised h with hb | ⟨b, s₁, hb, h⟩
  · exact (keeps_onMenu keeps_beginMenus).error hb
  · obtain ⟨hm₁, hd₁⟩ := (keeps_onMenu keeps_beginMenus).ok hb
    cases b with
    | false => cases h
    | true =>
      rcases bind_raised h with hr | ⟨_, s₂, _, h⟩
      · obtain ⟨hm₂, hd₂⟩ := (keeps_onMenu keeps_readServers).error hr
        exact ⟨IsTrans.trans _ _ _ hm₁ hm₂, hd₂.trans hd₁⟩
      · cases h

end Whole

end SvrMnu
