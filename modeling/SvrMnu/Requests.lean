import SvrMnu.MainLoop

/-!
# Requests and their replies

A menu may have any number of requests under way, and nothing ties a reply to the request it answers: whatever
completes replaces `gameInfo`. `Followed` is the history of the requests of a menu.

- `followed_step`: every turn of the main loop keeps it, whether the code it runs returns or raises;
- `last_completion_wins`: once no request is under way, a menu holds the outcome of the one that completed last;
  `older_reply_wins` is a run in which that is not the newest one.
-/

set_option autoImplicit false

namespace SvrMnu

open Sys

variable {ι : Type} [DecidableEq ι]

/-! ## What makeMenus leaves alone -/

/-- `w'` has the requests and the responses of `w`. -/
structure SameRequests (w w' : World ι) : Prop where
  issued : w'.issued = w.issued
  outstanding : w'.outstanding = w.outstanding
  gameInfo : ∀ m, (w'.menu m).gameInfo = (w.menu m).gameInfo

omit [DecidableEq ι] in
theorem SameRequests.trans {a b c : World ι} (h₁ : SameRequests a b) (h₂ : SameRequests b c) : SameRequests a c :=
  ⟨h₂.issued.trans h₁.issued, h₂.outstanding.trans h₁.outstanding,
    fun m => (h₂.gameInfo m).trans (h₁.gameInfo m)⟩

omit [DecidableEq ι] in
instance {δ : Type} : Std.Refl (fun s t : Scene δ => t.menu.gameInfo = s.menu.gameInfo) := ⟨fun _ => rfl⟩

instance {δ : Type} : IsTrans (Scene δ) (fun s t => t.menu.gameInfo = s.menu.gameInfo) :=
  ⟨fun _ _ _ h₁ h₂ => Eq.trans h₂ h₁⟩

theorem finishMenus_gameInfo (m : ι) (titleString : String) (selfie installed : Bool) (s : Scene (AppDelegate ι)) :
    (SvrMnuMenu.finishMenus (some AppDelegate.delegate) m titleString selfie installed s).menu.gameInfo =
      s.menu.gameInfo := by cases installed <;> rfl

theorem keeps_response {α δ : Type} {x : ObjC SvrMnuMenu α} (h : Keeps Drawn x) :
    Keeps (fun s t : Scene δ => t.menu.gameInfo = s.menu.gameInfo) (SvrMnuMenu.onMenu x) := by
  intro s
  obtain ⟨⟨_, _, _, hm⟩, _⟩ := keeps_onMenu h s
  show (finalState (SvrMnuMenu.onMenu x) s).menu.gameInfo = s.menu.gameInfo
  rw [hm]

theorem keeps_onScene {α : Type} {m : ι} {x : ObjC (Scene (AppDelegate ι)) α}
    (h : Keeps (fun s t => t.menu.gameInfo = s.menu.gameInfo) x) : Keeps SameRequests (World.onScene m x) := by
  intro w
  have hk := h ⟨w.menu m, w.delegate⟩
  have hf : finalState (World.onScene m x) w = w.put m (finalState x ⟨w.menu m, w.delegate⟩) := by
    unfold finalState World.onScene
    cases x ⟨w.menu m, w.delegate⟩ <;> rfl
  rw [hf]
  refine ⟨rfl, rfl, fun k => ?_⟩
  by_cases hm : k = m
  · subst hm
    simpa [World.put] using hk
  · simp only [World.put, Function.update_of_ne hm]

theorem keeps_worldBegin (m : ι) : Keeps SameRequests (World.beginMenus m) :=
  keeps_onScene (keeps_response keeps_beginMenus)

theorem keeps_worldUnable (m : ι) (installed : Bool) : Keeps SameRequests (World.unableMenus m installed) :=
  keeps_onScene (Keeps.modify fun s => finishMenus_gameInfo m _ false installed s)

theorem keeps_worldResume (m : ι) (env : Env) : Keeps SameRequests (World.resumeMenus m env) := by
  apply keeps_onScene
  apply (keeps_response keeps_readServers).bind
  rintro ⟨titleString, selfie⟩
  exact Keeps.modify fun s => finishMenus_gameInfo m titleString selfie env.installed s

namespace MainLoop

/-- A turn is a callback, or leaves the requests and responses as they are. -/
theorem requests_turn {bar : MenuBar ι} {s s' : MainLoop ι} {t : Turn ι} (h : (machine bar).step s t = some s') :
    (∃ e, t = .callback e ∧ e.isRebuild = false ∧ World.Step bar s.world e s'.world) ∨
      ((∀ e, t ≠ .callback e) ∧ SameRequests s.world s'.world) := by
  cases t with
  | callback e =>
    simp only [machine, step] at h
    split at h
    · cases h
    · next he =>
      obtain ⟨w, hw, rfl⟩ := Option.map_eq_some_iff.mp h
      exact Or.inl ⟨e, rfl, by simpa using he, World.step_cases hw⟩
  | start m installed =>
    refine Or.inr ⟨fun e => by rintro ⟨⟩, ?_⟩
    simp only [machine, step] at h
    split at h
    · have hd : SameRequests s.world (s.world.dequeue m) := ⟨rfl, rfl, fun _ => rfl⟩
      cases hb : World.beginMenus m (s.world.dequeue m) with
      | error e w =>
        rw [hb] at h
        cases Option.some.inj h
        exact hd.trans ((keeps_worldBegin m).error hb)
      | ok b w =>
        have hw := hd.trans ((keeps_worldBegin m).ok hb)
        rw [hb] at h
        cases b with
        | true => cases Option.some.inj h; exact hw
        | false => cases Option.some.inj h; exact hw.trans (keeps_worldUnable m installed w)
    · cases h
  | resume env =>
    refine Or.inr ⟨fun e => by rintro ⟨⟩, ?_⟩
    simp only [machine, step] at h
    split at h
    · cases h
    · next m stack hst =>
      cases hr : World.resumeMenus m env s.world with
      | error e w =>
        rw [hr] at h
        cases Option.some.inj h
        exact (keeps_worldResume m env).error hr
      | ok _ w =>
        rw [hr] at h
        cases Option.some.inj h
        exact (keeps_worldResume m env).ok hr

/-! ## The history of the requests -/

/-- A request of menu `m` completes. -/
def completes (m : ι) : Turn ι → Prop
  | .callback (.complete k _ _) => k = m
  | _ => False

omit [DecidableEq ι] in
theorem completes_iff {m : ι} {t : Turn ι} : completes m t ↔ ∃ k reply, t = .callback (.complete m k reply) := by
  constructor
  · intro h
    rcases t with (_ | _ | ⟨k, i, reply⟩ | _ | _ | _) | _ | _ <;> try cases h
    exact ⟨i, reply, rfl⟩
  · rintro ⟨k, reply, rfl⟩
    rfl

/-- Request `k` of menu `m` is the last one that completed. -/
def LastCompleted (m : ι) (k : Nat) (reply : Reply) (ts : List (Turn ι)) : Prop :=
  Since (· = .callback (.complete m k reply)) (completes m) ts

/-- The requests of menu `m` after the turns `ts`. -/
structure Followed (m : ι) (ts : List (Turn ι)) (w : World ι) : Prop where
  /-- Each request is under way or has completed. -/
  accounted : ∀ k < w.issued m, k ∈ w.outstanding m ∨ ∃ reply, .callback (.complete m k reply) ∈ ts
  pending : ∀ k ∈ w.outstanding m, k < w.issued m
  completed : ∀ k reply, .callback (.complete m k reply) ∈ ts → k < w.issued m
  last : ∀ k reply, LastCompleted m k reply ts → (w.menu m).gameInfo = reply.outcome
  first : (∀ t ∈ ts, ¬ completes m t) → (w.menu m).gameInfo = none

variable {m : ι} {ts : List (Turn ι)} {w w' : World ι}

omit [DecidableEq ι] in
/-- Turns that complete no request of the menu, and keep what it holds. -/
theorem Followed.frame {t : Turn ι} (h : Followed m ts w) (ht : ¬ completes m t)
    (hi : w'.issued m = w.issued m) (ho : w'.outstanding m = w.outstanding m)
    (hg : (w'.menu m).gameInfo = (w.menu m).gameInfo) : Followed m (ts ++ [t]) w' where
  accounted := by
    intro k hk
    rw [hi] at hk
    rw [ho]
    exact (h.accounted k hk).imp_right (Exists.imp fun _ hr => List.mem_append_left _ hr)
  pending := by rw [hi, ho]; exact h.pending
  completed := by
    intro k reply hr
    rw [hi]
    rcases List.mem_append.mp hr with hr | hr
    · exact h.completed k reply hr
    · cases List.mem_singleton.mp hr
      exact absurd rfl ht
  last := by
    intro k reply hl
    rw [hg]
    rcases since_snoc.mp hl with rfl | ⟨_, hl⟩
    · exact absurd rfl ht
    · exact h.last k reply hl
  first := by
    intro hn
    rw [hg]
    exact h.first fun t ht => hn t (List.mem_append_left _ ht)

/-- A `_refresh` sends the next request. -/
theorem Followed.polled {t : Turn ι} (h : Followed m ts w) (ht : ¬ completes m t) (ms : List ι) :
    Followed m (ts ++ [t]) (w.polled ms) := by
  by_cases hm : m ∈ ms
  · have hf : Followed m (ts ++ [t]) w := h.frame ht rfl rfl rfl
    have hi : (w.polled ms).issued m = w.issued m + 1 := by simp only [World.polled, hm, if_true]
    have ho : (w.polled ms).outstanding m = w.issued m :: w.outstanding m := by simp only [World.polled, hm, if_true]
    refine ⟨fun k hk => ?_, fun k hk => ?_, fun k reply hr => ?_, fun k reply hl => ?_, fun hn => ?_⟩
    · rw [hi] at hk
      rw [ho]
      rcases Nat.lt_succ_iff_lt_or_eq.mp hk with hk | rfl
      · exact (hf.accounted k hk).imp_left (List.mem_cons_of_mem _)
      · exact Or.inl List.mem_cons_self
    · rw [ho] at hk
      rw [hi]
      rcases List.mem_cons.mp hk with rfl | hk
      · exact Nat.lt_succ_self _
      · exact Nat.lt_succ_of_lt (h.pending k hk)
    · rw [hi]
      exact Nat.lt_succ_of_lt (hf.completed k reply hr)
    · rw [World.polled_gameInfo]
      exact hf.last k reply hl
    · rw [World.polled_gameInfo]
      exact hf.first hn
  · refine h.frame ht ?_ ?_ (World.polled_gameInfo ms w m)
    · simp only [World.polled, hm, if_false]
    · simp only [World.polled, hm, if_false]

/-- A completion replaces `gameInfo`, whichever request it is. -/
theorem Followed.complete (h : Followed m ts w) {k : Nat} (reply : Reply) (hk : k ∈ w.outstanding m) :
    Followed m (ts ++ [.callback (.complete m k reply)]) (w.complete m k reply) := by
  have hi : (w.complete m k reply).issued = w.issued := rfl
  have ho : (w.complete m k reply).outstanding m = (w.outstanding m).erase k := by
    simp only [World.complete, Function.update_self]
  have hg : ((w.complete m k reply).menu m).gameInfo = reply.outcome := by
    rw [World.complete_gameInfo, if_pos rfl]
  have hlast : Turn.callback (.complete m k reply) ∈ ts ++ [.callback (.complete m k reply)] :=
    List.mem_append_right _ (List.mem_singleton_self _)
  refine ⟨fun j hj => ?_, fun j hj => ?_, fun j reply' hr => ?_, fun j reply' hl => ?_, fun hn => ?_⟩
  · rw [ho]
    by_cases hjk : j = k
    · subst hjk
      exact Or.inr ⟨reply, hlast⟩
    · refine (h.accounted j hj).imp (fun hm => ?_) (Exists.imp fun _ hr => List.mem_append_left _ hr)
      exact (List.mem_erase_of_ne hjk).mpr hm
  · rw [ho] at hj
    exact h.pending j (List.mem_of_mem_erase hj)
  · rcases List.mem_append.mp hr with hr | hr
    · exact h.completed j reply' hr
    · cases List.mem_singleton.mp hr
      exact h.pending k hk
  · rw [hg]
    rcases since_snoc.mp hl with he | ⟨hn, _⟩
    · cases he; rfl
    · exact absurd rfl hn
  · exact absurd rfl (hn _ hlast)

theorem followed_step {bar : MenuBar ι} {s s' : MainLoop ι} {t : Turn ι} (h : Followed m ts s.world)
    (hs : (machine bar).step s t = some s') : Followed m (ts ++ [t]) s'.world := by
  rcases requests_turn hs with ⟨e, rfl, he, hw⟩ | ⟨ht, hw⟩
  · generalize s'.world = w' at hw
    cases hw with
    | notice | suspended | enableBlink =>
      refine h.frame ?_ rfl rfl rfl
      exact id
    | poll =>
      refine Followed.polled ?_ ?_ bar.mnus
      · exact ⟨h.accounted, h.pending, h.completed, h.last, h.first⟩
      · exact id
    | @complete k i reply hi =>
      by_cases hk : m = k
      · subst hk
        exact h.complete reply hi
      · refine h.frame (Ne.symm hk) rfl ?_ ?_
        · simp only [World.complete, Function.update_of_ne hk]
        · rw [World.complete_gameInfo, if_neg hk]
    | makeMenus | makeMenusRaised | setPrimaryMnu | setPrimaryRaised => cases he
  · have hc : ¬ completes m t := by
      rw [completes_iff]
      rintro ⟨k, reply, rfl⟩
      exact ht _ rfl
    exact h.frame hc (by rw [hw.issued]) (by rw [hw.outstanding]) (hw.gameInfo m)

theorem followed_launch (L : Launch ι) (m : ι) : Followed m [] (World.launch L) where
  accounted := fun k hk => absurd hk (Nat.not_lt_zero k)
  pending := fun k hk => absurd hk List.not_mem_nil
  completed := fun k reply hr => absurd hr List.not_mem_nil
  last := fun k reply hl => absurd hl.mem List.not_mem_nil
  first := fun _ => by simp only [World.launch, World.init_eq]

theorem followed_run {L : Launch ι} {s : MainLoop ι} (m : ι) (h : (machine L.bar).run (launch L) ts = some s) :
    Followed m ts s.world := by
  refine Machine.run_events (I := fun ts (s : MainLoop ι) => Followed m ts s.world) ?_ ?_ h
  · exact followed_launch L m
  · intro ts s t s' hi hs
    exact followed_step hi hs

/-- **The last completion wins.** Once no request of a menu is under way, its `gameInfo` is the outcome of the request
that completed last; that is the outcome of the newest one if nothing older completes after it. -/
theorem last_completion_wins (L : Launch ι) {s : MainLoop ι} (h : (machine L.bar).run (launch L) ts = some s) {m : ι}
    (hdone : s.world.outstanding m = []) :
    (s.world.issued m = 0 → (s.world.menu m).gameInfo = none) ∧
    (0 < s.world.issued m → ∃ k reply, k < s.world.issued m ∧ LastCompleted m k reply ts ∧
      (s.world.menu m).gameInfo = reply.outcome) ∧
    (∀ reply, LastCompleted m (s.world.issued m - 1) reply ts → (s.world.menu m).gameInfo = reply.outcome) := by
  have hf := followed_run m h
  refine ⟨fun hz => ?_, fun hpos => ?_, fun reply hl => hf.last _ reply hl⟩
  · refine hf.first fun t ht hc => ?_
    obtain ⟨k, reply, rfl⟩ := completes_iff.mp hc
    have hk := hf.completed k reply ht
    omega
  · obtain ⟨reply, hr⟩ := (hf.accounted 0 hpos).resolve_left (by rw [hdone]; exact List.not_mem_nil)
    obtain ⟨t, hc, hl⟩ := exists_since (q := completes m) ⟨_, hr, rfl⟩
    obtain ⟨k, reply, rfl⟩ := completes_iff.mp hc
    exact ⟨k, reply, hf.completed k reply hl.mem, hl, hf.last k reply hl⟩

/-- Two requests are sent; the second one is answered, and then the first one fails. -/
theorem older_reply_wins : ∃ s,
    (machine appBar).run (launch firstLaunch) [.callback .runRefresh, .callback (.notice .forceRefresh),
      .callback .runRefresh, .callback (.complete .wfhMenu 1 (.data (some onePlayer))),
      .callback (.complete .wfhMenu 0 .error)] = some s ∧
    s.world.issued .wfhMenu = 2 ∧ s.world.outstanding .wfhMenu = [] ∧
    (s.world.menu .wfhMenu).gameInfo = none := by
  have hrun : ((machine appBar).run (launch firstLaunch) [.callback .runRefresh, .callback (.notice .forceRefresh),
      .callback .runRefresh, .callback (.complete .wfhMenu 1 (.data (some onePlayer))),
      .callback (.complete .wfhMenu 0 .error)]).any (fun s => s.world.issued .wfhMenu == 2 &&
        (s.world.outstanding .wfhMenu).isEmpty && (s.world.menu .wfhMenu).gameInfo.isNone) = true := by decide +kernel
  obtain ⟨s, hs, hp⟩ := (Option.any_eq_true _ _).mp hrun
  simp only [Bool.and_eq_true, beq_iff_eq, List.isEmpty_iff, Option.isNone_iff_eq_none] at hp
  exact ⟨s, hs, hp.1.1, hp.1.2, hp.2⟩

/-- In the order in which they were sent, the second one wins. -/
theorem last_completion_wins_inOrder : ∃ s,
    (machine appBar).run (launch firstLaunch) [.callback .runRefresh, .callback (.notice .forceRefresh),
      .callback .runRefresh, .callback (.complete .wfhMenu 0 .error),
      .callback (.complete .wfhMenu 1 (.data (some onePlayer)))] = some s ∧
    (s.world.menu .wfhMenu).gameInfo = some onePlayer := by
  have hrun : ((machine appBar).run (launch firstLaunch) [.callback .runRefresh, .callback (.notice .forceRefresh),
      .callback .runRefresh, .callback (.complete .wfhMenu 0 .error),
      .callback (.complete .wfhMenu 1 (.data (some onePlayer)))]).any (fun s => s.world.issued .wfhMenu == 2 &&
        (s.world.outstanding .wfhMenu).isEmpty) = true := by decide +kernel
  obtain ⟨s, hs, hp⟩ := (Option.any_eq_true _ _).mp hrun
  simp only [Bool.and_eq_true, beq_iff_eq, List.isEmpty_iff] at hp
  refine ⟨s, hs, (last_completion_wins firstLaunch hs hp.2).2.2 (.data (some onePlayer)) ?_⟩
  rw [hp.1]
  exact ⟨[_, _, _, _], _, [], rfl, rfl, fun _ hb => absurd hb List.not_mem_nil⟩

end MainLoop

end SvrMnu
