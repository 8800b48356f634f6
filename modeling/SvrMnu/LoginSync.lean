import SvrMnu.LoginMenuItem
import SvrMnu.Sys.Machine

/-!
# The login menu item and the list

The menu item keeps a default and a check mark for what the shared list says. Both are set before the list is touched,
and what the calls on the list answer is not looked at; only a change of the list, by whomever, makes a notification
that sets them right again.

- `truthful_iff`: which steps keep the item true to the list, in a state where it is;
- `login_item_true_iff`: a run is truthful from its first state to its last iff no call of a toggle fails, and no
  `create` fails where no other notification would make up for it; `failed_insert_checks` is a toggle that does.
-/

set_option autoImplicit false

namespace SvrMnu

open Sys LoginMenuItem

/-- The default `startAtLogin`, the check mark and the shared list. -/
structure Login where
  list : SharedFileList
  startAtLogin : Bool
  state : Bool
  /-- NULL has been released. -/
  crashed : Bool

/-- Another process leaves the list with these items, the user chooses the menu item, or the observer is called. -/
inductive LoginEvent
  | edit (items : List LoginItem)
  | toggle (calls : Calls)
  | deliver (create : Bool)

namespace Login

variable (appPath : String)

def setCheckMark (s : Login) : Login := { s with state := s.startAtLogin }

def update (create : Bool) (s : Login) : Login :=
  { s with startAtLogin := isLoginItem appPath create s.list }.setCheckMark

def toggleLoginItems (calls : Calls) (s : Login) : Login :=
  let should := !s.startAtLogin
  let s := { s with startAtLogin := should }
  if should then
    match addAppAsLoginItem appPath calls s.list with
    | (l, .released) => { s with list := l }.setCheckMark
    | (l, .crashed) => { s with list := l, crashed := true }
  else { s with list := deleteAppFromLoginItem appPath calls s.list }.setCheckMark

/-- `initWithTitle:action:keyEquivalent:`, at the end of which the observer is registered. -/
def init (create : Bool) (l : SharedFileList) : Login :=
  { list := { l with pending := 0 }, startAtLogin := isLoginItem appPath create l, state := false,
    crashed := false : Login }.setCheckMark

def step (s : Login) (e : LoginEvent) : Option Login :=
  if s.crashed then none
  else match e with
    | .edit items =>
      if h : (items.map LoginItem.ref).Nodup then
        some { s with list := ⟨items, h, if items = s.list.items then s.list.pending else s.list.pending + 1⟩ }
      else none
    | .toggle calls => some (s.toggleLoginItems appPath calls)
    | .deliver create =>
      if 0 < s.list.pending then
        some (update appPath create { s with list := { s.list with pending := s.list.pending - 1 } })
      else none

def machine : Machine Login LoginEvent := ⟨step appPath⟩

/-! ## Agreement -/

/-- The default, the check mark and `isLoginItem` agree. -/
def Agrees (s : Login) : Prop := s.startAtLogin = s.state ∧ s.state = isLoginItem appPath true s.list

/-- A call that the toggle makes fails. -/
def Fails (s : Login) (calls : Calls) : Prop :=
  if s.startAtLogin then
    calls.create = false ∨ ∃ i ∈ s.list.items, i.matchesApp appPath = true ∧ calls.remove i.ref = false
  else calls.create = false ∨ calls.insert = false

/-- After the step there is agreement unless a notification is pending, a toggle that failed has changed neither the
default nor the check mark, and NULL has not been released. -/
def Truthful (s : Login) (e : LoginEvent) : Prop := ∀ s', (machine appPath).step s e = some s' →
  (s'.list.pending = 0 → s'.Agrees appPath) ∧
  (∀ calls, e = .toggle calls → s.Fails appPath calls →
    s'.startAtLogin = s.startAtLogin ∧ s'.state = s.state) ∧
  s'.crashed = false

/-- The calls that matter succeed: those of a toggle, and the `create` of the last notification that is pending, if the
application is in the list. -/
def Succeeds (s : Login) : LoginEvent → Prop
  | .edit _ => True
  | .toggle calls => ¬ s.Fails appPath calls
  | .deliver create =>
    0 < s.list.pending → create = true ∨ isLoginItem appPath true s.list = false ∨ 1 < s.list.pending

/-- What holds between the steps of a truthful run. -/
structure Synced (s : Login) : Prop where
  alive : s.crashed = false
  agrees : s.list.pending = 0 → s.Agrees appPath

/-! ## Toggles -/

variable {appPath} {s s' : Login}

/-- Whatever the calls answer, the default is the other one after a toggle. -/
theorem toggle_startAtLogin (calls : Calls) (s : Login) :
    (s.toggleLoginItems appPath calls).startAtLogin = !s.startAtLogin := by
  unfold toggleLoginItems addAppAsLoginItem
  cases s.startAtLogin <;> cases calls.create <;> cases calls.insert <;> rfl

/-- An insertion that succeeds makes a notification. -/
theorem toggle_on {calls : Calls} (hs : s.startAtLogin = false) (hc : calls.create = true) (hi : calls.insert = true) :
    s.toggleLoginItems appPath calls =
      ({ s with startAtLogin := true, list := s.list.insertItemURL appPath } : Login).setCheckMark := by
  simp only [toggleLoginItems, addAppAsLoginItem, hs, hc, hi, Bool.not_false, if_true]

theorem toggle_off {calls : Calls} (hs : s.startAtLogin = true) : s.toggleLoginItems appPath calls =
    ({ s with startAtLogin := false, list := deleteAppFromLoginItem appPath calls s.list } : Login).setCheckMark := by
  simp only [toggleLoginItems, hs, Bool.not_true, Bool.false_eq_true, if_false]

/-- Removals that all succeed leave nothing that matches. -/
theorem isLoginItem_removed {calls : Calls} {l : SharedFileList} (hc : calls.create = true)
    (hr : ∀ i ∈ l.items, i.matchesApp appPath = true → calls.remove i.ref = true) :
    isLoginItem appPath true (deleteAppFromLoginItem appPath calls l) = false := by
  rw [isLoginItem_eq, Bool.true_and, deleteAppFromLoginItem_items appPath hc, List.any_eq_false]
  intro i hi hm
  obtain ⟨hi, hk⟩ := List.mem_filter.mp hi
  rw [hm, hr i hi hm] at hk
  cases hk

theorem toggle_truthful_iff (hs : s.Synced appPath) (calls : Calls) :
    s.Truthful appPath (.toggle calls) ↔ ¬ s.Fails appPath calls := by
  have hstep : (machine appPath).step s (.toggle calls) = some (s.toggleLoginItems appPath calls) := by
    simp only [machine, step, hs.alive, Bool.false_eq_true, if_false]
  constructor
  · intro ht hf
    obtain ⟨-, hkept, -⟩ := ht _ hstep
    have hd := (hkept calls rfl hf).1
    rw [toggle_startAtLogin] at hd
    exact Bool.not_ne_self _ hd
  · intro hf s' hs'
    rw [hstep] at hs'
    cases Option.some.inj hs'
    have hgood : ((s.toggleLoginItems appPath calls).list.pending = 0 →
        (s.toggleLoginItems appPath calls).Agrees appPath) ∧ (s.toggleLoginItems appPath calls).crashed = false := by
      cases hd : s.startAtLogin with
      | false =>
        simp only [Fails, hd, Bool.false_eq_true, if_false, not_or, Bool.not_eq_false] at hf
        rw [toggle_on hd hf.1 hf.2]
        exact ⟨fun hp => absurd hp (Nat.succ_ne_zero _), hs.alive⟩
      | true =>
        simp only [Fails, hd, if_true, not_or, Bool.not_eq_false, not_exists, not_and] at hf
        rw [toggle_off hd]
        exact ⟨fun _ => ⟨rfl, (isLoginItem_removed hf.1 hf.2).symm⟩, hs.alive⟩
    exact ⟨hgood.1, fun calls' he hf' => by cases he; exact absurd hf' hf, hgood.2⟩

/-! ## Edits and notifications -/

theorem edit_truthful (hs : s.Synced appPath) (items : List LoginItem) : s.Truthful appPath (.edit items) := by
  intro s' h
  simp only [machine, step, hs.alive, Bool.false_eq_true, if_false] at h
  split at h
  · next hnd =>
    cases Option.some.inj h
    refine ⟨fun hp => ?_, fun calls he => (by cases he), rfl⟩
    by_cases hi : items = s.list.items
    · subst hi
      simp only [if_true] at hp
      obtain ⟨h₁, h₂⟩ := hs.agrees hp
      refine ⟨h₁, h₂.trans ?_⟩
      rw [isLoginItem_eq, isLoginItem_eq]
    · simp only [hi, if_false] at hp
      exact absurd hp (Nat.succ_ne_zero _)
  · cases h

theorem deliver_truthful_iff (hs : s.Synced appPath) (create : Bool) :
    s.Truthful appPath (.deliver create) ↔ s.Succeeds appPath (.deliver create) := by
  by_cases hp : 0 < s.list.pending
  · have hstep : (machine appPath).step s (.deliver create) =
        some (update appPath create { s with list := { s.list with pending := s.list.pending - 1 } }) := by
      simp only [machine, step, hs.alive, Bool.false_eq_true, if_false, hp, if_true]
    have hlist : ∀ create, isLoginItem appPath create { s.list with pending := s.list.pending - 1 } =
        (create && isLoginItem appPath true s.list) := by
      intro create
      rw [isLoginItem_eq, isLoginItem_eq, Bool.true_and]
    constructor
    · intro ht _
      obtain ⟨ha, -, -⟩ := ht _ hstep
      by_cases h1 : 1 < s.list.pending
      · exact Or.inr (Or.inr h1)
      · have hstate := (ha (show s.list.pending - 1 = 0 by omega)).2
        simp only [update, setCheckMark, hlist, Bool.true_and] at hstate
        cases create with
        | true => exact Or.inl rfl
        | false => exact Or.inr (Or.inl hstate.symm)
    · intro hc s' h
      rw [hstep] at h
      cases Option.some.inj h
      refine ⟨fun hz => ⟨rfl, ?_⟩, fun calls he => (by cases he), hs.alive⟩
      simp only [update, setCheckMark, hlist, Bool.true_and] at hz ⊢
      rcases hc hp with rfl | hn | h1
      · rfl
      · rw [hn, Bool.and_false]
      · omega
  · have hstep : (machine appPath).step s (.deliver create) = none := by
      simp only [machine, step, hs.alive, Bool.false_eq_true, if_false, hp]
    refine iff_of_true (fun s' h => ?_) fun h => absurd h hp
    rw [hstep] at h
    cases h

/-- **Which steps are truthful.** -/
theorem truthful_iff (hs : s.Synced appPath) (e : LoginEvent) : s.Truthful appPath e ↔ s.Succeeds appPath e := by
  cases e with
  | edit items => exact iff_of_true (edit_truthful hs items) trivial
  | toggle calls => exact toggle_truthful_iff hs calls
  | deliver create => exact deliver_truthful_iff hs create

theorem synced_step {e : LoginEvent} (hs : s.Synced appPath) (he : s.Succeeds appPath e)
    (h : (machine appPath).step s e = some s') : s'.Synced appPath := by
  obtain ⟨ha, -, hc⟩ := (truthful_iff hs e).mpr he s' h
  exact ⟨hc, ha⟩

/-! ## Every run -/

theorem init_agrees_iff (create : Bool) (l : SharedFileList) :
    (init appPath create l).Agrees appPath ↔ create = true ∨ isLoginItem appPath true l = false := by
  have hlist : isLoginItem appPath true { l with pending := 0 } = isLoginItem appPath true l := by
    rw [isLoginItem_eq, isLoginItem_eq]
  simp only [Agrees, init, setCheckMark, hlist, true_and]
  cases create with
  | true => simp
  | false => simp [isLoginItem_eq]

variable (appPath)

/-- **The menu item is true to the list all along iff the calls succeed.** Agreement in the first state and truthful
steps from there are the same as a first look at the list that does not miss the application, and steps whose calls
succeed. -/
theorem login_item_true_iff (create : Bool) (l : SharedFileList) (es : List LoginEvent) :
    ((init appPath create l).Agrees appPath ∧
      (machine appPath).Along (Truthful appPath) (init appPath create l) es) ↔
    ((create = true ∨ isLoginItem appPath true l = false) ∧
      (machine appPath).Along (Succeeds appPath) (init appPath create l) es) := by
  rw [init_agrees_iff]
  refine and_congr_right fun hc => ?_
  have hs : (init appPath create l).Synced appPath := ⟨rfl, fun _ => (init_agrees_iff create l).mpr hc⟩
  exact Machine.along_congr (J := fun s => s.Synced appPath) (fun _ e hs => truthful_iff hs e)
    (fun _ _ _ hs he h => synced_step hs he h) hs

/-- An insertion that fails leaves a check mark for an application that is not in the list; a list that cannot be
created is released. -/
theorem failed_insert_checks :
    (∃ s, (machine "/Applications/SvrMnu.app").run (init "/Applications/SvrMnu.app" true ⟨[], by decide, 0⟩)
      [.toggle ⟨true, false, fun _ => true⟩] = some s ∧ s.list.pending = 0 ∧ s.startAtLogin = true ∧ s.state = true ∧
        isLoginItem "/Applications/SvrMnu.app" true s.list = false) ∧
    (∃ s, (machine "/Applications/SvrMnu.app").run (init "/Applications/SvrMnu.app" true ⟨[], by decide, 0⟩)
      [.toggle ⟨false, true, fun _ => true⟩] = some s ∧ s.crashed = true) :=
  ⟨⟨_, rfl, rfl, rfl, rfl, rfl⟩, ⟨_, rfl, rfl⟩⟩

end Login

end SvrMnu
