import Mathlib.Data.String.Basic
import Mathlib.Data.List.Nodup

/-!
# The login items

`LoginMenuItem` keeps the application in the session login items, a list it shares with other processes. An item of the
list is resolved to a URL, which may fail, and the URL's path, which may be nil, is compared to the path of the bundle.

- `deleteAppFromLoginItem_items`, `isLoginItem_eq`: the loops over the snapshot, for every list;
- `delete_exact_iff`: they act on the items of the application and no others iff no item resolves to a URL without a
  path; `nil_path_deleted` is such an item.
-/

set_option autoImplicit false

namespace SvrMnu

/-! ## Shared file lists -/

/-- An `LSSharedFileListItemRef`, with what it resolves to: nothing, or a URL by its path. -/
structure LoginItem where
  ref : Nat
  url : Option (Option String)
  deriving DecidableEq

/-- `kLSSharedFileListSessionLoginItems`, and the notifications its observer has not been called for. -/
structure SharedFileList where
  items : List LoginItem
  nodup : (items.map LoginItem.ref).Nodup
  pending : Nat

namespace SharedFileList

def freshRef (items : List LoginItem) : Nat := (items.map LoginItem.ref).foldr max 0 + 1

theorem ref_lt_freshRef {items : List LoginItem} {i : LoginItem} (h : i ∈ items) : i.ref < freshRef items := by
  induction items with
  | nil => cases h
  | cons j items ih =>
    unfold freshRef at ih ⊢
    rw [List.map_cons, List.foldr_cons]
    rcases List.mem_cons.mp h with rfl | h
    · omega
    · have hlt := ih h
      omega

/-- `LSSharedFileListInsertItemURL` after the last item, when it succeeds. -/
def insertItemURL (path : String) (l : SharedFileList) : SharedFileList where
  items := l.items ++ [⟨freshRef l.items, some (some path)⟩]
  nodup := by
    rw [List.map_append, List.nodup_append]
    refine ⟨l.nodup, List.nodup_singleton _, ?_⟩
    intro a ha b hb hab
    obtain ⟨i, hi, rfl⟩ := List.mem_map.mp ha
    cases List.mem_singleton.mp hb
    have hlt := ref_lt_freshRef hi
    rw [hab] at hlt
    exact lt_irrefl _ hlt
  pending := l.pending + 1

/-- `LSSharedFileListItemRemove`, when it succeeds. -/
def itemRemove (ref : Nat) (l : SharedFileList) : SharedFileList where
  items := l.items.filter (·.ref != ref)
  nodup := l.nodup.sublist (List.Sublist.map _ List.filter_sublist)
  pending := if ref ∈ l.items.map LoginItem.ref then l.pending + 1 else l.pending

end SharedFileList

/-- `LSSharedFileListItemResolve`: whether it answers `noErr`, and the variable for the URL after it. -/
def LoginItem.resolve (i : LoginItem) (url : Option String) : Bool × Option String :=
  match i.url with
  | none => (false, url)
  | some path => (true, path)

/-- `compare:`; nil answers `0`, which is `NSOrderedSame`. It takes canonically equivalent strings for the same, and so
paths are here: a `String` stands for its canonical form. -/
def NSString.compare : Option String → String → Ordering
  | none, _ => .eq
  | some a, b => Ord.compare a b

/-! ## The methods -/

/-- The outcomes of the `LSSharedFileList` calls of one method. -/
structure Calls where
  create : Bool
  insert : Bool
  remove : Nat → Bool

namespace LoginMenuItem

/-- The loop of `deleteAppFromLoginItem` over the rest of the snapshot. -/
def deleteItems (appPath : String) (calls : Calls) :
    List LoginItem → Option String → SharedFileList → SharedFileList
  | [], _, l => l
  | itemRef :: rest, url, l =>
    let (noErr, url) := itemRef.resolve url
    if noErr && NSString.compare url appPath == .eq then
      deleteItems appPath calls rest url (if calls.remove itemRef.ref then l.itemRemove itemRef.ref else l)
    else deleteItems appPath calls rest url l

def deleteAppFromLoginItem (appPath : String) (calls : Calls) (l : SharedFileList) : SharedFileList :=
  if calls.create then deleteItems appPath calls l.items (some appPath) l else l

/-- The loop of `isLoginItem`. -/
def searchItems (appPath : String) : List LoginItem → Option String → Bool → Bool
  | [], _, res => res
  | itemRef :: rest, url, res =>
    let (noErr, url) := itemRef.resolve url
    if noErr && NSString.compare url appPath == .eq then searchItems appPath rest url true
    else searchItems appPath rest url res

def isLoginItem (appPath : String) (create : Bool) (l : SharedFileList) : Bool :=
  if create then searchItems appPath l.items (some appPath) false else false

/-- What happens to `loginItems` at the end of `addAppAsLoginItem`: `CFRelease` of NULL ends the process. -/
inductive Release
  | released
  | crashed
  deriving DecidableEq

def addAppAsLoginItem (appPath : String) (calls : Calls) (l : SharedFileList) : SharedFileList × Release :=
  if calls.create then (if calls.insert then (l.insertItemURL appPath, .released) else (l, .released))
  else (l, .crashed)

end LoginMenuItem

/-! ## The loops -/

namespace LoginItem

/-- The test of both loops: the item resolves, and its path compares the same. -/
def matchesApp (appPath : String) (i : LoginItem) : Bool :=
  match i.url with
  | none => false
  | some path => NSString.compare path appPath == .eq

/-- What the test is meant to say. -/
def isApp (appPath : String) (i : LoginItem) : Bool := i.url == some (some appPath)

theorem matchesApp_iff {appPath : String} {i : LoginItem} :
    i.matchesApp appPath = true ↔ i.isApp appPath = true ∨ i.url = some none := by
  unfold matchesApp isApp NSString.compare
  rcases i.url with _ | _ | path
  · simp
  · simp
  · simp

theorem resolve_matches (i : LoginItem) (url : Option String) (appPath : String) :
    ((i.resolve url).1 && NSString.compare (i.resolve url).2 appPath == .eq) = i.matchesApp appPath := by
  unfold resolve matchesApp
  cases i.url with
  | none => rfl
  | some path => rfl

end LoginItem

namespace LoginMenuItem

/-- The variable `url` is never read before it is set. -/
theorem deleteItems_cons (appPath : String) (calls : Calls) (i : LoginItem) (rest : List LoginItem)
    (url : Option String) (l : SharedFileList) : deleteItems appPath calls (i :: rest) url l =
      deleteItems appPath calls rest (i.resolve url).2
        (if i.matchesApp appPath && calls.remove i.ref then l.itemRemove i.ref else l) := by
  rw [deleteItems]
  simp only [i.resolve_matches]
  cases i.matchesApp appPath <;> simp

theorem deleteItems_items (appPath : String) (calls : Calls) (snapshot : List LoginItem) (url : Option String)
    (l : SharedFileList) : (deleteItems appPath calls snapshot url l).items =
      l.items.filter fun i =>
        !snapshot.any fun j => j.ref == i.ref && (j.matchesApp appPath && calls.remove j.ref) := by
  induction snapshot generalizing url l with
  | nil => simp [deleteItems]
  | cons j rest ih =>
    rw [deleteItems_cons, ih]
    cases hj : j.matchesApp appPath && calls.remove j.ref with
    | false => simp [hj]
    | true =>
      simp only [if_true, SharedFileList.itemRemove, List.filter_filter]
      refine List.filter_congr fun i _ => ?_
      by_cases hr : j.ref = i.ref
      · have heq : (j.ref == i.ref) = true := by simpa using hr
        have hne : (i.ref != j.ref) = false := by simpa using hr.symm
        rw [List.any_cons, heq, hj, hne, Bool.and_false]
        rfl
      · have hne : (j.ref == i.ref) = false := by simpa using hr
        have hne' : (i.ref != j.ref) = true := by simpa using Ne.symm hr
        rw [List.any_cons, hne, hne', Bool.false_and, Bool.false_or, Bool.and_true]

/-- An item of a snapshot of the whole list is found by its reference. -/
theorem any_ref {l : SharedFileList} {i : LoginItem} (hi : i ∈ l.items) (p : LoginItem → Bool) :
    (l.items.any fun j => j.ref == i.ref && p j) = p i := by
  cases hp : p i with
  | true =>
    rw [List.any_eq_true]
    exact ⟨i, hi, by simp [hp]⟩
  | false =>
    rw [List.any_eq_false]
    intro j hj
    by_cases hr : j.ref = i.ref
    · obtain rfl := List.inj_on_of_nodup_map l.nodup hj hi hr
      simp [hp]
    · simp [hr]

/-- **The deletion takes out what it matches and is able to remove**, and keeps the order. -/
theorem deleteAppFromLoginItem_items (appPath : String) {calls : Calls} (hc : calls.create = true)
    (l : SharedFileList) : (deleteAppFromLoginItem appPath calls l).items =
      l.items.filter fun i => !(i.matchesApp appPath && calls.remove i.ref) := by
  unfold deleteAppFromLoginItem
  rw [if_pos hc, deleteItems_items]
  refine List.filter_congr fun i hi => ?_
  rw [any_ref hi fun j => j.matchesApp appPath && calls.remove j.ref]

theorem searchItems_eq (appPath : String) (snapshot : List LoginItem) (url : Option String) (res : Bool) :
    searchItems appPath snapshot url res = (res || snapshot.any (LoginItem.matchesApp appPath)) := by
  induction snapshot generalizing url res with
  | nil => simp [searchItems]
  | cons i rest ih =>
    rw [searchItems]
    simp only [i.resolve_matches, ih]
    cases hm : i.matchesApp appPath <;> simp [hm]

theorem isLoginItem_eq (appPath : String) (create : Bool) (l : SharedFileList) :
    isLoginItem appPath create l = (create && l.items.any (LoginItem.matchesApp appPath)) := by
  unfold isLoginItem
  cases create with
  | false => rfl
  | true => rw [if_pos rfl, searchItems_eq, Bool.false_or, Bool.true_and]

/-! ## The items of the application -/

/-- Every call succeeds. -/
def Calls.allSucceed : Calls := ⟨true, true, fun _ => true⟩

/-- `deleteAppFromLoginItem` takes out the items of the application and no others, `isLoginItem` tells whether there are
any, and there are none after the deletion. -/
structure Exact (appPath : String) (l : SharedFileList) : Prop where
  delete : (deleteAppFromLoginItem appPath Calls.allSucceed l).items =
    l.items.filter fun i => !i.isApp appPath
  search : isLoginItem appPath true l = true ↔ ∃ i ∈ l.items, i.isApp appPath = true
  gone : isLoginItem appPath true (deleteAppFromLoginItem appPath Calls.allSucceed l) = false

/-- What is left of the list matches nothing. -/
theorem isLoginItem_delete (appPath : String) (l : SharedFileList) :
    isLoginItem appPath true (deleteAppFromLoginItem appPath Calls.allSucceed l) = false := by
  rw [isLoginItem_eq, Bool.true_and, deleteAppFromLoginItem_items appPath rfl, List.any_eq_false]
  intro i hi
  have hm := (List.mem_filter.mp hi).2
  simpa [Calls.allSucceed] using hm

/-- **Nothing else is removed iff every URL has a path.** A message to the nil path of a URL without one answers `0`,
so that such an item is taken for the application. -/
theorem delete_exact_iff (appPath : String) (l : SharedFileList) :
    Exact appPath l ↔ ∀ i ∈ l.items, i.url ≠ some none := by
  constructor
  · rintro ⟨hd, -, -⟩ i hi hnil
    have hkeep : i ∈ l.items.filter fun i => !i.isApp appPath := by
      refine List.mem_filter.mpr ⟨hi, ?_⟩
      simp [LoginItem.isApp, hnil]
    rw [← hd, deleteAppFromLoginItem_items appPath rfl] at hkeep
    have hm : i.matchesApp appPath = true := LoginItem.matchesApp_iff.mpr (Or.inr hnil)
    have hk := (List.mem_filter.mp hkeep).2
    rw [hm] at hk
    cases hk
  · intro h
    have hm : ∀ i ∈ l.items, i.matchesApp appPath = i.isApp appPath := by
      intro i hi
      rw [Bool.eq_iff_iff, LoginItem.matchesApp_iff]
      exact or_iff_left (h i hi)
    refine ⟨?_, ?_, isLoginItem_delete appPath l⟩
    · rw [deleteAppFromLoginItem_items appPath rfl]
      refine List.filter_congr fun i hi => ?_
      rw [hm i hi]
      simp [Calls.allSucceed]
    · rw [isLoginItem_eq, Bool.true_and, List.any_eq_true]
      exact exists_congr fun i => and_congr_right fun hi => by rw [hm i hi]

/-- The item of another program whose URL has no path is deleted with the item of the application. -/
theorem nil_path_deleted : ¬ Exact "/Applications/SvrMnu.app"
    ⟨[⟨0, some (some "/Applications/SvrMnu.app")⟩, ⟨1, some none⟩, ⟨2, some (some "/Applications/Other.app")⟩],
      by decide, 0⟩ := by
  intro h
  have hd := congrArg List.length h.delete
  revert hd
  decide +kernel

end LoginMenuItem

end SvrMnu
