import SvrMnu.Menu

/-!
# What a response says

The meaning of a `gameInfo`, with no menu and no exception in it: its message, its servers when it has active games,
their players, and the title, value and submenu that go with them (`GameInfo`). `readable` says which objects
`makeMenus` can read; it depends on whether the public address is known, since only then are addresses compared.

- `text_row`, `filter_isChecked`: what kinds of items the submenu of a response has;
- `title_ne_refreshing`: no response has the title of a request that is under way;
- `intValue_ok`, `intValue_error`, `isEqualToString_ok`, `isEqualToString_error`: the messages a response understands.
-/

set_option autoImplicit false

namespace SvrMnu

open SvrMnuMenu (serverTitle)

namespace GameInfo

/-! ## Reading a response -/

/-- The value a dictionary has for a key. -/
def field (key : String) : Option Obj → Option Obj
  | some (.dict kvs) => kvs.lookup key
  | _ => none

/-- The number an object stands for. -/
def int (o : Option Obj) : Int32 :=
  match intValue o with
  | .ok n => n
  | .error _ => 0

def elements : Option Obj → List Obj
  | some (.array xs) => xs
  | _ => []

def active (g : Option Obj) : Int32 := int (field "activegames" g)

/-- The servers of a response: none unless `activegames` is positive. -/
def servers (g : Option Obj) : List Obj := if active g > 0 then elements (field "servers" g) else []

def players (s : Obj) : Int32 := int (field "players" (some s))

/-- The server's address is the public address `ip`. -/
def hostedAt (ip : Option String) (s : Obj) : Bool :=
  match ip, field "ip" (some s) with
  | some a, some (.string b) => a == b
  | _, _ => false

/-- The players of all servers, in 32 bits. -/
def total (g : Option Obj) : Int32 := ((servers g).map players).sum

/-- The user is playing: some server is on the public address. -/
def selfie (ip : Option String) (g : Option Obj) : Bool := (servers g).any (hostedAt ip)

/-! ## The menu of a response -/

def motd (g : Option Obj) : List Item :=
  if isKindOfString (field "message" g) then [.row [.lit "MOTD: ", .obj (field "message" g)]] else []

def row (s : Obj) : Item :=
  .row (serverTitle (field "players" (some s)) (players s) (field "map" (some s)) (field "ip" (some s)))

def rows (g : Option Obj) : List Item := (servers g).map row

def title (C : MenuClass) (g : Option Obj) : String := if g.isSome then C.titleString (active g) else C.unable

def value (ip : Option String) (g : Option Obj) : Int32 :=
  if g.isSome then (if selfie ip g then total g - 1 else total g) else -1

def submenu (g : Option Obj) (installed checked : Bool) : List Item :=
  motd g ++ rows g ++ (if installed then [.launcher] else []) ++ [.primarySetter checked]

section Nil

/-! Without a response there is nothing to show. -/

@[simp] theorem active_none : active none = 0 := rfl

@[simp] theorem servers_none : servers none = [] := rfl

@[simp] theorem total_none : total none = 0 := rfl

@[simp] theorem selfie_none (ip : Option String) : selfie ip none = false := rfl

@[simp] theorem motd_none : motd none = [] := rfl

@[simp] theorem rows_none : rows none = [] := rfl

@[simp] theorem title_none (C : MenuClass) : title C none = C.unable := rfl

@[simp] theorem value_none (ip : Option String) : value ip none = -1 := rfl

end Nil

/-- Messages and servers are rows of text. -/
theorem text_row (g : Option Obj) : ∀ i ∈ motd g ++ rows g, ∃ t, i = Item.row t := by
  intro i hi
  rcases List.mem_append.mp hi with hi | hi
  · unfold motd at hi
    split at hi
    · exact ⟨_, List.mem_singleton.mp hi⟩
    · cases hi
  · obtain ⟨s, _, rfl⟩ := List.mem_map.mp hi
    exact ⟨_, rfl⟩

/-- The one item of a submenu that can be checked is its `primarySetter`. -/
theorem filter_isChecked (g : Option Obj) (installed checked : Bool) :
    (submenu g installed checked).filter Item.isChecked = if checked then [.primarySetter true] else [] := by
  have ht : (motd g ++ rows g).filter Item.isChecked = [] := by
    rw [List.filter_eq_nil_iff]
    intro i hi
    obtain ⟨t, rfl⟩ := text_row g i hi
    simp [Item.isChecked]
  unfold submenu
  rw [List.filter_append, List.filter_append, ht]
  cases installed <;> cases checked <;> rfl

/-- A title with a number does not end as the one of a request does. -/
theorem games_ne_refreshing (front : String) (n : Int32) {refreshing : String}
    (h : refreshing.toList.getLast? = some '.') : front ++ toString n ++ " active games" ≠ refreshing := by
  intro he
  have hlast : (front ++ toString n ++ " active games").toList.getLast? = some 's' := by
    rw [String.toList_append, List.getLast?_append]
    rfl
  rw [he, h] at hlast
  cases hlast

/-- The two classes announce a request with a title that belongs to no response. -/
theorem title_ne_refreshing {C : MenuClass} (hC : C = SvrMnuWFHMenu ∨ C = SvrMnuANUMenu) (g : Option Obj) :
    title C g ≠ C.refreshing := by
  unfold title MenuClass.titleString
  rcases hC with rfl | rfl
  · repeat' split
    all_goals first | exact games_ne_refreshing _ _ rfl | decide
  · repeat' split
    all_goals first | exact games_ne_refreshing _ _ rfl | decide

/-! ## Readable responses -/

/-- nil, a string or a number: what understands `intValue`. -/
def intReadable : Option Obj → Bool
  | none | some (.string _) | some (.number _) | some (.bool _) => true
  | _ => false

def stringOrNil : Option Obj → Bool
  | none | some (.string _) => true
  | _ => false

def serverReadable (ipKnown : Bool) : Obj → Bool
  | .dict kvs => intReadable (kvs.lookup "players") && (!ipKnown || stringOrNil (kvs.lookup "ip"))
  | _ => false

/-- nil, an array of readable servers, or a dictionary with nothing to enumerate. -/
def serversReadable (ipKnown : Bool) : Option Obj → Bool
  | none | some (.dict []) => true
  | some (.array xs) => xs.all (serverReadable ipKnown)
  | _ => false

/-- The servers only have to be readable when there are active games. -/
def readable (ipKnown : Bool) : Obj → Bool
  | .dict kvs => intReadable (kvs.lookup "activegames") &&
      (decide (¬ int (kvs.lookup "activegames") > 0) || serversReadable ipKnown (kvs.lookup "servers"))
  | _ => false

theorem intValue_ok {o : Option Obj} (h : intReadable o = true) : intValue o = .ok (int o) := by
  rcases o with _ | (_ | _ | _ | _ | _ | _) <;> first | rfl | cases h

theorem intValue_error {o : Option Obj} (h : intReadable o = false) : ∃ e, intValue o = .error e := by
  rcases o with _ | (_ | _ | _ | _ | _ | _) <;> first | exact ⟨_, rfl⟩ | cases h

theorem isEqualToString_ok {ip : Option String} {s : Obj} (h : ip.isSome = true → stringOrNil (field "ip" (some s))) :
    isEqualToString ip (field "ip" (some s)) = .ok (hostedAt ip s) := by
  unfold hostedAt
  cases ip with
  | none => rfl
  | some a =>
    have h := h rfl
    rcases hf : field "ip" (some s) with _ | (_ | _ | _ | _ | _ | _) <;> rw [hf] at h <;> first | rfl | cases h

theorem isEqualToString_error {ip : Option String} {o : Option Obj} (hip : ip.isSome = true)
    (h : stringOrNil o = false) : ∃ e, isEqualToString ip o = .error e := by
  obtain ⟨a, rfl⟩ := Option.isSome_iff_exists.mp hip
  rcases o with _ | (_ | _ | _ | _ | _ | _) <;> first | exact ⟨_, rfl⟩ | cases h

end GameInfo

end SvrMnu
