import SvrMnu.Foundation
import Mathlib.Logic.Function.Basic

/-!
# The server menus

`SvrMnuMenu` is a status menu item with a submenu that lists the servers of one game; `SvrMnuWFHMenu` and
`SvrMnuANUMenu` are the same code with other texts, so a class is its texts (`MenuClass`) and the methods are written
once. `makeMenus` stops in the middle, in `findPublicAddress`, which runs the run loop until the address is known: it
is `beginMenus` up to there, and `readServers` and `finishMenus` after it.

The delegate is a protocol (`SvrMnuMenuDelegate`); `nil` is the delegate of a menu that is still being initialised.
-/

set_option autoImplicit false

namespace SvrMnu

open Sys (finalState)

/-! ## Classes and objects -/

/-- What `SvrMnuWFHMenu` and `SvrMnuANUMenu` differ in. -/
structure MenuClass where
  appBundleID : String
  initTitle : String
  launcherTitle : String
  url : String
  refreshing : String
  unable : String
  noGames : String
  oneGame : String
  games : Int32 → String

def SvrMnuWFHMenu : MenuClass where
  appBundleID := "unity.Les Collégiennes.WFH"
  initTitle := "Waiting For Horus"
  launcherTitle := "Launch WFH"
  url := "http://api.xxiivv.com/?key=wfh&cmd=read"
  refreshing := "WFH-Refreshing..."
  unable := "WFH-Unable to connect"
  noGames := "WFH-No active games"
  oneGame := "WFH-1 active game"
  games := fun n => "WFH-" ++ toString n ++ " active games"

def SvrMnuANUMenu : MenuClass where
  appBundleID := "unity.DefaultCompany.Anubis"
  initTitle := "Hunting Anubis"
  launcherTitle := "Launch Hunting Anubis"
  url := "http://api.xxiivv.com/?key=anu&cmd=read"
  refreshing := "Anubis-Refreshing..."
  unable := "Anubis-Unable to connect"
  noGames := "Anubis-No active games"
  oneGame := "Anubis-1 active game"
  games := fun n => "Anubis-" ++ toString n ++ " active games"

/-- The three ifs of `makeMenus` on `numServers`; a negative count leaves the title as it was set first. -/
def MenuClass.titleString (C : MenuClass) (numServers : Int32) : String :=
  if numServers = 0 then C.noGames
  else if numServers = 1 then C.oneGame
  else if numServers > 1 then C.games numServers
  else C.unable

/-- The items a submenu can hold: rows of text, the `launcher` object, and what `primarySetter` returned. -/
inductive Item
  | row (title : Text)
  | launcher
  | primarySetter (state : Bool)

def Item.title (C : MenuClass) : Item → Text
  | .row title => title
  | .launcher => [.lit C.launcherTitle]
  | .primarySetter _ => [.lit "Set as primary"]

def Item.isLauncher : Item → Bool
  | .launcher => true
  | _ => false

def Item.isSetter : Item → Bool
  | .primarySetter _ => true
  | _ => false

/-- A `Set as primary` item with its check mark on. -/
def Item.isChecked : Item → Bool
  | .primarySetter state => state
  | _ => false

structure SvrMnuMenu where
  isa : MenuClass
  title : String
  submenu : List Item
  gameInfo : Option Obj
  numServers : Int32
  numPlayers : Int32
  value : Int32

/-- The methods of its delegate that a menu calls; `self` goes with them as a name in `ι`. -/
structure SvrMnuMenuDelegate (ι δ : Type) where
  setTitle : Option String → ι → δ → δ
  getPrimaryMnu : δ → ι

/-- A menu and its delegate, the objects `makeMenus` changes. -/
structure Scene (δ : Type) where
  menu : SvrMnuMenu
  delegate : δ

/-- What the system answers during one `makeMenus`: `findPublicAddress`, and `doesAppExist:` for the app. -/
structure Env where
  publicAddress : Option String
  installed : Bool

/-- What a request comes back with: an error, or a body and what it parses to. -/
inductive Reply
  | error
  | data (json : Option Obj)

/-- The outcome of a request: its object, or nil if it failed. -/
def Reply.outcome : Reply → Option Obj
  | .error => none
  | .data json => json

namespace SvrMnuMenu

variable {ι δ : Type}

def addItem (item : Item) (m : SvrMnuMenu) : SvrMnuMenu := { m with submenu := m.submenu ++ [item] }

/-- `[[launcher menu] removeItem:launcher]` -/
def removeLauncher (m : SvrMnuMenu) : SvrMnuMenu := { m with submenu := m.submenu.filter (!·.isLauncher) }

/-! ## Requests -/

/-- `refresh`, apart from sending the request. -/
def refresh (m : SvrMnuMenu) : SvrMnuMenu := { m with title := m.isa.refreshing }

/-- The completion handler of a request, apart from queueing `makeMenus`. -/
def completionHandler (reply : Reply) (m : SvrMnuMenu) : SvrMnuMenu :=
  let m := { m with gameInfo := none }
  match reply with
  | .error | .data none => m
  | .data (some tempDict) => { m with gameInfo := some tempDict }

/-! ## makeMenus -/

/-- Up to `findPublicAddress`, which is only called when there is a `gameInfo`. -/
def beginMenus : ObjC SvrMnuMenu Bool := do
  modify fun m => { m with submenu := [], numServers := 0, numPlayers := 0 }
  match (← get).gameInfo with
  | none => return false
  | some g => do
    let message ← send (valueForKey "message" (some g))
    if isKindOfString message then
      modify (addItem (.row [.lit "MOTD: ", .obj message]))
    return true

/-- The title of a server's row. -/
def serverTitle (players : Option Obj) (n : Int32) (map ip : Option Obj) : Text :=
  if n = 1 then [.lit "1 player on ", .obj map, .lit "-", .obj ip]
  else [.obj players, .lit " players on ", .obj map, .lit "-", .obj ip]

/-- The body of the loop over the servers; answers whether the server is on the user's own address. -/
def addServer (ip : Option String) (serverInfo : Obj) : ObjC SvrMnuMenu Bool := do
  let players ← send (valueForKey "players" (some serverInfo))
  let n ← send (intValue players)
  modify fun m => { m with numPlayers := m.numPlayers + n }
  let serverIp ← send (valueForKey "ip" (some serverInfo))
  let selfie ← send (isEqualToString ip serverIp)
  let map ← send (valueForKey "map" (some serverInfo))
  modify (addItem (.row (serverTitle players n map serverIp)))
  return selfie

def addServers (ip : Option String) : List Obj → Bool → ObjC SvrMnuMenu Bool
  | [], selfie => return selfie
  | s :: ss, selfie => do
    let here ← addServer ip s
    addServers ip ss (selfie || here)

/-- From the answer of `findPublicAddress` to the end of the loop; `gameInfo` is read again, and may be nil by now. -/
def readServers (ip : Option String) : ObjC SvrMnuMenu (String × Bool) := do
  let active ← send (valueForKey "activegames" (← get).gameInfo)
  let n ← send (intValue active)
  modify fun m => { m with numServers := n }
  let titleString := (← get).isa.titleString n
  if n > 0 then
    let servers ← send (valueForKey "servers" (← get).gameInfo)
    let list ← send (enumerate servers)
    let selfie ← addServers ip list false
    return (titleString, selfie)
  else
    return (titleString, false)

/-- The title for the delegate: the number of players, nil without a `gameInfo`. -/
def statusText (m : SvrMnuMenu) : Option String := m.gameInfo.map fun _ => toString m.numPlayers

def updateDelegate (P : Option (SvrMnuMenuDelegate ι δ)) (self : ι) (m : SvrMnuMenu) (d : δ) : δ :=
  match P with
  | none => d
  | some P => P.setTitle m.statusText self d

def primarySetter [DecidableEq ι] (P : Option (SvrMnuMenuDelegate ι δ)) (self : ι) (d : δ) : Item :=
  match P with
  | none => .primarySetter false
  | some P => .primarySetter (P.getPrimaryMnu d = self)

/-- After the loop. -/
def finishMenus [DecidableEq ι] (P : Option (SvrMnuMenuDelegate ι δ)) (self : ι) (titleString : String)
    (selfie installed : Bool) (s : Scene δ) : Scene δ :=
  let m := { s.menu with
    value := if s.menu.gameInfo.isSome then (if selfie then s.menu.numPlayers - 1 else s.menu.numPlayers) else -1
    title := titleString }
  let d := m.updateDelegate P self s.delegate
  let m := m.removeLauncher
  let m := if installed then m.addItem .launcher else m
  ⟨m.addItem (primarySetter P self d), d⟩

/-- Code of the menu alone. -/
def onMenu {α : Type} (x : ObjC SvrMnuMenu α) : ObjC (Scene δ) α := fun s =>
  match x s.menu with
  | .ok a m => .ok a { s with menu := m }
  | .error e m => .error e { s with menu := m }

/-- `makeMenus` when nothing else runs while it waits for the public address. -/
def makeMenus [DecidableEq ι] (P : Option (SvrMnuMenuDelegate ι δ)) (self : ι) (env : Env) : ObjC (Scene δ) Unit := do
  if ← onMenu beginMenus then
    let (titleString, selfie) ← onMenu (readServers env.publicAddress)
    modify (finishMenus P self titleString selfie env.installed)
  else
    modify fun s => finishMenus P self s.menu.isa.unable false env.installed s

/-- `init`: the object starts zeroed, and makes its menus before it has a delegate. -/
def init (C : MenuClass) (installed : Bool) : SvrMnuMenu :=
  let m : SvrMnuMenu := ⟨C, C.initTitle, [], none, 0, 0, 0⟩
  (finalState (makeMenus (none : Option (SvrMnuMenuDelegate Unit Unit)) () ⟨none, installed⟩) ⟨m, ()⟩).menu

end SvrMnuMenu

end SvrMnu
