import SvrMnu.Sys.Effect
import SvrMnu.Sys.Machine
import SvrMnu.Sys.Handles

/-!
# Looking the public address up

`PortMapper` asks the DNS service about the router: it holds a service, a socket around the connection of the service,
and a source that calls `serviceCallback` when the socket has something to read. The code runs on the mapper and the
handles of the whole process (`Host`), and faults where it would use a handle twice.

- `Session` is what a mapper is for: closed with an error, or open with the last status that was reported;
- `openMapper_run`, `serviceCallback_run`, `close_run`: what each operation does to a mapper that shows a session, with
  the handles of all other mappers unchanged;
- `represents_run`: every run of a client shows a run of sessions, and no handle is ever used after it was given back;
- `header_iff_clean`: when the properties are zero under an error, as the header says.
-/

set_option autoImplicit false

namespace SvrMnu

open Sys

/-! ## Addresses -/

/-- The byte of an address at `i`, in the order of memory. -/
def addrByte (ipv4Addr : UInt32) (i : Nat) : Nat := (ipv4Addr.toNat >>> (8 * i)) % 256

/-- `StringFromIPv4Addr`: dotted-quad notation, nil for no address. -/
def stringFromIPv4Addr (ipv4Addr : UInt32) : Option String :=
  if ipv4Addr ≠ 0 then
    some (toString (addrByte ipv4Addr 0) ++ "." ++ toString (addrByte ipv4Addr 1) ++ "." ++
      toString (addrByte ipv4Addr 2) ++ "." ++ toString (addrByte ipv4Addr 3))
  else none

/-- Port numbers cross the network with their bytes swapped. -/
def ntohs (port : UInt16) : UInt16 := port <<< 8 ||| port >>> 8

def htons (port : UInt16) : UInt16 := ntohs port

/-! ## The objects -/

def kDNSServiceErr_Unknown : Int32 := -65537

def kDNSServiceErr_BadParam : Int32 := -65540

def kDNSServiceErr_NATPortMappingUnsupported : Int32 := -65564

def kDNSServiceProtocol_UDP : UInt32 := 0x10

def kDNSServiceProtocol_TCP : UInt32 := 0x20

structure PortMapper where
  port : UInt16
  desiredPublicPort : UInt16
  publicPort : UInt16
  mapTCP : Bool
  mapUDP : Bool
  error : Int32
  service : Option Nat
  socket : Option Nat
  socketSource : Option Nat
  rawPublicAddress : UInt32
  publicAddress : Option String

/-- What a mapper asks the system for. -/
inductive Resource
  | service
  | socket
  | source
  deriving DecidableEq

/-- The arguments of `DNSServiceNATPortMappingCreate` that vary. -/
structure MappingRequest where
  protocol : UInt32
  privatePort : UInt16
  publicPort : UInt16
  deriving DecidableEq

/-- The handles of the process, and the mappings it has asked for. -/
structure System where
  handles : Handles Resource
  requests : List MappingRequest

/-- A mapper in its process. -/
structure Host where
  mapper : PortMapper
  system : System

inductive Fault
  /-- `NSAssert(!_service, @"Already open")` -/
  | alreadyOpen
  /-- The handle was given back before. -/
  | released (r : Resource)
  deriving DecidableEq

abbrev Native := EStateM Fault Host

def modifyMapper (f : PortMapper → PortMapper) : Native PUnit := modify fun s => { s with mapper := f s.mapper }

def create (r : Resource) : Native Nat := fun s =>
  .ok s.system.handles.next { s with system := { s.system with handles := s.system.handles.create r } }

def use (r : Resource) (i : Nat) : Native PUnit := fun s =>
  if (r, i) ∈ s.system.handles.live then .ok ⟨⟩ s else .error (.released r) s

def release (r : Resource) (i : Nat) : Native PUnit := fun s =>
  match s.system.handles.release (r, i) with
  | some H => .ok ⟨⟩ { s with system := { s.system with handles := H } }
  | none => .error (.released r) s

/-- What the system answers while a mapper is opened: the result of `DNSServiceNATPortMappingCreate`, and whether the
socket and its source could be made. -/
structure Opening where
  error : Int32
  socket : Bool
  source : Bool

def Opening.opens (o : Opening) : Bool := decide (o.error = 0) && o.socket && o.source

/-- A call of `portMapCallback`; the address and the port are in network byte order. -/
structure PortMapReply where
  errorCode : Int32
  publicAddress : UInt32
  publicPort : UInt16

/-- What `DNSServiceProcessResult` does: the replies it passes on, then its result. -/
structure Processed where
  replies : List PortMapReply
  error : Int32

namespace PortMapper

def initWithPort (port : UInt16) : PortMapper := ⟨port, 0, 0, true, false, 0, none, none, none, 0, none⟩

/-! ## Status -/

/-- An answer without a port is an error when a port was asked for. -/
def judge (desiredPublicPort : UInt16) (errorCode : Int32) (publicPort : UInt16) : Int32 :=
  if errorCode = 0 ∧ publicPort = 0 ∧ desiredPublicPort ≠ 0 then kDNSServiceErr_NATPortMappingUnsupported
  else errorCode

/-! The properties are observable, so they are only set when they change. -/

def changeError (error : Int32) (m : PortMapper) : PortMapper :=
  if error ≠ m.error then { m with error := error } else m

def changeAddress (rawPublicAddress : UInt32) (m : PortMapper) : PortMapper :=
  if rawPublicAddress ≠ m.rawPublicAddress then
    { m with rawPublicAddress := rawPublicAddress, publicAddress := stringFromIPv4Addr rawPublicAddress }
  else m

def changePort (publicPort : UInt16) (m : PortMapper) : PortMapper :=
  if publicPort ≠ m.publicPort then { m with publicPort := publicPort } else m

/-- `priv_portMapStatus:publicAddress:publicPort:` -/
def privPortMapStatus (errorCode : Int32) (rawPublicAddress : UInt32) (publicPort : UInt16) (m : PortMapper) :
    PortMapper :=
  changePort publicPort
    (changeAddress rawPublicAddress (changeError (judge m.desiredPublicPort errorCode publicPort) m))

def portMapCallback (r : PortMapReply) : PortMapper → PortMapper :=
  privPortMapStatus r.errorCode r.publicAddress (ntohs r.publicPort)

/-! ## Closing -/

/-- Give back what a variable holds, if it holds something. -/
def giveBack (r : Resource) (held : PortMapper → Option Nat) (clear : PortMapper → PortMapper) : Native PUnit := do
  match held (← get).mapper with
  | none => pure ⟨⟩
  | some i => do
    release r i
    modifyMapper clear

/-- `priv_disconnect`, which keeps the error. -/
def privDisconnect : Native PUnit := do
  giveBack .source socketSource fun m => { m with socketSource := none }
  giveBack .socket socket fun m => { m with socket := none }
  giveBack .service service fun m =>
    { m with service := none, rawPublicAddress := 0, publicAddress := none, publicPort := 0 }

def close : Native PUnit := do
  privDisconnect
  modifyMapper fun m => { m with error := 0 }

/-! ## Replies -/

def dnsServiceProcessResult (service : Option Nat) (p : Processed) : Native Int32 :=
  match service with
  | none => return kDNSServiceErr_BadParam
  | some i => do
    use .service i
    modifyMapper fun m => p.replies.foldl (fun m r => portMapCallback r m) m
    return p.error

def serviceCallback (p : Processed) : Native PUnit := do
  let err ← dnsServiceProcessResult (← get).mapper.service p
  if err ≠ 0 then
    modifyMapper (privPortMapStatus err 0 0)
    privDisconnect
  else pure ⟨⟩

/-! ## Opening -/

def protocol (m : PortMapper) : UInt32 :=
  (if m.mapTCP then kDNSServiceProtocol_TCP else 0) ||| (if m.mapUDP then kDNSServiceProtocol_UDP else 0)

/-- The service is only stored when there is no error. -/
def dnsServiceNATPortMappingCreate (error : Int32) (q : MappingRequest) : Native Int32 := do
  modify fun s => { s with system := { s.system with requests := s.system.requests ++ [q] } }
  if error = 0 then
    let i ← create .service
    modifyMapper fun m => { m with service := some i }
    return error
  else return error

/-- The socket around the connection of the service, and its source, as far as the system makes them. -/
def addSource (o : Opening) : Native PUnit := do
  if o.socket then
    let i ← create .socket
    modifyMapper fun m => { m with socket := some i }
    if o.source then
      let j ← create .source
      modifyMapper fun m => { m with socketSource := some j }
    else pure ⟨⟩
  else pure ⟨⟩

/-- The end of `open` when it has no source. -/
def failToOpen : Native Bool := do
  close
  modifyMapper fun m => { m with error := kDNSServiceErr_Unknown }
  return false

/-- `open`, from the creation of the socket on. -/
def finishOpen (o : Opening) : Native Bool := do
  addSource o
  if (← get).mapper.socketSource.isSome then return true else failToOpen

/-- `open` -/
def openMapper (o : Opening) : Native Bool := do
  let m := (← get).mapper
  if m.service.isSome then throw .alreadyOpen
  else
    let error ← dnsServiceNATPortMappingCreate o.error ⟨m.protocol, htons m.port, htons m.desiredPublicPort⟩
    modifyMapper fun m => { m with error := error }
    if error ≠ 0 then return false else finishOpen o

/-- A mapping is in effect if the public address is not that of the computer. -/
def isMapped (rawLocalAddress : UInt32) (m : PortMapper) : Bool :=
  m.rawPublicAddress ≠ 0 && m.rawPublicAddress ≠ rawLocalAddress

end PortMapper

/-! ## Sessions -/

/-- The properties of a mapper that its client reads. -/
structure Status where
  error : Int32
  address : UInt32
  port : UInt16
  deriving DecidableEq

/-- A mapper is closed, and only its error is left, or it is open and shows what was reported last. -/
inductive Session
  | closed (error : Int32)
  | opened (last : Status)
  deriving DecidableEq

namespace Session

def status : Session → Status
  | closed error => ⟨error, 0, 0⟩
  | opened last => last

def isOpen : Session → Bool
  | closed _ => false
  | opened _ => true

/-- An open mapper cannot be opened. -/
def start (o : Opening) : Session → Session
  | closed _ =>
    if o.error ≠ 0 then closed o.error
    else if o.opens then opened ⟨0, 0, 0⟩
    else closed kDNSServiceErr_Unknown
  | opened last => opened last

def reply (desiredPublicPort : UInt16) (x : Session) (r : PortMapReply) : Session :=
  match x with
  | closed error => closed error
  | opened _ =>
    opened ⟨PortMapper.judge desiredPublicPort r.errorCode (ntohs r.publicPort), r.publicAddress, ntohs r.publicPort⟩

/-- The replies, unless the connection fails. -/
def process (desiredPublicPort : UInt16) (p : Processed) : Session → Session
  | closed error => closed error
  | opened last =>
    if p.error ≠ 0 then closed p.error else p.replies.foldl (reply desiredPublicPort) (opened last)

end Session

/-! ## A mapper shows a session -/

/-- The handles of kind `r` that a variable holds. -/
def holding (r : Resource) (o : Option Nat) : List (Resource × Nat) := o.toList.map fun i => (r, i)

namespace PortMapper

def held (m : PortMapper) : List (Resource × Nat) :=
  holding .source m.socketSource ++ (holding .socket m.socket ++ holding .service m.service)

/-- What a client sets before it opens the mapper. -/
def settings (m : PortMapper) : UInt16 × UInt16 × Bool × Bool := (m.port, m.desiredPublicPort, m.mapTCP, m.mapUDP)

def request (m : PortMapper) : MappingRequest := ⟨m.protocol, htons m.port, htons m.desiredPublicPort⟩

/-- The properties are those of the session, and a mapper has all three objects or none. -/
structure Shows (x : Session) (m : PortMapper) : Prop where
  error : m.error = x.status.error
  address : m.rawPublicAddress = x.status.address
  text : m.publicAddress = stringFromIPv4Addr x.status.address
  publicPort : m.publicPort = x.status.port
  service : m.service.isSome = x.isOpen
  socket : m.socket.isSome = x.isOpen
  source : m.socketSource.isSome = x.isOpen

/-- The live handles are those of the mapper and, in any order, those in `l`. -/
def Holds (l : List (Resource × Nat)) (s : Host) : Prop := s.system.handles.live.Perm (s.mapper.held ++ l)

variable {l : List (Resource × Nat)} {s : Host} {x : Session} {m : PortMapper}

/-! ## Closing and replies -/

theorem giveBack_run (r : Resource) (held : PortMapper → Option Nat) (clear : PortMapper → PortMapper)
    (h : s.system.handles.live.Perm (holding r (held s.mapper) ++ l)) :
    ∃ H, giveBack r held clear s =
        .ok ⟨⟩ ⟨if (held s.mapper).isSome then clear s.mapper else s.mapper, { s.system with handles := H }⟩ ∧
      H.live.Perm l := by
  have hget : (get : Native Host) s = .ok s s := rfl
  unfold giveBack
  rw [bind_ok hget]
  cases hi : held s.mapper with
  | none =>
    rw [hi] at h
    exact ⟨s.system.handles, rfl, h⟩
  | some i =>
    rw [hi] at h
    obtain ⟨H, hr, hH⟩ := Handles.release_perm h
    refine ⟨H, ?_, hH⟩
    have hrel : release r i s = .ok ⟨⟩ { s with system := { s.system with handles := H } } := by
      simp only [release, hr]
    exact bind_ok hrel

/-- A mapper after `priv_disconnect`. -/
def disconnected (m : PortMapper) : PortMapper :=
  if m.service.isSome then
    { m with
      service := none, socket := none, socketSource := none
      rawPublicAddress := 0, publicAddress := none, publicPort := 0 }
  else { m with socket := none, socketSource := none }

theorem privDisconnect_run (h : Holds l s) :
    ∃ H, privDisconnect s = .ok ⟨⟩ ⟨s.mapper.disconnected, { s.system with handles := H }⟩ ∧ H.live.Perm l := by
  have h₀ : s.system.handles.live.Perm (holding .source s.mapper.socketSource ++
      (holding .socket s.mapper.socket ++ (holding .service s.mapper.service ++ l))) := by
    have he := h
    simp only [Holds, held, List.append_assoc] at he
    exact he
  obtain ⟨H₁, h₁, hl₁⟩ := giveBack_run .source socketSource (fun m => { m with socketSource := none }) h₀
  let s₁ : Host := ⟨{ s.mapper with socketSource := none }, { s.system with handles := H₁ }⟩
  have e₁ : giveBack .source socketSource (fun m => { m with socketSource := none }) s = .ok ⟨⟩ s₁ := by
    rw [h₁]
    split
    · rfl
    · next hn =>
      have hs : s.mapper.socketSource = none := Option.not_isSome_iff_eq_none.mp hn
      simp only [s₁, ← hs]
  obtain ⟨H₂, h₂, hl₂⟩ := giveBack_run (s := s₁) .socket socket (fun m => { m with socket := none }) hl₁
  let s₂ : Host := ⟨{ s₁.mapper with socket := none }, { s.system with handles := H₂ }⟩
  have e₂ : giveBack .socket socket (fun m => { m with socket := none }) s₁ = .ok ⟨⟩ s₂ := by
    rw [h₂]
    split
    · rfl
    · next hn =>
      have hs : s₁.mapper.socket = none := Option.not_isSome_iff_eq_none.mp hn
      simp only [s₂, s₁, ← hs]
  obtain ⟨H₃, h₃, hl₃⟩ := giveBack_run (s := s₂) .service service (fun m =>
    { m with service := none, rawPublicAddress := 0, publicAddress := none, publicPort := 0 }) hl₂
  refine ⟨H₃, ?_, hl₃⟩
  unfold privDisconnect
  rw [bind_ok e₁, bind_ok e₂, h₃]
  unfold disconnected
  rfl

theorem shows_disconnected (h : m.service = none → Shows (.closed m.error) m) :
    Shows (.closed m.error) m.disconnected := by
  unfold disconnected
  cases hs : m.service with
  | none =>
    have h := h hs
    exact ⟨h.error, h.address, h.text, h.publicPort, by simp [Session.isOpen], rfl, rfl⟩
  | some i => exact ⟨rfl, rfl, rfl, rfl, rfl, rfl, rfl⟩

@[simp] theorem settings_disconnected (m : PortMapper) : m.disconnected.settings = m.settings := by
  unfold disconnected
  split <;> rfl

theorem variables_closed {e : Int32} (h : Shows (.closed e) m) :
    m.service = none ∧ m.socket = none ∧ m.socketSource = none :=
  ⟨Option.not_isSome_iff_eq_none.mp (by rw [h.service]; exact Bool.false_ne_true),
    Option.not_isSome_iff_eq_none.mp (by rw [h.socket]; exact Bool.false_ne_true),
    Option.not_isSome_iff_eq_none.mp (by rw [h.source]; exact Bool.false_ne_true)⟩

theorem Shows.length_held (h : Shows x m) : m.held.length = if m.service.isSome then 3 else 0 := by
  have hlength (r : Resource) (o : Option Nat) : (holding r o).length = if o.isSome then 1 else 0 := by
    cases o <;> rfl
  unfold held
  rw [List.length_append, List.length_append, hlength, hlength, hlength, h.service, h.socket, h.source]
  cases x.isOpen <;> rfl

theorem held_closed {e : Int32} (h : Shows (.closed e) m) : m.held = [] := by
  obtain ⟨hservice, hsocket, hsource⟩ := variables_closed h
  simp [held, holding, hservice, hsocket, hsource]

theorem changeError_eq (error : Int32) (m : PortMapper) : changeError error m = { m with error := error } := by
  unfold changeError
  split
  · rfl
  · next h => rw [not_not.mp h]

theorem changePort_eq (port : UInt16) (m : PortMapper) : changePort port m = { m with publicPort := port } := by
  unfold changePort
  split
  · rfl
  · next h => rw [not_not.mp h]

/-- The two addresses of a mapper go together. -/
theorem changeAddress_eq (address : UInt32) (h : m.publicAddress = stringFromIPv4Addr m.rawPublicAddress) :
    changeAddress address m =
      { m with rawPublicAddress := address, publicAddress := stringFromIPv4Addr address } := by
  unfold changeAddress
  split
  · rfl
  · next hn => rw [not_not.mp hn, ← h]

theorem privPortMapStatus_eq (h : m.publicAddress = stringFromIPv4Addr m.rawPublicAddress) (errorCode : Int32)
    (address : UInt32) (port : UInt16) :
    privPortMapStatus errorCode address port m =
      { m with
        error := judge m.desiredPublicPort errorCode port
        rawPublicAddress := address
        publicAddress := stringFromIPv4Addr address
        publicPort := port } := by
  unfold privPortMapStatus
  rw [changeError_eq, changeAddress_eq (m := { m with error := judge m.desiredPublicPort errorCode port }) address h,
    changePort_eq]

theorem shows_status {last : Status} (h : Shows (.opened last) m) (errorCode : Int32) (address : UInt32)
    (port : UInt16) :
    Shows (.opened ⟨judge m.desiredPublicPort errorCode port, address, port⟩)
      (privPortMapStatus errorCode address port m) := by
  have ht : m.publicAddress = stringFromIPv4Addr m.rawPublicAddress := by rw [h.text, h.address]
  rw [privPortMapStatus_eq ht]
  exact ⟨rfl, rfl, rfl, rfl, h.service, h.socket, h.source⟩

/-- What a status leaves alone. -/
theorem privPortMapStatus_frame (errorCode : Int32) (address : UInt32) (port : UInt16) (m : PortMapper) :
    (privPortMapStatus errorCode address port m).settings = m.settings ∧
      (privPortMapStatus errorCode address port m).held = m.held := by
  unfold privPortMapStatus
  rw [changePort_eq, changeError_eq]
  unfold changeAddress
  split <;> exact ⟨rfl, rfl⟩

theorem desiredPublicPort_eq {m m' : PortMapper} (h : m.settings = m'.settings) :
    m.desiredPublicPort = m'.desiredPublicPort := (Prod.mk.inj (Prod.mk.inj h).2).1

/-- The replies of one `DNSServiceProcessResult`. -/
theorem shows_replies (rs : List PortMapReply) {last : Status} (h : Shows (.opened last) m) :
    ∃ last', Session.opened last' = rs.foldl (Session.reply m.desiredPublicPort) (.opened last) ∧
      Shows (.opened last') (rs.foldl (fun m r => portMapCallback r m) m) ∧
      (rs.foldl (fun m r => portMapCallback r m) m).settings = m.settings ∧
      (rs.foldl (fun m r => portMapCallback r m) m).held = m.held := by
  induction rs generalizing m last with
  | nil => exact ⟨last, rfl, h, rfl, rfl⟩
  | cons r rs ih =>
    obtain ⟨hset, hheld⟩ := privPortMapStatus_frame r.errorCode r.publicAddress (ntohs r.publicPort) m
    obtain ⟨last', hl, hs, hset', hheld'⟩ := ih (shows_status h r.errorCode r.publicAddress (ntohs r.publicPort))
    refine ⟨last', ?_, hs, hset'.trans hset, hheld'.trans hheld⟩
    rw [hl, desiredPublicPort_eq hset]
    rfl

theorem mem_of_holds {i : Nat} (h : Holds l s) (hi : s.mapper.service = some i) :
    (Resource.service, i) ∈ s.system.handles.live := by
  refine h.symm.subset (List.mem_append_left _ (List.mem_append_right _ (List.mem_append_right _ ?_)))
  rw [hi]
  exact List.mem_singleton_self _

theorem dnsServiceProcessResult_run (h : Holds l s) {i : Nat} (hi : s.mapper.service = some i) (p : Processed) :
    dnsServiceProcessResult s.mapper.service p s =
      .ok p.error { s with mapper := p.replies.foldl (fun m r => portMapCallback r m) s.mapper } := by
  have hu : use .service i s = .ok ⟨⟩ s := if_pos (mem_of_holds h hi)
  rw [hi]
  exact bind_ok hu

/-- **`serviceCallback`** of an open mapper, with the handles of all others left alone. -/
theorem serviceCallback_run {last : Status} (hx : Shows (.opened last) s.mapper) (hl : Holds l s) (p : Processed) :
    ∃ s', serviceCallback p s = .ok ⟨⟩ s' ∧
      Shows (Session.process s.mapper.desiredPublicPort p (.opened last)) s'.mapper ∧ Holds l s' ∧
      s'.mapper.settings = s.mapper.settings ∧ s'.system.requests = s.system.requests := by
  obtain ⟨i, hi⟩ := Option.isSome_iff_exists.mp (hx.service.trans rfl)
  obtain ⟨last', hlast, hs, hset, hheld⟩ := shows_replies p.replies hx
  have hget : (get : Native Host) s = .ok s s := rfl
  have h₁ := dnsServiceProcessResult_run hl hi p
  generalize p.replies.foldl (fun m r => portMapCallback r m) s.mapper = m₁ at hs hset hheld h₁
  have hl₁ : Holds l { s with mapper := m₁ } := by
    unfold Holds
    rw [hheld]
    exact hl
  unfold serviceCallback
  rw [bind_ok hget, bind_ok h₁]
  by_cases he : p.error = 0
  · simp only [Session.process, ne_eq, he, not_true_eq_false, if_false]
    exact ⟨_, rfl, hlast ▸ hs, hl₁, hset, rfl⟩
  · obtain ⟨hset₂, hheld₂⟩ := privPortMapStatus_frame p.error 0 0 m₁
    have hs₂ := shows_status hs p.error 0 0
    have hm : modifyMapper (privPortMapStatus p.error 0 0) { s with mapper := m₁ } =
        .ok ⟨⟩ { s with mapper := privPortMapStatus p.error 0 0 m₁ } := rfl
    generalize privPortMapStatus p.error 0 0 m₁ = m₂ at hset₂ hheld₂ hs₂ hm
    have hl₂ : Holds l { s with mapper := m₂ } := by
      unfold Holds
      rw [hheld₂]
      exact hl₁
    have herr : m₂.error = p.error := hs₂.error.trans (by simp [judge, Session.status, he])
    obtain ⟨H, hd, hH⟩ := privDisconnect_run hl₂
    have hclosed : Shows (.closed m₂.error) m₂.disconnected :=
      shows_disconnected fun hn => by
        have := hs₂.service
        rw [hn] at this
        cases this
    simp only [Session.process, ne_eq, he, not_false_eq_true, if_true]
    rw [bind_ok hm]
    refine ⟨_, hd, herr ▸ hclosed, ?_, (settings_disconnected _).trans (hset₂.trans hset), rfl⟩
    unfold Holds
    rw [held_closed hclosed]
    exact hH

/-- As long as the connection works, the mapper keeps what it holds. -/
theorem serviceCallback_held {last : Status} (hx : Shows (.opened last) s.mapper) (hl : Holds l s) {p : Processed}
    (hp : p.error = 0) {s' : Host} (h : serviceCallback p s = .ok ⟨⟩ s') : s'.mapper.held = s.mapper.held := by
  obtain ⟨i, hi⟩ := Option.isSome_iff_exists.mp (hx.service.trans rfl)
  obtain ⟨-, -, -, -, hheld⟩ := shows_replies p.replies hx
  unfold serviceCallback at h
  rw [bind_ok (get_run s), bind_ok (dnsServiceProcessResult_run hl hi p)] at h
  simp only [hp, ne_eq, not_true_eq_false, if_false] at h
  cases h
  exact hheld

/-- `close`, also of a mapper that is only partly open. -/
theorem close_partly (h : s.mapper.service = none → Shows (.closed s.mapper.error) s.mapper) (hl : Holds l s) :
    ∃ s', close s = .ok ⟨⟩ s' ∧ Shows (.closed 0) s'.mapper ∧ Holds l s' ∧
      s'.mapper.settings = s.mapper.settings ∧ s'.system.requests = s.system.requests := by
  obtain ⟨H, hd, hH⟩ := privDisconnect_run hl
  have hclosed : Shows (.closed s.mapper.error) s.mapper.disconnected := shows_disconnected h
  have hzero : Shows (.closed 0) { s.mapper.disconnected with error := 0 } :=
    ⟨rfl, hclosed.address, hclosed.text, hclosed.publicPort, hclosed.service, hclosed.socket, hclosed.source⟩
  refine ⟨⟨{ s.mapper.disconnected with error := 0 }, { s.system with handles := H }⟩, bind_ok hd, hzero, ?_, ?_, rfl⟩
  · unfold Holds
    rw [held_closed hzero]
    exact hH
  · exact settings_disconnected s.mapper

theorem Shows.of_service_none (hx : Shows x m) (h : m.service = none) : Shows (.closed m.error) m := by
  cases x with
  | closed e =>
    have he : m.error = e := hx.error
    rwa [he]
  | opened last =>
    have := hx.service
    rw [h] at this
    cases this

/-- **`close`**, with the handles of all others left alone. -/
theorem close_run (hx : Shows x s.mapper) (hl : Holds l s) :
    ∃ s', close s = .ok ⟨⟩ s' ∧ Shows (.closed 0) s'.mapper ∧ Holds l s' ∧
      s'.mapper.settings = s.mapper.settings ∧ s'.system.requests = s.system.requests :=
  close_partly hx.of_service_none hl

/-! ## Opening -/

theorem failToOpen_run (h : s.mapper.service ≠ none) (hl : Holds l s) :
    ∃ s', failToOpen s = .ok false s' ∧ Shows (.closed kDNSServiceErr_Unknown) s'.mapper ∧ Holds l s' ∧
      s'.mapper.settings = s.mapper.settings ∧ s'.system.requests = s.system.requests := by
  obtain ⟨t, ht, hs, hlt, hset, hreq⟩ := close_partly (fun hn => absurd hn h) hl
  refine ⟨{ t with mapper := { t.mapper with error := kDNSServiceErr_Unknown } }, bind_ok ht, ?_, hlt, hset, hreq⟩
  exact ⟨rfl, hs.address, hs.text, hs.publicPort, hs.service, hs.socket, hs.source⟩

/-- The mapper has its service, and is as it was otherwise. -/
theorem finishOpen_run {i : Nat} {S : System} (hx : Shows (.closed 0) m)
    (hl : Holds l ⟨{ m with service := some i }, S⟩) (o : Opening) :
    ∃ s', finishOpen o ⟨{ m with service := some i }, S⟩ = .ok (o.socket && o.source) s' ∧
      Shows (if o.socket && o.source then .opened ⟨0, 0, 0⟩ else .closed kDNSServiceErr_Unknown) s'.mapper ∧
      Holds l s' ∧ s'.mapper.settings = m.settings ∧ s'.system.requests = S.requests := by
  obtain ⟨-, hsocket, hsource⟩ := variables_closed hx
  obtain ⟨e, hsk, hsc⟩ := o
  have hlive : S.handles.live.Perm ((.service, i) :: l) := by
    have := hl
    simp only [Holds, held, holding, hsocket, hsource] at this
    exact this
  cases hsk with
  | false =>
    have ha : addSource ⟨e, false, hsc⟩ ⟨{ m with service := some i }, S⟩ =
      .ok ⟨⟩ ⟨{ m with service := some i }, S⟩ := rfl
    obtain ⟨t, ht, hs, hlt, hset, hreq⟩ := failToOpen_run (s := ⟨{ m with service := some i }, S⟩)
      (Option.some_ne_none i) hl
    refine ⟨t, ?_, hs, hlt, hset, hreq⟩
    unfold finishOpen
    rw [bind_ok ha, bind_ok (get_run _)]
    simp only [hsource, Option.isSome_none, Bool.false_eq_true, if_false, Bool.false_and]
    rw [hsource] at ht
    exact ht
  | true =>
    let S₁ : System := { S with handles := S.handles.create .socket }
    let m₁ : PortMapper := { m with service := some i, socket := some S.handles.next }
    have hl₁ : S₁.handles.live.Perm ((.socket, S.handles.next) :: (.service, i) :: l) := Handles.perm_create hlive _
    cases hsc with
    | false =>
      have ha : addSource ⟨e, true, false⟩ ⟨{ m with service := some i }, S⟩ = .ok ⟨⟩ ⟨m₁, S₁⟩ := rfl
      have hlm : Holds l ⟨m₁, S₁⟩ := by
        simp only [Holds, held, holding, m₁, hsource]
        exact hl₁
      obtain ⟨t, ht, hs, hlt, hset, hreq⟩ := failToOpen_run (s := ⟨m₁, S₁⟩) (Option.some_ne_none i) hlm
      refine ⟨t, ?_, hs, hlt, hset, hreq⟩
      unfold finishOpen
      rw [bind_ok ha, bind_ok (get_run _)]
      simp only [m₁, hsource, Option.isSome_none, Bool.false_eq_true, if_false, Bool.and_false]
      simp only [m₁, hsource] at ht
      exact ht
    | true =>
      let S₂ : System := { S₁ with handles := S₁.handles.create .source }
      let m₂ : PortMapper := { m₁ with socketSource := some S₁.handles.next }
      refine ⟨⟨m₂, S₂⟩, rfl, ?_, ?_, rfl, rfl⟩
      · exact ⟨hx.error, hx.address, hx.text, hx.publicPort, rfl, rfl, rfl⟩
      · exact Handles.perm_create hl₁ _

/-- **`open`** of a closed mapper, with the handles of all others left alone. -/
theorem openMapper_run {e : Int32} (hx : Shows (.closed e) s.mapper) (hl : Holds l s) (o : Opening) :
    ∃ s', openMapper o s = .ok o.opens s' ∧ Shows (Session.start o (.closed e)) s'.mapper ∧ Holds l s' ∧
      s'.mapper.settings = s.mapper.settings ∧
      s'.system.requests = s.system.requests ++ [s.mapper.request] := by
  obtain ⟨hservice, hsocket, hsource⟩ := variables_closed hx
  have hlive : s.system.handles.live.Perm l := by
    have := hl
    unfold Holds at this
    rwa [held_closed hx] at this
  let S₁ : System := { s.system with requests := s.system.requests ++ [s.mapper.request] }
  have hshow : Shows (.closed o.error) { s.mapper with error := o.error } :=
    ⟨rfl, hx.address, hx.text, hx.publicPort, hx.service, hx.socket, hx.source⟩
  have hopen : openMapper o s = (dnsServiceNATPortMappingCreate o.error s.mapper.request >>= fun error => do
      modifyMapper fun m => { m with error := error }
      if error ≠ 0 then return false else finishOpen o) s := by
    unfold openMapper
    rw [bind_ok (get_run _)]
    simp only [hservice, Option.isSome_none, Bool.false_eq_true, if_false]
    rfl
  rw [hopen]
  by_cases he : o.error = 0
  · let S₂ : System := { S₁ with handles := S₁.handles.create .service }
    have hc : dnsServiceNATPortMappingCreate o.error s.mapper.request s =
        .ok o.error ⟨{ s.mapper with service := some s.system.handles.next }, S₂⟩ := by
      unfold dnsServiceNATPortMappingCreate
      simp only [he, if_true]
      rfl
    have hl₁ : Holds l ⟨{ s.mapper with error := 0, service := some s.system.handles.next }, S₂⟩ := by
      simp only [Holds, held, holding, hsocket, hsource]
      exact Handles.perm_create hlive _
    rw [he] at hshow
    obtain ⟨t, ht, hs, hlt, hset, hreq⟩ := finishOpen_run hshow hl₁ o
    refine ⟨t, ?_, ?_, hlt, hset, hreq⟩
    · rw [bind_ok hc]
      simp only [Opening.opens, he, decide_true, Bool.true_and, ne_eq, not_true_eq_false, if_false]
      exact ht
    · simp only [Session.start, Opening.opens, he, decide_true, Bool.true_and, ne_eq, not_true_eq_false, if_false]
      exact hs
  · have hc : dnsServiceNATPortMappingCreate o.error s.mapper.request s = .ok o.error ⟨s.mapper, S₁⟩ := by
      unfold dnsServiceNATPortMappingCreate
      simp only [he, if_false]
      rfl
    refine ⟨⟨{ s.mapper with error := o.error }, S₁⟩, ?_, ?_, ?_, rfl, rfl⟩
    · rw [bind_ok hc]
      simp only [Opening.opens, he, decide_false, Bool.false_and, ne_eq, not_false_eq_true, if_true]
      rfl
    · simp only [Session.start, ne_eq, he, not_false_eq_true, if_true]
      exact hshow
    · unfold Holds
      rw [held_closed hshow]
      exact hlive

theorem openMapper_alreadyOpen {last : Status} (hx : Shows (.opened last) s.mapper) (o : Opening) :
    openMapper o s = .error .alreadyOpen s := by
  have hs : s.mapper.service.isSome = true := hx.service
  unfold openMapper
  rw [bind_ok (get_run _)]
  simp only [hs, if_true]
  rfl

/-! ## Runs of a client -/

/-- What a client does with its mapper, and the calls the run loop makes for it. -/
inductive Op
  | setMapTCP (mapTCP : Bool)
  | setMapUDP (mapUDP : Bool)
  | setDesiredPublicPort (port : UInt16)
  | openMapper (o : Opening)
  | serviceCallback (p : Processed)
  | close

namespace Op

def code : Op → Native PUnit
  | setMapTCP b => modifyMapper fun m => { m with mapTCP := b }
  | setMapUDP b => modifyMapper fun m => { m with mapUDP := b }
  | setDesiredPublicPort p => modifyMapper fun m => { m with desiredPublicPort := p }
  | openMapper o => do
    let _ ← PortMapper.openMapper o
    pure ⟨⟩
  | serviceCallback p => PortMapper.serviceCallback p
  | close => PortMapper.close

/-- The run loop calls a source that is still attached. -/
def enabled (s : Host) : Op → Bool
  | serviceCallback _ => s.mapper.socketSource.isSome
  | _ => true

end Op

/-- An exception ends the operation and leaves what it has done. -/
def machine : Machine Host Op :=
  ⟨fun s op => if op.enabled s then some (finalState op.code s) else none⟩

/-- What a client sees: the port it asks for, and the session. -/
structure Client where
  desiredPublicPort : UInt16
  session : Session

def Client.step (c : Client) : Op → Client
  | .setMapTCP _ | .setMapUDP _ => c
  | .setDesiredPublicPort p => { c with desiredPublicPort := p }
  | .openMapper o => { c with session := c.session.start o }
  | .serviceCallback p => { c with session := c.session.process c.desiredPublicPort p }
  | .close => { c with session := .closed 0 }

/-- A mapper shows what its client sees. -/
structure Represents (l : List (Resource × Nat)) (c : Client) (s : Host) : Prop where
  shows : Shows c.session s.mapper
  desired : s.mapper.desiredPublicPort = c.desiredPublicPort
  holds : Holds l s

/-- An operation ends as its client expects; only `open` of an open mapper raises. -/
theorem represents_code {c : Client} (h : Represents l c s) (op : Op) (he : op.enabled s = true) :
    Represents l (c.step op) (finalState op.code s) ∧
      ∀ e s', op.code s = .error e s' → e = .alreadyOpen ∧ s' = s ∧ s.mapper.service ≠ none ∧
        ∃ o, op = .openMapper o := by
  have hok {s' : Host} (hr : op.code s = .ok ⟨⟩ s') (h' : Represents l (c.step op) s') :
      Represents l (c.step op) (finalState op.code s) ∧
        ∀ e s', op.code s = .error e s' → e = .alreadyOpen ∧ s' = s ∧ s.mapper.service ≠ none ∧
          ∃ o, op = .openMapper o := by
    rw [finalState_ok hr]
    refine ⟨h', fun e s'' hs => ?_⟩
    rw [hr] at hs
    cases hs
  obtain ⟨⟨error, address, text, port, service, socket, source⟩, hdes, hl⟩ := h
  have hx : Shows c.session s.mapper := ⟨error, address, text, port, service, socket, source⟩
  cases op with
  | setMapTCP b => exact hok rfl ⟨⟨error, address, text, port, service, socket, source⟩, hdes, hl⟩
  | setMapUDP b => exact hok rfl ⟨⟨error, address, text, port, service, socket, source⟩, hdes, hl⟩
  | setDesiredPublicPort p => exact hok rfl ⟨⟨error, address, text, port, service, socket, source⟩, rfl, hl⟩
  | close =>
    obtain ⟨s', hr, hs, hl', hset, -⟩ := close_run hx hl
    exact hok hr ⟨hs, (desiredPublicPort_eq hset).trans hdes, hl'⟩
  | serviceCallback p =>
    cases hc : c.session with
    | closed e =>
      have hopen : s.mapper.socketSource.isSome = false := by rw [source, hc]; rfl
      have : s.mapper.socketSource.isSome = true := he
      rw [hopen] at this
      cases this
    | opened last =>
      rw [hc] at hx
      obtain ⟨s', hr, hs, hl', hset, -⟩ := serviceCallback_run hx hl p
      refine hok hr ⟨?_, (desiredPublicPort_eq hset).trans hdes, hl'⟩
      rw [hdes, ← hc] at hs
      exact hs
  | openMapper o =>
    cases hc : c.session with
    | closed e =>
      rw [hc] at hx
      obtain ⟨s', hr, hs, hl', hset, -⟩ := openMapper_run hx hl o
      rw [← hc] at hs
      exact hok (bind_ok hr) ⟨hs, (desiredPublicPort_eq hset).trans hdes, hl'⟩
    | opened last =>
      rw [hc] at hx
      have hr : (Op.openMapper o).code s = .error .alreadyOpen s := bind_error (openMapper_alreadyOpen hx o)
      have hstep : c.step (.openMapper o) = c := by
        obtain ⟨d, x⟩ := c
        simp only at hc
        subst hc
        rfl
      rw [finalState_error hr, hstep]
      refine ⟨⟨by rwa [hc], hdes, hl⟩, fun e s'' hs => ?_⟩
      rw [hr] at hs
      cases hs
      refine ⟨rfl, rfl, fun hn => ?_, o, rfl⟩
      have := hx.service
      rw [hn] at this
      cases this

theorem shows_init (port : UInt16) : Shows (.closed 0) (initWithPort port) := ⟨rfl, rfl, rfl, rfl, rfl, rfl, rfl⟩

theorem represents_init (port : UInt16) (S : System) :
    Represents S.handles.live ⟨0, .closed 0⟩ ⟨initWithPort port, S⟩ := by
  refine ⟨shows_init port, rfl, ?_⟩
  unfold Holds
  rw [held_closed (shows_init port)]
  exact List.Perm.refl _

/-- Every run of a client, with the handles of the rest of the process in `S`. -/
theorem represents_run {port : UInt16} {S : System} {ops : List Op} {s : Host}
    (h : machine.run ⟨initWithPort port, S⟩ ops = some s) :
    Represents S.handles.live (ops.foldl Client.step ⟨0, .closed 0⟩) s := by
  refine Machine.run_events (I := fun ops s => Represents S.handles.live (ops.foldl Client.step ⟨0, .closed 0⟩) s)
    (represents_init port S) (fun ops s op s' hi hs => ?_) h
  simp only [machine] at hs
  split at hs
  · next he =>
    cases Option.some.inj hs
    rw [List.foldl_append]
    exact (represents_code hi op he).1
  · cases hs

/-- **Handles are used while they are live, and given back once.** In every run of a client nothing raises but `open` of
a mapper that is open, which changes nothing; the live handles are those of the rest of the process and those of the
mapper, three if it is open and none if it is closed. -/
theorem handles_run {port : UInt16} {S : System} {ops : List Op} {s : Host}
    (h : machine.run ⟨initWithPort port, S⟩ ops = some s) :
    s.system.handles.live.Perm (s.mapper.held ++ S.handles.live) ∧
    s.mapper.held.length = (if s.mapper.service.isSome then 3 else 0) ∧
    ∀ op : Op, op.enabled s = true → ∀ e s', op.code s = .error e s' →
      e = .alreadyOpen ∧ s' = s ∧ s.mapper.service ≠ none ∧ ∃ o, op = .openMapper o := by
  have hr := represents_run h
  exact ⟨hr.holds, hr.shows.length_held, fun op he => (represents_code hr op he).2⟩

theorem handles_open : ∃ s, machine.run ⟨initWithPort 80, Handles.empty, []⟩ [.openMapper ⟨0, true, true⟩] = some s ∧
    s.system.handles.live.Perm (s.mapper.held ++ []) ∧
      s.mapper.held.length = (if s.mapper.service.isSome then 3 else 0) := by
  have hrun : (machine.run ⟨initWithPort 80, Handles.empty, []⟩ [.openMapper ⟨0, true, true⟩]).isSome = true := by
    decide +kernel
  obtain ⟨s, hs⟩ := Option.isSome_iff_exists.mp hrun
  exact ⟨s, hs, (handles_run hs).1, (handles_run hs).2.1⟩

/-- Only an open mapper has a mapping in effect. -/
theorem isMapped_run {port : UInt16} {S : System} {ops : List Op} {s : Host}
    (h : machine.run ⟨initWithPort port, S⟩ ops = some s) (rawLocalAddress : UInt32)
    (hm : s.mapper.isMapped rawLocalAddress = true) : s.mapper.service ≠ none := by
  have hr := (represents_run h).shows
  intro hn
  have haddress := (hr.of_service_none hn).address
  simp [isMapped, haddress, Session.status] at hm

/-! ## What the header says of an error -/

/-- If error is nonzero, the other properties are zero or nil. -/
def Header (m : PortMapper) : Prop :=
  m.error ≠ 0 → m.rawPublicAddress = 0 ∧ m.publicAddress = none ∧ m.publicPort = 0

instance (m : PortMapper) : Decidable m.Header := inferInstanceAs (Decidable (_ → _))

theorem Shows.header_iff (h : Shows x m) :
    m.Header ↔ (x.status.error ≠ 0 → x.status.address = 0 ∧ x.status.port = 0) := by
  unfold Header
  rw [h.error, h.address, h.text, h.publicPort]
  constructor
  · intro hm he
    exact ⟨(hm he).1, (hm he).2.2⟩
  · intro hx he
    refine ⟨(hx he).1, ?_, (hx he).2⟩
    rw [(hx he).1]
    rfl

/-- The last reply of a callback, if it is an error or counts as one, brings no address and no port. -/
def Op.Clean (s : Host) : Op → Prop
  | .serviceCallback p => s.mapper.socketSource.isSome → p.error = 0 → ∀ r, p.replies.getLast? = some r →
      judge s.mapper.desiredPublicPort r.errorCode (ntohs r.publicPort) ≠ 0 →
        r.publicAddress = 0 ∧ ntohs r.publicPort = 0
  | _ => True

theorem foldl_reply (d : UInt16) (rs : List PortMapReply) (last : Status) :
    rs.foldl (Session.reply d) (.opened last) =
      .opened (rs.getLast?.elim last fun r => ⟨judge d r.errorCode (ntohs r.publicPort), r.publicAddress,
        ntohs r.publicPort⟩) := by
  induction rs using List.reverseRecOn with
  | nil => rfl
  | append_singleton rs r ih =>
    rw [List.foldl_append, ih, List.getLast?_append]
    rfl

/-- One operation keeps what the header says iff it is clean. -/
theorem header_code {c : Client} (hr : Represents l c s) (hh : s.mapper.Header) (op : Op) (he : op.enabled s = true) :
    (finalState op.code s).mapper.Header ↔ op.Clean s := by
  rw [(represents_code hr op he).1.shows.header_iff]
  rw [hr.shows.header_iff] at hh
  cases op with
  | setMapTCP b => exact iff_of_true hh trivial
  | setMapUDP b => exact iff_of_true hh trivial
  | setDesiredPublicPort p => exact iff_of_true hh trivial
  | close => exact iff_of_true (fun _ => ⟨rfl, rfl⟩) trivial
  | openMapper o =>
    refine iff_of_true ?_ trivial
    cases hc : c.session with
    | opened last =>
      rw [hc] at hh
      simp only [Client.step, hc, Session.start]
      exact hh
    | closed e =>
      simp only [Client.step, hc, Session.start]
      split
      · exact fun _ => ⟨rfl, rfl⟩
      · split <;> exact fun _ => ⟨rfl, rfl⟩
  | serviceCallback p =>
    have hopen : s.mapper.socketSource.isSome = true := he
    cases hc : c.session with
    | closed e =>
      have hs := hr.shows.source
      rw [hc, hopen] at hs
      cases hs
    | opened last =>
      rw [hc] at hh
      simp only [Client.step, hc, Session.process, Op.Clean, hopen, forall_const, ← hr.desired]
      split
      · next hp => exact iff_of_true (fun _ => ⟨rfl, rfl⟩) fun h => absurd h hp
      · next hp =>
        rw [foldl_reply]
        simp only [not_not.mp hp, forall_const]
        cases p.replies.getLast? with
        | none => exact iff_of_true hh fun r hr => by cases hr
        | some r =>
          simp only [Option.some.injEq, forall_eq']
          exact Iff.rfl

/-- **What the header says of an error holds iff every callback is clean.** In a run of a client the other properties
are zero or nil whenever the error is not zero, as long as no callback ends with an error that brings an address or a
port, or with an address without the port that was asked for; the first one that does breaks it. -/
theorem header_iff_clean (port : UInt16) (S : System) (ops : List Op) :
    machine.Along (fun s op => ∀ s', machine.step s op = some s' → s'.mapper.Header) ⟨initWithPort port, S⟩ ops ↔
      machine.Along (fun s op => op.Clean s) ⟨initWithPort port, S⟩ ops := by
  have hclean {s : Host} {op : Op} (he : op.enabled s = false) : op.Clean s := by
    cases op with
    | serviceCallback p => exact fun h => by rw [show s.mapper.socketSource.isSome = false from he] at h; cases h
    | setMapTCP | setMapUDP | setDesiredPublicPort | openMapper | close => trivial
  refine Machine.along_congr (J := fun s => (∃ c, Represents S.handles.live c s) ∧ s.mapper.Header) ?_ ?_ ?_
  · rintro s op ⟨⟨c, hr⟩, hh⟩
    cases he : op.enabled s with
    | false => exact iff_of_true (fun s' hs => by simp [machine, he] at hs) (hclean he)
    | true =>
      rw [← header_code hr hh op he]
      simp only [machine, he, if_true, Option.some.injEq, forall_eq']
  · rintro s op s' ⟨⟨c, hr⟩, hh⟩ hq hs
    cases he : op.enabled s with
    | false => simp [machine, he] at hs
    | true =>
      simp only [machine, he, if_true, Option.some.injEq] at hs
      subst hs
      exact ⟨⟨c.step op, (represents_code hr op he).1⟩, (header_code hr hh op he).mpr hq⟩
  · exact ⟨⟨_, represents_init port S⟩, fun h => absurd rfl h⟩

/-- Port 80 is asked for, and the answer is an address without a port: the error comes with the address. -/
example : (machine.run ⟨initWithPort 80, Handles.empty, []⟩ [.setDesiredPublicPort 80, .openMapper ⟨0, true, true⟩,
    .serviceCallback ⟨[⟨0, 0x0100000A, 0⟩], 0⟩]).any (fun s => s.mapper.error == -65564 &&
      s.mapper.publicAddress == some "10.0.0.1") = true := by decide +kernel

end PortMapper

end SvrMnu
