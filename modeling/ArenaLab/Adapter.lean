import ArenaLab.LabServer
import ArenaLab.RingBuffer

/-! The UDP relay: one upstream socket for each downstream peer, with a bounded
queue. A step is one round of a loop of `main`, or the way from one loop to the next. -/

namespace ArenaLab

/-- The options of the command line, as `main` has checked them. -/
structure AdapterConfig where
  max_clients : ℕ
  idle : UInt64
  drop : UInt64
  delay : UInt64
  replay : Bool
  clients_range : 1 ≤ max_clients ∧ max_clients ≤ 32

structure Pending where
  data : List UInt8
  due : UInt64

/-- A route; `fd` numbers the upstream sockets in the order of their creation. -/
structure AdapterRoute where
  used : Bool
  fd : ℕ
  peer : SockAddr
  activity : UInt64
  session : Bytes 16
  queue : RingBuffer Pending 32

/-- All bytes zero, as `release` leaves a route. -/
def AdapterRoute.zero : AdapterRoute where
  used := false
  fd := 0
  peer := ⟨0, 0, 0⟩
  activity := 0
  session := Vector.replicate 16 0
  queue := ⟨fun _ => ⟨[], 0⟩, 0, 0⟩

/-- What passes the sockets. `received` is a datagram of a peer and the text with
which the relay answered it, if it did; `upstream` is what a socket received. -/
inductive AdapterEvent
  | opened (fd : ℕ) (peer : SockAddr)
  | received (peer : SockAddr) (data : List UInt8) (answer : Option String)
  | sent (fd : ℕ) (data : List UInt8)
  | upstream (fd : ℕ) (data : List UInt8)
  | delivered (fd : ℕ) (data : List UInt8) (peer : SockAddr)
  | answered (peer : SockAddr) (wire : List UInt8)
  | closed (fd : ℕ)
  deriving DecidableEq

/-- Where `main` is; `work` counts the rounds of an inner loop. -/
inductive AdapterPc
  | top
  | route (i : ℕ)
  | reading (i : Fin 32) (work : ℕ)
  | aging (i : Fin 32)
  | flushing (i : Fin 32) (work : ℕ)
  | accepting (work : ℕ)
  | ended

/-- The relay with the results of its last `poll`, and its history, newest first. -/
structure Adapter where
  routes : Fin 32 → AdapterRoute
  sockets : ℕ
  truncate : UInt32
  received : UInt64
  forwarded : UInt64
  discarded : UInt64
  failed : Bool
  now : UInt64
  revents : Fin 32 → Bool
  readable : Bool
  broken : Bool
  pc : AdapterPc
  log : List AdapterEvent

/-- What the system calls of a step return. -/
inductive AdapterAction
  | stop
  | interrupted
  | pollFailed
  | polled (now : UInt64) (revents : Fin 32 → Bool) (readable broken : Bool)
  | go
  | wait
  | recvFailed (answered : Bool)
  | recv (data : List UInt8) (delivered : Bool)
  | sent
  | sendBlocked
  | sendFailed (answered : Bool)
  | arrived (from_ : Option SockAddr) (data : List UInt8) (answered bound connected : Bool)

def afInet : UInt16 := 2

def adapterBoot (truncate : UInt32) : Adapter where
  routes := fun _ => .zero
  sockets := 0
  truncate := truncate
  received := 0
  forwarded := 0
  discarded := 0
  failed := false
  now := 0
  revents := fun _ => false
  readable := false
  broken := false
  pc := .top
  log := []

/-- The datagram of `reject`. -/
def rejectWire (session : Bytes 16) (reason : Reason) (message : String) : List UInt8 :=
  labHdrPack ⟨labMagic, labVersion, Kind.rst.code, 0, 0, 60, Vector.replicate 4 0⟩ ++
    labPayloadPack (.rst ⟨session, reason.code, UInt32.ofNat (asciiBytes message).length,
      field (asciiBytes message) 0 36⟩)

def Adapter.note (s : Adapter) (e : AdapterEvent) : Adapter := { s with log := e :: s.log }

def Adapter.put (s : Adapter) (i : Fin 32) (r : AdapterRoute) : Adapter :=
  { s with routes := Function.update s.routes i r }

def Adapter.goto (s : Adapter) (pc : AdapterPc) : Adapter := { s with pc := pc }

def Adapter.fail (s : Adapter) : Adapter := { s with failed := true }

/-- `reject`, and the failure that its callers note. -/
def Adapter.reject (s : Adapter) (answered : Bool) (peer : SockAddr) (session : Bytes 16) (reason : Reason)
    (message : String) : Adapter :=
  if answered then s.note (.answered peer (rejectWire session reason message)) else s.fail

def Adapter.release (s : Adapter) (i : Fin 32) : Adapter :=
  if (s.routes i).used then (s.put i .zero).note (.closed (s.routes i).fd) else s.put i .zero

/-- The session that a route keeps after a datagram from upstream. -/
def ackSession (session : Bytes 16) (data : List UInt8) : Bytes 16 :=
  match labHdrParse data with
  | some h =>
    if h.version = labVersion ∧ h.kind = Kind.helloAck.code ∧ h.len = 56 ∧ data.length = 16 + 56 then
      field data 24 16
    else session
  | none => session

/-- Whether a datagram from upstream confirms the end of the session. -/
def confirmsClose (session : Bytes 16) (data : List UInt8) : Bool :=
  match labHdrParse data with
  | some h =>
    if h.magic = labMagic ∧ h.version = labVersion ∧ h.kind = Kind.rst.code ∧ h.len = 60 ∧
        data.length = 16 + 60 then
      match labPayloadParse (data.drop 16) Kind.rst.code with
      | some (.rst reset) =>
        reset.session = session &&
          (reset.reason = Reason.ok.code && reset.len = 3 &&
              (reset.msg.toList.take 3 = asciiBytes "bye" || reset.msg.toList.take 3 = asciiBytes "rst") ||
            reset.reason = Reason.timeout.code || reset.reason = Reason.closing.code)
      | _ => false
    else false
  | none => false

def Adapter.unavailable (s : Adapter) (i : Fin 32) (answered : Bool) : Adapter :=
  (s.reject answered (s.routes i).peer (s.routes i).session .closing "upstream unavailable").release i

/-- A round of the loop over what a route's socket has received. -/
def Adapter.read (s : Adapter) (i : Fin 32) (work : ℕ) (data : List UInt8) (delivered : Bool) : Adapter :=
  let s := s.note (.upstream (s.routes i).fd data)
  if labMaxDatagram < data.length then
    { s with discarded := s.discarded + 1 }.goto (.reading i (work + 1))
  else
    let r := { s.routes i with session := ackSession (s.routes i).session data }
    let s := s.put i r
    if !delivered then s.fail.goto (.aging i)
    else
      let s := { s with forwarded := s.forwarded + 1 }.note (.delivered r.fd data r.peer)
      if confirmsClose r.session data then (s.release i).goto (.aging i) else s.goto (.reading i (work + 1))

/-- A round of the loop that empties a route's queue, once `lab_send` has sent the first entry. -/
def Adapter.flushed (s : Adapter) (i : Fin 32) (work : ℕ) : Adapter :=
  let r := s.routes i
  let s := s.note (.sent r.fd r.queue.front.data)
  { s.put i { r with queue := r.queue.pop } with forwarded := s.forwarded + 1 }.goto (.flushing i (work + 1))

def Adapter.routeOf (s : Adapter) (peer : SockAddr) : Option (Fin 32) :=
  (List.finRange 32).reverse.find? (fun i => (s.routes i).used && (s.routes i).peer = peer)

def Adapter.freeSlot (s : Adapter) : Option (Fin 32) :=
  (List.finRange 32).find? (fun i => !(s.routes i).used)

def activeRoutes (routes : Fin 32 → AdapterRoute) : ℕ :=
  (Finset.univ.filter (fun i => (routes i).used = true)).card

/-- The kinds that only an open session may send. -/
def needsHello (data : List UInt8) : Bool :=
  match labHdrParse data with
  | some h => h.magic = labMagic && h.version = labVersion &&
      (h.kind = Kind.ping.code || h.kind = Kind.bye.code || h.kind = Kind.rst.code ||
        h.kind = Kind.request.code || h.kind = Kind.observation.code)
  | none => false

/-- A rejected datagram ends its round. -/
def Adapter.turnDown (s : Adapter) (work : ℕ) (answered : Bool) (peer : SockAddr) (data : List UInt8)
    (session : Bytes 16) (reason : Reason) (message : String) : Adapter :=
  let s := (s.note (.received peer data (some message))).reject answered peer session reason message
  { s with discarded := s.discarded + 1 }.goto (.accepting (work + 1))

/-- What happens to a datagram on its route. -/
def Adapter.enqueue (config : AdapterConfig) (s : Adapter) (i : Fin 32) (work : ℕ) (data : List UInt8)
    (answered : Bool) : Adapter :=
  let r := { s.routes i with activity := s.now }
  let s := s.put i r
  if config.drop ≠ 0 ∧ (s.received - 1) % config.drop = 0 then
    { s.note (.received r.peer data none) with discarded := s.discarded + 1 }.goto (.accepting (work + 1))
  else
    let cut := if s.truncate ≠ 0 ∧ 8 ≤ data.length then data.take (data.length - 8) else data
    let s := { s with truncate := if s.truncate ≠ 0 then s.truncate - 1 else 0 }
    match r.queue.push ⟨cut, s.now + config.delay⟩ with
    | none => s.turnDown work answered r.peer data r.session .busy "adapter queue full"
    | some queue =>
      let s := s.note (.received r.peer data none)
      if config.replay ∧ 16 ≤ data.length ∧ data.getD 2 0 = Kind.ping.code then
        match queue.push ⟨cut, s.now + config.delay + 100⟩ with
        | none => { s.put i { r with queue := queue } with discarded := s.discarded + 1 }.goto
            (.accepting (work + 1))
        | some queue => (s.put i { r with queue := queue }).goto (.accepting (work + 1))
      else (s.put i { r with queue := queue }).goto (.accepting (work + 1))

/-- A datagram of a peer without a route. -/
def Adapter.routeless (config : AdapterConfig) (s : Adapter) (work : ℕ) (peer : SockAddr) (data : List UInt8)
    (answered bound connected : Bool) : Adapter :=
  if needsHello data then
    s.turnDown work answered peer data (Vector.replicate 16 0) .badKind "HELLO primero"
  else
    match s.freeSlot with
    | none => s.turnDown work answered peer data (Vector.replicate 16 0) .busy "adapter full"
    | some i =>
      if config.max_clients ≤ activeRoutes s.routes then
        s.turnDown work answered peer data (Vector.replicate 16 0) .busy "adapter full"
      else if !bound || !connected then s.fail.goto .top
      else
        let r := { s.routes i with fd := s.sockets, peer := peer, used := true }
        { (s.note (.opened s.sockets peer)).put i r with sockets := s.sockets + 1 }.enqueue config i work
          data answered

/-- A round of the loop over the datagrams of the peers. -/
def Adapter.accept (config : AdapterConfig) (s : Adapter) (work : ℕ) (from_ : Option SockAddr)
    (data : List UInt8) (answered bound connected : Bool) : Adapter :=
  match from_ with
  | none => s.goto (.accepting (work + 1))
  | some peer =>
    if peer.family ≠ afInet ∨ peer.addr >>> 24 ≠ 127 then s.goto (.accepting (work + 1))
    else
      let s := { s with received := s.received + 1 }
      let session := match s.routeOf peer with
        | some i => (s.routes i).session
        | none => Vector.replicate 16 0
      if labMaxDatagram < data.length then
        s.turnDown work answered peer data session .tooBig ">128 B"
      else
        match s.routeOf peer with
        | some i => s.enqueue config i work data answered
        | none => s.routeless config work peer data answered bound connected

/-- The end of `main`. -/
def Adapter.shut (s : Adapter) : Adapter := ((List.finRange 32).foldl Adapter.release s).goto .ended

/-- The head of the loop over the routes, and what follows it. -/
def Adapter.visit (s : Adapter) (i : ℕ) : Adapter :=
  if h : i < 32 then
    if !(s.routes ⟨i, h⟩).used then s.goto (.route (i + 1))
    else if s.revents ⟨i, h⟩ then s.goto (.reading ⟨i, h⟩ 0)
    else s.goto (.aging ⟨i, h⟩)
  else if s.broken then s.fail.shut
  else if !s.readable then s.goto .top
  else s.goto (.accepting 0)

def Adapter.age (config : AdapterConfig) (s : Adapter) (i : Fin 32) : Adapter :=
  if !(s.routes i).used then s.goto (.route (i.val + 1))
  else if config.idle ≤ s.now - (s.routes i).activity then (s.release i).goto (.route (i.val + 1))
  else s.goto (.flushing i 0)

/-- Whether the loop over a route's queue ends before it sends. -/
def Adapter.idleQueue (s : Adapter) (i : Fin 32) (work : ℕ) : Bool :=
  16 ≤ work || (s.routes i).queue.count = 0 || s.now < (s.routes i).queue.front.due

def adapterNext (config : AdapterConfig) (s : Adapter) (a : AdapterAction) : Option Adapter :=
  match s.pc, a with
  | .top, .stop => some s.shut
  | .top, .interrupted => if s.failed then none else some s
  | .top, .pollFailed => if s.failed then none else some s.fail.shut
  | .top, .polled now revents readable broken =>
    if s.failed then none
    else some ({ s with now := now, revents := revents, readable := readable, broken := broken }.goto
      (.route 0))
  | .top, .go => if s.failed then some s.shut else none
  | .route i, .go => some (s.visit i)
  | .reading i work, .go => if 16 ≤ work then some (s.goto (.aging i)) else none
  | .reading i work, .wait => if 16 ≤ work then none else some (s.goto (.aging i))
  | .reading i work, .recvFailed answered =>
    if 16 ≤ work then none else some ((s.unavailable i answered).goto (.aging i))
  | .reading i work, .recv data delivered => if 16 ≤ work then none else some (s.read i work data delivered)
  | .aging i, .go => some (s.age config i)
  | .flushing i work, .go => if s.idleQueue i work then some (s.goto (.route (i.val + 1))) else none
  | .flushing i work, .sent => if s.idleQueue i work then none else some (s.flushed i work)
  | .flushing i work, .sendBlocked => if s.idleQueue i work then none else some (s.goto (.route (i.val + 1)))
  | .flushing i work, .sendFailed answered =>
    if s.idleQueue i work then none else some ((s.unavailable i answered).goto (.route (i.val + 1)))
  | .accepting work, .go => if 16 ≤ work then some (s.goto .top) else none
  | .accepting work, .wait => if 16 ≤ work then none else some (s.goto .top)
  | .accepting work, .recvFailed _ => if 16 ≤ work then none else some (s.fail.goto .top)
  | .accepting work, .arrived from_ data answered bound connected =>
    if 16 ≤ work then none else some (s.accept config work from_ data answered bound connected)
  | _, _ => none

/-- A step, labelled with what the system calls returned. -/
abbrev AdapterStep (config : AdapterConfig) :=
  Runs.Induced (fun s a => (adapterNext config s a).map (fun t => (a, t)))

end ArenaLab
