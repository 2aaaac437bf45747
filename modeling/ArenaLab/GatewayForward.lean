import ArenaLab.GatewayIpc

/-! The datagrams of the gateway's channels, for both roles: the gate in `advertise` and
`acknowledge`, the workers of `forward` cut at their awaits, and the commands of the parent. -/

namespace ArenaLab

open JsonText

abbrev Address := String × ℕ

inductive GatewayRole
  | server (game_port : ℕ)
  | client

structure Datagram where
  data : List UInt8
  sender : Address

/-- A frame in `outgoing`: a datagram of kind 1, remembering its sender, or the heartbeat. -/
inductive TunnelFrame
  | datagram (d : Datagram)
  | heartbeat

/-- The bytes of the frame, with its header and kind. -/
def TunnelFrame.size : TunnelFrame → ℕ
  | .datagram d => 5 + d.data.length
  | .heartbeat => 5 + "\x7b\"operation\":\"HEARTBEAT\"\x7d".length

/-- Where the coroutine that owns the channel is. -/
inductive Stage
  | opening
  | advertised
  | forwarding
  | stopping
  deriving DecidableEq

inductive Worker
  | udpReader
  | tlsWriter
  | tlsReader
  | udpWriter
  | heartbeat
  | closedWait
  deriving DecidableEq

/-- A channel. `socket` is what the system has queued, `received` what `udp_reader` has been
given and not yet looked at, `sending` what `udp_writer` is about to send; a writer is `returning`
from its write to the end of the `asyncio.wait_for` around it. -/
structure Link where
  origin : Option Address
  ack : Bool
  closed : Bool
  route_request : ℕ
  stage : Stage
  alive : Worker → Bool
  socket : List Datagram
  received : Option Datagram
  outgoing : List TunnelFrame
  incoming : List (List UInt8)
  sending : Option (List UInt8)
  returning : Worker → Bool

/-- `Channel.__init__`. -/
def Link.new (role : GatewayRole) : Link where
  origin :=
    match role with
    | .server game_port => some ("127.0.0.1", game_port)
    | .client => none
  ack := false
  closed := false
  route_request := 0
  stage := .opening
  alive := fun _ => true
  socket := []
  received := none
  outgoing := []
  incoming := []
  sending := none
  returning := fun _ => false

def Link.die (l : Link) (w : Worker) : Link := { l with alive := Function.update l.alive w false }

def Link.returns (l : Link) (w : Worker) (b : Bool) : Link := { l with returning := Function.update l.returning w b }

/-- `BoundedQueue.put` does not raise. -/
def hasRoom (sizes : List ℕ) (size : ℕ) : Bool := sizes.sum + size ≤ 65536 && sizes.length < 64

inductive Control
  | heartbeat
  | close

/-- A control frame as `tls_reader` reads it. -/
def controlOf (data : List UInt8) : Option Control :=
  match GatewayProtocol.strictJson data with
  | some (.object [(key, .string operation)]) =>
    if unescape key ≠ codes "operation" then none
    else if unescape operation = codes "CLOSE" then some .close
    else if unescape operation = codes "HEARTBEAT" then some .heartbeat
    else none
  | _ => none

/-- The steps of the workers. The rate limiter and the ages of the queues are the clock's;
`fail` is an error of the network or a timeout, `resume` is `forward` after `asyncio.wait`, where
it cancels its tasks. -/
inductive WorkerAction
  | receive
  | filter (limited : Bool)
  | write (expired : Bool)
  | read (control : Bool) (data : List UInt8) (limited : Bool)
  | take (expired : Bool)
  | send
  | back (w : Worker)
  | beat
  | fail (w : Worker)
  | wake
  | resume (outlives : Worker → Bool)

inductive WorkerEvent
  | quiet
  | wrote (d : Datagram)
  | sent (data : List UInt8)
  | resumed (left : List Worker)

def TunnelFrame.event : TunnelFrame → WorkerEvent
  | .datagram d => .wrote d
  | .heartbeat => .quiet

/-- `udp_reader` after its `sock_recvfrom`. -/
def Link.filter (l : Link) (d : Datagram) (limited : Bool) : Link :=
  if limited then l.die .udpReader
  else if l.origin ≠ some d.sender then l
  else if d.data.length = 0 ∨ 4096 < d.data.length then l.die .udpReader
  else if hasRoom (l.outgoing.map TunnelFrame.size) (TunnelFrame.datagram d).size then
    { l with outgoing := l.outgoing ++ [.datagram d] }
  else l.die .udpReader

/-- `tls_reader` after its `read_frame`. -/
def Link.read (l : Link) (control : Bool) (data : List UInt8) (limited : Bool) : Link :=
  if limited then l.die .tlsReader
  else if control then
    match controlOf data with
    | some .heartbeat => l
    | _ => l.die .tlsReader
  else if hasRoom (l.incoming.map List.length) data.length then { l with incoming := l.incoming ++ [data] }
  else l.die .tlsReader

/-- The workers that may be inside `asyncio.wait_for` with its call done. -/
def Link.waits (l : Link) : Worker → Bool
  | .tlsReader => true
  | .tlsWriter => l.returning .tlsWriter
  | .udpWriter => l.returning .udpWriter
  | _ => false

/-- `forward` cancels its tasks and awaits them. Up to Python 3.11 `asyncio.wait_for` drops a
cancellation that finds its call done, so that the reader and the writers may go on; from 3.12 on
none of them outlives it. -/
def Link.cancel (l : Link) (outlives : Worker → Bool) : Link :=
  { l with
    stage := .stopping
    alive := fun w => l.alive w && outlives w && l.waits w
    returning := fun _ => false }

/-- The workers that go on after the cancellation. -/
def Link.left (l : Link) : List Worker := [Worker.tlsWriter, .tlsReader, .udpWriter].filter l.alive

/-- One step of a worker, or of `forward` itself when one of its tasks is done. -/
def workerNext (l : Link) (a : WorkerAction) : Option (WorkerEvent × Link) :=
  match a with
  | .receive =>
    match l.alive .udpReader, l.received, l.socket with
    | true, none, d :: rest => some (.quiet, { l with socket := rest, received := some d })
    | _, _, _ => none
  | .filter limited =>
    match l.alive .udpReader, l.received with
    | true, some d => some (.quiet, { l with received := none }.filter d limited)
    | _, _ => none
  | .write expired =>
    match l.alive .tlsWriter && !l.returning .tlsWriter, l.outgoing with
    | true, f :: rest =>
      if expired then some (.quiet, { l with outgoing := rest }.die .tlsWriter)
      else some (f.event, { l with outgoing := rest }.returns .tlsWriter true)
    | _, _ => none
  | .read control data limited =>
    if !l.alive .tlsReader || data.length = 0 || 4096 < data.length then none
    else some (.quiet, l.read control data limited)
  | .take expired =>
    match l.alive .udpWriter && !l.returning .udpWriter, l.sending, l.incoming with
    | true, none, data :: rest =>
      if expired then some (.quiet, { l with incoming := rest }.die .udpWriter)
      else some (.quiet, { l with incoming := rest, sending := some data })
    | _, _, _ => none
  | .send =>
    match l.alive .udpWriter, l.sending with
    | true, some data => some (.sent data, { l with sending := none }.returns .udpWriter true)
    | _, _ => none
  | .back w => if l.alive w && l.returning w then some (.quiet, l.returns w false) else none
  | .beat =>
    if !l.alive .heartbeat then none
    else if hasRoom (l.outgoing.map TunnelFrame.size) TunnelFrame.heartbeat.size then
      some (.quiet, { l with outgoing := l.outgoing ++ [.heartbeat] })
    else some (.quiet, l.die .heartbeat)
  | .fail w => if !l.alive w || w = .closedWait then none else some (.quiet, l.die w)
  | .wake => if !l.alive .closedWait || !l.closed then none else some (.quiet, l.die .closedWait)
  | .resume outlives =>
    if l.stage ≠ .forwarding ||
        [Worker.udpReader, .tlsWriter, .tlsReader, .udpWriter, .heartbeat, .closedWait].all l.alive then none
    else some (.resumed (l.cancel outlives).left, l.cancel outlives)

/-- Workers of the channel may run: `forward` waits for the first that is done, or for those
that it has cancelled. -/
def Link.works (l : Link) : Bool := l.stage = .forwarding || l.stage = .stopping

/-- The gateway as its channels see it. -/
structure Relay where
  links : AList (fun _ : HexStr 32 => Link)
  retired_ids : List (HexStr 32)
  tx : ℕ
  commands : Bool
  stopping : Bool

def Relay.boot : Relay := ⟨∅, [], 0, true, false⟩

def Relay.put (s : Relay) (c : HexStr 32) (l : Link) : Relay := { s with links := s.links.insert c l }

/-- `emit`; `queued` tells that the pipe's queue takes the frame. -/
def Relay.emit (s : Relay) (queued : Bool) : Option ℕ × Relay :=
  if maxRequest ≤ s.tx then (none, s)
  else (if queued then some (s.tx + 1) else none, { s with tx := s.tx + 1 })

/-- `retire` up to its await. -/
def Relay.retire (s : Relay) (c : HexStr 32) (queued : Bool) : Relay :=
  let s := { s with links := s.links.erase c, retired_ids := s.retired_ids.insert c }
  if s.stopping then s else (s.emit queued).2

/-- What the outside can see. `accepted` comes with the body of the `ROUTE_ACK`, `raised` is an
exception of `command`, `unconnected` one of its `connect`; `resumed` is when `forward` cancels
its workers, with those that it leaves. -/
inductive RelayEvent
  | quiet
  | opened (c : HexStr 32) (request : ℕ)
  | accepted (c : HexStr 32) (request : ℕ) (origin : Address) (body : Dict)
  | raised
  | unconnected (c : HexStr 32)
  | closed (c : HexStr 32)
  | resumed (c : HexStr 32) (left : List Worker)
  | retired (c : HexStr 32)
  | stopped
  | wroteTls (c : HexStr 32) (d : Datagram)
  | sentUdp (c : HexStr 32) (data : List UInt8)

def WorkerEvent.on (c : HexStr 32) : WorkerEvent → RelayEvent
  | .quiet => .quiet
  | .wrote d => .wroteTls c d
  | .sent data => .sentUdp c data
  | .resumed left => .resumed c left

def GatewayProtocol.integer (value : Option Json) (low high : ℤ) : Option ℤ :=
  match value with
  | some (.int n) => if low ≤ n ∧ n ≤ high then some n else none
  | _ => none

inductive AckOutcome
  | refused
  | unconnected (l : Link)
  | accepted (origin : Address) (l : Link)

/-- The first checks of `acknowledge`, which the two roles share. -/
def Link.answers (l : Link) (c : HexStr 32) (body : Dict) : Bool :=
  Json.isStr (body.get "channel_id") c.text &&
    GatewayProtocol.integer (body.get "route_request_id") 1 maxRequest == some (l.route_request : ℤ) &&
    !l.ack && !l.closed

/-- `Channel.acknowledge`; `connected` is the result of the client's `connect`. -/
def Link.acknowledge (l : Link) (role : GatewayRole) (c : HexStr 32) (body : Dict) (connected : Bool) : AckOutcome :=
  match role with
  | .server game_port =>
    if !body.keysEq ["channel_id", "route_request_id"] || !l.answers c body then .refused
    else .accepted ("127.0.0.1", game_port) { l with ack := true }
  | .client =>
    if !body.keysEq ["channel_id", "route_request_id", "client_port"] || !l.answers c body then .refused
    else match GatewayProtocol.integer (body.get "client_port") 1 65535 with
      | none => .refused
      | some port =>
        if connected then
          .accepted ("127.0.0.1", port.toNat) { l with origin := some ("127.0.0.1", port.toNat), ack := true }
        else .unconnected { l with origin := some ("127.0.0.1", port.toNat) }

/-- `self.channels.get`. -/
def Relay.find (s : Relay) (name : Option Json) : Option (HexStr 32 × Link) :=
  match name with
  | some (.str t) =>
    if h : isHex t 32 = true then (s.links.lookup ⟨t, h⟩).map (fun l => (⟨t, h⟩, l)) else none
  | _ => none

/-- `command` raises, which ends the process's `commands`. -/
def Relay.raise (s : Relay) : RelayEvent × Relay := (.raised, { s with commands := false })

def Relay.routeAck (s : Relay) (role : GatewayRole) (body : Dict) (connected : Bool) : RelayEvent × Relay :=
  match s.find (body.get "channel_id") with
  | none => s.raise
  | some (c, l) =>
    match l.acknowledge role c body connected with
    | .refused => s.raise
    | .unconnected l => (.unconnected c, { s.put c l with commands := false })
    | .accepted origin l => (.accepted c l.route_request origin body, s.put c l)

def Relay.routeClose (s : Relay) (body : Dict) : RelayEvent × Relay :=
  if !body.keysEq ["channel_id"] then s.raise
  else match s.find (body.get "channel_id") with
    | none =>
      if s.retired_ids.any (fun c => Json.isStr (body.get "channel_id") c.text) then (.quiet, s) else s.raise
    | some (c, l) => (.closed c, s.put c { l with closed := true })

/-- `Gateway.command`. -/
def Relay.command (s : Relay) (role : GatewayRole) (operation : String) (body : Dict) (connected : Bool) :
    RelayEvent × Relay :=
  if operation = "HEARTBEAT" then if body.keysEq [] then (.quiet, s) else s.raise
  else if operation = "ROUTE_ACK" then s.routeAck role body connected
  else if operation = "ROUTE_CLOSE" then s.routeClose body
  else s.raise

/-- Every interleaving: the coroutines that own the channels, their workers, the network, the
parent, and the end of the process. -/
inductive RelayAction
  | create (c : HexStr 32)
  | advertise (c : HexStr 32) (queued queued' : Bool)
  | acked (c : HexStr 32) (queued : Bool)
  | leave (c : HexStr 32) (queued : Bool)
  | cancel (c : HexStr 32) (outlives : Worker → Bool)
  | work (c : HexStr 32) (a : WorkerAction)
  | arrive (c : HexStr 32) (d : Datagram)
  | message (queued : Bool)
  | command (operation : String) (body : Dict) (connected : Bool)
  | close

/-- A client connects once; a server draws the name of a new channel. -/
def Relay.creates (s : Relay) (role : GatewayRole) (c : HexStr 32) : Bool :=
  match role with
  | .server _ =>
    s.links.keys.length < 8 && s.links.keys.length + s.retired_ids.length < 256 &&
      !s.links.keys.contains c && !s.retired_ids.contains c
  | .client => s.links.keys.isEmpty && s.retired_ids.isEmpty

def relayNext (role : GatewayRole) (s : Relay) (a : RelayAction) : Option (RelayEvent × Relay) :=
  match a with
  | .create c => if s.stopping || !s.creates role c then none else some (.quiet, s.put c (.new role))
  | .advertise c queued queued' =>
    match s.links.lookup c with
    | none => none
    | some l =>
      if s.stopping || l.stage ≠ .opening then none
      else match s.emit queued with
        | (none, s') => some (.retired c, s'.retire c queued')
        | (some request, s') =>
          some (.opened c request, s'.put c { l with route_request := request, stage := .advertised })
  | .acked c queued =>
    match s.links.lookup c with
    | none => none
    | some l =>
      if s.stopping || l.stage ≠ .advertised || !l.ack then none
      else if l.closed then some (.retired c, s.retire c queued)
      else some (.quiet, s.put c { l with stage := .forwarding })
  | .leave c queued =>
    match s.links.lookup c with
    | none => none
    | some l =>
      if l.stage = .forwarding || l.stage = .stopping && !l.left.isEmpty then none
      else some (.retired c, s.retire c queued)
  | .cancel c outlives =>
    match s.links.lookup c with
    | none => none
    | some l =>
      if l.works then some (.resumed c (l.cancel outlives).left, s.put c (l.cancel outlives)) else none
  | .work c a =>
    match s.links.lookup c with
    | none => none
    | some l => if l.works then (workerNext l a).map (fun r => (r.1.on c, s.put c r.2)) else none
  | .arrive c d =>
    match s.links.lookup c with
    | none => none
    | some l => some (.quiet, s.put c { l with socket := l.socket ++ [d] })
  | .message queued => some (.quiet, (s.emit queued).2)
  | .command operation body connected =>
    if !s.commands then none else some (s.command role operation body connected)
  | .close =>
    some (.stopped, { s with
      stopping := true
      commands := false
      links := s.links.mapValues (fun l => { l with closed := true }) })

abbrev RelayStep (role : GatewayRole) := Runs.Induced (relayNext role)

end ArenaLab
