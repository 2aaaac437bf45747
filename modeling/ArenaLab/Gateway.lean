import ArenaLab.PeerRoutes
import ArenaLab.Identifiers

/-! The server side of the gateway: one task for each TLS connection, cut at its
awaits, and the messages that it sends to the game over the inherited pipe. -/

namespace ArenaLab

structure GatewayConfig where
  run : HexStr 32
  game_session_id : HexStr 32
  attestors : List (HexStr 64)

structure RouteOpen where
  channel_id : HexStr 32
  attestor : HexStr 64
  address : String
  port : ℕ
  remote_run_id : HexStr 32
  game_session_id : HexStr 32

inductive GatewayMessage
  | ready (port : ℕ)
  | routeOpen (body : RouteOpen)
  | routeClose (channel_id : HexStr 32)
  | heartbeat

/-- The body as the game's JSON parser gives it: every number is a float. -/
def RouteOpen.toDictionary (body : RouteOpen) : Dictionary :=
  [⟨.string "channel_id", .string body.channel_id.text⟩, ⟨.string "attestor", .string body.attestor.text⟩,
    ⟨.string "address", .string body.address⟩, ⟨.string "port", .float (some (body.port : Rat))⟩,
    ⟨.string "remote_run_id", .string body.remote_run_id.text⟩,
    ⟨.string "game_session_id", .string body.game_session_id.text⟩].toAList

structure Channel where
  fingerprint : HexStr 64
  port : ℕ
  ack : Bool
  closed : Bool
  route_request : ℕ

/-- Where a task of `serve_socket` waits. -/
inductive ServePhase
  | handshaking
  | opening (channel : HexStr 32)
  | advertised (channel : HexStr 32)
  | forwarding (channel : HexStr 32)
  | closing
  | ended

def ServePhase.channel : ServePhase → Option (HexStr 32)
  | .opening c => some c
  | .advertised c => some c
  | .forwarding c => some c
  | _ => none

/-- The gateway; `retired` are the ports of the sockets that it keeps bound,
`commands` tells that the parent is still heard, and `tx` counts the messages. -/
structure Gateway where
  config : GatewayConfig
  channels : AList (fun _ : HexStr 32 => Channel)
  retired : List ℕ
  retired_ids : List (HexStr 32)
  tasks : ℕ → Option ServePhase
  pending : ℤ
  listener : Option ℕ
  commands : Bool
  stopping : Bool
  tx : ℕ

def Gateway.boot (config : GatewayConfig) : Gateway :=
  ⟨config, ∅, [], [], fun _ => none, 0, none, true, false, 0⟩

def Gateway.put (g : Gateway) (t : ℕ) (phase : ServePhase) : Gateway :=
  { g with tasks := Function.update g.tasks t (some phase) }

def Gateway.full (g : Gateway) : Bool :=
  8 ≤ g.channels.keys.length || 256 ≤ g.channels.keys.length + g.retired.length

/-- The socket is bound by this process. -/
def Gateway.bound (g : Gateway) (port : ℕ) : Bool :=
  decide (port ∈ g.retired) || g.channels.entries.any (fun e => e.2.port = port)

/-- The synchronous part of `retire`. -/
def Gateway.retire (g : Gateway) (c : HexStr 32) : Option GatewayMessage × Gateway :=
  let port := ((g.channels.lookup c).map Channel.port).getD 0
  let g := { g with
    channels := g.channels.erase c
    retired := g.retired ++ [port]
    retired_ids := g.retired_ids.insert c }
  if g.stopping then (none, g) else (some (.routeClose c), { g with tx := g.tx + 1 })

/-- The `finally` of `serve_socket` for a task that holds a channel. -/
def Gateway.leave (g : Gateway) (t : ℕ) (c : HexStr 32) : Option GatewayMessage × Gateway :=
  ({ g with pending := g.pending - 1 }.put t .closing).retire c

/-- `serve_socket` after the handshake: a refusal, or a channel with its own
socket. The system never hands out a port that is still bound. -/
def Gateway.handshake (g : Gateway) (t : ℕ) (fingerprint : HexStr 64) (c : HexStr 32) (port : ℕ) :
    Option Gateway :=
  let refusal := { g with pending := g.pending - 1 }.put t .closing
  if fingerprint ∉ g.config.attestors then some refusal
  else if g.full then some refusal
  else if c ∈ g.channels ∨ c ∈ g.retired_ids then some refusal
  else if port = 0 ∨ 65535 < port ∨ g.bound port then none
  else some ({ g with
    channels := g.channels.insert c ⟨fingerprint, port, false, false, 0⟩ }.put t (.opening c))

/-- `advertise` up to its await. -/
def Gateway.advertise (g : Gateway) (t : ℕ) (c : HexStr 32) (channel : Channel) :
    Option GatewayMessage × Gateway :=
  (some (.routeOpen
    { channel_id := c
      attestor := channel.fingerprint
      address := "127.0.0.1"
      port := channel.port
      remote_run_id := g.config.run
      game_session_id := g.config.game_session_id }),
    { g with
      tx := g.tx + 1
      channels := g.channels.insert c { channel with route_request := g.tx + 1 } }.put t (.advertised c))

/-- What the tasks, the parent and the network do: `fail` is a disconnection, a
timeout, a bad answer, a cancellation or the end of `forward`. -/
inductive GatewayAction
  | listen (port : ℕ)
  | accept (t : ℕ)
  | handshake (t : ℕ) (fingerprint : HexStr 64) (c : HexStr 32) (port : ℕ)
  | openAck (t : ℕ)
  | acked (t : ℕ)
  | fail (t : ℕ)
  | finish (t : ℕ)
  | routeAck (c : HexStr 32) (request : ℕ)
  | routeClose (c : HexStr 32)
  | badCommand
  | beat
  | close

/-- `command` raises: the parent is not heard any more, and `close` follows. -/
def Gateway.fault (g : Gateway) : Gateway := { g with commands := false }

/-- `Channel.acknowledge` on the server. -/
def Gateway.acknowledge (g : Gateway) (c : HexStr 32) (channel : Channel) (request : ℕ) : Gateway :=
  if request = 0 ∨ request ≠ channel.route_request ∨ channel.ack ∨ channel.closed then g.fault
  else { g with channels := g.channels.insert c { channel with ack := true } }

/-- `close` up to its await; the tasks that are left can only be cancelled. -/
def Gateway.close (g : Gateway) : Gateway :=
  { g with
    stopping := true
    commands := false
    channels := g.channels.mapValues (fun channel => { channel with closed := true }) }

def gatewayNext (g : Gateway) (a : GatewayAction) : Option (Option GatewayMessage × Gateway) :=
  match a with
  | .listen port =>
    if g.listener.isSome || g.stopping then none
    else some (some (.ready port), { g with listener := some port, tx := g.tx + 1 })
  | .accept t =>
    if (g.tasks t).isSome || g.listener.isNone || g.stopping then none
    else if 4 ≤ g.pending || g.full then some (none, g)
    else some (none, { g with pending := g.pending + 1 }.put t .handshaking)
  | .handshake t fingerprint c port =>
    match g.tasks t, g.stopping with
    | some .handshaking, false => (g.handshake t fingerprint c port).map (fun g => (none, g))
    | _, _ => none
  | .openAck t =>
    match g.tasks t, g.stopping with
    | some (.opening c), false => (g.channels.lookup c).map (fun channel => g.advertise t c channel)
    | _, _ => none
  | .acked t =>
    match g.tasks t, g.stopping with
    | some (.advertised c), false =>
      (g.channels.lookup c).bind (fun channel =>
        if !channel.ack then none
        else if channel.closed then some (g.leave t c)
        else some (none, { g with pending := g.pending - 1 }.put t (.forwarding c)))
    | _, _ => none
  | .fail t =>
    match g.tasks t with
    | some .handshaking => some (none, { g with pending := g.pending - 1 }.put t .closing)
    | some (.opening c) => some (g.leave t c)
    | some (.advertised c) => some (g.leave t c)
    | some (.forwarding c) => some ({ g with pending := g.pending + 1 }.leave t c)
    | _ => none
  | .finish t =>
    match g.tasks t with
    | some .closing => some (none, g.put t .ended)
    | _ => none
  | .routeAck c request =>
    if !g.commands then none
    else match g.channels.lookup c with
      | none => some (none, g.fault)
      | some channel => some (none, g.acknowledge c channel request)
  | .routeClose c =>
    if !g.commands then none
    else match g.channels.lookup c with
      | none => some (none, if c ∈ g.retired_ids then g else g.fault)
      | some channel =>
        some (none, { g with channels := g.channels.insert c { channel with closed := true } })
  | .badCommand => if !g.commands then none else some (none, g.fault)
  | .beat => if g.stopping then none else some (some .heartbeat, { g with tx := g.tx + 1 })
  | .close => some (none, g.close)

structure Tunnel where
  gateway : Gateway
  wire : List GatewayMessage
  table : PeerRoutes

def Tunnel.boot (config : GatewayConfig) : Tunnel :=
  ⟨.boot config, [], .new config.run.text config.game_session_id.text⟩

/-- A delivery tells whether the table took the message and whether it had been closed. -/
inductive TunnelEvent
  | silent
  | emitted (m : GatewayMessage)
  | delivered (m : GatewayMessage) (accepted closed : Bool)

inductive TunnelAction
  | gateway (a : GatewayAction)
  | deliver
  | consume (id : ℤ) (address : String) (port now : ℤ)
  | retire (channel : String)
  | close

/-- The game's use of a message; it shuts down when a route is refused. -/
def Tunnel.receive (s : Tunnel) (m : GatewayMessage) : Bool × PeerRoutes :=
  match m with
  | .routeOpen body =>
    match s.table.openRoute body.toDictionary with
    | (true, table) => (true, table)
    | (false, table) => (false, table.close)
  | .routeClose c => (true, (s.table.retire c.text).2)
  | _ => (true, s.table)

def tunnelNext (s : Tunnel) (a : TunnelAction) : Option (TunnelEvent × Tunnel) :=
  match a with
  | .gateway a =>
    match gatewayNext s.gateway a with
    | none => none
    | some (none, g) => some (.silent, { s with gateway := g })
    | some (some m, g) => some (.emitted m, { s with gateway := g, wire := s.wire ++ [m] })
  | .deliver =>
    match s.wire with
    | [] => none
    | m :: rest =>
      some (.delivered m (s.receive m).1 s.table.closed, { s with wire := rest, table := (s.receive m).2 })
  | .consume id address port now =>
    some (.silent, { s with table := (s.table.consume id address port now).2 })
  | .retire channel => some (.silent, { s with table := (s.table.retire channel).2 })
  | .close => some (.silent, { s with table := s.table.close })

abbrev TunnelStep := Runs.Induced tunnelNext

end ArenaLab
