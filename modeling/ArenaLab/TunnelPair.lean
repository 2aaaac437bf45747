import ArenaLab.Framing
import ArenaLab.GatewayGate
import ArenaLab.LabServer

/-! Two gateways and the TLS connection between them, for one channel: what the
workers of one end write arrives at the other end as a stream of bytes. -/

namespace ArenaLab

/-- The kind of a frame, 1 for datagrams and 2 for control, and what it carries. -/
def TunnelFrame.content : TunnelFrame → Bool × List UInt8
  | .datagram d => (false, d.data)
  | .heartbeat => (true, asciiBytes "\x7b\"operation\":\"HEARTBEAT\"\x7d")

def tunnelBody (control : Bool) (data : List UInt8) : List UInt8 := (if control then 2 else 1) :: data

/-- `read_frame` with `tunnel=True`: the first frame of what has arrived, if it is whole. -/
def tunnelRead (wire : List UInt8) : Option (Bool × List UInt8 × List UInt8) :=
  match Framing.header wire with
  | none => none
  | some n =>
    if n < 2 ∨ 4097 < n ∨ wire.length < n + 4 then none
    else match (wire.drop 4).take n with
      | [] => none
      | kind :: data =>
        if kind = 1 then some (false, data, wire.drop (n + 4))
        else if kind = 2 then some (true, data, wire.drop (n + 4))
        else none

/-- One end: its gateway with what was seen of it and, for the channel, the datagrams that came
to its socket, the frames that it wrote and read, and the datagrams that it sent on. -/
structure TunnelEnd where
  relay : Relay
  events : List RelayEvent
  arrived : List Datagram
  wrote : List TunnelFrame
  heard : List (Bool × List UInt8)
  sent : List (List UInt8)

def TunnelEnd.boot : TunnelEnd := ⟨.boot, [], [], [], [], []⟩

/-- The frame that a step of `tls_writer` puts on the connection. -/
def WorkerAction.written (l : Link) : WorkerAction → List TunnelFrame
  | .write false => l.outgoing.head?.toList
  | _ => []

/-- The frame that a step of `tls_reader` takes from the connection. -/
def WorkerAction.frames : WorkerAction → List (Bool × List UInt8)
  | .read control data _ => [(control, data)]
  | _ => []

/-- The datagram that a step of `udp_writer` sends. -/
def WorkerAction.sends (l : Link) : WorkerAction → List (List UInt8)
  | .send => l.sending.toList
  | _ => []

/-- What a step leaves of the bytes that have arrived; a frame is read as it came. -/
def WorkerAction.leaves (input : List UInt8) : WorkerAction → Option (List UInt8)
  | .read control data _ =>
    match tunnelRead input with
    | some (control', data', rest) => if control' = control ∧ data' = data then some rest else none
    | none => none
  | _ => some input

def TunnelEnd.moved (x : TunnelEnd) (event : RelayEvent) (relay : Relay) : TunnelEnd :=
  { x with
    relay := relay
    events := x.events ++ [event] }

/-- A step of one end with the bytes that it leaves of its input and those it puts out. -/
def TunnelEnd.next (role : GatewayRole) (c : HexStr 32) (x : TunnelEnd) (input : List UInt8) (a : RelayAction) :
    Option (TunnelEnd × List UInt8 × List UInt8) :=
  match relayNext role x.relay a with
  | none => none
  | some (event, relay) =>
    match a with
    | .arrive d datagram =>
      some ({ x.moved event relay with arrived := if d = c then x.arrived ++ [datagram] else x.arrived }, input, [])
    | .work d w =>
      if d ≠ c then some (x.moved event relay, input, [])
      else match x.relay.links.lookup c, w.leaves input with
        | some l, some rest =>
          some ({ x.moved event relay with
            wrote := x.wrote ++ w.written l
            heard := x.heard ++ w.frames
            sent := x.sent ++ w.sends l }, rest,
            Framing.stream ((w.written l).map (fun f => tunnelBody f.content.1 f.content.2)))
        | _, _ => none
    | _ => some (x.moved event relay, input, [])

/-- The address that the accepted acknowledgement of the channel has fixed. -/
def TunnelEnd.acknowledged (x : TunnelEnd) (c : HexStr 32) : Option Address :=
  ((acceptedIn c x.events).head?).map Prod.snd

structure TunnelPair where
  server : TunnelEnd
  client : TunnelEnd
  down : List UInt8
  up : List UInt8

def TunnelPair.boot : TunnelPair := ⟨.boot, .boot, [], []⟩

inductive PairAction
  | server (a : RelayAction)
  | client (a : RelayAction)

def pairNext (game_port : ℕ) (c : HexStr 32) (w : TunnelPair) : PairAction → Option TunnelPair
  | .server a => (w.server.next (.server game_port) c w.up a).map (fun r =>
      { w with server := r.1, up := r.2.1, down := w.down ++ r.2.2 })
  | .client a => (w.client.next .client c w.down a).map (fun r =>
      { w with client := r.1, down := r.2.1, up := w.up ++ r.2.2 })

abbrev PairStep (game_port : ℕ) (c : HexStr 32) :=
  Runs.Induced (fun w a => (pairNext game_port c w a).map (fun w' => (a, w')))

end ArenaLab
