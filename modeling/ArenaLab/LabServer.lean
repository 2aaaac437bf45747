import ArenaLab.EvidencePolicy
import ArenaLab.Runs
import Mathlib.Algebra.BigOperators.Pi

/-! The UDP server: slots of client sessions, the handlers of a datagram, and
the main loop's choice of a slot. A handler works on the slot it is given and
on the network; only the loop writes slots back. -/

namespace ArenaLab

/-- The numerals of the 32 slots, by one name in every module. -/
instance neZero_clients : @NeZero ℕ ⟨0⟩ 32 := ⟨by decide⟩

theorem all_clients : 1 ≤ 32 ∧ 32 ≤ 32 := by decide

/-- The part of `sockaddr_in` that the server compares; `addr` is in host order. -/
structure SockAddr where
  family : UInt16
  addr : UInt32
  port : UInt16
  deriving DecidableEq

inductive SlotState
  | stNew | stOpen
  deriving DecidableEq, Repr

structure Client where
  used : Bool
  state : SlotState
  session : Bytes 16
  cnonce : Bytes 16
  sequence : LabSequence
  evidence : EvidenceState
  snonce : Bytes 16
  hello : Bytes 60
  nrst : UInt32
  open_t : UInt64
  last_rx : UInt64
  name : Bytes 24
  addr : SockAddr
  deriving DecidableEq

/-- All bytes zero, as `memset` and `release_client` leave a slot. -/
def Client.zero : Client where
  used := false
  state := .stNew
  session := Vector.replicate 16 0
  cnonce := Vector.replicate 16 0
  sequence := ⟨0, Vector.replicate 16 0⟩
  evidence := ⟨false, false, Vector.replicate 16 0, Vector.replicate 16 0, 0, 0,
    ⟨Vector.replicate 16 0, 0, Vector.replicate 16 0, 0, 0, 0, 0, 0⟩⟩
  snonce := Vector.replicate 16 0
  hello := Vector.replicate 60 0
  nrst := 0
  open_t := 0
  last_rx := 0
  name := Vector.replicate 24 0
  addr := ⟨0, 0, 0⟩

/-- Successive results of `lab_now_ms`, `lab_random_bytes` and `sendto`. -/
structure LabHost where
  now : ℕ → UInt64
  random : ℕ → Option (Bytes 32)
  sendOk : ℕ → Bool

/-- What the server has sent and counted, and how often it has asked the host. -/
structure Net where
  sent : List (SockAddr × List UInt8) := []
  n_rx : UInt64 := 0
  n_acks : UInt64 := 0
  n_rst : UInt64 := 0
  n_timeout : UInt64 := 0
  running : Bool := true
  io_error : Bool := false
  reads : ℕ := 0
  draws : ℕ := 0
  sends : ℕ := 0

/-- The options that `main` has checked. -/
structure ServerConfig where
  timeout_ms : UInt32
  max_clients : ℕ
  policy : LabPolicy
  clients_range : 1 ≤ max_clients ∧ max_clients ≤ 32

abbrev Slots := Fin 32 → Client

structure Server where
  config : ServerConfig
  slots : Slots
  net : Net

def sendDatagram (host : LabHost) (net : Net) (addr : SockAddr) (buf : List UInt8) : Net × Bool :=
  if host.sendOk net.sends then
    ({ net with sends := net.sends + 1, sent := net.sent ++ [(addr, buf)] }, true)
  else ({ net with sends := net.sends + 1, io_error := true, running := false }, false)

def Payload.datagram (p : Payload) (seq : UInt32) : List UInt8 :=
  labHdrPack ⟨labMagic, labVersion, p.kind.code, 0, seq, UInt32.ofNat p.kind.payloadLen,
    Vector.replicate 4 0⟩ ++ labPayloadPack p

def asciiBytes (text : String) : List UInt8 := text.toList.map (fun c => UInt8.ofNat c.toNat)

def rstPayload (session : Bytes 16) (reason : Reason) (msg : String) : LabRst where
  session := session
  reason := reason.code
  len := UInt32.ofNat (min (asciiBytes msg).length 36)
  msg := field (asciiBytes msg) 0 36

def sendRst (host : LabHost) (net : Net) (c : Client) (reason : Reason) (msg : String) :
    Net × Client :=
  let datagram := (Payload.rst (rstPayload c.session reason msg)).datagram c.nrst
  match sendDatagram host net c.addr datagram with
  | (net, true) => ({ net with n_rst := net.n_rst + 1 }, { c with nrst := c.nrst + 1 })
  | (net, false) => (net, { c with nrst := c.nrst + 1 })

def sendHelloAck (host : LabHost) (net : Net) (c : Client) (snonce : Bytes 16) : Net × Bool :=
  let datagram := (Payload.helloAck ⟨1, Reason.ok.code, c.session, snonce, c.cnonce⟩).datagram 0
  match sendDatagram host net c.addr datagram with
  | (net, true) => ({ net with n_acks := net.n_acks + 1 }, true)
  | (net, false) => (net, false)

def validNonce (nonce : Bytes 16) : Bool := nonzero nonce.toList

def cString (bytes : List UInt8) : List UInt8 := bytes.takeWhile (· ≠ 0)

def appMatches (app : Bytes 16) : Bool :=
  (cString app.toList).length = labAppName.length &&
    app.toList.take (labAppName.length + 1) = asciiBytes labAppName ++ [0]

def printable (name : Bytes 24) : Bool :=
  (cString name.toList).all (fun ch => 0x21 ≤ ch && ch ≤ 0x7e)

/-- What `do_hello` writes into the slot once the acknowledgement is out. -/
def Client.opened (c : Client) (p : LabHello) (now : UInt64) : Client :=
  { c with
    used := true
    state := .stOpen
    evidence := { c.evidence with isOpen := true, session := c.session, «instance» := c.cnonce }
    sequence := .fresh
    name := p.name
    open_t := now
    last_rx := now }

def doHello (host : LabHost) (slots : Slots) (net : Net) (c : Client) (pay : List UInt8) :
    Net × Client :=
  if pay.length ≠ 60 then
    sendRst host net c (if 64 < pay.length then (if pay.length ≤ 128 then .tooBig else .badLen)
      else .badLen) "hello len"
  else match labPayloadParse pay Kind.hello.code with
    | some (.hello p) =>
      if p.app_id ≠ labAppId then sendRst host net c .badPayload "app_id != LAB1"
      else if !appMatches p.app then sendRst host net c .badPayload "app != LabClient"
      else if !printable p.name then sendRst host net c .badPayload "name bytes"
      else if !validNonce p.nonce then sendRst host net c .badPayload "nonce cero"
      else if ∃ i, (slots i).used = true ∧ (slots i).cnonce = p.nonce then
        sendRst host net c .dupNonce "duplicate nonce"
      else match host.random net.draws with
        | none => sendRst host { net with draws := net.draws + 1 } c .busy "entropy unavailable"
        | some rnd =>
          let c := { c with
            session := field rnd.toList 0 16
            cnonce := p.nonce
            snonce := field rnd.toList 16 16
            hello := field pay 0 60 }
          match sendHelloAck host { net with draws := net.draws + 1 } c c.snonce with
          | (net, false) => (net, c)
          | (net, true) =>
            ({ net with reads := net.reads + 1 }, c.opened p (host.now net.reads))
    | _ => (net, c)

/-- The verdict of the policy on a request or an observation. -/
def judge (evidence : EvidenceState) (policy : LabPolicy) (p : Payload) (now : UInt64) :
    Option (UInt32 × EvidenceState × Reason) :=
  match p with
  | .request request => some (request.request_id, labPolicyRequest evidence policy request now)
  | .observation observation =>
    some (observation.request_id, labPolicyObservation evidence policy observation now)
  | _ => none

def decisionStatus (kind : UInt8) (reason : Reason) : UInt32 :=
  if reason = .ok then (if kind = Kind.request.code then 1 else 2) else 0

/-- `do_evidence` from the verdict on: the sequence is consumed last, and only
accepted evidence is written to the slot. -/
def answerEvidence (host : LabHost) (net : Net) (c : Client) (h : LabHdr) (request_id : UInt32)
    (next : EvidenceState) (verdict : Reason) : Net × Client :=
  let (sequence, reason) := if verdict = .ok then c.sequence.accept h.seq else (c.sequence, verdict)
  let (net, c) := if reason = .ok then
      ({ net with reads := net.reads + 1 },
        { c with evidence := next, sequence := sequence, last_rx := host.now net.reads })
    else (net, c)
  let datagram := (Payload.decision ⟨c.session, request_id, decisionStatus h.kind reason,
    reason.code⟩).datagram h.seq
  let (net, _) := sendDatagram host net c.addr datagram
  (net, if reason = .closing then .zero else c)

def doEvidence (host : LabHost) (policy : LabPolicy) (net : Net) (c : Client) (h : LabHdr)
    (pay : List UInt8) : Net × Client :=
  match (labPayloadParse pay h.kind).bind (judge c.evidence policy · (host.now net.reads)) with
  | none => (net, c)
  | some (request_id, next, verdict) =>
    answerEvidence host { net with reads := net.reads + 1 } c h request_id next verdict

def doPing (host : LabHost) (net : Net) (c : Client) (h : LabHdr) (pay : List UInt8) :
    Net × Client :=
  if 40 < pay.length then sendRst host net c .tooBig "ping >40"
  else if pay.length < 40 then sendRst host net c .truncated "ping corto"
  else match labPayloadParse pay Kind.ping.code with
    | some (.ping p) =>
      if p.session ≠ c.session then sendRst host net c .badSession "session !="
      else
        let (sequence, reason) := c.sequence.accept h.seq
        let c := { c with sequence := sequence }
        if reason ≠ .ok then
          let (net, c) := sendRst host net c reason reason.name
          (net, if reason = .closing then .zero else c)
        else
          let c := { c with last_rx := host.now net.reads }
          let (net, _) := sendDatagram host { net with reads := net.reads + 1 } c.addr
            ((Payload.pong ⟨p.stamp, p.nonce, 0⟩).datagram 0)
          (net, c)
    | _ => (net, c)

def doBye (host : LabHost) (net : Net) (c : Client) (pay : List UInt8) : Net × Client :=
  if pay.length ≠ 24 then sendRst host net c .badLen "bye len"
  else if field pay 0 16 ≠ c.session then sendRst host net c .badSession "session !="
  else ((sendRst host net c .ok "bye").1, .zero)

def doRst (host : LabHost) (net : Net) (c : Client) (pay : List UInt8) : Net × Client :=
  if pay.length ≠ 60 then sendRst host net c .badLen "rst len"
  else match labPayloadParse pay Kind.rst.code with
    | some (.rst p) =>
      if p.session ≠ c.session then sendRst host net c .badSession "session !="
      else if 36 < p.len then sendRst host net c .badPayload "rst msg len"
      else ((sendRst host net c .ok "rst").1, .zero)
    | _ => (net, c)

/-- `do_open` once the header is valid. -/
def openKind (host : LabHost) (policy : LabPolicy) (net : Net) (c : Client) (h : LabHdr)
    (pay : List UInt8) : Net × Client :=
  match Kind.ofCode h.kind with
  | some .hello =>
    if h.seq = 0 ∧ field pay 0 60 = c.hello then ((sendHelloAck host net c c.snonce).1, c)
    else sendRst host net c .dupSession "otro HELLO"
  | some .request => doEvidence host policy net c h pay
  | some .observation => doEvidence host policy net c h pay
  | some .helloAck => sendRst host net c .badKind "kind c2s"
  | some .pong => sendRst host net c .badKind "kind c2s"
  | some .decision => sendRst host net c .badKind "kind c2s"
  | some .ping => doPing host net c h pay
  | some .bye => doBye host net c pay
  | some .rst => doRst host net c pay
  | none => sendRst host net c .badKind "kind"

def doOpen (host : LabHost) (policy : LabPolicy) (net : Net) (c : Client) (dat : List UInt8) :
    Net × Client :=
  if labMaxDatagram < dat.length then sendRst host net c .tooBig ">128 B"
  else match labHdrParse dat with
    | none => sendRst host net c .badMagic "hdr"
    | some h =>
      if h.magic ≠ labMagic then sendRst host net c .badMagic "magic"
      else if h.version ≠ labVersion then sendRst host net c .badVersion "version"
      else if h.len.toNat ≠ (dat.drop 16).length ∨ labPayloadLen h.kind ≠ h.len.toNat then
        sendRst host net c .badLen (if h.kind = Kind.bye.code then "bye len"
          else if h.kind = Kind.rst.code then "rst len" else "len != real")
      else if h.flags ≠ 0 then sendRst host net c .badPayload "flags"
      else openKind host policy net c h (dat.drop 16)

def doNew (host : LabHost) (slots : Slots) (net : Net) (c : Client) (dat : List UInt8) :
    Net × Client :=
  if dat.length < 16 then sendRst host net c .badMagic "hdr"
  else if labMaxDatagram < dat.length then sendRst host net c .tooBig ">64 B"
  else if dat.getD 0 0 ≠ labMagic then sendRst host net c .badMagic "magic"
  else if dat.getD 1 0 ≠ labVersion then sendRst host net c .badVersion "version"
  else if dat.getD 2 0 ≠ Kind.hello.code then sendRst host net c .badKind "HELLO primero"
  else match labHdrParse dat with
    | none => sendRst host net c .badMagic "hdr"
    | some h =>
      if h.len.toNat ≠ (dat.drop 16).length then sendRst host net c .badLen "len != real"
      else if h.flags ≠ 0 ∨ h.seq ≠ 0 then sendRst host net c .badPayload "hello header"
      else doHello host slots net c (dat.drop 16)

def Slots.ofPeer (slots : Slots) (from_ : SockAddr) : Option (Fin 32) :=
  (List.finRange 32).find? (fun i => (slots i).used && (slots i).addr = from_)

def Slots.free (slots : Slots) : Option (Fin 32) :=
  (List.finRange 32).find? (fun i => !(slots i).used)

def Client.weight (c : Client) : ℕ := if c.used then 1 else 0

def Slots.usedCount (slots : Slots) : ℕ := ∑ i, (slots i).weight

/-- A cleared client with only its address set. -/
def Client.visitor (from_ : SockAddr) : Client := { Client.zero with addr := from_ }

/-- A peer without a slot is answered through a temporary client. -/
def Server.turnAway (host : LabHost) (s : Server) (from_ : SockAddr) (reason : Reason)
    (msg : String) : Server :=
  { s with net := (sendRst host s.net (.visitor from_) reason msg).1 }

def handle (host : LabHost) (s : Server) (c : Client) (d : List UInt8) : Net × Client :=
  if labMaxDatagram < d.length then sendRst host s.net c .tooBig ">128 B"
  else match c.state with
    | .stNew => doNew host s.slots s.net c d
    | .stOpen => doOpen host s.config.policy s.net c d

/-- The slot as a handler finds it; a free one is cleared first. -/
def Server.slotFor (s : Server) (i : Fin 32) (from_ : SockAddr) : Client :=
  if (s.slots i).used then { s.slots i with addr := from_ } else .visitor from_

def Server.serve (host : LabHost) (s : Server) (i : Fin 32) (from_ : SockAddr) (d : List UInt8) :
    Server :=
  let c := s.slotFor i from_
  let s := { s with slots := Function.update s.slots i c }
  let (net, c) := handle host s c d
  { s with net := net, slots := Function.update s.slots i c }

def Server.route (host : LabHost) (s : Server) (from_ : SockAddr) (d : List UInt8) : Server :=
  if from_.addr >>> 24 ≠ 127 then s.turnAway host from_ .badMagic "no loopback"
  else match s.slots.ofPeer from_ with
    | some i => s.serve host i from_ d
    | none =>
      if s.config.max_clients ≤ s.slots.usedCount then s.turnAway host from_ .busy "max alcanzado"
      else match s.slots.free with
        | some i => s.serve host i from_ d
        | none => s.turnAway host from_ .busy "max alcanzado"

def Server.receive (host : LabHost) (s : Server) (from_ : SockAddr) (d : List UInt8) : Server :=
  { s with net := { s.net with n_rx := s.net.n_rx + 1 } }.route host from_ d

def sweepSlot (host : LabHost) (now : UInt64) (s : Server) (i : Fin 32) : Server :=
  let c := s.slots i
  if !c.used ∨ c.state ≠ .stOpen then s
  else if s.config.timeout_ms.toUInt64 < now - c.last_rx then
    let (net, _) := sendRst host s.net c .timeout "timeout"
    { s with
      net := { net with n_timeout := net.n_timeout + 1 }
      slots := Function.update s.slots i .zero }
  else s

def Server.sweepTimeouts (host : LabHost) (s : Server) : Server :=
  let now := host.now s.net.reads
  (List.finRange 32).foldl (sweepSlot host now) { s with net := { s.net with reads := s.net.reads + 1 } }

def shutdownSlot (host : LabHost) (s : Server) (i : Fin 32) : Server :=
  if (s.slots i).used then
    let (net, c) := sendRst host s.net (s.slots i) .closing "shutdown"
    { s with net := net, slots := Function.update s.slots i c }
  else s

/-- The last loop of `main`. -/
def Server.shutdown (host : LabHost) (s : Server) : Server :=
  (List.finRange 32).foldl (shutdownSlot host) s

/-- `main` up to its loop; `--host` leaves the parsed address in the first slot. -/
def Server.boot (config : ServerConfig) (listen : UInt32) : Server where
  config := config
  slots := Function.update (fun _ => .zero) 0 { Client.zero with addr := ⟨0, listen, 0⟩ }
  net := {}

inductive ServerAction
  | datagram (from_ : SockAddr) (d : List UInt8)
  | sweep
  | receiveError
  | shutdown

def Server.act (host : LabHost) (s : Server) : ServerAction → Server
  | .datagram from_ d => s.receive host from_ d
  | .sweep => s.sweepTimeouts host
  | .receiveError => { s with net := { s.net with io_error := true, running := false } }
  | .shutdown => s.shutdown host

abbrev ServerStep (host : LabHost) (s : Server) (a : ServerAction) (s' : Server) : Prop :=
  s' = s.act host a

end ArenaLab
