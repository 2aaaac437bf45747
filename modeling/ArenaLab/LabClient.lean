import ArenaLab.ServerLoop

/-! The UDP client of the laboratory: a greeting, the pings, at most one evidence
request with its observation, and a farewell, each answered before the next is sent. -/

namespace ArenaLab

/-- `lab_cap_result_t` -/
structure CapResult where
  error : UInt32
  size : UInt32
  digest : Bytes 32
  subject : Bytes 16
  process_id : UInt64
  generation : UInt64
  deriving DecidableEq

/-- How a measurement is laid out in an observation. -/
def CapResult.data (r : CapResult) (capability : UInt8) : Bytes 36 :=
  if capability = 1 then field (put32 r.size ++ r.digest.toList) 0 36
  else if capability = 2 then field (put64 r.process_id ++ put64 r.generation) 0 36
  else Vector.replicate 36 0

/-- What a measurement that went well leaves in the result. -/
structure CapResult.Sound (r : CapResult) (capability : UInt8) : Prop where
  error : r.error = 0
  subject : nonzero r.subject.toList = true
  file : capability = 1 → r.size = 4096 ∧ nonzero r.digest.toList = true
  proc : capability = 2 → r.process_id ≠ 0 ∧ r.generation ≠ 0

/-- The options of the command line, as `main` has checked them. -/
structure LabOptions where
  name : List UInt8
  count : UInt32
  capability : UInt8
  seed : UInt32
  name_ok : name ≠ [] ∧ name.length < 24 ∧ ∀ ch ∈ name, 0x21 ≤ ch ∧ ch ≤ 0x7e
  count_ok : 1 ≤ count.toNat ∧ count.toNat ≤ 64
  capability_ok : capability.toNat ≤ 3

inductive LabStage
  | hello
  | ping (i : UInt32)
  | request
  | observation
  | bye
  deriving DecidableEq

/-- Where `main` is: about to send, waiting for the answer to what it sent, or at its end. -/
inductive LabPc
  | ready (stage : LabStage)
  | awaiting (stage : LabStage) (sent : Payload)
  | ended (ok : Bool)
  deriving DecidableEq

structure LabClient where
  pc : LabPc
  hello : LabHello
  ack : LabHelloAck

/-- What the system calls before a send return: the nonce, the clock, `lab_cap_run`
with the time it took, and the send itself. -/
structure LabInput where
  nonce : Option (Bytes 16)
  stamp : UInt64
  measured_ok : Bool
  measured : CapResult
  elapsed_ms : UInt32
  sent : Bool

/-- `receive_kind`, once a datagram has come. -/
def receiveKind (wire : List UInt8) (kind : Kind) : Option Payload :=
  if labMaxDatagram < wire.length then none
  else match labHdrParse wire with
    | none => none
    | some h =>
      if h.magic ≠ labMagic ∨ h.version ≠ labVersion ∨ h.flags ≠ 0 ∨ h.kind ≠ kind.code ∨
          h.len.toNat ≠ wire.length - 16 then none
      else labPayloadParse (wire.drop 16) kind.code

def labHello (name : List UInt8) (nonce : Bytes 16) : LabHello :=
  ⟨labAppId, field (asciiBytes labAppName) 0 16, field name 0 24, nonce⟩

def LabClient.start (name : List UInt8) : LabClient where
  pc := .ready .hello
  hello := labHello name (Vector.replicate 16 0)
  ack := ⟨0, 0, Vector.replicate 16 0, Vector.replicate 16 0, Vector.replicate 16 0⟩

def LabOptions.sequence (o : LabOptions) : LabStage → UInt32
  | .hello => 0
  | .ping i => i
  | .request => o.count + 1
  | .observation => o.count + 2
  | .bye => o.count + 1

/-- What `main` does once the answer to a stage has passed its checks. -/
def LabOptions.after (o : LabOptions) : LabStage → LabPc
  | .hello => .ready (.ping 1)
  | .ping i =>
    if i < o.count then .ready (.ping (i + 1))
    else if o.capability ≠ 0 then .ready .request
    else .ready .bye
  | .request => .ready .observation
  | .observation => .ready .bye
  | .bye => .ended true

def LabClient.request (o : LabOptions) (c : LabClient) : LabRequest :=
  ⟨c.ack.session, 1, c.hello.nonce, originLinux, o.capability, selfReported, 0, o.seed⟩

def LabClient.observation (o : LabOptions) (c : LabClient) (x : LabInput) : LabObservation where
  session := c.ack.session
  request_id := 1
  «instance» := c.hello.nonce
  subject := x.measured.subject
  origin := originLinux
  capability := o.capability
  evidence_class := selfReported
  ok := if x.measured_ok then 1 else 0
  seed := o.seed
  elapsed_ms := x.elapsed_ms
  error := x.measured.error
  data := x.measured.data o.capability

/-- The message of a stage, unless there is no entropy for its nonce. -/
def LabClient.message (o : LabOptions) (c : LabClient) (x : LabInput) : LabStage → Option Payload
  | .hello => x.nonce.map (fun nonce => .hello (labHello o.name nonce))
  | .ping _ => x.nonce.map (fun nonce => .ping ⟨c.ack.session, nonce, x.stamp⟩)
  | .request => some (.request (c.request o))
  | .observation => some (.observation (c.observation o x))
  | .bye => some (.bye ⟨c.ack.session, 0, 0⟩)

/-- The nonce of the greeting is the instance of the client from then on. -/
def LabClient.keep (c : LabClient) : Payload → LabClient
  | .hello hello => { c with hello := hello }
  | _ => c

def LabClient.send (o : LabOptions) (c : LabClient) (x : LabInput) (stage : LabStage) :
    LabClient × Option (List UInt8) :=
  match c.message o x stage with
  | none => ({ c with pc := .ended false }, none)
  | some p =>
    if x.sent then ({ c.keep p with pc := .awaiting stage p }, some (p.datagram (o.sequence stage)))
    else ({ c with pc := .ended false }, none)

/-- The checks of `main` on the answer to a message; a good greeting brings the session. -/
def LabClient.check (c : LabClient) (sent : Payload) (wire : List UInt8) : Option LabHelloAck :=
  match sent with
  | .hello hello =>
    match receiveKind wire .helloAck with
    | some (.helloAck ack) =>
      if ack.result = 1 ∧ ack.reason = Reason.ok.code ∧ ack.cnonce = hello.nonce then some ack else none
    | _ => none
  | .ping ping =>
    match receiveKind wire .pong with
    | some (.pong pong) =>
      if pong.pad = 0 ∧ pong.stamp = ping.stamp ∧ pong.echo = ping.nonce then some c.ack else none
    | _ => none
  | .request _ =>
    match receiveKind wire .decision with
    | some (.decision decision) =>
      if decision.session = c.ack.session ∧ decision.request_id = 1 ∧ decision.status = 1 ∧
          decision.reason = 0 then some c.ack else none
    | _ => none
  | .observation _ =>
    match receiveKind wire .decision with
    | some (.decision decision) =>
      if decision.session = c.ack.session ∧ decision.request_id = 1 ∧ decision.status = 2 ∧
          decision.reason = 0 then some c.ack else none
    | _ => none
  | .bye _ =>
    match receiveKind wire .rst with
    | some (.rst rst) =>
      if rst.reason = Reason.ok.code ∧ rst.len = 3 ∧ rst.msg.toList.take 3 = asciiBytes "bye" ∧
          rst.session = c.ack.session then some c.ack else none
    | _ => none
  | _ => none

def LabClient.read (o : LabOptions) (c : LabClient) (stage : LabStage) (sent : Payload) (wire : List UInt8) :
    LabClient :=
  match c.check sent wire with
  | some ack => { c with ack := ack, pc := o.after stage }
  | none => { c with pc := .ended false }

/-- The client and the server in its loop, with the datagram on its way to the server, and
how many of the server's datagrams to its address the client has left behind. -/
structure LabWorld where
  client : LabClient
  server : Server
  loop : ServerLoop
  uplink : Option (List UInt8)
  seen : ℕ

/-- A step of the client, of the server on the client's datagram, or anything else at the server. -/
inductive LabAction
  | send (x : LabInput)
  | hear
  | read
  | giveUp
  | serve (a : LoopAction)

def labNext (host : LabHost) (o : LabOptions) (me : SockAddr) (w : LabWorld) : LabAction → Option LabWorld
  | .send x =>
    match w.client.pc with
    | .ready stage =>
      let (client, uplink) := w.client.send o x stage
      some { w with client := client, uplink := uplink }
    | _ => none
  | .hear =>
    match w.uplink with
    | some d =>
      (w.server.main host w.loop (.receive me d)).map
        (fun m => { w with server := m.1, loop := m.2, uplink := none })
    | none => none
  | .read =>
    match w.client.pc, (w.server.net.repliesTo me).drop w.seen with
    | .awaiting stage sent, d :: _ =>
      some { w with client := w.client.read o stage sent d, seen := w.seen + 1 }
    | _, _ => none
  | .giveUp =>
    match w.client.pc with
    | .awaiting _ _ => some { w with client := { w.client with pc := .ended false } }
    | _ => none
  | .serve a =>
    if a.isFrom me then none
    else (w.server.main host w.loop a).map (fun m => { w with server := m.1, loop := m.2 })

/-- A client that has just bound its socket. -/
def LabWorld.start (o : LabOptions) (s : Server) (loop : ServerLoop) (me : SockAddr) : LabWorld where
  client := .start o.name
  server := s
  loop := loop
  uplink := none
  seen := (s.net.repliesTo me).length

end ArenaLab
