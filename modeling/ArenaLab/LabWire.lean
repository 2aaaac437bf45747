import Mathlib.Data.Nat.Notation

/-! The datagrams of `lab-udp/2`: header, payload layouts and reason codes. All
integers are little-endian. -/

namespace ArenaLab

inductive Kind
  | hello | helloAck | ping | pong | rst | bye | request | observation | decision
  deriving DecidableEq, Repr

def Kind.code : Kind → UInt8
  | .hello => 0x01
  | .helloAck => 0x02
  | .ping => 0x10
  | .pong => 0x11
  | .rst => 0x20
  | .bye => 0x30
  | .request => 0x40
  | .observation => 0x41
  | .decision => 0x42

def Kind.ofCode (code : UInt8) : Option Kind :=
  [Kind.hello, .helloAck, .ping, .pong, .rst, .bye, .request, .observation, .decision].find?
    (·.code = code)

inductive Reason
  | ok | badMagic | badVersion | badKind | badLen | badPayload | dupSession | unknownSession
  | badSession | badSeq | replay | tooBig | truncated | stale | busy | dupNonce | closing | timeout
  | echo | originMismatch | unsupported | insufficient | oldInstance | expired | unknownRequest
  deriving DecidableEq, Repr

def Reason.code : Reason → UInt32
  | .ok => 0
  | .badMagic => 1
  | .badVersion => 2
  | .badKind => 3
  | .badLen => 4
  | .badPayload => 5
  | .dupSession => 6
  | .unknownSession => 7
  | .badSession => 8
  | .badSeq => 9
  | .replay => 10
  | .tooBig => 11
  | .truncated => 12
  | .stale => 13
  | .busy => 14
  | .dupNonce => 15
  | .closing => 16
  | .timeout => 17
  | .echo => 18
  | .originMismatch => 19
  | .unsupported => 20
  | .insufficient => 21
  | .oldInstance => 22
  | .expired => 23
  | .unknownRequest => 24

def Reason.name : Reason → String
  | .ok => "OK"
  | .badMagic => "BAD_MAGIC"
  | .badVersion => "BAD_VERSION"
  | .badKind => "BAD_KIND"
  | .badLen => "BAD_LEN"
  | .badPayload => "BAD_PAYLOAD"
  | .dupSession => "DUP_SESSION"
  | .unknownSession => "UNKNOWN_SESSION"
  | .badSession => "BAD_SESSION"
  | .badSeq => "BAD_SEQ"
  | .replay => "REPLAY"
  | .tooBig => "TOO_BIG"
  | .truncated => "TRUNCATED"
  | .stale => "STALE"
  | .busy => "BUSY"
  | .dupNonce => "DUP_NONCE"
  | .closing => "CLOSING"
  | .timeout => "TIMEOUT"
  | .echo => "ECHO"
  | .originMismatch => "ORIGIN_MISMATCH"
  | .unsupported => "UNSUPPORTED"
  | .insufficient => "INSUFFICIENT"
  | .oldInstance => "OLD_INSTANCE"
  | .expired => "EXPIRED"
  | .unknownRequest => "UNKNOWN_REQUEST"

def labMagic : UInt8 := 0x4C
def labVersion : UInt8 := 2
def labMaxDatagram : ℕ := 128
def labAppName : String := "LabClient"
def labAppId : UInt32 := 0x4C414201

def uint32Max : UInt32 := 0xFFFFFFFF

abbrev Bytes (n : ℕ) := Vector UInt8 n

def put32 (v : UInt32) : List UInt8 :=
  [v.toUInt8, (v >>> 8).toUInt8, (v >>> 16).toUInt8, (v >>> 24).toUInt8]

def put64 (v : UInt64) : List UInt8 := put32 v.toUInt32 ++ put32 (v >>> 32).toUInt32

def field (buf : List UInt8) (off n : ℕ) : Bytes n := Vector.ofFn (fun i => buf.getD (off + i) 0)

def get32 (buf : List UInt8) (off : ℕ) : UInt32 :=
  (buf.getD off 0).toUInt32 ||| ((buf.getD (off + 1) 0).toUInt32 <<< 8) |||
    ((buf.getD (off + 2) 0).toUInt32 <<< 16) ||| ((buf.getD (off + 3) 0).toUInt32 <<< 24)

def get64 (buf : List UInt8) (off : ℕ) : UInt64 :=
  (get32 buf off).toUInt64 ||| ((get32 buf (off + 4)).toUInt64 <<< 32)

structure LabHdr where
  magic : UInt8
  version : UInt8
  kind : UInt8
  flags : UInt8
  seq : UInt32
  len : UInt32
  pad : Bytes 4
  deriving DecidableEq

def labHdrPack (h : LabHdr) : List UInt8 :=
  [h.magic, h.version, h.kind, h.flags] ++ put32 h.seq ++ put32 h.len ++ [0xAA, 0xAA, 0xAA, 0xAA]

def labHdrParse (buf : List UInt8) : Option LabHdr :=
  if buf.length < 16 ∨ field buf 12 4 ≠ Vector.replicate 4 0xAA then none
  else some ⟨buf.getD 0 0, buf.getD 1 0, buf.getD 2 0, buf.getD 3 0, get32 buf 4, get32 buf 8,
    field buf 12 4⟩

structure LabHello where
  app_id : UInt32
  app : Bytes 16
  name : Bytes 24
  nonce : Bytes 16
  deriving DecidableEq

structure LabHelloAck where
  result : UInt32
  reason : UInt32
  session : Bytes 16
  snonce : Bytes 16
  cnonce : Bytes 16
  deriving DecidableEq

structure LabPing where
  session : Bytes 16
  nonce : Bytes 16
  stamp : UInt64
  deriving DecidableEq

structure LabPong where
  stamp : UInt64
  echo : Bytes 16
  pad : UInt32
  deriving DecidableEq

structure LabRst where
  session : Bytes 16
  reason : UInt32
  len : UInt32
  msg : Bytes 36
  deriving DecidableEq

structure LabBye where
  session : Bytes 16
  reason : UInt32
  pad : UInt32
  deriving DecidableEq

structure LabRequest where
  session : Bytes 16
  request_id : UInt32
  «instance» : Bytes 16
  origin : UInt8
  capability : UInt8
  evidence_class : UInt8
  reserved : UInt8
  seed : UInt32
  deriving DecidableEq

structure LabObservation where
  session : Bytes 16
  request_id : UInt32
  «instance» : Bytes 16
  subject : Bytes 16
  origin : UInt8
  capability : UInt8
  evidence_class : UInt8
  ok : UInt8
  seed : UInt32
  elapsed_ms : UInt32
  error : UInt32
  data : Bytes 36
  deriving DecidableEq

structure LabDecision where
  session : Bytes 16
  request_id : UInt32
  status : UInt32
  reason : UInt32
  deriving DecidableEq

/-- A payload of each kind, in place of the source's `void *`. -/
inductive Payload
  | hello (p : LabHello)
  | helloAck (p : LabHelloAck)
  | ping (p : LabPing)
  | pong (p : LabPong)
  | rst (p : LabRst)
  | bye (p : LabBye)
  | request (p : LabRequest)
  | observation (p : LabObservation)
  | decision (p : LabDecision)
  deriving DecidableEq

def Payload.kind : Payload → Kind
  | .hello _ => .hello
  | .helloAck _ => .helloAck
  | .ping _ => .ping
  | .pong _ => .pong
  | .rst _ => .rst
  | .bye _ => .bye
  | .request _ => .request
  | .observation _ => .observation
  | .decision _ => .decision

def Kind.payloadLen : Kind → ℕ
  | .hello => 60
  | .helloAck => 56
  | .ping => 40
  | .pong => 28
  | .rst => 60
  | .bye => 24
  | .request => 44
  | .observation => 104
  | .decision => 28

/-- Zero for an unknown kind. -/
def labPayloadLen (code : UInt8) : ℕ :=
  match Kind.ofCode code with
  | some kind => kind.payloadLen
  | none => 0

def labPayloadPack : Payload → List UInt8
  | .hello p => put32 p.app_id ++ p.app.toList ++ p.name.toList ++ p.nonce.toList
  | .helloAck p =>
    put32 p.result ++ put32 p.reason ++ p.session.toList ++ p.snonce.toList ++ p.cnonce.toList
  | .ping p => p.session.toList ++ p.nonce.toList ++ put64 p.stamp
  | .pong p => put64 p.stamp ++ p.echo.toList ++ put32 p.pad
  | .rst p => p.session.toList ++ put32 p.reason ++ put32 p.len ++ p.msg.toList
  | .bye p => p.session.toList ++ put32 p.reason ++ put32 p.pad
  | .request p =>
    p.session.toList ++ put32 p.request_id ++ p.instance.toList ++
      [p.origin, p.capability, p.evidence_class, p.reserved] ++ put32 p.seed
  | .observation p =>
    p.session.toList ++ put32 p.request_id ++ p.instance.toList ++ p.subject.toList ++
      [p.origin, p.capability, p.evidence_class, p.ok] ++ put32 p.seed ++ put32 p.elapsed_ms ++
      put32 p.error ++ p.data.toList
  | .decision p => p.session.toList ++ put32 p.request_id ++ put32 p.status ++ put32 p.reason

def Kind.read (kind : Kind) (buf : List UInt8) : Payload :=
  match kind with
  | .hello => .hello ⟨get32 buf 0, field buf 4 16, field buf 20 24, field buf 44 16⟩
  | .helloAck =>
    .helloAck ⟨get32 buf 0, get32 buf 4, field buf 8 16, field buf 24 16, field buf 40 16⟩
  | .ping => .ping ⟨field buf 0 16, field buf 16 16, get64 buf 32⟩
  | .pong => .pong ⟨get64 buf 0, field buf 8 16, get32 buf 24⟩
  | .rst => .rst ⟨field buf 0 16, get32 buf 16, get32 buf 20, field buf 24 36⟩
  | .bye => .bye ⟨field buf 0 16, get32 buf 16, get32 buf 20⟩
  | .request =>
    .request ⟨field buf 0 16, get32 buf 16, field buf 20 16, buf.getD 36 0, buf.getD 37 0,
      buf.getD 38 0, buf.getD 39 0, get32 buf 40⟩
  | .observation =>
    .observation ⟨field buf 0 16, get32 buf 16, field buf 20 16, field buf 36 16, buf.getD 52 0,
      buf.getD 53 0, buf.getD 54 0, buf.getD 55 0, get32 buf 56, get32 buf 60, get32 buf 64,
      field buf 68 36⟩
  | .decision => .decision ⟨field buf 0 16, get32 buf 16, get32 buf 20, get32 buf 24⟩

/-- `lab_payload_parse`, which hands the evidence kinds to `lab_evidence_parse`. -/
def labPayloadParse (buf : List UInt8) (code : UInt8) : Option Payload :=
  match Kind.ofCode code with
  | some kind => if buf.length = kind.payloadLen then some (kind.read buf) else none
  | none => none

theorem Kind.ofCode_code (kind : Kind) : Kind.ofCode kind.code = some kind := by
  cases kind <;> decide

theorem Kind.ofCode_eq {code : UInt8} {kind : Kind} (h : Kind.ofCode code = some kind) :
    code = kind.code := by
  have hf := List.find?_some h
  exact (of_decide_eq_true hf).symm

end ArenaLab
