import ArenaLab.LabConversation
import ArenaLab.Framing
import Mathlib.Algebra.Order.Ring.Rat

/-! The worker and its supervisor: one evidence job over a pair of pipes, in frames with
their length in front. The supervisor reads the frames that the worker has written, and
gives up whatever takes longer than a frame may. -/

namespace ArenaLab

/-- What the system gives the worker: entropy, the platform, the clock at the request,
the measurement and its time, and after how many bytes the write of a frame fails. -/
structure WorkerHost where
  nonce : Option (Bytes 16)
  windows : Bool
  asked : UInt64
  measured_ok : Bool
  measured : CapResult
  elapsed_ms : UInt32
  cut : ℕ → Option ℕ

def WorkerHost.origin (host : WorkerHost) : UInt8 := if host.windows then originWindows else originLinux

/-- `frame_write`, to a pipe that may fail behind some of the bytes. -/
def frameWrite (cut : Option ℕ) (data : List UInt8) : List UInt8 × Bool :=
  match cut with
  | none => (Framing.encode data, true)
  | some n => ((Framing.encode data).take n, false)

/-- The frames from number `k` on, up to the first that cannot be written. -/
def frameWrites (cut : ℕ → Option ℕ) : ℕ → List (List UInt8) → List UInt8 × Bool
  | _, [] => ([], true)
  | k, data :: rest =>
    match frameWrite (cut k) data with
    | (out, false) => (out, false)
    | (out, true) =>
      let (more, ok) := frameWrites cut (k + 1) rest
      (out ++ more, ok)

/-- `frame_read`, of all that will come through the pipe. -/
def frameRead (capacity : ℕ) (inp : List UInt8) : Option (List UInt8) :=
  match Framing.header inp with
  | none => none
  | some n =>
    if capacity < n ∨ n = 0 ∨ (inp.drop 4).length < n then none else some ((inp.drop 4).take n)

/-- `header`: a datagram of this kind and no other. -/
def workerHeader (wire : List UInt8) (kind : Kind) : Option LabHdr :=
  match labHdrParse wire with
  | none => none
  | some h =>
    if h.magic = labMagic ∧ h.version = labVersion ∧ h.kind = kind.code ∧ h.flags = 0 ∧
        h.len.toNat = kind.payloadLen ∧ h.len.toNat + 16 = wire.length then some h
    else none

def WorkerHost.policy (host : WorkerHost) : LabPolicy := ⟨host.origin, 7, selfReported, 2000⟩

/-- The state of a session that has seen no request. -/
def EvidenceState.opened (session inst : Bytes 16) : EvidenceState :=
  ⟨true, false, session, inst, 0, 0, ⟨Vector.replicate 16 0, 0, Vector.replicate 16 0, 0, 0, 0, 0, 0⟩⟩

/-- The request that an imported observation must have answered. -/
def LabObservation.original (o : LabObservation) : LabRequest :=
  ⟨o.session, o.request_id, o.instance, originLinux, o.capability, selfReported, 0, o.seed⟩

/-- The checks on the observation of another worker behind the request. -/
def workerSource (policy : LabPolicy) (r : LabRequest) (source : List UInt8) : Bool :=
  match workerHeader source .observation, labPayloadParse (source.drop 16) Kind.observation.code with
  | some _, some (.observation o) =>
    if o.origin ≠ originLinux ∨ o.capability ≠ r.capability ∨ o.seed ≠ r.seed then false
    else match labPolicyRequest (.opened o.session o.instance) { policy with origin := originLinux } o.original 0 with
      | (imported, .ok) =>
        decide ((labPolicyObservation imported { policy with origin := originLinux } o 1).2 = .ok)
      | _ => false
  | _, _ => false

structure WorkerJob where
  seq : UInt32
  request : LabRequest
  source : List UInt8
  deriving DecidableEq

/-- The job of a command: a request for this worker, and maybe an observation behind it. -/
def workerJob (host : WorkerHost) (nonce : Bytes 16) (command : List UInt8) : Option WorkerJob :=
  if command.length ≠ 60 ∧ command.length ≠ 180 then none
  else match workerHeader (command.take 60) .request,
      labPayloadParse ((command.take 60).drop 16) Kind.request.code with
    | some h, some (.request r) =>
      if h.seq = 0 ∨ uint32Max - 1 ≤ h.seq then none
      else if r.instance ≠ nonce then none
      else if (labPolicyRequest (.opened r.session nonce) host.policy r host.asked).2 ≠ .ok then none
      else if command.length = 60 then some ⟨h.seq, r, []⟩
      else if workerSource host.policy r (command.drop 60) then some ⟨h.seq, r, command.drop 60⟩
      else none
    | _, _ => none

def WorkerHost.observation (host : WorkerHost) (nonce : Bytes 16) (r : LabRequest) : LabObservation where
  session := r.session
  request_id := r.request_id
  «instance» := nonce
  subject := host.measured.subject
  origin := host.origin
  capability := r.capability
  evidence_class := selfReported
  ok := if host.measured_ok then 1 else 0
  seed := r.seed
  elapsed_ms := host.elapsed_ms
  error := host.measured.error
  data := host.measured.data r.capability

/-- The imported observation as it came, and the worker's own. -/
def WorkerJob.records (job : WorkerJob) (host : WorkerHost) (nonce : Bytes 16) : List (List UInt8) :=
  (if job.source = [] then [] else [job.source]) ++
    [(Payload.observation (host.observation nonce job.request)).datagram (job.seq + 1)]

def workerHello (nonce : Bytes 16) : List UInt8 := (Payload.hello (labHello (asciiBytes "worker") nonce)).datagram 0

/-- `lab_worker_stdio`: what it writes, and whether it exits with success. -/
def labWorkerStdio (host : WorkerHost) (stdin : List UInt8) : List UInt8 × Bool :=
  match host.nonce with
  | none => ([], false)
  | some nonce =>
    match frameWrite (host.cut 0) (workerHello nonce) with
    | (out, false) => (out, false)
    | (out, true) =>
      match (frameRead 256 stdin).bind (workerJob host nonce) with
      | none => (out, false)
      | some job =>
        let (more, written) := frameWrites host.cut 1 (job.records host nonce)
        (out ++ more, written && host.measured_ok)

/-- `read_frame` of the bridge, from a stream that ends. -/
def readFrame (bytes : List UInt8) : Option (List UInt8 × List UInt8) :=
  match Framing.header bytes with
  | none => none
  | some n =>
    if n = 0 ∨ 256 < n ∨ (bytes.drop 4).length < n then none
    else some ((bytes.drop 4).take n, bytes.drop (n + 4))

/-- `FRAME_TIMEOUT`, in seconds. -/
def frameTimeout : ℚ := 4

/-- When things happen around a job, in seconds from the start of the worker: each of its frames
is all in the pipe, the supervisor comes to the job, the worker's pipe has taken it, and the
worker closes its output and has exited. -/
structure WorkerTimes where
  framed : ℕ → ℚ
  asked : ℚ
  drained : ℚ
  closed : ℚ
  exited : ℚ

/-- `asyncio.wait_for`, of what is ready at a time: when it returns, unless it gives up. -/
def waitFor (now ready : ℚ) : Option ℚ := if ready - now < frameTimeout then some (max now ready) else none

/-- The next `n` frames, from number `k` on, and when the last of them is read. -/
def readFrames (framed : ℕ → ℚ) : ℕ → ℕ → ℚ → List UInt8 → Option (List (List UInt8) × List UInt8 × ℚ)
  | 0, _, now, bytes => some ([], bytes, now)
  | n + 1, k, now, bytes =>
    match waitFor now (framed k), readFrame bytes with
    | some now, some (data, rest) => (readFrames framed n (k + 1) now rest).map (fun r => (data :: r.1, r.2))
    | _, _ => none

def jobFrames (command : List UInt8) : ℕ := if command.length = 180 then 2 else 1

/-- `execute`, on what the worker writes behind its hello until it has exited. -/
def execute (times : WorkerTimes) (now : ℚ) (stdout : List UInt8) (code : Bool) (command : List UInt8) :
    Option (List (List UInt8)) :=
  if command.length ≠ 60 ∧ command.length ≠ 180 then none
  else match waitFor now times.drained with
    | none => none
    | some now =>
      match readFrames times.framed (jobFrames command) 1 now stdout with
      | none => none
      | some (observations, extra, now) =>
        match (waitFor now times.closed).bind (waitFor · times.exited) with
        | none => none
        | some _ =>
          if extra ≠ [] ∨ code = false ∨ observations.any (fun data => decide (data.length ≠ 120)) then none
          else some observations

/-- `worker` around `execute`: the hello and the records of a job. -/
def supervise (host : WorkerHost) (times : WorkerTimes) (command : List UInt8) :
    Option (List UInt8 × List (List UInt8)) :=
  let (out, code) := labWorkerStdio host (Framing.encode command)
  match waitFor 0 (times.framed 0), readFrame out with
  | some now, some (hello, rest) =>
    if hello.length ≠ 76 then none
    else (execute times (max now times.asked) rest code command).map (fun records => (hello, records))
  | _, _ => none

end ArenaLab
