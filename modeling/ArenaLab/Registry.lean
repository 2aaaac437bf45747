import ArenaLab.AttestServer

/-! The admission registry of `arena-admission/1`. Entries and verifiers are
shared objects: `heap` and `verifiers` hold every one ever created, and the
table and the running submissions refer to them by place, so that an entry
pruned from the table can still be written by a late submission. Each lock
section is one function; a submission has two, around its verification. -/

namespace ArenaLab

inductive AdmissionState
  | registered | challenged | verifying | allowed | denied | expired | revoked
  deriving DecidableEq, Repr

def AdmissionState.text : AdmissionState → String
  | .registered => "REGISTERED"
  | .challenged => "CHALLENGED"
  | .verifying => "VERIFYING"
  | .allowed => "ALLOWED"
  | .denied => "DENIED"
  | .expired => "EXPIRED"
  | .revoked => "REVOKED"

structure Entry where
  binding : Binding
  deadline : ℚ
  state : AdmissionState := .registered
  lease_deadline : ℚ := 0
  challenge_deadline : ℚ := 0
  verifier : Option ℕ := none
  deriving DecidableEq

/-- The settings that `__init__` has checked. -/
structure Config where
  controllers : List (HexStr 64)
  attestors : AList (fun _ : HexStr 64 => Verifier)
  maximum : ℕ
  binding_ms : ℕ
  challenge_ms : ℕ
  lease_ms : ℕ
  roles : controllers ≠ [] ∧ attestors.entries ≠ [] ∧ ∀ c ∈ controllers, c ∉ attestors
  limits : (1 ≤ maximum ∧ maximum ≤ 4096) ∧ (1 ≤ binding_ms ∧ binding_ms ≤ 3600000) ∧
    (1 ≤ challenge_ms ∧ challenge_ms ≤ 60000) ∧ (1 ≤ lease_ms ∧ lease_ms ≤ 60000)

def enroll (attestor : String × Verifier) :
    Except ValueError (Sigma (fun _ : HexStr 64 => Verifier)) :=
  (hexValue (.str attestor.1) 64).map (fun identity => ⟨identity, attestor.2⟩)

def Config.create (controllers : List Json) (attestors : List (String × Verifier))
    (maximum binding_ms challenge_ms lease_ms : ℕ) : Except ValueError Config := do
  let controllers ← controllers.mapM (hexValue · 64)
  let attestors ← attestors.mapM enroll
  if roles : controllers ≠ [] ∧ attestors.toAList.entries ≠ [] ∧
      ∀ c ∈ controllers, c ∉ attestors.toAList then
    if limits : (1 ≤ maximum ∧ maximum ≤ 4096) ∧ (1 ≤ binding_ms ∧ binding_ms ≤ 3600000) ∧
        (1 ≤ challenge_ms ∧ challenge_ms ≤ 60000) ∧ (1 ≤ lease_ms ∧ lease_ms ≤ 60000) then
      .ok ⟨controllers, attestors.toAList, maximum, binding_ms, challenge_ms, lease_ms, roles, limits⟩
    else .error .invalidLimit
  else .error .invalidRoles

/-- The local variables of a submission between its two lock sections. -/
structure Submission where
  identity : HexStr 64
  admission_id : HexStr 32
  entry : ℕ
  verifier : Option ℕ
  evidence : Dict

structure Registry where
  instance_id : HexStr 32
  heap : List Entry
  entries : AList (fun _ : HexStr 32 => ℕ)
  verifiers : List AttestServer
  inflight : List Submission
  tape : Tape

def Registry.start (host : Host) : Registry :=
  ⟨host.tokenHex 0 16, [], ∅, [], [], { draws := 1 }⟩

structure View where
  protocol_version : String := admissionProtocol
  binding : Binding
  state : AdmissionState
  allow : Bool
  remaining_ms : Int
  provenance : String := "operator_pinned_ak_lab"
  deriving DecidableEq

/-- The lazy expiry that `_status` writes back. -/
def Entry.observe (e : Entry) (now : ℚ) : Entry :=
  let e := if e.state ≠ .revoked ∧ e.deadline ≤ now then { e with state := .expired } else e
  if e.state = .allowed ∧ e.lease_deadline ≤ now then { e with state := .expired } else e

def Entry.view (e : Entry) (now : ℚ) : View where
  binding := e.binding
  state := e.state
  allow := e.state = .allowed
  remaining_ms :=
    if e.state = .allowed then max 0 (truncate ((min e.deadline e.lease_deadline - now) * 1000))
    else 0

inductive Operation
  | register | status | revoke | challenge | submit
  deriving DecidableEq, Repr

def Operation.ofText : String → Option Operation
  | "register" => some .register
  | "status" => some .status
  | "revoke" => some .revoke
  | "challenge" => some .challenge
  | "submit" => some .submit
  | _ => none

def Operation.fields : Operation → List String
  | .register => ["game_session_id", "peer_id", "attestor"]
  | .status => ["admission_id"]
  | .revoke => ["admission_id"]
  | .challenge => ["admission_id"]
  | .submit => ["admission_id", "evidence"]

def Operation.byController : Operation → Bool
  | .register | .status | .revoke => true
  | .challenge | .submit => false

/-- What the entry is before `_status` looks at it. -/
def Entry.asked (e : Entry) (operation : Operation) : Entry :=
  if operation = .revoke then { e with state := .revoked } else e

def parseRequest : Json → Option (Operation × Dict)
  | .obj fields =>
    if Json.isStr (Dict.get fields "protocol_version") admissionProtocol then
      match Dict.get fields "operation" with
      | some (.str text) =>
        match Operation.ofText text with
        | some operation =>
          if Dict.keysEq fields (["protocol_version", "operation"] ++ operation.fields) then
            some (operation, fields)
          else none
        | none => none
      | _ => none
    else none
  | _ => none

/-- What a lock section gives its caller. The places of the entry and of the
verifier and the clock readings are not sent; they label the step. -/
inductive Reply
  | refused (error : ValueError)
  | registered (entry : ℕ) (registeredAt now : ℚ) (view : View)
  | viewed (entry : ℕ) (operation : Operation) (now : ℚ) (view : View)
  | challenged (entry verifier : ℕ) (issuedAt : ℚ) (binding : Binding) (salt : HexStr 64)
      (challenge : Challenge)
  | entered (submission : Submission)
  | submitted (entry : ℕ) (now : ℚ) (view : View) (attestation : Attestation)
  | raised

def Registry.alive (s : Registry) (now : ℚ) (entry : ℕ) : Bool :=
  match s.heap[entry]? with
  | some e => decide (now < e.deadline) && decide (e.state ≠ .revoked)
  | none => false

def Registry.prune (s : Registry) (now : ℚ) : Registry :=
  { s with entries := s.entries.keep (fun x => s.alive now x.2) }

def Entry.holds (e : Entry) (controller : HexStr 64) (session : HexStr 32) (peer : PeerId) : Bool :=
  e.binding.controller = controller && e.binding.game_session_id = session &&
    e.binding.peer_id = peer

def Registry.taken (s : Registry) (controller : HexStr 64) (session : HexStr 32)
    (peer : PeerId) : Bool :=
  s.entries.entries.any (fun x => (s.heap[x.2]?).any (·.holds controller session peer))

def Registry.store (s : Registry) (e : Entry) : Registry :=
  { s with
    heap := s.heap ++ [e]
    entries := s.entries.insert e.binding.admission_id s.heap.length }

/-- `_register` once its arguments are valid. -/
def Registry.newAdmission (host : Host) (cfg : Config) (s : Registry) (controller attestor : HexStr 64)
    (session : HexStr 32) (peer : PeerId) : Registry × Reply :=
  let now := host.clock s.tape.reads
  let s := { s.prune now with tape := s.tape.read }
  if s.taken controller session peer then (s, .refused .peerAlreadyRegistered)
  else if cfg.maximum ≤ s.entries.entries.length then (s, .refused .admissionLimit)
  else
    let admission_id := host.tokenHex s.tape.draws 16
    if admission_id ∈ s.entries then ({ s with tape := s.tape.draw }, .refused .entropyCollision)
    else
      let binding : Binding := {
        instance_id := s.instance_id
        admission_id := admission_id
        game_session_id := session
        peer_id := peer
        connection_id := host.tokenHex s.tape.draw.draws 32
        controller := controller
        attestor := attestor }
      let read := host.clock s.tape.reads
      let e : Entry := Entry.observe ⟨binding, now + cfg.binding_ms / 1000, .registered, 0, 0, none⟩ read
      ({ s.store e with tape := s.tape.draw.draw.read },
        .registered s.heap.length now read (e.view read))

def Registry.register (host : Host) (cfg : Config) (s : Registry) (controller : HexStr 64)
    (fields : Dict) : Registry × Reply :=
  match hexValue ((fields.get "game_session_id").getD .null) 32,
      hexValue ((fields.get "attestor").getD .null) 64,
      peerId ((fields.get "peer_id").getD .null) with
  | .error e, _, _ => (s, .refused e)
  | _, .error e, _ => (s, .refused e)
  | _, _, .error e => (s, .refused e)
  | .ok session, .ok attestor, .ok peer =>
    if attestor ∈ cfg.attestors then s.newAdmission host cfg controller attestor session peer
    else (s, .refused .unknownAttestor)

def Registry.status (host : Host) (s : Registry) (operation : Operation) (place : ℕ) (e : Entry) :
    Registry × Reply :=
  let now := host.clock s.tape.reads
  let e := e.observe now
  ({ s with heap := s.heap.set place e, tape := s.tape.read },
    .viewed place operation now (e.view now))

/-- The test of lines 126-128, with the tape after its readings. -/
def Entry.pending (host : Host) (t : Tape) (e : Entry) : Bool × Tape :=
  if e.state = .verifying then (true, t)
  else if e.state = .challenged then (decide (host.clock t.reads < e.challenge_deadline), t.read)
  else (false, t)

def Registry.challenge (host : Host) (cfg : Config) (s : Registry) (identity : HexStr 64)
    (verifier : Verifier) (place : ℕ) (e : Entry) : Registry × Reply :=
  let (pending, t) := e.pending host s.tape
  if pending then ({ s with tape := t }, .refused .challengePending)
  else
    let salt := host.tokenHex t.draws 32
    match AttestServer.create verifier cfg.challenge_ms 1 (some (e.binding, salt)) with
    | .error error => ({ s with tape := t }, .refused error)
    | .ok server =>
      match server.issue host t.draw identity.text with
      | (_, t, .error error) => ({ s with tape := t }, .refused error)
      | (server, t, .ok handed) =>
        let issuedAt := host.clock t.reads
        let e := { e with
          verifier := some s.verifiers.length
          state := .challenged
          challenge_deadline := issuedAt + cfg.challenge_ms / 1000 }
        ({ s with
            heap := s.heap.set place e
            verifiers := s.verifiers ++ [server]
            tape := t.read },
          .challenged place s.verifiers.length issuedAt e.binding salt handed.challenge)

def Registry.enter (s : Registry) (identity : HexStr 64) (admission_id : HexStr 32) (place : ℕ)
    (e : Entry) (evidence : Option Json) : Registry × Reply :=
  if e.state ≠ .challenged then (s, .refused .noPendingChallenge)
  else match evidence with
    | some (.obj evidence) =>
      let submission : Submission := ⟨identity, admission_id, place, e.verifier, evidence⟩
      ({ s with
          heap := s.heap.set place { e with state := .verifying }
          inflight := s.inflight ++ [submission] },
        .entered submission)
    | _ => (s, .refused .invalidSchema)

/-- The entry an operation other than `register` names, if the caller owns it. -/
def Registry.owned (s : Registry) (operation : Operation) (identity : HexStr 64) (fields : Dict) :
    Except ValueError (HexStr 32 × ℕ × Entry) :=
  match hexValue ((fields.get "admission_id").getD .null) 32 with
  | .error e => .error e
  | .ok admission_id =>
    match (s.entries.lookup admission_id).bind (fun i => s.heap[i]?.map (i, ·)) with
    | none => .error .unknownAdmission
    | some (place, e) =>
      if identity = (if operation.byController then e.binding.controller else e.binding.attestor) then
        .ok (admission_id, place, e)
      else .error .unknownAdmission

def Config.controller (cfg : Config) (identity : String) : Option (HexStr 64) :=
  cfg.controllers.find? (·.text = identity)

def Config.attestor (cfg : Config) (identity : String) : Option (Sigma fun _ : HexStr 64 => Verifier) :=
  cfg.attestors.entries.find? (·.1.text = identity)

def Registry.dispatchController (host : Host) (cfg : Config) (s : Registry)
    (controller : HexStr 64) (operation : Operation) (fields : Dict) : Registry × Reply :=
  if operation = .register then s.register host cfg controller fields
  else match s.owned operation controller fields with
    | .error e => (s, .refused e)
    | .ok (_, place, e) => s.status host operation place (e.asked operation)

def Registry.dispatchAttestor (host : Host) (cfg : Config) (s : Registry)
    (attestor : Sigma fun _ : HexStr 64 => Verifier) (operation : Operation) (fields : Dict) :
    Registry × Reply :=
  match s.owned operation attestor.1 fields with
  | .error e => (s, .refused e)
  | .ok (admission_id, place, e) =>
    if e.state = .revoked then (s, .refused .admissionClosed)
    else
      let now := host.clock s.tape.reads
      let s := { s with tape := s.tape.read }
      if e.deadline ≤ now then (s, .refused .admissionClosed)
      else if operation = .challenge then s.challenge host cfg attestor.1 attestor.2 place e
      else s.enter attestor.1 admission_id place e (fields.get "evidence")

/-- `dispatch` up to the release of the lock. -/
def Registry.dispatch (host : Host) (cfg : Config) (s : Registry) (identity : String)
    (message : Json) : Registry × Reply :=
  match parseRequest message with
  | none => (s, .refused .invalidSchema)
  | some (operation, fields) =>
    if operation.byController then
      match cfg.controller identity with
      | none => (s, .refused .unauthorizedRole)
      | some controller => s.dispatchController host cfg controller operation fields
    else
      match cfg.attestor identity with
      | none => (s, .refused .unauthorizedRole)
      | some attestor => s.dispatchAttestor host cfg attestor operation fields

/-- How `verifier.submit` ends. `exception` is what `except Exception` catches. -/
inductive Outcome
  | returned (attestation : Attestation)
  | exception
  | otherThrow

/-- A lease starts at challenge issue, never at a delayed verification finish. -/
def Entry.settle (cfg : Config) (e : Entry) (attestation : Attestation) : Entry :=
  let issued := e.challenge_deadline - cfg.challenge_ms / 1000
  { e with
    state := if attestation.decision = .allow then .allowed else .denied
    lease_deadline := min e.deadline (issued + cfg.lease_ms / 1000) }

/-- The second lock section, run once verification has ended. -/
def Registry.finish (host : Host) (cfg : Config) (s : Registry) (x : Submission) (e : Entry) :
    Outcome → Registry × Reply
  | .exception =>
    if e.state = .verifying then
      ({ s with heap := s.heap.set x.entry { e with state := .denied } }, .raised)
    else (s, .raised)
  | .otherThrow => (s, .raised)
  | .returned attestation =>
    if s.entries.lookup x.admission_id ≠ some x.entry ∨ e.state ≠ .verifying then
      (s, .refused .admissionClosed)
    else
      let now := host.clock s.tape.reads
      let e := (e.settle cfg attestation).observe now
      ({ s with heap := s.heap.set x.entry e, tape := s.tape.read },
        .submitted x.entry now (e.view now) attestation)

end ArenaLab
