import ArenaLab.Places
import ArenaLab.BoundNonce

/-! The challenge server of `lab-attest/1`. Session records are shared objects:
`heap` holds every record ever stored and `sessions` maps identifiers to
places in it. A submission is a locked reservation followed by an unlocked
verification of the reserved record. -/

namespace ArenaLab

def attestPolicy : String := "pinned-ak-quote-v1"

/-- The attributes of a verifier that the server reads, absent ones as `none`. -/
structure Verifier where
  policy_id : Option String
  pcr_selection : Option String
  ak_sha256 : HexStr 64
  deriving DecidableEq

structure Session where
  owner : String
  challenge : Challenge
  deadline : ℚ
  used : Bool
  deriving DecidableEq

/-- `bound` is set in the `BoundChallenge` subclass: its binding and salt. -/
structure AttestServer where
  verifier : Verifier
  policy_id : String
  ttl_ms : ℕ
  ttl_range : 1 ≤ ttl_ms ∧ ttl_ms ≤ 60000
  maximum : ℕ
  bound : Option (Binding × HexStr 64)
  heap : List Session
  sessions : AList (fun _ : String => ℕ)

def AttestServer.create (verifier : Verifier) (ttl_ms maximum : ℕ)
    (bound : Option (Binding × HexStr 64)) : Except ValueError AttestServer :=
  if h : 1 ≤ ttl_ms ∧ ttl_ms ≤ 60000 then
    .ok ⟨verifier, verifier.policy_id.getD attestPolicy, ttl_ms, h, maximum, bound, [], ∅⟩
  else .error .ttlRange

theorem default_ttl_range : 1 ≤ 10000 ∧ 10000 ≤ 60000 := by decide

/-- A challenge as handed out, with the place and deadline of its record. -/
structure Handed where
  session : ℕ
  challenge : Challenge
  deadline : ℚ
  deriving DecidableEq

/-- At most `fuel` tries; the loop's `else` when all of them collide. -/
def freshSid (host : Host) (sessions : AList (fun _ : String => ℕ)) :
    ℕ → Tape → HexStr 32 → Option (HexStr 32) × Tape
  | 0, t, _ => (none, t)
  | fuel + 1, t, sid =>
    if sid.text ∈ sessions then freshSid host sessions fuel t.draw (host.tokenHex t.draws 16)
    else (some sid, t)

def AttestServer.pruned (srv : AttestServer) (now : ℚ) : AttestServer :=
  { srv with sessions := srv.sessions.keep (fun e =>
      match srv.heap[e.2]? with
      | some session => decide (now < session.deadline + 60)
      | none => false) }

def AttestServer.newChallenge (srv : AttestServer) (sid : HexStr 32) (created : Int)
    (nonce : HexStr 64) : Challenge where
  session_id := sid
  nonce := nonce
  created_at := created
  expires_at := created + srv.ttl_ms
  policy_id := srv.policy_id
  requested_evidence := ["tpm_quote", srv.verifier.pcr_selection.getD "sha256:0,7"]
  ak_sha256 := srv.verifier.ak_sha256

def AttestServer.store (srv : AttestServer) (sid : HexStr 32) (session : Session) : AttestServer :=
  { srv with
    heap := srv.heap ++ [session]
    sessions := srv.sessions.insert sid.text srv.heap.length }

def AttestServer.baseIssue (host : Host) (srv : AttestServer) (t : Tape) (owner : String) :
    AttestServer × Tape × Except ValueError Handed :=
  let now := host.clock t.reads
  let t := t.read
  let srv := srv.pruned now
  if srv.maximum ≤ srv.sessions.entries.length then (srv, t, .error .sessionLimit)
  else
    match freshSid host srv.sessions 4 t.draw (host.tokenHex t.draws 16) with
    | (none, t) => (srv, t, .error .entropyCollision)
    | (some sid, t) =>
      let created := truncate (host.wall t.walls * 1000)
      let challenge := srv.newChallenge sid created (host.tokenHex t.draws 32)
      let deadline := now + srv.ttl_ms / 1000
      (srv.store sid ⟨owner, challenge, deadline, false⟩, t.readWall.draw,
        .ok ⟨srv.heap.length, challenge, deadline⟩)

/-- `issue`, with the subclass writing its bound nonce over the stored and
returned challenge in the same lock section. -/
def AttestServer.issue (host : Host) (srv : AttestServer) (t : Tape) (owner : String) :
    AttestServer × Tape × Except ValueError Handed :=
  match srv.baseIssue host t owner, srv.bound with
  | (srv, t, .ok handed), some (binding, salt) =>
    match boundNonce host binding salt.text with
    | none => (srv, t, .error .invalidIdentifier)
    | some nonce =>
      let challenge := { handed.challenge with nonce := nonce }
      let heap := srv.heap.modify handed.session (fun session => { session with challenge := challenge })
      ({ srv with heap := heap }, t, .ok { handed with challenge := challenge })
  | result, _ => result

inductive Decision
  | allow | deny | indeterminate
  deriving DecidableEq, Repr

/-- The dict that `verifier.verify` returns. -/
structure Verdict where
  reason : String
  cryptographic_validity : String
  freshness_validity : String
  policy_validity : String
  pcr_reference_validity : Option String
  details : Dict

inductive VerifyOutcome
  | result (verdict : Verdict)
  | valueError
  | toolError
  | otherError

/-- The dict that `submit` returns; its constant fields are left out. -/
structure Attestation where
  session_id : String
  decision : Decision
  cryptographic_validity : String
  freshness_validity : String
  policy_validity : String
  policy_id : String
  pcr_reference_validity : String
  reasons : List String
  details : Dict

def AttestServer.base (srv : AttestServer) (sid : String) : Attestation where
  session_id := sid
  decision := .deny
  cryptographic_validity := "not_verified"
  freshness_validity := "failed"
  policy_validity := "not_evaluated"
  policy_id := srv.policy_id
  pcr_reference_validity := if srv.policy_id ≠ attestPolicy then "not_evaluated" else "not_configured"
  reasons := []
  details := []

/-- What a submission keeps between its reservation and its verification. -/
structure Reservation where
  owner : String
  message : Dict
  session : ℕ
  base : Attestation

inductive SubmitReply
  | refused (error : ValueError)
  | returned (attestation : Attestation)
  | reserved (reservation : Reservation) (now : ℚ)

def submitFields : List String := ["protocol_version", "session_id", "quote", "signature", "pcrs"]

def AttestServer.reserve (host : Host) (srv : AttestServer) (t : Tape) (owner : String)
    (message : Dict) : AttestServer × Tape × SubmitReply :=
  if !message.keysEq submitFields || !Json.isStr (message.get "protocol_version") attestProtocol then
    (srv, t, .refused .invalidSchema)
  else match message.get "session_id" with
    | some (.str sid) =>
      if sid.length ≠ 32 then (srv, t, .refused .invalidSession)
      else
        let base := srv.base sid
        match (srv.sessions.lookup sid).bind (fun i => srv.heap[i]?.map (i, ·)) with
        | none => (srv, t, .returned { base with reasons := ["UNKNOWN_SESSION"] })
        | some (i, session) =>
          if owner ≠ session.owner then
            (srv, t, .returned { base with reasons := ["UNKNOWN_SESSION"] })
          else if session.used then
            (srv, t, .returned { base with reasons := ["CHALLENGE_REUSED"] })
          else
            let now := host.clock t.reads
            if session.deadline ≤ now then
              (srv, t.read, .returned { base with reasons := ["CHALLENGE_EXPIRED"] })
            else
              ({ srv with heap := srv.heap.set i { session with used := true } }, t.read,
                .reserved ⟨owner, message, i, base⟩ now)
    | _ => (srv, t, .refused .invalidSession)

def passReason : String := "SCOPED_POLICY_PASS"

def Attestation.update (base : Attestation) (v : Verdict) : Attestation :=
  { base with
    cryptographic_validity := v.cryptographic_validity
    freshness_validity := v.freshness_validity
    policy_validity := v.policy_validity
    pcr_reference_validity := v.pcr_reference_validity.getD base.pcr_reference_validity
    details := v.details }

def Attestation.settle (base : Attestation) (reason : String) : Attestation :=
  { base with reasons := [reason], decision := if reason = passReason then .allow else .deny }

/-- The unlocked half of `submit`; `none` when an exception leaves it. -/
def conclude (host : Host) (t : Tape) (base : Attestation) (deadline : ℚ)
    (outcome : VerifyOutcome) : Tape × Option Attestation :=
  match outcome with
  | .valueError => (t, some { base with reasons := ["INVALID_PAYLOAD"] })
  | .toolError => (t, some { base with decision := .indeterminate, reasons := ["VERIFIER_ERROR"] })
  | .otherError => (t, none)
  | .result verdict =>
    let base := base.update verdict
    if deadline ≤ host.clock t.reads then
      (t.read, some (Attestation.settle
        { base with freshness_validity := "failed", policy_validity := "not_evaluated" }
        "CHALLENGE_EXPIRED"))
    else (t.read, some (base.settle verdict.reason))

end ArenaLab
