import ArenaLab.AttestRuns
import ArenaLab.Base64
import ArenaLab.EvidenceBinding
import ArenaLab.ImaChain

/-! The verification of a quote: the inspector reads its structure, another program checks
the signature and the registers, and a log may be replayed against what was signed. -/

namespace ArenaLab

/-- The values of `pcr_selection` that are supported. -/
inductive QuoteSelection
  | pcr0_7
  | pcr10
  deriving DecidableEq

def QuoteSelection.text : QuoteSelection → String
  | .pcr0_7 => "sha256:0,7"
  | .pcr10 => "sha256:10"

/-- `pcr_size`. -/
def QuoteSelection.size : QuoteSelection → ℕ
  | .pcr0_7 => 64
  | .pcr10 => 32

/-- What `Tss2_MU_TPMS_ATTEST_Unmarshal` fills in; the last two fields are those of a quote. -/
structure PcrSelection where
  hash : UInt16
  sizeofSelect : UInt8
  pcrSelect : List UInt8
  deriving DecidableEq

structure TpmsAttest where
  magic : UInt32
  type : UInt16
  extraData : List UInt8
  pcrSelect : List PcrSelection
  pcrDigest : List UInt8
  deriving DecidableEq

def tpmGenerated : UInt32 := 0xff544347
def tpmAttestQuote : UInt16 := 0x8018
def tpmSha256 : UInt16 := 0x000b

def selects (selection : List PcrSelection) (first second : UInt8) : Bool :=
  match selection with
  | [s] => s.hash = tpmSha256 && s.sizeofSelect = 3 && s.pcrSelect.getD 0 0 = first &&
      s.pcrSelect.getD 1 0 = second && s.pcrSelect.getD 2 0 = 0
  | _ => false

/-- What the inspector prints. -/
structure Inspected where
  pcr10_selection_matches : Bool
  pcr_selection_matches : Bool
  qualification : String

/-- `main` of the inspector; `none` for its status 1. -/
def quoteInspect (unmarshal : List UInt8 → Option (ℕ × TpmsAttest)) (bytes : List UInt8) : Option Inspected :=
  if 4096 < bytes.length then none
  else match unmarshal bytes with
    | none => none
    | some (offset, attestation) =>
      if offset ≠ bytes.length ∨ attestation.magic ≠ tpmGenerated ∨ attestation.type ≠ tpmAttestQuote ∨
          attestation.extraData.length ≠ 32 ∨ attestation.pcrDigest.length ≠ 32 then none
      else some
        { pcr10_selection_matches := selects attestation.pcrSelect 0 4
          pcr_selection_matches := selects attestation.pcrSelect 0x81 0
          qualification := String.ofList (HexText.toHex attestation.extraData) }

/-- Register values that the operator has approved. -/
structure PcrReference where
  expected : List UInt8
  policy_id : String
  size : expected.length = 64

def referenceValue (v : Option Json) : Option (List UInt8) :=
  match v with
  | some (.str s) => if isHex s 64 then HexText.fromHex s.toList else none
  | _ => none

def PcrReference.create (host : Host) (value : Dict) : Except String PcrReference :=
  if !value.keysEq ["policy_version", "sha256"] || !Json.isStr (value.get "policy_version") "pcr-reference/1" then
    .error "INVALID_PCR_POLICY"
  else match value.get "sha256" with
    | some (.obj bank) =>
      if !Dict.keysEq bank ["0", "7"] then .error "INVALID_PCR_POLICY"
      else match referenceValue (Dict.get bank "0"), referenceValue (Dict.get bank "7") with
        | some zero, some seven =>
          let expected := zero ++ seven
          if h : expected.length = 64 then
            .ok ⟨expected, "pcr-reference-v1:" ++ (hexdigest (host.sha256 expected)).text, h⟩
          else .error "INVALID_PCR_POLICY"
        | _, _ => .error "INVALID_PCR_POLICY"
    | _ => .error "INVALID_PCR_POLICY"

structure QuoteVerifier where
  public_key : List UInt8
  selection : QuoteSelection
  reference : Option PcrReference
  key_size : 0 < public_key.length ∧ public_key.length ≤ 8192
  applies : reference.isSome = true → selection = .pcr0_7

def QuoteVerifier.create (public_key : List UInt8) (reference : Option PcrReference) (pcr_selection : String) :
    Except String QuoteVerifier :=
  if pcr_selection ≠ "sha256:0,7" ∧ pcr_selection ≠ "sha256:10" then .error "PCR_SELECTION_UNSUPPORTED"
  else
    let selection : QuoteSelection := if pcr_selection = "sha256:0,7" then .pcr0_7 else .pcr10
    if hs : reference.isSome = true → selection = .pcr0_7 then
      if hk : 0 < public_key.length ∧ public_key.length ≤ 8192 then .ok ⟨public_key, selection, reference, hk, hs⟩
      else .error "AK_SIZE"
    else .error "PCR_POLICY_SELECTION"

/-- A `QuoteVerifier`, or an `ImaQuoteVerifier` over one that reads register 10. -/
inductive EvidenceVerifier
  | quote (base : QuoteVerifier)
  | ima (base : QuoteVerifier) (selected : base.selection = .pcr10)

def EvidenceVerifier.base : EvidenceVerifier → QuoteVerifier
  | .quote base => base
  | .ima base _ => base

def EvidenceVerifier.policy_id : EvidenceVerifier → String
  | .quote base =>
    match base.reference with
    | some reference => reference.policy_id
    | none => if base.selection = .pcr0_7 then attestPolicy else "pinned-ak-pcr10-quote-v1"
  | .ima _ _ => "pinned-ak-ima-chain-v1"

/-- The TPM library, and `tpm2_checkquote` with its key, quote, signature, registers,
selection and qualification. -/
structure QuoteTools where
  unmarshal : List UInt8 → Option (ℕ × TpmsAttest)
  checkquote : List UInt8 → List UInt8 → List UInt8 → List UInt8 → String → String → Bool

/-- What one verification meets: whether its programs run and end in time, whether the
inspector can read its file, and the log with the reads that the replayer gets. -/
structure VerifyContext where
  inspector : Bool
  readable : Bool
  checker : Bool
  replayer : Bool
  log : List UInt8
  reader : ℕ → ℕ
  elapsed : ℕ

structure QuoteEvidence where
  quote : List UInt8
  signature : List UInt8
  pcrs : List UInt8

def evidenceField (evidence : Dict) (field : String) (limit : ℕ) : Except VerifyOutcome (List UInt8) :=
  match evidence.get field with
  | none => .error .otherError
  | some (.str value) =>
    match Base64.decode value.toList with
    | none => .error .valueError
    | some data => if 0 < data.length ∧ data.length ≤ limit then .ok data else .error .valueError
  | some _ => .error .valueError

def QuoteVerifier.decoded (v : QuoteVerifier) (evidence : Dict) : Except VerifyOutcome QuoteEvidence :=
  (evidenceField evidence "quote" 4096).bind fun quote =>
    (evidenceField evidence "signature" 1024).bind fun signature =>
      (evidenceField evidence "pcrs" v.selection.size).bind fun pcrs =>
        if pcrs.length ≠ v.selection.size then .error .valueError else .ok ⟨quote, signature, pcrs⟩

def malformedQuote : Verdict where
  reason := "MALFORMED_QUOTE"
  cryptographic_validity := "failed"
  freshness_validity := "not_verified"
  policy_validity := "not_evaluated"
  pcr_reference_validity := none
  details := []

/-- The end of `verify`, from what the checks found. -/
def QuoteVerifier.judge (v : QuoteVerifier) (crypto fresh selection : Bool) (pcrs : List UInt8) (elapsed : ℕ) :
    Verdict :=
  let reference_matches := v.reference.all (fun r => pcrs = r.expected)
  let policy := selection && reference_matches
  { reason :=
      if !crypto then "SIGNATURE_OR_PCR_DIGEST_INVALID"
      else if !fresh then "NONCE_MISMATCH"
      else if !selection then "PCR_SELECTION_MISMATCH"
      else if !reference_matches then "PCR_REFERENCE_MISMATCH"
      else passReason
    cryptographic_validity := if crypto then "verified" else "failed"
    freshness_validity := if crypto && fresh then "verified" else if crypto then "failed" else "not_verified"
    policy_validity :=
      if crypto && fresh && policy then "passed" else if crypto && fresh then "failed" else "not_evaluated"
    pcr_reference_validity := some
      (if v.reference.isNone then "not_configured"
      else if !(crypto && fresh && selection) then "not_evaluated"
      else if reference_matches then "matched" else "mismatch")
    details := [("quote_verification_ms", .int elapsed)] }

def QuoteVerifier.verify (host : Host) (tools : QuoteTools) (v : QuoteVerifier) (context : VerifyContext)
    (evidence : Dict) (challenge : Challenge) : VerifyOutcome :=
  match v.decoded evidence with
  | .error outcome => outcome
  | .ok decoded =>
    if !context.inspector then .toolError
    else match if context.readable then quoteInspect tools.unmarshal decoded.quote else none with
      | none => .result malformedQuote
      | some inspected =>
        if !context.checker then .toolError
        else
          let crypto := tools.checkquote v.public_key decoded.quote decoded.signature decoded.pcrs v.selection.text
            inspected.qualification
          match freshnessTest host inspected.qualification challenge with
          | none => .otherError
          | some fresh =>
            let selection := match v.selection with
              | .pcr0_7 => inspected.pcr_selection_matches
              | .pcr10 => inspected.pcr10_selection_matches
            .result (v.judge crypto fresh selection decoded.pcrs context.elapsed)

/-- The two fields that the subclass adds. -/
def Verdict.withIma (v : Verdict) (validity : String) : Verdict :=
  { v with
    details := v.details ++ [("ima_validity", .str validity), ("measurement_policy_validity", .str "not_evaluated")] }

/-- `ImaQuoteVerifier.verify` on a quote that has passed. -/
def imaVerify (host : Host) (v : QuoteVerifier) (context : VerifyContext) (evidence : Dict) (verdict : Verdict) :
    VerifyOutcome :=
  if !context.replayer then .toolError
  else match v.decoded evidence with
    | .error outcome => outcome
    | .ok decoded =>
      match imaVerdict (replay host.sha256 context.reader context.log) decoded.pcrs with
      | .unavailable => .toolError
      | .invalid => .result { verdict.withIma "invalid" with reason := "IMA_LOG_INVALID", policy_validity := "failed" }
      | .mismatch =>
        .result { verdict.withIma "mismatch" with reason := "IMA_LOG_REPLAY_MISMATCH", policy_validity := "failed" }
      | .quoteBound records =>
        let verdict := verdict.withIma "quote_bound"
        .result { verdict with details := verdict.details ++ [("ima_records", .int records)] }

def EvidenceVerifier.verify (host : Host) (tools : QuoteTools) (v : EvidenceVerifier) (context : VerifyContext)
    (evidence : Dict) (challenge : Challenge) : VerifyOutcome :=
  match v, v.base.verify host tools context evidence challenge with
  | .ima base _, .result verdict =>
    if verdict.reason ≠ passReason then .result (verdict.withIma "not_evaluated")
    else imaVerify host base context evidence verdict
  | _, outcome => outcome

inductive QuoteAction
  | issue (owner : String)
  | submit (owner : String) (message : Dict)
  | verify (place : ℕ) (context : VerifyContext)

/-- The server with this verifier. -/
def quoteNext (host : Host) (tools : QuoteTools) (v : EvidenceVerifier) (s : AttestState) :
    QuoteAction → Option (AttestEvent × AttestState)
  | .issue owner => s.next host (.issue owner)
  | .submit owner message => s.next host (.submit owner message)
  | .verify place context =>
    s.inflight[place]?.bind fun x => s.server.heap[x.session]?.bind fun session =>
      s.next host (.verify place (v.verify host tools context x.message session.challenge))

abbrev QuoteStep (host : Host) (tools : QuoteTools) (v : EvidenceVerifier) := Runs.Induced (quoteNext host tools v)

end ArenaLab
