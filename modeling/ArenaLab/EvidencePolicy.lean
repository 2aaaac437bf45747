import ArenaLab.LabSequence

/-! The verifier's policy on evidence requests and observations. -/

namespace ArenaLab

structure LabPolicy where
  origin : UInt8
  capabilities : UInt8
  evidence_class : UInt8
  request_timeout_ms : UInt32
  deriving DecidableEq

structure EvidenceState where
  isOpen : Bool
  pending : Bool
  session : Bytes 16
  «instance» : Bytes 16
  last_request : UInt32
  deadline : UInt64
  request : LabRequest
  deriving DecidableEq

def originLinux : UInt8 := 1
def originWindows : UInt8 := 2
def selfReported : UInt8 := 1

def nonzero (data : List UInt8) : Bool := data.any (· ≠ 0)

/-- `common`: what requests and observations are both checked for. -/
def policyCommon (s : EvidenceState) (policy : LabPolicy) (session peer : Bytes 16)
    (origin capability evidence_class : UInt8) : Reason :=
  if !s.isOpen then .closing
  else if s.session ≠ session then .badSession
  else if s.instance ≠ peer then .oldInstance
  else if (origin ≠ originLinux ∧ origin ≠ originWindows) ∨
      (policy.origin ≠ 0 ∧ policy.origin ≠ origin) then .originMismatch
  else if capability < 1 ∨ 3 < capability ∨
      policy.capabilities &&& (1 <<< (capability - 1)) = 0 then .unsupported
  else if evidence_class ≠ selfReported ∨ evidence_class ≠ policy.evidence_class then .insufficient
  else .ok

def labPolicyRequest (s : EvidenceState) (policy : LabPolicy) (r : LabRequest) (now : UInt64) :
    EvidenceState × Reason :=
  match policyCommon s policy r.session r.instance r.origin r.capability r.evidence_class with
  | .ok =>
    if r.reserved ≠ 0 ∨ r.request_id = 0 then (s, .badPayload)
    else if r.request_id ≤ s.last_request then (s, .replay)
    else if s.pending ∧ now < s.deadline then (s, .busy)
    else if 0xFFFFFFFFFFFFFFFF - now < policy.request_timeout_ms.toUInt64 then (s, .badPayload)
    else
      ({ s with
          request := r
          last_request := r.request_id
          deadline := now + policy.request_timeout_ms.toUInt64
          pending := true }, .ok)
  | reason => (s, reason)

/-- The shape that each capability asks of the observed data. -/
def observedData (capability : UInt8) (data : Bytes 36) : Bool :=
  (capability ≠ 1 || (get32 data.toList 0 = 4096 && nonzero (data.toList.drop 4))) &&
  (capability ≠ 2 || (nonzero (data.toList.take 8) && nonzero ((data.toList.drop 8).take 8) &&
    !nonzero (data.toList.drop 16))) &&
  (capability ≠ 3 || !nonzero data.toList)

def labPolicyObservation (s : EvidenceState) (policy : LabPolicy) (o : LabObservation)
    (now : UInt64) : EvidenceState × Reason :=
  match policyCommon s policy o.session o.instance o.origin o.capability o.evidence_class with
  | .ok =>
    if !s.pending ∨ o.request_id ≠ s.request.request_id then (s, .unknownRequest)
    else if s.deadline ≤ now then (s, .expired)
    else if o.capability ≠ s.request.capability ∨ o.origin ≠ s.request.origin ∨
        o.seed ≠ s.request.seed ∨ !nonzero o.subject.toList ∨ o.ok ≠ 1 ∨ o.error ≠ 0 ∨
        policy.request_timeout_ms < o.elapsed_ms then (s, .badPayload)
    else if !observedData o.capability o.data then (s, .badPayload)
    else ({ s with pending := false }, .ok)
  | reason => (s, reason)

section

variable {s : EvidenceState} {policy : LabPolicy}

theorem policyCommon_foreign {session peer : Bytes 16} {origin capability evidence_class : UInt8}
    (hopen : s.isOpen = true) (hs : s.session ≠ session) :
    policyCommon s policy session peer origin capability evidence_class = .badSession := by
  simp [policyCommon, hopen, hs]

theorem labPolicyRequest_foreign {r : LabRequest} {now : UInt64} (hopen : s.isOpen = true)
    (hs : s.session ≠ r.session) : labPolicyRequest s policy r now = (s, .badSession) := by
  simp [labPolicyRequest, policyCommon_foreign hopen hs]

theorem labPolicyObservation_foreign {o : LabObservation} {now : UInt64} (hopen : s.isOpen = true)
    (hs : s.session ≠ o.session) : labPolicyObservation s policy o now = (s, .badSession) := by
  simp [labPolicyObservation, policyCommon_foreign hopen hs]

end

def EvidenceState.identity (s : EvidenceState) : Bool × Bytes 16 × Bytes 16 :=
  (s.isOpen, s.session, s.instance)

theorem labPolicyRequest_identity (s : EvidenceState) (policy : LabPolicy) (r : LabRequest)
    (now : UInt64) : (labPolicyRequest s policy r now).1.identity = s.identity := by
  simp only [labPolicyRequest]
  split
  · split
    · rfl
    · split
      · rfl
      · split
        · rfl
        · split <;> rfl
  · rfl

theorem labPolicyObservation_identity (s : EvidenceState) (policy : LabPolicy) (o : LabObservation)
    (now : UInt64) : (labPolicyObservation s policy o now).1.identity = s.identity := by
  simp only [labPolicyObservation]
  split
  · split
    · rfl
    · split
      · rfl
      · split
        · rfl
        · split <;> rfl
  · rfl

theorem uint64_sub_max {now timeout : UInt64} (h : ¬0xFFFFFFFFFFFFFFFF - now < timeout) :
    (now + timeout).toNat = now.toNat + timeout.toNat := by
  have hle : now ≤ 0xFFFFFFFFFFFFFFFF := by
    rw [UInt64.le_iff_toNat_le]
    have hlt := now.toNat_lt
    have hmax : (0xFFFFFFFFFFFFFFFF : UInt64).toNat = 18446744073709551615 := rfl
    omega
  rw [UInt64.lt_iff_toNat_lt, UInt64.toNat_sub_of_le _ _ hle] at h
  have hmax : (0xFFFFFFFFFFFFFFFF : UInt64).toNat = 18446744073709551615 := rfl
  have hlt := now.toNat_lt
  rw [UInt64.toNat_add]
  omega

/-- An accepted request follows all earlier ones and the pending one, if there is any, is over. -/
theorem labPolicyRequest_ok {s : EvidenceState} {policy : LabPolicy} {r : LabRequest} {now : UInt64}
    (h : (labPolicyRequest s policy r now).2 = .ok) :
    s.last_request < r.request_id ∧ (s.pending = true → s.deadline ≤ now) ∧
    ∃ deadline : UInt64, deadline.toNat = now.toNat + policy.request_timeout_ms.toNat ∧
      (labPolicyRequest s policy r now).1 =
        { s with request := r, last_request := r.request_id, deadline := deadline, pending := true } := by
  simp only [labPolicyRequest] at h ⊢
  split at h
  · split at h
    · cases h
    · rename_i hshape
      split at h
      · cases h
      · rename_i hnew
        split at h
        · cases h
        · rename_i hidle
          split at h
          · cases h
          · rename_i hroom
            refine ⟨UInt32.not_le.mp hnew, fun hp => UInt64.not_lt.mp (fun hd => hidle ⟨hp, hd⟩),
              now + policy.request_timeout_ms.toUInt64, ?_, ?_⟩
            · rw [uint64_sub_max hroom, UInt32.toNat_toUInt64]
            · rw [if_neg hshape, if_neg hnew, if_neg hidle, if_neg hroom]
  · rename_i hne
    exact absurd h hne

/-- An accepted observation answers the pending request, in time, and leaves none pending. -/
theorem labPolicyObservation_ok {s : EvidenceState} {policy : LabPolicy} {o : LabObservation}
    {now : UInt64} (h : (labPolicyObservation s policy o now).2 = .ok) :
    s.pending = true ∧ o.request_id = s.request.request_id ∧ now < s.deadline ∧
    o.origin = s.request.origin ∧ o.capability = s.request.capability ∧ o.seed = s.request.seed ∧
    (labPolicyObservation s policy o now).1 = { s with pending := false } := by
  simp only [labPolicyObservation] at h ⊢
  split at h
  · split at h
    · cases h
    · rename_i hknown
      split at h
      · cases h
      · rename_i htime
        split at h
        · cases h
        · rename_i hbody
          split at h
          · cases h
          · rename_i hdata
            rw [if_neg hknown, if_neg htime, if_neg hbody, if_neg hdata]
            simp only [not_or, not_not, Bool.not_eq_true', Bool.not_eq_false] at hknown hbody
            exact ⟨hknown.1, hknown.2, UInt64.not_le.mp htime, hbody.2.1, hbody.1, hbody.2.2.1, rfl⟩
  · rename_i hne
    exact absurd h hne

theorem policyCommon_open {s : EvidenceState} {policy : LabPolicy} {session peer : Bytes 16}
    {origin capability evidence_class : UInt8} (hopen : s.isOpen = true) :
    policyCommon s policy session peer origin capability evidence_class ≠ .closing := by
  simp only [policyCommon, hopen, Bool.not_true, Bool.false_eq_true, if_false]
  repeat' split
  all_goals simp

theorem labPolicyRequest_open {s : EvidenceState} {policy : LabPolicy} {r : LabRequest} {now : UInt64}
    (hopen : s.isOpen = true) : (labPolicyRequest s policy r now).2 ≠ .closing := by
  simp only [labPolicyRequest]
  split
  · repeat' split
    all_goals simp
  · exact policyCommon_open hopen

theorem labPolicyObservation_open {s : EvidenceState} {policy : LabPolicy} {o : LabObservation}
    {now : UInt64} (hopen : s.isOpen = true) : (labPolicyObservation s policy o now).2 ≠ .closing := by
  simp only [labPolicyObservation]
  split
  · repeat' split
    all_goals simp
  · exact policyCommon_open hopen

end ArenaLab
