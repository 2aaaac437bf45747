import ArenaLab.LabClient
import Mathlib.Data.List.GetD

/-! The policy of the server on the client's one request and its observation. -/

namespace ArenaLab

/-- The policy lets a Linux peer report this capability. -/
structure LabPolicy.Admits (policy : LabPolicy) (origin capability : UInt8) : Prop where
  from_ : policy.origin = 0 ∨ policy.origin = origin
  known : capability = 1 ∨ capability = 2 ∨ capability = 3
  allowed : policy.capabilities &&& (1 <<< (capability - 1)) ≠ 0
  evidence : policy.evidence_class = selfReported

section

variable {policy : LabPolicy} {e : EvidenceState} {now : UInt64}

theorem policyCommon_ok {session peer : Bytes 16} {origin capability : UInt8} (h : policy.Admits origin capability)
    (hid : e.identity = (true, session, peer)) (horigin : origin = originLinux ∨ origin = originWindows) :
    policyCommon e policy session peer origin capability selfReported = .ok := by
  simp only [EvidenceState.identity, Prod.mk.injEq] at hid
  obtain ⟨hopen, hses, hins⟩ := hid
  have ho : ¬((origin ≠ originLinux ∧ origin ≠ originWindows) ∨ (policy.origin ≠ 0 ∧ policy.origin ≠ origin)) := by
    rintro (⟨h₁, h₂⟩ | ⟨h₁, h₂⟩)
    · rcases horigin with h₃ | h₃
      · exact h₁ h₃
      · exact h₂ h₃
    · rcases h.from_ with h₃ | h₃
      · exact h₁ h₃
      · exact h₂ h₃
  have hc : ¬(capability < 1 ∨ 3 < capability ∨ policy.capabilities &&& (1 <<< (capability - 1)) = 0) := by
    rintro (h₁ | h₁ | h₁)
    · rcases h.known with rfl | rfl | rfl
      all_goals exact absurd h₁ (by decide)
    · rcases h.known with rfl | rfl | rfl
      all_goals exact absurd h₁ (by decide)
    · exact h.allowed h₁
  have he : ¬(selfReported ≠ selfReported ∨ selfReported ≠ policy.evidence_class) := by
    rintro (h₁ | h₁)
    · exact h₁ rfl
    · exact h₁ h.evidence.symm
  rw [policyCommon, hopen, hses, hins, if_neg (by decide), if_neg (not_not.mpr rfl), if_neg (not_not.mpr rfl),
    if_neg ho, if_neg hc, if_neg he]

theorem labPolicyRequest_fresh {r : LabRequest} (h : policy.Admits r.origin r.capability)
    (hid : e.identity = (true, r.session, r.instance)) (horigin : r.origin = originLinux ∨ r.origin = originWindows)
    (hclass : r.evidence_class = selfReported) (hreserved : r.reserved = 0) (hlater : e.last_request < r.request_id)
    (hidle : e.pending = false)
    (hroom : ¬0xFFFFFFFFFFFFFFFF - now < policy.request_timeout_ms.toUInt64) :
    labPolicyRequest e policy r now = ({ e with
      request := r
      last_request := r.request_id
      deadline := now + policy.request_timeout_ms.toUInt64
      pending := true }, .ok) := by
  have hpos : r.request_id ≠ 0 := by
    rintro h0
    rw [h0, UInt32.lt_iff_toNat_lt] at hlater
    exact absurd hlater (Nat.not_lt_zero _)
  have hshape : ¬(r.reserved ≠ 0 ∨ r.request_id = 0) := by
    rintro (h₁ | h₁)
    · exact h₁ hreserved
    · exact hpos h₁
  have hbusy : ¬(e.pending = true ∧ now < e.deadline) := by
    rintro ⟨h₁, -⟩
    rw [hidle] at h₁
    cases h₁
  rw [labPolicyRequest, hclass, policyCommon_ok h hid horigin]
  simp only [if_neg hshape, if_neg (UInt32.not_le.mpr hlater), if_neg hbusy, if_neg hroom]

theorem field_pad {buf : List UInt8} {n : ℕ} (h : buf.length ≤ n) :
    (field buf 0 n).toList = buf ++ List.replicate (n - buf.length) 0 := by
  refine List.ext_getElem (by simp; omega) (fun k hk _ => ?_)
  simp only [field, Vector.getElem_toList, Vector.getElem_ofFn, Nat.zero_add, List.getElem_append]
  split
  · rename_i hin
    exact buf.getD_eq_getElem 0 hin
  · rename_i hout
    rw [List.getElem_replicate, buf.getD_eq_default 0 (by omega)]

theorem zero_of_not_nonzero {buf : List UInt8} (h : nonzero buf = false) : buf = List.replicate buf.length 0 := by
  refine List.eq_replicate_iff.mpr ⟨rfl, fun b hb => ?_⟩
  have hall := List.any_eq_false.mp h b hb
  simpa using hall

theorem nonzero_put64 {v : UInt64} (h : v ≠ 0) : nonzero (put64 v) = true := by
  cases hn : nonzero (put64 v) with
  | true => rfl
  | false =>
    have hzero := zero_of_not_nonzero hn
    rw [length_put64] at hzero
    have hv : get64 (put64 v) 0 = v := get64_eq (List.append_nil _).symm
    rw [hzero] at hv
    exact absurd hv.symm h

theorem measured_observed {r : CapResult} {capability : UInt8} (hr : r.Sound capability)
    (hcap : capability = 1 ∨ capability = 2 ∨ capability = 3) :
    observedData capability (r.data capability) = true := by
  rcases hcap with rfl | rfl | rfl
  · obtain ⟨hsize, hdigest⟩ := hr.file rfl
    have hdata : (r.data 1).toList = put32 r.size ++ r.digest.toList := by
      rw [CapResult.data, if_pos rfl, field_pad (by simp)]
      simp
    have hget : get32 (put32 r.size ++ r.digest.toList) 0 = 4096 := (get32_head _ _).trans hsize
    have hdrop : (put32 r.size ++ r.digest.toList).drop 4 = r.digest.toList := List.drop_left' (length_put32 _)
    rw [observedData, hdata, hget, hdrop, hdigest]
    rfl
  · obtain ⟨hpid, hgen⟩ := hr.proc rfl
    have hdata : (r.data 2).toList = put64 r.process_id ++ (put64 r.generation ++ List.replicate 20 0) := by
      rw [CapResult.data, if_neg (by decide), if_pos rfl, field_pad (by simp)]
      simp
    have htake : (put64 r.process_id ++ (put64 r.generation ++ List.replicate 20 0)).take 8 =
        put64 r.process_id := List.take_left' (length_put64 _)
    have hdrop : (put64 r.process_id ++ (put64 r.generation ++ List.replicate 20 0)).drop 8 =
        put64 r.generation ++ List.replicate 20 0 := List.drop_left' (length_put64 _)
    have hnext : (put64 r.generation ++ List.replicate 20 0).take 8 = put64 r.generation :=
      List.take_left' (length_put64 _)
    have hrest : (put64 r.process_id ++ (put64 r.generation ++ List.replicate 20 0)).drop 16 =
        List.replicate 20 0 := by
      rw [← List.append_assoc]
      exact List.drop_left' (by simp)
    rw [observedData, hdata, htake, hdrop, hnext, hrest, nonzero_put64 hpid, nonzero_put64 hgen]
    rfl
  · have hdata : (r.data 3).toList = List.replicate 36 0 := rfl
    rw [observedData, hdata]
    decide

theorem labPolicyObservation_due {o : LabObservation} (h : policy.Admits o.origin o.capability)
    (hid : e.identity = (true, o.session, o.instance)) (horigin : o.origin = originLinux ∨ o.origin = originWindows)
    (hclass : o.evidence_class = selfReported) (hpending : e.pending = true)
    (hrequest : o.request_id = e.request.request_id) (htime : ¬e.deadline ≤ now)
    (hsame : o.capability = e.request.capability ∧ o.origin = e.request.origin ∧ o.seed = e.request.seed)
    (hsubject : nonzero o.subject.toList = true) (hok : o.ok = 1) (herror : o.error = 0)
    (helapsed : o.elapsed_ms ≤ policy.request_timeout_ms) (hdata : observedData o.capability o.data = true) :
    labPolicyObservation e policy o now = ({ e with pending := false }, .ok) := by
  have hknown : ¬(!e.pending ∨ o.request_id ≠ e.request.request_id) := by
    rintro (h₁ | h₁)
    · rw [hpending] at h₁
      cases h₁
    · exact h₁ hrequest
  have hbody : ¬(o.capability ≠ e.request.capability ∨ o.origin ≠ e.request.origin ∨ o.seed ≠ e.request.seed ∨
      !nonzero o.subject.toList ∨ o.ok ≠ 1 ∨ o.error ≠ 0 ∨ policy.request_timeout_ms < o.elapsed_ms) := by
    rintro (h₁ | h₁ | h₁ | h₁ | h₁ | h₁ | h₁)
    · exact h₁ hsame.1
    · exact h₁ hsame.2.1
    · exact h₁ hsame.2.2
    · rw [hsubject] at h₁
      cases h₁
    · exact h₁ hok
    · exact h₁ herror
    · exact absurd helapsed (UInt32.not_le.mpr h₁)
  rw [labPolicyObservation, hclass, policyCommon_ok h hid horigin]
  simp only [if_neg hknown, if_neg htime, if_neg hbody, hdata, Bool.not_true, Bool.false_eq_true, if_false]

end

end ArenaLab
