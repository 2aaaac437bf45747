import ArenaLab.OneUseChallenges
import ArenaLab.QuoteVouched

/-! An evidence that the server allows, in any run, is a quote over the very challenge that was
handed out. -/

namespace ArenaLab

def AttestEvent.attestation : AttestEvent → Option Attestation
  | .submitted _ _ (.returned attestation) => some attestation
  | .verified _ _ _ _ reply => reply
  | _ => none

section

variable {host : Host} {tools : QuoteTools} {v : EvidenceVerifier} {context : VerifyContext} {evidence : Dict}
  {challenge c₁ c₂ : Challenge} {d d₁ d₂ : QuoteEvidence} {verdict : Verdict} {s s' : AttestState} {e : AttestEvent}

/-- An answer that has not been through the verifier. -/
def Attestation.Unverified (a : Attestation) : Prop := a.decision = .deny ∧ a.policy_validity = "not_evaluated"

theorem reserve_unverified {srv srv' : AttestServer} {t t' : Tape} {owner : String} {message : Dict}
    {reply : SubmitReply} (h : srv.reserve host t owner message = (srv', t', reply)) :
    (∀ a, reply = .returned a → a.Unverified) ∧ ∀ x now, reply = .reserved x now → x.base.Unverified := by
  have hreturned : ∀ sid reasons, (∀ a, SubmitReply.returned { srv.base sid with reasons := reasons } = .returned a →
      a.Unverified) ∧ ∀ x now, SubmitReply.returned { srv.base sid with reasons := reasons } = .reserved x now →
      x.base.Unverified := by
    intro sid reasons
    refine ⟨fun a ha => ?_, fun x now hx => by cases hx⟩
    rw [← SubmitReply.returned.inj ha]
    exact ⟨rfl, rfl⟩
  have hrefused : ∀ error, (∀ a, SubmitReply.refused error = .returned a → a.Unverified) ∧
      ∀ x now, SubmitReply.refused error = .reserved x now → x.base.Unverified :=
    fun error => ⟨fun a ha => (by cases ha), fun x now hx => by cases hx⟩
  simp only [AttestServer.reserve] at h
  split at h
  · obtain ⟨-, -, rfl⟩ := h
    exact hrefused _
  · split at h
    · rename_i sid _
      split at h
      · obtain ⟨-, -, rfl⟩ := h
        exact hrefused _
      · split at h
        · obtain ⟨-, -, rfl⟩ := h
          exact hreturned sid _
        · split at h
          · obtain ⟨-, -, rfl⟩ := h
            exact hreturned sid _
          · split at h
            · obtain ⟨-, -, rfl⟩ := h
              exact hreturned sid _
            · split at h
              · obtain ⟨-, -, rfl⟩ := h
                exact hreturned sid _
              · obtain ⟨-, -, rfl⟩ := h
                refine ⟨fun a ha => (by cases ha), fun x now hx => ?_⟩
                rw [← (SubmitReply.reserved.inj hx).1]
                exact ⟨rfl, rfl⟩
    · obtain ⟨-, -, rfl⟩ := h
      exact hrefused _

theorem Attestation.Unverified.valid {a : Attestation} (h : a.Unverified) : a.decision = .allow ↔ a.Valid := by
  obtain ⟨hdecision, hpolicy⟩ := h
  constructor
  · intro ha
    rw [hdecision] at ha
    cases ha
  · rintro ⟨-, -, hpassed⟩
    rw [hpolicy] at hpassed
    exact absurd hpassed (by decide)

theorem conclude_valid {t t' : Tape} {base a : Attestation} {deadline : ℚ} {message : Dict} (hbase : base.Unverified)
    (h : conclude host t base deadline (v.verify host tools context message challenge) = (t', some a)) :
    a.decision = .allow ↔ a.Valid := by
  have hunverified : ∀ reasons, ({ base with reasons := reasons } : Attestation).Unverified := fun _ => hbase
  cases hout : v.verify host tools context message challenge with
  | valueError =>
    rw [hout] at h
    obtain rfl := Option.some.inj (Prod.mk.inj h).2
    exact (hunverified _).valid
  | toolError =>
    rw [hout] at h
    obtain rfl := Option.some.inj (Prod.mk.inj h).2
    constructor
    · intro ha
      cases ha
    · rintro ⟨-, -, hpassed⟩
      exact absurd (hbase.2.symm.trans hpassed) (by decide)
  | otherError =>
    rw [hout] at h
    cases (Prod.mk.inj h).2
  | result verdict =>
    rw [hout] at h
    obtain ⟨hpolicy, hvalid⟩ := verify_valid hout
    simp only [conclude] at h
    split at h
    · obtain rfl := Option.some.inj (Prod.mk.inj h).2
      have hd : (Attestation.settle { base.update verdict with
          freshness_validity := "failed", policy_validity := "not_evaluated" } "CHALLENGE_EXPIRED").Unverified :=
        ⟨by simp [Attestation.settle, passReason], rfl⟩
      exact hd.valid
    · obtain rfl := Option.some.inj (Prod.mk.inj h).2
      by_cases hpass : verdict.reason = passReason
      · exact iff_of_true (if_pos hpass) ⟨(hvalid hpass).1, (hvalid hpass).2, hpolicy.mp hpass⟩
      · refine iff_of_false ?_ (fun hv => hpass (hpolicy.mpr hv.2.2))
        intro ha
        rw [Attestation.settle] at ha
        simp only [if_neg hpass] at ha
        cases ha

/-- The verification that has ended with the event, and what it has found. -/
def VouchedBy (host : Host) (tools : QuoteTools) (v : EvidenceVerifier) (e : AttestEvent) (context : VerifyContext)
    (challenge : Challenge) (d : QuoteEvidence) : Prop :=
  ∃ x verdict now a, e = .verified x challenge (.result verdict) now (some a) ∧
    v.verify host tools context x.message challenge = .result verdict ∧ v.base.decoded x.message = .ok d ∧
    Vouched host tools v context d challenge

structure QuoteInv (host : Host) (tools : QuoteTools) (v : EvidenceVerifier) (τ : List AttestEvent) (s : AttestState) :
    Prop where
  bases : ∀ x ∈ s.inflight, x.base.Unverified
  answers : ∀ e ∈ τ, ∀ a, e.attestation = some a → (a.decision = .allow ↔ a.Valid)
  vouched : ∀ e ∈ τ, e.decision = some .allow → ∃ context challenge d, VouchedBy host tools v e context challenge d

theorem QuoteInv.step {τ : List AttestEvent} (h : QuoteInv host tools v τ s) (hs : QuoteStep host tools v s e s') :
    QuoteInv host tools v (τ ++ [e]) s' := by
  have hadd : (∀ x ∈ s'.inflight, x.base.Unverified) →
      (∀ a, e.attestation = some a → (a.decision = .allow ↔ a.Valid)) →
      (e.decision = some .allow → ∃ context challenge d, VouchedBy host tools v e context challenge d) →
      QuoteInv host tools v (τ ++ [e]) s' := by
    intro hbases hanswer hvouched
    refine ⟨hbases, ?_, ?_⟩
    · intro e' he'
      rcases List.mem_append.mp he' with he' | he'
      · exact h.answers e' he'
      · rw [List.mem_singleton.mp he']
        exact hanswer
    · intro e' he'
      rcases List.mem_append.mp he' with he' | he'
      · exact h.vouched e' he'
      · rw [List.mem_singleton.mp he']
        exact hvouched
  obtain ⟨action, hn⟩ := hs
  cases action with
  | issue owner =>
    obtain ⟨rfl, rfl⟩ := Prod.mk.inj (Option.some.inj hn)
    exact hadd h.bases (fun a ha => by cases ha) (fun ha => by cases ha)
  | submit owner message =>
    generalize hr : s.server.reserve host s.tape owner message = result at hn
    obtain ⟨srv, t, reply⟩ := result
    simp only [quoteNext, AttestState.next, hr] at hn
    obtain ⟨rfl, rfl⟩ := Prod.mk.inj (Option.some.inj hn)
    obtain ⟨hreturned, hreserved⟩ := reserve_unverified hr
    refine hadd ?_ ?_ ?_
    · intro x hx
      cases reply with
      | refused error => exact h.bases x hx
      | returned a => exact h.bases x hx
      | reserved reservation now =>
        rcases List.mem_append.mp hx with hx | hx
        · exact h.bases x hx
        · rw [List.mem_singleton.mp hx]
          exact hreserved _ _ rfl
    · intro a ha
      cases reply with
      | returned a' =>
        obtain rfl := Option.some.inj ha
        exact (hreturned _ rfl).valid
      | refused error => cases ha
      | reserved reservation now => cases ha
    · intro ha
      cases reply with
      | returned a' =>
        have hdeny := (hreturned _ rfl).1
        have hallow : a'.decision = .allow := Option.some.inj ha
        rw [hdeny] at hallow
        cases hallow
      | refused error => cases ha
      | reserved reservation now => cases ha
  | verify place context =>
    obtain ⟨x, hx, hn⟩ := Option.bind_eq_some_iff.mp hn
    obtain ⟨session, hsession, hn⟩ := Option.bind_eq_some_iff.mp hn
    simp only [AttestState.next, hx, hsession, Option.bind_eq_bind, Option.bind_some] at hn
    generalize hc : conclude host s.tape x.base session.deadline
      (v.verify host tools context x.message session.challenge) = result at hn
    obtain ⟨t, reply⟩ := result
    obtain ⟨rfl, rfl⟩ := Prod.mk.inj (Option.some.inj hn)
    have hbase := h.bases x (List.mem_of_getElem? hx)
    refine hadd (fun y hy => h.bases y (List.mem_of_mem_eraseIdx hy)) ?_ ?_
    · intro a ha
      have hreply : reply = some a := ha
      rw [hreply] at hc
      exact conclude_valid hbase hc
    · intro ha
      cases reply with
      | none => cases ha
      | some a =>
        obtain ⟨-, verdict, hout, hpass⟩ := conclude_allow hbase.1 hc (Option.some.inj ha)
        obtain ⟨d, hd, hv⟩ := verify_passed hout hpass
        exact ⟨context, session.challenge, d, x, verdict, _, a, by rw [hout], hout, hd, hv⟩

end

end ArenaLab
