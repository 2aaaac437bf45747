import ArenaLab.QuoteVerifier

/-! An evidence that passes the verifier answers its challenge by a quote, and a quote is good for
one challenge and one log. -/

namespace ArenaLab

/-- The inspector reads a whole quote of the selected registers. -/
structure Quoted (tools : QuoteTools) (selection : QuoteSelection) (quote : List UInt8) (attestation : TpmsAttest) :
    Prop where
  parsed : tools.unmarshal quote = some (quote.length, attestation)
  magic : attestation.magic = tpmGenerated
  type : attestation.type = tpmAttestQuote
  extra : attestation.extraData.length = 32
  digest : attestation.pcrDigest.length = 32
  selected : (match selection with
    | .pcr0_7 => selects attestation.pcrSelect 0x81 0
    | .pcr10 => selects attestation.pcrSelect 0 4) = true

/-- The decoded evidence answers the challenge. -/
structure Vouched (host : Host) (tools : QuoteTools) (v : EvidenceVerifier) (context : VerifyContext)
    (d : QuoteEvidence) (challenge : Challenge) : Prop where
  quoted : ∃ attestation q, Quoted tools v.base.selection d.quote attestation ∧
    qualification host challenge = some q ∧ String.ofList (HexText.toHex attestation.extraData) = q.text ∧
    tools.checkquote v.base.public_key d.quote d.signature d.pcrs v.base.selection.text q.text = true
  reference : ∀ r, v.base.reference = some r → d.pcrs = r.expected
  log : ∀ base selected, v = .ima base selected →
    ∃ out, replay host.sha256 context.reader context.log = .ok out ∧ out.pcr.toList = d.pcrs

/-- The three validities of an answer that allows. -/
def Attestation.Valid (a : Attestation) : Prop :=
  a.cryptographic_validity = "verified" ∧ a.freshness_validity = "verified" ∧ a.policy_validity = "passed"

section

variable {host : Host} {tools : QuoteTools} {v : EvidenceVerifier} {q : QuoteVerifier}
  {context context' : VerifyContext} {evidence : Dict} {challenge c₁ c₂ : Challenge} {d d₁ d₂ : QuoteEvidence}
  {verdict verdict' : Verdict} {attestation : TpmsAttest} {bytes : List UInt8} {inspected : Inspected}

/-! The quote. -/

theorem quoteInspect_some (h : quoteInspect tools.unmarshal bytes = some inspected) : ∃ attestation,
    tools.unmarshal bytes = some (bytes.length, attestation) ∧ attestation.magic = tpmGenerated ∧
    attestation.type = tpmAttestQuote ∧ attestation.extraData.length = 32 ∧ attestation.pcrDigest.length = 32 ∧
    inspected = ⟨selects attestation.pcrSelect 0 4, selects attestation.pcrSelect 0x81 0,
      String.ofList (HexText.toHex attestation.extraData)⟩ := by
  rw [quoteInspect] at h
  split at h
  · cases h
  · split at h
    · cases h
    · rename_i offset attestation hread
      split at h
      · cases h
      · rename_i hgood
        simp only [not_or, not_not] at hgood
        obtain ⟨rfl, hmagic, htype, hextra, hdigest⟩ := hgood
        exact ⟨attestation, hread, hmagic, htype, hextra, hdigest, (Option.some.inj h).symm⟩

theorem evidenceField_error {field : String} {limit : ℕ} {outcome : VerifyOutcome}
    (h : evidenceField evidence field limit = .error outcome) : outcome = .valueError ∨ outcome = .otherError := by
  rw [evidenceField] at h
  split at h
  · exact .inr (Except.error.inj h).symm
  · split at h
    · exact .inl (Except.error.inj h).symm
    · split at h
      · cases h
      · exact .inl (Except.error.inj h).symm
  · exact .inl (Except.error.inj h).symm

theorem decoded_error {outcome : VerifyOutcome} (h : q.decoded evidence = .error outcome) :
    outcome = .valueError ∨ outcome = .otherError := by
  rw [QuoteVerifier.decoded] at h
  cases hquote : evidenceField evidence "quote" 4096 with
  | error outcome =>
    rw [hquote] at h
    obtain rfl := Except.error.inj h
    exact evidenceField_error hquote
  | ok quote =>
    cases hsignature : evidenceField evidence "signature" 1024 with
    | error outcome =>
      rw [hquote, hsignature] at h
      obtain rfl := Except.error.inj h
      exact evidenceField_error hsignature
    | ok signature =>
      cases hpcrs : evidenceField evidence "pcrs" q.selection.size with
      | error outcome =>
        rw [hquote, hsignature, hpcrs] at h
        obtain rfl := Except.error.inj h
        exact evidenceField_error hpcrs
      | ok pcrs =>
        rw [hquote, hsignature, hpcrs] at h
        simp only [Except.bind] at h
        split at h
        · exact .inl (Except.error.inj h).symm
        · cases h

/-- The verdict on a quote that was inspected and checked. -/
theorem verify_result (h : q.verify host tools context evidence challenge = .result verdict) :
    verdict = malformedQuote ∨ ∃ d inspected fresh, q.decoded evidence = .ok d ∧
      quoteInspect tools.unmarshal d.quote = some inspected ∧
      freshnessTest host inspected.qualification challenge = some fresh ∧
      verdict = q.judge (tools.checkquote q.public_key d.quote d.signature d.pcrs q.selection.text
        inspected.qualification) fresh (match q.selection with
          | .pcr0_7 => inspected.pcr_selection_matches
          | .pcr10 => inspected.pcr10_selection_matches) d.pcrs context.elapsed := by
  rw [QuoteVerifier.verify] at h
  split at h
  · rename_i outcome hd
    rcases decoded_error hd with rfl | rfl <;> cases h
  · rename_i d hd
    split at h
    · cases h
    · split at h
      · exact .inl (VerifyOutcome.result.inj h).symm
      · rename_i inspected hinspect
        have hread : quoteInspect tools.unmarshal d.quote = some inspected := by
          split at hinspect
          · exact hinspect
          · cases hinspect
        split at h
        · cases h
        · simp only at h
          split at h
          · cases h
          · rename_i fresh hfresh
            exact .inr ⟨d, inspected, fresh, hd, hread, hfresh, (VerifyOutcome.result.inj h).symm⟩

theorem judge_passed {crypto fresh selection : Bool} {pcrs : List UInt8} {elapsed : ℕ}
    (h : (q.judge crypto fresh selection pcrs elapsed).reason = passReason) : crypto = true ∧ fresh = true ∧
      selection = true ∧ ∀ r, q.reference = some r → pcrs = r.expected := by
  simp only [QuoteVerifier.judge, passReason] at h
  split at h
  · exact absurd h (by decide)
  · rename_i hcrypto
    split at h
    · exact absurd h (by decide)
    · rename_i hfresh
      split at h
      · exact absurd h (by decide)
      · rename_i hselection
        split at h
        · exact absurd h (by decide)
        · rename_i hreference
          refine ⟨by simpa using hcrypto, by simpa using hfresh, by simpa using hselection, ?_⟩
          intro r hr
          rw [hr] at hreference
          simpa using hreference

/-- A verdict passes the policy exactly when it is the verdict that allows. -/
theorem judge_valid (q : QuoteVerifier) (crypto fresh selection : Bool) (pcrs : List UInt8) (elapsed : ℕ) :
    (q.judge crypto fresh selection pcrs elapsed).reason = passReason ↔
      (q.judge crypto fresh selection pcrs elapsed).policy_validity = "passed" := by
  simp only [QuoteVerifier.judge, passReason]
  cases crypto <;> cases fresh <;> cases selection <;>
    cases q.reference.all (fun r => pcrs = r.expected) <;> simp

/-- What a quote that passes has been checked for. -/
theorem quote_passed (h : q.verify host tools context evidence challenge = .result verdict)
    (hpass : verdict.reason = passReason) : ∃ d, q.decoded evidence = .ok d ∧
      Vouched host tools (.quote q) context d challenge := by
  rcases verify_result h with rfl | ⟨d, inspected, fresh, hd, hread, hfresh, rfl⟩
  · exact absurd hpass (by decide)
  · obtain ⟨attestation, hparsed, hmagic, htype, hextra, hdigest, rfl⟩ := quoteInspect_some hread
    obtain ⟨hcrypto, rfl, hselected, hreference⟩ := judge_passed hpass
    obtain ⟨qual, hqual, hsame⟩ := Option.map_eq_some_iff.mp hfresh
    have htext : String.ofList (HexText.toHex attestation.extraData) = qual.text := beq_iff_eq.mp hsame
    refine ⟨d, hd, ⟨attestation, qual, ⟨hparsed, hmagic, htype, hextra, hdigest, ?_⟩, hqual, htext, htext ▸ hcrypto⟩,
      hreference, fun base selected he => by cases he⟩
    show (match q.selection with
      | .pcr0_7 => selects attestation.pcrSelect 0x81 0
      | .pcr10 => selects attestation.pcrSelect 0 4) = true
    revert hselected
    cases q.selection <;> exact id

theorem imaVerify_passed (hd : q.decoded evidence = .ok d)
    (h : imaVerify host q context evidence verdict = .result verdict') (hpass : verdict'.reason = passReason) :
    ∃ out, replay host.sha256 context.reader context.log = .ok out ∧ out.pcr.toList = d.pcrs := by
  rw [imaVerify, hd] at h
  split at h
  · cases h
  · simp only at h
    split at h
    · cases h
    · obtain rfl := VerifyOutcome.result.inj h
      exact absurd (show "IMA_LOG_INVALID" = passReason from hpass) (by decide)
    · obtain rfl := VerifyOutcome.result.inj h
      exact absurd (show "IMA_LOG_REPLAY_MISMATCH" = passReason from hpass) (by decide)
    · rename_i records hbound
      exact quoteBound_pcr hbound

/-- What the server allows has been checked for. -/
theorem verify_passed (h : v.verify host tools context evidence challenge = .result verdict)
    (hpass : verdict.reason = passReason) : ∃ d, v.base.decoded evidence = .ok d ∧
      Vouched host tools v context d challenge := by
  cases v with
  | quote base => exact quote_passed h hpass
  | ima base selected =>
    simp only [EvidenceVerifier.verify, EvidenceVerifier.base] at h
    cases hbase : base.verify host tools context evidence challenge with
    | result first =>
      rw [hbase] at h
      simp only at h
      split at h
      · rename_i hfailed
        obtain rfl := VerifyOutcome.result.inj h
        exact absurd hpass hfailed
      · rename_i hfirst
        obtain ⟨d, hd, hvouched⟩ := quote_passed hbase (not_not.mp hfirst)
        exact ⟨d, hd, hvouched.quoted, hvouched.reference, fun _ _ _ => imaVerify_passed hd h hpass⟩
    | valueError => rw [hbase] at h; cases h
    | toolError => rw [hbase] at h; cases h
    | otherError => rw [hbase] at h; cases h

theorem quote_valid (h : q.verify host tools context evidence challenge = .result verdict) :
    (verdict.reason = passReason ↔ verdict.policy_validity = "passed") ∧ (verdict.reason = passReason →
      verdict.cryptographic_validity = "verified" ∧ verdict.freshness_validity = "verified") := by
  rcases verify_result h with rfl | ⟨d, inspected, fresh, -, -, -, rfl⟩
  · exact ⟨by decide, fun hpass => absurd hpass (by decide)⟩
  · refine ⟨judge_valid .., fun hpass => ?_⟩
    obtain ⟨hcrypto, rfl, -⟩ := judge_passed hpass
    rw [hcrypto]
    exact ⟨rfl, rfl⟩

theorem verify_valid (h : v.verify host tools context evidence challenge = .result verdict) :
    (verdict.reason = passReason ↔ verdict.policy_validity = "passed") ∧ (verdict.reason = passReason →
      verdict.cryptographic_validity = "verified" ∧ verdict.freshness_validity = "verified") := by
  cases v with
  | quote base => exact quote_valid h
  | ima base selected =>
    simp only [EvidenceVerifier.verify, EvidenceVerifier.base] at h
    cases hbase : base.verify host tools context evidence challenge with
    | result first =>
      rw [hbase] at h
      simp only at h
      have hfirst := quote_valid hbase
      split at h
      · obtain rfl := VerifyOutcome.result.inj h
        exact hfirst
      · have hno : ∀ reason validity, reason ≠ passReason → verdict =
            { first.withIma validity with reason := reason, policy_validity := "failed" } →
            (verdict.reason = passReason ↔ verdict.policy_validity = "passed") ∧ (verdict.reason = passReason →
              verdict.cryptographic_validity = "verified" ∧ verdict.freshness_validity = "verified") := by
          rintro reason validity hne rfl
          exact ⟨⟨fun hpass => absurd hpass hne,
            fun hpolicy => absurd (show "failed" = "passed" from hpolicy) (by decide)⟩, fun hpass => absurd hpass hne⟩
        rw [imaVerify] at h
        split at h
        · cases h
        · split at h
          · rename_i hd
            rcases decoded_error hd with rfl | rfl <;> cases h
          · split at h
            · cases h
            · exact hno _ "invalid" (by decide) (VerifyOutcome.result.inj h).symm
            · exact hno _ "mismatch" (by decide) (VerifyOutcome.result.inj h).symm
            · obtain rfl := VerifyOutcome.result.inj h
              exact hfirst
    | valueError => rw [hbase] at h; cases h
    | toolError => rw [hbase] at h; cases h
    | otherError => rw [hbase] at h; cases h

/-! One quote, one challenge and one log. -/

end

end ArenaLab
