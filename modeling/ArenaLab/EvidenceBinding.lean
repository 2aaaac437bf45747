import ArenaLab.AttestRuns

/-! A quote qualification belongs to one binding, one salt and one challenge,
or the run exhibits two different hashed byte strings with the same digest. -/

namespace ArenaLab

/-- `verify` compares the qualification it finds in the quote with the one it
recomputes; `none` where recomputing raises. -/
def freshnessTest (host : Host) (quoted : String) (challenge : Challenge) : Option Bool :=
  (qualification host challenge).map (fun q => quoted == q.text)

def HashedFor (host : Host) (binding : Binding) (salt : HexStr 64) (challenge : Challenge)
    (data : List UInt8) : Prop :=
  boundPreimage binding salt.text = some data ∨ qualificationPreimage host challenge = some data

def SameIssue (host : Host) (b₁ b₂ : Binding) (s₁ s₂ : HexStr 64) (c₁ c₂ : Challenge) : Prop :=
  b₁ = b₂ ∧ s₁ = s₂ ∧ c₁.session_id = c₂.session_id ∧ c₁.created_at = c₂.created_at ∧
    c₁.expires_at = c₂.expires_at ∧ policyDigest host c₁ = policyDigest host c₂ ∧
    c₁.ak_sha256 = c₂.ak_sha256

def HashCollision (host : Host) (hashed : List UInt8 → Prop) : Prop :=
  ∃ x y, hashed x ∧ hashed y ∧ x ≠ y ∧ host.sha256 x = host.sha256 y

theorem HashCollision.of_digest {host : Host} (hashed : List UInt8 → Prop) {x y : List UInt8}
    (hx : hashed x) (hy : hashed y)
    (h : hexdigest (host.sha256 x) = hexdigest (host.sha256 y)) :
    x = y ∨ HashCollision host hashed := by
  by_cases he : x = y
  · exact .inl he
  · exact .inr ⟨x, y, hx, hy, he, hexdigest_inj h⟩

theorem qualification_eq {host : Host} {c : Challenge} {q : HexStr 64}
    (h : qualification host c = some q) :
    ∃ data, qualificationPreimage host c = some data ∧ hexdigest (host.sha256 data) = q :=
  Option.map_eq_some_iff.mp h

theorem same_of_qualification {host : Host} {b₁ b₂ : Binding} {s₁ s₂ : HexStr 64}
    {c₁ c₂ : Challenge} {q : HexStr 64}
    (hn₁ : boundNonce host b₁ s₁.text = some c₁.nonce)
    (hn₂ : boundNonce host b₂ s₂.text = some c₂.nonce)
    (hq₁ : qualification host c₁ = some q) (hq₂ : qualification host c₂ = some q) :
    SameIssue host b₁ b₂ s₁ s₂ c₁ c₂ ∨
      HashCollision host (fun x => HashedFor host b₁ s₁ c₁ x ∨ HashedFor host b₂ s₂ c₂ x) := by
  obtain ⟨x, hx, hxq⟩ := qualification_eq hq₁
  obtain ⟨y, hy, hyq⟩ := qualification_eq hq₂
  rcases HashCollision.of_digest
    (fun x => HashedFor host b₁ s₁ c₁ x ∨ HashedFor host b₂ s₂ c₂ x)
    (.inl (.inr hx)) (.inr (.inr hy)) (hxq.trans hyq.symm) with rfl | hcol
  · obtain ⟨hs, hn, hc, he, hp, ha⟩ := qualificationPreimage_inj hx hy
    obtain ⟨u, hu, hun⟩ := Option.map_eq_some_iff.mp hn₁
    obtain ⟨v, hv, hvn⟩ := Option.map_eq_some_iff.mp hn₂
    rcases HashCollision.of_digest
      (fun x => HashedFor host b₁ s₁ c₁ x ∨ HashedFor host b₂ s₂ c₂ x)
      (.inl (.inl hu)) (.inr (.inl hv)) (hun.trans (hn.trans hvn.symm)) with rfl | hcol
    · obtain ⟨hb, ht⟩ := boundPreimage_inj hu hv
      exact .inl ⟨hb, ht, hs, hc, he, hp, ha⟩
    · exact .inr hcol
  · exact .inr hcol

/-- Equal qualifications of two challenges that bound servers issued come from
the same issue or from a collision, and so does one quote that is fresh for
both. -/
theorem evidence_bound_to_connection {host : Host} {srv₁ srv₂ srv₁' srv₂' : AttestServer}
    {t₁ t₂ t₁' t₂' : Tape} {owner₁ owner₂ : String} {b₁ b₂ : Binding} {s₁ s₂ : HexStr 64}
    {h₁ h₂ : Handed} (hb₁ : srv₁.bound = some (b₁, s₁)) (hb₂ : srv₂.bound = some (b₂, s₂))
    (hi₁ : srv₁.issue host t₁ owner₁ = (srv₁', t₁', .ok h₁))
    (hi₂ : srv₂.issue host t₂ owner₂ = (srv₂', t₂', .ok h₂)) :
    (∀ q, qualification host h₁.challenge = some q → qualification host h₂.challenge = some q →
      SameIssue host b₁ b₂ s₁ s₂ h₁.challenge h₂.challenge ∨
        HashCollision host (fun x =>
          HashedFor host b₁ s₁ h₁.challenge x ∨ HashedFor host b₂ s₂ h₂.challenge x)) ∧
    (∀ quoted, freshnessTest host quoted h₁.challenge = some true →
      freshnessTest host quoted h₂.challenge = some true →
      SameIssue host b₁ b₂ s₁ s₂ h₁.challenge h₂.challenge ∨
        HashCollision host (fun x =>
          HashedFor host b₁ s₁ h₁.challenge x ∨ HashedFor host b₂ s₂ h₂.challenge x)) := by
  have hnonce : ∀ {srv srv' : AttestServer} {t t' : Tape} {owner : String} {b : Binding}
      {s : HexStr 64} {h : Handed}, srv.bound = some (b, s) →
      srv.issue host t owner = (srv', t', .ok h) →
      boundNonce host b s.text = some h.challenge.nonce := by
    intro srv srv' t t' owner b s h hb hi
    obtain ⟨_, _, _, ⟨_, _, e, he⟩ | ⟨session, _, _, _, _, _, hn, he⟩⟩ := issue_cases hi
    · cases he
    · rw [Except.ok.inj he]
      exact hn b s hb
  have hmain := fun q => same_of_qualification (q := q) (hnonce hb₁ hi₁) (hnonce hb₂ hi₂)
  refine ⟨hmain, ?_⟩
  intro quoted hf₁ hf₂
  obtain ⟨q₁, hq₁, he₁⟩ := Option.map_eq_some_iff.mp hf₁
  obtain ⟨q₂, hq₂, he₂⟩ := Option.map_eq_some_iff.mp hf₂
  have heq : q₁ = q₂ := HexStr.ext ((beq_iff_eq.mp he₁).symm.trans (beq_iff_eq.mp he₂))
  exact hmain q₁ hq₁ (heq ▸ hq₂)

def sampleBinding (peer : PeerId) (connection : ℕ) : Binding where
  instance_id := countingHost.tokenHex 0 16
  admission_id := countingHost.tokenHex connection 16
  game_session_id := countingHost.tokenHex 0 16
  peer_id := peer
  connection_id := countingHost.tokenHex connection 32
  controller := countingHost.tokenHex 1 32
  attestor := countingHost.tokenHex 2 32

def sampleBound (peer : PeerId) (connection : ℕ) : AttestServer :=
  ⟨⟨none, none, countingHost.tokenHex 0 32⟩, attestPolicy, 10000, default_ttl_range, 1,
    some (sampleBinding peer connection, countingHost.tokenHex (connection + 1) 32), [], ∅⟩

/-- The qualification of the challenge that the sample server issues first. -/
def sampleQualification (peer : PeerId) (connection : ℕ) : Option (HexStr 64) :=
  ((sampleBound peer connection).issue countingHost {} "a").2.2.toOption.bind
    (fun h => qualification countingHost h.challenge)

/-- The digest of the sample host keeps the first bytes only: one quote is fresh for the
challenges of two connections, and the theorem finds the collision. -/
theorem evidence_bound_to_connection_sample : ∃ (h₁ h₂ : Handed) (q : HexStr 64),
    qualification countingHost h₁.challenge = some q ∧ qualification countingHost h₂.challenge = some q ∧
    freshnessTest countingHost q.text h₁.challenge = some true ∧
    freshnessTest countingHost q.text h₂.challenge = some true ∧
    HashCollision countingHost (fun x =>
      HashedFor countingHost (sampleBinding ⟨2, by decide⟩ 3) (countingHost.tokenHex 4 32) h₁.challenge x ∨
      HashedFor countingHost (sampleBinding ⟨3, by decide⟩ 5) (countingHost.tokenHex 6 32) h₂.challenge x) := by
  obtain ⟨_, _, h₁, hi₁⟩ := @issue_new countingHost (sampleBound ⟨2, by decide⟩ 3) {} "a" rfl (by decide)
  obtain ⟨_, _, h₂, hi₂⟩ := @issue_new countingHost (sampleBound ⟨3, by decide⟩ 5) {} "a" rfl (by decide)
  have hboth : (sampleQualification ⟨2, by decide⟩ 3).any
      (fun q => sampleQualification ⟨3, by decide⟩ 5 = some q) = true := by decide +kernel
  obtain ⟨q, hq, hsame⟩ := (Option.any_eq_true ..).mp hboth
  replace hsame := of_decide_eq_true hsame
  have hq₁ : qualification countingHost h₁.challenge = some q := by
    rw [sampleQualification, hi₁] at hq
    exact hq
  have hq₂ : qualification countingHost h₂.challenge = some q := by
    rw [sampleQualification, hi₂] at hsame
    exact hsame
  have hf₁ : freshnessTest countingHost q.text h₁.challenge = some true := by
    rw [freshnessTest, hq₁, Option.map_some, beq_self_eq_true]
  have hf₂ : freshnessTest countingHost q.text h₂.challenge = some true := by
    rw [freshnessTest, hq₂, Option.map_some, beq_self_eq_true]
  refine ⟨h₁, h₂, q, hq₁, hq₂, hf₁, hf₂, ?_⟩
  rcases (evidence_bound_to_connection rfl rfl hi₁ hi₂).2 q.text hf₁ hf₂ with ⟨hpeers, -⟩ | hcollision
  · exact absurd (congrArg Binding.peer_id hpeers) (by decide)
  · exact hcollision

end ArenaLab
