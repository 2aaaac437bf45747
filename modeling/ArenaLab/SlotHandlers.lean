import ArenaLab.LabServer

/-! What the handlers of a datagram can do to the slot they are given. -/

namespace ArenaLab

def Kept (c c' : Client) : Prop := ∃ k, c' = { c with nrst := k }

/-- The session ended, or its window, evidence and activity moved on. -/
def Moved (c c' : Client) : Prop :=
  c' = .zero ∨ ∃ sequence evidence last_rx, evidence.identity = c.evidence.identity ∧
    Kept { c with sequence := sequence, evidence := evidence, last_rx := last_rx } c'

def sessionKinds : List Kind := [.ping, .bye, .rst, .request, .observation]

/-- A datagram of such a kind, of its length, that names this session. -/
def Carries (d : List UInt8) (session : Bytes 16) : Prop :=
  ∃ kind ∈ sessionKinds, d[2]? = some kind.code ∧ d.length = 16 + kind.payloadLen ∧
    field d 16 16 = session

theorem Kept.refl (c : Client) : Kept c c := ⟨c.nrst, rfl⟩

theorem Kept.trans {a b c : Client} (h : Kept a b) (h' : Kept b c) : Kept a c := by
  obtain ⟨k, rfl⟩ := h
  obtain ⟨k', rfl⟩ := h'
  exact ⟨k', rfl⟩

section

variable {host : LabHost} {net : Net} {c : Client}

theorem sendRst_client {reason : Reason} {msg : String} :
    (sendRst host net c reason msg).2 = { c with nrst := c.nrst + 1 } := by
  simp only [sendRst]
  split <;> rfl

theorem sendRst_kept {reason : Reason} {msg : String} : Kept c (sendRst host net c reason msg).2 :=
  ⟨_, sendRst_client⟩

theorem sendDatagram_acks {addr : SockAddr} {buf : List UInt8} {net' : Net} {ok : Bool}
    (h : sendDatagram host net addr buf = (net', ok)) : net'.n_acks = net.n_acks := by
  simp only [sendDatagram] at h
  split at h <;> obtain ⟨rfl, _⟩ := Prod.mk.inj h <;> rfl

theorem sendRst_acks {reason : Reason} {msg : String} :
    (sendRst host net c reason msg).1.n_acks = net.n_acks := by
  simp only [sendRst]
  split <;> rename_i hs
  · have hh := sendDatagram_acks hs
    exact hh
  · exact sendDatagram_acks hs

theorem sendHelloAck_acks {snonce : Bytes 16} {net' : Net} {ok : Bool}
    (h : sendHelloAck host net c snonce = (net', ok)) :
    net'.n_acks = if ok then net.n_acks + 1 else net.n_acks := by
  simp only [sendHelloAck] at h
  split at h <;> rename_i hs <;> obtain ⟨rfl, rfl⟩ := Prod.mk.inj h <;>
    simp [sendDatagram_acks hs]

theorem field_drop (buf : List UInt8) (k off n : ℕ) :
    field (buf.drop k) off n = field buf (k + off) n := by
  simp [field, List.getD_eq_getElem?_getD, Nat.add_assoc]

theorem parse_code {kind : Kind} {pay : List UInt8} (h : pay.length = kind.payloadLen) :
    labPayloadParse pay kind.code = some (kind.read pay) := by
  simp [labPayloadParse, Kind.ofCode_code, h]

theorem doPing_cases {h : LabHdr} {pay : List UInt8} :
    Kept c (doPing host net c h pay).2 ∨
      field pay 0 16 = c.session ∧ Moved c (doPing host net c h pay).2 := by
  simp only [doPing]
  split
  · exact .inl sendRst_kept
  · split
    · exact .inl sendRst_kept
    · rename_i h₁ h₂
      have hlen : pay.length = Kind.ping.payloadLen := show pay.length = 40 by omega
      rw [parse_code hlen]
      simp only [Kind.read]
      split
      · exact .inl sendRst_kept
      · rename_i hs
        refine .inr ⟨not_not.mp hs, ?_⟩
        split
        · split
          · exact .inl rfl
          · exact .inr ⟨_, c.evidence, c.last_rx, rfl, sendRst_kept⟩
        · exact .inr ⟨_, c.evidence, _, rfl, Kept.refl _⟩

theorem doBye_cases {pay : List UInt8} :
    Kept c (doBye host net c pay).2 ∨
      field pay 0 16 = c.session ∧ Moved c (doBye host net c pay).2 := by
  simp only [doBye]
  split
  · exact .inl sendRst_kept
  · split
    · exact .inl sendRst_kept
    · rename_i hs
      exact .inr ⟨not_not.mp hs, .inl rfl⟩

theorem doRst_cases {pay : List UInt8} :
    Kept c (doRst host net c pay).2 ∨
      field pay 0 16 = c.session ∧ Moved c (doRst host net c pay).2 := by
  simp only [doRst]
  split
  · exact .inl sendRst_kept
  · rename_i hlen
    have hrst : pay.length = Kind.rst.payloadLen := not_not.mp hlen
    rw [parse_code hrst]
    simp only [Kind.read]
    split
    · exact .inl sendRst_kept
    · rename_i hs
      split
      · exact .inl sendRst_kept
      · exact .inr ⟨not_not.mp hs, .inl rfl⟩

theorem answerEvidence_refused {h : LabHdr} {request_id : UInt32} {next : EvidenceState}
    {verdict : Reason} (hok : verdict ≠ .ok) (hclosing : verdict ≠ .closing) :
    (answerEvidence host net c h request_id next verdict).2 = c := by
  simp [answerEvidence, hok, hclosing]

theorem answerEvidence_moved {h : LabHdr} {request_id : UInt32} {next : EvidenceState}
    {verdict : Reason} (hid : next.identity = c.evidence.identity) :
    Moved c (answerEvidence host net c h request_id next verdict).2 := by
  simp only [answerEvidence]
  generalize (if verdict = Reason.ok then c.sequence.accept h.seq else (c.sequence, verdict)) = result
  obtain ⟨sequence, reason⟩ := result
  by_cases hok : reason = .ok
  · simp only [hok, if_true]
    exact .inr ⟨sequence, next, _, hid, Kept.refl _⟩
  · simp only [hok, if_false]
    split
    · exact .inl rfl
    · exact .inr ⟨c.sequence, c.evidence, c.last_rx, rfl, Kept.refl _⟩

theorem judge_read {policy : LabPolicy} {kind : Kind} {pay : List UInt8} {now : UInt64}
    (hev : kind = .request ∨ kind = .observation) :
    ∃ request_id next verdict,
      judge c.evidence policy (kind.read pay) now = some (request_id, next, verdict) ∧
      next.identity = c.evidence.identity ∧
      (c.evidence.isOpen = true → c.evidence.session ≠ field pay 0 16 → verdict = .badSession) := by
  rcases hev with rfl | rfl
  · obtain ⟨r, hr, hs⟩ : ∃ r, Kind.request.read pay = .request r ∧ r.session = field pay 0 16 :=
      ⟨_, rfl, rfl⟩
    rw [hr, ← hs]
    exact ⟨r.request_id, _, _, rfl, labPolicyRequest_identity c.evidence policy r now,
      fun hopen hne => congrArg Prod.snd (labPolicyRequest_foreign hopen hne)⟩
  · obtain ⟨o, ho, hs⟩ : ∃ o, Kind.observation.read pay = .observation o ∧
        o.session = field pay 0 16 := ⟨_, rfl, rfl⟩
    rw [ho, ← hs]
    exact ⟨o.request_id, _, _, rfl, labPolicyObservation_identity c.evidence policy o now,
      fun hopen hne => congrArg Prod.snd (labPolicyObservation_foreign hopen hne)⟩

theorem doEvidence_cases {policy : LabPolicy} {h : LabHdr} {pay : List UInt8} {kind : Kind}
    (hopen : c.evidence.isOpen = true) (hses : c.evidence.session = c.session)
    (hkind : h.kind = kind.code) (hev : kind = .request ∨ kind = .observation)
    (hlen : pay.length = kind.payloadLen) :
    Kept c (doEvidence host policy net c h pay).2 ∨
      field pay 0 16 = c.session ∧ Moved c (doEvidence host policy net c h pay).2 := by
  have hparse : labPayloadParse pay h.kind = some (kind.read pay) := by
    rw [hkind]
    exact parse_code hlen
  obtain ⟨request_id, next, verdict, hj, hid, hforeign⟩ :=
    @judge_read c policy kind pay (host.now net.reads) hev
  simp only [doEvidence, hparse, Option.bind_some, hj]
  by_cases hs : field pay 0 16 = c.session
  · exact .inr ⟨hs, answerEvidence_moved hid⟩
  · have hne : c.evidence.session ≠ field pay 0 16 := by
      rw [hses]
      exact Ne.symm hs
    have hv : verdict = .badSession := hforeign hopen hne
    subst hv
    rw [answerEvidence_refused (by decide) (by decide)]
    exact .inl (Kept.refl c)

theorem labHdrParse_some {buf : List UInt8} {h : LabHdr} (hp : labHdrParse buf = some h) :
    16 ≤ buf.length ∧ buf[2]? = some h.kind := by
  simp only [labHdrParse] at hp
  split at hp
  · cases hp
  · rename_i hlen
    obtain rfl := Option.some.inj hp
    rw [not_or, not_lt] at hlen
    refine ⟨hlen.1, ?_⟩
    have hlt : 2 < buf.length := by omega
    simp [List.getElem?_eq_getElem hlt]

theorem openKind_cases {policy : LabPolicy} {h : LabHdr} {pay : List UInt8}
    (hopen : c.evidence.isOpen = true) (hses : c.evidence.session = c.session)
    (hlen : pay.length = labPayloadLen h.kind) :
    Kept c (openKind host policy net c h pay).2 ∨
      (∃ kind ∈ sessionKinds, h.kind = kind.code ∧ pay.length = kind.payloadLen ∧
        field pay 0 16 = c.session) ∧ Moved c (openKind host policy net c h pay).2 := by
  have hcarry : ∀ kind ∈ sessionKinds, Kind.ofCode h.kind = some kind → ∀ c' : Client,
      (pay.length = kind.payloadLen →
        Kept c c' ∨ field pay 0 16 = c.session ∧ Moved c c') →
      Kept c c' ∨ (∃ kind ∈ sessionKinds, h.kind = kind.code ∧ pay.length = kind.payloadLen ∧
        field pay 0 16 = c.session) ∧ Moved c c' := by
    intro kind hmem hk c' hcase
    have hpay : pay.length = kind.payloadLen := by
      rw [hlen]
      simp [labPayloadLen, hk]
    rcases hcase hpay with hkept | ⟨hs, hmoved⟩
    · exact .inl hkept
    · exact .inr ⟨⟨kind, hmem, Kind.ofCode_eq hk, hpay, hs⟩, hmoved⟩
  simp only [openKind]
  split
  · split
    · exact .inl (Kept.refl c)
    · exact .inl sendRst_kept
  · rename_i hk
    exact hcarry .request (by decide) hk _
      (fun hpay => doEvidence_cases hopen hses (Kind.ofCode_eq hk) (.inl rfl) hpay)
  · rename_i hk
    exact hcarry .observation (by decide) hk _
      (fun hpay => doEvidence_cases hopen hses (Kind.ofCode_eq hk) (.inr rfl) hpay)
  · exact .inl sendRst_kept
  · exact .inl sendRst_kept
  · exact .inl sendRst_kept
  · rename_i hk
    exact hcarry .ping (by decide) hk _ (fun _ => doPing_cases)
  · rename_i hk
    exact hcarry .bye (by decide) hk _ (fun _ => doBye_cases)
  · rename_i hk
    exact hcarry .rst (by decide) hk _ (fun _ => doRst_cases)
  · exact .inl sendRst_kept

/-- An open slot keeps everything but its reset counter unless the datagram
carries its session. -/
theorem doOpen_cases {policy : LabPolicy} {dat : List UInt8} (hopen : c.evidence.isOpen = true)
    (hses : c.evidence.session = c.session) :
    Kept c (doOpen host policy net c dat).2 ∨
      Carries dat c.session ∧ Moved c (doOpen host policy net c dat).2 := by
  simp only [doOpen]
  split
  · exact .inl sendRst_kept
  · split
    · exact .inl sendRst_kept
    · rename_i h hparse
      split
      · exact .inl sendRst_kept
      · split
        · exact .inl sendRst_kept
        · split
          · exact .inl sendRst_kept
          · rename_i hreal
            split
            · exact .inl sendRst_kept
            · rw [not_or, not_not, not_not] at hreal
              obtain ⟨hlen, hbyte⟩ := labHdrParse_some hparse
              rcases @openKind_cases host net c policy h (dat.drop 16) hopen hses (by omega) with
                hkept | ⟨⟨kind, hmem, hk, hl, hs⟩, hm⟩
              · exact .inl hkept
              · refine .inr ⟨⟨kind, hmem, by rw [hbyte, hk], ?_, by rw [← hs, field_drop]⟩, hm⟩
                rw [List.length_drop] at hl
                omega

/-- An open session: its state, its nonce and the identity of its evidence. -/
def Client.Sound (c : Client) : Prop :=
  c.state = .stOpen ∧ validNonce c.cnonce = true ∧
    c.evidence.identity = (true, c.session, c.cnonce)

theorem Kept.sound {c' : Client} (h : Kept c c') (hs : c.Sound) : c'.Sound := by
  obtain ⟨k, rfl⟩ := h
  exact hs

theorem Moved.sound {c' : Client} (h : Moved c c') (hs : c.Sound) :
    c' = .zero ∨ c'.Sound ∧ c'.used = c.used ∧ c'.addr = c.addr ∧ c'.cnonce = c.cnonce := by
  rcases h with rfl | ⟨sequence, evidence, last_rx, hid, k, rfl⟩
  · exact .inl rfl
  · exact .inr ⟨⟨hs.1, hs.2.1, hid.trans hs.2.2⟩, rfl, rfl, rfl⟩

/-- A free slot stays free, or a greeting opened it: with a nonce that no used
slot has, and an acknowledgement sent. -/
def Greeted (slots : Slots) (net : Net) (c : Client) (r : Net × Client) : Prop :=
  r.2.used = false ∧ r.2.state = .stNew ∧ r.1.n_acks = net.n_acks ∨
    r.1.n_acks = net.n_acks + 1 ∧ r.2.used = true ∧ r.2.Sound ∧ r.2.addr = c.addr ∧
      ∀ i, (slots i).used = true → (slots i).cnonce ≠ r.2.cnonce

variable {slots : Slots}

theorem Greeted.rst {reason : Reason} {msg : String} (hu : c.used = false) (hs : c.state = .stNew) :
    Greeted slots net c (sendRst host net c reason msg) := by
  refine .inl ⟨?_, ?_, sendRst_acks⟩
  · rw [sendRst_client]
    exact hu
  · rw [sendRst_client]
    exact hs

theorem doHello_greeted {pay : List UInt8} (hu : c.used = false) (hs : c.state = .stNew) :
    Greeted slots net c (doHello host slots net c pay) := by
  have hrst : ∀ (reason : Reason) (msg : String),
      Greeted slots net c (sendRst host net c reason msg) := fun _ _ => .rst hu hs
  simp only [doHello]
  split
  · exact hrst _ _
  · split
    · rename_i p _
      split
      · exact hrst _ _
      · split
        · exact hrst _ _
        · split
          · exact hrst _ _
          · split
            · exact hrst _ _
            · rename_i hnonce
              split
              · exact hrst _ _
              · rename_i hdup
                split
                · exact @Greeted.rst host { net with draws := net.draws + 1 } c slots _ _ hu hs
                · split
                  · rename_i hack
                    exact .inl ⟨hu, hs, by simpa using sendHelloAck_acks hack⟩
                  · rename_i hack
                    refine .inr ⟨by simpa using sendHelloAck_acks hack, rfl, ⟨rfl, ?_, rfl⟩, rfl, ?_⟩
                    · have hv : validNonce p.nonce = true := by simpa using hnonce
                      exact hv
                    · intro i hi he
                      exact hdup ⟨i, hi, he⟩
    · exact .inl ⟨hu, hs, rfl⟩

theorem doNew_greeted {dat : List UInt8} (hu : c.used = false) (hs : c.state = .stNew) :
    Greeted slots net c (doNew host slots net c dat) := by
  have hrst : ∀ (reason : Reason) (msg : String),
      Greeted slots net c (sendRst host net c reason msg) := fun _ _ => .rst hu hs
  simp only [doNew]
  split
  · exact hrst _ _
  · split
    · exact hrst _ _
    · split
      · exact hrst _ _
      · split
        · exact hrst _ _
        · split
          · exact hrst _ _
          · split
            · exact hrst _ _
            · split
              · exact hrst _ _
              · split
                · exact hrst _ _
                · exact doHello_greeted hu hs

end

end ArenaLab
