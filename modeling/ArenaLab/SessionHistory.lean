import ArenaLab.SessionIntegrity

/-! The history of one session: what every datagram was to it, from the
greeting that opened its slot until the slot is released. -/

namespace ArenaLab

/-- A datagram as an open session takes it. A request or an observation is
recorded with the clock reading and the reason of its decision; `other` is any
datagram that reaches neither the policy nor the sequence window. -/
inductive Transaction
  | other
  | pinged (seq : UInt32) (reason : Reason)
  | requested (request : LabRequest) (seq : UInt32) (now : UInt64) (reason : Reason)
  | observed (observation : LabObservation) (seq : UInt32) (now : UInt64) (reason : Reason)

/-- The reason of a decision: the policy's, or that of the sequence window. -/
def Client.answer (c : Client) (seq : UInt32) (verdict : Reason) : Reason :=
  if verdict = .ok then (c.sequence.accept seq).2 else verdict

def Client.payloadTransaction (c : Client) (policy : LabPolicy) (now : UInt64) (seq : UInt32) :
    Payload → Transaction
  | .ping p => if p.session ≠ c.session then .other else .pinged seq (c.sequence.accept seq).2
  | .request q => .requested q seq now (c.answer seq (labPolicyRequest c.evidence policy q now).2)
  | .observation o =>
    .observed o seq now (c.answer seq (labPolicyObservation c.evidence policy o now).2)
  | _ => .other

/-- What a datagram is to an open slot. -/
def Client.transaction (c : Client) (policy : LabPolicy) (now : UInt64) (dat : List UInt8) :
    Transaction :=
  if labMaxDatagram < dat.length then .other
  else match labHdrParse dat with
    | none => .other
    | some h =>
      if h.magic ≠ labMagic then .other
      else if h.version ≠ labVersion then .other
      else if h.len.toNat ≠ (dat.drop 16).length ∨ labPayloadLen h.kind ≠ h.len.toNat then .other
      else if h.flags ≠ 0 then .other
      else match labPayloadParse (dat.drop 16) h.kind with
        | none => .other
        | some p => c.payloadTransaction policy now h.seq p

/-- A decision commits the evidence and the sequence together or not at all. -/
def Client.Decided (c : Client) (next : EvidenceState) (verdict : Reason) (seq : UInt32)
    (c' : Client) : Prop :=
  c.answer seq verdict = .ok ∧ verdict = .ok ∧ (c.sequence.accept seq).2 = .ok ∧
      (∃ t, c' = { c with
        evidence := next
        sequence := (c.sequence.accept seq).1
        last_rx := t }) ∨
    c.answer seq verdict = .closing ∧ c' = .zero ∨
    c.answer seq verdict ≠ .ok ∧ c.answer seq verdict ≠ .closing ∧ c' = c

def Client.Handled (c : Client) (policy : LabPolicy) (at_ : UInt64) : Transaction → Client → Prop
  | .other, c' => Kept c c' ∨ c' = .zero
  | .pinged seq reason, c' => reason = (c.sequence.accept seq).2 ∧
      (reason = .ok ∧ (∃ t, c' = { c with sequence := (c.sequence.accept seq).1, last_rx := t }) ∨
        reason ≠ .ok ∧ (Kept c c' ∨ c' = .zero))
  | .requested q seq now reason, c' => now = at_ ∧
      reason = c.answer seq (labPolicyRequest c.evidence policy q now).2 ∧
      c.Decided (labPolicyRequest c.evidence policy q now).1
        (labPolicyRequest c.evidence policy q now).2 seq c'
  | .observed o seq now reason, c' => now = at_ ∧
      reason = c.answer seq (labPolicyObservation c.evidence policy o now).2 ∧
      c.Decided (labPolicyObservation c.evidence policy o now).1
        (labPolicyObservation c.evidence policy o now).2 seq c'

section

variable {host : LabHost} {net : Net} {c : Client} {policy : LabPolicy}

theorem handled_rst {at_ : UInt64} {reason : Reason} {msg : String} :
    c.Handled policy at_ .other (sendRst host net c reason msg).2 := .inl sendRst_kept

theorem doPing_handled {h : LabHdr} {pay : List UInt8} {at_ : UInt64}
    (hlen : pay.length = Kind.ping.payloadLen) :
    c.Handled policy at_ (c.payloadTransaction policy at_ h.seq (Kind.ping.read pay))
      (doPing host net c h pay).2 := by
  have h40 : pay.length = 40 := hlen
  simp only [doPing, parse_code hlen, Kind.read, Client.payloadTransaction]
  have hbig : ¬40 < pay.length := by omega
  have hshort : ¬pay.length < 40 := by omega
  rw [if_neg hbig, if_neg hshort]
  split
  · exact handled_rst
  · refine ⟨rfl, ?_⟩
    split
    · rename_i hbad
      have hsame : (c.sequence.accept h.seq).1 = c.sequence := accept_refused hbad
      rw [hsame]
      split
      · exact .inr ⟨hbad, .inr rfl⟩
      · exact .inr ⟨hbad, .inl sendRst_kept⟩
    · rename_i hok
      exact .inl ⟨not_not.mp hok, _, rfl⟩

theorem doBye_handled {pay : List UInt8} {at_ : UInt64} :
    c.Handled policy at_ .other (doBye host net c pay).2 := by
  simp only [doBye]
  split
  · exact handled_rst
  · split
    · exact handled_rst
    · exact .inr rfl

theorem doRst_handled {pay : List UInt8} {at_ : UInt64} :
    c.Handled policy at_ .other (doRst host net c pay).2 := by
  simp only [doRst]
  split
  · exact handled_rst
  · split
    · split
      · exact handled_rst
      · split
        · exact handled_rst
        · exact .inr rfl
    · exact .inl (Kept.refl c)

theorem answerEvidence_decided {h : LabHdr} {request_id : UInt32} {next : EvidenceState}
    {verdict : Reason} :
    c.Decided next verdict h.seq (answerEvidence host net c h request_id next verdict).2 := by
  by_cases hv : verdict = .ok
  · subst hv
    have ha : c.answer h.seq .ok = (c.sequence.accept h.seq).2 := by simp [Client.answer]
    simp only [Client.Decided, ha, answerEvidence, if_true]
    by_cases hok : (c.sequence.accept h.seq).2 = .ok
    · left
      simp [hok]
    · by_cases hcl : (c.sequence.accept h.seq).2 = .closing
      · right; left
        simp [hcl]
      · right; right
        simp [hok, hcl]
  · have ha : c.answer h.seq verdict = verdict := by simp [Client.answer, hv]
    simp only [Client.Decided, ha, answerEvidence, hv, if_false]
    by_cases hcl : verdict = .closing
    · right; left
      simp [hcl]
    · right; right
      simp [hv, hcl]

theorem doEvidence_handled {h : LabHdr} {pay : List UInt8} {kind : Kind}
    (hparse : labPayloadParse pay h.kind = some (kind.read pay))
    (hev : kind = .request ∨ kind = .observation) :
    c.Handled policy (host.now net.reads)
      (c.payloadTransaction policy (host.now net.reads) h.seq (kind.read pay))
      (doEvidence host policy net c h pay).2 := by
  simp only [doEvidence, hparse, Option.bind_some]
  rcases hev with rfl | rfl
  · exact ⟨rfl, rfl, answerEvidence_decided⟩
  · exact ⟨rfl, rfl, answerEvidence_decided⟩

theorem openKind_handled {h : LabHdr} {pay : List UInt8}
    (hlen : pay.length = labPayloadLen h.kind) :
    c.Handled policy (host.now net.reads)
      (match labPayloadParse pay h.kind with
        | none => .other
        | some p => c.payloadTransaction policy (host.now net.reads) h.seq p)
      (openKind host policy net c h pay).2 := by
  have hparse : ∀ kind : Kind, Kind.ofCode h.kind = some kind →
      pay.length = kind.payloadLen ∧ labPayloadParse pay h.kind = some (kind.read pay) := by
    intro kind hk
    have hpay : pay.length = kind.payloadLen := by simpa [labPayloadLen, hk] using hlen
    refine ⟨hpay, ?_⟩
    rw [Kind.ofCode_eq hk]
    exact parse_code hpay
  cases hk : Kind.ofCode h.kind with
  | none =>
    have hnone : labPayloadParse pay h.kind = none := by simp [labPayloadParse, hk]
    simp only [openKind, hk, hnone]
    exact handled_rst
  | some kind =>
    obtain ⟨hpay, hsome⟩ := hparse kind hk
    simp only [openKind, hk, hsome]
    cases kind with
    | hello =>
      simp only [Kind.read, Client.payloadTransaction]
      split
      · exact .inl (Kept.refl c)
      · exact handled_rst
    | helloAck => exact handled_rst
    | ping => exact doPing_handled hpay
    | pong => exact handled_rst
    | bye => exact doBye_handled
    | rst => exact doRst_handled
    | request => exact doEvidence_handled hsome (.inl rfl)
    | observation => exact doEvidence_handled hsome (.inr rfl)
    | decision => exact handled_rst

theorem doOpen_handled (dat : List UInt8) :
    c.Handled policy (host.now net.reads) (c.transaction policy (host.now net.reads) dat)
      (doOpen host policy net c dat).2 := by
  simp only [doOpen, Client.transaction]
  split
  · exact handled_rst
  · cases labHdrParse dat with
    | none => exact handled_rst
    | some h =>
      dsimp only
      split
      · exact handled_rst
      · split
        · exact handled_rst
        · split
          · exact handled_rst
          · rename_i hreal
            split
            · exact handled_rst
            · rw [not_or, not_not, not_not] at hreal
              exact openKind_handled (by omega)

theorem handle_handled {s : Server} {d : List UInt8} (hs : c.Sound) :
    c.Handled s.config.policy (host.now s.net.reads)
      (c.transaction s.config.policy (host.now s.net.reads) d) (handle host s c d).2 := by
  simp only [handle, hs.1]
  split
  · rename_i hbig
    have ho : c.transaction s.config.policy (host.now s.net.reads) d = .other := by
      simp [Client.transaction, hbig]
    rw [ho]
    exact handled_rst
  · exact doOpen_handled d

/-- A free slot stays free, or it opens with a fresh window and nothing requested. -/
def Fresh (c c' : Client) : Prop :=
  c'.used = false ∨ c'.sequence = .fresh ∧ c'.evidence.pending = c.evidence.pending ∧
    c'.evidence.last_request = c.evidence.last_request

theorem Fresh.rst {reason : Reason} {msg : String} (hu : c.used = false) :
    Fresh c (sendRst host net c reason msg).2 := by
  rw [sendRst_client]
  exact .inl hu

theorem doHello_fresh {slots : Slots} {pay : List UInt8} (hu : c.used = false) :
    Fresh c (doHello host slots net c pay).2 := by
  simp only [doHello]
  split
  · exact .rst hu
  · split
    · split
      · exact .rst hu
      · split
        · exact .rst hu
        · split
          · exact .rst hu
          · split
            · exact .rst hu
            · split
              · exact .rst hu
              · split
                · exact .rst hu
                · split
                  · exact .inl hu
                  · exact .inr ⟨rfl, rfl, rfl⟩
    · exact .inl hu

theorem doNew_fresh {slots : Slots} {dat : List UInt8} (hu : c.used = false) :
    Fresh c (doNew host slots net c dat).2 := by
  simp only [doNew]
  split
  · exact .rst hu
  · split
    · exact .rst hu
    · split
      · exact .rst hu
      · split
        · exact .rst hu
        · split
          · exact .rst hu
          · split
            · exact .rst hu
            · split
              · exact .rst hu
              · split
                · exact .rst hu
                · exact doHello_fresh hu

theorem handle_fresh {s : Server} {from_ : SockAddr} {d : List UInt8} :
    Fresh (.visitor from_) (handle host s (.visitor from_) d).2 := by
  simp only [handle]
  split
  · exact .rst rfl
  · exact doNew_fresh rfl

end

section

variable {host : LabHost} {net : Net} {c : Client} {s : Server}

@[simp] theorem sendDatagram_reads {addr : SockAddr} {buf : List UInt8} :
    (sendDatagram host net addr buf).1.reads = net.reads := by
  simp only [sendDatagram]
  split <;> rfl

@[simp] theorem sendRst_reads {reason : Reason} {msg : String} :
    (sendRst host net c reason msg).1.reads = net.reads := by
  have hs := @sendDatagram_reads host net c.addr
    ((Payload.rst (rstPayload c.session reason msg)).datagram c.nrst)
  simp only [sendRst]
  split <;> rename_i he <;> rw [he] at hs <;> exact hs

@[simp] theorem sendHelloAck_reads {snonce : Bytes 16} :
    (sendHelloAck host net c snonce).1.reads = net.reads := by
  have hs := @sendDatagram_reads host net c.addr
    ((Payload.helloAck ⟨1, Reason.ok.code, c.session, snonce, c.cnonce⟩).datagram 0)
  simp only [sendHelloAck]
  split <;> rename_i he <;> rw [he] at hs <;> exact hs

theorem doHello_reads {slots : Slots} {pay : List UInt8} :
    net.reads ≤ (doHello host slots net c pay).1.reads := by
  simp only [doHello]
  split
  · simp
  · split
    · repeat' split
      all_goals first
        | simp; done
        | rename_i hack
          have hreads := congrArg (fun r => r.1.reads) hack
          simp only [sendHelloAck_reads] at hreads
          simp only
          omega
    · simp

theorem doNew_reads {slots : Slots} {dat : List UInt8} :
    net.reads ≤ (doNew host slots net c dat).1.reads := by
  simp only [doNew]
  repeat' split
  all_goals first
    | exact doHello_reads
    | simp

theorem doPing_reads {h : LabHdr} {pay : List UInt8} :
    net.reads ≤ (doPing host net c h pay).1.reads := by
  simp only [doPing]
  repeat' split
  all_goals simp

theorem doBye_reads {pay : List UInt8} : net.reads ≤ (doBye host net c pay).1.reads := by
  simp only [doBye]
  repeat' split
  all_goals simp

theorem doRst_reads {pay : List UInt8} : net.reads ≤ (doRst host net c pay).1.reads := by
  simp only [doRst]
  repeat' split
  all_goals simp

theorem answerEvidence_reads {h : LabHdr} {request_id : UInt32} {next : EvidenceState}
    {verdict : Reason} :
    net.reads ≤ (answerEvidence host net c h request_id next verdict).1.reads := by
  simp only [answerEvidence, sendDatagram_reads]
  generalize (if verdict = Reason.ok then c.sequence.accept h.seq else (c.sequence, verdict)) = result
  split <;> simp

theorem doEvidence_reads {policy : LabPolicy} {h : LabHdr} {pay : List UInt8} :
    net.reads ≤ (doEvidence host policy net c h pay).1.reads := by
  simp only [doEvidence]
  split
  · exact le_rfl
  · rename_i request_id next verdict _
    have hlater := @answerEvidence_reads host { net with reads := net.reads + 1 } c h request_id next
      verdict
    exact (Nat.le_succ _).trans hlater

theorem doOpen_reads {policy : LabPolicy} {dat : List UInt8} :
    net.reads ≤ (doOpen host policy net c dat).1.reads := by
  simp only [doOpen, openKind]
  repeat' split
  all_goals first
    | exact doEvidence_reads
    | exact doPing_reads
    | exact doBye_reads
    | exact doRst_reads
    | simp

theorem handle_reads {d : List UInt8} : s.net.reads ≤ (handle host s c d).1.reads := by
  simp only [handle]
  split
  · simp
  · split
    · exact doNew_reads
    · exact doOpen_reads

theorem serve_reads {i : Fin 32} {from_ : SockAddr} {d : List UInt8} :
    s.net.reads ≤ (s.serve host i from_ d).net.reads :=
  @handle_reads host _ { s with slots := Function.update s.slots i (s.slotFor i from_) } d

theorem route_reads {from_ : SockAddr} {d : List UInt8} :
    s.net.reads ≤ (s.route host from_ d).net.reads := by
  simp only [Server.route, Server.turnAway]
  repeat' split
  all_goals first
    | exact serve_reads
    | simp

theorem receive_reads {from_ : SockAddr} {d : List UInt8} :
    s.net.reads ≤ (s.receive host from_ d).net.reads :=
  @route_reads host { s with net := { s.net with n_rx := s.net.n_rx + 1 } } from_ d

theorem sweepSlot_reads {now : UInt64} {i : Fin 32} :
    (sweepSlot host now s i).net.reads = s.net.reads := by
  simp only [sweepSlot]
  repeat' split
  all_goals simp

theorem shutdownSlot_reads {i : Fin 32} :
    (shutdownSlot host s i).net.reads = s.net.reads := by
  simp only [shutdownSlot]
  split <;> simp

theorem foldl_reads {f : Server → Fin 32 → Server} (hf : ∀ s i, (f s i).net.reads = s.net.reads)
    (s : Server) (l : List (Fin 32)) : (l.foldl f s).net.reads = s.net.reads := by
  induction l generalizing s with
  | nil => rfl
  | cons i l ih => exact (ih (f s i)).trans (hf s i)

theorem act_reads (s : Server) (a : ServerAction) : s.net.reads ≤ (s.act host a).net.reads := by
  cases a with
  | datagram from_ d => exact receive_reads
  | sweep =>
    simp only [Server.act, Server.sweepTimeouts]
    rw [foldl_reads (fun _ _ => sweepSlot_reads)]
    exact Nat.le_succ _
  | receiveError => exact le_rfl
  | shutdown => exact (foldl_reads (fun _ _ => shutdownSlot_reads) s _).ge

end

/-- The transactions of slot `i` in one round of the server. -/
def Server.transactions (host : LabHost) (s : Server) (i : Fin 32) : ServerAction → List Transaction
  | .datagram from_ d =>
    if from_.addr >>> 24 = 127 ∧ (s.slots i).addr = from_ then
      [(s.slots i).transaction s.config.policy (host.now s.net.reads) d]
    else []
  | _ => []

/-- The server with the history of the session that each slot holds. -/
structure Watched where
  server : Server
  history : Fin 32 → List Transaction

def Watched.boot (config : ServerConfig) (listen : UInt32) : Watched :=
  ⟨Server.boot config listen, fun _ => []⟩

/-- A session starts without history when its slot opens. -/
def Watched.act (host : LabHost) (w : Watched) (a : ServerAction) : Watched where
  server := w.server.act host a
  history i :=
    if ((w.server.act host a).slots i).used ∧ (w.server.slots i).used then
      w.history i ++ w.server.transactions host i a
    else []

abbrev WatchedStep (host : LabHost) (w : Watched) (a : ServerAction) (w' : Watched) : Prop :=
  w' = w.act host a

section

variable {host : LabHost} {s : Server} {i : Fin 32}

def Client.Blank (c : Client) : Prop :=
  c.sequence = .fresh ∧ c.evidence.pending = false ∧ c.evidence.last_request = 0

theorem serve_fresh {j : Fin 32} {from_ : SockAddr} {d : List UInt8}
    (hu : (s.slots i).used = false) :
    ((s.serve host j from_ d).slots i).used = false ∨ ((s.serve host j from_ d).slots i).Blank := by
  rw [serve_eq]
  by_cases hij : i = j
  · subst hij
    rw [slotFor_free hu]
    simp only [Function.update_self]
    exact handle_fresh
  · simp only [Function.update_of_ne hij]
    exact .inl hu

theorem receive_fresh {from_ : SockAddr} {d : List UInt8} (hu : (s.slots i).used = false) :
    ((s.receive host from_ d).slots i).used = false ∨
      ((s.receive host from_ d).slots i).Blank := by
  simp only [Server.receive, Server.route]
  split
  · exact .inl hu
  · split
    · exact serve_fresh hu
    · split
      · exact .inl hu
      · split
        · exact serve_fresh hu
        · exact .inl hu

theorem ofPeer_used {from_ : SockAddr} (hi : SlotInv s) (hu : (s.slots i).used = true)
    (ha : (s.slots i).addr = from_) : s.slots.ofPeer from_ = some i := by
  cases hp : s.slots.ofPeer from_ with
  | none => exact absurd ha (ofPeer_none hp i hu)
  | some j =>
    obtain ⟨hj, hja⟩ := ofPeer_some hp
    rw [hi.peers j i hj hu (hja.trans ha.symm)]

theorem receive_handled {d : List UInt8} (hi : SlotInv s) (hu : (s.slots i).used = true)
    (hloop : (s.slots i).addr.addr >>> 24 = 127) :
    (s.slots i).Handled s.config.policy (host.now s.net.reads)
      ((s.slots i).transaction s.config.policy (host.now s.net.reads) d)
      ((s.receive host (s.slots i).addr d).slots i) := by
  have hpeer := ofPeer_used hi hu rfl
  simp only [Server.receive, Server.route, hloop, ne_eq, not_true_eq_false, if_false, hpeer, serve_eq,
    Function.update_self]
  rw [slotFor_used (s := { s with net := { s.net with n_rx := s.net.n_rx + 1 } }) hu rfl]
  exact handle_handled (s := { s with
    net := { s.net with n_rx := s.net.n_rx + 1 }
    slots := Function.update s.slots i (s.slots i) }) (hi.sound i hu)

theorem sweep_slot (s : Server) (i : Fin 32) :
    (s.sweepTimeouts host).slots i = s.slots i ∨ (s.sweepTimeouts host).slots i = .zero := by
  simp only [Server.sweepTimeouts]
  refine List.foldlRecOn (motive := fun t : Server => t.slots i = s.slots i ∨ t.slots i = .zero) _ _
    (.inl rfl) ?_
  intro t ht j _
  simp only [sweepSlot]
  split
  · exact ht
  · split
    · by_cases hij : i = j
      · subst hij
        exact .inr (Function.update_self ..)
      · simp only [Function.update_of_ne hij]
        exact ht
    · exact ht

theorem act_slot (host : LabHost) (hi : SlotInv s) (i : Fin 32) (a : ServerAction) :
    ((s.act host a).slots i).used = false ∨
    (s.slots i).used = false ∧ ((s.act host a).slots i).Blank ∨
    (s.slots i).used = true ∧ (s.transactions host i a = [] ∧
        Kept (s.slots i) ((s.act host a).slots i) ∨
      ∃ tr, s.transactions host i a = [tr] ∧
        (s.slots i).Handled s.config.policy (host.now s.net.reads) tr ((s.act host a).slots i)) := by
  cases hu : (s.slots i).used with
  | false =>
    cases a with
    | datagram from_ d =>
      rcases @receive_fresh host s i from_ d hu with h | h
      · exact .inl h
      · exact .inr (.inl ⟨rfl, h⟩)
    | sweep =>
      left
      rcases @sweep_slot host s i with h | h
      · simp only [Server.act, h, hu]
      · simp only [Server.act, h, Client.zero]
    | receiveError => exact .inl hu
    | shutdown =>
      obtain ⟨k, hk⟩ := @shutdown_kept host s i
      exact .inl ((congrArg Client.used hk).trans hu)
  | true =>
    cases a with
    | datagram from_ d =>
      right; right
      refine ⟨rfl, ?_⟩
      by_cases ha : (s.slots i).addr = from_
      · subst ha
        by_cases hloop : (s.slots i).addr.addr >>> 24 = 127
        · exact .inr ⟨_, if_pos ⟨hloop, rfl⟩, receive_handled hi hu hloop⟩
        · left
          refine ⟨if_neg (fun h => hloop h.1), ?_⟩
          simp only [Server.act, Server.receive, Server.route, hloop, ne_eq, not_false_eq_true, if_true,
            Server.turnAway]
          exact Kept.refl _
      · exact .inl ⟨if_neg (fun h => ha h.2), receive_kept host hi hu (.inl ha)⟩
    | sweep =>
      rcases @sweep_slot host s i with h | h
      · right; right
        refine ⟨rfl, .inl ⟨rfl, ?_⟩⟩
        simp only [Server.act, h]
        exact Kept.refl _
      · left
        simp only [Server.act, h, Client.zero]
    | receiveError => exact .inr (.inr ⟨rfl, .inl ⟨rfl, Kept.refl _⟩⟩)
    | shutdown => exact .inr (.inr ⟨rfl, .inl ⟨rfl, shutdown_kept s i⟩⟩)

theorem transactions_handled {a : ServerAction} (hi : SlotInv s) (hu : (s.slots i).used = true)
    (hne : s.transactions host i a ≠ []) : ∃ tr, s.transactions host i a = [tr] ∧
      (s.slots i).Handled s.config.policy (host.now s.net.reads) tr ((s.act host a).slots i) := by
  cases a with
  | datagram from_ d =>
    simp only [Server.transactions] at hne ⊢
    split at hne
    · rename_i hfrom
      obtain ⟨hloop, rfl⟩ := hfrom
      exact ⟨_, if_pos ⟨hloop, rfl⟩, receive_handled hi hu hloop⟩
    · exact absurd rfl hne
  | sweep => exact absurd rfl hne
  | receiveError => exact absurd rfl hne
  | shutdown => exact absurd rfl hne

theorem act_config (host : LabHost) (hi : SlotInv s) (a : ServerAction) :
    (s.act host a).config = s.config := by
  cases a with
  | datagram from_ d => exact (receive_spec host hi from_ d).2
  | sweep =>
    simp only [Server.act, Server.sweepTimeouts]
    refine List.foldlRecOn (motive := fun t : Server => t.config = s.config) _ _ rfl ?_
    intro t ht j _
    simp only [sweepSlot]
    repeat' split
    all_goals exact ht
  | receiveError => rfl
  | shutdown =>
    refine List.foldlRecOn (motive := fun t : Server => t.config = s.config) _ _ rfl ?_
    intro t ht j _
    simp only [shutdownSlot]
    split
    all_goals exact ht

theorem watched_server {w w' : Watched} {τ : List ServerAction}
    (h : Runs.Steps (WatchedStep host) w τ w') :
    Runs.Steps (ServerStep host) w.server τ w'.server := by
  induction h with
  | nil => exact .nil
  | snoc _ he ih =>
    subst he
    exact ih.snoc rfl

end

end ArenaLab
