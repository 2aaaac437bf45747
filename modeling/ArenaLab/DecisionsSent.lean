import ArenaLab.EvidenceTransactions
import ArenaLab.Seats

/-! The decisions among the datagrams that the server sends to the peer of a slot, and
the one that is due for what the peer was heard to say. -/

namespace ArenaLab

def labRejected : UInt32 := 0
def labPending : UInt32 := 1
def labAccepted : UInt32 := 2

/-- The decision that a datagram carries. -/
def decisionIn (d : List UInt8) : Option LabDecision :=
  match labHdrParse d with
  | none => none
  | some h =>
    match labPayloadParse (d.drop 16) h.kind with
    | some (.decision p) => some p
    | _ => none

/-- The decisions among the datagrams to an address. -/
def decisionsTo (addr : SockAddr) (sent : List (SockAddr × List UInt8)) : List LabDecision :=
  sent.filterMap (fun e => if e.1 = addr then decisionIn e.2 else none)

/-- The decisions that the peer of slot `i` is sent in one round of the server. -/
def Server.decided (host : LabHost) (s : Server) (i : Fin 32) (a : ServerAction) : List LabDecision :=
  decisionsTo (s.slots i).addr ((s.act host a).net.sent.drop s.net.sent.length)

/-- The decision that is due for a transaction. -/
def Transaction.decision (session : Bytes 16) : Transaction → Option LabDecision
  | .requested r _ _ reason =>
    some ⟨session, r.request_id, if reason = .ok then labPending else labRejected, reason.code⟩
  | .observed o _ _ reason =>
    some ⟨session, o.request_id, if reason = .ok then labAccepted else labRejected, reason.code⟩
  | _ => none

/-- What is sent for a transaction, if the system sends it. -/
def Transaction.due (session : Bytes 16) (sent : Bool) (tr : Transaction) : List LabDecision :=
  if sent then (tr.decision session).toList else []

/-- Nothing but these decisions was added for the address. -/
def Net.Decides (net : Net) (addr : SockAddr) (D : List LabDecision) (net' : Net) : Prop :=
  ∃ E, net'.sent = net.sent ++ E ∧ decisionsTo addr E = D

section

variable {host : LabHost} {net net' net'' : Net} {addr : SockAddr} {c : Client} {policy : LabPolicy}

theorem due_none {session : Bytes 16} {sent : Bool} {tr : Transaction} (h : tr.decision session = none) :
    tr.due session sent = [] := by
  rw [Transaction.due, h, Option.toList_none, ite_self]

theorem other_due (session : Bytes 16) (sent : Bool) : Transaction.other.due session sent = [] := due_none rfl

theorem decisionIn_datagram (p : Payload) (seq : UInt32) :
    decisionIn (p.datagram seq) = match p with
      | .decision d => some d
      | _ => none := by
  have hkind : (p.header seq).kind = p.kind.code := rfl
  rw [decisionIn, datagram_header]
  simp only [datagram_payload, hkind, parse_pack]
  cases p <;> rfl

theorem Net.Decides.silent (h : net'.sent = net.sent) : net.Decides addr [] net' :=
  ⟨[], by rw [h, List.append_nil], rfl⟩

theorem Net.Decides.trans (h : net.Decides addr [] net') (h' : net'.Decides addr [] net'') :
    net.Decides addr [] net'' := by
  obtain ⟨E, hE, hnone⟩ := h
  obtain ⟨E', hE', hnone'⟩ := h'
  refine ⟨E ++ E', by rw [hE', hE, List.append_assoc], ?_⟩
  rw [decisionsTo, List.filterMap_append]
  rw [decisionsTo] at hnone hnone'
  rw [hnone, hnone']
  rfl

theorem Net.Decides.drop {D : List LabDecision} (h : net.Decides addr D net') :
    decisionsTo addr (net'.sent.drop net.sent.length) = D := by
  obtain ⟨E, hE, hD⟩ := h
  rw [hE, List.drop_left]
  exact hD

/-- What is said to another address decides nothing here. -/
theorem Net.Says.decides {other : SockAddr} (h : net.Says other net') (hne : other ≠ addr) :
    net.Decides addr [] net' := by
  cases h with
  | silent hsent => exact .silent hsent
  | said p seq _ hsent => exact ⟨_, hsent, by simp [decisionsTo, hne]⟩

theorem sendDatagram_decides (p : Payload) (seq : UInt32) (hsent : net'.sent = net.sent) :
    net.Decides addr (if host.sendOk net'.sends then (decisionIn (p.datagram seq)).toList else [])
      (sendDatagram host net' addr (p.datagram seq)).1 := by
  by_cases hok : host.sendOk net'.sends = true
  · rw [sendDatagram_ok hok, if_pos hok]
    refine ⟨[(addr, p.datagram seq)], by rw [hsent], ?_⟩
    cases hd : decisionIn (p.datagram seq) <;> simp [decisionsTo, hd]
  · rw [sendDatagram_failed hok, if_neg hok]
    exact .silent hsent

theorem sendRst_decides {reason : Reason} {msg : String} (hsent : net'.sent = net.sent) :
    net.Decides addr [] (sendRst host net' c reason msg).1 := by
  by_cases hok : host.sendOk net'.sends = true
  · simp only [sendRst, sendDatagram_ok hok]
    refine ⟨[(c.addr, (Payload.rst (rstPayload c.session reason msg)).datagram c.nrst)], by rw [hsent], ?_⟩
    simp [decisionsTo, decisionIn_datagram]
  · simp only [sendRst, sendDatagram_failed hok]
    exact .silent hsent

theorem sendHelloAck_decides {snonce : Bytes 16} : net.Decides c.addr [] (sendHelloAck host net c snonce).1 := by
  by_cases hok : host.sendOk net.sends = true
  · simp only [sendHelloAck, sendDatagram_ok hok]
    refine ⟨[(c.addr, (Payload.helloAck ⟨1, Reason.ok.code, c.session, snonce, c.cnonce⟩).datagram 0)], rfl, ?_⟩
    simp [decisionsTo, decisionIn_datagram]
  · simp only [sendHelloAck, sendDatagram_failed hok]
    exact .silent rfl

theorem doPing_decides {h : LabHdr} {pay : List UInt8} : net.Decides c.addr [] (doPing host net c h pay).1 := by
  simp only [doPing]
  split
  · exact sendRst_decides rfl
  split
  · exact sendRst_decides rfl
  split
  · split
    · exact sendRst_decides rfl
    split
    · exact @sendRst_decides host net net _ { c with sequence := (c.sequence.accept h.seq).1 } _ _ rfl
    · rename_i p _ _ _
      have hpong := @sendDatagram_decides host net { net with reads := net.reads + 1 } c.addr
        (.pong ⟨p.stamp, p.nonce, 0⟩) 0 rfl
      rw [decisionIn_datagram] at hpong
      simpa using hpong
  · exact .silent rfl

theorem doBye_decides {pay : List UInt8} : net.Decides c.addr [] (doBye host net c pay).1 := by
  simp only [doBye]
  repeat' split
  all_goals exact sendRst_decides rfl

theorem doRst_decides {pay : List UInt8} : net.Decides c.addr [] (doRst host net c pay).1 := by
  simp only [doRst]
  repeat' split
  all_goals first
    | exact sendRst_decides rfl
    | exact .silent rfl

theorem answerEvidence_decides {h : LabHdr} {request_id : UInt32} {next : EvidenceState} {verdict : Reason} :
    net.Decides c.addr
      (if host.sendOk net.sends then [⟨c.session, request_id, decisionStatus h.kind (c.answer h.seq verdict),
        (c.answer h.seq verdict).code⟩] else [])
      (answerEvidence host net c h request_id next verdict).1 := by
  have hreason : (if verdict = Reason.ok then c.sequence.accept h.seq else (c.sequence, verdict)).2 =
      c.answer h.seq verdict := by
    rw [Client.answer]
    split <;> rfl
  simp only [answerEvidence]
  rw [hreason]
  by_cases hok : c.answer h.seq verdict = .ok
  · simp only [if_pos hok]
    have hsend := @sendDatagram_decides host net { net with reads := net.reads + 1 } c.addr (.decision ⟨c.session,
      request_id, decisionStatus h.kind (c.answer h.seq verdict), (c.answer h.seq verdict).code⟩) h.seq rfl
    rw [decisionIn_datagram] at hsend
    exact hsend
  · simp only [if_neg hok]
    have hsend := @sendDatagram_decides host net net c.addr (.decision ⟨c.session,
      request_id, decisionStatus h.kind (c.answer h.seq verdict), (c.answer h.seq verdict).code⟩) h.seq rfl
    rw [decisionIn_datagram] at hsend
    exact hsend

theorem Net.Decides.reads {D : List LabDecision} {k : ℕ} (h : { net with reads := k }.Decides addr D net') :
    net.Decides addr D net' := h

/-- The one decision on a request or an observation has the reason that the transaction
notes, and the status that goes with it. -/
theorem doEvidence_decides {h : LabHdr} {pay : List UInt8} {kind : Kind} (hcode : h.kind = kind.code)
    (hparse : labPayloadParse pay h.kind = some (kind.read pay)) (hev : kind = .request ∨ kind = .observation) :
    net.Decides c.addr
      ((c.payloadTransaction policy (host.now net.reads) h.seq (kind.read pay)).due c.session
        (host.sendOk net.sends))
      (doEvidence host policy net c h pay).1 := by
  simp only [doEvidence, hparse, Option.bind_some]
  rcases hev with rfl | rfl
  · obtain ⟨r, hr⟩ : ∃ r, Kind.request.read pay = .request r := ⟨_, rfl⟩
    rw [hr]
    have hanswer := @answerEvidence_decides host { net with reads := net.reads + 1 } c h r.request_id
      (labPolicyRequest c.evidence policy r (host.now net.reads)).1
      (labPolicyRequest c.evidence policy r (host.now net.reads)).2
    simp only [decisionStatus, hcode, if_true] at hanswer
    exact hanswer.reads
  · obtain ⟨o, ho⟩ : ∃ o, Kind.observation.read pay = .observation o := ⟨_, rfl⟩
    rw [ho]
    have hanswer := @answerEvidence_decides host { net with reads := net.reads + 1 } c h o.request_id
      (labPolicyObservation c.evidence policy o (host.now net.reads)).1
      (labPolicyObservation c.evidence policy o (host.now net.reads)).2
    have hother : ¬Kind.observation.code = Kind.request.code := by decide
    simp only [decisionStatus, hcode, if_neg hother] at hanswer
    exact hanswer.reads

theorem openKind_decides {h : LabHdr} {pay : List UInt8} (hlen : pay.length = labPayloadLen h.kind) :
    net.Decides c.addr
      ((match labPayloadParse pay h.kind with
        | none => Transaction.other
        | some p => c.payloadTransaction policy (host.now net.reads) h.seq p).due c.session
          (host.sendOk net.sends))
      (openKind host policy net c h pay).1 := by
  have hnone : ∀ {net'}, net.Decides c.addr [] net' →
      net.Decides c.addr (Transaction.other.due c.session (host.sendOk net.sends)) net' := by
    intro net' h
    rw [other_due]
    exact h
  cases hk : Kind.ofCode h.kind with
  | none =>
    have hunknown : labPayloadParse pay h.kind = none := by simp [labPayloadParse, hk]
    simp only [openKind, hk, hunknown]
    exact hnone (sendRst_decides rfl)
  | some kind =>
    have hpay : pay.length = kind.payloadLen := by simpa [labPayloadLen, hk] using hlen
    have hcode : h.kind = kind.code := Kind.ofCode_eq hk
    have hsome : labPayloadParse pay h.kind = some (kind.read pay) := by
      rw [hcode]
      exact parse_code hpay
    simp only [openKind, hk, hsome]
    cases kind with
    | hello =>
      by_cases hsame : h.seq = 0 ∧ field pay 0 60 = c.hello
      · simp only [if_pos hsame]
        exact hnone sendHelloAck_decides
      · simp only [if_neg hsame]
        exact hnone (sendRst_decides rfl)
    | helloAck => exact hnone (sendRst_decides rfl)
    | ping =>
      have hping : (c.payloadTransaction policy (host.now net.reads) h.seq (Kind.ping.read pay)).decision c.session =
          none := by
        simp only [Kind.read, Client.payloadTransaction]
        split <;> rfl
      rw [due_none hping]
      exact doPing_decides
    | pong => exact hnone (sendRst_decides rfl)
    | bye => exact hnone doBye_decides
    | rst => exact hnone doRst_decides
    | request => exact doEvidence_decides hcode hsome (.inl rfl)
    | observation => exact doEvidence_decides hcode hsome (.inr rfl)
    | decision => exact hnone (sendRst_decides rfl)

theorem doOpen_decides (dat : List UInt8) :
    net.Decides c.addr
      ((c.transaction policy (host.now net.reads) dat).due c.session (host.sendOk net.sends))
      (doOpen host policy net c dat).1 := by
  have hnone : ∀ {net'}, net.Decides c.addr [] net' →
      net.Decides c.addr (Transaction.other.due c.session (host.sendOk net.sends)) net' := by
    intro net' h
    rw [other_due]
    exact h
  simp only [doOpen, Client.transaction]
  split
  · exact hnone (sendRst_decides rfl)
  · cases labHdrParse dat with
    | none => exact hnone (sendRst_decides rfl)
    | some h =>
      dsimp only
      split
      · exact hnone (sendRst_decides rfl)
      split
      · exact hnone (sendRst_decides rfl)
      split
      · exact hnone (sendRst_decides rfl)
      rename_i hreal
      split
      · exact hnone (sendRst_decides rfl)
      rw [not_or, not_not, not_not] at hreal
      exact openKind_decides (by omega)

end

section

variable {host : LabHost} {s : Server} {i : Fin 32} {addr : SockAddr}

theorem receive_decides {d : List UInt8} (hi : SlotInv s) (hu : (s.slots i).used = true)
    (hloop : (s.slots i).addr.addr >>> 24 = 127) :
    s.net.Decides (s.slots i).addr
      (((s.slots i).transaction s.config.policy (host.now s.net.reads) d).due (s.slots i).session
        (host.sendOk s.net.sends))
      (s.receive host (s.slots i).addr d).net := by
  have hpeer := ofPeer_used hi hu rfl
  have hstate : (s.slots i).state = .stOpen := (hi.sound i hu).1
  simp only [Server.receive, Server.route, hloop, ne_eq, not_true_eq_false, if_false, hpeer, serve_eq]
  rw [slotFor_used (s := { s with net := { s.net with n_rx := s.net.n_rx + 1 } }) hu rfl]
  simp only [handle, hstate]
  split
  · rename_i hbig
    have hother : (s.slots i).transaction s.config.policy (host.now s.net.reads) d = .other := by
      rw [Client.transaction, if_pos hbig]
    rw [hother, other_due]
    exact @sendRst_decides host s.net { s.net with n_rx := s.net.n_rx + 1 } _ (s.slots i) .tooBig ">128 B" rfl
  · exact @doOpen_decides host { s.net with n_rx := s.net.n_rx + 1 } (s.slots i) s.config.policy d

theorem sweep_decides (s : Server) (addr : SockAddr) : s.net.Decides addr [] (s.sweepTimeouts host).net := by
  refine List.foldlRecOn (motive := fun t : Server => s.net.Decides addr [] t.net) _ _ (.silent rfl) ?_
  intro t ht j _
  simp only [sweepSlot]
  split
  · exact ht
  split
  · exact ht.trans (sendRst_decides rfl)
  · exact ht

theorem shutdown_decides (s : Server) (addr : SockAddr) : s.net.Decides addr [] (s.shutdown host).net := by
  refine List.foldlRecOn (motive := fun t : Server => s.net.Decides addr [] t.net) _ _ (.silent rfl) ?_
  intro t ht j _
  simp only [shutdownSlot]
  split
  · exact ht.trans (sendRst_decides rfl)
  · exact ht

/-- The peer of a session is sent the decision on its transaction and no other, unless
the system does not send it. -/
theorem decided_eq (hi : SlotInv s) (hu : (s.slots i).used = true) (a : ServerAction) :
    s.decided host i a = if host.sendOk s.net.sends then
      (s.transactions host i a).filterMap (Transaction.decision (s.slots i).session) else [] := by
  have hnone : ∀ {tr : List Transaction}, tr = [] → s.net.Decides (s.slots i).addr [] (s.act host a).net →
      s.decided host i a = if host.sendOk s.net.sends then
        tr.filterMap (Transaction.decision (s.slots i).session) else [] := by
    rintro tr rfl h
    rw [Server.decided, h.drop, List.filterMap_nil, ite_self]
  cases a with
  | datagram from_ d =>
    by_cases ha : (s.slots i).addr = from_
    · subst ha
      by_cases hloop : (s.slots i).addr.addr >>> 24 = 127
      · have htr : s.transactions host i (.datagram (s.slots i).addr d) =
            [(s.slots i).transaction s.config.policy (host.now s.net.reads) d] := if_pos ⟨hloop, rfl⟩
        have hsent := (@receive_decides host s i d hi hu hloop).drop
        rw [Transaction.due] at hsent
        rw [Server.decided, Server.act, hsent, htr]
        cases hd : ((s.slots i).transaction s.config.policy (host.now s.net.reads) d).decision (s.slots i).session <;>
          simp [hd]
      · refine hnone (if_neg (fun h => hloop h.1)) ?_
        have hdecides := @sendRst_decides host s.net { s.net with n_rx := s.net.n_rx + 1 } (s.slots i).addr
          (.visitor (s.slots i).addr) .badMagic "no loopback" rfl
        simp only [Server.act, Server.receive, Server.route, hloop, ne_eq, not_false_eq_true, if_true, Server.turnAway]
        exact hdecides
    · refine hnone (if_neg (fun h => ha h.2)) ?_
      exact (@receive_tells host s from_ d).decides (Ne.symm ha)
  | sweep =>
    refine hnone rfl ?_
    rw [Server.act]
    exact sweep_decides s _
  | receiveError => exact hnone rfl (.silent rfl)
  | shutdown =>
    refine hnone rfl ?_
    rw [Server.act]
    exact shutdown_decides s _

theorem handled_session {c c' : Client} {policy : LabPolicy} {at_ : UInt64} {tr : Transaction}
    (h : c.Handled policy at_ tr c') (hu : c'.used = true) : c'.session = c.session := by
  have hzero : c' ≠ .zero := by
    rintro rfl
    cases hu
  have hkept : Kept c c' → c'.session = c.session := by
    rintro ⟨k, rfl⟩
    rfl
  have hdecided : ∀ {next verdict seq}, c.Decided next verdict seq c' → c'.session = c.session := by
    rintro next verdict seq (⟨-, -, -, t, rfl⟩ | ⟨-, hz⟩ | ⟨-, -, rfl⟩)
    · rfl
    · exact absurd hz hzero
    · rfl
  cases tr with
  | other => exact hkept (h.resolve_right hzero)
  | pinged seq reason =>
    rcases h.2 with ⟨-, t, rfl⟩ | ⟨-, hc⟩
    · rfl
    · exact hkept (hc.resolve_right hzero)
  | requested r seq now reason => exact hdecided h.2.2
  | observed o seq now reason => exact hdecided h.2.2

/-- The session of a slot that stays in use is the same. -/
theorem session_kept (hi : SlotInv s) (hu : (s.slots i).used = true) (a : ServerAction)
    (hu' : ((s.act host a).slots i).used = true) : ((s.act host a).slots i).session = (s.slots i).session := by
  rcases act_slot host hi i a with hf | ⟨hf, -⟩ | ⟨-, ⟨-, k, hk⟩ | ⟨tr, -, hd⟩⟩
  · rw [hf] at hu'
    cases hu'
  · rw [hf] at hu
    cases hu
  · rw [hk]
  · exact handled_session hd hu'

end

end ArenaLab
