import ArenaLab.DecisionsSent

/-! The decisions of a session, as they are read from the datagrams that the server
sends, against the history of the session. -/

namespace ArenaLab

/-- The server with the history of the session that each slot holds, and with the
decisions sent in it. -/
structure Audited where
  watched : Watched
  decisions : Fin 32 → List LabDecision

def Audited.boot (config : ServerConfig) (listen : UInt32) : Audited := ⟨.boot config listen, fun _ => []⟩

def Audited.act (host : LabHost) (w : Audited) (a : ServerAction) : Audited where
  watched := w.watched.act host a
  decisions i :=
    if ((w.watched.server.act host a).slots i).used ∧ (w.watched.server.slots i).used then
      w.decisions i ++ w.watched.server.decided host i a
    else []

abbrev AuditedStep (host : LabHost) (w : Audited) (a : ServerAction) (w' : Audited) : Prop := w' = w.act host a

section

variable {host : LabHost} {s : Server} {i : Fin 32}

/-- The decisions of a session, and those due for its history. -/
def Audited.Faithful (host : LabHost) (w : Audited) (i : Fin 32) : Prop :=
  (w.decisions i).Sublist
      ((w.watched.history i).filterMap (Transaction.decision (w.watched.server.slots i).session)) ∧
    ((∀ k, host.sendOk k = true) → w.decisions i =
      (w.watched.history i).filterMap (Transaction.decision (w.watched.server.slots i).session))

variable {config : ServerConfig} {listen : UInt32} {τ : List ServerAction} {w w' : Audited}

theorem audited_watched (h : Runs.Steps (AuditedStep host) w τ w') :
    Runs.Steps (WatchedStep host) w.watched τ w'.watched := by
  induction h with
  | nil => exact .nil
  | snoc _ he ih =>
    subst he
    exact ih.snoc rfl

theorem faithful_of_run (h : Runs.Steps (AuditedStep host) (Audited.boot config listen) τ w) (i : Fin 32)
    (hu : (w.watched.server.slots i).used = true) : w.Faithful host i := by
  refine h.history (I := fun _ w => (w.watched.server.slots i).used = true → w.Faithful host i) ?_ ?_ hu
  · exact fun _ => ⟨List.Sublist.refl _, fun _ => rfl⟩
  · rintro τ w a w' hr ih rfl hu'
    have hi := slotInv_of_run (watched_server (audited_watched hr))
    cases hold : (w.watched.server.slots i).used with
    | false =>
      have hempty : (w.act host a).decisions i = [] := if_neg (by simp [hold])
      have hhistory : (w.act host a).watched.history i = [] := if_neg (by simp [hold])
      rw [Audited.Faithful, hempty, hhistory]
      exact ⟨List.Sublist.refl _, fun _ => rfl⟩
    | true =>
      have hsession : ((w.act host a).watched.server.slots i).session = (w.watched.server.slots i).session :=
        session_kept hi hold a hu'
      have hdecisions : (w.act host a).decisions i = w.decisions i ++ w.watched.server.decided host i a :=
        if_pos ⟨hu', hold⟩
      have hhistory : (w.act host a).watched.history i =
          w.watched.history i ++ w.watched.server.transactions host i a := if_pos ⟨hu', hold⟩
      obtain ⟨hsub, hall⟩ := ih hold
      rw [Audited.Faithful, hdecisions, hhistory, hsession, List.filterMap_append, decided_eq hi hold a]
      refine ⟨hsub.append ?_, fun hok => ?_⟩
      · split
        · exact List.Sublist.refl _
        · exact List.nil_sublist _
      · rw [hall hok, if_pos (hok _)]

/-- The requests of a history that are answered with `LAB_PENDING` are those issued. -/
theorem pending_decisions (session : Bytes 16) (history : List Transaction) :
    ((history.filterMap (Transaction.decision session)).filter (fun d => d.status = labPending)).map
        LabDecision.request_id =
      (history.filterMap Transaction.issued).map (fun x => x.1.request_id) := by
  have hne : labAccepted ≠ labPending ∧ labRejected ≠ labPending := by decide
  induction history with
  | nil => rfl
  | cons tr history ih =>
    cases tr with
    | other => exact ih
    | pinged seq reason => exact ih
    | requested r seq now reason =>
      by_cases hok : reason = .ok
      · subst hok
        simpa [Transaction.decision, Transaction.issued] using ih
      · have hissued : (Transaction.requested r seq now reason).issued = none := by
          cases reason <;> first | rfl | exact absurd rfl hok
        simpa [Transaction.decision, hissued, hok, hne.2] using ih
    | observed o seq now reason =>
      have hissued : ∀ reason, (Transaction.observed o seq now reason).issued = none := fun _ => rfl
      by_cases hok : reason = .ok
      · simpa [Transaction.decision, hissued, hok, hne.1] using ih
      · simpa [Transaction.decision, hissued, hok, hne.2] using ih

/-- The observations of a history that are answered with `LAB_ACCEPTED` are those taken. -/
theorem accepted_decisions (session : Bytes 16) (history : List Transaction) :
    ((history.filterMap (Transaction.decision session)).filter (fun d => d.status = labAccepted)).map
        LabDecision.request_id =
      (history.filterMap Transaction.answered).map LabObservation.request_id := by
  have hne : labPending ≠ labAccepted ∧ labRejected ≠ labAccepted := by decide
  induction history with
  | nil => rfl
  | cons tr history ih =>
    cases tr with
    | other => exact ih
    | pinged seq reason => exact ih
    | observed o seq now reason =>
      by_cases hok : reason = .ok
      · subst hok
        simpa [Transaction.decision, Transaction.answered] using ih
      · have hanswered : (Transaction.observed o seq now reason).answered = none := by
          cases reason <;> first | rfl | exact absurd rfl hok
        simpa [Transaction.decision, hanswered, hok, hne.2] using ih
    | requested r seq now reason =>
      have hanswered : ∀ reason, (Transaction.requested r seq now reason).answered = none := fun _ => rfl
      by_cases hok : reason = .ok
      · simpa [Transaction.decision, hanswered, hok, hne.1] using ih
      · simpa [Transaction.decision, hanswered, hok, hne.2] using ih

/-- An accepting decision comes of an observation that was taken. -/
theorem decision_accepted {session : Bytes 16} {tr : Transaction} {d : LabDecision}
    (h : tr.decision session = some d) (hs : d.status = labAccepted) :
    ∃ o seq now, tr = .observed o seq now .ok ∧ o.request_id = d.request_id := by
  cases tr with
  | other => cases h
  | pinged seq reason => cases h
  | requested r seq now reason =>
    cases h
    dsimp only at hs
    split at hs
    · exact absurd hs (by decide)
    · exact absurd hs (by decide)
  | observed o seq now reason =>
    cases h
    dsimp only at hs
    split at hs
    · rename_i hok
      exact ⟨o, seq, now, by rw [hok], rfl⟩
    · exact absurd hs (by decide)

/-- A rejecting decision comes of a request or an observation whose reason it gives. -/
theorem decision_rejected {session : Bytes 16} {tr : Transaction} {d : LabDecision}
    (h : tr.decision session = some d) (hs : d.status = labRejected) :
    ∃ seq reason, reason ≠ .ok ∧ d.reason = reason.code ∧
      ((∃ r now, tr = .requested r seq now reason) ∨ ∃ o now, tr = .observed o seq now reason) := by
  cases tr with
  | other => cases h
  | pinged seq reason => cases h
  | requested r seq now reason =>
    cases h
    dsimp only at hs
    split at hs
    · exact absurd hs (by decide)
    · rename_i hbad
      exact ⟨seq, reason, hbad, rfl, .inl ⟨r, now, rfl⟩⟩
  | observed o seq now reason =>
    cases h
    dsimp only at hs
    split at hs
    · exact absurd hs (by decide)
    · rename_i hbad
      exact ⟨seq, reason, hbad, rfl, .inr ⟨o, now, rfl⟩⟩

/-- A rejected request or observation leaves its slot alone, unless the numbers are
exhausted, which ends the session. -/
theorem transaction_rejected {a : ServerAction} {tr : Transaction} {seq : UInt32} {reason : Reason} (hi : SlotInv s)
    (hu : (s.slots i).used = true) (htr : tr ∈ s.transactions host i a) (hbad : reason ≠ .ok)
    (hkind : (∃ r now, tr = .requested r seq now reason) ∨ ∃ o now, tr = .observed o seq now reason) :
    reason ≠ .closing ∧ (s.act host a).slots i = s.slots i ∨
      reason = .closing ∧ (seq = uint32Max ∨ (s.slots i).sequence.next = uint32Max) ∧
        (s.act host a).slots i = .zero := by
  have hopen : (s.slots i).evidence.isOpen = true := congrArg Prod.fst (hi.sound i hu).2.2
  obtain ⟨tr', hone, hd⟩ := transactions_handled hi hu (List.ne_nil_of_mem htr)
  rw [hone] at htr
  obtain rfl := List.mem_singleton.mp htr
  rcases hkind with ⟨r, now, rfl⟩ | ⟨o, now, rfl⟩
  · obtain ⟨rfl, rfl, hd⟩ := hd
    exact decided_rejected hd (labPolicyRequest_open hopen) hbad
  · obtain ⟨rfl, rfl, hd⟩ := hd
    exact decided_rejected hd (labPolicyObservation_open hopen) hbad

/-- What holds of the session in slot `i`, of the decisions sent in it and of those that
any next round sends. -/
structure EvidenceSafe (host : LabHost) (policy : LabPolicy) (w : Audited) (i : Fin 32) : Prop where
  faithful : w.Faithful host i
  increasing : ((w.watched.history i).filterMap Transaction.issued).Pairwise
    (fun x y => x.1.request_id < y.1.request_id)
  pending : ((w.decisions i).filter (fun d => d.status = labPending)).Pairwise
    (fun d d' => d.request_id < d'.request_id)
  one_pending : ∀ pre pre' r r',
    PendingAfter policy (host.now w.watched.server.net.reads) (w.watched.history i) pre r →
    PendingAfter policy (host.now w.watched.server.net.reads) (w.watched.history i) pre' r' → pre = pre' ∧ r = r'
  matched : ∀ d ∈ w.decisions i, d.status = labAccepted → ∃ pre o seq now post,
    w.watched.history i = pre ++ .observed o seq now .ok :: post ∧ o.request_id = d.request_id ∧
      Answers policy pre o now
  taken : ∀ pre o seq now post, w.watched.history i = pre ++ .observed o seq now .ok :: post →
    Answers policy pre o now
  once : (((w.decisions i).filter (fun d => d.status = labAccepted)).map LabDecision.request_id).Nodup
  taken_once : (((w.watched.history i).filterMap Transaction.answered).map LabObservation.request_id).Nodup
  consumed : ((w.watched.history i).filterMap Transaction.consumed).Nodup
  decided : ∀ a, w.watched.server.decided host i a =
    if host.sendOk w.watched.server.net.sends then (w.watched.server.transactions host i a).filterMap
      (Transaction.decision (w.watched.server.slots i).session) else []
  rejected : ∀ a tr seq reason, tr ∈ w.watched.server.transactions host i a → reason ≠ .ok →
    (∃ r now, tr = .requested r seq now reason) ∨ (∃ o now, tr = .observed o seq now reason) →
    reason ≠ .closing ∧ (w.watched.server.act host a).slots i = w.watched.server.slots i ∨
      reason = .closing ∧ (seq = uint32Max ∨ (w.watched.server.slots i).sequence.next = uint32Max) ∧
        (w.watched.server.act host a).slots i = .zero
  refused : ∀ a, ∀ d ∈ w.watched.server.decided host i a, d.status = labRejected →
    d.reason ≠ Reason.closing.code ∧ (w.watched.server.act host a).slots i = w.watched.server.slots i ∨
      d.reason = Reason.closing.code ∧ (w.watched.server.act host a).slots i = .zero

theorem reason_code_inj {reason reason' : Reason} (h : reason.code = reason'.code) : reason = reason' := by
  cases reason <;> cases reason' <;> first | rfl | cases h

/-- Every session of every run: its accepted requests increase and at most one is pending,
an ACCEPTED decision answers the latest request in time and only once, no sequence number is
taken twice, and a REJECTED one leaves the slot as it was unless the numbers are exhausted,
which ends the session. -/
theorem evidence_transactions (hclock : ∀ j k, j ≤ k → host.now j ≤ host.now k)
    (h : Runs.Steps (AuditedStep host) (Audited.boot config listen) τ w) (i : Fin 32)
    (hu : (w.watched.server.slots i).used = true) : EvidenceSafe host config.policy w i := by
  have hrun := audited_watched h
  have hslot := slotInv_of_run (watched_server hrun)
  obtain ⟨-, hinv⟩ := sessionInv_of_run hclock hrun
  have hi := hinv i hu
  have hfaithful := faithful_of_run h i hu
  have hincreasing := hi.increasing
  have honce := hi.once
  constructor
  · exact hfaithful
  · exact List.pairwise_map.mp hincreasing
  · have hall : (((w.watched.history i).filterMap (Transaction.decision (w.watched.server.slots i).session)).filter
        (fun d => d.status = labPending)).Pairwise (fun d d' => d.request_id < d'.request_id) := by
      rw [← List.pairwise_map, pending_decisions]
      exact hincreasing
    exact hall.sublist (hfaithful.1.filter _)
  · exact fun pre pre' r r' => hi.pending_unique
  · intro d hd hs
    obtain ⟨tr, htr, hdecision⟩ := List.mem_filterMap.mp (hfaithful.1.subset hd)
    obtain ⟨o, seq, now, rfl, hid⟩ := decision_accepted hdecision hs
    obtain ⟨pre, post, hsplit⟩ := List.append_of_mem htr
    exact ⟨pre, o, seq, now, post, hsplit, hid, hi.matched pre o seq now post hsplit⟩
  · exact hi.matched
  · refine List.Nodup.sublist ((hfaithful.1.filter _).map _) ?_
    rw [accepted_decisions]
    exact honce
  · exact honce
  · simpa using hi.ring.once
  · exact decided_eq hslot hu
  · exact fun a tr seq reason htr hbad hkind => transaction_rejected hslot hu htr hbad hkind
  · intro a d hd hs
    rw [decided_eq hslot hu] at hd
    split at hd
    · obtain ⟨tr, htr, hdecision⟩ := List.mem_filterMap.mp hd
      obtain ⟨seq, reason, hbad, hreason, hkind⟩ := decision_rejected hdecision hs
      rcases transaction_rejected hslot hu htr hbad hkind with ⟨hopen, hsame⟩ | ⟨hclosing, -, hzero⟩
      · exact .inl ⟨fun he => hopen (reason_code_inj (hreason.symm.trans he)), hsame⟩
      · exact .inr ⟨by rw [hreason, hclosing], hzero⟩
    · cases hd

end

def steadyLabHost : LabHost := { sampleLabHost with now := fun k => UInt64.ofNat (min k 1000) }

theorem steadyLabHost_clock (j k : ℕ) (h : j ≤ k) : steadyLabHost.now j ≤ steadyLabHost.now k := by
  have hj : (UInt64.ofNat (min j 1000)).toNat = min j 1000 := UInt64.toNat_ofNat_of_lt' (by
    show min j 1000 < 2 ^ 64
    omega)
  have hk : (UInt64.ofNat (min k 1000)).toNat = min k 1000 := UInt64.toNat_ofNat_of_lt' (by
    show min k 1000 < 2 ^ 64
    omega)
  rw [UInt64.le_iff_toNat_le]
  show (UInt64.ofNat (min j 1000)).toNat ≤ (UInt64.ofNat (min k 1000)).toNat
  rw [hj, hk]
  omega

def sampleRequestDatagram : List UInt8 :=
  (Payload.request ⟨Vector.replicate 16 7, 5, Vector.replicate 16 1, originLinux, 3, selfReported, 0,
    9⟩).datagram 1

/-- An observation of this seed; the request asks for 9. -/
def sampleObservationDatagram (seed : UInt32) : List UInt8 :=
  (Payload.observation ⟨Vector.replicate 16 7, 5, Vector.replicate 16 1, Vector.replicate 16 4, originLinux,
    3, selfReported, 1, seed, 0, 0, Vector.replicate 36 0⟩).datagram 2

def sampleEvidenceActions : List ServerAction :=
  [.datagram (samplePeer 5000) (sampleHello 1), .datagram (samplePeer 5000) sampleRequestDatagram,
    .datagram (samplePeer 5000) (sampleObservationDatagram 8),
    .datagram (samplePeer 5000) (sampleObservationDatagram 9)]

def sampleAudit : Audited :=
  sampleEvidenceActions.foldl (Audited.act steadyLabHost) (.boot sampleServerConfig 0)

theorem sampleAudit_run : Runs.Steps (AuditedStep steadyLabHost) (Audited.boot sampleServerConfig 0)
    sampleEvidenceActions sampleAudit :=
  (((Runs.Steps.single rfl).snoc rfl).snoc rfl).snoc rfl

theorem sampleAudit_used : (sampleAudit.watched.server.slots 0).used = true := by decide +kernel

/-- A wrong observation is rejected, and the right one behind it is still accepted. -/
theorem evidence_transactions_sample :
    (sampleAudit.decisions 0).map LabDecision.status = [labPending, labRejected, labAccepted] ∧
    (sampleAudit.watched.history 0).filterMap Transaction.consumed = [1, 2] ∧
    EvidenceSafe steadyLabHost sampleServerConfig.policy sampleAudit 0 :=
  ⟨by decide +kernel, by decide +kernel,
    evidence_transactions steadyLabHost_clock sampleAudit_run 0 sampleAudit_used⟩

end ArenaLab
