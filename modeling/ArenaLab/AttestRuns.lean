import ArenaLab.AttestServer
import ArenaLab.BoundNonceInj
import ArenaLab.Runs

/-! Concurrent runs of the challenge server. Lock sections are single steps,
any number of reserved submissions are being verified at once, and the outcome
of each verification is arbitrary. -/

namespace ArenaLab

structure AttestState where
  server : AttestServer
  inflight : List Reservation
  tape : Tape

inductive AttestEvent
  | issued (owner : String) (reply : Except ValueError Handed)
  | submitted (owner : String) (message : Dict) (reply : SubmitReply)
  | verified (reservation : Reservation) (challenge : Challenge) (outcome : VerifyOutcome)
      (now : ℚ) (reply : Option Attestation)

inductive AttestAction
  | issue (owner : String)
  | submit (owner : String) (message : Dict)
  | verify (place : ℕ) (outcome : VerifyOutcome)

def AttestState.next (host : Host) (s : AttestState) :
    AttestAction → Option (AttestEvent × AttestState)
  | .issue owner =>
    let (srv, t, reply) := s.server.issue host s.tape owner
    some (.issued owner reply, ⟨srv, s.inflight, t⟩)
  | .submit owner message =>
    let (srv, t, reply) := s.server.reserve host s.tape owner message
    let inflight := match reply with
      | .reserved reservation _ => s.inflight ++ [reservation]
      | _ => s.inflight
    some (.submitted owner message reply, ⟨srv, inflight, t⟩)
  | .verify place outcome => do
    let reservation ← s.inflight[place]?
    let session ← s.server.heap[reservation.session]?
    let (t, reply) := conclude host s.tape reservation.base session.deadline outcome
    some (.verified reservation session.challenge outcome (host.clock s.tape.reads) reply,
      ⟨s.server, s.inflight.eraseIdx place, t⟩)

abbrev AttestStep (host : Host) := Runs.Induced (fun s => AttestState.next host s)

def AttestEvent.reserves (r : ℕ) : AttestEvent → Bool
  | .submitted _ _ (.reserved reservation _) => reservation.session = r
  | _ => false

def AttestEvent.verifies (r : ℕ) : AttestEvent → Bool
  | .verified reservation _ _ _ _ => reservation.session = r
  | _ => false

theorem freshSid_spec {host : Host} {sessions : AList (fun _ : String => ℕ)} {fuel : ℕ}
    {t t' : Tape} {sid : HexStr 32} {found : Option (HexStr 32)}
    (h : freshSid host sessions fuel t sid = (found, t')) :
    (∀ sid', found = some sid' → sid'.text ∉ sessions) ∧ t'.reads = t.reads ∧ t.draws ≤ t'.draws := by
  induction fuel generalizing t sid with
  | zero =>
    simp only [freshSid, Prod.mk.injEq] at h
    obtain ⟨rfl, rfl⟩ := h
    exact ⟨by simp, rfl, le_refl _⟩
  | succ fuel ih =>
    by_cases hm : sid.text ∈ sessions
    · rw [freshSid, if_pos hm] at h
      obtain ⟨hf, hr, hd⟩ := ih h
      have hdraws : t.draws + 1 ≤ t'.draws := by simpa using hd
      exact ⟨hf, hr, by omega⟩
    · rw [freshSid, if_neg hm] at h
      obtain ⟨rfl, rfl⟩ := Prod.mk.inj h
      refine ⟨?_, rfl, le_refl _⟩
      intro sid' he
      rw [← Option.some.inj he]
      exact hm

@[simp] theorem pruned_heap (srv : AttestServer) (now : ℚ) : (srv.pruned now).heap = srv.heap := rfl

@[simp] theorem pruned_maximum (srv : AttestServer) (now : ℚ) :
    (srv.pruned now).maximum = srv.maximum := rfl

@[simp] theorem pruned_bound (srv : AttestServer) (now : ℚ) :
    (srv.pruned now).bound = srv.bound := rfl

theorem pruned_length (srv : AttestServer) (now : ℚ) :
    (srv.pruned now).sessions.entries.length ≤ srv.sessions.entries.length :=
  List.length_filter_le _ _

theorem baseIssue_cases {host : Host} {srv srv' : AttestServer} {t t' : Tape} {owner : String}
    {reply : Except ValueError Handed} (h : srv.baseIssue host t owner = (srv', t', reply)) :
    t'.reads = t.reads + 1 ∧ t.draws ≤ t'.draws ∧
    ((srv' = srv.pruned (host.clock t.reads) ∧ ∃ e, reply = .error e) ∨
      ∃ sid session, srv' = (srv.pruned (host.clock t.reads)).store sid session ∧
        sid.text ∉ (srv.pruned (host.clock t.reads)).sessions ∧
        (srv.pruned (host.clock t.reads)).sessions.entries.length < srv.maximum ∧
        session.owner = owner ∧ session.used = false ∧
        session.deadline = host.clock t.reads + srv.ttl_ms / 1000 ∧
        reply = .ok ⟨srv.heap.length, session.challenge, session.deadline⟩) := by
  simp only [AttestServer.baseIssue] at h
  split at h
  · obtain ⟨rfl, rfl, rfl⟩ := h
    exact ⟨rfl, le_refl _, .inl ⟨rfl, _, rfl⟩⟩
  · rename_i hlen
    split at h
    · rename_i hf
      obtain ⟨rfl, rfl, rfl⟩ := h
      obtain ⟨_, hr, hd⟩ := freshSid_spec hf
      simp only [Tape.draw_draws, Tape.read_draws] at hd
      exact ⟨hr, by omega, .inl ⟨rfl, _, rfl⟩⟩
    · rename_i hf
      obtain ⟨rfl, rfl, rfl⟩ := h
      obtain ⟨hm, hr, hd⟩ := freshSid_spec hf
      have hroom := Nat.lt_of_not_ge hlen
      refine ⟨hr, ?_, .inr ⟨_, _, rfl, hm _ rfl, hroom, rfl, rfl, rfl, rfl⟩⟩
      simp only [Tape.draw_draws, Tape.read_draws, Tape.readWall_draws] at hd ⊢
      omega

theorem modify_last {α : Type*} (xs : List α) (x : α) (f : α → α) :
    (xs ++ [x]).modify xs.length f = xs ++ [f x] := by
  induction xs with
  | nil => rfl
  | cons y xs ih => simp [ih]

theorem issue_cases {host : Host} {srv srv' : AttestServer} {t t' : Tape} {owner : String}
    {reply : Except ValueError Handed} (h : srv.issue host t owner = (srv', t', reply)) :
    t'.reads = t.reads + 1 ∧ t.draws ≤ t'.draws ∧ srv'.maximum = srv.maximum ∧
    ((srv'.heap = srv.heap ∧ srv'.sessions.entries.length ≤ srv.sessions.entries.length ∧
        ∃ e, reply = .error e) ∨
      ∃ session : Session, srv'.heap = srv.heap ++ [session] ∧
        srv'.sessions.entries.length ≤ srv.maximum ∧
        session.owner = owner ∧ session.used = false ∧
        session.deadline = host.clock t.reads + srv.ttl_ms / 1000 ∧
        (∀ binding salt, srv.bound = some (binding, salt) →
          boundNonce host binding salt.text = some session.challenge.nonce) ∧
        reply = .ok ⟨srv.heap.length, session.challenge, session.deadline⟩) := by
  have hlen : ∀ (pruned : AttestServer) (sid : HexStr 32) (session : Session),
      sid.text ∉ pruned.sessions →
      (pruned.store sid session).sessions.entries.length = pruned.sessions.entries.length + 1 := by
    intro pruned sid session hm
    change (pruned.sessions.insert sid.text pruned.heap.length).entries.length = _
    rw [AList.entries_insert_of_notMem hm, List.length_cons]
  generalize hb : srv.baseIssue host t owner = base at h
  obtain ⟨srv₁, t₁, reply₁⟩ := base
  obtain ⟨hr, hd, hcase⟩ := baseIssue_cases hb
  rcases hcase with ⟨rfl, e, rfl⟩ | ⟨sid, session, rfl, hm, hl, ho, hu, hdl, rfl⟩
  · simp only [AttestServer.issue, hb, Prod.mk.injEq] at h
    obtain ⟨rfl, rfl, rfl⟩ := h
    exact ⟨hr, hd, rfl, .inl ⟨rfl, pruned_length _ _, e, rfl⟩⟩
  · cases hbound : srv.bound with
    | none =>
      simp only [AttestServer.issue, hb, hbound, Prod.mk.injEq] at h
      obtain ⟨rfl, rfl, rfl⟩ := h
      refine ⟨hr, hd, rfl, .inr ⟨session, rfl, ?_, ho, hu, hdl, by simp, rfl⟩⟩
      rw [hlen _ _ _ hm]
      omega
    | some bound =>
      obtain ⟨binding, salt⟩ := bound
      obtain ⟨data, _, hn⟩ := boundNonce_isSome host binding salt
      simp only [AttestServer.issue, hb, hbound, hn, Prod.mk.injEq] at h
      obtain ⟨rfl, rfl, rfl⟩ := h
      refine ⟨hr, hd, rfl, .inr ⟨{ session with challenge :=
        { session.challenge with nonce := hexdigest (host.sha256 data) } }, ?_, ?_, ho, hu, hdl, ?_, rfl⟩⟩
      · exact modify_last srv.heap session _
      · rw [hlen _ _ _ hm]
        omega
      · intro binding' salt' he
        obtain ⟨rfl, rfl⟩ := Prod.mk.inj (Option.some.inj he)
        exact hn

theorem issue_new {host : Host} {srv : AttestServer} (t : Tape) (owner : String)
    (hs : srv.sessions = ∅) (hm : 1 ≤ srv.maximum) :
    ∃ srv' t' handed, srv.issue host t owner = (srv', t', .ok handed) := by
  have hp : (srv.pruned (host.clock t.reads)).sessions = ∅ := by
    simp [AttestServer.pruned, hs]
  have hb : ∃ srv' t' handed, srv.baseIssue host t owner = (srv', t', .ok handed) := by
    have hz : srv.maximum ≠ 0 := by omega
    simp [AttestServer.baseIssue, hp, freshSid, hz]
  obtain ⟨srv', t', handed, hb⟩ := hb
  cases hbound : srv.bound with
  | none => exact ⟨srv', t', handed, by simp [AttestServer.issue, hb, hbound]⟩
  | some bound =>
    obtain ⟨binding, salt⟩ := bound
    obtain ⟨data, _, hn⟩ := boundNonce_isSome host binding salt
    simp only [AttestServer.issue, hb, hbound, hn]
    exact ⟨_, _, _, rfl⟩

theorem reserve_cases {host : Host} {srv srv' : AttestServer} {t t' : Tape} {owner : String}
    {message : Dict} {reply : SubmitReply}
    (h : srv.reserve host t owner message = (srv', t', reply)) :
    (srv' = srv ∧ ((∃ e, reply = .refused e) ∨
      ∃ attestation, reply = .returned attestation ∧ attestation.decision = .deny)) ∨
    ∃ i session base, srv.heap[i]? = some session ∧ session.owner = owner ∧
      session.used = false ∧ host.clock t.reads < session.deadline ∧ base.decision = .deny ∧
      srv' = { srv with heap := srv.heap.set i { session with used := true } } ∧
      reply = .reserved ⟨owner, message, i, base⟩ (host.clock t.reads) := by
  have hdeny : ∀ sid reasons, ({ srv.base sid with reasons := reasons } : Attestation).decision = .deny :=
    fun _ _ => rfl
  simp only [AttestServer.reserve] at h
  split at h
  · obtain ⟨rfl, _, rfl⟩ := h
    exact .inl ⟨rfl, .inl ⟨_, rfl⟩⟩
  · split at h
    · rename_i sid _
      split at h
      · obtain ⟨rfl, _, rfl⟩ := h
        exact .inl ⟨rfl, .inl ⟨_, rfl⟩⟩
      · split at h
        · obtain ⟨rfl, _, rfl⟩ := h
          exact .inl ⟨rfl, .inr ⟨_, rfl, hdeny _ _⟩⟩
        · rename_i i session hlook
          obtain ⟨j, _, hm⟩ := Option.bind_eq_some_iff.mp hlook
          obtain ⟨session', hs, he⟩ := Option.map_eq_some_iff.mp hm
          obtain ⟨rfl, rfl⟩ := Prod.mk.inj he
          split at h
          · obtain ⟨rfl, _, rfl⟩ := h
            exact .inl ⟨rfl, .inr ⟨_, rfl, hdeny _ _⟩⟩
          · rename_i howner
            split at h
            · obtain ⟨rfl, _, rfl⟩ := h
              exact .inl ⟨rfl, .inr ⟨_, rfl, hdeny _ _⟩⟩
            · rename_i hused
              split at h
              · obtain ⟨rfl, _, rfl⟩ := h
                exact .inl ⟨rfl, .inr ⟨_, rfl, hdeny _ _⟩⟩
              · rename_i hnow
                obtain ⟨rfl, _, rfl⟩ := h
                exact .inr ⟨j, session', srv.base sid, hs, (not_ne_iff.mp howner).symm,
                  Bool.eq_false_iff.mpr hused, not_le.mp hnow, rfl, rfl, rfl⟩
    · obtain ⟨rfl, _, rfl⟩ := h
      exact .inl ⟨rfl, .inl ⟨_, rfl⟩⟩

theorem conclude_allow {host : Host} {t t' : Tape} {base : Attestation} {deadline : ℚ}
    {outcome : VerifyOutcome} {attestation : Attestation} (hb : base.decision = .deny)
    (h : conclude host t base deadline outcome = (t', some attestation))
    (ha : attestation.decision = .allow) :
    host.clock t.reads < deadline ∧
      ∃ verdict, outcome = .result verdict ∧ verdict.reason = passReason := by
  cases outcome with
  | valueError =>
    obtain ⟨_, he⟩ := Prod.mk.inj h
    rw [← Option.some.inj he] at ha
    simp [hb] at ha
  | toolError =>
    obtain ⟨_, he⟩ := Prod.mk.inj h
    rw [← Option.some.inj he] at ha
    simp at ha
  | otherError => simp [conclude] at h
  | result verdict =>
    simp only [conclude] at h
    split at h
    · obtain ⟨_, he⟩ := Prod.mk.inj h
      rw [← Option.some.inj he] at ha
      simp [Attestation.settle, passReason] at ha
    · rename_i hnow
      obtain ⟨_, he⟩ := Prod.mk.inj h
      rw [← Option.some.inj he] at ha
      refine ⟨not_le.mp hnow, verdict, rfl, ?_⟩
      by_contra hr
      simp [Attestation.settle, hr] at ha

end ArenaLab
