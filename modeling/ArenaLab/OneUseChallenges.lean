import ArenaLab.AttestRuns

/-! Every challenge of the server is verified at most once, and only a
verification that starts and ends inside its lifetime can allow. -/

namespace ArenaLab

/-- How the trace so far accounts for every session record. -/
structure AttestHistory (maximum : ℕ) (τ : List AttestEvent) (s : AttestState) : Prop where
  issued : ∀ r session, s.server.heap[r]? = some session →
    .issued session.owner (.ok ⟨r, session.challenge, session.deadline⟩) ∈ τ
  reserved : ∀ r session, s.server.heap[r]? = some session →
    τ.countP (·.reserves r) = if session.used then 1 else 0
  beyond : ∀ r, s.server.heap.length ≤ r → τ.countP (·.reserves r) = 0
  balance : ∀ r, τ.countP (·.verifies r) + s.inflight.countP (fun x => x.session = r) =
    τ.countP (·.reserves r)
  inflight : ∀ x ∈ s.inflight, x.base.decision = .deny ∧
    ∃ session now, s.server.heap[x.session]? = some session ∧ session.owner = x.owner ∧
      .submitted x.owner x.message (.reserved x now) ∈ τ ∧ now < session.deadline
  capacity : s.server.maximum = maximum
  bounded : s.server.sessions.entries.length ≤ maximum

theorem AttestHistory.quiet {maximum : ℕ} {τ : List AttestEvent} {s s' : AttestState}
    {e : AttestEvent} (h : AttestHistory maximum τ s) (hheap : s'.server.heap = s.server.heap)
    (hfly : s'.inflight = s.inflight) (hmax : s'.server.maximum = s.server.maximum)
    (hlen : s'.server.sessions.entries.length ≤ s.server.sessions.entries.length)
    (hr : ∀ r, e.reserves r = false) (hv : ∀ r, e.verifies r = false) :
    AttestHistory maximum (τ ++ [e]) s' := by
  constructor
  · intro r session hs
    rw [hheap] at hs
    exact List.mem_append_left _ (h.issued r session hs)
  · intro r session hs
    rw [hheap] at hs
    simpa [List.countP_append, hr r] using h.reserved r session hs
  · intro r hl
    rw [hheap] at hl
    simpa [List.countP_append, hr r] using h.beyond r hl
  · intro r
    simpa [List.countP_append, hr r, hv r, hfly] using h.balance r
  · intro x hx
    rw [hfly] at hx
    obtain ⟨hd, session, now, hs, ho, hm, hn⟩ := h.inflight x hx
    have hs' : s'.server.heap[x.session]? = some session := by
      rw [hheap]
      exact hs
    exact ⟨hd, session, now, hs', ho, List.mem_append_left _ hm, hn⟩
  · exact hmax.trans h.capacity
  · exact hlen.trans h.bounded

theorem AttestHistory.issue {maximum : ℕ} {τ : List AttestEvent} {s s' : AttestState}
    {owner : String} {session : Session} (h : AttestHistory maximum τ s)
    (hheap : s'.server.heap = s.server.heap ++ [session]) (ho : session.owner = owner)
    (hu : session.used = false) (hfly : s'.inflight = s.inflight)
    (hmax : s'.server.maximum = s.server.maximum)
    (hlen : s'.server.sessions.entries.length ≤ maximum) :
    AttestHistory maximum (τ ++ [.issued owner
      (.ok ⟨s.server.heap.length, session.challenge, session.deadline⟩)]) s' := by
  have hold : ∀ (r : ℕ) (x : Session), s.server.heap[r]? = some x → s'.server.heap[r]? = some x := by
    intro r x hx
    rw [hheap]
    exact List.getElem?_concat_of_some hx
  have hnew : ∀ (r : ℕ) (x : Session), s'.server.heap[r]? = some x →
      s.server.heap[r]? = some x ∨ r = s.server.heap.length ∧ session = x := by
    intro r x hx
    rw [hheap] at hx
    exact List.getElem?_concat_some hx
  have hr : ∀ r, AttestEvent.reserves r (.issued owner
      (.ok ⟨s.server.heap.length, session.challenge, session.deadline⟩)) = false := fun _ => rfl
  have hv : ∀ r, AttestEvent.verifies r (.issued owner
      (.ok ⟨s.server.heap.length, session.challenge, session.deadline⟩)) = false := fun _ => rfl
  constructor
  · intro r x hx
    rcases hnew r x hx with hx | ⟨rfl, rfl⟩
    · exact List.mem_append_left _ (h.issued r x hx)
    · rw [ho]
      exact List.mem_append_right _ (List.mem_singleton.mpr rfl)
  · intro r x hx
    rw [List.countP_append, List.countP_singleton, hr]
    rcases hnew r x hx with hx | ⟨rfl, rfl⟩
    · simpa using h.reserved r x hx
    · simpa [hu] using h.beyond _ (le_refl _)
  · intro r hl
    rw [hheap, List.length_append] at hl
    simpa [List.countP_append, hr] using h.beyond r (by omega)
  · intro r
    simpa [List.countP_append, hr, hv, hfly] using h.balance r
  · intro x hx
    rw [hfly] at hx
    obtain ⟨hd, y, now, hy, hyo, hm, hn⟩ := h.inflight x hx
    exact ⟨hd, y, now, hold _ _ hy, hyo, List.mem_append_left _ hm, hn⟩
  · exact hmax.trans h.capacity
  · exact hlen

theorem AttestHistory.reserve {maximum : ℕ} {τ : List AttestEvent} {s s' : AttestState}
    {x : Reservation} {session : Session} {now : ℚ} (h : AttestHistory maximum τ s)
    (hs : s.server.heap[x.session]? = some session) (ho : session.owner = x.owner)
    (hu : session.used = false) (hn : now < session.deadline) (hb : x.base.decision = .deny)
    (hsrv : s'.server = { s.server with
      heap := s.server.heap.set x.session { session with used := true } })
    (hfly : s'.inflight = s.inflight ++ [x]) :
    AttestHistory maximum (τ ++ [.submitted x.owner x.message (.reserved x now)]) s' := by
  have hheap : s'.server.heap = s.server.heap.set x.session { session with used := true } := by
    rw [hsrv]
  have hself : s'.server.heap[x.session]? = some { session with used := true } := by
    rw [hheap, List.getElem?_set_of_some hs]
  have hother : ∀ r, x.session ≠ r → s'.server.heap[r]? = s.server.heap[r]? := by
    intro r hr
    rw [hheap, List.getElem?_set_ne hr]
  have hr : ∀ r, (τ ++ [AttestEvent.submitted x.owner x.message (.reserved x now)]).countP
      (·.reserves r) = τ.countP (·.reserves r) + if x.session = r then 1 else 0 := by
    intro r
    simp [List.countP_append, List.countP_singleton, AttestEvent.reserves]
  have hv : ∀ r, AttestEvent.verifies r (.submitted x.owner x.message (.reserved x now)) = false :=
    fun _ => rfl
  have hzero := h.reserved _ _ hs
  rw [hu] at hzero
  constructor
  · intro r y hy
    by_cases he : x.session = r
    · subst he
      obtain rfl := Option.some.inj (hself.symm.trans hy)
      have hi := h.issued _ _ hs
      exact List.mem_append_left _ hi
    · rw [hother r he] at hy
      exact List.mem_append_left _ (h.issued r y hy)
  · intro r y hy
    rw [hr]
    by_cases he : x.session = r
    · subst he
      obtain rfl := Option.some.inj (hself.symm.trans hy)
      simpa using hzero
    · rw [hother r he] at hy
      simpa [he] using h.reserved r y hy
  · intro r hl
    rw [hheap, List.length_set] at hl
    have hlt := (List.getElem?_eq_some_iff.mp hs).1
    rw [hr, if_neg (by omega), h.beyond r hl]
  · intro r
    rw [hr, ← h.balance r]
    simp [List.countP_append, List.countP_singleton, hv, hfly]
    omega
  · intro y hy
    rw [hfly] at hy
    rcases List.mem_append.mp hy with hy | hy
    · obtain ⟨hd, z, at', hz, hzo, hm, hlt'⟩ := h.inflight y hy
      by_cases he : x.session = y.session
      · rw [← he, hs] at hz
        obtain rfl := Option.some.inj hz
        rw [he] at hself
        exact ⟨hd, _, at', hself, hzo, List.mem_append_left _ hm, hlt'⟩
      · have hz' : s'.server.heap[y.session]? = some z := by
          rw [hother _ he]
          exact hz
        exact ⟨hd, z, at', hz', hzo, List.mem_append_left _ hm, hlt'⟩
    · obtain rfl := List.mem_singleton.mp hy
      exact ⟨hb, _, now, hself, ho, List.mem_append_right _ (List.mem_singleton.mpr rfl), hn⟩
  · rw [hsrv]
    exact h.capacity
  · rw [hsrv]
    exact h.bounded

theorem countP_eraseIdx {α : Type*} {p : α → Bool} {xs : List α} {i : ℕ} {x : α}
    (h : xs[i]? = some x) :
    xs.countP p = (xs.eraseIdx i).countP p + if p x then 1 else 0 := by
  induction xs generalizing i with
  | nil => simp at h
  | cons y xs ih =>
    cases i with
    | zero =>
      obtain rfl := Option.some.inj h
      simp [List.countP_cons]
    | succ i =>
      have hh := ih (by simpa using h)
      simp only [List.countP_cons, List.eraseIdx_cons_succ, hh]
      omega

theorem AttestHistory.verify {maximum : ℕ} {τ : List AttestEvent} {s s' : AttestState}
    {place : ℕ} {x : Reservation} {challenge : Challenge} {outcome : VerifyOutcome} {now : ℚ}
    {reply : Option Attestation} (h : AttestHistory maximum τ s)
    (hx : s.inflight[place]? = some x) (hsrv : s'.server = s.server)
    (hfly : s'.inflight = s.inflight.eraseIdx place) :
    AttestHistory maximum (τ ++ [.verified x challenge outcome now reply]) s' := by
  have hr : ∀ r, AttestEvent.reserves r (.verified x challenge outcome now reply) = false :=
    fun _ => rfl
  constructor
  · intro r y hy
    rw [hsrv] at hy
    exact List.mem_append_left _ (h.issued r y hy)
  · intro r y hy
    rw [hsrv] at hy
    simpa [List.countP_append, hr] using h.reserved r y hy
  · intro r hl
    rw [hsrv] at hl
    simpa [List.countP_append, hr] using h.beyond r hl
  · intro r
    have hb := h.balance r
    rw [countP_eraseIdx hx] at hb
    simp only [List.countP_append, List.countP_singleton, hr, hfly, AttestEvent.verifies,
      decide_eq_true_eq] at hb ⊢
    simp only [Bool.false_eq_true, if_false, Nat.add_zero] at hb ⊢
    omega
  · intro y hy
    rw [hfly] at hy
    obtain ⟨hd, z, at', hz, hzo, hm, hlt⟩ := h.inflight y (List.mem_of_mem_eraseIdx hy)
    exact ⟨hd, z, at', by rw [hsrv]; exact hz, hzo, List.mem_append_left _ hm, hlt⟩
  · rw [hsrv]
    exact h.capacity
  · rw [hsrv]
    exact h.bounded

theorem AttestHistory.step {host : Host} {maximum : ℕ} {τ : List AttestEvent}
    {s s' : AttestState} {e : AttestEvent} (h : AttestHistory maximum τ s)
    (hstep : AttestStep host s e s') : AttestHistory maximum (τ ++ [e]) s' := by
  obtain ⟨action, hn⟩ := hstep
  cases action with
  | issue owner =>
    generalize hi : s.server.issue host s.tape owner = result at hn
    obtain ⟨srv, t, reply⟩ := result
    simp only [AttestState.next, hi] at hn
    obtain ⟨rfl, rfl⟩ := Prod.mk.inj (Option.some.inj hn)
    obtain ⟨_, _, hmax, hcase⟩ := issue_cases hi
    rcases hcase with ⟨hheap, hlen, err, hreply⟩ | ⟨session, hheap, hlen, ho, hu, _, _, hreply⟩
    · rw [hreply]
      exact h.quiet hheap rfl hmax hlen (fun _ => rfl) (fun _ => rfl)
    · rw [hreply]
      exact h.issue hheap ho hu rfl hmax (hlen.trans h.capacity.le)
  | submit owner message =>
    generalize hi : s.server.reserve host s.tape owner message = result at hn
    obtain ⟨srv, t, reply⟩ := result
    simp only [AttestState.next, hi] at hn
    obtain ⟨rfl, rfl⟩ := Prod.mk.inj (Option.some.inj hn)
    rcases reserve_cases hi with
      ⟨hsrv, hreply⟩ | ⟨i, session, base, hs, ho, hu, hnow, hb, hsrv, hreply⟩
    · rcases hreply with ⟨err, hreply⟩ | ⟨attestation, hreply, _⟩ <;>
        rw [hreply] <;>
        exact h.quiet (congrArg _ hsrv) rfl (congrArg _ hsrv) (by simp [hsrv])
          (fun _ => rfl) (fun _ => rfl)
    · rw [hreply]
      exact h.reserve (x := ⟨owner, message, i, base⟩) hs ho hu hnow hb hsrv rfl
  | verify place outcome =>
    simp only [AttestState.next, Option.bind_eq_bind, Option.bind_eq_some_iff] at hn
    obtain ⟨x, hx, session, hs, he⟩ := hn
    obtain ⟨rfl, rfl⟩ := Prod.mk.inj (Option.some.inj he)
    exact h.verify hx rfl rfl

theorem attestHistory_of_run {host : Host} {verifier : Verifier} {ttl_ms maximum : ℕ}
    {bound : Option (Binding × HexStr 64)} {srv : AttestServer} {t : Tape}
    {τ : List AttestEvent} {s : AttestState}
    (hc : AttestServer.create verifier ttl_ms maximum bound = .ok srv)
    (h : Runs.Steps (AttestStep host) ⟨srv, [], t⟩ τ s) : AttestHistory maximum τ s := by
  have hnew : srv.heap = [] ∧ srv.sessions = ∅ ∧ srv.maximum = maximum := by
    simp only [AttestServer.create] at hc
    split at hc
    · rw [← Except.ok.inj hc]
      exact ⟨rfl, rfl, rfl⟩
    · cases hc
  obtain ⟨hheap, hses, hmax⟩ := hnew
  refine h.history ?_ (fun _ _ _ _ _ hi he => hi.step he)
  constructor <;> simp [hheap, hses, hmax]

def AttestEvent.decision : AttestEvent → Option Decision
  | .submitted _ _ (.returned attestation) => some attestation.decision
  | .verified _ _ _ _ (some attestation) => some attestation.decision
  | _ => none

/-- The event ends a verification of the very challenge that was handed to its
owner, reserved once, and begun and finished before the deadline. -/
def EarnedAllow (pre : List AttestEvent) (e : AttestEvent) : Prop :=
  ∃ x challenge verdict now attestation reservedAt deadline,
    e = .verified x challenge (.result verdict) now (some attestation) ∧
    verdict.reason = passReason ∧
    .issued x.owner (.ok ⟨x.session, challenge, deadline⟩) ∈ pre ∧
    .submitted x.owner x.message (.reserved x reservedAt) ∈ pre ∧
    pre.countP (·.reserves x.session) = 1 ∧ reservedAt < deadline ∧ now < deadline

theorem AttestHistory.earned {host : Host} {maximum : ℕ} {τ : List AttestEvent}
    {s s' : AttestState} {e : AttestEvent} (h : AttestHistory maximum τ s)
    (hstep : AttestStep host s e s') (ha : e.decision = some .allow) : EarnedAllow τ e := by
  obtain ⟨action, hn⟩ := hstep
  cases action with
  | issue owner =>
    simp only [AttestState.next] at hn
    obtain ⟨rfl, _⟩ := Prod.mk.inj (Option.some.inj hn)
    simp [AttestEvent.decision] at ha
  | submit owner message =>
    generalize hi : s.server.reserve host s.tape owner message = result at hn
    obtain ⟨srv, t, reply⟩ := result
    simp only [AttestState.next, hi] at hn
    obtain ⟨rfl, _⟩ := Prod.mk.inj (Option.some.inj hn)
    rcases reserve_cases hi with
      ⟨_, ⟨err, rfl⟩ | ⟨attestation, rfl, hd⟩⟩ | ⟨i, session, base, _, _, _, _, _, _, rfl⟩
    · simp [AttestEvent.decision] at ha
    · simp [AttestEvent.decision, hd] at ha
    · simp [AttestEvent.decision] at ha
  | verify place outcome =>
    simp only [AttestState.next, Option.bind_eq_bind, Option.bind_eq_some_iff] at hn
    obtain ⟨x, hx, session, hs, he⟩ := hn
    generalize hcon : conclude host s.tape x.base session.deadline outcome = result at he
    obtain ⟨t, reply⟩ := result
    obtain ⟨rfl, _⟩ := Prod.mk.inj (Option.some.inj he)
    cases reply with
    | none => simp [AttestEvent.decision] at ha
    | some attestation =>
      obtain ⟨hb, session', now, hs', ho, hm, hnow⟩ := h.inflight x (List.mem_of_getElem? hx)
      obtain rfl := Option.some.inj (hs.symm.trans hs')
      obtain ⟨hlt, verdict, rfl, hr⟩ := conclude_allow hb hcon (Option.some.inj ha)
      have hone : τ.countP (·.reserves x.session) = 1 := by
        have hpos : 0 < τ.countP (·.reserves x.session) :=
          List.countP_pos_iff.mpr ⟨_, hm, by simp [AttestEvent.reserves]⟩
        have hc := h.reserved _ _ hs
        split at hc <;> omega
      refine ⟨x, session.challenge, verdict, _, attestation, now, session.deadline, rfl, hr, ?_, hm,
        hone, hnow, hlt⟩
      rw [← ho]
      exact h.issued _ _ hs

/-- Over every interleaving, a challenge is reserved and verified at most
once, an allowing answer has been earned, and the table stays bounded. -/
theorem one_use_challenges {host : Host} {verifier : Verifier} {ttl_ms maximum : ℕ}
    {bound : Option (Binding × HexStr 64)} {srv : AttestServer} {t : Tape}
    {τ : List AttestEvent} {s : AttestState}
    (hc : AttestServer.create verifier ttl_ms maximum bound = .ok srv)
    (h : Runs.Steps (AttestStep host) ⟨srv, [], t⟩ τ s) :
    (∀ r, τ.countP (·.reserves r) ≤ 1 ∧ τ.countP (·.verifies r) ≤ 1) ∧
    (∀ pre e post d, τ = pre ++ e :: post → e.decision = some d →
      d = .deny ∨ d = .indeterminate ∨ d = .allow ∧ EarnedAllow pre e) ∧
    s.server.sessions.entries.length ≤ maximum := by
  have hh := attestHistory_of_run hc h
  refine ⟨?_, ?_, hh.bounded⟩
  · intro r
    have hle : τ.countP (·.reserves r) ≤ 1 := by
      cases hs : s.server.heap[r]? with
      | none => rw [hh.beyond r (List.getElem?_eq_none_iff.mp hs)]; omega
      | some session => rw [hh.reserved r session hs]; split <;> omega
    have hb := hh.balance r
    exact ⟨hle, by omega⟩
  · rintro pre e post d rfl hd
    obtain ⟨m, m', hm, he, _⟩ := h.of_split
    cases d with
    | deny => exact .inl rfl
    | indeterminate => exact .inr (.inl rfl)
    | allow => exact .inr (.inr ⟨rfl, (attestHistory_of_run hc hm).earned he hd⟩)

def sampleVerifier : Verifier := ⟨none, none, countingHost.tokenHex 0 32⟩

def sampleServer : AttestServer :=
  ⟨sampleVerifier, attestPolicy, 10000, default_ttl_range, 1, none, [], ∅⟩

def sampleEvidence (sid : HexStr 32) : Dict :=
  [("protocol_version", .str attestProtocol), ("session_id", .str sid.text), ("quote", .str "AA=="),
    ("signature", .str "AA=="), ("pcrs", .str "AA==")]

def sampleVerdict : Verdict :=
  ⟨passReason, "verified", "verified", "passed", some "not_configured", []⟩

def sampleAttestRun : Option (List AttestEvent × AttestState) :=
  Runs.exec (fun s => AttestState.next countingHost s) ⟨sampleServer, [], {}⟩
    [.issue "owner", .submit "owner" (sampleEvidence (countingHost.tokenHex 0 16)),
      .submit "owner" (sampleEvidence (countingHost.tokenHex 0 16)),
      .verify 0 (.result sampleVerdict)]

theorem one_use_challenges_sample : ∃ τ s,
    Runs.Steps (AttestStep countingHost) ⟨sampleServer, [], {}⟩ τ s ∧
    τ.map AttestEvent.decision = [none, none, some .deny, some .allow] ∧
    (∀ r, τ.countP (·.reserves r) ≤ 1 ∧ τ.countP (·.verifies r) ≤ 1) ∧
    s.server.sessions.entries.length ≤ 1 := by
  have hrun : sampleAttestRun.map (fun r => r.1.map AttestEvent.decision) =
      some [none, none, some .deny, some .allow] := by decide +kernel
  obtain ⟨⟨τ, s⟩, he, hd⟩ := Option.map_eq_some_iff.mp hrun
  have hs := Runs.exec_steps he
  have hc : AttestServer.create sampleVerifier 10000 1 none = .ok sampleServer := rfl
  have hh := one_use_challenges hc hs
  exact ⟨τ, s, hs, hd, hh.1, hh.2.2⟩

end ArenaLab
