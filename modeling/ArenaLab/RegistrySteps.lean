import ArenaLab.AttestRuns
import ArenaLab.Registry

/-! Interleaved runs of the registry, and everything one lock section can do. -/

namespace ArenaLab

inductive Event
  | dispatched (identity : String) (message : Json) (reply : Reply)
  | finished (submission : Submission) (outcome : Outcome) (reply : Reply)
  | clockRead

/-- `readClock` is a reading taken outside the registry, by a running verifier. -/
inductive Action
  | dispatch (identity : String) (message : Json)
  | finish (place : ℕ) (outcome : Outcome)
  | readClock

def Registry.next (host : Host) (cfg : Config) (s : Registry) : Action → Option (Event × Registry)
  | .dispatch identity message =>
    let (s', reply) := s.dispatch host cfg identity message
    some (.dispatched identity message reply, s')
  | .finish place outcome => do
    let x ← s.inflight[place]?
    let e ← s.heap[x.entry]?
    let (s', reply) := { s with inflight := s.inflight.eraseIdx place }.finish host cfg x e outcome
    some (.finished x outcome reply, s')
  | .readClock => some (.clockRead, { s with tape := s.tape.read })

abbrev RegistryStep (host : Host) (cfg : Config) := Runs.Induced (fun s => Registry.next host cfg s)

abbrev RegistryRun (host : Host) (cfg : Config) (τ : List Event) (s : Registry) : Prop :=
  Runs.Steps (RegistryStep host cfg) (Registry.start host) τ s

/-- The message is a well-formed request of this operation on this admission. -/
def Names (message : Json) (operation : Operation) (admission_id : HexStr 32) : Prop :=
  ∃ fields, parseRequest message = some (operation, fields) ∧
    hexValue ((Dict.get fields "admission_id").getD .null) 32 = .ok admission_id

/-- All that one step can do to the shared objects, the table and the
submissions in flight. -/
inductive Effect (host : Host) (cfg : Config) (s s' : Registry) : Event → Prop
  | idle {ev : Event}
      (hev : ev = .clockRead ∨ ∃ identity message error,
        ev = .dispatched identity message (.refused error))
      (hheap : s'.heap = s.heap) (hver : s'.verifiers = s.verifiers)
      (hfly : s'.inflight = s.inflight)
      (htable : s'.entries = s.entries ∨
        s'.entries = (s.prune (host.clock s.tape.reads)).entries ∧ s.tape.reads < s'.tape.reads) :
      Effect host cfg s s' ev
  | registered {identity : String} {message : Json} {e : Entry} {read : ℚ}
      (hctl : e.binding.controller ∈ cfg.controllers) (hatt : e.binding.attestor ∈ cfg.attestors)
      (hid : e.binding.admission_id = host.tokenHex s.tape.draws 16)
      (hdraw : s.tape.draws < s'.tape.draws)
      (hnew : e.binding.admission_id ∉ (s.prune (host.clock s.tape.reads)).entries)
      (hfree : (s.prune (host.clock s.tape.reads)).taken e.binding.controller
        e.binding.game_session_id e.binding.peer_id = false)
      (hroom : (s.prune (host.clock s.tape.reads)).entries.entries.length < cfg.maximum)
      (hdl : e.deadline = host.clock s.tape.reads + cfg.binding_ms / 1000)
      (hst : e.state = .registered ∨ e.state = .expired) (hv : e.verifier = none)
      (hheap : s'.heap = s.heap ++ [e]) (hver : s'.verifiers = s.verifiers)
      (hfly : s'.inflight = s.inflight)
      (htable : s'.entries =
        (s.prune (host.clock s.tape.reads)).entries.insert e.binding.admission_id s.heap.length)
      (hread : s.tape.reads < s'.tape.reads) :
      Effect host cfg s s' (.dispatched identity message
        (.registered s.heap.length (host.clock s.tape.reads) read (e.view read)))
  | viewed {identity : String} {message : Json} {operation : Operation} {id : HexStr 32}
      {place : ℕ} {e : Entry} (hop : operation = .status ∨ operation = .revoke)
      (hname : Names message operation id) (hlook : s.entries.lookup id = some place)
      (he : s.heap[place]? = some e) (hctl : e.binding.controller.text = identity)
      (hheap : s'.heap = s.heap.set place ((e.asked operation).observe (host.clock s.tape.reads)))
      (hver : s'.verifiers = s.verifiers) (hfly : s'.inflight = s.inflight)
      (htable : s'.entries = s.entries) (hread : s'.tape.reads = s.tape.reads + 1) :
      Effect host cfg s s' (.dispatched identity message
        (.viewed place operation (host.clock s.tape.reads)
          (((e.asked operation).observe (host.clock s.tape.reads)).view (host.clock s.tape.reads))))
  | challenged {identity : String} {message : Json} {id : HexStr 32} {place : ℕ} {e : Entry}
      {issuedAt : ℚ} {salt : HexStr 64} {challenge : Challenge}
      (hname : Names message .challenge id) (hlook : s.entries.lookup id = some place)
      (he : s.heap[place]? = some e) (hatt : e.binding.attestor.text = identity)
      (hlive : e.state ≠ .revoked) (hopen : host.clock s.tape.reads < e.deadline)
      (hidle : e.state ≠ .verifying)
      (hheap : s'.heap = s.heap.set place { e with
        verifier := some s.verifiers.length
        state := .challenged
        challenge_deadline := issuedAt + cfg.challenge_ms / 1000 })
      (hver : s'.verifiers.length = s.verifiers.length + 1) (hfly : s'.inflight = s.inflight)
      (htable : s'.entries = s.entries) :
      Effect host cfg s s' (.dispatched identity message
        (.challenged place s.verifiers.length issuedAt e.binding salt challenge))
  | entered {identity : String} {message : Json} {x : Submission} {e : Entry}
      (hname : Names message .submit x.admission_id)
      (hlook : s.entries.lookup x.admission_id = some x.entry)
      (he : s.heap[x.entry]? = some e) (hatt : e.binding.attestor = x.identity)
      (hid : x.identity.text = identity) (hver' : x.verifier = e.verifier)
      (hst : e.state = .challenged) (hopen : host.clock s.tape.reads < e.deadline)
      (hheap : s'.heap = s.heap.set x.entry { e with state := .verifying })
      (hver : s'.verifiers = s.verifiers) (hfly : s'.inflight = s.inflight ++ [x])
      (htable : s'.entries = s.entries) :
      Effect host cfg s s' (.dispatched identity message (.entered x))
  | dropped {x : Submission} {outcome : Outcome} {reply : Reply} {i : ℕ}
      (hx : s.inflight[i]? = some x)
      (hreply : reply = .raised ∨ ∃ error, reply = .refused error)
      (hheap : s'.heap = s.heap) (hver : s'.verifiers = s.verifiers)
      (hfly : s'.inflight = s.inflight.eraseIdx i) (htable : s'.entries = s.entries) :
      Effect host cfg s s' (.finished x outcome reply)
  | failed {x : Submission} {e : Entry} {i : ℕ} (hx : s.inflight[i]? = some x)
      (he : s.heap[x.entry]? = some e) (hst : e.state = .verifying)
      (hheap : s'.heap = s.heap.set x.entry { e with state := .denied })
      (hver : s'.verifiers = s.verifiers) (hfly : s'.inflight = s.inflight.eraseIdx i)
      (htable : s'.entries = s.entries) :
      Effect host cfg s s' (.finished x .exception .raised)
  | settled {x : Submission} {e : Entry} {i : ℕ} {attestation : Attestation}
      (hx : s.inflight[i]? = some x) (he : s.heap[x.entry]? = some e) (hst : e.state = .verifying)
      (hlook : s.entries.lookup x.admission_id = some x.entry)
      (hheap : s'.heap =
        s.heap.set x.entry ((e.settle cfg attestation).observe (host.clock s.tape.reads)))
      (hver : s'.verifiers = s.verifiers) (hfly : s'.inflight = s.inflight.eraseIdx i)
      (htable : s'.entries = s.entries) (hread : s'.tape.reads = s.tape.reads + 1) :
      Effect host cfg s s' (.finished x (.returned attestation)
        (.submitted x.entry (host.clock s.tape.reads)
          (((e.settle cfg attestation).observe (host.clock s.tape.reads)).view
            (host.clock s.tape.reads)) attestation))

def Tape.Before (t t' : Tape) : Prop := t.reads ≤ t'.reads ∧ t.draws ≤ t'.draws

theorem Tape.Before.refl (t : Tape) : t.Before t := ⟨le_refl _, le_refl _⟩

theorem Tape.Before.trans {t t' t'' : Tape} (h : t.Before t') (h' : t'.Before t'') : t.Before t'' :=
  ⟨h.1.trans h'.1, h.2.trans h'.2⟩

theorem Tape.before_read (t : Tape) : t.Before t.read := ⟨by simp, by simp⟩

theorem Tape.before_draw (t : Tape) : t.Before t.draw := ⟨by simp, by simp⟩

@[simp] theorem observe_binding (e : Entry) (now : ℚ) : (e.observe now).binding = e.binding := by
  simp only [Entry.observe]
  split <;> split <;> rfl

@[simp] theorem observe_deadline (e : Entry) (now : ℚ) : (e.observe now).deadline = e.deadline := by
  simp only [Entry.observe]
  split <;> split <;> rfl

@[simp] theorem observe_verifier (e : Entry) (now : ℚ) : (e.observe now).verifier = e.verifier := by
  simp only [Entry.observe]
  split <;> split <;> rfl

@[simp] theorem observe_lease_deadline (e : Entry) (now : ℚ) :
    (e.observe now).lease_deadline = e.lease_deadline := by
  simp only [Entry.observe]
  split <;> split <;> rfl

@[simp] theorem observe_challenge_deadline (e : Entry) (now : ℚ) :
    (e.observe now).challenge_deadline = e.challenge_deadline := by
  simp only [Entry.observe]
  split <;> split <;> rfl

theorem observe_state (e : Entry) (now : ℚ) :
    (e.observe now).state = e.state ∨ (e.observe now).state = .expired ∧ e.state ≠ .revoked ∧
      (e.deadline ≤ now ∨ e.state = .allowed) := by
  simp only [Entry.observe]
  split
  · rename_i h
    right
    split <;> exact ⟨rfl, h.1, .inl h.2⟩
  · split
    · rename_i h
      exact .inr ⟨rfl, by simp [h.1], .inr h.1⟩
    · exact .inl rfl

theorem observe_revoked {e : Entry} {now : ℚ} (h : e.state = .revoked) :
    (e.observe now).state = .revoked := by
  rcases observe_state e now with hs | ⟨_, hs, _⟩
  · exact hs.trans h
  · exact absurd h hs

theorem observe_allowed {e : Entry} {now : ℚ} (h : (e.observe now).state = .allowed) :
    e.state = .allowed ∧ now < e.deadline ∧ now < e.lease_deadline := by
  simp only [Entry.observe] at h
  by_cases hd : e.state ≠ .revoked ∧ e.deadline ≤ now
  · simp [hd] at h
  · rw [if_neg hd] at h
    by_cases hl : e.state = .allowed ∧ e.lease_deadline ≤ now
    · simp [hl] at h
    · rw [if_neg hl] at h
      refine ⟨h, ?_, ?_⟩
      · by_contra hc
        exact hd ⟨by simp [h], not_lt.mp hc⟩
      · by_contra hc
        exact hl ⟨h, not_lt.mp hc⟩

@[simp] theorem asked_binding (e : Entry) (operation : Operation) :
    (e.asked operation).binding = e.binding := by
  simp only [Entry.asked]
  split <;> rfl

@[simp] theorem asked_deadline (e : Entry) (operation : Operation) :
    (e.asked operation).deadline = e.deadline := by
  simp only [Entry.asked]
  split <;> rfl

@[simp] theorem asked_verifier (e : Entry) (operation : Operation) :
    (e.asked operation).verifier = e.verifier := by
  simp only [Entry.asked]
  split <;> rfl

@[simp] theorem asked_lease_deadline (e : Entry) (operation : Operation) :
    (e.asked operation).lease_deadline = e.lease_deadline := by
  simp only [Entry.asked]
  split <;> rfl

@[simp] theorem asked_challenge_deadline (e : Entry) (operation : Operation) :
    (e.asked operation).challenge_deadline = e.challenge_deadline := by
  simp only [Entry.asked]
  split <;> rfl

theorem viewed_state (e : Entry) (operation : Operation) (now : ℚ) :
    operation = .revoke ∧ ((e.asked operation).observe now).state = .revoked ∨
      operation ≠ .revoke ∧ (((e.asked operation).observe now).state = e.state ∨
        ((e.asked operation).observe now).state = .expired ∧ e.state ≠ .revoked ∧
          (e.deadline ≤ now ∨ e.state = .allowed)) := by
  by_cases h : operation = .revoke
  · exact .inl ⟨h, observe_revoked (by simp [Entry.asked, h])⟩
  · have ha : e.asked operation = e := by simp [Entry.asked, h]
    rw [ha]
    exact .inr ⟨h, observe_state e now⟩

theorem viewed_open {e : Entry} {operation : Operation} {now : ℚ} {state : AdmissionState}
    (h : ((e.asked operation).observe now).state = state) (hr : state ≠ .revoked)
    (hx : state ≠ .expired) : e.state = state := by
  rcases viewed_state e operation now with ⟨_, hs⟩ | ⟨_, hs | ⟨hs, _⟩⟩
  · exact absurd (h.symm.trans hs) hr
  · exact hs.symm.trans h
  · exact absurd (h.symm.trans hs) hx

@[simp] theorem settle_binding (cfg : Config) (e : Entry) (attestation : Attestation) :
    (e.settle cfg attestation).binding = e.binding := rfl

@[simp] theorem settle_deadline (cfg : Config) (e : Entry) (attestation : Attestation) :
    (e.settle cfg attestation).deadline = e.deadline := rfl

@[simp] theorem settle_verifier (cfg : Config) (e : Entry) (attestation : Attestation) :
    (e.settle cfg attestation).verifier = e.verifier := rfl

@[simp] theorem settle_lease_deadline (cfg : Config) (e : Entry) (attestation : Attestation) :
    (e.settle cfg attestation).lease_deadline =
      min e.deadline (e.challenge_deadline - cfg.challenge_ms / 1000 + cfg.lease_ms / 1000) := rfl

@[simp] theorem settle_challenge_deadline (cfg : Config) (e : Entry) (attestation : Attestation) :
    (e.settle cfg attestation).challenge_deadline = e.challenge_deadline := rfl

theorem settled_state (cfg : Config) (e : Entry) (attestation : Attestation) (now : ℚ) :
    attestation.decision = .allow ∧ ((e.settle cfg attestation).observe now).state = .allowed ∨
      ((e.settle cfg attestation).observe now).state = .denied ∨
      ((e.settle cfg attestation).observe now).state = .expired := by
  rcases observe_state (e.settle cfg attestation) now with hs | ⟨hs, _⟩
  · rw [hs]
    by_cases h : attestation.decision = .allow
    · exact .inl ⟨h, by simp [Entry.settle, h]⟩
    · exact .inr (.inl (by simp [Entry.settle, h]))
  · exact .inr (.inr hs)

theorem settled_closed (cfg : Config) (e : Entry) (attestation : Attestation) (now : ℚ) :
    ((e.settle cfg attestation).observe now).state ≠ .challenged := by
  rcases settled_state cfg e attestation now with ⟨_, hs⟩ | hs | hs <;> simp [hs]

theorem owned_ok {s : Registry} {operation : Operation} {identity : HexStr 64} {fields : Dict}
    {id : HexStr 32} {place : ℕ} {e : Entry}
    (h : s.owned operation identity fields = .ok (id, place, e)) :
    hexValue ((fields.get "admission_id").getD .null) 32 = .ok id ∧
      s.entries.lookup id = some place ∧ s.heap[place]? = some e ∧
      identity = if operation.byController then e.binding.controller else e.binding.attestor := by
  simp only [Registry.owned] at h
  split at h
  · cases h
  · rename_i id' hid
    split at h
    · cases h
    · rename_i place' e' hl
      obtain ⟨i, hi, hm⟩ := Option.bind_eq_some_iff.mp hl
      obtain ⟨e₁, he₁, hp⟩ := Option.map_eq_some_iff.mp hm
      obtain ⟨rfl, rfl⟩ := Prod.mk.inj hp
      by_cases hown : identity =
          if operation.byController then e₁.binding.controller else e₁.binding.attestor
      · rw [if_pos hown] at h
        obtain ⟨rfl, hp⟩ := Prod.mk.inj (Except.ok.inj h)
        obtain ⟨rfl, rfl⟩ := Prod.mk.inj hp
        exact ⟨hid, hi, he₁, hown⟩
      · rw [if_neg hown] at h
        cases h

section Effects

variable {host : Host} {cfg : Config} {s s' : Registry} {reply : Reply} {identity : String}
  {message : Json}

theorem refused_effect {error : ValueError} {t : Tape} (ht : s.tape.Before t) :
    s.tape.Before ({ s with tape := t } : Registry).tape ∧
      Effect host cfg s { s with tape := t } (.dispatched identity message (.refused error)) :=
  ⟨ht, .idle (.inr ⟨_, _, _, rfl⟩) rfl rfl rfl (.inl rfl)⟩

theorem unregistered_effect {error : ValueError} {t : Tape} (ht : s.tape.read.Before t) :
    s.tape.Before ({ s.prune (host.clock s.tape.reads) with tape := t } : Registry).tape ∧
      Effect host cfg s { s.prune (host.clock s.tape.reads) with tape := t }
        (.dispatched identity message (.refused error)) :=
  ⟨s.tape.before_read.trans ht, .idle (.inr ⟨_, _, _, rfl⟩) rfl rfl rfl (.inr ⟨rfl, ht.1⟩)⟩

theorem newAdmission_effect {controller attestor : HexStr 64} {session : HexStr 32} {peer : PeerId}
    (hc : controller ∈ cfg.controllers) (ha : attestor ∈ cfg.attestors)
    (h : s.newAdmission host cfg controller attestor session peer = (s', reply)) :
    s.tape.Before s'.tape ∧ Effect host cfg s s' (.dispatched identity message reply) := by
  simp only [Registry.newAdmission] at h
  split at h
  · obtain ⟨rfl, rfl⟩ := h
    exact unregistered_effect (.refl _)
  · rename_i htaken
    split at h
    · obtain ⟨rfl, rfl⟩ := h
      exact unregistered_effect (.refl _)
    · rename_i hroom
      split at h
      · obtain ⟨rfl, rfl⟩ := h
        exact unregistered_effect s.tape.read.before_draw
      · rename_i hnew
        obtain ⟨rfl, rfl⟩ := h
        refine ⟨s.tape.before_read.trans ((Tape.before_draw _).trans
          ((Tape.before_draw _).trans (Tape.before_read _))), ?_⟩
        refine .registered ?_ ?_ ?_ ?_ ?_ ?_ ?_ ?_ ?_ ?_ rfl rfl rfl ?_ ?_
        · simpa using hc
        · simpa using ha
        · simp
        · simp only [Tape.read_draws, Tape.draw_draws]
          omega
        · simpa using hnew
        · simp only [observe_binding]
          exact Bool.eq_false_iff.mpr htaken
        · simpa using hroom
        · simp
        · rcases observe_state _ _ with hs | ⟨hs, _⟩
          · exact .inl hs
          · exact .inr hs
        · simp
        · simp [Registry.store, Registry.prune]
        · simp only [Tape.read_reads, Tape.draw_reads]
          omega

theorem register_effect {controller : HexStr 64} {fields : Dict} (hc : controller ∈ cfg.controllers)
    (h : s.register host cfg controller fields = (s', reply)) :
    s.tape.Before s'.tape ∧ Effect host cfg s s' (.dispatched identity message reply) := by
  simp only [Registry.register] at h
  split at h
  · obtain ⟨rfl, rfl⟩ := h
    exact refused_effect (.refl s.tape)
  · obtain ⟨rfl, rfl⟩ := h
    exact refused_effect (.refl s.tape)
  · obtain ⟨rfl, rfl⟩ := h
    exact refused_effect (.refl s.tape)
  · split at h
    · rename_i ha
      exact newAdmission_effect hc ha h
    · obtain ⟨rfl, rfl⟩ := h
      exact refused_effect (.refl s.tape)

theorem status_effect {operation : Operation} {id : HexStr 32} {place : ℕ} {e : Entry}
    (hop : operation = .status ∨ operation = .revoke) (hname : Names message operation id)
    (hlook : s.entries.lookup id = some place) (he : s.heap[place]? = some e)
    (hctl : e.binding.controller.text = identity)
    (h : s.status host operation place (e.asked operation) = (s', reply)) :
    s.tape.Before s'.tape ∧ Effect host cfg s s' (.dispatched identity message reply) := by
  simp only [Registry.status] at h
  obtain ⟨rfl, rfl⟩ := h
  exact ⟨s.tape.before_read, .viewed hop hname hlook he hctl rfl rfl rfl rfl rfl⟩

theorem pending_tape (host : Host) (t : Tape) (e : Entry) : t.Before (e.pending host t).2 := by
  simp only [Entry.pending]
  split
  · exact .refl t
  · split
    · exact t.before_read
    · exact .refl t

theorem pending_verifying {t : Tape} {e : Entry} (h : (e.pending host t).1 = false) :
    e.state ≠ .verifying := by
  intro hs
  simp [Entry.pending, hs] at h

theorem challenge_effect {attestor : HexStr 64} {verifier : Verifier} {id : HexStr 32} {place : ℕ}
    {e : Entry} (hname : Names message .challenge id) (hlook : s.entries.lookup id = some place)
    (he : s.heap[place]? = some e) (hatt : e.binding.attestor.text = identity)
    (hlive : e.state ≠ .revoked) (hopen : host.clock s.tape.reads < e.deadline)
    (h : ({ s with tape := s.tape.read } : Registry).challenge host cfg attestor verifier place e =
      (s', reply)) :
    s.tape.Before s'.tape ∧ Effect host cfg s s' (.dispatched identity message reply) := by
  generalize hp : e.pending host s.tape.read = p
  obtain ⟨pending, t⟩ := p
  have ht : s.tape.Before t := by
    have hh := pending_tape host s.tape.read e
    rw [hp] at hh
    exact s.tape.before_read.trans hh
  simp only [Registry.challenge, hp] at h
  split at h
  · obtain ⟨rfl, rfl⟩ := h
    exact refused_effect ht
  · rename_i hpend
    have hfree : (e.pending host s.tape.read).1 = false := by
      rw [hp]
      simpa using hpend
    have hidle : e.state ≠ .verifying := pending_verifying hfree
    split at h
    · obtain ⟨rfl, rfl⟩ := h
      exact refused_effect ht
    · rename_i server hcreate
      split at h
      · rename_i t' error hi
        obtain ⟨rfl, rfl⟩ := h
        obtain ⟨hr, hd, _⟩ := issue_cases hi
        simp only [Tape.draw_reads, Tape.draw_draws] at hr hd
        have ht' : t.Before t' := ⟨by omega, by omega⟩
        exact refused_effect (ht.trans ht')
      · rename_i server' t' handed hi
        obtain ⟨rfl, rfl⟩ := h
        obtain ⟨hr, hd, _⟩ := issue_cases hi
        simp only [Tape.draw_reads, Tape.draw_draws] at hr hd
        have ht' : t.Before t' := ⟨by omega, by omega⟩
        exact ⟨(ht.trans ht').trans t'.before_read,
          .challenged hname hlook he hatt hlive hopen hidle rfl (by simp) rfl rfl⟩

theorem enter_effect {attestor : HexStr 64} {id : HexStr 32} {place : ℕ} {e : Entry}
    {evidence : Option Json} (hname : Names message .submit id)
    (hlook : s.entries.lookup id = some place) (he : s.heap[place]? = some e)
    (hatt : e.binding.attestor = attestor) (hid : attestor.text = identity)
    (hopen : host.clock s.tape.reads < e.deadline)
    (h : ({ s with tape := s.tape.read } : Registry).enter attestor id place e evidence =
      (s', reply)) :
    s.tape.Before s'.tape ∧ Effect host cfg s s' (.dispatched identity message reply) := by
  simp only [Registry.enter] at h
  split at h
  · obtain ⟨rfl, rfl⟩ := h
    exact refused_effect s.tape.before_read
  · rename_i hst
    split at h
    · obtain ⟨rfl, rfl⟩ := h
      exact ⟨s.tape.before_read,
        .entered hname hlook he hatt hid rfl (not_not.mp hst) hopen rfl rfl rfl rfl⟩
    · obtain ⟨rfl, rfl⟩ := h
      exact refused_effect s.tape.before_read

theorem dispatchController_effect {controller : HexStr 64} {operation : Operation} {fields : Dict}
    (hc : controller ∈ cfg.controllers) (hid : controller.text = identity)
    (hparse : parseRequest message = some (operation, fields)) (hrole : operation.byController = true)
    (h : s.dispatchController host cfg controller operation fields = (s', reply)) :
    s.tape.Before s'.tape ∧ Effect host cfg s s' (.dispatched identity message reply) := by
  simp only [Registry.dispatchController] at h
  by_cases hreg : operation = .register
  · rw [if_pos hreg] at h
    exact register_effect hc h
  · rw [if_neg hreg] at h
    split at h
    · obtain ⟨rfl, rfl⟩ := h
      exact refused_effect (.refl s.tape)
    · rename_i id place e hown
      obtain ⟨hval, hlook, he, hi⟩ := owned_ok hown
      rw [if_pos hrole] at hi
      have hop : operation = .status ∨ operation = .revoke := by
        cases operation <;> simp_all [Operation.byController]
      exact status_effect hop ⟨fields, hparse, hval⟩ hlook he (by rw [← hi, hid]) h

theorem dispatchAttestor_effect {attestor : Sigma fun _ : HexStr 64 => Verifier}
    {operation : Operation} {fields : Dict} (hid : attestor.1.text = identity)
    (hparse : parseRequest message = some (operation, fields)) (hrole : operation.byController = false)
    (h : s.dispatchAttestor host cfg attestor operation fields = (s', reply)) :
    s.tape.Before s'.tape ∧ Effect host cfg s s' (.dispatched identity message reply) := by
  simp only [Registry.dispatchAttestor] at h
  split at h
  · obtain ⟨rfl, rfl⟩ := h
    exact refused_effect (.refl s.tape)
  · rename_i id place e hown
    obtain ⟨hval, hlook, he, hi⟩ := owned_ok hown
    rw [if_neg (by simp [hrole])] at hi
    split at h
    · obtain ⟨rfl, rfl⟩ := h
      exact refused_effect (.refl s.tape)
    · rename_i hlive
      split at h
      · obtain ⟨rfl, rfl⟩ := h
        exact refused_effect s.tape.before_read
      · rename_i hopen
        split at h
        · rename_i hch
          subst hch
          exact challenge_effect ⟨fields, hparse, hval⟩ hlook he (by rw [← hi, hid]) hlive
            (not_le.mp hopen) h
        · rename_i hch
          have hsub : operation = .submit := by
            cases operation <;> simp_all [Operation.byController]
          subst hsub
          exact enter_effect ⟨fields, hparse, hval⟩ hlook he hi.symm hid (not_le.mp hopen) h

theorem dispatch_effect (h : s.dispatch host cfg identity message = (s', reply)) :
    s.tape.Before s'.tape ∧ Effect host cfg s s' (.dispatched identity message reply) := by
  simp only [Registry.dispatch] at h
  split at h
  · obtain ⟨rfl, rfl⟩ := h
    exact refused_effect (.refl s.tape)
  · rename_i operation fields hparse
    split at h
    · rename_i hrole
      split at h
      · obtain ⟨rfl, rfl⟩ := h
        exact refused_effect (.refl s.tape)
      · rename_i controller hf
        exact dispatchController_effect (List.mem_of_find?_eq_some hf)
          (by simpa using List.find?_some hf) hparse hrole h
    · rename_i hrole
      split at h
      · obtain ⟨rfl, rfl⟩ := h
        exact refused_effect (.refl s.tape)
      · rename_i attestor hf
        exact dispatchAttestor_effect (by simpa using List.find?_some hf) hparse
          (by simpa using hrole) h

theorem finish_effect {x : Submission} {e : Entry} {outcome : Outcome} {i : ℕ}
    (hx : s.inflight[i]? = some x) (he : s.heap[x.entry]? = some e)
    (h : ({ s with inflight := s.inflight.eraseIdx i } : Registry).finish host cfg x e outcome =
      (s', reply)) :
    s.tape.Before s'.tape ∧ Effect host cfg s s' (.finished x outcome reply) := by
  cases outcome with
  | exception =>
    simp only [Registry.finish] at h
    split at h
    · rename_i hst
      obtain ⟨rfl, rfl⟩ := h
      exact ⟨.refl _, .failed hx he hst rfl rfl rfl rfl⟩
    · obtain ⟨rfl, rfl⟩ := h
      exact ⟨.refl _, .dropped hx (.inl rfl) rfl rfl rfl rfl⟩
  | otherThrow =>
    obtain ⟨rfl, rfl⟩ := h
    exact ⟨.refl _, .dropped hx (.inl rfl) rfl rfl rfl rfl⟩
  | returned attestation =>
    simp only [Registry.finish] at h
    split at h
    · obtain ⟨rfl, rfl⟩ := h
      exact ⟨.refl _, .dropped hx (.inr ⟨_, rfl⟩) rfl rfl rfl rfl⟩
    · rename_i hclosed
      obtain ⟨hlook, hst⟩ := not_or.mp hclosed
      obtain ⟨rfl, rfl⟩ := h
      exact ⟨s.tape.before_read, .settled hx he (not_not.mp hst) (not_not.mp hlook) rfl rfl rfl rfl rfl⟩

theorem step_effect {ev : Event} (h : RegistryStep host cfg s ev s') :
    s.tape.Before s'.tape ∧ Effect host cfg s s' ev := by
  obtain ⟨action, hn⟩ := h
  cases action with
  | dispatch identity message =>
    obtain ⟨rfl, rfl⟩ := Prod.mk.inj (Option.some.inj hn)
    exact dispatch_effect rfl
  | finish place outcome =>
    simp only [Registry.next, Option.bind_eq_bind, Option.bind_eq_some_iff] at hn
    obtain ⟨x, hx, e, he, hn⟩ := hn
    obtain ⟨rfl, rfl⟩ := Prod.mk.inj (Option.some.inj hn)
    exact finish_effect hx he rfl
  | readClock =>
    obtain ⟨rfl, rfl⟩ := Prod.mk.inj (Option.some.inj hn)
    exact ⟨s.tape.before_read, .idle (.inl rfl) rfl rfl rfl (.inl rfl)⟩

end Effects

end ArenaLab
