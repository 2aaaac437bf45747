import ArenaLab.ClosedAdmissions

/-! Where a permission comes from: the challenge an entry is waiting for, the
one submission that consumes it, and the lease its verification earns. -/

namespace ArenaLab

structure Issue where
  identity : String
  verifier : ℕ
  issuedAt : ℚ

def Event.issueOn (a : ℕ) : Event → Option Issue
  | .dispatched identity _ (.challenged place verifier issuedAt _ _ _) =>
    if place = a then some ⟨identity, verifier, issuedAt⟩ else none
  | _ => none

def lastIssue (a : ℕ) (τ : List Event) : Option Issue := (τ.filterMap (·.issueOn a)).getLast?

def Event.enters (v : ℕ) : Event → Bool
  | .dispatched _ _ (.entered x) => x.verifier = some v
  | _ => false

def Event.revokes (a : ℕ) : Event → Bool
  | .dispatched _ _ (.viewed place .revoke _ _) => place = a
  | _ => false

/-- The event neither challenges the entry nor reports it as challenged. -/
def Event.Quiet (a : ℕ) (ev : Event) : Prop :=
  ev.issueOn a = none ∧
    ∀ now view, ev.response = some (a, now, view) → view.state ≠ .challenged

theorem lastIssue_snoc (a : ℕ) (τ : List Event) (ev : Event) :
    lastIssue a (τ ++ [ev]) = (ev.issueOn a).or (lastIssue a τ) := by
  simp only [lastIssue, List.filterMap_append]
  cases h : ev.issueOn a <;> simp [h]

theorem lastIssue_append_of_none {a : ℕ} {τ τ' : List Event} (h : ∀ ev ∈ τ', ev.issueOn a = none) :
    lastIssue a (τ ++ τ') = lastIssue a τ := by
  have hn : τ'.filterMap (·.issueOn a) = [] := List.filterMap_eq_nil_iff.mpr h
  simp [lastIssue, hn]

section

variable {host : Host} {cfg : Config} {s s' : Registry} {ev : Event}

theorem Effect.registration {a : ℕ} {e' : Entry} (h : Effect host cfg s s' ev)
    (ha : s'.heap[a]? = some e') :
    (∃ e, s.heap[a]? = some e ∧ e'.binding = e.binding ∧ e'.deadline = e.deadline) ∨
    ∃ identity message registeredAt now view,
      ev = .dispatched identity message (.registered a registeredAt now view) ∧
      view.binding = e'.binding ∧ e'.deadline = registeredAt + cfg.binding_ms / 1000 := by
  rcases h.rewritten with ⟨hw, _⟩ | ⟨_, _, _, _, _, _, _, rfl⟩
  · exact .inl (hw.back ha)
  · cases h with
    | idle hev => simp at hev
    | registered _ _ _ _ _ _ _ hdl _ _ hheap =>
      rw [hheap] at ha
      rcases List.getElem?_concat_some ha with ha | ⟨rfl, rfl⟩
      · exact .inl ⟨e', ha, rfl, rfl⟩
      · exact .inr ⟨_, _, _, _, _, rfl, rfl, hdl⟩

/-- The run registered the entry, and its deadline counts from there. -/
def RegisteredIn (cfg : Config) (τ : List Event) (a : ℕ) (e : Entry) : Prop :=
  ∃ identity message registeredAt now view,
    .dispatched identity message (.registered a registeredAt now view) ∈ τ ∧
    view.binding = e.binding ∧ e.deadline = registeredAt + cfg.binding_ms / 1000

theorem registeredIn_of_run {τ : List Event} (h : RegistryRun host cfg τ s) :
    ∀ (a : ℕ) e, s.heap[a]? = some e → RegisteredIn cfg τ a e := by
  refine h.history (I := fun τ s => ∀ (a : ℕ) e, s.heap[a]? = some e → RegisteredIn cfg τ a e) ?_ ?_
  · simp [Registry.start]
  · intro τ t ev u _ ih hstep a e' ha
    rcases (step_effect hstep).2.registration ha with ⟨e, he, hb, hd⟩ |
      ⟨identity, message, registeredAt, now, view, rfl, hb, hd⟩
    · obtain ⟨identity, message, registeredAt, now, view, hm, hv, hdl⟩ := ih a e he
      exact ⟨identity, message, registeredAt, now, view, List.mem_append_left _ hm, hv.trans hb.symm,
        hd.trans hdl⟩
    · exact ⟨identity, message, registeredAt, now, view,
        List.mem_append_right _ (List.mem_singleton.mpr rfl), hb, hd⟩

/-- All that a step can do to one entry, told from the entry it leaves. -/
inductive Became (host : Host) (cfg : Config) (s : Registry) (ev : Event) (a : ℕ) (e' : Entry) : Prop
  | same (hev : ev.issueOn a = none) (he : s.heap[a]? = some e')
  | registered (hev : ev.issueOn a = none) (hst : e'.state = .registered ∨ e'.state = .expired)
      (hv : e'.verifier = none)
  | viewed {e : Entry} {operation : Operation} (hev : ev.issueOn a = none)
      (he : s.heap[a]? = some e)
      (hnew : e' = (e.asked operation).observe (host.clock s.tape.reads))
  | challenged {e : Entry} {identity : String} {issuedAt : ℚ}
      (hev : ev.issueOn a = some ⟨identity, s.verifiers.length, issuedAt⟩)
      (hatt : e.binding.attestor.text = identity)
      (hnew : e' = { e with
        verifier := some s.verifiers.length
        state := .challenged
        challenge_deadline := issuedAt + cfg.challenge_ms / 1000 })
  | moved {e : Entry} {state : AdmissionState} (hev : ev.issueOn a = none)
      (he : s.heap[a]? = some e) (hst : state = .verifying ∨ state = .denied)
      (hnew : e' = { e with state := state })
  | settled {x : Submission} {e : Entry} {attestation : Attestation} {reply : Reply}
      (hev : ev = .finished x (.returned attestation) reply) (hx : x ∈ s.inflight)
      (hxa : x.entry = a) (he : s.heap[a]? = some e)
      (hnew : e' = (e.settle cfg attestation).observe (host.clock s.tape.reads))

theorem Effect.became {a : ℕ} {e' : Entry} (h : Effect host cfg s s' ev)
    (ha : s'.heap[a]? = some e') : Became host cfg s ev a e' := by
  have hset : ∀ {p : ℕ} {e : Entry}, s'.heap = s.heap.set p e →
      p = a ∧ e = e' ∨ p ≠ a ∧ s.heap[a]? = some e' := by
    intro p e hheap
    rw [hheap] at ha
    exact List.getElem?_set_some ha
  cases h with
  | idle hev hheap =>
    refine .same ?_ (hheap ▸ ha)
    rcases hev with rfl | ⟨_, _, _, rfl⟩ <;> rfl
  | registered _ _ _ _ _ _ _ _ hst hv hheap =>
    rw [hheap] at ha
    rcases List.getElem?_concat_some ha with ha | ⟨_, rfl⟩
    · exact .same rfl ha
    · exact .registered rfl hst hv
  | viewed _ _ _ he _ hheap =>
    rcases hset hheap with ⟨rfl, rfl⟩ | ⟨_, ha⟩
    · exact .viewed rfl he rfl
    · exact .same rfl ha
  | challenged _ _ _ hatt _ _ _ hheap =>
    rcases hset hheap with ⟨rfl, rfl⟩ | ⟨hne, ha⟩
    · exact .challenged (by simp [Event.issueOn]) hatt rfl
    · exact .same (by simp [Event.issueOn, hne]) ha
  | entered _ _ he _ _ _ _ _ hheap =>
    rcases hset hheap with ⟨rfl, rfl⟩ | ⟨_, ha⟩
    · exact .moved rfl he (.inl rfl) rfl
    · exact .same rfl ha
  | dropped _ _ hheap => exact .same rfl (hheap ▸ ha)
  | failed _ he _ hheap =>
    rcases hset hheap with ⟨rfl, rfl⟩ | ⟨_, ha⟩
    · exact .moved rfl he (.inr rfl) rfl
    · exact .same rfl ha
  | settled hx he _ _ hheap =>
    rcases hset hheap with ⟨rfl, rfl⟩ | ⟨_, ha⟩
    · exact .settled rfl (List.mem_of_getElem? hx) rfl he rfl
    · exact .same rfl ha

theorem Effect.issue {a : ℕ} {e' : Entry} (h : Effect host cfg s s' ev)
    (ha : s'.heap[a]? = some e') :
    (ev.issueOn a = none ∧ ∃ e, s.heap[a]? = some e ∧ e'.binding = e.binding ∧
      e'.verifier = e.verifier ∧ e'.challenge_deadline = e.challenge_deadline) ∨
    (ev.issueOn a = none ∧ e'.verifier = none) ∨
    ∃ c, ev.issueOn a = some c ∧ c.identity = e'.binding.attestor.text ∧ e'.state = .challenged ∧
      e'.verifier = some c.verifier ∧ c.verifier = s.verifiers.length ∧
      e'.challenge_deadline = c.issuedAt + cfg.challenge_ms / 1000 := by
  cases h.became ha with
  | same hev he => exact .inl ⟨hev, e', he, rfl, rfl, rfl⟩
  | registered hev _ hv => exact .inr (.inl ⟨hev, hv⟩)
  | viewed hev he hnew =>
    subst hnew
    exact .inl ⟨hev, _, he, by simp, by simp, by simp⟩
  | challenged hev hatt hnew =>
    subst hnew
    exact .inr (.inr ⟨_, hev, hatt.symm, rfl, rfl, rfl, rfl⟩)
  | moved hev he _ hnew =>
    subst hnew
    exact .inl ⟨hev, _, he, rfl, rfl, rfl⟩
  | settled hev _ _ he hnew =>
    subst hev hnew
    exact .inl ⟨rfl, _, he, by simp, by simp, by simp⟩

/-- The entry waits for, or was settled by, the last challenge of the run on it. -/
def IssuedIn (cfg : Config) (τ : List Event) (a : ℕ) (e : Entry) (c : Issue) : Prop :=
  lastIssue a τ = some c ∧ e.verifier = some c.verifier ∧ c.identity = e.binding.attestor.text ∧
    e.challenge_deadline = c.issuedAt + cfg.challenge_ms / 1000

theorem issuedIn_of_run {τ : List Event} (h : RegistryRun host cfg τ s) :
    ∀ (a : ℕ) e v, s.heap[a]? = some e → e.verifier = some v → ∃ c, IssuedIn cfg τ a e c := by
  refine h.history (I := fun τ s => ∀ (a : ℕ) e v, s.heap[a]? = some e → e.verifier = some v →
    ∃ c, IssuedIn cfg τ a e c) ?_ ?_
  · simp [Registry.start]
  · intro τ t ev u _ ih hstep a e' v ha hv
    rcases (step_effect hstep).2.issue ha with ⟨hn, e, he, hb, hve, hd⟩ | ⟨_, hve⟩ |
      ⟨c, hc, hid, _, hve, _, hd⟩
    · obtain ⟨c, hc, hcv, hid, hcd⟩ := ih a e v he (hve.symm.trans hv)
      have hlast : lastIssue a (τ ++ [ev]) = some c := by
        rw [lastIssue_snoc, hn]
        exact hc
      exact ⟨c, hlast, hve.trans hcv, hb ▸ hid, hd.trans hcd⟩
    · rw [hve] at hv
      cases hv
    · have hlast : lastIssue a (τ ++ [ev]) = some c := by
        rw [lastIssue_snoc, hc]
        rfl
      exact ⟨c, hlast, hve, hid, hd⟩

theorem Effect.pending {a : ℕ} {e' : Entry} (h : Effect host cfg s s' ev)
    (ha : s'.heap[a]? = some e') (hst : e'.state = .challenged) :
    (∃ e, s.heap[a]? = some e ∧ e.state = .challenged ∧ e'.verifier = e.verifier) ∨
      e'.verifier = some s.verifiers.length := by
  cases h.became ha with
  | same _ he => exact .inl ⟨e', he, hst, rfl⟩
  | registered _ hs _ => rcases hs with hs | hs <;> simp [hs] at hst
  | @viewed e operation _ he hnew =>
    subst hnew
    have hs := viewed_open hst (by decide) (by decide)
    exact .inl ⟨e, he, hs, by simp⟩
  | challenged _ _ hnew =>
    subst hnew
    exact .inr rfl
  | moved _ _ hs hnew =>
    subst hnew
    rcases hs with rfl | rfl <;> cases hst
  | @settled _ e attestation _ _ _ _ _ hnew =>
    subst hnew
    exact absurd hst (settled_closed cfg e attestation (host.clock s.tape.reads))

/-- A challenge is consumed at most once, and not while it is pending. -/
structure EnterCount (τ : List Event) (s : Registry) : Prop where
  pending : ∀ (a : ℕ) e v, s.heap[a]? = some e → e.state = .challenged → e.verifier = some v →
    τ.countP (·.enters v) = 0
  beyond : ∀ v, s.verifiers.length ≤ v → τ.countP (·.enters v) = 0
  once : ∀ v, τ.countP (·.enters v) ≤ 1

theorem Effect.verifiers_le (h : Effect host cfg s s' ev) :
    s.verifiers.length ≤ s'.verifiers.length := by
  cases h with
  | challenged _ _ _ _ _ _ _ _ hver => omega
  | idle _ _ hver => rw [hver]
  | registered _ _ _ _ _ _ _ _ _ _ _ hver => rw [hver]
  | viewed _ _ _ _ _ _ hver => rw [hver]
  | entered _ _ _ _ _ _ _ _ _ hver => rw [hver]
  | dropped _ _ _ hver => rw [hver]
  | failed _ _ _ _ hver => rw [hver]
  | settled _ _ _ _ _ hver => rw [hver]

theorem Effect.enters {v : ℕ} (h : Effect host cfg s s' ev) (hv : ev.enters v = true) :
    ∃ (a : ℕ) (e : Entry), s.heap[a]? = some e ∧ e.state = .challenged ∧ e.verifier = some v ∧
      s'.heap[a]? = some { e with state := .verifying } ∧ s'.verifiers = s.verifiers := by
  cases h with
  | idle hev => rcases hev with rfl | ⟨_, _, _, rfl⟩ <;> simp [Event.enters] at hv
  | registered => simp [Event.enters] at hv
  | viewed => simp [Event.enters] at hv
  | challenged => simp [Event.enters] at hv
  | entered _ _ he _ _ hxv hst _ hheap hver =>
    refine ⟨_, _, he, hst, ?_, ?_, hver⟩
    · rw [← hxv]
      simpa [Event.enters] using hv
    · rw [hheap, List.getElem?_set_of_some he]
  | dropped => simp [Event.enters] at hv
  | failed => simp [Event.enters] at hv
  | settled => simp [Event.enters] at hv

theorem EnterCount.step {τ : List Event} (h : EnterCount τ s) (hi : VerifierInv s)
    (heff : Effect host cfg s s' ev) : EnterCount (τ ++ [ev]) s' := by
  have hcount : ∀ v, (τ ++ [ev]).countP (·.enters v) =
      τ.countP (·.enters v) + if ev.enters v then 1 else 0 := by
    intro v
    simp [List.countP_append, List.countP_singleton]
  constructor
  · intro a e' v ha hst hv
    have hold : τ.countP (·.enters v) = 0 := by
      rcases heff.pending ha hst with ⟨e, he, hs, hve⟩ | hve
      · exact h.pending a e v he hs (hve.symm.trans hv)
      · obtain rfl := Option.some.inj (hve.symm.trans hv)
        exact h.beyond _ (le_refl _)
    have hnot : ev.enters v = false := by
      by_contra hc
      obtain ⟨b, f, hb, _, hfv, hb', hver⟩ := heff.enters (Bool.not_eq_false _ ▸ hc)
      have hab : a = b := by
        rcases heff.pending ha hst with ⟨e, he, _, hve⟩ | hve
        · exact hi.apart a b e f v he hb (hve.symm.trans hv) hfv
        · obtain rfl := Option.some.inj (hve.symm.trans hv)
          exact absurd (hi.made b f _ hb hfv) (lt_irrefl _)
      subst hab
      obtain rfl := Option.some.inj (ha.symm.trans hb')
      cases hst
    rw [hcount, hold, hnot]
    rfl
  · intro v hle
    have hge := heff.verifiers_le
    have hnot : ev.enters v = false := by
      by_contra hc
      obtain ⟨b, f, hb, _, hfv, _⟩ := heff.enters (Bool.not_eq_false _ ▸ hc)
      have := hi.made b f v hb hfv
      omega
    rw [hcount, h.beyond v (by omega), hnot]
    rfl
  · intro v
    rw [hcount]
    split
    · rename_i hv
      obtain ⟨b, f, hb, hst, hfv, _⟩ := heff.enters hv
      rw [h.pending b f v hb hst hfv]
    · exact h.once v

theorem enterCount_of_run {τ : List Event} (h : RegistryRun host cfg τ s) : EnterCount τ s := by
  refine h.history (I := EnterCount) ?_ ?_
  · constructor <;> simp [Registry.start]
  · intro τ t ev u hr ih hstep
    exact ih.step (registryInv_of_run hr).verifiers (step_effect hstep).2

theorem Effect.revokes {a : ℕ} (h : Effect host cfg s s' ev) (hr : ev.revokes a = true) :
    ∃ e, s'.heap[a]? = some e ∧ e.state = .revoked := by
  cases h with
  | idle hev => rcases hev with rfl | ⟨_, _, _, rfl⟩ <;> simp [Event.revokes] at hr
  | registered => simp [Event.revokes] at hr
  | @viewed _ _ operation _ _ e _ _ _ he _ hheap =>
    cases operation <;> simp only [Event.revokes, decide_eq_true_eq, Bool.false_eq_true] at hr
    subst hr
    refine ⟨_, by rw [hheap, List.getElem?_set_of_some he], ?_⟩
    exact observe_revoked rfl
  | challenged => simp [Event.revokes] at hr
  | entered => simp [Event.revokes] at hr
  | dropped => simp [Event.revokes] at hr
  | failed => simp [Event.revokes] at hr
  | settled => simp [Event.revokes] at hr

theorem revokes_of_run {τ : List Event} (h : RegistryRun host cfg τ s) :
    ∀ (a : ℕ), ∀ ev ∈ τ, ev.revokes a = true → ∃ e, s.heap[a]? = some e ∧ e.state = .revoked := by
  refine h.history (I := fun τ s => ∀ (a : ℕ), ∀ ev ∈ τ, ev.revokes a = true →
    ∃ e, s.heap[a]? = some e ∧ e.state = .revoked) ?_ ?_
  · simp
  · intro τ t ev u _ ih hstep a ev' hm hr
    have heff := (step_effect hstep).2
    rcases List.mem_append.mp hm with hm | hm
    · obtain ⟨e, he, hst⟩ := ih a ev' hm hr
      obtain ⟨e', he', _, _, hst', _⟩ := heff.forth he
      exact ⟨e', he', hst' hst⟩
    · obtain rfl := List.mem_singleton.mp hm
      exact heff.revokes hr

theorem Effect.quiet {a : ℕ} {e' : Entry} (h : Effect host cfg s s' ev)
    (ha : s'.heap[a]? = some e') (hst : e'.state ≠ .challenged) : ev.Quiet a := by
  refine ⟨?_, ?_⟩
  · rcases h.issue ha with ⟨hn, _⟩ | ⟨hn, _⟩ | ⟨c, _, _, hch, _⟩
    · exact hn
    · exact hn
    · exact absurd hch hst
  · intro now view hr
    obtain ⟨f, hf, rfl⟩ := h.response hr
    obtain rfl := Option.some.inj (hf.symm.trans ha)
    exact hst

/-- The submission took the challenge that was then the last one on its entry,
and nothing has happened to that challenge since. -/
def Consumed (pre post : List Event) (x : Submission) (c : Issue) : Prop :=
  lastIssue x.entry pre = some c ∧ x.verifier = some c.verifier ∧ ∀ ev ∈ post, ev.Quiet x.entry

theorem Consumed.snoc {pre post : List Event} {x : Submission} {c : Issue}
    (h : Consumed pre post x c) (hq : ev.Quiet x.entry) : Consumed pre (post ++ [ev]) x c := by
  refine ⟨h.1, h.2.1, ?_⟩
  intro ev' hm
  rcases List.mem_append.mp hm with hm | hm
  · exact h.2.2 ev' hm
  · obtain rfl := List.mem_singleton.mp hm
    exact hq

theorem Consumed.lastIssue {pre post : List Event} {x : Submission} {c : Issue} {identity : String}
    {message : Json} (h : Consumed pre post x c) :
    lastIssue x.entry (pre ++ .dispatched identity message (.entered x) :: post) = some c := by
  rw [lastIssue_append_of_none ?_]
  · exact h.1
  · intro ev hm
    rcases List.mem_cons.mp hm with rfl | hm
    · rfl
    · exact (h.2.2 ev hm).1

theorem consumed_of_run {τ : List Event} (h : RegistryRun host cfg τ s) :
    ∀ x ∈ s.inflight, ∃ pre identity message post c,
      τ = pre ++ .dispatched identity message (.entered x) :: post ∧ Consumed pre post x c := by
  refine h.history (I := fun τ s => ∀ x ∈ s.inflight, ∃ pre identity message post c,
    τ = pre ++ .dispatched identity message (.entered x) :: post ∧ Consumed pre post x c) ?_ ?_
  · simp [Registry.start]
  · intro τ t ev u hr ih hstep x hx
    have heff := (step_effect hstep).2
    have hold : x ∈ t.inflight → ∃ pre identity message post c,
        τ ++ [ev] = pre ++ .dispatched identity message (.entered x) :: post ∧
          Consumed pre post x c := by
      intro hm
      obtain ⟨e, he, _, _, _, hh⟩ := (registryInv_of_run (hr.snoc hstep)).flight.held x hx
      have hq : ev.Quiet x.entry := heff.quiet he (by rcases hh with hs | hs | ⟨hs, _⟩ <;> simp [hs])
      obtain ⟨pre, identity, message, post, c, rfl, hc⟩ := ih x hm
      exact ⟨pre, identity, message, post ++ [ev], c, by simp, hc.snoc hq⟩
    cases heff with
    | idle _ _ _ hfly => exact hold (hfly ▸ hx)
    | registered _ _ _ _ _ _ _ _ _ _ _ _ hfly => exact hold (hfly ▸ hx)
    | viewed _ _ _ _ _ _ _ hfly => exact hold (hfly ▸ hx)
    | challenged _ _ _ _ _ _ _ _ _ hfly => exact hold (hfly ▸ hx)
    | entered _ _ he _ _ hxv hst _ _ _ hfly =>
      rw [hfly] at hx
      rcases List.mem_append.mp hx with hx | hx
      · exact hold hx
      · obtain rfl := List.mem_singleton.mp hx
        obtain ⟨v, hv⟩ := (registryInv_of_run hr).verifiers.pending _ _ he hst
        obtain ⟨c, hc, hcv, _⟩ := issuedIn_of_run hr _ _ v he hv
        exact ⟨τ, _, _, [], c, rfl, hc, hxv.trans hcv, by simp⟩
    | dropped _ _ _ _ hfly => exact hold (List.mem_of_mem_eraseIdx (hfly ▸ hx))
    | failed _ _ _ _ _ hfly => exact hold (List.mem_of_mem_eraseIdx (hfly ▸ hx))
    | settled _ _ _ _ _ _ hfly => exact hold (List.mem_of_mem_eraseIdx (hfly ▸ hx))

theorem Effect.allowed {a : ℕ} {e' : Entry} (h : Effect host cfg s s' ev)
    (ha : s'.heap[a]? = some e') (hst : e'.state = .allowed) :
    (∃ e, s.heap[a]? = some e ∧ e.state = .allowed ∧ e'.deadline = e.deadline ∧
      e'.verifier = e.verifier ∧ e'.lease_deadline = e.lease_deadline) ∨
    ∃ x e attestation reply, ev = .finished x (.returned attestation) reply ∧ x ∈ s.inflight ∧
      x.entry = a ∧ s.heap[a]? = some e ∧ attestation.decision = .allow ∧
      e'.deadline = e.deadline ∧ e'.verifier = e.verifier ∧ e'.lease_deadline = min e.deadline
        (e.challenge_deadline - cfg.challenge_ms / 1000 + cfg.lease_ms / 1000) := by
  cases h.became ha with
  | same _ he => exact .inl ⟨e', he, hst, rfl, rfl, rfl⟩
  | registered _ hs _ => rcases hs with hs | hs <;> simp [hs] at hst
  | @viewed e operation _ he hnew =>
    subst hnew
    have hs := viewed_open hst (by decide) (by decide)
    exact .inl ⟨e, he, hs, by simp, by simp, by simp⟩
  | challenged _ _ hnew =>
    subst hnew
    cases hst
  | moved _ _ hs hnew =>
    subst hnew
    rcases hs with rfl | rfl <;> cases hst
  | @settled x e attestation reply hev hx hxa he hnew =>
    subst hnew
    rcases settled_state cfg e attestation (host.clock s.tape.reads) with ⟨hd, _⟩ | hv | hv
    · exact .inr ⟨x, e, attestation, reply, hev, hx, hxa, he, hd, by simp, by simp, by simp⟩
    · simp [hv] at hst
    · simp [hv] at hst

/-- The entry owes its permission to a submission that consumed the challenge
and was verified with `ALLOW`; the lease counts from that challenge. -/
def Earned (cfg : Config) (τ : List Event) (a : ℕ) (e : Entry) : Prop :=
  ∃ x c pre identity message post attestation reply, x.entry = a ∧ e.verifier = x.verifier ∧
    τ = pre ++ .dispatched identity message (.entered x) :: post ∧ Consumed pre post x c ∧
    .finished x (.returned attestation) reply ∈ post ∧ attestation.decision = .allow ∧
    e.lease_deadline = min e.deadline (c.issuedAt + cfg.lease_ms / 1000)

theorem earned_of_run {τ : List Event} (h : RegistryRun host cfg τ s) :
    ∀ (a : ℕ) e, s.heap[a]? = some e → e.state = .allowed → Earned cfg τ a e := by
  refine h.history (I := fun τ s => ∀ (a : ℕ) e, s.heap[a]? = some e → e.state = .allowed →
    Earned cfg τ a e) ?_ ?_
  · simp [Registry.start]
  · intro τ t ev u hr ih hstep a e' ha hst
    have heff := (step_effect hstep).2
    have hq : ev.Quiet a := heff.quiet ha (by simp [hst])
    rcases heff.allowed ha hst with ⟨e, he, hs, hd, hve, hl⟩ |
      ⟨x, e, attestation, reply, rfl, hx, rfl, he, hallow, hd, hve, hl⟩
    · obtain ⟨x, c, pre, identity, message, post, attestation, reply, rfl, hv, rfl, hc, hm, hallow,
        hle⟩ := ih a e he hs
      exact ⟨x, c, pre, identity, message, post ++ [ev], attestation, reply, rfl, hve.trans hv, by simp,
        hc.snoc hq, List.mem_append_left _ hm, hallow, by rw [hl, hd, hle]⟩
    · obtain ⟨pre, identity, message, post, c, rfl, hc⟩ := consumed_of_run hr x hx
      obtain ⟨f, hf, _, _, hv, _⟩ := (registryInv_of_run hr).flight.held x hx
      obtain rfl := Option.some.inj (hf.symm.trans he)
      obtain ⟨c', hc', _, _, hcd⟩ := issuedIn_of_run hr _ f _ hf (hv.trans hc.2.1)
      obtain rfl := Option.some.inj (hc'.symm.trans hc.lastIssue)
      refine ⟨x, c', pre, identity, message, post ++ [_], attestation, reply, rfl, hve.trans hv, by simp,
        hc.snoc hq, List.mem_append_right _ (List.mem_singleton.mpr rfl), hallow, ?_⟩
      rw [hl, hd, hcd, add_sub_cancel_right]

end

end ArenaLab
