import ArenaLab.RegistryFlight

/-! Revocation and the binding deadline are final, whatever a late
verification brings. -/

namespace ArenaLab

/-- The place, the reading and the body of a response that reports a state. -/
def Event.response : Event → Option (ℕ × ℚ × View)
  | .dispatched _ _ (.registered place _ now view) => some (place, now, view)
  | .dispatched _ _ (.viewed place _ now view) => some (place, now, view)
  | .finished _ _ (.submitted place now view _) => some (place, now, view)
  | _ => none

/-- The admission on which a challenge or a submission was newly accepted. -/
def Event.accepted : Event → Option (HexStr 32)
  | .dispatched _ _ (.challenged _ _ _ binding _ _) => some binding.admission_id
  | .dispatched _ _ (.entered x) => some x.admission_id
  | _ => none

section

variable {host : Host} {cfg : Config} {s s' : Registry} {ev : Event}

theorem Effect.response {a : ℕ} {now : ℚ} {view : View} (h : Effect host cfg s s' ev)
    (hr : ev.response = some (a, now, view)) :
    ∃ e, s'.heap[a]? = some e ∧ view = e.view now := by
  cases h with
  | idle hev => rcases hev with rfl | ⟨_, _, _, rfl⟩ <;> simp [Event.response] at hr
  | @registered _ _ e _ _ _ _ _ _ _ _ _ _ _ hheap =>
    simp only [Event.response, Option.some.injEq, Prod.mk.injEq] at hr
    obtain ⟨rfl, rfl, rfl⟩ := hr
    have hlast : s'.heap[s.heap.length]? = some e := by
      rw [hheap]
      simp
    exact ⟨e, hlast, rfl⟩
  | viewed _ _ _ he _ hheap =>
    simp only [Event.response, Option.some.injEq, Prod.mk.injEq] at hr
    obtain ⟨rfl, rfl, rfl⟩ := hr
    exact ⟨_, by rw [hheap, List.getElem?_set_of_some he], rfl⟩
  | challenged => simp [Event.response] at hr
  | entered => simp [Event.response] at hr
  | dropped _ hreply => rcases hreply with rfl | ⟨_, rfl⟩ <;> simp [Event.response] at hr
  | failed => simp [Event.response] at hr
  | settled _ he _ _ hheap =>
    simp only [Event.response, Option.some.injEq, Prod.mk.injEq] at hr
    obtain ⟨rfl, rfl, rfl⟩ := hr
    exact ⟨_, by rw [hheap, List.getElem?_set_of_some he], rfl⟩

/-- An allowing response is the last reading of its step and beats both
deadlines of the entry. -/
theorem Effect.allowing {a : ℕ} {now : ℚ} {view : View} {e : Entry} (h : Effect host cfg s s' ev)
    (hr : ev.response = some (a, now, view)) (he : s'.heap[a]? = some e)
    (hallow : e.state = .allowed) :
    now = host.clock s.tape.reads ∧ s'.tape.reads = s.tape.reads + 1 ∧ now < e.deadline ∧
      now < e.lease_deadline := by
  have hset : ∀ {p : ℕ} {e₀ e₁ : Entry}, s.heap[p]? = some e₀ →
      s'.heap = s.heap.set p (e₁.observe (host.clock s.tape.reads)) → s'.heap[p]? = some e →
      host.clock s.tape.reads < e.deadline ∧ host.clock s.tape.reads < e.lease_deadline := by
    intro p e₀ e₁ he₀ hheap he
    rw [hheap, List.getElem?_set_of_some he₀] at he
    obtain rfl := Option.some.inj he
    simpa using (observe_allowed hallow).2
  cases h with
  | idle hev => rcases hev with rfl | ⟨_, _, _, rfl⟩ <;> simp [Event.response] at hr
  | registered _ _ _ _ _ _ _ _ hst _ hheap =>
    simp only [Event.response, Option.some.injEq, Prod.mk.injEq] at hr
    obtain ⟨rfl, rfl, rfl⟩ := hr
    rw [hheap] at he
    simp only [List.getElem?_concat_length, Option.some.injEq] at he
    subst he
    rcases hst with hst | hst <;> simp [hst] at hallow
  | viewed _ _ _ he₀ _ hheap _ _ _ hread =>
    simp only [Event.response, Option.some.injEq, Prod.mk.injEq] at hr
    obtain ⟨rfl, rfl, rfl⟩ := hr
    exact ⟨rfl, hread, hset he₀ hheap he⟩
  | challenged => simp [Event.response] at hr
  | entered => simp [Event.response] at hr
  | dropped _ hreply => rcases hreply with rfl | ⟨_, rfl⟩ <;> simp [Event.response] at hr
  | failed => simp [Event.response] at hr
  | settled _ he₀ _ _ hheap _ _ _ hread =>
    simp only [Event.response, Option.some.injEq, Prod.mk.injEq] at hr
    obtain ⟨rfl, rfl, rfl⟩ := hr
    exact ⟨rfl, hread, hset he₀ hheap he⟩

theorem Effect.accepts {id : HexStr 32} (h : Effect host cfg s s' ev) (hi : TableInv host cfg s)
    (ha : ev.accepted = some id) :
    ∃ (a : ℕ) (e : Entry), s.heap[a]? = some e ∧ e.binding.admission_id = id ∧
      host.clock s.tape.reads < e.deadline := by
  cases h with
  | idle hev => rcases hev with rfl | ⟨_, _, _, rfl⟩ <;> simp [Event.accepted] at ha
  | registered => simp [Event.accepted] at ha
  | viewed => simp [Event.accepted] at ha
  | challenged _ _ he _ _ hopen => exact ⟨_, _, he, Option.some.inj ha, hopen⟩
  | entered _ hlook he _ _ _ _ hopen =>
    obtain ⟨f, hf, hid⟩ := hi.place _ _ hlook
    obtain rfl := Option.some.inj (he.symm.trans hf)
    exact ⟨_, _, he, hid.trans (Option.some.inj ha), hopen⟩
  | dropped _ hreply => simp [Event.accepted] at ha
  | failed => simp [Event.accepted] at ha
  | settled => simp [Event.accepted] at ha

/-- An entry keeps its place, its binding, its deadline and a revocation along
every run. -/
theorem heap_forth {τ : List Event} {a : ℕ} {e : Entry}
    (h : Runs.Steps (RegistryStep host cfg) s τ s') (ha : s.heap[a]? = some e) :
    ∃ e', s'.heap[a]? = some e' ∧ e'.binding = e.binding ∧ e'.deadline = e.deadline ∧
      (e.state = .revoked → e'.state = .revoked) := by
  refine h.invariant (I := fun t => ∃ e', t.heap[a]? = some e' ∧ e'.binding = e.binding ∧
    e'.deadline = e.deadline ∧ (e.state = .revoked → e'.state = .revoked)) ⟨e, ha, rfl, rfl, id⟩ ?_
  rintro t ev u ⟨f, hf, hb, hd, hr⟩ hstep
  obtain ⟨g, hg, hb', hd', hr', _⟩ := (step_effect hstep).2.forth hf
  exact ⟨g, hg, hb'.trans hb, hd'.trans hd, fun h => hr' (hr h)⟩

/-- After revocation, and after any reading that reaches the deadline, no
response for the admission allows it; past the deadline nothing is accepted
on it. Whether it is accepted is decided at a step's first reading of the clock. -/
theorem closed_admissions_stay_closed {τ τ' : List Event} {m m' : Registry} {a : ℕ} {e : Entry}
    (h : RegistryRun host cfg τ s) (ha : s.heap[a]? = some e)
    (hrun : Runs.Steps (RegistryStep host cfg) s τ' m) (hstep : RegistryStep host cfg m ev m')
    (hf : host.FreshTokens m'.tape.draws) :
    (e.state = .revoked → (∃ e', m'.heap[a]? = some e' ∧ e'.state = .revoked) ∧
      ∀ b now view, ev.response = some (b, now, view) →
        view.binding.admission_id = e.binding.admission_id → view.allow = false) ∧
    (∀ k, e.deadline ≤ host.clock k →
      (k < m'.tape.reads → ∀ b now view, ev.response = some (b, now, view) →
        view.binding.admission_id = e.binding.admission_id → view.allow = false) ∧
      (k ≤ m.tape.reads → ev.accepted ≠ some e.binding.admission_id)) := by
  obtain ⟨hb, heff⟩ := step_effect hstep
  have hi := tableInv_of_run (h.trans hrun)
  have hi' := hi.step hb heff
  obtain ⟨e₀, he₀, hbe₀, hde₀, hre₀⟩ := heap_forth hrun ha
  obtain ⟨e₁, he₁, hbe₁, hde₁, hre₁, _⟩ := heff.forth he₀
  have hsame : ∀ b now view, ev.response = some (b, now, view) →
      view.binding.admission_id = e.binding.admission_id →
      ev.response = some (a, now, view) ∧ view = e₁.view now := by
    intro b now view hr hid
    obtain ⟨f, hf', rfl⟩ := heff.response hr
    have hab : b = a := hi'.ids hf b a f e₁ hf' he₁ (by rw [hbe₁, hbe₀]; exact hid)
    subst hab
    obtain rfl := Option.some.inj (hf'.symm.trans he₁)
    exact ⟨hr, rfl⟩
  refine ⟨?_, ?_⟩
  · intro hrev
    have hst := hre₁ (hre₀ hrev)
    refine ⟨⟨e₁, he₁, hst⟩, ?_⟩
    intro b now view hr hid
    obtain ⟨_, rfl⟩ := hsame b now view hr hid
    simp [Entry.view, hst]
  · intro k hk
    refine ⟨?_, ?_⟩
    · intro hlt b now view hr hid
      obtain ⟨hr, rfl⟩ := hsame b now view hr hid
      by_contra hallow
      have hst : e₁.state = .allowed := by simpa [Entry.view] using hallow
      obtain ⟨rfl, hread, hopen, _⟩ := heff.allowing hr he₁ hst
      have hle : host.clock k ≤ host.clock m.tape.reads := host.clock_mono (by omega)
      rw [hde₁, hde₀] at hopen
      exact absurd (hk.trans hle) (not_le.mpr hopen)
    · intro hle hacc
      obtain ⟨b, f, hfb, hid, hopen⟩ := heff.accepts hi hacc
      have hab : b = a := hi.ids (FreshTokens.mono hf hb.2) b a f e₀ hfb he₀ (by rw [hbe₀]; exact hid)
      subst hab
      obtain rfl := Option.some.inj (hfb.symm.trans he₀)
      rw [hde₀] at hopen
      exact absurd (hk.trans (host.clock_mono hle)) (not_le.mpr hopen)

end

def sampleAsk (identity : ℕ) (operation : String) (fields : Dict) : Action :=
  .dispatch (countingHost.tokenHex identity 32).text (sampleRequest operation
    ([("admission_id", .str (countingHost.tokenHex 1 16).text)] ++ fields))

def samplePass : Attestation :=
  ⟨"", .allow, "verified", "verified", "passed", attestPolicy, "not_configured", [passReason], []⟩

/-- A host that sleeps past the deadline of its first admissions. -/
def wakingHost : Host where
  clock k := if k < 10 then countingHost.clock k else 400
  clock_mono := by
    intro i j h
    show (if i < 10 then (i : ℚ) / 1000 else 400) ≤ if j < 10 then (j : ℚ) / 1000 else 400
    split
    · rename_i hi
      have hi' : (i : ℚ) < 10 := by exact_mod_cast hi
      split
      · have hc : (i : ℚ) ≤ j := by exact_mod_cast h
        linarith
      · linarith
    · rw [if_neg (by omega)]
  wall := countingHost.wall
  tokenHex := countingHost.tokenHex
  sha256 := countingHost.sha256

theorem wakingHost_fresh {n : ℕ} (h : n ≤ 256 ^ 16) : wakingHost.FreshTokens n := countingHost_fresh h

def wakingExec (s : Registry) (actions : List Action) : Option (List Event × Registry) :=
  Runs.exec (fun s => Registry.next wakingHost sampleConfig s) s actions

/-- One step, behind two lists of actions, and whether it and the states around it pass a test. -/
def wakingTest (first between : List Action) (a : Action) (p : Registry → Registry → Event → Registry → Bool) :
    Option Bool := do
  let r ← wakingExec (Registry.start wakingHost) first
  let q ← wakingExec r.2 between
  let z ← Registry.next wakingHost sampleConfig q.2 a
  pure (p r.2 q.2 z.1 z.2)

theorem wakingTest_run {first between : List Action} {a : Action}
    {p : Registry → Registry → Event → Registry → Bool} (h : wakingTest first between a p = some true) :
    ∃ τ s τ' m ev m', RegistryRun wakingHost sampleConfig τ s ∧
      Runs.Steps (RegistryStep wakingHost sampleConfig) s τ' m ∧ RegistryStep wakingHost sampleConfig m ev m' ∧
      p s m ev m' = true := by
  obtain ⟨⟨τ, s⟩, hs, h⟩ := Option.bind_eq_some_iff.mp h
  obtain ⟨⟨τ', m⟩, hm, h⟩ := Option.bind_eq_some_iff.mp h
  obtain ⟨⟨ev, m'⟩, hstep, h⟩ := Option.bind_eq_some_iff.mp h
  exact ⟨τ, s, τ', m, ev, m', Runs.exec_steps hs, Runs.exec_steps hm, ⟨a, hstep⟩, Option.some.inj h⟩

/-- The first admission is in this state with so many submissions in flight, and the step
takes the last of them or responds for the admission. -/
def sampleShown (state : AdmissionState) (reads : ℕ) (s m : Registry) (ev : Event) (m' : Registry) : Bool :=
  (s.heap[0]?.map (fun e => (e.state, e.binding.admission_id, e.deadline))) =
      some (state, countingHost.tokenHex 1 16, 300) ∧
    s.inflight.length = 1 ∧ m'.inflight.length = 0 ∧ reads ≤ m.tape.reads ∧ m'.tape.draws ≤ 10 ∧
    ev.response.map (fun x => (x.1, x.2.2.binding.admission_id)) = some (0, countingHost.tokenHex 1 16)

theorem sampleShown_some {state : AdmissionState} {reads : ℕ} {s m m' : Registry} {ev : Event}
    (h : sampleShown state reads s m ev m' = true) : ∃ e now view, s.heap[0]? = some e ∧ e.state = state ∧
      e.deadline = 300 ∧ s.inflight.length = 1 ∧ reads ≤ m.tape.reads ∧ m'.tape.draws ≤ 10 ∧
      ev.response = some (0, now, view) ∧ view.binding.admission_id = e.binding.admission_id := by
  obtain ⟨he, hone, -, hreads, hdraws, hr⟩ := of_decide_eq_true h
  obtain ⟨e, hheap, he⟩ := Option.map_eq_some_iff.mp he
  obtain ⟨⟨b, now, view⟩, hr, hv⟩ := Option.map_eq_some_iff.mp hr
  simp only [Prod.mk.injEq] at he hv
  obtain ⟨rfl, hv⟩ := hv
  exact ⟨e, now, view, hheap, he.1, he.2.2, hone, hreads, hdraws, hr, hv.trans he.2.1.symm⟩

def sampleSubmitted : List Action :=
  [sampleRegister 2, sampleAsk 2 "challenge" [], sampleAsk 2 "submit" [("evidence", .obj [])]]

/-- The admission is revoked while a submission is in flight that then comes back with a
pass; and the host wakes past the deadline with a submission in flight, and it passes. -/
theorem closed_admissions_stay_closed_sample :
    (∃ τ s τ' m ev m' e now view, RegistryRun wakingHost sampleConfig τ s ∧ s.heap[0]? = some e ∧
      e.state = .revoked ∧ s.inflight.length = 1 ∧ Runs.Steps (RegistryStep wakingHost sampleConfig) s τ' m ∧
      RegistryStep wakingHost sampleConfig m ev m' ∧ ev.response = some (0, now, view) ∧ view.allow = false) ∧
    ∃ τ s τ' m ev m' e now view, RegistryRun wakingHost sampleConfig τ s ∧ s.heap[0]? = some e ∧
      e.state = .verifying ∧ s.inflight.length = 1 ∧ Runs.Steps (RegistryStep wakingHost sampleConfig) s τ' m ∧
      e.deadline ≤ wakingHost.clock 10 ∧ RegistryStep wakingHost sampleConfig m ev m' ∧
      ev.response = some (0, now, view) ∧ view.allow = false ∧ ev.accepted ≠ some e.binding.admission_id := by
  have hclock : (300 : ℚ) ≤ wakingHost.clock 10 := by
    show (300 : ℚ) ≤ if 10 < 10 then ((10 : ℕ) : ℚ) / 1000 else 400
    norm_num
  have hrevoked : wakingTest (sampleSubmitted ++ [sampleAsk 1 "revoke" []]) [.finish 0 (.returned samplePass)]
      (sampleAsk 1 "status" []) (sampleShown .revoked 0) = some true := by decide +kernel
  have hwoken : wakingTest sampleSubmitted (List.replicate 8 .readClock) (.finish 0 (.returned samplePass))
      (sampleShown .verifying 11) = some true := by decide +kernel
  refine ⟨?_, ?_⟩
  · obtain ⟨τ, s, τ', m, ev, m', hs, hm, hstep, hp⟩ := wakingTest_run hrevoked
    obtain ⟨e, now, view, hheap, hst, -, hone, -, hdraws, hr, hid⟩ := sampleShown_some hp
    have hh := closed_admissions_stay_closed hs hheap hm hstep (wakingHost_fresh (by omega))
    exact ⟨τ, s, τ', m, ev, m', e, now, view, hs, hheap, hst, hone, hm, hstep, hr, (hh.1 hst).2 0 now view hr hid⟩
  · obtain ⟨τ, s, τ', m, ev, m', hs, hm, hstep, hp⟩ := wakingTest_run hwoken
    obtain ⟨e, now, view, hheap, hst, hdl, hone, hreads, hdraws, hr, hid⟩ := sampleShown_some hp
    have hh := closed_admissions_stay_closed hs hheap hm hstep (wakingHost_fresh (by omega))
    obtain ⟨hdeny, hclosed⟩ := hh.2 10 (hdl ▸ hclock)
    have hread : m.tape.reads ≤ m'.tape.reads := (step_effect hstep).1.1
    exact ⟨τ, s, τ', m, ev, m', e, now, view, hs, hheap, hst, hone, hm, hdl ▸ hclock, hstep, hr,
      hdeny (by omega) 0 now view hr hid, hclosed (by omega)⟩

end ArenaLab
