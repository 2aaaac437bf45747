import ArenaLab.LeaseHistory

/-! Every permission is grounded in one verified challenge. -/

namespace ArenaLab

section

variable {host : Host} {cfg : Config} {s : Registry} {τ : List Event}

theorem countP_enters_pos {τ : List Event} {identity : String} {message : Json} {x : Submission}
    {v : ℕ} (hv : x.verifier = some v) (hm : .dispatched identity message (.entered x) ∈ τ) :
    0 < τ.countP (·.enters v) :=
  List.countP_pos_iff.mpr ⟨_, hm, by simp [Event.enters, hv]⟩

theorem remaining_le {e : Entry} {now : ℚ} (h : now < min e.deadline e.lease_deadline) :
    ((e.view now).remaining_ms : ℚ) ≤ (min e.deadline e.lease_deadline - now) * 1000 := by
  have hpos : 0 ≤ (min e.deadline e.lease_deadline - now) * 1000 :=
    mul_nonneg (sub_nonneg.mpr h.le) (by norm_num)
  simp only [Entry.view]
  split
  · rw [Int.cast_max]
    exact max_le (by simpa using hpos) (truncate_le hpos)
  · simpa using hpos

/-- Whenever a response allows an admission, the last challenge on it went to
its attestor, was consumed by one submission of the whole run and verified
with `ALLOW`; no revocation came before; and the response is younger than both
the lease and the binding. -/
theorem grounded_lease (h : RegistryRun host cfg τ s) {pre post : List Event} {ev : Event} {a : ℕ}
    {now : ℚ} {view : View} (hsplit : τ = pre ++ ev :: post)
    (hr : ev.response = some (a, now, view)) (hallow : view.allow = true) :
    ∃ c x identity message attestation reply registeredAt,
      lastIssue a pre = some c ∧ c.identity = view.binding.attestor.text ∧
      .dispatched identity message (.entered x) ∈ pre ∧ x.entry = a ∧
      x.verifier = some c.verifier ∧ τ.countP (·.enters c.verifier) = 1 ∧
      .finished x (.returned attestation) reply ∈ pre ++ [ev] ∧ attestation.decision = .allow ∧
      (∀ ev' ∈ pre ++ [ev], ev'.revokes a = false) ∧
      (∃ identity message now view', view'.binding = view.binding ∧
        .dispatched identity message (.registered a registeredAt now view') ∈ pre) ∧
      now < c.issuedAt + cfg.lease_ms / 1000 ∧ now < registeredAt + cfg.binding_ms / 1000 ∧
      (view.remaining_ms : ℚ) ≤ (min (registeredAt + cfg.binding_ms / 1000)
        (c.issuedAt + cfg.lease_ms / 1000) - now) * 1000 := by
  subst hsplit
  obtain ⟨m, m', hpre, hstep, _⟩ := h.of_split
  have hrun : RegistryRun host cfg (pre ++ [ev]) m' := hpre.snoc hstep
  have heff := (step_effect hstep).2
  obtain ⟨e, he, rfl⟩ := heff.response hr
  have hst : e.state = .allowed := by simpa [Entry.view] using hallow
  obtain ⟨_, _, hopen, hlease⟩ := heff.allowing hr he hst
  obtain ⟨x, c, pre', identity, message, post', attestation, reply, rfl, hv, hτ, hc, hm, hd, hl⟩ :=
    earned_of_run hrun a e he hst
  have hlast : lastIssue x.entry (pre ++ [ev]) = some c := by
    rw [hτ]
    exact hc.lastIssue
  obtain ⟨c', hc', _, hid, _⟩ := issuedIn_of_run hrun _ e _ he (hv.trans hc.2.1)
  obtain rfl := Option.some.inj (hc'.symm.trans hlast)
  have hin : .dispatched identity message (.entered x) ∈ pre := by
    have hmem : Event.dispatched identity message (.entered x) ∈ pre ++ [ev] := by simp [hτ]
    rcases List.mem_append.mp hmem with hmem | hmem
    · exact hmem
    · obtain rfl := List.mem_singleton.mp hmem
      simp [Event.response] at hr
  obtain ⟨e₀, he₀, hde⟩ : ∃ e₀, m.heap[x.entry]? = some e₀ ∧ e.deadline = e₀.deadline := by
    rcases heff.allowed he hst with ⟨e₀, he₀, _, hde, _⟩ | ⟨_, e₀, _, _, _, _, _, he₀, _, hde, _⟩ <;>
      exact ⟨e₀, he₀, hde⟩
  obtain ⟨e₁, he₁, hb, _⟩ := heff.forth he₀
  obtain rfl := Option.some.inj (he₁.symm.trans he)
  obtain ⟨identity', message', registeredAt, read, view', hreg, hvb, hdl⟩ :=
    registeredIn_of_run hpre _ e₀ he₀
  have hdead : e₁.deadline = registeredAt + cfg.binding_ms / 1000 := hde.trans hdl
  have hmin : min e₁.deadline e₁.lease_deadline =
      min (registeredAt + cfg.binding_ms / 1000) (c'.issuedAt + cfg.lease_ms / 1000) := by
    rw [hl, ← min_assoc, min_self, hdead]
  refine ⟨c', x, identity, message, attestation, reply, registeredAt, ?_, hid, hin, rfl, hc.2.1, ?_, ?_,
    hd, ?_, ⟨identity', message', read, view', hvb.trans hb.symm, hreg⟩, ?_, ?_, ?_⟩
  · rwa [lastIssue_snoc, (heff.quiet he (by simp [hst])).1, Option.none_or] at hlast
  · have hpos := countP_enters_pos hc.2.1 (τ := pre ++ ev :: post) (List.mem_append_left _ hin)
    have honce := (enterCount_of_run h).once c'.verifier
    omega
  · rw [hτ]
    simp [hm]
  · intro ev' hm'
    by_contra hrev
    obtain ⟨f, hf, hfs⟩ := revokes_of_run hrun _ ev' hm' (Bool.not_eq_false _ ▸ hrev)
    obtain rfl := Option.some.inj (hf.symm.trans he)
    simp [hst] at hfs
  · exact hlease.trans_le (hl ▸ min_le_right _ _)
  · exact hdead ▸ hopen
  · rw [← hmin]
    exact remaining_le (lt_min hopen hlease)

end

def sampleLease : Option (List Event × Registry) :=
  sampleRun [sampleRegister 2, sampleAsk 2 "challenge" [], sampleAsk 1 "status" [],
    sampleAsk 2 "submit" [("evidence", .obj [])], .finish 0 (.returned samplePass),
    sampleAsk 1 "status" []]

def Event.shows (ev : Event) : Option (ℕ × AdmissionState × Bool) :=
  ev.response.map (fun r => (r.1, r.2.2.state, r.2.2.allow))

theorem shows_some {ev : Event} {a : ℕ} {state : AdmissionState} {allow : Bool}
    (h : ev.shows = some (a, state, allow)) :
    ∃ now view, ev.response = some (a, now, view) ∧ view.state = state ∧ view.allow = allow := by
  obtain ⟨⟨a', now, view⟩, hr, he⟩ := Option.map_eq_some_iff.mp h
  simp only [Prod.mk.injEq] at he
  obtain ⟨rfl, rfl, rfl⟩ := he
  exact ⟨now, view, hr, rfl, rfl⟩

theorem sampleLease_shows : sampleLease.map (fun r => r.1.map (·.shows)) =
    some [some (0, .registered, false), none, some (0, .challenged, false), none,
      some (0, .allowed, true), some (0, .allowed, true)] := by
  decide +kernel

theorem sampleLease_run : ∃ pre ev₁ mid ev₂ s now₁ view₁ now₂ view₂,
    RegistryRun countingHost sampleConfig (pre ++ ev₁ :: (mid ++ [ev₂])) s ∧
    ev₁.response = some (0, now₁, view₁) ∧ view₁.state = .challenged ∧
    ev₂.response = some (0, now₂, view₂) ∧ view₂.state = .allowed ∧ view₂.allow = true := by
  obtain ⟨⟨τ, s⟩, he, hd⟩ := Option.map_eq_some_iff.mp sampleLease_shows
  have hrun : RegistryRun countingHost sampleConfig τ s := Runs.exec_steps he
  simp only [List.map_eq_cons_iff, List.map_eq_nil_iff] at hd
  obtain ⟨e₁, _, rfl, _, e₂, _, rfl, _, e₃, _, rfl, h₃, e₄, _, rfl, _, e₅, _, rfl, _, e₆, _, rfl, h₆,
    rfl⟩ := hd
  obtain ⟨now₁, view₁, hr₁, hs₁, _⟩ := shows_some h₃
  obtain ⟨now₂, view₂, hr₂, hs₂, ha₂⟩ := shows_some h₆
  exact ⟨[e₁, e₂], e₃, [e₄, e₅], e₆, s, now₁, view₁, now₂, view₂, hrun, hr₁, hs₁, hr₂, hs₂, ha₂⟩

theorem grounded_lease_sample : ∃ pre ev s now view c,
    RegistryRun countingHost sampleConfig (pre ++ [ev]) s ∧
    ev.response = some (0, now, view) ∧ view.allow = true ∧
    lastIssue 0 pre = some c ∧ now < c.issuedAt + sampleConfig.lease_ms / 1000 := by
  obtain ⟨pre, ev₁, mid, ev₂, s, _, _, now, view, hrun, _, _, hr, _, ha⟩ := sampleLease_run
  rw [show pre ++ ev₁ :: (mid ++ [ev₂]) = (pre ++ ev₁ :: mid) ++ [ev₂] by simp] at hrun
  obtain ⟨c, _, _, _, _, _, _, hlast, _, _, _, _, _, _, _, _, _, hlease, _⟩ :=
    grounded_lease hrun rfl hr ha
  exact ⟨_, ev₂, s, now, view, c, hrun, hr, ha, hlast, hlease⟩

end ArenaLab
