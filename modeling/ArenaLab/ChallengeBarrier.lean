import ArenaLab.GroundedLease

/-! No permission crosses from one challenge to the next. -/

namespace ArenaLab

theorem split_before {α : Type*} {p q p' q' : List α} {x y : α} (h : p ++ x :: q = p' ++ y :: q')
    (hne : x ≠ y) (hx : x ∉ q') : ∃ r, p' = p ++ x :: r ∧ q = r ++ y :: q' := by
  rcases List.append_eq_append_iff.mp h with ⟨r, hp, hq⟩ | ⟨r, hp, hq⟩
  · cases r with
    | nil => exact absurd (List.cons.inj hq).1 hne
    | cons z r =>
      obtain ⟨rfl, hr⟩ := List.cons.inj hq
      exact ⟨r, hp, hr⟩
  · cases r with
    | nil => exact absurd (List.cons.inj hq).1.symm hne
    | cons z r =>
      obtain ⟨_, hq⟩ := List.cons.inj hq
      have hmem : x ∈ q' := by
        rw [hq]
        simp
      exact absurd hmem hx

section

variable {host : Host} {cfg : Config} {s : Registry} {τ : List Event}

/-- One verification at a time runs on an entry; between a response that shows
it challenged and one that shows it allowed lie a submission of the challenge
then pending and its `ALLOW`; and whatever finishes belongs to the last
challenge on its entry. -/
theorem challenge_barrier (h : RegistryRun host cfg τ s) :
    (s.inflight.map (·.entry)).Nodup ∧
    (∀ pre ev₁ mid ev₂ post a now₁ view₁ now₂ view₂, τ = pre ++ ev₁ :: (mid ++ ev₂ :: post) →
      ev₁.response = some (a, now₁, view₁) → view₁.state = .challenged →
      ev₂.response = some (a, now₂, view₂) → view₂.state = .allowed →
      ∃ before x identity message after c attestation reply,
        mid = before ++ .dispatched identity message (.entered x) :: after ∧ x.entry = a ∧
        lastIssue a (pre ++ ev₁ :: before) = some c ∧ x.verifier = some c.verifier ∧
        .finished x (.returned attestation) reply ∈ after ++ [ev₂] ∧
        attestation.decision = .allow) ∧
    (∀ pre x outcome reply post, τ = pre ++ .finished x outcome reply :: post →
      ∃ c, lastIssue x.entry pre = some c ∧ x.verifier = some c.verifier) := by
  refine ⟨(registryInv_of_run h).flight.single, ?_, ?_⟩
  · intro pre ev₁ mid ev₂ post a now₁ view₁ now₂ view₂ hτ hr₁ hs₁ hr₂ hs₂
    rw [hτ, show pre ++ ev₁ :: (mid ++ ev₂ :: post) = (pre ++ ev₁ :: mid) ++ ev₂ :: post by simp] at h
    obtain ⟨m, m', hm, hstep, _⟩ := h.of_split
    have hrun : RegistryRun host cfg ((pre ++ ev₁ :: mid) ++ [ev₂]) m' := hm.snoc hstep
    obtain ⟨e, he, rfl⟩ := (step_effect hstep).2.response hr₂
    obtain ⟨x, c, pre', identity, message, post', attestation, reply, rfl, _, hsplit, hc, hf, hd, _⟩ :=
      earned_of_run hrun a e he hs₂
    have hne : ∀ {ev now view}, Event.response ev = some (x.entry, now, view) →
        ev ≠ .dispatched identity message (.entered x) := by
      rintro ev now view hr rfl
      simp [Event.response] at hr
    obtain ⟨before, rfl, hrest⟩ := split_before (p := pre) (x := ev₁) (q := mid ++ [ev₂])
      (by simpa using hsplit) (hne hr₁) (fun hmem => (hc.2.2 ev₁ hmem).2 now₁ view₁ hr₁ hs₁)
    obtain ⟨after, rfl, rfl⟩ := split_before hrest.symm (hne hr₂).symm (by simp)
    exact ⟨before, x, identity, message, after, c, attestation, reply, rfl, rfl, hc.1, hc.2.1, hf, hd⟩
  · rintro pre x outcome reply post rfl
    obtain ⟨m, m', hm, hstep, _⟩ := h.of_split
    have hx : x ∈ m.inflight := by
      cases (step_effect hstep).2 with
      | idle hev => simp at hev
      | dropped hx => exact List.mem_of_getElem? hx
      | failed hx => exact List.mem_of_getElem? hx
      | settled hx => exact List.mem_of_getElem? hx
    obtain ⟨pre', identity, message, post', c, rfl, hc⟩ := consumed_of_run hm x hx
    exact ⟨c, hc.lastIssue, hc.2.1⟩

end

theorem challenge_barrier_sample : ∃ pre ev₁ mid ev₂ s,
    RegistryRun countingHost sampleConfig (pre ++ ev₁ :: (mid ++ [ev₂])) s ∧
    (s.inflight.map (·.entry)).Nodup ∧
    ∃ x identity message, .dispatched identity message (.entered x) ∈ mid ∧ x.entry = 0 := by
  obtain ⟨pre, ev₁, mid, ev₂, s, _, _, _, _, hrun, hr₁, hs₁, hr₂, hs₂, _⟩ := sampleLease_run
  obtain ⟨hone, hbar, _⟩ := challenge_barrier hrun
  obtain ⟨_, x, identity, message, _, _, _, _, hmid, hx, _⟩ :=
    hbar pre ev₁ mid ev₂ [] 0 _ _ _ _ rfl hr₁ hs₁ hr₂ hs₂
  have hmem : .dispatched identity message (.entered x) ∈ mid := by
    rw [hmid]
    simp
  exact ⟨pre, ev₁, mid, ev₂, s, hrun, hone, x, identity, message, hmem, hx⟩

end ArenaLab
