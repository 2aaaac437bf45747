import ArenaLab.RegistryFlight

/-! Who may change a live admission. -/

namespace ArenaLab

section

variable {host : Host} {cfg : Config} {s s' : Registry} {ev : Event}

theorem inflight_entered {τ : List Event} (h : RegistryRun host cfg τ s) :
    ∀ x ∈ s.inflight, ∃ message, .dispatched x.identity.text message (.entered x) ∈ τ ∧
      Names message .submit x.admission_id := by
  refine h.history (I := fun τ s => ∀ x ∈ s.inflight, ∃ message,
    .dispatched x.identity.text message (.entered x) ∈ τ ∧ Names message .submit x.admission_id) ?_ ?_
  · simp [Registry.start]
  · intro τ t ev u _ ih hstep x hx
    have hold : x ∈ t.inflight → ∃ message,
        .dispatched x.identity.text message (.entered x) ∈ τ ++ [ev] ∧
          Names message .submit x.admission_id := by
      intro hm
      obtain ⟨message, hin, hname⟩ := ih x hm
      exact ⟨message, List.mem_append_left _ hin, hname⟩
    cases (step_effect hstep).2 with
    | idle _ _ _ hfly => exact hold (hfly ▸ hx)
    | registered _ _ _ _ _ _ _ _ _ _ _ _ hfly => exact hold (hfly ▸ hx)
    | viewed _ _ _ _ _ _ _ hfly => exact hold (hfly ▸ hx)
    | challenged _ _ _ _ _ _ _ _ _ hfly => exact hold (hfly ▸ hx)
    | entered hname _ _ _ hid _ _ _ _ _ hfly =>
      rw [hfly] at hx
      rcases List.mem_append.mp hx with hx | hx
      · exact hold hx
      · obtain rfl := List.mem_singleton.mp hx
        exact ⟨_, List.mem_append_right _ (by simp [hid]), hname⟩
    | dropped _ _ _ _ hfly => exact hold (List.mem_of_mem_eraseIdx (hfly ▸ hx))
    | failed _ _ _ _ _ hfly => exact hold (List.mem_of_mem_eraseIdx (hfly ▸ hx))
    | settled _ _ _ _ _ _ hfly => exact hold (List.mem_of_mem_eraseIdx (hfly ▸ hx))

def Operation.owner (operation : Operation) (binding : Binding) : HexStr 64 :=
  if operation.byController then binding.controller else binding.attestor

/-- The step belongs to a call that names the admission and comes from the
controller or attestor it is bound to. -/
def ByOwner (τ : List Event) (binding : Binding) : Event → Prop
  | .dispatched identity message _ => ∃ operation, operation ≠ .register ∧
      Names message operation binding.admission_id ∧ (operation.owner binding).text = identity
  | .finished x _ _ => x.identity = binding.attestor ∧ ∃ message,
      .dispatched x.identity.text message (.entered x) ∈ τ ∧
        Names message .submit binding.admission_id
  | .clockRead => False

theorem byOwner_of_about {τ : List Event} {a : ℕ} {e : Entry} (h : RegistryRun host cfg τ s)
    (heff : Effect host cfg s s' ev) (ha : s.heap[a]? = some e) (hab : ev.about = some a) :
    ByOwner τ e.binding ev := by
  have hi := registryInv_of_run h
  have hname : ∀ {id : HexStr 32} {f : Entry}, s.entries.lookup id = some a → s.heap[a]? = some f →
      f = e ∧ e.binding.admission_id = id := by
    intro id f hl hf
    obtain rfl := Option.some.inj (hf.symm.trans ha)
    obtain ⟨g, hg, hid⟩ := hi.table.place _ _ hl
    obtain rfl := Option.some.inj (hf.symm.trans hg)
    exact ⟨rfl, hid⟩
  have hfin : ∀ {i : ℕ} {x : Submission} {outcome : Outcome} {reply : Reply},
      s.inflight[i]? = some x → (Event.finished x outcome reply).about = some a →
      ByOwner τ e.binding (.finished x outcome reply) := by
    intro i x outcome reply hx hab
    obtain rfl := Option.some.inj hab
    have hm := List.mem_of_getElem? hx
    obtain ⟨f, hf, hatt, hid, _⟩ := hi.flight.held x hm
    obtain rfl := Option.some.inj (hf.symm.trans ha)
    obtain ⟨message, hin, hn⟩ := inflight_entered h x hm
    have hname : Names message .submit f.binding.admission_id := by
      rw [hid]
      exact hn
    exact ⟨hatt.symm, message, hin, hname⟩
  cases heff with
  | idle hev =>
    rcases hev with rfl | ⟨_, _, _, rfl⟩ <;> simp [Event.about] at hab
  | registered =>
    obtain rfl := Option.some.inj hab
    simp at ha
  | viewed hop hn hl hf hctl =>
    obtain rfl := Option.some.inj hab
    obtain ⟨rfl, hid⟩ := hname hl hf
    refine ⟨_, ?_, hid ▸ hn, ?_⟩
    · rcases hop with rfl | rfl <;> decide
    · rcases hop with rfl | rfl <;> exact hctl
  | challenged hn hl hf hatt =>
    obtain rfl := Option.some.inj hab
    obtain ⟨rfl, hid⟩ := hname hl hf
    exact ⟨.challenge, by decide, hid ▸ hn, hatt⟩
  | entered hn hl hf hatt hid' =>
    obtain rfl := Option.some.inj hab
    obtain ⟨rfl, hid⟩ := hname hl hf
    have howner := (congrArg HexStr.text hatt).trans hid'
    exact ⟨.submit, by decide, hid ▸ hn, howner⟩
  | dropped hx => exact hfin hx hab
  | failed hx => exact hfin hx hab
  | settled hx => exact hfin hx hab

theorem lookup_live {τ : List Event} {a : ℕ} {e : Entry} (h : RegistryRun host cfg τ s)
    (heff : Effect host cfg s s' ev) (ha : s.heap[a]? = some e) (hlive : e.state ≠ .revoked)
    (hopen : host.clock s.tape.reads < e.deadline) :
    s.entries.lookup e.binding.admission_id = some a ∧
      s'.entries.lookup e.binding.admission_id = some a := by
  have hl : s.entries.lookup e.binding.admission_id = some a := by
    rcases (tableInv_of_run h).live a e ha with hl | hl | ⟨k, hk, hd⟩
    · exact hl
    · exact absurd hl hlive
    · exact absurd (hd.trans (host.clock_mono hk.le)) (not_le.mpr hopen)
  have hp : (s.prune (host.clock s.tape.reads)).entries.lookup e.binding.admission_id = some a :=
    lookup_prune.mpr ⟨hl, alive_iff.mpr ⟨e, ha, hopen, hlive⟩⟩
  refine ⟨hl, ?_⟩
  rcases heff.rewritten with ⟨_, ht | ⟨_, ht, _⟩⟩ | ⟨_, _, _, _, _, _, _, rfl⟩
  · rw [ht]
    exact hl
  · rw [ht]
    exact hp
  · cases heff with
    | idle hev => simp at hev
    | @registered _ _ f _ _ _ _ _ hnew _ _ _ _ _ _ _ _ htable =>
      have hne : e.binding.admission_id ≠ f.binding.admission_id := by
        intro hc
        rw [hc] at hp
        have hsome := Option.isSome_of_eq_some hp
        exact hnew (AList.lookup_isSome.mp hsome)
      rw [htable, AList.lookup_insert_ne hne]
      exact hp

/-- Only calls of its own controller and attestor that name it change a live
admission, and a refused call changes no admission at all. -/
theorem owner_isolation {τ : List Event} {a : ℕ} {e : Entry} (h : RegistryRun host cfg τ s)
    (hstep : RegistryStep host cfg s ev s') (ha : s.heap[a]? = some e) (hlive : e.state ≠ .revoked)
    (hopen : host.clock s.tape.reads < e.deadline) :
    s.entries.lookup e.binding.admission_id = some a ∧
    s'.entries.lookup e.binding.admission_id = some a ∧
    (¬ByOwner τ e.binding ev → s'.heap[a]? = some e) ∧
    (∀ identity message error, ev = .dispatched identity message (.refused error) →
      s'.heap = s.heap) := by
  have heff := (step_effect hstep).2
  obtain ⟨hl, hl'⟩ := lookup_live h heff ha hlive hopen
  refine ⟨hl, hl', ?_, ?_⟩
  · intro hn
    obtain ⟨e', he', _, _, _, hsame⟩ := heff.forth ha
    rw [hsame (fun hab => hn (byOwner_of_about h heff ha hab))] at he'
    exact he'
  · rintro identity message error rfl
    cases heff with
    | idle _ hheap => exact hheap

end

theorem owner_isolation_sample : ∃ τ s s' e message reply,
    RegistryRun countingHost sampleConfig τ s ∧
    RegistryStep countingHost sampleConfig s (.dispatched "intruder" message reply) s' ∧
    s.heap[0]? = some e ∧ e.state = .registered ∧ s'.heap[0]? = some e := by
  have hrun : (sampleRun [sampleRegister 2]).map
      (fun r => (r.2.heap[0]?.map (fun e => (e.state, e.deadline)), countingHost.clock r.2.tape.reads)) =
      some (some (.registered, 300), 1 / 500) := by decide +kernel
  obtain ⟨⟨τ, s⟩, he, hd⟩ := Option.map_eq_some_iff.mp hrun
  obtain ⟨hheap, hnow⟩ := Prod.mk.inj hd
  obtain ⟨e, hheap, hed⟩ := Option.map_eq_some_iff.mp hheap
  obtain ⟨hst, hdl⟩ := Prod.mk.inj hed
  have hstep : RegistryStep countingHost sampleConfig s (.dispatched "intruder"
      (sampleRequest "revoke" [("admission_id", .str (countingHost.tokenHex 1 16).text)]) _) _ :=
    ⟨.dispatch "intruder" _, rfl⟩
  have hn : ¬ByOwner τ e.binding (.dispatched "intruder"
      (sampleRequest "revoke" [("admission_id", .str (countingHost.tokenHex 1 16).text)])
      (s.dispatch countingHost sampleConfig "intruder"
        (sampleRequest "revoke" [("admission_id", .str (countingHost.tokenHex 1 16).text)])).2) := by
    rintro ⟨operation, _, _, ho⟩
    have hl := (operation.owner e.binding).chars_length
    rw [ho] at hl
    exact absurd hl (by decide)
  have hopen : countingHost.clock s.tape.reads < e.deadline := by
    simp only at hnow
    rw [hnow, hdl]
    norm_num
  have hh := owner_isolation (Runs.exec_steps he) hstep hheap (by simp [hst]) hopen
  exact ⟨τ, s, _, e, _, _, Runs.exec_steps he, hstep, hheap, hst, hh.2.2.1 hn⟩

end ArenaLab
