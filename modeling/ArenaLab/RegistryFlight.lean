import ArenaLab.RegistryTable

/-! Verifiers and submissions in flight over whole runs. An entry whose
submission is still being verified stays `VERIFYING` unless it is closed for
good, so that no other submission can start on it. -/

namespace ArenaLab

structure VerifierInv (s : Registry) : Prop where
  made : ∀ (a : ℕ) e v, s.heap[a]? = some e → e.verifier = some v → v < s.verifiers.length
  apart : ∀ (a b : ℕ) e f v, s.heap[a]? = some e → s.heap[b]? = some f →
    e.verifier = some v → f.verifier = some v → a = b
  pending : ∀ (a : ℕ) e, s.heap[a]? = some e → e.state = .challenged → ∃ v, e.verifier = some v

/-- The states of an entry whose submission is in flight. -/
def Entry.Held (host : Host) (reads : ℕ) (e : Entry) : Prop :=
  e.state = .verifying ∨ e.state = .revoked ∨
    e.state = .expired ∧ ∃ k < reads, e.deadline ≤ host.clock k

structure FlightInv (host : Host) (s : Registry) : Prop where
  held : ∀ x ∈ s.inflight, ∃ e, s.heap[x.entry]? = some e ∧ e.binding.attestor = x.identity ∧
    e.binding.admission_id = x.admission_id ∧ e.verifier = x.verifier ∧ e.Held host s.tape.reads
  single : (s.inflight.map (·.entry)).Nodup

section

variable {host : Host} {cfg : Config} {s s' : Registry} {ev : Event}

theorem VerifierInv.same {p : ℕ} {e e' : Entry} (h : VerifierInv s) (he : s.heap[p]? = some e)
    (hheap : s'.heap = s.heap.set p e') (hver : s'.verifiers = s.verifiers)
    (hv : e'.verifier = e.verifier) (hst : e'.state = .challenged → e.state = .challenged) :
    VerifierInv s' := by
  have hback : ∀ (a : ℕ) f', s'.heap[a]? = some f' → ∃ f, s.heap[a]? = some f ∧
      f'.verifier = f.verifier ∧ (f'.state = .challenged → f.state = .challenged) := by
    intro a f' hf
    rw [hheap] at hf
    rcases List.getElem?_set_some hf with ⟨rfl, rfl⟩ | ⟨_, hf⟩
    · exact ⟨e, he, hv, hst⟩
    · exact ⟨f', hf, rfl, id⟩
  constructor
  · intro a f' v hf hfv
    obtain ⟨f, hf, hfe, _⟩ := hback a f' hf
    rw [hver]
    exact h.made a f v hf (hfe.symm.trans hfv)
  · intro a b f' g' v hf hg hfv hgv
    obtain ⟨f, hf, hfe, _⟩ := hback a f' hf
    obtain ⟨g, hg, hge, _⟩ := hback b g' hg
    exact h.apart a b f g v hf hg (hfe.symm.trans hfv) (hge.symm.trans hgv)
  · intro a f' hf hch
    obtain ⟨f, hf, hfe, hfs⟩ := hback a f' hf
    rw [hfe]
    exact h.pending a f hf (hfs hch)

theorem VerifierInv.fresh {p : ℕ} {e : Entry} (h : VerifierInv s)
    (hheap : s'.heap = s.heap.set p e) (hver : s'.verifiers.length = s.verifiers.length + 1)
    (hv : e.verifier = some s.verifiers.length) : VerifierInv s' := by
  constructor
  · intro a f v hf hfv
    rw [hheap] at hf
    rcases List.getElem?_set_some hf with ⟨rfl, rfl⟩ | ⟨_, hf⟩
    · obtain rfl := Option.some.inj (hv.symm.trans hfv)
      omega
    · have := h.made a f v hf hfv
      omega
  · intro a b f g v hf hg hfv hgv
    rw [hheap] at hf hg
    rcases List.getElem?_set_some hf with ⟨rfl, rfl⟩ | ⟨_, hf⟩
    · obtain rfl := Option.some.inj (hv.symm.trans hfv)
      rcases List.getElem?_set_some hg with ⟨rfl, rfl⟩ | ⟨_, hg⟩
      · rfl
      · exact absurd (h.made b g _ hg hgv) (lt_irrefl _)
    · rcases List.getElem?_set_some hg with ⟨rfl, rfl⟩ | ⟨_, hg⟩
      · obtain rfl := Option.some.inj (hv.symm.trans hgv)
        exact absurd (h.made a f _ hf hfv) (lt_irrefl _)
      · exact h.apart a b f g v hf hg hfv hgv
  · intro a f hf hch
    rw [hheap] at hf
    rcases List.getElem?_set_some hf with ⟨rfl, rfl⟩ | ⟨_, hf⟩
    · exact ⟨_, hv⟩
    · exact h.pending a f hf hch

theorem VerifierInv.append {e : Entry} (h : VerifierInv s) (hheap : s'.heap = s.heap ++ [e])
    (hver : s'.verifiers = s.verifiers) (hv : e.verifier = none) (hst : e.state ≠ .challenged) :
    VerifierInv s' := by
  have hold : ∀ (a : ℕ) f v, s'.heap[a]? = some f → f.verifier = some v → s.heap[a]? = some f := by
    intro a f v hf hfv
    rw [hheap] at hf
    rcases List.getElem?_concat_some hf with hf | ⟨_, rfl⟩
    · exact hf
    · rw [hv] at hfv
      cases hfv
  constructor
  · intro a f v hf hfv
    rw [hver]
    exact h.made a f v (hold a f v hf hfv) hfv
  · intro a b f g v hf hg hfv hgv
    exact h.apart a b f g v (hold a f v hf hfv) (hold b g v hg hgv) hfv hgv
  · intro a f hf hch
    rw [hheap] at hf
    rcases List.getElem?_concat_some hf with hf | ⟨_, rfl⟩
    · exact h.pending a f hf hch
    · exact absurd hch hst

theorem VerifierInv.quiet (h : VerifierInv s) (hheap : s'.heap = s.heap)
    (hver : s'.verifiers = s.verifiers) : VerifierInv s' := by
  constructor
  · rw [hheap, hver]
    exact h.made
  · rw [hheap]
    exact h.apart
  · rw [hheap]
    exact h.pending

theorem VerifierInv.step (h : VerifierInv s) (heff : Effect host cfg s s' ev) : VerifierInv s' := by
  cases heff with
  | idle _ hheap hver => exact h.quiet hheap hver
  | registered _ _ _ _ _ _ _ _ hst hv hheap hver =>
    refine h.append hheap hver hv ?_
    rcases hst with hst | hst <;> simp [hst]
  | @viewed _ _ operation _ _ e _ _ _ he _ hheap hver =>
    refine h.same he hheap hver (by simp) ?_
    intro hch
    exact viewed_open hch (by decide) (by decide)
  | challenged _ _ he _ _ _ _ hheap hver => exact h.fresh hheap hver rfl
  | entered _ _ he _ _ _ _ _ hheap hver => exact h.same he hheap hver rfl (by simp)
  | dropped _ _ hheap hver => exact h.quiet hheap hver
  | failed _ he _ hheap hver => exact h.same he hheap hver rfl (by simp)
  | @settled _ e _ attestation _ he _ _ hheap hver =>
    refine h.same he hheap hver (by simp) ?_
    intro hch
    exact absurd hch (settled_closed cfg e attestation (host.clock s.tape.reads))

theorem Held.mono {m n : ℕ} {e : Entry} (h : e.Held host m) (hle : m ≤ n) : e.Held host n := by
  rcases h with h | h | ⟨h, k, hk, hd⟩
  · exact .inl h
  · exact .inr (.inl h)
  · exact .inr (.inr ⟨h, k, hk.trans_le hle, hd⟩)

theorem Held.viewed {reads : ℕ} {e : Entry} (operation : Operation) (h : e.Held host reads) :
    ((e.asked operation).observe (host.clock reads)).Held host (reads + 1) := by
  rcases viewed_state e operation (host.clock reads) with ⟨_, hs⟩ | ⟨_, hs | ⟨hs, _, hd | hd⟩⟩
  · exact .inr (.inl hs)
  · have hm := Held.mono h (Nat.le_succ reads)
    simpa [Entry.Held, hs] using hm
  · exact .inr (.inr ⟨hs, reads, Nat.lt_succ_self reads, by simpa using hd⟩)
  · simp [Entry.Held, hd] at h

theorem Held.closed {reads : ℕ} {e : Entry} (h : e.Held host reads) (hidle : e.state ≠ .verifying)
    (hlive : e.state ≠ .revoked) : e.deadline ≤ host.clock reads := by
  rcases h with h | h | ⟨_, k, hk, hd⟩
  · exact absurd h hidle
  · exact absurd h hlive
  · exact hd.trans (host.clock_mono hk.le)

theorem FlightInv.keep (h : FlightInv host s)
    (hfly : s'.inflight.Sublist s.inflight)
    (hheap : ∀ x ∈ s'.inflight, ∀ e, s.heap[x.entry]? = some e → e.Held host s.tape.reads →
      ∃ e', s'.heap[x.entry]? = some e' ∧ e'.binding = e.binding ∧ e'.verifier = e.verifier ∧
        e'.Held host s'.tape.reads) : FlightInv host s' := by
  refine ⟨?_, h.single.sublist (hfly.map _)⟩
  intro x hx
  obtain ⟨e, he, hatt, hid, hv, hh⟩ := h.held x (hfly.subset hx)
  obtain ⟨e', he', hb, hv', hh'⟩ := hheap x hx e he hh
  exact ⟨e', he', by rw [hb, hatt], by rw [hb, hid], hv'.trans hv, hh'⟩

theorem FlightInv.step (h : FlightInv host s) (ht : TableInv host cfg s)
    (hb : s.tape.Before s'.tape) (heff : Effect host cfg s s' ev) : FlightInv host s' := by
  have hsame : ∀ (a : ℕ) (e : Entry), e.Held host s.tape.reads → s'.heap[a]? = some e →
      ∃ e', s'.heap[a]? = some e' ∧ e'.binding = e.binding ∧ e'.verifier = e.verifier ∧
        e'.Held host s'.tape.reads :=
    fun a e hh he => ⟨e, he, rfl, rfl, Held.mono hh hb.1⟩
  cases heff with
  | idle _ hheap _ hfly =>
    refine h.keep (hfly ▸ List.Sublist.refl _) ?_
    intro x _ e he hh
    refine hsame _ e hh ?_
    rw [hheap]
    exact he
  | registered _ _ _ _ _ _ _ _ _ _ hheap _ hfly =>
    refine h.keep (hfly ▸ List.Sublist.refl _) ?_
    intro x _ e he hh
    refine hsame _ e hh ?_
    rw [hheap]
    exact List.getElem?_concat_of_some he
  | @viewed _ _ operation _ place _ _ _ _ hp _ hheap _ hfly _ hread =>
    refine h.keep (hfly ▸ List.Sublist.refl _) ?_
    intro x _ e he hh
    by_cases hx : place = x.entry
    · subst hx
      obtain rfl := Option.some.inj (he.symm.trans hp)
      refine ⟨(e.asked operation).observe (host.clock s.tape.reads), ?_, by simp, by simp, ?_⟩
      · rw [hheap, List.getElem?_set_of_some he]
      · rw [hread]
        exact Held.viewed operation hh
    · refine hsame _ e hh ?_
      rw [hheap, List.getElem?_set_ne hx]
      exact he
  | @challenged _ _ _ place _ _ _ _ _ _ hp _ hlive hopen hidle hheap _ hfly =>
    refine h.keep (hfly ▸ List.Sublist.refl _) ?_
    intro x _ e he hh
    by_cases hx : place = x.entry
    · subst hx
      obtain rfl := Option.some.inj (he.symm.trans hp)
      exact absurd hopen (not_lt.mpr (Held.closed hh hidle hlive))
    · refine hsame _ e hh ?_
      rw [hheap, List.getElem?_set_ne hx]
      exact he
  | @entered _ _ x e _ hlook hp hatt _ hv hst _ hheap _ hfly =>
    have hid : e.binding.admission_id = x.admission_id := by
      obtain ⟨f, hf, hid⟩ := ht.place _ _ hlook
      rw [hp] at hf
      obtain rfl := Option.some.inj hf
      exact hid
    have hfree : ∀ y ∈ s.inflight, x.entry ≠ y.entry := by
      intro y hy hxy
      obtain ⟨f, hf, _, _, _, hh⟩ := h.held y hy
      rw [← hxy, hp] at hf
      obtain rfl := Option.some.inj hf
      simp [Entry.Held, hst] at hh
    constructor
    · intro y hy
      rw [hfly] at hy
      rcases List.mem_append.mp hy with hy | hy
      · obtain ⟨f, hf, hfa, hfi, hfv, hh⟩ := h.held y hy
        refine ⟨f, ?_, hfa, hfi, hfv, Held.mono hh hb.1⟩
        rw [hheap, List.getElem?_set_ne (hfree y hy)]
        exact hf
      · obtain rfl := List.mem_singleton.mp hy
        refine ⟨{ e with state := .verifying }, ?_, hatt, hid, hv.symm, .inl rfl⟩
        rw [hheap, List.getElem?_set_of_some hp]
    · rw [hfly, List.map_append, List.nodup_append]
      refine ⟨h.single, by simp, ?_⟩
      intro a ha b hb' hab
      obtain ⟨y, hy, rfl⟩ := List.mem_map.mp ha
      obtain rfl : x.entry = b := by simpa [eq_comm] using hb'
      exact hfree y hy hab.symm
  | dropped _ _ hheap _ hfly =>
    refine h.keep (hfly ▸ List.eraseIdx_sublist _ _) ?_
    intro x _ e he hh
    refine hsame _ e hh ?_
    rw [hheap]
    exact he
  | failed hx _ _ hheap _ hfly =>
    refine h.keep (hfly ▸ List.eraseIdx_sublist _ _) ?_
    intro y hy e he hh
    rw [hfly] at hy
    have hne := List.mem_eraseIdx_ne h.single hx hy
    refine hsame _ e hh ?_
    rw [hheap, List.getElem?_set_ne hne]
    exact he
  | settled hx _ _ _ hheap _ hfly =>
    refine h.keep (hfly ▸ List.eraseIdx_sublist _ _) ?_
    intro y hy e he hh
    rw [hfly] at hy
    have hne := List.mem_eraseIdx_ne h.single hx hy
    refine hsame _ e hh ?_
    rw [hheap, List.getElem?_set_ne hne]
    exact he

structure RegistryInv (host : Host) (cfg : Config) (s : Registry) : Prop where
  table : TableInv host cfg s
  verifiers : VerifierInv s
  flight : FlightInv host s

theorem registryInv_of_run {τ : List Event} (h : RegistryRun host cfg τ s) :
    RegistryInv host cfg s := by
  have hstart : RegistryInv host cfg (Registry.start host) := by
    refine ⟨TableInv.start host cfg, ?_, ?_⟩
    · constructor <;> simp [Registry.start]
    · constructor <;> simp [Registry.start]
  refine h.invariant hstart ?_
  intro t e u hi hstep
  obtain ⟨hb, heff⟩ := step_effect hstep
  exact ⟨hi.table.step hb heff, hi.verifiers.step heff, hi.flight.step hi.table hb heff⟩

end

end ArenaLab
