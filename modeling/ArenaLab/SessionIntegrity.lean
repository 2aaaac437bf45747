import ArenaLab.SlotTable

/-! Which datagrams can touch an open session. -/

namespace ArenaLab

section

variable {host : LabHost} {s : Server}

theorem receive_kept (host : LabHost) {i : Fin 32} {from_ : SockAddr} {d : List UInt8} (hi : SlotInv s)
    (hu : (s.slots i).used = true)
    (hd : (s.slots i).addr ≠ from_ ∨ ¬Carries d (s.slots i).session) :
    Kept (s.slots i) ((s.receive host from_ d).slots i) := by
  have hother : ∀ (j : Fin 32) (c : Client),
      (s.receive host from_ d).slots = Function.update s.slots j c → (s.slots j).used = false →
      Kept (s.slots i) ((s.receive host from_ d).slots i) := by
    intro j c hslots hj
    have hij : i ≠ j := by
      rintro rfl
      simp [hj] at hu
    rw [hslots, Function.update_of_ne hij]
    exact Kept.refl _
  cases (receive_spec host hi from_ d).1 with
  | turnedAway hslots =>
    rw [hslots]
    exact Kept.refl _
  | peer j c _ ha hslots hcase =>
    by_cases hij : i = j
    · subst hij
      rw [hslots, Function.update_self]
      rcases hcase with hk | ⟨hc, _⟩
      · exact hk
      · rcases hd with hd | hd
        · exact absurd ha hd
        · exact absurd hc hd
    · rw [hslots, Function.update_of_ne hij]
      exact Kept.refl _
  | free j c hj _ _ hslots => exact hother j c hslots hj
  | opened j c hj _ _ _ _ _ _ hslots => exact hother j c hslots hj

theorem shutdown_kept (s : Server) (i : Fin 32) : Kept (s.slots i) ((s.shutdown host).slots i) := by
  refine List.foldlRecOn (motive := fun t : Server => Kept (s.slots i) (t.slots i)) _ _ (Kept.refl _) ?_
  intro t ht j _
  simp only [ArenaLab.shutdownSlot]
  split
  · by_cases hij : i = j
    · subst hij
      simp only [Function.update_self]
      exact ht.trans sendRst_kept
    · simp only [Function.update_of_ne hij]
      exact ht
  · exact ht

/-- A datagram of another peer, or one that does not carry the session of an
open slot, leaves the slot open and everything in it but the reset counter;
only a datagram that does, or the timeout sweep, does more. -/
theorem session_integrity {config : ServerConfig} {listen : UInt32} {τ : List ServerAction}
    {i : Fin 32} (h : Runs.Steps (ServerStep host) (Server.boot config listen) τ s)
    (hu : (s.slots i).used = true) :
    (∀ from_ d, (s.slots i).addr ≠ from_ ∨ ¬Carries d (s.slots i).session →
      ((s.receive host from_ d).slots i).used = true ∧
      ((s.receive host from_ d).slots i).state = .stOpen ∧
      Kept (s.slots i) ((s.receive host from_ d).slots i)) ∧
    (∀ a, ¬Kept (s.slots i) ((s.act host a).slots i) → a = .sweep ∨
      ∃ d, a = .datagram (s.slots i).addr d ∧ Carries d (s.slots i).session) := by
  have hi := slotInv_of_run h
  refine ⟨?_, ?_⟩
  · intro from_ d hd
    have hk := receive_kept host hi hu hd
    have hs := hk.sound (hi.sound i hu)
    refine ⟨?_, hs.1, hk⟩
    obtain ⟨k, he⟩ := hk
    rw [he]
    exact hu
  · intro a ha
    cases a with
    | datagram from_ d =>
      right
      by_contra hn
      refine ha (receive_kept host hi hu ?_)
      by_cases hp : (s.slots i).addr = from_
      · subst hp
        exact .inr (fun hc => hn ⟨d, rfl, hc⟩)
      · exact .inl hp
    | sweep => exact .inl rfl
    | receiveError => exact absurd (Kept.refl _) ha
    | shutdown => exact absurd (shutdown_kept s i) ha

end

theorem session_integrity_sample :
    ((sampleOpened.receive sampleLabHost (samplePeer 5001) (sampleHello 1)).slots 0).used = true ∧
    Kept (sampleOpened.slots 0)
      ((sampleOpened.receive sampleLabHost (samplePeer 5001) (sampleHello 1)).slots 0) := by
  obtain ⟨hu, ha⟩ := sampleOpened_used
  have hd : (sampleOpened.slots 0).addr ≠ samplePeer 5001 := by
    rw [ha]
    decide
  have hh := (session_integrity sampleOpened_run hu).1 _ (sampleHello 1) (.inl hd)
  exact ⟨hh.1, hh.2.2⟩

end ArenaLab
