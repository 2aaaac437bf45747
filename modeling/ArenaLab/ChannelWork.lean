import ArenaLab.GatewayForward

/-! What a step of a channel's workers may change, whichever worker takes it. -/

namespace ArenaLab

/-- What the workers leave alone, what they queue, who writes and who goes on. -/
structure Worked (l : Link) (e : WorkerEvent) (l' : Link) : Prop where
  origin : l'.origin = l.origin
  ack : l'.ack = l.ack
  closed : l'.closed = l.closed
  request : l'.route_request = l.route_request
  stage : l'.stage = l.stage ∧ (∀ left, e ≠ .resumed left) ∨ l'.stage = .stopping ∧ e = .resumed l'.left
  queued : ∀ d, .datagram d ∈ l'.outgoing → .datagram d ∈ l.outgoing ∨ l.origin = some d.sender
  wrote : ∀ d, e = .wrote d → l.alive .tlsWriter = true ∧ .datagram d ∈ l.outgoing
  sent : ∀ data, e = .sent data → l.alive .udpWriter = true
  alive : ∀ w, l'.alive w = true → l.alive w = true

section

variable {l l' : Link} {e : WorkerEvent} {a : WorkerAction} {w x : Worker}

theorem alive_die (h : (l.die w).alive x = true) : l.alive x = true ∧ x ≠ w := by
  change Function.update l.alive w false x = true at h
  by_cases hx : x = w
  · subst hx
    rw [Function.update_self] at h
    cases h
  · rw [Function.update_of_ne hx] at h
    exact ⟨h, hx⟩

theorem alive_cancel {outlives : Worker → Bool} (h : (l.cancel outlives).alive w = true) : l.alive w = true := by
  change (l.alive w && outlives w && l.waits w) = true at h
  rw [Bool.and_eq_true, Bool.and_eq_true] at h
  exact h.1.1

theorem opened_of_works (h : l.works = true) : l.stage ≠ .opening := by
  intro hs
  rw [Link.works, hs] at h
  cases h

theorem worked_quiet (horigin : l'.origin = l.origin) (hack : l'.ack = l.ack) (hclosed : l'.closed = l.closed)
    (hrequest : l'.route_request = l.route_request) (hstage : l'.stage = l.stage) (hqueue : l'.outgoing ⊆ l.outgoing)
    (halive : ∀ w, l'.alive w = true → l.alive w = true) : Worked l .quiet l' :=
  ⟨horigin, hack, hclosed, hrequest, .inl ⟨hstage, by simp⟩, fun _ hd => .inl (hqueue hd), by simp, by simp, halive⟩

theorem worked_die (l : Link) (w : Worker) : Worked l .quiet (l.die w) :=
  worked_quiet rfl rfl rfl rfl rfl (List.Subset.refl _) (fun _ hx => (alive_die hx).1)

theorem filter_worked (l : Link) (d : Datagram) (limited : Bool) : Worked l .quiet (l.filter d limited) := by
  unfold Link.filter
  split
  · exact worked_die l _
  split
  · exact worked_quiet rfl rfl rfl rfl rfl (List.Subset.refl _) (fun _ hx => hx)
  rename_i horigin
  rw [not_not] at horigin
  split
  · exact worked_die l _
  split
  · refine ⟨rfl, rfl, rfl, rfl, .inl ⟨rfl, by simp⟩, ?_, by simp, by simp, fun _ hx => hx⟩
    intro x hx
    rcases List.mem_append.mp hx with hx | hx
    · exact .inl hx
    · cases List.mem_singleton.mp hx
      exact .inr horigin
  · exact worked_die l _

theorem read_worked (l : Link) (control : Bool) (data : List UInt8) (limited : Bool) :
    Worked l .quiet (l.read control data limited) := by
  unfold Link.read
  split
  · exact worked_die l _
  split
  · split
    · exact worked_quiet rfl rfl rfl rfl rfl (List.Subset.refl _) (fun _ hx => hx)
    · exact worked_die l _
  split
  · exact worked_quiet rfl rfl rfl rfl rfl (List.Subset.refl _) (fun _ hx => hx)
  · exact worked_die l _

theorem write_worked {f : TunnelFrame} {rest : List TunnelFrame} (hwriter : l.alive .tlsWriter = true)
    (hq : l.outgoing = f :: rest) : Worked l f.event ({ l with outgoing := rest }.returns .tlsWriter true) := by
  have hrest : rest ⊆ l.outgoing := by
    rw [hq]
    exact List.subset_cons_self _ _
  refine ⟨rfl, rfl, rfl, rfl, .inl ⟨rfl, ?_⟩, fun _ hd => .inl (hrest hd), ?_, ?_, fun _ hx => hx⟩
  · cases f <;> simp [TunnelFrame.event]
  · intro d hd
    cases f with
    | datagram d' =>
      cases hd
      rw [hq]
      exact ⟨hwriter, List.mem_cons_self⟩
    | heartbeat => cases hd
  · cases f <;> simp [TunnelFrame.event]

theorem workerNext_worked (h : workerNext l a = some (e, l')) : Worked l e l' := by
  cases a with
  | receive =>
    simp only [workerNext] at h
    split at h <;> cases h
    exact worked_quiet rfl rfl rfl rfl rfl (List.Subset.refl _) (fun _ hx => hx)
  | filter limited =>
    simp only [workerNext] at h
    split at h
    · cases h
      obtain ⟨h1, h2, h3, h4, h5, h6, h7, h8, h9⟩ := filter_worked { l with received := none } _ limited
      exact ⟨h1, h2, h3, h4, h5, h6, h7, h8, h9⟩
    · cases h
  | write expired =>
    simp only [workerNext] at h
    split at h
    · rename_i f rest hwriter hq
      rw [Bool.and_eq_true] at hwriter
      split at h <;> cases h
      · refine worked_quiet rfl rfl rfl rfl rfl ?_ (fun _ hx => (alive_die hx).1)
        rw [hq]
        exact List.subset_cons_self _ _
      · exact write_worked hwriter.1 hq
    · cases h
  | read control data limited =>
    simp only [workerNext] at h
    split at h <;> cases h
    exact read_worked l control data limited
  | take expired =>
    simp only [workerNext] at h
    split at h
    · split at h <;> cases h
      · exact worked_quiet rfl rfl rfl rfl rfl (List.Subset.refl _) (fun _ hx => (alive_die hx).1)
      · exact worked_quiet rfl rfl rfl rfl rfl (List.Subset.refl _) (fun _ hx => hx)
    · cases h
  | send =>
    simp only [workerNext] at h
    split at h
    · rename_i data hwriter hsending
      cases h
      exact ⟨rfl, rfl, rfl, rfl, .inl ⟨rfl, by simp⟩, fun _ hd => .inl hd, by simp, fun _ _ => hwriter, fun _ hx => hx⟩
    · cases h
  | back w =>
    simp only [workerNext] at h
    split at h <;> cases h
    exact worked_quiet rfl rfl rfl rfl rfl (List.Subset.refl _) (fun _ hx => hx)
  | beat =>
    simp only [workerNext] at h
    split at h
    · cases h
    · split at h <;> cases h
      · refine ⟨rfl, rfl, rfl, rfl, .inl ⟨rfl, by simp⟩, ?_, by simp, by simp, fun _ hx => hx⟩
        intro d hd
        simp only [List.mem_append, List.mem_singleton, reduceCtorEq, or_false] at hd
        exact .inl hd
      · exact worked_die l _
  | fail w =>
    simp only [workerNext] at h
    split at h <;> cases h
    exact worked_die l _
  | wake =>
    simp only [workerNext] at h
    split at h <;> cases h
    exact worked_die l _
  | resume outlives =>
    simp only [workerNext] at h
    split at h <;> cases h
    exact ⟨rfl, rfl, rfl, rfl, .inr ⟨rfl, rfl⟩, fun _ hd => .inl hd, by simp, by simp, fun _ hx => alive_cancel hx⟩

end

end ArenaLab
