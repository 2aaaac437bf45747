import ArenaLab.RelayMoves

/-! The gateway's channels against what was seen of it, over any run. -/

namespace ArenaLab

/-- The books of the gateway against what was seen of it. -/
structure RelayInv (role : GatewayRole) (τ : List RelayEvent) (s : Relay) : Prop where
  apart : ∀ c, c ∈ s.links → c ∉ s.retired_ids
  retired : ∀ c, .retired c ∈ τ → c ∈ s.retired_ids
  stopped : .stopped ∈ τ → s.commands = false
  unknown : ∀ c, c ∉ s.links → c ∉ s.retired_ids → openedIn c τ = [] ∧ acceptedIn c τ = [] ∧ .closed c ∉ τ
  link : ∀ c l, s.links.lookup c = some l → LinkInv role τ c l

section

variable {role : GatewayRole} {τ : List RelayEvent} {e : RelayEvent} {c d : HexStr 32} {l l' : Link} {s s' : Relay}

theorem relayInv_boot (role : GatewayRole) : RelayInv role [] .boot where
  apart := by simp [Relay.boot]
  retired := by simp
  stopped := by simp
  unknown := fun c _ _ => ⟨rfl, rfl, List.not_mem_nil⟩
  link := by simp [Relay.boot]

theorem RelayInv.unknown_snoc (h : RelayInv role τ s) (hc : c ∉ s.links) (hr : c ∉ s.retired_ids)
    (he : e.subject ≠ some c) :
    openedIn c (τ ++ [e]) = [] ∧ acceptedIn c (τ ++ [e]) = [] ∧ .closed c ∉ τ ++ [e] := by
  obtain ⟨hopened, haccepted, hclosed⟩ := h.unknown c hc hr
  exact ⟨(openedIn_frame he).trans hopened, (acceptedIn_frame he).trans haccepted,
    fun hf => hclosed (closed_frame he hf)⟩

theorem RelayInv.retired_snoc (h : RelayInv role τ s) (he : ∀ c, e ≠ .retired c) (hc : .retired c ∈ τ ++ [e]) :
    c ∈ s.retired_ids := by
  rcases List.mem_append.mp hc with hc | hc
  · exact h.retired c hc
  · exact absurd (List.mem_singleton.mp hc).symm (he c)

theorem RelayInv.stopped_snoc (h : RelayInv role τ s) (hcommands : s.commands = false → s'.commands = false)
    (he : e ≠ .stopped) (hc : .stopped ∈ τ ++ [e]) : s'.commands = false := by
  rcases List.mem_append.mp hc with hc | hc
  · exact hcommands (h.stopped hc)
  · exact absurd (List.mem_singleton.mp hc).symm he

theorem LinkChange.events (h : LinkChange role c l e l') : (∀ d, e ≠ .retired d) ∧ e ≠ .stopped := by
  cases h with
  | @worked a x l' hstage hw => cases x <;> simp [WorkerEvent.on]
  | _ => simp

theorem RelayInv.same (h : RelayInv role τ s) (he : e = .quiet ∨ e = .raised) (hlinks : s'.links = s.links)
    (hids : s'.retired_ids = s.retired_ids) (hcommands : s.commands = false → s'.commands = false) :
    RelayInv role (τ ++ [e]) s' := by
  have hsubject : ∀ c, e.subject ≠ some c := by
    rcases he with rfl | rfl <;> simp [RelayEvent.subject]
  have hevents : (∀ d, e ≠ .retired d) ∧ e ≠ .stopped := by
    rcases he with rfl | rfl <;> simp
  constructor
  · rw [hlinks, hids]
    exact h.apart
  · intro c hc
    rw [hids]
    exact h.retired_snoc hevents.1 hc
  · exact h.stopped_snoc hcommands hevents.2
  · intro c
    rw [hlinks, hids]
    exact fun hc hr => h.unknown_snoc hc hr (hsubject c)
  · intro c l hc
    rw [hlinks] at hc
    exact (h.link c l hc).frame (hsubject c)

theorem RelayInv.created (h : RelayInv role τ s) (hc : c ∉ s.links) (hr : c ∉ s.retired_ids) :
    RelayInv role (τ ++ [.quiet]) (s.put c (.new role)) := by
  have hsubject : ∀ d, RelayEvent.quiet.subject ≠ some d := by simp [RelayEvent.subject]
  constructor
  · intro d hd
    rcases (AList.mem_insert _).mp hd with rfl | hd
    · exact hr
    · exact h.apart d hd
  · intro d hd
    exact h.retired_snoc (by simp) hd
  · exact h.stopped_snoc id (by simp)
  · intro d hd hdr
    refine h.unknown_snoc (fun hf => hd ?_) hdr (hsubject d)
    exact (AList.mem_insert _).mpr (.inr hf)
  · intro d l hd
    by_cases heq : d = c
    · subst heq
      simp only [Relay.put, AList.lookup_insert, Option.some.injEq] at hd
      obtain ⟨hopened, haccepted, hclosed⟩ := h.unknown_snoc hc hr (hsubject d)
      rw [← hd]
      exact linkInv_new hopened haccepted hclosed
    · simp only [Relay.put, AList.lookup_insert_ne heq] at hd
      exact (h.link d l hd).frame (hsubject d)

theorem RelayInv.moved (h : RelayInv role τ s) (hc : s.links.lookup c = some l) (hl : LinkChange role c l e l')
    (hlinks : s'.links = s.links.insert c l') (hids : s'.retired_ids = s.retired_ids)
    (hcommands : s.commands = false → s'.commands = false) : RelayInv role (τ ++ [e]) s' := by
  have hmem : ∀ d, d ∈ s'.links ↔ d ∈ s.links := by
    intro d
    rw [hlinks, AList.mem_insert]
    constructor
    · rintro (rfl | hd)
      · exact AList.mem_of_lookup hc
      · exact hd
    · exact .inr
  have hother : ∀ d, d ≠ c → e.subject ≠ some d := fun d hne hf => hne (hl.subject hf)
  constructor
  · intro d hd
    rw [hids]
    exact h.apart d ((hmem d).mp hd)
  · intro d hd
    rw [hids]
    exact h.retired_snoc hl.events.1 hd
  · exact h.stopped_snoc hcommands hl.events.2
  · intro d hd hdr
    rw [hmem] at hd
    rw [hids] at hdr
    refine h.unknown_snoc hd hdr (hother d ?_)
    rintro rfl
    exact hd (AList.mem_of_lookup hc)
  · intro d x hd
    rw [hlinks] at hd
    by_cases heq : d = c
    · subst heq
      rw [AList.lookup_insert, Option.some.injEq] at hd
      rw [← hd]
      exact (h.link d l hc).step hl
    · rw [AList.lookup_insert_ne heq] at hd
      exact (h.link d x hd).frame (hother d heq)

theorem RelayInv.retire (h : RelayInv role τ s) (hlinks : s'.links = s.links.erase c)
    (hids : s'.retired_ids = s.retired_ids.insert c) (hcommands : s.commands = false → s'.commands = false) :
    RelayInv role (τ ++ [.retired c]) s' := by
  have hsubject : ∀ d, (RelayEvent.retired c).subject ≠ some d := by simp [RelayEvent.subject]
  have hmem : ∀ d, d ∈ s'.links ↔ d ≠ c ∧ d ∈ s.links := by
    intro d
    rw [hlinks, AList.mem_erase]
  have hmem' : ∀ d, d ∈ s'.retired_ids ↔ d = c ∨ d ∈ s.retired_ids := by
    intro d
    rw [hids, List.mem_insert_iff]
  constructor
  · intro d hd
    obtain ⟨hne, hd⟩ := (hmem d).mp hd
    rw [hmem', not_or]
    exact ⟨hne, h.apart d hd⟩
  · intro d hd
    rw [hmem']
    rcases List.mem_append.mp hd with hd | hd
    · exact .inr (h.retired d hd)
    · cases List.mem_singleton.mp hd
      exact .inl rfl
  · exact h.stopped_snoc hcommands (by simp)
  · intro d hd hdr
    rw [hmem', not_or] at hdr
    refine h.unknown_snoc (fun hf => hd ((hmem d).mpr ⟨hdr.1, hf⟩)) hdr.2 (hsubject d)
  · intro d l hd
    have hne : d ≠ c := ((hmem d).mp (AList.mem_of_lookup hd)).1
    rw [hlinks, AList.lookup_erase_ne hne] at hd
    exact (h.link d l hd).frame (hsubject d)

theorem RelayInv.stop (h : RelayInv role τ s)
    (hlinks : s'.links = s.links.mapValues (fun l => { l with closed := true }))
    (hids : s'.retired_ids = s.retired_ids) (hcommands : s'.commands = false) :
    RelayInv role (τ ++ [.stopped]) s' := by
  have hsubject : ∀ d, RelayEvent.stopped.subject ≠ some d := by simp [RelayEvent.subject]
  have hmem : ∀ d, d ∈ s'.links ↔ d ∈ s.links := by
    intro d
    rw [hlinks, ← AList.lookup_isSome, ← AList.lookup_isSome, AList.lookup_mapValues, Option.isSome_map]
  constructor
  · intro d hd
    rw [hids]
    exact h.apart d ((hmem d).mp hd)
  · intro d hd
    rw [hids]
    exact h.retired_snoc (by simp) hd
  · intro _
    exact hcommands
  · intro d hd hdr
    rw [hmem] at hd
    rw [hids] at hdr
    exact h.unknown_snoc hd hdr (hsubject d)
  · intro d x hd
    rw [hlinks, AList.lookup_mapValues] at hd
    obtain ⟨l, hl, rfl⟩ := Option.map_eq_some_iff.mp hd
    have hi := (h.link d l hl).frame (hsubject d)
    exact ⟨hi.opened, hi.accepted, hi.origin, fun _ => rfl, hi.gate, hi.fresh, hi.idle, hi.home, hi.filtered⟩

theorem RelayInv.step (h : RelayInv role τ s) (hs : RelayChange role s e s') : RelayInv role (τ ++ [e]) s' := by
  cases hs with
  | same he hlinks hids hcommands => exact h.same he hlinks hids hcommands
  | created hc hr => exact h.created hc hr
  | moved hc hl hlinks hids hcommands _ => exact h.moved hc hl hlinks hids hcommands
  | retired _ hlinks hids hcommands => exact h.retire hlinks hids hcommands
  | stopped hlinks hids hcommands => exact h.stop hlinks hids hcommands

theorem relayInv_of_run (hr : Runs.Steps (RelayStep role) .boot τ s) : RelayInv role τ s := by
  refine hr.history (I := RelayInv role) (relayInv_boot role) ?_
  rintro τ t e u - hi ⟨a, ha⟩
  exact hi.step (relayNext_change ha)

end

end ArenaLab
