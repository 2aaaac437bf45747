import ArenaLab.ServiceInvariant

/-! The match service once an exchange has failed: it is poisoned for good, and no exchange
writes or reads any more. -/

namespace ArenaLab

/-- The steps in which an exchange writes, reads or fails after its write. -/
def ServiceEvent.exchanges : ServiceEvent → Bool
  | .wrote _ _ _ _ => true
  | .returned _ _ _ => true
  | .poisoned _ => true
  | .timedOut _ => true
  | _ => false

def Service.Busy (s : Service) (t : ℕ) (job : Job) (command : List UInt8) : Prop :=
  ∃ h, s.handlers t = some h ∧ h.phase = .exchanging job command

section

variable {config : ServiceConfig} {w₀ : GameWorld} {s s' : Service} {t : ℕ} {h : Handler} {p : Phase}
  {e : ServiceEvent} {τ : List ServiceEvent}

theorem busy_update (hh : s'.handlers = Function.update s.handlers t (some { h with phase := p }))
    (hold : ∀ k, s.handlers t = some k → k.phase.busy = false) (hp : p.busy = false) (u : ℕ) (job : Job)
    (command : List UInt8) : s'.Busy u job command ↔ s.Busy u job command := by
  simp only [Service.Busy, hh]
  by_cases hu : u = t
  · subst hu
    rw [Function.update_self]
    constructor
    · rintro ⟨k, hk, hphase⟩
      obtain rfl := Option.some.inj hk
      simp only at hphase
      rw [hphase] at hp
      cases hp
    · rintro ⟨k, hk, hphase⟩
      have hf := hold k hk
      rw [hphase] at hf
      cases hf
  · rw [Function.update_of_ne hu]

theorem windDown_eq (s : Service) (t : ℕ) (h : Handler) : ∃ connected, s.windDown t h =
    { s with
      connected := connected
      handlers := Function.update s.handlers t (some { h with phase := h.exit s.broken }) } := by
  obtain ⟨connected, hd⟩ := disconnect_eq s h
  exact ⟨connected, by rw [Service.windDown, hd]; rfl⟩

theorem raised_eq (s : Service) (t : ℕ) (h : Handler) {job : Job} (hjob : job ≠ .close) :
    ∃ connected, s.raised t h job =
      { s with
        lock := none
        connected := connected
        handlers := Function.update s.handlers t (some { h with phase := h.exit s.broken }) } := by
  obtain ⟨connected, hd⟩ := windDown_eq { s with lock := none } t h
  refine ⟨connected, ?_⟩
  rw [← hd]
  cases job <;> first | rfl | exact absurd rfl hjob

theorem raised_handlers (s : Service) (t : ℕ) (h : Handler) (job : Job) :
    ∃ p : Phase, p.busy = false ∧ (job = .close → p = .closing) ∧
      (s.raised t h job).handlers = Function.update s.handlers t (some { h with phase := p }) := by
  by_cases hjob : job = .close
  · subst hjob
    exact ⟨.closing, rfl, fun _ => rfl, rfl⟩
  · obtain ⟨connected, he⟩ := raised_eq s t h hjob
    rw [he]
    exact ⟨_, (exit_free h s.broken).2, fun hf => absurd hf hjob, rfl⟩

theorem raised_broken (s : Service) (t : ℕ) (h : Handler) (job : Job) (hb : s.broken = true) :
    (s.raised t h job).broken = true := by
  by_cases hjob : job = .close
  · subst hjob
    rfl
  · obtain ⟨connected, he⟩ := raised_eq s t h hjob
    rw [he]
    exact hb

/-- Only a write, a reply or a failed exchange changes who waits for a reply. -/
theorem busy_quiet (hc : ServiceChange config s e s') (hquiet : e.exchanges = false) (u : ℕ) (job : Job)
    (command : List UInt8) : s'.Busy u job command ↔ s.Busy u job command := by
  have hwas : ∀ {t : ℕ} {h : Handler}, s.handlers t = some h → h.phase.busy = false →
      ∀ k, s.handlers t = some k → k.phase.busy = false := by
    intro t h hs hbusy k hk
    rw [hs] at hk
    rw [← Option.some.inj hk]
    exact hbusy
  cases hc with
  | turnedAway => exact Iff.rfl
  | joined hnew _ _ hp =>
    refine busy_update rfl (fun k hk => by rw [hnew] at hk; cases hk) ?_ u job command
    rcases hp with rfl | ⟨data, rfl⟩ <;> rfl
  | claimed hnew =>
    exact busy_update rfl (fun k hk => by rw [hnew] at hk; cases hk) rfl u job command
  | acquired hs hphase => exact busy_update rfl (hwas hs (by rw [hphase]; rfl)) rfl u job command
  | wrote => cases hquiet
  | @withdrew t h job' reads hs hphase =>
    obtain ⟨p, hp, _, hh⟩ := raised_handlers { s with reads := reads } t h job'
    exact busy_update hh (hwas hs (by rw [hphase]; rfl)) hp u job command
  | returned => cases hquiet
  | poisoned => cases hquiet
  | timedOut => cases hquiet
  | moved hs hfrom _ _ hholds =>
    exact busy_update rfl (hwas hs (holds_of_busy hfrom)) (holds_of_busy hholds) u job command
  | @wound t h hs hfrom =>
    obtain ⟨connected, he⟩ := windDown_eq s t h
    exact busy_update (by rw [he]) (hwas hs (holds_of_busy hfrom)) (exit_free h s.broken).2 u job command
  | ended hs hphase => exact busy_update rfl (hwas hs (by rw [hphase]; rfl)) rfl u job command
  | answered => exact Iff.rfl
  | crashed => exact Iff.rfl
  | killed => exact Iff.rfl
  | reaped => exact Iff.rfl
  | closed => exact Iff.rfl

/-- The service is broken and no exchange is under way. -/
def Service.Poisoned (s : Service) : Prop :=
  s.broken = true ∧ ∀ u job command, ¬s.Busy u job command

theorem broken_step (hc : ServiceChange config s e s') (hb : s.broken = true) : s'.broken = true := by
  cases hc with
  | withdrew => exact raised_broken _ _ _ _ hb
  | poisoned => exact raised_broken _ _ _ _ rfl
  | timedOut => exact raised_broken _ _ _ _ rfl
  | @returned t h slot job command state => cases job <;> exact hb
  | @wound t h =>
    obtain ⟨connected, he⟩ := windDown_eq s t h
    rw [he]
    exact hb
  | closed => rfl
  | _ => exact hb

theorem poisoned_of_failure (hi : ServiceInv config w₀ s) (hs : ServiceStep config s e s')
    (he : (∃ t, e = .poisoned t) ∨ ∃ t, e = .timedOut t) : s'.Poisoned := by
  have hfail : ∀ {t : ℕ} {h : Handler} {job : Job} {command : List UInt8} (s₁ : Service),
      s.handlers t = some h → h.phase = .exchanging job command → s₁.handlers = s.handlers →
      s₁.broken = true → (s₁.raised t h job).Poisoned := by
    intro t h job command s₁ hwas hphase hh hb
    refine ⟨raised_broken s₁ t h job hb, ?_⟩
    rintro u job' command' ⟨k, hk, hp⟩
    obtain ⟨p, hbusy, _, hput⟩ := raised_handlers s₁ t h job
    rw [hput, hh] at hk
    by_cases hu : u = t
    · subst hu
      rw [Function.update_self] at hk
      obtain rfl := Option.some.inj hk
      simp only at hp
      rw [hp] at hbusy
      cases hbusy
    · rw [Function.update_of_ne hu] at hk
      exact hu (hi.alone hwas (by rw [hphase]; rfl) hk (by rw [hp]; rfl))
  cases serviceStep_change hs with
  | poisoned hwas hphase => exact hfail _ hwas hphase rfl rfl
  | timedOut hwas hphase => exact hfail _ hwas hphase rfl rfl
  | _ => rcases he with ⟨_, he⟩ | ⟨_, he⟩ <;> cases he

/-- A poisoned service stays poisoned, and no exchange writes or reads. -/
theorem poisoned_step (hp : s.Poisoned) (hs : ServiceStep config s e s') :
    e.exchanges = false ∧ s'.Poisoned := by
  have hc := serviceStep_change hs
  have hquiet : e.exchanges = false := by
    cases hc with
    | wrote _ _ _ hbroken =>
      rw [hp.1] at hbroken
      cases hbroken
    | returned hwas hphase => exact absurd ⟨_, hwas, hphase⟩ (hp.2 _ _ _)
    | poisoned hwas hphase => exact absurd ⟨_, hwas, hphase⟩ (hp.2 _ _ _)
    | timedOut hwas hphase => exact absurd ⟨_, hwas, hphase⟩ (hp.2 _ _ _)
    | _ => rfl
  refine ⟨hquiet, broken_step hc hp.1, ?_⟩
  intro u job command
  rw [busy_quiet hc hquiet]
  exact hp.2 u job command

theorem poisoned_run (hp : s.Poisoned) (hr : Runs.Steps (ServiceStep config) s τ s') :
    s'.Poisoned ∧ ∀ e ∈ τ, e.exchanges = false := by
  refine hr.history (I := fun τ s => s.Poisoned ∧ ∀ e ∈ τ, e.exchanges = false)
    ⟨hp, fun _ he => by cases he⟩ ?_
  rintro τ u e v _ ⟨hu, hτ⟩ hs
  obtain ⟨hquiet, hv⟩ := poisoned_step hu hs
  refine ⟨hv, ?_⟩
  intro e' he'
  rcases List.mem_append.mp he' with he' | he'
  · exact hτ e' he'
  · rw [List.mem_singleton.mp he']
    exact hquiet

end

end ArenaLab
