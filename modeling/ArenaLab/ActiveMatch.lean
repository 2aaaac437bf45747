import ArenaLab.SlotOwnership

/-! Intents and the other player's connection: between the look at both connections
and the worker's rules an intent is under way, and a player can leave meanwhile. -/

namespace ArenaLab

def Job.playing : Job → Bool
  | .hello => true
  | .tick _ _ => true
  | .intent _ _ => true
  | _ => false

/-- The handler plays its slot and has not begun to wind down. -/
def Phase.live : Phase → Bool
  | .sending _ (.loop _) => true
  | .reading _ => true
  | .acquiring job => job.playing
  | .ready job => job.playing
  | .exchanging job _ => job.playing
  | _ => false

/-- The handler has found both players connected and not yet written its intent. -/
def Phase.window : Phase → Bool
  | .acquiring (.tick _ _) => true
  | .acquiring (.intent _ _) => true
  | .ready (.tick _ _) => true
  | .ready (.intent _ _) => true
  | .exchanging (.tick _ _) _ => true
  | _ => false

/-- The next command of the worker's pipe is an intent of the slot. -/
def Service.Unread (s : Service) (slot : Fin 2) : Prop :=
  s.stdin.getD 0 0 = 1 ∧ (s.stdin.getD 1 0).toNat = slot

/-- An intent of the slot is past the look at both connections and short of the worker. -/
def Service.UnderWay (s : Service) (slot : Fin 2) : Prop :=
  (∃ t h, s.handlers t = some h ∧ h.slot = some slot ∧ h.phase.window = true) ∨ s.Unread slot

/-- No player's connection ends while an intent of the other one is under way. -/
def OrderlyLeave (s s' : Service) : Prop :=
  ∀ slot, s.connected slot = true → s'.connected slot = false → ¬s.UnderWay (1 - slot)

def OrderlyService (config : ServiceConfig) (s : Service) (e : ServiceEvent) (s' : Service) : Prop :=
  ServiceStep config s e s' ∧ OrderlyLeave s s'

structure ActiveInv (s : Service) : Prop where
  pipe : s.stdin.length ≤ 50
  connected : ∀ t h slot, s.handlers t = some h → h.phase.live = true → h.slot = some slot →
    s.connected slot = true
  other : ∀ slot, s.UnderWay slot → s.connected (1 - slot) = true

section

variable {config : ServiceConfig} {w₀ : GameWorld} {s s' : Service} {t u : ℕ} {h k : Handler}
  {p : Phase} {slot : Fin 2} {e : ServiceEvent} {τ : List ServiceEvent}

theorem live_owns (hp : p.live = true) : p.owns = true := by
  cases p with
  | sending data next => cases next <;> first | rfl | cases hp
  | acquiring job => cases job <;> first | rfl | cases hp
  | ready job => cases job <;> first | rfl | cases hp
  | exchanging job command => cases job <;> first | rfl | cases hp
  | reading left => rfl
  | closing => cases hp
  | ended => cases hp

theorem live_of_owns (ho : p.owns = true) (hholds : p.holds = false) (hclose : p ≠ .acquiring .close) :
    p.live = true := by
  cases p with
  | sending data next => cases next <;> first | rfl | cases ho
  | acquiring job => cases job <;> first | exact absurd rfl hclose | rfl | cases ho
  | ready job => cases hholds
  | exchanging job command => cases hholds
  | reading left => rfl
  | closing => cases ho
  | ended => cases ho

theorem window_live (hp : p.window = true) : p.live = true := by
  cases p with
  | acquiring job => cases job <;> first | rfl | cases hp
  | ready job => cases job <;> first | rfl | cases hp
  | exchanging job command => cases job <;> first | rfl | cases hp
  | _ => cases hp

theorem exit_not_live (h : Handler) (broken : Bool) : (h.exit broken).live = false := by
  rcases exit_cases h broken with ⟨_, _, he⟩ | ⟨_, he⟩ <;> rw [he] <;> rfl

theorem raised_not_live (s : Service) (t : ℕ) (h : Handler) (job : Job) :
    ∃ p : Phase, p.live = false ∧
      (s.raised t h job).handlers = Function.update s.handlers t (some { h with phase := p }) := by
  by_cases hjob : job = .close
  · subst hjob
    exact ⟨.closing, rfl, rfl⟩
  · obtain ⟨connected, he⟩ := raised_eq s t h hjob
    rw [he]
    exact ⟨_, exit_not_live h s.broken, rfl⟩

/-- Handlers other than `t` are as they were, and `t` is in phase `p`. -/
theorem handlers_cases (hh : s'.handlers = Function.update s.handlers t (some { h with phase := p }))
    (hk : s'.handlers u = some k) :
    u = t ∧ k = { h with phase := p } ∨ s.handlers u = some k := by
  rw [hh] at hk
  by_cases hu : u = t
  · rw [hu, Function.update_self] at hk
    exact .inl ⟨hu, (Option.some.inj hk).symm⟩
  · rw [Function.update_of_ne hu] at hk
    exact .inr hk

/-- A handler that plays its slot has played it before, or has just claimed it. -/
theorem live_step (hc : ServiceChange config s e s') (hk : s'.handlers u = some k) (hlive : k.phase.live = true) :
    (∃ k', s.handlers u = some k' ∧ k'.slot = k.slot ∧ k'.phase.live = true) ∨
      ∃ slot, e = .claimed u slot ∧ k.slot = some slot := by
  have hsame : s.handlers u = some k → ∃ k', s.handlers u = some k' ∧ k'.slot = k.slot ∧ k'.phase.live = true :=
    fun hold => ⟨k, hold, rfl, hlive⟩
  have hmoved : ∀ {t : ℕ} {h : Handler} {p : Phase}, s.handlers t = some h →
      s'.handlers = Function.update s.handlers t (some { h with phase := p }) →
      (p.live = true → h.phase.live = true) →
      ∃ k', s.handlers u = some k' ∧ k'.slot = k.slot ∧ k'.phase.live = true := by
    intro t h p hwas hh hp
    rcases handlers_cases hh hk with ⟨rfl, rfl⟩ | hold
    · exact ⟨h, hwas, rfl, hp hlive⟩
    · exact hsame hold
  have hdead : ∀ {t : ℕ} {h : Handler} {p : Phase},
      s'.handlers = Function.update s.handlers t (some { h with phase := p }) → p.live = false →
      ∃ k', s.handlers u = some k' ∧ k'.slot = k.slot ∧ k'.phase.live = true := by
    intro t h p hh hp
    rcases handlers_cases hh hk with ⟨rfl, rfl⟩ | hold
    · rw [hp] at hlive
      cases hlive
    · exact hsame hold
  cases hc with
  | turnedAway => exact .inl (hsame hk)
  | @joined t h p hnew hslot howned hp =>
    refine .inl (hdead (h := h) (p := p) rfl ?_)
    rcases hp with rfl | ⟨data, rfl⟩ <;> rfl
  | @claimed t h slot hnew hslot hsome =>
    have hh : (Function.update s.handlers t (some { h with phase := .acquiring .hello })) u = some k := hk
    by_cases hu : u = t
    · rw [hu, Function.update_self] at hh
      exact .inr ⟨slot, by rw [hu], by rw [← Option.some.inj hh]; exact hsome⟩
    · rw [Function.update_of_ne hu] at hh
      exact .inl (hsame hh)
  | acquired hwas hphase =>
    refine .inl (hmoved hwas rfl ?_)
    rw [hphase]
    exact id
  | wrote hwas hphase =>
    refine .inl (hmoved hwas rfl ?_)
    rw [hphase]
    exact id
  | @withdrew t h job reads =>
    obtain ⟨p, hp, hh⟩ := raised_not_live { s with reads := reads } t h job
    exact .inl (hdead hh hp)
  | @returned t h slot job command state hwas hphase =>
    refine .inl ?_
    cases job with
    | duplicate => exact hdead (h := h) (p := .sending _ .stop) rfl rfl
    | hello => exact hmoved (p := .sending _ (.loop 256)) hwas rfl (fun _ => by rw [hphase]; rfl)
    | tick payload left => exact hmoved (p := .ready (.intent payload left)) hwas rfl (fun _ => by rw [hphase]; rfl)
    | intent payload left => exact hmoved (p := .sending _ (.loop (left - 1))) hwas rfl (fun _ => by rw [hphase]; rfl)
    | close => exact hdead (h := h) (p := .closing) rfl rfl
  | @poisoned t h slot job =>
    obtain ⟨p, hp, hh⟩ := raised_not_live { s with stdout := s.stdout.drop 80, broken := true } t h job
    exact .inl (hdead hh hp)
  | @timedOut t h job =>
    obtain ⟨p, hp, hh⟩ := raised_not_live { s with broken := true } t h job
    exact .inl (hdead hh hp)
  | moved hwas hfrom _ hclose _ _ _ howns =>
    exact .inl (hmoved hwas rfl (fun hp => live_of_owns (howns (live_owns hp)) hfrom hclose))
  | @wound t h =>
    obtain ⟨connected, he⟩ := windDown_eq s t h
    exact .inl (hdead (by rw [he]) (exit_not_live h s.broken))
  | ended => exact .inl (hdead (p := .ended) rfl rfl)
  | answered => exact .inl (hsame hk)
  | crashed => exact .inl (hsame hk)
  | killed => exact .inl (hsame hk)
  | reaped => exact .inl (hsame hk)
  | closed => exact .inl (hsame hk)

theorem not_window (hp : p.live = false) : p.window = false := by
  cases hw : p.window with
  | false => rfl
  | true =>
    rw [window_live hw] at hp
    cases hp

theorem disconnect_cases (s : Service) (h : Handler) : s.disconnect h = s ∨ ∃ slot, h.owned = true ∧
    h.slot = some slot ∧ s.disconnect h = { s with connected := Function.update s.connected slot false } := by
  rw [Service.disconnect]
  split
  · rename_i slot hslot
    split
    · rename_i howned
      exact .inr ⟨slot, howned, hslot, rfl⟩
    · exact .inl rfl
  · exact .inl rfl

/-- The slot is no longer played by handler `t`, which has begun to wind down. -/
structure Departs (s s' : Service) (t : ℕ) (h : Handler) (slot : Fin 2) : Prop where
  was : s.handlers t = some h
  owned : h.owned = true
  plays : h.slot = some slot
  connected : s'.connected = Function.update s.connected slot false
  dead : ∀ k, s'.handlers t = some k → k.phase.live = false

theorem windDown_connected (hwas : s.handlers t = some h) :
    (s.windDown t h).connected = s.connected ∨ ∃ slot, Departs s (s.windDown t h) t h slot := by
  rcases disconnect_cases s h with hsame | ⟨slot, howned, hslot, hd⟩
  · rw [Service.windDown, hsame]
    exact .inl rfl
  · refine .inr ⟨slot, hwas, howned, hslot, by rw [Service.windDown, hd]; rfl, ?_⟩
    intro k hk
    obtain ⟨connected, he⟩ := windDown_eq s t h
    rw [he] at hk
    obtain rfl := Option.some.inj ((Function.update_self t _ s.handlers).symm.trans hk)
    exact exit_not_live h s.broken

theorem raised_connected (hwas : s.handlers t = some h) (job : Job) :
    (s.raised t h job).connected = s.connected ∨ ∃ slot, Departs s (s.raised t h job) t h slot := by
  have hdown : ({ s with lock := none }.windDown t h).connected = s.connected ∨
      ∃ slot, Departs s ({ s with lock := none }.windDown t h) t h slot := by
    have hwas' : { s with lock := none }.handlers t = some h := hwas
    rcases windDown_connected hwas' with hsame | ⟨slot, hleft⟩
    · exact .inl hsame
    · exact .inr ⟨slot, hwas, hleft.owned, hleft.plays, hleft.connected, hleft.dead⟩
  cases job with
  | close => exact .inl rfl
  | _ => exact hdown

theorem connected_step (hc : ServiceChange config s e s') : s'.connected = s.connected ∨
    (∃ t slot, e = .claimed t slot ∧ s'.connected = Function.update s.connected slot true) ∨
    ∃ t h slot, Departs s s' t h slot := by
  have hraised : ∀ {s₁ : Service} {t : ℕ} {h : Handler} (job : Job), s₁.handlers = s.handlers →
      s₁.connected = s.connected → s.handlers t = some h →
      (s₁.raised t h job).connected = s.connected ∨ ∃ t' h' slot, Departs s (s₁.raised t h job) t' h' slot := by
    intro s₁ t h job hh hconn hwas
    have hwas₁ : s₁.handlers t = some h := by
      rw [hh]
      exact hwas
    rcases raised_connected hwas₁ job with hsame | ⟨slot, hleft⟩
    · exact .inl (hsame.trans hconn)
    · exact .inr ⟨t, h, slot, hwas, hleft.owned, hleft.plays, by rw [hleft.connected, hconn], hleft.dead⟩
  cases hc with
  | @claimed t h slot => exact .inr (.inl ⟨t, slot, rfl, rfl⟩)
  | @withdrew t h job reads hwas =>
    refine (hraised job ?_ ?_ hwas).imp_right .inr <;> rfl
  | @returned t h slot job => cases job <;> exact .inl rfl
  | @poisoned t h slot job command hwas =>
    refine (hraised job ?_ ?_ hwas).imp_right .inr <;> rfl
  | @timedOut t h job command hwas =>
    refine (hraised job ?_ ?_ hwas).imp_right .inr <;> rfl
  | @wound t h hwas =>
    rcases windDown_connected hwas with hsame | ⟨slot, hleft⟩
    · exact .inl hsame
    · exact .inr (.inr ⟨t, h, slot, hleft⟩)
  | _ => exact .inl rfl

/-- Where a step of its own takes a handler. -/
def Enters (s s' : Service) (t : ℕ) (h : Handler) : Prop :=
  ∃ p : Phase, s'.handlers = Function.update s.handlers t (some { h with phase := p }) ∧
    (p.window = true → h.phase.window = true ∨
      s.connected 0 = true ∧ s.connected 1 = true ∧ s'.connected = s.connected)

theorem enters_dead (hh : s'.handlers = Function.update s.handlers t (some { h with phase := p }))
    (hp : p.window = false) : Enters s s' t h := by
  refine ⟨p, hh, fun hw => ?_⟩
  rw [hp] at hw
  cases hw

theorem enters_raised {s₁ : Service} (job : Job) (hh : s₁.handlers = s.handlers) :
    Enters s (s₁.raised t h job) t h := by
  obtain ⟨p, hp, hraised⟩ := raised_not_live s₁ t h job
  rw [hh] at hraised
  exact enters_dead hraised (not_window hp)

theorem enters_windDown : Enters s (s.windDown t h) t h := by
  obtain ⟨connected, he⟩ := windDown_eq s t h
  exact enters_dead (by rw [he]) (not_window (exit_not_live h s.broken))

theorem enters_issue {s₁ : Service} {job : Job} {op : UInt8} {payload : List UInt8}
    (hphase : h.phase = .ready job) (hh : s₁.handlers = s.handlers) :
    Enters s (s₁.issue t h slot job op payload).2 t h := by
  rw [Service.issue]
  split
  · exact enters_raised job hh
  · split
    · exact enters_raised job hh
    · refine ⟨.exchanging job (serviceCommand op slot payload), ?_, ?_⟩
      · show Function.update s₁.handlers t _ = _
        rw [hh]
      · intro hw
        rw [hphase]
        cases job <;> first | exact .inl rfl | cases hw

theorem enters_resume {a : ServiceAction} (hn : s.resumeHandler config t h a = some (e, s')) :
    Enters s s' t h := by
  cases a with
  | acquire =>
    simp only [Service.resumeHandler] at hn
    split at hn
    · rename_i job hphase hlock
      obtain ⟨rfl, rfl⟩ := Prod.mk.inj (Option.some.inj hn)
      refine ⟨.ready job, rfl, fun hw => ?_⟩
      rw [hphase]
      cases job <;> first | exact .inl rfl | cases hw
    · cases hn
  | write =>
    simp only [Service.resumeHandler] at hn
    split at hn
    · rename_i job slot hphase hslot
      have hs := congrArg Prod.snd (Option.some.inj hn)
      simp only at hs
      rw [← hs]
      cases job with
      | tick payload left =>
        simp only [Service.write]
        split
        · exact enters_issue hphase rfl
        · exact enters_raised _ rfl
      | _ => exact enters_issue hphase rfl
    · cases hn
  | reply =>
    simp only [Service.resumeHandler] at hn
    split at hn
    · rename_i job command slot hphase hslot
      split at hn
      · cases hn
      · have hs := congrArg Prod.snd (Option.some.inj hn)
        simp only [Service.reply] at hs
        rw [← hs]
        split
        · split
          · cases job with
            | duplicate => exact enters_dead (p := .sending _ .stop) rfl rfl
            | hello => exact enters_dead (p := .sending _ (.loop 256)) rfl rfl
            | tick payload left => exact ⟨.ready (.intent payload left), rfl, fun _ => .inl (by rw [hphase]; rfl)⟩
            | intent payload left => exact enters_dead (p := .sending _ (.loop (left - 1))) rfl rfl
            | close => exact enters_dead (p := .closing) rfl rfl
          · exact enters_raised job rfl
        · exact enters_raised job rfl
    · cases hn
  | fail =>
    simp only [Service.resumeHandler] at hn
    split at hn
    · obtain ⟨rfl, rfl⟩ := Prod.mk.inj (Option.some.inj hn)
      exact enters_raised _ rfl
    · cases hn
  | sent =>
    simp only [Service.resumeHandler] at hn
    split at hn
    · rename_i data next hphase
      split at hn <;> obtain ⟨rfl, rfl⟩ := Prod.mk.inj (Option.some.inj hn)
      · exact enters_windDown
      · rename_i p hp
        refine enters_dead (p := p) rfl ?_
        cases next with
        | stop => cases hp
        | loop left => cases left <;> obtain rfl := Option.some.inj hp <;> rfl
    · cases hn
  | frame _ data =>
    simp only [Service.resumeHandler] at hn
    split at hn
    · rename_i left hphase
      obtain ⟨rfl, rfl⟩ := Prod.mk.inj (Option.some.inj hn)
      simp only [Service.frame]
      split
      · exact enters_dead (p := .sending _ .stop) rfl rfl
      · split
        · exact enters_dead (p := .sending _ (.loop (left - 1))) rfl rfl
        · rename_i hboth
          rw [Bool.not_eq_true', Bool.not_eq_false, Bool.and_eq_true] at hboth
          exact ⟨.acquiring (.tick data left), rfl, fun _ => .inr ⟨hboth.1, hboth.2, rfl⟩⟩
    · cases hn
  | leave =>
    simp only [Service.resumeHandler] at hn
    split at hn <;> first
      | cases hn; done
      | obtain ⟨rfl, rfl⟩ := Prod.mk.inj (Option.some.inj hn)
        exact enters_windDown
  | cancel =>
    simp only [Service.resumeHandler] at hn
    split at hn
    · cases hn
    · split at hn <;> first
        | cases hn; done
        | obtain ⟨rfl, rfl⟩ := Prod.mk.inj (Option.some.inj hn)
          exact enters_windDown
  | finish =>
    simp only [Service.resumeHandler] at hn
    split at hn
    · obtain ⟨rfl, rfl⟩ := Prod.mk.inj (Option.some.inj hn)
      exact enters_dead (p := .ended) rfl rfl
    · cases hn
  | connect => cases hn
  | serve => cases hn
  | kill => cases hn
  | reap => cases hn
  | close => cases hn

theorem connect_window {cert : Option (List UInt8)} (hn : s.connect config t cert = some (e, s'))
    (hk : s'.handlers u = some k) (hw : k.phase.window = true) : s.handlers u = some k := by
  have hnew : ∀ {s₁ : Service} {h : Handler} {p : Phase}, s₁.handlers = s.handlers → p.window = false →
      (s₁.put t h p).handlers u = some k → s.handlers u = some k := by
    intro s₁ h p hh hp hput
    rcases handlers_cases (s := s₁) rfl hput with ⟨-, rfl⟩ | hold
    · rw [hp] at hw
      cases hw
    · rwa [hh] at hold
  simp only [Service.connect] at hn
  split at hn
  · cases hn
  · split at hn
    · obtain ⟨rfl, rfl⟩ := Prod.mk.inj (Option.some.inj hn)
      exact hk
    · split at hn
      · obtain ⟨rfl, rfl⟩ := Prod.mk.inj (Option.some.inj hn)
        refine hnew ?_ ?_ hk <;> rfl
      · split at hn
        · obtain ⟨rfl, rfl⟩ := Prod.mk.inj (Option.some.inj hn)
          refine hnew ?_ ?_ hk <;> rfl
        · split at hn <;> obtain ⟨rfl, rfl⟩ := Prod.mk.inj (Option.some.inj hn)
          · refine hnew ?_ ?_ hk <;> rfl
          · refine hnew ?_ ?_ hk <;> rfl

/-- A handler enters the window only with both players connected. -/
theorem window_step {a : ServiceAction} (hn : serviceNext config s a = some (e, s'))
    (hk : s'.handlers u = some k) (hw : k.phase.window = true) :
    (∃ k', s.handlers u = some k' ∧ k'.slot = k.slot ∧ k'.phase.window = true) ∨
      s.connected 0 = true ∧ s.connected 1 = true ∧ s'.connected = s.connected := by
  have hresume : ∀ t, (s.handlers t).bind (fun h => s.resumeHandler config t h a) = some (e, s') →
      (∃ k', s.handlers u = some k' ∧ k'.slot = k.slot ∧ k'.phase.window = true) ∨
        s.connected 0 = true ∧ s.connected 1 = true ∧ s'.connected = s.connected := by
    intro t ht
    obtain ⟨h, hwas, hnext⟩ := Option.bind_eq_some_iff.mp ht
    obtain ⟨p, hh, hp⟩ := enters_resume hnext
    rcases handlers_cases hh hk with ⟨rfl, rfl⟩ | hold
    · exact (hp hw).imp_left (fun hbefore => ⟨h, hwas, rfl, hbefore⟩)
    · exact .inl ⟨k, hold, rfl, hw⟩
  have hkept : s'.handlers = s.handlers →
      (∃ k', s.handlers u = some k' ∧ k'.slot = k.slot ∧ k'.phase.window = true) := by
    intro hh
    rw [hh] at hk
    exact ⟨k, hk, rfl, hw⟩
  cases a with
  | connect t cert => exact .inl ⟨k, connect_window hn hk hw, rfl, hw⟩
  | serve =>
    refine .inl (hkept ?_)
    simp only [serviceNext, Service.serve] at hn
    split at hn
    · cases hn
    · split at hn <;> obtain ⟨rfl, rfl⟩ := Prod.mk.inj (Option.some.inj hn) <;> rfl
  | kill =>
    obtain ⟨rfl, rfl⟩ := Prod.mk.inj (Option.some.inj hn)
    exact .inl (hkept rfl)
  | reap =>
    simp only [serviceNext] at hn
    split at hn
    · obtain ⟨rfl, rfl⟩ := Prod.mk.inj (Option.some.inj hn)
      exact .inl (hkept rfl)
    · cases hn
  | close =>
    obtain ⟨rfl, rfl⟩ := Prod.mk.inj (Option.some.inj hn)
    exact .inl (hkept rfl)
  | acquire t => exact hresume t hn
  | write t => exact hresume t hn
  | reply t => exact hresume t hn
  | fail t => exact hresume t hn
  | sent t => exact hresume t hn
  | frame t data => exact hresume t hn
  | leave t => exact hresume t hn
  | cancel t => exact hresume t hn
  | finish t => exact hresume t hn

theorem raised_stdin (s : Service) (t : ℕ) (h : Handler) (job : Job) :
    (s.raised t h job).stdin = s.stdin := by
  by_cases hjob : job = .close
  · subst hjob
    rfl
  · obtain ⟨connected, he⟩ := raised_eq s t h hjob
    rw [he]

/-- The worker's pipe gets a command only when it is empty, and loses one at a time. -/
theorem stdin_step (hi : ServiceInv config w₀ s) (hc : ServiceChange config s e s') :
    s'.stdin = s.stdin ∨ s'.stdin = s.stdin.drop 50 ∨
      ∃ t h slot job op payload reads, s.handlers t = some h ∧ h.phase = .ready job ∧ h.slot = some slot ∧
        s.Writes config job op payload reads ∧ payload.length = 48 ∧
        e = .wrote t op slot (serviceCommand op slot payload) ∧
        s'.stdin = serviceCommand op slot payload := by
  cases hc with
  | @wrote t h slot job op payload reads hwas hphase hslot hbroken _ hlen hjob =>
    have hempty := (hi.empty hbroken hwas (by rw [hphase]; rfl) (by rw [hphase]; rfl)).1
    refine .inr (.inr ⟨t, h, slot, job, op, payload, reads, hwas, hphase, hslot, hjob, hlen, rfl, ?_⟩)
    show s.stdin ++ _ = _
    rw [hempty, List.nil_append]
  | @withdrew t h job reads => exact .inl (raised_stdin _ t h job)
  | @returned t h slot job => cases job <;> exact .inl rfl
  | @poisoned t h slot job => exact .inl (raised_stdin _ t h job)
  | @timedOut t h job => exact .inl (raised_stdin _ t h job)
  | @wound t h => exact .inl (windDown_fields s t h).2.1
  | answered => exact .inr (.inl rfl)
  | crashed => exact .inr (.inl rfl)
  | _ => exact .inl rfl

theorem slot_byte_toNat (slot : Fin 2) : (UInt8.ofNat (slot : ℕ)).toNat = slot := by
  revert slot
  decide

theorem writes_intent {job : Job} {payload : List UInt8} {reads : ℕ}
    (h : s.Writes config job 1 payload reads) : ∃ data left, job = .intent data left := by
  cases job with
  | intent data left => exact ⟨data, left, rfl⟩
  | duplicate => cases h.1
  | hello => cases h.1
  | tick => cases h.1
  | close => cases h.1

/-- An intent was under way before, or it has just found both players connected. -/
theorem underWay_step (hi : ServiceInv config w₀ s) (hpipe : s.stdin.length ≤ 50)
    (hs : ServiceStep config s e s') (hway : s'.UnderWay slot) : s.UnderWay slot ∨
      s.connected 0 = true ∧ s.connected 1 = true ∧ s'.connected = s.connected := by
  rcases hway with ⟨u, k, hk, hslot, hw⟩ | ⟨hop, hplace⟩
  · obtain ⟨a, hn⟩ := hs
    rcases window_step hn hk hw with ⟨k', hk', hsame, hw'⟩ | hboth
    · exact .inl (.inl ⟨u, k', hk', hsame.trans hslot, hw'⟩)
    · exact .inr hboth
  · rcases stdin_step hi (serviceStep_change hs) with hsame | hdrop | hwrote
    · exact .inl (.inr ⟨hsame ▸ hop, hsame ▸ hplace⟩)
    · rw [hdrop, List.drop_of_length_le hpipe] at hop
      cases hop
    · obtain ⟨t, h, slot', job, op, payload, reads, hwas, hphase, hplays, hjob, -, -, hstdin⟩ := hwrote
      rw [hstdin] at hop hplace
      obtain rfl : op = 1 := hop
      obtain ⟨data, left, rfl⟩ := writes_intent hjob
      have hsl : slot' = slot := Fin.ext ((slot_byte_toNat slot').symm.trans hplace)
      exact .inl (.inl ⟨t, h, hwas, by rw [hplays, hsl], by rw [hphase]; rfl⟩)

theorem claimed_connected (hc : ServiceChange config s (.claimed t slot) s') : s'.connected slot = true := by
  cases hc with
  | claimed => exact Function.update_self ..

theorem live_connected (hi : ServiceInv config w₀ s) (ha : ActiveInv s) (hs : ServiceStep config s e s')
    (hk : s'.handlers u = some k) (hlive : k.phase.live = true) (hslot : k.slot = some slot) :
    s'.connected slot = true := by
  have hc := serviceStep_change hs
  rcases live_step hc hk hlive with ⟨k', hk', hsame, hlive'⟩ | ⟨slot', rfl, hplays⟩
  · have hbefore := ha.connected u k' slot hk' hlive' (hsame.trans hslot)
    rcases connected_step hc with hconn | ⟨t, slot', -, hconn⟩ | ⟨t, h, slot', hleft⟩
    · rwa [hconn]
    · rw [hconn]
      by_cases he : slot = slot'
      · rw [he, Function.update_self]
      · rwa [Function.update_of_ne he]
    · rw [hleft.connected]
      by_cases he : slot = slot'
      · obtain rfl : u = t := hi.unique u t k' h hk' hleft.was (hi.owns u k' hk' (live_owns hlive'))
          hleft.owned (by rw [hsame, hslot, hleft.plays, he])
        have hdead := hleft.dead k hk
        rw [hdead] at hlive
        cases hlive
      · rwa [Function.update_of_ne he]
  · obtain rfl : slot' = slot := Option.some.inj (hplays.symm.trans hslot)
    exact claimed_connected hc

theorem ActiveInv.step (hi : ServiceInv config w₀ s) (ha : ActiveInv s) (hs : ServiceStep config s e s')
    (horderly : OrderlyLeave s s') : ActiveInv s' := by
  refine ⟨?_, fun u k slot hk hlive hslot => live_connected hi ha hs hk hlive hslot, ?_⟩
  · have hpipe := ha.pipe
    rcases stdin_step hi (serviceStep_change hs) with hsame | hdrop | hwrote
    · rwa [hsame]
    · rw [hdrop, List.length_drop]
      omega
    · obtain ⟨t, h, slot, job, op, payload, reads, -, -, -, -, hlen, -, hstdin⟩ := hwrote
      rw [hstdin, serviceCommand, List.length_cons, List.length_cons, hlen]
  · intro slot hway
    have hself : 1 - (1 - slot) = slot := other_other slot
    rcases underWay_step hi ha.pipe hs hway with hbefore | ⟨h0, h1, hconn⟩
    · have hother := ha.other slot hbefore
      cases hafter : s'.connected (1 - slot) with
      | true => rfl
      | false => exact absurd (by rwa [hself]) (horderly (1 - slot) hother hafter)
    · rw [hconn]
      rcases slot_cases (1 - slot) 0 with he | he
      · rwa [he]
      · rw [he]
        exact h1

theorem activeInv_of_run (h : Runs.Steps (OrderlyService config) (Service.boot w₀) τ s) :
    ServiceInv config w₀ s ∧ ActiveInv s := by
  refine h.invariant (I := fun s => ServiceInv config w₀ s ∧ ActiveInv s) ⟨serviceInv_boot config w₀, ?_⟩
    (fun t e u hi hs => ⟨hi.1.step hs.1, hi.2.step hi.1 hs.1 hs.2⟩)
  refine ⟨Nat.zero_le 50, ?_, ?_⟩
  · intro t h slot ht
    cases ht
  · rintro slot (⟨t, h, ht, -⟩ | ⟨hop, -⟩)
    · cases ht
    · cases hop

/-- As long as nobody leaves while an intent of the other player is under way, intents are
written with both players connected, and reach the world while the opponent is. -/
theorem orderly_intents (h : Runs.Steps (OrderlyService config) (Service.boot w₀) τ s)
    (hs : ServiceStep config s e s') :
    (∀ t slot command, e = .wrote t 1 slot command → s.connected 0 = true ∧ s.connected 1 = true) ∧
    ∀ slot command record, e = .answered command record → command.getD 0 0 = 1 →
      (command.getD 1 0).toNat = (slot : Fin 2) → s.connected (1 - slot) = true := by
  obtain ⟨hi, ha⟩ := activeInv_of_run h
  refine ⟨?_, ?_⟩
  · rintro t slot command rfl
    cases serviceStep_change hs with
    | @wrote t h slot job op payload reads hwas hphase hslot _ _ _ hjob =>
      obtain ⟨data, left, rfl⟩ := writes_intent hjob
      have hself := ha.connected t h slot hwas (by rw [hphase]; rfl) hslot
      have hother := ha.other slot (.inl ⟨t, h, hwas, hslot, by rw [hphase]; rfl⟩)
      rcases slot_cases slot 0 with rfl | rfl
      · exact ⟨hself, hother⟩
      · exact ⟨hother, hself⟩
  · rintro slot command record rfl hop hplace
    cases serviceStep_change hs with
    | answered hexited hlen hstep =>
      refine ha.other slot (.inr ⟨?_, ?_⟩)
      · rwa [List.getD_eq_getElem?_getD, List.getElem?_take_of_lt (by omega), ← List.getD_eq_getElem?_getD] at hop
      · rwa [List.getD_eq_getElem?_getD, List.getElem?_take_of_lt (by omega), ← List.getD_eq_getElem?_getD] at hplace

end

/-- The second player leaves while the worker takes the tick; the shot is written all the
same, and costs a player health whose connection has ended. -/
theorem shot_after_leave : ∃ τ s e s' τ' t,
    Runs.Steps (ServiceStep sampleServiceConfig) (Service.boot sampleWorld) τ s ∧
    ServiceStep sampleServiceConfig s e s' ∧ e = .wrote 0 1 0 (serviceCommand 1 0 sampleShotBytes) ∧
    s.connected 1 = false ∧ Runs.Steps (ServiceStep sampleServiceConfig) s' τ' t ∧
    (s.world.players 1).health = 100 ∧ (t.world.players 1).health = 75 := by
  have hexec : (Runs.exec (serviceNext sampleServiceConfig) (Service.boot sampleWorld)
      (sampleShotActions ++ [.leave 1, .serve, .reply 0])).any (fun r =>
        !r.2.connected 1 && decide ((r.2.world.players 1).health = 100) &&
          (serviceNext sampleServiceConfig r.2 (.write 0)).any (fun q =>
            decide (q.1 = .wrote 0 1 0 (serviceCommand 1 0 sampleShotBytes)) &&
              (serviceNext sampleServiceConfig q.2 .serve).any (fun v =>
                decide ((v.2.world.players 1).health = 75)))) = true := by decide +kernel
  obtain ⟨τ, s, hsteps, hp⟩ := Runs.exec_any hexec
  rw [Bool.and_eq_true, Bool.and_eq_true, Bool.not_eq_true', decide_eq_true_eq] at hp
  obtain ⟨⟨hgone, hhealth⟩, hwrite⟩ := hp
  obtain ⟨⟨e, s'⟩, he, hnext⟩ := (Option.any_eq_true _ _).mp hwrite
  rw [Bool.and_eq_true, decide_eq_true_eq] at hnext
  obtain ⟨⟨d, t⟩, hd, hafter⟩ := (Option.any_eq_true _ _).mp hnext.2
  exact ⟨τ, s, e, s', [d], t, hsteps, ⟨_, he⟩, hnext.1, hgone, .single ⟨_, hd⟩, hhealth,
    of_decide_eq_true hafter⟩

/-- The steps after which every connected player is connected still. -/
def staying (config : ServiceConfig) (s : Service) (a : ServiceAction) : Option (ServiceEvent × Service) :=
  (serviceNext config s a).filter (fun r => decide (∀ slot, s.connected slot = true → r.2.connected slot = true))

theorem staying_orderly {config : ServiceConfig} {s s' : Service} {e : ServiceEvent}
    (h : Runs.Induced (staying config) s e s') : OrderlyService config s e s' := by
  obtain ⟨a, ha⟩ := h
  obtain ⟨hnext, hstay⟩ := Option.filter_eq_some_iff.mp ha
  refine ⟨⟨a, hnext⟩, ?_⟩
  intro slot hon hoff
  rw [of_decide_eq_true hstay slot hon] at hoff
  cases hoff

theorem orderly_intents_shot : ∃ s e s',
    ServiceStep sampleServiceConfig s e s' ∧ e = .wrote 0 1 0 (serviceCommand 1 0 sampleShotBytes) ∧
    s.connected 0 = true ∧ s.connected 1 = true := by
  have hexec : (Runs.exec (staying sampleServiceConfig) (Service.boot sampleWorld)
      (sampleShotActions ++ [.serve, .reply 0])).any (fun r =>
        (serviceNext sampleServiceConfig r.2 (.write 0)).any (fun q =>
          decide (q.1 = .wrote 0 1 0 (serviceCommand 1 0 sampleShotBytes)))) = true := by decide +kernel
  obtain ⟨τ, s, hsteps, hp⟩ := Runs.exec_any hexec
  obtain ⟨⟨e, s'⟩, he, hwrote⟩ := (Option.any_eq_true _ _).mp hp
  have hrun := hsteps.mono (fun _ _ _ => staying_orderly)
  have hs : ServiceStep sampleServiceConfig s e s' := ⟨_, he⟩
  exact ⟨s, e, s', hs, of_decide_eq_true hwrote, (orderly_intents hrun hs).1 0 0 _ (of_decide_eq_true hwrote)⟩

end ArenaLab
