import ArenaLab.MatchService

/-! Each player slot belongs to one handler: only the connection that claimed
it plays it, and when that handler has ended the slot is dead. -/

namespace ArenaLab

def ServiceEvent.claims (slot : Fin 2) : ServiceEvent → Option ℕ
  | .claimed t slot' => if slot' = slot then some t else none
  | _ => none

def claimants (slot : Fin 2) (τ : List ServiceEvent) : List ℕ :=
  τ.filterMap (fun e => e.claims slot)

/-- The handler has written its close command or will never write one. -/
def Phase.past : Phase → Bool
  | .exchanging .close _ => true
  | .closing => true
  | .ended => true
  | _ => false

structure Handler.Later (h h' : Handler) : Prop where
  cert : h'.cert = h.cert
  slot : h'.slot = h.slot
  owned : h'.owned = h.owned
  past : h.phase.past = true → h'.phase.past = true
  ended : h.phase = .ended → h'.phase = .ended

structure ClaimHistory (τ : List ServiceEvent) (s : Service) : Prop where
  free : ∀ slot, s.claimed slot = false → claimants slot τ = []
  taken : ∀ slot, s.claimed slot = true → ∃ t h, claimants slot τ = [t] ∧ s.handlers t = some h ∧
    h.owned = true ∧ h.slot = some slot
  closes : ∀ t slot command, .wrote t 3 slot command ∈ τ → ∃ h, s.handlers t = some h ∧
    h.owned = true ∧ h.slot = some slot ∧ h.phase.past = true
  ended : ∀ t, .ended t ∈ τ → ∃ h, s.handlers t = some h ∧ h.phase = .ended

section

variable {config : ServiceConfig} {id a b : Bytes 16} {w₀ : GameWorld} {s s' : Service} {t u : ℕ}
  {h k : Handler} {p : Phase} {slot : Fin 2} {e : ServiceEvent} {τ : List ServiceEvent}

theorem Handler.Later.refl (h : Handler) : h.Later h := ⟨rfl, rfl, rfl, id, id⟩

theorem claimants_snoc (slot : Fin 2) (τ : List ServiceEvent) (e : ServiceEvent) :
    claimants slot (τ ++ [e]) = claimants slot τ ++ (e.claims slot).toList := by
  rw [claimants, List.filterMap_append]
  cases he : e.claims slot <;> simp [claimants, he]

theorem later_update (hwas : s.handlers t = some h)
    (hh : s'.handlers = Function.update s.handlers t (some { h with phase := p }))
    (hpast : h.phase.past = true → p.past = true) (hended : h.phase ≠ .ended)
    (hk : s.handlers u = some k) : ∃ k', s'.handlers u = some k' ∧ k.Later k' := by
  rw [hh]
  by_cases hu : u = t
  · subst hu
    rw [hwas] at hk
    obtain rfl := Option.some.inj hk
    exact ⟨_, Function.update_self .., rfl, rfl, rfl, hpast, fun hf => absurd hf hended⟩
  · rw [Function.update_of_ne hu]
    exact ⟨k, hk, .refl k⟩

theorem later_new (hnew : s.handlers t = none) (hh : s'.handlers = Function.update s.handlers t (some h))
    (hk : s.handlers u = some k) : ∃ k', s'.handlers u = some k' ∧ k.Later k' := by
  have hu : u ≠ t := by
    rintro rfl
    rw [hnew] at hk
    cases hk
  rw [hh, Function.update_of_ne hu]
  exact ⟨k, hk, .refl k⟩

theorem not_past_of_free {p : Phase} (hholds : p.holds = false) (hover : p.over = false) :
    p.past = false := by
  cases p with
  | exchanging job command => cases hholds
  | closing => cases hover
  | ended => cases hover
  | _ => rfl

theorem exchanging_past {job : Job} {command : List UInt8} (hphase : h.phase = .exchanging job command)
    (hp : h.phase.past = true) : job = .close := by
  rw [hphase] at hp
  cases job <;> first | rfl | cases hp

/-- No step makes a handler forget who it is or go back before its close command. -/
theorem handler_later (hc : ServiceChange config s e s') (hk : s.handlers u = some k) :
    ∃ k', s'.handlers u = some k' ∧ k.Later k' := by
  cases hc with
  | joined hnew => exact later_new hnew rfl hk
  | claimed hnew => exact later_new hnew rfl hk
  | acquired hwas hphase =>
    exact later_update hwas rfl (fun hf => by rw [hphase] at hf; cases hf) (by simp [hphase]) hk
  | wrote hwas hphase =>
    exact later_update hwas rfl (fun hf => by rw [hphase] at hf; cases hf) (by simp [hphase]) hk
  | @withdrew t h job reads hwas hphase =>
    obtain ⟨p, _, _, hh⟩ := raised_handlers { s with reads := reads } t h job
    exact later_update hwas hh (fun hf => by rw [hphase] at hf; cases hf) (by simp [hphase]) hk
  | @returned t h slot job command state hwas hphase =>
    obtain ⟨p, _, hp, hh⟩ := resume_handlers { s with stdout := s.stdout.drop 80 } t h slot job
      (s.stdout.take 80) state
    exact later_update hwas hh (fun hf => hp (exchanging_past hphase hf) ▸ rfl) (by simp [hphase]) hk
  | @poisoned t h slot job command hwas hphase =>
    obtain ⟨p, _, hp, hh⟩ := raised_handlers { s with stdout := s.stdout.drop 80, broken := true } t h job
    exact later_update hwas hh (fun hf => hp (exchanging_past hphase hf) ▸ rfl) (by simp [hphase]) hk
  | @timedOut t h job command hwas hphase =>
    obtain ⟨p, _, hp, hh⟩ := raised_handlers { s with broken := true } t h job
    exact later_update hwas hh (fun hf => hp (exchanging_past hphase hf) ▸ rfl) (by simp [hphase]) hk
  | moved hwas hfrom hover =>
    refine later_update hwas rfl (fun hf => ?_) (fun hf => ?_) hk
    · rw [not_past_of_free hfrom hover] at hf
      cases hf
    · rw [hf] at hover
      cases hover
  | @wound t h hwas hfrom hover =>
    obtain ⟨connected, he⟩ := windDown_eq s t h
    rw [he]
    refine later_update hwas rfl (fun hf => ?_) (fun hf => ?_) hk
    · rw [not_past_of_free hfrom hover] at hf
      cases hf
    · rw [hf] at hover
      cases hover
  | ended hwas hphase => exact later_update hwas rfl (fun _ => rfl) (by simp [hphase]) hk
  | _ => exact ⟨k, hk, .refl k⟩

theorem raised_keeps (s : Service) (t : ℕ) (h : Handler) (job : Job) :
    (s.raised t h job).claimed = s.claimed ∧ (s.raised t h job).world = s.world := by
  by_cases hjob : job = .close
  · subst hjob
    exact ⟨rfl, rfl⟩
  · obtain ⟨connected, he⟩ := raised_eq s t h hjob
    rw [he]
    exact ⟨rfl, rfl⟩

theorem claimed_step (hc : ServiceChange config s e s') : (∃ t slot, e = .claimed t slot) ∨
    s'.claimed = s.claimed ∧ ∀ slot, e.claims slot = none := by
  cases hc with
  | claimed => exact .inl ⟨_, _, rfl⟩
  | withdrew => exact .inr ⟨(raised_keeps _ _ _ _).1, fun _ => rfl⟩
  | @returned t h slot job => cases job <;> exact .inr ⟨rfl, fun _ => rfl⟩
  | poisoned => exact .inr ⟨(raised_keeps _ _ _ _).1, fun _ => rfl⟩
  | timedOut => exact .inr ⟨(raised_keeps _ _ _ _).1, fun _ => rfl⟩
  | @wound t h =>
    obtain ⟨connected, he⟩ := windDown_eq s t h
    rw [he]
    exact .inr ⟨rfl, fun _ => rfl⟩
  | _ => exact .inr ⟨rfl, fun _ => rfl⟩

theorem claims_step (hi : ServiceInv config w₀ s) (hc : ServiceChange config s e s') :
    (∀ t slot command, e = .wrote t 3 slot command → ∃ h, s'.handlers t = some h ∧
      h.owned = true ∧ h.slot = some slot ∧ h.phase.past = true) ∧
    (∀ t, e = .ended t → ∃ h, s'.handlers t = some h ∧ h.phase = .ended) ∧
    ∀ t slot, e = .claimed t slot → s.claimed slot = false ∧
      s'.claimed = Function.update s.claimed slot true ∧
      ∃ h, s'.handlers t = some h ∧ h.owned = true ∧ h.slot = some slot := by
  cases hc with
  | @claimed t h slot hnew hslot hsome howned hbroken hfree =>
    refine ⟨fun _ _ _ he => (by cases he), fun _ he => (by cases he), ?_⟩
    intro t' slot' he
    cases he
    exact ⟨hfree, rfl, _, Function.update_self .., howned, hsome⟩
  | @wrote t h slot job op payload reads hwas hphase hslot hbroken hcode hlen hjob =>
    refine ⟨?_, fun _ he => (by cases he), fun _ _ he => (by cases he)⟩
    intro t' slot' command he
    cases he
    cases job with
    | close =>
      refine ⟨_, Function.update_self .., ?_, hslot, rfl⟩
      exact hi.owns t h hwas (by rw [hphase]; rfl)
    | duplicate => cases hjob.1
    | hello => cases hjob.1
    | tick => cases hjob.1
    | intent => cases hjob.1
  | ended hwas hphase =>
    refine ⟨fun _ _ _ he => (by cases he), ?_, fun _ _ he => (by cases he)⟩
    intro t' he
    cases he
    exact ⟨_, Function.update_self .., rfl⟩
  | _ => exact ⟨fun _ _ _ he => (by cases he), fun _ he => (by cases he), fun _ _ he => (by cases he)⟩

theorem ClaimHistory.step (hi : ServiceInv config w₀ s) (hh : ClaimHistory τ s)
    (hs : ServiceStep config s e s') : ClaimHistory (τ ++ [e]) s' := by
  have hc := serviceStep_change hs
  obtain ⟨hcloses, hended, hclaimed⟩ := claims_step hi hc
  constructor
  · intro slot hfree
    rw [claimants_snoc]
    rcases claimed_step hc with ⟨t, slot', rfl⟩ | ⟨hsame, hnone⟩
    · obtain ⟨_, hnew, _⟩ := hclaimed t slot' rfl
      have hne : slot ≠ slot' := by
        rintro rfl
        rw [hnew, Function.update_self] at hfree
        cases hfree
      rw [hnew, Function.update_of_ne hne] at hfree
      simp [hh.free slot hfree, ServiceEvent.claims, hne.symm]
    · rw [hsame] at hfree
      simp [hh.free slot hfree, hnone slot]
  · intro slot htaken
    rw [claimants_snoc]
    have hold : s.claimed slot = true → e.claims slot = none → ∃ t h,
        claimants slot τ ++ (e.claims slot).toList = [t] ∧ s'.handlers t = some h ∧ h.owned = true ∧
        h.slot = some slot := by
      intro hwas hnone
      obtain ⟨t, h, hone, ht, ho, hsl⟩ := hh.taken slot hwas
      obtain ⟨h', ht', hlater⟩ := handler_later hc ht
      exact ⟨t, h', by simp [hone, hnone], ht', hlater.owned.trans ho, hlater.slot.trans hsl⟩
    rcases claimed_step hc with ⟨t, slot', rfl⟩ | ⟨hsame, hnone⟩
    · obtain ⟨hfree, hnew, h, ht, ho, hsl⟩ := hclaimed t slot' rfl
      by_cases he : slot = slot'
      · subst he
        exact ⟨t, h, by simp [hh.free slot hfree, ServiceEvent.claims], ht, ho, hsl⟩
      · rw [hnew, Function.update_of_ne he] at htaken
        exact hold htaken (by simp [ServiceEvent.claims, Ne.symm he])
    · rw [hsame] at htaken
      exact hold htaken (hnone slot)
  · intro t slot command he
    rcases List.mem_append.mp he with he | he
    · obtain ⟨h, ht, ho, hsl, hp⟩ := hh.closes t slot command he
      obtain ⟨h', ht', hlater⟩ := handler_later hc ht
      exact ⟨h', ht', hlater.owned.trans ho, hlater.slot.trans hsl, hlater.past hp⟩
    · exact hcloses t slot command (List.mem_singleton.mp he).symm
  · intro t he
    rcases List.mem_append.mp he with he | he
    · obtain ⟨h, ht, hp⟩ := hh.ended t he
      obtain ⟨h', ht', hlater⟩ := handler_later hc ht
      exact ⟨h', ht', hlater.ended hp⟩
    · exact hended t (List.mem_singleton.mp he).symm

theorem claimHistory_of_run (hr : Runs.Steps (ServiceStep config) (Service.boot w₀) τ s) :
    ClaimHistory τ s := by
  refine hr.history (I := ClaimHistory) ?_ ?_
  · exact ⟨fun _ _ => rfl, fun _ hf => (by cases hf), fun _ _ _ hf => (by cases hf),
      fun _ hf => (by cases hf)⟩
  · intro τ s e s' hτ hh hs
    exact hh.step (serviceInv_of_run hτ) hs

theorem closed_step (hs : ServiceStep config s e s') (hclosed : (s.world.players slot).isOpen = false) :
    (s'.world.players slot).isOpen = false := by
  cases serviceStep_change hs with
  | @withdrew t h job reads => rw [(raised_keeps _ _ _ _).2]; exact hclosed
  | @returned t h slot job => cases job <;> exact hclosed
  | poisoned => rw [(raised_keeps _ _ _ _).2]; exact hclosed
  | timedOut => rw [(raised_keeps _ _ _ _).2]; exact hclosed
  | @wound t h =>
    obtain ⟨connected, he⟩ := windDown_eq s t h
    rw [he]
    exact hclosed
  | answered _ _ hstep =>
    obtain ⟨⟨σ, hσ⟩, _⟩ := hostStep_spec hstep
    exact (sameMatch_run hσ).closed slot hclosed
  | _ => exact hclosed

theorem closed_of_run (hr : Runs.Steps (ServiceStep config) s τ s')
    (hclosed : (s.world.players slot).isOpen = false) : (s'.world.players slot).isOpen = false :=
  hr.invariant (I := fun s => (s.world.players slot).isOpen = false) hclosed
    (fun _ _ _ hc hs => closed_step hs hc)

theorem slotOf_some {cert : Option (List UInt8)} (h : config.slotOf cert = some slot) :
    ∃ data, cert = some data ∧ data ≠ [] ∧ config.sha256 data = config.identities slot := by
  cases cert with
  | none => cases h
  | some data =>
    simp only [ServiceConfig.slotOf] at h
    split at h
    · cases h
    · rename_i hne
      split at h
      · rename_i hzero
        obtain rfl := Option.some.inj h
        exact ⟨data, rfl, hne, hzero⟩
      · split at h
        · rename_i hone
          obtain rfl := Option.some.inj h
          exact ⟨data, rfl, hne, hone⟩
        · cases h

theorem ClaimHistory.claimant (hh : ClaimHistory τ s) (ht : t ∈ claimants slot τ) :
    claimants slot τ = [t] ∧ ∃ h, s.handlers t = some h ∧ h.owned = true ∧ h.slot = some slot := by
  cases hc : s.claimed slot with
  | false =>
    rw [hh.free slot hc] at ht
    cases ht
  | true =>
    obtain ⟨t', h, hone, hwas, ho, hsl⟩ := hh.taken slot hc
    rw [hone] at ht
    obtain rfl := List.mem_singleton.mp ht
    exact ⟨hone, h, hwas, ho, hsl⟩

theorem ClaimHistory.owner (hh : ClaimHistory τ s) (hi : ServiceInv config w₀ s)
    (hwas : s.handlers t = some h) (ho : h.owned = true) (hslot : h.slot = some slot) :
    claimants slot τ = [t] := by
  obtain ⟨slot', hs', hclaimed⟩ := hi.owner t h hwas ho
  obtain rfl : slot = slot' := Option.some.inj (hslot.symm.trans hs')
  obtain ⟨t', h', hone, hwas', ho', hsl'⟩ := hh.taken slot hclaimed
  obtain rfl := hi.unique t t' h h' hwas hwas' ho ho' (hslot.trans hsl'.symm)
  exact hone

theorem ClaimHistory.intent {command : List UInt8} (hh : ClaimHistory τ s) (hi : ServiceInv config w₀ s)
    (hs : ServiceStep config s (.wrote t 1 slot command) s') :
    claimants slot τ = [t] ∧ (∀ t' command', .wrote t' 3 slot command' ∉ τ) ∧
      ∃ h, s.handlers t = some h ∧ h.phase.past = false := by
  cases serviceStep_change hs with
  | @wrote t h slot job op payload reads hwas hphase hslot _ _ _ hjob =>
    cases job with
    | duplicate => cases hjob.1
    | hello => cases hjob.1
    | tick => cases hjob.1
    | close => cases hjob.1
    | intent data left =>
      have ho : h.owned = true := hi.owns t h hwas (by rw [hphase]; rfl)
      refine ⟨hh.owner hi hwas ho hslot, ?_, h, hwas, by rw [hphase]; rfl⟩
      intro t' command' hf
      obtain ⟨h', hwas', ho', hsl', hpast⟩ := hh.closes t' slot command' hf
      obtain rfl := hi.unique t t' h h' hwas hwas' ho ho' (hslot.trans hsl'.symm)
      rw [hwas] at hwas'
      rw [← Option.some.inj hwas', hphase] at hpast
      cases hpast

/-- After its owner has ended, nobody writes an intent for the slot. -/
theorem no_intent_after_end (hr : Runs.Steps (ServiceStep config) (Service.boot w₀) τ s)
    (ht : t ∈ claimants slot τ) (hend : .ended t ∈ τ) {τ' : List ServiceEvent}
    (hr' : Runs.Steps (ServiceStep config) s τ' s') (t' : ℕ) (command : List UInt8) :
    .wrote t' 1 slot command ∉ τ' := by
  intro hmem
  obtain ⟨pre, post, rfl⟩ := List.append_of_mem hmem
  obtain ⟨m, m', hm, hs, _⟩ := hr'.of_split
  have hrun := hr.trans hm
  have hh := claimHistory_of_run hrun
  obtain ⟨hone, _, h, hwas, hpast⟩ := hh.intent (serviceInv_of_run hrun) hs
  have hmem' : t ∈ claimants slot (τ ++ pre) := by
    rw [claimants, List.filterMap_append]
    exact List.mem_append_left _ ht
  rw [hone] at hmem'
  obtain rfl := List.mem_singleton.mp hmem'
  obtain ⟨h', hwas', hended⟩ := hh.ended t (List.mem_append_left _ hend)
  rw [hwas] at hwas'
  rw [Option.some.inj hwas', hended] at hpast
  cases hpast

theorem refused_after_close (h₀ : gameInit id a b = some w₀)
    (hr : Runs.Steps (ServiceStep config) (Service.boot w₀) τ s)
    (hclosed : (s.world.players slot).isOpen = false) {τ' : List ServiceEvent}
    (hr' : Runs.Steps (ServiceStep config) s τ' s') {command record : List UInt8} {state : GameState}
    (hmem : .answered command record ∈ τ') (hop : command.getD 0 0 = 1)
    (hslot : (command.getD 1 0).toNat = (slot : ℕ)) (hstate : pyState record = .ok state) :
    state.reason ≠ "ACCEPTED" := by
  obtain ⟨pre, post, rfl⟩ := List.append_of_mem hmem
  obtain ⟨m, m', hm, hs, _⟩ := hr'.of_split
  have hi' := (serviceInv_of_run (hr.trans hm)).step hs
  have hshut : (m.world.players slot).isOpen = false := closed_of_run hm hclosed
  cases serviceStep_change hs with
  | @answered world record' hexited hlen hstep =>
    obtain ⟨sequence, status, hrec, hbad⟩ := hostStep_refused hstep hop hslot hshut
    obtain ⟨σ, hσ⟩ := hi'.world
    obtain ⟨hid, hses⟩ := ids_of_run h₀ hσ
    rw [hrec, pyState_reply slot sequence status (gameRules_of_run h₀ hσ) hid (hses slot)] at hstate
    rw [← Except.ok.inj hstate]
    show status.name ≠ "ACCEPTED"
    cases status <;> first | exact absurd rfl hbad | decide

/-- Each slot is claimed at most once, by a connection with the certificate
enrolled for it; every intent for the slot is written by that handler, after
its claim and before its close command; and once the handler has ended, the
service is broken or the slot is closed, and no later intent is accepted. -/
theorem slot_ownership (h₀ : gameInit id a b = some w₀)
    (hr : Runs.Steps (ServiceStep config) (Service.boot w₀) τ s) (slot : Fin 2) :
    (claimants slot τ).length ≤ 1 ∧
    (∀ t ∈ claimants slot τ, ∃ h cert, s.handlers t = some h ∧ h.cert = some cert ∧
      config.sha256 cert = config.identities slot) ∧
    (∀ pre t command post, τ = pre ++ .wrote t 1 slot command :: post →
      claimants slot pre = [t] ∧ ∀ t' command', .wrote t' 3 slot command' ∉ pre) ∧
    ∀ t ∈ claimants slot τ, .ended t ∈ τ →
      (s.broken = true ∨ (s.world.players slot).isOpen = false) ∧
      ∀ τ' s', Runs.Steps (ServiceStep config) s τ' s' →
        (∀ t' command, .wrote t' 1 slot command ∉ τ') ∧
        ((s.world.players slot).isOpen = false → ∀ command record state, .answered command record ∈ τ' →
          command.getD 0 0 = 1 → (command.getD 1 0).toNat = (slot : ℕ) → pyState record = .ok state →
          state.reason ≠ "ACCEPTED") := by
  have hi := serviceInv_of_run hr
  have hh := claimHistory_of_run hr
  refine ⟨?_, ?_, ?_, ?_⟩
  · cases hc : s.claimed slot with
    | false => simp [hh.free slot hc]
    | true =>
      obtain ⟨t, h, hone, _⟩ := hh.taken slot hc
      simp [hone]
  · intro t ht
    obtain ⟨_, h, hwas, _, hsl⟩ := hh.claimant ht
    obtain ⟨cert, hcert, _, hprint⟩ := slotOf_some ((hi.slot t h hwas).symm.trans hsl)
    exact ⟨h, cert, hwas, hcert, hprint⟩
  · rintro pre t command post rfl
    obtain ⟨m, m', hm, hs, _⟩ := hr.of_split
    obtain ⟨hone, hnone, _⟩ := (claimHistory_of_run hm).intent (serviceInv_of_run hm) hs
    exact ⟨hone, hnone⟩
  · intro t ht hend
    obtain ⟨_, h, hwas, ho, hsl⟩ := hh.claimant ht
    obtain ⟨h', hwas', hended⟩ := hh.ended t hend
    obtain rfl : h = h' := Option.some.inj (hwas.symm.trans hwas')
    refine ⟨hi.ended t h slot hwas ho hsl (by rw [hended]; rfl), ?_⟩
    intro τ' s' hr'
    refine ⟨no_intent_after_end hr ht hend hr', ?_⟩
    intro hclosed command record state
    exact refused_after_close h₀ hr hclosed hr'

end

def sampleShotBytes : List UInt8 :=
  inputMagic ++ [1, gameFire, 0, 0] ++ List.replicate 16 1 ++ List.replicate 16 2 ++ [1, 0, 0, 0, 0, 0, 0, 0]

/-- Both players join, and the first sends a shot; its tick is with the worker. -/
def sampleShotActions : List ServiceAction :=
  [.connect 0 (some [0x61, 0x62, 0x63]), .connect 1 (some [0x61]), .acquire 0, .write 0, .serve, .reply 0,
    .sent 0, .acquire 1, .write 1, .serve, .reply 1, .sent 1, .frame 0 sampleShotBytes, .acquire 0, .write 0]

/-- The shot is written and answered, its player leaves, and two more connections come with
its certificate, before and after that. -/
def sampleReturnActions : List ServiceAction :=
  sampleShotActions ++ [.serve, .reply 0, .write 0, .connect 2 (some [0x61, 0x62, 0x63]), .serve, .reply 0, .sent 0,
    .leave 0, .acquire 0, .write 0, .serve, .reply 0, .finish 0, .connect 3 (some [0x61, 0x62, 0x63])]

theorem slot_ownership_sample : ∃ τ s,
    Runs.Steps (ServiceStep sampleServiceConfig) (Service.boot sampleWorld) τ s ∧
    claimants 0 τ = [0] ∧ (s.handlers 2).isSome = true ∧ (s.handlers 3).isSome = true ∧
    (∃ pre post, τ = pre ++ .wrote 0 1 0 (serviceCommand 1 0 sampleShotBytes) :: post ∧ claimants 0 pre = [0]) ∧
    .ended 0 ∈ τ ∧ (s.broken = true ∨ (s.world.players 0).isOpen = false) := by
  have hrun : (Runs.exec (serviceNext sampleServiceConfig) (Service.boot sampleWorld) sampleReturnActions).any
      (fun r => claimants 0 r.1 = [0] ∧ (r.2.handlers 2).isSome = true ∧ (r.2.handlers 3).isSome = true ∧
        .wrote 0 1 0 (serviceCommand 1 0 sampleShotBytes) ∈ r.1 ∧ .ended 0 ∈ r.1) = true := by decide +kernel
  obtain ⟨τ, s, hr, hall⟩ := Runs.exec_any hrun
  obtain ⟨hone, hsecond, hthird, hwrote, hend⟩ := of_decide_eq_true hall
  obtain ⟨-, -, hintent, hafter⟩ := slot_ownership sampleWorld_init hr 0
  obtain ⟨pre, post, hsplit⟩ := List.append_of_mem hwrote
  exact ⟨τ, s, hr, hone, hsecond, hthird, ⟨pre, post, hsplit, (hintent pre 0 _ post hsplit).1⟩, hend,
    (hafter 0 (by simp [hone]) hend).1⟩

end ArenaLab
