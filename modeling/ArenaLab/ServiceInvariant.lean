import ArenaLab.ServiceSteps

/-! What holds in every state of the match service, whatever fails: who holds
the lock, who owns a slot, and what lies in the pipes while the service is whole. -/

namespace ArenaLab

def Job.Issues (slot : Fin 2) (command : List UInt8) : Job → Prop
  | .duplicate => command = serviceCommand 4 slot noPayload
  | .hello => command = serviceCommand 4 slot noPayload
  | .tick _ _ => ∃ tick, tick < 2 ^ 64 ∧ command = serviceCommand 2 slot (tickPayload tick)
  | .intent payload _ => command = serviceCommand 1 slot payload
  | .close => command = serviceCommand 3 slot noPayload

/-- The command waits for the worker, or the worker is gone, or its answer waits. -/
def InFlight (s : Service) (command : List UInt8) : Prop :=
  s.stdin = command ∧ s.stdout = [] ∨
  s.stdin = [] ∧ (s.exited = true ∧ s.stdout = [] ∨
    ∃ w, hostStep w command = some (s.world, s.stdout))

structure PipeInv (s : Service) : Prop where
  idle : (∀ t h, s.handlers t = some h → h.phase.busy = false) → s.stdin = [] ∧ s.stdout = []
  busy : ∀ t h job command, s.handlers t = some h → h.phase = .exchanging job command →
    ∃ slot, h.slot = some slot ∧ job.Issues slot command ∧ command.length = 50 ∧ InFlight s command

structure ServiceInv (config : ServiceConfig) (w₀ : GameWorld) (s : Service) : Prop where
  world : ∃ τ, Runs.Steps GameStep w₀ τ s.world
  lock : ∀ t h, s.handlers t = some h → (h.phase.holds = true ↔ s.lock = some t)
  holder : ∀ t, s.lock = some t → (s.handlers t).isSome = true
  slot : ∀ t h, s.handlers t = some h → h.slot = config.slotOf h.cert
  owner : ∀ t h, s.handlers t = some h → h.owned = true →
    ∃ slot, h.slot = some slot ∧ s.claimed slot = true
  unique : ∀ t t' h h', s.handlers t = some h → s.handlers t' = some h' → h.owned = true →
    h'.owned = true → h.slot = h'.slot → t = t'
  owns : ∀ t h, s.handlers t = some h → h.phase.owns = true → h.owned = true
  ended : ∀ t h slot, s.handlers t = some h → h.owned = true → h.slot = some slot →
    h.phase.over = true → s.broken = true ∨ (s.world.players slot).isOpen = false
  pipe : s.broken = false → PipeInv s

section

variable {config : ServiceConfig} {w₀ : GameWorld} {s s' : Service} {t : ℕ} {h : Handler} {p : Phase}

theorem serviceInv_boot (config : ServiceConfig) (w : GameWorld) :
    ServiceInv config w (Service.boot w) where
  world := ⟨[], .nil⟩
  lock := by
    intro t h ht
    cases ht
  holder := by
    intro t ht
    cases ht
  slot := by
    intro t h ht
    cases ht
  owner := by
    intro t h ht
    cases ht
  unique := by
    intro t t' h h' ht
    cases ht
  owns := by
    intro t h ht
    cases ht
  ended := by
    intro t h slot ht
    cases ht
  pipe := by
    intro _
    refine ⟨fun _ => ⟨rfl, rfl⟩, ?_⟩
    intro t h job command ht
    cases ht

/-- Handler `t` goes to phase `p` and nothing else about handlers changes. -/
structure Moves (s s' : Service) (t : ℕ) (h : Handler) (p : Phase) : Prop where
  was : s.handlers t = some h
  handlers : s'.handlers = Function.update s.handlers t (some { h with phase := p })
  claimed : s'.claimed = s.claimed
  world : s'.world = s.world
  broken : s.broken = true → s'.broken = true
  lock : p.holds = true ↔ s'.lock = some t
  others : ∀ t', t' ≠ t → (s'.lock = some t' ↔ s.lock = some t')

theorem Moves.cases (m : Moves s s' t h p) {u : ℕ} {k : Handler} (hk : s'.handlers u = some k) :
    u = t ∧ k = { h with phase := p } ∨ u ≠ t ∧ s.handlers u = some k := by
  rw [m.handlers] at hk
  by_cases hu : u = t
  · subst hu
    rw [Function.update_self] at hk
    exact .inl ⟨rfl, (Option.some.inj hk).symm⟩
  · rw [Function.update_of_ne hu] at hk
    exact .inr ⟨hu, hk⟩

theorem Moves.before (m : Moves s s' t h p) {u : ℕ} {k : Handler} (hk : s'.handlers u = some k) :
    ∃ k', s.handlers u = some k' ∧ k.cert = k'.cert ∧ k.slot = k'.slot ∧ k.owned = k'.owned := by
  rcases m.cases hk with ⟨rfl, rfl⟩ | ⟨_, hold⟩
  · exact ⟨h, m.was, rfl, rfl, rfl⟩
  · exact ⟨k, hold, rfl, rfl, rfl⟩

theorem ServiceInv.move (hi : ServiceInv config w₀ s) (m : Moves s s' t h p)
    (howns : p.owns = true → h.owned = true)
    (hover : ∀ slot, h.owned = true → h.slot = some slot → p.over = true →
      s'.broken = true ∨ (s'.world.players slot).isOpen = false)
    (hpipe : s'.broken = false → PipeInv s') : ServiceInv config w₀ s' := by
  constructor
  · rw [m.world]
    exact hi.world
  · intro u k hk
    rcases m.cases hk with ⟨rfl, rfl⟩ | ⟨hu, hold⟩
    · exact m.lock
    · rw [m.others u hu]
      exact hi.lock u k hold
  · intro u hu
    rw [m.handlers]
    by_cases hut : u = t
    · subst hut
      simp
    · rw [Function.update_of_ne hut]
      exact hi.holder u ((m.others u hut).mp hu)
  · intro u k hk
    obtain ⟨k', hk', hc, hs, _⟩ := m.before hk
    rw [hc, hs]
    exact hi.slot u k' hk'
  · intro u k hk ho
    obtain ⟨k', hk', _, hs, howned⟩ := m.before hk
    rw [howned] at ho
    rw [hs, m.claimed]
    exact hi.owner u k' hk' ho
  · intro u u' k k' hk hk' ho ho' he
    obtain ⟨j, hj, _, hs, howned⟩ := m.before hk
    obtain ⟨j', hj', _, hs', howned'⟩ := m.before hk'
    rw [howned] at ho
    rw [howned'] at ho'
    rw [hs, hs'] at he
    exact hi.unique u u' j j' hj hj' ho ho' he
  · intro u k hk ho
    rcases m.cases hk with ⟨rfl, rfl⟩ | ⟨_, hold⟩
    · exact howns ho
    · exact hi.owns u k hold ho
  · intro u k slot hk ho hs hp
    rcases m.cases hk with ⟨rfl, rfl⟩ | ⟨_, hold⟩
    · exact hover slot ho hs hp
    · rcases hi.ended u k slot hold ho hs hp with hb | hc
      · exact .inl (m.broken hb)
      · rw [m.world]
        exact .inr hc
  · exact hpipe

theorem ServiceInv.break (hi : ServiceInv config w₀ s) (hh : s'.handlers = s.handlers)
    (hl : s'.lock = s.lock) (hc : s'.claimed = s.claimed) (hw : s'.world = s.world)
    (hb : s'.broken = true) : ServiceInv config w₀ s' := by
  constructor
  · rw [hw]
    exact hi.world
  · rw [hh, hl]
    exact hi.lock
  · rw [hh, hl]
    exact hi.holder
  · rw [hh]
    exact hi.slot
  · rw [hh, hc]
    exact hi.owner
  · rw [hh]
    exact hi.unique
  · rw [hh]
    exact hi.owns
  · intro _ _ _ _ _ _ _
    exact .inl hb
  · intro hf
    rw [hb] at hf
    cases hf

theorem PipeInv.still (hp : PipeInv s) (m : Moves s s' t h p) (hbusy : h.phase.busy = false)
    (hbusy' : p.busy = false) (hin : s'.stdin = s.stdin) (hout : s'.stdout = s.stdout)
    (hex : s'.exited = s.exited) : PipeInv s' := by
  constructor
  · intro hidle
    rw [hin, hout]
    apply hp.idle
    intro u k hk
    by_cases hu : u = t
    · subst hu
      rw [m.was] at hk
      obtain rfl := Option.some.inj hk
      exact hbusy
    · refine hidle u k ?_
      rw [m.handlers, Function.update_of_ne hu]
      exact hk
  · intro u k job command hk hphase
    rcases m.cases hk with ⟨rfl, rfl⟩ | ⟨_, hold⟩
    · simp only at hphase
      rw [hphase] at hbusy'
      cases hbusy'
    · obtain ⟨slot, hs, hiss, hlen, hfl⟩ := hp.busy u k job command hold hphase
      refine ⟨slot, hs, hiss, hlen, ?_⟩
      rw [InFlight, hin, hout, hex, m.world]
      exact hfl

theorem disconnect_eq (s : Service) (h : Handler) :
    ∃ connected, s.disconnect h = { s with connected := connected } := by
  simp only [Service.disconnect]
  split
  · split
    · exact ⟨_, rfl⟩
    · exact ⟨_, rfl⟩
  · exact ⟨_, rfl⟩

theorem holds_of_busy {p : Phase} (h : p.holds = false) : p.busy = false := by
  cases p <;> first | rfl | cases h

/-- Where `finally` takes a handler. -/
def Handler.exit (h : Handler) (broken : Bool) : Phase :=
  if h.owned && !broken then .acquiring .close else .closing

theorem exit_cases (h : Handler) (broken : Bool) :
    h.owned = true ∧ broken = false ∧ h.exit broken = .acquiring .close ∨
    (h.owned = true → broken = true) ∧ h.exit broken = .closing := by
  cases ho : h.owned <;> cases broken <;> simp [Handler.exit, ho]

theorem exit_free (h : Handler) (broken : Bool) :
    (h.exit broken).holds = false ∧ (h.exit broken).busy = false := by
  rcases exit_cases h broken with ⟨_, _, he⟩ | ⟨_, he⟩ <;> rw [he] <;> exact ⟨rfl, rfl⟩

theorem windDown_moves (hwas : s.handlers t = some h) (hlock : s.lock ≠ some t) :
    Moves s (s.windDown t h) t h (h.exit s.broken) := by
  obtain ⟨connected, hd⟩ := disconnect_eq s h
  have hfree := (exit_free h s.broken).1
  refine ⟨hwas, ?_, ?_, ?_, ?_, ?_, ?_⟩
  · rw [Service.windDown, hd]
    rfl
  · rw [Service.windDown, hd]
    rfl
  · rw [Service.windDown, hd]
    rfl
  · rw [Service.windDown, hd]
    exact id
  · rw [hfree, Service.windDown, hd]
    exact ⟨fun hf => (by cases hf), fun hf => absurd hf hlock⟩
  · rw [Service.windDown, hd]
    exact fun _ _ => Iff.rfl

theorem windDown_fields (s : Service) (t : ℕ) (h : Handler) :
    (s.windDown t h).broken = s.broken ∧ (s.windDown t h).stdin = s.stdin ∧
      (s.windDown t h).stdout = s.stdout ∧ (s.windDown t h).exited = s.exited := by
  obtain ⟨connected, hd⟩ := disconnect_eq s h
  rw [Service.windDown, hd]
  exact ⟨rfl, rfl, rfl, rfl⟩

theorem ServiceInv.free (hi : ServiceInv config w₀ s) (hwas : s.handlers t = some h)
    (hholds : h.phase.holds = false) : s.lock ≠ some t := by
  intro hl
  rw [(hi.lock t h hwas).mpr hl] at hholds
  cases hholds

theorem ServiceInv.windDown (hi : ServiceInv config w₀ s) (hwas : s.handlers t = some h)
    (hholds : h.phase.holds = false) : ServiceInv config w₀ (s.windDown t h) := by
  have m := windDown_moves hwas (hi.free hwas hholds)
  obtain ⟨hb, hin, hout, hex⟩ := windDown_fields s t h
  refine hi.move m ?_ ?_ ?_
  · intro ho
    rcases exit_cases h s.broken with ⟨howned, _⟩ | ⟨_, he⟩
    · exact howned
    · rw [he] at ho
      cases ho
  · intro slot howned _ hp
    rcases exit_cases h s.broken with ⟨_, _, he⟩ | ⟨hbroken, _⟩
    · rw [he] at hp
      cases hp
    · rw [hb]
      exact .inl (hbroken howned)
  · intro hf
    rw [hb] at hf
    exact (hi.pipe hf).still m (holds_of_busy hholds) (exit_free h s.broken).2 hin hout hex

theorem ServiceInv.release (hi : ServiceInv config w₀ s) (hwas : s.handlers t = some h)
    (hholds : h.phase.holds = true) (howns : p.owns = true → h.owned = true) (hp : p.holds = false)
    (hs' : s'.handlers = Function.update s.handlers t (some { h with phase := p }))
    (hl : s'.lock = none) (hc : s'.claimed = s.claimed) (hw : s'.world = s.world)
    (hb : s.broken = true → s'.broken = true)
    (hover : ∀ slot, h.owned = true → h.slot = some slot → p.over = true →
      s'.broken = true ∨ (s'.world.players slot).isOpen = false)
    (hpipe : s'.broken = false → Moves s s' t h p → PipeInv s') : ServiceInv config w₀ s' := by
  have hlock : s.lock = some t := (hi.lock t h hwas).mp hholds
  have m : Moves s s' t h p := by
    refine ⟨hwas, hs', hc, hw, hb, ?_, ?_⟩
    · rw [hp, hl]
      exact ⟨fun hf => (by cases hf), fun hf => (by cases hf)⟩
    · intro u hu
      rw [hl, hlock]
      exact ⟨fun hf => (by cases hf), fun hf => absurd (Option.some.inj hf).symm hu⟩
  exact hi.move m howns hover (fun hf => hpipe hf m)

theorem ServiceInv.raised (hi : ServiceInv config w₀ s) (hwas : s.handlers t = some h) (job : Job)
    (hholds : h.phase.holds = true) (hbusy : s.broken = true ∨ h.phase.busy = false) :
    ServiceInv config w₀ (s.raised t h job) := by
  by_cases hjob : job = .close
  · subst hjob
    refine hi.release hwas hholds (p := .closing) (fun hf => by cases hf) rfl rfl rfl rfl rfl
      (fun _ => rfl) (fun _ _ _ _ => .inl rfl) ?_
    intro hf
    cases hf
  · have he : s.raised t h job = { s with lock := none }.windDown t h := by
      cases job <;> first | rfl | exact absurd rfl hjob
    obtain ⟨hb, hin, hout, hex⟩ := windDown_fields { s with lock := none } t h
    have m := @windDown_moves { s with lock := none } t h hwas (fun hf => by cases hf)
    have hl : (({ s with lock := none } : Service).windDown t h).lock = none := by
      obtain ⟨connected, hd⟩ := disconnect_eq { s with lock := none } h
      rw [Service.windDown, hd]
      rfl
    rw [he]
    refine hi.release hwas hholds (p := h.exit s.broken) ?_ (exit_free h s.broken).1 m.handlers hl
      m.claimed m.world m.broken ?_ ?_
    · intro ho
      rcases exit_cases h s.broken with ⟨howned, _⟩ | ⟨_, hx⟩
      · exact howned
      · rw [hx] at ho
        cases ho
    · intro slot howned _ hp
      rcases exit_cases h s.broken with ⟨_, _, hx⟩ | ⟨hbroken, _⟩
      · rw [hx] at hp
        cases hp
      · rw [hb]
        exact .inl (hbroken howned)
    · intro hf m'
      rw [hb] at hf
      have hidle : h.phase.busy = false := by
        rcases hbusy with hbr | hbu
        · rw [show s.broken = false from hf] at hbr
          cases hbr
        · exact hbu
      exact (hi.pipe hf).still m' hidle (exit_free h s.broken).2 hin hout hex

theorem ServiceInv.empty (hi : ServiceInv config w₀ s) (hbroken : s.broken = false)
    (hwas : s.handlers t = some h) (hholds : h.phase.holds = true) (hbusy : h.phase.busy = false) :
    s.stdin = [] ∧ s.stdout = [] := by
  refine (hi.pipe hbroken).idle ?_
  intro u k hk
  by_cases hu : u = t
  · subst hu
    rw [hwas] at hk
    obtain rfl := Option.some.inj hk
    exact hbusy
  · have hlock := (hi.lock t h hwas).mp hholds
    apply holds_of_busy
    cases hc : k.phase.holds with
    | false => rfl
    | true =>
      have hl := (hi.lock u k hk).mp hc
      rw [hlock] at hl
      exact absurd (Option.some.inj hl).symm hu

theorem ServiceInv.alone (hi : ServiceInv config w₀ s) (hwas : s.handlers t = some h)
    (hholds : h.phase.holds = true) {u : ℕ} {k : Handler} (hk : s.handlers u = some k)
    (hheld : k.phase.holds = true) : u = t := by
  have hl := (hi.lock t h hwas).mp hholds
  have hl' := (hi.lock u k hk).mp hheld
  rw [hl] at hl'
  exact (Option.some.inj hl').symm

theorem writes_issues {slot : Fin 2} {job : Job} {op : UInt8} {payload : List UInt8} {reads : ℕ}
    (h : s.Writes config job op payload reads) : job.Issues slot (serviceCommand op slot payload) := by
  cases job with
  | duplicate =>
    obtain ⟨rfl, rfl, _⟩ := h
    exact rfl
  | hello =>
    obtain ⟨rfl, rfl, _⟩ := h
    exact rfl
  | tick data left =>
    obtain ⟨rfl, _, hlow, hhigh, rfl⟩ := h
    exact ⟨_, by omega, rfl⟩
  | intent data left =>
    obtain ⟨rfl, rfl, _⟩ := h
    exact rfl
  | close =>
    obtain ⟨rfl, rfl, _⟩ := h
    exact rfl

theorem ServiceInv.wrote {slot : Fin 2} {job : Job} {op : UInt8} {payload : List UInt8} {reads : ℕ}
    (hi : ServiceInv config w₀ s) (hwas : s.handlers t = some h) (hphase : h.phase = .ready job)
    (hslot : h.slot = some slot) (hbroken : s.broken = false) (hlen : payload.length = 48)
    (hjob : s.Writes config job op payload reads) :
    ServiceInv config w₀ ({ s with
      reads := reads
      stdin := s.stdin ++ serviceCommand op slot payload }.put t h
        (.exchanging job (serviceCommand op slot payload))) := by
  have hholds : h.phase.holds = true := by
    rw [hphase]
    rfl
  have hlock := (hi.lock t h hwas).mp hholds
  have hempty := hi.empty hbroken hwas hholds (by rw [hphase]; rfl)
  have m : Moves s ({ s with
      reads := reads
      stdin := s.stdin ++ serviceCommand op slot payload }.put t h
        (.exchanging job (serviceCommand op slot payload))) t h
      (.exchanging job (serviceCommand op slot payload)) :=
    ⟨hwas, rfl, rfl, rfl, id, ⟨fun _ => hlock, fun _ => rfl⟩, fun _ _ => Iff.rfl⟩
  refine hi.move m ?_ (fun _ _ _ hf => by cases hf) ?_
  · intro ho
    refine hi.owns t h hwas ?_
    rw [hphase]
    exact ho
  · intro _
    constructor
    · intro hidle
      have hself := hidle t { h with phase := .exchanging job (serviceCommand op slot payload) }
        (Function.update_self ..)
      cases hself
    · intro u k job' command hk hp
      rcases m.cases hk with ⟨rfl, rfl⟩ | ⟨hu, hold⟩
      · simp only [Phase.exchanging.injEq] at hp
        obtain ⟨rfl, rfl⟩ := hp
        refine ⟨slot, hslot, writes_issues hjob, by simp [serviceCommand, hlen], .inl ⟨?_, hempty.2⟩⟩
        show s.stdin ++ serviceCommand op slot payload = serviceCommand op slot payload
        rw [hempty.1, List.nil_append]
      · exact absurd (hi.alone hwas hholds hold (by rw [hp]; rfl)) hu

theorem ServiceInv.settled {job : Job} {command : List UInt8} (hi : ServiceInv config w₀ s)
    (hbroken : s.broken = false) (hwas : s.handlers t = some h)
    (hphase : h.phase = .exchanging job command) (hlen : 80 ≤ s.stdout.length) :
    ∃ slot w, h.slot = some slot ∧ job.Issues slot command ∧ s.stdin = [] ∧ s.stdout.length = 80 ∧
      hostStep w command = some (s.world, s.stdout) := by
  obtain ⟨slot, hs, hiss, _, hfl⟩ := (hi.pipe hbroken).busy t h job command hwas hphase
  rcases hfl with ⟨_, hout⟩ | ⟨hin, ⟨_, hout⟩ | ⟨w, hstep⟩⟩
  · simp [hout] at hlen
  · simp [hout] at hlen
  · obtain ⟨_, _, _, _, _, hrec⟩ := hostStep_spec hstep
    have h80 : s.stdout.length = 80 := by
      rw [hrec]
      exact length_reply _ _ _ _
    exact ⟨slot, w, hs, hiss, hin, h80, hstep⟩

theorem PipeInv.cleared (hi : ServiceInv config w₀ s) (hwas : s.handlers t = some h)
    (hholds : h.phase.holds = true) (m : Moves s s' t h p) (hp : p.busy = false)
    (hin : s'.stdin = []) (hout : s'.stdout = []) : PipeInv s' := by
  refine ⟨fun _ => ⟨hin, hout⟩, ?_⟩
  intro u k job command hk hphase
  rcases m.cases hk with ⟨rfl, rfl⟩ | ⟨hu, hold⟩
  · simp only at hphase
    rw [hphase] at hp
    cases hp
  · exact absurd (hi.alone hwas hholds hold (by rw [hphase]; rfl)) hu

theorem ServiceInv.returned {slot : Fin 2} {job : Job} {command : List UInt8} {state : GameState}
    (hi : ServiceInv config w₀ s) (hwas : s.handlers t = some h)
    (hphase : h.phase = .exchanging job command) (hlen : 80 ≤ s.stdout.length) :
    ServiceInv config w₀
      ({ s with stdout := s.stdout.drop 80 }.resume t h slot job (s.stdout.take 80) state) := by
  have hholds : h.phase.holds = true := by
    rw [hphase]
    rfl
  have hclear : s.broken = false → s.stdin = [] ∧ s.stdout.drop 80 = [] := by
    intro hb
    obtain ⟨_, _, _, _, hin, h80, _⟩ := hi.settled hb hwas hphase hlen
    exact ⟨hin, List.drop_eq_nil_of_le (by omega)⟩
  have howns : job ≠ .duplicate → h.owned = true := by
    intro hj
    refine hi.owns t h hwas ?_
    rw [hphase]
    simpa [Phase.owns] using hj
  cases job with
  | duplicate =>
    exact hi.release hwas hholds (p := .sending _ .stop) (fun hf => by cases hf) rfl rfl rfl rfl rfl id
      (fun _ _ _ hf => by cases hf)
      (fun hb m => .cleared hi hwas hholds m rfl (hclear hb).1 (hclear hb).2)
  | hello =>
    exact hi.release hwas hholds (p := .sending _ (.loop 256)) (fun _ => howns (by simp)) rfl rfl rfl rfl
      rfl id (fun _ _ _ hf => by cases hf)
      (fun hb m => .cleared hi hwas hholds m rfl (hclear hb).1 (hclear hb).2)
  | tick payload left =>
    have hlock := (hi.lock t h hwas).mp hholds
    have m : Moves s ({ s with stdout := s.stdout.drop 80 }.resume t h slot (.tick payload left)
        (s.stdout.take 80) state) t h (.ready (.intent payload left)) :=
      ⟨hwas, rfl, rfl, rfl, id, ⟨fun _ => hlock, fun _ => rfl⟩, fun _ _ => Iff.rfl⟩
    exact hi.move m (fun _ => howns (by simp)) (fun _ _ _ hf => by cases hf)
      (fun hb => .cleared hi hwas hholds m rfl (hclear hb).1 (hclear hb).2)
  | intent payload left =>
    exact hi.release hwas hholds (p := .sending _ (.loop (left - 1))) (fun _ => howns (by simp)) rfl rfl rfl
      rfl rfl id (fun _ _ _ hf => by cases hf)
      (fun hb m => .cleared hi hwas hholds m rfl (hclear hb).1 (hclear hb).2)
  | close =>
    refine hi.release hwas hholds (p := .closing) (fun hf => by cases hf) rfl rfl rfl rfl rfl id ?_
      (fun hb m => .cleared hi hwas hholds m rfl (hclear hb).1 (hclear hb).2)
    intro slot' _ hs' _
    by_cases hb : s.broken = true
    · exact .inl hb
    · right
      obtain ⟨slot'', w, hs'', hiss, _, _, hstep⟩ :=
        hi.settled (Bool.eq_false_iff.mpr hb) hwas hphase hlen
      obtain rfl : slot' = slot'' := Option.some.inj (hs'.symm.trans hs'')
      obtain ⟨record, hc⟩ := hostStep_close w slot'
      rw [show command = serviceCommand 3 slot' noPayload from hiss, hc] at hstep
      obtain ⟨hw, _⟩ := Prod.mk.inj (Option.some.inj hstep)
      show (s.world.players slot').isOpen = false
      rw [← hw]
      exact gameClose_closed w slot'

/-- The worker takes a command: the world goes on and closed slots stay closed. -/
theorem ServiceInv.worker (hi : ServiceInv config w₀ s) (hh : s'.handlers = s.handlers)
    (hl : s'.lock = s.lock) (hc : s'.claimed = s.claimed) (hb : s'.broken = s.broken)
    (hw : ∃ τ, Runs.Steps GameStep s.world τ s'.world) (hpipe : s'.broken = false → PipeInv s') :
    ServiceInv config w₀ s' := by
  obtain ⟨τ', hτ'⟩ := hw
  constructor
  · obtain ⟨τ, hτ⟩ := hi.world
    exact ⟨τ ++ τ', hτ.trans hτ'⟩
  · rw [hh, hl]
    exact hi.lock
  · rw [hh, hl]
    exact hi.holder
  · rw [hh]
    exact hi.slot
  · rw [hh, hc]
    exact hi.owner
  · rw [hh]
    exact hi.unique
  · rw [hh]
    exact hi.owns
  · intro u k slot hk ho hs hp
    rw [hh] at hk
    rw [hb]
    rcases hi.ended u k slot hk ho hs hp with hbr | hcl
    · exact .inl hbr
    · exact .inr ((sameMatch_run hτ').closed slot hcl)
  · exact hpipe

/-- With fifty bytes in its pipe the worker has exactly the command in flight. -/
theorem PipeInv.loaded (hp : PipeInv s) (hlen : 50 ≤ s.stdin.length) :
    s.stdin.drop 50 = [] ∧ s.stdout = [] ∧
    ∀ t h job command, s.handlers t = some h → h.phase = .exchanging job command →
      ∃ slot, h.slot = some slot ∧ job.Issues slot command ∧ command.length = 50 ∧
        s.stdin = command := by
  have hne : s.stdin ≠ [] := by
    intro hf
    simp [hf] at hlen
  have hbusy : ∀ t h job command, s.handlers t = some h → h.phase = .exchanging job command →
      ∃ slot, h.slot = some slot ∧ job.Issues slot command ∧ command.length = 50 ∧
        s.stdin = command ∧ s.stdout = [] := by
    intro t h job command ht hphase
    obtain ⟨slot, hs, hiss, h50, hfl⟩ := hp.busy t h job command ht hphase
    rcases hfl with ⟨hin, hout⟩ | ⟨hin, _⟩
    · exact ⟨slot, hs, hiss, h50, hin, hout⟩
    · exact absurd hin hne
  have hsome : ∃ t h job command, s.handlers t = some h ∧ h.phase = .exchanging job command := by
    by_contra hnone
    refine hne (hp.idle ?_).1
    intro t h ht
    cases hph : h.phase with
    | exchanging job command => exact absurd ⟨t, h, job, command, ht, hph⟩ hnone
    | _ => rfl
  obtain ⟨t, h, job, command, ht, hphase⟩ := hsome
  obtain ⟨_, _, _, h50, hin, hout⟩ := hbusy t h job command ht hphase
  refine ⟨List.drop_eq_nil_of_le (by rw [hin]; omega), hout, ?_⟩
  intro u k job' command' hk hp'
  obtain ⟨slot, hs, hiss, hl, hi', _⟩ := hbusy u k job' command' hk hp'
  exact ⟨slot, hs, hiss, hl, hi'⟩

theorem ServiceInv.answered {world : GameWorld} {record : List UInt8} (hi : ServiceInv config w₀ s)
    (hlen : 50 ≤ s.stdin.length) (hstep : hostStep s.world (s.stdin.take 50) = some (world, record)) :
    ServiceInv config w₀
      { s with stdin := s.stdin.drop 50, world := world, stdout := s.stdout ++ record } := by
  refine hi.worker rfl rfl rfl rfl (hostStep_spec hstep).1 ?_
  intro hb
  obtain ⟨hdrop, hout, hcmd⟩ := (hi.pipe hb).loaded hlen
  constructor
  · intro hidle
    have hin := ((hi.pipe hb).idle hidle).1
    simp [hin] at hlen
  · intro u k job command hk hphase
    obtain ⟨slot, hs, hiss, h50, hin⟩ := hcmd u k job command hk hphase
    refine ⟨slot, hs, hiss, h50, .inr ⟨hdrop, .inr ⟨s.world, ?_⟩⟩⟩
    show hostStep s.world command = some (world, s.stdout ++ record)
    rw [hout, List.nil_append, ← hstep, hin, List.take_of_length_le (by omega)]

theorem ServiceInv.crashed (hi : ServiceInv config w₀ s) (hlen : 50 ≤ s.stdin.length) :
    ServiceInv config w₀ { s with stdin := s.stdin.drop 50, exited := true } := by
  refine hi.worker rfl rfl rfl rfl ⟨[], .nil⟩ ?_
  intro hb
  obtain ⟨hdrop, hout, hcmd⟩ := (hi.pipe hb).loaded hlen
  constructor
  · intro hidle
    have hin := ((hi.pipe hb).idle hidle).1
    simp [hin] at hlen
  · intro u k job command hk hphase
    obtain ⟨slot, hs, hiss, h50, _⟩ := hcmd u k job command hk hphase
    exact ⟨slot, hs, hiss, h50, .inr ⟨hdrop, .inl ⟨rfl, hout⟩⟩⟩

theorem ServiceInv.killed (hi : ServiceInv config w₀ s) :
    ServiceInv config w₀ { s with exited := true } := by
  refine hi.worker rfl rfl rfl rfl ⟨[], .nil⟩ ?_
  intro hb
  refine ⟨(hi.pipe hb).idle, ?_⟩
  intro u k job command hk hphase
  obtain ⟨slot, hs, hiss, h50, hfl⟩ := (hi.pipe hb).busy u k job command hk hphase
  refine ⟨slot, hs, hiss, h50, ?_⟩
  rcases hfl with ⟨hin, hout⟩ | ⟨hin, ⟨_, hout⟩ | hstep⟩
  · exact .inl ⟨hin, hout⟩
  · exact .inr ⟨hin, .inl ⟨rfl, hout⟩⟩
  · exact .inr ⟨hin, .inr hstep⟩

theorem ServiceInv.join (hi : ServiceInv config w₀ s) (hnew : s.handlers t = none)
    (hh : s'.handlers = Function.update s.handlers t (some { h with phase := p }))
    (hl : s'.lock = s.lock) (hw : s'.world = s.world) (hb : s'.broken = s.broken)
    (hin : s'.stdin = s.stdin) (hout : s'.stdout = s.stdout) (hex : s'.exited = s.exited)
    (hslot : h.slot = config.slotOf h.cert) (hholds : p.holds = false) (hp : p.over = false)
    (howns : p.owns = true → h.owned = true)
    (hold : ∀ slot, s.claimed slot = true → s'.claimed slot = true)
    (hnewowner : h.owned = true → ∃ slot, h.slot = some slot ∧ s'.claimed slot = true ∧
      s.claimed slot = false) : ServiceInv config w₀ s' := by
  have hcases : ∀ {u : ℕ} {k : Handler}, s'.handlers u = some k →
      u = t ∧ k = { h with phase := p } ∨ u ≠ t ∧ s.handlers u = some k := by
    intro u k hk
    rw [hh] at hk
    by_cases hu : u = t
    · subst hu
      rw [Function.update_self] at hk
      exact .inl ⟨rfl, (Option.some.inj hk).symm⟩
    · rw [Function.update_of_ne hu] at hk
      exact .inr ⟨hu, hk⟩
  have hlock : s.lock ≠ some t := by
    intro hf
    have hs := hi.holder t hf
    rw [hnew] at hs
    cases hs
  have hfresh : ∀ {u : ℕ} {k : Handler}, s.handlers u = some k → k.owned = true → h.owned = true →
      k.slot ≠ h.slot := by
    intro u k hk ho hn he
    obtain ⟨slot, hs, _, hfree⟩ := hnewowner hn
    obtain ⟨slot', hs', hclaimed⟩ := hi.owner u k hk ho
    rw [he, hs] at hs'
    rw [← Option.some.inj hs', hfree] at hclaimed
    cases hclaimed
  constructor
  · rw [hw]
    exact hi.world
  · intro u k hk
    rw [hl]
    rcases hcases hk with ⟨rfl, rfl⟩ | ⟨_, hk'⟩
    · exact ⟨fun hf => absurd (hholds.symm.trans hf) (by simp), fun hf => absurd hf hlock⟩
    · exact hi.lock u k hk'
  · intro u hu
    rw [hl] at hu
    rw [hh]
    by_cases hut : u = t
    · subst hut
      simp
    · rw [Function.update_of_ne hut]
      exact hi.holder u hu
  · intro u k hk
    rcases hcases hk with ⟨rfl, rfl⟩ | ⟨_, hk'⟩
    · exact hslot
    · exact hi.slot u k hk'
  · intro u k hk ho
    rcases hcases hk with ⟨rfl, rfl⟩ | ⟨_, hk'⟩
    · obtain ⟨slot, hs, hclaimed, _⟩ := hnewowner ho
      exact ⟨slot, hs, hclaimed⟩
    · obtain ⟨slot, hs, hclaimed⟩ := hi.owner u k hk' ho
      exact ⟨slot, hs, hold slot hclaimed⟩
  · intro u u' k k' hk hk' ho ho' he
    rcases hcases hk with ⟨rfl, rfl⟩ | ⟨_, hk₁⟩ <;> rcases hcases hk' with ⟨rfl, rfl⟩ | ⟨_, hk₂⟩
    · rfl
    · exact absurd he.symm (hfresh hk₂ ho' ho)
    · exact absurd he (hfresh hk₁ ho ho')
    · exact hi.unique u u' k k' hk₁ hk₂ ho ho' he
  · intro u k hk ho
    rcases hcases hk with ⟨rfl, rfl⟩ | ⟨_, hk'⟩
    · exact howns ho
    · exact hi.owns u k hk' ho
  · intro u k slot hk ho hs hpo
    rcases hcases hk with ⟨rfl, rfl⟩ | ⟨_, hk'⟩
    · simp only at hpo
      rw [hp] at hpo
      cases hpo
    · rw [hb, hw]
      exact hi.ended u k slot hk' ho hs hpo
  · intro hf
    rw [hb] at hf
    constructor
    · intro hidle
      rw [hin, hout]
      apply (hi.pipe hf).idle
      intro u k hk
      refine hidle u k ?_
      rw [hh, Function.update_of_ne]
      · exact hk
      · rintro rfl
        rw [hnew] at hk
        cases hk
    · intro u k job command hk hphase
      rcases hcases hk with ⟨rfl, rfl⟩ | ⟨_, hk'⟩
      · simp only at hphase
        rw [hphase] at hholds
        cases hholds
      · obtain ⟨slot, hs, hiss, hlen, hfl⟩ := (hi.pipe hf).busy u k job command hk' hphase
        refine ⟨slot, hs, hiss, hlen, ?_⟩
        rw [InFlight, hin, hout, hex, hw]
        exact hfl

theorem ServiceInv.step {e : ServiceEvent} (hi : ServiceInv config w₀ s)
    (hs : ServiceStep config s e s') : ServiceInv config w₀ s' := by
  cases serviceStep_change hs with
  | turnedAway => exact hi
  | @joined t h p hnew hslot howned hp =>
    rcases hp with rfl | ⟨data, rfl⟩
    · refine hi.join hnew rfl rfl rfl rfl rfl rfl rfl hslot rfl rfl (fun hf => by simp [Phase.owns] at hf)
        (fun _ hc => hc) ?_
      rw [howned]
      exact fun hf => by cases hf
    · refine hi.join hnew rfl rfl rfl rfl rfl rfl rfl hslot rfl rfl (fun hf => by cases hf)
        (fun _ hc => hc) ?_
      rw [howned]
      exact fun hf => by cases hf
  | @claimed t h slot hnew hslot hsome howned hbroken hfree =>
    refine hi.join hnew rfl rfl rfl rfl rfl rfl rfl hslot rfl rfl (fun _ => howned) ?_
      (fun _ => ⟨slot, hsome, Function.update_self .., hfree⟩)
    intro slot' hc
    show Function.update s.claimed slot true slot' = true
    by_cases he : slot' = slot
    · subst he
      exact Function.update_self ..
    · rw [Function.update_of_ne he]
      exact hc
  | @acquired t h job hwas hphase hlock =>
    have m : Moves s ({ s with lock := some t }.put t h (.ready job)) t h (.ready job) := by
      refine ⟨hwas, rfl, rfl, rfl, id, ⟨fun _ => rfl, fun _ => rfl⟩, ?_⟩
      intro u hu
      rw [hlock]
      exact ⟨fun hf => absurd (Option.some.inj hf).symm hu, fun hf => by cases hf⟩
    refine hi.move m ?_ (fun _ _ _ hf => by cases hf) ?_
    · intro ho
      refine hi.owns t h hwas ?_
      rw [hphase]
      exact ho
    · exact fun hb => (hi.pipe hb).still m (by rw [hphase]; rfl) rfl rfl rfl rfl
  | wrote hwas hphase hslot hbroken _ hlen hjob => exact hi.wrote hwas hphase hslot hbroken hlen hjob
  | @withdrew t h job reads hwas hphase =>
    have hi' : ServiceInv config w₀ { s with reads := reads } :=
      hi.worker rfl rfl rfl rfl ⟨[], .nil⟩ (fun hb => ⟨(hi.pipe hb).idle, (hi.pipe hb).busy⟩)
    exact hi'.raised hwas job (by rw [hphase]; rfl) (.inr (by rw [hphase]; rfl))
  | returned hwas hphase _ hlen => exact hi.returned hwas hphase hlen
  | @poisoned t h slot job command hwas hphase =>
    have hi' : ServiceInv config w₀ { s with stdout := s.stdout.drop 80, broken := true } :=
      hi.break rfl rfl rfl rfl rfl
    exact hi'.raised hwas job (by rw [hphase]; rfl) (.inl rfl)
  | @timedOut t h job command hwas hphase =>
    have hi' : ServiceInv config w₀ { s with broken := true } := hi.break rfl rfl rfl rfl rfl
    exact hi'.raised hwas job (by rw [hphase]; rfl) (.inl rfl)
  | @moved t h p hwas hfrom hover _ hholds hp _ howns =>
    have hlock := hi.free hwas hfrom
    have m : Moves s (s.put t h p) t h p := by
      refine ⟨hwas, rfl, rfl, rfl, id, ?_, fun _ _ => Iff.rfl⟩
      rw [hholds]
      exact ⟨fun hf => (by cases hf), fun hf => absurd hf hlock⟩
    refine hi.move m (fun ho => hi.owns t h hwas (howns ho)) ?_ ?_
    · intro _ _ _ hf
      rw [hp] at hf
      cases hf
    · exact fun hb => (hi.pipe hb).still m (holds_of_busy hfrom) (holds_of_busy hholds) rfl rfl rfl
  | wound hwas hfrom => exact hi.windDown hwas hfrom
  | @ended t h hwas hphase =>
    have hlock := hi.free hwas (by rw [hphase]; rfl)
    have m : Moves s ({ s with tasks := s.tasks.erase t }.put t h .ended) t h .ended :=
      ⟨hwas, rfl, rfl, rfl, id, ⟨fun hf => (by cases hf), fun hf => absurd hf hlock⟩, fun _ _ => Iff.rfl⟩
    refine hi.move m (fun hf => by cases hf) ?_ ?_
    · intro slot howned hslot _
      exact hi.ended t h slot hwas howned hslot (by rw [hphase]; rfl)
    · exact fun hb => (hi.pipe hb).still m (by rw [hphase]; rfl) rfl rfl rfl rfl
  | answered _ hlen hstep => exact hi.answered hlen hstep
  | crashed _ hlen _ => exact hi.crashed hlen
  | killed => exact hi.killed
  | reaped _ =>
    exact hi.worker rfl rfl rfl rfl ⟨[], .nil⟩ (fun hb => ⟨(hi.pipe hb).idle, (hi.pipe hb).busy⟩)
  | closed => exact hi.break rfl rfl rfl rfl rfl

theorem serviceInv_of_run {w : GameWorld} {τ : List ServiceEvent}
    (h : Runs.Steps (ServiceStep config) (Service.boot w) τ s) : ServiceInv config w s :=
  h.invariant (serviceInv_boot config w) (fun _ _ _ hi hs => hi.step hs)

end

end ArenaLab
