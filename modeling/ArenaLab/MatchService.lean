import ArenaLab.ServicePoison

/-! No client can poison the match service: every command is answered, every
answer is accepted, and it goes to the exchange that wrote the command. -/

namespace ArenaLab

/-- No I/O failure, timeout or cancellation. -/
def ServiceEvent.healthy : ServiceEvent → Bool
  | .timedOut _ => false
  | .killed => false
  | .closed => false
  | _ => true

def ServiceEvent.writing : ServiceEvent → Option (ℕ × List UInt8)
  | .wrote t _ _ command => some (t, command)
  | _ => none

def ServiceEvent.answering : ServiceEvent → Option (List UInt8 × List UInt8)
  | .answered command record => some (command, record)
  | _ => none

def ServiceEvent.returning : ServiceEvent → Option (ℕ × List UInt8 × List UInt8)
  | .returned t command record => some (t, command, record)
  | _ => none

/-- The service is whole: its worker runs, the clock is never behind the world,
and a command in the pipe is one that the worker answers. -/
structure Whole (config : ServiceConfig) (s : Service) : Prop where
  broken : s.broken = false
  returncode : s.returncode = false
  exited : s.exited = false
  clock : ∀ k, s.reads ≤ k → 0 ≤ config.clock k → (s.world.tick.toNat : ℤ) ≤ config.clock k
  flight : s.stdin ≠ [] → ∃ w record, hostStep s.world s.stdin = some (w, record) ∧
    ∀ k, s.reads ≤ k → 0 ≤ config.clock k → (w.tick.toNat : ℤ) ≤ config.clock k

section

variable {config : ServiceConfig} {id a b : Bytes 16} {w₀ : GameWorld} {s s' : Service} {t : ℕ} {h : Handler}
  {slot : Fin 2} {job : Job} {command : List UInt8} {e : ServiceEvent} {τ : List ServiceEvent}

/-- Every command that a job writes is answered, and the world's tick stays
behind every later reading of the clock. -/
theorem writes_answered {op : UInt8} {payload : List UInt8} {reads : ℕ}
    (hmono : ∀ i j, i ≤ j → config.clock i ≤ config.clock j)
    (hw : Whole config s) (hjob : s.Writes config job op payload reads) (slot : Fin 2) :
    ∃ w record, hostStep s.world (serviceCommand op slot payload) = some (w, record) ∧
      ∀ k, reads ≤ k → 0 ≤ config.clock k → (w.tick.toNat : ℤ) ≤ config.clock k := by
  cases job with
  | duplicate =>
    obtain ⟨rfl, rfl, rfl⟩ := hjob
    exact ⟨_, _, hostStep_status s.world slot, hw.clock⟩
  | hello =>
    obtain ⟨rfl, rfl, rfl⟩ := hjob
    exact ⟨_, _, hostStep_status s.world slot, hw.clock⟩
  | tick data left =>
    obtain ⟨rfl, rfl, hlow, hhigh, rfl⟩ := hjob
    have hnow := hw.clock s.reads (Nat.le_refl _) hlow
    have hmax : (config.clock s.reads).toNat < 2 ^ 64 := by omega
    obtain ⟨record, hstep⟩ := hostStep_tick (w := s.world) hmax (by omega) slot
    refine ⟨_, record, hstep, ?_⟩
    intro k hk _
    have hle := hmono _ _ (Nat.le_of_succ_le hk)
    show ((UInt64.ofNat (config.clock s.reads).toNat).toNat : ℤ) ≤ config.clock k
    rw [UInt64.toNat_ofNat_of_lt' hmax]
    omega
  | intent data left =>
    obtain ⟨rfl, rfl, rfl⟩ := hjob
    obtain ⟨w, record, hstep, htick⟩ := hostStep_intent s.world slot payload
    refine ⟨w, record, hstep, ?_⟩
    rw [htick]
    exact hw.clock
  | close =>
    obtain ⟨rfl, rfl, rfl⟩ := hjob
    obtain ⟨record, hstep⟩ := hostStep_close s.world slot
    refine ⟨_, record, hstep, ?_⟩
    rw [gameClose_tick]
    exact hw.clock

theorem record_accepted {w w' : GameWorld} {record : List UInt8} {σ : List GameEvent}
    (h₀ : gameInit id a b = some w₀) (hrun : Runs.Steps GameStep w₀ σ w')
    (hstep : hostStep w command = some (w', record)) : record.length = 80 ∧
    ∃ state, pyState record = .ok state ∧ state.player = (command.getD 1 0).toNat := by
  obtain ⟨_, slot, sequence, status, hslot, rfl⟩ := hostStep_spec hstep
  obtain ⟨hid, hses⟩ := ids_of_run h₀ hrun
  refine ⟨length_reply w' slot sequence status, _,
    pyState_reply slot sequence status (gameRules_of_run h₀ hrun) hid (hses slot), ?_⟩
  rw [hslot]
  rfl

theorem issues_slot (h : job.Issues slot command) : (command.getD 1 0).toNat = slot := by
  cases job with
  | duplicate =>
    rw [show command = serviceCommand 4 slot noPayload from h]
    exact serviceCommand_slot _ _ _
  | hello =>
    rw [show command = serviceCommand 4 slot noPayload from h]
    exact serviceCommand_slot _ _ _
  | tick payload left =>
    obtain ⟨tick, _, rfl⟩ := h
    exact serviceCommand_slot _ _ _
  | intent payload left =>
    rw [show command = serviceCommand 1 slot payload from h]
    exact serviceCommand_slot _ _ _
  | close =>
    rw [show command = serviceCommand 3 slot noPayload from h]
    exact serviceCommand_slot _ _ _

theorem writes_reads {op : UInt8} {payload : List UInt8} {reads : ℕ}
    (h : s.Writes config job op payload reads) : s.reads ≤ reads := by
  cases job with
  | tick data left =>
    obtain ⟨_, rfl, _⟩ := h
    exact Nat.le_succ _
  | _ =>
    obtain ⟨_, _, rfl⟩ := h
    exact Nat.le_refl _

theorem gameInit_tick (h : gameInit id a b = some w₀) : w₀.tick = 0 := by
  simp only [gameInit] at h
  split at h
  · cases h
  · rw [← Option.some.inj h]

theorem whole_boot (config : ServiceConfig) (h₀ : gameInit id a b = some w₀) :
    Whole config (Service.boot w₀) := by
  refine ⟨rfl, rfl, rfl, ?_, fun hf => absurd rfl hf⟩
  intro k _ hk
  have hzero : w₀.tick = 0 := gameInit_tick h₀
  show (w₀.tick.toNat : ℤ) ≤ config.clock k
  rw [hzero]
  exact hk

theorem Whole.same (hw : Whole config s) (hb : s'.broken = s.broken) (hc : s'.returncode = s.returncode)
    (hx : s'.exited = s.exited) (hg : s'.world = s.world) (hin : s'.stdin = s.stdin)
    (hr : s.reads ≤ s'.reads) : Whole config s' := by
  refine ⟨hb.trans hw.broken, hc.trans hw.returncode, hx.trans hw.exited, ?_, ?_⟩
  · intro k hk
    rw [hg]
    exact hw.clock k (hr.trans hk)
  · rw [hin, hg]
    intro hne
    obtain ⟨w, record, hstep, hclock⟩ := hw.flight hne
    exact ⟨w, record, hstep, fun k hk => hclock k (hr.trans hk)⟩

theorem Whole.serves (hw : Whole config s) (hi : ServiceInv config w₀ s) (hlen : 50 ≤ s.stdin.length) :
    s.stdin.take 50 = s.stdin ∧ s.stdin.drop 50 = [] ∧ ∃ w record,
      hostStep s.world (s.stdin.take 50) = some (w, record) ∧
      ∀ k, s.reads ≤ k → 0 ≤ config.clock k → (w.tick.toNat : ℤ) ≤ config.clock k := by
  have hdrop := ((hi.pipe hw.broken).loaded hlen).1
  have htake : s.stdin.take 50 = s.stdin := by
    have hsplit := List.take_append_drop 50 s.stdin
    rw [hdrop, List.append_nil] at hsplit
    exact hsplit
  have hne : s.stdin ≠ [] := by
    intro hf
    simp [hf] at hlen
  refine ⟨htake, hdrop, ?_⟩
  rw [htake]
  exact hw.flight hne

theorem Whole.step (hmono : ∀ i j, i ≤ j → config.clock i ≤ config.clock j) (h₀ : gameInit id a b = some w₀)
    (hi : ServiceInv config w₀ s) (hw : Whole config s) (hs : ServiceStep config s e s')
    (hhealthy : e.healthy = true) : Whole config s' ∧ e ≠ .crashed ∧ ∀ t, e ≠ .poisoned t := by
  cases serviceStep_change hs with
  | turnedAway => exact ⟨hw, by simp, by simp⟩
  | joined => exact ⟨hw.same rfl rfl rfl rfl rfl (Nat.le_refl _), by simp, by simp⟩
  | claimed => exact ⟨hw.same rfl rfl rfl rfl rfl (Nat.le_refl _), by simp, by simp⟩
  | acquired => exact ⟨hw.same rfl rfl rfl rfl rfl (Nat.le_refl _), by simp, by simp⟩
  | @wrote t h slot job op payload reads hwas hphase hslot hbroken hcode hlen hjob =>
    have hempty := (hi.empty hbroken hwas (by rw [hphase]; rfl) (by rw [hphase]; rfl)).1
    have hreads : s.reads ≤ reads := writes_reads hjob
    refine ⟨⟨hw.broken, hw.returncode, hw.exited, fun k hk => hw.clock k (hreads.trans hk), ?_⟩,
      by simp, by simp⟩
    intro _
    show ∃ w record, hostStep s.world (s.stdin ++ serviceCommand op slot payload) = some (w, record) ∧ _
    rw [hempty, List.nil_append]
    exact writes_answered hmono hw hjob slot
  | @withdrew t h job reads hwas hphase hreads hclose =>
    have hjob : job ≠ .close := by
      intro hf
      rcases hclose hf with hb | hc
      · rw [hw.broken] at hb
        cases hb
      · rw [hw.returncode] at hc
        cases hc
    obtain ⟨connected, he⟩ := raised_eq { s with reads := reads } t h hjob
    rw [he]
    exact ⟨hw.same rfl rfl rfl rfl rfl hreads, by simp, by simp⟩
  | @returned t h slot job command state hwas hphase hslot hlen =>
    refine ⟨?_, by simp, by simp⟩
    cases job <;> exact hw.same rfl rfl rfl rfl rfl (Nat.le_refl _)
  | @poisoned t h slot job command hwas hphase hslot hlen hbad =>
    obtain ⟨slot', w, hs', hiss, _, h80, hstep⟩ := hi.settled hw.broken hwas hphase hlen
    obtain rfl : slot = slot' := Option.some.inj (hslot.symm.trans hs')
    obtain ⟨σ, hσ⟩ := hi.world
    obtain ⟨_, state, hstate, hplayer⟩ := record_accepted h₀ hσ hstep
    refine absurd ?_ (hbad state ?_)
    · rw [hplayer, issues_slot hiss]
    · rw [List.take_of_length_le (Nat.le_of_eq h80)]
      exact hstate
  | timedOut => cases hhealthy
  | moved => exact ⟨hw.same rfl rfl rfl rfl rfl (Nat.le_refl _), by simp, by simp⟩
  | @wound t h =>
    obtain ⟨connected, he⟩ := windDown_eq s t h
    rw [he]
    exact ⟨hw.same rfl rfl rfl rfl rfl (Nat.le_refl _), by simp, by simp⟩
  | ended => exact ⟨hw.same rfl rfl rfl rfl rfl (Nat.le_refl _), by simp, by simp⟩
  | @answered world record hexited hlen hstep =>
    obtain ⟨_, hdrop, w, record', hstep', hclock⟩ := hw.serves hi hlen
    rw [hstep'] at hstep
    obtain ⟨rfl, _⟩ := Prod.mk.inj (Option.some.inj hstep)
    exact ⟨⟨hw.broken, hw.returncode, hw.exited, hclock, fun hf => absurd hdrop hf⟩, by simp, by simp⟩
  | crashed hexited hlen hstep =>
    obtain ⟨_, _, w, record', hstep', _⟩ := hw.serves hi hlen
    rw [hstep'] at hstep
    cases hstep
  | killed => cases hhealthy
  | reaped hexited =>
    rw [hw.exited] at hexited
    cases hexited
  | closed => cases hhealthy

/-- The commands of a run, each with the handler that wrote it. -/
def written (τ : List ServiceEvent) : List (ℕ × List UInt8) := τ.filterMap ServiceEvent.writing

/-- The commands that the worker answered, with its records. -/
def answers (τ : List ServiceEvent) : List (List UInt8 × List UInt8) :=
  τ.filterMap ServiceEvent.answering

/-- What the exchanges returned, each with its handler and its command. -/
def returns (τ : List ServiceEvent) : List (ℕ × List UInt8 × List UInt8) :=
  τ.filterMap ServiceEvent.returning

theorem written_snoc (τ : List ServiceEvent) (e : ServiceEvent) :
    written (τ ++ [e]) = written τ ++ e.writing.toList := by
  rw [written, List.filterMap_append]
  cases he : e.writing <;> simp [written, he]

theorem answers_snoc (τ : List ServiceEvent) (e : ServiceEvent) :
    answers (τ ++ [e]) = answers τ ++ e.answering.toList := by
  rw [answers, List.filterMap_append]
  cases he : e.answering <;> simp [answers, he]

theorem returns_snoc (τ : List ServiceEvent) (e : ServiceEvent) :
    returns (τ ++ [e]) = returns τ ++ e.returning.toList := by
  rw [returns, List.filterMap_append]
  cases he : e.returning <;> simp [returns, he]

/-- Every reply so far went to the exchange that wrote its command, in the order
of the writes, and at most one command is still without its reply. -/
structure Paired (τ : List ServiceEvent) (s : Service) : Prop where
  idle : (∀ t job command, ¬s.Busy t job command) →
    written τ = (returns τ).map (fun r => (r.1, r.2.1)) ∧
    answers τ = (returns τ).map (fun r => r.2)
  busy : ∀ t job command, s.Busy t job command →
    written τ = (returns τ).map (fun r => (r.1, r.2.1)) ++ [(t, command)] ∧
    (s.stdin = command ∧ answers τ = (returns τ).map (fun r => r.2) ∨
      s.stdin = [] ∧
        answers τ = (returns τ).map (fun r => r.2) ++ [(command, s.stdout)])

theorem quiet_pipes (hc : ServiceChange config s e s') (hquiet : e.exchanges = false)
    (hans : e.answering = none) (hcrash : e ≠ .crashed) : s'.stdin = s.stdin ∧ s'.stdout = s.stdout := by
  cases hc with
  | wrote => cases hquiet
  | @withdrew t h job reads =>
    by_cases hjob : job = .close
    · subst hjob
      exact ⟨rfl, rfl⟩
    · obtain ⟨connected, he⟩ := raised_eq { s with reads := reads } t h hjob
      rw [he]
      exact ⟨rfl, rfl⟩
  | returned => cases hquiet
  | poisoned => cases hquiet
  | timedOut => cases hquiet
  | @wound t h =>
    obtain ⟨connected, he⟩ := windDown_eq s t h
    rw [he]
    exact ⟨rfl, rfl⟩
  | answered => cases hans
  | crashed => exact absurd rfl hcrash
  | _ => exact ⟨rfl, rfl⟩

theorem Paired.quiet (hp : Paired τ s) (hc : ServiceChange config s e s') (hquiet : e.exchanges = false)
    (hans : e.answering = none) (hcrash : e ≠ .crashed) : Paired (τ ++ [e]) s' := by
  obtain ⟨hin, hout⟩ := quiet_pipes hc hquiet hans hcrash
  have hwriting : e.writing = none := by
    cases e <;> first | rfl | cases hquiet
  have hreturning : e.returning = none := by
    cases e <;> first | rfl | cases hquiet
  have hbusy := busy_quiet hc hquiet
  constructor
  · intro hidle
    simp only [written_snoc, answers_snoc, returns_snoc, hwriting, hans, hreturning, Option.toList_none,
      List.append_nil]
    exact hp.idle (fun t job command hf => hidle t job command ((hbusy t job command).mpr hf))
  · intro t job command hf
    simp only [written_snoc, answers_snoc, returns_snoc, hwriting, hans, hreturning, Option.toList_none,
      List.append_nil, hin, hout]
    exact hp.busy t job command ((hbusy t job command).mp hf)

theorem ServiceInv.only (hi : ServiceInv config w₀ s) (hwas : s.handlers t = some h)
    (hholds : h.phase.holds = true) {u : ℕ} {job : Job} {command : List UInt8}
    (hf : s.Busy u job command) : u = t := by
  obtain ⟨k, hk, hphase⟩ := hf
  exact hi.alone hwas hholds hk (by rw [hphase]; rfl)

theorem Paired.wrote {op : UInt8} {payload : List UInt8} {reads : ℕ} (hp : Paired τ s)
    (hi : ServiceInv config w₀ s) (hbroken : s.broken = false) (hwas : s.handlers t = some h)
    (hphase : h.phase = .ready job) :
    Paired (τ ++ [.wrote t op slot (serviceCommand op slot payload)]) ({ s with
      reads := reads
      stdin := s.stdin ++ serviceCommand op slot payload }.put t h
        (.exchanging job (serviceCommand op slot payload))) := by
  have hholds : h.phase.holds = true := by
    rw [hphase]
    rfl
  have hempty := (hi.empty hbroken hwas hholds (by rw [hphase]; rfl)).1
  have hidle : ∀ u job' command, ¬s.Busy u job' command := by
    intro u job' command hf
    obtain rfl := hi.only hwas hholds hf
    obtain ⟨k, hk, hexch⟩ := hf
    rw [hwas] at hk
    rw [← Option.some.inj hk, hphase] at hexch
    cases hexch
  obtain ⟨hwrites, hanswers⟩ := hp.idle hidle
  constructor
  · intro hnone
    exact absurd ⟨_, Function.update_self .., rfl⟩ (hnone t job (serviceCommand op slot payload))
  · rintro u job' command ⟨k, hk, hexch⟩
    change Function.update s.handlers t _ u = some k at hk
    by_cases hu : u = t
    · subst hu
      rw [Function.update_self] at hk
      obtain rfl := Option.some.inj hk
      simp only [Phase.exchanging.injEq] at hexch
      obtain ⟨rfl, rfl⟩ := hexch
      simp only [written_snoc, answers_snoc, returns_snoc, hwrites, hanswers]
      refine ⟨by simp [ServiceEvent.writing, ServiceEvent.returning], .inl ⟨?_, ?_⟩⟩
      · show s.stdin ++ serviceCommand op slot payload = serviceCommand op slot payload
        rw [hempty, List.nil_append]
      · simp [ServiceEvent.answering, ServiceEvent.returning]
    · rw [Function.update_of_ne hu] at hk
      exact absurd ⟨k, hk, hexch⟩ (hidle u job' command)

theorem resume_handlers (s : Service) (t : ℕ) (h : Handler) (slot : Fin 2) (job : Job)
    (record : List UInt8) (state : GameState) : ∃ p : Phase, p.busy = false ∧
      (job = .close → p = .closing) ∧ (s.resume t h slot job record state).handlers =
        Function.update s.handlers t (some { h with phase := p }) := by
  cases job
  · exact ⟨.sending _ .stop, rfl, fun hf => (by cases hf), rfl⟩
  · exact ⟨.sending _ (.loop 256), rfl, fun hf => (by cases hf), rfl⟩
  · exact ⟨.ready (.intent _ _), rfl, fun hf => (by cases hf), rfl⟩
  · exact ⟨.sending _ (.loop _), rfl, fun hf => (by cases hf), rfl⟩
  · exact ⟨.closing, rfl, fun _ => rfl, rfl⟩

theorem Paired.returned {state : GameState} (hp : Paired τ s) (hi : ServiceInv config w₀ s)
    (hbroken : s.broken = false) (hwas : s.handlers t = some h)
    (hphase : h.phase = .exchanging job command) (hlen : 80 ≤ s.stdout.length) :
    Paired (τ ++ [.returned t command (s.stdout.take 80)])
      ({ s with stdout := s.stdout.drop 80 }.resume t h slot job (s.stdout.take 80) state) := by
  have hholds : h.phase.holds = true := by
    rw [hphase]
    rfl
  obtain ⟨_, _, _, _, hin, h80, _⟩ := hi.settled hbroken hwas hphase hlen
  obtain ⟨_, _, _, h50, _⟩ := (hi.pipe hbroken).busy t h job command hwas hphase
  obtain ⟨hwrites, hpend⟩ := hp.busy t job command ⟨h, hwas, hphase⟩
  have hanswers : answers τ =
      (returns τ).map (fun r => r.2) ++ [(command, s.stdout)] := by
    rcases hpend with ⟨hf, _⟩ | ⟨_, ha⟩
    · rw [← hf, hin] at h50
      cases h50
    · exact ha
  have hidle : ∀ u job' command',
      ¬({ s with stdout := s.stdout.drop 80 }.resume t h slot job (s.stdout.take 80) state).Busy
        u job' command' := by
    rintro u job' command' ⟨k, hk, hexch⟩
    obtain ⟨p, hbusy, _, hput⟩ := resume_handlers { s with stdout := s.stdout.drop 80 } t h slot job
      (s.stdout.take 80) state
    rw [hput] at hk
    by_cases hu : u = t
    · subst hu
      rw [Function.update_self] at hk
      rw [← Option.some.inj hk] at hexch
      simp only at hexch
      rw [hexch] at hbusy
      cases hbusy
    · rw [Function.update_of_ne hu] at hk
      exact hu (hi.only hwas hholds ⟨k, hk, hexch⟩)
  refine ⟨fun _ => ?_, fun u job' command' hf => absurd hf (hidle u job' command')⟩
  rw [List.take_of_length_le (Nat.le_of_eq h80)]
  simp only [written_snoc, answers_snoc, returns_snoc, hwrites, hanswers]
  simp [ServiceEvent.writing, ServiceEvent.answering, ServiceEvent.returning]

theorem Paired.answered {world : GameWorld} {record : List UInt8} (hp : Paired τ s)
    (hi : ServiceInv config w₀ s) (hw : Whole config s) (hlen : 50 ≤ s.stdin.length) :
    Paired (τ ++ [.answered (s.stdin.take 50) record])
      { s with stdin := s.stdin.drop 50, world := world, stdout := s.stdout ++ record } := by
  obtain ⟨htake, hdrop, _⟩ := hw.serves hi hlen
  obtain ⟨_, hout, hcmd⟩ := (hi.pipe hw.broken).loaded hlen
  constructor
  · intro hidle
    have hempty := ((hi.pipe hw.broken).idle ?_).1
    · simp [hempty] at hlen
    · intro u k hk
      cases hphase : k.phase with
      | exchanging job command => exact absurd ⟨k, hk, hphase⟩ (hidle u job command)
      | _ => rfl
  · rintro u job command ⟨k, hk, hphase⟩
    obtain ⟨_, _, _, h50, hin⟩ := hcmd u k job command hk hphase
    obtain ⟨hwrites, hpend⟩ := hp.busy u job command ⟨k, hk, hphase⟩
    have hanswers : answers τ = (returns τ).map (fun r => r.2) := by
      rcases hpend with ⟨_, ha⟩ | ⟨hf, _⟩
      · exact ha
      · rw [hf] at hlen
        simp at hlen
    rw [htake]
    simp only [written_snoc, answers_snoc, returns_snoc, hwrites, hanswers, hout, hin]
    refine ⟨?_, .inr ⟨hin ▸ hdrop, ?_⟩⟩
    · simp [ServiceEvent.writing, ServiceEvent.returning]
    · simp [ServiceEvent.answering, ServiceEvent.returning]

theorem Paired.step (hp : Paired τ s) (hi : ServiceInv config w₀ s) (hw : Whole config s)
    (hs : ServiceStep config s e s') (hhealthy : e.healthy = true) (hcrash : e ≠ .crashed)
    (hpois : ∀ t, e ≠ .poisoned t) : Paired (τ ++ [e]) s' := by
  have hc := serviceStep_change hs
  by_cases hquiet : e.exchanges = false ∧ e.answering = none
  · exact hp.quiet hc hquiet.1 hquiet.2 hcrash
  · cases hc with
    | wrote hwas hphase => exact hp.wrote hi hw.broken hwas hphase
    | returned hwas hphase _ hlen => exact hp.returned hi hw.broken hwas hphase hlen
    | answered _ hlen => exact hp.answered hi hw hlen
    | poisoned => exact absurd rfl (hpois _)
    | timedOut => cases hhealthy
    | _ => exact absurd ⟨rfl, rfl⟩ hquiet

theorem exchange_step (h₀ : gameInit id a b = some w₀) (hi : ServiceInv config w₀ s)
    (hs : ServiceStep config s e s') :
    (∀ t op (slot : Fin 2) command, e = .wrote t op slot command →
      command.length = 50 ∧ (command.getD 1 0).toNat = (slot : ℕ)) ∧
    ∀ command record, e = .answered command record → record.length = 80 ∧
      ∃ state, pyState record = .ok state ∧ state.player = (command.getD 1 0).toNat := by
  have hi' := hi.step hs
  cases serviceStep_change hs with
  | wrote _ _ _ _ _ hlen =>
    refine ⟨?_, fun _ _ he => (by cases he)⟩
    intro t op slot command he
    cases he
    exact ⟨by simp [serviceCommand, hlen], serviceCommand_slot _ _ _⟩
  | answered _ _ hstep =>
    refine ⟨fun _ _ _ _ he => (by cases he), ?_⟩
    intro command record he
    cases he
    obtain ⟨σ, hσ⟩ := hi'.world
    exact record_accepted h₀ hσ hstep
  | _ => exact ⟨fun _ _ _ _ he => (by cases he), fun _ _ he => (by cases he)⟩

theorem exchanges_of_run (h₀ : gameInit id a b = some w₀)
    (hr : Runs.Steps (ServiceStep config) (Service.boot w₀) τ s) :
    (∀ t op (slot : Fin 2) command, .wrote t op slot command ∈ τ →
      command.length = 50 ∧ (command.getD 1 0).toNat = (slot : ℕ)) ∧
    ∀ command record, .answered command record ∈ τ → record.length = 80 ∧
      ∃ state, pyState record = .ok state ∧ state.player = (command.getD 1 0).toNat := by
  have hmem : ∀ e ∈ τ, ∃ m m', ServiceInv config w₀ m ∧ ServiceStep config m e m' := by
    intro e he
    obtain ⟨pre, post, rfl⟩ := List.append_of_mem he
    obtain ⟨m, m', hm, hs, _⟩ := hr.of_split
    exact ⟨m, m', serviceInv_of_run hm, hs⟩
  constructor
  · intro t op slot command he
    obtain ⟨m, m', hi, hs⟩ := hmem _ he
    exact (exchange_step h₀ hi hs).1 t op slot command rfl
  · intro command record he
    obtain ⟨m, m', hi, hs⟩ := hmem _ he
    exact (exchange_step h₀ hi hs).2 command record rfl

theorem whole_of_run (h₀ : gameInit id a b = some w₀) (hmono : ∀ i j, i ≤ j → config.clock i ≤ config.clock j)
    (hr : Runs.Steps (ServiceStep config) (Service.boot w₀) τ s) (hhealthy : ∀ e ∈ τ, e.healthy = true) :
    Whole config s ∧ Paired τ s ∧ .crashed ∉ τ ∧ ∀ t, .poisoned t ∉ τ := by
  revert hhealthy
  refine hr.history (I := fun τ s => (∀ e ∈ τ, e.healthy = true) →
    Whole config s ∧ Paired τ s ∧ .crashed ∉ τ ∧ ∀ t, .poisoned t ∉ τ) ?_ ?_
  · intro _
    refine ⟨whole_boot config h₀, ⟨fun _ => ⟨rfl, rfl⟩, ?_⟩, by simp, by simp⟩
    rintro t job command ⟨k, hk, _⟩
    cases hk
  · intro τ s e s' hτ ih hs hall
    have hi := serviceInv_of_run hτ
    obtain ⟨hw, hp, hcrash, hpois⟩ := ih (fun e he => hall e (List.mem_append_left _ he))
    have hhealthy := hall e (by simp)
    obtain ⟨hw', hc, hq⟩ := hw.step hmono h₀ hi hs hhealthy
    refine ⟨hw', hp.step hi hw hs hhealthy hc hq, ?_, ?_⟩
    · rw [List.mem_append, List.mem_singleton, not_or]
      exact ⟨hcrash, fun he => hc he.symm⟩
    · intro t
      rw [List.mem_append, List.mem_singleton, not_or]
      exact ⟨hpois t, fun he => hq t he.symm⟩

theorem Whole.pending (hw : Whole config s) (hi : ServiceInv config w₀ s) (hne : s.stdin ≠ []) :
    ∃ record s', serviceNext config s .serve = some (.answered s.stdin record, s') ∧
      record.length = 80 := by
  have hlen : 50 ≤ s.stdin.length := by
    by_contra hf
    refine hne ((hi.pipe hw.broken).idle ?_).1
    intro t h ht
    cases hphase : h.phase with
    | exchanging job command =>
      obtain ⟨_, _, _, h50, hfl⟩ := (hi.pipe hw.broken).busy t h job command ht hphase
      rcases hfl with ⟨hin, _⟩ | ⟨hin, _⟩
      · rw [hin] at hf
        omega
      · exact absurd hin hne
    | _ => rfl
  obtain ⟨htake, _, w, record, hstep, _⟩ := hw.serves hi hlen
  obtain ⟨_, _, _, _, _, hrec⟩ := hostStep_spec hstep
  refine ⟨record, { s with stdin := s.stdin.drop 50, world := w, stdout := s.stdout ++ record }, ?_, ?_⟩
  · rw [htake] at hstep
    simp only [serviceNext, Service.serve, hw.exited, htake, hstep]
    rw [if_neg (by simpa using hlen)]
  · rw [hrec]
    exact length_reply _ _ _ _

theorem Paired.order (hp : Paired τ s) :
    (returns τ).map (fun r => (r.1, r.2.1)) <+: written τ ∧ (returns τ).map (fun r => r.2) <+: answers τ ∧
    (answers τ).map (fun x => x.1) <+: (written τ).map (fun x => x.2) ∧
    (written τ).length ≤ (returns τ).length + 1 := by
  by_cases hbusy : ∃ t job command, s.Busy t job command
  · obtain ⟨t, job, command, hb⟩ := hbusy
    obtain ⟨hwrites, ⟨_, hanswers⟩ | ⟨_, hanswers⟩⟩ := hp.busy t job command hb
    · rw [hwrites, hanswers]
      refine ⟨List.prefix_append _ _, List.prefix_rfl, ?_, by simp⟩
      rw [List.map_append, List.map_map, List.map_map]
      exact List.prefix_append _ _
    · rw [hwrites, hanswers]
      refine ⟨List.prefix_append _ _, List.prefix_append _ _, ?_, by simp⟩
      rw [List.map_append, List.map_append, List.map_map, List.map_map]
      exact List.prefix_rfl
  · obtain ⟨hwrites, hanswers⟩ := hp.idle (fun t job command hf => hbusy ⟨t, job, command, hf⟩)
    rw [hwrites, hanswers]
    refine ⟨List.prefix_rfl, List.prefix_rfl, ?_, by simp⟩
    rw [List.map_map, List.map_map]
    exact List.prefix_rfl

/-- In a run without I/O failure, timeout or cancellation the service stays
whole: every command is answered by one record that the service accepts, and
the replies are returned in the order of the commands, each to its own
exchange. After a failed exchange none writes or reads again. -/
theorem match_service_unpoisoned (h₀ : gameInit id a b = some w₀)
    (hmono : ∀ i j, i ≤ j → config.clock i ≤ config.clock j)
    (hr : Runs.Steps (ServiceStep config) (Service.boot w₀) τ s) :
    ((∀ e ∈ τ, e.healthy = true) →
      s.broken = false ∧ s.exited = false ∧ .crashed ∉ τ ∧ (∀ t, .poisoned t ∉ τ) ∧
      (∀ t op (slot : Fin 2) command, .wrote t op slot command ∈ τ →
        command.length = 50 ∧ (command.getD 1 0).toNat = (slot : ℕ)) ∧
      (∀ command record, .answered command record ∈ τ → record.length = 80 ∧
        ∃ state, pyState record = .ok state ∧ state.player = (command.getD 1 0).toNat) ∧
      (s.stdin ≠ [] → ∃ record s', serviceNext config s .serve = some (.answered s.stdin record, s') ∧
        record.length = 80) ∧
      (returns τ).map (fun r => (r.1, r.2.1)) <+: written τ ∧ (returns τ).map (fun r => r.2) <+: answers τ ∧
      (answers τ).map (fun x => x.1) <+: (written τ).map (fun x => x.2) ∧
      (written τ).length ≤ (returns τ).length + 1) ∧
    ∀ pre e post, τ = pre ++ e :: post → (∃ t, e = .poisoned t) ∨ (∃ t, e = .timedOut t) →
      ∀ e' ∈ post, e'.exchanges = false := by
  refine ⟨?_, ?_⟩
  · intro hhealthy
    have hi := serviceInv_of_run hr
    obtain ⟨hw, hp, hcrash, hpois⟩ := whole_of_run h₀ hmono hr hhealthy
    obtain ⟨hwrote, hanswered⟩ := exchanges_of_run h₀ hr
    exact ⟨hw.broken, hw.exited, hcrash, hpois, hwrote, hanswered, hw.pending hi, hp.order⟩
  · rintro pre e post rfl he e' he'
    obtain ⟨m, m', hm, hs, hpost⟩ := hr.of_split
    have hpois := poisoned_of_failure (serviceInv_of_run hm) hs he
    exact (poisoned_run hpois hpost).2 e' he'

end

def sampleFingerprint (data : List UInt8) : Bytes 32 :=
  if data = [0x61] then
    #v[0xca, 0x97, 0x81, 0x12, 0xca, 0x1b, 0xbd, 0xca, 0xfa, 0xc2, 0x31, 0xb3, 0x9a, 0x23, 0xdc, 0x4d,
      0xa7, 0x86, 0xef, 0xf8, 0x14, 0x7c, 0x4e, 0x72, 0xb9, 0x80, 0x77, 0x85, 0xaf, 0xee, 0x48, 0xbb]
  else
    #v[0xba, 0x78, 0x16, 0xbf, 0x8f, 0x01, 0xcf, 0xea, 0x41, 0x41, 0x40, 0xde, 0x5d, 0xae, 0x22, 0x23,
      0xb0, 0x03, 0x61, 0xa3, 0x96, 0x17, 0x7a, 0x9c, 0xb4, 0x10, 0xff, 0x61, 0xf2, 0x00, 0x15, 0xad]

def sampleServiceConfig : ServiceConfig where
  identities := fun i => sampleFingerprint (if i = 0 then [0x61, 0x62, 0x63] else [0x61])
  distinct := by decide
  sha256 := sampleFingerprint
  clock := fun n => 3 * n

def sampleServiceActions : List ServiceAction :=
  [.connect 0 (some [0x61, 0x62, 0x63]), .connect 1 (some [0x61]), .acquire 0, .write 0, .serve, .reply 0,
    .sent 0, .acquire 1, .write 1, .serve, .reply 1, .frame 0 noPayload, .acquire 0, .write 0, .serve,
    .reply 0, .write 0, .serve, .reply 0]

theorem sampleService_run :
    ∃ τ s, Runs.Steps (ServiceStep sampleServiceConfig) (Service.boot sampleWorld) τ s ∧
    (∀ e ∈ τ, e.healthy = true) ∧ (returns τ).map (fun r => r.1) = [0, 1, 0, 0] := by
  have hrun : ((Runs.exec (serviceNext sampleServiceConfig) (Service.boot sampleWorld)
      sampleServiceActions).map (fun r => (r.1.all ServiceEvent.healthy, (returns r.1).map (fun x => x.1)))) =
      some (true, [0, 1, 0, 0]) := by decide +kernel
  obtain ⟨⟨τ, s⟩, he, hall⟩ := Option.map_eq_some_iff.mp hrun
  obtain ⟨hhealthy, hreturns⟩ := Prod.mk.inj hall
  exact ⟨τ, s, Runs.exec_steps he, List.all_eq_true.mp hhealthy, hreturns⟩

theorem match_service_unpoisoned_sample :
    ∃ τ s, Runs.Steps (ServiceStep sampleServiceConfig) (Service.boot sampleWorld) τ s ∧
      (returns τ).map (fun r => r.1) = [0, 1, 0, 0] ∧ s.broken = false := by
  obtain ⟨τ, s, hr, hhealthy, hreturns⟩ := sampleService_run
  have hmono : ∀ i j, i ≤ j → sampleServiceConfig.clock i ≤ sampleServiceConfig.clock j := by
    intro m n hmn
    show (3 * (m : ℤ)) ≤ 3 * n
    omega
  exact ⟨τ, s, hr, hreturns, ((match_service_unpoisoned sampleWorld_init hmono hr).1 hhealthy).1⟩

end ArenaLab
