import ArenaLab.GameService

/-! What one step of the match service can do, said once for every action. -/

namespace ArenaLab

def Phase.holds : Phase → Bool
  | .ready _ => true
  | .exchanging _ _ => true
  | _ => false

def Phase.busy : Phase → Bool
  | .exchanging _ _ => true
  | _ => false

/-- Only the owner of a slot gets here. -/
def Phase.owns : Phase → Bool
  | .sending _ (.loop _) => true
  | .reading _ => true
  | .acquiring job => job ≠ .duplicate
  | .ready job => job ≠ .duplicate
  | .exchanging job _ => job ≠ .duplicate
  | _ => false

/-- The handler is past its close command. -/
def Phase.over : Phase → Bool
  | .closing => true
  | .ended => true
  | _ => false

/-- The operation and the payload that a job writes; an intent's tick is read
from the clock first. -/
def Service.Writes (config : ServiceConfig) (s : Service) (job : Job) (op : UInt8)
    (payload : List UInt8) (reads : ℕ) : Prop :=
  match job with
  | .duplicate => op = 4 ∧ payload = noPayload ∧ reads = s.reads
  | .hello => op = 4 ∧ payload = noPayload ∧ reads = s.reads
  | .tick _ _ => op = 2 ∧ reads = s.reads + 1 ∧ 0 ≤ config.clock s.reads ∧
      config.clock s.reads < 18446744073709551616 ∧ payload = tickPayload (config.clock s.reads).toNat
  | .intent data _ => op = 1 ∧ payload = data ∧ reads = s.reads
  | .close => op = 3 ∧ payload = noPayload ∧ reads = s.reads

inductive ServiceChange (config : ServiceConfig) (s : Service) : ServiceEvent → Service → Prop
  | turnedAway : ServiceChange config s .silent s
  | joined {t : ℕ} {h : Handler} {p : Phase} (hnew : s.handlers t = none)
      (hslot : h.slot = config.slotOf h.cert) (howned : h.owned = false)
      (hp : p = .acquiring .duplicate ∨ ∃ data, p = .sending data .stop) :
      ServiceChange config s .silent ({ s with tasks := t :: s.tasks }.put t h p)
  | claimed {t : ℕ} {h : Handler} {slot : Fin 2} (hnew : s.handlers t = none)
      (hslot : h.slot = config.slotOf h.cert) (hsome : h.slot = some slot) (howned : h.owned = true)
      (hbroken : s.broken = false) (hfree : s.claimed slot = false) :
      ServiceChange config s (.claimed t slot)
        ({ s with
          tasks := t :: s.tasks
          claimed := Function.update s.claimed slot true
          connected := Function.update s.connected slot true }.put t h (.acquiring .hello))
  | acquired {t : ℕ} {h : Handler} {job : Job} (hwas : s.handlers t = some h)
      (hphase : h.phase = .acquiring job) (hlock : s.lock = none) :
      ServiceChange config s .silent ({ s with lock := some t }.put t h (.ready job))
  | wrote {t : ℕ} {h : Handler} {slot : Fin 2} {job : Job} {op : UInt8} {payload : List UInt8} {reads : ℕ}
      (hwas : s.handlers t = some h) (hphase : h.phase = .ready job) (hslot : h.slot = some slot)
      (hbroken : s.broken = false) (hcode : s.returncode = false) (hlen : payload.length = 48)
      (hjob : s.Writes config job op payload reads) :
      ServiceChange config s (.wrote t op slot (serviceCommand op slot payload))
        ({ s with
          reads := reads
          stdin := s.stdin ++ serviceCommand op slot payload }.put t h
            (.exchanging job (serviceCommand op slot payload)))
  | withdrew {t : ℕ} {h : Handler} {job : Job} {reads : ℕ} (hwas : s.handlers t = some h)
      (hphase : h.phase = .ready job) (hreads : s.reads ≤ reads)
      (hclose : job = .close → s.broken = true ∨ s.returncode = true) :
      ServiceChange config s .silent ({ s with reads := reads }.raised t h job)
  | returned {t : ℕ} {h : Handler} {slot : Fin 2} {job : Job} {command : List UInt8} {state : GameState}
      (hwas : s.handlers t = some h) (hphase : h.phase = .exchanging job command)
      (hslot : h.slot = some slot) (hlen : 80 ≤ s.stdout.length)
      (hstate : pyState (s.stdout.take 80) = .ok state) (hplayer : state.player = slot) :
      ServiceChange config s (.returned t command (s.stdout.take 80))
        ({ s with stdout := s.stdout.drop 80 }.resume t h slot job (s.stdout.take 80) state)
  | poisoned {t : ℕ} {h : Handler} {slot : Fin 2} {job : Job} {command : List UInt8}
      (hwas : s.handlers t = some h) (hphase : h.phase = .exchanging job command)
      (hslot : h.slot = some slot) (hlen : 80 ≤ s.stdout.length)
      (hbad : ∀ state, pyState (s.stdout.take 80) = .ok state → state.player ≠ slot) :
      ServiceChange config s (.poisoned t)
        ({ s with stdout := s.stdout.drop 80, broken := true }.raised t h job)
  | timedOut {t : ℕ} {h : Handler} {job : Job} {command : List UInt8} (hwas : s.handlers t = some h)
      (hphase : h.phase = .exchanging job command) :
      ServiceChange config s (.timedOut t) ({ s with broken := true }.raised t h job)
  | moved {t : ℕ} {h : Handler} {p : Phase} (hwas : s.handlers t = some h)
      (hfrom : h.phase.holds = false) (hover : h.phase.over = false) (hclose : h.phase ≠ .acquiring .close)
      (hholds : p.holds = false) (hp : p.over = false) (hpclose : p ≠ .acquiring .close)
      (howns : p.owns = true → h.phase.owns = true) : ServiceChange config s .silent (s.put t h p)
  | wound {t : ℕ} {h : Handler} (hwas : s.handlers t = some h) (hfrom : h.phase.holds = false)
      (hover : h.phase.over = false) (hclose : h.phase = .acquiring .close → s.shut = true) :
      ServiceChange config s .silent (s.windDown t h)
  | ended {t : ℕ} {h : Handler} (hwas : s.handlers t = some h) (hphase : h.phase = .closing) :
      ServiceChange config s (.ended t) ({ s with tasks := s.tasks.erase t }.put t h .ended)
  | answered {world : GameWorld} {record : List UInt8} (hexited : s.exited = false)
      (hlen : 50 ≤ s.stdin.length) (hstep : hostStep s.world (s.stdin.take 50) = some (world, record)) :
      ServiceChange config s (.answered (s.stdin.take 50) record)
        { s with stdin := s.stdin.drop 50, world := world, stdout := s.stdout ++ record }
  | crashed (hexited : s.exited = false) (hlen : 50 ≤ s.stdin.length)
      (hstep : hostStep s.world (s.stdin.take 50) = none) :
      ServiceChange config s .crashed { s with stdin := s.stdin.drop 50, exited := true }
  | killed : ServiceChange config s .killed { s with exited := true }
  | reaped (hexited : s.exited = true) : ServiceChange config s .silent { s with returncode := true }
  | closed : ServiceChange config s .closed { s with broken := true, shut := true }

section

variable {config : ServiceConfig} {s s' : Service} {e : ServiceEvent}

theorem connect_change {t : ℕ} {cert : Option (List UInt8)} (h : s.connect config t cert = some (e, s')) :
    ServiceChange config s e s' := by
  simp only [Service.connect] at h
  split at h
  · cases h
  · rename_i hnew
    have hnone : s.handlers t = none := by simpa using hnew
    split at h
    · obtain ⟨rfl, rfl⟩ := Prod.mk.inj (Option.some.inj h)
      exact .turnedAway
    · split at h
      · obtain ⟨rfl, rfl⟩ := Prod.mk.inj (Option.some.inj h)
        exact .joined hnone rfl rfl (.inr ⟨_, rfl⟩)
      · rename_i slot hslot
        split at h
        · obtain ⟨rfl, rfl⟩ := Prod.mk.inj (Option.some.inj h)
          exact .joined hnone rfl rfl (.inr ⟨_, rfl⟩)
        · rename_i hbroken
          split at h
          · obtain ⟨rfl, rfl⟩ := Prod.mk.inj (Option.some.inj h)
            exact .joined hnone rfl rfl (.inl rfl)
          · rename_i hfree
            obtain ⟨rfl, rfl⟩ := Prod.mk.inj (Option.some.inj h)
            exact .claimed hnone rfl hslot rfl (by simpa using hbroken) (by simpa using hfree)

theorem issue_change {t reads : ℕ} {h : Handler} {slot : Fin 2} {job : Job} {op : UInt8}
    {payload : List UInt8} (hwas : s.handlers t = some h) (hphase : h.phase = .ready job)
    (hslot : h.slot = some slot) (hreads : s.reads ≤ reads) (hjob : s.Writes config job op payload reads)
    (hlen : job = .close → payload.length = 48) :
    ServiceChange config s ({ s with reads := reads }.issue t h slot job op payload).1
      ({ s with reads := reads }.issue t h slot job op payload).2 := by
  simp only [Service.issue]
  split
  · rename_i hdown
    exact .withdrew hwas hphase hreads (fun _ => by simpa using hdown)
  · rename_i hup
    simp only [Bool.or_eq_true, not_or, Bool.not_eq_true] at hup
    split
    · rename_i hbad
      exact .withdrew hwas hphase hreads (fun hc => absurd (hlen hc) hbad)
    · rename_i hgood
      exact .wrote hwas hphase hslot hup.1 hup.2 (not_not.mp hgood) hjob

theorem write_change {t : ℕ} {h : Handler} {slot : Fin 2} {job : Job} (hwas : s.handlers t = some h)
    (hphase : h.phase = .ready job) (hslot : h.slot = some slot) :
    ServiceChange config s (s.write config t h slot job).1 (s.write config t h slot job).2 := by
  cases job with
  | duplicate => exact issue_change hwas hphase hslot (Nat.le_refl _) ⟨rfl, rfl, rfl⟩ (fun hc => by cases hc)
  | hello => exact issue_change hwas hphase hslot (Nat.le_refl _) ⟨rfl, rfl, rfl⟩ (fun hc => by cases hc)
  | tick payload left =>
    simp only [Service.write]
    split
    · rename_i hrange
      exact issue_change hwas hphase hslot (Nat.le_succ _) ⟨rfl, rfl, hrange.1, hrange.2, rfl⟩
        (fun hc => by cases hc)
    · exact .withdrew hwas hphase (Nat.le_succ _) (fun hc => by cases hc)
  | intent payload left =>
    exact issue_change hwas hphase hslot (Nat.le_refl _) ⟨rfl, rfl, rfl⟩ (fun hc => by cases hc)
  | close => exact issue_change hwas hphase hslot (Nat.le_refl _) ⟨rfl, rfl, rfl⟩ (fun _ => rfl)

theorem reply_change {t : ℕ} {h : Handler} {slot : Fin 2} {job : Job} {command : List UInt8}
    (hwas : s.handlers t = some h) (hphase : h.phase = .exchanging job command)
    (hslot : h.slot = some slot) (hlen : 80 ≤ s.stdout.length) :
    ServiceChange config s (s.reply t h slot job command).1 (s.reply t h slot job command).2 := by
  simp only [Service.reply]
  split
  · rename_i state hstate
    split
    · rename_i hplayer
      exact .returned hwas hphase hslot hlen hstate hplayer
    · rename_i hplayer
      refine .poisoned hwas hphase hslot hlen ?_
      intro state' hs
      rw [hstate] at hs
      rw [← Except.ok.inj hs]
      exact hplayer
  · rename_i hstate
    refine .poisoned hwas hphase hslot hlen ?_
    intro state' hs
    rw [hstate] at hs
    cases hs

theorem afterSend_phase {next : AfterSend} {p : Phase} (h : next.phase = some p) :
    p.holds = false ∧ p.over = false ∧ p ≠ .acquiring .close ∧
      (p.owns = true → ∃ left, next = .loop left) := by
  cases next with
  | stop => cases h
  | loop left =>
    cases left with
    | zero =>
      obtain rfl := Option.some.inj h
      exact ⟨rfl, rfl, by simp, fun _ => ⟨0, rfl⟩⟩
    | succ left =>
      obtain rfl := Option.some.inj h
      exact ⟨rfl, rfl, by simp, fun _ => ⟨left + 1, rfl⟩⟩

theorem serve_change (h : s.serve = some (e, s')) : ServiceChange config s e s' := by
  simp only [Service.serve] at h
  split at h
  · cases h
  · rename_i hready
    simp only [Bool.or_eq_true, decide_eq_true_eq, not_or, Bool.not_eq_true, not_lt] at hready
    split at h
    · rename_i hstep
      obtain ⟨rfl, rfl⟩ := Prod.mk.inj (Option.some.inj h)
      exact .crashed hready.1 hready.2 hstep
    · rename_i hstep
      obtain ⟨rfl, rfl⟩ := Prod.mk.inj (Option.some.inj h)
      exact .answered hready.1 hready.2 hstep

theorem resume_change {t : ℕ} {h : Handler} {a : ServiceAction} (hwas : s.handlers t = some h)
    (hnext : s.resumeHandler config t h a = some (e, s')) : ServiceChange config s e s' := by
  cases a with
  | connect => cases hnext
  | serve => cases hnext
  | kill => cases hnext
  | reap => cases hnext
  | close => cases hnext
  | acquire =>
    simp only [Service.resumeHandler] at hnext
    split at hnext
    · rename_i job hphase hlock
      obtain ⟨rfl, rfl⟩ := Prod.mk.inj (Option.some.inj hnext)
      exact .acquired hwas hphase hlock
    · cases hnext
  | write =>
    simp only [Service.resumeHandler] at hnext
    split at hnext
    · rename_i job slot hphase hslot
      have hc := @write_change config s t h slot job hwas hphase hslot
      rw [Option.some.inj hnext] at hc
      exact hc
    · cases hnext
  | reply =>
    simp only [Service.resumeHandler] at hnext
    split at hnext
    · rename_i job command slot hphase hslot
      split at hnext
      · cases hnext
      · rename_i hlen
        have hc := @reply_change config s t h slot job command hwas hphase hslot (not_lt.mp hlen)
        rw [Option.some.inj hnext] at hc
        exact hc
    · cases hnext
  | fail =>
    simp only [Service.resumeHandler] at hnext
    split at hnext
    · rename_i job command hphase
      obtain ⟨rfl, rfl⟩ := Prod.mk.inj (Option.some.inj hnext)
      exact .timedOut hwas hphase
    · cases hnext
  | sent =>
    simp only [Service.resumeHandler] at hnext
    split at hnext
    · rename_i data next hphase
      split at hnext
      · obtain ⟨rfl, rfl⟩ := Prod.mk.inj (Option.some.inj hnext)
        exact .wound hwas (by rw [hphase]; rfl) (by rw [hphase]; rfl) (fun hc => by simp [hphase] at hc)
      · rename_i p hp
        obtain ⟨rfl, rfl⟩ := Prod.mk.inj (Option.some.inj hnext)
        obtain ⟨hholds, hover, hclose, howns⟩ := afterSend_phase hp
        refine .moved hwas (by rw [hphase]; rfl) (by rw [hphase]; rfl) (by simp [hphase]) hholds hover hclose ?_
        intro ho
        obtain ⟨left, rfl⟩ := howns ho
        rw [hphase]
        rfl
    · cases hnext
  | frame _ data =>
    simp only [Service.resumeHandler] at hnext
    split at hnext
    · rename_i left hphase
      obtain ⟨rfl, rfl⟩ := Prod.mk.inj (Option.some.inj hnext)
      have howns : h.phase.owns = true := by
        rw [hphase]
        rfl
      simp only [Service.frame]
      split
      · exact .moved hwas (by rw [hphase]; rfl) (by rw [hphase]; rfl) (by simp [hphase]) rfl rfl
          (by simp) (fun _ => howns)
      · split
        · exact .moved hwas (by rw [hphase]; rfl) (by rw [hphase]; rfl) (by simp [hphase]) rfl rfl
            (by simp) (fun _ => howns)
        · exact .moved hwas (by rw [hphase]; rfl) (by rw [hphase]; rfl) (by simp [hphase]) rfl rfl
            (by simp) (fun _ => howns)
    · cases hnext
  | leave =>
    simp only [Service.resumeHandler] at hnext
    split at hnext
    · rename_i hphase
      obtain ⟨rfl, rfl⟩ := Prod.mk.inj (Option.some.inj hnext)
      exact .wound hwas (by rw [hphase]; rfl) (by rw [hphase]; rfl) (fun hc => by simp [hphase] at hc)
    · rename_i hphase
      obtain ⟨rfl, rfl⟩ := Prod.mk.inj (Option.some.inj hnext)
      exact .wound hwas (by rw [hphase]; rfl) (by rw [hphase]; rfl) (fun hc => by simp [hphase] at hc)
    · cases hnext
  | cancel =>
    simp only [Service.resumeHandler] at hnext
    split at hnext
    · cases hnext
    · rename_i hshut
      have hshut : s.shut = true := by simpa using hshut
      split at hnext
      all_goals first
        | cases hnext; done
        | rename_i hphase
          obtain ⟨rfl, rfl⟩ := Prod.mk.inj (Option.some.inj hnext)
          exact .wound hwas (by rw [hphase]; rfl) (by rw [hphase]; rfl) (fun _ => hshut)
  | finish =>
    simp only [Service.resumeHandler] at hnext
    split at hnext
    · rename_i hphase
      obtain ⟨rfl, rfl⟩ := Prod.mk.inj (Option.some.inj hnext)
      exact .ended hwas hphase
    · cases hnext

theorem serviceStep_change (h : ServiceStep config s e s') : ServiceChange config s e s' := by
  obtain ⟨a, ha⟩ := h
  have hresume : ∀ t, (s.handlers t).bind (fun h => s.resumeHandler config t h a) = some (e, s') →
      ServiceChange config s e s' := by
    intro t ht
    obtain ⟨h, hwas, hnext⟩ := Option.bind_eq_some_iff.mp ht
    exact resume_change hwas hnext
  cases a with
  | connect t cert => exact connect_change ha
  | serve => exact serve_change ha
  | kill =>
    obtain ⟨rfl, rfl⟩ := Prod.mk.inj (Option.some.inj ha)
    exact .killed
  | reap =>
    simp only [serviceNext] at ha
    split at ha
    · rename_i hexited
      obtain ⟨rfl, rfl⟩ := Prod.mk.inj (Option.some.inj ha)
      exact .reaped hexited
    · cases ha
  | close =>
    obtain ⟨rfl, rfl⟩ := Prod.mk.inj (Option.some.inj ha)
    exact .closed
  | acquire t => exact hresume t ha
  | write t => exact hresume t ha
  | reply t => exact hresume t ha
  | fail t => exact hresume t ha
  | sent t => exact hresume t ha
  | frame t data => exact hresume t ha
  | leave t => exact hresume t ha
  | cancel t => exact hresume t ha
  | finish t => exact hresume t ha

end

end ArenaLab
