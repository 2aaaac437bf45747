import ArenaLab.ActiveMatch
import ArenaLab.GameIntent

/-! The match service as one connection sees it: where a step takes its handler, and
what the record is that the handler gets, broken or not. -/

namespace ArenaLab

def Reached (w₀ w : GameWorld) : Prop := ∃ τ, Runs.Steps GameStep w₀ τ w

/-- The command is with the worker, or lost with it, or answered: `made` holds of a command
and the worlds between which the worker has answered it. -/
def Service.Serves (made : List UInt8 → GameWorld → GameWorld → Prop) (s : Service) (command : List UInt8) : Prop :=
  s.stdin = command ∧ s.stdout = [] ∨
  s.stdin = [] ∧ (s.stdout = [] ∨ ∃ w, made command w s.world ∧ hostStep w command = some (s.world, s.stdout))

/-- The pipes of an exchange under way, also of a service that has broken down meanwhile. -/
def Service.Synced (made : List UInt8 → GameWorld → GameWorld → Prop) (s : Service) : Prop :=
  ∀ t job command, s.Busy t job command →
    (∃ slot, job.Issues slot command) ∧ command.length = 50 ∧ s.Serves made command

/-- What the first step of a handler brings. -/
inductive Joins : Phase → Prop
  | refused (code : UInt8) (hcode : code = 1 ∨ code = 4) : Joins (.sending (errorFrame code) .stop)
  | asked (job : Job) (hjob : job = .duplicate ∨ job = .hello) : Joins (.acquiring job)

/-- The record that an exchange of handler `h` reads in `s`. -/
structure Fetched (s : Service) (h : Handler) (job : Job) (record : List UInt8) : Prop where
  enough : 80 ≤ s.stdout.length
  taken : record = s.stdout.take 80
  accepted : ∃ slot state, h.slot = some slot ∧ pyState record = .ok state ∧ state.player = slot
  busy : ∃ command, h.phase = .exchanging job command

/-- Where a step takes a handler from its phase. -/
inductive Goes (s : Service) (t : ℕ) (h : Handler) : ServiceAction → Phase → Prop
  | acquired {job : Job} (hphase : h.phase = .acquiring job) : Goes s t h (.acquire t) (.ready job)
  | wrote {job : Job} {command : List UInt8} (hphase : h.phase = .ready job) :
      Goes s t h (.write t) (.exchanging job command)
  | left {a : ServiceAction} {p : Phase} (hp : p = .acquiring .close ∨ p = .closing ∨ p = .ended)
      (ha : ∀ data, a ≠ .frame t data) : Goes s t h a p
  | told {code : UInt8} {record : List UInt8} (hread : Fetched s h .duplicate record) (hcode : code = 2 ∨ code = 3) :
      Goes s t h (.reply t) (.sending (errorFrame code) .stop)
  | greeted {record : List UInt8} (hread : Fetched s h .hello record) :
      Goes s t h (.reply t) (.sending record (.loop 256))
  | ticked {data record : List UInt8} {left : ℕ} (hread : Fetched s h (.tick data left) record) :
      Goes s t h (.reply t) (.ready (.intent data left))
  | judged {data record : List UInt8} {left : ℕ} (hread : Fetched s h (.intent data left) record) :
      Goes s t h (.reply t) (.sending record (.loop (left - 1)))
  | drained {data : List UInt8} {left : ℕ} (hphase : h.phase = .sending data (.loop (left + 1))) :
      Goes s t h (.sent t) (.reading (left + 1))
  | full {data : List UInt8} (hphase : h.phase = .sending data (.loop 0)) :
      Goes s t h (.sent t) (.sending (errorFrame 6) .stop)
  | badFrame {data : List UInt8} {left : ℕ} (hphase : h.phase = .reading left) (hlen : data.length ≠ 48) :
      Goes s t h (.frame t data) (.sending (errorFrame 5) .stop)
  | inactive {data : List UInt8} {left : ℕ} (hphase : h.phase = .reading left) (hlen : data.length = 48) :
      Goes s t h (.frame t data) (.sending (errorFrame 7) (.loop (left - 1)))
  | taken {data : List UInt8} {left : ℕ} (hphase : h.phase = .reading left) (hlen : data.length = 48) :
      Goes s t h (.frame t data) (.acquiring (.tick data left))

/-- What a step does to handler `t`. -/
inductive HandlerStep (s : Service) (t : ℕ) (a : ServiceAction) (s' : Service) : Prop
  | same (hh : s'.handlers t = s.handlers t) (ha : ∀ data, a ≠ .frame t data)
  | joined (h : Handler) (hnew : s.handlers t = none) (hh : s'.handlers t = some h) (hp : Joins h.phase)
      (ha : ∀ data, a ≠ .frame t data)
  | moved (h : Handler) (p : Phase) (hwas : s.handlers t = some h)
      (hh : s'.handlers t = some { h with phase := p }) (hgoes : Goes s t h a p)

section

variable {config : ServiceConfig} {w₀ : GameWorld} {s s' : Service} {t u : ℕ} {h : Handler} {p : Phase}
  {made made' : List UInt8 → GameWorld → GameWorld → Prop} {e : ServiceEvent} {a : ServiceAction} {job : Job}
  {command record : List UInt8}

/-! The pipes. -/

theorem Service.Serves.step (hf : s.Serves made command) (hlen : command.length = 50)
    (hc : ServiceChange config s e s') (hquiet : e.exchanges = false)
    (hmade : ∀ command record, e = .answered command record → made command s.world s'.world) :
    s'.Serves made command := by
  have hsame : ∀ s₁ : Service, s₁.stdin = s.stdin → s₁.stdout = s.stdout → s₁.world = s.world →
      s₁.Serves made command := by
    intro s₁ hin hout hw
    rw [Service.Serves, hin, hout, hw]
    exact hf
  cases hc with
  | wrote => cases hquiet
  | returned => cases hquiet
  | poisoned => cases hquiet
  | timedOut => cases hquiet
  | @withdrew t h job reads =>
    by_cases hjob : job = .close
    · subst hjob
      exact hsame _ rfl rfl rfl
    · obtain ⟨connected, he⟩ := raised_eq { s with reads := reads } t h hjob
      rw [he]
      exact hsame _ rfl rfl rfl
  | @wound t h =>
    obtain ⟨connected, he⟩ := windDown_eq s t h
    rw [he]
    exact hsame _ rfl rfl rfl
  | @answered world record hexited h50 hstep =>
    rcases hf with ⟨hin, hout⟩ | ⟨hin, -⟩
    · have hwhole : s.stdin.take 50 = command := by rw [hin, List.take_of_length_le (by omega)]
      refine .inr ⟨?_, .inr ⟨s.world, hwhole ▸ hmade _ _ rfl, ?_⟩⟩
      · show s.stdin.drop 50 = []
        exact List.drop_eq_nil_of_le (by rw [hin]; omega)
      · show hostStep s.world command = some (world, s.stdout ++ record)
        rw [hout, List.nil_append, ← hstep, hin, List.take_of_length_le (by omega)]
    · rw [hin] at h50
      simp at h50
  | crashed _ h50 =>
    rcases hf with ⟨hin, hout⟩ | ⟨hin, -⟩
    · refine .inr ⟨?_, .inl hout⟩
      show s.stdin.drop 50 = []
      exact List.drop_eq_nil_of_le (by rw [hin]; omega)
    · rw [hin] at h50
      simp at h50
  | _ => exact hsame _ rfl rfl rfl

theorem Service.Synced.mono (h : s.Synced made) (hle : ∀ command w u, made command w u → made' command w u) :
    s.Synced made' := by
  intro t job command hbusy
  obtain ⟨hissues, hlen, hserves⟩ := h t job command hbusy
  refine ⟨hissues, hlen, hserves.imp_right (And.imp_right (Or.imp_right ?_))⟩
  rintro ⟨w, hw, hstep⟩
  exact ⟨w, hle _ _ _ hw, hstep⟩

theorem synced_boot (made : List UInt8 → GameWorld → GameWorld → Prop) (w : GameWorld) :
    (Service.boot w).Synced made := by
  rintro t job command ⟨h, hwas, -⟩
  cases hwas

theorem synced_wrote {slot : Fin 2} {op : UInt8} {payload : List UInt8} {reads : ℕ} (hi : ServiceInv config w₀ s)
    (hwas : s.handlers t = some h) (hphase : h.phase = .ready job) (hbroken : s.broken = false)
    (hlen : payload.length = 48) (hjob : s.Writes config job op payload reads) :
    ({ s with
      reads := reads
      stdin := s.stdin ++ serviceCommand op slot payload }.put t h
        (.exchanging job (serviceCommand op slot payload))).Synced made := by
  have hholds : h.phase.holds = true := by
    rw [hphase]
    rfl
  obtain ⟨hin, hout⟩ := hi.empty hbroken hwas hholds (by rw [hphase]; rfl)
  rintro u job' command' ⟨k, hk, hexch⟩
  rcases handlers_cases rfl hk with ⟨rfl, rfl⟩ | hold
  · obtain ⟨rfl, rfl⟩ := Phase.exchanging.inj hexch
    refine ⟨⟨slot, writes_issues hjob⟩, by simp [serviceCommand, hlen], .inl ⟨?_, hout⟩⟩
    show s.stdin ++ serviceCommand op slot payload = serviceCommand op slot payload
    rw [hin, List.nil_append]
  · obtain rfl := hi.alone hwas hholds hold (by rw [hexch]; rfl)
    rw [hwas] at hold
    rw [← Option.some.inj hold, hphase] at hexch
    cases hexch

/-- A service that breaks down leaves the exchange under way as it is, or there is none. -/
theorem synced_step (hi : ServiceInv config w₀ s) (hsync : s.Synced made) (hs : ServiceStep config s e s')
    (hmade : ∀ command record, e = .answered command record → made command s.world s'.world) : s'.Synced made := by
  have hc := serviceStep_change hs
  by_cases hquiet : e.exchanges = false
  · intro t job command hbusy
    obtain ⟨hissues, hlen, hserves⟩ := hsync t job command ((busy_quiet hc hquiet t job command).mp hbusy)
    exact ⟨hissues, hlen, hserves.step hlen hc hquiet hmade⟩
  · have hnone : (∀ u job command, ¬s'.Busy u job command) → s'.Synced made :=
      fun hn t job command hbusy => absurd hbusy (hn t job command)
    cases hc with
    | wrote hwas hphase _ hbroken _ hlen hjob => exact synced_wrote hi hwas hphase hbroken hlen hjob
    | @returned t h slot job command state hwas hphase =>
      refine hnone ?_
      rintro u job' command' ⟨k, hk, hexch⟩
      obtain ⟨p, hbusy, -, hput⟩ := resume_handlers { s with stdout := s.stdout.drop 80 } t h slot job
        (s.stdout.take 80) state
      rcases handlers_cases hput hk with ⟨-, rfl⟩ | hold
      · simp only at hexch
        rw [hexch] at hbusy
        cases hbusy
      · obtain rfl := hi.alone hwas (by rw [hphase]; rfl) hold (by rw [hexch]; rfl)
        rw [hput, Function.update_self] at hk
        rw [← Option.some.inj hk] at hexch
        simp only at hexch
        rw [hexch] at hbusy
        cases hbusy
    | poisoned => exact hnone (poisoned_of_failure hi hs (.inl ⟨_, rfl⟩)).2
    | timedOut => exact hnone (poisoned_of_failure hi hs (.inr ⟨_, rfl⟩)).2
    | _ => exact absurd rfl hquiet

theorem pyState_player {data : List UInt8} {state : GameState} (h : pyState data = .ok state) :
    state.player = (data.getD 6 0).toNat := by
  obtain ⟨v, hv, hcommon⟩ := hello_view h
  have hslot : v.slot = data.getD 6 0 := by
    simp only [gameViewDecode] at hv
    split at hv
    · cases hv
    · split at hv
      · cases hv
      · split at hv
        · cases hv
        · split at hv
          · cases hv
          · rw [← Option.some.inj hv]
  rw [← hcommon, ← hslot]
  rfl

/-- The worker has answered the command of the exchange, in the world as it is. -/
theorem Fetched.of_synced (hr : Fetched s h job record) (hsync : s.Synced made) (hwas : s.handlers t = some h) :
    ∃ slot command w, h.slot = some slot ∧ job.Issues slot command ∧ made command w s.world ∧
      hostStep w command = some (s.world, record) := by
  obtain ⟨command, hphase⟩ := hr.busy
  obtain ⟨⟨slot', hissues⟩, -, hserves⟩ := hsync t job command ⟨h, hwas, hphase⟩
  have henough := hr.enough
  rcases hserves with ⟨-, hout⟩ | ⟨-, hout | ⟨w, hw, hstep⟩⟩
  · rw [hout] at henough
    simp at henough
  · rw [hout] at henough
    simp at henough
  · obtain ⟨-, slot'', sequence, status, hplace, hrec⟩ := hostStep_spec hstep
    obtain rfl : slot'' = slot' := Fin.ext (hplace.symm.trans (issues_slot hissues))
    have hwhole : record = s.stdout := by
      rw [hr.taken, List.take_of_length_le]
      rw [hrec, length_reply]
    obtain ⟨slot, state, hslot, hstate, hplayer⟩ := hr.accepted
    have hsame : (slot : ℕ) = slot'' := by
      rw [← hplayer, pyState_player hstate, hwhole, hrec, (reply_head slot'' sequence status).2.2.1,
        (slot_byte slot'').2]
    obtain rfl : slot = slot'' := Fin.ext hsame
    exact ⟨slot, command, w, hslot, hissues, hw, by rw [hwhole]; exact hstep⟩

/-! The handler. -/

theorem exit_left (h : Handler) (broken : Bool) :
    h.exit broken = .acquiring .close ∨ h.exit broken = .closing ∨ h.exit broken = .ended := by
  rcases exit_cases h broken with ⟨-, -, he⟩ | ⟨-, he⟩
  · exact .inl he
  · exact .inr (.inl he)

theorem handlerStep_windDown (hwas : s.handlers t = some h) (ha : ∀ data, a ≠ .frame t data) :
    HandlerStep s t a (s.windDown t h) := by
  obtain ⟨connected, he⟩ := windDown_eq s t h
  refine .moved h (h.exit s.broken) hwas ?_ (.left (exit_left h s.broken) ha)
  rw [he]
  exact Function.update_self ..

theorem handlerStep_raised {s₁ : Service} (job : Job) (hwas : s.handlers t = some h)
    (ha : ∀ data, a ≠ .frame t data) : HandlerStep s t a (s₁.raised t h job) := by
  by_cases hjob : job = .close
  · subst hjob
    exact .moved h .closing hwas (Function.update_self ..) (.left (.inr (.inl rfl)) ha)
  · obtain ⟨connected, he⟩ := raised_eq s₁ t h hjob
    refine .moved h (h.exit s₁.broken) hwas ?_ (.left (exit_left h s₁.broken) ha)
    rw [he]
    exact Function.update_self ..

theorem handlerStep_issue {s₁ : Service} {slot : Fin 2} {op : UInt8} {payload : List UInt8}
    (hwas : s.handlers t = some h) (hphase : h.phase = .ready job) :
    HandlerStep s t (.write t) (s₁.issue t h slot job op payload).2 := by
  have ha : ∀ data, (ServiceAction.write t) ≠ .frame t data := fun _ hf => by cases hf
  rw [Service.issue]
  split
  · exact handlerStep_raised job hwas ha
  · split
    · exact handlerStep_raised job hwas ha
    · exact .moved h _ hwas (Function.update_self ..) (.wrote hphase)

theorem handlerStep_reply {slot : Fin 2} (hwas : s.handlers t = some h) (hphase : h.phase = .exchanging job command)
    (hslot : h.slot = some slot) (hlen : 80 ≤ s.stdout.length) :
    HandlerStep s t (.reply t) (s.reply t h slot job command).2 := by
  have ha : ∀ data, (ServiceAction.reply t) ≠ .frame t data := fun _ hf => by cases hf
  simp only [Service.reply]
  split
  · rename_i state hstate
    split
    · rename_i hplayer
      have hread : Fetched s h job (s.stdout.take 80) :=
        ⟨hlen, rfl, ⟨slot, state, hslot, hstate, hplayer⟩, ⟨command, hphase⟩⟩
      cases job with
      | duplicate =>
        refine .moved h _ hwas (Function.update_self ..) (.told hread ?_)
        split
        · exact .inl rfl
        · exact .inr rfl
      | hello => exact .moved h _ hwas (Function.update_self ..) (.greeted hread)
      | tick data left => exact .moved h _ hwas (Function.update_self ..) (.ticked hread)
      | intent data left => exact .moved h _ hwas (Function.update_self ..) (.judged hread)
      | close => exact .moved h .closing hwas (Function.update_self ..) (.left (.inr (.inl rfl)) ha)
    · exact handlerStep_raised job hwas ha
  · exact handlerStep_raised job hwas ha

theorem handlerStep_frame {data : List UInt8} {left : ℕ} (hwas : s.handlers t = some h)
    (hphase : h.phase = .reading left) : HandlerStep s t (.frame t data) (s.frame t h left data) := by
  simp only [Service.frame]
  split
  · rename_i hlen
    exact .moved h _ hwas (Function.update_self ..) (.badFrame hphase hlen)
  · rename_i hlen
    split
    · exact .moved h _ hwas (Function.update_self ..) (.inactive hphase (not_not.mp hlen))
    · exact .moved h _ hwas (Function.update_self ..) (.taken hphase (not_not.mp hlen))

theorem handlerStep_resume (hwas : s.handlers t = some h) (ha : a = .acquire t ∨ a = .write t ∨ a = .reply t ∨
    a = .fail t ∨ a = .sent t ∨ (∃ data, a = .frame t data) ∨ a = .leave t ∨ a = .cancel t ∨ a = .finish t)
    (hn : s.resumeHandler config t h a = some (e, s')) : HandlerStep s t a s' := by
  rcases ha with rfl | rfl | rfl | rfl | rfl | ⟨data, rfl⟩ | rfl | rfl | rfl <;>
    simp only [Service.resumeHandler] at hn
  · split at hn
    · rename_i job hphase hlock
      obtain ⟨rfl, rfl⟩ := Prod.mk.inj (Option.some.inj hn)
      exact .moved h _ hwas (Function.update_self ..) (.acquired hphase)
    · cases hn
  · split at hn
    · rename_i job slot hphase hslot
      have hs := congrArg Prod.snd (Option.some.inj hn)
      simp only at hs
      rw [← hs]
      cases job with
      | tick data left =>
        simp only [Service.write]
        split
        · exact handlerStep_issue hwas hphase
        · simp only
          exact handlerStep_raised _ hwas (fun _ hf => by cases hf)
      | _ => exact handlerStep_issue hwas hphase
    · cases hn
  · split at hn
    · rename_i job command slot hphase hslot
      split at hn
      · cases hn
      · rename_i hlen
        have hs := congrArg Prod.snd (Option.some.inj hn)
        simp only at hs
        rw [← hs]
        exact handlerStep_reply hwas hphase hslot (not_lt.mp hlen)
    · cases hn
  · split at hn
    · obtain ⟨rfl, rfl⟩ := Prod.mk.inj (Option.some.inj hn)
      exact handlerStep_raised _ hwas (fun _ hf => by cases hf)
    · cases hn
  · split at hn
    · rename_i data next hphase
      split at hn
      · obtain ⟨rfl, rfl⟩ := Prod.mk.inj (Option.some.inj hn)
        exact handlerStep_windDown hwas (fun _ hf => by cases hf)
      · rename_i p hp
        obtain ⟨rfl, rfl⟩ := Prod.mk.inj (Option.some.inj hn)
        cases next with
        | stop => cases hp
        | loop left =>
          cases left with
          | zero =>
            obtain rfl := Option.some.inj hp
            exact .moved h _ hwas (Function.update_self ..) (.full hphase)
          | succ left =>
            obtain rfl := Option.some.inj hp
            exact .moved h _ hwas (Function.update_self ..) (.drained hphase)
    · cases hn
  · split at hn
    · rename_i left hphase
      obtain ⟨rfl, rfl⟩ := Prod.mk.inj (Option.some.inj hn)
      exact handlerStep_frame hwas hphase
    · cases hn
  · split at hn <;> first
      | cases hn; done
      | obtain ⟨rfl, rfl⟩ := Prod.mk.inj (Option.some.inj hn)
        exact handlerStep_windDown hwas (fun _ hf => by cases hf)
  · split at hn
    · cases hn
    · split at hn <;> first
        | cases hn; done
        | obtain ⟨rfl, rfl⟩ := Prod.mk.inj (Option.some.inj hn)
          exact handlerStep_windDown hwas (fun _ hf => by cases hf)
  · split at hn
    · obtain ⟨rfl, rfl⟩ := Prod.mk.inj (Option.some.inj hn)
      exact .moved h _ hwas (Function.update_self ..) (.left (.inr (.inr rfl)) (fun _ hf => by cases hf))
    · cases hn

theorem handlerStep_connect {cert : Option (List UInt8)} (hn : s.connect config t cert = some (e, s')) :
    HandlerStep s t (.connect t cert) s' := by
  have ha : ∀ data, (ServiceAction.connect t cert) ≠ .frame t data := fun _ hf => by cases hf
  simp only [Service.connect] at hn
  split at hn
  · cases hn
  · rename_i hnew
    have hnone : s.handlers t = none := by simpa using hnew
    split at hn
    · obtain ⟨rfl, rfl⟩ := Prod.mk.inj (Option.some.inj hn)
      exact .same rfl ha
    · split at hn
      · obtain ⟨rfl, rfl⟩ := Prod.mk.inj (Option.some.inj hn)
        exact .joined _ hnone (Function.update_self ..) (.refused 1 (.inl rfl)) ha
      · split at hn
        · obtain ⟨rfl, rfl⟩ := Prod.mk.inj (Option.some.inj hn)
          exact .joined _ hnone (Function.update_self ..) (.refused 4 (.inr rfl)) ha
        · split at hn <;> obtain ⟨rfl, rfl⟩ := Prod.mk.inj (Option.some.inj hn)
          · exact .joined _ hnone (Function.update_self ..) (.asked .duplicate (.inl rfl)) ha
          · exact .joined _ hnone (Function.update_self ..) (.asked .hello (.inr rfl)) ha

theorem connect_elsewhere {cert : Option (List UInt8)} (hn : s.connect config u cert = some (e, s')) (hu : t ≠ u) :
    s'.handlers t = s.handlers t := by
  simp only [Service.connect] at hn
  split at hn
  · cases hn
  · split at hn
    · obtain ⟨rfl, rfl⟩ := Prod.mk.inj (Option.some.inj hn)
      rfl
    · split at hn
      · obtain ⟨rfl, rfl⟩ := Prod.mk.inj (Option.some.inj hn)
        exact Function.update_of_ne hu _ _
      · split at hn
        · obtain ⟨rfl, rfl⟩ := Prod.mk.inj (Option.some.inj hn)
          exact Function.update_of_ne hu _ _
        · split at hn <;> obtain ⟨rfl, rfl⟩ := Prod.mk.inj (Option.some.inj hn) <;>
            exact Function.update_of_ne hu _ _

/-- A step is one of handler `t`, or leaves it as it is. -/
theorem handler_step (t : ℕ) (hn : serviceNext config s a = some (e, s')) : HandlerStep s t a s' := by
  have hresume : ∀ u, (s.handlers u).bind (fun h => s.resumeHandler config u h a) = some (e, s') →
      (u = t → a = .acquire t ∨ a = .write t ∨ a = .reply t ∨ a = .fail t ∨ a = .sent t ∨
        (∃ data, a = .frame t data) ∨ a = .leave t ∨ a = .cancel t ∨ a = .finish t) →
      (u ≠ t → ∀ data, a ≠ .frame t data) → HandlerStep s t a s' := by
    intro u hu hown hother
    obtain ⟨h, hwas, hnext⟩ := Option.bind_eq_some_iff.mp hu
    by_cases hut : u = t
    · subst hut
      exact handlerStep_resume hwas (hown rfl) hnext
    · obtain ⟨p, hh, -⟩ := enters_resume hnext
      refine .same ?_ (hother hut)
      rw [hh, Function.update_of_ne (Ne.symm hut)]
  cases a with
  | connect u cert =>
    by_cases hut : u = t
    · subst hut
      exact handlerStep_connect hn
    · exact .same (connect_elsewhere hn (Ne.symm hut)) (fun _ hf => by cases hf)
  | serve =>
    refine .same ?_ (fun _ hf => by cases hf)
    simp only [serviceNext, Service.serve] at hn
    split at hn
    · cases hn
    · split at hn <;> obtain ⟨rfl, rfl⟩ := Prod.mk.inj (Option.some.inj hn) <;> rfl
  | kill =>
    obtain ⟨rfl, rfl⟩ := Prod.mk.inj (Option.some.inj hn)
    exact .same rfl (fun _ hf => by cases hf)
  | reap =>
    simp only [serviceNext] at hn
    split at hn
    · obtain ⟨rfl, rfl⟩ := Prod.mk.inj (Option.some.inj hn)
      exact .same rfl (fun _ hf => by cases hf)
    · cases hn
  | close =>
    obtain ⟨rfl, rfl⟩ := Prod.mk.inj (Option.some.inj hn)
    exact .same rfl (fun _ hf => by cases hf)
  | frame u data =>
    refine hresume u hn (fun he => by subst he; simp) (fun hne d hf => ?_)
    cases hf
    exact hne rfl
  | acquire u => exact hresume u hn (fun he => by subst he; simp) (fun _ _ hf => by cases hf)
  | write u => exact hresume u hn (fun he => by subst he; simp) (fun _ _ hf => by cases hf)
  | reply u => exact hresume u hn (fun he => by subst he; simp) (fun _ _ hf => by cases hf)
  | fail u => exact hresume u hn (fun he => by subst he; simp) (fun _ _ hf => by cases hf)
  | sent u => exact hresume u hn (fun he => by subst he; simp) (fun _ _ hf => by cases hf)
  | leave u => exact hresume u hn (fun he => by subst he; simp) (fun _ _ hf => by cases hf)
  | cancel u => exact hresume u hn (fun he => by subst he; simp) (fun _ _ hf => by cases hf)
  | finish u => exact hresume u hn (fun he => by subst he; simp) (fun _ _ hf => by cases hf)

end

end ArenaLab
