import ArenaLab.GameGraphics
import ArenaLab.HandlerMoves
import ArenaLab.SupervisedJobs
import ArenaLab.ViewerStream

/-! The rounds of a connection: what waits in the pipes of the client is what it waits for,
whatever the other connections do and whatever fails. -/

namespace ArenaLab

open Framing

/-- The input that the worker decodes from command `k` of a session. -/
def sessionInput (w₀ : GameWorld) (slot : Fin 2) (k : ℕ) (d : UInt8 × UInt8 × UInt8) : GameInput :=
  ⟨w₀.match, (w₀.players slot).session, UInt32.ofNat k, d.1, d.2.1, d.2.2⟩

/-- The record of world `u` is the verdict of the game on command `k`, in an exchange that was made. -/
def VerdictOn (made : List UInt8 → GameWorld → GameWorld → Prop) (w₀ : GameWorld) (slot : Fin 2) (k : ℕ)
    (action : String) (u : GameWorld) (record : List UInt8) : Prop :=
  ∃ w d status, made (serviceCommand 1 slot (inputRecord (sessionInput w₀ slot k d))) w u ∧
    directions.lookup action = some d ∧ gameApply w slot (sessionInput w₀ slot k d) = (u, status) ∧
    record = reply u slot (UInt32.ofNat k) status

/-- Where a connection stands whose handler may still read so many frames. -/
inductive Round (g : Graphics) (up down : List UInt8) : ℕ → Prop
  | greeted {p : List UInt8} (hphase : g.phase = .connecting) (hup : up = []) (hdown : down = encode p)
      (hsize : 0 < p.length ∧ p.length ≤ 256) : Round g up down 256
  | idle {left : ℕ} (hphase : g.phase = .idle) (hcount : g.sequence + left = 256) (hup : up = [])
      (hdown : down = []) : Round g up down left
  | asked {left : ℕ} {action : String} {data : List UInt8} (hphase : g.phase = .waiting action)
      (hdata : gameCommand g.hello g.sequence action = .ok data) (hpos : 0 < g.sequence)
      (hcount : g.sequence + left = 256) (hup : up = encode data) (hdown : down = []) : Round g up down (left + 1)
  | answered {left : ℕ} {action : String} {p : List UInt8} (hphase : g.phase = .waiting action)
      (hcount : g.sequence + left = 256) (hup : up = []) (hdown : down = encode p)
      (hsize : 0 < p.length ∧ p.length ≤ 256) : Round g up down left

/-- Where it stands while its handler is at a job. -/
inductive Serving (g : Graphics) (up down : List UInt8) : Job → Prop
  | first {job : Job} (hjob : job = .duplicate ∨ job = .hello) (hphase : g.phase = .connecting) (hup : up = [])
      (hdown : down = []) : Serving g up down job
  | round {job : Job} {action : String} {data : List UInt8} {left : ℕ}
      (hjob : job = .tick data (left + 1) ∨ job = .intent data (left + 1)) (hphase : g.phase = .waiting action)
      (hdata : gameCommand g.hello g.sequence action = .ok data) (hpos : 0 < g.sequence)
      (hcount : g.sequence + left = 256) (hup : up = []) (hdown : down = []) : Serving g up down job
  | close : Serving g up down .close

def Ahead (g : Graphics) (up down : List UInt8) : Option Phase → Prop
  | none => g.phase = .connecting ∧ up = [] ∧ down = []
  | some (.sending _ (.loop left)) => Round g up down left
  | some (.reading left) => Round g up down left
  | some (.acquiring job) => Serving g up down job
  | some (.ready job) => Serving g up down job
  | some (.exchanging job _) => Serving g up down job
  | some _ => True

/-- The handler plays `slot`. -/
def Service.Plays (s : Service) (t : ℕ) (slot : Fin 2) : Prop := ∃ h, s.handlers t = some h ∧ h.slot = some slot

/-- What the renderer shows once it has taken the packets. -/
abbrev display (ps : List (List UInt8)) : Option ViewerState := ps.foldlM viewerMessage viewerStart

/-- The bytes under way to the client are what it waits for. -/
inductive Fit (made : List UInt8 → GameWorld → GameWorld → Prop) (w₀ : GameWorld) (s : Service) (t : ℕ) (slot : Fin 2)
    (g : Graphics) : List UInt8 → Prop
  | nothing : Fit made w₀ s t slot g []
  | refused {code : UInt8} (hphase : g.phase = .connecting) (hcode : code = 1 ∨ code = 2 ∨ code = 3 ∨ code = 4) :
      Fit made w₀ s t slot g (encode (errorFrame code))
  | hello {w : GameWorld} {slot' : Fin 2} {status : GameResult} (hphase : g.phase = .connecting)
      (hplays : s.Plays t slot') (hw : Reached w₀ w) (htick : w.tick ≤ s.world.tick) :
      Fit made w₀ s t slot g (encode (reply w slot' 0 status))
  | limit (hphase : g.phase = .idle) (hlast : g.sequence = 256) : Fit made w₀ s t slot g (encode (errorFrame 6))
  | answer {action : String} {p extra : List UInt8} (hphase : g.phase = .waiting action)
      (hp : p = errorFrame 7 ∨ ∃ u, VerdictOn made w₀ slot g.sequence action u p ∧ u.tick ≤ s.world.tick ∧
        ∀ v, display g.forwarded = some v → v.view.tick ≤ u.tick)
      (hextra : extra = [] ∨ g.sequence = 256 ∧ extra = encode (errorFrame 6)) :
      Fit made w₀ s t slot g (encode p ++ extra)

/-- The first sequence number that the client has no answer for. -/
def Graphics.unanswered (g : Graphics) : ℕ :=
  match g.phase with
  | .waiting _ => g.sequence
  | _ => g.sequence + 1

/-- What holds from the first packet on. -/
structure Hailed (w₀ : GameWorld) (s : Service) (t : ℕ) (slot : Fin 2) (g : Graphics) : Prop where
  hello : ∃ w status, Reached w₀ w ∧ g.hello = reply w slot 0 status
  phase : g.phase ≠ .connecting
  count : g.sequence ≤ 256
  turn : ∀ action, g.phase = .waiting action → 0 < g.sequence
  plays : s.Plays t slot
  fresh : ∀ ps v, ps <+: g.forwarded → ps ≠ [] → display ps = some v → v.view.sequence.toNat < g.unanswered
  latest : ∃ v, display g.forwarded = some v ∧ v.ready = true ∧ v.view.match = w₀.match ∧
    v.view.session = (w₀.players slot).session ∧ v.view.slot = UInt8.ofNat slot ∧ v.view.tick ≤ s.world.tick

/-- The client runs. -/
structure Open (made : List UInt8 → GameWorld → GameWorld → Prop) (w₀ : GameWorld) (t : ℕ) (slot : Fin 2)
    (w : GraphicsWorld) : Prop where
  ahead : Ahead w.client w.up w.down ((w.service.handlers t).map Handler.phase)
  fit : Fit made w₀ w.service t slot w.client w.down
  stage : w.client = .boot ∨ Hailed w₀ w.service t slot w.client

/-- The texts of the errors that end the client. -/
def GraphicsError (g : Graphics) (e : String) : Prop :=
  e = "GRAPHICS_SESSION_LIMIT" ∨ e = "RENDERER_ACTION_INVALID" ∨
    g.forwarded = [] ∧ ∃ code, (code = 1 ∨ code = 2 ∨ code = 3 ∨ code = 4) ∧ gameErrors code = some e

/-- The packets handed on are shown one after the other, and what is shown is in the history. -/
structure Displays (made : List UInt8 → GameWorld → GameWorld → Prop) (w₀ : GameWorld) (slot : Fin 2)
    (g : Graphics) : Prop where
  seat : g.forwarded ≠ [] → (g.hello.getD 6 0).toNat = slot
  lengths : ∀ p ∈ g.forwarded, viewerLengths p.length = true
  views : ∀ ps, ps <+: g.forwarded → ∃ v, display ps = some v ∧ (ps ≠ [] → v.ready = true ∧
    g.history.lookup v.view.sequence.toNat = some v.view.common)
  errors : ∀ e, g.phase = .ended (some e) → GraphicsError g e
  decisions : ∃ ks : List ℕ, ks.Pairwise (· < ·) ∧ (∀ k ∈ ks, 0 < k ∧ k < g.unanswered) ∧
    List.Forall₂ (fun k d => ∃ u record, VerdictOn made w₀ slot k d.1 u record ∧
      ∃ state, pyState record = .ok state ∧ d.2 = (state.reason, state.tick)) ks g.decisions

structure GraphicsInv (made : List UInt8 → GameWorld → GameWorld → Prop) (config : ServiceConfig) (w₀ : GameWorld)
    (t : ℕ) (w : GraphicsWorld) : Prop where
  service : ServiceInv config w₀ w.service
  synced : w.service.Synced made
  client : ∃ slot, Displays made w₀ slot w.client ∧ ((∃ e, w.client.phase = .ended e) ∨ Open made w₀ t slot w)

section

variable {made made' : List UInt8 → GameWorld → GameWorld → Prop} {config : ServiceConfig} {id a b : Bytes 16}
  {w₀ w u : GameWorld} {s s' : Service} {t : ℕ} {slot : Fin 2}
  {g : Graphics} {e : ServiceEvent} {up down p record : List UInt8} {action : String} {k : ℕ}

/-! The game. -/

theorem tick_step {e : GameEvent} (h : GameStep w e u) : w.tick ≤ u.tick := by
  cases gameStep_change h with
  | refused => exact UInt64.le_refl _
  | played => exact UInt64.le_refl _
  | ticked _ hle => exact hle
  | shut => exact UInt64.le_refl _

theorem tick_run (h : Reached w u) : w.tick ≤ u.tick := by
  obtain ⟨τ, hτ⟩ := h
  exact hτ.invariant (I := fun u => w.tick ≤ u.tick) (UInt64.le_refl _)
    (fun _ _ _ hle hs => UInt64.le_trans hle (tick_step hs))

theorem tick_service (hs : ServiceStep config s e s') : s.world.tick ≤ s'.world.tick := by
  have hkept : ∀ (s₁ : Service) (t : ℕ) (h : Handler) (job : Job), s₁.world = s.world →
      s.world.tick ≤ (s₁.raised t h job).world.tick := by
    intro s₁ t h job hw
    rw [(raised_keeps s₁ t h job).2, hw]
    exact UInt64.le_refl _
  cases serviceStep_change hs with
  | answered _ _ hstep => exact tick_run (hostStep_spec hstep).1
  | withdrew => exact hkept _ _ _ _ rfl
  | poisoned => exact hkept _ _ _ _ rfl
  | timedOut => exact hkept _ _ _ _ rfl
  | @wound t h =>
    obtain ⟨connected, he⟩ := windDown_eq s t h
    rw [he]
    exact UInt64.le_refl _
  | @returned t h slot job => cases job <;> exact UInt64.le_refl _
  | _ => exact UInt64.le_refl _

theorem hostStep_input {payload : List UInt8} {input : GameInput} (h : gameInputDecode payload = some input) :
    hostStep w (serviceCommand 1 slot payload) = some ((gameApply w slot input).1,
      reply (gameApply w slot input).1 slot input.sequence (gameApply w slot input).2) := by
  simp only [hostStep, serviceCommand, List.getD_cons_zero, List.getD_cons_succ, (slot_byte slot).2, slot.isLt,
    dite_true, if_true, Fin.eta, List.drop_succ_cons, List.drop_zero, h]

/-! Records of a session. -/

theorem stateIds_reply (w : GameWorld) (slot : Fin 2) (sequence : UInt32) (status : GameResult) :
    stateIds (reply w slot sequence status) = w.match.toList ++ (w.players slot).session.toList := by
  have hm : (w.match.toList ++ (w.players slot).session.toList).length = 32 := by simp
  rw [stateIds, reply_drop_match, ← List.append_assoc]
  exact List.take_left' hm

theorem errorFrame_ne_reply (code : UInt8) (w : GameWorld) (slot : Fin 2) (sequence : UInt32) (status : GameResult) :
    reply w slot sequence status ≠ errorFrame code := by
  intro he
  have hlen := congrArg List.length he
  rw [length_reply] at hlen
  cases hlen

/-- What a record of a reached world says to both readers. -/
theorem record_read (h₀ : gameInit id a b = some w₀) (hw : Reached w₀ w) (slot : Fin 2) (sequence : UInt32)
    (status : GameResult) : pyState (reply w slot sequence status) = .ok (w.shown slot sequence status) ∧
    stateIds (reply w slot sequence status) = w₀.match.toList ++ (w₀.players slot).session.toList ∧
    ∃ v, gameViewDecode (reply w slot sequence status) = some v ∧ v.common = w.shown slot sequence status ∧
      v.match = w₀.match ∧ v.session = (w₀.players slot).session ∧ v.slot = UInt8.ofNat slot ∧ v.tick = w.tick ∧
      v.sequence = sequence := by
  obtain ⟨τ, hτ⟩ := hw
  have hsame := sameMatch_run hτ
  obtain ⟨hid, hses⟩ := ids_of_run h₀ hτ
  obtain ⟨v, hv, hcommon, -, hm, hs⟩ :=
    gameViewDecode_reply slot sequence status (gameRules_of_run h₀ hτ) hid (hses slot)
  refine ⟨pyState_reply slot sequence status (gameRules_of_run h₀ hτ) hid (hses slot), ?_, v, hv, hcommon,
    hm.trans hsame.id, hs.trans (hsame.session slot), ?_, ?_, ?_⟩
  · rw [stateIds_reply, hsame.id, hsame.session]
  · have hplayer : v.slot.toNat = slot := congrArg GameState.player hcommon
    rw [← UInt8.toNat_inj, hplayer, (slot_byte slot).2]
  · exact UInt64.toNat_inj.mp (congrArg GameState.tick hcommon)
  · exact UInt32.toNat_inj.mp (congrArg GameState.sequence hcommon)

theorem VerdictOn.reached (h : VerdictOn made w₀ slot k action u record)
    (hmade : ∀ command w u, made command w u → Reached w₀ w) : Reached w₀ u := by
  obtain ⟨w, d, status, hw, -, happly, -⟩ := h
  obtain ⟨τ, hτ⟩ := hmade _ _ _ hw
  have hstep : GameStep w ⟨.apply slot (sessionInput w₀ slot k d), w.tick, status⟩ u := by
    refine ⟨.apply slot (sessionInput w₀ slot k d), ?_⟩
    simp [gameNext, happly]
  exact ⟨_, hτ.snoc hstep⟩

theorem VerdictOn.record_eq (h : VerdictOn made w₀ slot k action u record) :
    ∃ status, record = reply u slot (UInt32.ofNat k) status := by
  obtain ⟨-, -, status, -, -, -, hr⟩ := h
  exact ⟨status, hr⟩

/-- A command of the session is the record of its input. -/
theorem command_read (h₀ : gameInit id a b = some w₀)
    (hhello : ∃ w status, Reached w₀ w ∧ g.hello = reply w slot 0 status)
    (hpos : 0 < k) (hmax : k ≤ 256) {data : List UInt8} (hdata : gameCommand g.hello k action = .ok data) :
    ∃ d, directions.lookup action = some d ∧ data = inputRecord (sessionInput w₀ slot k d) ∧
      gameInputDecode data = some (sessionInput w₀ slot k d) ∧ data.length = 48 := by
  obtain ⟨w, status, hw, hh⟩ := hhello
  obtain ⟨hstate, -, v, hv, -, hm, hs, -⟩ := record_read h₀ hw slot 0 status
  rw [← hh] at hstate hv
  cases hd : directions.lookup action with
  | none =>
    rw [gameCommand, hstate] at hdata
    simp only [Except.bind, hd] at hdata
    cases hdata
  | some d =>
    obtain ⟨kind, x, y⟩ := d
    have hrecord := gameCommand_record hstate hv hd (by omega) (by omega : (k : ℤ) < 0xffffffff)
    rw [hdata] at hrecord
    have hcommand : data = inputRecord (sessionInput w₀ slot k (kind, x, y)) := by
      rw [Except.ok.inj hrecord, hm, hs]
      rfl
    obtain ⟨-, -, hmid, hsid⟩ := gameView_ids hv
    rw [hm] at hmid
    rw [hs] at hsid
    have hne : UInt32.ofNat k ≠ 0 := by
      intro hzero
      have hz := congrArg UInt32.toNat hzero
      rw [UInt32.toNat_ofNat_of_lt' (show k < 2 ^ 32 by omega), UInt32.toNat_zero] at hz
      omega
    have hvalid : validInput (sessionInput w₀ slot k (kind, x, y)) = true :=
      (validInput_iff _).mpr ⟨hmid, hsid, hne, directions_valid hd⟩
    refine ⟨(kind, x, y), rfl, hcommand, gameInputDecode_iff.mpr ⟨hvalid, hcommand⟩, ?_⟩
    rw [hcommand, length_inputRecord]

/-! The handler of the connection. -/

def Phase.emits : Phase → List (List UInt8)
  | .sending data _ => [data]
  | _ => []

theorem emitted_kept (h : s'.handlers t = s.handlers t) : s.emitted s' t = [] := by
  rw [Service.emitted]
  split
  · rw [if_pos h]
  · rfl

theorem emitted_moved {h : Handler} {p : Phase} (hh : s'.handlers t = some { h with phase := p })
    (hnew : p.emits ≠ [] → s.handlers t ≠ some { h with phase := p }) : s.emitted s' t = p.emits := by
  rw [Service.emitted, hh]
  cases p with
  | sending data next => exact if_neg (fun he => hnew (List.cons_ne_nil _ _) he.symm)
  | _ => rfl

theorem Goes.moves {h : Handler} {q : Phase} {x : ServiceAction} (hgoes : Goes s t h x q) (hemits : q.emits ≠ []) :
    h.phase ≠ q := by
  cases hgoes with
  | told hread | greeted hread | judged hread =>
    obtain ⟨command, hphase⟩ := hread.busy
    rw [hphase]
    exact fun he => by cases he
  | full hphase | badFrame hphase | inactive hphase =>
    rw [hphase]
    exact fun he => by cases he
  | left hp => rcases hp with rfl | rfl | rfl <;> exact absurd rfl hemits
  | _ => exact absurd rfl hemits

theorem leaves_kept {x : ServiceAction} (hx : ∀ data, x ≠ .frame t data) (up : List UInt8) :
    x.leaves t up = some up := by
  cases x with
  | frame u data =>
    have hu : u ≠ t := by
      rintro rfl
      exact hx data rfl
    simp only [ServiceAction.leaves]
    exact if_pos hu
  | _ => rfl

theorem Fit.mono (hf : Fit made w₀ s t slot g down) (hplays : ∀ slot, s.Plays t slot → s'.Plays t slot)
    (hle : s.world.tick ≤ s'.world.tick) : Fit made w₀ s' t slot g down := by
  cases hf with
  | nothing => exact .nothing
  | refused hphase hcode => exact .refused hphase hcode
  | hello hphase hp hw htick => exact .hello hphase (hplays _ hp) hw (UInt64.le_trans htick hle)
  | limit hphase hlast => exact .limit hphase hlast
  | answer hphase hp hextra =>
    refine .answer hphase (hp.imp_right ?_) hextra
    rintro ⟨u, hu, htick, hlater⟩
    exact ⟨u, hu, UInt64.le_trans htick hle, hlater⟩

theorem VerdictOn.mono (h : VerdictOn made w₀ slot k action u record)
    (hle : ∀ command w u, made command w u → made' command w u) : VerdictOn made' w₀ slot k action u record := by
  obtain ⟨w, d, status, hw, hrest⟩ := h
  exact ⟨w, d, status, hle _ _ _ hw, hrest⟩

theorem Fit.weaken (hf : Fit made w₀ s t slot g down) (hle : ∀ command w u, made command w u → made' command w u) :
    Fit made' w₀ s t slot g down := by
  cases hf with
  | nothing => exact .nothing
  | refused hphase hcode => exact .refused hphase hcode
  | hello hphase hp hw htick => exact .hello hphase hp hw htick
  | limit hphase hlast => exact .limit hphase hlast
  | answer hphase hp hextra =>
    refine .answer hphase (hp.imp_right ?_) hextra
    rintro ⟨u, hu, hrest⟩
    exact ⟨u, hu.mono hle, hrest⟩

theorem Displays.mono (hd : Displays made w₀ slot g) (hle : ∀ command w u, made command w u → made' command w u) :
    Displays made' w₀ slot g := by
  obtain ⟨ks, hks, hbound, hall⟩ := hd.decisions
  refine ⟨hd.seat, hd.lengths, hd.views, hd.errors, ks, hks, hbound, hall.imp ?_⟩
  rintro k d ⟨u, record, hu, hrest⟩
  exact ⟨u, record, hu.mono hle, hrest⟩

theorem GraphicsInv.mono {w : GraphicsWorld} (h : GraphicsInv made config w₀ t w)
    (hle : ∀ command w u, made command w u → made' command w u) : GraphicsInv made' config w₀ t w := by
  obtain ⟨slot, hd, hclient⟩ := h.client
  exact ⟨h.service, h.synced.mono hle, slot, hd.mono hle,
    hclient.imp_right (fun ho => ⟨ho.ahead, ho.fit.weaken hle, ho.stage⟩)⟩

theorem Hailed.mono (hh : Hailed w₀ s t slot g) (hplays : ∀ slot, s.Plays t slot → s'.Plays t slot)
    (hle : s.world.tick ≤ s'.world.tick) : Hailed w₀ s' t slot g := by
  obtain ⟨v, hv, hready, hm, hs, hslot, htick⟩ := hh.latest
  exact { hh with
    plays := hplays _ hh.plays
    latest := ⟨v, hv, hready, hm, hs, hslot, UInt64.le_trans htick hle⟩ }

theorem Serving.first_of {job : Job} (h : Serving g up down job) (hjob : job = .duplicate ∨ job = .hello) :
    g.phase = .connecting ∧ up = [] ∧ down = [] := by
  cases h with
  | first _ hphase hup hdown => exact ⟨hphase, hup, hdown⟩
  | round hround =>
    rcases hround with rfl | rfl <;> rcases hjob with h | h <;> cases h
  | close => rcases hjob with h | h <;> cases h

theorem Serving.round_of {job : Job} {data : List UInt8} {left : ℕ} (h : Serving g up down job)
    (hjob : job = .tick data left ∨ job = .intent data left) : ∃ action k, left = k + 1 ∧
      g.phase = .waiting action ∧ gameCommand g.hello g.sequence action = .ok data ∧ 0 < g.sequence ∧
      g.sequence + k = 256 ∧ up = [] ∧ down = [] := by
  cases h with
  | first hfirst => rcases hfirst with rfl | rfl <;> rcases hjob with h | h <;> cases h
  | @round _ action data' left' hround hphase hdata hpos hcount hup hdown =>
    have hsame : data' = data ∧ left' + 1 = left := by
      rcases hround with rfl | rfl <;> rcases hjob with h | h <;> cases h <;> exact ⟨rfl, rfl⟩
    obtain ⟨rfl, rfl⟩ := hsame
    exact ⟨action, left', rfl, hphase, hdata, hpos, hcount, hup, hdown⟩
  | close => rcases hjob with h | h <;> cases h

/-- The frame that a handler reads is the command of the client. -/
theorem Round.read_of {data rest : List UInt8} {left : ℕ} (h₀ : gameInit id a b = some w₀)
    (h : Round g up down left)
    (hhello : ∀ action, g.phase = .waiting action → ∃ w status, Reached w₀ w ∧ g.hello = reply w slot 0 status)
    (hread : readFrame up = some (data, rest)) : ∃ action k, left = k + 1 ∧ g.phase = .waiting action ∧
      gameCommand g.hello g.sequence action = .ok data ∧ 0 < g.sequence ∧ g.sequence + k = 256 ∧ data.length = 48 ∧
      rest = [] ∧ down = [] := by
  have hnone : ∀ up : List UInt8, up = [] → readFrame up ≠ some (data, rest) := by
    rintro _ rfl hr
    cases hr
  cases h with
  | greeted _ hup => exact absurd hread (hnone up hup)
  | idle _ _ hup => exact absurd hread (hnone up hup)
  | answered _ _ hup => exact absurd hread (hnone up hup)
  | @asked left action data' hphase hdata hpos hcount hup hdown =>
    obtain ⟨d, -, -, -, hlen⟩ := command_read h₀ (hhello action hphase) hpos (by omega) hdata
    rw [hup, ← List.append_nil (encode data'), readFrame_encode (by omega) (by omega)] at hread
    obtain ⟨rfl, rfl⟩ := Prod.mk.inj (Option.some.inj hread)
    exact ⟨action, left, rfl, hphase, hdata, hpos, hcount, hlen, rfl, hdown⟩

theorem answer_size {P : GameWorld → Prop}
    (hp : p = errorFrame 7 ∨ ∃ u, VerdictOn made w₀ slot k action u p ∧ P u) : 0 < p.length ∧ p.length ≤ 256 := by
  rcases hp with rfl | ⟨u, hu, -⟩
  · decide
  · obtain ⟨status, rfl⟩ := hu.record_eq
    rw [length_reply]
    omega

theorem Fit.waiting_of (hf : Fit made w₀ s t slot g down) (hphase : g.phase = .waiting action) (hdown : down ≠ []) :
    ∃ p extra, down = encode p ++ extra ∧ (p = errorFrame 7 ∨ ∃ u, VerdictOn made w₀ slot g.sequence action u p ∧
      u.tick ≤ s.world.tick ∧ ∀ v, display g.forwarded = some v → v.view.tick ≤ u.tick) ∧
      (extra = [] ∨ g.sequence = 256 ∧ extra = encode (errorFrame 6)) := by
  cases hf with
  | nothing => exact absurd rfl hdown
  | refused hp =>
    rw [hphase] at hp
    cases hp
  | hello hp =>
    rw [hphase] at hp
    cases hp
  | limit hp =>
    rw [hphase] at hp
    cases hp
  | @answer action' p extra hp hanswer hextra =>
    rw [hphase] at hp
    obtain rfl := GraphicsPhase.waiting.inj hp
    exact ⟨p, extra, rfl, hanswer, hextra⟩

theorem Open.hailed {w : GraphicsWorld} (h : Open made w₀ t slot w) (hphase : w.client.phase = .waiting action) :
    Hailed w₀ w.service t slot w.client := by
  rcases h.stage with hboot | hh
  · rw [hboot] at hphase
    cases hphase
  · exact hh

/-- The bytes that the handler adds are what the client waits for. -/
theorem Open.goes {w : GraphicsWorld} {h : Handler} {q : Phase} {x : ServiceAction} {up' : List UInt8}
    (h₀ : gameInit id a b = some w₀) (ho : Open made w₀ t slot w) (hsync : w.service.Synced made)
    (hworld : Reached w₀ w.service.world) (hwas : w.service.handlers t = some h) (hgoes : Goes w.service t h x q)
    (hl : x.leaves t w.up = some up') :
    Ahead w.client up' (w.down ++ stream q.emits) (some q) ∧
      Fit made w₀ w.service t slot w.client (w.down ++ stream q.emits) := by
  have hahead : Ahead w.client w.up w.down (some h.phase) := by
    have := ho.ahead
    rwa [hwas] at this
  have hkept : (∀ data, x ≠ .frame t data) → up' = w.up := by
    intro hx
    rw [leaves_kept hx] at hl
    exact (Option.some.inj hl).symm
  have hquiet : q.emits = [] → w.down ++ stream q.emits = w.down := by
    intro he
    rw [he]
    exact List.append_nil _
  have hhello : ∀ action, w.client.phase = .waiting action →
      ∃ u status, Reached w₀ u ∧ w.client.hello = reply u slot 0 status :=
    fun action hphase => (ho.hailed hphase).hello
  have hframe : ∀ data, x = .frame t data → readFrame w.up = some (data, up') := by
    rintro data rfl
    simp only [ServiceAction.leaves, ne_eq, not_true_eq_false, if_false] at hl
    split at hl
    · split at hl
      · rename_i hread hsame
        obtain rfl := Option.some.inj hl
        rw [hread, hsame]
      · cases hl
    · cases hl
  have hone : ∀ p : List UInt8, [] ++ stream [p] = encode p := by simp [stream]
  cases hgoes with
  | acquired hphase =>
    rw [hphase] at hahead
    rw [hkept (fun _ hf => by cases hf), hquiet rfl]
    exact ⟨hahead, ho.fit⟩
  | wrote hphase =>
    rw [hphase] at hahead
    rw [hkept (fun _ hf => by cases hf), hquiet rfl]
    exact ⟨hahead, ho.fit⟩
  | left hp hx =>
    rw [hkept hx]
    rcases hp with rfl | rfl | rfl
    · rw [hquiet rfl]
      exact ⟨.close, ho.fit⟩
    · rw [hquiet rfl]
      exact ⟨trivial, ho.fit⟩
    · rw [hquiet rfl]
      exact ⟨trivial, ho.fit⟩
  | @told code record hread hcode =>
    obtain ⟨command, hphase⟩ := hread.busy
    rw [hphase] at hahead
    obtain ⟨hclient, -, hdown⟩ := Serving.first_of hahead (.inl rfl)
    refine ⟨trivial, ?_⟩
    rw [hdown]
    refine (hone (errorFrame code)).symm ▸ .refused hclient ?_
    rcases hcode with rfl | rfl
    · exact .inr (.inl rfl)
    · exact .inr (.inr (.inl rfl))
  | @greeted record hread =>
    obtain ⟨slot', command, u, hslot, hissues, -, hstep⟩ := hread.of_synced hsync hwas
    have hrecord : ∃ status, record = reply w.service.world slot' 0 status := by
      rw [show command = serviceCommand 4 slot' noPayload from hissues, hostStep_status] at hstep
      obtain ⟨rfl, rfl⟩ := Prod.mk.inj (Option.some.inj hstep)
      exact ⟨_, rfl⟩
    obtain ⟨status, rfl⟩ := hrecord
    obtain ⟨command', hphase⟩ := hread.busy
    rw [hphase] at hahead
    obtain ⟨hclient, hup, hdown⟩ := Serving.first_of hahead (.inr rfl)
    have hbytes : w.down ++ stream [reply w.service.world slot' 0 status] =
        encode (reply w.service.world slot' 0 status) := by rw [hdown, hone]
    refine ⟨.greeted hclient ((hkept (fun _ hf => by cases hf)).trans hup) hbytes ?_, ?_⟩
    · rw [length_reply]
      omega
    · exact hbytes.symm ▸ .hello hclient ⟨h, hwas, hslot⟩ hworld (UInt64.le_refl _)
  | @ticked data record left hread =>
    obtain ⟨command, hphase⟩ := hread.busy
    rw [hphase] at hahead
    obtain ⟨action, k, rfl, hclient, hdata, hpos, hcount, hup, hdown⟩ := Serving.round_of hahead (.inl rfl)
    rw [hkept (fun _ hf => by cases hf), hquiet rfl]
    exact ⟨.round (.inr rfl) hclient hdata hpos hcount hup hdown, ho.fit⟩
  | @judged data record left hread =>
    obtain ⟨slot', command, u, hslot, hissues, hu, hstep⟩ := hread.of_synced hsync hwas
    obtain ⟨command', hphase⟩ := hread.busy
    rw [hphase] at hahead
    obtain ⟨action, k, rfl, hclient, hdata, hpos, hcount, hup, hdown⟩ := Serving.round_of hahead (.inr rfl)
    have hhail := ho.hailed hclient
    obtain rfl : slot' = slot := by
      obtain ⟨h', hwas', hslot'⟩ := hhail.plays
      rw [hwas] at hwas'
      obtain rfl := Option.some.inj hwas'
      rw [hslot] at hslot'
      exact Option.some.inj hslot'
    obtain ⟨d, hd, hrecorded, hinput, -⟩ := command_read h₀ hhail.hello hpos (by omega) hdata
    obtain rfl : command = serviceCommand 1 slot' data := hissues
    rw [hostStep_input hinput] at hstep
    obtain ⟨hworld', hrecord⟩ := Prod.mk.inj (Option.some.inj hstep)
    have hverdict : VerdictOn made w₀ slot' w.client.sequence action w.service.world record :=
      ⟨u, d, _, hrecorded ▸ hu, hd, Prod.ext hworld' rfl, by rw [← hrecord, hworld']; rfl⟩
    have hbytes : w.down ++ stream [record] = encode record := by rw [hdown, hone]
    refine ⟨.answered hclient hcount ((hkept (fun _ hf => by cases hf)).trans hup) hbytes ?_, ?_⟩
    · rw [← hrecord, length_reply]
      omega
    · have hlater : ∀ v, display w.client.forwarded = some v → v.view.tick ≤ w.service.world.tick := by
        intro v hv
        obtain ⟨v', hv', -, -, -, -, htick⟩ := hhail.latest
        rw [hv] at hv'
        obtain rfl := Option.some.inj hv'
        exact htick
      have hfit : Fit made w₀ w.service t slot' w.client (encode record ++ []) :=
        .answer hclient (.inr ⟨_, hverdict, UInt64.le_refl _, hlater⟩) (.inl rfl)
      rw [List.append_nil] at hfit
      exact hbytes.symm ▸ hfit
  | drained hphase =>
    rw [hphase] at hahead
    rw [hkept (fun _ hf => by cases hf), hquiet rfl]
    exact ⟨hahead, ho.fit⟩
  | full hphase =>
    rw [hphase] at hahead
    refine ⟨trivial, ?_⟩
    have hsix : stream [errorFrame 6] = encode (errorFrame 6) := hone (errorFrame 6)
    have hround : Round w.client w.up w.down 0 := hahead
    cases hround with
    | idle hclient hcount _ hdown =>
      rw [hdown]
      exact (hone (errorFrame 6)).symm ▸ .limit hclient hcount
    | @answered _ action p hclient hcount _ hdown hsize =>
      have hnil : w.down ≠ [] := by
        intro hd
        rw [hd] at hdown
        have hlen := congrArg List.length hdown
        rw [Framing.length_encode] at hlen
        cases hlen
      obtain ⟨p', extra, hd, hp, -⟩ := ho.fit.waiting_of hclient hnil
      obtain ⟨rfl, rfl⟩ : p' = p ∧ extra = [] := by
        have hfirst := readFrame_encode (answer_size hp).1 (answer_size hp).2 extra
        rw [← hd, hdown, ← List.append_nil (encode p), readFrame_encode hsize.1 hsize.2] at hfirst
        exact ⟨(Prod.mk.inj (Option.some.inj hfirst)).1.symm, (Prod.mk.inj (Option.some.inj hfirst)).2.symm⟩
      rw [hdown, show Phase.emits (.sending (errorFrame 6) .stop) = [errorFrame 6] from rfl, hsix]
      exact .answer hclient hp (.inr ⟨hcount, rfl⟩)
  | badFrame hphase hlen =>
    rw [hphase] at hahead
    obtain ⟨-, -, -, -, -, -, -, hgood, -⟩ := Round.read_of h₀ hahead hhello (hframe _ rfl)
    exact absurd hgood hlen
  | inactive hphase =>
    rw [hphase] at hahead
    obtain ⟨action, k, rfl, hclient, -, -, hcount, -, hup, hdown⟩ := Round.read_of h₀ hahead hhello (hframe _ rfl)
    have hbytes : w.down ++ stream [errorFrame 7] = encode (errorFrame 7) := by rw [hdown, hone]
    refine ⟨.answered hclient hcount hup hbytes (by decide), ?_⟩
    have hfit : Fit made w₀ w.service t slot w.client (encode (errorFrame 7) ++ []) :=
      .answer hclient (.inl rfl) (.inl rfl)
    rw [List.append_nil] at hfit
    exact hbytes.symm ▸ hfit
  | taken hphase =>
    rw [hphase] at hahead
    obtain ⟨action, k, rfl, hclient, hdata, hpos, hcount, -, hup, hdown⟩ :=
      Round.read_of h₀ hahead hhello (hframe _ rfl)
    rw [hquiet rfl]
    exact ⟨.round (.inl rfl) hclient hdata hpos hcount hup hdown, ho.fit⟩

/-- A step of the service leaves the client where it was. -/
theorem Open.service {w : GraphicsWorld} {x : ServiceAction} {up' : List UInt8} (h₀ : gameInit id a b = some w₀)
    (ho : Open made w₀ t slot w) (hi : ServiceInv config w₀ w.service) (hsync : w.service.Synced made)
    (hn : serviceNext config w.service x = some (e, s')) (hl : x.leaves t w.up = some up') :
    Open made w₀ t slot { w with
      service := s'
      up := up'
      down := w.down ++ stream (w.service.emitted s' t) } := by
  have hle : w.service.world.tick ≤ s'.world.tick := tick_service ⟨x, hn⟩
  cases handler_step t hn with
  | same hh hx =>
    have hplays : ∀ slot, w.service.Plays t slot → s'.Plays t slot := by
      rintro slot ⟨h, hwas, hslot⟩
      exact ⟨h, hh.trans hwas, hslot⟩
    rw [leaves_kept hx] at hl
    obtain rfl := Option.some.inj hl
    have hdown : w.down ++ stream (w.service.emitted s' t) = w.down := by
      rw [emitted_kept hh]
      exact List.append_nil _
    constructor
    · show Ahead w.client w.up (w.down ++ _) ((s'.handlers t).map Handler.phase)
      rw [hdown, hh]
      exact ho.ahead
    · show Fit made w₀ s' t slot w.client (w.down ++ _)
      rw [hdown]
      exact ho.fit.mono hplays hle
    · exact ho.stage.imp_right (fun hhail => hhail.mono hplays hle)
  | joined h hnew hh hp hx =>
    have hfirst : w.client.phase = .connecting ∧ w.up = [] ∧ w.down = [] := by
      have := ho.ahead
      rwa [hnew] at this
    obtain ⟨hphase, hup, hdown⟩ := hfirst
    rw [leaves_kept hx] at hl
    obtain rfl := Option.some.inj hl
    have hemit : w.service.emitted s' t = h.phase.emits :=
      emitted_moved (p := h.phase) hh (fun _ => by rw [hnew]; exact fun he => by cases he)
    have hstage : w.client = .boot := ho.stage.resolve_right (fun hhail => hhail.phase hphase)
    constructor
    · show Ahead w.client w.up (w.down ++ _) ((s'.handlers t).map Handler.phase)
      rw [hemit, hh, Option.map_some, hdown]
      generalize h.phase = q at hp
      cases hp with
      | refused => exact trivial
      | asked job hjob => exact .first hjob hphase hup rfl
    · show Fit made w₀ s' t slot w.client (w.down ++ _)
      rw [hemit, hdown]
      generalize h.phase = q at hp
      cases hp with
      | refused code hcode =>
        have hone : [] ++ stream [errorFrame code] = encode (errorFrame code) := by simp [stream]
        refine hone.symm ▸ .refused hphase ?_
        rcases hcode with rfl | rfl
        · exact .inl rfl
        · exact .inr (.inr (.inr rfl))
      | asked => exact .nothing
    · exact .inl hstage
  | moved h q hwas hh hgoes =>
    have hplays : ∀ slot, w.service.Plays t slot → s'.Plays t slot := by
      rintro slot ⟨h', hwas', hslot⟩
      rw [hwas] at hwas'
      obtain rfl := Option.some.inj hwas'
      exact ⟨_, hh, hslot⟩
    have hemit : w.service.emitted s' t = q.emits := by
      refine emitted_moved hh ?_
      intro hemits he
      rw [hwas] at he
      have hsame : h.phase = q := congrArg Handler.phase (Option.some.inj he)
      exact hgoes.moves hemits hsame
    obtain ⟨hahead, hfit⟩ := ho.goes h₀ hsync hi.world hwas hgoes hl
    constructor
    · show Ahead w.client up' (w.down ++ _) ((s'.handlers t).map Handler.phase)
      rw [hemit, hh]
      exact hahead
    · show Fit made w₀ s' t slot w.client (w.down ++ _)
      rw [hemit]
      exact hfit.mono hplays hle
    · exact ho.stage.imp_right (fun hhail => hhail.mono hplays hle)

end

end ArenaLab
