import ArenaLab.IpcFrames

/-! The client's gateway process, and what it emits. -/

namespace ArenaLab

open GatewayProcess

/-- Where `connect` is on the client. -/
inductive ConnectPhase
  | connecting
  | opened (c : HexStr 32)
  | ready (c : HexStr 32)
  | advertised (c : HexStr 32)
  | closing

/-- The client's process. Of its outbox only the count, the queue and the pipe are used. -/
structure ClientProcess where
  outbox : Outbox
  phase : ConnectPhase

def ClientProcess.boot (config : GatewayConfig) (generation : ℕ) : ClientProcess :=
  ⟨.boot config generation, .connecting⟩

/-- `connect` ends: `retire` emits its last message and waits for its writer to close. The other
tasks go on until `stop`, when the end of `connect` is seen. -/
def ClientProcess.leave (s : ClientProcess) (c : HexStr 32) : Option QueuedFrame × ClientProcess :=
  let r := s.outbox.emit (.routeClose c)
  (r.1, ⟨r.2, .closing⟩)

/-- `connect` emits one message and goes on, or ends where `emit` raises. -/
def ClientProcess.say (s : ClientProcess) (c : HexStr 32) (m : GatewayMessage) (phase : ConnectPhase) :
    Option QueuedFrame × ClientProcess :=
  match s.outbox.emit m with
  | (some f, o) => (some f, ⟨o, phase⟩)
  | (none, o) => { s with outbox := o }.leave c

inductive ClientAction
  | opened (c : HexStr 32)
  | ready
  | advertise (attestor : HexStr 64) (port : ℕ) (remote_run session : HexStr 32)
  | leave
  | beat
  | output
  | stop

def clientNext (s : ClientProcess) (a : ClientAction) : Option (OutboxEvent × ClientProcess) :=
  if !s.outbox.running then none
  else match a, s.phase with
    | .opened c, .connecting => some (.silent, { s with phase := .opened c })
    | .ready, .opened c =>
      let r := s.say c (.ready 0) (.ready c)
      some (.ofFrame r.1, r.2)
    | .advertise attestor port remote_run session, .ready c =>
      if port = 0 ∨ 65535 < port then none
      else
        let r := s.say c (.routeOpen ⟨c, attestor, "127.0.0.1", port, remote_run, session⟩) (.advertised c)
        some (.ofFrame r.1, r.2)
    | .leave, .opened c => some (.ofFrame (s.leave c).1, (s.leave c).2)
    | .leave, .ready c => some (.ofFrame (s.leave c).1, (s.leave c).2)
    | .leave, .advertised c => some (.ofFrame (s.leave c).1, (s.leave c).2)
    | .beat, _ =>
      match s.outbox.emit .heartbeat with
      | (some f, o) => some (.entered f, { s with outbox := o })
      | (none, o) => some (.silent, { s with outbox := { o with running := false } })
    | .output, _ =>
      match s.outbox.queue with
      | [] => none
      | f :: rest =>
        some (.written f, { s with outbox := { s.outbox with queue := rest, bytes := s.outbox.bytes - f.data.length } })
    | .stop, _ => some (.silent, { s with outbox := { s.outbox with running := false } })
    | _, _ => none

abbrev ClientStep := Runs.Induced clientNext

/-- Whether `READY` has been emitted. -/
def ConnectPhase.said : ConnectPhase → Bool
  | .ready _ => true
  | .advertised _ => true
  | _ => false

structure ClientInv (config : GatewayConfig) (generation : ℕ) (F : List QueuedFrame) (s : ClientProcess) : Prop where
  run : s.outbox.gateway.config.run = config.run
  serial : s.outbox.generation = generation
  sent : WellSent config.run generation F
  ready : s.phase ≠ .closing → readyIn F = s.phase.said

section

variable {config : GatewayConfig} {generation : ℕ} {F : List QueuedFrame} {f : QueuedFrame} {o' : Outbox}
  {m : GatewayMessage} {s s' : ClientProcess} {phase : ConnectPhase} {c : HexStr 32} {τ : List OutboxEvent}
  {e : OutboxEvent}

theorem ClientInv.entered (h : ClientInv config generation F s) (hm : m.WellFormed) (ho : Orders (readyIn F) m)
    (he : s.outbox.emit m = (some f, o')) :
    WellSent config.run generation (F ++ [f]) ∧ readyIn (F ++ [f]) = (readyIn F || announcesReady m) := by
  obtain ⟨hf, hrequest, hmessage⟩ := emit_framed he
  rw [h.run, h.serial] at hf
  refine ⟨h.sent.snoc hf hrequest ?_ ?_, ?_⟩
  · rw [hmessage]
    exact hm
  · rw [hmessage]
    exact ho
  · rw [readyIn_snoc, hmessage]

theorem ClientInv.leave (h : ClientInv config generation F s) (c : HexStr 32) :
    ClientInv config generation (F ++ (s.leave c).1.toList) (s.leave c).2 := by
  cases he : s.outbox.emit (.routeClose c) with
  | mk r o' =>
    have hrun := emit_run he
    have hserial := (emit_generation he).1
    have hleave : s.leave c = (r, ⟨o', .closing⟩) := by
      rw [ClientProcess.leave, he]
    rw [hleave]
    refine ⟨hrun.trans h.run, hserial.trans h.serial, ?_, fun hf => absurd rfl hf⟩
    cases r with
    | none => simpa using h.sent
    | some f => exact (h.entered (m := .routeClose c) trivial trivial he).1

theorem ClientInv.say (h : ClientInv config generation F s) (hopen : s.phase ≠ .closing) (hm : m.WellFormed)
    (ho : Orders s.phase.said m) (hphase : phase.said = (s.phase.said || announcesReady m)) :
    ClientInv config generation (F ++ (s.say c m phase).1.toList) (s.say c m phase).2 := by
  have hready := h.ready hopen
  unfold ClientProcess.say
  split
  · rename_i f o' he
    obtain ⟨hsent, hlast⟩ := h.entered hm (by rw [hready]; exact ho) he
    refine ⟨(emit_run he).trans h.run, (emit_generation he).1.trans h.serial, hsent, fun _ => ?_⟩
    rw [Option.toList_some, hlast, hready, hphase]
  · rename_i o' he
    have hnext : ClientInv config generation F { s with outbox := o' } :=
      ⟨(emit_run he).trans h.run, (emit_generation he).1.trans h.serial, h.sent, h.ready⟩
    exact hnext.leave c

theorem put_ofFrame (r : Option QueuedFrame) : (OutboxEvent.ofFrame r).put = r := by
  cases r <;> rfl

theorem ClientInv.beat (h : ClientInv config generation F s) {r : Option QueuedFrame} (running : Bool)
    (he : s.outbox.emit .heartbeat = (r, o')) :
    ClientInv config generation (F ++ r.toList) { s with outbox := { o' with running := running } } := by
  refine ⟨(emit_run he).trans h.run, (emit_generation he).1.trans h.serial, ?_, ?_⟩
  · cases r with
    | none => simpa using h.sent
    | some f => exact (h.entered (m := .heartbeat) trivial trivial he).1
  · intro hf
    cases r with
    | none => simpa using h.ready hf
    | some f =>
      rw [Option.toList_some, (h.entered (m := .heartbeat) trivial trivial he).2, h.ready hf]
      exact Bool.or_false _

theorem ClientInv.step (h : ClientInv config generation (enteredIn τ) s) (hs : ClientStep s e s') :
    ClientInv config generation (enteredIn (τ ++ [e])) s' := by
  obtain ⟨b, hs⟩ := hs
  rw [enteredIn_snoc]
  unfold clientNext at hs
  split at hs
  · cases hs
  · split at hs
    · rename_i hphase
      have hsaid : readyIn (enteredIn τ) = false := (h.ready (by rw [hphase]; simp)).trans (by rw [hphase]; rfl)
      cases hs
      refine ⟨h.run, h.serial, by simpa [OutboxEvent.put] using h.sent, fun _ => ?_⟩
      simpa [OutboxEvent.put, ConnectPhase.said] using hsaid
    · rename_i c hphase
      cases hs
      rw [put_ofFrame]
      exact h.say (by rw [hphase]; simp) (show (0 : ℕ) ≤ 65535 by omega)
        (show s.phase.said = false by rw [hphase]; rfl) (by rw [hphase]; rfl)
    · rename_i attestor port remote_run session c hphase
      split at hs
      · cases hs
      · rename_i hport
        cases hs
        rw [put_ofFrame]
        exact h.say (by rw [hphase]; simp) ⟨rfl, by dsimp only; omega, by dsimp only; omega⟩
          (show s.phase.said = true by rw [hphase]; rfl) (by rw [hphase]; rfl)
    · cases hs
      rw [put_ofFrame]
      exact h.leave _
    · cases hs
      rw [put_ofFrame]
      exact h.leave _
    · cases hs
      rw [put_ofFrame]
      exact h.leave _
    · split at hs
      · rename_i f o' he
        cases hs
        exact h.beat o'.running he
      · rename_i o' he
        cases hs
        exact h.beat _ he
    · split at hs
      · cases hs
      · cases hs
        exact ⟨h.run, h.serial, by simpa [OutboxEvent.put] using h.sent, by simpa [OutboxEvent.put] using h.ready⟩
    · cases hs
      exact ⟨h.run, h.serial, by simpa [OutboxEvent.put] using h.sent, by simpa [OutboxEvent.put] using h.ready⟩
    · cases hs

theorem client_wellSent (hr : Runs.Steps ClientStep (.boot config generation) τ s) :
    WellSent config.run generation (enteredIn τ) := by
  have h : ClientInv config generation (enteredIn τ) s :=
    hr.history (I := fun τ s => ClientInv config generation (enteredIn τ) s)
      ⟨rfl, rfl, wellSent_nil _ _, fun _ => rfl⟩ (fun _ _ _ _ _ h hs => h.step hs)
  exact h.sent

end

end ArenaLab
