import ArenaLab.GatewayChannels
import ArenaLab.GatewayIpc

/-! The gateway process between its tasks and its pipe: `emit` numbers a message and
puts its frame into a bounded queue, from which the output task takes them. -/

namespace ArenaLab

structure QueuedFrame where
  request : ℕ
  message : GatewayMessage
  data : List UInt8

/-- The process; `generation` is what the parent has configured. -/
structure Outbox where
  gateway : Gateway
  generation : ℕ
  queue : List QueuedFrame
  bytes : ℕ
  running : Bool

def Outbox.boot (config : GatewayConfig) (generation : ℕ) : Outbox :=
  ⟨.boot config, generation, [], 0, true⟩

def Outbox.numbered (o : Outbox) (tx : ℕ) : Outbox := { o with gateway := { o.gateway with tx := tx } }

/-- The frame that `emit` builds for the next id. -/
def Outbox.nextFrame (o : Outbox) (m : GatewayMessage) : Option QueuedFrame :=
  (ipcFrame o.gateway.config.run o.generation (o.gateway.tx + 1) m).map
    (fun data => ⟨o.gateway.tx + 1, m, data⟩)

/-- `BoundedQueue.put` does not raise. -/
def Outbox.fits (o : Outbox) (f : QueuedFrame) : Bool :=
  o.bytes + f.data.length ≤ 262144 && o.queue.length < 128

def Outbox.put (o : Outbox) (f : QueuedFrame) : Outbox :=
  { o with queue := o.queue ++ [f], bytes := o.bytes + f.data.length }

/-- `emit`: no frame is returned where it raises. The id is taken before the frame is built
and queued, except that there is none after the last one. -/
def Outbox.emit (o : Outbox) (m : GatewayMessage) : Option QueuedFrame × Outbox :=
  if maxRequest ≤ o.gateway.tx then (none, o)
  else match o.nextFrame m with
    | none => (none, o.numbered (o.gateway.tx + 1))
    | some f =>
      if o.fits f then (some f, (o.numbered (o.gateway.tx + 1)).put f)
      else (none, o.numbered (o.gateway.tx + 1))

/-- `serve_socket` after `advertise` has raised for want of room: the channel is retired. -/
def Outbox.abandon (o : Outbox) (t : ℕ) : Option QueuedFrame × Outbox :=
  match o.gateway.channelOf t with
  | none => (none, o)
  | some c =>
    match o.gateway.leave t c with
    | (none, g) => (none, { o with gateway := g })
    | (some m, g) => ({ o with gateway := g }.numbered o.gateway.tx).emit m

/-- One step of the tasks. Where the heartbeat or the listener cannot emit the process ends;
a channel only loses its message. -/
def Outbox.act (o : Outbox) (a : GatewayAction) : Option (Option QueuedFrame × Outbox) :=
  match gatewayNext o.gateway a with
  | none => none
  | some (none, g) => some (none, { o with gateway := g })
  | some (some m, g) =>
    match ({ o with gateway := g }.numbered o.gateway.tx).emit m, a with
    | (some f, o'), _ => some (some f, o')
    | (none, o'), .listen _ => some (none, { o' with running := false })
    | (none, o'), .beat => some (none, { o' with running := false })
    | (none, o'), .openAck t => some ((o.numbered o'.gateway.tx).abandon t)
    | (none, o'), _ => some (none, o')

/-- `stop` is a task of the process that raises by itself, or the end of its input. -/
inductive OutboxAction
  | gateway (a : GatewayAction)
  | output
  | stop

inductive OutboxEvent
  | silent
  | entered (f : QueuedFrame)
  | written (f : QueuedFrame)

def outboxNext (o : Outbox) (a : OutboxAction) : Option (OutboxEvent × Outbox) :=
  if !o.running then none
  else match a with
    | .gateway a =>
      match o.act a with
      | none => none
      | some (none, o') => some (.silent, o')
      | some (some f, o') => some (.entered f, o')
    | .output =>
      match o.queue with
      | [] => none
      | f :: rest => some (.written f, { o with queue := rest, bytes := o.bytes - f.data.length })
    | .stop => some (.silent, { o with running := false })

abbrev OutboxStep := Runs.Induced outboxNext

def OutboxEvent.put : OutboxEvent → Option QueuedFrame
  | .entered f => some f
  | _ => none

def OutboxEvent.got : OutboxEvent → Option QueuedFrame
  | .written f => some f
  | _ => none

def OutboxEvent.ofFrame : Option QueuedFrame → OutboxEvent
  | none => .silent
  | some f => .entered f

/-- The frames that entered the queue, in this order. -/
def enteredIn (τ : List OutboxEvent) : List QueuedFrame := τ.filterMap OutboxEvent.put

/-- The frames that the output task has taken, in this order. -/
def writtenIn (τ : List OutboxEvent) : List QueuedFrame := τ.filterMap OutboxEvent.got

theorem enteredIn_snoc (τ : List OutboxEvent) (e : OutboxEvent) :
    enteredIn (τ ++ [e]) = enteredIn τ ++ e.put.toList := by
  cases he : e.put <;> simp [enteredIn, he]

theorem writtenIn_snoc (τ : List OutboxEvent) (e : OutboxEvent) :
    writtenIn (τ ++ [e]) = writtenIn τ ++ e.got.toList := by
  cases he : e.got <;> simp [writtenIn, he]

section

variable {o o' : Outbox} {m : GatewayMessage} {f : QueuedFrame} {a : GatewayAction}

theorem emit_some (h : o.emit m = (some f, o')) : o.nextFrame m = some f ∧ o.fits f = true ∧
    o.gateway.tx < maxRequest ∧ o' = (o.numbered (o.gateway.tx + 1)).put f := by
  unfold Outbox.emit at h
  split at h
  · cases h
  · rename_i htx
    split at h
    · cases h
    · rename_i f' hf
      split at h
      · rename_i hfits
        cases h
        exact ⟨hf, hfits, by omega, rfl⟩
      · cases h

theorem emit_none (h : o.emit m = (none, o')) : maxRequest ≤ o.gateway.tx ∧ o' = o ∨
    o.gateway.tx < maxRequest ∧ (∀ f, o.nextFrame m = some f → o.fits f = false) ∧
      o' = o.numbered (o.gateway.tx + 1) := by
  unfold Outbox.emit at h
  split at h
  · rename_i htx
    cases h
    exact .inl ⟨htx, rfl⟩
  · rename_i htx
    refine .inr ⟨by omega, ?_⟩
    split at h
    · rename_i hf
      cases h
      exact ⟨fun f hf' => (by rw [hf] at hf'; cases hf'), rfl⟩
    · rename_i f' hf
      split at h
      · cases h
      · rename_i hfits
        cases h
        refine ⟨fun f hf' => ?_, rfl⟩
        rw [hf] at hf'
        cases hf'
        simpa using hfits

theorem nextFrame_eq (h : o.nextFrame m = some f) : f.request = o.gateway.tx + 1 ∧ f.message = m := by
  obtain ⟨data, _, rfl⟩ := Option.map_eq_some_iff.1 h
  exact ⟨rfl, rfl⟩

/-- What one step of the tasks can do to the process. -/
inductive OutboxChange (o : Outbox) (a : GatewayAction) : Option QueuedFrame → Outbox → Prop
  | quiet {g : Gateway} (h : gatewayNext o.gateway a = some (none, g)) :
      OutboxChange o a none { o with gateway := g }
  | sent {m : GatewayMessage} {g : Gateway} {f : QueuedFrame} {o' : Outbox}
      (h : gatewayNext o.gateway a = some (some m, g))
      (he : ({ o with gateway := g }.numbered o.gateway.tx).emit m = (some f, o')) : OutboxChange o a (some f) o'
  | ended {m : GatewayMessage} {g : Gateway} {o' : Outbox} (h : gatewayNext o.gateway a = some (some m, g))
      (he : ({ o with gateway := g }.numbered o.gateway.tx).emit m = (none, o'))
      (ha : a = .beat ∨ ∃ port, a = .listen port) : OutboxChange o a none { o' with running := false }
  | lost {m : GatewayMessage} {g : Gateway} {o' : Outbox} (h : gatewayNext o.gateway a = some (some m, g))
      (he : ({ o with gateway := g }.numbered o.gateway.tx).emit m = (none, o'))
      (ha : a ≠ .beat ∧ (∀ port, a ≠ .listen port) ∧ ∀ t, a ≠ .openAck t) : OutboxChange o a none o'
  | abandoned {m : GatewayMessage} {g : Gateway} {t : ℕ} {o₁ : Outbox}
      (h : gatewayNext o.gateway a = some (some m, g))
      (he : ({ o with gateway := g }.numbered o.gateway.tx).emit m = (none, o₁)) (ha : a = .openAck t) :
      OutboxChange o a ((o.numbered o₁.gateway.tx).abandon t).1 ((o.numbered o₁.gateway.tx).abandon t).2

theorem act_change {r : Option QueuedFrame × Outbox} (h : o.act a = some r) : OutboxChange o a r.1 r.2 := by
  unfold Outbox.act at h
  split at h
  · cases h
  · rename_i g hg
    cases h
    exact .quiet hg
  · rename_i m g hg
    split at h
    · rename_i he
      cases h
      exact .sent hg he
    · rename_i port he
      cases h
      exact .ended hg he (.inr ⟨port, rfl⟩)
    · rename_i he
      cases h
      exact .ended hg he (.inl rfl)
    · rename_i t he
      cases h
      exact .abandoned hg he rfl
    · rename_i o₁ he hlisten hbeat hack
      cases h
      exact .lost hg he ⟨hbeat, hlisten, hack⟩

end

end ArenaLab
