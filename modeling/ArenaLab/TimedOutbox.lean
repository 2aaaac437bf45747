import ArenaLab.OutboxIds
import Mathlib.Data.Rat.Defs

/-! The gateway process with its clock and the pipe to its parent: the deadlines of the output
task, the heartbeat's pauses, the age of the queued frames and the second that an opened
channel waits. -/

namespace ArenaLab

/-- The process at a time, in seconds. `stamps` are when the queued frames were put, `writing`
since when the output task has been writing the frame that it took, and its length, `due` when the
heartbeat may come next and `asked` since when a task waits in `advertise`; of the `size` bytes that
the pipe holds, `pipe` wait for the parent. -/
structure TimedOutbox where
  outbox : Outbox
  now : ℚ
  stamps : List ℚ
  writing : Option (ℚ × ℕ)
  due : ℚ
  asked : ℕ → ℚ
  size : ℕ
  pipe : ℕ

def TimedOutbox.boot (config : GatewayConfig) (generation size : ℕ) : TimedOutbox :=
  ⟨.boot config generation, 0, [], none, 0, fun _ => 0, size, 0⟩

/-- `wrote` is the pipe that takes the frame, whole as it is shorter than a page; `read` is the
parent. -/
inductive TimedAction
  | tick (seconds : ℚ)
  | task (a : GatewayAction)
  | take
  | wrote
  | read (bytes : ℕ)
  | stop

/-- The heartbeat sleeps, and `advertise` gives up after a second or with the whole process. -/
def TimedOutbox.allows (s : TimedOutbox) : GatewayAction → Bool
  | .beat => s.due ≤ s.now
  | .fail t =>
    match s.outbox.gateway.tasks t with
    | some (.advertised _) => s.outbox.gateway.stopping || s.asked t + 1 ≤ s.now
    | _ => true
  | _ => true

/-- What a step of the tasks leaves of the clocks. -/
def TimedOutbox.stamp (s : TimedOutbox) (a : GatewayAction) (e : OutboxEvent) (o : Outbox) : TimedOutbox :=
  { s with
    outbox := o
    stamps := s.stamps ++ (e.put.map (fun _ => s.now)).toList
    due := match a with
      | .beat => s.now + 1 / 4
      | _ => s.due
    asked := match a with
      | .openAck t => Function.update s.asked t s.now
      | _ => s.asked }

def timedNext (s : TimedOutbox) (a : TimedAction) : Option (OutboxEvent × TimedOutbox) :=
  match a with
  | .tick seconds => if seconds ≤ 0 then none else some (.silent, { s with now := s.now + seconds })
  | .task a =>
    if !s.allows a then none
    else (outboxNext s.outbox (.gateway a)).map (fun r => (r.1, s.stamp a r.1 r.2))
  | .take =>
    match s.writing, s.stamps with
    | none, put :: rest =>
      if 1 / 5 < s.now - put then (outboxNext s.outbox .stop).map (fun r => (r.1, { s with outbox := r.2 }))
      else (outboxNext s.outbox .output).map (fun r =>
        (r.1, { s with
          outbox := r.2
          stamps := rest
          writing := s.outbox.queue.head?.map (fun f => (s.now, f.data.length)) }))
    | _, _ => none
  | .wrote =>
    match s.writing with
    | none => none
    | some (since, bytes) =>
      if since + 1 / 5 ≤ s.now ∨ s.size < s.pipe + bytes then none
      else some (.silent, { s with writing := none, pipe := s.pipe + bytes })
  | .read bytes =>
    if bytes = 0 ∨ s.pipe < bytes then none else some (.silent, { s with pipe := s.pipe - bytes })
  | .stop => (outboxNext s.outbox .stop).map (fun r => (r.1, { s with outbox := r.2 }))

abbrev TimedStep := Runs.Induced timedNext

/-- A step that meets the condition. -/
def RoomyStep (s : TimedOutbox) (e : OutboxEvent) (s' : TimedOutbox) : Prop :=
  ∃ a, timedNext s a = some (e, s') ∧ ∀ b, a = .task b → s.outbox.Roomy (.gateway b)

section

variable {τ : List OutboxEvent} {s s' : TimedOutbox} {e : OutboxEvent} {a : TimedAction} {config : GatewayConfig}
  {generation size : ℕ}

/-- Without the clock a step is one of the process, or none at all. -/
theorem timedNext_outbox (h : timedNext s a = some (e, s')) :
    e = .silent ∧ s'.outbox = s.outbox ∨
    ∃ b, outboxNext s.outbox b = some (e, s'.outbox) ∧ ∀ g, b = .gateway g → a = .task g := by
  cases a with
  | tick seconds =>
    simp only [timedNext] at h
    split at h <;> cases h
    exact .inl ⟨rfl, rfl⟩
  | task a =>
    simp only [timedNext] at h
    split at h
    · cases h
    · obtain ⟨r, hr, heq⟩ := Option.map_eq_some_iff.mp h
      cases heq
      refine .inr ⟨_, hr, ?_⟩
      rintro g ⟨⟩
      rfl
  | take =>
    simp only [timedNext] at h
    split at h
    · split at h
      · obtain ⟨r, hr, heq⟩ := Option.map_eq_some_iff.mp h
        cases heq
        exact .inr ⟨_, hr, by simp⟩
      · obtain ⟨r, hr, heq⟩ := Option.map_eq_some_iff.mp h
        cases heq
        exact .inr ⟨_, hr, by simp⟩
    · cases h
  | wrote =>
    simp only [timedNext] at h
    split at h
    · cases h
    · split at h <;> cases h
      exact .inl ⟨rfl, rfl⟩
  | read bytes =>
    simp only [timedNext] at h
    split at h <;> cases h
    exact .inl ⟨rfl, rfl⟩
  | stop =>
    obtain ⟨r, hr, heq⟩ := Option.map_eq_some_iff.mp h
    cases heq
    exact .inr ⟨_, hr, by simp⟩

theorem roomy_other {o : Outbox} {b : OutboxAction} (h : ∀ g, b ≠ .gateway g) : o.Roomy b := by
  rintro g m g' rfl
  exact absurd rfl (h g)

theorem RoomyStep.numbered (h : Numbered τ s.outbox) (hs : RoomyStep s e s') : Numbered (τ ++ [e]) s'.outbox := by
  obtain ⟨a, ha, hroom⟩ := hs
  rcases timedNext_outbox ha with ⟨rfl, hsame⟩ | ⟨b, hb, htask⟩
  · rw [hsame]
    exact h.silent rfl rfl rfl h.last
  · refine h.step hb ?_
    cases b with
    | gateway g => exact hroom g (htask g rfl)
    | output => exact roomy_other (by simp)
    | stop => exact roomy_other (by simp)

theorem RoomyStep.step (h : RoomyStep s e s') : TimedStep s e s' := by
  obtain ⟨a, ha, -⟩ := h
  exact ⟨a, ha⟩

end

end ArenaLab
