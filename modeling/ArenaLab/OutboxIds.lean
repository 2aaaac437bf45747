import ArenaLab.Outbox
import Mathlib.Data.List.Range

/-! The ids of the frames in the queue. An id is spent before its frame is queued, so
the ids have no gap as long as the channels find room for what they emit. -/

namespace ArenaLab

/-- The queue takes what a channel emits in this step. -/
def Outbox.Roomy (o : Outbox) (a : OutboxAction) : Prop :=
  ∀ b m g, a = .gateway b → b ≠ .beat → (∀ port, b ≠ .listen port) →
    gatewayNext o.gateway b = some (some m, g) → o.gateway.tx < maxRequest →
    ∃ f, ({ o with gateway := g }.numbered o.gateway.tx).nextFrame m = some f ∧ o.fits f = true

/-- Contiguous ids in queue order, all spent ids accounted for while the process runs. -/
structure Numbered (τ : List OutboxEvent) (o : Outbox) : Prop where
  fifo : enteredIn τ = writtenIn τ ++ o.queue
  ids : (enteredIn τ).map QueuedFrame.request = List.range' 1 (enteredIn τ).length
  last : o.running = true → (enteredIn τ).length = o.gateway.tx

section

variable {τ : List OutboxEvent} {o o' : Outbox} {e : OutboxEvent} {g g' : Gateway} {f : QueuedFrame}
  {a : GatewayAction}

theorem retire_silent {c : HexStr 32} (h : g.retire c = (none, g')) : g'.tx = g.tx := by
  unfold Gateway.retire at h
  dsimp only at h
  split at h
  · cases h
    rfl
  · cases h

theorem leave_silent {t : ℕ} {c : HexStr 32} (h : g.leave t c = (none, g')) : g'.tx = g.tx := by
  unfold Gateway.leave at h
  have htx := retire_silent h
  exact htx

/-- A step that emits nothing spends no id. -/
theorem gatewayNext_silent (h : gatewayNext g a = some (none, g')) : g'.tx = g.tx := by
  cases a with
  | listen port =>
    simp only [gatewayNext] at h
    split at h <;> cases h
  | accept t =>
    simp only [gatewayNext] at h
    split at h
    · cases h
    · split at h <;> cases h <;> rfl
  | handshake t fingerprint c port =>
    simp only [gatewayNext] at h
    split at h
    · obtain ⟨g₁, hg, heq⟩ := Option.map_eq_some_iff.1 h
      cases heq
      simp only [Gateway.handshake] at hg
      split at hg
      · cases hg
        rfl
      split at hg
      · cases hg
        rfl
      split at hg
      · cases hg
        rfl
      split at hg <;> cases hg
      rfl
    · cases h
  | openAck t =>
    simp only [gatewayNext] at h
    split at h
    · obtain ⟨channel, _, heq⟩ := Option.map_eq_some_iff.1 h
      cases heq
    · cases h
  | acked t =>
    simp only [gatewayNext] at h
    split at h
    · obtain ⟨channel, _, heq⟩ := Option.bind_eq_some_iff.1 h
      split at heq
      · cases heq
      · split at heq
        · exact leave_silent (Option.some.inj heq)
        · cases heq
          rfl
    · cases h
  | fail t =>
    simp only [gatewayNext] at h
    split at h
    · cases h
      rfl
    · exact leave_silent (Option.some.inj h)
    · exact leave_silent (Option.some.inj h)
    · exact leave_silent (g := { g with pending := g.pending + 1 }) (Option.some.inj h)
    · cases h
  | finish t =>
    simp only [gatewayNext] at h
    split at h <;> cases h
    rfl
  | routeAck c request =>
    simp only [gatewayNext] at h
    split at h
    · cases h
    · split at h
      · cases h
        rfl
      · cases h
        unfold Gateway.acknowledge
        split <;> rfl
  | routeClose c =>
    simp only [gatewayNext] at h
    split at h
    · cases h
    · split at h
      · cases h
        split <;> rfl
      · cases h
        rfl
  | badCommand =>
    simp only [gatewayNext] at h
    split at h <;> cases h
    rfl
  | beat =>
    simp only [gatewayNext] at h
    split at h <;> cases h
  | close =>
    cases h
    rfl

theorem Numbered.silent (h : Numbered τ o) (he : e.put = none) (hg : e.got = none) (hq : o'.queue = o.queue)
    (hlast : o'.running = true → (enteredIn τ).length = o'.gateway.tx) : Numbered (τ ++ [e]) o' := by
  have hin : enteredIn (τ ++ [e]) = enteredIn τ := by
    rw [enteredIn_snoc, he]
    exact List.append_nil _
  have hout : writtenIn (τ ++ [e]) = writtenIn τ := by
    rw [writtenIn_snoc, hg]
    exact List.append_nil _
  refine ⟨?_, ?_, ?_⟩
  · rw [hin, hout, hq]
    exact h.fifo
  · rw [hin]
    exact h.ids
  · rw [hin]
    exact hlast

theorem Numbered.entered (h : Numbered τ o) (hrun : o.running = true) (hf : f.request = o.gateway.tx + 1)
    (hq : o'.queue = o.queue ++ [f]) (htx : o'.gateway.tx = o.gateway.tx + 1) :
    Numbered (τ ++ [.entered f]) o' := by
  have hin : enteredIn (τ ++ [.entered f]) = enteredIn τ ++ [f] := enteredIn_snoc τ _
  have hout : writtenIn (τ ++ [.entered f]) = writtenIn τ := by
    rw [writtenIn_snoc]
    exact List.append_nil _
  have hlen := h.last hrun
  refine ⟨?_, ?_, ?_⟩
  · rw [hin, hout, hq, h.fifo, List.append_assoc]
  · rw [hin, List.map_append, h.ids, List.length_append, List.length_singleton, List.range'_1_concat,
      List.map_singleton, hf, hlen, Nat.add_comm 1]
  · intro _
    rw [hin, List.length_append, List.length_singleton, hlen, htx]

theorem Numbered.written {rest : List QueuedFrame} (h : Numbered τ o) (hq : o.queue = f :: rest)
    (hq' : o'.queue = rest) (hrun : o'.running = o.running) (htx : o'.gateway.tx = o.gateway.tx) :
    Numbered (τ ++ [.written f]) o' := by
  have hin : enteredIn (τ ++ [.written f]) = enteredIn τ := by
    rw [enteredIn_snoc]
    exact List.append_nil _
  have hout : writtenIn (τ ++ [.written f]) = writtenIn τ ++ [f] := writtenIn_snoc τ _
  refine ⟨?_, ?_, ?_⟩
  · rw [hin, hout, hq', h.fifo, hq, List.append_assoc]
    rfl
  · rw [hin]
    exact h.ids
  · rw [hin, hrun, htx]
    exact h.last

/-- `emit` once the ids are exhausted. -/
theorem emit_exhausted {m : GatewayMessage} (h : maxRequest ≤ o.gateway.tx) : o.emit m = (none, o) := by
  rw [Outbox.emit, if_pos h]

theorem abandon_exhausted {t : ℕ} (h : maxRequest ≤ o.gateway.tx) : (o.abandon t).1 = none ∧
    (o.abandon t).2.queue = o.queue ∧ (o.abandon t).2.running = o.running ∧
    (o.abandon t).2.gateway.tx = o.gateway.tx := by
  unfold Outbox.abandon
  split
  · exact ⟨rfl, rfl, rfl, rfl⟩
  · split
    · rename_i g hg
      exact ⟨rfl, rfl, rfl, leave_silent hg⟩
    · rw [emit_exhausted (by exact h)]
      exact ⟨rfl, rfl, rfl, rfl⟩

theorem Numbered.act (h : Numbered τ o) (hrun : o.running = true) {r : Option QueuedFrame}
    (hc : OutboxChange o a r o') (hroom : o.Roomy (.gateway a)) :
    Numbered (τ ++ [.ofFrame r]) o' := by
  have hlast := h.last hrun
  cases hc with
  | quiet hg => exact h.silent rfl rfl rfl fun _ => hlast.trans (gatewayNext_silent hg).symm
  | sent hg he =>
    obtain ⟨hf, -, -, rfl⟩ := emit_some he
    exact h.entered hrun (nextFrame_eq hf).1 rfl rfl
  | ended hg he ha =>
    rcases emit_none he with ⟨-, rfl⟩ | ⟨-, -, rfl⟩
    · exact h.silent rfl rfl rfl fun hf => (by cases hf)
    · exact h.silent rfl rfl rfl fun hf => (by cases hf)
  | lost hg he ha =>
    rcases emit_none he with ⟨-, rfl⟩ | ⟨htx, hno, rfl⟩
    · exact h.silent rfl rfl rfl fun _ => hlast
    · obtain ⟨f, hf, hfits⟩ := hroom a _ _ rfl ha.1 ha.2.1 hg htx
      have hfull : o.fits f = false := hno f hf
      rw [hfits] at hfull
      cases hfull
  | abandoned hg he ha =>
    subst ha
    rcases emit_none he with ⟨hmax, ho⟩ | ⟨htx, hno, ho⟩
    · have hsame := congrArg (fun o => o.gateway.tx) ho
      obtain ⟨h1, h2, h3, h4⟩ := abandon_exhausted (o := o.numbered o.gateway.tx) (t := _) hmax
      rw [hsame]
      refine h1 ▸ h.silent rfl rfl h2 fun _ => ?_
      exact hlast.trans h4.symm
    · obtain ⟨f, hf, hfits⟩ := hroom _ _ _ rfl (by simp) (by simp) hg htx
      have hfull : o.fits f = false := hno f hf
      rw [hfits] at hfull
      cases hfull

theorem Numbered.step {a : OutboxAction} (h : Numbered τ o) (ha : outboxNext o a = some (e, o')) (hroom : o.Roomy a) :
    Numbered (τ ++ [e]) o' := by
  unfold outboxNext at ha
  split at ha
  · cases ha
  · rename_i hrun
    replace hrun : o.running = true := by simpa using hrun
    cases a with
    | gateway a =>
      dsimp only at ha
      split at ha
      · cases ha
      · rename_i hact
        cases ha
        exact h.act hrun (act_change hact) hroom
      · rename_i hact
        cases ha
        exact h.act hrun (act_change hact) hroom
    | output =>
      dsimp only at ha
      split at ha
      · cases ha
      · rename_i hq
        cases ha
        exact h.written hq rfl rfl rfl
    | stop =>
      cases ha
      exact h.silent rfl rfl rfl fun hf => (by cases hf)

end

end ArenaLab
