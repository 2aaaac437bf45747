import ArenaLab.OutboxCrowd
import Mathlib.Data.Finset.Card

/-! The quotas of the gateway over every interleaving, also of tasks whose messages
are lost: what waits, what is open and what is kept. -/

namespace ArenaLab

/-- An accepted socket that has reached neither `forward` nor the clean-up. -/
def ServePhase.waits : ServePhase → Bool
  | .handshaking => true
  | .opening _ => true
  | .advertised _ => true
  | _ => false

def Gateway.waits (g : Gateway) (t : ℕ) : Bool := ((g.tasks t).map ServePhase.waits).getD false

/-- What a step does to the tasks that wait and to `pending`. -/
inductive Counted (g g' : Gateway) : Prop
  | same (hw : ∀ t, g'.waits t = g.waits t) (hp : g'.pending = g.pending)
  | entered (t : ℕ) (hw : ∀ t', t' ≠ t → g'.waits t' = g.waits t') (ht : g.waits t = false)
      (ht' : g'.waits t = true) (hp : g'.pending = g.pending + 1) (hle : g'.pending ≤ 4)
  | left (t : ℕ) (hw : ∀ t', t' ≠ t → g'.waits t' = g.waits t') (ht : g.waits t = true)
      (ht' : g'.waits t = false) (hp : g'.pending = g.pending - 1)

/-- `pending` is the number of the tasks that wait. -/
structure PendingInv (g : Gateway) : Prop where
  counted : ∃ waiting : Finset ℕ, (∀ t, t ∈ waiting ↔ g.waits t = true) ∧ g.pending = waiting.card
  le : g.pending ≤ 4

section

variable {g g' g₀ : Gateway} {t t' : ℕ} {c : HexStr 32} {phase : ServePhase} {a : GatewayAction}

theorem PendingInv.step (h : PendingInv g) (hc : Counted g g') : PendingInv g' := by
  obtain ⟨⟨waiting, hmem, hcard⟩, hle⟩ := h
  cases hc with
  | same hw hp => exact ⟨⟨waiting, fun t => by rw [hmem, hw], hp.trans hcard⟩, hp ▸ hle⟩
  | entered t hw ht ht' hp hle' =>
    have hnew : t ∉ waiting := by
      rw [hmem, ht]
      decide
    refine ⟨⟨insert t waiting, fun t' => ?_, ?_⟩, hle'⟩
    · rw [Finset.mem_insert]
      by_cases he : t' = t
      · subst he
        simp [ht']
      · simp [he, hmem, hw t' he]
    · rw [Finset.card_insert_of_notMem hnew, hp, hcard]
      push_cast
      rfl
  | left t hw ht ht' hp =>
    have hold : t ∈ waiting := (hmem t).2 ht
    have hpos := Finset.card_pos.2 ⟨t, hold⟩
    refine ⟨⟨waiting.erase t, fun t' => ?_, ?_⟩, by omega⟩
    · rw [Finset.mem_erase]
      by_cases he : t' = t
      · subst he
        simp [ht']
      · simp [he, hmem, hw t' he]
    · rw [Finset.card_erase_of_mem hold, hp, hcard]
      omega

theorem waits_put_self (g : Gateway) (t : ℕ) (phase : ServePhase) : (g.put t phase).waits t = phase.waits := by
  simp [Gateway.waits, Gateway.put]

theorem waits_put_ne (g : Gateway) (phase : ServePhase) (h : t' ≠ t) : (g.put t phase).waits t' = g.waits t' := by
  simp [Gateway.waits, Gateway.put, h]

theorem waits_of_tasks (h : g.tasks t = some phase) : g.waits t = phase.waits := by
  simp [Gateway.waits, h]

theorem waits_congr (h : g'.tasks = g.tasks) (t : ℕ) : g'.waits t = g.waits t := by
  rw [Gateway.waits, h]
  rfl

/-- A task changes its phase and nothing else does. -/
theorem counted_put {phase' : ServePhase} (htasks : g₀.tasks = g.tasks) (ht : g.tasks t = some phase)
    (hp : (phase.waits = phase'.waits ∧ g₀.pending = g.pending) ∨
      (phase.waits = true ∧ phase'.waits = false ∧ g₀.pending = g.pending - 1)) :
    Counted g (g₀.put t phase') := by
  have hother : ∀ t', t' ≠ t → (g₀.put t phase').waits t' = g.waits t' := by
    intro t' hne
    rw [waits_put_ne _ _ hne, waits_congr htasks]
  rcases hp with ⟨hw, hp⟩ | ⟨hold, hnew, hp⟩
  · refine .same (fun t' => ?_) hp
    by_cases he : t' = t
    · subst he
      rw [waits_put_self, waits_of_tasks ht, hw]
    · exact hother t' he
  · refine .left t hother ?_ ?_ hp
    · rw [waits_of_tasks ht, hold]
    · rw [waits_put_self, hnew]

theorem counted_flags (htasks : g'.tasks = g.tasks) (hp : g'.pending = g.pending) : Counted g g' :=
  .same (waits_congr htasks) hp

theorem Counted.trans_flags (h : Counted g g₀) (htasks : g'.tasks = g₀.tasks) (hp : g'.pending = g₀.pending) :
    Counted g g' := by
  have hw := waits_congr htasks
  cases h with
  | same hw' hp' => exact .same (fun t => (hw t).trans (hw' t)) (hp.trans hp')
  | entered t hw' ht ht' hp' hle =>
    exact .entered t (fun t' hne => (hw t').trans (hw' t' hne)) ht ((hw t).trans ht') (hp.trans hp') (hp ▸ hle)
  | left t hw' ht ht' hp' =>
    exact .left t (fun t' hne => (hw t').trans (hw' t' hne)) ht ((hw t).trans ht') (hp.trans hp')

theorem leave_tasks (g : Gateway) (t : ℕ) (c : HexStr 32) :
    (g.leave t c).2.tasks = ({ g with pending := g.pending - 1 }.put t .closing).tasks ∧
    (g.leave t c).2.pending = g.pending - 1 := by
  simp only [Gateway.leave, Gateway.retire]
  split <;> exact ⟨rfl, rfl⟩

theorem counted_leave (ht : g.tasks t = some phase) (hp : phase.waits = true) :
    Counted g (g.leave t c).2 := by
  obtain ⟨htasks, hpending⟩ := leave_tasks g t c
  have h : Counted g ({ g with pending := g.pending - 1 }.put t .closing) :=
    counted_put rfl ht (.inr ⟨hp, rfl, rfl⟩)
  exact h.trans_flags htasks hpending

/-- The end of `forward`: the inner `finally` counts the task again before the outer one. -/
theorem counted_forwarded (ht : g.tasks t = some (.forwarding c)) :
    Counted g ({ g with pending := g.pending + 1 }.leave t c).2 := by
  obtain ⟨htasks, hpending⟩ := leave_tasks { g with pending := g.pending + 1 } t c
  have h : Counted g (g.put t .closing) := counted_put rfl ht (.inl ⟨rfl, rfl⟩)
  refine h.trans_flags htasks (hpending.trans ?_)
  change g.pending + 1 - 1 = g.pending
  omega

theorem handshake_counted {fingerprint : HexStr 64} {port : ℕ} (ht : g.tasks t = some .handshaking)
    (h : g.handshake t fingerprint c port = some g') : Counted g g' := by
  have hrefused : Counted g ({ g with pending := g.pending - 1 }.put t .closing) :=
    counted_put rfl ht (.inr ⟨rfl, rfl, rfl⟩)
  simp only [Gateway.handshake] at h
  split at h
  · exact Option.some.inj h ▸ hrefused
  split at h
  · exact Option.some.inj h ▸ hrefused
  split at h
  · exact Option.some.inj h ▸ hrefused
  split at h
  · cases h
  · obtain rfl := Option.some.inj h
    exact counted_put rfl ht (.inl ⟨rfl, rfl⟩)

theorem gatewayNext_counted {r : Option GatewayMessage × Gateway} (h : gatewayNext g a = some r) :
    Counted g r.2 := by
  cases a with
  | listen port =>
    simp only [gatewayNext] at h
    split at h <;> cases h
    exact counted_flags rfl rfl
  | accept t =>
    simp only [gatewayNext] at h
    split at h
    · cases h
    · rename_i hfree
      simp only [Bool.or_eq_true, not_or, Bool.not_eq_true, Option.isSome_eq_false_iff, Option.isNone_iff_eq_none]
        at hfree
      split at h
      · cases h
        exact counted_flags rfl rfl
      · rename_i hroom
        simp only [Bool.or_eq_true, decide_eq_true_eq, not_or, not_le] at hroom
        cases h
        refine .entered t (fun t' hne => ?_) ?_ (waits_put_self _ t _) rfl ?_
        · exact waits_put_ne _ _ hne
        · simp [Gateway.waits, hfree.1.1]
        · change g.pending + 1 ≤ 4
          omega
  | handshake t fingerprint c port =>
    simp only [gatewayNext] at h
    split at h
    · rename_i ht _
      obtain ⟨g', hg, rfl⟩ := Option.map_eq_some_iff.mp h
      exact handshake_counted ht hg
    · cases h
  | openAck t =>
    simp only [gatewayNext] at h
    split at h
    · rename_i ht _
      obtain ⟨channel, _, rfl⟩ := Option.map_eq_some_iff.mp h
      exact counted_put rfl ht (.inl ⟨rfl, rfl⟩)
    · cases h
  | acked t =>
    simp only [gatewayNext] at h
    split at h
    · rename_i ht _
      obtain ⟨channel, _, h⟩ := Option.bind_eq_some_iff.mp h
      split at h
      · cases h
      · split at h
        · cases h
          exact counted_leave ht rfl
        · cases h
          exact counted_put rfl ht (.inr ⟨rfl, rfl, rfl⟩)
    · cases h
  | fail t =>
    simp only [gatewayNext] at h
    split at h
    · rename_i ht
      cases h
      exact counted_put rfl ht (.inr ⟨rfl, rfl, rfl⟩)
    · rename_i ht
      cases h
      exact counted_leave ht rfl
    · rename_i ht
      cases h
      exact counted_leave ht rfl
    · rename_i ht
      cases h
      exact counted_forwarded ht
    · cases h
  | finish t =>
    simp only [gatewayNext] at h
    split at h
    · rename_i ht
      cases h
      exact counted_put rfl ht (.inl ⟨rfl, rfl⟩)
    · cases h
  | routeAck c request =>
    simp only [gatewayNext] at h
    split at h
    · cases h
    · split at h
      · cases h
        exact counted_flags rfl rfl
      · cases h
        unfold Gateway.acknowledge
        split <;> exact counted_flags rfl rfl
  | routeClose c =>
    simp only [gatewayNext] at h
    split at h
    · cases h
    · split at h
      · cases h
        dsimp only
        split <;> exact counted_flags rfl rfl
      · cases h
        exact counted_flags rfl rfl
  | badCommand =>
    simp only [gatewayNext] at h
    split at h <;> cases h
    exact counted_flags rfl rfl
  | beat =>
    simp only [gatewayNext] at h
    split at h <;> cases h
    exact counted_flags rfl rfl
  | close =>
    cases h
    exact counted_flags rfl rfl

/-! Channels. -/

/-- Channels only leave the table for the retired ones, and these are for ever. -/
structure Lasting (g g' : Gateway) : Prop where
  kept : ∀ c, c ∈ g.channels → c ∈ g'.channels ∨ c ∈ g'.retired_ids
  retired : ∀ c, c ∈ g.retired_ids → c ∈ g'.retired_ids

theorem Lasting.refl (g : Gateway) : Lasting g g := ⟨fun _ h => .inl h, fun _ h => h⟩

theorem Lasting.trans {g'' : Gateway} (h : Lasting g g') (h' : Lasting g' g'') : Lasting g g'' := by
  refine ⟨fun c hc => ?_, fun c hc => h'.retired c (h.retired c hc)⟩
  rcases h.kept c hc with hc | hc
  · exact h'.kept c hc
  · exact .inr (h'.retired c hc)

theorem leave_places (g : Gateway) (t : ℕ) (c : HexStr 32) :
    (g.leave t c).2.channels = g.channels.erase c ∧ (g.leave t c).2.retired_ids = g.retired_ids.insert c := by
  simp only [Gateway.leave, Gateway.retire]
  split <;> exact ⟨rfl, rfl⟩

theorem GatewayChange.lasting {m : Option GatewayMessage} (h : GatewayChange g m g') : Lasting g g' := by
  cases h with
  | quiet same _ _ _ =>
    refine ⟨fun c hc => .inl ?_, fun c hc => by rw [same.ids]; exact hc⟩
    rw [← portOf_isSome, same.ports, portOf_isSome]
    exact hc
  | created _ _ _ _ _ => exact ⟨fun c hc => .inl ((AList.mem_insert _).2 (.inr hc)), fun c hc => hc⟩
  | opened _ _ _ => exact ⟨fun c hc => .inl ((AList.mem_insert _).2 (.inr hc)), fun c hc => hc⟩
  | @retired t c n _ =>
    obtain ⟨hchannels, hids⟩ := leave_places { g with pending := n } t c
    refine ⟨fun d hd => ?_, fun d hd => ?_⟩
    · rw [hchannels, hids]
      by_cases he : d = c
      · exact .inr (List.mem_insert_iff.2 (.inl he))
      · exact .inl (AList.mem_erase.2 ⟨he, hd⟩)
    · rw [hids]
      exact List.mem_insert_iff.2 (.inr hd)

/-! The process. -/

/-- Everything but the ids of the messages. -/
structure QuotaInv (config : GatewayConfig) (g : Gateway) : Prop where
  history : ∃ E, GatewayHistory config E g
  pending : PendingInv g

/-- One step of the gateway up to the count of its messages. -/
structure GatewayMove (config : GatewayConfig) (g g' : Gateway) : Prop where
  keeps : QuotaInv config g → QuotaInv config g'
  lasting : Lasting g g'

variable {config : GatewayConfig} {o o' : Outbox}

theorem QuotaInv.renumber (h : QuotaInv config g) (n : ℕ) : QuotaInv config { g with tx := n } := by
  obtain ⟨⟨E, hconfig, hi, ho⟩, hp⟩ := h
  refine ⟨⟨E, hconfig, ⟨hi.active_le, hi.total_le, hi.same_size, hi.apart, hi.held, hi.owned, hi.waiting,
    hi.distinct, hi.range, hi.placed, hi.opens_nodup, hi.closed, hi.announced, hi.closes_nodup⟩, ho⟩, ?_⟩
  exact ⟨hp.counted, hp.le⟩

theorem GatewayMove.of_change {m : Option GatewayMessage} (hc : GatewayChange g m g') (hp : Counted g g') :
    GatewayMove config g g' := by
  refine ⟨?_, hc.lasting⟩
  rintro ⟨⟨E, hE⟩, hi⟩
  exact ⟨⟨_, hE.step hc⟩, hi.step hp⟩

theorem GatewayMove.renumbered {n k : ℕ} (h : GatewayMove config { g with tx := n } g') :
    GatewayMove config g { g' with tx := k } :=
  ⟨fun hi => (h.keeps (hi.renumber n)).renumber k, ⟨h.lasting.kept, h.lasting.retired⟩⟩

theorem emit_gateway {m : GatewayMessage} {r : Option QueuedFrame} (h : o.emit m = (r, o')) :
    o'.gateway = { o.gateway with tx := o'.gateway.tx } := by
  cases r with
  | none =>
    rcases emit_none h with ⟨-, rfl⟩ | ⟨-, -, rfl⟩
    · rfl
    · rfl
  | some f =>
    obtain ⟨-, -, -, rfl⟩ := emit_some h
    rfl

theorem leave_emits {m : GatewayMessage} (h : g.leave t c = (some m, g')) : m = .routeClose c := by
  have hm := leave_message g t c
  rw [h] at hm
  dsimp only at hm
  split at hm <;> cases hm
  rfl

/-- What a step that emits is, and what it emits. -/
theorem gatewayNext_emits {m : GatewayMessage} (h : gatewayNext g a = some (some m, g')) :
    (∃ port, a = .listen port ∧ m = .ready port) ∨
    (∃ t c channel, a = .openAck t ∧ g.tasks t = some (.opening c) ∧ g.channels.lookup c = some channel ∧
      (some m, g') = g.advertise t c channel) ∨
    (∃ t c, (a = .acked t ∨ a = .fail t) ∧ m = .routeClose c) ∨
    (a = .beat ∧ m = .heartbeat) := by
  cases a with
  | listen port =>
    simp only [gatewayNext] at h
    split at h <;> cases h
    exact .inl ⟨port, rfl, rfl⟩
  | openAck t =>
    simp only [gatewayNext] at h
    split at h
    · rename_i c ht _
      obtain ⟨channel, hc, heq⟩ := Option.map_eq_some_iff.mp h
      exact .inr (.inl ⟨t, c, channel, rfl, ht, hc, heq.symm⟩)
    · cases h
  | acked t =>
    simp only [gatewayNext] at h
    split at h
    · obtain ⟨channel, -, h⟩ := Option.bind_eq_some_iff.mp h
      split at h
      · cases h
      · split at h
        · exact .inr (.inr (.inl ⟨t, _, .inl rfl, leave_emits (Option.some.inj h)⟩))
        · cases h
    · cases h
  | fail t =>
    simp only [gatewayNext] at h
    split at h
    · cases h
    · exact .inr (.inr (.inl ⟨t, _, .inr rfl, leave_emits (Option.some.inj h)⟩))
    · exact .inr (.inr (.inl ⟨t, _, .inr rfl, leave_emits (Option.some.inj h)⟩))
    · exact .inr (.inr (.inl ⟨t, _, .inr rfl, leave_emits (Option.some.inj h)⟩))
    · cases h
  | beat =>
    simp only [gatewayNext] at h
    split at h <;> cases h
    exact .inr (.inr (.inr ⟨rfl, rfl⟩))
  | accept t =>
    simp only [gatewayNext] at h
    split at h
    · cases h
    · split at h <;> cases h
  | handshake t fingerprint c port =>
    simp only [gatewayNext] at h
    split at h
    · obtain ⟨g₁, -, heq⟩ := Option.map_eq_some_iff.mp h
      cases heq
    · cases h
  | finish t =>
    simp only [gatewayNext] at h
    split at h <;> cases h
  | routeAck c request =>
    simp only [gatewayNext] at h
    split at h
    · cases h
    · split at h <;> cases h
  | routeClose c =>
    simp only [gatewayNext] at h
    split at h
    · cases h
    · split at h <;> cases h
  | badCommand =>
    simp only [gatewayNext] at h
    split at h <;> cases h
  | close => cases h

theorem openAck_task {m : GatewayMessage} (h : gatewayNext g (.openAck t) = some (some m, g')) :
    ∃ c, g.tasks t = some (.opening c) := by
  rcases gatewayNext_emits h with ⟨_, ha, -⟩ | ⟨t', c, channel, ha, ht, -⟩ | ⟨_, _, ha, -⟩ | ⟨ha, -⟩
  · cases ha
  · cases ha
    exact ⟨c, ht⟩
  · rcases ha with ha | ha <;> cases ha
  · cases ha

theorem abandon_move {r : Option QueuedFrame × Outbox} (hc : o.gateway.tasks t = some (.opening c))
    (h : o.abandon t = r) : GatewayMove config o.gateway r.2.gateway := by
  have hof : o.gateway.channelOf t = some c := channelOf_of_tasks hc
  have hmove : GatewayMove config o.gateway (o.gateway.leave t c).2 :=
    .of_change (.retired o.gateway.pending hof) (counted_leave hc rfl)
  unfold Outbox.abandon at h
  rw [hof] at h
  dsimp only at h
  split at h
  · rename_i g' hg'
    rw [← h]
    rw [hg'] at hmove
    exact hmove
  · rename_i m' g' hg'
    rw [hg'] at hmove
    rw [emit_gateway h]
    exact hmove.renumbered

theorem OutboxChange.move {r : Option QueuedFrame} (h : OutboxChange o a r o') :
    GatewayMove config o.gateway o'.gateway := by
  cases h with
  | quiet hg => exact .of_change (gatewayNext_change hg) (gatewayNext_counted hg)
  | sent hg he =>
    have hmove : GatewayMove config o.gateway _ := .of_change (gatewayNext_change hg) (gatewayNext_counted hg)
    rw [emit_gateway he]
    exact hmove.renumbered
  | ended hg he _ =>
    have hmove : GatewayMove config o.gateway _ := .of_change (gatewayNext_change hg) (gatewayNext_counted hg)
    change GatewayMove config o.gateway (Outbox.gateway _)
    rw [emit_gateway he]
    exact hmove.renumbered
  | lost hg he _ =>
    have hmove : GatewayMove config o.gateway _ := .of_change (gatewayNext_change hg) (gatewayNext_counted hg)
    rw [emit_gateway he]
    exact hmove.renumbered
  | @abandoned m g t o₁ hg he ha =>
    subst ha
    obtain ⟨c, hc⟩ := openAck_task hg
    have hmove : GatewayMove config _ _ := abandon_move (o := o.numbered o₁.gateway.tx) hc rfl
    exact hmove.renumbered

theorem outboxNext_move {e : OutboxEvent} (h : OutboxStep o e o') : GatewayMove config o.gateway o'.gateway := by
  obtain ⟨b, h⟩ := h
  have hsame : GatewayMove config o.gateway o.gateway := ⟨id, .refl _⟩
  unfold outboxNext at h
  split at h
  · cases h
  · cases b with
    | gateway a =>
      dsimp only at h
      split at h
      · cases h
      · rename_i hact
        cases h
        exact (act_change hact).move
      · rename_i hact
        cases h
        exact (act_change hact).move
    | output =>
      dsimp only at h
      split at h <;> cases h
      exact hsame
    | stop =>
      cases h
      exact hsame

theorem quotaInv_boot (config : GatewayConfig) : QuotaInv config (.boot config) where
  history := ⟨[], gatewayHistory_boot config⟩
  pending := ⟨⟨∅, by simp [Gateway.boot, Gateway.waits], rfl⟩, by simp [Gateway.boot]⟩

variable {generation : ℕ} {τ τ' : List OutboxEvent}

theorem quotaInv_of_run (hr : Runs.Steps OutboxStep (.boot config generation) τ o) : QuotaInv config o.gateway :=
  hr.invariant (I := fun o => QuotaInv config o.gateway) (quotaInv_boot config)
    (fun _ _ _ h hs => (outboxNext_move hs).keeps h)

theorem lasting_of_run (hr : Runs.Steps OutboxStep o τ o') : Lasting o.gateway o'.gateway :=
  hr.invariant (I := fun o' => Lasting o.gateway o'.gateway) (.refl _)
    (fun _ _ _ h hs => h.trans (outboxNext_move hs : GatewayMove o.gateway.config _ _).lasting)

/-- Over every interleaving, whichever messages are lost and until `close` waits: `pending`
counts the sockets between `accept` and `forward` or clean-up, the tables stay within their
quotas, and a channel once created is open or retired, never both and never open again. -/
theorem gateway_quotas (hr : Runs.Steps OutboxStep (.boot config generation) τ o)
    (hr' : Runs.Steps OutboxStep o τ' o') :
    (∃ waiting : Finset ℕ, (∀ t, t ∈ waiting ↔ o'.gateway.waits t = true) ∧
      o'.gateway.pending = waiting.card) ∧
    0 ≤ o'.gateway.pending ∧ o'.gateway.pending ≤ 4 ∧
    o'.gateway.channels.keys.length ≤ 8 ∧
    o'.gateway.channels.keys.length + o'.gateway.retired.length ≤ 256 ∧
    (∀ c, c ∈ o.gateway.channels → c ∈ o'.gateway.channels ∧ c ∉ o'.gateway.retired_ids ∨
      c ∈ o'.gateway.retired_ids ∧ c ∉ o'.gateway.channels) ∧
    (∀ c, c ∈ o.gateway.retired_ids → c ∉ o'.gateway.channels) := by
  obtain ⟨⟨E, hE⟩, hp⟩ := quotaInv_of_run (hr.trans hr')
  have hlast := lasting_of_run hr'
  refine ⟨hp.counted, ?_, hp.le, hE.inv.active_le, hE.inv.total_le, ?_, ?_⟩
  · obtain ⟨waiting, -, hcard⟩ := hp.counted
    omega
  · intro c hc
    rcases hlast.kept c hc with h | h
    · exact .inl ⟨h, hE.inv.apart c h⟩
    · exact .inr ⟨h, fun hf => hE.inv.apart c hf h⟩
  · intro c hc hf
    exact hE.inv.apart c hf (hlast.retired c hc)

end

/-- A client's channel is opened and retired while the next client waits for its handshake. -/
theorem gateway_quotas_accepted : ∃ τ τ' o o', Runs.Steps OutboxStep (.boot crowdConfig 1) τ o ∧
    countingHost.tokenHex 0 16 ∈ o.gateway.channels ∧ Runs.Steps OutboxStep o τ' o' ∧
    o'.gateway.pending = 1 ∧ o'.gateway.pending ≤ 4 ∧ o'.gateway.retired.length = 1 ∧
    countingHost.tokenHex 0 16 ∈ o'.gateway.retired_ids ∧ countingHost.tokenHex 0 16 ∉ o'.gateway.channels := by
  obtain ⟨f, o, hlisten, -, -, -, hcrowd, hids⟩ := crowd_listens [] (by simp) (by simp) (n := 0) (by omega) rfl
  have hfresh : countingHost.tokenHex 0 16 ∉ o.gateway.retired_ids := by simp [hids]
  have h1 := (@Runs.Steps.single _ _ OutboxStep _ _ _ ⟨_, hlisten⟩).snoc
    ⟨_, outboxNext_quiet hcrowd.running (hcrowd.accept (by omega))⟩
  have h2 := h1.snoc ⟨_, outboxNext_quiet hcrowd.running (hcrowd.handshake (by omega) hfresh)⟩
  obtain ⟨f', hemit, -, hsize, -⟩ := hcrowd.refused (k := 0) (c := countingHost.tokenHex 0 16) (by decide) (by decide)
  have hnext := hcrowd.put (c := countingHost.tokenHex 0 16) hsize
  have h3 := @Runs.Steps.single _ _ OutboxStep _ _ _ ⟨_, outboxNext_sent
    (o := { o with gateway := o.gateway.joined _ (countingHost.tokenHex 0 16) 0 (.opening _) 0 })
    hcrowd.running hcrowd.refuse hemit⟩
  have h4 := h3.snoc ⟨_, outboxNext_quiet hnext.running (hnext.accept (by omega))⟩
  have hopen : countingHost.tokenHex 0 16 ∈
      (o.gateway.joined (countingHost.tokenHex 3 32) (countingHost.tokenHex 0 16) 0
        (.opening (countingHost.tokenHex 0 16)) 0).channels := AList.mem_of_lookup (lookup_alone _ _)
  have hretired : countingHost.tokenHex 0 16 ∈ o.gateway.retired_ids.insert (countingHost.tokenHex 0 16) :=
    List.mem_insert_self
  have hports := congrArg List.length hnext.ports
  obtain ⟨-, -, hpending, -, -, hkept, -⟩ := gateway_quotas h2 h4
  refine ⟨_, _, _, _, h2, hopen, h4, rfl, hpending, hports, hretired, ?_⟩
  rcases hkept _ hopen with ⟨-, hf⟩ | ⟨-, h⟩
  · exact absurd hretired hf
  · exact h

end ArenaLab
