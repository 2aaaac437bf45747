import ArenaLab.IpcFrames

/-! What the server's gateway process emits. -/

namespace ArenaLab

open GatewayProcess

section

variable {config : GatewayConfig} {generation : ℕ} {F : List QueuedFrame} {f : QueuedFrame}
  {o o' : Outbox} {m : GatewayMessage} {g g' : Gateway} {a : GatewayAction}

/-- A step that is not the listener's: no new socket without a listener. -/
structure Listens (g g' : Gateway) : Prop where
  listener : g'.listener = g.listener
  tasks : ∀ t, (g'.tasks t).isSome = true → (g.tasks t).isSome = true ∨ g.listener.isSome = true

theorem listens_flags (hl : g'.listener = g.listener) (ht : g'.tasks = g.tasks) : Listens g g' :=
  ⟨hl, fun _ h => .inl (ht ▸ h)⟩

theorem listens_put {t : ℕ} {phase : ServePhase} {g₀ : Gateway} (hl : g₀.listener = g.listener)
    (htasks : g₀.tasks = g.tasks) (ht : (g.tasks t).isSome = true ∨ g.listener.isSome = true) :
    Listens g (g₀.put t phase) := by
  refine ⟨hl, fun t' h => ?_⟩
  by_cases he : t' = t
  · rw [he]
    exact ht
  · rw [tasks_put_ne _ _ he, htasks] at h
    exact .inl h

theorem listens_leave {t : ℕ} {c : HexStr 32} (ht : (g.tasks t).isSome = true) : Listens g (g.leave t c).2 := by
  obtain ⟨htasks, -⟩ := leave_tasks g t c
  have hlistener : (g.leave t c).2.listener = g.listener := by
    simp only [Gateway.leave, Gateway.retire]
    split <;> rfl
  have hput : Listens g ({ g with pending := g.pending - 1 }.put t .closing) := listens_put rfl rfl (.inl ht)
  exact ⟨hlistener, fun t' h => hput.tasks t' (htasks ▸ h)⟩

theorem handshake_listens {t port : ℕ} {fingerprint : HexStr 64} {c : HexStr 32} (ht : (g.tasks t).isSome = true)
    (h : g.handshake t fingerprint c port = some g') : Listens g g' := by
  simp only [Gateway.handshake] at h
  split at h
  · cases h
    exact listens_put rfl rfl (.inl ht)
  split at h
  · cases h
    exact listens_put rfl rfl (.inl ht)
  split at h
  · cases h
    exact listens_put rfl rfl (.inl ht)
  split at h <;> cases h
  exact listens_put rfl rfl (.inl ht)

theorem gatewayNext_listens {r : Option GatewayMessage × Gateway} (ha : ∀ port, a ≠ .listen port)
    (h : gatewayNext g a = some r) : Listens g r.2 := by
  cases a with
  | listen port => exact absurd rfl (ha port)
  | accept t =>
    simp only [gatewayNext] at h
    split at h
    · cases h
    · rename_i hfree
      simp only [Bool.or_eq_true, not_or, Bool.not_eq_true] at hfree
      split at h <;> cases h
      · exact listens_flags rfl rfl
      · refine listens_put rfl rfl (.inr ?_)
        rw [Option.isNone_eq_false_iff] at hfree
        exact hfree.1.2
  | handshake t fingerprint c port =>
    simp only [gatewayNext] at h
    split at h
    · rename_i ht _
      obtain ⟨g', hg, rfl⟩ := Option.map_eq_some_iff.mp h
      exact handshake_listens (by rw [ht]; rfl) hg
    · cases h
  | openAck t =>
    simp only [gatewayNext] at h
    split at h
    · rename_i ht _
      obtain ⟨channel, -, rfl⟩ := Option.map_eq_some_iff.mp h
      exact listens_put rfl rfl (.inl (by rw [ht]; rfl))
    · cases h
  | acked t =>
    simp only [gatewayNext] at h
    split at h
    · rename_i ht _
      obtain ⟨channel, -, h⟩ := Option.bind_eq_some_iff.mp h
      split at h
      · cases h
      · split at h <;> cases h
        · exact listens_leave (by rw [ht]; rfl)
        · exact listens_put rfl rfl (.inl (by rw [ht]; rfl))
    · cases h
  | fail t =>
    simp only [gatewayNext] at h
    split at h
    · rename_i ht
      cases h
      exact listens_put rfl rfl (.inl (by rw [ht]; rfl))
    · rename_i ht
      cases h
      exact listens_leave (by rw [ht]; rfl)
    · rename_i ht
      cases h
      exact listens_leave (by rw [ht]; rfl)
    · rename_i ht
      cases h
      obtain ⟨hl, htasks⟩ := listens_leave (g := { g with pending := g.pending + 1 }) (t := t) (by rw [ht]; rfl)
      exact ⟨hl, htasks⟩
    · cases h
  | finish t =>
    simp only [gatewayNext] at h
    split at h
    · rename_i ht
      cases h
      exact listens_put rfl rfl (.inl (by rw [ht]; rfl))
    · cases h
  | routeAck c request =>
    simp only [gatewayNext] at h
    split at h
    · cases h
    · split at h <;> cases h
      · exact listens_flags rfl rfl
      · unfold Gateway.acknowledge
        split <;> exact listens_flags rfl rfl
  | routeClose c =>
    simp only [gatewayNext] at h
    split at h
    · cases h
    · split at h <;> cases h
      · dsimp only
        split <;> exact listens_flags rfl rfl
      · exact listens_flags rfl rfl
  | badCommand =>
    simp only [gatewayNext] at h
    split at h <;> cases h
    exact listens_flags rfl rfl
  | beat =>
    simp only [gatewayNext] at h
    split at h <;> cases h
    exact listens_flags rfl rfl
  | close =>
    cases h
    exact listens_flags rfl rfl

/-- Only the listener is ready. -/
theorem gatewayNext_unready (ha : ∀ port, a ≠ .listen port) (h : gatewayNext g a = some (some m, g')) :
    announcesReady m = false := by
  rcases gatewayNext_emits h with ⟨port, hl, -⟩ | ⟨_, _, _, -, -, -, hadvertise⟩ | ⟨_, _, -, rfl⟩ | ⟨-, rfl⟩
  · exact absurd hl (ha port)
  · cases hadvertise
    rfl
  · rfl
  · rfl

/-- Ports of the listener are those of TCP. -/
def Ported (F : List QueuedFrame) : Prop := ∀ f ∈ F, ∀ port, f.message = .ready port → port ≤ 65535

structure ServerInv (config : GatewayConfig) (generation : ℕ) (F : List QueuedFrame) (o : Outbox) : Prop where
  quota : QuotaInv config o.gateway
  serial : o.generation = generation
  sent : Ported F → WellSent config.run generation F
  ready : o.running = true → readyIn F = o.gateway.listener.isSome
  tasks : ∀ t, (o.gateway.tasks t).isSome = true → o.gateway.listener.isSome = true

theorem serverInv_boot (config : GatewayConfig) (generation : ℕ) :
    ServerInv config generation [] (.boot config generation) where
  quota := quotaInv_boot config
  serial := rfl
  sent := fun _ => wellSent_nil _ _
  ready := fun _ => rfl
  tasks := by simp [Outbox.boot, Gateway.boot]

theorem QuotaInv.opening {body : RouteOpen} (h : QuotaInv config g)
    (hs : gatewayNext g a = some (some (.routeOpen body), g')) : GatewayMessage.WellFormed (.routeOpen body) := by
  obtain ⟨E, hE⟩ := h.history
  have hnew := (hE.step (gatewayNext_change hs)).orderly E body [] rfl
  exact ⟨hnew.address, hnew.range⟩

theorem ServerInv.orders (h : ServerInv config generation F o) (hrun : o.running = true)
    (hs : gatewayNext o.gateway a = some (some m, g)) (hport : ∀ port, m = .ready port → port ≤ 65535) :
    m.WellFormed ∧ Orders (readyIn F) m := by
  have hready := h.ready hrun
  rcases gatewayNext_emits hs with ⟨port, rfl, rfl⟩ | ⟨t, c, channel, rfl, ht, -, hadvertise⟩ | ⟨_, _, -, rfl⟩ |
      ⟨-, rfl⟩
  · refine ⟨hport port rfl, ?_⟩
    simp only [gatewayNext] at hs
    split at hs
    · cases hs
    · rename_i hfree
      simp only [Bool.or_eq_true, not_or, Bool.not_eq_true] at hfree
      exact hready.trans hfree.1
  · cases hadvertise
    refine ⟨h.quota.opening hs, hready.trans (h.tasks t ?_)⟩
    rw [ht]
    rfl
  · exact ⟨trivial, trivial⟩
  · exact ⟨trivial, trivial⟩

/-- A frame enters whose message the parent takes next. -/
theorem ServerInv.entered {x x' : Outbox} (h : ServerInv config generation F o)
    (hrun : x.gateway.config.run = config.run) (hserial : x.generation = generation)
    (hm : (∀ port, m = .ready port → port ≤ 65535) → m.WellFormed ∧ Orders (readyIn F) m)
    (he : x.emit m = (some f, x')) : Ported (F ++ [f]) → WellSent config.run generation (F ++ [f]) := by
  obtain ⟨hf, hrequest, hmessage⟩ := emit_framed he
  rw [hrun, hserial] at hf
  intro hports
  have hlast : ∀ port, m = .ready port → port ≤ 65535 := by
    intro port hp
    exact hports f (List.mem_append_right _ (List.mem_singleton_self _)) port (hmessage.trans hp)
  obtain ⟨hformed, horders⟩ := hm hlast
  rw [← hmessage] at hformed horders
  exact (h.sent fun x hx => hports x (List.mem_append_left _ hx)).snoc hf hrequest hformed horders

theorem quotaInv_run (h : QuotaInv config g) : g.config.run = config.run := by
  obtain ⟨E, hE⟩ := h.history
  rw [hE.set_up]

theorem gatewayNext_listen {port : ℕ} {r : Option GatewayMessage × Gateway}
    (h : gatewayNext g (.listen port) = some r) : r.1 = some (.ready port) ∧ r.2.listener = some port ∧
      r.2.tasks = g.tasks ∧ r.2.config = g.config := by
  simp only [gatewayNext] at h
  split at h <;> cases h
  exact ⟨rfl, rfl, rfl, rfl⟩

/-- The books of the listener after a step that is not its own. -/
theorem ServerInv.listens (h : ServerInv config generation F o) (hl : Listens o.gateway g') :
    ∀ t, (g'.tasks t).isSome = true → g'.listener.isSome = true := by
  intro t ht
  rw [hl.listener]
  rcases hl.tasks t ht with ht | ht
  · exact h.tasks t ht
  · exact ht

theorem abandon_server {t : ℕ} {c : HexStr 32} {r : Option QueuedFrame × Outbox}
    (ht : o.gateway.tasks t = some (.opening c)) (hr : o.abandon t = r) :
    Listens o.gateway r.2.gateway ∧ r.2.generation = o.generation ∧ r.2.running = o.running ∧
      ∀ f, r.1 = some f → ∃ x x', x.gateway.config = o.gateway.config ∧ x.generation = o.generation ∧
        Outbox.emit x (.routeClose c) = (some f, x') := by
  have hleave : Listens o.gateway (o.gateway.leave t c).2 := listens_leave (by rw [ht]; rfl)
  have hconfig : (o.gateway.leave t c).2.config = o.gateway.config := by
    simp only [Gateway.leave, Gateway.retire]
    split <;> rfl
  have hof : o.gateway.channelOf t = some c := channelOf_of_tasks ht
  unfold Outbox.abandon at hr
  rw [hof] at hr
  dsimp only at hr
  split at hr
  · rename_i g' hg'
    rw [hg'] at hleave
    subst hr
    exact ⟨⟨hleave.listener, hleave.tasks⟩, rfl, rfl, fun f hf => by cases hf⟩
  · rename_i x g' hg'
    cases leave_emits hg'
    rw [hg'] at hleave hconfig
    have hgateway := emit_gateway hr
    obtain ⟨hgeneration, hrun⟩ := emit_generation hr
    rw [hgateway]
    refine ⟨⟨hleave.listener, hleave.tasks⟩, hgeneration, hrun, ?_⟩
    intro f hf
    refine ⟨{ o with gateway := g' }.numbered o.gateway.tx, r.2, hconfig, rfl, ?_⟩
    rw [hr]
    exact Prod.ext hf rfl

theorem ServerInv.act {r : Option QueuedFrame} (h : ServerInv config generation F o) (hrun : o.running = true)
    (hc : OutboxChange o a r o') : ServerInv config generation (F ++ r.toList) o' := by
  have hmove : GatewayMove config o.gateway o'.gateway := hc.move
  have hquota := hmove.keeps h.quota
  have hready := h.ready hrun
  cases hc with
  | quiet hg =>
    have hl := gatewayNext_listens (fun port ha => by subst ha; cases (gatewayNext_listen hg).1) hg
    rw [Option.toList_none, List.append_nil]
    exact ⟨hquota, h.serial, h.sent, fun _ => hready.trans (by rw [← hl.listener]), h.listens hl⟩
  | @sent m g f o' hg he =>
    have hgateway := emit_gateway he
    obtain ⟨hserial, -⟩ := emit_generation he
    have hconfig : g.config.run = config.run := by
      have := quotaInv_run hquota
      rw [hgateway] at this
      exact this
    have hsent := h.entered hconfig (x := { o with gateway := g }.numbered o.gateway.tx) h.serial
      (fun hport => h.orders hrun hg hport) he
    have hmessage := (emit_framed he).2.2
    refine ⟨hquota, hserial.trans h.serial, hsent, ?_, ?_⟩
    · intro _
      rw [Option.toList_some, readyIn_snoc, hmessage, hgateway]
      by_cases ha : ∃ port, a = .listen port
      · obtain ⟨port, rfl⟩ := ha
        obtain ⟨hm, hlistener, -⟩ := gatewayNext_listen hg
        cases hm
        change (readyIn F || true) = g.listener.isSome
        rw [show g.listener = some port from hlistener]
        simp
      · rw [not_exists] at ha
        have hl := gatewayNext_listens ha hg
        rw [gatewayNext_unready ha hg, Bool.or_false, hready]
        change o.gateway.listener.isSome = g.listener.isSome
        rw [← hl.listener]
    · rw [hgateway]
      by_cases ha : ∃ port, a = .listen port
      · obtain ⟨port, rfl⟩ := ha
        obtain ⟨-, hlistener, -⟩ := gatewayNext_listen hg
        intro t _
        change g.listener.isSome = true
        rw [show g.listener = some port from hlistener]
        rfl
      · rw [not_exists] at ha
        have htasks := h.listens (gatewayNext_listens ha hg)
        exact htasks
  | @ended m g o₁ hg he ha =>
    have hgateway := emit_gateway he
    obtain ⟨hserial, -⟩ := emit_generation he
    rw [Option.toList_none, List.append_nil]
    refine ⟨hquota, hserial.trans h.serial, h.sent, fun hf => (by cases hf), ?_⟩
    change ∀ t, (o₁.gateway.tasks t).isSome = true → o₁.gateway.listener.isSome = true
    rw [hgateway]
    rcases ha with rfl | ⟨port, rfl⟩
    · have htasks := h.listens (gatewayNext_listens (by simp) hg)
      exact htasks
    · obtain ⟨-, hlistener, -⟩ := gatewayNext_listen hg
      intro t _
      change g.listener.isSome = true
      rw [show g.listener = some port from hlistener]
      rfl
  | @lost m g o' hg he ha =>
    have hgateway := emit_gateway he
    obtain ⟨hserial, -⟩ := emit_generation he
    have hl := gatewayNext_listens ha.2.1 hg
    rw [Option.toList_none, List.append_nil]
    refine ⟨hquota, hserial.trans h.serial, h.sent, ?_, ?_⟩
    · intro _
      rw [hgateway, hready]
      change o.gateway.listener.isSome = g.listener.isSome
      rw [← hl.listener]
    · rw [hgateway]
      have htasks := h.listens hl
      exact htasks
  | @abandoned m g t o₁ hg he ha =>
    subst ha
    obtain ⟨c, ht⟩ := openAck_task hg
    obtain ⟨hl, hserial, hrunning, hframe⟩ := abandon_server (o := o.numbered o₁.gateway.tx) ht rfl
    have hsame : Listens o.gateway ((o.numbered o₁.gateway.tx).abandon t).2.gateway := ⟨hl.listener, hl.tasks⟩
    cases hr : ((o.numbered o₁.gateway.tx).abandon t).1 with
    | none =>
      rw [Option.toList_none, List.append_nil]
      exact ⟨hquota, hserial.trans h.serial, h.sent, fun _ => hready.trans (by rw [← hsame.listener]),
        h.listens hsame⟩
    | some f =>
      obtain ⟨x, x', hconfig, hgeneration, he'⟩ := hframe f hr
      have hmessage := (emit_framed he').2.2
      have hrunid : x.gateway.config.run = config.run := by
        rw [hconfig]
        change o.gateway.config.run = config.run
        exact quotaInv_run h.quota
      refine ⟨hquota, hserial.trans h.serial, ?_, ?_, h.listens hsame⟩
      · exact h.entered (m := .routeClose c) hrunid (hgeneration.trans h.serial) (fun _ => ⟨trivial, trivial⟩) he'
      · intro _
        rw [Option.toList_some, readyIn_snoc, hmessage, hsame.listener]
        simpa [announcesReady] using hready

theorem ServerInv.step {τ : List OutboxEvent} {e : OutboxEvent} (h : ServerInv config generation (enteredIn τ) o)
    (hs : OutboxStep o e o') : ServerInv config generation (enteredIn (τ ++ [e])) o' := by
  obtain ⟨b, hs⟩ := hs
  unfold outboxNext at hs
  split at hs
  · cases hs
  · rename_i hrun
    replace hrun : o.running = true := by simpa using hrun
    rw [enteredIn_snoc]
    cases b with
    | gateway a =>
      dsimp only at hs
      split at hs
      · cases hs
      · rename_i hact
        cases hs
        exact h.act hrun (act_change hact)
      · rename_i hact
        cases hs
        exact h.act hrun (act_change hact)
    | output =>
      dsimp only at hs
      split at hs <;> cases hs
      exact ⟨h.quota, h.serial, by simpa [OutboxEvent.put] using h.sent, by simpa [OutboxEvent.put] using h.ready,
        h.tasks⟩
    | stop =>
      cases hs
      exact ⟨h.quota, h.serial, by simpa [OutboxEvent.put] using h.sent, fun hf => (by cases hf), h.tasks⟩

theorem server_wellSent {τ : List OutboxEvent} (hr : Runs.Steps OutboxStep (.boot config generation) τ o)
    (hports : Ported (enteredIn τ)) : WellSent config.run generation (enteredIn τ) := by
  have h : ServerInv config generation (enteredIn τ) o :=
    hr.history (I := fun τ o => ServerInv config generation (enteredIn τ) o) (serverInv_boot config generation)
      (fun _ _ _ _ _ h hs => h.step hs)
  exact h.sent hports

end

end ArenaLab
