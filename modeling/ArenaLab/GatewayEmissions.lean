import ArenaLab.ClientEmissions
import ArenaLab.ServerEmissions

/-! The pipe between a gateway process of either role and its parent: what was emitted is
what is polled. -/

namespace ArenaLab

open GatewayProcess

/-- The frames that a process puts on its pipe, for a server whose listener has a port. -/
inductive Emitted (config : GatewayConfig) (generation : ℕ) : List QueuedFrame → Prop
  | server {τ : List OutboxEvent} {o : Outbox} (hr : Runs.Steps OutboxStep (.boot config generation) τ o)
      (hports : ∀ f ∈ enteredIn τ, ∀ port, f.message = .ready port → port ≤ 65535) :
      Emitted config generation (enteredIn τ)
  | client {τ : List OutboxEvent} {s : ClientProcess}
      (hr : Runs.Steps ClientStep (.boot config generation) τ s) : Emitted config generation (enteredIn τ)

section

variable {run : HexStr 32} {config : GatewayConfig} {generation : ℕ} {F : List QueuedFrame} {f : QueuedFrame}

theorem Emitted.wellSent (h : Emitted config generation F) : WellSent config.run generation F := by
  cases h with
  | server hr hports => exact server_wellSent hr hports
  | client hr => exact client_wellSent hr

/-! Delivery. -/

/-- A frame as the parent is to see it. -/
def QueuedFrame.value (run : HexStr 32) (generation : ℕ) (f : QueuedFrame) : JsonText.Value :=
  jsonTree (envelope run generation f.request f.message)

theorem values_eq {k : ℕ} (hids : F.map QueuedFrame.request = List.range' k F.length) :
    F.map (QueuedFrame.value run generation) = treesFrom run generation k (F.map QueuedFrame.message) := by
  induction F generalizing k with
  | nil => rfl
  | cons f F ih =>
    rw [List.map_cons, List.length_cons, List.range'_succ, List.cons_eq_cons] at hids
    rw [List.map_cons, List.map_cons, treesFrom, ← ih hids.2, QueuedFrame.value, hids.1]

theorem data_eq {k : ℕ} (hg : generation ≤ maxRequest)
    (hF : ∀ f ∈ F, ipcFrame run generation f.request f.message = some f.data ∧ f.request ≤ maxRequest)
    (hm : ∀ f ∈ F, f.message.WellFormed) (hids : F.map QueuedFrame.request = List.range' k F.length) :
    F.flatMap QueuedFrame.data = Framing.stream (payloadsFrom run generation k (F.map QueuedFrame.message)) := by
  induction F generalizing k with
  | nil => rfl
  | cons f F ih =>
    rw [List.map_cons, List.length_cons, List.range'_succ, List.cons_eq_cons] at hids
    obtain ⟨hframe, hrequest⟩ := hF f List.mem_cons_self
    rw [ipcFrame_eq run hg hrequest (hm f List.mem_cons_self), Option.some.injEq] at hframe
    have hrest := ih (fun x hx => hF x (List.mem_cons_of_mem f hx))
      (fun x hx => hm x (List.mem_cons_of_mem f hx)) hids.2
    rw [List.flatMap_cons, hrest, ← hframe, List.map_cons, payloadsFrom, hids.1]
    simp [Framing.stream, Framing.encode]

theorem wellFormed_of_proper {ready : Bool} {E : List GatewayMessage} (h : Proper ready E) :
    ∀ m ∈ E, m.WellFormed := by
  induction E generalizing ready with
  | nil => simp
  | cons m E ih =>
    intro x hx
    rcases List.mem_cons.mp hx with rfl | hx
    · exact h.1
    · exact ih h.2.2 x hx

theorem stream_nil {k : ℕ} {E : List GatewayMessage} (h : Framing.stream (payloadsFrom run generation k E) = []) :
    E = [] := by
  cases E with
  | nil => rfl
  | cons m E =>
    have hlen := congrArg List.length h
    simp [payloadsFrom, Framing.stream, Framing.encode, HexText.bigEndian_length] at hlen

/-- Whatever a gateway of either role emits under the ids 1, 2, 3, ..., however its bytes are cut into
reads and the reads into polls, and as long as no deadline passes: `poll` does not fail, the messages
that it has returned so far are the first ones emitted, in order and unaltered, and all of them once
everything is read and the buffer is empty, which never holds more than 8195 bytes. The turns of a poll
that is cut short are those of the longer one, so this also holds inside the loop. -/
theorem ipc_delivery {now : ℕ} {σ : List PollEvent} {p : Pipe} (hF : Emitted config generation F)
    (hids : F.map QueuedFrame.request = List.range' 1 F.length)
    (hg : 1 ≤ generation ∧ generation ≤ maxRequest)
    (hr : Runs.Steps (PollStep config.run generation) (.start now (F.flatMap QueuedFrame.data)) σ p)
    (hlate : .late ∉ σ) :
    .failed ∉ σ ∧ polledIn σ <+: F.map (QueuedFrame.value config.run generation) ∧
    (p.wire = [] → p.state.buffer = [] → polledIn σ = F.map (QueuedFrame.value config.run generation)) ∧
    p.state.buffer.length ≤ 8195 := by
  have hsent := hF.wellSent
  have hformed : ∀ f ∈ F, f.message.WellFormed :=
    fun f hf => wellFormed_of_proper hsent.proper f.message (List.mem_map_of_mem hf)
  have hlen : (F.map QueuedFrame.message).length ≤ maxRequest := by
    rw [List.length_map]
    rcases F.eq_nil_or_concat with rfl | ⟨F', f, rfl⟩
    · exact Nat.zero_le _
    · have hlast := (hsent.framed f (by simp)).2
      simp only [List.concat_eq_append, List.map_append, List.length_append, List.length_singleton,
        List.range'_1_concat, List.map_singleton] at hids ⊢
      have := List.append_inj_right' hids rfl
      simp only [List.cons.injEq, and_true] at this
      omega
  rw [data_eq hg.2 hsent.framed hformed hids] at hr
  obtain ⟨hfine, E₁, E₂, hE, hrx, htracks, hpolled⟩ := delivered_of_run hg hsent.proper hlen hr hlate
  rw [values_eq hids, hE, treesFrom_append, hpolled]
  refine ⟨hfine, List.prefix_append _ _, ?_, htracks.bound⟩
  intro hwire hbuffer
  have hbytes := htracks.bytes
  rw [hwire, hbuffer] at hbytes
  rw [stream_nil hbytes.symm, treesFrom, List.append_nil]

end

/-- A client's process with `n` messages, all of them still in its queue. -/
structure Spoken (n : ℕ) (o : Outbox) : Prop where
  running : o.running = true
  generation : o.generation = 1
  tx : o.gateway.tx = n
  queue : o.queue.length = n
  bytes : o.bytes ≤ 604 * n

theorem Spoken.says {n : ℕ} {o : Outbox} {m : GatewayMessage} (h : Spoken n o) (hn : n < 128) (hm : m.WellFormed) :
    ∃ f o', o.emit m = (some f, o') ∧ f.request = n + 1 ∧ f.message = m ∧ Spoken (n + 1) o' := by
  have hbytes := h.bytes
  obtain ⟨f, hemit, hf, hsize⟩ := emit_roomy (m := m) (o := o) (by rw [h.generation]; decide)
    (by rw [h.tx]; exact hn.trans (by decide)) hm (by rw [h.queue]; exact hn) (by omega)
  refine ⟨f, _, hemit, by rw [hf, h.tx], (nextFrame_eq (emit_some hemit).1).2, h.running, h.generation,
    congrArg (· + 1) h.tx, ?_, ?_⟩
  · change (o.queue ++ [f]).length = n + 1
    rw [List.length_append, h.queue, List.length_singleton]
  · change o.bytes + f.data.length ≤ 604 * (n + 1)
    omega

theorem client_beats {o o' : Outbox} {f : QueuedFrame} {phase : ConnectPhase} (hrun : o.running = true)
    (he : o.emit .heartbeat = (some f, o')) : ClientStep ⟨o, phase⟩ (.entered f) ⟨o', phase⟩ :=
  ⟨.beat, by simp [clientNext, hrun, he]⟩

theorem client_opens {o : Outbox} {c : HexStr 32} (hrun : o.running = true) :
    ClientStep ⟨o, .connecting⟩ .silent ⟨o, .opened c⟩ :=
  ⟨.opened c, by simp [clientNext, hrun]⟩

theorem client_ready {o o' : Outbox} {f : QueuedFrame} {c : HexStr 32} (hrun : o.running = true)
    (he : o.emit (.ready 0) = (some f, o')) : ClientStep ⟨o, .opened c⟩ (.entered f) ⟨o', .ready c⟩ :=
  ⟨.ready, by simp [clientNext, hrun, ClientProcess.say, he, OutboxEvent.ofFrame]⟩

theorem client_advertises {o o' : Outbox} {f : QueuedFrame} {body : RouteOpen} (hrun : o.running = true)
    (hm : GatewayMessage.WellFormed (.routeOpen body)) (he : o.emit (.routeOpen body) = (some f, o')) :
    ClientStep ⟨o, .ready body.channel_id⟩ (.entered f) ⟨o', .advertised body.channel_id⟩ := by
  obtain ⟨haddress, hlow, hhigh⟩ := hm
  have hport : ¬(body.port = 0 ∨ 65535 < body.port) := by omega
  refine ⟨.advertise body.attestor body.port body.remote_run_id body.game_session_id, ?_⟩
  simp only [clientNext, hrun, Bool.not_true, Bool.false_eq_true, if_false, if_neg hport, ← haddress,
    ClientProcess.say, he, OutboxEvent.ofFrame]

theorem client_leaves {o o' : Outbox} {f : QueuedFrame} {c : HexStr 32} (hrun : o.running = true)
    (he : o.emit (.routeClose c) = (some f, o')) : ClientStep ⟨o, .advertised c⟩ (.entered f) ⟨o', .closing⟩ :=
  ⟨.leave, by simp [clientNext, hrun, ClientProcess.leave, he, OutboxEvent.ofFrame]⟩

def firstRoute : RouteOpen :=
  ⟨countingHost.tokenHex 0 16, countingHost.tokenHex 3 32, "127.0.0.1", 40000, crowdConfig.run,
    countingHost.tokenHex 2 16⟩

/-- The whole life of a connection, and a heartbeat while its writer is closing. -/
def firstMessages : List GatewayMessage :=
  [.heartbeat, .ready 0, .routeOpen firstRoute, .routeClose firstRoute.channel_id, .heartbeat]

theorem first_emitted : ∃ F, Emitted crowdConfig 1 F ∧ F.map QueuedFrame.message = firstMessages ∧
    F.map QueuedFrame.request = List.range' 1 F.length := by
  obtain ⟨f₁, o₁, he₁, hr₁, hm₁, h₁⟩ := Spoken.says (n := 0) (o := .boot crowdConfig 1) (m := .heartbeat)
    ⟨rfl, rfl, rfl, rfl, le_rfl⟩ (by omega) trivial
  obtain ⟨f₂, o₂, he₂, hr₂, hm₂, h₂⟩ := h₁.says (m := .ready 0) (by omega) (show 0 ≤ 65535 by omega)
  have hroute : GatewayMessage.WellFormed (.routeOpen firstRoute) := ⟨rfl, by decide, by decide⟩
  obtain ⟨f₃, o₃, he₃, hr₃, hm₃, h₃⟩ := h₂.says (m := .routeOpen firstRoute) (by omega) hroute
  obtain ⟨f₄, o₄, he₄, hr₄, hm₄, h₄⟩ := h₃.says (m := .routeClose firstRoute.channel_id) (by omega) trivial
  obtain ⟨f₅, o₅, he₅, hr₅, hm₅, h₅⟩ := h₄.says (m := .heartbeat) (by omega) trivial
  have hstart : Runs.Steps ClientStep (.boot crowdConfig 1) [.entered f₁] ⟨o₁, .connecting⟩ :=
    .single (client_beats rfl he₁)
  have hopen := (hstart.snoc (client_opens (c := firstRoute.channel_id) h₁.running)).snoc (client_ready h₁.running he₂)
  have hroutes := (hopen.snoc (client_advertises h₂.running hroute he₃)).snoc (client_leaves h₃.running he₄)
  have hrun := hroutes.snoc (client_beats h₄.running he₅)
  refine ⟨[f₁, f₂, f₃, f₄, f₅], .client hrun, ?_, ?_⟩
  · simp [firstMessages, hm₁, hm₂, hm₃, hm₄, hm₅]
  · simp [hr₁, hr₂, hr₃, hr₄, hr₅, List.range']

/-- The reads end within the second frame, then within the third, and the last one is of what is left. -/
def firstPolls : List (ℕ × List ℕ) := [(0, [200, 1, 0]), (16, [202, 1, 0]), (33, [4096, 1, 1, 1, 0])]

theorem ipc_delivery_ready : ∃ F σ p, Emitted crowdConfig 1 F ∧ F.map QueuedFrame.message = firstMessages ∧
    Runs.Steps (PollStep crowdConfig.run 1) (.start 0 (F.flatMap QueuedFrame.data)) σ p ∧
    σ.map (fun e => e.messages.length) = [1, 1, 3] ∧ polledIn σ = F.map (QueuedFrame.value crowdConfig.run 1) := by
  obtain ⟨F, hF, hmessages, hids⟩ := first_emitted
  have hsent := hF.wellSent
  have hformed : ∀ f ∈ F, f.message.WellFormed :=
    fun f hf => wellFormed_of_proper hsent.proper f.message (List.mem_map_of_mem hf)
  have hdata := data_eq (by decide) hsent.framed hformed hids
  rw [hmessages] at hdata
  have hexec : (Runs.exec (pollNext crowdConfig.run 1)
      (.start 0 (Framing.stream (payloadsFrom crowdConfig.run 1 1 firstMessages))) firstPolls).any
      (fun r => decide (r.1.map (fun e => e.messages.length) = [1, 1, 3]) && r.2.wire.isEmpty &&
        r.2.state.buffer.isEmpty) = true := by
    decide +kernel
  obtain ⟨σ, p, hr, hp⟩ := Runs.exec_any hexec
  simp only [Bool.and_eq_true, decide_eq_true_eq, List.isEmpty_iff] at hp
  obtain ⟨⟨hcounts, hwire⟩, hbuffer⟩ := hp
  rw [← hdata] at hr
  have hlate : .late ∉ σ := by
    intro hf
    have hzero := List.mem_map_of_mem (f := fun e => e.messages.length) hf
    rw [hcounts] at hzero
    simp [PollEvent.messages] at hzero
  obtain ⟨-, -, hall, -⟩ := ipc_delivery hF hids ⟨by decide, by decide⟩ hr hlate
  exact ⟨F, σ, p, hF, hmessages, hr, hcounts, hall hwire hbuffer⟩

end ArenaLab
