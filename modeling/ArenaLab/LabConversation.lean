import ArenaLab.LabExchanges

/-! The client against the server, in any order of their steps and those of the other
peers: as long as nothing goes wrong around them, the session goes to its end. -/

namespace ArenaLab

section

variable {host : LabHost} {o : LabOptions} {me : SockAddr} {w w' : LabWorld} {c : Client}

theorem LabInput.Fine.sent {x : LabInput} {policy : LabPolicy} {stage : LabStage} (h : x.Fine o policy stage) :
    x.sent = true := by
  cases stage with
  | request => exact h
  | bye => exact h
  | hello => exact h.1
  | ping => exact h.1
  | observation => exact h.1

theorem LabInput.Fine.message {x : LabInput} {policy : LabPolicy} {stage : LabStage} (h : x.Fine o policy stage)
    (k : LabClient) : ∃ p, k.message o x stage = some p := by
  cases stage with
  | hello =>
    obtain ⟨nonce, hn, -⟩ := (Option.any_eq_true ..).mp h.2
    exact ⟨_, by rw [LabClient.message, hn]; rfl⟩
  | ping =>
    obtain ⟨nonce, hn⟩ := Option.isSome_iff_exists.mp h.2
    exact ⟨_, by rw [LabClient.message, hn]; rfl⟩
  | request => exact ⟨_, rfl⟩
  | observation => exact ⟨_, rfl⟩
  | bye => exact ⟨_, rfl⟩

/-- Only the greeting changes what the client keeps, and it does not depend on it. -/
theorem message_keep {k : LabClient} {x : LabInput} {stage : LabStage} {p : Payload}
    (h : k.message o x stage = some p) : (k.keep p).message o x stage = some p ∧ (k.keep p).keep p = k.keep p ∧
      (stage ≠ .hello → k.keep p = k) := by
  cases stage with
  | hello =>
    obtain ⟨nonce, -, rfl⟩ := Option.map_eq_some_iff.mp h
    exact ⟨h, rfl, fun hne => absurd rfl hne⟩
  | ping =>
    obtain ⟨nonce, -, rfl⟩ := Option.map_eq_some_iff.mp h
    exact ⟨h, rfl, fun _ => rfl⟩
  | request =>
    obtain rfl := Option.some.inj h
    exact ⟨rfl, rfl, fun _ => rfl⟩
  | observation =>
    obtain rfl := Option.some.inj h
    exact ⟨rfl, rfl, fun _ => rfl⟩
  | bye =>
    obtain rfl := Option.some.inj h
    exact ⟨rfl, rfl, fun _ => rfl⟩

theorem message_pc (k : LabClient) (x : LabInput) (stage : LabStage) (pc : LabPc) :
    ({ k with pc := pc } : LabClient).message o x stage = k.message o x stage := by
  cases stage <;> rfl

theorem keep_pc (k : LabClient) (p : Payload) (pc : LabPc) :
    ({ k with pc := pc } : LabClient).keep p = { k.keep p with pc := pc } := by
  cases p <;> rfl

theorem send_asking {x : LabInput} (hset : w.Settled o me) (hcalm : w.Calm host o me (.send x))
    (hnext : labNext host o me w (.send x) = some w') : w'.Asking o me ∧ w'.server = w.server ∧ w'.loop = w.loop ∧
      ∃ stage sent, w.client.pc = .ready stage ∧ w'.client.pc = .awaiting stage sent ∧
        w'.uplink = some (sent.datagram (o.sequence stage)) := by
  obtain ⟨hup, hlen, ⟨stage, hpc, hof, hbefore⟩ | ⟨hpc, -⟩⟩ := hset
  · have hx : x.Fine o w.server.config.policy stage := by simpa only [LabWorld.Calm, hpc] using hcalm
    obtain ⟨p, hmessage⟩ := hx.message w.client
    obtain ⟨hsame, htwice, hkept⟩ := message_keep hmessage
    simp only [labNext, hpc, LabClient.send, hmessage, hx.sent, if_true] at hnext
    obtain rfl := Option.some.inj hnext
    refine ⟨⟨stage, p, rfl, ⟨x, hx, ?_, ?_⟩, rfl, hlen, hof, ?_⟩, rfl, rfl, stage, p, hpc, rfl, rfl⟩
    · rw [message_pc]
      exact hsame
    · rw [keep_pc, htwice]
    · rcases hbefore with ⟨rfl, hnone⟩ | ⟨c, hheld, hses, hcn, hprep⟩
      · exact .inl ⟨rfl, hnone⟩
      · have hne : stage ≠ .hello := by
          rintro rfl
          cases hprep
        rw [hkept hne]
        exact .inr ⟨c, hheld, hses, hcn, hprep⟩
  · simp only [labNext, hpc] at hnext
    cases hnext

theorem read_settled (hrep : w.Replied o me) (hnext : labNext host o me w .read = some w') :
    w'.Settled o me ∧ w'.server = w.server ∧ w'.loop = w.loop ∧ ∃ stage sent,
      w.client.pc = .awaiting stage sent ∧ w'.client.pc = o.after stage := by
  obtain ⟨stage, sent, d, hpc, -, -, hdrop, -, hset, hafter⟩ := hrep
  simp only [labNext, hpc, hdrop] at hnext
  obtain rfl := Option.some.inj hnext
  exact ⟨hset, rfl, rfl, stage, sent, hpc, hafter⟩

theorem Before.serve {s' : Server} {stage : LabStage} (hsame : SameFor me w.server s')
    (h : w.Before o me stage) : LabWorld.Before o me { w with server := s' } stage := by
  obtain ⟨hof, ⟨rfl, hnone⟩ | ⟨c, hheld, hrest⟩⟩ := h
  · exact ⟨hof, .inl ⟨rfl, hsame.free hnone⟩⟩
  · exact ⟨hof, .inr ⟨c, hsame.held c hheld, hrest⟩⟩

theorem Settled.serve {s' : Server} (hsame : SameFor me w.server s') (h : w.Settled o me) :
    LabWorld.Settled o me { w with server := s' } := by
  obtain ⟨hup, hlen, hphase⟩ := h
  refine ⟨hup, by rw [hsame.replies]; exact hlen, ?_⟩
  rcases hphase with ⟨stage, hpc, hbefore⟩ | ⟨hpc, hfree⟩
  · exact .inl ⟨stage, hpc, Before.serve hsame hbefore⟩
  · exact .inr ⟨hpc, hsame.free hfree⟩

theorem Agreed.serve {s' : Server} {loop : ServerLoop} (hsame : SameFor me w.server s')
    (hrun : s'.net.running = true) (hon : loop ≠ .ended) (h : w.Agreed o me) :
    LabWorld.Agreed o me { w with server := s', loop := loop } := by
  refine ⟨hsame.inv, hrun, hon, by rw [hsame.config]; exact h.admits, ?_⟩
  rcases h.phase with hset | ⟨stage, sent, hpc, hasked, hup, hlen, hbefore⟩ |
    ⟨stage, sent, d, hpc, hof, hup, hdrop, hlen, hset, hafter⟩
  · exact .inl (Settled.serve hsame hset)
  · refine .inr (.inl ⟨stage, sent, hpc, ?_, hup, ?_, Before.serve hsame hbefore⟩)
    · rw [hsame.config]
      exact hasked
    · rw [hsame.replies]
      exact hlen
  · have hset' := Settled.serve (w := { w with client := w.client.read o stage sent d, seen := w.seen + 1 })
      hsame hset
    refine .inr (.inr ⟨stage, sent, d, hpc, hof, hup, ?_, ?_, hset', hafter⟩)
    · rw [hsame.replies]
      exact hdrop
    · rw [hsame.replies]
      exact hlen

/-- The exchanges from a stage on, to the end of the session. -/
def LabOptions.rest (o : LabOptions) : LabStage → ℕ
  | .hello => o.count.toNat + if o.capability ≠ 0 then 4 else 2
  | .ping i => o.count.toNat - i.toNat + if o.capability ≠ 0 then 4 else 2
  | .request => 3
  | .observation => 2
  | .bye => 1

/-- The steps that the client and its datagrams still have to take. -/
def LabWorld.left (o : LabOptions) (w : LabWorld) : ℕ :=
  match w.client.pc with
  | .ready stage => 3 * o.rest stage
  | .awaiting stage _ => 3 * o.rest stage - if w.uplink.isSome then 1 else 2
  | .ended _ => 0

def LabAction.own : LabAction → Bool
  | .serve _ => false
  | _ => true

/-- Every message of a session is sent, heard and answered. -/
def LabOptions.total (o : LabOptions) : ℕ :=
  3 * (o.count.toNat + if o.capability ≠ 0 then 4 else 2)

theorem rest_after {stage : LabStage} (h : stage.Of o) :
    (∃ stage', o.after stage = .ready stage' ∧ o.rest stage = o.rest stage' + 1) ∨
      o.after stage = .ended true ∧ o.rest stage = 1 := by
  have hcount := o.count_ok
  have hone : (1 : UInt32).toNat = 1 := rfl
  cases stage with
  | hello =>
    refine .inl ⟨.ping 1, rfl, ?_⟩
    simp only [LabOptions.rest, hone]
    omega
  | ping i =>
    obtain ⟨hlow, hhigh⟩ := h
    rcases after_ping hhigh with ⟨hafter, hlt⟩ | ⟨rfl, ⟨hafter, hcap⟩ | ⟨hafter, hcap⟩⟩
    · have hadd : (i + 1).toNat = i.toNat + 1 := by
        rw [UInt32.toNat_add]
        omega
      refine .inl ⟨_, hafter, ?_⟩
      simp only [LabOptions.rest, hadd]
      omega
    · refine .inl ⟨_, hafter, ?_⟩
      simp only [LabOptions.rest, if_pos hcap]
      omega
    · refine .inl ⟨_, hafter, ?_⟩
      simp only [LabOptions.rest, if_neg hcap]
      omega
  | request => exact .inl ⟨.observation, rfl, rfl⟩
  | observation => exact .inl ⟨.bye, rfl, rfl⟩
  | bye => exact .inr ⟨rfl, rfl⟩

theorem rest_pos {stage : LabStage} (h : stage.Of o) : 0 < o.rest stage := by
  rcases rest_after h with ⟨stage', -, hrest⟩ | ⟨-, hrest⟩
  all_goals omega

theorem settled_hear (h : w.Settled o me) : labNext host o me w .hear = none := by
  simp only [labNext, h.1]

theorem settled_read (h : w.Settled o me) : labNext host o me w .read = none := by
  obtain ⟨-, -, ⟨stage, hpc, -⟩ | ⟨hpc, -⟩⟩ := h
  all_goals simp only [labNext, hpc]

theorem asking_read (h : w.Asking o me) : labNext host o me w .read = none := by
  obtain ⟨stage, sent, hpc, -, -, hlen, -⟩ := h
  have hdrop : (w.server.net.repliesTo me).drop w.seen = [] := List.drop_eq_nil_of_le hlen.le
  simp only [labNext, hpc, hdrop]

theorem awaiting_send {stage : LabStage} {sent : Payload} {x : LabInput} (hpc : w.client.pc = .awaiting stage sent) :
    labNext host o me w (.send x) = none := by
  simp only [labNext, hpc]

theorem hear_eq {d : List UInt8} (hup : w.uplink = some d) (hnext : labNext host o me w .hear = some w') :
    ∃ k, { w with server := w.server.receive host me d, loop := .batch k, uplink := none } = w' := by
  simp only [labNext, hup, Server.main] at hnext
  split at hnext
  · rename_i k _
    exact ⟨k, Option.some.inj hnext⟩
  · cases hnext

/-- A calm step keeps client and server agreed, and a step of the client's is one less to take. -/
theorem agreed_step {a : LabAction} (hloop : me.addr >>> 24 = 127) (h : w.Agreed o me)
    (hstep : CalmStep host o me w a w') :
    w'.Agreed o me ∧ w.left o = w'.left o + (if a.own then 1 else 0) := by
  obtain ⟨hnext, hcalm⟩ := hstep
  cases a with
  | send x =>
    rcases h.phase with hset | ⟨stage, sent, hpc, -⟩ | ⟨stage, sent, d, hpc, -⟩
    · obtain ⟨hask, hserver, hloop', stage, sent, hpc, hpc', hup⟩ := send_asking hset hcalm hnext
      have hof : stage.Of o := by
        obtain ⟨stage', sent', hpc'', -, -, -, hof, -⟩ := hask
        rw [hpc'] at hpc''
        cases hpc''
        exact hof
      have hpos := rest_pos hof
      refine ⟨⟨hserver ▸ h.inv, hserver ▸ h.running, hloop' ▸ h.looping, hserver ▸ h.admits, .inr (.inl hask)⟩, ?_⟩
      simp only [LabWorld.left, hpc, hpc', hup, LabAction.own, Option.isSome_some, if_true]
      omega
    · rw [awaiting_send hpc] at hnext
      cases hnext
    · rw [awaiting_send hpc] at hnext
      cases hnext
  | hear =>
    rcases h.phase with hset | hask | ⟨stage, sent, d, hpc, -, hup, -⟩
    · rw [settled_hear hset] at hnext
      cases hnext
    · obtain ⟨⟨hrep, hrun⟩, hon⟩ := heard_of_hear h hloop hask hcalm hnext
      obtain ⟨stage, sent, hpc, -, hup, -, hof, -⟩ := hask
      have hpos := rest_pos hof
      obtain ⟨k, rfl⟩ := hear_eq hup hnext
      refine ⟨⟨h.inv.receive _ _, hrun, hon, ?_, .inr (.inr hrep)⟩, ?_⟩
      · rw [(receive_spec host h.inv me _).2]
        exact h.admits
      · simp only [LabWorld.left, hpc, hup, LabAction.own, Option.isSome_some, Option.isSome_none, if_true]
        simp only [Bool.false_eq_true, if_false]
        omega
    · simp only [labNext, hup] at hnext
      cases hnext
  | read =>
    rcases h.phase with hset | hask | hrep
    · rw [settled_read hset] at hnext
      cases hnext
    · rw [asking_read hask] at hnext
      cases hnext
    · obtain ⟨hset, hserver, hloop', stage, sent, hpc, hafter⟩ := read_settled hrep hnext
      obtain ⟨stage', sent', d, hpc', hof, hup, -⟩ := hrep
      rw [hpc] at hpc'
      obtain ⟨rfl, rfl⟩ := LabPc.awaiting.inj hpc'
      refine ⟨⟨hserver ▸ h.inv, hserver ▸ h.running, hloop' ▸ h.looping, hserver ▸ h.admits, .inl hset⟩, ?_⟩
      rcases rest_after hof with ⟨stage', hready, hrest⟩ | ⟨hend, hrest⟩
      · simp only [LabWorld.left, hpc, hafter, hready, hup, LabAction.own, Option.isSome_none, if_true]
        simp only [Bool.false_eq_true, if_false]
        omega
      · simp only [LabWorld.left, hpc, hafter, hend, hup, LabAction.own, Option.isSome_none, if_true, hrest]
        simp only [Bool.false_eq_true, if_false]
  | giveUp => exact hcalm.elim
  | serve b =>
    simp only [labNext] at hnext
    split at hnext
    · cases hnext
    · obtain ⟨⟨s', loop⟩, hmain, rfl⟩ := Option.map_eq_some_iff.mp hnext
      obtain ⟨hsame, hrun, hon⟩ := sameFor_quiet h.inv h.running hcalm hmain
      exact ⟨Agreed.serve hsame hrun hon h, rfl⟩

theorem agreed_start {s : Server} {loop : ServerLoop} (hi : SlotInv s) (hrun : s.net.running = true)
    (hon : loop ≠ .ended) (hnew : ¬s.slots.Seats me)
    (hadmits : o.capability ≠ 0 → s.config.policy.Admits originLinux o.capability) :
    (LabWorld.start o s loop me).Agreed o me :=
  ⟨hi, hrun, hon, hadmits, .inl ⟨rfl, rfl, .inl ⟨.hello, rfl, trivial, .inl ⟨rfl, hnew⟩⟩⟩⟩

theorem agreed_run {τ : List LabAction} (hloop : me.addr >>> 24 = 127) (hstart : w.Agreed o me)
    (h : Runs.Steps (CalmStep host o me) w τ w') : w'.Agreed o me ∧ τ.countP LabAction.own + w'.left o = w.left o := by
  refine Runs.Steps.history (I := fun τ t => LabWorld.Agreed o me t ∧ τ.countP LabAction.own + t.left o = w.left o)
    ⟨hstart, Nat.zero_add _⟩ ?_ h
  rintro τ t a u - ⟨ht, hcount⟩ hstep
  obtain ⟨hu, hleft⟩ := agreed_step hloop ht hstep
  refine ⟨hu, ?_⟩
  rw [List.countP_append, List.countP_singleton]
  omega

theorem settled_left (h : w.Settled o me) : w.left o = 0 ↔ w.client.pc = .ended true := by
  obtain ⟨-, -, ⟨stage, hpc, hof, -⟩ | ⟨hpc, -⟩⟩ := h
  · have hpos := rest_pos hof
    simp only [LabWorld.left, hpc]
    refine ⟨fun hz => by omega, fun hf => by cases hf⟩
  · simp only [LabWorld.left, hpc]

theorem awaiting_left {stage : LabStage} {sent : Payload} (hpc : w.client.pc = .awaiting stage sent)
    (hof : stage.Of o) : 0 < w.left o := by
  have hpos := rest_pos hof
  simp only [LabWorld.left, hpc]
  split
  all_goals omega

theorem agreed_ended (h : w.Agreed o me) : w.client.pc ≠ .ended false ∧
    (w.left o = 0 ↔ w.client.pc = .ended true) ∧ (w.client.pc = .ended true → ¬w.server.slots.Seats me) := by
  rcases h.phase with hset | ⟨stage, sent, hpc, -, -, -, hof, -⟩ | ⟨stage, sent, d, hpc, hof, -⟩
  · refine ⟨?_, settled_left hset, ?_⟩
    · obtain ⟨-, -, ⟨stage, hpc, -⟩ | ⟨hpc, -⟩⟩ := hset
      all_goals simp [hpc]
    · intro hend
      obtain ⟨-, -, ⟨stage, hpc, -⟩ | ⟨-, hfree⟩⟩ := hset
      · rw [hpc] at hend
        cases hend
      · exact hfree
  all_goals
    have hleft := awaiting_left hpc hof
    simp [hpc]
    omega

theorem hear_batch {d : List UInt8} {k : ℕ} (hup : w.uplink = some d) (hbatch : w.loop = .batch (k + 1)) :
    (labNext host o me w .hear).isSome = true := by
  simp only [labNext, hup, hbatch, Server.main, Option.map_some, Option.isSome_some]

/-- The datagram that waits for the server is read after its next poll. -/
theorem hear_polled {d : List UInt8} (hup : w.uplink = some d) (htop : w.loop = .top)
    (hrun : w.server.net.running = true) (hswept : (w.server.sweepTimeouts host).net.running = true) :
    ([LabAction.serve (.poll true), .hear].foldlM (labNext host o me) w).isSome = true := by
  have hpoll : labNext host o me w (.serve (.poll true)) =
      some { w with server := w.server.sweepTimeouts host, loop := .batch 16 } := by
    simp only [labNext, LoopAction.isFrom, Server.main, htop, hrun, hswept, Bool.not_true, Bool.false_eq_true, if_false,
      if_true, Option.map_some]
  have hhear := @hear_batch host o me { w with server := w.server.sweepTimeouts host, loop := .batch 16 } d 15 hup rfl
  obtain ⟨w', hw'⟩ := Option.isSome_iff_exists.mp hhear
  rw [List.foldlM_cons, hpoll, Option.bind_eq_bind, Option.bind_some, List.foldlM_cons, hw']
  rfl

/-- The client can always take its next step, or the server comes to read its datagram. -/
theorem agreed_enabled (h : w.Agreed o me) (hend : w.client.pc ≠ .ended true) :
    (∀ x, (labNext host o me w (.send x)).isSome = true) ∨ (labNext host o me w .read).isSome = true ∨
      ∃ rounds : List LoopAction, rounds.length ≤ 2 ∧ ((w.server.sweepTimeouts host).net.running = true →
        ((rounds.map LabAction.serve ++ [LabAction.hear]).foldlM (labNext host o me) w).isSome = true) := by
  rcases h.phase with ⟨-, -, ⟨stage, hpc, -⟩ | ⟨hpc, -⟩⟩ | ⟨stage, sent, hpc, -, hup, -⟩ |
    ⟨stage, sent, d, hpc, -, -, hdrop, -⟩
  · exact .inl (fun x => by simp only [labNext, hpc, Option.isSome_some])
  · exact absurd hpc hend
  · refine .inr (.inr ?_)
    cases hl : w.loop with
    | top => exact ⟨[.poll true], by decide, hear_polled hup hl h.running⟩
    | ended => exact absurd hl h.looping
    | batch k =>
      cases k with
      | succ k => exact ⟨[], by decide, fun _ => by simpa using hear_batch hup hl⟩
      | zero =>
        refine ⟨[.drained, .poll true], by decide, fun hswept => ?_⟩
        have hdrained : labNext host o me w (.serve .drained) = some { w with loop := .top } := by
          simp [labNext, LoopAction.isFrom, Server.main, hl]
        have hsame : ({ w with loop := .top } : LabWorld).server = w.server := rfl
        have hpolled := @hear_polled host o me { w with loop := .top } _ hup rfl
          (by rw [hsame]; exact h.running) (by rw [hsame]; exact hswept)
        simp only [List.map_cons, List.map_nil, List.cons_append, List.nil_append]
        rw [List.foldlM_cons, hdrained, Option.bind_eq_bind, Option.bind_some]
        exact hpolled
  · exact .inr (.inl (by simp only [labNext, hpc, hdrop, Option.isSome_some]))

/-- Against a server in its loop that does not know its address yet, and whatever the other
peers do in the meantime, a client whose steps go well never fails: it exchanges every
message of its session, ends well and leaves no slot behind, and until then it can take
its next step or the server comes to read its datagram. -/
theorem lab_session_completes {config : ServerConfig} {listen : UInt32} {τ₀ : List LoopAction} {s : Server}
    {loop : ServerLoop} {τ : List LabAction}
    (hs : Runs.Steps (LoopStep host) (Server.boot config listen, .top) τ₀ (s, loop))
    (hrun : s.net.running = true) (hon : loop ≠ .ended) (hloop : me.addr >>> 24 = 127) (hnew : ¬s.slots.Seats me)
    (hadmits : o.capability ≠ 0 → s.config.policy.Admits originLinux o.capability)
    (h : Runs.Steps (CalmStep host o me) (.start o s loop me) τ w) :
    w.client.pc ≠ .ended false ∧ τ.countP LabAction.own ≤ o.total ∧
      (τ.countP LabAction.own = o.total ↔ w.client.pc = .ended true) ∧
      (w.client.pc = .ended true → ¬w.server.slots.Seats me) ∧
      (w.client.pc ≠ .ended true → (∀ x, (labNext host o me w (.send x)).isSome = true) ∨
        (labNext host o me w .read).isSome = true ∨
        ∃ rounds : List LoopAction, rounds.length ≤ 2 ∧ ((w.server.sweepTimeouts host).net.running = true →
          ((rounds.map LabAction.serve ++ [LabAction.hear]).foldlM (labNext host o me) w).isSome = true)) := by
  obtain ⟨τ', hserver⟩ := main_run hs hon
  obtain ⟨hagreed, hcount⟩ := agreed_run hloop (agreed_start (slotInv_of_run hserver) hrun hon hnew hadmits) h
  have htotal : (LabWorld.start o (s, loop).1 loop me).left o = o.total := rfl
  obtain ⟨hgood, hend, hfree⟩ := agreed_ended hagreed
  refine ⟨hgood, by omega, ?_, hfree, agreed_enabled hagreed⟩
  rw [← hend]
  omega

end

def sampleLabOptions : LabOptions where
  name := asciiBytes "ana"
  count := 2
  capability := 1
  seed := 7
  name_ok := by decide +kernel
  count_ok := by decide
  capability_ok := by decide

def sampleLabInput : LabInput :=
  ⟨some (Vector.replicate 16 3), 5, true, ⟨0, 4096, Vector.replicate 32 1, Vector.replicate 16 2, 0, 0⟩, 20, true⟩

/-- The steps that go well, as they are checked one by one. -/
def calmNext (host : LabHost) (o : LabOptions) (me : SockAddr) (w : LabWorld) (a : LabAction) :
    Option (LabAction × LabWorld) :=
  if w.Calm host o me a then (labNext host o me w a).map (fun w' => (a, w')) else none

theorem calmNext_step {host : LabHost} {o : LabOptions} {me : SockAddr} {w w' : LabWorld} {a : LabAction}
    (h : Runs.Induced (calmNext host o me) w a w') : CalmStep host o me w a w' := by
  obtain ⟨b, hb⟩ := h
  rw [calmNext] at hb
  split at hb
  · rename_i hcalm
    obtain ⟨u, hu, he⟩ := Option.map_eq_some_iff.mp hb
    obtain ⟨rfl, rfl⟩ := Prod.mk.inj he
    exact ⟨hu, hcalm⟩
  · cases hb

def variedLabHost : LabHost :=
  { sampleLabHost with random := fun k => some (Vector.replicate 32 (UInt8.ofNat (k + 1))) }

/-- The six exchanges of the session, with another peer's greeting among them. -/
def sampleLabRun : List LabAction :=
  [.serve (.poll true), .send sampleLabInput, .hear, .read, .send sampleLabInput, .hear,
    .serve (.receive (samplePeer 6000) (sampleHello 4)), .read, .serve .drained, .send sampleLabInput,
    .serve (.poll true), .hear, .read, .send sampleLabInput, .hear, .read, .serve .drained, .serve (.poll false),
    .send sampleLabInput, .serve (.poll true), .hear, .read, .send sampleLabInput, .hear, .read]

/-- The session goes to its end, and the other peer stays. -/
theorem lab_session_completes_sample : ∃ τ w,
    Runs.Steps (CalmStep variedLabHost sampleLabOptions (samplePeer 5000))
      (.start sampleLabOptions (.boot sampleServerConfig 0) .top (samplePeer 5000)) τ w ∧
    sampleLabOptions.total = 18 ∧ τ.countP LabAction.own = 18 ∧ w.client.pc = .ended true ∧
    ¬w.server.slots.Seats (samplePeer 5000) ∧ w.server.slots.usedCount = 1 := by
  have hexec : (Runs.exec (calmNext variedLabHost sampleLabOptions (samplePeer 5000))
      (.start sampleLabOptions (.boot sampleServerConfig 0) .top (samplePeer 5000)) sampleLabRun).any
      (fun r => r.1.countP LabAction.own = 18 ∧ r.2.server.slots.usedCount = 1) = true := by decide +kernel
  obtain ⟨τ, w, hrun, hw⟩ := Runs.exec_any hexec
  obtain ⟨hown, hused⟩ := of_decide_eq_true hw
  have hempty : ∀ i, ((Server.boot sampleServerConfig 0).slots i).used = false := by decide
  have hnew : ¬(Server.boot sampleServerConfig 0).slots.Seats (samplePeer 5000) := by
    rintro ⟨i, hu, -⟩
    rw [hempty i] at hu
    cases hu
  have hcalm := hrun.mono fun _ _ _ => calmNext_step
  obtain ⟨-, -, hended, hfree, -⟩ := lab_session_completes .nil rfl ServerLoop.noConfusion (by decide) hnew
    (fun _ => ⟨.inl rfl, .inl rfl, by decide, rfl⟩) hcalm
  have hend := hended.mp hown
  exact ⟨τ, w, hcalm, rfl, hown, hend, hfree hend, hused⟩

end ArenaLab
