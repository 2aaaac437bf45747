import ArenaLab.LabAgreement
import Mathlib.Data.List.TakeWhile

/-! The exchanges of a session: the server's answer to each message of the client is the one
that the client waits for. -/

namespace ArenaLab

theorem receiveKind_datagram (p : Payload) (seq : UInt32) :
    receiveKind (p.datagram seq) p.kind = some p := by
  have hlen := datagram_length p seq
  have hmax := payloadLen_le p.kind
  have hsize : (p.header seq).len.toNat = (p.datagram seq).length - 16 := by
    have hcode : (p.header seq).len.toNat = p.kind.payloadLen := payloadLen_ofNat p.kind
    omega
  have hok : ¬((p.header seq).magic ≠ labMagic ∨ (p.header seq).version ≠ labVersion ∨
      (p.header seq).flags ≠ 0 ∨ (p.header seq).kind ≠ p.kind.code ∨
      (p.header seq).len.toNat ≠ (p.datagram seq).length - 16) := by
    simp [Payload.header, ← hsize]
  rw [receiveKind, if_neg (by rw [labMaxDatagram]; omega), datagram_header]
  simp only [if_neg hok, datagram_payload, parse_pack]

theorem mem_field {buf : List UInt8} {n : ℕ} {ch : UInt8} (h : ch ∈ (field buf 0 n).toList) (hne : ch ≠ 0) :
    ch ∈ buf := by
  rw [field, Vector.toList_ofFn, List.mem_ofFn] at h
  obtain ⟨i, hi⟩ := h
  rw [Nat.zero_add, List.getD_eq_getElem?_getD] at hi
  cases hget : buf[i.val]? with
  | none =>
    rw [hget] at hi
    exact absurd hi.symm hne
  | some b =>
    rw [hget] at hi
    exact List.mem_of_getElem? (hget.trans (congrArg some hi))

theorem labApp_matches : appMatches (field (asciiBytes labAppName) 0 16) = true := by decide +kernel

theorem printable_name {name : List UInt8} (hname : ∀ ch ∈ name, 0x21 ≤ ch ∧ ch ≤ 0x7e) :
    printable (field name 0 24) = true := by
  rw [printable, cString, List.all_eq_true]
  intro ch hch
  have hne : ch ≠ 0 := by
    have hp := List.mem_takeWhile_imp hch
    simpa using hp
  have hmem : ch ∈ (field name 0 24).toList := (List.takeWhile_prefix _).subset hch
  obtain ⟨hlow, hhigh⟩ := hname ch (mem_field hmem hne)
  rw [Bool.and_eq_true]
  exact ⟨decide_eq_true hlow, decide_eq_true hhigh⟩

theorem labHello_proper {name : List UInt8} {nonce : Bytes 16} (hname : ∀ ch ∈ name, 0x21 ≤ ch ∧ ch ≤ 0x7e)
    (hnonce : validNonce nonce = true) : (labHello name nonce).Proper :=
  ⟨rfl, labApp_matches, printable_name hname, hnonce⟩

theorem accept_next {state : LabSequence} {seq : UInt32} (h : state.next = seq) (hpos : 0 < seq.toNat)
    (hlt : seq.toNat < 4294967295) :
    (state.accept seq).2 = .ok ∧ (state.accept seq).1.next = seq + 1 := by
  subst h
  have hadd : (state.next + 1).toNat = state.next.toNat + 1 := by
    have hone : (1 : UInt32).toNat = 1 := rfl
    rw [UInt32.toNat_add]
    omega
  rcases accept_cases state state.next with ⟨hok, _, _, _, _, _, _, hnext, _⟩ | ⟨_, _, _, hf, _⟩ | ⟨_, _, _, hf⟩
  · refine ⟨hok, UInt32.toNat_inj.mp ?_⟩
    rw [hnext, hadd]
    omega
  · omega
  · omega

section

variable {host : LabHost} {o : LabOptions} {me : SockAddr} {w w' : LabWorld} {c : Client} {loop : ServerLoop}

theorem Slots.Holds.sound {s : Server} (hi : SlotInv s) (h : s.slots.Holds me c) : c.Sound := by
  obtain ⟨i, rfl, hu, -⟩ := h
  exact hi.sound i hu

/-- The client accepts the answer, and both sides are ready for what comes next. -/
theorem heard_of_answered {stage : LabStage} {sent : Payload} {reply : List UInt8} {c' : Client} {s' : Server}
    {a : LabHelloAck} (hpc : w.client.pc = .awaiting stage sent) (hof : stage.Of o)
    (hrun : w.server.net.running = true) (hlen : (w.server.net.repliesTo me).length = w.seen)
    (hans : Answered w.server s' me reply c')
    (hcheck : w.client.check sent reply = some a)
    (hnext : (∃ stage', o.after stage = .ready stage' ∧
        LabWorld.Before o me { w with server := s', loop := loop, client := { w.client with ack := a } } stage') ∨
      o.after stage = .ended true ∧ c'.used = false) :
    LabWorld.Heard o me { w with server := s', loop := loop, uplink := none } := by
  have hread : w.client.read o stage sent reply = { w.client with ack := a, pc := o.after stage } := by
    simp only [LabClient.read, hcheck]
  have hdrop : (s'.net.repliesTo me).drop w.seen = [reply] := by
    rw [hans.replies]
    exact List.drop_left' hlen
  have hsize : (s'.net.repliesTo me).length = w.seen + 1 := by
    rw [hans.replies, List.length_append, hlen, List.length_singleton]
  refine ⟨⟨stage, sent, reply, hpc, hof, rfl, hdrop, hsize, ⟨rfl, hsize, ?_⟩, by rw [hread]⟩, hans.running.trans hrun⟩
  rw [hread]
  rcases hnext with ⟨stage', hafter, hbefore⟩ | ⟨hafter, hfree⟩
  · exact .inl ⟨stage', hafter, hbefore⟩
  · exact .inr ⟨hafter, hans.free hfree⟩

theorem hear_hello {nonce : Bytes 16} (h : w.Agreed o me) (hloop : me.addr >>> 24 = 127)
    (hpc : w.client.pc = .awaiting .hello (.hello (labHello o.name nonce)))
    (hkeep : w.client.hello = labHello o.name nonce) (hnonce : validNonce nonce = true)
    (hlen : (w.server.net.repliesTo me).length = w.seen) (hnone : ¬w.server.slots.Seats me)
    (hsend : host.sendOk w.server.net.sends = true) (hroom : w.server.Welcomes host w.client.hello) :
    LabWorld.Heard o me { w with
      loop := loop
      server := w.server.receive host me ((Payload.hello (labHello o.name nonce)).datagram 0)
      uplink := none } := by
  rw [hkeep] at hroom
  obtain ⟨c, hu, hcn, ⟨hseq, hpending, hlast⟩, _, hans⟩ :=
    answered_hello h.inv hloop hnone (labHello_proper o.name_ok.2.2 hnonce) hroom hsend
  refine heard_of_answered (a := ⟨1, Reason.ok.code, c.session, c.snonce, nonce⟩) hpc trivial h.running hlen hans ?_ ?_
  · have hread := receiveKind_datagram (.helloAck ⟨1, Reason.ok.code, c.session, c.snonce, nonce⟩) 0
    have hkind : (labHello o.name nonce).nonce = nonce := rfl
    simp only [LabClient.check, hkind]
    rw [show Kind.helloAck = (Payload.helloAck ⟨1, Reason.ok.code, c.session, c.snonce, nonce⟩).kind from rfl, hread]
    simp
  · refine .inl ⟨.ping 1, rfl, ⟨le_rfl, o.count_ok.1⟩, .inr ⟨c, hans.held hu, rfl, ?_, ?_⟩⟩
    · rw [hcn, hkeep]
    · exact ⟨by rw [hseq]; rfl, hpending, hlast⟩

theorem after_ping {i : UInt32} (hi : i.toNat ≤ o.count.toNat) :
    o.after (.ping i) = .ready (.ping (i + 1)) ∧ i.toNat < o.count.toNat ∨
      i = o.count ∧ (o.after (.ping i) = .ready .request ∧ o.capability ≠ 0 ∨
        o.after (.ping i) = .ready .bye ∧ ¬o.capability ≠ 0) := by
  by_cases hlt : i < o.count
  · exact .inl ⟨by rw [LabOptions.after, if_pos hlt], UInt32.lt_iff_toNat_lt.mp hlt⟩
  · refine .inr ⟨?_, ?_⟩
    · rw [UInt32.lt_iff_toNat_lt] at hlt
      exact UInt32.toNat_inj.mp (by omega)
    · rw [LabOptions.after, if_neg hlt]
      by_cases hcap : o.capability ≠ 0
      · exact .inl ⟨if_pos hcap, hcap⟩
      · exact .inr ⟨if_neg hcap, hcap⟩

theorem hear_ping {i : UInt32} {q : LabPing} (h : w.Agreed o me) (hloop : me.addr >>> 24 = 127)
    (hpc : w.client.pc = .awaiting (.ping i) (.ping q)) (hq : q.session = w.client.ack.session)
    (hlen : (w.server.net.repliesTo me).length = w.seen) (hof : 1 ≤ i.toNat ∧ i.toNat ≤ o.count.toNat)
    (hheld : w.server.slots.Holds me c) (hses : c.session = w.client.ack.session)
    (hcn : c.cnonce = w.client.hello.nonce)
    (hprep : c.sequence.next = i ∧ c.evidence.pending = false ∧ c.evidence.last_request = 0)
    (hsend : host.sendOk w.server.net.sends = true) :
    LabWorld.Heard o me { w with
      loop := loop
      server := w.server.receive host me ((Payload.ping q).datagram i)
      uplink := none } := by
  have hcount := o.count_ok
  obtain ⟨hok, hnext⟩ := accept_next hprep.1 (by omega) (by omega)
  have hans := answered_ping h.inv hloop hheld (hq.trans hses.symm) hok hsend
  have hused : c.used = true := by
    obtain ⟨_, _, hu, _⟩ := hheld
    exact hu
  have hholds := hans.held hused
  refine heard_of_answered (a := w.client.ack) hpc hof h.running hlen hans ?_ (.inl ?_)
  · have hread := receiveKind_datagram (.pong ⟨q.stamp, q.nonce, 0⟩) 0
    simp only [LabClient.check]
    rw [show Kind.pong = (Payload.pong ⟨q.stamp, q.nonce, 0⟩).kind from rfl, hread]
    simp
  · rcases after_ping hof.2 with ⟨hafter, hlt⟩ | ⟨rfl, ⟨hafter, hcap⟩ | ⟨hafter, -⟩⟩
    · have hone : (1 : UInt32).toNat = 1 := rfl
      have hadd : (i + 1).toNat = i.toNat + 1 := by
        rw [UInt32.toNat_add]
        omega
      exact ⟨_, hafter, ⟨by omega, by omega⟩, .inr ⟨_, hholds, hses, hcn, hnext, hprep.2⟩⟩
    · exact ⟨_, hafter, hcap, .inr ⟨_, hholds, hses, hcn, hnext, hprep.2⟩⟩
    · exact ⟨_, hafter, trivial, .inr ⟨_, hholds, hses, hcn, trivial⟩⟩

theorem identity_of_held (h : w.Agreed o me) (hheld : w.server.slots.Holds me c)
    (hses : c.session = w.client.ack.session) (hcn : c.cnonce = w.client.hello.nonce) :
    c.evidence.identity = (true, w.client.ack.session, w.client.hello.nonce) := by
  rw [← hses, ← hcn]
  exact (hheld.sound h.inv).2.2

theorem hear_decision {stage : LabStage} {p : Payload} {e : EvidenceState} {status : UInt32} (h : w.Agreed o me)
    (hloop : me.addr >>> 24 = 127) (hpc : w.client.pc = .awaiting stage p) (hof : stage.Of o)
    (hkind : p.kind = .request ∧ status = 1 ∨ p.kind = .observation ∧ status = 2)
    (hlen : (w.server.net.repliesTo me).length = w.seen) (hheld : w.server.slots.Holds me c)
    (hses : c.session = w.client.ack.session) (hcn : c.cnonce = w.client.hello.nonce)
    (hseq : c.sequence.next = o.sequence stage) (hpos : 0 < (o.sequence stage).toNat)
    (hlt : (o.sequence stage).toNat < 4294967295)
    (hjudge : judge c.evidence w.server.config.policy p (host.now w.server.net.reads) = some (1, e, .ok))
    (hsend : host.sendOk w.server.net.sends = true)
    (hafter : ∃ stage', o.after stage = .ready stage' ∧ stage'.Of o ∧ ∀ c' : Client,
      c'.sequence.next = o.sequence stage + 1 → c'.evidence = e →
      stage'.Prepared o (w.client.request o) c') :
    LabWorld.Heard o me { w with
      loop := loop
      server := w.server.receive host me (p.datagram (o.sequence stage))
      uplink := none } := by
  have hev : p.kind = .request ∨ p.kind = .observation := hkind.imp And.left And.left
  obtain ⟨hok, hnext⟩ := accept_next hseq hpos hlt
  have hans := answered_judged h.inv hloop hheld hev hjudge hok hsend
  have hused : c.used = true := by
    obtain ⟨_, _, hu, _⟩ := hheld
    exact hu
  refine heard_of_answered (a := w.client.ack) hpc hof h.running hlen hans ?_ (.inl ?_)
  · have hstatus : decisionStatus p.kind.code .ok = status := by
      rcases hkind with ⟨hk, rfl⟩ | ⟨hk, rfl⟩
      · rw [hk]
        rfl
      · rw [hk]
        rfl
    have hread := receiveKind_datagram
      (.decision ⟨c.session, 1, decisionStatus p.kind.code .ok, Reason.ok.code⟩) (o.sequence stage)
    rw [hstatus] at hread ⊢
    cases p with
    | request r =>
      rcases hkind with ⟨-, rfl⟩ | ⟨hk, -⟩
      · simp only [LabClient.check]
        rw [show Kind.decision = (Payload.decision ⟨c.session, 1, 1, Reason.ok.code⟩).kind from rfl, hread]
        simp [hses, Reason.code]
      · cases hk
    | observation r =>
      rcases hkind with ⟨hk, -⟩ | ⟨-, rfl⟩
      · cases hk
      · simp only [LabClient.check]
        rw [show Kind.decision = (Payload.decision ⟨c.session, 1, 2, Reason.ok.code⟩).kind from rfl, hread]
        simp [hses, Reason.code]
    | _ => rcases hev with hk | hk <;> cases hk
  · obtain ⟨stage', hready, hof', hprep⟩ := hafter
    exact ⟨stage', hready, hof', .inr ⟨_, hans.held hused, hses, hcn, hprep _ hnext rfl⟩⟩

theorem hear_request (h : w.Agreed o me) (hloop : me.addr >>> 24 = 127)
    (hpc : w.client.pc = .awaiting .request (.request (w.client.request o)))
    (hlen : (w.server.net.repliesTo me).length = w.seen) (hcap : o.capability ≠ 0)
    (hheld : w.server.slots.Holds me c) (hses : c.session = w.client.ack.session)
    (hcn : c.cnonce = w.client.hello.nonce)
    (hprep : c.sequence.next = o.count + 1 ∧ c.evidence.pending = false ∧ c.evidence.last_request = 0)
    (hsend : host.sendOk w.server.net.sends = true)
    (htime : ¬0xFFFFFFFFFFFFFFFF - host.now w.server.net.reads <
      w.server.config.policy.request_timeout_ms.toUInt64) :
    LabWorld.Heard o me { w with
      loop := loop
      server := w.server.receive host me ((Payload.request (w.client.request o)).datagram (o.count + 1))
      uplink := none } := by
  have hcount := o.count_ok
  have hone : (1 : UInt32).toNat = 1 := rfl
  have hadd : (o.count + 1).toNat = o.count.toNat + 1 := by
    rw [UInt32.toNat_add]
    omega
  have hlater : c.evidence.last_request < (w.client.request o).request_id := by
    rw [hprep.2.2]
    exact UInt32.lt_iff_toNat_lt.mpr Nat.zero_lt_one
  have hpolicy := labPolicyRequest_fresh (r := w.client.request o) (h.admits hcap)
    (identity_of_held h hheld hses hcn) (.inl rfl) rfl rfl hlater hprep.2.1 htime
  have hjudge : judge c.evidence w.server.config.policy (.request (w.client.request o))
      (host.now w.server.net.reads) = some (1, _) := congrArg (fun r => some ((1 : UInt32), r)) hpolicy
  rw [show o.count + 1 = o.sequence .request from rfl]
  refine hear_decision h hloop hpc hcap (.inl ⟨rfl, rfl⟩) hlen hheld hses hcn hprep.1
    (show 0 < (o.count + 1).toNat by omega) (show (o.count + 1).toNat < 4294967295 by omega) hjudge hsend
    ⟨.observation, rfl, hcap, fun c' hseq he => ?_⟩
  have hnext : o.count + 1 + 1 = o.count + 2 := by
    rw [UInt32.add_assoc]
    rfl
  exact ⟨hseq.trans hnext, by rw [he], by rw [he]⟩

theorem hear_observation {x : LabInput} (h : w.Agreed o me) (hloop : me.addr >>> 24 = 127)
    (hpc : w.client.pc = .awaiting .observation (.observation (w.client.observation o x)))
    (hx : x.Fine o w.server.config.policy .observation)
    (hlen : (w.server.net.repliesTo me).length = w.seen) (hcap : o.capability ≠ 0)
    (hheld : w.server.slots.Holds me c) (hses : c.session = w.client.ack.session)
    (hcn : c.cnonce = w.client.hello.nonce)
    (hprep : c.sequence.next = o.count + 2 ∧ c.evidence.pending = true ∧ c.evidence.request = w.client.request o)
    (hsend : host.sendOk w.server.net.sends = true)
    (htime : host.now w.server.net.reads < c.evidence.deadline) :
    LabWorld.Heard o me { w with
      loop := loop
      server := w.server.receive host me ((Payload.observation (w.client.observation o x)).datagram (o.count + 2))
      uplink := none } := by
  obtain ⟨-, hmeasured, hsound, helapsed⟩ := hx
  have hadmits := h.admits hcap
  have hcount := o.count_ok
  have htwo : (2 : UInt32).toNat = 2 := rfl
  have hadd : (o.count + 2).toNat = o.count.toNat + 2 := by
    rw [UInt32.toNat_add]
    omega
  have hok : (w.client.observation o x).ok = 1 := if_pos hmeasured
  have hpolicy := labPolicyObservation_due (o := w.client.observation o x) hadmits
    (identity_of_held h hheld hses hcn) (.inl rfl) rfl hprep.2.1 (by rw [hprep.2.2]; rfl)
    (UInt64.not_le.mpr htime) (by rw [hprep.2.2]; exact ⟨rfl, rfl, rfl⟩) hsound.subject hok hsound.error
    helapsed (measured_observed hsound hadmits.known)
  have hjudge : judge c.evidence w.server.config.policy (.observation (w.client.observation o x))
      (host.now w.server.net.reads) = some (1, _) := congrArg (fun r => some ((1 : UInt32), r)) hpolicy
  rw [show o.count + 2 = o.sequence .observation from rfl]
  exact hear_decision h hloop hpc hcap (.inr ⟨rfl, rfl⟩) hlen hheld hses hcn hprep.1
    (show 0 < (o.count + 2).toNat by omega) (show (o.count + 2).toNat < 4294967295 by omega) hjudge hsend
    ⟨.bye, rfl, trivial, fun _ _ _ => trivial⟩

theorem rst_bye {session : Bytes 16} {seq : UInt32} {wire : List UInt8}
    (h : wire = (Payload.rst (rstPayload session .ok "bye")).datagram seq) {bye : LabBye} {c : LabClient}
    (hses : session = c.ack.session) : c.check (.bye bye) wire = some c.ack := by
  have hread := receiveKind_datagram (.rst (rstPayload session .ok "bye")) seq
  have hmsg : (rstPayload session .ok "bye").msg.toList.take 3 = asciiBytes "bye" := by
    show (field (asciiBytes "bye") 0 36).toList.take 3 = asciiBytes "bye"
    decide
  have hlen : (rstPayload session .ok "bye").len = 3 := rfl
  have hok : (rstPayload session .ok "bye").reason = Reason.ok.code ∧ (rstPayload session .ok "bye").len = 3 ∧
      (rstPayload session .ok "bye").msg.toList.take 3 = asciiBytes "bye" ∧
      (rstPayload session .ok "bye").session = c.ack.session := ⟨rfl, hlen, hmsg, hses⟩
  simp only [LabClient.check, h]
  rw [show Kind.rst = (Payload.rst (rstPayload session .ok "bye")).kind from rfl, hread]
  simp only [if_pos hok]

theorem hear_bye (h : w.Agreed o me) (hloop : me.addr >>> 24 = 127)
    (hpc : w.client.pc = .awaiting .bye (.bye ⟨w.client.ack.session, 0, 0⟩))
    (hlen : (w.server.net.repliesTo me).length = w.seen) (hheld : w.server.slots.Holds me c)
    (hses : c.session = w.client.ack.session) (hsend : host.sendOk w.server.net.sends = true) :
    LabWorld.Heard o me { w with
      loop := loop
      server := w.server.receive host me ((Payload.bye ⟨w.client.ack.session, 0, 0⟩).datagram (o.count + 1))
      uplink := none } := by
  have hans := @answered_bye host c w.server me (o.count + 1) ⟨w.client.ack.session, 0, 0⟩ h.inv hloop hheld
    hses.symm hsend
  exact heard_of_answered (a := w.client.ack) hpc trivial h.running hlen hans (rst_bye rfl hses) (.inr ⟨rfl, rfl⟩)

theorem heard_of_hear (h : w.Agreed o me) (hloop : me.addr >>> 24 = 127) (hask : w.Asking o me)
    (hcalm : w.Calm host o me .hear) (hnext : labNext host o me w .hear = some w') :
    w'.Heard o me ∧ w'.loop ≠ .ended := by
  obtain ⟨stage, sent, hpc, ⟨x, hx, hmessage, hkeep⟩, hup, hlen, hof, hbefore⟩ := hask
  simp only [LabWorld.Calm, hpc] at hcalm
  obtain ⟨hsend, htime⟩ := hcalm
  simp only [labNext, hup, Server.main] at hnext
  split at hnext
  · rename_i k _
    obtain rfl := Option.some.inj hnext
    refine ⟨?_, ServerLoop.noConfusion⟩
    cases stage with
    | hello =>
      obtain ⟨-, hnonce⟩ := hx
      simp only [LabClient.message] at hmessage
      obtain ⟨nonce, hget, rfl⟩ := Option.map_eq_some_iff.mp hmessage
      rw [hget, Option.any_some] at hnonce
      rcases hbefore with ⟨-, hnone⟩ | ⟨_, _, _, _, hf⟩
      · refine hear_hello h hloop hpc ?_ hnonce hlen hnone hsend htime
        rw [← hkeep]
        rfl
      · cases hf
    | ping i =>
      rcases hbefore with ⟨hf, -⟩ | ⟨c, hheld, hses, hcn, hprep⟩
      · cases hf
      · simp only [LabClient.message] at hmessage
        obtain ⟨nonce, -, rfl⟩ := Option.map_eq_some_iff.mp hmessage
        exact hear_ping h hloop hpc rfl hlen hof hheld hses hcn hprep hsend
    | request =>
      rcases hbefore with ⟨hf, -⟩ | ⟨c, hheld, hses, hcn, hprep⟩
      · cases hf
      · obtain rfl := Option.some.inj hmessage
        exact hear_request h hloop hpc hlen hof hheld hses hcn hprep hsend htime
    | observation =>
      rcases hbefore with ⟨hf, -⟩ | ⟨c, hheld, hses, hcn, hprep⟩
      · cases hf
      · obtain rfl := Option.some.inj hmessage
        obtain ⟨i, rfl, hu, ha⟩ := hheld
        exact hear_observation h hloop hpc hx hlen hof ⟨i, rfl, hu, ha⟩ hses hcn hprep hsend (htime i hu ha)
    | bye =>
      rcases hbefore with ⟨hf, -⟩ | ⟨c, hheld, hses, hcn, hprep⟩
      · cases hf
      · obtain rfl := Option.some.inj hmessage
        exact hear_bye h hloop hpc hlen hheld hses hsend
  · cases hnext

end

end ArenaLab
