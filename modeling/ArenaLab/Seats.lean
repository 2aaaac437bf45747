import ArenaLab.ServerReplies
import ArenaLab.SessionHistory

/-! The server as one peer sees it: the slot that the peer holds, how each of its
datagrams is answered, and that no other peer touches the slot or answers in its place. -/

namespace ArenaLab

/-- The peer holds a slot, with this in it. -/
def Slots.Holds (slots : Slots) (me : SockAddr) (c : Client) : Prop :=
  ∃ i, slots i = c ∧ c.used = true ∧ c.addr = me

/-- What the server has sent to an address, oldest first. -/
def Net.repliesTo (net : Net) (me : SockAddr) : List (List UInt8) :=
  (net.sent.filter (fun e => e.1 = me)).map Prod.snd

def Payload.header (p : Payload) (seq : UInt32) : LabHdr :=
  ⟨labMagic, labVersion, p.kind.code, 0, seq, UInt32.ofNat p.kind.payloadLen, Vector.replicate 4 0xAA⟩

theorem datagram_header (p : Payload) (seq : UInt32) : labHdrParse (p.datagram seq) = some (p.header seq) := by
  have hpad : ((p.datagram seq).drop 12).take 4 = List.replicate 4 0xAA := rfl
  have hseq : get32 (p.datagram seq) 4 = seq := get32_eq rfl
  have hlen : get32 (p.datagram seq) 8 = UInt32.ofNat p.kind.payloadLen := get32_eq rfl
  have hsize : 16 ≤ (p.datagram seq).length := by
    rw [Payload.datagram, List.length_append, length_labHdrPack]
    exact Nat.le_add_right _ _
  rw [labHdrParse_eq, if_pos ⟨hsize, hpad⟩, hseq, hlen]
  rfl

theorem datagram_payload (p : Payload) (seq : UInt32) : (p.datagram seq).drop 16 = labPayloadPack p :=
  List.drop_left' (length_labHdrPack _)

theorem datagram_length (p : Payload) (seq : UInt32) : (p.datagram seq).length = 16 + p.kind.payloadLen := by
  rw [Payload.datagram, List.length_append, length_labHdrPack, length_labPayloadPack]

theorem payloadLen_le (kind : Kind) : kind.payloadLen ≤ 104 := by
  cases kind <;> decide

theorem payloadLen_ofNat (kind : Kind) : (UInt32.ofNat kind.payloadLen).toNat = kind.payloadLen := by
  cases kind <;> rfl

theorem parse_pack (p : Payload) : labPayloadParse (labPayloadPack p) p.kind.code = some p := by
  rw [labPayloadParse_known, if_pos (length_labPayloadPack p), read_pack]

section

variable {host : LabHost} {policy : LabPolicy} {net : Net} {c : Client}

theorem doOpen_datagram (p : Payload) (seq : UInt32) :
    doOpen host policy net c (p.datagram seq) =
      openKind host policy net c (p.header seq) (labPayloadPack p) := by
  have hlen := datagram_length p seq
  have hmax := payloadLen_le p.kind
  have hreal : ¬((p.header seq).len.toNat ≠ (labPayloadPack p).length ∨
      labPayloadLen (p.header seq).kind ≠ (p.header seq).len.toNat) := by
    have hbyte : (p.header seq).len.toNat = p.kind.payloadLen := payloadLen_ofNat p.kind
    have hkind : labPayloadLen (p.header seq).kind = p.kind.payloadLen := labPayloadLen_code p.kind
    rw [length_labPayloadPack, hbyte, hkind]
    simp
  rw [doOpen, if_neg (by rw [labMaxDatagram]; omega), datagram_header]
  have hmagic : ¬(p.header seq).magic ≠ labMagic := not_not.mpr rfl
  have hversion : ¬(p.header seq).version ≠ labVersion := not_not.mpr rfl
  have hflags : ¬(p.header seq).flags ≠ 0 := not_not.mpr rfl
  simp only [if_neg hmagic, if_neg hversion, if_neg hreal, if_neg hflags, datagram_payload]

theorem openKind_ping {p : LabPing} {seq : UInt32} (hses : p.session = c.session)
    (hok : (c.sequence.accept seq).2 = .ok) (hsend : host.sendOk net.sends = true) :
    openKind host policy net c ((Payload.ping p).header seq) (labPayloadPack (.ping p)) =
      ({ net with
          reads := net.reads + 1
          sends := net.sends + 1
          sent := net.sent ++ [(c.addr, (Payload.pong ⟨p.stamp, p.nonce, 0⟩).datagram 0)] },
        { c with sequence := (c.sequence.accept seq).1, last_rx := host.now net.reads }) := by
  have hkind : Kind.ofCode ((Payload.ping p).header seq).kind = some .ping := Kind.ofCode_code .ping
  have hlen : (labPayloadPack (.ping p)).length = 40 := length_labPayloadPack (.ping p)
  simp only [openKind, hkind, doPing]
  rw [if_neg (by omega), if_neg (by omega), show Kind.ping.code = (Payload.ping p).kind.code from rfl, parse_pack]
  have hseq : ((Payload.ping p).header seq).seq = seq := rfl
  simp only [hses, hseq, hok, ne_eq, not_true_eq_false, if_false]
  rw [@sendDatagram_ok host { net with reads := net.reads + 1 } _ _ hsend]

theorem openKind_judged {p : Payload} {seq request_id : UInt32} {next : EvidenceState}
    (hkind : p.kind = .request ∨ p.kind = .observation)
    (hjudge : judge c.evidence policy p (host.now net.reads) = some (request_id, next, .ok))
    (hok : (c.sequence.accept seq).2 = .ok) (hsend : host.sendOk net.sends = true) :
    openKind host policy net c (p.header seq) (labPayloadPack p) =
      ({ net with
          reads := net.reads + 1 + 1
          sends := net.sends + 1
          sent := net.sent ++ [(c.addr, (Payload.decision ⟨c.session, request_id,
            decisionStatus p.kind.code .ok, Reason.ok.code⟩).datagram seq)] },
        { c with
          evidence := next
          sequence := (c.sequence.accept seq).1
          last_rx := host.now (net.reads + 1) }) := by
  have hdo : openKind host policy net c (p.header seq) (labPayloadPack p) =
      doEvidence host policy net c (p.header seq) (labPayloadPack p) := by
    have hcode : Kind.ofCode (p.header seq).kind = some p.kind := Kind.ofCode_code p.kind
    rcases hkind with hk | hk
    · simp only [openKind, hcode, hk]
    · simp only [openKind, hcode, hk]
  have hcode : (p.header seq).kind = p.kind.code := rfl
  have hseq : (p.header seq).seq = seq := rfl
  simp only [hdo, doEvidence, hcode, parse_pack, Option.bind_some, hjudge, answerEvidence, hseq, hok, if_true]
  rw [@sendDatagram_ok host { net with reads := net.reads + 1 + 1 } _ _ hsend]
  rfl

theorem openKind_bye {p : LabBye} {seq : UInt32} (hses : p.session = c.session)
    (hsend : host.sendOk net.sends = true) :
    openKind host policy net c ((Payload.bye p).header seq) (labPayloadPack (.bye p)) =
      ({ net with
          sends := net.sends + 1
          n_rst := net.n_rst + 1
          sent := net.sent ++ [(c.addr, (Payload.rst (rstPayload c.session .ok "bye")).datagram c.nrst)] },
        .zero) := by
  have hkind : Kind.ofCode ((Payload.bye p).header seq).kind = some .bye := Kind.ofCode_code .bye
  have hlen : (labPayloadPack (.bye p)).length = 24 := length_labPayloadPack (.bye p)
  have hfield : field (labPayloadPack (.bye p)) 0 16 = c.session := by
    rw [← hses]
    exact field_eq (by rw [labPayloadPack, List.drop_zero, List.append_assoc])
  simp only [openKind, hkind, doBye]
  rw [if_neg (by omega), if_neg (not_not.mpr hfield)]
  simp only [sendRst, sendDatagram_ok hsend]

variable {s : Server} {me : SockAddr} {p : Payload} {seq : UInt32}

/-- A datagram of the peer that holds a slot goes to that slot, and nowhere else. -/
theorem receive_held {d : List UInt8} (hi : SlotInv s) (hloop : me.addr >>> 24 = 127)
    (hd : d.length ≤ labMaxDatagram) {i : Fin 32} (hu : (s.slots i).used = true) (ha : (s.slots i).addr = me) :
    s.receive host me d = { s with
      net := (doOpen host s.config.policy { s.net with n_rx := s.net.n_rx + 1 } (s.slots i) d).1
      slots := Function.update s.slots i
        (doOpen host s.config.policy { s.net with n_rx := s.net.n_rx + 1 } (s.slots i) d).2 } := by
  have hpeer : s.slots.ofPeer me = some i := ofPeer_used hi hu ha
  have hstate : (s.slots i).state = .stOpen := (hi.sound i hu).1
  simp only [Server.receive, Server.route, hloop, ne_eq, not_true_eq_false, if_false, hpeer, serve_eq]
  rw [slotFor_used (s := { s with net := { s.net with n_rx := s.net.n_rx + 1 } }) hu ha]
  simp only [handle, hstate]
  rw [if_neg (by omega)]

/-- What the server made of a datagram of the peer: its one reply, and the slot afterwards. -/
structure Answered (s s' : Server) (me : SockAddr) (reply : List UInt8) (c : Client) : Prop where
  inv : SlotInv s'
  config : s'.config = s.config
  running : s'.net.running = s.net.running
  replies : s'.net.repliesTo me = s.net.repliesTo me ++ [reply]
  held : c.used = true → s'.slots.Holds me c
  free : c.used = false → ¬s'.slots.Seats me

theorem repliesTo_snoc {net net' : Net} {d : List UInt8} (h : net'.sent = net.sent ++ [(me, d)]) :
    net'.repliesTo me = net.repliesTo me ++ [d] := by
  simp [Net.repliesTo, h]

theorem answered_held {reply : List UInt8} {c' : Client} {net' : Net} (hi : SlotInv s)
    (hloop : me.addr >>> 24 = 127) (h : s.slots.Holds me c)
    (hopen : doOpen host s.config.policy { s.net with n_rx := s.net.n_rx + 1 } c (p.datagram seq) = (net', c'))
    (hsent : net'.sent = s.net.sent ++ [(me, reply)]) (hrun : net'.running = s.net.running)
    (haddr : c'.used = true → c'.addr = me) : Answered s (s.receive host me (p.datagram seq)) me reply c' := by
  obtain ⟨i, rfl, hu, ha⟩ := h
  have hsize : (p.datagram seq).length ≤ labMaxDatagram := by
    have hlen := datagram_length p seq
    have hmax := payloadLen_le p.kind
    rw [labMaxDatagram]
    omega
  have hinv : SlotInv (s.receive host me (p.datagram seq)) := hi.receive me _
  rw [receive_held hi hloop hsize hu ha, hopen] at hinv ⊢
  refine ⟨hinv, rfl, hrun, repliesTo_snoc hsent, ?_, ?_⟩
  · exact fun hc => ⟨i, Function.update_self .., hc, haddr hc⟩
  · rintro hc ⟨j, huj, haj⟩
    by_cases hij : j = i
    · subst hij
      simp only [Function.update_self] at huj
      rw [hc] at huj
      cases huj
    · simp only [Function.update_of_ne hij] at huj haj
      exact hij (hi.peers j i huj hu (haj.trans ha.symm))

theorem answered_ping {q : LabPing} (hi : SlotInv s) (hloop : me.addr >>> 24 = 127) (h : s.slots.Holds me c)
    (hses : q.session = c.session) (hok : (c.sequence.accept seq).2 = .ok)
    (hsend : host.sendOk s.net.sends = true) :
    Answered s (s.receive host me ((Payload.ping q).datagram seq)) me
      ((Payload.pong ⟨q.stamp, q.nonce, 0⟩).datagram 0)
      { c with sequence := (c.sequence.accept seq).1, last_rx := host.now s.net.reads } := by
  have haddr : c.addr = me := by
    obtain ⟨_, _, _, ha⟩ := h
    exact ha
  have hopen := @openKind_ping host s.config.policy { s.net with n_rx := s.net.n_rx + 1 } c q seq hses hok hsend
  rw [← doOpen_datagram] at hopen
  exact answered_held hi hloop h hopen (by rw [haddr]) rfl (fun _ => haddr)

theorem answered_judged {request_id : UInt32} {next : EvidenceState} (hi : SlotInv s)
    (hloop : me.addr >>> 24 = 127) (h : s.slots.Holds me c)
    (hkind : p.kind = .request ∨ p.kind = .observation)
    (hjudge : judge c.evidence s.config.policy p (host.now s.net.reads) = some (request_id, next, .ok))
    (hok : (c.sequence.accept seq).2 = .ok) (hsend : host.sendOk s.net.sends = true) :
    Answered s (s.receive host me (p.datagram seq)) me
      ((Payload.decision ⟨c.session, request_id, decisionStatus p.kind.code .ok, Reason.ok.code⟩).datagram seq)
      { c with
        evidence := next
        sequence := (c.sequence.accept seq).1
        last_rx := host.now (s.net.reads + 1) } := by
  have haddr : c.addr = me := by
    obtain ⟨_, _, _, ha⟩ := h
    exact ha
  have hopen := @openKind_judged host s.config.policy { s.net with n_rx := s.net.n_rx + 1 } c p seq request_id
    next hkind hjudge hok hsend
  rw [← doOpen_datagram] at hopen
  exact answered_held hi hloop h hopen (by rw [haddr]) rfl (fun _ => haddr)

theorem answered_bye {q : LabBye} (hi : SlotInv s) (hloop : me.addr >>> 24 = 127) (h : s.slots.Holds me c)
    (hses : q.session = c.session) (hsend : host.sendOk s.net.sends = true) :
    Answered s (s.receive host me ((Payload.bye q).datagram seq)) me
      ((Payload.rst (rstPayload c.session .ok "bye")).datagram c.nrst) .zero := by
  have haddr : c.addr = me := by
    obtain ⟨_, _, _, ha⟩ := h
    exact ha
  have hopen := @openKind_bye host s.config.policy { s.net with n_rx := s.net.n_rx + 1 } c q seq hses hsend
  rw [← doOpen_datagram] at hopen
  refine answered_held hi hloop h hopen (by rw [haddr]) rfl (fun hu => ?_)
  cases hu

/-- What `do_new` asks of a greeting. -/
structure LabHello.Proper (q : LabHello) : Prop where
  app_id : q.app_id = labAppId
  app : appMatches q.app = true
  name : printable q.name = true
  nonce : validNonce q.nonce = true

/-- The server has a slot, an unused nonce and entropy for the greeting. -/
structure Server.Welcomes (host : LabHost) (s : Server) (q : LabHello) : Prop where
  room : s.slots.usedCount < s.config.max_clients
  fresh : ∀ i, (s.slots i).used = true → (s.slots i).cnonce ≠ q.nonce
  entropy : (host.random s.net.draws).isSome = true

def Client.greeted (c : Client) (q : LabHello) (rnd : Bytes 32) (hello : Bytes 60) (now : UInt64) : Client :=
  { c with
    session := field rnd.toList 0 16
    cnonce := q.nonce
    snonce := field rnd.toList 16 16
    hello := hello }.opened q now

theorem doNew_hello {slots : Slots} {q : LabHello} {rnd : Bytes 32} (hq : q.Proper)
    (hfresh : ∀ i, (slots i).used = true → (slots i).cnonce ≠ q.nonce)
    (hrnd : host.random net.draws = some rnd) (hsend : host.sendOk net.sends = true) :
    ∃ net' hello, doNew host slots net c ((Payload.hello q).datagram 0) =
        (net', c.greeted q rnd hello (host.now net.reads)) ∧
      net'.sent = net.sent ++ [(c.addr, (Payload.helloAck ⟨1, Reason.ok.code, field rnd.toList 0 16,
        field rnd.toList 16 16, q.nonce⟩).datagram 0)] ∧ net'.running = net.running := by
  have hlen : ((Payload.hello q).datagram 0).length = 76 := datagram_length _ _
  have hmagic : ¬((Payload.hello q).datagram 0).getD 0 0 ≠ labMagic := not_not.mpr rfl
  have hversion : ¬((Payload.hello q).datagram 0).getD 1 0 ≠ labVersion := not_not.mpr rfl
  have hkind : ¬((Payload.hello q).datagram 0).getD 2 0 ≠ Kind.hello.code := not_not.mpr rfl
  have hpay : (labPayloadPack (.hello q)).length = 60 := length_labPayloadPack _
  have hreal : ¬((Payload.hello q).header 0).len.toNat ≠ (labPayloadPack (.hello q)).length := by
    rw [hpay]
    exact not_not.mpr rfl
  have hflags : ¬(((Payload.hello q).header 0).flags ≠ 0 ∨ ((Payload.hello q).header 0).seq ≠ 0) := by
    rintro (h | h)
    · exact h rfl
    · exact h rfl
  have hparse : labPayloadParse (labPayloadPack (.hello q)) Kind.hello.code = some (.hello q) :=
    parse_pack (.hello q)
  have hdup : ¬∃ i, (slots i).used = true ∧ (slots i).cnonce = q.nonce := fun ⟨i, hu, he⟩ => hfresh i hu he
  rw [doNew, if_neg (by omega), if_neg (by rw [hlen]; decide), if_neg hmagic, if_neg hversion, if_neg hkind,
    datagram_header]
  simp only [datagram_payload]
  rw [if_neg hreal, if_neg hflags, doHello, if_neg (by omega), hparse]
  simp only [hq.app_id, hq.app, hq.name, hq.nonce, ne_eq, not_true_eq_false, Bool.not_true, Bool.false_eq_true,
    if_false, if_neg hdup, hrnd, sendHelloAck]
  rw [@sendDatagram_ok host { net with draws := net.draws + 1 } _ _ hsend]
  exact ⟨_, _, rfl, rfl, rfl⟩

theorem answered_hello {q : LabHello} (hi : SlotInv s) (hloop : me.addr >>> 24 = 127)
    (hnone : ¬s.slots.Seats me) (hq : q.Proper) (hw : s.Welcomes host q) (hsend : host.sendOk s.net.sends = true) :
    ∃ c : Client, c.used = true ∧ c.cnonce = q.nonce ∧ c.Blank ∧ c.last_rx = host.now s.net.reads ∧
      Answered s (s.receive host me ((Payload.hello q).datagram 0)) me
        ((Payload.helloAck ⟨1, Reason.ok.code, c.session, c.snonce, q.nonce⟩).datagram 0) c := by
  have hpeer : s.slots.ofPeer me = none := by
    cases hp : s.slots.ofPeer me with
    | none => rfl
    | some i =>
      obtain ⟨hu, ha⟩ := ofPeer_some hp
      exact absurd ⟨i, hu, ha⟩ hnone
  obtain ⟨i, hfree⟩ := exists_free hw.room s.config.clients_range.2
  have hunused : (s.slots i).used = false := by
    simpa using List.find?_some hfree
  obtain ⟨rnd, hrnd⟩ := Option.isSome_iff_exists.mp hw.entropy
  have hlen : ((Payload.hello q).datagram 0).length = 76 := datagram_length _ _
  have hroute : s.receive host me ((Payload.hello q).datagram 0) =
      Server.serve host { s with net := { s.net with n_rx := s.net.n_rx + 1 } } i me
        ((Payload.hello q).datagram 0) := by
    simp only [Server.receive, Server.route]
    rw [if_neg (not_not.mpr hloop), hpeer]
    simp only
    rw [if_neg (by have hroom := hw.room; omega), hfree]
  have hinv : SlotInv (s.receive host me ((Payload.hello q).datagram 0)) := hi.receive me _
  have hfresh : ∀ j, (Function.update s.slots i (Client.visitor me) j).used = true →
      (Function.update s.slots i (Client.visitor me) j).cnonce ≠ q.nonce := by
    intro j hj
    by_cases hji : j = i
    · subst hji
      rw [Function.update_self] at hj
      cases hj
    · rw [Function.update_of_ne hji] at hj ⊢
      exact hw.fresh j hj
  obtain ⟨net', hello, hdo, hsent, hrun⟩ := @doNew_hello host
    { s.net with n_rx := s.net.n_rx + 1 } (.visitor me) _ q rnd
    hq hfresh hrnd hsend
  have hhandle : handle host { s with
      net := { s.net with n_rx := s.net.n_rx + 1 }
      slots := Function.update s.slots i (.visitor me) } (.visitor me) ((Payload.hello q).datagram 0) =
      (net', (Client.visitor me).greeted q rnd hello (host.now s.net.reads)) := by
    rw [handle, if_neg (by rw [hlen]; decide)]
    exact hdo
  have hslot : Server.slotFor { s with net := { s.net with n_rx := s.net.n_rx + 1 } } i me = .visitor me :=
    slotFor_free hunused
  rw [hroute, serve_eq, hslot] at hinv ⊢
  rw [hhandle] at hinv ⊢
  refine ⟨(Client.visitor me).greeted q rnd hello (host.now s.net.reads), ?_, ?_, ?_, ?_,
    hinv, rfl, hrun, repliesTo_snoc hsent, fun hu => ⟨i, Function.update_self .., hu, rfl⟩, ?_⟩
  · rfl
  · rfl
  · exact ⟨rfl, rfl, rfl⟩
  · rfl
  · intro hu
    cases hu

/-- The next sweep would end the peer's session. -/
def Server.Stale (host : LabHost) (s : Server) (me : SockAddr) : Prop :=
  ∃ i, (s.slots i).used = true ∧ (s.slots i).addr = me ∧
    s.config.timeout_ms.toUInt64 < host.now s.net.reads - (s.slots i).last_rx

/-- To the peer the server is the same: its slot, and what it was sent. -/
structure SameFor (me : SockAddr) (s s' : Server) : Prop where
  inv : SlotInv s'
  config : s'.config = s.config
  replies : s'.net.repliesTo me = s.net.repliesTo me
  held : ∀ c, s.slots.Holds me c → s'.slots.Holds me c
  free : ¬s.slots.Seats me → ¬s'.slots.Seats me

theorem Net.Says.repliesTo {net' : Net} {addr : SockAddr} (h : net.Says addr net') (hne : addr ≠ me) :
    net'.repliesTo me = net.repliesTo me := by
  cases h with
  | silent hsent => rw [Net.repliesTo, hsent, Net.repliesTo]
  | said p seq _ hsent => simp [Net.repliesTo, hsent, hne]

theorem sameFor_receive {from_ : SockAddr} {d : List UInt8} (hi : SlotInv s) (hne : from_ ≠ me) :
    SameFor me s (s.receive host from_ d) := by
  have hreplies : (s.receive host from_ d).net.repliesTo me = s.net.repliesTo me :=
    (@receive_tells host s from_ d).repliesTo hne
  refine ⟨hi.receive from_ d, (receive_spec host hi from_ d).2, hreplies, ?_, ?_⟩
  · rintro c ⟨i, rfl, hu, ha⟩
    refine ⟨i, ?_, hu, ha⟩
    have hother : ∀ (j : Fin 32) (c' : Client), j ≠ i →
        (s.receive host from_ d).slots = Function.update s.slots j c' →
        (s.receive host from_ d).slots i = s.slots i := by
      intro j c' hji hslots
      rw [hslots, Function.update_of_ne (Ne.symm hji)]
    have hfree : ∀ j : Fin 32, (s.slots j).used = false → j ≠ i := by
      rintro j hj rfl
      rw [hj] at hu
      cases hu
    cases (receive_spec host hi from_ d).1 with
    | turnedAway hslots => rw [hslots]
    | peer j c' _ hj hslots =>
      refine hother j c' ?_ hslots
      rintro rfl
      exact hne (hj.symm.trans ha)
    | free j c' hj _ _ hslots => exact hother j c' (hfree j hj) hslots
    | opened j c' hj _ _ _ _ _ _ hslots => exact hother j c' (hfree j hj) hslots
  · exact fun hn hs => hn (receive_seats hi hne hs)

theorem SameFor.trans {s₁ s₂ s₃ : Server} (h : SameFor me s₁ s₂) (h' : SameFor me s₂ s₃) : SameFor me s₁ s₃ :=
  ⟨h'.inv, h'.config.trans h.config, h'.replies.trans h.replies, fun c hc => h'.held c (h.held c hc),
    fun hn => h'.free (h.free hn)⟩

theorem sameFor_sweepSlot {now : UInt64} {i : Fin 32} (hi : SlotInv s)
    (hfresh : (s.slots i).used = true → (s.slots i).addr = me →
      ¬s.config.timeout_ms.toUInt64 < now - (s.slots i).last_rx) :
    SameFor me s (sweepSlot host now s i) := by
  have hsame : SameFor me s s := ⟨hi, rfl, rfl, fun _ hc => hc, fun hn => hn⟩
  have hinv : SlotInv (sweepSlot host now s i) := hi.sweepSlot now i
  simp only [ArenaLab.sweepSlot] at hinv ⊢
  split
  · exact hsame
  · rename_i hused
    rw [not_or] at hused
    have hu : (s.slots i).used = true := by simpa using hused.1
    rw [if_neg (by simpa using hused)] at hinv
    split
    · rename_i hlate
      rw [if_pos hlate] at hinv
      have hne : (s.slots i).addr ≠ me := fun ha => hfresh hu ha hlate
      have hreplies := (@sendRst_tells host s.net s.net (s.slots i) .timeout "timeout" rfl rfl rfl rfl).repliesTo hne
      refine ⟨hinv, rfl, hreplies, ?_, ?_⟩
      · rintro c ⟨j, rfl, huj, haj⟩
        have hji : j ≠ i := by
          rintro rfl
          exact hne haj
        exact ⟨j, Function.update_of_ne hji _ _, huj, haj⟩
      · exact fun hn hs => hn (released_seats hi hu hs).1
    · exact hsame

theorem sweepSlot_slot {now : UInt64} {i j : Fin 32} :
    (sweepSlot host now s i).slots j = s.slots j ∨ (sweepSlot host now s i).slots j = .zero := by
  simp only [ArenaLab.sweepSlot]
  split
  · exact .inl rfl
  · split
    · by_cases hji : j = i
      · subst hji
        exact .inr (Function.update_self ..)
      · exact .inl (Function.update_of_ne hji ..)
    · exact .inl rfl

theorem sameFor_sweep (hi : SlotInv s) (hfresh : ¬s.Stale host me) : SameFor me s (s.sweepTimeouts host) := by
  have hstart : SameFor me s { s with net := { s.net with reads := s.net.reads + 1 } } :=
    ⟨hi.congr rfl rfl, rfl, rfl, fun _ hc => hc, fun hn => hn⟩
  have hquiet : ∀ i, (s.slots i).used = true → (s.slots i).addr = me →
      ¬s.config.timeout_ms.toUInt64 < host.now s.net.reads - (s.slots i).last_rx :=
    fun i hu ha hlate => hfresh ⟨i, hu, ha, hlate⟩
  have hfold : ∀ (l : List (Fin 32)) (t : Server), SameFor me s t →
      (∀ i, (t.slots i).used = true → (t.slots i).addr = me → (s.slots i) = t.slots i) →
      SameFor me s (l.foldl (sweepSlot host (host.now s.net.reads)) t) := by
    intro l
    induction l with
    | nil => exact fun t ht _ => ht
    | cons i l ih =>
      intro t ht hsame
      have hslot : SameFor me t (sweepSlot host (host.now s.net.reads) t i) := by
        refine sameFor_sweepSlot ht.inv (fun hu ha => ?_)
        have hold := hsame i hu ha
        rw [ht.config, ← hold]
        rw [← hold] at hu ha
        exact hquiet i hu ha
      refine ih _ (ht.trans hslot) (fun j hu ha => ?_)
      rcases @sweepSlot_slot host t (host.now s.net.reads) i j with hold | hzero
      · rw [hold] at hu ha ⊢
        exact hsame j hu ha
      · rw [hzero] at hu
        cases hu
  have hslots : ∀ i, (s.slots i).used = true → (s.slots i).addr = me → s.slots i = s.slots i := fun _ _ _ => rfl
  rw [Server.sweepTimeouts]
  exact hfold _ _ hstart hslots

end

end ArenaLab
