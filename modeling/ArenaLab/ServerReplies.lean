import ArenaLab.LabCodec
import ArenaLab.SlotTable

/-! What the server sends: at most one datagram for each that it receives, to the
sender, and one to a session that ends. -/

namespace ArenaLab

def replyKinds : List Kind := [.helloAck, .pong, .rst, .decision]

/-- Nothing was sent, or one datagram to this address, which the counters note. -/
inductive Net.Says (net : Net) (addr : SockAddr) (net' : Net) : Prop
  | silent (hsent : net'.sent = net.sent) (hrx : net'.n_rx = net.n_rx) (hacks : net'.n_acks = net.n_acks)
      (hrst : net'.n_rst = net.n_rst)
  | said (p : Payload) (seq : UInt32) (hkind : p.kind ∈ replyKinds)
      (hsent : net'.sent = net.sent ++ [(addr, p.datagram seq)]) (hrx : net'.n_rx = net.n_rx)
      (hacks : net'.n_acks = net.n_acks + if p.kind = .helloAck then 1 else 0)
      (hrst : net'.n_rst = net.n_rst + if p.kind = .rst then 1 else 0)

def kindByte (d : List UInt8) : UInt8 := d.getD 2 0

/-- The datagrams sent so far that are of this kind. -/
def Net.sentOf (net : Net) (kind : Kind) : ℕ := net.sent.countP (fun e => kindByte e.2 = kind.code)

def Net.sentTo (net : Net) (addr : SockAddr) : ℕ := net.sent.countP (fun e => e.1 = addr)

def ServerAction.isDatagram : ServerAction → Bool
  | .datagram _ _ => true
  | _ => false

def ServerAction.isFrom (addr : SockAddr) : ServerAction → Bool
  | .datagram from_ _ => from_ = addr
  | _ => false

def heardIn (τ : List ServerAction) : ℕ := τ.countP (·.isDatagram)

def heardFrom (addr : SockAddr) (τ : List ServerAction) : ℕ := τ.countP (·.isFrom addr)

def Slots.Seats (slots : Slots) (addr : SockAddr) : Prop := ∃ i, (slots i).used = true ∧ (slots i).addr = addr

/-- The counters tell what was received and sent, and every reply is a datagram of the protocol. -/
structure Tallied (net : Net) (rx : ℕ) : Prop where
  rx : net.n_rx = UInt64.ofNat rx
  acks : net.n_acks = UInt64.ofNat (net.sentOf .helloAck)
  rst : net.n_rst = UInt64.ofNat (net.sentOf .rst)
  formed : ∀ e ∈ net.sent, ∃ (p : Payload) (seq : UInt32), p.kind ∈ replyKinds ∧ e.2 = p.datagram seq

/-- No address has been sent more than two datagrams for each that it sent, and
one less while it holds a slot. -/
def Owed (net : Net) (slots : Slots) (rx : SockAddr → ℕ) : Prop :=
  ∀ a, net.sentTo a ≤ 2 * rx a ∧ (slots.Seats a → net.sentTo a + 1 ≤ 2 * rx a)

section

variable {host : LabHost} {net net' : Net} {c : Client} {addr : SockAddr}

theorem Net.Says.sentTo_le (h : net.Says addr net') (a : SockAddr) :
    net'.sentTo a ≤ net.sentTo a + if addr = a then 1 else 0 := by
  cases h with
  | silent hsent => simp [Net.sentTo, hsent]
  | said p seq _ hsent => simp [Net.sentTo, hsent, List.countP_singleton]

theorem Net.Says.reads {reads : ℕ} (h : net.Says addr net') : net.Says addr { net' with reads := reads } := by
  cases h with
  | silent hsent hrx hacks hrst => exact .silent hsent hrx hacks hrst
  | said p seq hkind hsent hrx hacks hrst => exact .said p seq hkind hsent hrx hacks hrst

theorem sendDatagram_ok {d : List UInt8} (hok : host.sendOk net.sends = true) :
    sendDatagram host net addr d = ({ net with sends := net.sends + 1, sent := net.sent ++ [(addr, d)] }, true) := by
  rw [sendDatagram, if_pos hok]

theorem sendDatagram_failed {d : List UInt8} (hfail : ¬host.sendOk net.sends = true) :
    sendDatagram host net addr d =
      ({ net with sends := net.sends + 1, io_error := true, running := false }, false) := by
  rw [sendDatagram, if_neg hfail]

theorem sendDatagram_tells {p : Payload} {seq : UInt32} (hkind : p.kind ∈ replyKinds) (hack : p.kind ≠ .helloAck)
    (hrst : p.kind ≠ .rst) (hsent : net'.sent = net.sent) (hrx : net'.n_rx = net.n_rx)
    (hacks : net'.n_acks = net.n_acks)
    (hrsts : net'.n_rst = net.n_rst) : net.Says addr (sendDatagram host net' addr (p.datagram seq)).1 := by
  by_cases hok : host.sendOk net'.sends = true
  · rw [sendDatagram_ok hok]
    refine .said p seq hkind (by rw [hsent]) hrx ?_ ?_
    · rw [if_neg hack, UInt64.add_zero]
      exact hacks
    · rw [if_neg hrst, UInt64.add_zero]
      exact hrsts
  · rw [sendDatagram_failed hok]
    exact .silent hsent hrx hacks hrsts

theorem sendRst_tells {reason : Reason} {msg : String} (hsent : net'.sent = net.sent)
    (hrx : net'.n_rx = net.n_rx) (hacks : net'.n_acks = net.n_acks) (hrsts : net'.n_rst = net.n_rst) :
    net.Says c.addr (sendRst host net' c reason msg).1 := by
  by_cases hok : host.sendOk net'.sends = true
  · simp only [sendRst, sendDatagram_ok hok]
    refine .said (.rst (rstPayload c.session reason msg)) c.nrst
      (show Kind.rst ∈ replyKinds by decide) (by rw [hsent]) hrx ?_ ?_
    · exact hacks.trans (UInt64.add_zero _).symm
    · exact congrArg (· + 1) hrsts
  · simp only [sendRst, sendDatagram_failed hok]
    exact .silent hsent hrx hacks hrsts

theorem sendHelloAck_tells {snonce : Bytes 16} (hsent : net'.sent = net.sent) (hrx : net'.n_rx = net.n_rx)
    (hacks : net'.n_acks = net.n_acks) (hrsts : net'.n_rst = net.n_rst) :
    net.Says c.addr (sendHelloAck host net' c snonce).1 := by
  by_cases hok : host.sendOk net'.sends = true
  · simp only [sendHelloAck, sendDatagram_ok hok]
    refine .said (.helloAck ⟨1, Reason.ok.code, c.session, snonce, c.cnonce⟩) 0
      (show Kind.helloAck ∈ replyKinds by decide) (by rw [hsent]) hrx ?_ ?_
    · exact congrArg (· + 1) hacks
    · exact hrsts.trans (UInt64.add_zero _).symm
  · simp only [sendHelloAck, sendDatagram_failed hok]
    exact .silent hsent hrx hacks hrsts

theorem doPing_tells {h : LabHdr} {pay : List UInt8} : net.Says c.addr (doPing host net c h pay).1 := by
  simp only [doPing]
  split
  · exact sendRst_tells rfl rfl rfl rfl
  · split
    · exact sendRst_tells rfl rfl rfl rfl
    · split
      · split
        · exact sendRst_tells rfl rfl rfl rfl
        · split
          · exact @sendRst_tells host net net { c with sequence := (c.sequence.accept h.seq).1 } _ _ rfl rfl rfl rfl
          · exact sendDatagram_tells (p := .pong _) (by simp [replyKinds, Payload.kind]) (by simp [Payload.kind])
              (by simp [Payload.kind]) rfl rfl rfl rfl
      · exact .silent rfl rfl rfl rfl

theorem doBye_tells {pay : List UInt8} : net.Says c.addr (doBye host net c pay).1 := by
  simp only [doBye]
  repeat' split
  all_goals exact sendRst_tells rfl rfl rfl rfl

theorem doRst_tells {pay : List UInt8} : net.Says c.addr (doRst host net c pay).1 := by
  simp only [doRst]
  repeat' split
  all_goals first
    | exact sendRst_tells rfl rfl rfl rfl
    | exact .silent rfl rfl rfl rfl

theorem doEvidence_tells {policy : LabPolicy} {h : LabHdr} {pay : List UInt8} :
    net.Says c.addr (doEvidence host policy net c h pay).1 := by
  simp only [doEvidence]
  split
  · exact .silent rfl rfl rfl rfl
  · simp only [answerEvidence]
    generalize (if _ = Reason.ok then c.sequence.accept h.seq else _) = result
    obtain ⟨sequence, reason⟩ := result
    dsimp only
    split
    · exact sendDatagram_tells (p := .decision _) (by simp [replyKinds, Payload.kind]) (by simp [Payload.kind])
        (by simp [Payload.kind]) rfl rfl rfl rfl
    · exact sendDatagram_tells (p := .decision _) (by simp [replyKinds, Payload.kind]) (by simp [Payload.kind])
        (by simp [Payload.kind]) rfl rfl rfl rfl

theorem doOpen_tells {policy : LabPolicy} {dat : List UInt8} : net.Says c.addr (doOpen host policy net c dat).1 := by
  simp only [doOpen, openKind]
  repeat' split
  all_goals first
    | exact sendRst_tells rfl rfl rfl rfl
    | exact sendHelloAck_tells rfl rfl rfl rfl
    | exact doEvidence_tells
    | exact doPing_tells
    | exact doBye_tells
    | exact doRst_tells

theorem doHello_tells {slots : Slots} {pay : List UInt8} : net.Says c.addr (doHello host slots net c pay).1 := by
  simp only [doHello]
  split
  · exact sendRst_tells rfl rfl rfl rfl
  · split
    · rename_i p _
      split
      · exact sendRst_tells rfl rfl rfl rfl
      · split
        · exact sendRst_tells rfl rfl rfl rfl
        · split
          · exact sendRst_tells rfl rfl rfl rfl
          · split
            · exact sendRst_tells rfl rfl rfl rfl
            · split
              · exact sendRst_tells rfl rfl rfl rfl
              · split
                · exact sendRst_tells rfl rfl rfl rfl
                · rename_i rnd _
                  have htells := @sendHelloAck_tells host net { net with draws := net.draws + 1 }
                    { c with
                      session := field rnd.toList 0 16
                      cnonce := p.nonce
                      snonce := field rnd.toList 16 16
                      hello := field pay 0 60 } (field rnd.toList 16 16) rfl rfl rfl rfl
                  split
                  · rename_i hack
                    rw [hack] at htells
                    exact htells
                  · rename_i hack
                    rw [hack] at htells
                    exact htells.reads
    · exact .silent rfl rfl rfl rfl

theorem doNew_tells {slots : Slots} {dat : List UInt8} : net.Says c.addr (doNew host slots net c dat).1 := by
  simp only [doNew]
  repeat' split
  all_goals first
    | exact sendRst_tells rfl rfl rfl rfl
    | exact doHello_tells

theorem handle_tells {s : Server} {d : List UInt8} : s.net.Says c.addr (handle host s c d).1 := by
  simp only [handle]
  repeat' split
  all_goals first
    | exact sendRst_tells rfl rfl rfl rfl
    | exact doNew_tells
    | exact doOpen_tells

theorem slotFor_addr {s : Server} {i : Fin 32} {from_ : SockAddr} : (s.slotFor i from_).addr = from_ := by
  simp only [Server.slotFor]
  split <;> rfl

theorem route_tells {s : Server} {from_ : SockAddr} {d : List UInt8} :
    s.net.Says from_ (s.route host from_ d).net := by
  have haway : ∀ (reason : Reason) (msg : String), s.net.Says from_ (s.turnAway host from_ reason msg).net :=
    fun _ _ => @sendRst_tells host s.net s.net (.visitor from_) _ _ rfl rfl rfl rfl
  have hserve : ∀ i, s.net.Says from_ (s.serve host i from_ d).net := by
    intro i
    have htells := @handle_tells host (s.slotFor i from_)
      { s with slots := Function.update s.slots i (s.slotFor i from_) } d
    rw [slotFor_addr] at htells
    rw [serve_eq]
    exact htells
  simp only [Server.route]
  repeat' split
  all_goals first
    | exact haway _ _
    | exact hserve _

theorem receive_tells {s : Server} {from_ : SockAddr} {d : List UInt8} :
    { s.net with n_rx := s.net.n_rx + 1 }.Says from_ (s.receive host from_ d).net :=
  @route_tells host { s with net := { s.net with n_rx := s.net.n_rx + 1 } } from_ d

theorem kindByte_datagram (p : Payload) (seq : UInt32) : kindByte (p.datagram seq) = p.kind.code := rfl

theorem code_inj {kind kind' : Kind} (h : kind.code = kind'.code) : kind = kind' := by
  have hof := congrArg Kind.ofCode h
  rw [Kind.ofCode_code, Kind.ofCode_code] at hof
  exact Option.some.inj hof

theorem Tallied.tells {rx : ℕ} (h : Tallied net rx) (htells : net.Says addr net') : Tallied net' rx := by
  have hcount : ∀ (kind : Kind) (p : Payload) (seq : UInt32) (n n' : UInt64), n = UInt64.ofNat (net.sentOf kind) →
      n' = n + (if p.kind = kind then 1 else 0) → net'.sent = net.sent ++ [(addr, p.datagram seq)] →
      n' = UInt64.ofNat (net'.sentOf kind) := by
    intro kind p seq n n' hn hn' hsent
    rw [Net.sentOf, hsent, List.countP_append, List.countP_singleton, kindByte_datagram, hn', hn]
    by_cases hk : p.kind = kind
    · rw [if_pos hk, if_pos (by simp [hk]), UInt64.ofNat_add]
      rfl
    · have hcode : p.kind.code ≠ kind.code := fun he => hk (code_inj he)
      rw [if_neg hk, if_neg (by simp [hcode]), UInt64.add_zero]
      rfl
  cases htells with
  | silent hsent hrx hacks hrst =>
    refine ⟨hrx.trans h.rx, ?_, ?_, by rw [hsent]; exact h.formed⟩
    · rw [hacks, Net.sentOf, hsent]
      exact h.acks
    · rw [hrst, Net.sentOf, hsent]
      exact h.rst
  | said p seq hkind hsent hrx hacks hrst =>
    refine ⟨hrx.trans h.rx, hcount .helloAck p seq _ _ h.acks hacks hsent, hcount .rst p seq _ _ h.rst hrst hsent, ?_⟩
    rw [hsent]
    intro e he
    rcases List.mem_append.mp he with he | he
    · exact h.formed e he
    · rw [List.mem_singleton.mp he]
      exact ⟨p, seq, hkind, rfl⟩

theorem Tallied.timeouts {rx : ℕ} {n : UInt64} (h : Tallied net rx) : Tallied { net with n_timeout := n } rx :=
  ⟨h.rx, h.acks, h.rst, h.formed⟩

/-- A datagram opens no slot but for its sender. -/
theorem receive_seats {s : Server} {from_ a : SockAddr} {d : List UInt8} (hi : SlotInv s) (hne : from_ ≠ a)
    (h : (s.receive host from_ d).slots.Seats a) : s.slots.Seats a := by
  obtain ⟨i, hu, ha⟩ := h
  have hold : ∀ (j : Fin 32) (c : Client), (s.receive host from_ d).slots = Function.update s.slots j c →
      (c.used = true → c.addr = a → s.slots.Seats a) → s.slots.Seats a := by
    intro j c hslots hc
    rw [hslots] at hu ha
    by_cases hij : i = j
    · subst hij
      rw [Function.update_self] at hu ha
      exact hc hu ha
    · rw [Function.update_of_ne hij] at hu ha
      exact ⟨i, hu, ha⟩
  cases (receive_spec host hi from_ d).1 with
  | turnedAway hslots =>
    rw [hslots] at hu ha
    exact ⟨i, hu, ha⟩
  | peer j c huj hj hslots hcase =>
    refine hold j c hslots (fun hcu hca => ?_)
    have hsame : c.addr = (s.slots j).addr := by
      rcases hcase with ⟨k, rfl⟩ | ⟨_, hm⟩
      · rfl
      · rcases hm.sound (hi.sound j huj) with rfl | ⟨_, _, h, _⟩
        · cases hcu
        · exact h
    exact absurd (hj.symm.trans (hsame.symm.trans hca)) hne
  | free j c _ hc _ hslots =>
    refine hold j c hslots (fun hcu => ?_)
    rw [hc] at hcu
    cases hcu
  | opened j c _ _ _ hca _ _ _ hslots => exact hold j c hslots (fun _ h => absurd (hca.symm.trans h) hne)

theorem Owed.receive {s : Server} {rx rx' : SockAddr → ℕ} {from_ : SockAddr} {d : List UInt8} (hi : SlotInv s)
    (h : Owed s.net s.slots rx) (hrx : ∀ a, rx' a = rx a + if from_ = a then 1 else 0) :
    Owed (s.receive host from_ d).net (s.receive host from_ d).slots rx' := by
  intro a
  rw [hrx]
  have hle : (s.receive host from_ d).net.sentTo a ≤ s.net.sentTo a + if from_ = a then 1 else 0 :=
    receive_tells.sentTo_le a
  obtain ⟨hsent, hseat⟩ := h a
  by_cases ha : from_ = a
  · rw [if_pos ha] at hle ⊢
    exact ⟨by omega, fun _ => by omega⟩
  · rw [if_neg ha] at hle ⊢
    refine ⟨by omega, fun hs => ?_⟩
    have hold := hseat (receive_seats hi ha hs)
    omega

theorem released_seats {s : Server} {i : Fin 32} {a : SockAddr} (hi : SlotInv s)
    (hs : (s.slots i).used = true) :
    Slots.Seats (Function.update s.slots i .zero) a → s.slots.Seats a ∧ (s.slots i).addr ≠ a := by
  rintro ⟨j, hu, ha⟩
  by_cases hji : j = i
  · subst hji
    rw [Function.update_self] at hu
    cases hu
  · rw [Function.update_of_ne hji] at hu ha
    exact ⟨⟨j, hu, ha⟩, fun he => hji (hi.peers j i hu hs (ha.trans he.symm))⟩

theorem Owed.sweepSlot {s : Server} {rx : SockAddr → ℕ} {now : UInt64} {i : Fin 32} (hi : SlotInv s)
    (h : Owed s.net s.slots rx) : Owed (sweepSlot host now s i).net (sweepSlot host now s i).slots rx := by
  simp only [ArenaLab.sweepSlot]
  split
  · exact h
  · rename_i hused
    rw [not_or] at hused
    have hu : (s.slots i).used = true := by simpa using hused.1
    split
    · intro a
      obtain ⟨hsent, hseat⟩ := h a
      have hle : (sendRst host s.net (s.slots i) .timeout "timeout").1.sentTo a ≤
          s.net.sentTo a + if (s.slots i).addr = a then 1 else 0 :=
        (@sendRst_tells host s.net s.net (s.slots i) _ _ rfl rfl rfl rfl).sentTo_le a
      by_cases ha : (s.slots i).addr = a
      · rw [if_pos ha] at hle
        have hheld := hseat ⟨i, hu, ha⟩
        exact ⟨hle.trans (by omega), fun hs => absurd ha (released_seats hi hu hs).2⟩
      · rw [if_neg ha] at hle
        refine ⟨hle.trans hsent, fun hs => ?_⟩
        exact (Nat.add_le_add_right hle 1).trans (hseat (released_seats hi hu hs).1)
    · exact h

theorem Tallied.sweepSlot {s : Server} {rx : ℕ} {now : UInt64} {i : Fin 32} (h : Tallied s.net rx) :
    Tallied (sweepSlot host now s i).net rx := by
  simp only [ArenaLab.sweepSlot]
  split
  · exact h
  · split
    · exact (h.tells (@sendRst_tells host s.net s.net (s.slots i) _ _ rfl rfl rfl rfl)).timeouts
    · exact h

theorem countP_le_one {α : Type*} {p : α → Bool} {l : List α} (hnd : l.Nodup)
    (h : ∀ i j, p i = true → p j = true → i = j) : l.countP p ≤ 1 := by
  induction l with
  | nil => simp
  | cons x l ih =>
    obtain ⟨hx, hl⟩ := List.nodup_cons.mp hnd
    have hrest := ih hl
    cases hp : p x with
    | false => simpa [List.countP_cons, hp] using hrest
    | true =>
      have hnone : l.countP p = 0 := by
        apply List.countP_eq_zero.mpr
        intro j hj hpj
        exact hx (h x j hp hpj ▸ hj)
      simp [hp, hnone]

def seatedAt (slots : Slots) (a : SockAddr) (i : Fin 32) : Bool := (slots i).used && (slots i).addr = a

theorem seatedAt_iff {slots : Slots} {a : SockAddr} {i : Fin 32} :
    seatedAt slots a i = true ↔ (slots i).used = true ∧ (slots i).addr = a := by
  simp [seatedAt]

theorem shutdownSlot_seatedAt {s : Server} {i : Fin 32} {a : SockAddr} :
    seatedAt (shutdownSlot host s i).slots a = seatedAt s.slots a := by
  funext j
  simp only [ArenaLab.shutdownSlot]
  split
  · by_cases hij : j = i
    · subst hij
      simp only [seatedAt, Function.update_self, sendRst_client]
    · simp only [seatedAt, Function.update_of_ne hij]
  · rfl

theorem shutdownSlot_sentTo {s : Server} {i : Fin 32} {a : SockAddr} :
    (shutdownSlot host s i).net.sentTo a ≤ s.net.sentTo a + if seatedAt s.slots a i then 1 else 0 := by
  simp only [ArenaLab.shutdownSlot]
  split
  · rename_i hu
    have hle := (@sendRst_tells host s.net s.net (s.slots i) .closing "shutdown" rfl rfl rfl rfl).sentTo_le a
    by_cases ha : (s.slots i).addr = a
    · rw [if_pos ha] at hle
      rw [if_pos (seatedAt_iff.mpr ⟨hu, ha⟩)]
      exact hle
    · rw [if_neg ha] at hle
      exact hle.trans (Nat.le_add_right _ _)
  · exact Nat.le_add_right _ _

theorem shutdown_sentTo (l : List (Fin 32)) (s : Server) (a : SockAddr) :
    (l.foldl (shutdownSlot host) s).net.sentTo a ≤ s.net.sentTo a + l.countP (seatedAt s.slots a) := by
  induction l generalizing s with
  | nil => exact le_rfl
  | cons i l ih =>
    have hrest := ih (shutdownSlot host s i)
    have hhead := @shutdownSlot_sentTo host s i a
    rw [shutdownSlot_seatedAt] at hrest
    rw [List.foldl_cons, List.countP_cons]
    omega

theorem Owed.shutdown {s : Server} {rx : SockAddr → ℕ} (hi : SlotInv s) (h : Owed s.net s.slots rx)
    (a : SockAddr) : (s.shutdown host).net.sentTo a ≤ 2 * rx a := by
  have hle := @shutdown_sentTo host (List.finRange 32) s a
  obtain ⟨hsent, hseat⟩ := h a
  by_cases hs : s.slots.Seats a
  · have hone := countP_le_one (p := seatedAt s.slots a) (List.nodup_finRange 32) (by
      intro i j hpi hpj
      obtain ⟨hui, hai⟩ := seatedAt_iff.mp hpi
      obtain ⟨huj, haj⟩ := seatedAt_iff.mp hpj
      exact hi.peers i j hui huj (hai.trans haj.symm))
    have hheld := hseat hs
    exact hle.trans (by omega)
  · have hnone : (List.finRange 32).countP (seatedAt s.slots a) = 0 := by
      apply List.countP_eq_zero.mpr
      exact fun i _ hp => hs ⟨i, seatedAt_iff.mp hp⟩
    exact hle.trans (by omega)

theorem Tallied.shutdownSlot {s : Server} {rx : ℕ} {i : Fin 32} (h : Tallied s.net rx) :
    Tallied (shutdownSlot host s i).net rx := by
  simp only [ArenaLab.shutdownSlot]
  split
  · exact h.tells (@sendRst_tells host s.net s.net (s.slots i) _ _ rfl rfl rfl rfl)
  · exact h

theorem Tallied.act {s : Server} {rx : ℕ} (h : Tallied s.net rx) (a : ServerAction) :
    Tallied (s.act host a).net (rx + if a.isDatagram then 1 else 0) := by
  cases a with
  | datagram from_ d =>
    have hrx : Tallied { s.net with n_rx := s.net.n_rx + 1 } (rx + 1) := by
      refine ⟨?_, h.acks, h.rst, h.formed⟩
      rw [UInt64.ofNat_add, h.rx]
      rfl
    exact hrx.tells receive_tells
  | sweep =>
    rw [if_neg (by decide), Nat.add_zero]
    have hstart : Tallied { s.net with reads := s.net.reads + 1 } rx := ⟨h.rx, h.acks, h.rst, h.formed⟩
    exact List.foldlRecOn (motive := fun t : Server => Tallied t.net rx) _ _ hstart (fun _ ht _ _ => ht.sweepSlot)
  | receiveError => exact ⟨h.rx, h.acks, h.rst, h.formed⟩
  | shutdown =>
    exact List.foldlRecOn (motive := fun t : Server => Tallied t.net rx) _ _ h (fun _ ht _ _ => ht.shutdownSlot)

theorem Owed.act {s : Server} {rx rx' : SockAddr → ℕ} (hi : SlotInv s) (h : Owed s.net s.slots rx)
    {a : ServerAction} (ha : a ≠ .shutdown) (hrx : ∀ addr, rx' addr = rx addr + if a.isFrom addr then 1 else 0) :
    Owed (s.act host a).net (s.act host a).slots rx' := by
  cases a with
  | datagram from_ d =>
    refine h.receive hi (fun addr => ?_)
    rw [hrx]
    simp [ServerAction.isFrom]
  | sweep =>
    have hsame : rx' = rx := funext hrx
    rw [hsame]
    have hstart : SlotInv { s with net := { s.net with reads := s.net.reads + 1 } } := hi.congr rfl rfl
    have hfold : SlotInv (s.sweepTimeouts host) ∧ Owed (s.sweepTimeouts host).net (s.sweepTimeouts host).slots rx :=
      List.foldlRecOn (motive := fun t : Server => SlotInv t ∧ Owed t.net t.slots rx) _ _ ⟨hstart, h⟩
        (fun _ ht i _ => ⟨ht.1.sweepSlot _ i, ht.2.sweepSlot ht.1⟩)
    exact hfold.2
  | receiveError =>
    have hsame : rx' = rx := funext hrx
    rw [hsame]
    exact h
  | shutdown => exact absurd rfl ha

theorem tallied_of_run {config : ServerConfig} {listen : UInt32} {τ : List ServerAction} {s : Server}
    (h : Runs.Steps (ServerStep host) (Server.boot config listen) τ s) : Tallied s.net (heardIn τ) := by
  refine h.history (I := fun τ s => Tallied s.net (heardIn τ)) ⟨rfl, rfl, rfl, by simp [Server.boot]⟩ ?_
  rintro τ t a u _ ht rfl
  rw [heardIn, List.countP_append, List.countP_singleton]
  exact ht.act a

theorem owed_of_run {config : ServerConfig} {listen : UInt32} {τ : List ServerAction} {s : Server}
    (h : Runs.Steps (ServerStep host) (Server.boot config listen) τ s) (hrun : .shutdown ∉ τ) :
    Owed s.net s.slots (heardFrom · τ) := by
  refine h.history (I := fun τ s => .shutdown ∉ τ → Owed s.net s.slots (heardFrom · τ)) ?_ ?_ hrun
  · intro _ a
    refine ⟨Nat.zero_le _, ?_⟩
    rintro ⟨i, hu, -⟩
    have hfree : ((Server.boot config listen).slots i).used = false := by
      simp only [Server.boot]
      by_cases hi : i = 0
      · subst hi
        rfl
      · rw [Function.update_of_ne hi]
        rfl
    rw [hfree] at hu
    cases hu
  · rintro τ t a u hτ ht rfl hno
    rw [List.mem_append, not_or] at hno
    refine (ht hno.1).act (slotInv_of_run hτ) (fun he => hno.2 (by simp [he])) (fun addr => ?_)
    rw [heardFrom, List.countP_append, List.countP_singleton]
    rfl

theorem reply_length {p : Payload} {seq : UInt32} (h : p.kind ∈ replyKinds) : (p.datagram seq).length ≤ 76 := by
  have hlen : (p.datagram seq).length = 16 + p.kind.payloadLen := by
    rw [Payload.datagram, List.length_append, length_labHdrPack, length_labPayloadPack]
  have hkinds : ∀ kind ∈ replyKinds, 16 + kind.payloadLen ≤ 76 := by decide
  rw [hlen]
  exact hkinds _ h

/-- Each datagram is answered with at most one, to its sender; over a whole run, the
farewell of the shutdown included, no address is sent more than two datagrams
for each that came from it; what is sent is a reply of the protocol; and the
counters that the server prints are those of the datagrams. -/
theorem replies_bounded {config : ServerConfig} {listen : UInt32} {τ : List ServerAction} {s : Server}
    (h : Runs.Steps (ServerStep host) (Server.boot config listen) τ s) (hrun : .shutdown ∉ τ) :
    (∀ from_ d, ∃ l : List (SockAddr × List UInt8), l.length ≤ 1 ∧ (∀ e ∈ l, e.1 = from_) ∧
      (s.receive host from_ d).net.sent = s.net.sent ++ l) ∧
    ∀ t, t = s ∨ t = s.shutdown host →
      (∀ a, t.net.sentTo a ≤ 2 * heardFrom a τ) ∧
      (∀ e ∈ t.net.sent, e.2.length ≤ 76 ∧
        ∃ (p : Payload) (seq : UInt32), p.kind ∈ replyKinds ∧ e.2 = p.datagram seq) ∧
      t.net.n_rx = UInt64.ofNat (heardIn τ) ∧ t.net.n_acks = UInt64.ofNat (t.net.sentOf .helloAck) ∧
      t.net.n_rst = UInt64.ofNat (t.net.sentOf .rst) := by
  have hi := slotInv_of_run h
  have htally := tallied_of_run h
  have howed := owed_of_run h hrun
  refine ⟨fun from_ d => ?_, fun t ht => ?_⟩
  · cases @receive_tells host s from_ d with
    | silent hsent => exact ⟨[], by simp, by simp, by simpa using hsent⟩
    | said p seq _ hsent => exact ⟨[(from_, p.datagram seq)], by simp, by simp, hsent⟩
  · have hboth : (∀ a, t.net.sentTo a ≤ 2 * heardFrom a τ) ∧ Tallied t.net (heardIn τ) := by
      rcases ht with rfl | rfl
      · exact ⟨fun a => (howed a).1, htally⟩
      · exact ⟨fun a => howed.shutdown hi a, htally.act .shutdown⟩
    obtain ⟨hbound, hcounts⟩ := hboth
    refine ⟨hbound, fun e he => ?_, hcounts.rx, hcounts.acks, hcounts.rst⟩
    obtain ⟨p, seq, hkind, hd⟩ := hcounts.formed e he
    exact ⟨hd ▸ reply_length hkind, p, seq, hkind, hd⟩

end

theorem replies_bounded_sample : (sampleOpened.shutdown sampleLabHost).net.sentTo (samplePeer 5000) ≤
    2 * heardFrom (samplePeer 5000) [.datagram (samplePeer 5000) (sampleHello 1)] :=
  ((replies_bounded sampleOpened_run (by simp)).2 _ (.inr rfl)).1 _

end ArenaLab
