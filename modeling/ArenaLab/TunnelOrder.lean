import ArenaLab.TunnelEnds

/-! The tunnel keeps the order: what comes out of it is a prefix of what went in from
the authenticated origin, and all of it once every worker has caught up. -/

namespace ArenaLab

/-- The bytes under way are the frames that were written and not yet read. -/
def UnderWay (wrote : List TunnelFrame) (heard : List (Bool × List UInt8)) (wire : List UInt8) : Prop :=
  ∃ rest : List TunnelFrame, wrote.map TunnelFrame.content = heard ++ rest.map TunnelFrame.content ∧
    wire = Framing.stream (rest.map (fun f => tunnelBody f.content.1 f.content.2))

section

variable {c : HexStr 32} {l : Link} {x : TunnelEnd} {arrived taken : List Datagram}
  {wrote : List TunnelFrame} {heard : List (Bool × List UInt8)} {sent : List (List UInt8)}

theorem tunnelRead_stream {control : Bool} {data rest : List UInt8} (hpos : 1 ≤ data.length)
    (hmax : data.length ≤ 4096) :
    tunnelRead (Framing.encode (tunnelBody control data) ++ rest) = some (control, data, rest) := by
  have hlen : (tunnelBody control data).length = data.length + 1 := rfl
  have hsize := Framing.length_encode (tunnelBody control data)
  have hfour : (Framing.encode (tunnelBody control data) ++ rest).drop 4 = tunnelBody control data ++ rest := by
    rw [Framing.encode, List.append_assoc]
    exact List.drop_left' (HexText.bigEndian_length 4 _)
  rw [tunnelRead, Framing.header_encode (by omega)]
  simp only [hfour, List.take_left]
  rw [if_neg (by rw [List.length_append]; omega), ← hsize, List.drop_left]
  cases control with
  | false => rfl
  | true => rfl

theorem payloads_content (fs : List TunnelFrame) :
    payloads (fs.map TunnelFrame.content) = (datagrams fs).map Datagram.data := by
  induction fs with
  | nil => rfl
  | cons f fs ih =>
    rw [List.map_cons,
      show f.content :: fs.map TunnelFrame.content = [f.content] ++ fs.map TunnelFrame.content from rfl,
      show f :: fs = [f] ++ fs from rfl, payloads_append, datagrams_append, List.map_append, ih]
    cases f with
    | datagram d => rfl
    | heartbeat => rfl

theorem UnderWay.delivered {wrote : List TunnelFrame} {heard : List (Bool × List UInt8)} {wire : List UInt8}
    (h : UnderWay wrote heard wire) : payloads heard <+: (datagrams wrote).map Datagram.data ∧
      (wire = [] → payloads heard = (datagrams wrote).map Datagram.data) := by
  obtain ⟨rest, hwrote, hwire⟩ := h
  rw [← payloads_content, hwrote, payloads_append]
  refine ⟨List.prefix_append _ _, fun hempty => ?_⟩
  cases rest with
  | nil => exact (List.append_nil _).symm
  | cons f fs =>
    rw [hempty, List.map_cons, Framing.stream_cons] at hwire
    have hlen := congrArg List.length hwire
    rw [List.length_append, Framing.length_encode] at hlen
    simp only [List.length_nil] at hlen
    omega

theorem content_size (h : ∀ d ∈ datagrams wrote, 1 ≤ d.data.length ∧ d.data.length ≤ 4096) {f : TunnelFrame}
    (hf : f.content ∈ wrote.map TunnelFrame.content) : 1 ≤ f.content.2.length ∧ f.content.2.length ≤ 4096 := by
  obtain ⟨g, hg, heq⟩ := List.mem_map.mp hf
  rw [← heq]
  cases g with
  | datagram d => exact h d (List.mem_filterMap.mpr ⟨_, hg, rfl⟩)
  | heartbeat => decide

theorem UnderWay.write {wire : List UInt8} (h : UnderWay wrote heard wire) (fs : List TunnelFrame) :
    UnderWay (wrote ++ fs) heard
      (wire ++ Framing.stream (fs.map (fun f => tunnelBody f.content.1 f.content.2))) := by
  obtain ⟨rest, hwrote, hwire⟩ := h
  refine ⟨rest ++ fs, by rw [List.map_append, hwrote, List.map_append, List.append_assoc], ?_⟩
  rw [hwire, List.map_append, Framing.stream, Framing.stream, Framing.stream, List.map_append, List.flatten_append]

theorem UnderWay.read {wire rest : List UInt8} {control : Bool} {data : List UInt8} (h : UnderWay wrote heard wire)
    (hsizes : ∀ d ∈ datagrams wrote, 1 ≤ d.data.length ∧ d.data.length ≤ 4096)
    (hread : tunnelRead wire = some (control, data, rest)) : UnderWay wrote (heard ++ [(control, data)]) rest := by
  obtain ⟨frames, hwrote, hwire⟩ := h
  cases frames with
  | nil =>
    rw [hwire] at hread
    cases hread
  | cons f fs =>
    obtain ⟨hpos, hmax⟩ := content_size hsizes (f := f) (by rw [hwrote]; simp)
    rw [hwire, List.map_cons, Framing.stream_cons, tunnelRead_stream hpos hmax] at hread
    obtain ⟨rfl, hrest⟩ := Prod.mk.inj (Option.some.inj hread)
    obtain ⟨rfl, rfl⟩ := Prod.mk.inj hrest
    exact ⟨fs, by rw [hwrote, List.append_assoc]; rfl, rfl⟩

theorem UnderWay.step {wire rest : List UInt8} {frames : List (Bool × List UInt8)} (h : UnderWay wrote heard wire)
    (hsizes : ∀ d ∈ datagrams wrote, 1 ≤ d.data.length ∧ d.data.length ≤ 4096)
    (hcase : frames = [] ∧ rest = wire ∨ ∃ control data, frames = [(control, data)] ∧
      tunnelRead wire = some (control, data, rest)) : UnderWay wrote (heard ++ frames) rest := by
  rcases hcase with ⟨rfl, rfl⟩ | ⟨control, data, rfl, hread⟩
  · rwa [List.append_nil]
  · exact h.read hsizes hread

structure PairInv (game_port : ℕ) (c : HexStr 32) (w : TunnelPair) : Prop where
  server : EndInv (.server game_port) c w.server
  client : EndInv .client c w.client
  down : UnderWay w.server.wrote w.client.heard w.down
  up : UnderWay w.client.wrote w.server.heard w.up

theorem PairInv.step {game_port : ℕ} {w w' : TunnelPair} {a : PairAction} (h : PairInv game_port c w)
    (hs : pairNext game_port c w a = some w') : PairInv game_port c w' := by
  cases a with
  | server a =>
    obtain ⟨⟨x, rest, out⟩, hx, rfl⟩ := Option.map_eq_some_iff.mp hs
    obtain ⟨hend, fs, frames, hwrote, hheard, rfl, hcase⟩ := TunnelEnd.next_spec h.server hx
    refine ⟨hend, h.client, ?_, ?_⟩
    · show UnderWay x.wrote w.client.heard _
      rw [hwrote]
      exact h.down.write fs
    · show UnderWay w.client.wrote x.heard rest
      rw [hheard]
      exact h.up.step h.client.sizes hcase
  | client a =>
    obtain ⟨⟨x, rest, out⟩, hx, rfl⟩ := Option.map_eq_some_iff.mp hs
    obtain ⟨hend, fs, frames, hwrote, hheard, rfl, hcase⟩ := TunnelEnd.next_spec h.client hx
    refine ⟨h.server, hend, ?_, ?_⟩
    · show UnderWay w.server.wrote x.heard rest
      rw [hheard]
      exact h.down.step h.server.sizes hcase
    · show UnderWay x.wrote w.server.heard _
      rw [hwrote]
      exact h.up.write fs

theorem pairInv_of_run {game_port : ℕ} {w : TunnelPair} {τ : List PairAction}
    (h : Runs.Steps (PairStep game_port c) .boot τ w) : PairInv game_port c w := by
  refine h.invariant (I := PairInv game_port c)
    ⟨endInv_boot _ c, endInv_boot _ c, ⟨[], rfl, rfl⟩, ⟨[], rfl, rfl⟩⟩ ?_
  rintro w e w' hw ⟨a, ha⟩
  obtain ⟨v, hv, hpair⟩ := Option.map_eq_some_iff.mp ha
  obtain rfl : v = w' := congrArg Prod.snd hpair
  exact hw.step hv

/-- Nothing is queued or under way from the socket of one end to that of the other, and
the workers on this way are alive. -/
structure CaughtUp (near far : Link) (wire : List UInt8) : Prop where
  reader : near.alive .udpReader = true ∧ near.alive .tlsWriter = true
  socket : near.socket = [] ∧ near.received = none ∧ near.outgoing = []
  wire : wire = []
  writer : far.alive .tlsReader = true ∧ far.alive .udpWriter = true
  sent : far.incoming = [] ∧ far.sending = none

instance (near far : Link) (wire : List UInt8) : Decidable (CaughtUp near far wire) :=
  decidable_of_iff ((near.alive .udpReader = true ∧ near.alive .tlsWriter = true) ∧
      (near.socket.isEmpty = true ∧ near.received.isNone = true ∧ near.outgoing.isEmpty = true) ∧
      wire.isEmpty = true ∧ (far.alive .tlsReader = true ∧ far.alive .udpWriter = true) ∧
      (far.incoming.isEmpty = true ∧ far.sending.isNone = true)) (by
    simp only [List.isEmpty_iff, Option.isNone_iff_eq_none]
    exact ⟨fun ⟨h1, h2, h3, h4, h5⟩ => ⟨h1, h2, h3, h4, h5⟩, fun ⟨h1, h2, h3, h4, h5⟩ => ⟨h1, h2, h3, h4, h5⟩⟩)

theorem caughtUp_sent {far : Link} {wire : List UInt8} (h : CaughtUp l far wire)
    (hout : Outflow l arrived wrote taken) (hin : Inflow far heard sent) (hwire : UnderWay wrote heard wire) :
    sent = (arrived.filter l.fits).map Datagram.data := by
  have harrived : arrived = taken := by
    rw [hout.arrived, h.socket.1, h.socket.2.1]
    simp
  have hwrote := hout.whole h.reader.2 h.reader.1
  have hsent := hin.whole h.writer.2 h.writer.1
  rw [h.socket.2.2, List.append_nil] at hwrote
  rw [h.sent.1, h.sent.2, List.append_nil] at hsent
  rw [harrived, ← hwrote, ← hwire.delivered.2 h.wire, ← hsent]
  exact (List.append_nil _).symm

theorem EndInv.origin {game_port : ℕ} (h : EndInv (.server game_port) c x) {origin : Address}
    (ho : x.acknowledged c = some origin) : origin = ("127.0.0.1", game_port) := by
  obtain ⟨⟨request, address⟩, hp, rfl⟩ := Option.map_eq_some_iff.mp ho
  obtain ⟨body, hmem⟩ := mem_acceptedIn.mp (List.mem_of_head? hp)
  exact (named_of_run h.books hmem).2.2

theorem EndInv.inOrder_server {game_port : ℕ} (h : EndInv (.server game_port) c x) :
    datagrams x.wrote <+: x.arrived.filter (fun d => d.sender = ("127.0.0.1", game_port)) := by
  have horder := h.inOrder
  cases ho : x.acknowledged c with
  | some origin =>
    rw [ho, h.origin ho] at horder
    simpa only [Option.some.injEq, eq_comm] using horder
  | none =>
    rw [ho, List.filter_eq_nil_iff.mpr (fun _ _ => by simp)] at horder
    have hempty : datagrams x.wrote = [] := List.eq_nil_of_prefix_nil horder
    rw [hempty]
    exact List.nil_prefix

/-- In every run of the two gateways the datagrams that come out of a channel are those that its
authenticated origin put in, in order, none twice and none left out before the end: the game's
port on the way to the client, the acknowledged address on the way back; and once the workers of
a direction have caught up, they are all of them. -/
theorem tunnel_in_order {game_port : ℕ} {w : TunnelPair} {τ : List PairAction}
    (h : Runs.Steps (PairStep game_port c) .boot τ w) :
    w.client.sent <+: (w.server.arrived.filter (fun d => d.sender = ("127.0.0.1", game_port))).map Datagram.data ∧
    w.server.sent <+: (w.client.arrived.filter (fun d => w.client.acknowledged c = some d.sender)).map Datagram.data ∧
    ∀ l l', w.server.relay.links.lookup c = some l → w.client.relay.links.lookup c = some l' →
      (CaughtUp l l' w.down → w.client.sent =
        (w.server.arrived.filter (fun d => d.sender = ("127.0.0.1", game_port))).map Datagram.data) ∧
      (CaughtUp l' l w.up → w.server.sent = (w.client.arrived.filter l'.fits).map Datagram.data) := by
  have hinv := pairInv_of_run h
  refine ⟨?_, ?_, fun l l' hl hl' => ⟨fun hc => ?_, fun hc => ?_⟩⟩
  · exact (hinv.client.served.trans hinv.down.delivered.1).trans (hinv.server.inOrder_server.map _)
  · exact (hinv.server.served.trans hinv.up.delivered.1).trans (hinv.client.inOrder.map _)
  · obtain ⟨⟨taken, hout⟩, -⟩ := hinv.server.link l hl
    obtain ⟨-, hin⟩ := hinv.client.link l' hl'
    have hfits : l.fits = fun d => decide (d.sender = ("127.0.0.1", game_port)) := by
      funext d
      rw [Link.fits, (hinv.server.inv.link c l hl).home game_port rfl]
      simp [eq_comm]
    rw [← hfits]
    exact caughtUp_sent hc hout hin hinv.down
  · obtain ⟨⟨taken, hout⟩, -⟩ := hinv.client.link l' hl'
    obtain ⟨-, hin⟩ := hinv.server.link l hl
    exact caughtUp_sent hc hout hin hinv.up

end

/-- What the game at the client's side sends, and a stranger before it. -/
def passageProbe : Datagram := ⟨[2, 3], ("127.0.0.1", 5000)⟩

def passageStranger : Datagram := ⟨[9], ("127.0.0.1", 6000)⟩

def passageAck : Dict :=
  [("channel_id", .str gateName.text), ("route_request_id", .int 1), ("client_port", .int 5000)]

/-- A datagram each way; the client's socket had one of a stranger queued before its acknowledgement. -/
def samplePassage : List PairAction :=
  (gateActions ++ [RelayAction.work gateName (.write false)]).map .server ++
    ([.create gateName, .arrive gateName passageStranger, .advertise gateName true true,
      .command "ROUTE_ACK" passageAck true, .acked gateName true, .work gateName (.read false [1] false),
      .work gateName (.take false), .work gateName .send, .arrive gateName passageProbe, .work gateName .receive,
      .work gateName (.filter false), .work gateName .receive, .work gateName (.filter false),
      .work gateName (.write false)] : List RelayAction).map .client ++
    ([.work gateName (.read false [2, 3] false), .work gateName (.take false),
      .work gateName .send] : List RelayAction).map .server

def TunnelPair.passed (w : TunnelPair) : Bool :=
  match w.server.relay.links.lookup gateName, w.client.relay.links.lookup gateName with
  | some l, some l' => CaughtUp l l' w.down && CaughtUp l' l w.up &&
      w.client.sent = [[1]] && w.server.sent = [[2, 3]] && w.client.arrived.length = 2
  | _, _ => false

theorem tunnel_in_order_sample : ∃ τ w l l', Runs.Steps (PairStep 7777 gateName) .boot τ w ∧
    CaughtUp l l' w.down ∧ CaughtUp l' l w.up ∧
    (w.client.sent = [[1]] ∧
      [[1]] = (w.server.arrived.filter (fun d => d.sender = ("127.0.0.1", 7777))).map Datagram.data) ∧
    w.client.arrived.length = 2 ∧ w.server.sent = [[2, 3]] ∧
    [[2, 3]] = (w.client.arrived.filter l'.fits).map Datagram.data ∧
    [[2, 3]] <+: (w.client.arrived.filter (fun d => w.client.acknowledged gateName = some d.sender)).map
      Datagram.data := by
  have hexec : (Runs.exec (fun w a => (pairNext 7777 gateName w a).map (fun w' => (a, w'))) .boot
      samplePassage).any (fun r => r.2.passed) = true := by
    decide +kernel
  obtain ⟨τ, w, hsteps, hp⟩ := Runs.exec_any hexec
  unfold TunnelPair.passed at hp
  split at hp
  · rename_i l l' hl hl'
    simp only [Bool.and_eq_true, decide_eq_true_eq] at hp
    obtain ⟨⟨⟨⟨hdown, hup⟩, hclient⟩, hserver⟩, harrived⟩ := hp
    obtain ⟨-, hprefix, hall⟩ := tunnel_in_order hsteps
    obtain ⟨hall₁, hall₂⟩ := hall l l' hl hl'
    exact ⟨τ, w, l, l', hsteps, hdown, hup, ⟨hclient, hclient.symm.trans (hall₁ hdown)⟩, harrived, hserver,
      hserver.symm.trans (hall₂ hup), hserver ▸ hprefix⟩
  · cases hp

end ArenaLab
