import ArenaLab.GatewayChannels
import ArenaLab.RouteTable
import Mathlib.Data.Rat.Cast.Order

/-! The gateway and the route table at the two ends of the pipe. The table never
knows more than what was delivered to it, so that it takes every opening. -/

namespace ArenaLab

section

variable {config : GatewayConfig} {D D' : List GatewayMessage} {t t' : PeerRoutes} {o : RouteOpen}

structure DeliveredInv (config : GatewayConfig) (D : List GatewayMessage) (t : PeerRoutes) : Prop where
  inv : RouteInv t
  run_id : t.run_id = config.run.text
  session : t.session = config.game_session_id.text
  used : ∀ c, c ∈ t.used_channels → c ∈ (opensIn D).map (fun o => o.channel_id.text)
  ports : ∀ p, p ∈ t.ports → p ∈ (opensIn D).map (fun o => (o.port : ℤ))
  routes : ∀ c, c ∈ t.routes → c ∈ (liveIn D).map HexStr.text

structure Shrinks (t t' : PeerRoutes) : Prop where
  ports : t'.ports = t.ports
  used : t'.used_channels = t.used_channels
  run_id : t'.run_id = t.run_id
  session : t'.session = t.session
  routes : ∀ c, c ∈ t'.routes → c ∈ t.routes

theorem RouteChange.shrinks {e : RouteEvent} (hi : RouteInv t) (h : RouteChange t e t')
    (he : e.opening = none) : Shrinks t t' := by
  cases h with
  | opened => cases he
  | refused => exact ⟨rfl, rfl, rfl, rfl, fun _ hc => hc⟩
  | consumed _ _ _ _ _ hroute =>
    refine ⟨rfl, rfl, rfl, rfl, ?_⟩
    intro c hc
    rcases (AList.mem_insert _).mp hc with rfl | hc
    · exact AList.mem_of_lookup hroute
    · exact hc
  | retired channel =>
    obtain ⟨hports, hused, _, hrun, hsession⟩ := retire_tombs t channel
    refine ⟨hports, hused, hrun, hsession, ?_⟩
    intro c hc
    rw [← AList.lookup_isSome, retire_lookup] at hc
    split at hc
    · cases hc
    · exact AList.lookup_isSome.mp hc
  | closed =>
    obtain ⟨_, ⟨hports, hused, _, hrun, hsession⟩, hnone⟩ := hi.close
    refine ⟨hports, hused, hrun, hsession, ?_⟩
    intro c hc
    rw [← AList.lookup_isSome, hnone] at hc
    cases hc

theorem DeliveredInv.shrink (h : DeliveredInv config D t) (hi : RouteInv t') (hs : Shrinks t t') :
    DeliveredInv config D t' where
  inv := hi
  run_id := hs.run_id.trans h.run_id
  session := hs.session.trans h.session
  used := by
    rw [hs.used]
    exact h.used
  ports := by
    rw [hs.ports]
    exact h.ports
  routes := by
    intro c hc
    exact h.routes c (hs.routes c hc)

theorem DeliveredInv.change {e : RouteEvent} (h : DeliveredInv config D t) (hc : RouteChange t e t')
    (he : e.opening = none) : DeliveredInv config D t' :=
  h.shrink (h.inv.change hc) (hc.shrinks h.inv he)

theorem DeliveredInv.mono (h : DeliveredInv config D t) (ho : opensIn D ⊆ opensIn D')
    (hl : liveIn D ⊆ liveIn D') : DeliveredInv config D' t where
  inv := h.inv
  run_id := h.run_id
  session := h.session
  used := by
    intro c hc
    exact List.map_subset _ ho (h.used c hc)
  ports := by
    intro p hp
    exact List.map_subset _ ho (h.ports p hp)
  routes := by
    intro c hc
    exact List.map_subset _ hl (h.routes c hc)

theorem deliveredInv_new (config : GatewayConfig) :
    DeliveredInv config [] (.new config.run.text config.game_session_id.text) where
  inv := routeInv_new _ _
  run_id := rfl
  session := rfl
  used := by
    intro c hc
    exact absurd hc (AList.notMem_empty c)
  ports := by
    intro p hp
    exact absurd hp (AList.notMem_empty p)
  routes := by
    intro c hc
    exact absurd hc (AList.notMem_empty c)

theorem ipcHexId_text {n : ℕ} (h : HexStr n) : ipcHexId (.string h.text) n = true := by
  simp only [ipcHexId, Bool.and_eq_true, decide_eq_true_eq, List.all_eq_true]
  exact ⟨h.chars_length, h.chars_lower⟩

theorem ipcNumber_port {p : ℕ} (h : 0 < p ∧ p ≤ 65535) :
    ipcNumber (.float (some (p : Rat))) 1 65535 = true := by
  simp only [ipcNumber, Bool.and_eq_true, decide_eq_true_eq]
  refine ⟨⟨?_, ?_⟩, ?_⟩
  · rw [← Int.cast_natCast, Rat.floor_intCast]
  · exact_mod_cast h.1
  · exact_mod_cast h.2

theorem toInt_port (p : ℕ) : (Variant.float (some (p : Rat))).toInt = p := by
  simp [Variant.toInt]

theorem toDictionary_exact (o : RouteOpen) : ipcExact o.toDictionary routeFields = true := rfl

theorem DeliveredInv.admits (h : DeliveredInv config D t) (ho : Announced config D o) :
    t.admits o.toDictionary = true := by
  have hid : o.toDictionary.get "channel_id" = .string o.channel_id.text := rfl
  have hattestor : o.toDictionary.get "attestor" = .string o.attestor.text := rfl
  have haddress : o.toDictionary.get "address" = .string o.address := rfl
  have hport : o.toDictionary.get "port" = .float (some (o.port : Rat)) := rfl
  have hrun : o.toDictionary.get "remote_run_id" = .string o.remote_run_id.text := rfl
  have hsession : o.toDictionary.get "game_session_id" = .string o.game_session_id.text := rfl
  rw [PeerRoutes.admits, hid, hattestor, haddress, hport, hrun, hsession, ho.address, ho.run, ho.session,
    h.run_id, h.session, ipcHexId_text, ipcHexId_text, ipcNumber_port ho.range]
  simp [Variant.isText]

/-- Both counters of the table have room for an announced route. -/
theorem DeliveredInv.room (h : DeliveredInv config D t) (ho : Announced config D o) :
    t.routes.keys.length < 8 ∧ t.ports.keys.length < 256 := by
  have hroutes : t.routes.keys ⊆ (liveIn D).map HexStr.text := fun c hc => h.routes c (AList.mem_keys.mpr hc)
  have hports : t.ports.keys ⊆ (opensIn D).map (fun o => (o.port : ℤ)) :=
    fun p hp => h.ports p (AList.mem_keys.mpr hp)
  have hr := (List.subperm_of_subset t.routes.keys_nodup hroutes).length_le
  have hp := (List.subperm_of_subset t.ports.keys_nodup hports).length_le
  have hlive := ho.live_lt
  have hopens := ho.opens_lt
  rw [List.length_map] at hr hp
  omega

theorem DeliveredInv.fresh (h : DeliveredInv config D t) (ho : Announced config D o) :
    o.channel_id.text ∉ t.used_channels ∧ (o.port : ℤ) ∉ t.ports := by
  constructor
  · intro hf
    obtain ⟨x, hx, he⟩ := List.mem_map.mp (h.used _ hf)
    exact ho.fresh (HexStr.ext he ▸ List.mem_map_of_mem hx)
  · intro hf
    obtain ⟨x, hx, he⟩ := List.mem_map.mp (h.ports _ hf)
    exact ho.port_fresh (Int.natCast_inj.mp he ▸ List.mem_map_of_mem hx)

theorem DeliveredInv.accepts (h : DeliveredInv config D t) (ho : Announced config D o)
    (hopen : t.closed = false) :
    t.openRoute o.toDictionary = (true, { t with
      routes := t.routes.insert o.channel_id.text ⟨o.toDictionary, 0⟩
      ports := t.ports.insert (o.port : ℤ) o.channel_id.text
      used_channels := t.used_channels.insert o.channel_id.text true }) := by
  have hid : (o.toDictionary.get "channel_id").text = o.channel_id.text := rfl
  have hport : (o.toDictionary.get "port").toInt = o.port := toInt_port o.port
  obtain ⟨hroutes, hports⟩ := h.room ho
  obtain ⟨hused, hfree⟩ := h.fresh ho
  simp only [PeerRoutes.openRoute, hopen, toDictionary_exact, h.admits ho, hid, hport, hused, hfree]
  simp [hroutes, hports]

theorem liveIn_open (hc : o.channel_id ∉ closesIn D) :
    liveIn (D ++ [.routeOpen o]) = liveIn D ++ [o.channel_id] := by
  simp [liveIn, opensIn_concat, closesIn_concat, GatewayMessage.opening, GatewayMessage.closing, hc]

theorem DeliveredInv.opened (h : DeliveredInv config D t) (ho : Announced config D o)
    (hopen : t.closed = false) :
    DeliveredInv config (D ++ [.routeOpen o]) { t with
      routes := t.routes.insert o.channel_id.text ⟨o.toDictionary, 0⟩
      ports := t.ports.insert (o.port : ℤ) o.channel_id.text
      used_channels := t.used_channels.insert o.channel_id.text true } := by
  have hopens : opensIn (D ++ [.routeOpen o]) = opensIn D ++ [o] := opensIn_concat D _
  constructor
  · rcases openRoute_change t o.toDictionary with ⟨t₁, he, hc⟩ | he
    · rw [h.accepts ho hopen] at he
      obtain ⟨_, rfl⟩ := Prod.mk.inj he
      exact h.inv.change hc
    · rw [h.accepts ho hopen] at he
      cases he
  · exact h.run_id
  · exact h.session
  · intro c hc
    rw [hopens, List.map_append, List.mem_append]
    rcases (AList.mem_insert _).mp hc with rfl | hc
    · exact .inr (List.mem_singleton_self _)
    · exact .inl (h.used c hc)
  · intro p hp
    rw [hopens, List.map_append, List.mem_append]
    rcases (AList.mem_insert _).mp hp with rfl | hp
    · exact .inr (List.mem_singleton_self _)
    · exact .inl (h.ports p hp)
  · intro c hc
    rw [liveIn_open ho.unclosed, List.map_append, List.mem_append]
    rcases (AList.mem_insert _).mp hc with rfl | hc
    · exact .inr (List.mem_singleton_self _)
    · exact .inl (h.routes c hc)

theorem DeliveredInv.retired (h : DeliveredInv config D t) (c : HexStr 32) :
    DeliveredInv config (D ++ [.routeClose c]) (t.retire c.text).2 := by
  have hs := h.change (.retired c.text) rfl
  have hopens : opensIn (D ++ [.routeClose c]) = opensIn D := by
    rw [opensIn_concat]
    exact List.append_nil _
  refine ⟨hs.inv, hs.run_id, hs.session, hopens ▸ hs.used, hopens ▸ hs.ports, ?_⟩
  intro d hd
  obtain ⟨x, hx, rfl⟩ := List.mem_map.mp (hs.routes d hd)
  refine List.mem_map_of_mem ?_
  obtain ⟨hin, hout⟩ := mem_liveIn.mp hx
  rw [mem_liveIn, hopens, closesIn_concat]
  refine ⟨hin, ?_⟩
  rw [List.mem_append, not_or]
  refine ⟨hout, ?_⟩
  intro hf
  obtain rfl := List.mem_singleton.mp hf
  rw [← AList.lookup_isSome, retire_lookup, if_pos rfl] at hd
  cases hd

theorem openRoute_closed (body : Dictionary) (h : t.closed = true) : t.openRoute body = (false, t) := by
  simp [PeerRoutes.openRoute, h]

end

def TunnelEvent.sent : TunnelEvent → Option GatewayMessage
  | .emitted m => some m
  | _ => none

def TunnelEvent.received : TunnelEvent → Option GatewayMessage
  | .delivered m _ _ => some m
  | _ => none

def emissions (τ : List TunnelEvent) : List GatewayMessage := τ.filterMap TunnelEvent.sent

def deliveries (τ : List TunnelEvent) : List GatewayMessage := τ.filterMap TunnelEvent.received

structure TunnelInv (config : GatewayConfig) (τ : List TunnelEvent) (s : Tunnel) : Prop where
  fifo : emissions τ = deliveries τ ++ s.wire
  sender : GatewayHistory config (emissions τ) s.gateway
  receiver : DeliveredInv config (deliveries τ) s.table
  accepted : ∀ body a, .delivered (.routeOpen body) a false ∈ τ → a = true

section

variable {config : GatewayConfig} {τ : List TunnelEvent} {s s' : Tunnel} {e : TunnelEvent}

theorem emissions_snoc (τ : List TunnelEvent) (e : TunnelEvent) :
    emissions (τ ++ [e]) = emissions τ ++ e.sent.toList := by
  cases he : e.sent <;> simp [emissions, he]

theorem deliveries_snoc (τ : List TunnelEvent) (e : TunnelEvent) :
    deliveries (τ ++ [e]) = deliveries τ ++ e.received.toList := by
  cases he : e.received <;> simp [deliveries, he]

theorem tunnelInv_boot (config : GatewayConfig) : TunnelInv config [] (.boot config) where
  fifo := rfl
  sender := gatewayHistory_boot config
  receiver := deliveredInv_new config
  accepted := by
    intro body a hf
    cases hf

theorem TunnelInv.local {table : PeerRoutes} {f : RouteEvent} (h : TunnelInv config τ s)
    (hc : RouteChange s.table f table) (hf : f.opening = none) :
    TunnelInv config (τ ++ [.silent]) { s with table := table } := by
  have hsent : emissions (τ ++ [.silent]) = emissions τ := by
    rw [emissions_snoc]
    exact List.append_nil _
  have hreceived : deliveries (τ ++ [.silent]) = deliveries τ := by
    rw [deliveries_snoc]
    exact List.append_nil _
  refine ⟨?_, hsent ▸ h.sender, hreceived ▸ h.receiver.change hc hf, ?_⟩
  · rw [hsent, hreceived]
    exact h.fifo
  · intro body a hmem
    rcases List.mem_append.mp hmem with hmem | hmem
    · exact h.accepted body a hmem
    · simp at hmem

theorem TunnelInv.gateway {m : Option GatewayMessage} {g : Gateway} (h : TunnelInv config τ s)
    (hc : GatewayChange s.gateway m g) (hsent : e.sent = m) (hreceived : e.received = none) :
    TunnelInv config (τ ++ [e]) { s with gateway := g, wire := s.wire ++ m.toList } := by
  have hs : emissions (τ ++ [e]) = emissions τ ++ m.toList := by rw [emissions_snoc, hsent]
  have hr : deliveries (τ ++ [e]) = deliveries τ := by
    rw [deliveries_snoc, hreceived]
    exact List.append_nil _
  refine ⟨?_, hs ▸ h.sender.step hc, hr ▸ h.receiver, ?_⟩
  · rw [hs, hr, h.fifo, List.append_assoc]
  · intro body a hmem
    rcases List.mem_append.mp hmem with hmem | hmem
    · exact h.accepted body a hmem
    · rw [← List.mem_singleton.mp hmem] at hreceived
      cases hreceived

/-- What the table makes of the next message, given what was promised about it. -/
theorem DeliveredInv.receive {D : List GatewayMessage} (h : DeliveredInv config D s.table)
    (m : GatewayMessage) (hm : ∀ o, m = .routeOpen o → Announced config D o) :
    DeliveredInv config (D ++ [m]) (s.receive m).2 ∧ (s.table.closed = false → (s.receive m).1 = true) := by
  have hother : m.opening = none → m.closing = none → DeliveredInv config (D ++ [m]) s.table := by
    intro hopen hclose
    have ho : opensIn (D ++ [m]) = opensIn D := by rw [opensIn_concat, hopen]; exact List.append_nil _
    have hc : closesIn (D ++ [m]) = closesIn D := by rw [closesIn_concat, hclose]; exact List.append_nil _
    refine h.mono (by rw [ho]; exact List.Subset.refl _) ?_
    rw [liveIn, liveIn, ho, hc]
    exact List.Subset.refl _
  cases m with
  | routeOpen o =>
    have hann := hm o rfl
    cases hclosed : s.table.closed with
    | false =>
      simp only [Tunnel.receive, h.accepts hann hclosed]
      exact ⟨h.opened hann hclosed, fun _ => trivial⟩
    | true =>
      simp only [Tunnel.receive, openRoute_closed _ hclosed]
      refine ⟨?_, fun hf => (by cases hf)⟩
      refine (h.change (.closed (.inr rfl)) rfl).mono ?_ ?_
      · rw [opensIn_concat]
        exact List.subset_append_left _ _
      · rw [liveIn_open hann.unclosed]
        exact List.subset_append_left _ _
  | routeClose c => exact ⟨h.retired c, fun _ => rfl⟩
  | ready port => exact ⟨hother rfl rfl, fun _ => rfl⟩
  | heartbeat => exact ⟨hother rfl rfl, fun _ => rfl⟩

theorem TunnelInv.deliver {m : GatewayMessage} {rest : List GatewayMessage} (h : TunnelInv config τ s)
    (hw : s.wire = m :: rest) :
    TunnelInv config (τ ++ [.delivered m (s.receive m).1 s.table.closed])
      { s with wire := rest, table := (s.receive m).2 } := by
  have hsent : emissions (τ ++ [.delivered m (s.receive m).1 s.table.closed]) = emissions τ := by
    rw [emissions_snoc]
    exact List.append_nil _
  have hreceived : deliveries (τ ++ [.delivered m (s.receive m).1 s.table.closed]) = deliveries τ ++ [m] :=
    deliveries_snoc τ _
  have hfifo := h.fifo
  rw [hw] at hfifo
  have hm : ∀ o, m = .routeOpen o → Announced config (deliveries τ) o := by
    rintro o rfl
    exact h.sender.orderly _ o rest hfifo
  obtain ⟨htable, htook⟩ := h.receiver.receive m hm
  refine ⟨?_, hsent ▸ h.sender, hreceived ▸ htable, ?_⟩
  · rw [hsent, hreceived, hfifo, List.append_assoc]
    rfl
  · intro body a hmem
    rcases List.mem_append.mp hmem with hmem | hmem
    · exact h.accepted body a hmem
    · obtain ⟨rfl, rfl, hclosed⟩ : .routeOpen body = m ∧ a = (s.receive m).1 ∧ false = s.table.closed := by
        simpa using hmem
      exact htook hclosed.symm

theorem TunnelInv.step (h : TunnelInv config τ s) (hs : TunnelStep s e s') :
    TunnelInv config (τ ++ [e]) s' := by
  obtain ⟨a, ha⟩ := hs
  cases a with
  | gateway a =>
    simp only [tunnelNext] at ha
    split at ha
    · cases ha
    · rename_i g hg
      obtain ⟨rfl, rfl⟩ := Prod.mk.inj (Option.some.inj ha)
      have hnext := h.gateway (e := .silent) (gatewayNext_change hg) rfl rfl
      simpa using hnext
    · rename_i m g hg
      obtain ⟨rfl, rfl⟩ := Prod.mk.inj (Option.some.inj ha)
      exact h.gateway (gatewayNext_change hg) rfl rfl
  | deliver =>
    simp only [tunnelNext] at ha
    split at ha
    · cases ha
    · rename_i m rest hw
      obtain ⟨rfl, rfl⟩ := Prod.mk.inj (Option.some.inj ha)
      exact h.deliver hw
  | consume id address port now =>
    obtain ⟨rfl, rfl⟩ := Prod.mk.inj (Option.some.inj ha)
    rcases consume_change s.table id address port now with ⟨c, t, he, hc⟩ | ⟨t, he, hc⟩
    · rw [he]
      exact h.local hc rfl
    · rw [he]
      exact h.local hc rfl
  | retire channel =>
    obtain ⟨rfl, rfl⟩ := Prod.mk.inj (Option.some.inj ha)
    exact h.local (.retired channel) rfl
  | close =>
    obtain ⟨rfl, rfl⟩ := Prod.mk.inj (Option.some.inj ha)
    exact h.local (.closed (.inr rfl)) rfl

theorem tunnelInv_of_run (hr : Runs.Steps TunnelStep (.boot config) τ s) : TunnelInv config τ s :=
  hr.history (I := TunnelInv config) (tunnelInv_boot config) (fun _ _ _ _ _ h hs => h.step hs)

/-- The gateway and the route table agree over every interleaving: the pipe is
in order, an open table takes every opening, its routes are among those opened
and not closed, and each channel is opened and closed once and in this order. -/
theorem gateway_route_agreement (hr : Runs.Steps TunnelStep (.boot config) τ s) :
    emissions τ = deliveries τ ++ s.wire ∧
    (∀ body accepted, .delivered (.routeOpen body) accepted false ∈ τ → accepted = true) ∧
    (∀ c r, s.table.routes.lookup c = some r → ∃ channel : HexStr 32, channel.text = c ∧
      channel ∈ (opensIn (deliveries τ)).map RouteOpen.channel_id ∧ channel ∉ closesIn (deliveries τ)) ∧
    ((opensIn (emissions τ)).map RouteOpen.channel_id).Nodup ∧
    (closesIn (emissions τ)).Nodup ∧
    ∀ E body W, emissions τ = E ++ .routeOpen body :: W → body.channel_id ∉ closesIn E := by
  have h := tunnelInv_of_run hr
  refine ⟨h.fifo, h.accepted, ?_, h.sender.inv.opens_nodup, h.sender.inv.closes_nodup, ?_⟩
  · intro c r hc
    obtain ⟨channel, hlive, rfl⟩ := List.mem_map.mp (h.receiver.routes c (AList.mem_of_lookup hc))
    obtain ⟨hopen, hclose⟩ := mem_liveIn.mp hlive
    exact ⟨channel, rfl, hopen, hclose⟩
  · intro E body W hsplit
    exact (h.sender.orderly E body W hsplit).unclosed

end

def sampleTunnelConfig : GatewayConfig where
  run := countingHost.tokenHex 1 16
  game_session_id := countingHost.tokenHex 2 16
  attestors := [countingHost.tokenHex 3 32]

def sampleTunnelActions : List TunnelAction :=
  [.gateway (.listen 7000), .gateway (.accept 0), .gateway (.accept 1),
    .gateway (.handshake 0 (countingHost.tokenHex 3 32) (countingHost.tokenHex 4 16) 20000),
    .gateway (.handshake 1 (countingHost.tokenHex 3 32) (countingHost.tokenHex 5 16) 20001),
    .gateway (.openAck 0), .deliver, .deliver, .gateway (.routeAck (countingHost.tokenHex 4 16) 2),
    .gateway (.acked 0), .consume 2 "127.0.0.1" 20000 9, .gateway (.openAck 1), .gateway (.fail 0),
    .deliver, .deliver]

theorem gateway_route_agreement_sample :
    ∃ τ s, Runs.Steps TunnelStep (.boot sampleTunnelConfig) τ s ∧
      (opensIn (emissions τ)).map RouteOpen.port = [20000, 20001] ∧
      closesIn (emissions τ) = [countingHost.tokenHex 4 16] ∧
      s.table.routes.keys = [(countingHost.tokenHex 5 16).text] ∧
      emissions τ = deliveries τ ++ s.wire := by
  have hrun : ((Runs.exec tunnelNext (.boot sampleTunnelConfig) sampleTunnelActions).map
      (fun r => ((opensIn (emissions r.1)).map RouteOpen.port, closesIn (emissions r.1),
        r.2.table.routes.keys))) =
      some ([20000, 20001], [countingHost.tokenHex 4 16], [(countingHost.tokenHex 5 16).text]) := by
    decide +kernel
  obtain ⟨⟨τ, s⟩, he, hall⟩ := Option.map_eq_some_iff.mp hrun
  obtain ⟨hopens, hrest⟩ := Prod.mk.inj hall
  obtain ⟨hcloses, hroutes⟩ := Prod.mk.inj hrest
  have hr := Runs.exec_steps he
  exact ⟨τ, s, hr, hopens, hcloses, hroutes, (gateway_route_agreement hr).1⟩

end ArenaLab
