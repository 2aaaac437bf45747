import ArenaLab.GatewayQuotas

/-! What one step of the gateway does to the record of a channel: the acknowledgement, and
the request that its opening is announced under. -/

namespace ArenaLab

/-- How a step changes the record of a channel. -/
inductive ChannelChange (g : Gateway) (a : GatewayAction) (m : Option GatewayMessage) (c : HexStr 32)
    (channel' : Channel) : Prop
  | kept {channel : Channel} (hc : g.channels.lookup c = some channel) (hack : channel'.ack = channel.ack)
      (hrequest : channel'.route_request = channel.route_request)
  | created (hc : c ∉ g.channels) (hack : channel'.ack = false)
  | opened {channel : Channel} {body : RouteOpen} (hc : g.channels.lookup c = some channel)
      (hack : channel'.ack = channel.ack) (hrequest : channel'.route_request = g.tx + 1)
      (hm : m = some (.routeOpen body)) (hid : body.channel_id = c)
  | acknowledged {channel : Channel} {request : ℕ} (ha : a = .routeAck c request)
      (hc : g.channels.lookup c = some channel) (hrequest : channel'.route_request = channel.route_request)

section

variable {g g' : Gateway} {a : GatewayAction} {m : Option GatewayMessage} {c d : HexStr 32} {t : ℕ}
  {channel channel' : Channel}

theorem channelChange_same (h : g'.channels = g.channels) (hc : g'.channels.lookup c = some channel') :
    ChannelChange g a m c channel' := by
  rw [h] at hc
  exact .kept hc rfl rfl

theorem channelChange_erase (h : g'.channels = g.channels.erase d) (hc : g'.channels.lookup c = some channel') :
    ChannelChange g a m c channel' := by
  rw [h] at hc
  by_cases he : c = d
  · subst he
    rw [AList.lookup_erase] at hc
    cases hc
  · rw [AList.lookup_erase_ne he] at hc
    exact .kept hc rfl rfl

theorem channelChange_leave (hc : (g.leave t d).2.channels.lookup c = some channel') :
    ChannelChange g a m c channel' :=
  channelChange_erase (leave_places g t d).1 hc

theorem channelChange_insert {x : Channel} (h : g'.channels = g.channels.insert d x)
    (hx : c = d → ChannelChange g a m c x) (hc : g'.channels.lookup c = some channel') :
    ChannelChange g a m c channel' := by
  rw [h] at hc
  by_cases he : c = d
  · subst he
    rw [AList.lookup_insert] at hc
    cases hc
    exact hx rfl
  · rw [AList.lookup_insert_ne he] at hc
    exact .kept hc rfl rfl

theorem channelChange_handshake {fingerprint : HexStr 64} {port : ℕ}
    (h : g.handshake t fingerprint d port = some g') (hc : g'.channels.lookup c = some channel') :
    ChannelChange g a m c channel' := by
  simp only [Gateway.handshake] at h
  split at h
  · cases h
    exact channelChange_same rfl hc
  split at h
  · cases h
    exact channelChange_same rfl hc
  split at h
  · cases h
    exact channelChange_same rfl hc
  · rename_i hnew
    rw [not_or] at hnew
    split at h
    · cases h
    · cases h
      refine channelChange_insert rfl ?_ hc
      rintro rfl
      exact .created hnew.1 rfl

theorem gatewayNext_channel {r : Option GatewayMessage × Gateway} (h : gatewayNext g a = some r)
    (hc : r.2.channels.lookup c = some channel') : ChannelChange g a r.1 c channel' := by
  cases a with
  | listen port =>
    simp only [gatewayNext] at h
    split at h <;> cases h
    exact channelChange_same rfl hc
  | accept t =>
    simp only [gatewayNext] at h
    split at h
    · cases h
    · split at h <;> cases h <;> exact channelChange_same rfl hc
  | handshake t fingerprint d port =>
    simp only [gatewayNext] at h
    split at h
    · obtain ⟨g', hg, rfl⟩ := Option.map_eq_some_iff.mp h
      exact channelChange_handshake hg hc
    · cases h
  | openAck t =>
    simp only [gatewayNext] at h
    split at h
    · rename_i d _ _
      obtain ⟨channel, hd, rfl⟩ := Option.map_eq_some_iff.mp h
      refine channelChange_insert (d := d) rfl ?_ hc
      rintro rfl
      exact .opened hd rfl rfl rfl rfl
    · cases h
  | acked t =>
    simp only [gatewayNext] at h
    split at h
    · obtain ⟨channel, _, h⟩ := Option.bind_eq_some_iff.mp h
      split at h
      · cases h
      · split at h
        · cases h
          exact channelChange_leave hc
        · cases h
          exact channelChange_same rfl hc
    · cases h
  | fail t =>
    simp only [gatewayNext] at h
    split at h
    · cases h
      exact channelChange_same rfl hc
    · cases h
      exact channelChange_leave hc
    · cases h
      exact channelChange_leave hc
    · cases h
      exact channelChange_erase (leave_places { g with pending := g.pending + 1 } t _).1 hc
    · cases h
  | finish t =>
    simp only [gatewayNext] at h
    split at h <;> cases h
    exact channelChange_same rfl hc
  | routeAck d request =>
    simp only [gatewayNext] at h
    split at h
    · cases h
    · split at h
      · cases h
        exact channelChange_same rfl hc
      · rename_i channel hd
        cases h
        dsimp only at hc
        unfold Gateway.acknowledge at hc
        split at hc
        · exact channelChange_same rfl hc
        · refine channelChange_insert (d := d) rfl ?_ hc
          rintro rfl
          exact .acknowledged rfl hd rfl
  | routeClose d =>
    simp only [gatewayNext] at h
    split at h
    · cases h
    · split at h
      · cases h
        dsimp only at hc
        split at hc <;> exact channelChange_same rfl hc
      · rename_i channel hd
        cases h
        refine channelChange_insert (d := d) rfl ?_ hc
        rintro rfl
        exact .kept hd rfl rfl
  | badCommand =>
    simp only [gatewayNext] at h
    split at h <;> cases h
    exact channelChange_same rfl hc
  | beat =>
    simp only [gatewayNext] at h
    split at h <;> cases h
    exact channelChange_same rfl hc
  | close =>
    cases h
    simp only [Gateway.close, AList.lookup_mapValues, Option.map_eq_some_iff] at hc
    obtain ⟨channel, hc, rfl⟩ := hc
    exact .kept hc rfl rfl

/-- Only the acknowledgement of an `OPEN` announces a route, under the id that is kept for its answer. -/
theorem gatewayNext_opening {body : RouteOpen} (h : gatewayNext g a = some (some (.routeOpen body), g')) :
    (∃ t, a = .openAck t) ∧
    ∀ channel, g'.channels.lookup body.channel_id = some channel → channel.route_request = g.tx + 1 := by
  rcases gatewayNext_emits h with ⟨_, -, hm⟩ | ⟨t, c, channel, ha, -, -, hadvertise⟩ | ⟨_, _, -, hm⟩ | ⟨-, hm⟩
  · cases hm
  · refine ⟨⟨t, ha⟩, ?_⟩
    intro x hx
    cases hadvertise
    simp only [Gateway.put, AList.lookup_insert, Option.some.injEq] at hx
    rw [← hx]
  · cases hm
  · cases hm

end

end ArenaLab
