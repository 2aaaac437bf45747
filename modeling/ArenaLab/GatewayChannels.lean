import ArenaLab.GatewayChanges
import Mathlib.Data.List.Perm.Subperm

/-! The channels of the gateway over a whole life, against the openings and
closings that it has sent. -/

namespace ArenaLab

def opensIn (E : List GatewayMessage) : List RouteOpen := E.filterMap GatewayMessage.opening

def closesIn (E : List GatewayMessage) : List (HexStr 32) := E.filterMap GatewayMessage.closing

theorem opensIn_concat (E : List GatewayMessage) (x : GatewayMessage) :
    opensIn (E ++ [x]) = opensIn E ++ x.opening.toList := by
  cases hx : x.opening <;> simp [opensIn, hx]

theorem closesIn_concat (E : List GatewayMessage) (x : GatewayMessage) :
    closesIn (E ++ [x]) = closesIn E ++ x.closing.toList := by
  cases hx : x.closing <;> simp [closesIn, hx]

/-- The channels whose opening but not whose closing is among the messages. -/
def liveIn (E : List GatewayMessage) : List (HexStr 32) :=
  ((opensIn E).map RouteOpen.channel_id).filter (fun c => !(closesIn E).contains c)

theorem mem_liveIn {E : List GatewayMessage} {c : HexStr 32} :
    c ∈ liveIn E ↔ c ∈ (opensIn E).map RouteOpen.channel_id ∧ c ∉ closesIn E := by
  simp [liveIn]

/-- The books of the gateway, given what it has opened and closed so far. -/
structure GatewayInv (opens : List RouteOpen) (closes : List (HexStr 32)) (g : Gateway) : Prop where
  active_le : g.channels.keys.length ≤ 8
  total_le : g.channels.keys.length + g.retired.length ≤ 256
  same_size : g.retired_ids.length = g.retired.length
  apart : ∀ c, c ∈ g.channels → c ∉ g.retired_ids
  held : ∀ t c, g.channelOf t = some c → c ∈ g.channels
  owned : ∀ t t' c, g.channelOf t = some c → g.channelOf t' = some c → t = t'
  waiting : ∀ t c, g.tasks t = some (.opening c) → c ∉ opens.map RouteOpen.channel_id
  distinct : ∀ c d p, g.portOf c = some p → g.portOf d = some p → c = d
  range : ∀ c p, g.portOf c = some p → p ∉ g.retired ∧ 0 < p ∧ p ≤ 65535
  placed : ∀ o ∈ opens, g.portOf o.channel_id = some o.port ∨
    o.channel_id ∈ g.retired_ids ∧ o.port ∈ g.retired
  opens_nodup : (opens.map RouteOpen.channel_id).Nodup
  closed : ∀ c ∈ closes, c ∈ g.retired_ids
  announced : g.stopping = false → ∀ c ∈ g.retired_ids, c ∈ closes
  closes_nodup : closes.Nodup

/-- What a new opening promises to whoever has seen the messages before it. -/
structure Announced (config : GatewayConfig) (E : List GatewayMessage) (o : RouteOpen) : Prop where
  run : o.remote_run_id = config.run
  session : o.game_session_id = config.game_session_id
  address : o.address = "127.0.0.1"
  range : 0 < o.port ∧ o.port ≤ 65535
  fresh : o.channel_id ∉ (opensIn E).map RouteOpen.channel_id
  port_fresh : o.port ∉ (opensIn E).map RouteOpen.port
  unclosed : o.channel_id ∉ closesIn E
  live_lt : (liveIn E).length < 8
  opens_lt : (opensIn E).length < 256

def Orderly (config : GatewayConfig) (E : List GatewayMessage) : Prop :=
  ∀ D o W, E = D ++ .routeOpen o :: W → Announced config D o

structure GatewayHistory (config : GatewayConfig) (E : List GatewayMessage) (g : Gateway) : Prop where
  set_up : g.config = config
  inv : GatewayInv (opensIn E) (closesIn E) g
  orderly : Orderly config E

section

variable {g g' : Gateway} {t t' : ℕ} {c d : HexStr 32} {channel : Channel}
variable {opens : List RouteOpen} {closes : List (HexStr 32)}

theorem gatewayInv_boot (config : GatewayConfig) : GatewayInv [] [] (.boot config) where
  active_le := by simp [Gateway.boot]
  total_le := by simp [Gateway.boot]
  same_size := rfl
  apart := by simp [Gateway.boot]
  held := by simp [Gateway.boot, Gateway.channelOf]
  owned := by simp [Gateway.boot, Gateway.channelOf]
  waiting := by simp
  distinct := by simp [Gateway.boot, Gateway.portOf]
  range := by simp [Gateway.boot, Gateway.portOf]
  placed := by simp
  opens_nodup := by simp
  closed := by simp
  announced := by simp [Gateway.boot]
  closes_nodup := by simp

theorem GatewayInv.same (hi : GatewayInv opens closes g) (same : SamePlaces g g')
    (hheld : ∀ t c, g'.channelOf t = some c → g.channelOf t = some c)
    (hwaiting : ∀ t c, g'.tasks t = some (.opening c) → g.tasks t = some (.opening c)) :
    GatewayInv opens closes g' := by
  have hmem : ∀ c, c ∈ g'.channels ↔ c ∈ g.channels := by
    intro c
    rw [← portOf_isSome, ← portOf_isSome, same.ports]
  constructor
  · rw [same.size]
    exact hi.active_le
  · rw [same.size, same.retired]
    exact hi.total_le
  · rw [same.ids, same.retired]
    exact hi.same_size
  · intro c hc
    rw [same.ids]
    exact hi.apart c ((hmem c).mp hc)
  · intro t c hc
    exact (hmem c).mpr (hi.held t c (hheld t c hc))
  · intro t t' c ht ht'
    exact hi.owned t t' c (hheld t c ht) (hheld t' c ht')
  · intro t c hc
    exact hi.waiting t c (hwaiting t c hc)
  · intro c d p hc hd
    rw [same.ports] at hc hd
    exact hi.distinct c d p hc hd
  · intro c p hc
    rw [same.ports] at hc
    rw [same.retired]
    exact hi.range c p hc
  · intro o ho
    rw [same.ports, same.ids, same.retired]
    exact hi.placed o ho
  · exact hi.opens_nodup
  · intro c hc
    rw [same.ids]
    exact hi.closed c hc
  · intro hstop c hc
    rw [same.ids] at hc
    exact hi.announced (same.stopping hstop) c hc
  · exact hi.closes_nodup

theorem bound_iff (g : Gateway) (port : ℕ) :
    g.bound port = true ↔ port ∈ g.retired ∨ ∃ c, g.portOf c = some port := by
  simp only [Gateway.bound, Bool.or_eq_true, decide_eq_true_eq, List.any_eq_true]
  refine or_congr Iff.rfl ?_
  constructor
  · rintro ⟨⟨c, x⟩, hx, hp⟩
    exact ⟨c, Option.map_eq_some_iff.mpr ⟨x, AList.mem_lookup_iff.mpr hx, hp⟩⟩
  · rintro ⟨c, hc⟩
    obtain ⟨x, hx, hp⟩ := Option.map_eq_some_iff.mp hc
    exact ⟨⟨c, x⟩, AList.mem_lookup_iff.mp hx, hp⟩

theorem GatewayInv.created {fingerprint : HexStr 64} {port : ℕ} (hi : GatewayInv opens closes g)
    (hfull : g.full = false) (hc : c ∉ g.channels) (hr : c ∉ g.retired_ids)
    (hport : 0 < port ∧ port ≤ 65535) (hfree : g.bound port = false) :
    GatewayInv opens closes ({ g with
      channels := g.channels.insert c ⟨fingerprint, port, false, false, 0⟩ }.put t (.opening c)) := by
  obtain ⟨g', hg'⟩ : ∃ g', g' = { g with
    channels := g.channels.insert c ⟨fingerprint, port, false, false, 0⟩ }.put t (.opening c) := ⟨_, rfl⟩
  rw [← hg']
  have hchannels : g'.channels = g.channels.insert c ⟨fingerprint, port, false, false, 0⟩ := by rw [hg']; rfl
  have hretired : g'.retired = g.retired := by rw [hg']; rfl
  have hids : g'.retired_ids = g.retired_ids := by rw [hg']; rfl
  have hself : g'.portOf c = some port := by
    rw [Gateway.portOf, hchannels, AList.lookup_insert]
    rfl
  have hother : ∀ d, d ≠ c → g'.portOf d = g.portOf d := by
    intro d hd
    rw [Gateway.portOf, hchannels, AList.lookup_insert_ne hd]
    rfl
  have hlen : g'.channels.keys.length = g.channels.keys.length + 1 := by
    rw [hchannels, AList.keys_insert, List.erase_of_not_mem (AList.mem_keys.not.mp hc), List.length_cons]
  have htask : ∀ t' d, g'.channelOf t' = some d → t' = t ∧ d = c ∨ t' ≠ t ∧ g.channelOf t' = some d := by
    intro t' d hd
    rw [hg'] at hd
    by_cases he : t' = t
    · subst he
      rw [channelOf_put_self] at hd
      exact .inl ⟨rfl, (Option.some.inj hd).symm⟩
    · rw [channelOf_put_ne _ _ he] at hd
      exact .inr ⟨he, hd⟩
  have hnone : ∀ d, g.portOf d ≠ some port ∧ port ∉ g.retired := by
    intro d
    have hb := (bound_iff g port).not.mp (by rw [hfree]; simp)
    exact ⟨fun hd => hb (.inr ⟨d, hd⟩), fun hd => hb (.inl hd)⟩
  have hne : ∀ d, d ∈ g.channels ∨ d ∈ g.retired_ids → d ≠ c := by
    rintro d hd rfl
    exact hd.elim hc hr
  simp only [Gateway.full, Bool.or_eq_false_iff, decide_eq_false_iff_not, not_le] at hfull
  constructor
  · omega
  · rw [hretired]
    omega
  · rw [hids, hretired]
    exact hi.same_size
  · intro d hd
    rw [hchannels, AList.mem_insert] at hd
    rw [hids]
    rcases hd with rfl | hd
    · exact hr
    · exact hi.apart d hd
  · intro t' d hd
    rw [hchannels, AList.mem_insert]
    rcases htask t' d hd with ⟨_, rfl⟩ | ⟨_, hd⟩
    · exact .inl rfl
    · exact .inr (hi.held t' d hd)
  · intro t₁ t₂ d h₁ h₂
    rcases htask t₁ d h₁ with ⟨rfl, rfl⟩ | ⟨_, h₁⟩
    · rcases htask t₂ d h₂ with ⟨rfl, _⟩ | ⟨_, h₂⟩
      · rfl
      · exact absurd (hi.held t₂ d h₂) hc
    · rcases htask t₂ d h₂ with ⟨rfl, rfl⟩ | ⟨_, h₂⟩
      · exact absurd (hi.held t₁ d h₁) hc
      · exact hi.owned t₁ t₂ d h₁ h₂
  · intro t' d hd
    rcases htask t' d (channelOf_of_tasks hd) with ⟨_, rfl⟩ | ⟨he, _⟩
    · intro hf
      obtain ⟨o, ho, rfl⟩ := List.mem_map.mp hf
      rcases hi.placed o ho with hp | ⟨hp, _⟩
      · exact hc (mem_of_portOf hp)
      · exact hr hp
    · rw [hg', tasks_put_ne _ _ he] at hd
      exact hi.waiting t' d hd
  · intro d d' p hd hd'
    by_cases he : d = c
    · subst he
      rw [hself] at hd
      obtain rfl := Option.some.inj hd
      by_contra hne'
      rw [hother d' (Ne.symm hne')] at hd'
      exact (hnone d').1 hd'
    · rw [hother d he] at hd
      by_cases he' : d' = c
      · subst he'
        rw [hself] at hd'
        obtain rfl := Option.some.inj hd'
        exact absurd hd (hnone d).1
      · rw [hother d' he'] at hd'
        exact hi.distinct d d' p hd hd'
  · intro d p hd
    rw [hretired]
    by_cases he : d = c
    · subst he
      rw [hself] at hd
      obtain rfl := Option.some.inj hd
      exact ⟨(hnone d).2, hport⟩
    · rw [hother d he] at hd
      exact hi.range d p hd
  · intro o ho
    rw [hids, hretired]
    rcases hi.placed o ho with hp | hp
    · refine .inl ?_
      rw [hother _ (hne _ (.inl (mem_of_portOf hp)))]
      exact hp
    · exact .inr hp
  · exact hi.opens_nodup
  · intro d hd
    rw [hids]
    exact hi.closed d hd
  · intro hstop d hd
    rw [hids] at hd
    exact hi.announced (by rw [hg'] at hstop; exact hstop) d hd
  · exact hi.closes_nodup

theorem advertise_body (g : Gateway) (t : ℕ) (c : HexStr 32) (channel : Channel) :
    ∃ o, (g.advertise t c channel).1 = some (.routeOpen o) ∧ o.channel_id = c ∧ o.address = "127.0.0.1" ∧
      o.port = channel.port ∧ o.remote_run_id = g.config.run ∧
      o.game_session_id = g.config.game_session_id :=
  ⟨_, rfl, rfl, rfl, rfl, rfl, rfl⟩

theorem GatewayInv.advertised {o : RouteOpen} (hi : GatewayInv opens closes g)
    (ht : g.tasks t = some (.opening c)) (hc : g.channels.lookup c = some channel)
    (hid : o.channel_id = c) (hport : o.port = channel.port) :
    GatewayInv (opens ++ [o]) closes (g.advertise t c channel).2 := by
  obtain ⟨g', hg'⟩ : ∃ g', g' = (g.advertise t c channel).2 := ⟨_, rfl⟩
  rw [← hg']
  have hof := channelOf_of_tasks ht
  have hpre : SamePlaces g g' := by
    have hsame := samePlaces_insert hc { channel with route_request := g.tx + 1 } rfl
    rw [hg']
    exact ⟨rfl, hsame.ports, hsame.size, rfl, rfl, id⟩
  have hheld : ∀ t' d, g'.channelOf t' = some d → g.channelOf t' = some d := by
    intro t' d hd
    rw [hg', Gateway.advertise] at hd
    by_cases he : t' = t
    · subst he
      rw [channelOf_put_self] at hd
      rw [hof]
      exact hd
    · rw [channelOf_put_ne _ _ he] at hd
      exact hd
  have hwaiting : ∀ t' d, g'.tasks t' = some (.opening d) → t' ≠ t ∧ g.tasks t' = some (.opening d) := by
    intro t' d hd
    rw [hg', Gateway.advertise] at hd
    by_cases he : t' = t
    · subst he
      simp [Gateway.put] at hd
    · rw [tasks_put_ne _ _ he] at hd
      exact ⟨he, hd⟩
  have hi' := hi.same hpre hheld (fun t' d hd => (hwaiting t' d hd).2)
  refine ⟨hi'.active_le, hi'.total_le, hi'.same_size, hi'.apart, hi'.held, hi'.owned, ?_, hi'.distinct,
    hi'.range, ?_, ?_, hi'.closed, hi'.announced, hi'.closes_nodup⟩
  · intro t' d hd
    rw [List.map_append, List.mem_append, not_or]
    refine ⟨hi'.waiting t' d hd, ?_⟩
    obtain ⟨hne, hd⟩ := hwaiting t' d hd
    rintro hf
    rw [List.map_singleton, List.mem_singleton, hid] at hf
    subst hf
    exact hne (hi.owned t' t d (channelOf_of_tasks hd) hof)
  · intro x hx
    rcases List.mem_append.mp hx with hx | hx
    · exact hi'.placed x hx
    · rw [List.mem_singleton.mp hx, hpre.ports, hid, hport]
      exact .inl (portOf_of_lookup hc)
  · rw [List.map_append, List.map_singleton, hid]
    rw [← List.concat_eq_append, List.nodup_concat]
    exact ⟨hi.waiting t c ht, hi.opens_nodup⟩

theorem leave_message (g : Gateway) (t : ℕ) (c : HexStr 32) :
    (g.leave t c).1 = if g.stopping then none else some (.routeClose c) := by
  by_cases hs : g.stopping = true <;> simp [Gateway.leave, Gateway.retire, Gateway.put, hs]

structure Left (g : Gateway) (t : ℕ) (c : HexStr 32) (p : ℕ) (g' : Gateway) : Prop where
  channels : g'.channels = g.channels.erase c
  retired : g'.retired = g.retired ++ [p]
  ids : g'.retired_ids = g.retired_ids.insert c
  tasks : g'.tasks = Function.update g.tasks t (some .closing)
  stopping : g'.stopping = g.stopping

theorem leave_left {p : ℕ} (hp : g.portOf c = some p) : Left g t c p (g.leave t c).2 := by
  have hget : ((g.channels.lookup c).map Channel.port).getD 0 = p := by
    rw [← Gateway.portOf, hp]
    rfl
  simp only [Gateway.leave, Gateway.retire, Gateway.put, hget]
  split <;> exact ⟨rfl, rfl, rfl, rfl, rfl⟩

theorem GatewayInv.left {p : ℕ} (hi : GatewayInv opens closes g) (ht : g.channelOf t = some c)
    (hp : g.portOf c = some p) (hl : Left g t c p g') :
    GatewayInv opens (closes ++ if g.stopping then [] else [c]) g' := by
  have hc := hi.held t c ht
  have hnew := hi.apart c hc
  have hmem : ∀ d, d ∈ g'.channels ↔ d ≠ c ∧ d ∈ g.channels := by
    intro d
    rw [hl.channels, AList.mem_erase]
  have hids : ∀ d, d ∈ g'.retired_ids ↔ d = c ∨ d ∈ g.retired_ids := by
    intro d
    rw [hl.ids, List.mem_insert_iff]
  have hport : ∀ d q, g'.portOf d = some q ↔ d ≠ c ∧ g.portOf d = some q := by
    intro d q
    rw [Gateway.portOf, hl.channels]
    by_cases he : d = c
    · subst he
      simp [AList.lookup_erase]
    · rw [AList.lookup_erase_ne he]
      exact ⟨fun h => ⟨he, h⟩, fun h => h.2⟩
  have htask : ∀ t' d, g'.channelOf t' = some d → t' ≠ t ∧ g.channelOf t' = some d := by
    intro t' d hd
    rw [Gateway.channelOf, hl.tasks] at hd
    by_cases he : t' = t
    · subst he
      simp [ServePhase.channel] at hd
    · rw [Function.update_of_ne he] at hd
      exact ⟨he, hd⟩
  have hlen : g'.channels.keys.length + 1 = g.channels.keys.length := by
    have hk := AList.mem_keys.mp hc
    have hpos := List.length_pos_of_mem hk
    rw [hl.channels, AList.keys_erase, List.length_erase_of_mem hk]
    omega
  have hret : g'.retired.length = g.retired.length + 1 := by
    rw [hl.retired, List.length_append, List.length_singleton]
  have hactive := hi.active_le
  have htotal := hi.total_le
  constructor
  · omega
  · omega
  · rw [hl.ids, List.length_insert_of_not_mem hnew, hi.same_size, hret]
  · intro d hd
    obtain ⟨hne, hd⟩ := (hmem d).mp hd
    rw [hids, not_or]
    exact ⟨hne, hi.apart d hd⟩
  · intro t' d hd
    obtain ⟨hne, hd⟩ := htask t' d hd
    refine (hmem d).mpr ⟨?_, hi.held t' d hd⟩
    rintro rfl
    exact hne (hi.owned t' t d hd ht)
  · intro t₁ t₂ d h₁ h₂
    exact hi.owned t₁ t₂ d (htask t₁ d h₁).2 (htask t₂ d h₂).2
  · intro t' d hd
    obtain ⟨hne, _⟩ := htask t' d (channelOf_of_tasks hd)
    rw [hl.tasks, Function.update_of_ne hne] at hd
    exact hi.waiting t' d hd
  · intro d d' q hd hd'
    exact hi.distinct d d' q ((hport d q).mp hd).2 ((hport d' q).mp hd').2
  · intro d q hd
    obtain ⟨hne, hd⟩ := (hport d q).mp hd
    obtain ⟨hfree, hrange⟩ := hi.range d q hd
    refine ⟨?_, hrange⟩
    rw [hl.retired, List.mem_append, List.mem_singleton, not_or]
    refine ⟨hfree, ?_⟩
    rintro rfl
    exact hne (hi.distinct d c q hd hp)
  · intro o ho
    rw [hids, hl.retired, List.mem_append, List.mem_singleton]
    rcases hi.placed o ho with hq | ⟨hid, hq⟩
    · by_cases he : o.channel_id = c
      · rw [he, hp] at hq
        exact .inr ⟨.inl he, .inr (Option.some.inj hq).symm⟩
      · exact .inl ((hport _ _).mpr ⟨he, hq⟩)
    · exact .inr ⟨.inr hid, .inl hq⟩
  · exact hi.opens_nodup
  · intro d hd
    rw [hids]
    rcases List.mem_append.mp hd with hd | hd
    · exact .inr (hi.closed d hd)
    · split at hd
      · cases hd
      · exact .inl (List.mem_singleton.mp hd)
  · intro hstop d hd
    rw [hl.stopping] at hstop
    rw [hstop, List.mem_append]
    rcases (hids d).mp hd with rfl | hd
    · exact .inr (List.mem_singleton_self d)
    · exact .inl (hi.announced hstop d hd)
  · split
    · rw [List.append_nil]
      exact hi.closes_nodup
    · rw [← List.concat_eq_append, List.nodup_concat]
      exact ⟨fun hf => hnew (hi.closed c hf), hi.closes_nodup⟩

variable {config : GatewayConfig} {E : List GatewayMessage} {m : Option GatewayMessage}

theorem GatewayInv.live (hi : GatewayInv (opensIn E) (closesIn E) g) (hstop : g.stopping = false)
    (hd : d ∈ liveIn E) : d ∈ g.channels := by
  obtain ⟨hopen, hclose⟩ := mem_liveIn.mp hd
  obtain ⟨o, ho, rfl⟩ := List.mem_map.mp hopen
  rcases hi.placed o ho with hp | ⟨hr, _⟩
  · exact mem_of_portOf hp
  · exact absurd (hi.announced hstop _ hr) hclose

theorem GatewayInv.announces {o : RouteOpen} (hi : GatewayInv (opensIn E) (closesIn E) g)
    (ht : g.tasks t = some (.opening c)) (hstop : g.stopping = false)
    (hc : g.channels.lookup c = some channel) (hid : o.channel_id = c) (hport : o.port = channel.port)
    (haddress : o.address = "127.0.0.1") (hrun : o.remote_run_id = g.config.run)
    (hsession : o.game_session_id = g.config.game_session_id) : Announced g.config E o := by
  have hmem := AList.mem_of_lookup hc
  have hp := portOf_of_lookup hc
  have hfresh := hi.waiting t c ht
  constructor
  · exact hrun
  · exact hsession
  · exact haddress
  · rw [hport]
    exact (hi.range c _ hp).2
  · rw [hid]
    exact hfresh
  · intro hf
    obtain ⟨x, hx, hxp⟩ := List.mem_map.mp hf
    rw [hport] at hxp
    rcases hi.placed x hx with hq | ⟨_, hq⟩
    · rw [hxp] at hq
      exact hfresh (hi.distinct _ c _ hq hp ▸ List.mem_map_of_mem hx)
    · rw [hxp] at hq
      exact (hi.range c _ hp).1 hq
  · rw [hid]
    exact fun hf => hi.apart c hmem (hi.closed c hf)
  · have hnodup : (c :: liveIn E).Nodup :=
      List.nodup_cons.mpr ⟨fun hf => hfresh (mem_liveIn.mp hf).1, hi.opens_nodup.filter _⟩
    have hsub : c :: liveIn E ⊆ g.channels.keys := by
      intro d hd
      rw [← AList.mem_keys]
      rcases List.mem_cons.mp hd with rfl | hd
      · exact hmem
      · exact hi.live hstop hd
    have hlen := (List.subperm_of_subset hnodup hsub).length_le
    have hle := hi.active_le
    rw [List.length_cons] at hlen
    omega
  · have hnodup : (c :: (opensIn E).map RouteOpen.channel_id).Nodup :=
      List.nodup_cons.mpr ⟨hfresh, hi.opens_nodup⟩
    have hsub : c :: (opensIn E).map RouteOpen.channel_id ⊆ g.channels.keys ++ g.retired_ids := by
      intro d hd
      rw [List.mem_append, ← AList.mem_keys]
      rcases List.mem_cons.mp hd with rfl | hd
      · exact .inl hmem
      · obtain ⟨x, hx, rfl⟩ := List.mem_map.mp hd
        rcases hi.placed x hx with hq | ⟨hq, _⟩
        · exact .inl (mem_of_portOf hq)
        · exact .inr hq
    have hlen := (List.subperm_of_subset hnodup hsub).length_le
    have hle := hi.total_le
    have hsame := hi.same_size
    rw [List.length_cons, List.length_map, List.length_append] at hlen
    omega

theorem orderly_concat {x : GatewayMessage} (h : Orderly config E)
    (hx : ∀ o, x = .routeOpen o → Announced config E o) : Orderly config (E ++ [x]) := by
  intro D o W hsplit
  rcases List.concat_eq_append_cons hsplit with ⟨_, rfl, he⟩ | ⟨W', _, he⟩
  · exact hx o he
  · exact h D o W' he

theorem gatewayHistory_boot (config : GatewayConfig) : GatewayHistory config [] (.boot config) where
  set_up := rfl
  inv := gatewayInv_boot config
  orderly := by
    intro D o W hsplit
    simp at hsplit

theorem GatewayHistory.step (h : GatewayHistory config E g) (hs : GatewayChange g m g') :
    GatewayHistory config (E ++ m.toList) g' := by
  obtain ⟨hconfig, hi, ho⟩ := h
  cases hs with
  | quiet same hm hheld hwaiting =>
    refine ⟨same.config.trans hconfig, ?_, ?_⟩
    · cases m with
      | none => simpa using hi.same same hheld hwaiting
      | some x =>
        obtain ⟨hopen, hclose⟩ := hm x rfl
        rw [Option.toList_some, opensIn_concat, closesIn_concat, hopen, hclose]
        simpa using hi.same same hheld hwaiting
    · cases m with
      | none => simpa using ho
      | some x =>
        refine orderly_concat ho ?_
        rintro o rfl
        cases (hm _ rfl).1
  | created hfull hc hr hport hfree =>
    rw [Option.toList_none, List.append_nil]
    exact ⟨hconfig, hi.created hfull hc hr hport hfree, ho⟩
  | @opened t c channel ht hstop hc =>
    obtain ⟨o, he, hid, haddress, hport, hrun, hsession⟩ := advertise_body g t c channel
    have hann := hi.announces ht hstop hc hid hport haddress hrun hsession
    rw [hconfig] at hann
    rw [he]
    refine ⟨hconfig, ?_, orderly_concat ho ?_⟩
    · have hadv := hi.advertised ht hc hid hport
      rw [Option.toList_some, opensIn_concat, closesIn_concat]
      simpa [GatewayMessage.opening, GatewayMessage.closing] using hadv
    · rintro o' ⟨⟩
      exact hann
  | @retired t c n ht =>
    obtain ⟨p, hp⟩ := Option.isSome_iff_exists.mp ((portOf_isSome g c).mpr (hi.held t c ht))
    obtain ⟨h₁, h₂, h₃, h₄, h₅⟩ : Left { g with pending := n } t c p _ := leave_left hp
    have hleft := hi.left ht hp ⟨h₁, h₂, h₃, h₄, h₅⟩
    have hconfig' : ({ g with pending := n }.leave t c).2.config = config := by
      rw [← hconfig, Gateway.leave, Gateway.retire]
      dsimp only
      split <;> rfl
    rw [leave_message]
    refine ⟨hconfig', ?_, ?_⟩
    · by_cases hs : g.stopping = true
      · simpa [hs] using hleft
      · simp only [hs, Bool.false_eq_true, if_false] at hleft ⊢
        rw [Option.toList_some, opensIn_concat, closesIn_concat]
        simpa [GatewayMessage.opening, GatewayMessage.closing] using hleft
    · by_cases hs : g.stopping = true
      · simpa [hs] using ho
      · simp only [hs, Bool.false_eq_true, if_false, Option.toList_some]
        refine orderly_concat ho ?_
        intro o he
        cases he

end

end ArenaLab
