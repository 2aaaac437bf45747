import ArenaLab.Gateway

/-! What one step of the gateway does to its channels: nothing, a new channel, the opening
of a channel, or its end. -/

namespace ArenaLab

def Gateway.portOf (g : Gateway) (c : HexStr 32) : Option ℕ := (g.channels.lookup c).map Channel.port

def Gateway.channelOf (g : Gateway) (t : ℕ) : Option (HexStr 32) := (g.tasks t).bind ServePhase.channel

def GatewayMessage.opening : GatewayMessage → Option RouteOpen
  | .routeOpen body => some body
  | _ => none

def GatewayMessage.closing : GatewayMessage → Option (HexStr 32)
  | .routeClose c => some c
  | _ => none

/-- The same sockets in the same places, whatever the flags. -/
structure SamePlaces (g g' : Gateway) : Prop where
  config : g'.config = g.config
  ports : ∀ c, g'.portOf c = g.portOf c
  size : g'.channels.keys.length = g.channels.keys.length
  retired : g'.retired = g.retired
  ids : g'.retired_ids = g.retired_ids
  stopping : g'.stopping = false → g.stopping = false

inductive GatewayChange (g : Gateway) : Option GatewayMessage → Gateway → Prop
  | quiet {m : Option GatewayMessage} {g' : Gateway} (same : SamePlaces g g')
      (hm : ∀ x ∈ m, x.opening = none ∧ x.closing = none)
      (hheld : ∀ t c, g'.channelOf t = some c → g.channelOf t = some c)
      (hwaiting : ∀ t c, g'.tasks t = some (.opening c) → g.tasks t = some (.opening c)) :
      GatewayChange g m g'
  | created {t : ℕ} {fingerprint : HexStr 64} {c : HexStr 32} {port : ℕ} (hfull : g.full = false)
      (hc : c ∉ g.channels) (hr : c ∉ g.retired_ids) (hport : 0 < port ∧ port ≤ 65535)
      (hfree : g.bound port = false) :
      GatewayChange g none ({ g with
        channels := g.channels.insert c ⟨fingerprint, port, false, false, 0⟩ }.put t (.opening c))
  | opened {t : ℕ} {c : HexStr 32} {channel : Channel} (ht : g.tasks t = some (.opening c))
      (hstop : g.stopping = false) (hc : g.channels.lookup c = some channel) :
      GatewayChange g (g.advertise t c channel).1 (g.advertise t c channel).2
  | retired {t : ℕ} {c : HexStr 32} (n : ℤ) (ht : g.channelOf t = some c) :
      GatewayChange g ({ g with pending := n }.leave t c).1 ({ g with pending := n }.leave t c).2

section

variable {g g' : Gateway} {t t' : ℕ} {c d : HexStr 32} {phase : ServePhase} {channel : Channel}

theorem channelOf_put_self (g : Gateway) (t : ℕ) (phase : ServePhase) :
    (g.put t phase).channelOf t = phase.channel := by
  simp [Gateway.channelOf, Gateway.put]

theorem channelOf_put_ne (g : Gateway) (phase : ServePhase) (h : t' ≠ t) :
    (g.put t phase).channelOf t' = g.channelOf t' := by
  simp [Gateway.channelOf, Gateway.put, h]

theorem tasks_put_ne (g : Gateway) (phase : ServePhase) (h : t' ≠ t) :
    (g.put t phase).tasks t' = g.tasks t' := by
  simp [Gateway.put, h]

theorem channelOf_of_tasks (h : g.tasks t = some phase) : g.channelOf t = phase.channel := by
  simp [Gateway.channelOf, h]

theorem portOf_isSome (g : Gateway) (c : HexStr 32) : (g.portOf c).isSome ↔ c ∈ g.channels := by
  simp [Gateway.portOf, AList.lookup_isSome]

theorem mem_of_portOf {p : ℕ} (h : g.portOf c = some p) : c ∈ g.channels := by
  rw [← portOf_isSome, h]
  rfl

theorem portOf_of_lookup (h : g.channels.lookup c = some channel) : g.portOf c = some channel.port := by
  simp [Gateway.portOf, h]

/-- A task that keeps its channel, or takes a place that has none, changes no place. -/
theorem put_quiet {m : Option GatewayMessage} (g₀ : Gateway) (same : SamePlaces g g₀)
    (htasks : g₀.tasks = g.tasks) (hm : ∀ x ∈ m, x.opening = none ∧ x.closing = none)
    (hphase : phase.channel = none ∨ phase.channel = g.channelOf t) (hnot : ∀ c, phase ≠ .opening c) :
    GatewayChange g m (g₀.put t phase) := by
  have hsame : ∀ t, g₀.channelOf t = g.channelOf t := by
    intro t
    rw [Gateway.channelOf, htasks]
    rfl
  refine .quiet ⟨same.config, same.ports, same.size, same.retired, same.ids, same.stopping⟩ hm ?_ ?_
  · intro t' c hc
    by_cases he : t' = t
    · subst he
      rw [channelOf_put_self] at hc
      rcases hphase with hp | hp
      · rw [hp] at hc
        cases hc
      · rw [← hp, hc]
    · rw [channelOf_put_ne _ _ he, hsame] at hc
      exact hc
  · intro t' c hc
    by_cases he : t' = t
    · subst he
      simp only [Gateway.put, Function.update_self, Option.some.injEq] at hc
      exact absurd hc (hnot c)
    · rw [tasks_put_ne _ _ he, htasks] at hc
      exact hc

theorem SamePlaces.refl (g : Gateway) : SamePlaces g g :=
  ⟨rfl, fun _ => rfl, rfl, rfl, rfl, id⟩

theorem quiet_flags {m : Option GatewayMessage} (same : SamePlaces g g') (htasks : g'.tasks = g.tasks)
    (hm : ∀ x ∈ m, x.opening = none ∧ x.closing = none) : GatewayChange g m g' := by
  refine .quiet same hm ?_ ?_
  · intro t c hc
    rw [Gateway.channelOf, htasks] at hc
    exact hc
  · intro t c hc
    rw [htasks] at hc
    exact hc

theorem keys_length_insert_of_mem {β : Type} {s : AList (fun _ : HexStr 32 => β)} (h : c ∈ s) (x : β) :
    (s.insert c x).keys.length = s.keys.length := by
  have hmem := AList.mem_keys.mp h
  have hpos := List.length_pos_of_mem hmem
  rw [AList.keys_insert, List.length_cons, List.length_erase_of_mem hmem]
  omega

theorem samePlaces_insert (hc : g.channels.lookup c = some channel) (x : Channel)
    (hx : x.port = channel.port) :
    SamePlaces g { g with channels := g.channels.insert c x } := by
  refine ⟨rfl, ?_, keys_length_insert_of_mem (AList.mem_of_lookup hc) x, rfl, rfl, id⟩
  intro d
  simp only [Gateway.portOf]
  by_cases he : d = c
  · subst he
    rw [AList.lookup_insert, hc, Option.map_some, Option.map_some, hx]
  · rw [AList.lookup_insert_ne he]

theorem samePlaces_close (g : Gateway) : SamePlaces g g.close := by
  refine ⟨rfl, ?_, ?_, rfl, rfl, fun hf => (by cases hf)⟩
  · intro c
    simp only [Gateway.portOf, Gateway.close, AList.lookup_mapValues, Option.map_map]
    rfl
  · simp only [Gateway.close, AList.keys_mapValues]

theorem handshake_change {fingerprint : HexStr 64} {port : ℕ}
    (h : g.handshake t fingerprint c port = some g') : GatewayChange g none g' := by
  have hrefused : GatewayChange g none ({ g with pending := g.pending - 1 }.put t .closing) :=
    put_quiet _ ⟨rfl, fun _ => rfl, rfl, rfl, rfl, id⟩ rfl (by simp) (.inl rfl) (by simp)
  simp only [Gateway.handshake] at h
  split at h
  · exact Option.some.inj h ▸ hrefused
  · split at h
    · exact Option.some.inj h ▸ hrefused
    · rename_i hfull
      split at h
      · exact Option.some.inj h ▸ hrefused
      · rename_i hnew
        rw [not_or] at hnew
        split at h
        · cases h
        · rename_i hport
          simp only [not_or, Bool.not_eq_true] at hport
          obtain rfl := Option.some.inj h
          exact .created (Bool.not_eq_true _ ▸ hfull) hnew.1 hnew.2 ⟨by omega, by omega⟩ hport.2.2

theorem acked_change {r : Option GatewayMessage × Gateway} (ht : g.tasks t = some (.advertised c))
    (h : (g.channels.lookup c).bind (fun channel =>
      if !channel.ack then none
      else if channel.closed then some (g.leave t c)
      else some (none, { g with pending := g.pending - 1 }.put t (.forwarding c))) = some r) :
    GatewayChange g r.1 r.2 := by
  obtain ⟨channel, _, h⟩ := Option.bind_eq_some_iff.mp h
  have hof := channelOf_of_tasks ht
  split at h
  · cases h
  · split at h
    · obtain rfl := Option.some.inj h
      exact .retired g.pending hof
    · obtain rfl := Option.some.inj h
      exact put_quiet _ ⟨rfl, fun _ => rfl, rfl, rfl, rfl, id⟩ rfl (by simp) (.inr hof.symm) (by simp)

theorem fault_change (g : Gateway) : GatewayChange g none g.fault :=
  quiet_flags ⟨rfl, fun _ => rfl, rfl, rfl, rfl, id⟩ rfl (by simp)

theorem acknowledge_change (hc : g.channels.lookup c = some channel) (request : ℕ) :
    GatewayChange g none (g.acknowledge c channel request) := by
  rw [Gateway.acknowledge]
  split
  · exact fault_change g
  · exact quiet_flags (samePlaces_insert hc _ rfl) rfl (by simp)

theorem gatewayNext_change {a : GatewayAction} {r : Option GatewayMessage × Gateway}
    (h : gatewayNext g a = some r) : GatewayChange g r.1 r.2 := by
  cases a with
  | listen port =>
    simp only [gatewayNext] at h
    split at h
    · cases h
    · obtain rfl := Option.some.inj h
      exact quiet_flags ⟨rfl, fun _ => rfl, rfl, rfl, rfl, id⟩ rfl (by rintro x ⟨⟩; exact ⟨rfl, rfl⟩)
  | accept t =>
    simp only [gatewayNext] at h
    split at h
    · cases h
    · split at h
      · obtain rfl := Option.some.inj h
        exact quiet_flags (.refl g) rfl (by simp)
      · obtain rfl := Option.some.inj h
        exact put_quiet _ ⟨rfl, fun _ => rfl, rfl, rfl, rfl, id⟩ rfl (by simp) (.inl rfl) (by simp)
  | handshake t fingerprint c port =>
    simp only [gatewayNext] at h
    split at h
    · obtain ⟨g', hg, rfl⟩ := Option.map_eq_some_iff.mp h
      exact handshake_change hg
    · cases h
  | openAck t =>
    simp only [gatewayNext] at h
    split at h
    · rename_i c ht hstop
      obtain ⟨channel, hc, rfl⟩ := Option.map_eq_some_iff.mp h
      exact .opened ht hstop hc
    · cases h
  | acked t =>
    simp only [gatewayNext] at h
    split at h
    · rename_i c ht _
      exact acked_change ht h
    · cases h
  | fail t =>
    simp only [gatewayNext] at h
    split at h
    · obtain rfl := Option.some.inj h
      exact put_quiet _ ⟨rfl, fun _ => rfl, rfl, rfl, rfl, id⟩ rfl (by simp) (.inl rfl) (by simp)
    · rename_i ht
      obtain rfl := Option.some.inj h
      exact .retired g.pending (channelOf_of_tasks ht)
    · rename_i ht
      obtain rfl := Option.some.inj h
      exact .retired g.pending (channelOf_of_tasks ht)
    · rename_i ht
      obtain rfl := Option.some.inj h
      exact .retired (g.pending + 1) (channelOf_of_tasks ht)
    · cases h
  | finish t =>
    simp only [gatewayNext] at h
    split at h
    · obtain rfl := Option.some.inj h
      exact put_quiet _ (.refl g) rfl (by simp) (.inl rfl) (by simp)
    · cases h
  | routeAck c request =>
    simp only [gatewayNext] at h
    split at h
    · cases h
    · split at h
      · obtain rfl := Option.some.inj h
        exact fault_change g
      · rename_i hc
        obtain rfl := Option.some.inj h
        exact acknowledge_change hc request
  | routeClose c =>
    simp only [gatewayNext] at h
    split at h
    · cases h
    · split at h
      · obtain rfl := Option.some.inj h
        dsimp only
        split
        · exact quiet_flags (.refl g) rfl (by simp)
        · exact fault_change g
      · rename_i hc
        obtain rfl := Option.some.inj h
        exact quiet_flags (samePlaces_insert hc _ rfl) rfl (by simp)
  | badCommand =>
    simp only [gatewayNext] at h
    split at h
    · cases h
    · obtain rfl := Option.some.inj h
      exact fault_change g
  | beat =>
    simp only [gatewayNext] at h
    split at h
    · cases h
    · obtain rfl := Option.some.inj h
      exact quiet_flags ⟨rfl, fun _ => rfl, rfl, rfl, rfl, id⟩ rfl (by rintro x ⟨⟩; exact ⟨rfl, rfl⟩)
  | close =>
    obtain rfl := Option.some.inj h
    exact quiet_flags (samePlaces_close g) rfl (by simp)

end

end ArenaLab
