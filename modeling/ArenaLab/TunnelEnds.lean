import ArenaLab.RelayElsewhere

/-! One end of the tunnel: what has come to it, and what it has made of that. -/

namespace ArenaLab

/-- The books of one end, over the run of its gateway. -/
structure EndInv (role : GatewayRole) (c : HexStr 32) (x : TunnelEnd) : Prop where
  books : Runs.Steps (RelayStep role) .boot x.events x.relay
  link : ∀ l, x.relay.links.lookup c = some l → (∃ taken, Outflow l x.arrived x.wrote taken) ∧
    Inflow l x.heard x.sent
  unknown : x.relay.links.lookup c = none → c ∉ x.relay.retired_ids →
    x.arrived = [] ∧ x.wrote = [] ∧ x.heard = [] ∧ x.sent = []
  inOrder : datagrams x.wrote <+: x.arrived.filter (fun d => x.acknowledged c = some d.sender)
  served : x.sent <+: payloads x.heard
  sizes : ∀ d ∈ datagrams x.wrote, 1 ≤ d.data.length ∧ d.data.length ≤ 4096

section

variable {role : GatewayRole} {c : HexStr 32} {l l' : Link} {s' : Relay} {e : RelayEvent} {x x' : TunnelEnd}
  {arrived taken : List Datagram} {wrote : List TunnelFrame} {heard : List (Bool × List UInt8)}
  {sent : List (List UInt8)}

theorem Outflow.fitting (h : Outflow l arrived wrote taken) : datagrams wrote <+: arrived.filter l.fits := by
  refine h.inOrder.trans ?_
  rw [h.arrived, List.filter_append, List.filter_append, List.append_assoc]
  exact List.prefix_append _ _

/-- The acknowledgement that fixes the address is the first one. -/
theorem acknowledged_moved {origin : Address} (h : x.acknowledged c = some origin) (event : RelayEvent)
    (relay : Relay) : (x.moved event relay).acknowledged c = some origin := by
  obtain ⟨p, hp, horigin⟩ := Option.map_eq_some_iff.mp h
  rw [TunnelEnd.acknowledged, TunnelEnd.moved, acceptedIn_snoc, List.head?_append, hp]
  exact congrArg some horigin

/-- What was in order under the old address is under the new one. -/
theorem inOrder_moved (h : datagrams wrote <+: arrived.filter (fun d => x.acknowledged c = some d.sender))
    (event : RelayEvent) (relay : Relay) :
    datagrams wrote <+: arrived.filter (fun d => (x.moved event relay).acknowledged c = some d.sender) := by
  cases hx : x.acknowledged c with
  | some origin =>
    rw [acknowledged_moved hx]
    rwa [hx] at h
  | none =>
    have hnone : arrived.filter (fun d => x.acknowledged c = some d.sender) = [] := by
      rw [hx]
      exact List.filter_eq_nil_iff.mpr (fun _ _ => by simp)
    rw [hnone] at h
    have hempty : datagrams wrote = [] := List.eq_nil_of_prefix_nil h
    rw [hempty]
    exact List.nil_prefix

theorem acknowledged_of_ack {τ : List RelayEvent} (hbooks : LinkInv role τ c l) (hack : l.ack = true) :
    ((acceptedIn c τ).head?).map Prod.snd = l.origin := by
  rw [hbooks.accepted, if_pos hack]
  cases l.origin with
  | none => rfl
  | some origin => rfl

theorem outflow_new (role : GatewayRole) : Outflow (.new role) [] [] [] :=
  ⟨rfl, fun _ => ⟨rfl, rfl, rfl, rfl⟩, List.nil_prefix, fun _ => List.nil_prefix, fun _ _ => rfl,
    fun d hd => by cases hd⟩

theorem inflow_new (role : GatewayRole) : Inflow (.new role) [] [] :=
  ⟨fun _ => ⟨rfl, rfl, rfl⟩, List.nil_prefix, fun _ => List.nil_prefix, fun _ _ => rfl⟩

theorem endInv_boot (role : GatewayRole) (c : HexStr 32) : EndInv role c .boot :=
  ⟨.nil, fun l hl => (by cases hl), fun _ _ => ⟨rfl, rfl, rfl, rfl⟩, List.nil_prefix, List.nil_prefix,
    fun d hd => (by cases hd)⟩

theorem EndInv.inv (h : EndInv role c x) : RelayInv role x.events x.relay := relayInv_of_run h.books

/-- The books of an end while its channel is there. -/
theorem endInv_of_link (hbooks : Runs.Steps (RelayStep role) .boot x.events x.relay)
    (hl : x.relay.links.lookup c = some l) (hout : Outflow l x.arrived x.wrote taken)
    (hin : Inflow l x.heard x.sent) : EndInv role c x := by
  refine ⟨hbooks, fun l' hl' => ?_, fun hnone => ?_, ?_, hin.inOrder, fun d hd => hout.sizes d ?_⟩
  · rw [hl] at hl'
    obtain rfl := Option.some.inj hl'
    exact ⟨⟨taken, hout⟩, hin⟩
  · rw [hl] at hnone
    cases hnone
  · by_cases hack : l.ack = true
    · have horigin : x.acknowledged c = l.origin := acknowledged_of_ack ((relayInv_of_run hbooks).link c l hl) hack
      rw [horigin]
      exact hout.fitting
    · rw [(hout.idle (Bool.eq_false_iff.mpr hack)).2.2.2]
      exact List.nil_prefix
  · rw [datagrams_append, List.mem_append]
    exact .inl hd

theorem EndInv.next {a : RelayAction} (h : EndInv role c x) (hs : relayNext role x.relay a = some (e, s')) :
    Runs.Steps (RelayStep role) .boot (x.moved e s').events (x.moved e s').relay :=
  h.books.snoc ⟨a, hs⟩

theorem EndInv.aside {a : RelayAction} (h : EndInv role c x) (ha : a.aside c = true)
    (hs : relayNext role x.relay a = some (e, s')) : EndInv role c (x.moved e s') := by
  have hnext := h.next hs
  cases relayNext_elsewhere (c := c) hs ha with
  | same hlink hids =>
    refine ⟨hnext, fun l hl => ?_, fun hnone hr => ?_, inOrder_moved h.inOrder e s', h.served, h.sizes⟩
    · exact h.link l (hlink.symm.trans hl)
    · exact h.unknown (hlink.symm.trans hnone) (fun hc => hr (hids hc))
  | created hnone hfresh hlink =>
    obtain ⟨harrived, hwrote, hheard, hsent⟩ := h.unknown hnone hfresh
    have hout : Outflow (Link.new role) x.arrived x.wrote [] := by
      rw [harrived, hwrote]
      exact outflow_new role
    have hin : Inflow (Link.new role) x.heard x.sent := by
      rw [hheard, hsent]
      exact inflow_new role
    exact endInv_of_link (x := x.moved e s') hnext hlink hout hin
  | kept hold hlink hl =>
    obtain ⟨⟨taken, hout⟩, hin⟩ := h.link _ hold
    exact endInv_of_link (x := x.moved e s') hnext hlink (hout.moved hl) (hin.moved hl)
  | gone hlink hids =>
    refine ⟨hnext, fun l hl => ?_, fun _ hr => absurd hids hr, inOrder_moved h.inOrder e s', h.served, h.sizes⟩
    rw [show (x.moved e s').relay.links.lookup c = none from hlink] at hl
    cases hl

theorem EndInv.arrive (h : EndInv role c x) (d : Datagram)
    (hs : relayNext role x.relay (.arrive c d) = some (e, s')) :
    EndInv role c { x.moved e s' with arrived := x.arrived ++ [d] } := by
  have hnext := h.next hs
  simp only [relayNext] at hs
  split at hs
  · cases hs
  · rename_i l hl
    cases hs
    obtain ⟨⟨taken, hout⟩, hin⟩ := h.link l hl
    exact endInv_of_link (x := { x.moved _ _ with arrived := _ }) hnext (AList.lookup_insert _) (hout.arrive d)
      ⟨hin.idle, hin.inOrder, hin.queued, hin.whole⟩

theorem EndInv.work {a : WorkerAction} (h : EndInv role c x) (hl : x.relay.links.lookup c = some l)
    (hs : relayNext role x.relay (.work c a) = some (e, s')) :
    EndInv role c { x.moved e s' with
      wrote := x.wrote ++ a.written l
      heard := x.heard ++ a.frames
      sent := x.sent ++ a.sends l } := by
  have hnext := h.next hs
  have hgate := (h.inv.link c l hl).gate
  simp only [relayNext, hl] at hs
  split at hs
  · rename_i hworks
    obtain ⟨⟨y, l'⟩, hw, heq⟩ := Option.map_eq_some_iff.mp hs
    cases heq
    obtain ⟨⟨taken, hout⟩, hin⟩ := h.link l hl
    obtain ⟨taken', hout'⟩ := hout.work (hgate hworks) hw
    exact endInv_of_link (x := { x.moved _ _ with wrote := _, heard := _, sent := _ }) hnext
      (AList.lookup_insert _) hout' (hin.work (hgate hworks) hw)
  · cases hs

/-- A step of one end keeps its books, puts out the frames that it wrote and reads them whole. -/
theorem TunnelEnd.next_spec {input rest out : List UInt8} {a : RelayAction} (h : EndInv role c x)
    (hs : x.next role c input a = some (x', rest, out)) : EndInv role c x' ∧
    ∃ fs frames, x'.wrote = x.wrote ++ fs ∧ x'.heard = x.heard ++ frames ∧
      out = Framing.stream (fs.map (fun f => tunnelBody f.content.1 f.content.2)) ∧
      (frames = [] ∧ rest = input ∨ ∃ control data, frames = [(control, data)] ∧
        tunnelRead input = some (control, data, rest)) := by
  have hquiet : ∀ y : TunnelEnd, y.wrote = x.wrote → y.heard = x.heard → EndInv role c y →
      EndInv role c y ∧ ∃ fs frames, y.wrote = x.wrote ++ fs ∧ y.heard = x.heard ++ frames ∧
        [] = Framing.stream (fs.map (fun f => tunnelBody f.content.1 f.content.2)) ∧
        (frames = [] ∧ input = input ∨ ∃ control data, frames = [(control, data)] ∧
          tunnelRead input = some (control, data, input)) := by
    intro y hwrote hheard hy
    exact ⟨hy, [], [], by rw [hwrote, List.append_nil], by rw [hheard, List.append_nil], rfl, .inl ⟨rfl, rfl⟩⟩
  rw [TunnelEnd.next] at hs
  split at hs
  · cases hs
  · rename_i event relay hstep
    split at hs
    · rename_i d datagram
      cases hs
      by_cases hdc : d = c
      · subst hdc
        rw [if_pos rfl]
        exact hquiet _ rfl rfl (h.arrive datagram hstep)
      · rw [if_neg hdc]
        have haside : (RelayAction.arrive d datagram).aside c = true := decide_eq_true hdc
        exact hquiet _ rfl rfl (h.aside haside hstep)
    · rename_i d w
      split at hs
      · rename_i hdc
        cases hs
        have haside : (RelayAction.work d w).aside c = true := decide_eq_true hdc
        exact hquiet _ rfl rfl (h.aside haside hstep)
      · rename_i hdc
        rw [not_not] at hdc
        subst hdc
        split at hs
        · rename_i l rest' hl hleaves
          cases hs
          refine ⟨h.work hl hstep, w.written l, w.frames, rfl, rfl, rfl, ?_⟩
          cases w with
          | read control data limited =>
            right
            simp only [WorkerAction.leaves] at hleaves
            split at hleaves
            · rename_i control' data' rest'' hread
              split at hleaves
              · rename_i heq
                obtain ⟨rfl, rfl⟩ := heq
                obtain rfl := Option.some.inj hleaves
                exact ⟨_, _, rfl, hread⟩
              · cases hleaves
            · cases hleaves
          | _ =>
            obtain rfl := Option.some.inj hleaves
            exact .inl ⟨rfl, rfl⟩
        · cases hs
    · rename_i hnarrive hnwork
      cases hs
      have haside : a.aside c = true := by
        cases a with
        | arrive d datagram => exact absurd rfl (hnarrive d datagram)
        | work d w => exact absurd rfl (hnwork d w)
        | _ => rfl
      exact hquiet _ rfl rfl (h.aside haside hstep)

end

end ArenaLab
