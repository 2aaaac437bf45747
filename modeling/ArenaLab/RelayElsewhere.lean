import ArenaLab.TunnelInflow
import ArenaLab.TunnelOutflow

/-! A channel under everything that the gateway does besides the steps of its workers. -/

namespace ArenaLab

/-- What the other steps of a gateway may do to a channel: its gate, its stage and its end. -/
structure LinkKept (l l' : Link) : Prop where
  socket : l'.socket = l.socket
  received : l'.received = l.received
  outgoing : l'.outgoing = l.outgoing
  incoming : l'.incoming = l.incoming
  sending : l'.sending = l.sending
  alive : ∀ w, l'.alive w = true → l.alive w = true
  origin : l.ack = true → l'.origin = l.origin ∧ l'.ack = true

section

variable {l l' : Link} {arrived taken : List Datagram} {wrote : List TunnelFrame} {heard : List (Bool × List UInt8)}
  {sent : List (List UInt8)} {d : Datagram}

theorem Outflow.moved (h : Outflow l arrived wrote taken) (hm : LinkKept l l') : Outflow l' arrived wrote taken := by
  by_cases hack : l.ack = true
  · obtain ⟨horigin, hack'⟩ := hm.origin hack
    exact h.congr hack' hm.socket hm.received (by rw [hm.outgoing]) horigin hm.alive
  · obtain ⟨htaken, hreceived, hout, hwrote⟩ := h.idle (Bool.eq_false_iff.mpr hack)
    have hnone : datagrams (wrote ++ l'.outgoing) = [] := by
      rw [hm.outgoing, hout, hwrote]
      rfl
    refine ⟨?_, fun _ => ⟨htaken, hm.received.trans hreceived, hm.outgoing.trans hout, hwrote⟩, ?_, ?_, ?_, ?_⟩
    · rw [hm.socket, hm.received]
      exact h.arrived
    · rw [hwrote]
      exact List.nil_prefix
    · rw [hnone]
      exact fun _ => List.nil_prefix
    · rw [hnone, htaken]
      exact fun _ _ => rfl
    · rw [hnone]
      intro d hd
      cases hd

theorem Inflow.moved (h : Inflow l heard sent) (hm : LinkKept l l') : Inflow l' heard sent := by
  refine ⟨fun hf => ?_, h.inOrder, ?_, ?_⟩
  · have hack : l.ack = false := by
      cases hl : l.ack with
      | false => rfl
      | true =>
        rw [(hm.origin hl).2] at hf
        cases hf
    obtain ⟨hsending, hincoming, hsent⟩ := h.idle hack
    exact ⟨hm.sending.trans hsending, hm.incoming.trans hincoming, hsent⟩
  · rw [hm.sending, hm.incoming]
    exact fun hw => h.queued (hm.alive _ hw)
  · rw [hm.sending, hm.incoming]
    exact fun hw hr => h.whole (hm.alive _ hw) (hm.alive _ hr)

end

def RelayAction.aside (c : HexStr 32) : RelayAction → Bool
  | .work d _ => d ≠ c
  | .arrive d _ => d ≠ c
  | _ => true

/-- What a step besides those of the channel's workers and socket may do to the channel. -/
inductive Elsewhere (role : GatewayRole) (c : HexStr 32) (s s' : Relay) : Prop
  | same (hlink : s'.links.lookup c = s.links.lookup c) (hids : c ∈ s.retired_ids → c ∈ s'.retired_ids)
  | created (hnone : s.links.lookup c = none) (hfresh : c ∉ s.retired_ids)
      (hlink : s'.links.lookup c = some (.new role))
  | kept {l l' : Link} (hold : s.links.lookup c = some l) (hlink : s'.links.lookup c = some l') (hl : LinkKept l l')
  | gone (hlink : s'.links.lookup c = none) (hids : c ∈ s'.retired_ids)

section

variable {role : GatewayRole} {c d : HexStr 32} {l l' : Link} {s s' : Relay} {e : RelayEvent}

theorem LinkChange.kept (h : LinkChange role c l e l')
    (he : (∃ r address body, e = .accepted c r address body) ∨ e = .unconnected c ∨ e = .closed c) : LinkKept l l' := by
  cases h with
  | accepted hack =>
    refine ⟨rfl, rfl, rfl, rfl, rfl, fun _ hx => hx, fun hf => ?_⟩
    rw [hack] at hf
    cases hf
  | unconnected hack =>
    refine ⟨rfl, rfl, rfl, rfl, rfl, fun _ hx => hx, fun hf => ?_⟩
    rw [hack] at hf
    cases hf
  | closed => exact ⟨rfl, rfl, rfl, rfl, rfl, fun _ hx => hx, fun hf => ⟨rfl, hf⟩⟩
  | @worked _ x =>
    rcases he with ⟨r, address, body, he⟩ | he | he
    all_goals cases x <;> cases he
  | opened => rcases he with ⟨r, address, body, he⟩ | he | he <;> cases he
  | started => rcases he with ⟨r, address, body, he⟩ | he | he <;> cases he
  | resumed => rcases he with ⟨r, address, body, he⟩ | he | he <;> cases he
  | arrived => rcases he with ⟨r, address, body, he⟩ | he | he <;> cases he

theorem elsewhere_put (hd : s.links.lookup d = some l) (hlinks : s'.links = s.links.insert d l')
    (hids : s'.retired_ids = s.retired_ids) (hl : LinkKept l l') : Elsewhere role c s s' := by
  by_cases hdc : d = c
  · subst hdc
    exact .kept hd (by rw [hlinks, AList.lookup_insert]) hl
  · exact .same (by rw [hlinks, AList.lookup_insert_ne (Ne.symm hdc)]) (by rw [hids]; exact id)

theorem elsewhere_retire (hlinks : s'.links = s.links.erase d) (hids : s'.retired_ids = s.retired_ids.insert d) :
    Elsewhere role c s s' := by
  by_cases hdc : d = c
  · subst hdc
    exact .gone (by rw [hlinks, AList.lookup_erase]) (by rw [hids]; exact List.mem_insert_self)
  · refine .same (by rw [hlinks, AList.lookup_erase_ne (Ne.symm hdc)]) (fun h => ?_)
    rw [hids]
    exact List.mem_insert_of_mem h

theorem elsewhere_command (s : Relay) (operation : String) (body : Dict) (connected : Bool) :
    Elsewhere role c s (s.command role operation body connected).2 := by
  have hraise : Elsewhere role c s s.raise.2 := .same rfl id
  unfold Relay.command
  split
  · split
    · exact .same rfl id
    · exact hraise
  split
  · unfold Relay.routeAck
    split
    · exact hraise
    · rename_i d l hfind
      have hd := find_some hfind
      split
      · exact hraise
      · rename_i l' hl
        exact elsewhere_put hd rfl rfl ((acknowledge_unconnected hl).kept (.inr (.inl rfl)))
      · rename_i address l' hl
        exact elsewhere_put hd rfl rfl ((acknowledge_accepted hl).2.kept (.inl ⟨_, _, _, rfl⟩))
  split
  · unfold Relay.routeClose
    split
    · exact hraise
    · split
      · split
        · exact .same rfl id
        · exact hraise
      · rename_i d l hfind
        exact elsewhere_put (find_some hfind) rfl rfl ⟨rfl, rfl, rfl, rfl, rfl, fun _ hx => hx, fun hf => ⟨rfl, hf⟩⟩
  · exact hraise

theorem relayNext_elsewhere {a : RelayAction} (h : relayNext role s a = some (e, s')) (ha : a.aside c = true) :
    Elsewhere role c s s' := by
  cases a with
  | create d =>
    simp only [relayNext] at h
    split at h
    · cases h
    · rename_i hgood
      simp only [Bool.or_eq_true, Bool.not_eq_true', not_or, Bool.not_eq_false] at hgood
      obtain ⟨hd, hr⟩ := creates_fresh hgood.2
      cases h
      by_cases hdc : d = c
      · subst hdc
        exact .created (AList.lookup_eq_none.mpr hd) hr (AList.lookup_insert _)
      · exact .same (AList.lookup_insert_ne (Ne.symm hdc)) id
  | advertise d queued queued' =>
    simp only [relayNext] at h
    split at h
    · cases h
    rename_i l hd
    split at h
    · cases h
    obtain ⟨hlinks, hids, -⟩ := emit_links s queued
    split at h
    · rename_i s₁ he
      rw [he] at hlinks hids
      obtain ⟨hlinks', hids', -⟩ := retire_links s₁ d queued'
      cases h
      exact elsewhere_retire (hlinks'.trans (by rw [hlinks])) (hids'.trans (by rw [hids]))
    · rename_i request s₁ he
      rw [he] at hlinks hids
      cases h
      exact elsewhere_put hd (congrArg (AList.insert d _) hlinks) hids
        ⟨rfl, rfl, rfl, rfl, rfl, fun _ hx => hx, fun hf => ⟨rfl, hf⟩⟩
  | acked d queued =>
    simp only [relayNext] at h
    split at h
    · cases h
    rename_i l hd
    split at h
    · cases h
    split at h
    · cases h
      obtain ⟨hlinks, hids, -⟩ := retire_links s d queued
      exact elsewhere_retire hlinks hids
    · cases h
      exact elsewhere_put hd rfl rfl ⟨rfl, rfl, rfl, rfl, rfl, fun _ hx => hx, fun hf => ⟨rfl, hf⟩⟩
  | leave d queued =>
    simp only [relayNext] at h
    split at h
    · cases h
    split at h
    · cases h
    · cases h
      obtain ⟨hlinks, hids, -⟩ := retire_links s d queued
      exact elsewhere_retire hlinks hids
  | cancel d outlives =>
    simp only [relayNext] at h
    split at h
    · cases h
    rename_i l hd
    split at h
    · cases h
      exact elsewhere_put hd rfl rfl ⟨rfl, rfl, rfl, rfl, rfl, fun _ hx => alive_cancel hx, fun hf => ⟨rfl, hf⟩⟩
    · cases h
  | work d a =>
    have hdc : d ≠ c := of_decide_eq_true ha
    simp only [relayNext] at h
    split at h
    · cases h
    split at h
    · obtain ⟨⟨x, l'⟩, -, heq⟩ := Option.map_eq_some_iff.mp h
      cases heq
      exact .same (AList.lookup_insert_ne (Ne.symm hdc)) id
    · cases h
  | arrive d x =>
    have hdc : d ≠ c := of_decide_eq_true ha
    simp only [relayNext] at h
    split at h
    · cases h
    cases h
    exact .same (AList.lookup_insert_ne (Ne.symm hdc)) id
  | message queued =>
    obtain ⟨hlinks, hids, -⟩ := emit_links s queued
    cases h
    exact .same (by rw [hlinks]) (by rw [hids]; exact id)
  | command operation body connected =>
    simp only [relayNext] at h
    split at h
    · cases h
    · have hcommand : Elsewhere role c s (s.command role operation body connected).2 :=
        elsewhere_command s operation body connected
      rw [Option.some.inj h] at hcommand
      exact hcommand
  | close =>
    cases h
    have hmap := AList.lookup_mapValues (s := s.links) (f := fun l : Link => { l with closed := true }) c
    cases hc : s.links.lookup c with
    | none =>
      rw [hc] at hmap
      exact .same (hmap.trans hc.symm) id
    | some l =>
      rw [hc] at hmap
      exact .kept hc hmap ⟨rfl, rfl, rfl, rfl, rfl, fun _ hx => hx, fun hf => ⟨rfl, hf⟩⟩

end

end ArenaLab
