import ArenaLab.ChannelGate

/-! The steps of the whole gateway: what each leaves of its channels. -/

namespace ArenaLab

/-- One step of the gateway: nothing for the channels, a new one, one that moves, one that goes,
or all that are closed. -/
inductive RelayChange (role : GatewayRole) (s : Relay) : RelayEvent → Relay → Prop
  | same {e : RelayEvent} {s' : Relay} (he : e = .quiet ∨ e = .raised) (hlinks : s'.links = s.links)
      (hids : s'.retired_ids = s.retired_ids) (hcommands : s.commands = false → s'.commands = false) :
      RelayChange role s e s'
  | created {c : HexStr 32} (hc : c ∉ s.links) (hr : c ∉ s.retired_ids) :
      RelayChange role s .quiet (s.put c (.new role))
  | moved {c : HexStr 32} {l l' : Link} {e : RelayEvent} {s' : Relay} (hc : s.links.lookup c = some l)
      (hl : LinkChange role c l e l') (hlinks : s'.links = s.links.insert c l')
      (hids : s'.retired_ids = s.retired_ids) (hcommands : s.commands = false → s'.commands = false)
      (hheard : ∀ c request address body, e = .accepted c request address body → s.commands = true) :
      RelayChange role s e s'
  | retired {c : HexStr 32} {s' : Relay} (hc : c ∈ s.links) (hlinks : s'.links = s.links.erase c)
      (hids : s'.retired_ids = s.retired_ids.insert c) (hcommands : s.commands = false → s'.commands = false) :
      RelayChange role s (.retired c) s'
  | stopped {s' : Relay} (hlinks : s'.links = s.links.mapValues (fun l => { l with closed := true }))
      (hids : s'.retired_ids = s.retired_ids) (hcommands : s'.commands = false) : RelayChange role s .stopped s'

section

variable {role : GatewayRole} {e : RelayEvent} {c d : HexStr 32} {l l' : Link} {s s' : Relay}

theorem emit_links (s : Relay) (queued : Bool) : (s.emit queued).2.links = s.links ∧
    (s.emit queued).2.retired_ids = s.retired_ids ∧ (s.emit queued).2.commands = s.commands := by
  unfold Relay.emit
  split <;> exact ⟨rfl, rfl, rfl⟩

theorem retire_links (s : Relay) (c : HexStr 32) (queued : Bool) : (s.retire c queued).links = s.links.erase c ∧
    (s.retire c queued).retired_ids = s.retired_ids.insert c ∧ (s.retire c queued).commands = s.commands := by
  simp only [Relay.retire]
  split
  · exact ⟨rfl, rfl, rfl⟩
  · exact emit_links _ queued

theorem retired_change (s : Relay) (queued : Bool) (hc : s.links.lookup c = some l) :
    RelayChange role s (.retired c) (s.retire c queued) := by
  obtain ⟨hlinks, hids, hcommands⟩ := retire_links s c queued
  exact .retired (AList.mem_of_lookup hc) hlinks hids (fun h => hcommands.trans h)

theorem find_some {name : Option Json} (h : s.find name = some (c, l)) : s.links.lookup c = some l := by
  unfold Relay.find at h
  split at h
  · split at h
    · obtain ⟨x, hx, heq⟩ := Option.map_eq_some_iff.mp h
      cases heq
      exact hx
    · cases h
  · cases h

theorem integer_some {value : Option Json} {low high n : ℤ} (h : GatewayProtocol.integer value low high = some n) :
    value = some (.int n) ∧ low ≤ n ∧ n ≤ high := by
  unfold GatewayProtocol.integer at h
  split at h
  · split at h
    · rename_i hrange
      cases h
      exact ⟨rfl, hrange⟩
    · cases h
  · cases h

theorem isStr_some {value : Option Json} {text : String} (h : Json.isStr value text = true) :
    value = some (.str text) := by
  unfold Json.isStr at h
  split at h
  · rw [beq_iff_eq] at h
    rw [h]
  · cases h

theorem answers_some {body : Dict} (h : l.answers c body = true) :
    l.ack = false ∧ l.closed = false ∧ l.route_request ≠ 0 ∧ body.get "channel_id" = some (.str c.text) ∧
      body.get "route_request_id" = some (.int l.route_request) := by
  simp only [Link.answers, Bool.and_eq_true, beq_iff_eq, Bool.not_eq_true'] at h
  obtain ⟨⟨⟨hname, hrequest⟩, hack⟩, hclosed⟩ := h
  obtain ⟨hvalue, hlow, -⟩ := integer_some hrequest
  exact ⟨hack, hclosed, by omega, isStr_some hname, hvalue⟩

theorem acknowledge_accepted {body : Dict} {connected : Bool} {address : Address}
    (h : l.acknowledge role c body connected = .accepted address l') :
    l'.route_request = l.route_request ∧ LinkChange role c l (.accepted c l.route_request address body) l' := by
  unfold Link.acknowledge at h
  split at h
  · split at h
    · cases h
    · rename_i port hgood
      simp only [Bool.or_eq_true, Bool.not_eq_true', not_or, Bool.not_eq_false] at hgood
      obtain ⟨hack, hclosed, hrequest, hname, hanswer⟩ := answers_some hgood.2
      cases h
      exact ⟨rfl, .accepted hack hclosed hrequest ⟨hname, hanswer, rfl⟩ (.inr ⟨port, rfl, rfl, rfl⟩)⟩
  · split at h
    · cases h
    · rename_i hgood
      simp only [Bool.or_eq_true, Bool.not_eq_true', not_or, Bool.not_eq_false] at hgood
      obtain ⟨hack, hclosed, hrequest, hname, hanswer⟩ := answers_some hgood.2
      split at h
      · cases h
      · rename_i port hport
        obtain ⟨hvalue, hlow, hhigh⟩ := integer_some hport
        have hnat : ((port.toNat : ℕ) : ℤ) = port := by omega
        split at h <;> cases h
        refine ⟨rfl, .accepted hack hclosed hrequest ⟨hname, hanswer, port.toNat, by omega, by omega, ?_, rfl⟩
          (.inl ⟨rfl, rfl⟩)⟩
        rw [hvalue, hnat]

theorem acknowledge_unconnected {body : Dict} {connected : Bool}
    (h : l.acknowledge role c body connected = .unconnected l') : LinkChange role c l (.unconnected c) l' := by
  unfold Link.acknowledge at h
  split at h
  · split at h <;> cases h
  · split at h
    · cases h
    · rename_i hgood
      simp only [Bool.or_eq_true, Bool.not_eq_true', not_or, Bool.not_eq_false] at hgood
      obtain ⟨hack, -⟩ := answers_some hgood.2
      split at h
      · cases h
      · split at h <;> cases h
        exact .unconnected hack rfl

theorem raise_change (s : Relay) : RelayChange role s s.raise.1 s.raise.2 :=
  .same (.inr rfl) rfl rfl (fun _ => rfl)

theorem routeAck_change (s : Relay) (body : Dict) (connected : Bool) (hheard : s.commands = true) :
    RelayChange role s (s.routeAck role body connected).1 (s.routeAck role body connected).2 := by
  unfold Relay.routeAck
  split
  · exact raise_change s
  · rename_i c l hfind
    have hc := find_some hfind
    split
    · exact raise_change s
    · rename_i l' hl
      exact .moved hc (acknowledge_unconnected hl) rfl rfl (fun _ => rfl) (by simp)
    · rename_i address l' hl
      obtain ⟨hsame, hl⟩ := acknowledge_accepted hl
      rw [hsame]
      exact .moved hc hl rfl rfl id (fun _ _ _ _ _ => hheard)

theorem routeClose_change (s : Relay) (body : Dict) :
    RelayChange role s (s.routeClose body).1 (s.routeClose body).2 := by
  unfold Relay.routeClose
  split
  · exact raise_change s
  · split
    · split
      · exact .same (.inl rfl) rfl rfl id
      · exact raise_change s
    · rename_i c l hfind
      exact .moved (find_some hfind) .closed rfl rfl id (by simp)

theorem command_change (s : Relay) (operation : String) (body : Dict) (connected : Bool)
    (hheard : s.commands = true) :
    RelayChange role s (s.command role operation body connected).1 (s.command role operation body connected).2 := by
  unfold Relay.command
  split
  · split
    · exact .same (.inl rfl) rfl rfl id
    · exact raise_change s
  split
  · exact routeAck_change s body connected hheard
  split
  · exact routeClose_change s body
  · exact raise_change s

theorem creates_fresh (h : s.creates role c = true) : c ∉ s.links ∧ c ∉ s.retired_ids := by
  rw [AList.mem_keys]
  unfold Relay.creates at h
  split at h
  · simp only [Bool.and_eq_true, Bool.not_eq_true', List.contains_eq_mem, decide_eq_false_iff_not] at h
    exact ⟨h.1.2, h.2⟩
  · simp only [Bool.and_eq_true, List.isEmpty_iff] at h
    rw [h.1, h.2]
    simp

theorem relayNext_change {a : RelayAction} (h : relayNext role s a = some (e, s')) : RelayChange role s e s' := by
  cases a with
  | create c =>
    simp only [relayNext] at h
    split at h
    · cases h
    · rename_i hgood
      simp only [Bool.or_eq_true, Bool.not_eq_true', not_or, Bool.not_eq_false] at hgood
      obtain ⟨hc, hr⟩ := creates_fresh hgood.2
      cases h
      exact .created hc hr
  | advertise c queued queued' =>
    simp only [relayNext] at h
    split at h
    · cases h
    rename_i l hc
    split at h
    · cases h
    rename_i hstage
    simp only [Bool.or_eq_true, decide_eq_true_eq, not_or, not_not] at hstage
    obtain ⟨hlinks, hids, hcommands⟩ := emit_links s queued
    split at h
    · rename_i s₁ he
      rw [he] at hlinks hids hcommands
      obtain ⟨hlinks', hids', hcommands'⟩ := retire_links s₁ c queued'
      cases h
      refine .retired (AList.mem_of_lookup hc) (hlinks'.trans ?_) (hids'.trans ?_) ?_
      · rw [hlinks]
      · rw [hids]
      · intro hf
        rw [hcommands', hcommands, hf]
    · rename_i request s₁ he
      rw [he] at hlinks hids hcommands
      cases h
      refine .moved hc (.opened hstage.2) ?_ hids (fun hf => hcommands.trans hf) (by simp)
      rw [← hlinks]
      rfl
  | acked c queued =>
    simp only [relayNext] at h
    split at h
    · cases h
    rename_i l hc
    split at h
    · cases h
    rename_i hgood
    simp only [Bool.or_eq_true, decide_eq_true_eq, Bool.not_eq_true', not_or, not_not, Bool.not_eq_false] at hgood
    split at h
    · cases h
      exact retired_change s queued hc
    · rename_i hopen
      cases h
      exact .moved hc (.started hgood.2 (by simpa using hopen) hgood.1.2) rfl rfl id (by simp)
  | leave c queued =>
    simp only [relayNext] at h
    split at h
    · cases h
    rename_i l hc
    split at h
    · cases h
    · cases h
      exact retired_change s queued hc
  | cancel c outlives =>
    simp only [relayNext] at h
    split at h
    · cases h
    rename_i l hc
    split at h
    · rename_i hworks
      cases h
      exact .moved hc (.resumed outlives hworks) rfl rfl id (by simp)
    · cases h
  | work c a =>
    simp only [relayNext] at h
    split at h
    · cases h
    rename_i l hc
    split at h
    · rename_i hworks
      obtain ⟨⟨x, l'⟩, hw, heq⟩ := Option.map_eq_some_iff.mp h
      cases heq
      refine .moved hc (.worked hworks hw) rfl rfl id ?_
      cases x <;> simp [WorkerEvent.on]
    · cases h
  | arrive c d =>
    simp only [relayNext] at h
    split at h
    · cases h
    rename_i l hc
    cases h
    exact .moved hc (.arrived d) rfl rfl id (by simp)
  | message queued =>
    obtain ⟨hlinks, hids, hcommands⟩ := emit_links s queued
    cases h
    exact .same (.inl rfl) hlinks hids (fun hf => hcommands.trans hf)
  | command operation body connected =>
    simp only [relayNext] at h
    split at h
    · cases h
    · rename_i hheard
      have hc : RelayChange role s _ _ := command_change s operation body connected (by simpa using hheard)
      rw [Option.some.inj h] at hc
      exact hc
  | close =>
    cases h
    exact .stopped rfl rfl rfl

end

end ArenaLab
