import ArenaLab.PeerRoutes

/-! The four dictionaries of the route table and the admission boundary stay consistent. -/

namespace ArenaLab

structure RouteInv (s : PeerRoutes) : Prop where
  routes_le : s.routes.keys.length ≤ 8
  ports_le : s.ports.keys.length ≤ 256
  same_size : s.ports.keys.length = s.used_channels.keys.length
  named : ∀ c, c ∈ s.used_channels → c ≠ ""
  endpoint : ∀ c r, s.routes.lookup c = some r → c ∈ s.used_channels ∧
    s.ports.lookup (r.body.get "port").toInt = some c ∧ ipcHexId (r.body.get "attestor") 64 = true
  inverse : ∀ id c, s.peers.lookup id = some c ↔
    id ≠ 0 ∧ ∃ r, s.routes.lookup c = some r ∧ r.peer_id = id
  admission : AdmissionInv s.admission
  exactly : ∀ id, id ∈ s.admission.connections ↔ id ∈ s.peers

inductive RouteChange (s : PeerRoutes) : RouteEvent → PeerRoutes → Prop
  | opened {body : Dictionary} {channel : String} {port : ℤ} (hclosed : s.closed = false)
      (hroutes : s.routes.keys.length < 8) (hports : s.ports.keys.length < 256)
      (hchannel : (body.get "channel_id").text = channel) (hport : (body.get "port").toInt = port)
      (hname : channel ≠ "") (hattestor : ipcHexId (body.get "attestor") 64 = true)
      (hfresh : channel ∉ s.used_channels) (hfree : port ∉ s.ports) :
      RouteChange s (.opened channel port) { s with
        routes := s.routes.insert channel ⟨body, 0⟩
        ports := s.ports.insert port channel
        used_channels := s.used_channels.insert channel true }
  | refused : RouteChange s .refused s
  | consumed {id port now : ℤ} {channel : String} {route : Route} (hserial : s.serial < maxId)
      (hclosed : s.closed = false) (hid : 2 ≤ id) (hnew : id ∉ s.peers)
      (hchannel : (s.ports.lookup port).getD "" = channel) (hroute : s.routes.lookup channel = some route)
      (hunused : route.peer_id = 0) :
      RouteChange s (.consumed id channel (route.body.get "attestor") (s.admission.connected id now).2) { s with
        serial := s.serial + 1
        routes := s.routes.insert channel { route with peer_id := id }
        peers := s.peers.insert id channel
        admission := (s.admission.connected id now).1 }
  | retired (channel : String) : RouteChange s (.retired channel (s.retire channel).1) (s.retire channel).2
  | closed {e : RouteEvent} (he : e = .refused ∨ e = .closed) : RouteChange s e s.close

section

variable {s s' : PeerRoutes} {e : RouteEvent} {τ : List RouteEvent}

theorem hexId_ne {v : Variant} {n : ℕ} (h : ipcHexId v n = true) (hn : 0 < n) : v.text ≠ "" := by
  cases v with
  | string t =>
    simp only [ipcHexId, Bool.and_eq_true, decide_eq_true_eq] at h
    rintro rfl
    simp at h
    omega
  | _ => cases h

theorem openRoute_change (s : PeerRoutes) (body : Dictionary) :
    (∃ s', s.openRoute body = (true, s') ∧
      RouteChange s (.opened (body.get "channel_id").text (body.get "port").toInt) s') ∨
    s.openRoute body = (false, s) := by
  simp only [PeerRoutes.openRoute]
  split
  · exact .inr rfl
  · rename_i hroom
    simp only [Bool.or_eq_true, decide_eq_true_eq, not_or, Bool.not_eq_true, not_le] at hroom
    split
    · exact .inr rfl
    · split
      · exact .inr rfl
      · rename_i hadmits
        simp only [PeerRoutes.admits, Bool.not_eq_true', Bool.not_eq_false, Bool.and_eq_true] at hadmits
        obtain ⟨⟨⟨⟨⟨hchannel, hattestor⟩, _⟩, _⟩, _⟩, _⟩ := hadmits
        split
        · exact .inr rfl
        · rename_i hfresh
          rw [not_or] at hfresh
          exact .inl ⟨_, rfl, .opened hroom.1.1 hroom.1.2 hroom.2 rfl rfl (hexId_ne hchannel (by omega))
            hattestor hfresh.1 hfresh.2⟩

theorem consume_change (s : PeerRoutes) (id : ℤ) (address : String) (port now : ℤ) :
    (∃ c s', s.consume id address port now = (some c, s') ∧
      RouteChange s (.consumed id c.channel_id c.attestor c.context) s') ∨
    ∃ s', s.consume id address port now = (none, s') ∧ RouteChange s .refused s' := by
  simp only [PeerRoutes.consume]
  split
  · exact .inr ⟨_, rfl, .closed (.inl rfl)⟩
  · rename_i hserial
    split
    · exact .inr ⟨_, rfl, .refused⟩
    · rename_i hopen
      simp only [ipcNumber, Bool.or_eq_true, not_or, Bool.not_eq_true, Bool.not_eq_true', Bool.not_eq_false,
        Bool.and_eq_true, decide_eq_true_eq] at hopen
      obtain ⟨⟨⟨hclosed, hid, _⟩, hnew⟩, _⟩ := hopen
      split
      · exact .inr ⟨_, rfl, .refused⟩
      · rename_i route hroute
        split
        · exact .inr ⟨_, rfl, .refused⟩
        · rename_i hunused
          exact .inl ⟨_, _, rfl, .consumed (Int.not_le.mp hserial) hclosed hid hnew rfl hroute
            (not_not.mp hunused)⟩

theorem routeStep_change (h : RouteStep s e s') : RouteChange s e s' := by
  obtain ⟨a, ha⟩ := h
  cases a with
  | openRoute body =>
    rcases openRoute_change s body with ⟨s₁, he, hc⟩ | he
    · simp only [routeNext, he, Option.some.injEq, Prod.mk.injEq] at ha
      obtain ⟨rfl, rfl⟩ := ha
      exact hc
    · simp only [routeNext, he, Option.some.injEq, Prod.mk.injEq] at ha
      obtain ⟨rfl, rfl⟩ := ha
      exact .refused
  | consume id address port now =>
    rcases consume_change s id address port now with ⟨c, s₁, he, hc⟩ | ⟨s₁, he, hc⟩
    · simp only [routeNext, he, Option.some.injEq, Prod.mk.injEq] at ha
      obtain ⟨rfl, rfl⟩ := ha
      exact hc
    · simp only [routeNext, he, Option.some.injEq, Prod.mk.injEq] at ha
      obtain ⟨rfl, rfl⟩ := ha
      exact hc
  | retire channel =>
    obtain ⟨rfl, rfl⟩ := Prod.mk.inj (Option.some.inj ha)
    exact .retired channel
  | close =>
    obtain ⟨rfl, rfl⟩ := Prod.mk.inj (Option.some.inj ha)
    exact .closed (.inr rfl)

theorem routeInv_new (server_run game_session : String) : RouteInv (.new server_run game_session) where
  routes_le := by simp [PeerRoutes.new]
  ports_le := by simp [PeerRoutes.new]
  same_size := rfl
  named := by
    intro c hc
    exact absurd hc (AList.notMem_empty c)
  endpoint := by
    intro c r hr
    cases hr
  inverse := by
    intro id c
    constructor
    · intro hf
      cases hf
    · rintro ⟨_, r, hf, _⟩
      cases hf
  admission := admissionInv_new
  exactly := by
    intro id
    exact ⟨fun hf => absurd hf (AList.notMem_empty id), fun hf => absurd hf (AList.notMem_empty id)⟩

theorem RouteInv.opened {body : Dictionary} {channel : String} {port : ℤ} (hi : RouteInv s)
    (hroutes : s.routes.keys.length < 8) (hports : s.ports.keys.length < 256)
    (hport : (body.get "port").toInt = port) (hname : channel ≠ "")
    (hattestor : ipcHexId (body.get "attestor") 64 = true) (hfresh : channel ∉ s.used_channels)
    (hfree : port ∉ s.ports) : RouteInv { s with
      routes := s.routes.insert channel ⟨body, 0⟩
      ports := s.ports.insert port channel
      used_channels := s.used_channels.insert channel true } := by
  have hnone : s.routes.lookup channel = none := by
    by_contra hf
    obtain ⟨r, hr⟩ := Option.ne_none_iff_exists'.mp hf
    exact hfresh (hi.endpoint channel r hr).1
  constructor
  · show (s.routes.insert channel ⟨body, 0⟩).keys.length ≤ 8
    have hle := List.length_erase_le (a := channel) (l := s.routes.keys)
    rw [AList.keys_insert, List.length_cons]
    omega
  · show (s.ports.insert port channel).keys.length ≤ 256
    have hle := List.length_erase_le (a := port) (l := s.ports.keys)
    rw [AList.keys_insert, List.length_cons]
    omega
  · show (s.ports.insert port channel).keys.length = (s.used_channels.insert channel true).keys.length
    rw [AList.keys_insert, AList.keys_insert, List.erase_of_not_mem (AList.mem_keys.not.mp hfree),
      List.erase_of_not_mem (AList.mem_keys.not.mp hfresh), List.length_cons, List.length_cons, hi.same_size]
  · intro c hc
    rcases (AList.mem_insert _).mp hc with rfl | hc
    · exact hname
    · exact hi.named c hc
  · intro c r hr
    change (s.routes.insert channel ⟨body, 0⟩).lookup c = some r at hr
    by_cases he : c = channel
    · subst he
      rw [AList.lookup_insert] at hr
      obtain rfl := Option.some.inj hr
      refine ⟨(AList.mem_insert _).mpr (.inl rfl), ?_, hattestor⟩
      show (s.ports.insert port c).lookup (body.get "port").toInt = some c
      rw [hport, AList.lookup_insert]
    · rw [AList.lookup_insert_ne he] at hr
      obtain ⟨hused, hp, hatt⟩ := hi.endpoint c r hr
      refine ⟨(AList.mem_insert _).mpr (.inr hused), ?_, hatt⟩
      show (s.ports.insert port channel).lookup _ = some c
      rw [AList.lookup_insert_ne]
      · exact hp
      · rintro rfl
        exact hfree (AList.mem_of_lookup hp)
  · intro id c
    show s.peers.lookup id = some c ↔
      id ≠ 0 ∧ ∃ r, (s.routes.insert channel ⟨body, 0⟩).lookup c = some r ∧ r.peer_id = id
    rw [hi.inverse]
    by_cases he : c = channel
    · subst he
      rw [AList.lookup_insert, hnone]
      constructor
      · rintro ⟨_, r, hf, _⟩
        cases hf
      · rintro ⟨hid, r, hr, hpeer⟩
        rw [← Option.some.inj hr] at hpeer
        exact absurd hpeer.symm hid
    · rw [AList.lookup_insert_ne he]
  · exact hi.admission
  · exact hi.exactly

theorem RouteInv.consumed {id now : ℤ} {channel : String} {route : Route} (hi : RouteInv s)
    (hid : 2 ≤ id) (hnew : id ∉ s.peers) (hroute : s.routes.lookup channel = some route)
    (hunused : route.peer_id = 0) : RouteInv { s with
      serial := s.serial + 1
      routes := s.routes.insert channel { route with peer_id := id }
      peers := s.peers.insert id channel
      admission := (s.admission.connected id now).1 } := by
  constructor
  · show (s.routes.insert channel { route with peer_id := id }).keys.length ≤ 8
    have hle := hi.routes_le
    have hmem := AList.mem_keys.mp (AList.mem_of_lookup hroute)
    have hpos := List.length_pos_of_mem hmem
    rw [AList.keys_insert, List.length_cons, List.length_erase_of_mem hmem]
    omega
  · exact hi.ports_le
  · exact hi.same_size
  · exact hi.named
  · intro c r hr
    change (s.routes.insert channel { route with peer_id := id }).lookup c = some r at hr
    by_cases he : c = channel
    · subst he
      rw [AList.lookup_insert] at hr
      obtain rfl := Option.some.inj hr
      exact hi.endpoint c route hroute
    · rw [AList.lookup_insert_ne he] at hr
      exact hi.endpoint c r hr
  · intro other c
    show (s.peers.insert id channel).lookup other = some c ↔ other ≠ 0 ∧
      ∃ r, (s.routes.insert channel { route with peer_id := id }).lookup c = some r ∧ r.peer_id = other
    by_cases ho : other = id
    · subst ho
      rw [AList.lookup_insert]
      constructor
      · intro hc
        obtain rfl := Option.some.inj hc
        exact ⟨by omega, _, AList.lookup_insert _, rfl⟩
      · rintro ⟨_, r, hr, hpeer⟩
        by_cases he : c = channel
        · rw [he]
        · rw [AList.lookup_insert_ne he] at hr
          have hp := (hi.inverse other c).mpr ⟨by omega, r, hr, hpeer⟩
          exact absurd (AList.mem_of_lookup hp) hnew
    · rw [AList.lookup_insert_ne ho, hi.inverse]
      by_cases he : c = channel
      · subst he
        rw [AList.lookup_insert, hroute]
        constructor
        · rintro ⟨hne, r, hr, hpeer⟩
          rw [← Option.some.inj hr, hunused] at hpeer
          exact absurd hpeer.symm hne
        · rintro ⟨_, r, hr, hpeer⟩
          rw [← Option.some.inj hr] at hpeer
          exact absurd hpeer.symm ho
      · rw [AList.lookup_insert_ne he]
  · exact hi.admission.connected id now
  · intro other
    show other ∈ (s.admission.connected id now).1.connections ↔ other ∈ s.peers.insert id channel
    rw [← AList.lookup_isSome, connected_lookup, AList.mem_insert]
    by_cases ho : other = id
    · simp [ho]
    · simp only [ho, if_false, false_or]
      rw [AList.lookup_isSome]
      exact hi.exactly other

theorem RouteInv.retire (hi : RouteInv s) (channel : String) : RouteInv (s.retire channel).2 := by
  simp only [PeerRoutes.retire]
  split
  · exact hi
  · rename_i route hroute
    constructor
    · show (s.routes.erase channel).keys.length ≤ 8
      have hle := List.length_erase_le (a := channel) (l := s.routes.keys)
      have h8 := hi.routes_le
      rw [AList.keys_erase]
      omega
    · exact hi.ports_le
    · exact hi.same_size
    · exact hi.named
    · intro c r hr
      change (s.routes.erase channel).lookup c = some r at hr
      by_cases he : c = channel
      · rw [he, AList.lookup_erase] at hr
        cases hr
      · rw [AList.lookup_erase_ne he] at hr
        exact hi.endpoint c r hr
    · intro id c
      show (s.peers.erase route.peer_id).lookup id = some c ↔
        id ≠ 0 ∧ ∃ r, (s.routes.erase channel).lookup c = some r ∧ r.peer_id = id
      by_cases he : c = channel
      · subst he
        rw [AList.lookup_erase]
        refine ⟨fun hf => ?_, fun ⟨_, r, hf, _⟩ => (by cases hf)⟩
        by_cases ho : id = route.peer_id
        · rw [ho, AList.lookup_erase] at hf
          cases hf
        · rw [AList.lookup_erase_ne ho, hi.inverse] at hf
          obtain ⟨_, r, hr, hpeer⟩ := hf
          rw [hroute] at hr
          rw [← Option.some.inj hr] at hpeer
          exact absurd hpeer.symm ho
      · rw [AList.lookup_erase_ne he]
        by_cases ho : id = route.peer_id
        · subst ho
          rw [AList.lookup_erase]
          refine ⟨fun hf => (by cases hf), fun hf => ?_⟩
          have hp := (hi.inverse route.peer_id c).mpr hf
          have hp' := (hi.inverse route.peer_id channel).mpr ⟨hf.1, route, hroute, rfl⟩
          rw [hp] at hp'
          exact absurd (Option.some.inj hp') he
        · rw [AList.lookup_erase_ne ho]
          exact hi.inverse id c
    · exact hi.admission.disconnected route.peer_id
    · intro id
      show id ∈ (s.admission.disconnected route.peer_id).connections ↔ id ∈ s.peers.erase route.peer_id
      rw [← AList.lookup_isSome, disconnected_lookup, AList.mem_erase]
      by_cases ho : id = route.peer_id
      · simp [ho]
      · simp only [ho, if_false, ne_eq, not_false_eq_true, true_and]
        rw [AList.lookup_isSome]
        exact hi.exactly id

theorem retire_lookup (s : PeerRoutes) (channel c : String) :
    (s.retire channel).2.routes.lookup c = if c = channel then none else s.routes.lookup c := by
  simp only [PeerRoutes.retire]
  split
  · rename_i hnone
    by_cases he : c = channel
    · rw [if_pos he, he, hnone]
    · rw [if_neg he]
  · by_cases he : c = channel
    · rw [if_pos he, he, AList.lookup_erase]
    · rw [if_neg he, AList.lookup_erase_ne he]

/-- What no retirement touches: the tombstones and the life of the table. -/
structure SameTombs (s s' : PeerRoutes) : Prop where
  ports : s'.ports = s.ports
  used : s'.used_channels = s.used_channels
  closed : s'.closed = s.closed
  run_id : s'.run_id = s.run_id
  session : s'.session = s.session

theorem retire_tombs (s : PeerRoutes) (channel : String) : SameTombs s (s.retire channel).2 := by
  simp only [PeerRoutes.retire]
  split <;> exact ⟨rfl, rfl, rfl, rfl, rfl⟩

theorem retireAll (hi : RouteInv s) (cs : List String) :
    RouteInv (cs.foldl (fun s channel => (s.retire channel).2) s) ∧
    SameTombs s (cs.foldl (fun s channel => (s.retire channel).2) s) ∧
    ∀ c, (cs.foldl (fun s channel => (s.retire channel).2) s).routes.lookup c =
      if c ∈ cs then none else s.routes.lookup c := by
  induction cs generalizing s with
  | nil => exact ⟨hi, ⟨rfl, rfl, rfl, rfl, rfl⟩, fun c => by simp⟩
  | cons channel cs ih =>
    obtain ⟨hinv, htombs, hlook⟩ := ih (hi.retire channel)
    have hone := retire_tombs s channel
    refine ⟨hinv, ⟨htombs.ports.trans hone.ports, htombs.used.trans hone.used,
      htombs.closed.trans hone.closed, htombs.run_id.trans hone.run_id,
      htombs.session.trans hone.session⟩, ?_⟩
    intro c
    rw [List.foldl_cons, hlook, retire_lookup]
    by_cases hc : c ∈ cs
    · simp [hc]
    · by_cases he : c = channel <;> simp [hc, he]

theorem RouteInv.shut (hi : RouteInv s) : RouteInv { s with closed := true } :=
  ⟨hi.routes_le, hi.ports_le, hi.same_size, hi.named, hi.endpoint, hi.inverse, hi.admission, hi.exactly⟩

theorem peers_empty (hi : RouteInv s) (hnone : ∀ c, s.routes.lookup c = none) (id : ℤ) : id ∉ s.peers := by
  intro hid
  obtain ⟨c, hc⟩ := AList.exists_lookup hid
  obtain ⟨_, r, hr, _⟩ := (hi.inverse id c).mp hc
  rw [hnone] at hr
  cases hr

/-- Closing empties the table and keeps its tombstones. -/
theorem RouteInv.close (hi : RouteInv s) : RouteInv s.close ∧ SameTombs { s with closed := true } s.close ∧
    ∀ c, s.close.routes.lookup c = none := by
  obtain ⟨s₁, hfold⟩ : ∃ s₁, s₁ = s.routes.keys.foldl (fun (s : PeerRoutes) channel => (s.retire channel).2)
      { s with closed := true } := ⟨_, rfl⟩
  obtain ⟨hinv, htombs, hlook⟩ := retireAll hi.shut s.routes.keys
  rw [← hfold] at hinv htombs hlook
  have hnone : ∀ c, s₁.routes.lookup c = none := by
    intro c
    rw [hlook]
    split
    · rfl
    · rename_i hc
      exact AList.lookup_eq_none.mpr (AList.mem_keys.not.mpr hc)
  have hclear : s₁.admission.clear = s₁.admission := by
    have hkeys : s₁.admission.connections.keys = [] := by
      apply List.eq_nil_iff_forall_not_mem.mpr
      intro id hid
      exact peers_empty hinv hnone id ((hinv.exactly id).mp (AList.mem_keys.mpr hid))
    rw [Admission.clear, hkeys]
    rfl
  have hclose : s.close = s₁ := by
    rw [PeerRoutes.close]
    simp only
    rw [← hfold, hclear]
  rw [hclose]
  exact ⟨hinv, htombs, hnone⟩

theorem RouteInv.change (hi : RouteInv s) (hs : RouteChange s e s') : RouteInv s' := by
  cases hs with
  | opened _ hroutes hports _ hport hname hattestor hfresh hfree =>
    exact hi.opened hroutes hports hport hname hattestor hfresh hfree
  | refused => exact hi
  | consumed _ _ hid hnew _ hroute hunused => exact hi.consumed hid hnew hroute hunused
  | retired channel => exact hi.retire channel
  | closed => exact hi.close.1

theorem RouteInv.step (hi : RouteInv s) (hs : RouteStep s e s') : RouteInv s' :=
  hi.change (routeStep_change hs)

end

end ArenaLab
