import ArenaLab.NetFrames

/-! Who is in the game: every operation of the server keeps its tables in agreement with
each other and with the admitted connections. -/

namespace ArenaLab

/-- The invariant of the tables and of the contexts behind them. -/
structure RosterInv (s : NetServer) : Prop where
  contexts : HeldInv (· ≠ .closed) s.admission
  detectors : ∀ id, id ∈ s.detectors ↔ id ∈ s.members
  admitted : ∀ id, id ∈ s.members ↔ s.admission.admitted id = true
  pawns : ∀ id, id ∈ s.pawns → id ∈ s.members
  inputs : ∀ id, id ∈ s.inputs → id ∈ s.pawns
  names : ∀ id other m m', s.members.lookup id = some m → s.members.lookup other = some m' →
    m.name = m'.name → id = other
  peers : ∀ id c, s.admission.connection id = some c → id ∈ s.peers
  past : ∀ id c, s.admission.connection id = some c → c.last_input_tick ≤ s.tick
  clock : 0 ≤ s.tick

/-- What an admission decides; a hello that is accepted finds its peer pending. -/
structure Accepts (a : Admission) (id : ℤ) (nickname : String) (phase : ServerPhase)
    (members : AList (fun _ : ℤ => Member)) (a' : Admission) : Prop where
  updated : a' = a.update id fun c => { c with state := .admitted }
  pending : ∃ c, a.connection id = some c ∧ c.state = .pending
  phase : phase ≠ .inMatch
  fresh : ∀ other m, members.lookup other = some m → m.name ≠ nickname

/-- An intent that passes every check of `accept_intent`. -/
structure Passes (s : NetServer) (id : ℤ) (x : AcceptedIntent) (s' : NetServer) : Prop where
  pawn : id ∈ s.pawns
  context : ∃ c, s.admission.connection id = some c ∧ c.generation = x.generation ∧ c.state = .admitted ∧
    c.last_sequence < x.seq ∧ c.last_input_tick ≠ s.tick
  tick : x.tick = s.tick
  admission : s'.admission = s.admission.update id fun c => { c with last_sequence := x.seq, last_input_tick := s.tick }
  inputs : ∃ input, s'.inputs = s.inputs.insert id input
  rest : s'.members = s.members ∧ s'.detectors = s.detectors ∧ s'.pawns = s.pawns ∧ s'.phase = s.phase ∧
    s'.peers = s.peers ∧ s'.tick = s.tick ∧ s'.log = s.log

section

variable {s s' : NetServer} {a a' : Admission} {id other now version expected : ℤ} {nickname value : String}
  {development : Bool} {phase : ServerPhase} {members : AList (fun _ : ℤ => Member)}
  {x : AcceptedIntent}

theorem hello_answer {answer : Hello}
    (h : a.hello id version expected nickname development phase members = (answer, a')) :
    answer ≠ .accept ∧ a' = a ∨ answer = .accept ∧ Accepts a id nickname phase members a' := by
  unfold Admission.hello at h
  split at h
  · cases h
    exact .inl ⟨by decide, rfl⟩
  · rename_i c hc
    split at h
    · cases h
      exact .inl ⟨by decide, rfl⟩
    · rename_i hpending
      split at h
      · cases h
        exact .inl ⟨by decide, rfl⟩
      · split at h
        · cases h
          exact .inl ⟨by decide, rfl⟩
        · rename_i hphase
          split at h
          · cases h
            exact .inl ⟨by decide, rfl⟩
          · rename_i hname
            split at h
            · cases h
              exact .inl ⟨by decide, rfl⟩
            · cases h
              refine .inr ⟨rfl, rfl, ⟨c, hc, not_not.mp hpending⟩, hphase, ?_⟩
              intro other m hm heq
              refine hname (List.any_eq_true.mpr ⟨⟨other, m⟩, AList.mem_lookup_iff.mp hm, ?_⟩)
              rw [heq]
              exact decide_eq_true rfl

theorem acceptIntent_cases {i : Intent} {accepted : Option AcceptedIntent}
    (h : s.acceptIntent id value i = (accepted, s')) :
    accepted = none ∧ s' = s ∨ ∃ x, accepted = some x ∧ Passes s id x s' := by
  unfold NetServer.acceptIntent at h
  split at h
  · cases h
    exact .inl ⟨rfl, rfl⟩
  · split at h
    · cases h
      exact .inl ⟨rfl, rfl⟩
    · rename_i hallowed
      simp only [not_or, not_not, Bool.not_eq_true', Bool.not_eq_false] at hallowed
      obtain ⟨hpermits, hpawn, -⟩ := hallowed
      split at h
      · cases h
        exact .inl ⟨rfl, rfl⟩
      · rename_i c hc
        split at h
        · cases h
          exact .inl ⟨rfl, rfl⟩
        · rename_i hseq
          have hstate : c.state = .admitted := by
            rw [Admission.permits, Bool.and_eq_true, Admission.admitted, hc] at hpermits
            exact of_decide_eq_true hpermits.1
          split at h
          · split at h
            · cases h
              exact .inl ⟨rfl, rfl⟩
            · split at h
              · cases h
                exact .inl ⟨rfl, rfl⟩
              · split at h
                · cases h
                  exact .inl ⟨rfl, rfl⟩
                · rename_i htick
                  cases h
                  refine .inr ⟨_, rfl, hpawn, ⟨c, hc, rfl, hstate, ?_, htick⟩, rfl, rfl, ⟨_, rfl⟩,
                    rfl, rfl, rfl, rfl, rfl, rfl, rfl⟩
                  rw [not_or, not_le] at hseq
                  exact hseq.1
          · cases h
            exact .inl ⟨rfl, rfl⟩

theorem rosterInv_new : RosterInv {} := by
  refine ⟨heldInv_new, fun _ => Iff.rfl, ?_, fun _ h => h, fun _ h => h, ?_, ?_, ?_, le_refl _⟩
  · intro id
    refine ⟨fun h => absurd h (AList.notMem_empty id), fun h => ?_⟩
    cases h
  · intro id other m m' h
    cases h
  · intro id c h
    cases h
  · intro id c h
    cases h

theorem RosterInv.played (h : RosterInv s) (hp : Played s s') : RosterInv s' := by
  constructor
  · rw [hp.admission]
    exact h.contexts
  · intro id
    rw [hp.detectors, hp.members, h.detectors]
  · intro id
    rw [hp.members, hp.admission, h.admitted]
  · intro id hid
    rw [hp.members]
    rcases hp.pawns id hid with hid | hid
    · exact h.pawns id hid
    · exact hid
  · intro id hid
    exact hp.kept id (h.inputs id (hp.inputs id hid))
  · intro id other m m' hm hm' heq
    have hn := hp.names id
    have hn' := hp.names other
    rw [hm, Option.map_some] at hn
    rw [hm', Option.map_some] at hn'
    obtain ⟨n, hl, hname⟩ := Option.map_eq_some_iff.mp hn.symm
    obtain ⟨n', hl', hname'⟩ := Option.map_eq_some_iff.mp hn'.symm
    exact h.names id other n n' hl hl' (hname.trans (heq.trans hname'.symm))
  · rw [hp.admission, hp.peers]
    exact h.peers
  · rw [hp.admission, hp.tick]
    exact h.past
  · rw [hp.tick]
    exact h.clock

theorem rosterInv_stop (h : RosterInv s) : RosterInv s.stop := by
  have hconn : ∀ id, s.stop.admission.connection id = none := connection_clear s.admission
  refine ⟨(h.contexts.disconnect_all _).1, fun _ => Iff.rfl, ?_, fun _ h => h, fun _ h => h, ?_, ?_, ?_, le_refl _⟩
  · intro id
    refine ⟨fun h => absurd h (AList.notMem_empty id), fun h => ?_⟩
    rw [Admission.admitted, hconn] at h
    cases h
  · intro id other m m' h
    cases h
  · intro id c h
    rw [hconn] at h
    cases h
  · intro id c h
    rw [hconn] at h
    cases h

theorem rosterInv_host {config : Except String MatchConfig} {port : ℤ} {random : Option (HexStr 32)}
    {listening : GodotError} (h : RosterInv s) : RosterInv (s.host config port development random listening).2 := by
  have hstop := rosterInv_stop h
  rcases host_cases s config port development random listening with heq | heq | ⟨bytes, heq⟩
  · rw [heq]
    exact h
  · rw [heq]
    exact hstop
  · rw [heq]
    exact ⟨hstop.contexts, hstop.detectors, hstop.admitted, hstop.pawns, hstop.inputs, hstop.names,
      hstop.peers, hstop.past, hstop.clock⟩

theorem rosterInv_connected (h : RosterInv s) (hid : id ∉ s.peers) : RosterInv (s.peerConnected id now) := by
  have hnone : s.admission.connection id = none := by
    cases hl : s.admission.connection id with
    | none => rfl
    | some c => exact absurd (h.peers id c hl) hid
  unfold NetServer.peerConnected
  dsimp only
  split
  · have hconn := connection_connected h.contexts id now
    refine ⟨h.contexts.connected (by decide) id now, h.detectors, ?_, h.pawns, h.inputs, h.names, ?_, ?_, h.clock⟩
    · intro other
      rw [h.admitted, Admission.admitted, Admission.admitted, hconn]
      by_cases he : other = id
      · subst he
        rw [if_pos rfl, hnone]
        exact iff_of_false (by simp) (by simp)
      · rw [if_neg he]
    · intro other c hc
      rw [hconn] at hc
      by_cases he : other = id
      · exact List.mem_cons.mpr (.inl he)
      · rw [if_neg he] at hc
        exact List.mem_cons_of_mem _ (h.peers other c hc)
    · intro other c hc
      rw [hconn] at hc
      by_cases he : other = id
      · rw [if_pos he] at hc
        obtain rfl := Option.some.inj hc
        exact le_trans (by decide : (-1 : ℤ) ≤ 0) h.clock
      · rw [if_neg he] at hc
        exact h.past other c hc
  · refine ⟨h.contexts, h.detectors, h.admitted, h.pawns, h.inputs, h.names, ?_, h.past, h.clock⟩
    intro other c hc
    exact List.mem_cons_of_mem _ (h.peers other c hc)

theorem rosterInv_disconnected (h : RosterInv s) (id : ℤ) : RosterInv (s.peerDisconnected id) := by
  have hconn := connection_disconnected h.contexts id
  have hopen : ∀ other c, (s.peerDisconnected id).admission.connection other = some c →
      other ≠ id ∧ s.admission.connection other = some c := by
    intro other c hc
    have hc : (s.admission.disconnected id).connection other = some c := hc
    rw [hconn] at hc
    by_cases he : other = id
    · rw [if_pos he] at hc
      cases hc
    · rw [if_neg he] at hc
      exact ⟨he, hc⟩
  refine ⟨h.contexts.disconnected id, ?_, ?_, ?_, ?_, ?_, ?_, ?_, h.clock⟩
  · intro other
    change other ∈ s.detectors.erase id ↔ other ∈ s.members.erase id
    rw [AList.mem_erase, AList.mem_erase, h.detectors]
  · intro other
    change other ∈ s.members.erase id ↔ ((s.admission.disconnected id).connection other).any _ = true
    rw [AList.mem_erase, hconn, h.admitted]
    by_cases he : other = id
    · simp [he]
    · rw [if_neg he]
      exact and_iff_right he
  · intro other hother
    obtain ⟨hne, hother⟩ := AList.mem_erase.mp hother
    exact AList.mem_erase.mpr ⟨hne, h.pawns other hother⟩
  · intro other hother
    obtain ⟨hne, hother⟩ := AList.mem_erase.mp hother
    exact AList.mem_erase.mpr ⟨hne, h.inputs other hother⟩
  · intro first second m m' hm hm' heq
    have hlook : ∀ other n, (s.members.erase id).lookup other = some n → s.members.lookup other = some n := by
      intro other n hn
      by_cases he : other = id
      · rw [he, AList.lookup_erase] at hn
        cases hn
      · rw [AList.lookup_erase_ne he] at hn
        exact hn
    exact h.names first second m m' (hlook first m hm) (hlook second m' hm') heq
  · intro other c hc
    obtain ⟨hne, hc⟩ := hopen other c hc
    exact List.mem_filter.mpr ⟨h.peers other c hc, by simpa using hne⟩
  · intro other c hc
    exact h.past other c (hopen other c hc).2

/-- A table of members with distinct names takes another one under a fresh name. -/
theorem names_insert (hfresh : ∀ other m, members.lookup other = some m → m.name ≠ nickname)
    (h : ∀ id other m m', members.lookup id = some m → members.lookup other = some m' → m.name = m'.name → id = other)
    {first second : ℤ} {m m' : Member} (hm : (members.insert id { name := nickname }).lookup first = some m)
    (hm' : (members.insert id { name := nickname }).lookup second = some m') (heq : m.name = m'.name) :
    first = second := by
  have hnew : ∀ other m, (members.insert id { name := nickname }).lookup other = some m →
      other = id ∧ m.name = nickname ∨ members.lookup other = some m ∧ m.name ≠ nickname := by
    intro other m hm
    by_cases he : other = id
    · rw [he, AList.lookup_insert] at hm
      obtain rfl := Option.some.inj hm
      exact .inl ⟨he, rfl⟩
    · rw [AList.lookup_insert_ne he] at hm
      exact .inr ⟨hm, hfresh other m hm⟩
  rcases hnew first m hm with ⟨rfl, hname⟩ | ⟨hm, hname⟩
  · rcases hnew second m' hm' with ⟨rfl, -⟩ | ⟨-, hname'⟩
    · rfl
    · exact absurd (heq.symm.trans hname) hname'
  · rcases hnew second m' hm' with ⟨rfl, hname'⟩ | ⟨hm', -⟩
    · exact absurd (heq.trans hname') hname
    · exact h first second m m' hm hm' heq

/-- An update of a context that keeps it open keeps all contexts in order. -/
theorem heldInv_update {f : ConnectionContext → ConnectionContext} (h : HeldInv (· ≠ .closed) a)
    (hf : ∀ c, (f c).peer_id = c.peer_id ∧ (f c).generation = c.generation)
    (hopen : ∀ c, c.state ≠ .closed → (f c).state ≠ .closed) : HeldInv (· ≠ .closed) (a.update id f) := by
  refine h.update ?_ hf
  intro other c hc
  obtain ⟨i, hi, hc⟩ := Option.bind_eq_some_iff.mp hc
  obtain ⟨d, hd, -, hlive⟩ := h.held other i hi
  rw [hc] at hd
  obtain rfl := Option.some.inj hd
  split
  · exact hopen c hlive
  · exact hlive

theorem rosterInv_hello (h : RosterInv s) : RosterInv (s.hello id version nickname) := by
  unfold NetServer.hello
  split
  · cases hanswer : s.admission.hello id version 1 nickname s.development s.phase s.members with
    | mk answer a' =>
      dsimp only
      rcases hello_answer hanswer with ⟨hne, rfl⟩ | ⟨rfl, hacc⟩
      · rw [if_neg hne]
        exact h
      · rw [if_pos rfl]
        obtain ⟨rfl, ⟨c, hc, hpending⟩, -, hfresh⟩ := hacc
        have hconn := connection_update h.contexts id fun c => { c with state := .admitted }
        have hopen : ∀ other d,
            (s.admission.update id fun c => { c with state := .admitted }).connection other = some d →
            ∃ d', s.admission.connection other = some d' ∧ d.last_input_tick = d'.last_input_tick := by
          intro other d hd
          rw [hconn] at hd
          by_cases he : other = id
          · rw [if_pos he, hc] at hd
            obtain rfl := Option.some.inj hd
            exact ⟨c, he ▸ hc, rfl⟩
          · rw [if_neg he] at hd
            exact ⟨d, hd, rfl⟩
        constructor
        · exact heldInv_update h.contexts (fun _ => ⟨rfl, rfl⟩) fun _ _ => nofun
        · intro other
          change other ∈ s.detectors.insert id _ ↔ other ∈ s.members.insert id _
          rw [AList.mem_insert, AList.mem_insert, h.detectors]
        · intro other
          change other ∈ s.members.insert id _ ↔ ((s.admission.update id _).connection other).any _ = true
          rw [AList.mem_insert, hconn]
          by_cases he : other = id
          · subst he
            simp [hc]
          · rw [if_neg he, h.admitted, Admission.admitted]
            exact or_iff_right he
        · intro other hother
          exact (AList.mem_insert _).mpr (.inr (h.pawns other hother))
        · exact h.inputs
        · intro first second m m' hm hm' heq
          exact names_insert hfresh h.names hm hm' heq
        · intro other d hd
          obtain ⟨d', hd', -⟩ := hopen other d hd
          exact h.peers other d' hd'
        · intro other d hd
          obtain ⟨d', hd', htick⟩ := hopen other d hd
          rw [htick]
          exact h.past other d' hd'
        · exact h.clock
  · exact h

theorem rosterInv_readyRequest {config : MatchConfig} (h : RosterInv s) :
    RosterInv (s.readyRequest config id value) := by
  unfold NetServer.readyRequest
  split
  · exact h
  · have hready : RosterInv { s with members := s.members.adjust id fun m => { m with ready := true } } := by
      have hname : ∀ other, ((s.members.adjust id fun m => { m with ready := true }).lookup other).map Member.name =
          (s.members.lookup other).map Member.name := by
        intro other
        rw [AList.lookup_adjust]
        split
        · rw [Option.map_map]
          rfl
        · rfl
      refine ⟨h.contexts, ?_, ?_, ?_, h.inputs, ?_, h.peers, h.past, h.clock⟩
      · intro other
        rw [h.detectors, AList.mem_adjust]
      · intro other
        rw [AList.mem_adjust, h.admitted]
      · intro other hother
        exact (AList.mem_adjust ..).mpr (h.pawns other hother)
      · intro first second m m' hm hm' heq
        have hn := hname first
        have hn' := hname second
        rw [hm, Option.map_some] at hn
        rw [hm', Option.map_some] at hn'
        obtain ⟨n, hl, he⟩ := Option.map_eq_some_iff.mp hn.symm
        obtain ⟨n', hl', he'⟩ := Option.map_eq_some_iff.mp hn'.symm
        exact h.names first second n n' hl hl' (he.trans (heq.trans he'.symm))
    dsimp only
    split
    · have hstart : RosterInv
          { s with members := s.members.adjust id fun m => { m with ready := true }, phase := .inMatch } :=
        ⟨hready.contexts, hready.detectors, hready.admitted, hready.pawns, hready.inputs, hready.names,
          hready.peers, hready.past, hready.clock⟩
      exact hstart.played (played_startMatch config
        { s with members := s.members.adjust id fun m => { m with ready := true } })
    · exact hready

theorem rosterInv_passes (h : RosterInv s) (hp : Passes s id x s') : RosterInv s' := by
  obtain ⟨hpawn, ⟨c, hc, -, hstate, -, -⟩, htick, hadm, ⟨input, hinputs⟩, hmembers, hdetectors, hpawns, -, hpeers,
    hclock, -⟩ := hp
  have hconn := connection_update h.contexts id fun c => { c with last_sequence := x.seq, last_input_tick := s.tick }
  rw [← hadm] at hconn
  constructor
  · rw [hadm]
    exact heldInv_update h.contexts (fun _ => ⟨rfl, rfl⟩) fun _ hd => hd
  · rw [hdetectors, hmembers]
    exact h.detectors
  · intro other
    rw [hmembers, Admission.admitted, hconn, h.admitted, Admission.admitted]
    by_cases he : other = id
    · subst he
      simp [hc]
    · rw [if_neg he]
  · rw [hpawns, hmembers]
    exact h.pawns
  · intro other hother
    rw [hpawns]
    rw [hinputs, AList.mem_insert] at hother
    rcases hother with rfl | hother
    · exact hpawn
    · exact h.inputs other hother
  · rw [hmembers]
    exact h.names
  · intro other d hd
    rw [hpeers]
    rw [hconn] at hd
    by_cases he : other = id
    · exact he ▸ h.peers id c hc
    · rw [if_neg he] at hd
      exact h.peers other d hd
  · intro other d hd
    rw [hclock]
    rw [hconn] at hd
    by_cases he : other = id
    · rw [if_pos he, hc] at hd
      obtain rfl := Option.some.inj hd
      exact le_refl _
    · rw [if_neg he] at hd
      exact h.past other d hd
  · rw [hclock]
    exact h.clock

/-- A tick before the match itself: the clock and the expired handshakes. -/
theorem rosterInv_beginTick (h : RosterInv s) (now : ℤ) : RosterInv (s.beginTick now) := by
  have hconn := connection_disconnect_all (s.admission.expiredHandshakes now) h.contexts
  have hopen : ∀ id c,
      ((s.admission.expiredHandshakes now).foldl Admission.disconnected s.admission).connection id = some c →
      s.admission.connection id = some c := by
    intro id c hc
    rw [hconn] at hc
    split at hc
    · cases hc
    · exact hc
  refine ⟨(h.contexts.disconnect_all _).1, h.detectors, ?_, h.pawns, h.inputs, h.names, ?_, ?_, ?_⟩
  · intro id
    have hmembers : id ∈ (s.beginTick now).members ↔ s.admission.admitted id = true := h.admitted id
    have hafter : (s.beginTick now).admission.connection id = _ := hconn id
    rw [hmembers, Admission.admitted, Admission.admitted, hafter]
    split
    · rename_i hexp
      exact iff_of_false (fun hadm => not_expired hadm hexp) (by simp)
    · rfl
  · intro id c hc
    exact h.peers id c (hopen id c hc)
  · intro id c hc
    exact le_trans (h.past id c (hopen id c hc)) (Int.le_of_lt (Int.lt_add_one_iff.mpr (le_refl _)))
  · exact le_trans h.clock (Int.le_of_lt (Int.lt_add_one_iff.mpr (le_refl _)))

theorem rosterInv_physics {config : MatchConfig} {delta : ℚ} {world : World} (h : RosterInv s) (now : ℤ) :
    RosterInv (s.physicsProcess config delta now world) := by
  have htick := rosterInv_beginTick h now
  unfold NetServer.physicsProcess
  split
  · split
    · exact htick.played (played_matchTick config delta world (s.beginTick now))
    · exact htick
  · exact h

end

end ArenaLab
