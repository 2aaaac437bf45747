import ArenaLab.NetRoster
import Mathlib.Data.List.Pairwise

/-! Who is in the game: the tables of the server agree with each other and with the
admitted connections, through every order of events. -/

namespace ArenaLab

def acceptedBy (τ : List NetEvent) (generation : ℤ) : List AcceptedIntent :=
  τ.filterMap (fun e => e.accepted.filter (·.generation = generation))

/-- What the server promises about admission after the events `τ`. -/
structure AdmissionSafe (file : Option ConfigFile) (τ : List NetEvent) (s : NetServer) : Prop where
  detectors : ∀ id, id ∈ s.detectors ↔ id ∈ s.members
  admitted : ∀ id, id ∈ s.members ↔ s.admission.admitted id = true
  pawns : ∀ id, id ∈ s.pawns → id ∈ s.members
  inputs : ∀ id, id ∈ s.inputs → id ∈ s.pawns
  names : ∀ id other m m', s.members.lookup id = some m → s.members.lookup other = some m' →
    m.name = m'.name → id = other
  joins : ∀ e s', NetStep file s e s' → s.phase = .inMatch ∨ s'.phase = .inMatch →
    ∀ id, id ∈ s'.members → id ∈ s.members
  closed : ∀ τ' s', Runs.Steps (NetStep file) s τ' s' → ∀ (i : ℕ) c, s.admission.contexts[i]? = some c →
    c.state = .closed → s'.admission.contexts[i]? = some c
  generations : ∀ (i j : ℕ) c d, s.admission.contexts[i]? = some c → s.admission.contexts[j]? = some d → i < j →
    c.generation < d.generation
  accepted : ∀ generation, (acceptedBy τ generation).Pairwise (fun x y => x.seq < y.seq ∧ x.tick < y.tick)
  rejected : ∀ e s' id session i, NetStep file s e s' → e.action = .intent id session i → e.accepted = none → s' = s

section

variable {s s' : NetServer} {a a' : Admission} {id other now version : ℤ} {nickname value : String}
  {development : Bool} {members : AList (fun _ : ℤ => Member)} {e : NetEvent}
  {file : Option ConfigFile} {τ : List NetEvent} {x : AcceptedIntent}

/-- How a step treats the contexts: it accepts one intent, or it carries them over. -/
inductive Treated (s : NetServer) (e : NetEvent) (s' : NetServer) : Prop
  | quiet (haccepted : e.accepted = none) (hcarried : Carried s.admission s'.admission)
  | passed {id : ℤ} {x : AcceptedIntent} (haccepted : e.accepted = some x) (hpasses : Passes s id x s')

theorem admission_readyRequest {config : MatchConfig} :
    (s.readyRequest config id value).admission = s.admission := by
  unfold NetServer.readyRequest
  split
  · rfl
  · dsimp only
    split
    · exact (played_startMatch config _).admission
    · rfl

theorem carried_host {config : Except String MatchConfig} {port : ℤ} {random : Option (HexStr 32)}
    {listening : GodotError} (h : RosterInv s) :
    Carried s.admission (s.host config port development random listening).2.admission := by
  have hstop : Carried s.admission s.stop.admission := (h.contexts.disconnect_all _).2
  unfold NetServer.host
  split
  · exact .refl _
  · split
    · exact .refl _
    · split
      · exact .refl _
      · split
        · exact hstop
        · split <;> exact hstop

theorem carried_hello (h : RosterInv s) : Carried s.admission (s.hello id version nickname).admission := by
  unfold NetServer.hello
  split
  · cases hanswer : s.admission.hello id version 1 nickname s.development s.phase s.members with
    | mk answer a' =>
      dsimp only
      rcases hello_answer hanswer with ⟨hne, rfl⟩ | ⟨rfl, hacc⟩
      · rw [if_neg hne]
        exact .refl _
      · rw [if_pos rfl]
        exact carried_update h.contexts (congrArg Admission.contexts hacc.updated) fun c _ => ⟨rfl, rfl⟩
  · exact .refl _

theorem carried_physics {config : MatchConfig} {delta : ℚ} {world : World} (h : RosterInv s) (now : ℤ) :
    Carried s.admission (s.physicsProcess config delta now world).admission := by
  have hexpired := (h.contexts.disconnect_all (s.admission.expiredHandshakes now)).2
  unfold NetServer.physicsProcess
  split
  · split
    · rw [(played_matchTick config delta world (s.beginTick now)).admission]
      exact hexpired
    · exact hexpired
  · exact .refl _

theorem roster_step (h : RosterInv s) (hs : NetStep file s e s') : RosterInv s' ∧ Treated s e s' := by
  obtain ⟨a, ha⟩ := hs
  cases a with
  | host port dev random listening =>
    cases ha
    exact ⟨rosterInv_host h, .quiet rfl (carried_host h)⟩
  | stop =>
    cases ha
    exact ⟨rosterInv_stop h, .quiet rfl (h.contexts.disconnect_all _).2⟩
  | connected id now =>
    simp only [netNext] at ha
    split at ha
    · cases ha
    · rename_i hnew
      cases ha
      have hid : id ∉ s.peers := fun hid => hnew (List.contains_iff_mem.mpr hid)
      refine ⟨rosterInv_connected h hid, .quiet rfl ?_⟩
      unfold NetServer.peerConnected
      dsimp only
      split
      · exact carried_connected h.contexts id now
      · exact .refl _
  | disconnected id =>
    cases ha
    exact ⟨rosterInv_disconnected h id, .quiet rfl (carried_disconnected h.contexts id)⟩
  | hello id version nickname =>
    cases ha
    exact ⟨rosterInv_hello h, .quiet rfl (carried_hello h)⟩
  | readyRequest id session =>
    cases ha
    refine ⟨rosterInv_readyRequest h, .quiet rfl ?_⟩
    rw [admission_readyRequest]
    exact .refl _
  | intent id session i =>
    simp only [netNext] at ha
    cases hanswer : s.acceptIntent id session i with
    | mk accepted t =>
      rw [hanswer] at ha
      cases ha
      rcases acceptIntent_cases hanswer with ⟨rfl, rfl⟩ | ⟨x, rfl, hpass⟩
      · exact ⟨h, .quiet rfl (.refl _)⟩
      · exact ⟨rosterInv_passes h hpass, .passed rfl hpass⟩
  | physics delta now world =>
    simp only [netNext] at ha
    split at ha
    · cases ha
    · cases ha
      exact ⟨rosterInv_physics h now, .quiet rfl (carried_physics h now)⟩

theorem Treated.sealed (h : Treated s e s') (hi : RosterInv s) : Sealed s.admission s'.admission := by
  cases h with
  | quiet _ hcarried => exact hcarried.toSealed
  | passed _ hpasses => exact sealed_update hi.contexts (by rw [hpasses.admission])

theorem sealed_run (h : Runs.Steps (NetStep file) s τ s') (h0 : RosterInv s) : Sealed s.admission s'.admission := by
  refine (h.invariant (I := fun t => RosterInv t ∧ Sealed s.admission t.admission) ⟨h0, .refl _⟩ ?_).2
  rintro t e u ⟨hi, hsealed⟩ hs
  obtain ⟨hi', htreated⟩ := roster_step hi hs
  exact ⟨hi', hsealed.trans (htreated.sealed hi)⟩

/-! What was accepted from each connection. -/

theorem acceptedBy_append (τ : List NetEvent) (e : NetEvent) (g : ℤ) :
    acceptedBy (τ ++ [e]) g = acceptedBy τ g ++ (e.accepted.filter (·.generation = g)).toList := by
  rw [acceptedBy, List.filterMap_append]
  congr 1

theorem acceptedBy_quiet (h : e.accepted = none) (g : ℤ) : acceptedBy (τ ++ [e]) g = acceptedBy τ g := by
  rw [acceptedBy_append, h]
  exact List.append_nil _

/-- The meters of the open contexts bound what was accepted under their generation. -/
structure MeterInv (τ : List NetEvent) (s : NetServer) : Prop where
  ordered : ∀ g, (acceptedBy τ g).Pairwise (fun x y => x.seq < y.seq ∧ x.tick < y.tick)
  metered : ∀ (i : ℕ) c, s.admission.contexts[i]? = some c → c.state ≠ .closed →
    ∀ x ∈ acceptedBy τ ((i : ℤ) + 1), x.seq ≤ c.last_sequence ∧ x.tick ≤ c.last_input_tick
  known : ∀ i : ℕ, s.admission.contexts.length ≤ i → acceptedBy τ ((i : ℤ) + 1) = []

theorem MeterInv.carried (h : MeterInv τ s) (haccepted : e.accepted = none)
    (hc : Carried s.admission s'.admission) : MeterInv (τ ++ [e]) s' := by
  constructor
  · intro g
    rw [acceptedBy_quiet haccepted]
    exact h.ordered g
  · intro i c' hi hopen x hx
    rw [acceptedBy_quiet haccepted] at hx
    rcases hc.opened i c' hi hopen with ⟨c, hi', hopen', hseq, htick⟩ | ⟨hlen, -⟩
    · rw [hseq, htick]
      exact h.metered i c hi' hopen' x hx
    · rw [h.known i hlen] at hx
      cases hx
  · intro i hlen
    rw [acceptedBy_quiet haccepted]
    exact h.known i (Nat.le_trans hc.grows hlen)

theorem MeterInv.passed (h : MeterInv τ s) (hr : RosterInv s) (haccepted : e.accepted = some x)
    (hp : Passes s id x s') : MeterInv (τ ++ [e]) s' := by
  obtain ⟨c, hc, hgen, hstate, hseq, htick⟩ := hp.context
  obtain ⟨place, hplace, hget⟩ := Option.bind_eq_some_iff.mp hc
  have hnumber : x.generation = (place : ℤ) + 1 := by
    rw [← hgen]
    exact hr.contexts.numbered place c hget
  have hlen := (List.getElem?_eq_some_iff.mp hget).1
  have hother : ∀ g, x.generation ≠ g → acceptedBy (τ ++ [e]) g = acceptedBy τ g := by
    intro g hg
    rw [acceptedBy_append, haccepted, Option.filter_some_neg (by simpa using hg)]
    exact List.append_nil _
  have hself : acceptedBy (τ ++ [e]) x.generation = acceptedBy τ x.generation ++ [x] := by
    rw [acceptedBy_append, haccepted, Option.filter_some_pos (by simp)]
    rfl
  have hbelow : ∀ y ∈ acceptedBy τ x.generation, y.seq < x.seq ∧ y.tick < x.tick := by
    intro y hy
    rw [hnumber] at hy
    obtain ⟨hs, ht⟩ := h.metered place c hget (by rw [hstate]; decide) y hy
    have hpast := hr.past id c hc
    rw [hp.tick]
    omega
  constructor
  · intro g
    by_cases hg : x.generation = g
    · subst hg
      rw [hself, List.pairwise_append]
      refine ⟨h.ordered _, List.pairwise_singleton _ _, ?_⟩
      intro y hy z hz
      rw [List.mem_singleton.mp hz]
      exact hbelow y hy
    · rw [hother g hg]
      exact h.ordered g
  · intro i d hi hopen y hy
    rw [hp.admission, update_contexts] at hi
    by_cases hi' : i = place
    · subst hi'
      rw [if_pos hplace, hget, Option.map_some] at hi
      obtain rfl := Option.some.inj hi
      rw [← hnumber, hself] at hy
      rcases List.mem_append.mp hy with hy | hy
      · obtain ⟨hs, ht⟩ := hbelow y hy
        rw [hp.tick] at ht
        exact ⟨le_of_lt hs, le_of_lt ht⟩
      · rw [List.mem_singleton.mp hy]
        exact ⟨le_refl _, le_of_eq hp.tick⟩
    · have hne : s.admission.connections.lookup id ≠ some i := by
        rw [hplace]
        exact fun he => hi' (Option.some.inj he).symm
      rw [if_neg hne] at hi
      rw [hother _ (by omega)] at hy
      exact h.metered i d hi hopen y hy
  · intro i hi
    rw [hp.admission, update_length] at hi
    rw [hother _ (by omega)]
    exact h.known i hi

theorem meter_run (h : Runs.Steps (NetStep file) {} τ s) : RosterInv s ∧ MeterInv τ s := by
  refine h.history (I := fun τ t => RosterInv t ∧ MeterInv τ t) ?_ ?_
  · refine ⟨rosterInv_new, ?_, ?_, ?_⟩
    · intro g
      exact .nil
    · intro i c hi
      cases hi
    · intro i _
      rfl
  · rintro τ t e u _ ⟨hr, hm⟩ hs
    obtain ⟨hr', htreated⟩ := roster_step hr hs
    refine ⟨hr', ?_⟩
    cases htreated with
    | quiet haccepted hcarried => exact hm.carried haccepted hcarried
    | passed haccepted hpasses => exact hm.passed hr haccepted hpasses

theorem members_readyRequest {config : MatchConfig} (other : ℤ) :
    other ∈ (s.readyRequest config id value).members ↔ other ∈ s.members := by
  unfold NetServer.readyRequest
  split
  · rfl
  · dsimp only
    split
    · have hstart := played_startMatch config
        { s with members := s.members.adjust id fun m => { m with ready := true } }
      rw [hstart.members]
      exact AList.mem_adjust ..
    · exact AList.mem_adjust ..

theorem members_host {config : Except String MatchConfig} {port : ℤ} {random : Option (HexStr 32)}
    {listening : GodotError} (hid : id ∈ (s.host config port development random listening).2.members) :
    id ∈ s.members := by
  unfold NetServer.host at hid
  split at hid
  · exact hid
  · split at hid
    · exact hid
    · split at hid
      · exact hid
      · split at hid
        · exact absurd hid (AList.notMem_empty id)
        · split at hid <;> exact absurd hid (AList.notMem_empty id)

theorem members_hello (hid : other ∈ (s.hello id version nickname).members) :
    other ∈ s.members ∨ s.phase ≠ .inMatch ∧ (s.hello id version nickname).phase = s.phase := by
  unfold NetServer.hello at hid ⊢
  split at hid
  · rename_i hserver
    rw [if_pos hserver]
    cases hanswer : s.admission.hello id version 1 nickname s.development s.phase s.members with
    | mk answer a' =>
      rw [hanswer] at hid
      dsimp only at hid ⊢
      rcases hello_answer hanswer with ⟨hne, rfl⟩ | ⟨rfl, hacc⟩
      · rw [if_neg hne] at hid
        exact .inl hid
      · exact .inr ⟨hacc.phase, rfl⟩
  · exact .inl hid

theorem members_physics {config : MatchConfig} {delta : ℚ} {world : World}
    (hid : id ∈ (s.physicsProcess config delta now world).members) : id ∈ s.members := by
  unfold NetServer.physicsProcess at hid
  split at hid
  · split at hid
    · exact ((played_matchTick config delta world (s.beginTick now)).members id).mp hid
    · exact hid
  · exact hid

theorem joins_step (hs : NetStep file s e s') (hid : id ∈ s'.members) :
    id ∈ s.members ∨ s.phase ≠ .inMatch ∧ s'.phase ≠ .inMatch := by
  obtain ⟨a, ha⟩ := hs
  cases a with
  | host port dev random listening =>
    cases ha
    exact .inl (members_host hid)
  | stop =>
    cases ha
    exact absurd hid (AList.notMem_empty id)
  | connected other now =>
    simp only [netNext] at ha
    split at ha
    · cases ha
    · cases ha
      unfold NetServer.peerConnected at hid
      dsimp only at hid
      split at hid <;> exact .inl hid
  | disconnected other =>
    cases ha
    exact .inl (AList.mem_erase.mp hid).2
  | hello other version nickname =>
    cases ha
    rcases members_hello hid with hid | ⟨hphase, hsame⟩
    · exact .inl hid
    · refine .inr ⟨hphase, ?_⟩
      rw [hsame]
      exact hphase
  | readyRequest other session =>
    cases ha
    exact .inl ((members_readyRequest _).mp hid)
  | intent other session i =>
    simp only [netNext] at ha
    cases hanswer : s.acceptIntent other session i with
    | mk accepted t =>
      rw [hanswer] at ha
      cases ha
      rcases acceptIntent_cases hanswer with ⟨rfl, rfl⟩ | ⟨x, rfl, hpass⟩
      · exact .inl hid
      · rw [hpass.rest.1] at hid
        exact .inl hid
  | physics delta now world =>
    simp only [netNext] at ha
    split at ha
    · cases ha
    · cases ha
      exact .inl (members_physics hid)

theorem rejected_step {session : String} {i : Intent} (hs : NetStep file s e s')
    (haction : e.action = .intent id session i)
    (haccepted : e.accepted = none) : s' = s := by
  obtain ⟨a, ha⟩ := hs
  cases a with
  | intent other session' i' =>
    simp only [netNext] at ha
    cases hanswer : s.acceptIntent other session' i' with
    | mk accepted t =>
      rw [hanswer] at ha
      cases ha
      rcases acceptIntent_cases hanswer with ⟨-, rfl⟩ | ⟨x, rfl, -⟩
      · rfl
      · cases haccepted
  | connected other now =>
    simp only [netNext] at ha
    split at ha <;> cases ha
    cases haction
  | physics delta now world =>
    simp only [netNext] at ha
    split at ha <;> cases ha
    cases haction
  | _ =>
    cases ha
    cases haction

theorem server_admission (h : Runs.Steps (NetStep file) {} τ s) : AdmissionSafe file τ s := by
  obtain ⟨hr, hm⟩ := meter_run h
  refine ⟨hr.detectors, hr.admitted, hr.pawns, hr.inputs, hr.names, ?_, ?_, ?_, hm.ordered, ?_⟩
  · intro e s' hs hphase id hid
    rcases joins_step hs hid with hid | ⟨hbefore, hafter⟩
    · exact hid
    · rcases hphase with hphase | hphase
      · exact absurd hphase hbefore
      · exact absurd hphase hafter
  · intro τ' s' hrun i c hi hc
    exact (sealed_run hrun hr).closed i c hi hc
  · intro i j c d hi hj hlt
    exact hr.contexts.generations hi hj hlt
  · intro e s' id session i hs haction haccepted
    exact rejected_step hs haction haccepted

theorem server_admission_match : ∃ τ s, Runs.Steps (NetStep (some serverCfg)) {} τ s ∧ s.phase = .inMatch ∧
    (acceptedBy τ 1).length = 1 ∧ AdmissionSafe (some serverCfg) τ s := by
  have hrun : (Runs.exec (netNext (some serverCfg)) {} (twoPlayers ++
      [.intent 2 quietSession.text ⟨1, some (0, 0), some 0, some 0, false, true, false⟩])).any
      (fun r => r.2.phase = .inMatch && (acceptedBy r.1 1).length = 1) = true := by decide +kernel
  obtain ⟨τ, s, h, hp⟩ := Runs.exec_any hrun
  simp only [Bool.and_eq_true, decide_eq_true_eq] at hp
  exact ⟨τ, s, h, hp.1, hp.2, server_admission h⟩

end

end ArenaLab
