import ArenaLab.NetAdmission

/-! The lobby: a match starts at the request that makes everyone ready. Only the departure
of the last one who was not ready can leave a lobby in which all are ready. -/

namespace ArenaLab

namespace NetServer

def waiting (s : NetServer) : Prop := s.phase = .lobby ∨ s.phase = .results

/-- Two or more members, all of them ready, and no match. -/
def Stalled (s : NetServer) : Prop :=
  s.waiting ∧ 2 ≤ s.members.keys.length ∧ ∀ id m, s.members.lookup id = some m → m.ready = true

/-- Without this peer two or more members are left, and all of them are ready. -/
def LeavesReady (s : NetServer) (id : ℤ) : Prop :=
  s.waiting ∧ 2 ≤ (s.members.erase id).keys.length ∧
    ∀ other m, other ≠ id → s.members.lookup other = some m → m.ready = true

end NetServer

/-- A step in which nobody leaves ready players behind. -/
def OrderlyStep (file : Option ConfigFile) (s : NetServer) (e : NetEvent) (s' : NetServer) : Prop :=
  NetStep file s e s' ∧ ∀ id, e.action = .disconnected id → ¬s.LeavesReady id

section

variable {s s' : NetServer} {id version : ℤ} {nickname value : String} {config : MatchConfig} {e : NetEvent}
  {file : Option ConfigFile} {τ : List NetEvent}

theorem allReady_iff : s.allReady = true ↔ ∀ id m, s.members.lookup id = some m → m.ready = true := by
  rw [NetServer.allReady, List.all_eq_true]
  constructor
  · intro h id m hm
    exact h ⟨id, m⟩ (AList.mem_lookup_iff.mp hm)
  · intro h entry hentry
    exact h entry.1 entry.2 (AList.mem_lookup_iff.mpr hentry)

theorem not_stalled_of_unready {m : Member} (hm : s.members.lookup id = some m) (hready : m.ready = false) :
    ¬s.Stalled := by
  intro h
  have htrue := h.2.2 id m hm
  rw [hready] at htrue
  cases htrue

theorem not_stalled_inMatch (h : s.phase = .inMatch) : ¬s.Stalled := by
  rintro ⟨hwait, -⟩
  rcases hwait with hp | hp
  · rw [h] at hp
    cases hp
  · rw [h] at hp
    cases hp

theorem not_stalled_empty (h : s.members = ∅) : ¬s.Stalled := by
  rintro ⟨-, htwo, -⟩
  rw [h] at htwo
  exact absurd htwo (by decide)

theorem Played.unstalled (hp : Played s s') (h : ¬s.Stalled) : ¬s'.Stalled := by
  rintro ⟨hwait, htwo, hready⟩
  obtain ⟨a, b, hne, ha, hb⟩ := AList.two_le_keys.mp htwo
  rcases hp.ready with ⟨hphase, hsame⟩ | ⟨-, hall⟩
  · refine h ⟨?_, ?_, ?_⟩
    · rw [NetServer.waiting, ← hphase]
      exact hwait
    · exact AList.two_le_keys.mpr ⟨a, b, hne, (hp.members a).mp ha, (hp.members b).mp hb⟩
    · intro id m hm
      have hmap := hsame id
      rw [hm, Option.map_some] at hmap
      obtain ⟨m', hm', he⟩ := Option.map_eq_some_iff.mp hmap
      rw [← he]
      exact hready id m' hm'
  · obtain ⟨m, hm⟩ := AList.exists_lookup ha
    exact not_stalled_of_unready hm (hall a m hm) ⟨hwait, htwo, hready⟩

theorem unstalled_readyRequest (h : ¬s.Stalled) : ¬(s.readyRequest config id value).Stalled := by
  unfold NetServer.readyRequest
  split
  · exact h
  · dsimp only
    split
    · have hstart := played_startMatch config
        { s with members := s.members.adjust id fun m => { m with ready := true } }
      exact hstart.unstalled (not_stalled_inMatch rfl)
    · rename_i hmore
      rintro ⟨-, htwo, hready⟩
      rw [Bool.and_eq_true, decide_eq_true_eq, allReady_iff] at hmore
      exact hmore ⟨hready, htwo⟩

theorem unstalled_hello (h : ¬s.Stalled) : ¬(s.hello id version nickname).Stalled := by
  unfold NetServer.hello
  split
  · dsimp only
    split
    · exact not_stalled_of_unready (AList.lookup_insert _) rfl
    · exact h
  · exact h

theorem unstalled_host {port : ℤ} {dev : Bool} {random : Option (HexStr 32)} {listening : GodotError}
    {loaded : Except String MatchConfig} (h : ¬s.Stalled) : ¬(s.host loaded port dev random listening).2.Stalled := by
  rcases host_cases s loaded port dev random listening with heq | heq | ⟨bytes, heq⟩
  · rw [heq]
    exact h
  · rw [heq]
    exact not_stalled_empty rfl
  · rw [heq]
    exact not_stalled_empty rfl

theorem unstalled_physics {delta : ℚ} {now : ℤ} {world : World} (h : ¬s.Stalled) :
    ¬(s.physicsProcess config delta now world).Stalled := by
  have hbegin : ¬(s.beginTick now).Stalled := h
  unfold NetServer.physicsProcess
  split
  · split
    · exact (played_matchTick config delta world (s.beginTick now)).unstalled hbegin
    · exact hbegin
  · exact h

theorem stalled_disconnected : (s.peerDisconnected id).Stalled ↔ s.LeavesReady id := by
  refine and_congr Iff.rfl (and_congr Iff.rfl ?_)
  constructor
  · intro h other m hne hm
    exact h other m ((AList.lookup_erase_ne hne).trans hm)
  · intro h other m hm
    have hm : (s.members.erase id).lookup other = some m := hm
    by_cases he : other = id
    · rw [he, AList.lookup_erase] at hm
      cases hm
    · rw [AList.lookup_erase_ne he] at hm
      exact h other m he hm

/-- The one step that stalls a lobby is the departure of the last who was not ready. -/
theorem stalls_iff (h : ¬s.Stalled) (hs : NetStep file s e s') :
    s'.Stalled ↔ ∃ id, e.action = .disconnected id ∧ s.LeavesReady id := by
  obtain ⟨a, ha⟩ := hs
  cases a with
  | disconnected id =>
    cases ha
    rw [stalled_disconnected]
    constructor
    · exact fun hl => ⟨id, rfl, hl⟩
    · rintro ⟨other, he, hl⟩
      cases he
      exact hl
  | host port dev random listening =>
    cases ha
    exact iff_of_false (unstalled_host h) (by rintro ⟨id, he, -⟩; cases he)
  | stop =>
    cases ha
    exact iff_of_false (not_stalled_empty rfl) (by rintro ⟨id, he, -⟩; cases he)
  | connected other now =>
    simp only [netNext] at ha
    split at ha
    · cases ha
    · cases ha
      refine iff_of_false ?_ (by rintro ⟨id, he, -⟩; cases he)
      unfold NetServer.peerConnected
      dsimp only
      split <;> exact h
  | hello other version nickname =>
    cases ha
    exact iff_of_false (unstalled_hello h) (by rintro ⟨id, he, -⟩; cases he)
  | readyRequest other session =>
    cases ha
    exact iff_of_false (unstalled_readyRequest h) (by rintro ⟨id, he, -⟩; cases he)
  | intent other session i =>
    simp only [netNext] at ha
    cases hanswer : s.acceptIntent other session i with
    | mk accepted t =>
      rw [hanswer] at ha
      cases ha
      refine iff_of_false ?_ (by rintro ⟨id, he, -⟩; cases he)
      rcases acceptIntent_cases hanswer with ⟨-, rfl⟩ | ⟨x, -, hpass⟩
      · exact h
      · rw [NetServer.Stalled, NetServer.waiting, hpass.rest.1, hpass.rest.2.2.2.1]
        exact h
  | physics delta now world =>
    simp only [netNext] at ha
    split at ha
    · cases ha
    · cases ha
      exact iff_of_false (unstalled_physics h) (by rintro ⟨id, he, -⟩; cases he)

theorem orderly_lobby (h : Runs.Steps (OrderlyStep file) {} τ s) :
    ¬s.Stalled ∧ ∀ e s', NetStep file s e s' →
      (s'.Stalled ↔ ∃ id, e.action = .disconnected id ∧ s.LeavesReady id) := by
  have hnever : ¬s.Stalled := by
    refine h.invariant (I := fun t => ¬t.Stalled) (not_stalled_empty rfl) ?_
    rintro t e u ht ⟨hs, horderly⟩ hstalled
    obtain ⟨id, he, hl⟩ := (stalls_iff ht hs).mp hstalled
    exact horderly id he hl
  exact ⟨hnever, fun e s' hs => stalls_iff hnever hs⟩

end

def NetAction.departs : NetAction → Bool
  | .disconnected _ => true
  | _ => false

/-- Three players join, two are ready, and the third leaves. -/
def threePlayers : List NetAction :=
  [.host 7777 true (some quietSession) .ok, .connected 2 0, .connected 3 0, .connected 4 0, .hello 2 1 "Alice",
    .hello 3 1 "Bob", .hello 4 1 "Carol", .readyRequest 2 quietSession.text, .readyRequest 3 quietSession.text,
    .disconnected 4]

theorem departure_stalls_lobby : ∃ τ s, Runs.Steps (NetStep (some serverCfg)) {} τ s ∧ s.Stalled := by
  have hrun : (Runs.exec (netNext (some serverCfg)) {} threePlayers).any (fun r =>
      r.2.phase = .lobby && 2 ≤ r.2.members.keys.length && r.2.allReady) = true := by decide +kernel
  obtain ⟨τ, s, h, hp⟩ := Runs.exec_any hrun
  simp only [Bool.and_eq_true, decide_eq_true_eq] at hp
  exact ⟨τ, s, h, .inl hp.1.1, hp.1.2, allReady_iff.mp hp.2⟩

/-- The steps behind which somebody is not ready, when a peer has left. -/
def orderlyNext (file : Option ConfigFile) (s : NetServer) (a : NetAction) : Option (NetEvent × NetServer) :=
  (netNext file s a).filter (fun r => !r.1.action.departs || !r.2.allReady)

theorem netNext_action {file : Option ConfigFile} {s s' : NetServer} {a : NetAction} {e : NetEvent}
    (h : netNext file s a = some (e, s')) : e.action = a := by
  cases a with
  | connected id now =>
    simp only [netNext] at h
    split at h
    · cases h
    · cases h
      rfl
  | physics delta now world =>
    simp only [netNext] at h
    split at h
    · cases h
    · cases h
      rfl
  | _ =>
    cases h
    rfl

theorem orderlyNext_step {file : Option ConfigFile} {s s' : NetServer} {e : NetEvent}
    (h : Runs.Induced (orderlyNext file) s e s') : OrderlyStep file s e s' := by
  obtain ⟨a, ha⟩ := h
  obtain ⟨hnext, hstay⟩ := Option.filter_eq_some_iff.mp ha
  refine ⟨⟨a, hnext⟩, fun id haction hleaves => ?_⟩
  obtain rfl := (netNext_action hnext).symm.trans haction
  cases hnext
  have hready := allReady_iff.mpr (stalled_disconnected.mpr hleaves).2.2
  have hgone : (s.peerDisconnected id).allReady = false := by simpa [NetAction.departs] using hstay
  rw [hready] at hgone
  cases hgone

/-- Three players join; one leaves while another is not ready yet, and the two left start. -/
def twoOfThree : List NetAction :=
  [.host 7777 true (some quietSession) .ok, .connected 2 0, .connected 3 0, .connected 4 0, .hello 2 1 "Alice",
    .hello 3 1 "Bob", .hello 4 1 "Carol", .readyRequest 2 quietSession.text, .disconnected 4,
    .readyRequest 3 quietSession.text]

theorem orderly_lobby_match : ∃ τ s, Runs.Steps (OrderlyStep (some serverCfg)) {} τ s ∧
    (∃ e ∈ τ, e.action.departs = true) ∧ s.phase = .inMatch ∧ s.members.keys.length = 2 ∧
    ¬s.Stalled ∧ ∀ e s', NetStep (some serverCfg) s e s' →
      (s'.Stalled ↔ ∃ id, e.action = .disconnected id ∧ s.LeavesReady id) := by
  have hexec : (Runs.exec (orderlyNext (some serverCfg)) {} twoOfThree).any (fun r =>
      r.1.any (fun e => e.action.departs) && r.2.phase = .inMatch && r.2.members.keys.length = 2) = true := by
    decide +kernel
  obtain ⟨τ, s, h, hp⟩ := Runs.exec_any hexec
  simp only [Bool.and_eq_true, decide_eq_true_eq, List.any_eq_true] at hp
  have horderly := h.mono fun _ _ _ => orderlyNext_step
  exact ⟨τ, s, horderly, hp.1.1, hp.1.2, hp.2, orderly_lobby horderly⟩

end ArenaLab
