import ArenaLab.CombatTurns

/-! Combat at the server: whatever the order of events, every pawn is as the log has it, and
the hit that reaches the limit ends the match. -/

namespace ArenaLab

open EventLog CombatEvent

def fragLimit (file : Option ConfigFile) : ℤ := (settings (configure file)).frag_limit.1

/-- What the combat promises in a state: every pawn is accounted for by the log, and the
log keeps the rules. -/
structure CombatSafe (file : Option ConfigFile) (s : NetServer) : Prop where
  bounds : ∀ p pawn, s.pawns.lookup p = some pawn →
    (0 ≤ pawn.health ∧ pawn.health ≤ 100) ∧ 0 ≤ pawn.ammo ∧ pawn.ammo ≤ 12
  account : ∀ p pawn, s.pawns.lookup p = some pawn →
    pawn.health = healthIn p s.log ∧ pawn.deaths = deathsIn p s.log ∧ pawn.kills = killsIn p s.log
  rules : CombatRules (fragLimit file) s.log
  below : s.phase = .inMatch → ∀ p pawn, s.pawns.lookup p = some pawn → pawn.kills < fragLimit file
  reached : ∀ e s', NetStep file s e s' → s.phase = .inMatch →
    (∃ p pawn, s'.pawns.lookup p = some pawn ∧ fragLimit file ≤ pawn.kills) → s'.phase = .results

section

variable {s s' : NetServer} {limit : ℤ} {owed : ℤ → ℚ} {delta : ℚ} {id p a : ℤ} {pawn : Pawn}
  {config : MatchConfig} {world : World} {e : CombatEvent}

/-! The start of a match. -/

/-- A match that is starting: nothing has happened in it, and the pawns that are done are fresh. -/
structure Lined (limit : ℤ) (done : ℤ → Prop) (s : NetServer) : Prop where
  passed : Passed (combatTest limit) s.log
  kills : ∀ p, killsIn p s.log = 0
  deaths : ∀ p, deathsIn p s.log = 0
  quiet : ∀ p mid, ¬After starts s.log (.shot p) mid
  pawns : ∀ p pawn, done p → s.pawns.lookup p = some pawn → PawnInv s.log p 0 pawn

theorem pawns_enlist (s : NetServer) (player : ℤ) : (s.enlist player).pawns =
    (((if player ∈ s.pawns then s else s.spawn player).pawns.adjust player fun pawn =>
      { pawn with kills := 0, deaths := 0 }).adjust player fun pawn =>
      { pawn with health := 100, ammo := 12, reload_time := 0, cooldown := 0, respawn_time := 0 }) := rfl

theorem Lined.enlist {done : ℤ → Prop} (h : Lined limit done s) (player : ℤ) :
    Lined limit (fun p => p = player ∨ done p) (s.enlist player) := by
  have hlook : ∀ p, p ≠ player → (s.enlist player).pawns.lookup p = s.pawns.lookup p := by
    intro p hp
    rw [pawns_enlist, AList.lookup_adjust_ne _ _ _ hp, AList.lookup_adjust_ne _ _ _ hp]
    split
    · rfl
    · exact AList.lookup_insert_ne hp
  have hself : ∀ pawn, (s.enlist player).pawns.lookup player = some pawn → ∃ old : Pawn,
      pawn = { ({ old with kills := 0, deaths := 0 } : Pawn) with
        health := 100, ammo := 12, reload_time := 0, cooldown := 0, respawn_time := 0 } := by
    intro pawn hpawn
    rw [pawns_enlist, AList.lookup_adjust_self] at hpawn
    obtain ⟨mid, hmid, rfl⟩ := Option.map_eq_some_iff.mp hpawn
    rw [AList.lookup_adjust_self] at hmid
    obtain ⟨old, -, rfl⟩ := Option.map_eq_some_iff.mp hmid
    exact ⟨old, rfl⟩
  have hlog : (s.enlist player).log = .respawned player :: s.log := by
    unfold NetServer.enlist
    dsimp only
    split <;> rfl
  have hquiet : ∀ p mid, ¬After starts (.respawned player :: s.log) (.shot p) mid := by
    intro p mid hmid
    obtain ⟨mid', hmid', -⟩ := rested_cons rfl hmid
    exact h.quiet p mid' hmid'
  constructor
  · rw [hlog]
    exact ⟨combatTest_quiet (fun _ => rfl) (fun _ => rfl) rfl, h.passed⟩
  · intro p
    rw [hlog, killsIn, countSince_other rfl rfl]
    exact h.kills p
  · intro p
    rw [hlog, deathsIn, countSince_other rfl rfl]
    exact h.deaths p
  · rw [hlog]
    exact hquiet
  · intro p pawn hdone hpawn
    rw [hlog]
    by_cases hp : p = player
    · subst hp
      obtain ⟨old, rfl⟩ := hself pawn hpawn
      refine respawned_inv ?_ ?_ fun mid hmid => absurd hmid (h.quiet p mid)
      · rw [h.kills p]
        rfl
      · rw [h.deaths p]
        rfl
    · rw [hlook p hp] at hpawn
      refine (h.pawns p pawn (hdone.resolve_left hp) hpawn).frame ?_
      simp [concerns, Ne.symm hp]

theorem Lined.fold {done : ℤ → Prop} (ids : List ℤ) (h : Lined limit done s) :
    Lined limit (fun p => p ∈ ids ∨ done p) (ids.foldl NetServer.enlist s) := by
  induction ids generalizing s done with
  | nil => exact ⟨h.passed, h.kills, h.deaths, h.quiet, fun p pawn hp => h.pawns p pawn (by simpa using hp)⟩
  | cons id ids ih =>
    have hrest := ih (h.enlist id)
    refine ⟨hrest.passed, hrest.kills, hrest.deaths, hrest.quiet, ?_⟩
    intro p pawn hp
    refine hrest.pawns p pawn ?_
    rw [List.mem_cons] at hp
    tauto

theorem CombatInv.start (h : CombatInv config.frag_limit.1 owed s)
    (hmembers : ∀ p, p ∈ (s.startMatch config).pawns → p ∈ s.members) :
    CombatInv config.frag_limit.1 (fun _ => 0) (s.startMatch config) := by
  have hstart : Lined config.frag_limit.1 (fun _ => False)
      { s.record .started with phase := .inMatch, match_left := config.duration_seconds.1 } := by
    refine ⟨⟨combatTest_quiet (fun _ => rfl) (fun _ => rfl) rfl, h.passed⟩, ?_, ?_, ?_, nofun⟩
    · exact fun p => countSince_reset rfl
    · exact fun p => countSince_reset rfl
    · exact fun p mid => not_after_reset rfl nofun
  have hlined := hstart.fold s.members.keys.reverse
  refine ⟨?_, hlined.passed, ?_⟩
  · intro p pawn hp
    refine hlined.pawns p pawn (.inl ?_) hp
    exact List.mem_reverse.mpr (AList.mem_keys.mp (hmembers p (AList.mem_of_lookup hp)))
  · intro _ p
    have hkills := hlined.kills p
    have hpos := config.frag_limit.2.1
    change (killsIn p (s.startMatch config).log : ℤ) < _
    change killsIn p (s.startMatch config).log = 0 at hkills
    rw [hkills]
    exact lt_of_lt_of_le (by decide) hpos

theorem combat_empty (hpassed : Passed (combatTest limit) s.log) (hpawns : s.pawns = ∅)
    (hphase : s.phase ≠ .inMatch) : CombatInv limit owed s := by
  refine ⟨?_, hpassed, fun hp => absurd hp hphase⟩
  intro p pawn hp
  rw [hpawns] at hp
  cases hp

theorem CombatInv.hosted {port : ℤ} {dev : Bool} {random : Option (HexStr 32)} {listening : GodotError}
    {loaded : Except String MatchConfig} (h : CombatInv limit owed s) :
    CombatInv limit owed (s.host loaded port dev random listening).2 := by
  rcases host_cases s loaded port dev random listening with heq | heq | ⟨bytes, heq⟩
  · rw [heq]
    exact h
  · rw [heq]
    exact combat_empty h.passed rfl nofun
  · rw [heq]
    exact combat_empty h.passed rfl nofun

theorem CombatInv.physics {now : ℤ} (h : CombatInv config.frag_limit.1 (fun _ => 0) s) (hdelta : 0 ≤ delta) :
    CombatInv config.frag_limit.1 (fun _ => 0) (s.physicsProcess config delta now world) := by
  have hbegin : CombatInv config.frag_limit.1 (fun _ => 0) (s.beginTick now) := h.congr rfl rfl fun hp => hp
  unfold NetServer.physicsProcess
  split
  · split
    · rename_i hphase
      exact hbegin.matchTick hphase hdelta
    · exact hbegin
  · exact h

theorem CombatInv.requested {value : String} (hr : RosterInv s) (h : CombatInv config.frag_limit.1 (fun _ => 0) s) :
    CombatInv config.frag_limit.1 (fun _ => 0) (s.readyRequest config id value) := by
  unfold NetServer.readyRequest
  split
  · exact h
  · have hready : CombatInv config.frag_limit.1 (fun _ => 0)
        { s with members := s.members.adjust id fun m => { m with ready := true } } := h.congr rfl rfl fun hp => hp
    dsimp only
    split
    · refine hready.start ?_
      intro p hp
      have hplayed := played_startMatch config
        { s with members := s.members.adjust id fun m => { m with ready := true } }
      rcases hplayed.pawns p hp with hold | hmember
      · exact (AList.mem_adjust ..).mpr (hr.pawns p hold)
      · exact hmember
    · exact hready

theorem combat_step {file : Option ConfigFile} {event : NetEvent} (hr : RosterInv s)
    (h : CombatInv (fragLimit file) (fun _ => 0) s) (hs : NetStep file s event s') :
    CombatInv (fragLimit file) (fun _ => 0) s' := by
  obtain ⟨action, ha⟩ := hs
  cases action with
  | host port dev random listening =>
    cases ha
    exact h.hosted
  | stop =>
    cases ha
    exact combat_empty h.passed rfl nofun
  | connected other now =>
    simp only [netNext] at ha
    split at ha
    · cases ha
    · cases ha
      unfold NetServer.peerConnected
      dsimp only
      split <;> exact h.congr rfl rfl fun hp => hp
  | disconnected other =>
    cases ha
    refine ⟨?_, h.passed, h.below⟩
    intro p pawn hp
    have hp : (s.pawns.erase other).lookup p = some pawn := hp
    by_cases he : p = other
    · rw [he, AList.lookup_erase] at hp
      cases hp
    · rw [AList.lookup_erase_ne he] at hp
      exact h.pawns p pawn hp
  | hello other version nickname =>
    cases ha
    unfold NetServer.hello
    split
    · dsimp only
      split <;> exact h.congr rfl rfl fun hp => hp
    · exact h
  | readyRequest other session =>
    cases ha
    exact CombatInv.requested hr h
  | intent other session i =>
    simp only [netNext] at ha
    cases hanswer : s.acceptIntent other session i with
    | mk accepted t =>
      rw [hanswer] at ha
      cases ha
      rcases acceptIntent_cases hanswer with ⟨-, rfl⟩ | ⟨x, -, hpass⟩
      · exact h
      · obtain ⟨-, -, hpawns, hphase, -, -, hlog⟩ := hpass.rest
        exact h.congr hpawns hlog fun hp => hphase ▸ hp
  | physics delta now world =>
    simp only [netNext] at ha
    split at ha
    · cases ha
    · rename_i hdelta
      cases ha
      exact CombatInv.physics h (not_lt.mp hdelta)

/-- A step within a match ends it only in the results, or with all pawns gone. -/
theorem match_step {file : Option ConfigFile} {event : NetEvent} (hs : NetStep file s event s')
    (hphase : s.phase = .inMatch) : s'.phase = .inMatch ∨ s'.phase = .results ∨ s'.pawns = ∅ := by
  obtain ⟨action, ha⟩ := hs
  cases action with
  | host port dev random listening =>
    cases ha
    unfold NetServer.host
    split
    · exact .inl hphase
    · split
      · exact .inl hphase
      · split
        · exact .inl hphase
        · split
          · exact .inr (.inr rfl)
          · split <;> exact .inr (.inr rfl)
  | stop =>
    cases ha
    exact .inr (.inr rfl)
  | connected other now =>
    simp only [netNext] at ha
    split at ha
    · cases ha
    · cases ha
      unfold NetServer.peerConnected
      dsimp only
      split <;> exact .inl hphase
  | disconnected other =>
    cases ha
    exact .inl hphase
  | hello other version nickname =>
    cases ha
    unfold NetServer.hello
    split
    · dsimp only
      split <;> exact .inl hphase
    · exact .inl hphase
  | readyRequest other session =>
    cases ha
    unfold NetServer.readyRequest
    rw [if_pos]
    · exact .inl hphase
    · rw [hphase]
      simp
  | intent other session i =>
    simp only [netNext] at ha
    cases hanswer : s.acceptIntent other session i with
    | mk accepted t =>
      rw [hanswer] at ha
      cases ha
      rcases acceptIntent_cases hanswer with ⟨-, rfl⟩ | ⟨x, -, hpass⟩
      · exact .inl hphase
      · rw [hpass.rest.2.2.2.1]
        exact .inl hphase
  | physics delta now world =>
    simp only [netNext] at ha
    split at ha
    · cases ha
    · cases ha
      unfold NetServer.physicsProcess
      split
      · split
        · rcases (played_matchTick _ delta world (s.beginTick now)).ready with ⟨hsame, -⟩ | ⟨hresults, -⟩
          · rw [hsame]
            exact .inl hphase
          · exact .inr (.inl hresults)
        · exact .inl hphase
      · exact .inl hphase

theorem combat_run {file : Option ConfigFile} {τ : List NetEvent} (h : Runs.Steps (NetStep file) {} τ s) :
    RosterInv s ∧ CombatInv (fragLimit file) (fun _ => 0) s := by
  refine h.invariant (I := fun t => RosterInv t ∧ CombatInv (fragLimit file) (fun _ => 0) t) ?_ ?_
  · exact ⟨rosterInv_new, combat_empty trivial rfl nofun⟩
  · rintro t e u ⟨hr, hc⟩ hs
    exact ⟨(roster_step hr hs).1, combat_step hr hc hs⟩

theorem combat_accounting {file : Option ConfigFile} {τ : List NetEvent} (h : Runs.Steps (NetStep file) {} τ s) :
    CombatSafe file s := by
  obtain ⟨hr, hc⟩ := combat_run h
  have hbelow : ∀ t : NetServer, CombatInv (fragLimit file) (fun _ => 0) t → t.phase = .inMatch →
      ∀ p pawn, t.pawns.lookup p = some pawn → pawn.kills < fragLimit file := by
    intro t ht hphase p pawn hp
    rw [(ht.pawns p pawn hp).kills]
    exact ht.below hphase p
  refine ⟨?_, ?_, combat_rules hc.passed, hbelow s hc, ?_⟩
  · intro p pawn hp
    have hinv := hc.pawns p pawn hp
    have hloaded := hinv.loaded
    exact ⟨hinv.healthy, hloaded.1, by omega⟩
  · intro p pawn hp
    have hinv := hc.pawns p pawn hp
    exact ⟨hinv.logged, hinv.deaths, hinv.kills⟩
  · rintro e s' hs hphase ⟨p, pawn, hp, hlimit⟩
    rcases match_step hs hphase with hin | hresults | hempty
    · exact absurd (hbelow s' (combat_step hr hc hs) hin p pawn hp) (not_lt.mpr hlimit)
    · exact hresults
    · rw [hempty] at hp
      cases hp

end

/-- Every ray meets the pawn of player 3, and nobody falls. -/
def firingRange : World := ⟨fun _ => some 3, fun _ => false, fun _ => ⟨0, "NORMAL"⟩⟩

theorem combat_accounting_shot : ∃ τ s, Runs.Steps (NetStep (some serverCfg)) {} τ s ∧ s.phase = .inMatch ∧
    .damaged 2 3 75 ∈ s.log ∧ CombatSafe (some serverCfg) s := by
  have hrun : (Runs.exec (netNext (some serverCfg)) {} (twoPlayers ++
      [.intent 2 quietSession.text ⟨1, some (0, 0), some 0, some 0, false, true, false⟩,
        .physics (1 / 60) 10 firingRange])).any
      (fun r => r.2.phase = .inMatch && r.2.log.contains (.damaged 2 3 75)) = true := by decide +kernel
  obtain ⟨τ, s, h, hp⟩ := Runs.exec_any hrun
  simp only [Bool.and_eq_true, decide_eq_true_eq, List.contains_iff_mem] at hp
  exact ⟨τ, s, h, hp.1, hp.2, combat_accounting h⟩

end ArenaLab
