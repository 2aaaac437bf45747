import ArenaLab.NetServer

/-! What playing leaves alone: admission, the clock, who is a member and under which
name. A match that ends within a step takes back every ready. -/

namespace ArenaLab

structure Played (s s' : NetServer) : Prop where
  admission : s'.admission = s.admission
  tick : s'.tick = s.tick
  peers : s'.peers = s.peers
  names : ∀ id, (s'.members.lookup id).map Member.name = (s.members.lookup id).map Member.name
  detectors : ∀ id, id ∈ s'.detectors ↔ id ∈ s.detectors
  pawns : ∀ id, id ∈ s'.pawns → id ∈ s.pawns ∨ id ∈ s.members
  kept : ∀ id, id ∈ s.pawns → id ∈ s'.pawns
  inputs : ∀ id, id ∈ s'.inputs → id ∈ s.inputs
  ready : s'.phase = s.phase ∧
      (∀ id, (s'.members.lookup id).map Member.ready = (s.members.lookup id).map Member.ready) ∨
    s'.phase = .results ∧ ∀ id m, s'.members.lookup id = some m → m.ready = false

section

variable {s s' s'' : NetServer} (config : MatchConfig) (delta : ℚ) (world : World)

theorem Played.members (h : Played s s') (id : ℤ) : id ∈ s'.members ↔ id ∈ s.members := by
  have hmap := congrArg Option.isSome (h.names id)
  rw [Option.isSome_map, Option.isSome_map] at hmap
  rw [← AList.lookup_isSome, ← AList.lookup_isSome, hmap]

/-- A call of `host` refuses and leaves the server as it is or stopped, or it opens a lobby. -/
theorem host_cases (s : NetServer) (loaded : Except String MatchConfig) (port : ℤ) (dev : Bool)
    (random : Option (HexStr 32)) (listening : GodotError) :
    (s.host loaded port dev random listening).2 = s ∨ (s.host loaded port dev random listening).2 = s.stop ∨
      ∃ bytes : HexStr 32, (s.host loaded port dev random listening).2 =
        { s.stop with server_mode := true, development := dev, phase := .lobby, session := bytes.text } := by
  unfold NetServer.host
  split
  · exact .inl rfl
  · split
    · exact .inl rfl
    · split
      · exact .inl rfl
      · split
        · exact .inr (.inl rfl)
        · rename_i bytes
          split
          · exact .inr (.inl rfl)
          · exact .inr (.inr ⟨bytes, rfl⟩)

theorem Played.refl (s : NetServer) : Played s s :=
  ⟨rfl, rfl, rfl, fun _ => rfl, fun _ => Iff.rfl, fun _ => .inl, fun _ => id, fun _ => id, .inl ⟨rfl, fun _ => rfl⟩⟩

theorem Played.trans (h : Played s s') (h' : Played s' s'') : Played s s'' := by
  refine ⟨h'.admission.trans h.admission, h'.tick.trans h.tick, h'.peers.trans h.peers,
    fun id => (h'.names id).trans (h.names id), fun id => (h'.detectors id).trans (h.detectors id), ?_,
    fun id hid => h'.kept id (h.kept id hid), fun id hid => h.inputs id (h'.inputs id hid), ?_⟩
  · intro id hid
    rcases h'.pawns id hid with hid | hid
    · exact h.pawns id hid
    · exact .inr ((h.members id).mp hid)
  · rcases h'.ready with ⟨hphase', hready'⟩ | h'
    · rcases h.ready with ⟨hphase, hready⟩ | ⟨hphase, hready⟩
      · exact .inl ⟨hphase'.trans hphase, fun id => (hready' id).trans (hready id)⟩
      · refine .inr ⟨hphase'.trans hphase, ?_⟩
        intro id m hm
        have hmap := hready' id
        rw [hm, Option.map_some] at hmap
        obtain ⟨m', hm', he⟩ := Option.map_eq_some_iff.mp hmap.symm
        rw [← he]
        exact hready id m' hm'
    · exact .inr h'

theorem played_fold {f : NetServer → ℤ → NetServer} (ids : List ℤ)
    (hf : ∀ t id, Played s t → id ∈ ids → Played t (f t id)) : Played s (ids.foldl f s) := by
  induction ids generalizing s with
  | nil => exact .refl s
  | cons id ids ih =>
    have hhead := hf s id (.refl s) (by simp)
    exact hhead.trans (ih fun t other ht hother => hf t other (hhead.trans ht) (by simp [hother]))

theorem played_setPawn (s : NetServer) (id : ℤ) (f : Pawn → Pawn) : Played s (s.setPawn id f) := by
  refine ⟨rfl, rfl, rfl, fun _ => rfl, fun _ => Iff.rfl, ?_, ?_, fun _ h => h, .inl ⟨rfl, fun _ => rfl⟩⟩
  · intro other hother
    exact .inl ((AList.mem_adjust ..).mp hother)
  · intro other hother
    exact (AList.mem_adjust ..).mpr hother

theorem played_record (s : NetServer) (e : CombatEvent) : Played s (s.record e) :=
  ⟨rfl, rfl, rfl, fun _ => rfl, fun _ => Iff.rfl, fun _ => .inl, fun _ h => h, fun _ h => h, .inl ⟨rfl, fun _ => rfl⟩⟩

theorem played_respawn (s : NetServer) (id : ℤ) : Played s (s.respawn id) := by
  have hset := (played_setPawn s id fun pawn =>
    { pawn with health := 100, ammo := 12, reload_time := 0, cooldown := 0, respawn_time := 0 })
  refine ⟨rfl, rfl, rfl, fun _ => rfl, fun _ => Iff.rfl, hset.pawns, hset.kept, ?_, .inl ⟨rfl, fun _ => rfl⟩⟩
  intro other hother
  exact (AList.mem_erase.mp hother).2

theorem played_finishMatch (s : NetServer) : Played s s.finishMatch := by
  refine ⟨rfl, rfl, rfl, ?_, fun _ => Iff.rfl, fun _ => .inl, fun _ h => h, ?_, .inr ⟨rfl, ?_⟩⟩
  · intro id
    rw [NetServer.finishMatch, AList.lookup_mapValues, Option.map_map]
    rfl
  · intro id hid
    cases hid
  · intro id m hm
    rw [NetServer.finishMatch, AList.lookup_mapValues] at hm
    obtain ⟨m', -, rfl⟩ := Option.map_eq_some_iff.mp hm
    rfl

theorem played_damage (s : NetServer) (attacker victim amount : ℤ) :
    Played s (s.damage config attacker victim amount) := by
  unfold NetServer.damage
  split
  · exact .refl s
  · rename_i pawn hl
    dsimp only
    split
    · exact .refl s
    · have hhurt := (played_setPawn s victim fun p => { p with health := max 0 (pawn.health - amount) }).trans
        (played_record _ (.damaged attacker victim (max 0 (pawn.health - amount))))
      split
      · have hdown := hhurt.trans (played_setPawn _ victim fun p =>
          { p with deaths := p.deaths + 1, respawn_time := 3 })
        split <;> split
        · exact (hdown.trans (played_setPawn ..)).trans (played_finishMatch _)
        · exact hdown.trans (played_setPawn ..)
        · exact hdown.trans (played_finishMatch _)
        · exact hdown
      · exact hhurt

theorem played_fireWeapon (s : NetServer) (id : ℤ) : Played s (s.fireWeapon config world id) := by
  have hshot := (played_setPawn s id fun pawn => { pawn with ammo := pawn.ammo - 1, cooldown := 18 / 100 }).trans
    (played_record _ (.shot id))
  unfold NetServer.fireWeapon
  dsimp only
  split
  · exact hshot
  · split
    · exact hshot.trans (played_damage ..)
    · exact hshot

theorem played_simulate (s : NetServer) (id : ℤ) (pawn : Pawn) (reload : Bool) :
    Played s (s.simulate id delta pawn reload) := by
  have hmove := (played_setPawn s id fun pawn => pawn.simulate delta reload).trans (played_record _ (.simulated id))
  unfold NetServer.simulate
  dsimp only
  split
  · exact hmove.trans (played_record ..)
  · exact hmove

theorem played_clearEdges (s : NetServer) (id : ℤ) : Played s (s.clearEdges id) := by
  refine ⟨rfl, rfl, rfl, fun _ => rfl, fun _ => Iff.rfl, fun _ => .inl, fun _ h => h, ?_, .inl ⟨rfl, fun _ => rfl⟩⟩
  intro other hother
  exact (AList.mem_adjust ..).mp hother

theorem played_pawnTurn (s : NetServer) (id : ℤ) : Played s (s.pawnTurn config delta world id).2 := by
  unfold NetServer.pawnTurn
  split
  · exact .refl s
  · rename_i pawn hl
    dsimp only
    split
    · have hwait := played_setPawn s id fun pawn => { pawn with respawn_time := pawn.respawn_time - delta }
      dsimp only
      split
      · exact hwait.trans (played_respawn ..)
      · exact hwait
    · have hmove := played_simulate delta s id pawn ((s.freshInput config id).any (·.reload))
      generalize s.simulate id delta pawn ((s.freshInput config id).any (·.reload)) = t at hmove ⊢
      have hfire : Played s (if (s.freshInput config id).any (·.fire) && (t.pawns.lookup id).any (·.canFire) then
          t.fireWeapon config world id else t) := by
        split
        · exact hmove.trans (played_fireWeapon ..)
        · exact hmove
      generalize (if (s.freshInput config id).any (·.fire) && (t.pawns.lookup id).any (·.canFire) then
        t.fireWeapon config world id else t) = u at hfire ⊢
      split
      · exact hfire
      · have hedges : Played s (if (s.freshInput config id).isSome then u.clearEdges id else u) := by
          split
          · exact hfire.trans (played_clearEdges ..)
          · exact hfire
        dsimp only
        split
        · exact hedges.trans (played_damage ..)
        · exact hedges

theorem played_pawnLoop (ids : List ℤ) (s : NetServer) : Played s (NetServer.pawnLoop config delta world ids s) := by
  induction ids generalizing s with
  | nil => exact .refl s
  | cons id ids ih =>
    have hturn := played_pawnTurn config delta world s id
    unfold NetServer.pawnLoop
    split
    · rename_i t ht
      rw [ht] at hturn
      exact hturn.trans (ih t)
    · rename_i t ht
      rw [ht] at hturn
      exact hturn

theorem played_observe (s : NetServer) (id : ℤ) : Played s (s.observe config world id) := by
  unfold NetServer.observe
  split
  · refine ⟨rfl, rfl, rfl, ?_, fun _ => AList.mem_adjust .., fun _ => .inl, fun _ h => h, fun _ h => h,
      .inl ⟨rfl, ?_⟩⟩
    all_goals
      intro other
      rw [AList.lookup_adjust]
      split
      · rw [Option.map_map]
        rfl
      · rfl
  · exact .refl s

theorem played_clocks (s : NetServer) (x y : ℚ) : Played s { s with match_left := x, telemetry_elapsed := y } :=
  ⟨rfl, rfl, rfl, fun _ => rfl, fun _ => Iff.rfl, fun _ => .inl, fun _ h => h, fun _ h => h, .inl ⟨rfl, fun _ => rfl⟩⟩

theorem played_timeUp (s : NetServer) : Played s s.timeUp := by
  unfold NetServer.timeUp
  split
  · exact played_finishMatch s
  · exact .refl s

theorem played_telemetry (s : NetServer) : Played s (s.telemetry config delta world) := by
  have hlater := played_clocks s s.match_left (s.telemetry_elapsed + delta)
  unfold NetServer.telemetry
  dsimp only
  split
  · have hseen := hlater.trans (played_fold s.pawns.keys.reverse fun s id _ _ =>
      played_observe config world s id)
    exact hseen.trans (played_clocks _ _ 0)
  · exact hlater

theorem played_matchTick (s : NetServer) : Played s (s.matchTick config delta world) := by
  have hstart : Played s (s.runClock delta) := (played_record s (.advanced delta)).trans
    (played_clocks _ (max 0 (s.match_left - delta)) s.telemetry_elapsed)
  exact ((hstart.trans (played_pawnLoop ..)).trans (played_timeUp _)).trans (played_telemetry ..)

theorem played_enlist (s : NetServer) {player : ℤ} (h : player ∈ s.members) : Played s (s.enlist player) := by
  have hspawn : Played s (if player ∈ s.pawns then s else s.spawn player) := by
    split
    · exact .refl s
    · refine ⟨rfl, rfl, rfl, fun _ => rfl, fun _ => Iff.rfl, ?_, ?_, fun _ h => h, .inl ⟨rfl, fun _ => rfl⟩⟩
      · intro other hother
        rcases (AList.mem_insert _).mp hother with rfl | hother
        · exact .inr h
        · exact .inl hother
      · intro other hother
        exact (AList.mem_insert _).mpr (.inr hother)
  exact (hspawn.trans (played_setPawn ..)).trans (played_respawn ..)

/-- A match starts with the members of the lobby, whatever it does to the phase. -/
theorem played_startMatch (s : NetServer) :
    Played { s with phase := .inMatch } (s.startMatch config) := by
  have hstart : Played { s with phase := .inMatch }
      { s.record .started with phase := .inMatch, match_left := config.duration_seconds.1 } :=
    (played_record _ .started).trans (played_clocks _ _ s.telemetry_elapsed)
  refine hstart.trans (played_fold _ fun t player ht hplayer => played_enlist t ?_)
  rw [ht.members]
  exact AList.mem_keys.mpr (List.mem_reverse.mp hplayer)

end

end ArenaLab
