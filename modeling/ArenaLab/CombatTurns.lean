import ArenaLab.CombatLog
import ArenaLab.NetAdmission

/-! One tick of the combat: the loop over the pawns keeps every pawn as the log has it. -/

namespace ArenaLab

open EventLog CombatEvent

/-- Every pawn is as the log has it; `owed` is the time that each is still behind. -/
structure CombatInv (limit : ℤ) (owed : ℤ → ℚ) (s : NetServer) : Prop where
  pawns : ∀ p pawn, s.pawns.lookup p = some pawn → PawnInv s.log p (owed p) pawn
  passed : Passed (combatTest limit) s.log
  below : s.phase = .inMatch → ∀ p, (killsIn p s.log : ℤ) < limit

section

variable {s s' : NetServer} {limit : ℤ} {owed less : ℤ → ℚ} {delta : ℚ} {id p a v amount : ℤ} {pawn : Pawn}
  {config : MatchConfig} {world : World} {e : CombatEvent}

theorem CombatInv.congr (h : CombatInv limit owed s) (hpawns : s'.pawns = s.pawns) (hlog : s'.log = s.log)
    (hphase : s'.phase = .inMatch → s.phase = .inMatch) : CombatInv limit owed s' := by
  refine ⟨?_, ?_, ?_⟩
  · rw [hpawns, hlog]
    exact h.pawns
  · rw [hlog]
    exact h.passed
  · rw [hlog]
    exact fun hp => h.below (hphase hp)

theorem CombatInv.owe (h : CombatInv limit owed s) (hless : ∀ p, less p ≤ owed p) : CombatInv limit less s :=
  ⟨fun p pawn hp => (h.pawns p pawn hp).owe (hless p), h.passed, h.below⟩

/-- An event that concerns no pawn of the server and passes the test. -/
theorem CombatInv.record (h : CombatInv limit owed s) (htest : combatTest limit s.log e)
    (he : ∀ p, e.concerns p = false) : CombatInv limit owed (s.record e) := by
  refine ⟨fun p pawn hp => (h.pawns p pawn hp).frame (he p), ⟨htest, h.passed⟩, ?_⟩
  intro hphase p
  obtain ⟨-, hstarts, -, -, -, hkill⟩ := concerns_false (he p)
  have hbelow := h.below hphase p
  rw [killsIn] at hbelow
  change (killsIn p (e :: s.log) : ℤ) < limit
  rw [killsIn, countSince_other hstarts hkill]
  exact hbelow

theorem CombatInv.finished (h : CombatInv limit owed s) : CombatInv limit owed s.finishMatch := by
  have hquiet : combatTest limit s.log .finished := combatTest_quiet (fun _ => rfl) (fun _ => rfl) rfl
  have hrecord : CombatInv limit owed (s.record .finished) := h.record hquiet fun _ => rfl
  exact hrecord.congr rfl rfl nofun

/-- One pawn changes with an event that concerns no other. -/
theorem CombatInv.moved (h : CombatInv limit owed s) {f : Pawn → Pawn} (hpawn : s.pawns.lookup id = some pawn)
    (htest : combatTest limit s.log e) (he : ∀ p, p ≠ id → e.concerns p = false)
    (hf : PawnInv (e :: s.log) id (less id) (f pawn)) (hless : ∀ p, p ≠ id → less p ≤ owed p)
    (hkills : s.phase = .inMatch → (killsIn id (e :: s.log) : ℤ) < limit) :
    CombatInv limit less ((s.setPawn id f).record e) := by
  refine ⟨?_, ⟨htest, h.passed⟩, ?_⟩
  · intro p q hq
    have hq : (s.pawns.adjust id f).lookup p = some q := hq
    by_cases hp : p = id
    · subst hp
      rw [AList.lookup_adjust_self, hpawn] at hq
      obtain rfl := Option.some.inj hq
      exact hf
    · rw [AList.lookup_adjust_ne _ _ _ hp] at hq
      exact ((h.pawns p q hq).frame (he p hp)).owe (hless p hp)
  · intro hphase p
    by_cases hp : p = id
    · subst hp
      exact hkills hphase
    · obtain ⟨-, hstarts, -, -, -, hkill⟩ := concerns_false (he p hp)
      have hbelow := h.below hphase p
      rw [killsIn] at hbelow
      change (killsIn p (e :: s.log) : ℤ) < limit
      rw [killsIn, countSince_other hstarts hkill]
      exact hbelow

/-- A pawn changes and nothing is logged. -/
theorem CombatInv.set (h : CombatInv limit owed s) {f : Pawn → Pawn} (hpawn : s.pawns.lookup id = some pawn)
    (hf : PawnInv s.log id (less id) (f pawn)) (hless : ∀ p, p ≠ id → less p ≤ owed p) :
    CombatInv limit less (s.setPawn id f) := by
  refine ⟨?_, h.passed, h.below⟩
  intro p q hq
  have hq : (s.pawns.adjust id f).lookup p = some q := hq
  by_cases hp : p = id
  · subst hp
    rw [AList.lookup_adjust_self, hpawn] at hq
    obtain rfl := Option.some.inj hq
    exact hf
  · rw [AList.lookup_adjust_ne _ _ _ hp] at hq
    exact (h.pawns p q hq).owe (hless p hp)

/-- The end of a match needs no bound on the kills. -/
theorem finished_inv (hpawns : ∀ p pawn, s.pawns.lookup p = some pawn → PawnInv s.log p (owed p) pawn)
    (hpassed : Passed (combatTest limit) s.log) : CombatInv limit owed s.finishMatch :=
  ⟨fun p pawn hp => (hpawns p pawn hp).frame rfl,
    ⟨combatTest_quiet (fun _ => rfl) (fun _ => rfl) rfl, hpassed⟩, nofun⟩

/-- The bound on the kills after a hit, if the one who hits is still below it. -/
theorem below_damaged {health : ℤ} (hbelow : ∀ p, (killsIn p s.log : ℤ) < limit)
    (ha : a ≠ v → (killsIn a (.damaged a v health :: s.log) : ℤ) < limit) (p : ℤ) :
    (killsIn p (.damaged a v health :: s.log) : ℤ) < limit := by
  by_cases hp : p = a
  · subst hp
    by_cases hv : p = v
    · rw [killsIn_damaged (.inr hv)]
      exact hbelow p
    · exact ha hv
  · rw [killsIn_damaged (.inl hp)]
    exact hbelow p

theorem CombatInv.damaged (h : CombatInv config.frag_limit.1 owed s) (hphase : s.phase = .inMatch)
    (hv : s.pawns.lookup v = some pawn) (hpos : 0 < pawn.health) (hamount : 0 ≤ amount) (ha : a ∈ s.pawns) :
    CombatInv config.frag_limit.1 owed (s.damage config a v amount) := by
  have hbelow := h.below hphase
  have hvictim := (h.pawns v pawn hv).hurt hpos hamount (a := a)
  have htest : combatTest config.frag_limit.1 s.log (.damaged a v (max 0 (pawn.health - amount))) :=
    damaged_test ((h.pawns v pawn hv).alive hpos) hbelow
  unfold NetServer.damage
  rw [hv]
  dsimp only
  rw [if_neg (by omega)]
  generalize max 0 (pawn.health - amount) = left at hvictim htest ⊢
  have hpassed : Passed (combatTest config.frag_limit.1) (.damaged a v left :: s.log) := ⟨htest, h.passed⟩
  have hother : ∀ p q, p ≠ v → p ≠ a → s.pawns.lookup p = some q →
      PawnInv (.damaged a v left :: s.log) p (owed p) q := by
    intro p q hpv hpa hq
    refine (h.pawns p q hq).frame ?_
    simp [concerns, Ne.symm hpv, Ne.symm hpa]
  by_cases hzero : left = 0
  · rw [if_pos hzero]
    rw [if_pos hzero] at hvictim
    by_cases hav : a = v
    · have hnone : ¬a ≠ v := not_not.mpr hav
      rw [if_neg hnone]
      have hpawns : ∀ p q, ((s.pawns.adjust v fun q => { q with health := left }).adjust v fun q =>
          { q with deaths := q.deaths + 1, respawn_time := 3 }).lookup p = some q →
          PawnInv (.damaged a v left :: s.log) p (owed p) q := by
        intro p q hq
        by_cases hp : p = v
        · subst hp
          rw [AList.lookup_adjust_self, AList.lookup_adjust_self, hv] at hq
          obtain rfl := Option.some.inj hq
          exact hvictim
        · rw [AList.lookup_adjust_ne _ _ _ hp, AList.lookup_adjust_ne _ _ _ hp] at hq
          exact hother p q hp (hav ▸ hp) hq
      split
      · exact finished_inv hpawns hpassed
      · exact ⟨hpawns, hpassed, fun _ => below_damaged hbelow fun hne => absurd hav hne⟩
    · have hne : a ≠ v := hav
      rw [if_pos hne]
      obtain ⟨shooter, hshooter⟩ := AList.exists_lookup ha
      have hscored := (h.pawns a shooter hshooter).scored left (Ne.symm hne)
      rw [if_pos hzero] at hscored
      have hlook : (((s.pawns.adjust v fun q => { q with health := left }).adjust v fun q =>
          { q with deaths := q.deaths + 1, respawn_time := 3 }).adjust a fun q =>
          { q with kills := q.kills + 1 }).lookup a = some { shooter with kills := shooter.kills + 1 } := by
        rw [AList.lookup_adjust_self, AList.lookup_adjust_ne _ _ _ hne, AList.lookup_adjust_ne _ _ _ hne, hshooter]
        rfl
      have hpawns : ∀ p q, (((s.pawns.adjust v fun q => { q with health := left }).adjust v fun q =>
          { q with deaths := q.deaths + 1, respawn_time := 3 }).adjust a fun q =>
          { q with kills := q.kills + 1 }).lookup p = some q →
          PawnInv (.damaged a v left :: s.log) p (owed p) q := by
        intro p q hq
        by_cases hpa : p = a
        · subst hpa
          rw [hlook] at hq
          obtain rfl := Option.some.inj hq
          exact hscored
        · rw [AList.lookup_adjust_ne _ _ _ hpa] at hq
          by_cases hpv : p = v
          · subst hpv
            rw [AList.lookup_adjust_self, AList.lookup_adjust_self, hv] at hq
            obtain rfl := Option.some.inj hq
            exact hvictim
          · rw [AList.lookup_adjust_ne _ _ _ hpv, AList.lookup_adjust_ne _ _ _ hpv] at hq
            exact hother p q hpv hpa hq
      split
      · exact finished_inv hpawns hpassed
      · rename_i hcheck
        refine ⟨hpawns, hpassed, fun _ => below_damaged hbelow fun _ => ?_⟩
        have hcheck : ¬((some { shooter with kills := shooter.kills + 1 } : Option Pawn).any
            fun q => decide (config.frag_limit.1 ≤ q.kills)) = true := hlook ▸ hcheck
        rw [Option.any_some, decide_eq_true_eq, not_le] at hcheck
        have hkills : shooter.kills + 1 = killsIn a (.damaged a v left :: s.log) := hscored.kills
        change (killsIn a (.damaged a v left :: s.log) : ℤ) < config.frag_limit.1
        rw [← hkills]
        exact hcheck
  · rw [if_neg hzero]
    rw [if_neg hzero] at hvictim
    refine ⟨?_, hpassed, ?_⟩
    · intro p q hlook
      have hq : (s.pawns.adjust v fun q => { q with health := left }).lookup p = some q := hlook
      clear hlook
      by_cases hpv : p = v
      · subst hpv
        rw [AList.lookup_adjust_self, hv] at hq
        obtain rfl := Option.some.inj hq
        exact hvictim
      · rw [AList.lookup_adjust_ne _ _ _ hpv] at hq
        by_cases hpa : p = a
        · subst hpa
          have hscored := (h.pawns p q hq).scored left (Ne.symm hpv)
          rw [if_neg hzero] at hscored
          exact hscored
        · exact hother p q hpv hpa hq
    · intro _ p
      refine below_damaged hbelow ?_ p
      intro hne
      have hkill : (CombatEvent.damaged a v left).killBy a = false := by simp [killBy, hzero]
      have hbefore := hbelow a
      rw [killsIn] at hbefore
      rw [killsIn, countSince_other rfl hkill]
      exact hbefore

/-- A damage never starts a match, and one that a pawn does to itself does not end it. -/
theorem phase_damage (h : CombatInv config.frag_limit.1 owed s) (hphase : s.phase = .inMatch) :
    (s.damage config id id amount).phase = .inMatch := by
  unfold NetServer.damage
  split
  · exact hphase
  · rename_i pawn hl
    dsimp only
    split
    · exact hphase
    · generalize max 0 (pawn.health - amount) = left
      split
      · have hkills : pawn.kills < config.frag_limit.1 := by
          rw [(h.pawns id pawn hl).kills]
          exact h.below hphase id
        have hself : ¬id ≠ id := not_not.mpr rfl
        have hlook : ((s.pawns.adjust id fun q => { q with health := left }).adjust id fun q =>
            { q with deaths := q.deaths + 1, respawn_time := 3 }).lookup id =
            some { pawn with health := left, deaths := pawn.deaths + 1, respawn_time := 3 } := by
          rw [AList.lookup_adjust_self, AList.lookup_adjust_self, hl]
          rfl
        rw [if_neg hself, if_neg]
        · exact hphase
        · intro hcheck
          have hcheck : (some { pawn with health := left, deaths := pawn.deaths + 1, respawn_time := 3 }).any
              (fun q => decide (config.frag_limit.1 ≤ q.kills)) = true := hlook ▸ hcheck
          rw [Option.any_some, decide_eq_true_eq] at hcheck
          exact absurd hkills (not_lt.mpr hcheck)
      · exact hphase

theorem CombatInv.fire (h : CombatInv config.frag_limit.1 owed s) (hphase : s.phase = .inMatch) (howed : owed id = 0)
    (hpawn : s.pawns.lookup id = some pawn) (hfire : pawn.canFire = true) :
    CombatInv config.frag_limit.1 owed (s.fireWeapon config world id) := by
  have hinv := h.pawns id pawn hpawn
  rw [howed] at hinv
  have hshot := hinv.shot hfire
  have htest : combatTest config.frag_limit.1 s.log (.shot id) := hinv.shotTest hfire
  have hshoot : CombatInv config.frag_limit.1 owed ((s.setPawn id fun pawn =>
      { pawn with ammo := pawn.ammo - 1, cooldown := 18 / 100 }).record (.shot id)) := by
    refine h.moved hpawn htest ?_ ?_ (fun _ _ => le_refl _) ?_
    · intro p hp
      simp [concerns, Ne.symm hp]
    · rw [howed]
      exact hshot
    · intro _
      rw [← hshot.kills]
      change pawn.kills < _
      rw [hinv.kills]
      exact h.below hphase id
  unfold NetServer.fireWeapon
  dsimp only
  split
  · exact hshoot
  · rename_i other hhit
    split
    · rename_i halive
      obtain ⟨q, hq, hpos⟩ := (Option.any_eq_true ..).mp halive
      refine hshoot.damaged hphase hq (of_decide_eq_true hpos) (by decide) ?_
      exact (AList.mem_adjust ..).mpr (AList.mem_of_lookup hpawn)
    · exact hshoot

/-- A pawn that falls off is hit by itself, if it is alive. -/
theorem CombatInv.fall (h : CombatInv config.frag_limit.1 owed s) (hphase : s.phase = .inMatch) :
    CombatInv config.frag_limit.1 owed (s.damage config id id 100) := by
  cases hpawn : s.pawns.lookup id with
  | none =>
    unfold NetServer.damage
    rw [hpawn]
    exact h
  | some pawn =>
    by_cases hpos : 0 < pawn.health
    · exact h.damaged hphase hpawn hpos (by decide) (AList.mem_of_lookup hpawn)
    · unfold NetServer.damage
      rw [hpawn]
      dsimp only
      rw [if_pos (not_lt.mp hpos)]
      exact h

theorem CombatInv.simulate (h : CombatInv limit owed s) (hpawn : s.pawns.lookup id = some pawn)
    (hpos : 0 < pawn.health) (howed : owed id = delta) (hdelta : 0 ≤ delta) (reload : Bool) :
    CombatInv limit (Function.update owed id 0) (s.simulate id delta pawn reload) := by
  have hinv := h.pawns id pawn hpawn
  rw [howed] at hinv
  have htest : combatTest limit s.log (.simulated id) := by
    refine ⟨?_, ?_, ?_⟩
    · intro p hp
      obtain rfl : id = p := by simpa [involves] using hp
      exact hinv.alive hpos
    · intro p hshot
      cases hshot
    · intro hhits
      cases hhits
  have hrecord : CombatInv limit owed (s.record (.simulated id)) := h.record htest fun _ => rfl
  have hmoved : PawnInv _ id 0 _ := (hinv.frame (e := .simulated id) rfl).simulated hpos hdelta reload
  have hless : ∀ p, p ≠ id → Function.update owed id 0 p ≤ owed p := by
    intro p hp
    rw [Function.update_of_ne hp]
  have hzero : Function.update owed id 0 id = 0 := Function.update_self ..
  unfold NetServer.simulate
  dsimp only
  by_cases hreload : pawn.reloads delta = true
  · rw [if_pos hreload] at hmoved ⊢
    have hquiet : combatTest limit (s.record (.simulated id)).log (.reloaded id) := by
      refine ⟨?_, ?_, ?_⟩
      · intro p hdown
        cases hdown
      · intro p hshot
        cases hshot
      · intro hhits
        cases hhits
    have hboth : CombatInv limit (Function.update owed id 0) (((s.record (.simulated id)).setPawn id fun pawn =>
        pawn.simulate delta reload).record (.reloaded id)) := by
      refine hrecord.moved hpawn hquiet ?_ ?_ hless ?_
      · intro p hp
        simp [concerns, Ne.symm hp]
      · rw [hzero]
        exact hmoved
      · intro hphase
        have hbelow := hrecord.below hphase id
        rw [killsIn] at hbelow
        rw [killsIn, countSince_other rfl rfl]
        exact hbelow
    exact hboth
  · rw [if_neg hreload] at hmoved ⊢
    have hset : CombatInv limit (Function.update owed id 0) ((s.record (.simulated id)).setPawn id fun pawn =>
        pawn.simulate delta reload) := by
      refine hrecord.set hpawn ?_ hless
      rw [hzero]
      exact hmoved
    exact hset

theorem CombatInv.respawn (h : CombatInv limit owed s) (hpawn : s.pawns.lookup id = some pawn)
    (hzero : owed id = 0) (hrested : ∀ mid, After starts s.log (.shot id) mid → 18 / 100 ≤ elapsed mid) :
    CombatInv limit owed (s.respawn id) := by
  have hinv := h.pawns id pawn hpawn
  have hquiet : combatTest limit s.log (.respawned id) := combatTest_quiet (fun _ => rfl) (fun _ => rfl) rfl
  have hmoved : CombatInv limit owed ((s.setPawn id fun pawn =>
      { pawn with health := 100, ammo := 12, reload_time := 0, cooldown := 0, respawn_time := 0 }).record
      (.respawned id)) := by
    refine h.moved hpawn hquiet ?_ ?_ (fun _ _ => le_refl _) ?_
    · intro p hp
      simp [concerns, Ne.symm hp]
    · rw [hzero]
      exact respawned_inv hinv.kills hinv.deaths hrested
    · intro hphase
      have hbelow := h.below hphase id
      rw [killsIn] at hbelow
      rw [killsIn, countSince_other rfl rfl]
      exact hbelow
  exact hmoved.congr rfl rfl fun hphase => hphase

/-- One turn of the loop settles what is owed to its pawn, and goes on only within the match. -/
theorem CombatInv.turn (h : CombatInv config.frag_limit.1 owed s) (hphase : s.phase = .inMatch)
    (howed : owed id = delta) (hdelta : 0 ≤ delta) :
    CombatInv config.frag_limit.1 (Function.update owed id 0) (s.pawnTurn config delta world id).2 ∧
    ((s.pawnTurn config delta world id).1 = true → (s.pawnTurn config delta world id).2.phase = .inMatch) := by
  have hless : ∀ p, Function.update owed id 0 p ≤ owed p := by
    intro p
    by_cases hp : p = id
    · subst hp
      rw [Function.update_self, howed]
      exact hdelta
    · rw [Function.update_of_ne hp]
  have hzero : Function.update owed id 0 id = 0 := Function.update_self ..
  unfold NetServer.pawnTurn
  split
  · exact ⟨h.owe hless, fun _ => hphase⟩
  · rename_i pawn hpawn
    have hinv := h.pawns id pawn hpawn
    rw [howed] at hinv
    dsimp only
    split
    · rename_i hdead
      have hdead : pawn.health = 0 := le_antisymm hdead hinv.healthy.1
      have hwait : CombatInv config.frag_limit.1 (Function.update owed id 0)
          (s.setPawn id fun pawn => { pawn with respawn_time := pawn.respawn_time - delta }) := by
        refine h.set hpawn ?_ fun p _ => hless p
        rw [hzero]
        exact hinv.wait hdead hdelta
      dsimp only
      split
      · rename_i hup
        refine ⟨hwait.respawn (AList.lookup_adjust_self .. |>.trans (congrArg _ hpawn)) hzero ?_, fun _ => hphase⟩
        intro mid hmid
        have hrest := (hinv.rested mid hmid).2.2 hdead
        linarith
      · exact ⟨hwait, fun _ => hphase⟩
    · rename_i hlive
      have hmove := h.simulate hpawn (not_le.mp hlive) howed hdelta ((s.freshInput config id).any (·.reload))
      have hmoved : (s.simulate id delta pawn ((s.freshInput config id).any (·.reload))).phase = .inMatch := by
        unfold NetServer.simulate
        dsimp only
        split <;> exact hphase
      generalize s.simulate id delta pawn ((s.freshInput config id).any (·.reload)) = t at hmove hmoved ⊢
      have hfire : CombatInv config.frag_limit.1 (Function.update owed id 0)
          (if (s.freshInput config id).any (·.fire) && (t.pawns.lookup id).any (·.canFire) then
            t.fireWeapon config world id else t) := by
        split
        · rename_i hready
          rw [Bool.and_eq_true] at hready
          obtain ⟨q, hq, hcan⟩ := (Option.any_eq_true ..).mp hready.2
          exact hmove.fire hmoved hzero hq hcan
        · exact hmove
      generalize (if (s.freshInput config id).any (·.fire) && (t.pawns.lookup id).any (·.canFire) then
        t.fireWeapon config world id else t) = u at hfire ⊢
      split
      · exact ⟨hfire, nofun⟩
      · rename_i hstill
        have hstill : u.phase = .inMatch := not_not.mp hstill
        have hedges : CombatInv config.frag_limit.1 (Function.update owed id 0)
            (if (s.freshInput config id).isSome then u.clearEdges id else u) ∧
            (if (s.freshInput config id).isSome then u.clearEdges id else u).phase = .inMatch := by
          split
          · exact ⟨hfire.congr rfl rfl fun hp => hp, hstill⟩
          · exact ⟨hfire, hstill⟩
        generalize (if (s.freshInput config id).isSome then u.clearEdges id else u) = w at hedges ⊢
        obtain ⟨hinv', hphase'⟩ := hedges
        dsimp only
        split
        · refine ⟨?_, fun _ => phase_damage hinv' hphase'⟩
          exact hinv'.fall hphase'
        · exact ⟨hinv', fun _ => hphase'⟩

theorem CombatInv.loop (ids : List ℤ) (hnodup : ids.Nodup) (hdelta : 0 ≤ delta) (hphase : s.phase = .inMatch)
    (h : CombatInv config.frag_limit.1 (fun p => if p ∈ ids then delta else 0) s) :
    CombatInv config.frag_limit.1 (fun _ => 0) (NetServer.pawnLoop config delta world ids s) := by
  induction ids generalizing s with
  | nil => exact h.owe fun p => le_refl _
  | cons id ids ih =>
    obtain ⟨hid, hnodup⟩ := List.nodup_cons.mp hnodup
    obtain ⟨hturn, hgo⟩ := h.turn hphase (if_pos List.mem_cons_self) hdelta
    have hrest : CombatInv config.frag_limit.1 (fun p => if p ∈ ids then delta else 0)
        (s.pawnTurn config delta world id).2 := by
      refine hturn.owe ?_
      intro p
      by_cases hp : p = id
      · subst hp
        rw [Function.update_self, if_neg hid]
      · rw [Function.update_of_ne hp]
        simp [hp]
    have hzero : CombatInv config.frag_limit.1 (fun _ => 0) (s.pawnTurn config delta world id).2 := by
      refine hrest.owe ?_
      intro p
      split
      · exact hdelta
      · exact le_refl _
    unfold NetServer.pawnLoop
    split
    · rename_i t ht
      rw [ht] at hrest hgo
      exact ih hnodup (hgo rfl) hrest
    · rename_i t ht
      rw [ht] at hzero
      exact hzero

theorem CombatInv.observe (h : CombatInv limit owed s) (id : ℤ) :
    CombatInv limit owed (s.observe config world id) := by
  unfold NetServer.observe
  split
  · exact h.congr rfl rfl fun hp => hp
  · exact h

theorem CombatInv.telemetry (h : CombatInv limit owed s) : CombatInv limit owed (s.telemetry config delta world) := by
  have hfold : ∀ (ids : List ℤ) (t : NetServer), CombatInv limit owed t →
      CombatInv limit owed (ids.foldl (NetServer.observe config world) t) := by
    intro ids
    induction ids with
    | nil => exact fun t ht => ht
    | cons id ids ih => exact fun t ht => ih _ (ht.observe id)
  have hlater : CombatInv limit owed { s with telemetry_elapsed := s.telemetry_elapsed + delta } :=
    h.congr rfl rfl fun hp => hp
  unfold NetServer.telemetry
  dsimp only
  split
  · exact (hfold _ _ hlater).congr rfl rfl fun hp => hp
  · exact hlater

theorem CombatInv.matchTick (h : CombatInv config.frag_limit.1 (fun _ => 0) s) (hphase : s.phase = .inMatch)
    (hdelta : 0 ≤ delta) : CombatInv config.frag_limit.1 (fun _ => 0) (s.matchTick config delta world) := by
  have hclock : CombatInv config.frag_limit.1 (fun _ => delta) (s.runClock delta) := by
    refine ⟨fun p pawn hp => (h.pawns p pawn hp).advanced delta,
      ⟨combatTest_quiet (fun _ => rfl) (fun _ => rfl) rfl, h.passed⟩, ?_⟩
    intro hphase p
    have hbelow := h.below hphase p
    change (killsIn p (.advanced delta :: s.log) : ℤ) < _
    rw [killsIn] at hbelow
    rw [killsIn, countSince_other rfl rfl]
    exact hbelow
  have howed : CombatInv config.frag_limit.1
      (fun p => if p ∈ (s.runClock delta).pawns.keys.reverse then delta else 0) (s.runClock delta) := by
    refine hclock.owe ?_
    intro p
    split
    · exact le_refl _
    · exact hdelta
  have hloop : CombatInv config.frag_limit.1 (fun _ => 0)
      (NetServer.pawnLoop config delta world (s.runClock delta).pawns.keys.reverse (s.runClock delta)) :=
    CombatInv.loop _ (List.nodup_reverse.mpr (AList.keys_nodup _)) hdelta hphase howed
  have hover : CombatInv config.frag_limit.1 (fun _ => 0)
      (NetServer.pawnLoop config delta world (s.runClock delta).pawns.keys.reverse (s.runClock delta)).timeUp := by
    unfold NetServer.timeUp
    split
    · exact hloop.finished
    · exact hloop
  exact hover.telemetry

end

end ArenaLab
