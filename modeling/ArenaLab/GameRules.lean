import ArenaLab.GameCore

/-! What holds of the world after every finite play. -/

namespace ArenaLab

structure PlayerRules (p : GamePlayer) : Prop where
  x_range : -gameEdgeMm ≤ p.x_mm ∧ p.x_mm ≤ gameEdgeMm
  y_range : -gameEdgeMm ≤ p.y_mm ∧ p.y_mm ≤ gameEdgeMm
  grid : gameStepMm ∣ p.x_mm ∧ gameStepMm ∣ p.y_mm
  facing : p.facing_x = 0 ∧ (p.facing_y = 1 ∨ p.facing_y = -1) ∨
    p.facing_y = 0 ∧ (p.facing_x = 1 ∨ p.facing_x = -1)
  shots : p.ammo ≤ gameAmmo ∧ p.hits ≤ gameAmmo - p.ammo

structure GameRules (w : GameWorld) : Prop where
  own : ∀ i, PlayerRules (w.players i)
  health : ∀ i, (w.players (1 - i)).health + gameDamage * (w.players i).hits = gameHealth
  kills : ∀ i, (w.players i).kills = if (w.players (1 - i)).health = 0 then 1 else 0
  apart : (w.players 0).alive = true → (w.players 1).alive = true →
    ¬((w.players 0).x_mm = (w.players 1).x_mm ∧ (w.players 0).y_mm = (w.players 1).y_mm)
  fire : ∀ i, (w.players i).next_fire_tick.toNat ≤ w.tick.toNat + 4

theorem slot_cases (i s : Fin 2) : i = s ∨ i = 1 - s := by
  revert i s
  decide

theorem other_other (s : Fin 2) : 1 - (1 - s) = s := by
  revert s
  decide

theorem other_ne (s : Fin 2) : 1 - s ≠ s := by
  revert s
  decide

theorem direction_cases {axis : UInt8} (h : ¬axisPos < axis) :
    axis = axisNone ∧ direction axis = 0 ∨
      axis ≠ axisNone ∧ (direction axis = 1 ∨ direction axis = -1) := by
  have hle : axis.toNat ≤ 2 := UInt8.le_iff_toNat_le.mp (UInt8.not_lt.mp h)
  have hcase : axis = 0 ∨ axis = 1 ∨ axis = 2 := by
    simp only [← UInt8.toNat_inj]
    show axis.toNat = 0 ∨ axis.toNat = 1 ∨ axis.toNat = 2
    omega
  rcases hcase with rfl | rfl | rfl
  · exact .inl (by decide)
  · exact .inr (by decide)
  · exact .inr (by decide)

theorem valid_move {input : GameInput} (h : validInput input = true)
    (hact : input.action = gameMove) :
    direction input.axis_x = 0 ∧ (direction input.axis_y = 1 ∨ direction input.axis_y = -1) ∨
      direction input.axis_y = 0 ∧ (direction input.axis_x = 1 ∨ direction input.axis_x = -1) := by
  simp only [validInput, hact] at h
  split at h
  · cases h
  · rename_i hshape
    simp only [Bool.or_eq_true, decide_eq_true_eq, not_or] at hshape
    obtain ⟨⟨_, hx⟩, hy⟩ := hshape
    rcases direction_cases hx with ⟨hx0, hdx⟩ | ⟨hx0, hdx⟩ <;>
      rcases direction_cases hy with ⟨hy0, hdy⟩ | ⟨hy0, hdy⟩
    · simp [hx0, hy0] at h
    · exact .inl ⟨hdx, hdy⟩
    · exact .inr ⟨hdy, hdx⟩
    · simp [hx0, hy0] at h

section

variable {w w' : GameWorld}

theorem commit_self (w : GameWorld) (s : Fin 2) (next : GamePlayer) (damage : Bool)
    (sequence : UInt32) :
    (w.commit s next damage sequence).players s = next.noted w.tick sequence := by
  cases damage with
  | false => simp [GameWorld.commit]
  | true => simp [GameWorld.commit, (other_ne s).symm]

theorem commit_other (w : GameWorld) (s : Fin 2) (next : GamePlayer) (damage : Bool)
    (sequence : UInt32) :
    (w.commit s next damage sequence).players (1 - s) =
      if damage then (w.players (1 - s)).wounded else w.players (1 - s) := by
  cases damage with
  | false => simp [GameWorld.commit, other_ne s]
  | true => simp [GameWorld.commit]

/-- The coupled facts about a player and the other one, from one side. -/
structure PairRules (p q : GamePlayer) : Prop where
  health : q.health + gameDamage * p.hits = gameHealth
  kills : p.kills = if q.health = 0 then 1 else 0
  apart : p.alive = true → q.alive = true → ¬(p.x_mm = q.x_mm ∧ p.y_mm = q.y_mm)

theorem GameRules.pair (h : GameRules w) (s : Fin 2) :
    PairRules (w.players s) (w.players (1 - s)) := by
  refine ⟨h.health s, h.kills s, ?_⟩
  rcases slot_cases s 0 with rfl | rfl
  · exact h.apart
  · intro ha hb he
    exact h.apart hb ha ⟨he.1.symm, he.2.symm⟩

theorem gameRules_of_pairs (s : Fin 2) (hown : ∀ i, PlayerRules (w.players i))
    (hp : PairRules (w.players s) (w.players (1 - s)))
    (hq : PairRules (w.players (1 - s)) (w.players s))
    (hfire : ∀ i, (w.players i).next_fire_tick.toNat ≤ w.tick.toNat + 4) : GameRules w := by
  refine ⟨hown, ?_, ?_, ?_, hfire⟩
  · intro i
    rcases slot_cases i s with rfl | rfl
    · exact hp.health
    · rw [other_other]
      exact hq.health
  · intro i
    rcases slot_cases i s with rfl | rfl
    · exact hp.kills
    · rw [other_other]
      exact hq.kills
  · rcases slot_cases 0 s with rfl | h0
    · exact hp.apart
    · have hs : s = 1 := by
        rw [← other_other s, ← h0]
        rfl
      subst hs
      exact hq.apart

theorem PlayerRules.turned {p : GamePlayer} {input : GameInput} (h : PlayerRules p)
    (hvalid : validInput input = true) (hact : input.action = gameMove)
    (hx : -gameEdgeMm ≤ (p.turned input).x_mm ∧ (p.turned input).x_mm ≤ gameEdgeMm)
    (hy : -gameEdgeMm ≤ (p.turned input).y_mm ∧ (p.turned input).y_mm ≤ gameEdgeMm) :
    PlayerRules (p.turned input) where
  x_range := hx
  y_range := hy
  grid := ⟨Int.dvd_add h.grid.1 (Int.dvd_mul_left _ _), Int.dvd_add h.grid.2 (Int.dvd_mul_left _ _)⟩
  facing := valid_move hvalid hact
  shots := h.shots

theorem PlayerRules.fired {p : GamePlayer} (tick : UInt64) (h : PlayerRules p) :
    PlayerRules (p.fired tick) where
  x_range := h.x_range
  y_range := h.y_range
  grid := h.grid
  facing := h.facing
  shots := by
    obtain ⟨h₁, h₂⟩ := h.shots
    simp only [GamePlayer.fired]
    omega

theorem PlayerRules.struck {p : GamePlayer} (tick : UInt64) (q : GamePlayer) (h : PlayerRules p)
    (hammo : p.ammo ≠ 0) : PlayerRules ((p.fired tick).scored q) where
  x_range := h.x_range
  y_range := h.y_range
  grid := h.grid
  facing := h.facing
  shots := by
    obtain ⟨h₁, h₂⟩ := h.shots
    simp only [GamePlayer.fired, GamePlayer.scored]
    omega

/-- A wound takes what the hit adds, and the last one is the kill. -/
theorem PairRules.struck {p q : GamePlayer} (tick : UInt64) (h : PairRules p q)
    (halive : q.alive = true) : PairRules ((p.fired tick).scored q) q.wounded := by
  have hq : q.health ≠ 0 := by
    simp only [GamePlayer.alive, Bool.and_eq_true, decide_eq_true_eq] at halive
    exact halive.2
  have hhealth := h.health
  have hkills := h.kills
  rw [if_neg hq] at hkills
  have h25 : gameDamage = 25 := rfl
  have h100 : gameHealth = 100 := rfl
  rw [h25, h100] at hhealth
  refine ⟨?_, ?_, ?_⟩
  · simp only [GamePlayer.scored, GamePlayer.fired, GamePlayer.wounded, h25, h100]
    split <;> omega
  · simp only [GamePlayer.scored, GamePlayer.fired, GamePlayer.wounded, h25, hkills]
    by_cases hle : q.health ≤ 25
    · have hnot : ¬25 < q.health := by omega
      rw [if_pos hle, if_neg hnot, if_pos rfl]
    · have hlt : 25 < q.health := by omega
      have hne : q.health - 25 ≠ 0 := by omega
      rw [if_neg hle, if_pos hlt, if_neg hne]
  · exact fun ha _ => h.apart ha halive

theorem GameRules.played {input : GameInput} {s : Fin 2} {next : GamePlayer} {damage : Bool}
    (h : GameRules w) (hadm : Admitted w s input)
    (hperf : Performed (w.players s) (w.players (1 - s)) w.tick input next damage) :
    GameRules (w.commit s next damage input.sequence) := by
  have hp := h.pair s
  have hq := h.pair (1 - s)
  rw [other_other] at hq
  have hown : PlayerRules next ∧ PairRules next (if damage then (w.players (1 - s)).wounded
        else w.players (1 - s)) ∧
      PairRules (if damage then (w.players (1 - s)).wounded else w.players (1 - s)) next ∧
      next.next_fire_tick.toNat ≤ w.tick.toNat + 4 := by
    cases hperf with
    | moved hact hx hy hfree =>
      exact ⟨(h.own s).turned hadm.valid hact hx hy, ⟨hp.health, hp.kills, fun _ hb => hfree hb⟩,
        ⟨hq.health, hq.kills, fun hb _ he => hfree hb ⟨he.1.symm, he.2.symm⟩⟩, h.fire s⟩
    | missed hact hammo hready hroom =>
      exact ⟨(h.own s).fired w.tick, ⟨hp.health, hp.kills, hp.apart⟩,
        ⟨hq.health, hq.kills, hq.apart⟩, Nat.le_of_eq hroom⟩
    | struck hact hammo hready hroom halive =>
      exact ⟨(h.own s).struck w.tick _ hammo, hp.struck w.tick halive,
        ⟨hq.health, hq.kills, fun _ hb => hq.apart halive hb⟩, Nat.le_of_eq hroom⟩
    | waited hact => exact ⟨h.own s, hp, hq, h.fire s⟩
  obtain ⟨hnext, hpair, hpair', hfire⟩ := hown
  have hself := commit_self w s next damage input.sequence
  have hother := commit_other w s next damage input.sequence
  have htick : (w.commit s next damage input.sequence).tick = w.tick := rfl
  have hsame : PlayerRules (w.commit s next damage input.sequence |>.players (1 - s)) ∧
      ((w.commit s next damage input.sequence).players (1 - s)).next_fire_tick.toNat ≤
        w.tick.toNat + 4 := by
    rw [hother]
    have ho := h.own (1 - s)
    cases damage with
    | false => exact ⟨ho, h.fire (1 - s)⟩
    | true => exact ⟨⟨ho.x_range, ho.y_range, ho.grid, ho.facing, ho.shots⟩, h.fire (1 - s)⟩
  refine gameRules_of_pairs s ?_ ?_ ?_ ?_
  · intro i
    rcases slot_cases i s with rfl | rfl
    · rw [hself]
      exact ⟨hnext.x_range, hnext.y_range, hnext.grid, hnext.facing, hnext.shots⟩
    · exact hsame.1
  · rw [hself, hother]
    exact ⟨hpair.health, hpair.kills, hpair.apart⟩
  · rw [hself, hother]
    exact ⟨hpair'.health, hpair'.kills, hpair'.apart⟩
  · intro i
    rw [htick]
    rcases slot_cases i s with rfl | rfl
    · rw [hself]
      exact hfire
    · exact hsame.2

theorem GameRules.ticked {tick : UInt64} (h : GameRules w) (hle : w.tick ≤ tick) :
    GameRules { w with tick := tick } := by
  refine ⟨h.own, h.health, h.kills, h.apart, ?_⟩
  intro i
  have hfire := h.fire i
  have hnat := UInt64.le_iff_toNat_le.mp hle
  show (w.players i).next_fire_tick.toNat ≤ tick.toNat + 4
  omega

theorem GameRules.shut (h : GameRules w) (s : Fin 2) :
    GameRules { w with
      players := Function.update w.players s { w.players s with isOpen := false } } := by
  have hself : Function.update w.players s { w.players s with isOpen := false } s =
      { w.players s with isOpen := false } := Function.update_self ..
  have hother : Function.update w.players s { w.players s with isOpen := false } (1 - s) =
      w.players (1 - s) := Function.update_of_ne (other_ne s) ..
  have hp := h.pair s
  have hq := h.pair (1 - s)
  rw [other_other] at hq
  have ho := h.own s
  refine gameRules_of_pairs s ?_ ?_ ?_ ?_
  · intro i
    rcases slot_cases i s with rfl | rfl
    · simp only [hself]
      exact ⟨ho.x_range, ho.y_range, ho.grid, ho.facing, ho.shots⟩
    · simp only [hother]
      exact h.own (1 - s)
  · simp only [hself, hother]
    exact ⟨hp.health, hp.kills, fun ha => by simp [GamePlayer.alive] at ha⟩
  · simp only [hself, hother]
    exact ⟨hq.health, hq.kills, fun _ hb => by simp [GamePlayer.alive] at hb⟩
  · intro i
    rcases slot_cases i s with rfl | rfl
    · simp only [hself]
      exact h.fire i
    · simp only [hother]
      exact h.fire (1 - s)

theorem GameRules.step {e : GameEvent} (h : GameRules w) (hs : GameStep w e w') : GameRules w' := by
  cases gameStep_change hs with
  | refused _ => exact h
  | played hadm hperf => exact h.played hadm hperf
  | ticked _ hle => exact h.ticked hle
  | shut => exact h.shut _

theorem gameRules_init {id a b : Bytes 16} (h : gameInit id a b = some w) : GameRules w := by
  simp only [gameInit] at h
  split at h
  · cases h
  · obtain rfl := Option.some.inj h
    have hplace : ∀ i : Fin 2, -gameEdgeMm ≤ (if i = 0 then 0 else 500 : ℤ) ∧
        (if i = 0 then 0 else 500 : ℤ) ≤ gameEdgeMm ∧ gameStepMm ∣ (if i = 0 then 0 else 500 : ℤ) ∧
        ((if i = 0 then 1 else -1 : ℤ) = 1 ∨ (if i = 0 then 1 else -1 : ℤ) = -1) := by decide
    refine ⟨?_, ?_, ?_, ?_, ?_⟩
    · intro i
      obtain ⟨hlow, hhigh, hgrid, hface⟩ := hplace i
      exact ⟨⟨hlow, hhigh⟩, (by decide : -gameEdgeMm ≤ 0 ∧ 0 ≤ gameEdgeMm), ⟨hgrid, Int.dvd_zero _⟩,
        .inr ⟨rfl, hface⟩, Nat.le_refl _, Nat.zero_le _⟩
    · intro i
      rfl
    · intro i
      rfl
    · intro _ _ he
      have hx : (0 : ℤ) = 500 := he.1
      omega
    · intro i
      exact Nat.zero_le _

/-- What no step changes, and what a step may only close. -/
structure SameMatch (w w' : GameWorld) : Prop where
  id : w'.match = w.match
  session : ∀ i, (w'.players i).session = (w.players i).session
  closed : ∀ i, (w.players i).isOpen = false → (w'.players i).isOpen = false

theorem Performed.session {p other next : GamePlayer} {tick : UInt64} {input : GameInput} {damage : Bool}
    (h : Performed p other tick input next damage) :
    next.session = p.session ∧ next.isOpen = p.isOpen := by
  cases h <;> exact ⟨rfl, rfl⟩

theorem commit_side {s : Fin 2} {input : GameInput} {next : GamePlayer} {damage : Bool}
    (h : Performed (w.players s) (w.players (1 - s)) w.tick input next damage) (i : Fin 2) :
    ((w.commit s next damage input.sequence).players i).session = (w.players i).session ∧
      ((w.commit s next damage input.sequence).players i).isOpen = (w.players i).isOpen := by
  rcases slot_cases i s with rfl | rfl
  · rw [commit_self]
    exact h.session
  · rw [commit_other]
    cases damage <;> exact ⟨rfl, rfl⟩

theorem sameMatch_step {e : GameEvent} (hs : GameStep w e w') : SameMatch w w' := by
  cases gameStep_change hs with
  | refused _ => exact ⟨rfl, fun _ => rfl, fun _ h => h⟩
  | @played input s next damage hadm hperf =>
    have hside := commit_side hperf
    exact ⟨rfl, fun i => (hside i).1, fun i hi => (hside i).2.trans hi⟩
  | ticked _ _ => exact ⟨rfl, fun _ => rfl, fun _ h => h⟩
  | @shut s =>
    refine ⟨rfl, ?_, ?_⟩
    · intro i
      by_cases hi : i = s
      · subst hi
        simp
      · simp [hi]
    · intro i hopen
      by_cases hi : i = s
      · subst hi
        simp
      · simp [hi, hopen]

theorem sameMatch_run {τ : List GameEvent} (h : Runs.Steps GameStep w τ w') : SameMatch w w' := by
  refine h.invariant (I := SameMatch w) ⟨rfl, fun _ => rfl, fun _ h => h⟩ ?_
  intro t e u ht hs
  have hu := sameMatch_step hs
  exact ⟨hu.id.trans ht.id, fun i => (hu.session i).trans (ht.session i),
    fun i hi => hu.closed i (ht.closed i hi)⟩

theorem fire_tick_step {e : GameEvent} (hs : GameStep w e w') (i : Fin 2) :
    (w'.players i).next_fire_tick = (w.players i).next_fire_tick ∨
      (w'.players i).next_fire_tick.toNat = w.tick.toNat + 4 := by
  cases gameStep_change hs with
  | refused _ => exact .inl rfl
  | @played input s next damage hadm hperf =>
    rcases slot_cases i s with rfl | rfl
    · rw [commit_self]
      cases hperf with
      | moved => exact .inl rfl
      | missed _ _ _ hroom => exact .inr hroom
      | struck _ _ _ hroom => exact .inr hroom
      | waited => exact .inl rfl
    · rw [commit_other]
      cases damage <;> exact .inl rfl
  | ticked _ _ => exact .inl rfl
  | @shut s =>
    left
    by_cases hi : i = s
    · subst hi
      simp
    · simp [hi]

theorem gameRules_of_run {id a b : Bytes 16} {w₀ : GameWorld} {τ : List GameEvent}
    (h₀ : gameInit id a b = some w₀) (h : Runs.Steps GameStep w₀ τ w) : GameRules w :=
  h.invariant (gameRules_init h₀) (fun _ _ _ hi hs => hi.step hs)

/-- The rules hold after every play; from there on no identity changes, no
closed slot reopens, and a cooldown is always four ticks ahead of its shot. -/
theorem game_world_invariant {id a b : Bytes 16} {w₀ : GameWorld} {τ : List GameEvent}
    (h₀ : gameInit id a b = some w₀) (h : Runs.Steps GameStep w₀ τ w) :
    GameRules w ∧ (∀ τ' u, Runs.Steps GameStep w τ' u → SameMatch w u) ∧
    ∀ e u, GameStep w e u → ∀ i, (u.players i).next_fire_tick = (w.players i).next_fire_tick ∨
      (u.players i).next_fire_tick.toNat = w.tick.toNat + 4 :=
  ⟨gameRules_of_run h₀ h, fun _ _ hr => sameMatch_run hr, fun _ _ hs i => fire_tick_step hs i⟩

end

def sampleWorld : GameWorld where
  «match» := Vector.replicate 16 1
  tick := 0
  players := fun i =>
    { session := if i = 0 then Vector.replicate 16 2 else Vector.replicate 16 3
      x_mm := if i = 0 then 0 else 500
      facing_x := if i = 0 then 1 else -1
      ammo := gameAmmo
      health := gameHealth
      isOpen := true }

theorem sampleWorld_init : gameInit (Vector.replicate 16 1) (Vector.replicate 16 2)
    (Vector.replicate 16 3) = some sampleWorld := by
  have hids : (!nonzeroId (Vector.replicate 16 1) || !nonzeroId (Vector.replicate 16 2) ||
      !nonzeroId (Vector.replicate 16 3) ||
      decide ((Vector.replicate 16 2 : Bytes 16) = Vector.replicate 16 3)) = false := by decide
  simp only [gameInit, hids]
  rfl

def sampleShot : GameInput :=
  ⟨Vector.replicate 16 1, Vector.replicate 16 2, 1, gameFire, axisNone, axisNone⟩

def sampleShotWorld : GameWorld := (gameApply sampleWorld 0 sampleShot).1

def sampleShotEvents : List GameEvent := [⟨.apply 0 sampleShot, 0, .ok⟩]

theorem sampleShot_run : Runs.Steps GameStep sampleWorld sampleShotEvents sampleShotWorld := by
  have hok : (gameApply sampleWorld 0 sampleShot).2 = .ok := by decide +kernel
  refine .single ⟨.apply 0 sampleShot, ?_⟩
  rw [gameNext, hok]
  rfl

theorem game_world_invariant_sample :
    (sampleShotWorld.players 1).health = 75 ∧ GameRules sampleShotWorld :=
  ⟨by decide +kernel, (game_world_invariant sampleWorld_init sampleShot_run).1⟩

end ArenaLab
