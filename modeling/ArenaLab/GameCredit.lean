import ArenaLab.GameRules
import Mathlib.Order.Nat

/-! No run of the core gives a player speed, bursts or a faster gun. -/

namespace ArenaLab

/-- An input of the player that the event accepted, with its tick. -/
def GameEvent.accepted (e : GameEvent) (i : Fin 2) : Option (GameInput × UInt64) :=
  match e.action, e.result with
  | .apply slot input, .ok => if slot = i then some (input, e.tick) else none
  | _, _ => none

def acceptedInputs (τ : List GameEvent) (i : Fin 2) : List (GameInput × UInt64) :=
  τ.filterMap (·.accepted i)

def shotTick (x : GameInput × UInt64) : Option UInt64 :=
  if x.1.action = gameFire then some x.2 else none

def acceptedShots (τ : List GameEvent) (i : Fin 2) : List UInt64 :=
  (acceptedInputs τ i).filterMap shotTick

def travelled (p p' : GamePlayer) : ℕ := (p'.x_mm - p.x_mm).natAbs + (p'.y_mm - p.y_mm).natAbs

/-- Nothing that an accepted input of the player would change has changed. -/
structure Idle (p p' : GamePlayer) : Prop where
  x_mm : p'.x_mm = p.x_mm
  y_mm : p'.y_mm = p.y_mm
  last_sequence : p'.last_sequence = p.last_sequence
  has_input : p'.has_input = p.has_input
  last_input_tick : p'.last_input_tick = p.last_input_tick
  next_fire_tick : p'.next_fire_tick = p.next_fire_tick
  ammo : p'.ammo = p.ammo

section

variable {w w' : GameWorld} {e : GameEvent} {τ : List GameEvent}

theorem idle_self (p : GamePlayer) : Idle p p := ⟨rfl, rfl, rfl, rfl, rfl, rfl, rfl⟩

/-- A step either accepts an input of the player or leaves the player idle. -/
theorem player_step (h : GameStep w e w') (i : Fin 2) :
    e.accepted i = none ∧ w.tick ≤ w'.tick ∧ Idle (w.players i) (w'.players i) ∨
    ∃ input next damage, e.accepted i = some (input, w.tick) ∧ w'.tick = w.tick ∧
      Admitted w i input ∧
      Performed (w.players i) (w.players (1 - i)) w.tick input next damage ∧
      w'.players i = next.noted w.tick input.sequence := by
  cases gameStep_change h with
  | @refused a r hbad =>
    refine .inl ⟨?_, UInt64.le_refl _, idle_self _⟩
    cases a <;> cases r <;> first | rfl | exact absurd rfl hbad
  | @played input s next damage hadm hperf =>
    by_cases hi : s = i
    · subst hi
      exact .inr ⟨input, next, damage, by simp [GameEvent.accepted], rfl, hadm, hperf, commit_self ..⟩
    · left
      have hne : (s : ℕ) ≠ i := fun he => hi (Fin.ext he)
      refine ⟨by simp [GameEvent.accepted, hne], UInt64.le_refl _, ?_⟩
      obtain rfl : i = 1 - s := (slot_cases i s).resolve_left (fun he => hi he.symm)
      rw [commit_other]
      cases damage <;> exact ⟨rfl, rfl, rfl, rfl, rfl, rfl, rfl⟩
  | @ticked a tick hact hle =>
    refine .inl ⟨?_, hle, idle_self _⟩
    rcases hact with rfl | rfl <;> rfl
  | @shut s =>
    refine .inl ⟨rfl, UInt64.le_refl _, ?_⟩
    by_cases hi : i = s
    · subst hi
      simp only [Function.update_self]
      exact ⟨rfl, rfl, rfl, rfl, rfl, rfl, rfl⟩
    · simp only [Function.update_of_ne hi]
      exact idle_self _

/-- The gun of a player against the ticks of its accepted shots. -/
structure GunInv (shots : List UInt64) (p : GamePlayer) : Prop where
  apart : shots.Pairwise (fun a b => a.toNat + 4 ≤ b.toNat)
  cooldown : ∀ t ∈ shots, t.toNat + 4 ≤ p.next_fire_tick.toNat
  ammo : shots.length + p.ammo = gameAmmo

/-- The player's meters bound everything that was accepted. -/
structure CreditInv (i : Fin 2) (τ : List GameEvent) (w : GameWorld) : Prop where
  sequences : ((acceptedInputs τ i).map (·.1.sequence)).Pairwise (· < ·)
  last : ∀ x ∈ acceptedInputs τ i, x.1.sequence < uint32Max ∧
    x.1.sequence ≤ (w.players i).last_sequence
  ticks : ((acceptedInputs τ i).map (·.2)).Pairwise (· < ·)
  noted : ∀ x ∈ acceptedInputs τ i, (w.players i).has_input = true ∧
    x.2 ≤ (w.players i).last_input_tick
  past : (w.players i).last_input_tick ≤ w.tick
  gun : GunInv (acceptedShots τ i) (w.players i)

theorem CreditInv.idle {i : Fin 2} (h : CreditInv i τ w) (he : e.accepted i = none)
    (hle : w.tick ≤ w'.tick) (hidle : Idle (w.players i) (w'.players i)) :
    CreditInv i (τ ++ [e]) w' := by
  have hin : acceptedInputs (τ ++ [e]) i = acceptedInputs τ i := by simp [acceptedInputs, he]
  have hsh : acceptedShots (τ ++ [e]) i = acceptedShots τ i := by rw [acceptedShots, hin, acceptedShots]
  constructor
  · rw [hin]
    exact h.sequences
  · rw [hin, hidle.last_sequence]
    exact h.last
  · rw [hin]
    exact h.ticks
  · rw [hin, hidle.has_input, hidle.last_input_tick]
    exact h.noted
  · rw [hidle.last_input_tick]
    exact UInt64.le_trans h.past hle
  · rw [hsh]
    refine ⟨h.gun.apart, ?_, ?_⟩
    · rw [hidle.next_fire_tick]
      exact h.gun.cooldown
    · rw [hidle.ammo]
      exact h.gun.ammo

theorem Admitted.below_max {i : Fin 2} {input : GameInput} (h : Admitted w i input) :
    input.sequence < uint32Max := by
  have hne : input.sequence.toNat ≠ uint32Max.toNat := fun he => h.room (UInt32.toNat_inj.mp he)
  have hmax : uint32Max.toNat = 4294967295 := rfl
  have hlt := input.sequence.toNat_lt
  rw [UInt32.lt_iff_toNat_lt]
  omega

theorem CreditInv.before {i : Fin 2} {input : GameInput} (h : CreditInv i τ w)
    (hadm : Admitted w i input) {x : GameInput × UInt64} (hx : x ∈ acceptedInputs τ i) :
    x.2 < w.tick := by
  obtain ⟨hinput, hle⟩ := h.noted x hx
  have hne : (w.players i).last_input_tick.toNat ≠ w.tick.toNat :=
    fun he => hadm.once ⟨hinput, UInt64.toNat_inj.mp he⟩
  have hpast := UInt64.le_iff_toNat_le.mp h.past
  rw [UInt64.le_iff_toNat_le] at hle
  rw [UInt64.lt_iff_toNat_lt]
  omega

theorem Performed.gun {p other next : GamePlayer} {tick : UInt64} {input : GameInput} {damage : Bool}
    (h : Performed p other tick input next damage) :
    input.action ≠ gameFire ∧ next.next_fire_tick = p.next_fire_tick ∧ next.ammo = p.ammo ∨
    input.action = gameFire ∧ p.next_fire_tick ≤ tick ∧ next.next_fire_tick.toNat = tick.toNat + 4 ∧
      next.ammo + 1 = p.ammo := by
  have hgun : p.ammo ≠ 0 → p.ammo - 1 + 1 = p.ammo := by omega
  cases h with
  | moved hact =>
    refine .inl ⟨?_, rfl, rfl⟩
    rw [hact]
    decide
  | missed hact hammo hready hroom => exact .inr ⟨hact, hready, hroom, hgun hammo⟩
  | struck hact hammo hready hroom => exact .inr ⟨hact, hready, hroom, hgun hammo⟩
  | waited hact => exact .inl ⟨hact, rfl, rfl⟩

theorem GunInv.performed {p other next : GamePlayer} {shots : List UInt64} {tick : UInt64}
    {input : GameInput} {damage : Bool} (h : GunInv shots p)
    (hperf : Performed p other tick input next damage) :
    GunInv (shots ++ (shotTick (input, tick)).toList) (next.noted tick input.sequence) := by
  rcases hperf.gun with ⟨hact, hfire, hsame⟩ | ⟨hact, hready, hfire, hspent⟩
  · have hnone : shotTick (input, tick) = none := if_neg hact
    rw [hnone, Option.toList_none, List.append_nil]
    refine ⟨h.apart, ?_, hsame ▸ h.ammo⟩
    intro t ht
    exact (h.cooldown t ht).trans (congrArg UInt64.toNat hfire).ge
  · have hsome : shotTick (input, tick) = some tick := if_pos hact
    have hready := UInt64.le_iff_toNat_le.mp hready
    rw [hsome, Option.toList_some]
    refine ⟨?_, ?_, ?_⟩
    · rw [List.pairwise_append]
      refine ⟨h.apart, by simp, ?_⟩
      intro x hx y hy
      obtain rfl := List.mem_singleton.mp hy
      exact (h.cooldown x hx).trans hready
    · intro t ht
      show t.toNat + 4 ≤ next.next_fire_tick.toNat
      rcases List.mem_append.mp ht with ht | ht
      · have hcool := h.cooldown t ht
        omega
      · obtain rfl := List.mem_singleton.mp ht
        exact Nat.le_of_eq hfire.symm
    · have hammo := h.ammo
      show (shots ++ [tick]).length + next.ammo = gameAmmo
      rw [List.length_append, List.length_singleton]
      omega

theorem CreditInv.accept {i : Fin 2} {input : GameInput} {next : GamePlayer} {damage : Bool}
    (h : CreditInv i τ w) (he : e.accepted i = some (input, w.tick)) (htick : w'.tick = w.tick)
    (hadm : Admitted w i input)
    (hperf : Performed (w.players i) (w.players (1 - i)) w.tick input next damage)
    (hnext : w'.players i = next.noted w.tick input.sequence) : CreditInv i (τ ++ [e]) w' := by
  have hin : acceptedInputs (τ ++ [e]) i = acceptedInputs τ i ++ [(input, w.tick)] := by
    simp [acceptedInputs, he]
  have hnewer : ∀ x ∈ acceptedInputs τ i, x.1.sequence < input.sequence :=
    fun x hx => UInt32.lt_of_le_of_lt (h.last x hx).2 hadm.newer
  have hsh : acceptedShots (τ ++ [e]) i =
      acceptedShots τ i ++ (shotTick (input, w.tick)).toList := by
    rw [acceptedShots, hin, List.filterMap_append, acceptedShots]
    cases hs : shotTick (input, w.tick) <;> simp [hs]
  have hlast : (w'.players i).last_sequence = input.sequence := by rw [hnext]; rfl
  have hnoted : (w'.players i).has_input = true ∧ (w'.players i).last_input_tick = w.tick := by
    rw [hnext]
    exact ⟨rfl, rfl⟩
  refine ⟨?_, ?_, ?_, ?_, ?_, ?_⟩
  · rw [hin, List.map_append, List.pairwise_append]
    refine ⟨h.sequences, by simp, ?_⟩
    intro x hx y hy
    obtain ⟨z, hz, rfl⟩ := List.mem_map.mp hx
    obtain rfl := List.mem_singleton.mp hy
    exact hnewer z hz
  · rw [hin, hlast]
    intro x hx
    rcases List.mem_append.mp hx with hx | hx
    · exact ⟨(h.last x hx).1, UInt32.le_of_lt (hnewer x hx)⟩
    · obtain rfl := List.mem_singleton.mp hx
      exact ⟨hadm.below_max, UInt32.le_refl _⟩
  · rw [hin, List.map_append, List.pairwise_append]
    refine ⟨h.ticks, by simp, ?_⟩
    intro x hx y hy
    obtain ⟨z, hz, rfl⟩ := List.mem_map.mp hx
    obtain rfl := List.mem_singleton.mp hy
    exact h.before hadm hz
  · rw [hin, hnoted.1, hnoted.2]
    intro x hx
    refine ⟨rfl, ?_⟩
    rcases List.mem_append.mp hx with hx | hx
    · exact UInt64.le_of_lt (h.before hadm hx)
    · obtain rfl := List.mem_singleton.mp hx
      exact UInt64.le_refl _
  · rw [hnoted.2, htick]
    exact UInt64.le_refl _
  · rw [hsh, hnext]
    exact h.gun.performed hperf

theorem creditInv_init {id a b : Bytes 16} (h : gameInit id a b = some w) (i : Fin 2) :
    CreditInv i [] w := by
  simp only [gameInit] at h
  split at h
  · cases h
  · obtain rfl := Option.some.inj h
    refine ⟨List.Pairwise.nil, ?_, List.Pairwise.nil, ?_, UInt64.le_refl _, List.Pairwise.nil, ?_, rfl⟩
    · intro x hx
      cases hx
    · intro x hx
      cases hx
    · intro x hx
      cases hx

theorem CreditInv.step {i : Fin 2} (h : CreditInv i τ w) (hs : GameStep w e w') :
    CreditInv i (τ ++ [e]) w' := by
  rcases player_step hs i with ⟨he, hle, hidle⟩ | ⟨input, next, damage, he, htick, hadm, hperf, hnext⟩
  · exact h.idle he hle hidle
  · exact h.accept he htick hadm hperf hnext

theorem creditInv_of_run {id a b : Bytes 16} {w₀ : GameWorld} (h₀ : gameInit id a b = some w₀)
    (h : Runs.Steps GameStep w₀ τ w) (i : Fin 2) : CreditInv i τ w :=
  h.history (creditInv_init h₀ i) (fun _ _ _ _ _ hi hs => hi.step hs)

/-- The distance that is left until the end of the tick. -/
def GamePlayer.reserve (p : GamePlayer) (tick : UInt64) : ℕ :=
  if p.has_input ∧ p.last_input_tick = tick then 0 else 100

theorem reserve_le (p : GamePlayer) (tick : UInt64) : p.reserve tick ≤ 100 := by
  simp only [GamePlayer.reserve]
  split <;> omega

theorem Performed.travelled {p q other next : GamePlayer} {tick : UInt64} {input : GameInput}
    {damage : Bool} (h : Performed p other tick input next damage) (hvalid : validInput input = true) :
    ArenaLab.travelled q next ≤ ArenaLab.travelled q p + 100 := by
  cases h with
  | moved hact _ _ _ =>
    simp only [ArenaLab.travelled, GamePlayer.turned, gameStepMm]
    rcases valid_move hvalid hact with ⟨hx, hy⟩ | ⟨hy, hx⟩
    · rw [hx]
      rcases hy with hy | hy <;> rw [hy] <;> omega
    · rw [hy]
      rcases hx with hx | hx <;> rw [hx] <;> omega
  | missed => exact Nat.le_add_right _ _
  | struck => exact Nat.le_add_right _ _
  | waited => exact Nat.le_add_right _ _

/-- Between two states of a run a player goes at most one step for each tick that began. -/
theorem travelled_run (h : Runs.Steps GameStep w τ w') (i : Fin 2) :
    w.tick.toNat ≤ w'.tick.toNat ∧
    travelled (w.players i) (w'.players i) + (w'.players i).reserve w'.tick ≤
      100 * (w'.tick.toNat - w.tick.toNat + 1) := by
  refine h.invariant (I := fun u => w.tick.toNat ≤ u.tick.toNat ∧
    travelled (w.players i) (u.players i) + (u.players i).reserve u.tick ≤
      100 * (u.tick.toNat - w.tick.toNat + 1)) ?_ ?_
  · refine ⟨Nat.le_refl _, ?_⟩
    have hres := reserve_le (w.players i) w.tick
    have hzero : travelled (w.players i) (w.players i) = 0 := by
      simp only [travelled]
      omega
    omega
  · rintro u e v ⟨hle, hu⟩ hs
    rcases player_step hs i with ⟨_, htick, hidle⟩ | ⟨input, next, damage, _, htick, hadm, hperf, hnext⟩
    · have hsame : travelled (w.players i) (v.players i) = travelled (w.players i) (u.players i) := by
        rw [travelled, hidle.x_mm, hidle.y_mm, travelled]
      have hmono := UInt64.le_iff_toNat_le.mp htick
      refine ⟨hle.trans hmono, ?_⟩
      by_cases heq : v.tick = u.tick
      · have hres : (v.players i).reserve v.tick = (u.players i).reserve u.tick := by
          rw [GamePlayer.reserve, hidle.has_input, hidle.last_input_tick, heq, GamePlayer.reserve]
        rw [hsame, hres, heq]
        exact hu
      · have hlt : v.tick.toNat ≠ u.tick.toNat := fun he => heq (UInt64.toNat_inj.mp he)
        have hres := reserve_le (v.players i) v.tick
        omega
    · have hgo := @Performed.travelled (u.players i) (w.players i) _ _ _ _ _ hperf hadm.valid
      have hfull : (u.players i).reserve u.tick = 100 := if_neg hadm.once
      have hspent : (v.players i).reserve v.tick = 0 := by
        rw [hnext, htick]
        exact if_pos ⟨rfl, rfl⟩
      have hplace : travelled (w.players i) (v.players i) = travelled (w.players i) next := by
        rw [hnext]
        rfl
      rw [hspent, hplace, htick]
      refine ⟨hle, ?_⟩
      omega

/-- Sequences and ticks of the accepted inputs strictly increase, a player is
never further from an earlier place than the ticks since then allow, and shots
keep their distance and are at most four. -/
theorem no_credit {id a b : Bytes 16} {w₀ : GameWorld} (h₀ : gameInit id a b = some w₀)
    (h : Runs.Steps GameStep w₀ τ w) (i : Fin 2) :
    ((acceptedInputs τ i).map (·.1.sequence)).Pairwise (· < ·) ∧
    (∀ x ∈ acceptedInputs τ i, x.1.sequence < uint32Max) ∧
    ((acceptedInputs τ i).map (·.2)).Pairwise (· < ·) ∧
    (∀ τ' w', Runs.Steps GameStep w τ' w' → w.tick ≤ w'.tick ∧
      travelled (w.players i) (w'.players i) ≤ 100 * (w'.tick.toNat - w.tick.toNat + 1)) ∧
    (acceptedShots τ i).Pairwise (fun t t' => t.toNat + 4 ≤ t'.toNat) ∧
    (acceptedShots τ i).length ≤ gameAmmo := by
  have hi := creditInv_of_run h₀ h i
  refine ⟨hi.sequences, fun x hx => (hi.last x hx).1, hi.ticks, ?_, hi.gun.apart, ?_⟩
  · intro τ' w' h'
    obtain ⟨hle, hgo⟩ := travelled_run h' i
    exact ⟨UInt64.le_iff_toNat_le.mpr hle, (Nat.le_add_right _ _).trans hgo⟩
  · have hammo := hi.gun.ammo
    omega

end

def sampleInput (slot : Fin 2) (sequence : UInt32) (action axis_x axis_y : UInt8) : GameAction :=
  .apply slot ⟨Vector.replicate 16 1, if slot = 0 then Vector.replicate 16 2 else Vector.replicate 16 3, sequence,
    action, axis_x, axis_y⟩

/-- A first shot, and then moves of both players and a shot four ticks later. -/
def sampleDuel : Option ((List GameEvent × GameWorld) × (List GameEvent × GameWorld)) := do
  let r ← Runs.exec gameNext sampleWorld [sampleInput 0 1 gameFire axisNone axisNone]
  let q ← Runs.exec gameNext r.2 [sampleInput 1 1 gameMove axisNeg axisNone, .advance,
    sampleInput 0 2 gameMove axisNeg axisNone, sampleInput 1 4 gameMove axisNone axisNeg, .advance, .advance, .advance,
    sampleInput 0 3 gameFire axisNone axisNone]
  pure (r, q)

theorem sampleDuel_goes : sampleDuel.map (fun x => (acceptedShots (x.1.1 ++ x.2.1) 0,
    travelled (x.1.2.players 0) (x.2.2.players 0), travelled (x.1.2.players 1) (x.2.2.players 1),
    x.2.2.tick.toNat - x.1.2.tick.toNat)) = some ([0, 4], 100, 200, 4) := by
  decide +kernel

/-- Two shots four ticks apart, between which the players move one and two steps of the
five that the ticks allow. -/
theorem no_credit_sample : ∃ τ w τ' w', Runs.Steps GameStep sampleWorld τ w ∧ Runs.Steps GameStep w τ' w' ∧
    acceptedShots (τ ++ τ') 0 = [0, 4] ∧ travelled (w.players 0) (w'.players 0) = 100 ∧
    travelled (w.players 1) (w'.players 1) = 200 ∧ travelled (w.players 1) (w'.players 1) ≤ 500 ∧
    (acceptedShots (τ ++ τ') 0).Pairwise (fun t t' => t.toNat + 4 ≤ t'.toNat) := by
  obtain ⟨⟨⟨τ, w⟩, ⟨τ', w'⟩⟩, hgo, hd⟩ := Option.map_eq_some_iff.mp sampleDuel_goes
  rw [sampleDuel] at hgo
  obtain ⟨r, hr, hgo⟩ := Option.bind_eq_some_iff.mp hgo
  obtain ⟨q, hq, he⟩ := Option.bind_eq_some_iff.mp hgo
  obtain ⟨rfl, rfl⟩ := Prod.mk.inj (Option.some.inj he)
  simp only [Prod.mk.injEq] at hd
  obtain ⟨hshots, hfirst, hsecond, hticks⟩ := hd
  have hw : Runs.Steps GameStep sampleWorld τ w := Runs.exec_steps hr
  have hw' : Runs.Steps GameStep w τ' w' := Runs.exec_steps hq
  have hmoved := (no_credit sampleWorld_init hw 1).2.2.2.1 τ' w' hw'
  rw [hticks] at hmoved
  exact ⟨τ, w, τ', w', hw, hw', hshots, hfirst, hsecond, hmoved.2,
    (no_credit sampleWorld_init (hw.trans hw') 0).2.2.2.2.1⟩

end ArenaLab
