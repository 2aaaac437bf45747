import ArenaLab.LabWire
import ArenaLab.Runs
import Mathlib.Data.Int.Notation
import Mathlib.Logic.Function.Basic
import Mathlib.Tactic.Common

/-! The rules of the match: one world, two players, inputs that are judged
against the server's tick. -/

namespace ArenaLab

/-- The numerals of the two slots, by one name in every module. -/
instance neZero_slots : @NeZero ℕ ⟨0⟩ 2 := ⟨by decide⟩

def gameStepMm : ℤ := 100
def gameEdgeMm : ℤ := 10000
def gameRangeMm : ℤ := 2000
def gameFireTicks : UInt64 := 4
def gameAmmo : ℕ := 4
def gameHealth : ℕ := 100
def gameDamage : ℕ := 25

def gameMove : UInt8 := 1
def gameFire : UInt8 := 2
def gameWait : UInt8 := 3

def axisNone : UInt8 := 0
def axisNeg : UInt8 := 1
def axisPos : UInt8 := 2

inductive GameResult
  | ok | badInput | wrongMatch | wrongSession | closed | dead | replay | sequenceExhausted
  | tickUsed | cooldown | noAmmo | wall | occupied | clockExhausted
  deriving DecidableEq, Repr

structure GameInput where
  «match» : Bytes 16
  session : Bytes 16
  sequence : UInt32
  action : UInt8
  axis_x : UInt8
  axis_y : UInt8
  deriving DecidableEq

structure GamePlayer where
  session : Bytes 16
  x_mm : ℤ := 0
  y_mm : ℤ := 0
  facing_x : ℤ := 0
  facing_y : ℤ := 0
  last_sequence : UInt32 := 0
  last_input_tick : UInt64 := 0
  next_fire_tick : UInt64 := 0
  ammo : ℕ := 0
  health : ℕ := 0
  hits : ℕ := 0
  kills : ℕ := 0
  isOpen : Bool := false
  has_input : Bool := false
  deriving DecidableEq

structure GameWorld where
  «match» : Bytes 16
  tick : UInt64
  players : Fin 2 → GamePlayer

def nonzeroId (id : Bytes 16) : Bool := id.toList.any (· ≠ 0)

def validInput (input : GameInput) : Bool :=
  if !nonzeroId input.match || !nonzeroId input.session || input.sequence = 0 ||
      axisPos < input.axis_x || axisPos < input.axis_y then false
  else if input.action = gameMove then
    decide (input.axis_x ≠ axisNone) != decide (input.axis_y ≠ axisNone)
  else (input.action = gameFire || input.action = gameWait) &&
    input.axis_x = axisNone && input.axis_y = axisNone

def gameInit («match» session_a session_b : Bytes 16) : Option GameWorld :=
  if !nonzeroId «match» || !nonzeroId session_a || !nonzeroId session_b || session_a = session_b then none
  else some
    { «match» := «match»
      tick := 0
      players := fun i =>
        { session := if i = 0 then session_a else session_b
          x_mm := if i = 0 then 0 else 500
          facing_x := if i = 0 then 1 else -1
          ammo := gameAmmo
          health := gameHealth
          isOpen := true } }

def direction (axis : UInt8) : ℤ :=
  if axis = axisNeg then -1 else if axis = axisPos then 1 else 0

def hit (shooter other : GamePlayer) : Bool :=
  let dx := other.x_mm - shooter.x_mm
  let dy := other.y_mm - shooter.y_mm
  if shooter.facing_x ≠ 0 then
    dy = 0 && 0 < dx * shooter.facing_x && dx * shooter.facing_x ≤ gameRangeMm
  else dx = 0 && 0 < dy * shooter.facing_y && dy * shooter.facing_y ≤ gameRangeMm

def GamePlayer.alive (p : GamePlayer) : Bool := p.isOpen && p.health ≠ 0

def GamePlayer.turned (p : GamePlayer) (input : GameInput) : GamePlayer :=
  { p with
    facing_x := direction input.axis_x
    facing_y := direction input.axis_y
    x_mm := p.x_mm + direction input.axis_x * gameStepMm
    y_mm := p.y_mm + direction input.axis_y * gameStepMm }

/-- The `GAME_MOVE` branch of `game_apply`. -/
def GamePlayer.move (p other : GamePlayer) (input : GameInput) : Except GameResult GamePlayer :=
  let next := p.turned input
  if next.x_mm < -gameEdgeMm ∨ gameEdgeMm < next.x_mm ∨
      next.y_mm < -gameEdgeMm ∨ gameEdgeMm < next.y_mm then .error .wall
  else if other.alive ∧ next.x_mm = other.x_mm ∧ next.y_mm = other.y_mm then .error .occupied
  else .ok next

def GamePlayer.fired (p : GamePlayer) (tick : UInt64) : GamePlayer :=
  { p with next_fire_tick := tick + gameFireTicks, ammo := p.ammo - 1 }

def GamePlayer.scored (p other : GamePlayer) : GamePlayer :=
  { p with
    hits := p.hits + 1
    kills := if other.health ≤ gameDamage then p.kills + 1 else p.kills }

/-- The `GAME_FIRE` branch of `game_apply`, and whether the shot did damage. -/
def GamePlayer.fire (p other : GamePlayer) (tick : UInt64) : Except GameResult (GamePlayer × Bool) :=
  if p.ammo = 0 then .error .noAmmo
  else if tick < p.next_fire_tick then .error .cooldown
  else if 0xFFFFFFFFFFFFFFFF - gameFireTicks < tick then .error .clockExhausted
  else
    let next := p.fired tick
    if other.alive && hit next other then .ok (next.scored other, true) else .ok (next, false)

def GamePlayer.perform (p other : GamePlayer) (tick : UInt64) (input : GameInput) :
    Except GameResult (GamePlayer × Bool) :=
  if input.action = gameMove then (p.move other input).map (·, false)
  else if input.action = gameFire then p.fire other tick
  else .ok (p, false)

def GamePlayer.noted (p : GamePlayer) (tick : UInt64) (sequence : UInt32) : GamePlayer :=
  { p with has_input := true, last_input_tick := tick, last_sequence := sequence }

def GamePlayer.wounded (p : GamePlayer) : GamePlayer :=
  { p with health := if gameDamage < p.health then p.health - gameDamage else 0 }

/-- The end of `game_apply`: the player as noted, and the damage to the other one. -/
def GameWorld.commit (w : GameWorld) (slot : Fin 2) (next : GamePlayer) (damage : Bool)
    (sequence : UInt32) : GameWorld :=
  let players := Function.update w.players slot (next.noted w.tick sequence)
  { w with
    players := if damage then Function.update players (1 - slot) (w.players (1 - slot)).wounded
      else players }

/-- `game_apply` for an existing slot and a valid input. -/
def gameJudge (w : GameWorld) (slot : Fin 2) (input : GameInput) : GameWorld × GameResult :=
  let player := w.players slot
  let other := w.players (1 - slot)
  if w.match ≠ input.match then (w, .wrongMatch)
  else if player.session ≠ input.session then (w, .wrongSession)
  else if !player.isOpen then (w, .closed)
  else if player.health = 0 then (w, .dead)
  else if input.sequence = uint32Max then (w, .sequenceExhausted)
  else if input.sequence ≤ player.last_sequence then (w, .replay)
  else if player.has_input ∧ player.last_input_tick = w.tick then (w, .tickUsed)
  else match player.perform other w.tick input with
    | .error reason => (w, reason)
    | .ok (next, damage) => (w.commit slot next damage input.sequence, .ok)

def gameApply (w : GameWorld) (slot : ℕ) (input : GameInput) : GameWorld × GameResult :=
  if h : slot < 2 then
    if validInput input then gameJudge w ⟨slot, h⟩ input else (w, .badInput)
  else (w, .badInput)

def gameAdvance (w : GameWorld) : GameWorld × GameResult :=
  if w.tick = 0xFFFFFFFFFFFFFFFF then (w, .clockExhausted)
  else ({ w with tick := w.tick + 1 }, .ok)

def gameClose (w : GameWorld) (slot : ℕ) : GameWorld × GameResult :=
  if h : slot < 2 then
    ({ w with
      players := Function.update w.players ⟨slot, h⟩ { w.players ⟨slot, h⟩ with isOpen := false } }, .ok)
  else (w, .badInput)

/-- The host's assignment of the supervisor's tick, which it takes forward only. -/
def GameWorld.assign (w : GameWorld) (tick : UInt64) : Option GameWorld :=
  if tick < w.tick then none else some { w with tick := tick }

inductive GameAction
  | apply (slot : ℕ) (input : GameInput)
  | advance
  | close (slot : ℕ)
  | assign (tick : UInt64)

/-- An action, the tick at which it was taken, and its result. -/
structure GameEvent where
  action : GameAction
  tick : UInt64
  result : GameResult

def gameNext (w : GameWorld) (a : GameAction) : Option (GameEvent × GameWorld) :=
  match a with
  | .apply slot input => some (⟨a, w.tick, (gameApply w slot input).2⟩, (gameApply w slot input).1)
  | .advance => some (⟨a, w.tick, (gameAdvance w).2⟩, (gameAdvance w).1)
  | .close slot => some (⟨a, w.tick, (gameClose w slot).2⟩, (gameClose w slot).1)
  | .assign tick => (w.assign tick).map (⟨a, w.tick, .ok⟩, ·)

abbrev GameStep := Runs.Induced gameNext

/-- What an accepted input had to pass before its action. -/
structure Admitted (w : GameWorld) (slot : Fin 2) (input : GameInput) : Prop where
  valid : validInput input = true
  isOpen : (w.players slot).isOpen = true
  alive : (w.players slot).health ≠ 0
  room : input.sequence ≠ uint32Max
  newer : (w.players slot).last_sequence < input.sequence
  once : ¬((w.players slot).has_input = true ∧ (w.players slot).last_input_tick = w.tick)

/-- What an action can do to its player; `damage` says whether the other one was hit. -/
inductive Performed (p other : GamePlayer) (tick : UInt64) (input : GameInput) :
    GamePlayer → Bool → Prop
  | moved (hact : input.action = gameMove)
      (hx : -gameEdgeMm ≤ (p.turned input).x_mm ∧ (p.turned input).x_mm ≤ gameEdgeMm)
      (hy : -gameEdgeMm ≤ (p.turned input).y_mm ∧ (p.turned input).y_mm ≤ gameEdgeMm)
      (hfree : other.alive = true →
        ¬((p.turned input).x_mm = other.x_mm ∧ (p.turned input).y_mm = other.y_mm)) :
      Performed p other tick input (p.turned input) false
  | missed (hact : input.action = gameFire) (hammo : p.ammo ≠ 0) (hready : p.next_fire_tick ≤ tick)
      (hroom : (tick + gameFireTicks).toNat = tick.toNat + 4) :
      Performed p other tick input (p.fired tick) false
  | struck (hact : input.action = gameFire) (hammo : p.ammo ≠ 0) (hready : p.next_fire_tick ≤ tick)
      (hroom : (tick + gameFireTicks).toNat = tick.toNat + 4) (halive : other.alive = true) :
      Performed p other tick input ((p.fired tick).scored other) true
  | waited (hact : input.action ≠ gameFire) : Performed p other tick input p false

theorem fire_room {tick : UInt64} (h : ¬0xFFFFFFFFFFFFFFFF - gameFireTicks < tick) :
    (tick + gameFireTicks).toNat = tick.toNat + 4 := by
  have hle : tick.toNat ≤ (0xFFFFFFFFFFFFFFFF - gameFireTicks : UInt64).toNat :=
    UInt64.le_iff_toNat_le.mp (UInt64.not_lt.mp h)
  have hmax : (0xFFFFFFFFFFFFFFFF - gameFireTicks : UInt64).toNat = 18446744073709551611 := rfl
  have h4 : gameFireTicks.toNat = 4 := rfl
  rw [UInt64.toNat_add, h4]
  omega

theorem performed_of_perform {p other next : GamePlayer} {tick : UInt64} {input : GameInput}
    {damage : Bool} (h : p.perform other tick input = .ok (next, damage)) :
    Performed p other tick input next damage := by
  simp only [GamePlayer.perform] at h
  split at h
  · rename_i hact
    simp only [GamePlayer.move] at h
    split at h
    · cases h
    · rename_i hwall
      split at h
      · cases h
      · rename_i hfree
        obtain ⟨rfl, rfl⟩ := Prod.mk.inj (Except.ok.inj h)
        rw [not_or, not_or, not_or, Int.not_lt, Int.not_lt, Int.not_lt, Int.not_lt] at hwall
        exact .moved hact ⟨hwall.1, hwall.2.1⟩ hwall.2.2 (fun ha hs => hfree ⟨ha, hs⟩)
  · split at h
    · rename_i hact
      simp only [GamePlayer.fire] at h
      split at h
      · cases h
      · rename_i hammo
        split at h
        · cases h
        · rename_i hready
          split at h
          · cases h
          · rename_i hroom
            split at h
            · rename_i hhit
              obtain ⟨rfl, rfl⟩ := Prod.mk.inj (Except.ok.inj h)
              rw [Bool.and_eq_true] at hhit
              exact .struck hact hammo (UInt64.not_lt.mp hready) (fire_room hroom) hhit.1
            · obtain ⟨rfl, rfl⟩ := Prod.mk.inj (Except.ok.inj h)
              exact .missed hact hammo (UInt64.not_lt.mp hready) (fire_room hroom)
    · rename_i hact
      obtain ⟨rfl, rfl⟩ := Prod.mk.inj (Except.ok.inj h)
      exact .waited hact

theorem perform_error {p other : GamePlayer} {tick : UInt64} {input : GameInput} {reason : GameResult}
    (h : p.perform other tick input = .error reason) : reason ≠ .ok := by
  simp only [GamePlayer.perform, GamePlayer.move, GamePlayer.fire] at h
  rintro rfl
  repeat' split at h
  all_goals cases h

/-- A rejected input changes nothing; an accepted one is committed. -/
theorem gameApply_cases (w : GameWorld) (slot : ℕ) (input : GameInput) :
    (gameApply w slot input).2 ≠ .ok ∧ (gameApply w slot input).1 = w ∨
    (gameApply w slot input).2 = .ok ∧ ∃ (s : Fin 2) (next : GamePlayer) (damage : Bool),
      slot = s ∧ Admitted w s input ∧
      Performed (w.players s) (w.players (1 - s)) w.tick input next damage ∧
      (gameApply w slot input).1 = w.commit s next damage input.sequence := by
  simp only [gameApply]
  split
  · rename_i hslot
    split
    · rename_i hvalid
      simp only [gameJudge]
      split
      · exact .inl ⟨by simp, rfl⟩
      · split
        · exact .inl ⟨by simp, rfl⟩
        · split
          · exact .inl ⟨by simp, rfl⟩
          · rename_i hopen
            split
            · exact .inl ⟨by simp, rfl⟩
            · rename_i halive
              split
              · exact .inl ⟨by simp, rfl⟩
              · rename_i hroom
                split
                · exact .inl ⟨by simp, rfl⟩
                · rename_i hnewer
                  split
                  · exact .inl ⟨by simp, rfl⟩
                  · rename_i honce
                    split
                    · rename_i hp
                      exact .inl ⟨perform_error hp, rfl⟩
                    · rename_i next damage hp
                      exact .inr ⟨rfl, ⟨slot, hslot⟩, next, damage, rfl,
                        ⟨hvalid, by simpa using hopen, halive, hroom, UInt32.not_le.mp hnewer, honce⟩,
                        performed_of_perform hp, rfl⟩
    · exact .inl ⟨by simp, rfl⟩
  · exact .inl ⟨by simp, rfl⟩

inductive GameChange (w : GameWorld) : GameEvent → GameWorld → Prop
  | refused {a : GameAction} {r : GameResult} (hbad : r ≠ .ok) : GameChange w ⟨a, w.tick, r⟩ w
  | played {input : GameInput} {s : Fin 2} {next : GamePlayer} {damage : Bool}
      (hadm : Admitted w s input)
      (hperf : Performed (w.players s) (w.players (1 - s)) w.tick input next damage) :
      GameChange w ⟨.apply s input, w.tick, .ok⟩ (w.commit s next damage input.sequence)
  | ticked {a : GameAction} {tick : UInt64} (hact : a = .advance ∨ a = .assign tick)
      (hle : w.tick ≤ tick) : GameChange w ⟨a, w.tick, .ok⟩ { w with tick := tick }
  | shut {s : Fin 2} : GameChange w ⟨.close s, w.tick, .ok⟩
      { w with players := Function.update w.players s { w.players s with isOpen := false } }

theorem gameStep_change {w w' : GameWorld} {e : GameEvent} (h : GameStep w e w') :
    GameChange w e w' := by
  obtain ⟨a, ha⟩ := h
  cases a with
  | apply slot input =>
    obtain ⟨rfl, rfl⟩ := Prod.mk.inj (Option.some.inj ha)
    rcases gameApply_cases w slot input with ⟨hbad, hw⟩ | ⟨hok, s, next, damage, rfl, hadm, hperf, hw⟩
    · rw [hw]
      exact .refused hbad
    · rw [hok, hw]
      exact .played hadm hperf
  | advance =>
    obtain ⟨rfl, rfl⟩ := Prod.mk.inj (Option.some.inj ha)
    simp only [gameAdvance]
    split
    · exact .refused (by simp)
    · rename_i hmax
      refine .ticked (.inl rfl) ?_
      have hlt : w.tick.toNat ≠ 18446744073709551615 := fun hh => hmax (UInt64.toNat_inj.mp hh)
      have hone : (1 : UInt64).toNat = 1 := rfl
      have htick := w.tick.toNat_lt
      rw [UInt64.le_iff_toNat_le, UInt64.toNat_add]
      omega
  | close slot =>
    obtain ⟨rfl, rfl⟩ := Prod.mk.inj (Option.some.inj ha)
    simp only [gameClose]
    split
    · rename_i hslot
      exact @GameChange.shut w ⟨slot, hslot⟩
    · exact .refused (by simp)
  | assign tick =>
    obtain ⟨u, hu, he⟩ := Option.map_eq_some_iff.mp ha
    obtain ⟨rfl, rfl⟩ := Prod.mk.inj he
    simp only [GameWorld.assign] at hu
    split at hu
    · cases hu
    · rename_i hle
      obtain rfl := Option.some.inj hu
      exact .ticked (.inr rfl) (UInt64.not_lt.mp hle)

end ArenaLab
