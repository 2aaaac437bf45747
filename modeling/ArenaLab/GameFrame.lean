import ArenaLab.GameRules

/-! What one input may change, and on whose slot. -/

namespace ArenaLab

/-- The other player stands ahead of the shooter, no farther than a shot goes. -/
def GamePlayer.InLine (p q : GamePlayer) : Prop :=
  ∃ d : ℤ, 0 < d ∧ d ≤ gameRangeMm ∧ q.x_mm = p.x_mm + d * p.facing_x ∧
    q.y_mm = p.y_mm + d * p.facing_y

/-- What it takes for an input of one player to cost the other one health. -/
structure Harmed (p q q' : GamePlayer) (input : GameInput) : Prop where
  action : input.action = gameFire
  isOpen : q.isOpen = true
  living : q.health ≠ 0
  line : p.InLine q
  loss : q'.health = q.health - gameDamage

/-- What an accepted input leaves alone. -/
structure Confined (w w' : GameWorld) (s : Fin 2) (input : GameInput) : Prop where
  id : w'.match = w.match
  tick : w'.tick = w.tick
  session : ∀ i, (w'.players i).session = (w.players i).session
  isOpen : ∀ i, (w'.players i).isOpen = (w.players i).isOpen
  other : w'.players (1 - s) =
    { w.players (1 - s) with health := (w'.players (1 - s)).health }
  harm : (w'.players (1 - s)).health ≠ (w.players (1 - s)).health →
    Harmed (w.players s) (w.players (1 - s)) (w'.players (1 - s)) input
  place : input.action ≠ gameMove → (w'.players s).x_mm = (w.players s).x_mm ∧
    (w'.players s).y_mm = (w.players s).y_mm
  ammo : input.action ≠ gameFire → (w'.players s).ammo = (w.players s).ammo

section

variable {w : GameWorld} {p q next : GamePlayer} {tick : UInt64} {input : GameInput}

theorem hit_inLine (hp : PlayerRules p) (h : hit p q = true) : p.InLine q := by
  have hface := hp.facing
  simp only [hit] at h
  split at h
  · rename_i hx
    rcases hface with ⟨hx0, _⟩ | ⟨hy0, hunit⟩
    · exact absurd hx0 hx
    · simp only [Bool.and_eq_true, decide_eq_true_eq] at h
      obtain ⟨⟨hdy, hpos⟩, hrange⟩ := h
      refine ⟨(q.x_mm - p.x_mm) * p.facing_x, hpos, hrange, ?_, ?_⟩
      · rcases hunit with hu | hu <;> rw [hu] <;> omega
      · rw [hy0]
        omega
  · rename_i hx
    rw [not_not] at hx
    rcases hface with ⟨_, hunit⟩ | ⟨_, hunit⟩
    · simp only [Bool.and_eq_true, decide_eq_true_eq] at h
      obtain ⟨⟨hdx, hpos⟩, hrange⟩ := h
      refine ⟨(q.y_mm - p.y_mm) * p.facing_y, hpos, hrange, ?_, ?_⟩
      · rw [hx]
        omega
      · rcases hunit with hu | hu <;> rw [hu] <;> omega
    · rw [hx] at hunit
      omega

/-- Only a shot that is in line does damage. -/
theorem perform_damage (h : p.perform q tick input = .ok (next, true)) :
    input.action = gameFire ∧ q.alive = true ∧ hit p q = true := by
  simp only [GamePlayer.perform] at h
  split at h
  · cases hmove : p.move q input with
    | error reason => simp [hmove, Except.map] at h
    | ok moved => simp [hmove, Except.map] at h
  · split at h
    · rename_i hact
      simp only [GamePlayer.fire] at h
      split at h
      · cases h
      · split at h
        · cases h
        · split at h
          · cases h
          · split at h
            · rename_i hhit
              rw [Bool.and_eq_true] at hhit
              exact ⟨hact, hhit⟩
            · simp at h
    · simp at h

theorem Performed.place {damage : Bool} (h : Performed p q tick input next damage)
    (hact : input.action ≠ gameMove) : next.x_mm = p.x_mm ∧ next.y_mm = p.y_mm := by
  cases h with
  | moved hmove => exact absurd hmove hact
  | missed => exact ⟨rfl, rfl⟩
  | struck => exact ⟨rfl, rfl⟩
  | waited => exact ⟨rfl, rfl⟩

theorem Performed.ammo {damage : Bool} (h : Performed p q tick input next damage)
    (hact : input.action ≠ gameFire) : next.ammo = p.ammo := by
  cases h with
  | moved => rfl
  | missed hfire => exact absurd hfire hact
  | struck hfire => exact absurd hfire hact
  | waited => rfl

theorem gameJudge_accepted {s : Fin 2} (h : (gameJudge w s input).2 = .ok) :
    ∃ next damage, (w.players s).perform (w.players (1 - s)) w.tick input = .ok (next, damage) ∧
      (gameJudge w s input).1 = w.commit s next damage input.sequence := by
  cases hp : (w.players s).perform (w.players (1 - s)) w.tick input with
  | error reason =>
    have hbad := perform_error hp
    simp only [gameJudge, hp] at h
    repeat' split at h
    all_goals first | exact absurd h hbad | simp at h
  | ok done =>
    revert h
    simp only [gameJudge, hp]
    repeat' split
    all_goals intro h
    all_goals first | exact ⟨done.1, done.2, rfl, rfl⟩ | simp at h

theorem gameApply_accepted {slot : ℕ} (h : (gameApply w slot input).2 = .ok) :
    ∃ (s : Fin 2) (next : GamePlayer) (damage : Bool), slot = s ∧
      (w.players s).perform (w.players (1 - s)) w.tick input = .ok (next, damage) ∧
      (gameApply w slot input).1 = w.commit s next damage input.sequence := by
  revert h
  simp only [gameApply]
  split
  · rename_i hslot
    split
    · intro h
      obtain ⟨next, damage, hp, hw⟩ := gameJudge_accepted h
      exact ⟨⟨slot, hslot⟩, next, damage, rfl, hp, hw⟩
    · intro h
      cases h
  · intro h
    cases h

theorem GamePlayer.wounded_health (q : GamePlayer) : q.wounded.health = q.health - gameDamage := by
  simp only [GamePlayer.wounded]
  split <;> omega

theorem confined_commit {s : Fin 2} {damage : Bool} (hrules : PlayerRules (w.players s))
    (hp : (w.players s).perform (w.players (1 - s)) w.tick input = .ok (next, damage)) :
    Confined w (w.commit s next damage input.sequence) s input := by
  have hperf := performed_of_perform hp
  have hself := commit_self w s next damage input.sequence
  have hother := commit_other w s next damage input.sequence
  have hside := commit_side hperf
  refine ⟨rfl, rfl, fun i => (hside i).1, fun i => (hside i).2, ?_, ?_, ?_, ?_⟩
  · rw [hother]
    cases damage <;> rfl
  · rw [hother]
    intro hchanged
    cases damage with
    | false => exact absurd rfl hchanged
    | true =>
      obtain ⟨hact, halive, hhit⟩ := perform_damage hp
      simp only [GamePlayer.alive, Bool.and_eq_true, decide_eq_true_eq] at halive
      exact ⟨hact, halive.1, halive.2, hit_inLine hrules hhit, GamePlayer.wounded_health _⟩
  · intro hact
    rw [hself]
    exact hperf.place hact
  · intro hact
    rw [hself]
    exact hperf.ammo hact

/-- In every world a match reaches, a refused input leaves it as it was, and an
accepted one touches its own slot and at most the health of the other. -/
theorem play_confined {id a b : Bytes 16} {w₀ : GameWorld} {τ : List GameEvent}
    (h₀ : gameInit id a b = some w₀) (h : Runs.Steps GameStep w₀ τ w) (slot : ℕ)
    (input : GameInput) :
    ((gameApply w slot input).2 ≠ .ok → (gameApply w slot input).1 = w) ∧
    ((gameApply w slot input).2 = .ok →
      ∃ s : Fin 2, slot = s ∧ Confined w (gameApply w slot input).1 s input) := by
  have hrules := gameRules_of_run h₀ h
  refine ⟨?_, ?_⟩
  · intro hbad
    rcases gameApply_cases w slot input with ⟨_, hw⟩ | ⟨hok, _⟩
    · exact hw
    · exact absurd hok hbad
  · intro hok
    obtain ⟨s, next, damage, hslot, hp, hw⟩ := gameApply_accepted hok
    refine ⟨s, hslot, ?_⟩
    rw [hw]
    exact confined_commit (hrules.own s) hp

end

theorem play_confined_shot :
    (gameApply sampleShotWorld 1 { sampleShot with session := Vector.replicate 16 3 }).2 = .ok ∧
    ∃ s : Fin 2, (1 : ℕ) = s ∧ Confined sampleShotWorld
      (gameApply sampleShotWorld 1 { sampleShot with session := Vector.replicate 16 3 }).1 s
      { sampleShot with session := Vector.replicate 16 3 } := by
  have hok : (gameApply sampleShotWorld 1
      { sampleShot with session := Vector.replicate 16 3 }).2 = .ok := by decide +kernel
  exact ⟨hok, (play_confined sampleWorld_init sampleShot_run 1 _).2 hok⟩

end ArenaLab
