import ArenaLab.EventLog
import ArenaLab.NetServer
import Mathlib.Tactic.Linarith

/-! The log of the combat and what it says of a pawn: how long its gun has rested, what
its magazine has spent, whether it is down, and what it has scored in the match. -/

namespace ArenaLab

open EventLog

namespace CombatEvent

def delta : CombatEvent → ℚ
  | .advanced d => d
  | _ => 0

def starts : CombatEvent → Bool
  | .started => true
  | _ => false

def shotBy (p : ℤ) : CombatEvent → Bool
  | .shot q => q = p
  | _ => false

/-- A reload that ends, or a respawn. -/
def refills (p : ℤ) : CombatEvent → Bool
  | .reloaded q => q = p
  | .respawned q => q = p
  | _ => false

def revives (p : ℤ) : CombatEvent → Bool
  | .respawned q => q = p
  | _ => false

/-- The health of the player drops to zero. -/
def downs (p : ℤ) : CombatEvent → Bool
  | .damaged _ v health => v = p && health = 0
  | _ => false

/-- The player brings down another one. -/
def killBy (p : ℤ) : CombatEvent → Bool
  | .damaged a v health => a = p && v ≠ p && health = 0
  | _ => false

/-- The player acts, or is hit. -/
def involves (p : ℤ) : CombatEvent → Bool
  | .simulated q => q = p
  | .shot q => q = p
  | .damaged _ v _ => v = p
  | _ => false

def hits : CombatEvent → Bool
  | .damaged .. => true
  | _ => false

/-- Whether the pawn of the player can look different after the event. -/
def concerns (p : ℤ) : CombatEvent → Bool
  | .started => true
  | .advanced _ => true
  | .simulated _ => false
  | .reloaded q => q = p
  | .respawned q => q = p
  | .shot q => q = p
  | .damaged a v _ => a = p || v = p
  | .finished => false

end CombatEvent

open CombatEvent

def elapsed (mid : List CombatEvent) : ℚ := (mid.map delta).sum

/-- The player was brought down and has not come back. -/
def Down (p : ℤ) (log : List CombatEvent) : Prop := ∃ a mid, After (revives p) log (.damaged a p 0) mid

def killsIn (p : ℤ) (log : List CombatEvent) : ℕ := countSince starts (killBy p) log

def deathsIn (p : ℤ) (log : List CombatEvent) : ℕ := countSince starts (downs p) log

def firedIn (p : ℤ) (log : List CombatEvent) : ℕ := countSince (refills p) (shotBy p) log

/-- The health that the log leaves the player with. -/
def healthIn (p : ℤ) : List CombatEvent → ℤ
  | [] => 100
  | .respawned q :: log => if q = p then 100 else healthIn p log
  | .damaged _ v health :: log => if v = p then health else healthIn p log
  | _ :: log => healthIn p log

/-- What every event of the log meets, given the log before it. -/
def combatTest (limit : ℤ) (log : List CombatEvent) (e : CombatEvent) : Prop :=
  (∀ p, e.involves p = true → ¬Down p log) ∧
  (∀ p, e.shotBy p = true → firedIn p log < 12 ∧ ∀ mid, After starts log (.shot p) mid → 18 / 100 ≤ elapsed mid) ∧
  (e.hits = true → ∀ p, (killsIn p log : ℤ) < limit)

/-- A pawn as the log has it. Time that has passed in this tick, but not yet for the
pawn, is owed. -/
structure PawnInv (log : List CombatEvent) (p : ℤ) (owed : ℚ) (pawn : Pawn) : Prop where
  healthy : 0 ≤ pawn.health ∧ pawn.health ≤ 100
  loaded : 0 ≤ pawn.ammo ∧ pawn.ammo + firedIn p log = 12
  alive : 0 < pawn.health → ¬Down p log
  kills : pawn.kills = killsIn p log
  deaths : pawn.deaths = deathsIn p log
  rested : ∀ mid, After starts log (.shot p) mid → owed ≤ elapsed mid ∧
    (0 < pawn.health → 18 / 100 + owed ≤ elapsed mid + pawn.cooldown) ∧
    (pawn.health = 0 → 3 + owed ≤ elapsed mid + pawn.respawn_time)
  logged : pawn.health = healthIn p log

section

variable {log : List CombatEvent} {e : CombatEvent} {p a v health : ℤ} {owed delta : ℚ} {pawn : Pawn} {limit : ℤ}

theorem elapsed_cons (e : CombatEvent) (mid : List CombatEvent) : elapsed (e :: mid) = e.delta + elapsed mid :=
  List.sum_cons

/-- An event without a part of a pawn passes every test. -/
theorem combatTest_quiet (hinvolves : ∀ p, e.involves p = false) (hshot : ∀ p, e.shotBy p = false)
    (hhits : e.hits = false) : combatTest limit log e := by
  refine ⟨?_, ?_, ?_⟩
  · intro p hp
    rw [hinvolves p] at hp
    cases hp
  · intro p hp
    rw [hshot p] at hp
    cases hp
  · intro hp
    rw [hhits] at hp
    cases hp

/-- An event that does not concern the player moves none of its meters. -/
theorem concerns_false (h : e.concerns p = false) : e.delta = 0 ∧ e.starts = false ∧ e.shotBy p = false ∧
    e.refills p = false ∧ e.downs p = false ∧ e.killBy p = false := by
  cases e <;> simp_all [concerns, CombatEvent.delta, starts, shotBy, refills, downs, killBy]

theorem shotBy_self : (CombatEvent.shot p).shotBy p = true := by simp [shotBy]

theorem downs_self : (CombatEvent.damaged a p 0).downs p = true := by simp [downs]

theorem not_down_cons (h : ¬Down p log) (he : e.downs p = false) : ¬Down p (e :: log) := by
  rintro ⟨a, mid, hafter⟩
  rcases after_cons hafter with ⟨rfl, -⟩ | ⟨mid', -, -, hafter⟩
  · rw [downs_self] at he
    cases he
  · exact h ⟨a, mid', hafter⟩

theorem rested_cons {mid : List CombatEvent} (he : e.shotBy p = false) (h : After starts (e :: log) (.shot p) mid) :
    ∃ mid', After starts log (.shot p) mid' ∧ elapsed mid = e.delta + elapsed mid' := by
  rcases after_cons h with ⟨rfl, -⟩ | ⟨mid', rfl, -, h⟩
  · rw [shotBy_self] at he
    cases he
  · exact ⟨mid', h, elapsed_cons e mid'⟩

theorem healthIn_frame (h : e.concerns p = false) : healthIn p (e :: log) = healthIn p log := by
  cases e with
  | respawned q => exact if_neg (by simpa [concerns] using h)
  | damaged a v health =>
    simp only [concerns, Bool.or_eq_false_iff, decide_eq_false_iff_not] at h
    exact if_neg h.2
  | _ => rfl

theorem PawnInv.frame (h : PawnInv log p owed pawn) (he : e.concerns p = false) : PawnInv (e :: log) p owed pawn := by
  obtain ⟨hdelta, hstarts, hshot, hrefills, hdowns, hkill⟩ := concerns_false he
  refine ⟨h.healthy, ?_, fun hpos => not_down_cons (h.alive hpos) hdowns, ?_, ?_, ?_,
    h.logged.trans (healthIn_frame he).symm⟩
  · rw [firedIn, countSince_other hrefills hshot]
    exact h.loaded
  · rw [killsIn, countSince_other hstarts hkill]
    exact h.kills
  · rw [deathsIn, countSince_other hstarts hdowns]
    exact h.deaths
  · intro mid hmid
    obtain ⟨mid', hmid', helapsed⟩ := rested_cons hshot hmid
    rw [helapsed, hdelta, zero_add]
    exact h.rested mid' hmid'

theorem PawnInv.owe (h : PawnInv log p owed pawn) {less : ℚ} (hless : less ≤ owed) : PawnInv log p less pawn := by
  refine ⟨h.healthy, h.loaded, h.alive, h.kills, h.deaths, ?_, h.logged⟩
  intro mid hmid
  obtain ⟨howed, halive, hdead⟩ := h.rested mid hmid
  refine ⟨by linarith, ?_, ?_⟩
  · intro hpos
    have := halive hpos
    linarith
  · intro hzero
    have := hdead hzero
    linarith

theorem PawnInv.advanced (h : PawnInv log p 0 pawn) (delta : ℚ) : PawnInv (.advanced delta :: log) p delta pawn := by
  refine ⟨h.healthy, ?_, fun hpos => not_down_cons (h.alive hpos) rfl, ?_, ?_, ?_, h.logged⟩
  · rw [firedIn, countSince_other rfl rfl]
    exact h.loaded
  · rw [killsIn, countSince_other rfl rfl]
    exact h.kills
  · rw [deathsIn, countSince_other rfl rfl]
    exact h.deaths
  · intro mid hmid
    obtain ⟨mid', hmid', helapsed⟩ := rested_cons rfl hmid
    rw [helapsed, CombatEvent.delta]
    obtain ⟨howed, halive, hdead⟩ := h.rested mid' hmid'
    refine ⟨by linarith, ?_, ?_⟩
    · intro hpos
      have := halive hpos
      linarith
    · intro hzero
      have := hdead hzero
      linarith

/-- A dead pawn waits out its time. -/
theorem PawnInv.wait (h : PawnInv log p delta pawn) (hdead : pawn.health = 0) (hdelta : 0 ≤ delta) :
    PawnInv log p 0 { pawn with respawn_time := pawn.respawn_time - delta } := by
  refine ⟨h.healthy, h.loaded, h.alive, h.kills, h.deaths, ?_, h.logged⟩
  intro mid hmid
  obtain ⟨howed, -, hwait⟩ := h.rested mid hmid
  refine ⟨by linarith, ?_, ?_⟩
  · intro hpos
    have hpos : 0 < pawn.health := hpos
    omega
  · intro _
    have := hwait hdead
    change 3 + 0 ≤ elapsed mid + (pawn.respawn_time - delta)
    linarith

theorem respawned_inv (hkills : pawn.kills = killsIn p log) (hdeaths : pawn.deaths = deathsIn p log)
    (hrested : ∀ mid, After starts log (.shot p) mid → 18 / 100 ≤ elapsed mid) :
    PawnInv (.respawned p :: log) p 0
      { pawn with health := 100, ammo := 12, reload_time := 0, cooldown := 0, respawn_time := 0 } := by
  have hrefills : (CombatEvent.respawned p).refills p = true := by simp [refills]
  have hrevives : (CombatEvent.respawned p).revives p = true := by simp [revives]
  refine ⟨⟨(by decide : (0 : ℤ) ≤ 100), le_refl (100 : ℤ)⟩, ?_, ?_, ?_, ?_, ?_, (if_pos rfl).symm⟩
  · rw [firedIn, countSince_reset hrefills]
    exact ⟨(by decide : (0 : ℤ) ≤ 12), rfl⟩
  · rintro - ⟨a, mid, hafter⟩
    have hne : CombatEvent.respawned p ≠ .damaged a p 0 := nofun
    exact not_after_reset hrevives hne hafter
  · rw [killsIn, countSince_other rfl rfl]
    exact hkills
  · rw [deathsIn, countSince_other rfl rfl]
    exact hdeaths
  · intro mid hmid
    obtain ⟨mid', hmid', helapsed⟩ := rested_cons rfl hmid
    have hrest := hrested mid' hmid'
    have hdelta : (CombatEvent.respawned p).delta = 0 := rfl
    rw [helapsed, hdelta, zero_add]
    refine ⟨by linarith, ?_, ?_⟩
    · intro _
      change 18 / 100 + 0 ≤ elapsed mid' + 0
      linarith
    · intro hzero
      have hzero : (100 : ℤ) = 0 := hzero
      omega

theorem simulate_eq (pawn : Pawn) (delta : ℚ) (reload : Bool) : ∃ left, pawn.simulate delta reload = { pawn with
    cooldown := max 0 (pawn.cooldown - delta)
    ammo := if pawn.reloads delta then 12 else pawn.ammo
    reload_time := left } := by
  unfold Pawn.simulate
  dsimp only
  generalize (if pawn.reloads delta then 12 else pawn.ammo) = ammo
  generalize (if 0 < pawn.reload_time then max 0 (pawn.reload_time - delta) else pawn.reload_time) = left
  split
  · exact ⟨_, rfl⟩
  · split
    · exact ⟨_, rfl⟩
    · exact ⟨_, rfl⟩

/-- A living pawn moves, and a reload may end. -/
theorem PawnInv.simulated (h : PawnInv log p delta pawn) (hpos : 0 < pawn.health) (hdelta : 0 ≤ delta)
    (reload : Bool) :
    PawnInv (if pawn.reloads delta then .reloaded p :: log else log) p 0 (pawn.simulate delta reload) := by
  obtain ⟨left, heq⟩ := simulate_eq pawn delta reload
  rw [heq]
  have hrefills : (CombatEvent.reloaded p).refills p = true := by simp [refills]
  refine ⟨h.healthy, ?_, ?_, ?_, ?_, ?_, ?_⟩
  · dsimp only
    split
    · rw [firedIn, countSince_reset hrefills]
      exact ⟨(by decide : (0 : ℤ) ≤ 12), rfl⟩
    · exact h.loaded
  · intro hpos
    split
    · exact not_down_cons (h.alive hpos) rfl
    · exact h.alive hpos
  · split
    · rw [killsIn, countSince_other rfl rfl]
      exact h.kills
    · exact h.kills
  · split
    · rw [deathsIn, countSince_other rfl rfl]
      exact h.deaths
    · exact h.deaths
  · intro mid hmid
    have hold : ∃ mid', After starts log (.shot p) mid' ∧ elapsed mid = elapsed mid' := by
      split at hmid
      · obtain ⟨mid', hmid', helapsed⟩ := rested_cons rfl hmid
        have hzero : (CombatEvent.reloaded p).delta = 0 := rfl
        rw [hzero, zero_add] at helapsed
        exact ⟨mid', hmid', helapsed⟩
      · exact ⟨mid, hmid, rfl⟩
    obtain ⟨mid', hmid', helapsed⟩ := hold
    obtain ⟨howed, halive, -⟩ := h.rested mid' hmid'
    have hgun := halive hpos
    have hmax := le_max_right 0 (pawn.cooldown - delta)
    rw [helapsed]
    refine ⟨by linarith, ?_, ?_⟩
    · intro _
      change 18 / 100 + 0 ≤ elapsed mid' + max 0 (pawn.cooldown - delta)
      linarith
    · intro hzero
      have hzero : pawn.health = 0 := hzero
      omega
  · split <;> exact h.logged

theorem PawnInv.shotRest (h : PawnInv log p 0 pawn) (hfire : pawn.canFire = true) {mid : List CombatEvent}
    (hmid : After starts log (.shot p) mid) : 18 / 100 ≤ elapsed mid := by
  simp only [Pawn.canFire, Bool.and_eq_true, decide_eq_true_eq] at hfire
  obtain ⟨⟨⟨hpos, -⟩, -⟩, hcool⟩ := hfire
  have hgun := (h.rested mid hmid).2.1 hpos
  rw [hcool] at hgun
  linarith

theorem PawnInv.shotTest (h : PawnInv log p 0 pawn) (hfire : pawn.canFire = true) :
    combatTest limit log (.shot p) := by
  have hrest : ∀ mid, After starts log (.shot p) mid → 18 / 100 ≤ elapsed mid := fun _ => h.shotRest hfire
  simp only [Pawn.canFire, Bool.and_eq_true, decide_eq_true_eq] at hfire
  obtain ⟨⟨⟨hpos, hammo⟩, -⟩, -⟩ := hfire
  obtain ⟨hloaded, hspent⟩ := h.loaded
  refine ⟨?_, ?_, nofun⟩
  · intro q hq
    obtain rfl : p = q := by simpa [involves] using hq
    exact h.alive hpos
  · intro q hq
    obtain rfl : p = q := by simpa [shotBy] using hq
    exact ⟨by omega, hrest⟩

/-- The gun of a pawn that fires starts to rest. -/
theorem PawnInv.shot (h : PawnInv log p 0 pawn) (hfire : pawn.canFire = true) :
    PawnInv (.shot p :: log) p 0 { pawn with ammo := pawn.ammo - 1, cooldown := 18 / 100 } := by
  have hrest : ∀ mid, After starts log (.shot p) mid → 18 / 100 ≤ elapsed mid := fun _ => h.shotRest hfire
  simp only [Pawn.canFire, Bool.and_eq_true, decide_eq_true_eq] at hfire
  obtain ⟨⟨⟨hpos, hammo⟩, -⟩, -⟩ := hfire
  obtain ⟨hloaded, hspent⟩ := h.loaded
  have hrefills : (CombatEvent.shot p).refills p = false := rfl
  have hdelta : (CombatEvent.shot p).delta = 0 := rfl
  refine ⟨h.healthy, ?_, fun hpos => not_down_cons (h.alive hpos) rfl, ?_, ?_, ?_, h.logged⟩
  · rw [firedIn, countSince_kind hrefills shotBy_self]
    rw [firedIn] at hspent
    constructor
    · change 0 ≤ pawn.ammo - 1
      omega
    · change pawn.ammo - 1 + _ = _
      push_cast
      omega
  · rw [killsIn, countSince_other rfl rfl]
    exact h.kills
  · rw [deathsIn, countSince_other rfl rfl]
    exact h.deaths
  · intro mid hmid
    have hzero : pawn.health ≠ 0 := by omega
    change 0 ≤ elapsed mid ∧ (_ → 18 / 100 + 0 ≤ elapsed mid + 18 / 100) ∧ (pawn.health = 0 → _)
    rcases after_cons hmid with ⟨-, rfl⟩ | ⟨mid', rfl, -, hmid'⟩
    · have hnil : elapsed [] = 0 := rfl
      rw [hnil]
      exact ⟨le_refl _, fun _ => by linarith, fun hz => absurd hz hzero⟩
    · rw [elapsed_cons, hdelta, zero_add]
      have := hrest mid' hmid'
      exact ⟨by linarith, fun _ => by linarith, fun hz => absurd hz hzero⟩

theorem damaged_test (hdown : ¬Down v log) (hbelow : ∀ p, (killsIn p log : ℤ) < limit) :
    combatTest limit log (.damaged a v health) := by
  refine ⟨?_, nofun, fun _ => hbelow⟩
  intro p hp
  obtain rfl : v = p := by simpa [involves] using hp
  exact hdown

theorem PawnInv.hurt (h : PawnInv log v owed pawn) (hpos : 0 < pawn.health) {amount : ℤ} (hamount : 0 ≤ amount) :
    PawnInv (.damaged a v (max 0 (pawn.health - amount)) :: log) v owed
      (if max 0 (pawn.health - amount) = 0 then
        { pawn with health := max 0 (pawn.health - amount), deaths := pawn.deaths + 1, respawn_time := 3 }
      else { pawn with health := max 0 (pawn.health - amount) }) := by
  generalize hleft : max 0 (pawn.health - amount) = left
  have hrange : 0 ≤ left ∧ left ≤ 100 := by
    have := h.healthy
    omega
  have hrefills : (CombatEvent.damaged a v left).refills v = false := rfl
  have hkill : (CombatEvent.damaged a v left).killBy v = false := by simp [killBy]
  have hrest : ∀ mid, After starts (.damaged a v left :: log) (.shot v) mid →
      ∃ mid', After starts log (.shot v) mid' ∧ elapsed mid = elapsed mid' := by
    intro mid hmid
    obtain ⟨mid', hmid', helapsed⟩ := rested_cons rfl hmid
    have hdelta : (CombatEvent.damaged a v left).delta = 0 := rfl
    rw [hdelta, zero_add] at helapsed
    exact ⟨mid', hmid', helapsed⟩
  by_cases hzero : left = 0
  · have hdowns : (CombatEvent.damaged a v left).downs v = true := by simp [downs, hzero]
    rw [if_pos hzero]
    refine ⟨hrange, ?_, ?_, ?_, ?_, ?_, (if_pos rfl).symm⟩
    · rw [firedIn, countSince_other hrefills rfl]
      exact h.loaded
    · intro hleft
      have hleft : 0 < left := hleft
      omega
    · rw [killsIn, countSince_other rfl hkill]
      exact h.kills
    · rw [deathsIn, countSince_kind rfl hdowns]
      have hdeaths := h.deaths
      rw [deathsIn] at hdeaths
      change pawn.deaths + 1 = _
      push_cast
      omega
    · intro mid hmid
      obtain ⟨mid', hmid', helapsed⟩ := hrest mid hmid
      obtain ⟨howed, -, -⟩ := h.rested mid' hmid'
      rw [helapsed]
      refine ⟨howed, ?_, ?_⟩
      · intro hleft
        have hleft : 0 < left := hleft
        omega
      · intro _
        change 3 + owed ≤ elapsed mid' + 3
        linarith
  · have hdowns : (CombatEvent.damaged a v left).downs v = false := by simp [downs, hzero]
    rw [if_neg hzero]
    refine ⟨hrange, ?_, fun _ => not_down_cons (h.alive hpos) hdowns, ?_, ?_, ?_, (if_pos rfl).symm⟩
    · rw [firedIn, countSince_other hrefills rfl]
      exact h.loaded
    · rw [killsIn, countSince_other rfl hkill]
      exact h.kills
    · rw [deathsIn, countSince_other rfl hdowns]
      exact h.deaths
    · intro mid hmid
      obtain ⟨mid', hmid', helapsed⟩ := hrest mid hmid
      obtain ⟨howed, halive, -⟩ := h.rested mid' hmid'
      rw [helapsed]
      exact ⟨howed, fun _ => halive hpos, fun hz => absurd hz hzero⟩

variable (health) in
theorem PawnInv.scored (h : PawnInv log a owed pawn) (hne : v ≠ a) :
    PawnInv (.damaged a v health :: log) a owed
      (if health = 0 then { pawn with kills := pawn.kills + 1 } else pawn) := by
  have hrefills : (CombatEvent.damaged a v health).refills a = false := rfl
  have hdowns : (CombatEvent.damaged a v health).downs a = false := by simp [downs, hne]
  have hrest : ∀ mid, After starts (.damaged a v health :: log) (.shot a) mid →
      ∃ mid', After starts log (.shot a) mid' ∧ elapsed mid = elapsed mid' := by
    intro mid hmid
    obtain ⟨mid', hmid', helapsed⟩ := rested_cons rfl hmid
    have hdelta : (CombatEvent.damaged a v health).delta = 0 := rfl
    rw [hdelta, zero_add] at helapsed
    exact ⟨mid', hmid', helapsed⟩
  have hsame : ∀ kills : ℤ, kills = killsIn a (.damaged a v health :: log) →
      PawnInv (.damaged a v health :: log) a owed { pawn with kills := kills } := by
    intro kills hkills
    refine ⟨h.healthy, ?_, fun hpos => not_down_cons (h.alive hpos) hdowns, hkills, ?_, ?_,
      h.logged.trans (if_neg hne).symm⟩
    · rw [firedIn, countSince_other hrefills rfl]
      exact h.loaded
    · rw [deathsIn, countSince_other rfl hdowns]
      exact h.deaths
    · intro mid hmid
      obtain ⟨mid', hmid', helapsed⟩ := hrest mid hmid
      rw [helapsed]
      exact h.rested mid' hmid'
  have hkills := h.kills
  by_cases hzero : health = 0
  · have hkill : (CombatEvent.damaged a v health).killBy a = true := by simp [killBy, hne, hzero]
    rw [if_pos hzero]
    refine hsame _ ?_
    rw [killsIn] at hkills
    rw [killsIn, countSince_kind rfl hkill]
    push_cast
    omega
  · have hkill : (CombatEvent.damaged a v health).killBy a = false := by simp [killBy, hzero]
    rw [if_neg hzero]
    refine hsame pawn.kills ?_
    rw [killsIn, countSince_other rfl hkill]
    exact hkills

/-- Only the one who hits can have scored. -/
theorem killsIn_damaged {q : ℤ} (hq : q ≠ a ∨ q = v) : killsIn q (.damaged a v health :: log) = killsIn q log := by
  have hkill : (CombatEvent.damaged a v health).killBy q = false := by
    rcases hq with hq | rfl
    · simp [killBy, Ne.symm hq]
    · simp [killBy]
  rw [killsIn, countSince_other rfl hkill]
  rfl

end

/-! What the tests say of a whole log. -/

/-- The rules of the combat, over a whole log, newest first. -/
structure CombatRules (limit : ℤ) (log : List CombatEvent) : Prop where
  apart : ∀ p post mid pre, log = post ++ .shot p :: (mid ++ .shot p :: pre) → .started ∉ mid → 18 / 100 ≤ elapsed mid
  magazine : ∀ p post mid pre, log = post ++ mid ++ pre → (∀ e ∈ mid, e.refills p = false) →
    mid.countP (CombatEvent.shotBy p) ≤ 12
  dead : ∀ p a e post mid pre, log = post ++ e :: (mid ++ .damaged a p 0 :: pre) → e.involves p = true →
    .respawned p ∈ mid
  «over» : ∀ p post mid pre, log = post ++ mid ++ pre → .started ∉ mid → limit ≤ killsIn p pre →
    ∀ e ∈ mid, e.hits = false

section

variable {log mid pre post : List CombatEvent} {p : ℤ} {limit : ℤ}

theorem starts_false (h : .started ∉ mid) : ∀ e ∈ mid, starts e = false := by
  intro e he
  cases e <;> first | rfl | exact absurd he h

theorem killsIn_append_le (h : .started ∉ mid) : killsIn p pre ≤ killsIn p (mid ++ pre) := by
  rw [killsIn, killsIn, countSince_append (starts_false h)]
  exact Nat.le_add_left _ _

theorem combat_rules (h : Passed (combatTest limit) log) : CombatRules limit log := by
  constructor
  · rintro p post mid pre rfl hmid
    exact (h.at.2.1 p shotBy_self).2 mid ⟨⟨pre, rfl⟩, starts_false hmid⟩
  · rintro p post mid pre rfl hmid
    rw [List.append_assoc] at h
    have hbound : Passed (fun log e => e.shotBy p = true → firedIn p log < 12) (mid ++ pre) :=
      h.suffix.mono fun log e ht hshot => (ht.2.1 p hshot).1
    have hle := countSince_le hbound
    rw [countSince_append hmid] at hle
    omega
  · rintro p a e post mid pre rfl he
    by_contra hback
    refine h.at.1 p he ⟨a, mid, ⟨pre, rfl⟩, ?_⟩
    intro d hd
    cases hr : revives p d with
    | false => rfl
    | true =>
      cases d with
      | respawned q =>
        obtain rfl : q = p := by simpa [revives] using hr
        exact absurd hd hback
      | _ => cases hr
  · rintro p post mid pre rfl hmid hlimit e he
    obtain ⟨after, before, rfl⟩ := List.append_of_mem he
    rw [List.append_assoc, List.append_assoc, List.cons_append] at h
    cases hhit : e.hits with
    | false => rfl
    | true =>
      have hlt := h.suffix.at.2.2 hhit p
      have hle : killsIn p pre ≤ killsIn p (before ++ pre) :=
        killsIn_append_le fun hin => hmid (List.mem_append_right _ (List.mem_cons_of_mem _ hin))
      omega

end

end ArenaLab
