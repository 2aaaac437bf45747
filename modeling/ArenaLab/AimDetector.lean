import Mathlib.Algebra.Order.Field.Basic
import Mathlib.Analysis.SpecialFunctions.Trigonometric.Basic
import Mathlib.Data.List.Forall2
import Mathlib.Data.List.Induction
import Mathlib.Tactic.Linarith
import Mathlib.Tactic.NormNum

/-! The aim heuristic with exact arithmetic: its score, what the score can come
from, and that a better aim never scores less. -/

namespace ArenaLab

/-- The engine's functions on angles and vectors that the detector calls. -/
structure AimEngine (K : Type*) where
  angle_difference : K → K → K
  length : K → K → K
  deg_to_rad : K → K

structure AimObservation (K : Type*) where
  yaw : K
  pitch : K
  error : K
  visible_target : ℤ
  delta : K

structure AimDetector (K : Type*) where
  previous : Option (K × K)
  score : K
  snaps : ℕ
  samples : ℕ
  tracking_seconds : K

inductive AimState
  | normal
  | observing
  | suspicious
  | highSuspicion
  deriving DecidableEq

structure AimEvidence (K : Type*) where
  score : K
  state : AimState
  snap_radians : K
  snaps : ℕ
  samples : ℕ
  tracking_seconds : K

section

variable {α : Type*} [LinearOrder α]

def clampf (value low high : α) : α := if value < low then low else if high < value then high else value

theorem clampf_mono {value value' low high : α} (hrange : low ≤ high) (h : value ≤ value') :
    clampf value low high ≤ clampf value' low high := by
  rw [clampf, clampf]
  split
  · split
    · exact le_refl low
    · split
      · exact hrange
      · rename_i hlow _
        exact not_lt.mp hlow
  · rename_i hlow
    rw [if_neg (not_lt.mpr ((not_lt.mp hlow).trans h))]
    split
    · rename_i hhigh
      rw [if_pos (lt_of_lt_of_le hhigh h)]
    · rename_i hhigh
      split
      · exact not_lt.mp hhigh
      · exact h

end

section

variable {K : Type*} [Field K] [LinearOrder K]

def newAimDetector : AimDetector K := ⟨none, 0, 0, 0, 0⟩

/-- How far the view has turned, if there is a sample to compare with. -/
def AimDetector.snap (g : AimEngine K) (d : AimDetector K) (o : AimObservation K) : Option K :=
  match d.previous with
  | none => none
  | some (yaw, pitch) =>
    if 0 < o.delta then some (g.length (g.angle_difference yaw o.yaw) (o.pitch - pitch)) else none

def AimDetector.judgeSnap (g : AimEngine K) (d : AimDetector K) (snap : K) (o : AimObservation K) :
    AimDetector K :=
  if g.deg_to_rad 18 < snap ∧ o.error < g.deg_to_rad 1 ∧ o.visible_target ≠ 0 then
    { d with score := d.score + 18, snaps := d.snaps + 1 }
  else d

/-- The sample counts as tracking. -/
def AimEngine.tracks (g : AimEngine K) (snap : K) (o : AimObservation K) : Prop :=
  o.error < g.deg_to_rad (12 / 100) ∧ o.visible_target ≠ 0 ∧ 5 / 100000 < snap

instance decidableTracks (g : AimEngine K) (snap : K) (o : AimObservation K) : Decidable (g.tracks snap o) :=
  inferInstanceAs (Decidable (_ ∧ _ ∧ _))

def AimDetector.tracked (d : AimDetector K) (delta : K) : AimDetector K :=
  let seconds := d.tracking_seconds + delta
  { d with tracking_seconds := seconds, score := if 1 < seconds then d.score + delta * 8 else d.score }

def AimDetector.slackened (d : AimDetector K) (delta : K) : AimDetector K :=
  { d with tracking_seconds := max 0 (d.tracking_seconds - delta * 2) }

def AimDetector.judgeTracking (g : AimEngine K) (d : AimDetector K) (snap : K) (o : AimObservation K) :
    AimDetector K :=
  if g.tracks snap o then d.tracked o.delta else d.slackened o.delta

/-- The end of `observe`: the decay, and the sample for the next one to compare with. -/
def AimDetector.settled (d : AimDetector K) (o : AimObservation K) : AimDetector K :=
  { d with score := clampf (d.score - o.delta * (7 / 10)) 0 100, previous := some (o.yaw, o.pitch) }

def AimDetector.judged (g : AimEngine K) (d : AimDetector K) (o : AimObservation K) : AimDetector K :=
  let d := { d with samples := d.samples + 1 }
  match d.snap g o with
  | none => d
  | some snap => (d.judgeSnap g snap o).judgeTracking g snap o

def aimState (score : K) : AimState :=
  if 75 ≤ score then .highSuspicion
  else if 45 ≤ score then .suspicious
  else if 20 ≤ score then .observing
  else .normal

def AimDetector.observe (g : AimEngine K) (d : AimDetector K) (o : AimObservation K) :
    AimDetector K × AimEvidence K :=
  let next := (d.judged g o).settled o
  (next, ⟨next.score, aimState next.score, (d.snap g o).getD 0, next.snaps, next.samples,
    next.tracking_seconds⟩)

def AimDetector.watch (g : AimEngine K) (d : AimDetector K) (trace : List (AimObservation K)) :
    AimDetector K :=
  trace.foldl (fun d o => (d.observe g o).1) d

/-- The sample adds to the score for tracking. -/
def AimDetector.counts (g : AimEngine K) (d : AimDetector K) (o : AimObservation K) : Bool :=
  match d.snap g o with
  | none => false
  | some snap => g.tracks snap o && 1 < d.tracking_seconds + o.delta

/-- The time of all the samples that do. -/
def AimDetector.counted (g : AimEngine K) (d : AimDetector K) : List (AimObservation K) → K
  | [] => 0
  | o :: trace => (if d.counts g o then o.delta else 0) + (d.observe g o).1.counted g trace

/-- At some sample the tracking has gone on for more than a second. -/
def SustainedTracking (g : AimEngine K) (d : AimDetector K) (trace : List (AimObservation K)) : Prop :=
  ∃ before, before <+: trace ∧ 1 < (d.watch g before).tracking_seconds

/-- The same movement at the same time, aimed at least as well. -/
structure AimedBetter (o o' : AimObservation K) : Prop where
  yaw : o.yaw = o'.yaw
  pitch : o.pitch = o'.pitch
  delta : o.delta = o'.delta
  positive : 0 < o.delta
  error : o.error ≤ o'.error
  target : o'.visible_target ≠ 0 → o.visible_target ≠ 0

structure AimDetector.AtLeast (d d' : AimDetector K) : Prop where
  previous : d.previous = d'.previous
  score : d'.score ≤ d.score
  snaps : d'.snaps ≤ d.snaps
  tracking : d'.tracking_seconds ≤ d.tracking_seconds
  low : 0 ≤ d'.tracking_seconds

section

variable {g : AimEngine K} {d d' : AimDetector K} {o o' : AimObservation K} {snap : K}
  {trace trace' : List (AimObservation K)}

theorem AimEngine.tracks_better (h : AimedBetter o o') (ht : g.tracks snap o') : g.tracks snap o :=
  ⟨lt_of_le_of_lt h.error ht.1, h.target ht.2.1, ht.2.2⟩

theorem AimDetector.snap_congr (hprev : d.previous = d'.previous) (hyaw : o.yaw = o'.yaw)
    (hpitch : o.pitch = o'.pitch) (hdelta : o.delta = o'.delta) : d.snap g o = d'.snap g o' := by
  simp only [AimDetector.snap, hprev, hyaw, hpitch, hdelta]

theorem AimDetector.judged_none (h : d.snap g o = none) :
    d.judged g o = { d with samples := d.samples + 1 } ∧ d.counts g o = false := by
  have hsnap : AimDetector.snap g { d with samples := d.samples + 1 } o = none := h
  simp only [AimDetector.judged, AimDetector.counts, hsnap, h, and_self]

theorem AimDetector.judged_some (h : d.snap g o = some snap) :
    d.judged g o =
      (AimDetector.judgeSnap g { d with samples := d.samples + 1 } snap o).judgeTracking g snap o ∧
    (d.counts g o = true ↔ g.tracks snap o ∧ 1 < d.tracking_seconds + o.delta) := by
  have hsnap : AimDetector.snap g { d with samples := d.samples + 1 } o = some snap := h
  simp only [AimDetector.judged, AimDetector.counts, hsnap, h, Bool.and_eq_true, decide_eq_true_eq, and_self]

theorem AimDetector.judgeSnap_tracking (g : AimEngine K) (d : AimDetector K) (snap : K)
    (o : AimObservation K) : (d.judgeSnap g snap o).tracking_seconds = d.tracking_seconds := by
  rw [AimDetector.judgeSnap]
  split <;> rfl

theorem clampf_low (value : K) {high : K} (h : 0 ≤ high) : 0 ≤ clampf value 0 high := by
  rw [clampf]
  split
  · exact le_refl 0
  · split
    · exact h
    · rename_i hlow _
      exact not_lt.mp hlow

theorem clampf_high (value : K) {high : K} (h : 0 ≤ high) : clampf value 0 high ≤ high := by
  rw [clampf]
  split
  · exact h
  · split
    · exact le_refl high
    · rename_i hhigh
      exact not_lt.mp hhigh

theorem clampf_le {value bound high : K} (h : value ≤ bound) (hbound : 0 ≤ bound) :
    clampf value 0 high ≤ bound := by
  rw [clampf]
  split
  · exact hbound
  · split
    · rename_i hhigh
      exact (le_of_lt hhigh).trans h
    · exact h

theorem AimDetector.counts_tracking (h : d.counts g o = true) : 1 < (d.observe g o).1.tracking_seconds := by
  show 1 < (d.judged g o).tracking_seconds
  cases hs : d.snap g o with
  | none =>
    rw [(AimDetector.judged_none hs).2] at h
    cases h
  | some snap =>
    obtain ⟨hjudged, hcounts⟩ := AimDetector.judged_some hs
    obtain ⟨ht, hlong⟩ := hcounts.mp h
    rw [hjudged, AimDetector.judgeTracking, if_pos ht]
    simp only [AimDetector.tracked, AimDetector.judgeSnap_tracking]
    exact hlong

/-- Time is counted only once the tracking is sustained. -/
theorem AimDetector.counted_sustained (h : d.counted g trace ≠ 0) : SustainedTracking g d trace := by
  induction trace generalizing d with
  | nil => exact absurd rfl h
  | cons o trace ih =>
    by_cases hcounts : d.counts g o = true
    · exact ⟨[o], ⟨trace, rfl⟩, AimDetector.counts_tracking hcounts⟩
    · have hrest : (d.observe g o).1.counted g trace ≠ 0 := by
        simpa [AimDetector.counted, hcounts] using h
      obtain ⟨before, ⟨after, hsplit⟩, hlong⟩ := ih hrest
      exact ⟨o :: before, ⟨after, by rw [List.cons_append, hsplit]⟩, hlong⟩

theorem AimDetector.hidden_observe (h : o.visible_target = 0) :
    (d.observe g o).1.snaps = d.snaps ∧ d.counts g o = false := by
  show (d.judged g o).snaps = d.snaps ∧ d.counts g o = false
  cases hs : d.snap g o with
  | none =>
    obtain ⟨hjudged, hcounts⟩ := AimDetector.judged_none hs
    rw [hjudged]
    exact ⟨rfl, hcounts⟩
  | some snap =>
    obtain ⟨hjudged, hcounts⟩ := AimDetector.judged_some hs
    have hlost : ¬g.tracks snap o := fun ht => ht.2.1 h
    refine ⟨?_, ?_⟩
    · rw [hjudged, AimDetector.judgeTracking, if_neg hlost, AimDetector.judgeSnap,
        if_neg (fun hf => hf.2.2 h)]
      rfl
    · rw [Bool.eq_false_iff]
      intro hc
      exact hlost (hcounts.mp hc).1

theorem AimDetector.hidden_watch (h : ∀ o ∈ trace, o.visible_target = 0) :
    (d.watch g trace).snaps = d.snaps ∧ d.counted g trace = 0 := by
  induction trace generalizing d with
  | nil => exact ⟨rfl, rfl⟩
  | cons o trace ih =>
    obtain ⟨hsnaps, hcounts⟩ := AimDetector.hidden_observe (g := g) (d := d) (h o (by simp))
    obtain ⟨hrest, hcounted⟩ := ih (d := (d.observe g o).1) (fun o ho => h o (List.mem_cons_of_mem _ ho))
    refine ⟨hrest.trans hsnaps, ?_⟩
    simp [AimDetector.counted, hcounts, hcounted]

theorem aimState_high {score : K} : aimState score = .highSuspicion ↔ 75 ≤ score := by
  rw [aimState]
  split
  · rename_i hhigh
    exact ⟨fun _ => hhigh, fun _ => rfl⟩
  · rename_i hlow
    refine ⟨?_, fun hhigh => absurd hhigh hlow⟩
    intro hstate
    split at hstate
    · cases hstate
    · split at hstate <;> cases hstate

theorem newAimDetector_atLeast : (newAimDetector : AimDetector K).AtLeast newAimDetector :=
  ⟨rfl, le_refl _, le_refl _, le_refl _, le_refl _⟩

variable [IsStrictOrderedRing K]

theorem AimDetector.AtLeast.judgeSnap (h : d.AtLeast d') (ho : AimedBetter o o') :
    (d.judgeSnap g snap o).AtLeast (d'.judgeSnap g snap o') := by
  have hscore := h.score
  have hsnaps := h.snaps
  rw [AimDetector.judgeSnap, AimDetector.judgeSnap]
  by_cases hhit' : g.deg_to_rad 18 < snap ∧ o'.error < g.deg_to_rad 1 ∧ o'.visible_target ≠ 0
  · have hhit : g.deg_to_rad 18 < snap ∧ o.error < g.deg_to_rad 1 ∧ o.visible_target ≠ 0 :=
      ⟨hhit'.1, lt_of_le_of_lt ho.error hhit'.2.1, ho.target hhit'.2.2⟩
    rw [if_pos hhit, if_pos hhit']
    exact ⟨h.previous, by simpa using hscore, by simpa using hsnaps, h.tracking, h.low⟩
  · rw [if_neg hhit']
    by_cases hhit : g.deg_to_rad 18 < snap ∧ o.error < g.deg_to_rad 1 ∧ o.visible_target ≠ 0
    · rw [if_pos hhit]
      refine ⟨h.previous, ?_, ?_, h.tracking, h.low⟩
      · show d'.score ≤ d.score + 18
        linarith
      · show d'.snaps ≤ d.snaps + 1
        omega
    · rw [if_neg hhit]
      exact h

theorem AimDetector.AtLeast.tracked (h : d.AtLeast d') {delta : K} (hdelta : 0 < delta) :
    (d.tracked delta).AtLeast (d'.tracked delta) := by
  have hscore := h.score
  have htracking := h.tracking
  have hlow := h.low
  refine ⟨h.previous, ?_, h.snaps, ?_, ?_⟩
  · simp only [AimDetector.tracked]
    by_cases hlong' : 1 < d'.tracking_seconds + delta
    · have hlong : 1 < d.tracking_seconds + delta := by linarith
      rw [if_pos hlong, if_pos hlong']
      linarith
    · rw [if_neg hlong']
      split
      · linarith
      · exact hscore
  · show d'.tracking_seconds + delta ≤ d.tracking_seconds + delta
    linarith
  · show 0 ≤ d'.tracking_seconds + delta
    linarith

theorem AimDetector.AtLeast.slackened (h : d.AtLeast d') (delta : K) :
    (d.slackened delta).AtLeast (d'.slackened delta) :=
  ⟨h.previous, h.score, h.snaps, max_le_max_left 0 (sub_le_sub_right h.tracking _), le_max_left _ _⟩

theorem AimDetector.AtLeast.overtaken (h : d.AtLeast d') {delta : K} (hdelta : 0 < delta) :
    (d.tracked delta).AtLeast (d'.slackened delta) := by
  have hscore := h.score
  have htracking := h.tracking
  have hlow := h.low
  refine ⟨h.previous, ?_, h.snaps, ?_, le_max_left _ _⟩
  · simp only [AimDetector.tracked, AimDetector.slackened]
    split
    · linarith
    · exact hscore
  · show max 0 (d'.tracking_seconds - delta * 2) ≤ d.tracking_seconds + delta
    refine max_le ?_ ?_
    · linarith
    · linarith

theorem AimDetector.AtLeast.judgeTracking (h : d.AtLeast d') (ho : AimedBetter o o') :
    (d.judgeTracking g snap o).AtLeast (d'.judgeTracking g snap o') := by
  rw [AimDetector.judgeTracking, AimDetector.judgeTracking, ← ho.delta]
  by_cases ht' : g.tracks snap o'
  · rw [if_pos (g.tracks_better ho ht'), if_pos ht']
    exact h.tracked ho.positive
  · rw [if_neg ht']
    by_cases ht : g.tracks snap o
    · rw [if_pos ht]
      exact h.overtaken ho.positive
    · rw [if_neg ht]
      exact h.slackened o.delta

theorem AimDetector.AtLeast.observe (h : d.AtLeast d') (ho : AimedBetter o o') :
    (d.observe g o).1.AtLeast (d'.observe g o').1 := by
  have hcounted : AimDetector.AtLeast { d with samples := d.samples + 1 }
      { d' with samples := d'.samples + 1 } :=
    ⟨h.previous, h.score, h.snaps, h.tracking, h.low⟩
  have hsnap : AimDetector.snap g { d with samples := d.samples + 1 } o =
      AimDetector.snap g { d' with samples := d'.samples + 1 } o' :=
    AimDetector.snap_congr h.previous ho.yaw ho.pitch ho.delta
  have hjudged : (d.judged g o).AtLeast (d'.judged g o') := by
    simp only [AimDetector.judged, hsnap]
    split
    · exact hcounted
    · exact (hcounted.judgeSnap ho).judgeTracking ho
  refine ⟨?_, ?_, hjudged.snaps, hjudged.tracking, hjudged.low⟩
  · show some (o.yaw, o.pitch) = some (o'.yaw, o'.pitch)
    rw [ho.yaw, ho.pitch]
  · show clampf ((d'.judged g o').score - o'.delta * (7 / 10)) 0 100 ≤
      clampf ((d.judged g o).score - o.delta * (7 / 10)) 0 100
    rw [← ho.delta]
    exact clampf_mono (by norm_num) (sub_le_sub_right hjudged.score _)

theorem AimDetector.AtLeast.watch (h : d.AtLeast d') (ht : List.Forall₂ AimedBetter trace trace') :
    (d.watch g trace).AtLeast (d'.watch g trace') := by
  induction ht generalizing d d' with
  | nil => exact h
  | cons ho _ ih => exact ih (h.observe ho)

theorem AimDetector.score_range (hlow : 0 ≤ d.score) (hhigh : d.score ≤ 100) (g : AimEngine K)
    (trace : List (AimObservation K)) : 0 ≤ (d.watch g trace).score ∧ (d.watch g trace).score ≤ 100 := by
  induction trace generalizing d with
  | nil => exact ⟨hlow, hhigh⟩
  | cons o trace ih =>
    have h100 : (0 : K) ≤ 100 := by norm_num
    exact ih (clampf_low _ h100) (clampf_high _ h100)

/-- The score is covered by what the snaps and the counted time can have added. -/
structure AimDetector.Earned (d : AimDetector K) (counted : K) : Prop where
  low : 0 ≤ d.score
  covered : d.score ≤ 18 * d.snaps + 8 * counted

theorem AimDetector.Earned.judgeSnap {counted : K} (h : d.Earned counted) (snap : K) (o : AimObservation K) :
    (d.judgeSnap g snap o).Earned counted := by
  have hlow := h.low
  have hcovered := h.covered
  rw [AimDetector.judgeSnap]
  split
  · refine ⟨?_, ?_⟩
    · show 0 ≤ d.score + 18
      linarith
    · show d.score + 18 ≤ 18 * ((d.snaps + 1 : ℕ) : K) + 8 * counted
      push_cast
      linarith
  · exact h

theorem AimDetector.Earned.judgeTracking {counted : K} (h : d.Earned counted) (snap : K)
    (hdelta : 0 ≤ o.delta) :
    (d.judgeTracking g snap o).Earned
      (counted + if g.tracks snap o ∧ 1 < d.tracking_seconds + o.delta then o.delta else 0) := by
  have hlow := h.low
  have hcovered := h.covered
  rw [AimDetector.judgeTracking]
  by_cases ht : g.tracks snap o
  · rw [if_pos ht]
    simp only [AimDetector.tracked, ht, true_and]
    split
    · refine ⟨?_, ?_⟩
      · show 0 ≤ d.score + o.delta * 8
        linarith
      · show d.score + o.delta * 8 ≤ 18 * (d.snaps : K) + 8 * (counted + o.delta)
        linarith
    · refine ⟨hlow, ?_⟩
      show d.score ≤ 18 * (d.snaps : K) + 8 * (counted + 0)
      linarith
  · rw [if_neg ht, if_neg (fun hf => ht hf.1), add_zero]
    exact ⟨hlow, hcovered⟩

theorem AimDetector.Earned.judged {counted : K} (h : d.Earned counted) (hdelta : 0 ≤ o.delta) :
    (d.judged g o).Earned (counted + if d.counts g o then o.delta else 0) := by
  have hsample : AimDetector.Earned { d with samples := d.samples + 1 } counted := ⟨h.low, h.covered⟩
  cases hs : d.snap g o with
  | none =>
    obtain ⟨hjudged, hcounts⟩ := AimDetector.judged_none hs
    rw [hjudged, if_neg (by simp [hcounts]), add_zero]
    exact hsample
  | some snap =>
    obtain ⟨hjudged, hcounts⟩ := AimDetector.judged_some hs
    have hdone := (hsample.judgeSnap (g := g) snap o).judgeTracking (g := g) snap hdelta
    rw [AimDetector.judgeSnap_tracking] at hdone
    rw [hjudged]
    simp only [hcounts]
    exact hdone

theorem AimDetector.Earned.observe {counted : K} (h : d.Earned counted) (hdelta : 0 ≤ o.delta) :
    (d.observe g o).1.Earned (counted + if d.counts g o then o.delta else 0) := by
  have hjudged := h.judged (g := g) hdelta
  have hle : (d.observe g o).1.score ≤ (d.judged g o).score := clampf_le (by linarith) hjudged.low
  exact ⟨clampf_low _ (by norm_num), hle.trans hjudged.covered⟩

theorem AimDetector.Earned.watch {counted : K} (h : d.Earned counted) (hdelta : ∀ o ∈ trace, 0 ≤ o.delta) :
    (d.watch g trace).Earned (counted + d.counted g trace) := by
  induction trace generalizing d counted with
  | nil =>
    rw [AimDetector.counted, add_zero]
    exact h
  | cons o trace ih =>
    have hrest := ih (h.observe (g := g) (hdelta o (by simp)))
      (fun o ho => hdelta o (List.mem_cons_of_mem _ ho))
    rw [add_assoc] at hrest
    exact hrest

theorem newAimDetector_earned : (newAimDetector : AimDetector K).Earned 0 := by
  refine ⟨le_refl _, ?_⟩
  show (0 : K) ≤ 18 * ((0 : ℕ) : K) + 8 * 0
  simp

theorem earned_of_watch (g : AimEngine K) (hdelta : ∀ o ∈ trace, 0 ≤ o.delta) :
    (newAimDetector.watch g trace).Earned (newAimDetector.counted g trace) := by
  have hearned := newAimDetector_earned.watch (g := g) hdelta
  rw [zero_add] at hearned
  exact hearned

theorem high_suspicion (g : AimEngine K) (hdelta : ∀ o ∈ trace, 0 ≤ o.delta)
    (h : 75 ≤ (newAimDetector.watch g trace).score) :
    5 ≤ (newAimDetector.watch g trace).snaps ∨ SustainedTracking g newAimDetector trace := by
  by_cases hsnaps : 5 ≤ (newAimDetector.watch g trace).snaps
  · exact .inl hsnaps
  · refine .inr (AimDetector.counted_sustained ?_)
    intro hnone
    have hcovered := (earned_of_watch g hdelta).covered
    have hfew : (newAimDetector.watch g trace).snaps ≤ 4 := by omega
    have hcast : ((newAimDetector.watch g trace).snaps : K) ≤ 4 := by exact_mod_cast hfew
    rw [hnone] at hcovered
    linarith

/-- Aiming better at every sample never leaves a detector with less; and the score
of any trace is in range and, where time does not run backwards, covered by its snaps and
its time of sustained tracking. -/
theorem aim_detector (g : AimEngine K) :
    (∀ better worse, List.Forall₂ AimedBetter better worse → ∀ n,
      (newAimDetector.watch g (worse.take n)).score ≤ (newAimDetector.watch g (better.take n)).score ∧
      (newAimDetector.watch g (worse.take n)).tracking_seconds ≤
        (newAimDetector.watch g (better.take n)).tracking_seconds ∧
      (newAimDetector.watch g (worse.take n)).snaps ≤ (newAimDetector.watch g (better.take n)).snaps) ∧
    ∀ trace,
      (0 ≤ (newAimDetector.watch g trace).score ∧ (newAimDetector.watch g trace).score ≤ 100) ∧
      ((∀ o ∈ trace, 0 ≤ o.delta) →
        (newAimDetector.watch g trace).score ≤
          18 * (newAimDetector.watch g trace).snaps + 8 * newAimDetector.counted g trace ∧
        ((∀ o ∈ trace, o.visible_target = 0) → (newAimDetector.watch g trace).score = 0) ∧
        ∀ before o, trace = before ++ [o] →
          ((newAimDetector.watch g before).observe g o).2.state = .highSuspicion →
          5 ≤ ((newAimDetector.watch g before).observe g o).2.snaps ∨
            SustainedTracking g newAimDetector trace) := by
  refine ⟨?_, ?_⟩
  · intro better worse h n
    have hleast := newAimDetector_atLeast.watch (g := g) (List.forall₂_take n h)
    exact ⟨hleast.score, hleast.tracking, hleast.snaps⟩
  · intro trace
    have h100 : (0 : K) ≤ 100 := by norm_num
    refine ⟨newAimDetector.score_range (le_refl 0) h100 g trace, fun hdelta => ?_⟩
    have hearned := earned_of_watch g hdelta
    refine ⟨hearned.covered, ?_, ?_⟩
    · intro hhidden
      obtain ⟨hsnaps, hcounted⟩ := AimDetector.hidden_watch (g := g) (d := newAimDetector) hhidden
      have hcovered := hearned.covered
      rw [hsnaps, hcounted] at hcovered
      refine le_antisymm ?_ hearned.low
      simpa [newAimDetector] using hcovered
    · rintro before o rfl hstate
      have hwatch : newAimDetector.watch g (before ++ [o]) =
          ((newAimDetector.watch g before).observe g o).1 :=
        List.foldl_append
      have hhigh : 75 ≤ (newAimDetector.watch g (before ++ [o])).score := by
        rw [hwatch]
        exact aimState_high.mp hstate
      have hcases := high_suspicion g hdelta hhigh
      rw [hwatch] at hcases
      exact hcases

end

end

noncomputable def fmod (x y : ℝ) : ℝ := x - y * (if 0 ≤ x / y then ⌊x / y⌋ else ⌈x / y⌉)

/-- The engine's own functions, over the reals. -/
noncomputable def realEngine : AimEngine ℝ where
  angle_difference a b :=
    let difference := fmod (b - a) (2 * Real.pi)
    fmod (2 * difference) (2 * Real.pi) - difference
  length x y := Real.sqrt (x * x + y * y)
  deg_to_rad x := x * Real.pi / 180

noncomputable def sampleAimed (target : ℤ) : List (AimObservation ℝ) :=
  [⟨0, 0, 1, target, 1 / 20⟩, ⟨3 / 5, 0, 0, target, 1 / 20⟩]

theorem sampleAimed_better : List.Forall₂ AimedBetter (sampleAimed 2) (sampleAimed 0) := by
  have hboth : ∀ yaw error : ℝ, AimedBetter ⟨yaw, 0, error, 2, 1 / 20⟩ ⟨yaw, 0, error, 0, 1 / 20⟩ := by
    intro yaw error
    exact ⟨rfl, rfl, rfl, by norm_num, le_refl _, fun _ => (by decide : (2 : ℤ) ≠ 0)⟩
  exact .cons (hboth 0 1) (.cons (hboth (3 / 5) 0) .nil)

theorem aim_detector_sample :
    (newAimDetector.watch realEngine (sampleAimed 0)).score = 0 ∧
    (newAimDetector.watch realEngine (sampleAimed 0)).snaps ≤
      (newAimDetector.watch realEngine (sampleAimed 2)).snaps := by
  have hdelta : ∀ o ∈ sampleAimed 0, 0 ≤ o.delta := by
    simp [sampleAimed]
  have hhidden : ∀ o ∈ sampleAimed 0, o.visible_target = 0 := by
    simp [sampleAimed]
  exact ⟨(((aim_detector realEngine).2 _).2 hdelta).2.1 hhidden,
    ((aim_detector realEngine).1 _ _ sampleAimed_better 2).2.2⟩

end ArenaLab
