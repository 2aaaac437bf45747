import ArenaLab.Runs
import Mathlib.Algebra.Order.Field.Basic
import Mathlib.Algebra.BigOperators.Group.List.Basic
import Mathlib.Tactic.Linarith

/-! Buckets of tokens that fill up with time. Over any stretch of a run the
tokens spent are at most a full bucket and what has flowed in meanwhile. -/

namespace TokenBucket

variable {K : Type*} [Field K] [LinearOrder K]

structure Limits (K : Type*) where
  cap : K
  rate : K

/-- The tokens of a bucket at the time of its last change. -/
structure Bucket (K : Type*) where
  since : K
  level : K

def refilled (l : Limits K) (b : Bucket K) (now : K) : K :=
  min l.cap (b.level + max 0 (now - b.since) * l.rate)

/-- Tokens are spent: at a time, none or so many of those that are there. -/
structure Spends (l : Limits K) (b : Bucket K) (e : K × K) (b' : Bucket K) : Prop where
  later : b.since ≤ e.1
  cost : 0 ≤ e.2
  covered : e.2 = 0 ∨ e.2 ≤ refilled l b e.1
  since : b'.since = e.1
  level : b'.level = refilled l b e.1 - e.2

structure Within (l : Limits K) (b : Bucket K) : Prop where
  low : 0 ≤ b.level
  high : b.level ≤ l.cap

section

variable {l : Limits K} {b b' : Bucket K} {e last : K × K} {τ : List (K × K)}

theorem refilled_le_cap (l : Limits K) (b : Bucket K) (now : K) : refilled l b now ≤ l.cap := min_le_left _ _

theorem steps_since (hr : Runs.Steps (Spends l) b τ b') (hlast : τ.getLast? = some last) :
    b'.since = last.1 := by
  cases hr with
  | nil => cases hlast
  | snoc _ hs =>
    rw [List.getLast?_concat] at hlast
    rw [hs.since, Option.some.inj hlast]

variable [IsStrictOrderedRing K]

theorem le_refilled (hrate : 0 ≤ l.rate) (h : b.level ≤ l.cap) (now : K) : b.level ≤ refilled l b now := by
  have hflow : 0 ≤ max 0 (now - b.since) * l.rate := mul_nonneg (le_max_left _ _) hrate
  exact le_min h (le_add_of_nonneg_right hflow)

theorem refilled_le (l : Limits K) {now : K} (h : b.since ≤ now) :
    refilled l b now ≤ b.level + (now - b.since) * l.rate := by
  have hmax : max 0 (now - b.since) = now - b.since := max_eq_right (sub_nonneg.mpr h)
  rw [refilled, hmax]
  exact min_le_right _ _

theorem Within.spends (hrate : 0 ≤ l.rate) (h : Within l b) (hs : Spends l b e b') : Within l b' := by
  have hcap := refilled_le_cap l b e.1
  have hkept := le_refilled hrate h.high e.1
  have hlow := h.low
  have hcost := hs.cost
  refine ⟨?_, ?_⟩
  · rw [hs.level]
    rcases hs.covered with hnone | hcovered
    · linarith
    · linarith
  · rw [hs.level]
    linarith

theorem Within.steps (hrate : 0 ≤ l.rate) (h : Within l b) (hr : Runs.Steps (Spends l) b τ b') : Within l b' :=
  hr.invariant h (fun _ _ _ hi hs => hi.spends hrate hs)

theorem Spends.balance (hs : Spends l b e b') :
    b'.level + e.2 ≤ b.level + (b'.since - b.since) * l.rate := by
  have hle := refilled_le l hs.later
  rw [hs.level, hs.since]
  linarith

/-- What is left and what was spent came from the start and from the inflow since. -/
theorem steps_balance (hr : Runs.Steps (Spends l) b τ b') :
    b'.level + (τ.map Prod.snd).sum ≤ b.level + (b'.since - b.since) * l.rate := by
  induction hr with
  | nil => simp
  | snoc _ hs ih =>
    have hlast := hs.balance
    simp only [List.map_append, List.map_cons, List.map_nil, List.sum_append, List.sum_cons, List.sum_nil]
    linarith

/-- From the first of some spendings to the last of them, no more than a full
bucket and the inflow between the two is spent. -/
theorem window (hrate : 0 ≤ l.rate) (h : Within l b) (hr : Runs.Steps (Spends l) b (e :: τ) b')
    (hlast : (e :: τ).getLast? = some last) :
    ((e :: τ).map Prod.snd).sum ≤ l.cap + (last.1 - e.1) * l.rate := by
  obtain ⟨m, m', _, hs, hr'⟩ := Runs.Steps.of_split (show Runs.Steps (Spends l) b ([] ++ e :: τ) b' from hr)
  have hend := steps_since hr hlast
  have hrest := steps_balance hr'
  have hlow := (h.steps hrate hr).low
  have hcap := refilled_le_cap l m e.1
  rw [hs.level, hs.since, hend] at hrest
  simp only [List.map_cons, List.sum_cons]
  linarith

end

end TokenBucket
