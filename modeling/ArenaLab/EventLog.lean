import Mathlib.Data.List.Basic
import Mathlib.Tactic.Common

/-! Logs of events, newest first: tests of each event against the log before it,
and what came since the last event of some kind. -/

namespace EventLog

variable {ε : Type*}

/-- Every event passed the test against the log before it. -/
def Passed (test : List ε → ε → Prop) : List ε → Prop
  | [] => True
  | e :: log => test log e ∧ Passed test log

/-- The event `x` is in the log, `mid` came after it, and nothing of `mid` resets. -/
def After (resets : ε → Bool) (log : List ε) (x : ε) (mid : List ε) : Prop :=
  (∃ pre, log = mid ++ x :: pre) ∧ ∀ e ∈ mid, resets e = false

/-- How many events of a kind there were since the last reset. -/
def countSince (resets kind : ε → Bool) (log : List ε) : ℕ :=
  (log.takeWhile (fun e => !resets e)).countP kind

variable {test : List ε → ε → Prop} {resets kind : ε → Bool} {log pre mid post : List ε} {e x : ε}

theorem Passed.suffix (h : Passed test (post ++ pre)) : Passed test pre := by
  induction post with
  | nil => exact h
  | cons d post ih => exact ih h.2

theorem Passed.at (h : Passed test (post ++ e :: pre)) : test pre e :=
  h.suffix.1

theorem Passed.mono {test' : List ε → ε → Prop} (htest : ∀ log e, test log e → test' log e)
    (h : Passed test log) : Passed test' log := by
  induction log with
  | nil => trivial
  | cons e log ih => exact ⟨htest _ _ h.1, ih h.2⟩

theorem after_cons (h : After resets (e :: log) x mid) :
    e = x ∧ mid = [] ∨ ∃ mid', mid = e :: mid' ∧ resets e = false ∧ After resets log x mid' := by
  obtain ⟨⟨pre, hlog⟩, hmid⟩ := h
  cases mid with
  | nil => exact .inl ⟨(List.cons.inj hlog).1, rfl⟩
  | cons d mid =>
    rw [List.cons_append] at hlog
    obtain ⟨rfl, hrest⟩ := List.cons.inj hlog
    exact .inr ⟨mid, rfl, hmid e (by simp), ⟨pre, hrest⟩, fun d hd => hmid d (by simp [hd])⟩

theorem not_after_reset (he : resets e = true) (hx : e ≠ x) : ¬After resets (e :: log) x mid := by
  intro h
  rcases after_cons h with ⟨h, -⟩ | ⟨mid', -, h, -⟩
  · exact hx h
  · rw [he] at h
    cases h

theorem countSince_reset (he : resets e = true) : countSince resets kind (e :: log) = 0 := by
  simp [countSince, he]

theorem countSince_kind (he : resets e = false) (hk : kind e = true) :
    countSince resets kind (e :: log) = countSince resets kind log + 1 := by
  simp [countSince, he, hk]

theorem countSince_other (he : resets e = false) (hk : kind e = false) :
    countSince resets kind (e :: log) = countSince resets kind log := by
  simp [countSince, he, hk]

theorem countSince_append (h : ∀ e ∈ mid, resets e = false) :
    countSince resets kind (mid ++ pre) = mid.countP kind + countSince resets kind pre := by
  have hkeep : ∀ e ∈ mid, (!resets e) = true := by
    intro e he
    rw [h e he]
    rfl
  rw [countSince, List.takeWhile_append_of_pos hkeep, List.countP_append]
  rfl

/-- If the kind only happens below a bound, then the bound is never passed. -/
theorem countSince_le {bound : ℕ}
    (h : Passed (fun log e => kind e = true → countSince resets kind log < bound) log) :
    countSince resets kind log ≤ bound := by
  induction log with
  | nil => exact Nat.zero_le _
  | cons e log ih =>
    cases he : resets e with
    | true =>
      rw [countSince_reset he]
      exact Nat.zero_le _
    | false =>
      cases hk : kind e with
      | true =>
        rw [countSince_kind he hk]
        exact h.1 hk
      | false =>
        rw [countSince_other he hk]
        exact ih h.2

end EventLog
