import Mathlib.Data.Nat.Notation
import Mathlib.Tactic.Common

/-! Computations on buffers in which every access and every subtraction of
sizes is checked: they return a result, refuse their input for a reason, reach
outside a buffer, or run out of steps. -/

namespace Checked

inductive Halt (ε : Type*)
  | reject (reason : ε)
  | outOfRange
  | outOfFuel
  deriving DecidableEq

abbrev Run (ε α : Type*) := Except (Halt ε) α

variable {ε α β : Type*}

def sub (m n : ℕ) : Run ε ℕ := if n ≤ m then .ok (m - n) else .error .outOfRange

def slice (l : List α) (off n : ℕ) : Run ε (List α) :=
  if off + n ≤ l.length then .ok ((l.drop off).take n) else .error .outOfRange

/-- Nothing was out of range, and a result has the property. -/
def Meets (x : Run ε α) (Q : α → Prop) : Prop :=
  match x with
  | .ok a => Q a
  | .error (.reject _) => True
  | .error _ => False

variable {m n off : ℕ} {l : List α} {x : Run ε α} {P Q : α → Prop}

@[simp] theorem meets_ok {a : α} : Meets (.ok a : Run ε α) Q ↔ Q a := Iff.rfl

@[simp] theorem meets_reject {reason : ε} : Meets (.error (.reject reason) : Run ε α) Q := trivial

theorem Meets.bind {f : α → Run ε β} {Q : β → Prop} (hx : Meets x P) (hf : ∀ a, P a → Meets (f a) Q) :
    Meets (x.bind f) Q := by
  cases x with
  | ok a => exact hf a hx
  | error h =>
    cases h with
    | reject reason => trivial
    | outOfRange => exact hx.elim
    | outOfFuel => exact hx.elim

theorem Meets.mono (hx : Meets x P) (h : ∀ a, P a → Q a) : Meets x Q := by
  cases x with
  | ok a => exact h a hx
  | error e =>
    cases e with
    | reject reason => trivial
    | outOfRange => exact hx.elim
    | outOfFuel => exact hx.elim

theorem Meets.of_ok {a : α} (hx : Meets x Q) (h : x = .ok a) : Q a := by
  rw [h] at hx
  exact hx

theorem Meets.in_range (hx : Meets x Q) : x ≠ .error .outOfRange ∧ x ≠ .error .outOfFuel := by
  constructor
  · rintro rfl
    exact hx
  · rintro rfl
    exact hx

theorem bind_ok {f : α → Run ε β} {b : β} (h : x.bind f = .ok b) : ∃ a, x = .ok a ∧ f a = .ok b := by
  cases x with
  | ok a => exact ⟨a, rfl, h⟩
  | error e => cases h

theorem sub_eq (h : n ≤ m) : (sub m n : Run ε ℕ) = .ok (m - n) := if_pos h

theorem slice_eq (h : off + n ≤ l.length) : (slice l off n : Run ε (List α)) = .ok ((l.drop off).take n) :=
  if_pos h

end Checked
