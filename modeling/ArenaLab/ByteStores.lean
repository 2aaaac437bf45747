import Mathlib.Data.Nat.Notation
import Mathlib.Tactic.Common

/-! A buffer written piece by piece: each store puts some values at an offset. -/

namespace ByteStores

variable {α : Type}

/-- The values of the store over those that stand at its offset. -/
def put (buf : List α) (s : ℕ × List α) : List α :=
  buf.take s.1 ++ s.2 ++ buf.drop (s.1 + s.2.length)

def run (buf : List α) (stores : List (ℕ × List α)) : List α := stores.foldl put buf

def image (stores : List (ℕ × List α)) : List α := stores.flatMap Prod.snd

/-- Each store begins where the one before it ended, the first at `off`. -/
def Contiguous : ℕ → List (ℕ × List α) → Prop
  | _, [] => True
  | off, s :: stores => s.1 = off ∧ Contiguous (off + s.2.length) stores

theorem put_append {done rest : List α} {s : ℕ × List α} (h : s.1 = done.length) :
    put (done ++ rest) s = (done ++ s.2) ++ rest.drop s.2.length := by
  rw [put, h, List.take_left' rfl, List.drop_append]
  simp

theorem run_append {stores : List (ℕ × List α)} {done rest : List α} (h : Contiguous done.length stores) :
    run (done ++ rest) stores = done ++ image stores ++ rest.drop (image stores).length := by
  induction stores generalizing done rest with
  | nil => simp [run, image]
  | cons s stores ih =>
    have hnext : Contiguous (done ++ s.2).length stores := by
      rw [List.length_append]
      exact h.2
    have hrun : run (done ++ s.2 ++ rest.drop s.2.length) stores =
        done ++ s.2 ++ image stores ++ (rest.drop s.2.length).drop (image stores).length := ih hnext
    rw [← put_append h.1] at hrun
    have himage : image (s :: stores) = s.2 ++ image stores := rfl
    rw [himage, List.length_append, ← List.drop_drop, ← List.append_assoc done]
    exact hrun

/-- Contiguous stores write their bytes in order and leave the rest of the buffer. -/
theorem run_contiguous {stores : List (ℕ × List α)} (buf : List α) (h : Contiguous 0 stores) :
    run buf stores = image stores ++ buf.drop (image stores).length :=
  run_append (show Contiguous ([] : List α).length stores from h)

end ByteStores
