import Mathlib.Data.List.Basic
import Mathlib.Data.Nat.ModEq
import Mathlib.Logic.Function.Basic
import Mathlib.Tactic.Common

/-! A bounded queue in a ring of cells: `count` entries from cell `head` on. -/

structure RingBuffer (α : Type) (n : ℕ) where
  cells : Fin n → α
  head : ℕ
  count : ℕ

namespace RingBuffer

variable {α : Type} {n : ℕ} [NeZero n]

def toList (r : RingBuffer α n) : List α :=
  (List.range r.count).map (fun j => r.cells (Fin.ofNat n (r.head + j)))

def push (r : RingBuffer α n) (x : α) : Option (RingBuffer α n) :=
  if r.count = n then none
  else some { r with
    cells := Function.update r.cells (Fin.ofNat n (r.head + r.count)) x
    count := r.count + 1 }

def front (r : RingBuffer α n) : α := r.cells (Fin.ofNat n r.head)

def pop (r : RingBuffer α n) : RingBuffer α n :=
  { r with head := (r.head + 1) % n, count := r.count - 1 }

theorem toList_push {r r' : RingBuffer α n} {x : α} (hr : r.count ≤ n) (h : r.push x = some r') :
    r'.toList = r.toList ++ [x] ∧ r'.count ≤ n := by
  rw [push] at h
  split at h
  · cases h
  · rename_i hroom
    obtain rfl := Option.some.inj h
    refine ⟨?_, show r.count + 1 ≤ n by omega⟩
    rw [toList, List.range_succ, List.map_append]
    congr 1
    · apply List.map_congr_left
      intro j hj
      have hlt := List.mem_range.mp hj
      apply Function.update_of_ne
      intro heq
      have hmod : (r.head + j) % n = (r.head + r.count) % n := congrArg Fin.val heq
      have hj' : j % n = r.count % n := Nat.ModEq.add_left_cancel' r.head hmod
      rw [Nat.mod_eq_of_lt (by omega), Nat.mod_eq_of_lt (by omega)] at hj'
      omega
    · simp

theorem toList_pop {r : RingBuffer α n} (h : r.count ≠ 0) : r.toList = r.front :: r.pop.toList := by
  obtain ⟨k, hk⟩ := Nat.exists_eq_succ_of_ne_zero h
  have hpop : r.pop.count = k := by
    rw [pop, hk]
    rfl
  rw [toList, toList, hpop, hk, List.range_succ_eq_map, List.map_cons, List.map_map]
  congr 1
  apply List.map_congr_left
  intro j hj
  have hcell : Fin.ofNat n (r.head + (j + 1)) = Fin.ofNat n ((r.head + 1) % n + j) := by
    apply Fin.ext
    show (r.head + (j + 1)) % n = ((r.head + 1) % n + j) % n
    rw [Nat.mod_add_mod]
    congr 1
    omega
  exact congrArg r.cells hcell

end RingBuffer
