import Mathlib.Data.Nat.Digits.Defs
import Mathlib.Tactic.Ring

/-! Natural numbers as fixed numbers of bytes, least significant byte first. -/

namespace LittleEndian

def value (l : List UInt8) : ℕ := Nat.ofDigits 256 (l.map UInt8.toNat)

def bytes (v : ℕ) : ℕ → List UInt8
  | 0 => []
  | n + 1 => UInt8.ofNat v :: bytes (v / 256) n

@[simp] theorem value_nil : value [] = 0 := rfl

@[simp] theorem value_cons (b : UInt8) (l : List UInt8) : value (b :: l) = b.toNat + 256 * value l := by
  simp [value, Nat.ofDigits_cons]

theorem value_append (l l' : List UInt8) :
    value (l ++ l') = value l + 256 ^ l.length * value l' := by
  simp [value, Nat.ofDigits_append]

theorem value_lt (l : List UInt8) : value l < 256 ^ l.length := by
  induction l with
  | nil => simp
  | cons b l ih =>
    have hb := b.toNat_lt
    rw [value_cons, List.length_cons, pow_succ]
    omega

@[simp] theorem length_bytes (v n : ℕ) : (bytes v n).length = n := by
  induction n generalizing v with
  | zero => rfl
  | succ n ih => simp [bytes, ih]

theorem value_bytes (v n : ℕ) : value (bytes v n) = v % 256 ^ n := by
  induction n generalizing v with
  | zero => simp [bytes, Nat.mod_one]
  | succ n ih =>
    have hbyte : (UInt8.ofNat v).toNat = v % 256 := UInt8.toNat_ofNat'
    rw [bytes, value_cons, ih, hbyte, pow_succ', Nat.mod_mul]

theorem bytes_value (l : List UInt8) : bytes (value l) l.length = l := by
  induction l with
  | nil => rfl
  | cons b l ih =>
    have hb := b.toNat_lt
    have hdiv : (b.toNat + 256 * value l) / 256 = value l := by omega
    rw [value_cons, List.length_cons, bytes, hdiv, ih]
    have hhead : UInt8.ofNat (b.toNat + 256 * value l) = b := by
      rw [← UInt8.toNat_inj, UInt8.toNat_ofNat']
      omega
    rw [hhead]

theorem getElem?_bytes (v : ℕ) {n i : ℕ} (h : i < n) :
    (bytes v n)[i]? = some (UInt8.ofNat (v / 256 ^ i)) := by
  induction n generalizing v i with
  | zero => omega
  | succ n ih =>
    cases i with
    | zero => simp [bytes]
    | succ i =>
      rw [bytes, List.getElem?_cons_succ, ih (v / 256) (by omega), Nat.div_div_eq_div_mul, pow_succ']

end LittleEndian
