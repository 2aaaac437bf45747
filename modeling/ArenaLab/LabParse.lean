import Mathlib.Data.List.Induction
import Mathlib.Data.Nat.Digits.Defs
import Mathlib.Tactic.Common

/-! Bounded decimal numbers of the command line, in 32-bit arithmetic. -/

namespace ArenaLab

/-- The bytes before the NUL. -/
structure CString where
  bytes : List UInt8
  nul_free : (0 : UInt8) ∉ bytes

/-- One round of the loop of `lab_parse_u32`. -/
def parseDigit (maximum value : UInt32) (p : UInt8) : Option UInt32 :=
  if p < 48 ∨ 57 < p then none
  else if maximum / 10 < value ∨ value = maximum / 10 ∧ maximum % 10 < (p - 48).toUInt32 then none
  else some (value * 10 + (p - 48).toUInt32)

/-- The value returned, and what is stored at `out`; `none` is a null pointer. -/
def labParseU32 (text : Option CString) (minimum maximum : UInt32) (out : Option UInt32) : ℕ × Option UInt32 :=
  match text, out with
  | some text, some stored =>
    if text.bytes = [] then (0, some stored)
    else
      match text.bytes.foldlM (parseDigit maximum) 0 with
      | none => (0, some stored)
      | some value => if value < minimum then (0, some stored) else (1, some value)
  | _, _ => (0, out)

def IsDigitByte (p : UInt8) : Prop := 48 ≤ p.toNat ∧ p.toNat ≤ 57

/-- The number that digits write, the most significant one first. -/
def decimalValue (bytes : List UInt8) : ℕ := Nat.ofDigits 10 (bytes.reverse.map (fun p => p.toNat - 48))

section

variable {maximum value value' : UInt32} {p : UInt8} {bytes : List UInt8}

@[simp] theorem decimalValue_nil : decimalValue [] = 0 := rfl

@[simp] theorem decimalValue_snoc (bytes : List UInt8) (p : UInt8) :
    decimalValue (bytes ++ [p]) = p.toNat - 48 + 10 * decimalValue bytes := by
  simp [decimalValue, Nat.ofDigits_cons]

theorem toNat_digit (h : IsDigitByte p) : (p - 48).toUInt32.toNat = p.toNat - 48 := by
  rw [UInt8.toNat_toUInt32, UInt8.toNat_sub_of_le]
  · rfl
  · exact UInt8.le_iff_toNat_le.mpr h.1

theorem isDigitByte_iff : IsDigitByte p ↔ ¬ (p < 48 ∨ 57 < p) := by
  rw [IsDigitByte, UInt8.lt_iff_toNat_lt, UInt8.lt_iff_toNat_lt, not_or, not_lt, not_lt]
  rfl

/-- The guard is the bound itself, and nothing wraps behind it. -/
theorem parseDigit_some : parseDigit maximum value p = some value' ↔
    IsDigitByte p ∧ p.toNat - 48 + 10 * value.toNat ≤ maximum.toNat ∧
      value'.toNat = p.toNat - 48 + 10 * value.toNat := by
  have hbound := maximum.toNat_lt
  by_cases hdigit : IsDigitByte p
  · have hp := toNat_digit hdigit
    have hguard : (maximum / 10 < value ∨ value = maximum / 10 ∧ maximum % 10 < (p - 48).toUInt32) ↔
        ¬ p.toNat - 48 + 10 * value.toNat ≤ maximum.toNat := by
      have hten : (10 : UInt32).toNat = 10 := rfl
      rw [UInt32.lt_iff_toNat_lt, UInt32.lt_iff_toNat_lt, ← UInt32.toNat_inj, UInt32.toNat_div,
        UInt32.toNat_mod, hp, hten]
      have hlow := hdigit.1
      have hhigh := hdigit.2
      omega
    rw [parseDigit, if_neg (isDigitByte_iff.mp hdigit)]
    by_cases hfits : p.toNat - 48 + 10 * value.toNat ≤ maximum.toNat
    · rw [if_neg (fun hg => hguard.mp hg hfits)]
      have hvalue : (value * 10 + (p - 48).toUInt32).toNat = p.toNat - 48 + 10 * value.toNat := by
        rw [UInt32.toNat_add, UInt32.toNat_mul, hp, show (10 : UInt32).toNat = 10 from rfl]
        omega
      constructor
      · intro h
        obtain rfl := Option.some.inj h
        exact ⟨hdigit, hfits, hvalue⟩
      · rintro ⟨-, -, heq⟩
        exact congrArg some (UInt32.toNat_inj.mp (hvalue.trans heq.symm))
    · rw [if_pos (hguard.mpr hfits)]
      constructor
      · intro h
        cases h
      · intro h
        exact absurd h.2.1 hfits
  · rw [parseDigit, if_pos (not_not.mp (fun hg => hdigit (isDigitByte_iff.mpr hg)))]
    constructor
    · intro h
      cases h
    · intro h
      exact absurd h.1 hdigit

/-- The loop over a prefix: it goes on exactly as long as the prefix is of digits and its
number does not exceed the maximum. -/
theorem parse_digits : bytes.foldlM (parseDigit maximum) 0 = some value ↔
    (∀ p ∈ bytes, IsDigitByte p) ∧ decimalValue bytes ≤ maximum.toNat ∧ value.toNat = decimalValue bytes := by
  induction bytes using List.reverseRecOn generalizing value with
  | nil =>
    rw [List.foldlM_nil, decimalValue_nil]
    constructor
    · intro h
      obtain rfl := Option.some.inj h
      exact ⟨by simp, Nat.zero_le _, rfl⟩
    · rintro ⟨-, -, hzero⟩
      exact congrArg some (UInt32.toNat_inj.mp hzero).symm
  | append_singleton bytes p ih =>
    rw [List.foldlM_append, decimalValue_snoc]
    constructor
    · intro h
      obtain ⟨before, hbefore, hlast⟩ := Option.bind_eq_some_iff.mp h
      obtain ⟨hdigits, hmax, heq⟩ := ih.mp hbefore
      rw [List.foldlM_cons] at hlast
      obtain ⟨after, hafter, hend⟩ := Option.bind_eq_some_iff.mp hlast
      obtain rfl := Option.some.inj hend
      obtain ⟨hdigit, hfits, hvalue⟩ := parseDigit_some.mp hafter
      rw [heq] at hfits hvalue
      refine ⟨?_, hfits, hvalue⟩
      intro q hq
      rcases List.mem_append.mp hq with hq | hq
      · exact hdigits q hq
      · rw [List.mem_singleton.mp hq]
        exact hdigit
    · rintro ⟨hdigits, hfits, hvalue⟩
      have hbound := maximum.toNat_lt
      have hbefore : bytes.foldlM (parseDigit maximum) 0 = some (UInt32.ofNat (decimalValue bytes)) := by
        refine ih.mpr ⟨fun q hq => hdigits q (List.mem_append_left _ hq), by omega, ?_⟩
        rw [UInt32.toNat_ofNat']
        omega
      have hlast : parseDigit maximum (UInt32.ofNat (decimalValue bytes)) p = some value := by
        refine parseDigit_some.mpr ⟨hdigits p (by simp), ?_⟩
        rw [UInt32.toNat_ofNat', Nat.mod_eq_of_lt (by omega)]
        exact ⟨hfits, hvalue⟩
      rw [hbefore]
      simp [hlast]

/-- What the whole text comes to. -/
theorem labParseU32_cases (text : CString) (minimum maximum stored : UInt32) :
    (∃ value, labParseU32 (some text) minimum maximum (some stored) = (1, some value) ∧ text.bytes ≠ [] ∧
      text.bytes.foldlM (parseDigit maximum) 0 = some value ∧ minimum ≤ value) ∨
    labParseU32 (some text) minimum maximum (some stored) = (0, some stored) ∧
      (text.bytes ≠ [] → ∀ value, text.bytes.foldlM (parseDigit maximum) 0 = some value → value < minimum) := by
  by_cases hempty : text.bytes = []
  · refine .inr ⟨?_, fun h => absurd hempty h⟩
    rw [labParseU32, if_pos hempty]
  · cases hloop : text.bytes.foldlM (parseDigit maximum) 0 with
    | none =>
      refine .inr ⟨?_, fun _ _ h => by cases h⟩
      rw [labParseU32, if_neg hempty, hloop]
    | some value =>
      by_cases hmin : value < minimum
      · refine .inr ⟨?_, fun _ _ h => Option.some.inj h ▸ hmin⟩
        rw [labParseU32, if_neg hempty, hloop]
        exact if_pos hmin
      · refine .inl ⟨value, ?_, hempty, rfl, UInt32.not_lt.mp hmin⟩
        rw [labParseU32, if_neg hempty, hloop]
        exact if_neg hmin

/-- `lab_parse_u32` takes exactly the digits of a number within the bounds, and no
operation on the way to its result wraps. -/
theorem parse_u32_exact (text : CString) (minimum maximum stored : UInt32) :
    ((labParseU32 (some text) minimum maximum (some stored)).1 = 1 ↔
      text.bytes ≠ [] ∧ (∀ p ∈ text.bytes, IsDigitByte p) ∧
        minimum.toNat ≤ decimalValue text.bytes ∧ decimalValue text.bytes ≤ maximum.toNat) ∧
    ((labParseU32 (some text) minimum maximum (some stored)).1 = 1 →
      ∃ value, (labParseU32 (some text) minimum maximum (some stored)).2 = some value ∧
        value.toNat = decimalValue text.bytes) ∧
    ((labParseU32 (some text) minimum maximum (some stored)).1 ≠ 1 →
      labParseU32 (some text) minimum maximum (some stored) = (0, some stored)) ∧
    ∀ pre p post value value', text.bytes = pre ++ p :: post →
      pre.foldlM (parseDigit maximum) 0 = some value → parseDigit maximum value p = some value' →
        (p - 48).toNat = p.toNat - 48 ∧ (value * 10).toNat = value.toNat * 10 ∧
          value'.toNat = value.toNat * 10 + (p.toNat - 48) := by
  refine ⟨?_, ?_, ?_, ?_⟩
  · rcases labParseU32_cases text minimum maximum stored with ⟨value, heq, hne, hloop, hmin⟩ | ⟨heq, hfail⟩
    · obtain ⟨hdigits, hmax, hvalue⟩ := parse_digits.mp hloop
      rw [heq]
      have hmin' : minimum.toNat ≤ decimalValue text.bytes := hvalue ▸ UInt32.le_iff_toNat_le.mp hmin
      exact ⟨fun _ => ⟨hne, hdigits, hmin', hmax⟩, fun _ => rfl⟩
    · rw [heq]
      refine ⟨fun h => absurd h Nat.zero_ne_one, ?_⟩
      rintro ⟨hne, hdigits, hmin, hmax⟩
      have hbound := maximum.toNat_lt
      have hvalue : (UInt32.ofNat (decimalValue text.bytes)).toNat = decimalValue text.bytes := by
        rw [UInt32.toNat_ofNat']
        omega
      have hless := hfail hne _ (parse_digits.mpr ⟨hdigits, hmax, hvalue⟩)
      rw [UInt32.lt_iff_toNat_lt, hvalue] at hless
      omega
  · intro h
    rcases labParseU32_cases text minimum maximum stored with ⟨value, heq, _, hloop, _⟩ | ⟨heq, _⟩
    · refine ⟨value, ?_, (parse_digits.mp hloop).2.2⟩
      rw [heq]
    · rw [heq] at h
      exact absurd h Nat.zero_ne_one
  · intro h
    rcases labParseU32_cases text minimum maximum stored with ⟨value, heq, _⟩ | ⟨heq, _⟩
    · rw [heq] at h
      exact absurd rfl h
    · exact heq
  · intro pre p post value value' _ _ hstep
    obtain ⟨hdigit, hfits, hvalue⟩ := parseDigit_some.mp hstep
    have hbound := maximum.toNat_lt
    refine ⟨?_, ?_, by omega⟩
    · rw [UInt8.toNat_sub_of_le]
      · rfl
      · exact UInt8.le_iff_toNat_le.mpr hdigit.1
    · rw [UInt32.toNat_mul, show (10 : UInt32).toNat = 10 from rfl]
      omega

end

end ArenaLab
