import Mathlib.Algebra.Group.Nat.Defs
import Mathlib.Data.List.Basic

/-! Hexadecimal and big-endian text of bytes. Reading skips ASCII blanks and
takes either case, as the usual library routine does; writing is lower case. -/

namespace HexText

def lowerDigits : List Char := "0123456789abcdef".toList

def digit? (c : Char) : Option Nat :=
  if '0' ≤ c ∧ c ≤ '9' then some (c.toNat - '0'.toNat)
  else if 'a' ≤ c ∧ c ≤ 'f' then some (c.toNat - 'a'.toNat + 10)
  else if 'A' ≤ c ∧ c ≤ 'F' then some (c.toNat - 'A'.toNat + 10)
  else none

def isBlank (c : Char) : Bool :=
  c = ' ' || c = '\t' || c = '\n' || c = '\r' || c = '\x0b' || c = '\x0c'

def fromHex : List Char → Option (List UInt8)
  | [] => some []
  | c :: cs =>
    if isBlank c then fromHex cs
    else match cs with
      | [] => none
      | d :: rest =>
        match digit? c, digit? d with
        | some hi, some lo => (fromHex rest).map (UInt8.ofNat (16 * hi + lo) :: ·)
        | _, _ => none

def byteHex (b : UInt8) : List Char :=
  [Nat.digitChar (b.toNat / 16), Nat.digitChar (b.toNat % 16)]

def toHex (bs : List UInt8) : List Char := bs.flatMap byteHex

theorem toHex_cons (b : UInt8) (bs : List UInt8) : toHex (b :: bs) = byteHex b ++ toHex bs := rfl

theorem byteHex_lower (b : UInt8) : ∀ c ∈ byteHex b, c ∈ lowerDigits := by
  have hd : ∀ n < 16, Nat.digitChar n ∈ lowerDigits := by decide
  have hb := b.toNat_lt
  intro c hc
  rcases List.mem_cons.mp hc with rfl | hc
  · exact hd _ (by omega)
  · exact List.mem_singleton.mp hc ▸ hd _ (by omega)

theorem toHex_lower (bs : List UInt8) : ∀ c ∈ toHex bs, c ∈ lowerDigits := by
  intro c hc
  obtain ⟨b, _, hb⟩ := List.mem_flatMap.mp hc
  exact byteHex_lower b c hb

theorem toHex_length (bs : List UInt8) : (toHex bs).length = 2 * bs.length := by
  induction bs with
  | nil => rfl
  | cons b bs ih => simp only [toHex_cons, List.length_append, ih, byteHex, List.length_cons]; simp; omega

theorem forall_lower {p : Char → Prop} [DecidablePred p] (h : lowerDigits.all (fun c => p c) = true) :
    ∀ c ∈ lowerDigits, p c := by
  simpa using h

theorem lower_not_blank : ∀ c ∈ lowerDigits, isBlank c = false := forall_lower (by decide)

theorem lower_pair : ∀ c ∈ lowerDigits, ∀ d ∈ lowerDigits, ∃ hi < 16, ∃ lo < 16,
    digit? c = some hi ∧ digit? d = some lo ∧ byteHex (UInt8.ofNat (16 * hi + lo)) = [c, d] := by
  have hone : ∀ c ∈ lowerDigits, ∃ n < 16, digit? c = some n ∧ Nat.digitChar n = c :=
    forall_lower (by decide)
  intro c hc d hd
  obtain ⟨hi, hhi, hc', hcc⟩ := hone c hc
  obtain ⟨lo, hlo, hd', hdd⟩ := hone d hd
  have hn : (UInt8.ofNat (16 * hi + lo)).toNat = 16 * hi + lo := by
    simp only [UInt8.toNat_ofNat']
    omega
  have h1 : (16 * hi + lo) / 16 = hi := by omega
  have h2 : (16 * hi + lo) % 16 = lo := by omega
  exact ⟨hi, hhi, lo, hlo, hc', hd', by rw [byteHex, hn, h1, h2, hcc, hdd]⟩

theorem fromHex_lower_pair {c d : Char} (hc : c ∈ lowerDigits) (hd : d ∈ lowerDigits)
    (rest : List Char) : ∃ b, byteHex b = [c, d] ∧
      fromHex (c :: d :: rest) = (fromHex rest).map (b :: ·) := by
  obtain ⟨hi, _, lo, _, hc', hd', hb⟩ := lower_pair c hc d hd
  exact ⟨_, hb, by simp [fromHex, lower_not_blank c hc, hc', hd']⟩

/-- Lower-case text of even length is read, and writing gives it back. -/
theorem fromHex_lower (n : Nat) (cs : List Char) (hlen : cs.length = 2 * n)
    (hc : ∀ c ∈ cs, c ∈ lowerDigits) :
    ∃ bs, fromHex cs = some bs ∧ toHex bs = cs ∧ bs.length = n := by
  induction n generalizing cs with
  | zero =>
    have he : cs = [] := List.eq_nil_of_length_eq_zero (by simpa using hlen)
    exact ⟨[], by simp [he, fromHex], by simp [he, toHex], rfl⟩
  | succ n ih =>
    match cs, hlen with
    | c :: d :: rest, hlen =>
      obtain ⟨bs, hb, ht, hl⟩ := ih rest (by simp at hlen; omega) (fun x hx => hc x (by simp [hx]))
      obtain ⟨b, hbyte, hp⟩ := fromHex_lower_pair (hc c (by simp)) (hc d (by simp)) rest
      exact ⟨b :: bs, by simp [hp, hb], by simp [toHex_cons, hbyte, ht], by simp [hl]⟩
    | [_], hlen => simp at hlen; omega
    | [], hlen => simp at hlen

theorem byteHex_inj {a b : UInt8} (h : byteHex a = byteHex b) : a = b := by
  have hinj : ∀ m < 16, ∀ n < 16, Nat.digitChar m = Nat.digitChar n → m = n := by decide
  have ha := a.toNat_lt
  have hb := b.toNat_lt
  simp only [byteHex, List.cons.injEq, and_true] at h
  have hq := hinj (a.toNat / 16) (by omega) (b.toNat / 16) (by omega) h.1
  have hr := hinj (a.toNat % 16) (by omega) (b.toNat % 16) (by omega) h.2
  exact UInt8.toNat_inj.mp (by omega)

theorem toHex_inj {as bs : List UInt8} (h : toHex as = toHex bs) : as = bs := by
  induction as generalizing bs with
  | nil =>
    have hl := congrArg List.length h
    simp only [toHex_length, List.length_nil] at hl
    exact (List.eq_nil_of_length_eq_zero (by omega)).symm
  | cons a as ih =>
    cases bs with
    | nil => simp [byteHex, toHex] at h
    | cons b bs =>
      obtain ⟨hb, ht⟩ := List.append_inj h (by simp [byteHex])
      rw [byteHex_inj hb, ih ht]

def bigEndian : Nat → Nat → List UInt8
  | 0, _ => []
  | k + 1, n => bigEndian k (n / 256) ++ [UInt8.ofNat (n % 256)]

theorem bigEndian_length (k n : Nat) : (bigEndian k n).length = k := by
  induction k generalizing n with
  | zero => rfl
  | succ k ih => simp [bigEndian, ih]

theorem bigEndian_inj {k m n : Nat} (hm : m < 256 ^ k) (hn : n < 256 ^ k)
    (h : bigEndian k m = bigEndian k n) : m = n := by
  induction k generalizing m n with
  | zero => simp at hm hn; omega
  | succ k ih =>
    have hl : (bigEndian k (m / 256)).length = (bigEndian k (n / 256)).length := by
      simp only [bigEndian_length]
    obtain ⟨hq, hr⟩ := List.append_inj h hl
    have hd : ∀ x, x < 256 ^ (k + 1) → x / 256 < 256 ^ k := fun x hx =>
      Nat.div_lt_of_lt_mul (by rw [Nat.mul_comm, ← Nat.pow_succ]; exact hx)
    have he := ih (hd m hm) (hd n hn) hq
    have hb := congrArg UInt8.toNat (List.cons.inj hr).1
    simp only [UInt8.toNat_ofNat'] at hb
    omega

end HexText
