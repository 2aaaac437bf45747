import ArenaLab.LabWire
import ArenaLab.LittleEndian

/-! The bytes of a datagram as fields: what a read at an offset returns and what a
write puts there. -/

namespace ArenaLab

theorem map_range_getD (l : List UInt8) {n : ℕ} (h : n ≤ l.length) :
    (List.range n).map (l.getD · 0) = l.take n := by
  apply List.ext_getElem
  · simp [h]
  · intro i h₁ h₂
    have hi : i < l.length := by
      rw [List.length_take] at h₂
      omega
    simp [List.getD_eq_getElem?_getD, hi]

theorem getD_drop (l : List UInt8) (n k : ℕ) : (l.drop n).getD k 0 = l.getD (n + k) 0 := by
  simp [List.getD_eq_getElem?_getD]

theorem field_toList (l : List UInt8) {off n : ℕ} (h : off + n ≤ l.length) :
    (field l off n).toList = (l.drop off).take n := by
  rw [← map_range_getD (l.drop off) (by rw [List.length_drop]; omega)]
  apply List.ext_getElem
  · simp
  · intro i h₁ h₂
    simp [field, List.getD_eq_getElem?_getD]

theorem field_eq {l rest : List UInt8} {off n : ℕ} {v : Bytes n} (h : l.drop off = v.toList ++ rest) :
    field l off n = v := by
  apply Vector.ext
  intro i hi
  have hget : l[off + i]? = some v[i] := by
    rw [← List.getElem?_drop, h, List.getElem?_append_left (by simpa using hi)]
    simp [hi]
  simp [field, List.getD_eq_getElem?_getD, hget]

theorem shiftLeft_toNat (b : UInt8) {k : UInt32} (hk : k.toNat ≤ 24) :
    (b.toUInt32 <<< k).toNat = 2 ^ k.toNat * b.toNat := by
  have hb := b.toNat_lt
  have hpow : 2 ^ k.toNat ≤ 2 ^ 24 := Nat.pow_le_pow_right (by omega) hk
  rw [UInt32.toNat_shiftLeft, UInt8.toNat_toUInt32, Nat.mod_eq_of_lt (show k.toNat < 32 by omega),
    Nat.shiftLeft_eq, Nat.mul_comm]
  apply Nat.mod_eq_of_lt
  calc 2 ^ k.toNat * b.toNat ≤ 2 ^ 24 * b.toNat := Nat.mul_le_mul_right _ hpow
    _ < 2 ^ 32 := by omega

theorem get32_toNat (buf : List UInt8) {off : ℕ} (h : off + 4 ≤ buf.length) :
    (get32 buf off).toNat = LittleEndian.value ((buf.drop off).take 4) := by
  obtain ⟨a, b, c, d, rest, hl⟩ : ∃ a b c d rest, buf.drop off = a :: b :: c :: d :: rest := by
    have hlen : 4 ≤ (buf.drop off).length := by
      rw [List.length_drop]
      omega
    match hd : buf.drop off, hlen with
    | a :: b :: c :: d :: rest, _ => exact ⟨a, b, c, d, rest, rfl⟩
  have hget : ∀ k, buf.getD (off + k) 0 = (a :: b :: c :: d :: rest).getD k 0 := by
    intro k
    rw [← hl, List.getD_eq_getElem?_getD, List.getD_eq_getElem?_getD, List.getElem?_drop]
  have ha : buf.getD off 0 = a := hget 0
  have hb : buf.getD (off + 1) 0 = b := hget 1
  have hc : buf.getD (off + 2) 0 = c := hget 2
  have hd : buf.getD (off + 3) 0 = d := hget 3
  have hA := a.toNat_lt
  have hB := b.toNat_lt
  have hC := c.toNat_lt
  have h8 := Nat.two_pow_add_eq_or_of_lt (i := 8) (by omega : a.toNat < 2 ^ 8) b.toNat
  have h16 := Nat.two_pow_add_eq_or_of_lt (i := 16)
    (by omega : 2 ^ 8 * b.toNat + a.toNat < 2 ^ 16) c.toNat
  have h24 := Nat.two_pow_add_eq_or_of_lt (i := 24)
    (by omega : 2 ^ 16 * c.toNat + (2 ^ 8 * b.toNat + a.toNat) < 2 ^ 24) d.toNat
  have hb' : (b.toUInt32 <<< 8).toNat = 2 ^ 8 * b.toNat := shiftLeft_toNat b (k := 8) (by decide)
  have hc' : (c.toUInt32 <<< 16).toNat = 2 ^ 16 * c.toNat := shiftLeft_toNat c (k := 16) (by decide)
  have hd' : (d.toUInt32 <<< 24).toNat = 2 ^ 24 * d.toNat := shiftLeft_toNat d (k := 24) (by decide)
  rw [get32, ha, hb, hc, hd, UInt32.toNat_or, UInt32.toNat_or, UInt32.toNat_or, UInt8.toNat_toUInt32,
    hb', hc', hd', Nat.or_comm a.toNat, ← h8, Nat.or_comm _ (2 ^ 16 * c.toNat), ← h16,
    Nat.or_comm _ (2 ^ 24 * d.toNat), ← h24, hl]
  simp only [List.take_succ_cons, List.take_zero, LittleEndian.value_cons, LittleEndian.value_nil]
  omega

@[simp] theorem length_put32 (v : UInt32) : (put32 v).length = 4 := by simp [put32]

@[simp] theorem length_put64 (v : UInt64) : (put64 v).length = 8 := by simp [put64]

theorem put32_eq (v : UInt32) : put32 v = LittleEndian.bytes v.toNat 4 := by
  have hbyte : ∀ k : UInt32, k.toNat < 32 → (v >>> k).toUInt8 = UInt8.ofNat (v.toNat / 2 ^ k.toNat) := by
    intro k hk
    rw [← UInt8.toNat_inj, UInt32.toNat_toUInt8, UInt32.toNat_shiftRight, UInt8.toNat_ofNat',
      Nat.mod_eq_of_lt hk, Nat.shiftRight_eq_div_pow]
  have hlow : v.toUInt8 = UInt8.ofNat v.toNat := by
    rw [← UInt8.toNat_inj, UInt32.toNat_toUInt8, UInt8.toNat_ofNat']
  rw [put32, hlow, hbyte 8 (by decide), hbyte 16 (by decide), hbyte 24 (by decide)]
  simp [LittleEndian.bytes, Nat.div_div_eq_div_mul]

theorem put32_get32 {buf : List UInt8} {off : ℕ} (h : off + 4 ≤ buf.length) :
    put32 (get32 buf off) = (buf.drop off).take 4 := by
  have hlen : ((buf.drop off).take 4).length = 4 := by
    rw [List.length_take, List.length_drop]
    omega
  have hbytes := LittleEndian.bytes_value ((buf.drop off).take 4)
  rw [hlen] at hbytes
  rw [put32_eq, get32_toNat buf h, hbytes]

theorem get32_eq {l rest : List UInt8} {off : ℕ} {v : UInt32} (h : l.drop off = put32 v ++ rest) :
    get32 l off = v := by
  have hlen := congrArg List.length h
  simp only [List.length_drop, List.length_append, length_put32] at hlen
  rw [← UInt32.toNat_inj, get32_toNat l (by omega), h, List.take_left' (length_put32 v), put32_eq,
    LittleEndian.value_bytes]
  exact Nat.mod_eq_of_lt v.toNat_lt

theorem get64_eq {l rest : List UInt8} {off : ℕ} {v : UInt64} (h : l.drop off = put64 v ++ rest) :
    get64 l off = v := by
  rw [put64, List.append_assoc] at h
  have hlow : get32 l off = v.toUInt32 := get32_eq h
  have hnext : l.drop (off + 4) = put32 (v >>> 32).toUInt32 ++ rest := by
    rw [← List.drop_drop, h]
    exact List.drop_left' (length_put32 _)
  have hhigh : get32 l (off + 4) = (v >>> 32).toUInt32 := get32_eq hnext
  rw [get64, hlow, hhigh]
  apply UInt64.toNat_inj.mp
  have hv := v.toNat_lt
  have hdiv : v.toNat / 2 ^ 32 < 2 ^ 32 := by omega
  rw [UInt64.toNat_or, UInt64.toNat_shiftLeft, UInt32.toNat_toUInt64, UInt32.toNat_toUInt64,
    UInt64.toNat_toUInt32, UInt64.toNat_toUInt32, UInt64.toNat_shiftRight]
  have hk : UInt64.toNat 32 % 64 = 32 := rfl
  have hup : 2 ^ 32 * (v.toNat / 2 ^ 32) % 2 ^ 64 = 2 ^ 32 * (v.toNat / 2 ^ 32) :=
    Nat.mod_eq_of_lt (by omega)
  rw [hk, Nat.shiftRight_eq_div_pow, Nat.mod_eq_of_lt hdiv, Nat.shiftLeft_eq, Nat.mul_comm, hup,
    Nat.or_comm, ← Nat.two_pow_add_eq_or_of_lt (Nat.mod_lt _ (Nat.two_pow_pos 32)), Nat.div_add_mod]

theorem put64_get64 {buf : List UInt8} {off : ℕ} (h : off + 8 ≤ buf.length) :
    put64 (get64 buf off) = (buf.drop off).take 8 := by
  have hlow : (get32 buf off).toNat < 2 ^ 32 := (get32 buf off).toNat_lt
  have hhigh : (get32 buf (off + 4)).toNat < 2 ^ 32 := (get32 buf (off + 4)).toNat_lt
  have hk : UInt64.toNat 32 % 64 = 32 := rfl
  have hval : (get64 buf off).toNat = 2 ^ 32 * (get32 buf (off + 4)).toNat + (get32 buf off).toNat := by
    rw [get64, UInt64.toNat_or, UInt64.toNat_shiftLeft, UInt32.toNat_toUInt64, UInt32.toNat_toUInt64,
      hk, Nat.shiftLeft_eq, Nat.mod_eq_of_lt (by omega), Nat.or_comm, Nat.mul_comm,
      ← Nat.two_pow_add_eq_or_of_lt hlow]
  have ha : (get64 buf off).toUInt32 = get32 buf off := by
    rw [← UInt32.toNat_inj, UInt64.toNat_toUInt32, hval]
    omega
  have hb : (get64 buf off >>> 32).toUInt32 = get32 buf (off + 4) := by
    rw [← UInt32.toNat_inj, UInt64.toNat_toUInt32, UInt64.toNat_shiftRight, hk, hval,
      Nat.shiftRight_eq_div_pow]
    omega
  rw [put64, ha, hb, put32_get32 (by omega), put32_get32 (by omega), ← List.drop_drop, ← List.take_add]

section

variable {a : List UInt8} {off : ℕ}

theorem getD_append_right (b : List UInt8) (h : a.length ≤ off) :
    (a ++ b).getD off 0 = b.getD (off - a.length) 0 := by
  simp [List.getD_eq_getElem?_getD, List.getElem?_append_right h]

theorem field_append_right (b : List UInt8) (n : ℕ) (h : a.length ≤ off) :
    field (a ++ b) off n = field b (off - a.length) n := by
  apply Vector.ext
  intro i hi
  have hsub : off + i - a.length = off - a.length + i := by omega
  simp only [field, Vector.getElem_ofFn]
  rw [getD_append_right b (by omega), hsub]

theorem get32_append_right (b : List UInt8) (h : a.length ≤ off) :
    get32 (a ++ b) off = get32 b (off - a.length) := by
  have hsub : ∀ k, off + k - a.length = off - a.length + k := by omega
  rw [get32, getD_append_right b h, getD_append_right b (by omega), getD_append_right b (by omega),
    getD_append_right b (by omega), hsub, hsub, hsub]
  rfl

theorem get64_append_right (b : List UInt8) (h : a.length ≤ off) :
    get64 (a ++ b) off = get64 b (off - a.length) := by
  have hsub : off + 4 - a.length = off - a.length + 4 := by omega
  rw [get64, get32_append_right b h, get32_append_right b (by omega), hsub]
  rfl

theorem field_head {n : ℕ} (v : Bytes n) (b : List UInt8) : field (v.toList ++ b) 0 n = v := field_eq rfl

theorem get32_head (v : UInt32) (b : List UInt8) : get32 (put32 v ++ b) 0 = v := get32_eq rfl

theorem get64_head (v : UInt64) (b : List UInt8) : get64 (put64 v ++ b) 0 = v := get64_eq rfl

end

theorem octets {buf : List UInt8} (off : ℕ) (h : off + 4 ≤ buf.length) :
    [buf.getD off 0, buf.getD (off + 1) 0, buf.getD (off + 2) 0, buf.getD (off + 3) 0] =
      (buf.drop off).take 4 := by
  have hget := map_range_getD (buf.drop off) (n := 4) (by rw [List.length_drop]; omega)
  simpa [getD_drop, List.range_succ] using hget

end ArenaLab
