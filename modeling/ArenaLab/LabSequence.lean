import ArenaLab.LabWire
import Mathlib.Data.List.Induction
import Mathlib.Order.MinMax
import Mathlib.Tactic.Common

/-! The sequence window of a session: a ring of sixteen slots against the set
of all values accepted since the session opened. -/

namespace ArenaLab

structure LabSequence where
  next : UInt32
  seen : Vector UInt32 16
  deriving DecidableEq

def ringSlot (seq : UInt32) : Fin 16 := Fin.ofNat 16 seq.toNat

def LabSequence.accept (state : LabSequence) (seq : UInt32) : LabSequence × Reason :=
  if seq = 0 then (state, .badSeq)
  else if seq = uint32Max ∨ state.next = uint32Max then (state, .closing)
  else if state.next ≤ seq then
    if 8 < seq - state.next then (state, .badSeq)
    else (⟨seq + 1, state.seen.set (ringSlot seq) seq⟩, .ok)
  else if 16 < state.next - seq then (state, .badSeq)
  else if state.seen[ringSlot seq] = seq then (state, .replay)
  else ({ state with seen := state.seen.set (ringSlot seq) seq }, .ok)

def LabSequence.fresh : LabSequence := ⟨1, Vector.replicate 16 0⟩

/-- A call, with the values accepted so far, newest first. -/
def sequenceCall (run : LabSequence × List UInt32) (seq : UInt32) : LabSequence × List UInt32 :=
  ((run.1.accept seq).1, if (run.1.accept seq).2 = .ok then seq :: run.2 else run.2)

def sequenceRun (calls : List UInt32) : LabSequence × List UInt32 :=
  calls.foldl sequenceCall (.fresh, [])

def greatest (accepted : List UInt32) : ℕ := accepted.foldr (fun a m => max a.toNat m) 0

/-- The slot of every residue holds the greatest accepted value of that
residue, or zero, and `next` follows the greatest value of all. -/
structure RingInv (state : LabSequence) (accepted : List UInt32) : Prop where
  next : state.next.toNat = greatest accepted + 1
  slot : ∀ j : Fin 16, state.seen[j].toNat =
    greatest (accepted.filter (fun a => ringSlot a = j))
  range : ∀ a ∈ accepted, 0 < a.toNat ∧ a.toNat < 4294967295
  once : accepted.Nodup

theorem le_greatest {accepted : List UInt32} {a : UInt32} (h : a ∈ accepted) :
    a.toNat ≤ greatest accepted := by
  induction accepted with
  | nil => cases h
  | cons b accepted ih =>
    rcases List.mem_cons.mp h with rfl | h
    · exact le_max_left _ _
    · exact (ih h).trans (le_max_right _ _)

theorem greatest_le {accepted : List UInt32} {n : ℕ} (h : ∀ a ∈ accepted, a.toNat ≤ n) :
    greatest accepted ≤ n := by
  induction accepted with
  | nil => exact Nat.zero_le n
  | cons b accepted ih =>
    exact max_le (h b List.mem_cons_self) (ih (fun a ha => h a (List.mem_cons_of_mem b ha)))

theorem greatest_mem {accepted : List UInt32} (h : 0 < greatest accepted) :
    ∃ a ∈ accepted, a.toNat = greatest accepted := by
  induction accepted with
  | nil => simp [greatest] at h
  | cons b accepted ih =>
    by_cases hb : greatest accepted ≤ b.toNat
    · exact ⟨b, List.mem_cons_self, (max_eq_left hb).symm⟩
    · have hm : greatest (b :: accepted) = greatest accepted := max_eq_right (le_of_not_ge hb)
      obtain ⟨a, ha, he⟩ := ih (by omega)
      exact ⟨a, List.mem_cons_of_mem b ha, he.trans hm.symm⟩

theorem ringSlot_eq_iff {a b : UInt32} : ringSlot a = ringSlot b ↔ a.toNat % 16 = b.toNat % 16 := by
  simp [ringSlot, Fin.ext_iff]

theorem uint32Max_iff {v : UInt32} : v = uint32Max ↔ v.toNat = 4294967295 := by
  rw [← UInt32.toNat_inj]
  rfl

theorem zero_iff {v : UInt32} : v = 0 ↔ v.toNat = 0 := by
  rw [← UInt32.toNat_inj]
  rfl

theorem accept_arith (state : LabSequence) (seq : UInt32) :
    (state.next ≤ seq → (seq - state.next).toNat + state.next.toNat = seq.toNat) ∧
    (seq < state.next → (state.next - seq).toNat + seq.toNat = state.next.toNat) ∧
    (seq ≠ uint32Max → (seq + 1).toNat = seq.toNat + 1) := by
  refine ⟨?_, ?_, ?_⟩
  · intro h
    rw [UInt32.toNat_sub_of_le _ _ h]
    exact Nat.sub_add_cancel (UInt32.le_iff_toNat_le.mp h)
  · intro h
    have hle := (UInt32.lt_iff_toNat_lt.mp h).le
    rw [UInt32.toNat_sub_of_le _ _ (UInt32.le_iff_toNat_le.mpr hle)]
    exact Nat.sub_add_cancel hle
  · intro h
    rw [ne_eq, uint32Max_iff] at h
    have hlt := seq.toNat_lt
    have hone : (1 : UInt32).toNat = 1 := rfl
    rw [UInt32.toNat_add]
    omega

/-- Every branch of a call, over the natural numbers. -/
theorem accept_cases (state : LabSequence) (seq : UInt32) :
    (state.accept seq).2 = .ok ∧ 0 < seq.toNat ∧ seq.toNat < 4294967295 ∧
      state.next.toNat ≠ 4294967295 ∧ seq.toNat ≤ state.next.toNat + 8 ∧
      state.next.toNat ≤ seq.toNat + 16 ∧
      (seq.toNat < state.next.toNat → state.seen[ringSlot seq] ≠ seq) ∧
      (state.accept seq).1.next.toNat = max state.next.toNat (seq.toNat + 1) ∧
      (state.accept seq).1.seen = state.seen.set (ringSlot seq) seq ∨
    (state.accept seq).2 = .replay ∧ (state.accept seq).1 = state ∧
      state.next.toNat ≠ 4294967295 ∧ seq.toNat < state.next.toNat ∧ 0 < seq.toNat ∧
      state.next.toNat ≤ seq.toNat + 16 ∧ state.seen[ringSlot seq] = seq ∨
    (state.accept seq).2 ≠ .ok ∧ (state.accept seq).2 ≠ .replay ∧ (state.accept seq).1 = state ∧
      (seq.toNat = 0 ∨ seq.toNat = 4294967295 ∨ state.next.toNat = 4294967295 ∨
        state.next.toNat + 8 < seq.toNat ∨ seq.toNat + 16 < state.next.toNat) := by
  obtain ⟨hsub, hsub', hadd⟩ := accept_arith state seq
  have h8 : (8 : UInt32).toNat = 8 := rfl
  have h16 : (16 : UInt32).toNat = 16 := rfl
  have hlt := seq.toNat_lt
  simp only [LabSequence.accept, UInt32.lt_iff_toNat_lt, UInt32.le_iff_toNat_le] at hsub hsub' ⊢
  by_cases hz : seq = 0
  · simp [hz]
  · rw [if_neg hz]
    rw [zero_iff] at hz
    by_cases hm : seq = uint32Max ∨ state.next = uint32Max
    · rw [if_pos hm]
      rw [uint32Max_iff, uint32Max_iff] at hm
      exact .inr (.inr ⟨by simp, by simp, rfl, by omega⟩)
    · rw [if_neg hm]
      rw [not_or] at hm
      have hadd := hadd hm.1
      rw [uint32Max_iff, uint32Max_iff] at hm
      by_cases hle : state.next.toNat ≤ seq.toNat
      · have hsub := hsub hle
        rw [if_pos hle]
        by_cases hfar : (8 : UInt32).toNat < (seq - state.next).toNat
        · rw [if_pos hfar]
          exact .inr (.inr ⟨by simp, by simp, rfl, by omega⟩)
        · rw [if_neg hfar]
          refine .inl ⟨rfl, by omega, by omega, hm.2, by omega, by omega, by omega, ?_, rfl⟩
          rw [hadd]
          omega
      · have hsub := hsub' (by omega)
        rw [if_neg hle]
        by_cases hfar : (16 : UInt32).toNat < (state.next - seq).toNat
        · rw [if_pos hfar]
          exact .inr (.inr ⟨by simp, by simp, rfl, by omega⟩)
        · rw [if_neg hfar]
          by_cases hs : state.seen[ringSlot seq] = seq
          · rw [if_pos hs]
            exact .inr (.inl ⟨rfl, rfl, hm.2, by omega, by omega, by omega, hs⟩)
          · rw [if_neg hs]
            refine .inl ⟨rfl, by omega, by omega, hm.2, by omega, by omega, fun _ => hs, ?_, rfl⟩
            change state.next.toNat = _
            omega

/-- Inside the window a slot tells whether its value has been accepted. -/
theorem RingInv.seen_iff {state : LabSequence} {accepted : List UInt32} {seq : UInt32}
    (h : RingInv state accepted) (hpos : 0 < seq.toNat)
    (hlow : greatest accepted + 1 ≤ seq.toNat + 16) :
    state.seen[ringSlot seq] = seq ↔ seq ∈ accepted := by
  rw [← UInt32.toNat_inj, h.slot]
  constructor
  · intro he
    obtain ⟨a, ha, heq⟩ := greatest_mem (he ▸ hpos)
    rw [List.mem_filter] at ha
    rw [← UInt32.toNat_inj.mp (heq.trans he)]
    exact ha.1
  · intro hm
    apply le_antisymm
    · apply greatest_le
      intro a ha
      obtain ⟨ha, hs⟩ := List.mem_filter.mp ha
      have hmod := ringSlot_eq_iff.mp (of_decide_eq_true hs)
      have hle := le_greatest ha
      omega
    · exact le_greatest (List.mem_filter.mpr ⟨hm, decide_eq_true rfl⟩)

theorem RingInv.fresh_start : RingInv .fresh [] := by
  constructor
  · rfl
  · intro j
    simp [LabSequence.fresh, greatest]
  · simp
  · simp

theorem greatest_cons (a : UInt32) (accepted : List UInt32) :
    greatest (a :: accepted) = max a.toNat (greatest accepted) := rfl

theorem RingInv.call {state : LabSequence} {accepted : List UInt32} (h : RingInv state accepted)
    (seq : UInt32) : RingInv (sequenceCall (state, accepted) seq).1
      (sequenceCall (state, accepted) seq).2 := by
  rcases accept_cases state seq with ⟨hok, hpos, hlt, _, hhigh, hlow, hslot, hnext, hseen⟩ |
    ⟨hr, hs, _⟩ | ⟨hok, _, hs, _⟩
  · have hnew : seq ∉ accepted := by
      intro hm
      have hle := le_greatest hm
      have hn := h.next
      by_cases hlt : seq.toNat < state.next.toNat
      · have hseen := (h.seen_iff hpos (by omega)).mpr hm
        exact hslot hlt hseen
      · omega
    simp only [sequenceCall, hok, if_true]
    constructor
    · rw [hnext, h.next, greatest_cons]
      omega
    · intro j
      rw [hseen, Fin.getElem_fin, Vector.getElem_set]
      by_cases hj : ringSlot seq = j
      · have htop : greatest (accepted.filter (fun a => ringSlot a = j)) ≤ seq.toNat := by
          apply greatest_le
          intro a ha
          obtain ⟨ha, hs⟩ := List.mem_filter.mp ha
          have hmod := ringSlot_eq_iff.mp ((of_decide_eq_true hs).trans hj.symm)
          have hle := le_greatest ha
          have hn := h.next
          omega
        rw [if_pos (by rw [hj]), List.filter_cons, if_pos (decide_eq_true hj), greatest_cons,
          max_eq_left htop]
      · rw [if_neg (by simpa [Fin.ext_iff] using hj), List.filter_cons, if_neg (by simpa using hj)]
        exact h.slot j
    · intro a ha
      rcases List.mem_cons.mp ha with rfl | ha
      · exact ⟨hpos, hlt⟩
      · exact h.range a ha
    · exact List.nodup_cons.mpr ⟨hnew, h.once⟩
  · simpa [sequenceCall, hr, hs] using h
  · simpa [sequenceCall, hok, hs] using h

theorem ringInv_of_run (calls : List UInt32) :
    RingInv (sequenceRun calls).1 (sequenceRun calls).2 := by
  induction calls using List.reverseRecOn with
  | nil => exact RingInv.fresh_start
  | append_singleton calls seq ih =>
    rw [sequenceRun, List.foldl_append]
    exact ih.call seq

section

variable {state : LabSequence} {accepted : List UInt32}

theorem RingInv.ok_iff (h : RingInv state accepted) (seq : UInt32) :
    (state.accept seq).2 = .ok ↔ 0 < seq.toNat ∧ seq.toNat < uint32Max.toNat ∧
      greatest accepted + 1 ≠ uint32Max.toNat ∧ seq.toNat ≤ greatest accepted + 9 ∧
      greatest accepted + 1 ≤ seq.toNat + 16 ∧ seq ∉ accepted := by
  have hn := h.next
  rw [show uint32Max.toNat = 4294967295 from rfl]
  rcases accept_cases state seq with ⟨hok, hpos, hlt, hex, hhigh, hlow, hslot, _⟩ |
    ⟨hr, _, hex, hlt, hpos, hlow, hs⟩ | ⟨hok, _, _, hout⟩
  · refine iff_of_true hok ⟨hpos, hlt, by omega, by omega, by omega, ?_⟩
    intro hm
    have hle := le_greatest hm
    exact hslot (by omega) ((h.seen_iff hpos (by omega)).mpr hm)
  · refine iff_of_false (by simp [hr]) ?_
    rintro ⟨_, _, _, _, _, hnew⟩
    exact hnew ((h.seen_iff hpos (by omega)).mp hs)
  · refine iff_of_false hok ?_
    rintro ⟨hpos, hlt, hex, hhigh, hlow, _⟩
    omega

theorem RingInv.replay_iff (h : RingInv state accepted) (seq : UInt32) :
    (state.accept seq).2 = .replay ↔ greatest accepted + 1 ≠ uint32Max.toNat ∧
      greatest accepted + 1 ≤ seq.toNat + 16 ∧ seq ∈ accepted := by
  have hn := h.next
  rw [show uint32Max.toNat = 4294967295 from rfl]
  rcases accept_cases state seq with ⟨hok, hpos, _, _, _, hlow, hslot, _⟩ |
    ⟨hr, _, hex, hlt, hpos, hlow, hs⟩ | ⟨_, hr, _, hout⟩
  · refine iff_of_false (by simp [hok]) ?_
    rintro ⟨_, _, hm⟩
    have hle := le_greatest hm
    exact hslot (by omega) ((h.seen_iff hpos (by omega)).mpr hm)
  · exact iff_of_true hr ⟨by omega, by omega, (h.seen_iff hpos (by omega)).mp hs⟩
  · refine iff_of_false hr ?_
    rintro ⟨hex, hlow, hm⟩
    have hle := le_greatest hm
    have hrange := h.range seq hm
    omega

end

theorem accept_closing {state : LabSequence} {seq : UInt32} (h : (state.accept seq).2 = .closing) :
    seq = uint32Max ∨ state.next = uint32Max := by
  simp only [LabSequence.accept] at h
  split at h
  · cases h
  · split at h
    · assumption
    · repeat' split at h
      all_goals cases h

theorem accept_refused {state : LabSequence} {seq : UInt32} (h : (state.accept seq).2 ≠ .ok) :
    (state.accept seq).1 = state := by
  rcases accept_cases state seq with ⟨hok, _⟩ | ⟨_, hs, _⟩ | ⟨_, _, hs, _⟩
  · exact absurd hok h
  · exact hs
  · exact hs

/-- The ring answers as the set of accepted values does: a value passes once
and only inside the window, and a replay inside the window is told apart as
long as the session is not exhausted. -/
theorem replay_window_exact (calls : List UInt32) (seq : UInt32) :
    (sequenceRun calls).1.next.toNat = greatest (sequenceRun calls).2 + 1 ∧
    (((sequenceRun calls).1.accept seq).2 = .ok ↔
      0 < seq.toNat ∧ seq.toNat < uint32Max.toNat ∧
      greatest (sequenceRun calls).2 + 1 ≠ uint32Max.toNat ∧
      seq.toNat ≤ greatest (sequenceRun calls).2 + 9 ∧
      greatest (sequenceRun calls).2 + 1 ≤ seq.toNat + 16 ∧ seq ∉ (sequenceRun calls).2) ∧
    (((sequenceRun calls).1.accept seq).2 = .replay ↔
      greatest (sequenceRun calls).2 + 1 ≠ uint32Max.toNat ∧
      greatest (sequenceRun calls).2 + 1 ≤ seq.toNat + 16 ∧ seq ∈ (sequenceRun calls).2) ∧
    (((sequenceRun calls).1.accept seq).2 ≠ .ok →
      ((sequenceRun calls).1.accept seq).1 = (sequenceRun calls).1) ∧
    ((sequenceRun calls).1.next ≤ seq → (seq - (sequenceRun calls).1.next).toNat +
      (sequenceRun calls).1.next.toNat = seq.toNat) ∧
    (seq < (sequenceRun calls).1.next → ((sequenceRun calls).1.next - seq).toNat + seq.toNat =
      (sequenceRun calls).1.next.toNat) ∧
    (seq ≠ uint32Max → (seq + 1).toNat = seq.toNat + 1) ∧
    (sequenceRun calls).2.Nodup := by
  have h := ringInv_of_run calls
  obtain ⟨hsub, hsub', hadd⟩ := accept_arith (sequenceRun calls).1 seq
  exact ⟨h.next, h.ok_iff seq, h.replay_iff seq, accept_refused, hsub, hsub', hadd, h.once⟩

def strides (n : ℕ) : List UInt32 := (List.range n).map (fun k => UInt32.ofNat (9 * (k + 1)))

theorem sequenceRun_snoc (calls : List UInt32) (seq : UInt32) :
    sequenceRun (calls ++ [seq]) = sequenceCall (sequenceRun calls) seq := by
  simp [sequenceRun]

/-- A value at most nine past the greatest is accepted and becomes the greatest. -/
theorem sequenceRun_stride {calls : List UInt32} {seq : UInt32}
    (hlow : greatest (sequenceRun calls).2 < seq.toNat)
    (hhigh : seq.toNat ≤ greatest (sequenceRun calls).2 + 9) (hmax : seq.toNat < uint32Max.toNat) :
    seq ∈ (sequenceRun (calls ++ [seq])).2 ∧
      greatest (sequenceRun (calls ++ [seq])).2 = seq.toNat := by
  have hnew : seq ∉ (sequenceRun calls).2 := fun hm => absurd (le_greatest hm) (by omega)
  have hok : ((sequenceRun calls).1.accept seq).2 = .ok :=
    ((ringInv_of_run calls).ok_iff seq).mpr ⟨by omega, hmax, by omega, hhigh, by omega, hnew⟩
  rw [sequenceRun_snoc]
  simp only [sequenceCall, hok, if_true, greatest_cons]
  exact ⟨List.mem_cons_self, max_eq_left hlow.le⟩

theorem strides_greatest {n : ℕ} (h : 9 * n < uint32Max.toNat) :
    greatest (sequenceRun (strides n)).2 = 9 * n := by
  have hmax : uint32Max.toNat = 4294967295 := rfl
  induction n with
  | zero => rfl
  | succ n ih =>
    have hv : (UInt32.ofNat (9 * (n + 1))).toNat = 9 * (n + 1) := by
      rw [UInt32.toNat_ofNat']
      omega
    have hn := ih (by omega)
    have hs : strides (n + 1) = strides n ++ [UInt32.ofNat (9 * (n + 1))] := by
      simp [strides, List.range_succ]
    rw [hs, (sequenceRun_stride (by omega) (by omega) (by omega)).2, hv]

/-- After the last value of a session, a replay inside the window is answered
with `CLOSING`. -/
theorem replay_window_closing :
    (4294967294 : UInt32) ∈ (sequenceRun (strides 477218588 ++ [4294967294])).2 ∧
      greatest (sequenceRun (strides 477218588 ++ [4294967294])).2 + 1 ≤
        (4294967294 : UInt32).toNat + 16 ∧
      ((sequenceRun (strides 477218588 ++ [4294967294])).1.accept 4294967294).2 = .closing := by
  have hmax : uint32Max.toNat = 4294967295 := rfl
  have hval : (4294967294 : UInt32).toNat = 4294967294 := rfl
  have hn := strides_greatest (n := 477218588) (by omega)
  obtain ⟨hm, hg⟩ := @sequenceRun_stride (strides 477218588) 4294967294
    (by omega) (by omega) (by omega)
  have hnext := (ringInv_of_run (strides 477218588 ++ [4294967294])).next
  refine ⟨hm, by omega, ?_⟩
  rw [LabSequence.accept, if_neg (by decide), if_pos (.inr (uint32Max_iff.mpr (by omega)))]

end ArenaLab
