import ArenaLab.HexText
import Mathlib.Data.List.Basic
import Mathlib.Tactic.Common

/-! Payloads in a byte stream, each behind its length in four bytes, and what a
reader finds that has only a prefix of the stream. -/

namespace Framing

open HexText

/-- The length that the first four bytes announce. -/
def header : List UInt8 → Option ℕ
  | a :: b :: c :: d :: _ => some (a.toNat * 16777216 + b.toNat * 65536 + c.toNat * 256 + d.toNat)
  | _ => none

def encode (payload : List UInt8) : List UInt8 := bigEndian 4 payload.length ++ payload

/-- The stream of a list of payloads. -/
def stream (payloads : List (List UInt8)) : List UInt8 := (payloads.map encode).flatten

theorem header_isSome {bytes : List UInt8} : (header bytes).isSome = true ↔ 4 ≤ bytes.length := by
  match bytes with
  | [] => simp [header]
  | [_] => simp [header]
  | [_, _] => simp [header]
  | [_, _, _] => simp [header]
  | _ :: _ :: _ :: _ :: _ => simp [header]

theorem header_append {bytes : List UInt8} {n : ℕ} (h : header bytes = some n) (rest : List UInt8) :
    header (bytes ++ rest) = some n := by
  match bytes, h with
  | a :: b :: c :: d :: _, h => exact h

theorem header_bigEndian {n : ℕ} (h : n < 4294967296) (rest : List UInt8) :
    header (bigEndian 4 n ++ rest) = some n := by
  simp only [bigEndian, List.nil_append, List.cons_append, header, UInt8.toNat_ofNat', Option.some.injEq]
  omega

section

variable {payloads : List (List UInt8)} {buffer wire : List UInt8} {n : ℕ}

/-- A reader that has the header of a frame is at a payload of the announced length. -/
theorem header_prefix (h : buffer ++ wire = stream payloads) (hlen : ∀ p ∈ payloads, p.length < 4294967296)
    (hh : header buffer = some n) : ∃ p ps, payloads = p :: ps ∧ p.length = n := by
  have hstream := header_append hh wire
  rw [h] at hstream
  cases payloads with
  | nil => cases hstream
  | cons p ps =>
    refine ⟨p, ps, rfl, ?_⟩
    have hp := header_bigEndian (hlen p List.mem_cons_self) (p ++ stream ps)
    have hcons : stream (p :: ps) = bigEndian 4 p.length ++ (p ++ stream ps) := by
      simp [stream, encode]
    rw [hcons, hp] at hstream
    exact Option.some.inj hstream

/-- Once the whole frame is there, it is the first payload and the stream goes on behind it. -/
theorem frame_prefix {p : List UInt8} {ps : List (List UInt8)} (h : buffer ++ wire = stream (p :: ps))
    (hlen : p.length + 4 ≤ buffer.length) :
    (buffer.drop 4).take p.length = p ∧ buffer.drop (p.length + 4) ++ wire = stream ps := by
  have hcons : stream (p :: ps) = encode p ++ stream ps := by simp [stream]
  have hsize : (encode p).length = p.length + 4 := by
    rw [encode, List.length_append, bigEndian_length]
    omega
  rw [hcons] at h
  obtain ⟨more, hmore, hwire⟩ : ∃ more, buffer = encode p ++ more ∧ more ++ wire = stream ps := by
    rcases List.append_eq_append_iff.mp h with ⟨more, hp, hrest⟩ | ⟨more, hp, hrest⟩
    · have hempty : more = [] := by
        have := congrArg List.length hp
        rw [hsize, List.length_append] at this
        exact List.eq_nil_of_length_eq_zero (by omega)
      subst hempty
      rw [List.append_nil] at hp
      exact ⟨[], by rw [hp, List.append_nil], hrest⟩
    · exact ⟨more, hp, hrest.symm⟩
  subst hmore
  refine ⟨?_, ?_⟩
  · rw [encode, List.append_assoc, List.drop_left' (bigEndian_length 4 _), List.take_left]
  · rw [List.drop_left' hsize]
    exact hwire

end

/-- The frames of a stream, one after the other, up to the first length that is not
valid or the first frame that is not complete. -/
def frames (valid : ℕ → Bool) (bytes : List UInt8) : List (List UInt8) :=
  match header bytes with
  | none => []
  | some n =>
    if _h : valid n = true ∧ n + 4 ≤ bytes.length then
      (bytes.drop 4).take n :: frames valid (bytes.drop (n + 4))
    else []
termination_by bytes.length
decreasing_by
  rw [List.length_drop]
  omega

section

variable {valid : ℕ → Bool} {ps : List (List UInt8)} {p rest bytes : List UInt8} {n : ℕ}

theorem header_take (h : header bytes = some n) : bytes.take 4 = bigEndian 4 n := by
  match bytes, h with
  | a :: b :: c :: d :: _, h =>
    obtain rfl := Option.some.inj h
    have ha := a.toNat_lt
    have hb := b.toNat_lt
    have hc := c.toNat_lt
    have hd := d.toNat_lt
    simp only [List.take_succ_cons, List.take_zero, bigEndian, List.nil_append, List.cons_append,
      List.cons.injEq, and_true, ← UInt8.toNat_inj, UInt8.toNat_ofNat']
    omega

theorem encode_eq (h : header bytes = some n) (hlen : bytes.length = n + 4) : encode (bytes.drop 4) = bytes := by
  rw [encode, List.length_drop, hlen, Nat.add_sub_cancel, ← header_take h, List.take_append_drop]

theorem header_encode (hp : p.length < 4294967296) (rest : List UInt8) :
    header (encode p ++ rest) = some p.length := by
  rw [encode, List.append_assoc]
  exact header_bigEndian hp _

theorem length_encode (p : List UInt8) : (encode p).length = p.length + 4 := by
  rw [encode, List.length_append, bigEndian_length]
  omega

theorem frames_incomplete (h : ∀ n, header bytes = some n → valid n = true → bytes.length < n + 4) :
    frames valid bytes = [] := by
  rw [frames]
  split
  · rfl
  · rename_i n hn
    rw [dif_neg]
    rintro ⟨hvalid, hlen⟩
    have hless := h n hn hvalid
    omega

theorem frames_encode (hp : p.length < 4294967296) (hvalid : valid p.length = true) (rest : List UInt8) :
    frames valid (encode p ++ rest) = p :: frames valid rest := by
  have hlen := length_encode p
  rw [frames]
  split
  · rename_i hnone
    rw [header_encode hp] at hnone
    cases hnone
  · rename_i n hn
    rw [header_encode hp] at hn
    obtain rfl := Option.some.inj hn
    rw [dif_pos ⟨hvalid, by rw [List.length_append]; omega⟩, ← hlen, List.drop_left, encode, List.append_assoc,
      List.drop_left' (bigEndian_length 4 _), List.take_left]

/-- Complete frames come off the front of the stream. -/
theorem frames_stream (hps : ∀ p ∈ ps, p.length < 4294967296 ∧ valid p.length = true) (rest : List UInt8) :
    frames valid (stream ps ++ rest) = ps ++ frames valid rest := by
  induction ps with
  | nil => rfl
  | cons p ps ih =>
    obtain ⟨hp, hvalid⟩ := hps p List.mem_cons_self
    have hcons : stream (p :: ps) ++ rest = encode p ++ (stream ps ++ rest) := by
      rw [stream, List.map_cons, List.flatten_cons, List.append_assoc]
      rfl
    rw [hcons, frames_encode hp hvalid, ih (fun q hq => hps q (List.mem_cons_of_mem _ hq)), List.cons_append]

theorem stream_cons (p : List UInt8) (ps : List (List UInt8)) : stream (p :: ps) = encode p ++ stream ps := by
  rw [stream, List.map_cons, List.flatten_cons, stream]

theorem stream_snoc (ps : List (List UInt8)) (p : List UInt8) : stream (ps ++ [p]) = stream ps ++ encode p := by
  simp [stream]

/-- The frames of a first part of a stream are its first payloads. -/
theorem frames_part (hps : ∀ p ∈ ps, p.length < 4294967296 ∧ valid p.length = true)
    (h : bytes ++ rest = stream ps) : frames valid bytes <+: ps := by
  induction ps generalizing bytes with
  | nil =>
    obtain rfl : bytes = [] := (List.append_eq_nil_iff.mp h).1
    have hnil : frames valid [] = [] := frames_incomplete (fun n hn => by cases hn)
    exact hnil.symm ▸ List.prefix_rfl
  | cons p ps ih =>
    obtain ⟨hp, hvalid⟩ := hps p List.mem_cons_self
    rw [stream_cons] at h
    have hwhole : ∀ more, bytes = encode p ++ more → more ++ rest = stream ps → frames valid bytes <+: p :: ps := by
      rintro more rfl hmore
      rw [frames_encode hp hvalid]
      exact List.cons_prefix_cons.mpr ⟨rfl, ih (fun q hq => hps q (List.mem_cons_of_mem _ hq)) hmore⟩
    rcases List.append_eq_append_iff.mp h with ⟨more, hfirst, hrest⟩ | ⟨more, hfirst, hrest⟩
    · by_cases hmore : more = []
      · subst hmore
        rw [List.append_nil] at hfirst
        exact hwhole [] (by rw [List.append_nil, hfirst]) hrest
      · rw [frames_incomplete]
        · exact List.nil_prefix
        · intro n hn hvalid
          have hp' := header_encode hp []
          rw [List.append_nil, hfirst, header_append hn] at hp'
          obtain rfl := Option.some.inj hp'
          have hlen := congrArg List.length hfirst
          rw [length_encode, List.length_append] at hlen
          have := List.length_pos_of_ne_nil hmore
          omega
    · exact hwhole more hfirst hrest.symm

end

end Framing
