import ArenaLab.Checked
import ArenaLab.WireBytes

/-! The replay of an IMA log, as `ima_replay` reads it: a stream of records for
PCR 10, each extended into the register. -/

namespace ArenaLab

inductive ImaError
  | byteLimit
  | truncatedRecord
  | recordLimit
  | unsupportedPcr
  | templateNameSize
  | unsupportedTemplate
  | templateDataSize
  | invalidTemplateFields
  | imaViolation
  | templateDigestMismatch
  | emptyLog
  deriving DecidableEq

def ImaError.text : ImaError → String
  | .byteLimit => "BYTE_LIMIT"
  | .truncatedRecord => "TRUNCATED_RECORD"
  | .recordLimit => "RECORD_LIMIT"
  | .unsupportedPcr => "UNSUPPORTED_PCR"
  | .templateNameSize => "TEMPLATE_NAME_SIZE"
  | .unsupportedTemplate => "UNSUPPORTED_TEMPLATE"
  | .templateDataSize => "TEMPLATE_DATA_SIZE"
  | .invalidTemplateFields => "INVALID_TEMPLATE_FIELDS"
  | .imaViolation => "IMA_VIOLATION"
  | .templateDigestMismatch => "TEMPLATE_DIGEST_MISMATCH"
  | .emptyLog => "EMPTY_LOG"

def maxBytes : ℕ := 64 * 1024 * 1024
def maxData : ℕ := 65536
def maxRecords : ℕ := 100000

abbrev Ima (α : Type) := Checked.Run ImaError α

/-- The bytes that the file still holds, those that have been read, and the
number of calls to `read`. -/
structure ImaInput where
  rest : List UInt8
  bytes : ℕ
  reads : ℕ

def le32 (buf : List UInt8) (off : ℕ) : Ima ℕ :=
  if off + 4 ≤ buf.length then .ok (get32 buf off).toNat else .error .outOfRange

/-- The loop of `take` into a buffer with `room` bytes; the `k`-th call to
`read` returns at most `reader k + 1` bytes, and none at the end of the file only. -/
def takeLoop (reader : ℕ → ℕ) (room length : ℕ) :
    ℕ → List UInt8 → ImaInput → Ima (Option (List UInt8) × ImaInput)
  | fuel, out, inp =>
    if out.length < length then
      match fuel with
      | 0 => .error .outOfFuel
      | fuel + 1 => (Checked.sub length out.length).bind fun want =>
        if room < out.length + want then .error .outOfRange
        else
          let n := min (min want (reader inp.reads + 1)) inp.rest.length
          if n = 0 then
            if out.length = 0 then .ok (none, inp) else .error (.reject .truncatedRecord)
          else takeLoop reader room length fuel (out ++ inp.rest.take n)
            ⟨inp.rest.drop n, inp.bytes + n, inp.reads + 1⟩
    else .ok (some out, inp)

/-- `take`: the bytes, or nothing at the end of the file. -/
def take (reader : ℕ → ℕ) (room length : ℕ) (inp : ImaInput) : Ima (Option (List UInt8) × ImaInput) :=
  (Checked.sub maxBytes inp.bytes).bind fun left =>
    if left < length then .error (.reject .byteLimit)
    else takeLoop reader room length length [] inp

/-- A call to `take` that must not meet the end of the file. -/
def takeAll (reader : ℕ → ℕ) (room length : ℕ) (inp : ImaInput) : Ima (List UInt8 × ImaInput) :=
  (take reader room length inp).bind fun r =>
    match r.1 with
    | some bytes => .ok (bytes, r.2)
    | none => .error (.reject .truncatedRecord)

def ascii (s : String) : List UInt8 := s.toList.map (fun c => UInt8.ofNat c.toNat)

/-- The algorithms that `digest_field` knows: the prefix with its NUL, and the
length of the digest. -/
def digestNames : List (List UInt8 × ℕ) :=
  [(ascii "sha1:" ++ [0], 20), (ascii "sha256:" ++ [0], 32), (ascii "sha384:" ++ [0], 48),
    (ascii "sha512:" ++ [0], 64)]

def digestLoop (data : List UInt8) (off size : ℕ) : List (List UInt8 × ℕ) → Ima Bool
  | [] => .ok false
  | (name, length) :: names =>
    if size = name.length + length then
      (Checked.slice data off name.length).bind fun found =>
        if found = name then .ok true else digestLoop data off size names
    else digestLoop data off size names

def digestField (data : List UInt8) (off size : ℕ) : Ima Bool := digestLoop data off size digestNames

/-- The test of `fields_valid` on the second field. -/
def pathField (data : List UInt8) (off length : ℕ) : Ima Bool :=
  if length = 0 ∨ 4096 < length then .ok false
  else (Checked.sub (off + length) 1).bind fun last =>
    (Checked.slice data last 1).bind fun final =>
      if final ≠ [0] then .ok false
      else (Checked.sub length 1).bind fun n =>
        (Checked.slice data off n).bind fun path => .ok (!path.contains 0)

/-- The loop of `fields_valid` from the given field on. -/
def fieldsLoop (data : List UInt8) (size : ℕ) : ℕ → ℕ → ℕ → Ima Bool
  | 0, _, offset => .ok (offset = size)
  | todo + 1, field, offset =>
    (Checked.sub size offset).bind fun left =>
      if left < 4 then .ok false
      else (le32 data offset).bind fun length =>
        (Checked.sub size (offset + 4)).bind fun left =>
          if left < length then .ok false
          else (if field = 0 then digestField data (offset + 4) length else .ok true).bind fun known =>
            if !known then .ok false
            else (if field = 1 then pathField data (offset + 4) length else .ok true).bind fun path =>
              if !path then .ok false
              else fieldsLoop data size todo (field + 1) (offset + 4 + length)

def fieldsValid (data : List UInt8) (size fields : ℕ) : Ima Bool := fieldsLoop data size fields 0 0

/-- The number of fields of a template. -/
def templateFields (name : List UInt8) : Ima ℕ :=
  if name = ascii "ima-ng" then .ok 2
  else if name = ascii "ima-sig" then .ok 3
  else .error (.reject .unsupportedTemplate)

def zero32 : Bytes 32 := Vector.replicate 32 0

/-- The end of one round of `replay`: the digest is checked and the register extended. -/
def extend (H : List UInt8 → Bytes 32) (pcr : Bytes 32) (header data : List UInt8) : Ima (Bytes 32) :=
  (Checked.slice header 4 32).bind fun expected =>
    if expected = zero32.toList then .error (.reject .imaViolation)
    else
      let digest := H data
      if digest.toList ≠ expected then .error (.reject .templateDigestMismatch)
      else .ok (H (pcr.toList ++ digest.toList))

/-- The template data of a record and its check. -/
def takeData (reader : ℕ → ℕ) (fields : ℕ) (inp : ImaInput) : Ima (List UInt8 × ImaInput) :=
  (takeAll reader 4 4 inp).bind fun r =>
    (le32 r.1 0).bind fun length =>
      if length = 0 ∨ maxData < length then .error (.reject .templateDataSize)
      else (takeAll reader maxData length r.2).bind fun r =>
        (fieldsValid r.1 length fields).bind fun valid =>
          if !valid then .error (.reject .invalidTemplateFields) else .ok r

/-- The template name of a record, as its number of fields. -/
def takeTemplate (reader : ℕ → ℕ) (header : List UInt8) (inp : ImaInput) : Ima (ℕ × ImaInput) :=
  (le32 header 36).bind fun length =>
    if length = 0 ∨ 32 < length then .error (.reject .templateNameSize)
    else (takeAll reader 32 length inp).bind fun r =>
      (templateFields r.1).bind fun fields => .ok (fields, r.2)

/-- One round of `replay`: the register after the next record, or nothing at the
end of the log. -/
def replayRecord (H : List UInt8 → Bytes 32) (reader : ℕ → ℕ) (records : ℕ) (pcr : Bytes 32)
    (inp : ImaInput) : Ima (Option (Bytes 32) × ImaInput) :=
  (take reader 40 4 inp).bind fun r =>
    match r.1 with
    | none => .ok (none, r.2)
    | some word =>
      if maxRecords ≤ records then .error (.reject .recordLimit)
      else (takeAll reader (40 - 4) 36 r.2).bind fun r =>
        let header := word ++ r.1
        (le32 header 0).bind fun index =>
          if index ≠ 10 then .error (.reject .unsupportedPcr)
          else (takeTemplate reader header r.2).bind fun r =>
            (takeData reader r.1 r.2).bind fun r =>
              (extend H pcr header r.1).bind fun pcr => .ok (some pcr, r.2)

structure Replayed where
  records : ℕ
  pcr : Bytes 32
  deriving DecidableEq

def replayLoop (H : List UInt8 → Bytes 32) (reader : ℕ → ℕ) :
    ℕ → ℕ → Bytes 32 → ImaInput → Ima Replayed
  | 0, _, _, _ => .error .outOfFuel
  | fuel + 1, records, pcr, inp =>
    (replayRecord H reader records pcr inp).bind fun r =>
      match r.1 with
      | none => if records = 0 then .error (.reject .emptyLog) else .ok ⟨records, pcr⟩
      | some pcr => replayLoop H reader fuel (records + 1) pcr r.2

/-- `replay` of a whole file. -/
def replay (H : List UInt8 → Bytes 32) (reader : ℕ → ℕ) (log : List UInt8) : Ima Replayed :=
  replayLoop H reader (maxRecords + 1) 0 zero32 ⟨log, 0, 0⟩

section

variable {reader : ℕ → ℕ} {room length : ℕ} {inp : ImaInput}

theorem le32_eq {buf : List UInt8} {off : ℕ} (h : off + 4 ≤ buf.length) :
    le32 buf off = .ok (LittleEndian.value ((buf.drop off).take 4)) := by
  rw [le32, if_pos h, get32_toNat buf h]

theorem takeLoop_full (reader : ℕ → ℕ) (hroom : length ≤ room) (fuel : ℕ) (out : List UInt8) (inp : ImaInput)
    (hout : out.length ≤ length) (hfuel : length - out.length ≤ fuel)
    (hrest : length ≤ out.length + inp.rest.length) : ∃ reads,
      takeLoop reader room length fuel out inp =
        .ok (some (out ++ inp.rest.take (length - out.length)),
          ⟨inp.rest.drop (length - out.length), inp.bytes + (length - out.length), reads⟩) := by
  induction fuel generalizing out inp with
  | zero =>
    have hdone : length - out.length = 0 := by omega
    refine ⟨inp.reads, ?_⟩
    rw [takeLoop, if_neg (by omega), hdone]
    simp
  | succ fuel ih =>
    by_cases hlt : out.length < length
    · have hn : ∃ n, min (min (length - out.length) (reader inp.reads + 1)) inp.rest.length = n ∧
          0 < n ∧ n ≤ length - out.length ∧ n ≤ inp.rest.length := ⟨_, rfl, by omega, by omega, by omega⟩
      obtain ⟨n, hmin, hpos, hwant, hle⟩ := hn
      have htake : (inp.rest.take n).length = n := List.length_take_of_le hle
      obtain ⟨reads, hr⟩ := ih (out ++ inp.rest.take n) ⟨inp.rest.drop n, inp.bytes + n, inp.reads + 1⟩
        (by rw [List.length_append, htake]; omega) (by rw [List.length_append, htake]; omega)
        (by rw [List.length_append, htake, List.length_drop]; omega)
      refine ⟨reads, ?_⟩
      rw [takeLoop, if_pos hlt, Checked.sub_eq (by omega)]
      simp only [Except.bind]
      rw [if_neg (by omega), hmin, if_neg (by omega), hr, List.length_append, htake]
      have hsub : length - (out.length + n) = length - out.length - n := by omega
      have hsum : n + (length - out.length - n) = length - out.length := by omega
      simp only [hsub, List.append_assoc, List.drop_drop, hsum, Nat.add_assoc]
      rw [← hsum, List.take_add, hsum]
    · have hdone : length - out.length = 0 := by omega
      refine ⟨inp.reads, ?_⟩
      rw [takeLoop, if_neg hlt, hdone]
      simp

theorem takeLoop_short (hroom : length ≤ room) (fuel : ℕ) (out : List UInt8) (inp : ImaInput)
    (hfuel : length - out.length ≤ fuel) (hrest : out.length + inp.rest.length < length) :
    takeLoop reader room length fuel out inp =
      if out = [] ∧ inp.rest = [] then .ok (none, inp) else .error (.reject .truncatedRecord) := by
  induction fuel generalizing out inp with
  | zero => omega
  | succ fuel ih =>
    rw [takeLoop, if_pos (by omega), Checked.sub_eq (by omega)]
    simp only [Except.bind]
    rw [if_neg (by omega)]
    by_cases hend : inp.rest = []
    · simp only [hend, List.length_nil, Nat.min_zero, if_true, and_true, List.length_eq_zero_iff]
    · have hpos := List.length_pos_iff.mpr hend
      have hn : ∃ n, min (min (length - out.length) (reader inp.reads + 1)) inp.rest.length = n ∧
          0 < n ∧ n ≤ inp.rest.length := ⟨_, rfl, by omega, by omega⟩
      obtain ⟨n, hmin, hn0, hle⟩ := hn
      have htake : (inp.rest.take n).length = n := List.length_take_of_le hle
      rw [hmin, if_neg (by omega), ih _ _ (by rw [List.length_append, htake]; omega)
        (by rw [List.length_append, htake, List.length_drop]; omega)]
      have hne : inp.rest.take n ≠ [] := by
        intro hf
        rw [hf] at htake
        simp at htake
        omega
      rw [if_neg (by simp [hne]), if_neg (by simp [hend])]

theorem take_cases (reader : ℕ → ℕ) (room : ℕ) (hroom : length ≤ room) (hb : inp.bytes ≤ maxBytes) :
    (∃ reads, length ≤ inp.rest.length ∧ inp.bytes + length ≤ maxBytes ∧
      take reader room length inp = .ok (some (inp.rest.take length),
        ⟨inp.rest.drop length, inp.bytes + length, reads⟩)) ∨
    inp.rest = [] ∧ inp.bytes + length ≤ maxBytes ∧ take reader room length inp = .ok (none, inp) ∨
    (maxBytes < inp.bytes + length ∨ inp.rest ≠ [] ∧ inp.rest.length < length) ∧
      ∃ reason, take reader room length inp = .error (.reject reason) := by
  rw [take, Checked.sub_eq hb]
  simp only [Except.bind]
  by_cases hlimit : maxBytes - inp.bytes < length
  · rw [if_pos hlimit]
    exact .inr (.inr ⟨.inl (by omega), _, rfl⟩)
  · rw [if_neg hlimit]
    by_cases hrest : length ≤ inp.rest.length
    · obtain ⟨reads, hr⟩ := takeLoop_full reader hroom length [] inp (by simp) (by simp)
        (by simpa using hrest)
      exact .inl ⟨reads, hrest, by omega, by simpa using hr⟩
    · rw [takeLoop_short hroom length [] inp (by simp) (by simp; omega)]
      by_cases hend : inp.rest = []
      · exact .inr (.inl ⟨hend, by omega, by simp [hend]⟩)
      · refine .inr (.inr ⟨.inr ⟨hend, by omega⟩, .truncatedRecord, ?_⟩)
        simp [hend]

theorem takeAll_meets (reader : ℕ → ℕ) (hroom : length ≤ room) (hb : inp.bytes ≤ maxBytes) :
    Checked.Meets (takeAll reader room length inp) (fun r => r.1.length = length ∧
      inp.rest = r.1 ++ r.2.rest ∧ r.2.bytes = inp.bytes + length ∧ r.2.bytes ≤ maxBytes) := by
  rw [takeAll]
  rcases take_cases reader room hroom hb with ⟨reads, hlen, hle, he⟩ | ⟨_, _, he⟩ | ⟨_, reason, he⟩
  · rw [he]
    exact ⟨List.length_take_of_le hlen, (List.take_append_drop length inp.rest).symm, rfl, hle⟩
  · rw [he]
    trivial
  · rw [he]
    trivial

theorem take_append (reader : ℕ → ℕ) (room length : ℕ) (xs tail : List UInt8) (bytes reads : ℕ)
    (hroom : length ≤ room) (hpos : 0 < length) (hlen : xs.length = length)
    (hb : bytes + length ≤ maxBytes) :
    ∃ reads', take reader room length ⟨xs ++ tail, bytes, reads⟩ =
      .ok (some xs, ⟨tail, bytes + length, reads'⟩) := by
  have hcases := @take_cases length ⟨xs ++ tail, bytes, reads⟩ reader room hroom
    (by simp only; omega)
  rcases hcases with ⟨reads', _, _, he⟩ | ⟨hf, _⟩ | ⟨hf, _⟩
  · refine ⟨reads', ?_⟩
    rw [he]
    simp only [List.take_left' hlen, List.drop_left' hlen]
  · have hl := congrArg List.length hf
    simp only [List.length_append, List.length_nil] at hl
    omega
  · simp only [List.length_append] at hf
    omega

theorem takeAll_append (reader : ℕ → ℕ) (room length : ℕ) (xs tail : List UInt8) (bytes reads : ℕ)
    (hroom : length ≤ room) (hpos : 0 < length) (hlen : xs.length = length)
    (hb : bytes + length ≤ maxBytes) :
    ∃ reads', takeAll reader room length ⟨xs ++ tail, bytes, reads⟩ =
      .ok (xs, ⟨tail, bytes + length, reads'⟩) := by
  obtain ⟨reads', he⟩ := take_append reader room length xs tail bytes reads hroom hpos hlen hb
  exact ⟨reads', by rw [takeAll, he]; rfl⟩

end

end ArenaLab
