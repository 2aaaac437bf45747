import ArenaLab.ImaGrammar
import ArenaLab.Sha256

/-! The limits of a replay: how many records and how many bytes it takes, the
request at the end of the file included. -/

namespace ArenaLab

/-- What a computation has taken from the file, it has counted. -/
structure ImaCounted (inp inp' : ImaInput) : Prop where
  total : inp'.bytes + inp'.rest.length = inp.bytes + inp.rest.length
  limit : inp'.bytes ≤ maxBytes

/-- The log is short enough in the count of its records and of its bytes. -/
def WithinLimits (rs : List ImaRecord) (log : List UInt8) : Prop :=
  rs.length ≤ maxRecords ∧ log.length ≤ maxBytes

/-- The log fits, but the request for the next record's first word does not. -/
def ProbeExceeds (rs : List ImaRecord) (log : List UInt8) : Prop :=
  rs.length ≤ maxRecords ∧ log.length ≤ maxBytes ∧ maxBytes < log.length + 4

def ReplayAccepts (H : List UInt8 → Bytes 32) (reader : ℕ → ℕ) (log : List UInt8) : Prop :=
  ∃ out, replay H reader log = .ok out

section

variable {H : List UInt8 → Bytes 32} {reader : ℕ → ℕ} {room length records fields : ℕ} {pcr : Bytes 32}
  {header data : List UInt8} {inp inp' inp'' : ImaInput} {rs : List ImaRecord}

theorem ImaCounted.trans (h : ImaCounted inp inp') (h' : ImaCounted inp' inp'') : ImaCounted inp inp'' :=
  ⟨h'.total.trans h.total, h'.limit⟩

theorem take_counted {found : Option (List UInt8)} (hroom : length ≤ room) (hb : inp.bytes ≤ maxBytes)
    (h : take reader room length inp = .ok (found, inp')) :
    ImaCounted inp inp' ∧ (found = none → inp.rest = [] ∧ inp.bytes + length ≤ maxBytes) := by
  rcases take_cases reader room hroom hb with ⟨reads, hlen, hle, he⟩ | ⟨hend, hle, he⟩ | ⟨_, reason, he⟩
  · rw [he] at h
    obtain ⟨rfl, rfl⟩ := Prod.mk.inj (Except.ok.inj h)
    refine ⟨⟨?_, hle⟩, fun hf => (by cases hf)⟩
    simp only [List.length_drop]
    omega
  · rw [he] at h
    obtain ⟨rfl, rfl⟩ := Prod.mk.inj (Except.ok.inj h)
    exact ⟨⟨rfl, hb⟩, fun _ => ⟨hend, hle⟩⟩
  · rw [he] at h
    cases h

theorem takeAll_counted {found : List UInt8} (hroom : length ≤ room) (hb : inp.bytes ≤ maxBytes)
    (h : takeAll reader room length inp = .ok (found, inp')) : ImaCounted inp inp' := by
  obtain ⟨⟨taken, next⟩, htake, h⟩ := Checked.bind_ok h
  cases taken with
  | none => cases h
  | some bytes =>
    obtain ⟨rfl, rfl⟩ := Prod.mk.inj (Except.ok.inj h)
    exact (take_counted hroom hb htake).1

theorem takeTemplate_counted {n : ℕ} (hb : inp.bytes ≤ maxBytes)
    (h : takeTemplate reader header inp = .ok (n, inp')) : ImaCounted inp inp' := by
  obtain ⟨size, _, h⟩ := Checked.bind_ok h
  split at h
  · cases h
  · rename_i hsize
    obtain ⟨⟨name, next⟩, hname, h⟩ := Checked.bind_ok h
    obtain ⟨t, _, h⟩ := Checked.bind_ok h
    obtain ⟨_, rfl⟩ := Prod.mk.inj (Except.ok.inj h)
    exact takeAll_counted (by omega) hb hname

theorem takeData_counted (hb : inp.bytes ≤ maxBytes)
    (h : takeData reader fields inp = .ok (data, inp')) : ImaCounted inp inp' := by
  obtain ⟨⟨word, mid⟩, hword, h⟩ := Checked.bind_ok h
  have hmid := takeAll_counted (Nat.le_refl 4) hb hword
  obtain ⟨size, _, h⟩ := Checked.bind_ok h
  split at h
  · cases h
  · rename_i hsize
    obtain ⟨⟨found, next⟩, hdata, h⟩ := Checked.bind_ok h
    have hnext := takeAll_counted (by omega) hmid.limit hdata
    obtain ⟨valid, _, h⟩ := Checked.bind_ok h
    split at h
    · cases h
    · obtain ⟨_, rfl⟩ := Prod.mk.inj (Except.ok.inj h)
      exact hmid.trans hnext

theorem replayRecord_counted {next : Option (Bytes 32)} (hb : inp.bytes ≤ maxBytes)
    (h : replayRecord H reader records pcr inp = .ok (next, inp')) :
    ImaCounted inp inp' ∧ (next = none → inp.rest = [] ∧ inp.bytes + 4 ≤ maxBytes) := by
  obtain ⟨⟨word, first⟩, hword, h⟩ := Checked.bind_ok h
  obtain ⟨hfirst, hend⟩ := take_counted (by omega) hb hword
  cases word with
  | none =>
    obtain ⟨rfl, rfl⟩ := Prod.mk.inj (Except.ok.inj h)
    exact ⟨hfirst, fun _ => hend rfl⟩
  | some word =>
    simp only at h
    split at h
    · cases h
    · obtain ⟨⟨body, second⟩, hbody, h⟩ := Checked.bind_ok h
      have hsecond := takeAll_counted (Nat.le_refl 36) hfirst.limit hbody
      obtain ⟨index, _, h⟩ := Checked.bind_ok h
      simp only at h
      split at h
      · cases h
      · obtain ⟨⟨fields, third⟩, htemplate, h⟩ := Checked.bind_ok h
        have hthird := takeTemplate_counted hsecond.limit htemplate
        obtain ⟨⟨data, last⟩, hdata, h⟩ := Checked.bind_ok h
        have hlast := takeData_counted hthird.limit hdata
        obtain ⟨extended, _, h⟩ := Checked.bind_ok h
        obtain ⟨rfl, rfl⟩ := Prod.mk.inj (Except.ok.inj h)
        exact ⟨((hfirst.trans hsecond).trans hthird).trans hlast, fun hf => (by cases hf)⟩

/-- A replay that ends well has asked for four bytes past the last record. -/
theorem replayLoop_probe {fuel : ℕ} {out : Replayed} (hb : inp.bytes ≤ maxBytes)
    (h : replayLoop H reader fuel records pcr inp = .ok out) :
    inp.bytes + inp.rest.length + 4 ≤ maxBytes := by
  induction fuel generalizing records pcr inp with
  | zero => cases h
  | succ fuel ih =>
    obtain ⟨⟨next, inp'⟩, hrecord, h⟩ := Checked.bind_ok h
    obtain ⟨hcounted, hend⟩ := replayRecord_counted hb hrecord
    cases next with
    | none =>
      obtain ⟨hrest, hfits⟩ := hend rfl
      rw [hrest]
      exact hfits
    | some extended =>
      have htail := ih hcounted.limit h
      rw [hcounted.total] at htail
      exact htail

/-- A replay that ends well has counted all the records it was given. -/
theorem replayLoop_count {fuel bytes reads : ℕ} {out : Replayed} (hv : ∀ r ∈ rs, r.Valid H)
    (hrecords : records ≤ maxRecords) (hb : bytes ≤ maxBytes)
    (h : replayLoop H reader fuel records pcr ⟨rs.flatMap ImaRecord.encode, bytes, reads⟩ = .ok out) :
    records + rs.length ≤ maxRecords := by
  induction rs generalizing fuel records pcr bytes reads with
  | nil => exact hrecords
  | cons r rs ih =>
    have hprobe := replayLoop_probe hb h
    simp only [List.flatMap_cons, List.length_append] at hprobe h
    cases fuel with
    | zero => cases h
    | succ fuel =>
      by_cases hlt : records < maxRecords
      · obtain ⟨reads', hrecord⟩ := replayRecord_encode reader records pcr (rs.flatMap ImaRecord.encode)
          bytes reads (hv r (by simp)) hlt (by omega)
        rw [replayLoop, hrecord] at h
        have htail := ih (fun r' hr' => hv r' (List.mem_cons_of_mem _ hr')) hlt (by omega) h
        rw [List.length_cons]
        omega
      · obtain ⟨⟨next, inp'⟩, hrecord, _⟩ := Checked.bind_ok h
        rcases (replayRecord_meets hb).of_ok hrecord with ⟨_, hend⟩ | ⟨_, hless, _⟩
        · have hlength := congrArg List.length hend
          rw [List.length_append, length_encode] at hlength
          simp only [List.length_nil] at hlength
          omega
        · exact absurd hless hlt

/-- What a list of valid records needs to be accepted. -/
theorem accepts_iff (reader : ℕ → ℕ) (hpos : 1 ≤ rs.length) (hv : ∀ r ∈ rs, r.Valid H) :
    ReplayAccepts H reader (rs.flatMap ImaRecord.encode) ↔
      rs.length ≤ maxRecords ∧ (rs.flatMap ImaRecord.encode).length + 4 ≤ maxBytes := by
  refine ⟨?_, ?_⟩
  · rintro ⟨out, hout⟩
    have hcount := replayLoop_count hv (Nat.zero_le _) (Nat.zero_le _) hout
    have hprobe := replayLoop_probe (Nat.zero_le _) hout
    simp only [Nat.zero_add] at hcount hprobe
    exact ⟨hcount, hprobe⟩
  · rintro ⟨hcount, hsize⟩
    exact ⟨_, replay_of_log reader hsize ⟨hpos, hcount, hv, rfl⟩⟩

/-- A list of valid records within the limits is what a replay accepts, unless the
log ends less than a word before the limit of its bytes. -/
theorem limits_inclusive (H : List UInt8 → Bytes 32) (reader : ℕ → ℕ) (rs : List ImaRecord)
    (hpos : 1 ≤ rs.length) (hv : ∀ r ∈ rs, r.Valid H) :
    (ReplayAccepts H reader (rs.flatMap ImaRecord.encode) ↔
      WithinLimits rs (rs.flatMap ImaRecord.encode)) ↔
    ¬ProbeExceeds rs (rs.flatMap ImaRecord.encode) := by
  rw [accepts_iff reader hpos hv, WithinLimits, ProbeExceeds]
  omega

end

theorem limits_inclusive_sample :
    ¬ProbeExceeds [sampleImaRecord] ([sampleImaRecord].flatMap ImaRecord.encode) ∧
    (ReplayAccepts sampleImaHash (fun _ => 0) ([sampleImaRecord].flatMap ImaRecord.encode) ↔
      WithinLimits [sampleImaRecord] ([sampleImaRecord].flatMap ImaRecord.encode)) := by
  have hshort : ¬ProbeExceeds [sampleImaRecord] ([sampleImaRecord].flatMap ImaRecord.encode) := by
    rintro ⟨_, _, hexceeds⟩
    revert hexceeds
    decide
  exact ⟨hshort, (limits_inclusive sampleImaHash (fun _ => 0) [sampleImaRecord] (by decide)
    sampleIma_log.valid).mpr hshort⟩

def kibibyteData : List UInt8 :=
  frame (ascii "sha256:" ++ List.replicate 33 0) ++ frame (List.replicate 925 0x61 ++ [0])

/-- A measurement whose record takes 1024 bytes. -/
def kibibyteRecord : ImaRecord := ⟨Sha256.hash kibibyteData, .ng, kibibyteData⟩

def fullLog : List ImaRecord := List.replicate 65536 kibibyteRecord

theorem length_kibibyteData : kibibyteData.length = 974 := by
  have hname : (ascii "sha256:").length = 7 := by decide
  simp only [kibibyteData, length_frame, List.length_append, List.length_replicate, List.length_cons,
    List.length_nil, hname]

theorem kibibyte_digest : DigestField (ascii "sha256:" ++ List.replicate 33 0) :=
  ⟨ascii "sha256:" ++ [0], 32, by decide, List.replicate 32 0, by decide, rfl⟩

theorem kibibyte_path : PathField (List.replicate 925 0x61 ++ [0]) := by
  refine ⟨List.replicate 925 0x61, rfl, ?_, ?_⟩
  · intro hzero
    exact absurd (List.eq_of_mem_replicate hzero) (by decide)
  · rw [List.length_append, List.length_replicate]
    decide

theorem kibibyte_nonzero : Sha256.hash kibibyteData ≠ zero32 := by
  decide +kernel

theorem kibibyte_valid : kibibyteRecord.Valid Sha256.hash := by
  have hsize := length_kibibyteData
  refine @valid_of_parts Sha256.hash kibibyteData (Sha256.hash kibibyteData) .ng
    [ascii "sha256:" ++ List.replicate 33 0, List.replicate 925 0x61 ++ [0]] (by omega) ?_ rfl ?_
    (fieldsFrom_of_two kibibyte_digest kibibyte_path) kibibyte_nonzero rfl
  · rw [hsize]
    decide
  · rw [kibibyteData, List.flatMap_cons, List.flatMap_cons, List.flatMap_nil, List.append_nil]

theorem fullLog_size : (fullLog.flatMap ImaRecord.encode).length = maxBytes := by
  have hone : kibibyteRecord.encode.length = 1024 := by
    rw [length_encode, length_frame, kibibyteRecord, length_kibibyteData]
    decide
  rw [fullLog, List.length_flatMap, List.map_replicate, List.sum_replicate_nat, hone]
  decide

/-- 65536 such records end exactly at 64 MiB, and are refused. -/
theorem full_log_refused : (∀ r ∈ fullLog, r.Valid Sha256.hash) ∧
    WithinLimits fullLog (fullLog.flatMap ImaRecord.encode) ∧
    ¬ReplayAccepts Sha256.hash (fun n => n) (fullLog.flatMap ImaRecord.encode) := by
  have hv : ∀ r ∈ fullLog, r.Valid Sha256.hash := by
    intro r hr
    rw [List.eq_of_mem_replicate hr]
    exact kibibyte_valid
  have hcount : fullLog.length = 65536 := List.length_replicate
  have hmax : maxRecords = 100000 := rfl
  refine ⟨hv, ⟨by omega, Nat.le_of_eq fullLog_size⟩, ?_⟩
  rw [accepts_iff _ (by omega) hv, fullLog_size]
  omega

end ArenaLab
