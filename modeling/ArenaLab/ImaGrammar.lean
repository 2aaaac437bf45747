import ArenaLab.ImaFields

/-! The grammar of the log: a replay accepts exactly the lists of valid records,
and folds their digests into the register. -/

namespace ArenaLab

inductive ImaTemplate
  | ng
  | sig
  deriving DecidableEq

def ImaTemplate.name : ImaTemplate → List UInt8
  | .ng => ascii "ima-ng"
  | .sig => ascii "ima-sig"

def ImaTemplate.fields : ImaTemplate → ℕ
  | .ng => 2
  | .sig => 3

structure ImaRecord where
  digest : Bytes 32
  template : ImaTemplate
  data : List UInt8
  deriving DecidableEq

def ImaRecord.encode (r : ImaRecord) : List UInt8 :=
  LittleEndian.bytes 10 4 ++ r.digest.toList ++ frame r.template.name ++ frame r.data

structure ImaRecord.Valid (H : List UInt8 → Bytes 32) (r : ImaRecord) : Prop where
  nonempty : 1 ≤ r.data.length
  size : r.data.length ≤ 65536
  fields : ∃ digest path more, r.data = (digest :: path :: more).flatMap frame ∧
    (digest :: path :: more).length = r.template.fields ∧ DigestField digest ∧ PathField path
  nonzero : r.digest ≠ zero32
  digest : r.digest = H r.data

def chain (H : List UInt8 → Bytes 32) (pcr : Bytes 32) (rs : List ImaRecord) : Bytes 32 :=
  rs.foldl (fun p r => H (p.toList ++ r.digest.toList)) pcr

structure IsLog (H : List UInt8 → Bytes 32) (rs : List ImaRecord) (log : List UInt8) : Prop where
  nonempty : 1 ≤ rs.length
  count : rs.length ≤ 100000
  valid : ∀ r ∈ rs, r.Valid H
  bytes : log = rs.flatMap ImaRecord.encode

section

variable {H : List UInt8 → Bytes 32} {reader : ℕ → ℕ} {records fields : ℕ} {pcr : Bytes 32}
  {header data : List UInt8} {inp : ImaInput} {r : ImaRecord}

theorem template_name (t : ImaTemplate) : 0 < t.name.length ∧ t.name.length ≤ 32 := by
  cases t <;> decide

theorem templateFields_name (t : ImaTemplate) : templateFields t.name = .ok t.fields := by
  cases t <;> rfl

theorem templateFields_meets (name : List UInt8) : Checked.Meets (templateFields name)
    (fun n => ∃ t : ImaTemplate, name = t.name ∧ n = t.fields) := by
  rw [templateFields]
  split
  · rename_i hname
    exact ⟨.ng, hname, rfl⟩
  · split
    · rename_i hname
      exact ⟨.sig, hname, rfl⟩
    · trivial

theorem bytes_of_value {xs : List UInt8} {n : ℕ} (hlen : xs.length = 4) (h : LittleEndian.value xs = n) :
    xs = LittleEndian.bytes n 4 := by
  rw [← h, ← hlen, LittleEndian.bytes_value]

theorem takeTemplate_meets (hheader : header.length = 40) (hb : inp.bytes ≤ maxBytes) :
    Checked.Meets (takeTemplate reader header inp) (fun r => ∃ t : ImaTemplate, r.1 = t.fields ∧
      header.drop 36 ++ inp.rest = frame t.name ++ r.2.rest ∧ r.2.bytes ≤ maxBytes) := by
  rw [takeTemplate, le32_eq (by omega)]
  simp only [Except.bind]
  have hfour : (header.drop 36).length = 4 := by
    rw [List.length_drop]
    omega
  rw [List.take_of_length_le (Nat.le_of_eq hfour)]
  split
  · trivial
  · rename_i hsize
    refine (takeAll_meets reader (by omega) hb).bind ?_
    rintro ⟨name, next⟩ ⟨hname, hrest, _, hb'⟩
    refine (templateFields_meets name).bind ?_
    rintro n ⟨t, rfl, rfl⟩
    refine ⟨t, rfl, ?_, hb'⟩
    simp only at hname hrest
    rw [bytes_of_value hfour hname.symm, hrest, frame, List.append_assoc]

theorem takeData_meets (hb : inp.bytes ≤ maxBytes) :
    Checked.Meets (takeData reader fields inp) (fun r => 1 ≤ r.1.length ∧ r.1.length ≤ maxData ∧
      inp.rest = frame r.1 ++ r.2.rest ∧ r.2.bytes ≤ maxBytes ∧
      ∃ fs : List (List UInt8), fs.length = fields ∧ r.1 = fs.flatMap frame ∧ FieldsFrom 0 fs) := by
  rw [takeData]
  refine (takeAll_meets reader (Nat.le_refl 4) hb).bind ?_
  rintro ⟨word, next⟩ ⟨hword, hrest, _, hb'⟩
  simp only at hword hrest hb' ⊢
  rw [le32_eq (by omega)]
  simp only [Except.bind, List.drop_zero]
  rw [List.take_of_length_le (Nat.le_of_eq hword)]
  split
  · trivial
  · rename_i hsize
    refine (takeAll_meets reader (by omega) hb').bind ?_
    rintro ⟨data, last⟩ ⟨hdata, hrest', _, hb''⟩
    simp only at hdata hrest' hb'' ⊢
    have hmax : data.length ≤ maxData := by omega
    have hsmall : data.length < 2 ^ 32 := by
      simp only [maxData] at hmax
      omega
    obtain ⟨valid, hvalid, hiff⟩ := fieldsLoop_eq hsmall fields 0 0 (Nat.zero_le _)
    rw [fieldsValid, ← hdata, hvalid]
    simp only
    cases valid with
    | false => trivial
    | true =>
      obtain ⟨fs, hlen, hfs, hok⟩ := hiff.mp rfl
      refine ⟨show 1 ≤ data.length by omega, hmax, ?_, hb'', fs, hlen, hfs, hok⟩
      show inp.rest = frame data ++ last.rest
      rw [hrest, hrest', frame, hdata, ← bytes_of_value hword rfl, List.append_assoc]

theorem extend_meets (hheader : header.length = 40) :
    Checked.Meets (extend H pcr header data) (fun p => (header.drop 4).take 32 = (H data).toList ∧
      H data ≠ zero32 ∧ p = H (pcr.toList ++ (H data).toList)) := by
  rw [extend, Checked.slice_eq (by omega)]
  simp only [Except.bind]
  split
  · trivial
  · rename_i hnonzero
    split
    · trivial
    · rename_i hdigest
      rw [not_not] at hdigest
      refine ⟨hdigest.symm, ?_, rfl⟩
      intro hf
      rw [← hdigest, hf] at hnonzero
      exact hnonzero rfl

theorem valid_of_parts {digest : Bytes 32} {t : ImaTemplate} {fs : List (List UInt8)}
    (hpos : 1 ≤ data.length) (hmax : data.length ≤ maxData) (hlen : fs.length = t.fields)
    (hdata : data = fs.flatMap frame) (hok : FieldsFrom 0 fs) (hnonzero : digest ≠ zero32)
    (hdigest : digest = H data) : ImaRecord.Valid H ⟨digest, t, data⟩ := by
  refine ⟨hpos, hmax, ?_, hnonzero, hdigest⟩
  match fs, hlen with
  | [], hlen => cases t <;> cases hlen
  | [_], hlen => cases t <;> cases hlen
  | first :: path :: more, hlen =>
    obtain ⟨hfirst, hpath, _⟩ := hok
    exact ⟨first, path, more, hdata, hlen, hfirst.1 rfl, hpath.2 rfl⟩

theorem replayRecord_meets (hb : inp.bytes ≤ maxBytes) :
    Checked.Meets (replayRecord H reader records pcr inp) (fun r =>
      r.1 = none ∧ inp.rest = [] ∨
      ∃ rec : ImaRecord, records < maxRecords ∧ rec.Valid H ∧ inp.rest = rec.encode ++ r.2.rest ∧
        r.1 = some (H (pcr.toList ++ rec.digest.toList)) ∧ r.2.bytes ≤ maxBytes) := by
  rw [replayRecord]
  rcases take_cases reader 40 (by omega : 4 ≤ 40) hb with
    ⟨reads, hfour, hle, he⟩ | ⟨hend, _, he⟩ | ⟨_, reason, he⟩
  · rw [he]
    simp only [Except.bind]
    have hword : (inp.rest.take 4).length = 4 := List.length_take_of_le hfour
    split
    · trivial
    · rename_i hrecords
      refine (@takeAll_meets _ _ ⟨inp.rest.drop 4, inp.bytes + 4, reads⟩ reader (Nat.le_refl 36) hle).bind ?_
      rintro ⟨body, next⟩ ⟨hbody, hrest, _, hb'⟩
      simp only at hbody hrest hb' ⊢
      have hheader : (inp.rest.take 4 ++ body).length = 40 := by
        rw [List.length_append, hword, hbody]
      rw [le32_eq (by omega), List.drop_zero, List.take_left' hword]
      simp only
      split
      · trivial
      · rename_i hindex
        rw [not_not] at hindex
        refine (takeTemplate_meets hheader hb').bind ?_
        rintro ⟨fields, mid⟩ ⟨t, rfl, hname, hb''⟩
        refine (takeData_meets hb'').bind ?_
        rintro ⟨data, last⟩ ⟨hpos, hmax, hdata, hb₃, fs, hlen, hfs, hok⟩
        refine (extend_meets hheader).bind ?_
        rintro p ⟨hdigest, hnonzero, rfl⟩
        simp only at hname hpos hmax hdata hlen hfs hdigest hnonzero hb₃
        refine .inr ⟨⟨H data, t, data⟩, by omega, valid_of_parts hpos hmax hlen hfs hok hnonzero rfl, ?_,
          rfl, hb₃⟩
        rw [List.drop_left' hword] at hdigest
        rw [show 36 = 4 + 32 from rfl, ← List.drop_drop, List.drop_left' hword] at hname
        have hsplit := List.take_append_drop 32 body
        calc inp.rest = inp.rest.take 4 ++ (body ++ next.rest) := by
              rw [← hrest, List.take_append_drop]
          _ = inp.rest.take 4 ++ (body.take 32 ++ (body.drop 32 ++ next.rest)) := by
              rw [← List.append_assoc (body.take 32), hsplit]
          _ = LittleEndian.bytes 10 4 ++ ((H data).toList ++ (frame t.name ++ (frame data ++ last.rest))) := by
              rw [bytes_of_value hword hindex, hdigest, hname, hdata]
          _ = _ := by simp [ImaRecord.encode, List.append_assoc]
  · rw [he]
    exact .inl ⟨rfl, hend⟩
  · rw [he]
    trivial

theorem replayRecord_end (hb : inp.bytes + 4 ≤ maxBytes) (hend : inp.rest = []) :
    replayRecord H reader records pcr inp = .ok (none, inp) := by
  rw [replayRecord]
  rcases take_cases reader 40 (by omega : 4 ≤ 40) (by omega : inp.bytes ≤ maxBytes) with
    ⟨_, hfour, _⟩ | ⟨_, _, he⟩ | ⟨hf | hf, _⟩
  · rw [hend] at hfour
    simp at hfour
  · rw [he]
    rfl
  · omega
  · exact absurd hend hf.1

theorem fieldsFrom_of_two {f g : List UInt8} {fs : List (List UInt8)} (hf : DigestField f)
    (hg : PathField g) : FieldsFrom 0 (f :: g :: fs) := by
  have hmore : ∀ (n : ℕ) (fs : List (List UInt8)), FieldsFrom (n + 2) fs := by
    intro n fs
    induction fs generalizing n with
    | nil => trivial
    | cons x fs ih => exact ⟨⟨fun hn => (by omega), fun hn => (by omega)⟩, ih (n + 1)⟩
  exact ⟨⟨fun _ => hf, fun hn => (by omega)⟩, ⟨fun hn => (by omega), fun _ => hg⟩, hmore 0 fs⟩

theorem takeTemplate_append (reader : ℕ → ℕ) (t : ImaTemplate) (front tail : List UInt8) (bytes reads : ℕ)
    (hfront : front.length = 36) (hb : bytes + t.name.length ≤ maxBytes) :
    ∃ reads', takeTemplate reader (front ++ LittleEndian.bytes t.name.length 4)
      ⟨t.name ++ tail, bytes, reads⟩ = .ok (t.fields, ⟨tail, bytes + t.name.length, reads'⟩) := by
  obtain ⟨hpos, hmax⟩ := template_name t
  obtain ⟨reads', he⟩ := takeAll_append reader 32 _ t.name tail bytes reads hmax hpos rfl hb
  refine ⟨reads', ?_⟩
  rw [takeTemplate, le32_eq (by simp [hfront]), List.drop_left' hfront,
    List.take_of_length_le (by simp), value_length (by omega)]
  simp only [Except.bind]
  rw [if_neg (by omega), he]
  simp only
  rw [templateFields_name]

theorem takeData_append (reader : ℕ → ℕ) (tail : List UInt8) (bytes reads : ℕ) (hv : r.Valid H)
    (hb : bytes + (frame r.data).length ≤ maxBytes) :
    ∃ reads', takeData reader r.template.fields ⟨frame r.data ++ tail, bytes, reads⟩ =
      .ok (r.data, ⟨tail, bytes + (frame r.data).length, reads'⟩) := by
  have hpos := hv.nonempty
  have hmax : r.data.length ≤ maxData := hv.size
  rw [length_frame] at hb ⊢
  obtain ⟨reads₁, h₁⟩ := takeAll_append reader 4 4 (LittleEndian.bytes r.data.length 4) (r.data ++ tail)
    bytes reads (Nat.le_refl 4) (by omega) (by simp) (by omega)
  obtain ⟨reads₂, h₂⟩ := takeAll_append reader maxData _ r.data tail (bytes + 4) reads₁ hmax (by omega) rfl
    (by omega)
  have hsmall : r.data.length < 2 ^ 32 := by
    simp only [maxData] at hmax
    omega
  obtain ⟨valid, hvalid, hiff⟩ := fieldsLoop_eq hsmall r.template.fields 0 0 (Nat.zero_le _)
  have htrue : valid = true := by
    obtain ⟨digest, path, more, hdata, hlen, hdig, hpath⟩ := hv.fields
    exact hiff.mpr ⟨_, hlen, hdata, fieldsFrom_of_two hdig hpath⟩
  refine ⟨reads₂, ?_⟩
  rw [takeData, frame, List.append_assoc, h₁]
  simp only [Except.bind]
  rw [le32_eq (by simp), List.drop_zero, List.take_of_length_le (by simp), value_length hsmall]
  simp only
  rw [if_neg (by omega), h₂]
  simp only
  rw [fieldsValid, hvalid, htrue]
  simp only [Bool.not_true, Bool.false_eq_true, if_false, Nat.add_assoc]

theorem length_encode (r : ImaRecord) :
    r.encode.length = 4 + 32 + (4 + r.template.name.length) + (frame r.data).length := by
  simp only [ImaRecord.encode, List.length_append, LittleEndian.length_bytes, Vector.length_toList,
    length_frame]

theorem replayRecord_encode (reader : ℕ → ℕ) (records : ℕ) (pcr : Bytes 32) (tail : List UInt8)
    (bytes reads : ℕ) (hv : r.Valid H)
    (hrecords : records < maxRecords) (hb : bytes + r.encode.length ≤ maxBytes) :
    ∃ reads', replayRecord H reader records pcr ⟨r.encode ++ tail, bytes, reads⟩ =
      .ok (some (H (pcr.toList ++ r.digest.toList)), ⟨tail, bytes + r.encode.length, reads'⟩) := by
  rw [length_encode] at hb ⊢
  obtain ⟨reads₁, h₁⟩ := take_append reader 40 4 (LittleEndian.bytes 10 4)
    ((r.digest.toList ++ LittleEndian.bytes r.template.name.length 4) ++
      (r.template.name ++ (frame r.data ++ tail)))
    bytes reads (by omega) (by omega) (by simp) (by omega)
  obtain ⟨reads₂, h₂⟩ := takeAll_append reader (40 - 4) 36
    (r.digest.toList ++ LittleEndian.bytes r.template.name.length 4)
    (r.template.name ++ (frame r.data ++ tail)) (bytes + 4) reads₁ (Nat.le_refl 36) (by omega) (by simp)
    (by omega)
  obtain ⟨reads₃, h₃⟩ := takeTemplate_append reader r.template (LittleEndian.bytes 10 4 ++ r.digest.toList)
    (frame r.data ++ tail) (bytes + 4 + 36) reads₂ (by simp) (by omega)
  obtain ⟨reads₄, h₄⟩ := takeData_append reader tail (bytes + 4 + 36 + r.template.name.length) reads₃ hv
    (by omega)
  have hbytes : r.encode ++ tail = LittleEndian.bytes 10 4 ++
      ((r.digest.toList ++ LittleEndian.bytes r.template.name.length 4) ++
        (r.template.name ++ (frame r.data ++ tail))) := by
    simp [ImaRecord.encode, frame, List.append_assoc]
  refine ⟨reads₄, ?_⟩
  rw [replayRecord, hbytes, h₁]
  simp only [Except.bind]
  rw [if_neg (by omega), h₂]
  simp only
  rw [le32_eq (by simp), List.drop_zero, List.take_left' (by simp), LittleEndian.value_bytes]
  simp only
  rw [if_neg (by decide), ← List.append_assoc, h₃]
  simp only
  rw [h₄]
  simp only
  rw [extend, Checked.slice_eq (by simp), List.append_assoc, List.drop_left' (by simp),
    List.take_left' (by simp)]
  simp only [Except.bind]
  rw [if_neg (fun hf => hv.nonzero (Vector.toList_inj.mp hf)), ← hv.digest, if_neg (not_not.mpr rfl)]
  simp only [Except.ok.injEq, Prod.mk.injEq, true_and, ImaInput.mk.injEq, and_true]
  omega

/-- A whole replay is in range, and what it accepts is a list of valid records. -/
theorem replayLoop_meets (fuel : ℕ) (hfuel : fuel + records = maxRecords + 1) (hpos : 0 < fuel)
    (hb : inp.bytes ≤ maxBytes) :
    Checked.Meets (replayLoop H reader fuel records pcr inp) (fun out => ∃ rs : List ImaRecord,
      (∀ r ∈ rs, r.Valid H) ∧ inp.rest = rs.flatMap ImaRecord.encode ∧ 1 ≤ records + rs.length ∧
      records + rs.length ≤ maxRecords ∧ out = ⟨records + rs.length, chain H pcr rs⟩) := by
  induction fuel generalizing records pcr inp with
  | zero => omega
  | succ fuel ih =>
    rw [replayLoop]
    refine (replayRecord_meets hb).bind ?_
    rintro ⟨next, inp'⟩ (⟨rfl, hend⟩ | ⟨r, hlt, hv, hrest, rfl, hb'⟩)
    · simp only
      split
      · trivial
      · rename_i hsome
        refine ⟨[], fun _ hf => (by cases hf), hend, ?_, ?_, rfl⟩
        · simp only [List.length_nil]
          omega
        · simp only [List.length_nil]
          omega
    · simp only at hrest hb' ⊢
      refine (ih (by omega) (by omega) hb').mono ?_
      rintro out ⟨rs, hvs, hrest', hone, hcount, rfl⟩
      refine ⟨r :: rs, ?_, ?_, ?_, ?_, ?_⟩
      · intro r' hr'
        rcases List.mem_cons.mp hr' with rfl | hr'
        · exact hv
        · exact hvs r' hr'
      · rw [List.flatMap_cons, hrest, hrest']
      · rw [List.length_cons]
        omega
      · rw [List.length_cons]
        omega
      · rw [List.length_cons, Nat.add_comm rs.length, Nat.add_assoc]
        rfl

theorem replayLoop_encode (reader : ℕ → ℕ) (rs : List ImaRecord) (fuel records : ℕ) (pcr : Bytes 32)
    (bytes reads : ℕ) (hfuel : rs.length < fuel) (hcount : records + rs.length ≤ maxRecords)
    (hpos : 1 ≤ records + rs.length) (hv : ∀ r ∈ rs, r.Valid H)
    (hb : bytes + (rs.flatMap ImaRecord.encode).length + 4 ≤ maxBytes) :
    replayLoop H reader fuel records pcr ⟨rs.flatMap ImaRecord.encode, bytes, reads⟩ =
      .ok ⟨records + rs.length, chain H pcr rs⟩ := by
  induction rs generalizing fuel records pcr bytes reads with
  | nil =>
    obtain ⟨fuel, rfl⟩ := Nat.exists_eq_succ_of_ne_zero (Nat.ne_of_gt hfuel)
    simp only [List.flatMap_nil, List.length_nil, Nat.add_zero] at hb hpos ⊢
    rw [replayLoop, replayRecord_end hb rfl]
    simp only [Except.bind]
    rw [if_neg (by omega)]
    rfl
  | cons r rs ih =>
    obtain ⟨fuel, rfl⟩ := Nat.exists_eq_succ_of_ne_zero (Nat.ne_zero_of_lt hfuel)
    simp only [List.flatMap_cons, List.length_append, List.length_cons] at hb hcount hfuel ⊢
    obtain ⟨reads', he⟩ := replayRecord_encode reader records pcr
      (rs.flatMap ImaRecord.encode) bytes reads (hv r (by simp)) (by omega) (by omega)
    rw [replayLoop, he]
    simp only [Except.bind]
    rw [ih fuel (records + 1) _ _ reads' (by omega) (by omega) (by omega)
      (fun r' hr' => hv r' (List.mem_cons_of_mem _ hr')) (by omega)]
    simp only [chain, List.foldl_cons, Except.ok.injEq, Replayed.mk.injEq, and_true]
    omega

end

theorem replay_meets (H : List UInt8 → Bytes 32) (reader : ℕ → ℕ) (log : List UInt8) :
    Checked.Meets (replay H reader log) (fun out => ∃ rs, IsLog H rs log ∧
      out = ⟨rs.length, chain H zero32 rs⟩) := by
  have hb : (⟨log, 0, 0⟩ : ImaInput).bytes ≤ maxBytes := Nat.zero_le _
  refine (replayLoop_meets (maxRecords + 1) (Nat.add_zero _) (Nat.succ_pos _) hb).mono ?_
  rintro out ⟨rs, hv, hrest, hone, hcount, rfl⟩
  rw [Nat.zero_add] at hone hcount
  exact ⟨rs, ⟨hone, hcount, hv, hrest⟩, by rw [Nat.zero_add]⟩

theorem replay_of_log {H : List UInt8 → Bytes 32} {rs : List ImaRecord} {log : List UInt8} (reader : ℕ → ℕ)
    (hsize : log.length + 4 ≤ maxBytes) (hlog : IsLog H rs log) :
    replay H reader log = .ok ⟨rs.length, chain H zero32 rs⟩ := by
  obtain ⟨hpos, hcount, hv, rfl⟩ := hlog
  have he := replayLoop_encode reader rs (maxRecords + 1) 0 zero32 0 0 (Nat.lt_succ_of_le hcount)
    (by rw [Nat.zero_add]; exact hcount) (by rw [Nat.zero_add]; exact hpos) hv
    (by rw [Nat.zero_add]; exact hsize)
  rw [replay, he, Nat.zero_add]

/-- Every access of a replay is in range; and a log that fits is accepted if and
only if it is made of valid records, which then give its count and its register. -/
theorem replay_accepts_grammar (H : List UInt8 → Bytes 32) (reader : ℕ → ℕ) (log : List UInt8) :
    (replay H reader log ≠ .error .outOfRange ∧ replay H reader log ≠ .error .outOfFuel) ∧
    (log.length + 4 ≤ 64 * 1024 * 1024 →
      ((∃ out, replay H reader log = .ok out) ↔ ∃ rs, IsLog H rs log) ∧
      ∀ rs, IsLog H rs log → replay H reader log = .ok ⟨rs.length, chain H zero32 rs⟩) := by
  have hmeets := replay_meets H reader log
  refine ⟨hmeets.in_range, fun hsize => ⟨⟨?_, ?_⟩, ?_⟩⟩
  · rintro ⟨out, he⟩
    obtain ⟨rs, hlog, _⟩ := hmeets.of_ok he
    exact ⟨rs, hlog⟩
  · rintro ⟨rs, hlog⟩
    exact ⟨_, replay_of_log reader hsize hlog⟩
  · intro rs hlog
    exact replay_of_log reader hsize hlog

def sampleImaData : List UInt8 := frame (ascii "sha1:" ++ List.replicate 21 0) ++ frame (ascii "a" ++ [0])

def sampleImaHash (x : List UInt8) : Bytes 32 :=
  if x = sampleImaData then
    #v[0xd2, 0xf7, 0xd0, 0xc9, 0xb2, 0xd1, 0xa0, 0x01, 0x45, 0xc5, 0x89, 0xed, 0x80, 0xc1, 0x69, 0x99,
      0xfd, 0x2b, 0xb7, 0x4f, 0x6f, 0x92, 0xd5, 0xba, 0x71, 0x82, 0x43, 0xf1, 0x40, 0x36, 0x8a, 0x9a]
  else
    #v[0x3b, 0xe4, 0x2b, 0x55, 0xb9, 0x3a, 0x6a, 0x75, 0x4e, 0x57, 0x64, 0xac, 0x9d, 0xb8, 0x5d, 0x5e,
      0x63, 0x3b, 0x50, 0x56, 0x36, 0x29, 0xc0, 0xa2, 0xfd, 0x90, 0xbc, 0xb9, 0x2f, 0x53, 0x18, 0x37]

def sampleImaRecord : ImaRecord := ⟨sampleImaHash sampleImaData, .ng, sampleImaData⟩

theorem sampleIma_log : IsLog sampleImaHash [sampleImaRecord] sampleImaRecord.encode where
  nonempty := by decide
  count := by decide
  valid := by
    intro r hr
    obtain rfl := List.mem_singleton.mp hr
    refine ⟨by decide, by decide, ?_, by decide, rfl⟩
    refine ⟨ascii "sha1:" ++ List.replicate 21 0, ascii "a" ++ [0], [], ?_, rfl, ?_, ?_⟩
    · simp [sampleImaRecord, sampleImaData]
    · exact ⟨ascii "sha1:" ++ [0], 20, by decide, List.replicate 20 0, by decide, rfl⟩
    · exact ⟨ascii "a", rfl, by decide, by decide⟩
  bytes := by simp

theorem replay_accepts_grammar_sample :
    sampleImaRecord.encode.length + 4 ≤ 64 * 1024 * 1024 ∧
    replay sampleImaHash (fun _ => 0) sampleImaRecord.encode =
      .ok ⟨1, chain sampleImaHash zero32 [sampleImaRecord]⟩ := by
  have hsize : sampleImaRecord.encode.length + 4 ≤ 64 * 1024 * 1024 := by decide
  exact ⟨hsize, ((replay_accepts_grammar sampleImaHash (fun _ => 0) _).2 hsize).2 _ sampleIma_log⟩

end ArenaLab
