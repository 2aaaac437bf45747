import ArenaLab.ByteStores
import ArenaLab.WireBytes

/-! The codec of `lab-udp/2` with its buffers: the stores and reads of each kind at
their offsets, the length tests, and the integers of the evidence kinds. -/

namespace ArenaLab

def labHdrStores (h : LabHdr) : List (ℕ × List UInt8) :=
  [(0, [h.magic]), (1, [h.version]), (2, [h.kind]), (3, [h.flags]), (4, put32 h.seq), (8, put32 h.len)] ++
    (List.range 4).map (fun i => (12 + i, [0xAA]))

def labHdrPackInto (out : List UInt8) (h : LabHdr) : List UInt8 := ByteStores.run out (labHdrStores h)

def labHdrParseInto (inp : List UInt8) (out : LabHdr) : LabHdr × Bool :=
  match labHdrParse inp with
  | some h => (h, true)
  | none => (out, false)

/-- `put32` of `evidence.c`. -/
def evidencePut32 (v : UInt32) : List UInt8 :=
  (List.range 4).map (fun i => (v >>> UInt32.ofNat (8 * i)).toUInt8)

/-- `get32` of `evidence.c`. -/
def evidenceGet32 (buf : List UInt8) (off : ℕ) : UInt32 :=
  (List.range 4).foldl
    (fun v i => v ||| ((buf.getD (off + i) 0).toUInt32 <<< UInt32.ofNat (8 * i))) 0

def labEvidenceLen (code : UInt8) : ℕ :=
  if code = 0x40 then 44 else if code = 0x41 then 104 else if code = 0x42 then 28 else 0

def labEvidenceStores : Payload → List (ℕ × List UInt8)
  | .request p =>
    [(0, p.session.toList), (16, evidencePut32 p.request_id), (20, p.instance.toList),
      (36, [p.origin]), (37, [p.capability]), (38, [p.evidence_class]), (39, [p.reserved]),
      (40, evidencePut32 p.seed)]
  | .observation p =>
    [(0, p.session.toList), (16, evidencePut32 p.request_id), (20, p.instance.toList),
      (36, p.subject.toList), (52, [p.origin]), (53, [p.capability]), (54, [p.evidence_class]),
      (55, [p.ok]), (56, evidencePut32 p.seed), (60, evidencePut32 p.elapsed_ms),
      (64, evidencePut32 p.error), (68, p.data.toList)]
  | .decision p =>
    [(0, p.session.toList), (16, evidencePut32 p.request_id), (20, evidencePut32 p.status),
      (24, evidencePut32 p.reason)]
  | _ => []

def labEvidencePackInto (out : List UInt8) (capacity : ℕ) (code : UInt8) (payload : Payload) :
    List UInt8 × Bool :=
  if labEvidenceLen code = 0 ∨ capacity < labEvidenceLen code then (out, false)
  else (ByteStores.run out (labEvidenceStores payload), true)

def labEvidenceRead (buf : List UInt8) (code : UInt8) : Payload :=
  if code = 0x40 then
    .request ⟨field buf 0 16, evidenceGet32 buf 16, field buf 20 16, buf.getD 36 0, buf.getD 37 0,
      buf.getD 38 0, buf.getD 39 0, evidenceGet32 buf 40⟩
  else if code = 0x41 then
    .observation ⟨field buf 0 16, evidenceGet32 buf 16, field buf 20 16, field buf 36 16,
      buf.getD 52 0, buf.getD 53 0, buf.getD 54 0, buf.getD 55 0, evidenceGet32 buf 56,
      evidenceGet32 buf 60, evidenceGet32 buf 64, field buf 68 36⟩
  else
    .decision ⟨field buf 0 16, evidenceGet32 buf 16, evidenceGet32 buf 20, evidenceGet32 buf 24⟩

def labEvidenceParseInto (inp : List UInt8) (code : UInt8) (payload : Payload) : Payload × Bool :=
  if labEvidenceLen code = 0 ∨ inp.length ≠ labEvidenceLen code then (payload, false)
  else (labEvidenceRead inp code, true)

def labPayloadStores : Payload → List (ℕ × List UInt8)
  | .hello p =>
    [(0, put32 p.app_id), (4, p.app.toList), (20, p.name.toList), (44, p.nonce.toList)]
  | .helloAck p =>
    [(0, put32 p.result), (4, put32 p.reason), (8, p.session.toList), (24, p.snonce.toList),
      (40, p.cnonce.toList)]
  | .ping p => [(0, p.session.toList), (16, p.nonce.toList), (32, put64 p.stamp)]
  | .pong p => [(0, put64 p.stamp), (8, p.echo.toList), (24, put32 p.pad)]
  | .rst p =>
    [(0, p.session.toList), (16, put32 p.reason), (20, put32 p.len), (24, p.msg.toList)]
  | .bye p => [(0, p.session.toList), (16, put32 p.reason), (20, put32 p.pad)]
  | _ => []

/-- The payload stands for the one at the source's pointer, of the type that the kind says. -/
def labPayloadPackInto (out : List UInt8) (capacity : ℕ) (code : UInt8) (payload : Payload) :
    List UInt8 × Bool :=
  if 0x40 ≤ code ∧ code ≤ 0x42 then labEvidencePackInto out capacity code payload
  else if labPayloadLen code = 0 ∨ capacity < labPayloadLen code then (out, false)
  else (ByteStores.run out (labPayloadStores payload), true)

def labPayloadParseInto (inp : List UInt8) (code : UInt8) (payload : Payload) : Payload × Bool :=
  if 0x40 ≤ code ∧ code ≤ 0x42 then labEvidenceParseInto inp code payload
  else if inp.length = 0 ∨ inp.length ≠ labPayloadLen code then (payload, false)
  else match Kind.ofCode code with
    | some kind => (kind.read inp, true)
    | none => (payload, false)

def Payload.Fits (payload : Payload) (code : UInt8) : Prop :=
  ∀ kind, Kind.ofCode code = some kind → payload.kind = kind

theorem evidencePut32_eq (v : UInt32) : evidencePut32 v = put32 v := by
  have hzero : v >>> UInt32.ofNat (8 * 0) = v := UInt32.shiftRight_zero
  simp only [evidencePut32, List.range_succ, List.range_zero, List.map_cons, List.map_nil,
    List.nil_append, List.cons_append, hzero]
  rfl

theorem evidenceGet32_eq (buf : List UInt8) (off : ℕ) : evidenceGet32 buf off = get32 buf off := by
  have hzero : (buf.getD off 0).toUInt32 <<< UInt32.ofNat (8 * 0) = (buf.getD off 0).toUInt32 :=
    UInt32.shiftLeft_zero
  simp only [evidenceGet32, List.range_succ, List.range_zero, List.nil_append, List.cons_append,
    List.foldl_cons, List.foldl_nil, Nat.add_zero, hzero, UInt32.zero_or]
  rfl

theorem read_pack (p : Payload) : p.kind.read (labPayloadPack p) = p := by
  have hfield : ∀ {n : ℕ} (v : Bytes n), field v.toList 0 n = v := fun v =>
    field_eq (List.append_nil _).symm
  have hword : ∀ v, get32 (put32 v) 0 = v := fun v => get32_eq (List.append_nil _).symm
  have hlong : ∀ v, get64 (put64 v) 0 = v := fun v => get64_eq (List.append_nil _).symm
  cases p <;>
    simp only [Payload.kind, labPayloadPack, Kind.read, List.append_assoc, field_append_right,
      get32_append_right, get64_append_right, getD_append_right, field_head, get32_head, get64_head,
      length_put32, length_put64, Vector.length_toList, List.length_cons, List.length_nil,
      Nat.reduceLeDiff, Nat.reduceSub, Nat.reduceAdd, le_refl, Nat.sub_self, hfield, hword, hlong]
  case request p => rfl
  case observation p => rfl

theorem pack_read {kind : Kind} {buf : List UInt8} (h : buf.length = kind.payloadLen) :
    labPayloadPack (kind.read buf) = buf := by
  cases kind <;> simp only [Kind.payloadLen] at h <;>
    simp (disch := omega) only [labPayloadPack, Kind.read, put32_get32, put64_get64, field_toList,
      octets, List.drop_zero, ← List.take_add, Nat.reduceAdd] <;>
    exact List.take_of_length_le h.le

theorem kind_read (kind : Kind) (buf : List UInt8) : (kind.read buf).kind = kind := by
  cases kind <;> rfl

theorem length_labPayloadPack (p : Payload) : (labPayloadPack p).length = p.kind.payloadLen := by
  cases p <;> simp [labPayloadPack, Payload.kind, Kind.payloadLen]

theorem labPayloadLen_code (kind : Kind) : labPayloadLen kind.code = kind.payloadLen := by
  rw [labPayloadLen, Kind.ofCode_code]

theorem Kind.payloadLen_pos (kind : Kind) : 0 < kind.payloadLen := by
  cases kind <;> decide

theorem labPayloadLen_unknown {code : UInt8} (h : Kind.ofCode code = none) : labPayloadLen code = 0 := by
  rw [labPayloadLen, h]

theorem labEvidenceLen_unknown {code : UInt8} (h : Kind.ofCode code = none) :
    labEvidenceLen code = 0 := by
  have hne : ∀ kind : Kind, code ≠ kind.code := by
    intro kind hk
    rw [hk, Kind.ofCode_code] at h
    exact Option.some_ne_none _ h
  have hreq : code ≠ 0x40 := hne .request
  have hobs : code ≠ 0x41 := hne .observation
  have hdec : code ≠ 0x42 := hne .decision
  rw [labEvidenceLen, if_neg hreq, if_neg hobs, if_neg hdec]

theorem labPayloadParse_unknown {code : UInt8} (h : Kind.ofCode code = none) (inp : List UInt8) :
    labPayloadParse inp code = none := by
  rw [labPayloadParse, h]

theorem labPayloadParse_known (kind : Kind) (inp : List UInt8) :
    labPayloadParse inp kind.code = if inp.length = kind.payloadLen then some (kind.read inp) else none := by
  rw [labPayloadParse, Kind.ofCode_code]

theorem labPayloadPack_length (p : Payload) : (labPayloadPack p).length = labPayloadLen p.kind.code := by
  rw [length_labPayloadPack, labPayloadLen_code]

/-- The kinds that go to `evidence.c` have there the length and the layout of their kind. -/
theorem evidence_kind {kind : Kind} (h : 0x40 ≤ kind.code ∧ kind.code ≤ 0x42) :
    labEvidenceLen kind.code = kind.payloadLen ∧
      ∀ buf, labEvidenceRead buf kind.code = kind.read buf := by
  cases kind <;> simp [Kind.code] at h
  all_goals
    refine ⟨rfl, fun buf => ?_⟩
    simp [labEvidenceRead, Kind.code, Kind.read, evidenceGet32_eq]

theorem labEvidenceStores_eq {p : Payload} (h : 0x40 ≤ p.kind.code ∧ p.kind.code ≤ 0x42) :
    ByteStores.Contiguous 0 (labEvidenceStores p) ∧
      ByteStores.image (labEvidenceStores p) = labPayloadPack p := by
  cases p <;> simp [Payload.kind, Kind.code] at h
  all_goals
    simp [labEvidenceStores, ByteStores.Contiguous, ByteStores.image, labPayloadPack, evidencePut32_eq]

theorem labPayloadStores_eq {p : Payload} (h : ¬(0x40 ≤ p.kind.code ∧ p.kind.code ≤ 0x42)) :
    ByteStores.Contiguous 0 (labPayloadStores p) ∧
      ByteStores.image (labPayloadStores p) = labPayloadPack p := by
  cases p <;> simp [Payload.kind, Kind.code] at h
  all_goals
    simp [labPayloadStores, ByteStores.Contiguous, ByteStores.image, labPayloadPack]

theorem labPayloadParseInto_eq (inp : List UInt8) (code : UInt8) (payload : Payload) :
    labPayloadParseInto inp code payload =
      match labPayloadParse inp code with
      | some p => (p, true)
      | none => (payload, false) := by
  cases h : Kind.ofCode code with
  | none =>
    have hlen := labPayloadLen_unknown h
    have hevidence := labEvidenceLen_unknown h
    rw [labPayloadParse_unknown h]
    by_cases hrange : 0x40 ≤ code ∧ code ≤ 0x42
    · rw [labPayloadParseInto, if_pos hrange, labEvidenceParseInto, if_pos (.inl hevidence)]
    · rw [labPayloadParseInto, if_neg hrange, if_pos (by omega)]
  | some kind =>
    have hpos := kind.payloadLen_pos
    obtain rfl := Kind.ofCode_eq h
    rw [labPayloadParse_known]
    by_cases hrange : 0x40 ≤ kind.code ∧ kind.code ≤ 0x42
    · obtain ⟨hsize, hread⟩ := evidence_kind hrange
      rw [labPayloadParseInto, if_pos hrange, labEvidenceParseInto, hsize, hread]
      by_cases hlen : inp.length = kind.payloadLen
      · rw [if_neg (by omega), if_pos hlen]
      · rw [if_pos (.inr hlen), if_neg hlen]
    · rw [labPayloadParseInto, if_neg hrange, labPayloadLen_code, h]
      by_cases hlen : inp.length = kind.payloadLen
      · rw [if_neg (by omega), if_pos hlen]
      · rw [if_pos (.inr hlen), if_neg hlen]

theorem labPayloadPackInto_eq {payload : Payload} {code : UInt8} (h : payload.Fits code)
    (out : List UInt8) (capacity : ℕ) :
    labPayloadPackInto out capacity code payload =
      if labPayloadLen code = 0 ∨ capacity < labPayloadLen code then (out, false)
      else (labPayloadPack payload ++ out.drop (labPayloadLen code), true) := by
  cases hcode : Kind.ofCode code with
  | none =>
    have hlen := labPayloadLen_unknown hcode
    have hevidence := labEvidenceLen_unknown hcode
    rw [if_pos (.inl hlen)]
    by_cases hrange : 0x40 ≤ code ∧ code ≤ 0x42
    · rw [labPayloadPackInto, if_pos hrange, labEvidencePackInto, if_pos (.inl hevidence)]
    · rw [labPayloadPackInto, if_neg hrange, if_pos (.inl hlen)]
  | some kind =>
    obtain rfl := h kind hcode
    obtain rfl := Kind.ofCode_eq hcode
    have hlen := labPayloadPack_length payload
    by_cases hrange : 0x40 ≤ payload.kind.code ∧ payload.kind.code ≤ 0x42
    · obtain ⟨hsize, -⟩ := evidence_kind hrange
      obtain ⟨hplaces, himage⟩ := labEvidenceStores_eq hrange
      rw [labPayloadPackInto, if_pos hrange, labEvidencePackInto, hsize, ← labPayloadLen_code,
        ByteStores.run_contiguous out hplaces, himage, hlen]
    · obtain ⟨hplaces, himage⟩ := labPayloadStores_eq hrange
      rw [labPayloadPackInto, if_neg hrange, ByteStores.run_contiguous out hplaces, himage, hlen]

theorem labHdrPackInto_eq (out : List UInt8) (h : LabHdr) :
    labHdrPackInto out h = labHdrPack h ++ out.drop 16 := by
  have hplaces : ByteStores.Contiguous 0 (labHdrStores h) := by
    simp [labHdrStores, ByteStores.Contiguous, List.range_succ]
  have himage : ByteStores.image (labHdrStores h) = labHdrPack h := by
    simp [labHdrStores, ByteStores.image, labHdrPack, List.range_succ]
  have hlen : (labHdrPack h).length = 16 := by simp [labHdrPack]
  rw [labHdrPackInto, ByteStores.run_contiguous out hplaces, himage, hlen]

theorem labHdrParse_eq (inp : List UInt8) :
    labHdrParse inp = if 16 ≤ inp.length ∧ (inp.drop 12).take 4 = List.replicate 4 0xAA then
      some ⟨inp.getD 0 0, inp.getD 1 0, inp.getD 2 0, inp.getD 3 0, get32 inp 4, get32 inp 8,
        Vector.replicate 4 0xAA⟩ else none := by
  by_cases hlen : 16 ≤ inp.length
  · have hpad : field inp 12 4 = Vector.replicate 4 0xAA ↔
        (inp.drop 12).take 4 = List.replicate 4 0xAA := by
      rw [← Vector.toList_inj, field_toList inp (by omega), Vector.toList_replicate]
    by_cases h : field inp 12 4 = Vector.replicate 4 0xAA
    · rw [labHdrParse, if_neg (by rintro (h' | h') <;> [omega; exact h' h]), if_pos ⟨hlen, hpad.mp h⟩, h]
    · rw [labHdrParse, if_pos (.inr h), if_neg (fun h' => h (hpad.mpr h'.2))]
  · rw [labHdrParse, if_pos (.inl (by omega)), if_neg (fun h' => hlen h'.1)]

theorem length_labHdrPack (h : LabHdr) : (labHdrPack h).length = 16 := by simp [labHdrPack]

theorem labHdr_parse_pack (h : LabHdr) :
    labHdrParse (labHdrPack h) = some { h with pad := Vector.replicate 4 0xAA } := by
  have hpad : ((labHdrPack h).drop 12).take 4 = List.replicate 4 0xAA := rfl
  have hseq : get32 (labHdrPack h) 4 = h.seq := get32_eq rfl
  have hlen : get32 (labHdrPack h) 8 = h.len := get32_eq rfl
  rw [labHdrParse_eq, if_pos ⟨(length_labHdrPack h).ge, hpad⟩, hseq, hlen]
  rfl

theorem labHdr_pack_parse {inp : List UInt8} {h : LabHdr} (hlen : inp.length = 16)
    (hparse : labHdrParse inp = some h) : labHdrPack h = inp := by
  rw [labHdrParse_eq] at hparse
  split at hparse
  · rename_i hok
    obtain rfl := Option.some.inj hparse
    have hhead : [inp.getD 0 0, inp.getD 1 0, inp.getD 2 0, inp.getD 3 0] = inp.take 4 :=
      octets 0 (by omega)
    have hpad : [0xAA, 0xAA, 0xAA, 0xAA] = (inp.drop 12).take 4 := hok.2.symm
    rw [labHdrPack, hhead, hpad, put32_get32 (by omega), put32_get32 (by omega)]
    simp only [← List.take_add]
    exact List.take_of_length_le hlen.le
  · exact absurd hparse (by simp)

theorem Payload.fits_code (p : Payload) : p.Fits p.kind.code := by
  intro kind hk
  rw [Kind.ofCode_code] at hk
  exact Option.some.inj hk

theorem payload_pack_ok {payload : Payload} {code : UInt8} {capacity : ℕ} (h : payload.Fits code)
    (hlen : labPayloadLen code ≠ 0) (hroom : labPayloadLen code ≤ capacity) (out : List UInt8) :
    labPayloadPackInto out capacity code payload =
      (labPayloadPack payload ++ out.drop (labPayloadLen code), true) := by
  rw [labPayloadPackInto_eq h, if_neg (by omega)]

theorem payload_parse_pack (p q : Payload) :
    labPayloadParseInto (labPayloadPack p) p.kind.code q = (p, true) := by
  rw [labPayloadParseInto_eq, labPayloadParse_known, if_pos (length_labPayloadPack p), read_pack]

theorem payload_parse_known {kind : Kind} {inp : List UInt8} (h : inp.length = kind.payloadLen)
    (q : Payload) : labPayloadParseInto inp kind.code q = (kind.read inp, true) := by
  rw [labPayloadParseInto_eq, labPayloadParse_known, if_pos h]

theorem payload_parse_ok_iff (inp : List UInt8) (code : UInt8) (q : Payload) :
    (labPayloadParseInto inp code q).2 = true ↔
      inp.length = labPayloadLen code ∧ labPayloadLen code ≠ 0 := by
  rw [labPayloadParseInto_eq]
  cases hcode : Kind.ofCode code with
  | none => simp [labPayloadParse_unknown hcode, labPayloadLen_unknown hcode]
  | some kind =>
    obtain rfl := Kind.ofCode_eq hcode
    have hpos := kind.payloadLen_pos
    rw [labPayloadParse_known, labPayloadLen_code]
    by_cases h : inp.length = kind.payloadLen
    · rw [if_pos h]
      exact ⟨fun _ => ⟨h, by omega⟩, fun _ => rfl⟩
    · simp [h]

theorem payload_parse_failed {inp : List UInt8} {code : UInt8} {q : Payload}
    (h : (labPayloadParseInto inp code q).2 = false) : (labPayloadParseInto inp code q).1 = q := by
  rw [labPayloadParseInto_eq] at h ⊢
  cases hp : labPayloadParse inp code with
  | none => rfl
  | some p => simp [hp] at h

theorem labHdr_parse_failed {inp : List UInt8} {g : LabHdr} (h : (labHdrParseInto inp g).2 = false) :
    (labHdrParseInto inp g).1 = g := by
  rw [labHdrParseInto] at h ⊢
  cases hp : labHdrParse inp with
  | none => rfl
  | some p => simp [hp] at h

/-- The wire format keeps every value, in both directions, and touches nothing else. -/
theorem lab_wire_format :
    (∀ (p q : Payload) (out : List UInt8) (capacity : ℕ), labPayloadLen p.kind.code ≤ capacity →
      ∃ packed, labPayloadPackInto out capacity p.kind.code p = (packed, true) ∧
        labPayloadParseInto (packed.take (labPayloadLen p.kind.code)) p.kind.code q = (p, true)) ∧
    (∀ (kind : Kind) (inp out : List UInt8) (capacity : ℕ) (q : Payload),
      inp.length = labPayloadLen kind.code → inp.length ≤ capacity →
      ∃ p, p.kind = kind ∧ labPayloadParseInto inp kind.code q = (p, true) ∧
        labPayloadPackInto out capacity kind.code p = (inp ++ out.drop inp.length, true)) ∧
    (∀ (h g : LabHdr) (out : List UInt8), ∃ packed : List UInt8, packed.length = 16 ∧
      labHdrPackInto out h = packed ++ out.drop 16 ∧
      labHdrParseInto packed g = ({ h with pad := Vector.replicate 4 0xAA }, true)) ∧
    (∀ (inp out : List UInt8) (g : LabHdr), inp.length = 16 → inp.drop 12 = List.replicate 4 0xAA →
      ∃ h, labHdrParseInto inp g = (h, true) ∧ labHdrPackInto out h = inp ++ out.drop 16) ∧
    (∀ (inp : List UInt8) (code : UInt8) (q : Payload),
      ((labPayloadParseInto inp code q).2 = true ↔
        inp.length = labPayloadLen code ∧ labPayloadLen code ≠ 0) ∧
      ((labPayloadParseInto inp code q).2 = false → (labPayloadParseInto inp code q).1 = q)) ∧
    (∀ (inp : List UInt8) (g : LabHdr),
      (labHdrParseInto inp g).2 = false → (labHdrParseInto inp g).1 = g) ∧
    ∀ (p : Payload) (code : UInt8) (capacity : ℕ), p.Fits code →
      (labPayloadLen code ≠ 0 ∧ labPayloadLen code ≤ capacity → ∃ packed : List UInt8,
        packed.length = labPayloadLen code ∧
        ∀ out, labPayloadPackInto out capacity code p = (packed ++ out.drop packed.length, true)) ∧
      (¬(labPayloadLen code ≠ 0 ∧ labPayloadLen code ≤ capacity) →
        ∀ out, labPayloadPackInto out capacity code p = (out, false)) := by
  refine ⟨?_, ?_, ?_, ?_, ?_, fun inp g => labHdr_parse_failed, ?_⟩
  · intro p q out capacity hroom
    have hpos := p.kind.payloadLen_pos
    rw [← labPayloadLen_code] at hpos
    refine ⟨_, payload_pack_ok p.fits_code (by omega) hroom out, ?_⟩
    rw [List.take_left' (labPayloadPack_length p), payload_parse_pack]
  · intro kind inp out capacity q hlen hroom
    have hpos := kind.payloadLen_pos
    have hsize := labPayloadLen_code kind
    have hkind := kind_read kind inp
    have hfits : (kind.read inp).Fits kind.code := by
      have h := (kind.read inp).fits_code
      rwa [hkind] at h
    refine ⟨kind.read inp, hkind, payload_parse_known (by omega) q, ?_⟩
    rw [payload_pack_ok hfits (by omega) (by omega), pack_read (by omega), hlen]
  · intro h g out
    refine ⟨labHdrPack h, length_labHdrPack h, labHdrPackInto_eq out h, ?_⟩
    rw [labHdrParseInto, labHdr_parse_pack]
  · intro inp out g hlen hpad
    have hok : 16 ≤ inp.length ∧ (inp.drop 12).take 4 = List.replicate 4 0xAA := by
      refine ⟨hlen.ge, ?_⟩
      rw [hpad]
      rfl
    obtain ⟨h, hparse⟩ : ∃ h, labHdrParse inp = some h := ⟨_, by rw [labHdrParse_eq, if_pos hok]⟩
    refine ⟨h, by rw [labHdrParseInto, hparse], ?_⟩
    rw [labHdrPackInto_eq, labHdr_pack_parse hlen hparse]
  · intro inp code q
    exact ⟨payload_parse_ok_iff inp code q, payload_parse_failed⟩
  · intro p code capacity hfits
    refine ⟨?_, ?_⟩
    · rintro ⟨hne, hroom⟩
      obtain ⟨kind, hkind⟩ : ∃ kind, Kind.ofCode code = some kind := by
        cases hcode : Kind.ofCode code with
        | none => exact absurd (labPayloadLen_unknown hcode) hne
        | some kind => exact ⟨kind, rfl⟩
      have hlen : (labPayloadPack p).length = labPayloadLen code := by
        rw [length_labPayloadPack, hfits kind hkind, Kind.ofCode_eq hkind, labPayloadLen_code]
      refine ⟨labPayloadPack p, hlen, fun out => ?_⟩
      rw [payload_pack_ok hfits hne hroom, hlen]
    · intro hbad out
      rw [labPayloadPackInto_eq hfits, if_pos (by omega)]

def samplePing : Payload := .ping ⟨Vector.replicate 16 7, Vector.replicate 16 9, 0x0102030405060708⟩

theorem lab_wire_format_ping :
    (∃ packed, labPayloadPackInto [] 40 0x10 samplePing = (packed, true) ∧
      labPayloadParseInto (packed.take 40) 0x10 samplePing = (samplePing, true)) ∧
    (∃ p, p.kind = .ping ∧ labPayloadParseInto (List.replicate 40 3) 0x10 samplePing = (p, true) ∧
      labPayloadPackInto [5] 40 0x10 p = (List.replicate 40 3 ++ [], true)) ∧
    (labPayloadParseInto [] 0x50 samplePing).1 = samplePing ∧
    labPayloadPackInto [5] 39 0x10 samplePing = ([5], false) := by
  obtain ⟨hback, hforth, -, -, hparse, -, hpack⟩ := lab_wire_format
  exact ⟨hback samplePing samplePing [] 40 (by decide),
    hforth .ping (List.replicate 40 3) [5] 40 samplePing (by decide) (by decide),
    (hparse [] 0x50 samplePing).2 (by decide),
    (hpack samplePing 0x10 39 samplePing.fits_code).2 (by decide) [5]⟩

end ArenaLab
