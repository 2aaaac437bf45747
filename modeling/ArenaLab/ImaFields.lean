import ArenaLab.ImaReplay

/-! The fields of the template data: what `fields_valid` accepts. -/

namespace ArenaLab

/-- A field of the template data with its length in front. -/
def frame (f : List UInt8) : List UInt8 := LittleEndian.bytes f.length 4 ++ f

/-- A known algorithm and a digest of its length. -/
def DigestField (f : List UInt8) : Prop :=
  ∃ name length, (name, length) ∈ digestNames ∧ ∃ digest, f = name ++ digest ∧ digest.length = length

/-- A path of at most 4096 bytes whose only NUL is the last byte. -/
def PathField (f : List UInt8) : Prop := ∃ path, f = path ++ [0] ∧ 0 ∉ path ∧ f.length ≤ 4096

/-- What `fields_valid` asks of a field at its place. -/
def FieldOk (field : ℕ) (f : List UInt8) : Prop :=
  (field = 0 → DigestField f) ∧ (field = 1 → PathField f)

def FieldsFrom : ℕ → List (List UInt8) → Prop
  | _, [] => True
  | field, f :: fs => FieldOk field f ∧ FieldsFrom (field + 1) fs

theorem slice_slice (data : List UInt8) {off n m : ℕ} (h : n ≤ m) :
    ((data.drop off).take m).take n = (data.drop off).take n := by
  rw [List.take_take, Nat.min_eq_left h]

theorem digestLoop_eq {data : List UInt8} {off size : ℕ} (h : off + size ≤ data.length)
    (names : List (List UInt8 × ℕ)) : ∃ b, digestLoop data off size names = .ok b ∧
      (b = true ↔ ∃ name length, (name, length) ∈ names ∧
        ∃ digest, (data.drop off).take size = name ++ digest ∧ digest.length = length) := by
  induction names with
  | nil => exact ⟨false, rfl, by simp⟩
  | cons entry names ih =>
    obtain ⟨name, len⟩ := entry
    obtain ⟨b, hb, hiff⟩ := ih
    have hsize : ((data.drop off).take size).length = size := by
      rw [List.length_take, List.length_drop]
      omega
    have hskip : (∀ digest, (data.drop off).take size = name ++ digest → digest.length ≠ len) →
        (b = true ↔ ∃ name' length, (name', length) ∈ (name, len) :: names ∧
          ∃ digest, (data.drop off).take size = name' ++ digest ∧ digest.length = length) := by
      intro hno
      rw [hiff]
      constructor
      · rintro ⟨name', length, hmem, hdig⟩
        exact ⟨name', length, List.mem_cons_of_mem _ hmem, hdig⟩
      · rintro ⟨name', length, hmem, digest, he, hl⟩
        rcases List.mem_cons.mp hmem with heq | hmem
        · obtain ⟨rfl, rfl⟩ := Prod.mk.inj heq
          exact absurd hl (hno digest he)
        · exact ⟨name', length, hmem, digest, he, hl⟩
    by_cases hfit : size = name.length + len
    · have hslice : off + name.length ≤ data.length := by omega
      by_cases hname : (data.drop off).take name.length = name
      · refine ⟨true, ?_, ?_⟩
        · rw [digestLoop, if_pos hfit, Checked.slice_eq hslice]
          simp [Except.bind, hname]
        · refine ⟨fun _ => ⟨name, len, by simp, ((data.drop off).take size).drop name.length, ?_, ?_⟩,
            fun _ => rfl⟩
          · have hpre : ((data.drop off).take size).take name.length = name := by
              rw [slice_slice data (by omega), hname]
            have hcut := List.take_append_drop name.length ((data.drop off).take size)
            rw [hpre] at hcut
            exact hcut.symm
          · rw [List.length_drop, hsize]
            omega
      · refine ⟨b, ?_, hskip ?_⟩
        · rw [digestLoop, if_pos hfit, Checked.slice_eq hslice]
          simp [Except.bind, hname, hb]
        · intro digest he _
          apply hname
          rw [← slice_slice data (show name.length ≤ size by omega), he, List.take_left]
    · refine ⟨b, ?_, hskip ?_⟩
      · rw [digestLoop, if_neg hfit, hb]
      · intro digest he hl
        apply hfit
        have hlen := congrArg List.length he
        rw [hsize, List.length_append, hl] at hlen
        exact hlen

theorem digestField_eq {data : List UInt8} {off size : ℕ} (h : off + size ≤ data.length) :
    ∃ b, digestField data off size = .ok b ∧ (b = true ↔ DigestField ((data.drop off).take size)) :=
  digestLoop_eq h digestNames

theorem pathField_eq {data : List UInt8} {off size : ℕ} (h : off + size ≤ data.length) :
    ∃ b, pathField data off size = .ok b ∧ (b = true ↔ PathField ((data.drop off).take size)) := by
  have hsize : ((data.drop off).take size).length = size := by
    rw [List.length_take, List.length_drop]
    omega
  rw [pathField]
  by_cases hbounds : size = 0 ∨ 4096 < size
  · refine ⟨false, if_pos hbounds, ?_⟩
    simp only [Bool.false_eq_true, false_iff]
    rintro ⟨path, he, _, hle⟩
    have hlen := congrArg List.length he
    rw [hsize] at hlen hle
    simp only [List.length_append, List.length_singleton] at hlen
    omega
  · rw [if_neg hbounds, Checked.sub_eq (by omega)]
    simp only [Except.bind]
    rw [Checked.slice_eq (by omega)]
    simp only
    have hsplit : (data.drop off).take size =
        (data.drop off).take (size - 1) ++ (data.drop (off + size - 1)).take 1 := by
      have hone : size = size - 1 + 1 := by omega
      rw [hone, List.take_add, List.drop_drop]
      congr 3
    by_cases hfinal : (data.drop (off + size - 1)).take 1 = [0]
    · rw [if_neg (by simpa using hfinal), Checked.sub_eq (by omega)]
      simp only
      rw [Checked.slice_eq (by omega)]
      refine ⟨_, rfl, ?_⟩
      rw [hfinal] at hsplit
      rw [hsplit]
      simp only [Bool.not_eq_true', List.contains_eq_mem, decide_eq_false_iff_not]
      constructor
      · intro hno
        refine ⟨_, rfl, hno, ?_⟩
        rw [← hsplit, hsize]
        omega
      · rintro ⟨path, he, hno, _⟩
        rw [(List.append_inj' he rfl).1]
        exact hno
    · rw [if_pos (by simpa using hfinal)]
      refine ⟨false, rfl, ?_⟩
      simp only [Bool.false_eq_true, false_iff]
      rintro ⟨path, he, _, _⟩
      rw [hsplit] at he
      have hone : ((data.drop (off + size - 1)).take 1).length = 1 := by
        rw [List.length_take, List.length_drop]
        omega
      exact hfinal (List.append_inj' he hone).2

section

variable {data : List UInt8} {offset : ℕ}

theorem length_frame (f : List UInt8) : (frame f).length = 4 + f.length := by
  simp [frame]

theorem value_length {f : List UInt8} (h : f.length < 2 ^ 32) :
    LittleEndian.value (LittleEndian.bytes f.length 4) = f.length := by
  rw [LittleEndian.value_bytes]
  exact Nat.mod_eq_of_lt (by omega)

theorem frame_split {f rest xs : List UInt8} (hf : f.length < 2 ^ 32) (h : xs = frame f ++ rest) :
    LittleEndian.value (xs.take 4) = f.length ∧ (xs.drop 4).take f.length = f ∧
      xs.drop (4 + f.length) = rest := by
  have hfour : (LittleEndian.bytes f.length 4).length = 4 := LittleEndian.length_bytes _ _
  rw [h, frame, List.append_assoc]
  refine ⟨?_, ?_, ?_⟩
  · rw [List.take_left' hfour, value_length hf]
  · rw [List.drop_left' hfour, List.take_left]
  · rw [← List.drop_drop, List.drop_left' hfour, List.drop_left]

theorem frame_join (xs : List UInt8) (h4 : 4 ≤ xs.length)
    (hle : LittleEndian.value (xs.take 4) ≤ xs.length - 4) :
    xs = frame ((xs.drop 4).take (LittleEndian.value (xs.take 4))) ++
      xs.drop (4 + LittleEndian.value (xs.take 4)) := by
  generalize hn : LittleEndian.value (xs.take 4) = n at hle ⊢
  have hlen : ((xs.drop 4).take n).length = n := by
    rw [List.length_take, List.length_drop]
    omega
  have hfour : (xs.take 4).length = 4 := List.length_take_of_le h4
  have hhead : LittleEndian.bytes n 4 = xs.take 4 := by
    have hb := LittleEndian.bytes_value (xs.take 4)
    rw [hn, hfour] at hb
    exact hb
  rw [frame, hlen, hhead, List.append_assoc, ← List.drop_drop, List.take_append_drop,
    List.take_append_drop]

theorem test_eq (p : Prop) [Decidable p] {x : Ima Bool} {Q : Prop}
    (h : ∃ b, x = .ok b ∧ (b = true ↔ Q)) :
    ∃ b, (if p then x else .ok true) = .ok b ∧ (b = true ↔ (p → Q)) := by
  obtain ⟨b, hx, hiff⟩ := h
  by_cases hp : p
  · exact ⟨b, by rw [if_pos hp, hx], by simp [hp, hiff]⟩
  · exact ⟨true, if_neg hp, by simp [hp]⟩

/-- The loop accepts exactly the data that splits into fields of the right kind. -/
theorem fieldsLoop_eq (hdata : data.length < 2 ^ 32) (todo field offset : ℕ) (hoff : offset ≤ data.length) :
    ∃ b, fieldsLoop data data.length todo field offset = .ok b ∧
      (b = true ↔ ∃ fs : List (List UInt8), fs.length = todo ∧ data.drop offset = fs.flatMap frame ∧
      FieldsFrom field fs) := by
  induction todo generalizing field offset with
  | zero =>
    refine ⟨_, rfl, ?_⟩
    simp only [decide_eq_true_eq]
    constructor
    · rintro rfl
      exact ⟨[], rfl, by simp, trivial⟩
    · rintro ⟨fs, hlen, hd, _⟩
      rw [List.eq_nil_of_length_eq_zero hlen, List.flatMap_nil, List.drop_eq_nil_iff] at hd
      omega
  | succ todo ih =>
    have hxs : (data.drop offset).length = data.length - offset := List.length_drop
    have hrefuse : (∀ f (fs : List (List UInt8)), data.drop offset = frame f ++ fs.flatMap frame →
      ¬FieldOk field f) →
        (false = true ↔ ∃ fs : List (List UInt8), fs.length = todo + 1 ∧ data.drop offset = fs.flatMap frame ∧
          FieldsFrom field fs) := by
      intro hno
      simp only [Bool.false_eq_true, false_iff]
      rintro ⟨fs, hlen, hd, hok⟩
      cases fs with
      | nil => cases hlen
      | cons f fs =>
        rw [List.flatMap_cons] at hd
        exact hno f fs hd hok.1
    have hsmall : ∀ f (fs : List (List UInt8)), data.drop offset = frame f ++ fs.flatMap frame →
        4 + f.length ≤ data.length - offset ∧ f.length < 2 ^ 32 := by
      intro f fs hd
      have hl := congrArg List.length hd
      rw [hxs, List.length_append, length_frame] at hl
      omega
    rw [fieldsLoop, Checked.sub_eq hoff]
    simp only [Except.bind]
    by_cases h4 : data.length - offset < 4
    · rw [if_pos h4]
      refine ⟨false, rfl, hrefuse ?_⟩
      intro f fs hd
      have := hsmall f fs hd
      omega
    · rw [if_neg h4, le32_eq (by omega)]
      simp only
      rw [Checked.sub_eq (by omega)]
      simp only
      by_cases hfit : data.length - (offset + 4) < LittleEndian.value ((data.drop offset).take 4)
      · rw [if_pos hfit]
        refine ⟨false, rfl, hrefuse ?_⟩
        intro f fs hd _
        obtain ⟨hle, hlt⟩ := hsmall f fs hd
        rw [(frame_split hlt hd).1] at hfit
        omega
      · rw [if_neg hfit]
        have hjoin := frame_join (data.drop offset) (by omega) (by omega)
        generalize hn : LittleEndian.value ((data.drop offset).take 4) = n at hfit hjoin ⊢
        rw [List.drop_drop, List.drop_drop, ← Nat.add_assoc] at hjoin
        have hthe : ∀ f (fs : List (List UInt8)), data.drop offset = frame f ++ fs.flatMap frame →
            f = (data.drop (offset + 4)).take n ∧ data.drop (offset + 4 + n) = fs.flatMap frame := by
          intro f fs hd
          obtain ⟨hval, hf, hrest⟩ := frame_split (hsmall f fs hd).2 hd
          have he : n = f.length := hn.symm.trans hval
          rw [List.drop_drop, ← he] at hf
          rw [List.drop_drop, ← he, ← Nat.add_assoc] at hrest
          exact ⟨hf.symm, hrest⟩
        have hin : offset + 4 + n ≤ data.length := by omega
        obtain ⟨known, hknown, hdig⟩ := test_eq (field = 0) (digestField_eq hin)
        obtain ⟨path, hpath, hpth⟩ := test_eq (field = 1) (pathField_eq hin)
        obtain ⟨b, hb, hiff⟩ := ih (field + 1) (offset + 4 + n) hin
        rw [hknown, hpath, hb]
        have hok : ∀ f (fs : List (List UInt8)), data.drop offset = frame f ++ fs.flatMap frame →
            FieldOk field f → known = true ∧ path = true := by
          intro f fs hd hf
          rw [(hthe f fs hd).1] at hf
          exact ⟨hdig.mpr hf.1, hpth.mpr hf.2⟩
        cases known with
        | false => exact ⟨false, rfl, hrefuse (fun f fs hd hf => by cases (hok f fs hd hf).1)⟩
        | true =>
          cases path with
          | false => exact ⟨false, rfl, hrefuse (fun f fs hd hf => by cases (hok f fs hd hf).2)⟩
          | true =>
            refine ⟨b, rfl, hiff.trans ?_⟩
            constructor
            · rintro ⟨fs, hlen, hd, hfs⟩
              refine ⟨(data.drop (offset + 4)).take n :: fs, by simp [hlen], ?_, ?_, hfs⟩
              · rw [List.flatMap_cons, ← hd]
                exact hjoin
              · exact ⟨hdig.mp rfl, hpth.mp rfl⟩
            · rintro ⟨fs, hlen, hd, hfs⟩
              cases fs with
              | nil => cases hlen
              | cons f fs =>
                rw [List.flatMap_cons] at hd
                exact ⟨fs, by simpa using hlen, (hthe f fs hd).2, hfs.2⟩

end

end ArenaLab
