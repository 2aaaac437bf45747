import ArenaLab.LabWorker

/-! The frames between the worker and its supervisor, as they are written and read, and
the supervisor's waits for them. -/

namespace ArenaLab

section

variable {data rest bytes : List UInt8} {datas : List (List UInt8)} {cut : ℕ → Option ℕ} {n k : ℕ}

theorem readFrame_encode (hpos : 0 < data.length) (hmax : data.length ≤ 256) (rest : List UInt8) :
    readFrame (Framing.encode data ++ rest) = some (data, rest) := by
  have hlen := Framing.length_encode data
  have hfour : (Framing.encode data ++ rest).drop 4 = data ++ rest := by
    rw [Framing.encode, List.append_assoc]
    exact List.drop_left' (HexText.bigEndian_length 4 _)
  rw [readFrame, Framing.header_encode (by omega)]
  simp only [hfour]
  rw [if_neg (by rw [List.length_append]; omega), List.take_left, ← hlen, List.drop_left]

theorem frameRead_encode (hpos : 0 < data.length) (hmax : data.length ≤ 256) (rest : List UInt8) :
    frameRead 256 (Framing.encode data ++ rest) = some data := by
  have hfour : (Framing.encode data ++ rest).drop 4 = data ++ rest := by
    rw [Framing.encode, List.append_assoc]
    exact List.drop_left' (HexText.bigEndian_length 4 _)
  rw [frameRead, Framing.header_encode (by omega)]
  simp only [hfour]
  rw [if_neg (by rw [List.length_append]; omega), List.take_left]

/-- Each of these is ready within the timeout from when the one before has come. -/
def Prompt : ℚ → List ℚ → Prop
  | _, [] => True
  | now, ready :: rest => ready - now < frameTimeout ∧ Prompt (max now ready) rest

/-- What comes within the timeout from the start is in time, in any order. -/
theorem prompt_of_quick {times : List ℚ} {now : ℚ} (h : ∀ ready ∈ times, ready < now + frameTimeout) :
    Prompt now times := by
  induction times generalizing now with
  | nil => trivial
  | cons ready times ih =>
    have hready := h ready List.mem_cons_self
    refine ⟨by linarith, ih fun r hr => ?_⟩
    have hlater := h r (List.mem_cons_of_mem _ hr)
    exact hlater.trans_le (by gcongr; exact le_max_left now ready)

/-- One wait after another. -/
def waitAll : ℚ → List ℚ → Option ℚ
  | now, [] => some now
  | now, ready :: rest => (waitFor now ready).bind (fun now => waitAll now rest)

theorem waitAll_isSome {times : List ℚ} {now : ℚ} : (waitAll now times).isSome = true ↔ Prompt now times := by
  induction times generalizing now with
  | nil => simp [waitAll, Prompt]
  | cons ready times ih =>
    rw [waitAll, waitFor, Prompt]
    by_cases hquick : ready - now < frameTimeout
    · rw [if_pos hquick, Option.bind_some, ih]
      exact (and_iff_right hquick).symm
    · rw [if_neg hquick]
      exact ⟨fun h => (by cases h), fun h => absurd h.1 hquick⟩

theorem waitAll_append (now : ℚ) (times times' : List ℚ) :
    waitAll now (times ++ times') = (waitAll now times).bind (fun now => waitAll now times') := by
  induction times generalizing now with
  | nil => rfl
  | cons ready times ih =>
    rw [List.cons_append, waitAll, waitAll]
    cases waitFor now ready with
    | none => rfl
    | some later => exact ih later

variable {framed : ℕ → ℚ} {now now' : ℚ}

theorem readFrames_stream (h : ∀ p ∈ datas, 0 < p.length ∧ p.length ≤ 256) (rest : List UInt8) :
    readFrames framed datas.length k now (Framing.stream datas ++ rest) =
      (waitAll now ((List.range' k datas.length).map framed)).map (fun now => (datas, rest, now)) := by
  induction datas generalizing k now with
  | nil => rfl
  | cons p ps ih =>
    obtain ⟨hpos, hmax⟩ := h p List.mem_cons_self
    rw [Framing.stream_cons, List.append_assoc, List.length_cons, readFrames, readFrame_encode hpos hmax,
      List.range'_succ, List.map_cons, waitAll]
    cases waitFor now (framed k) with
    | none => rfl
    | some later =>
      simp only [ih (fun q hq => h q (List.mem_cons_of_mem _ hq)), Option.map_map, Option.bind_some]
      rfl

theorem readFrames_waits (h : readFrames framed n k now bytes = some (datas, rest, now')) :
    waitAll now ((List.range' k n).map framed) = some now' := by
  induction n generalizing k now bytes datas with
  | zero =>
    obtain ⟨-, -, rfl⟩ := h
    rfl
  | succ n ih =>
    rw [readFrames] at h
    rw [List.range'_succ, List.map_cons, waitAll]
    split at h
    · rename_i later data rest' hwait hread
      obtain ⟨⟨ds, r, later'⟩, hmore, he⟩ := Option.map_eq_some_iff.mp h
      obtain ⟨-, -, rfl⟩ := he
      rw [hwait, Option.bind_some]
      exact ih hmore
    · cases h

theorem frameWrite_prefix (cut : Option ℕ) (data : List UInt8) :
    (frameWrite cut data).1 <+: Framing.encode data ∧
      ((frameWrite cut data).2 = true → (frameWrite cut data).1 = Framing.encode data) := by
  cases cut with
  | none => exact ⟨List.prefix_rfl, fun _ => rfl⟩
  | some n => exact ⟨List.take_prefix n _, fun h => by cases h⟩

theorem frameWrites_prefix (cut : ℕ → Option ℕ) (k : ℕ) (datas : List (List UInt8)) :
    (frameWrites cut k datas).1 <+: Framing.stream datas ∧
      ((frameWrites cut k datas).2 = true → (frameWrites cut k datas).1 = Framing.stream datas) := by
  induction datas generalizing k with
  | nil => exact ⟨List.prefix_rfl, fun _ => rfl⟩
  | cons data datas ih =>
    obtain ⟨hpre, hfull⟩ := frameWrite_prefix (cut k) data
    rw [frameWrites, Framing.stream_cons]
    cases hw : frameWrite (cut k) data with
    | mk out ok =>
      rw [hw] at hpre hfull
      cases ok with
      | false => exact ⟨hpre.trans (List.prefix_append _ _), fun h => by cases h⟩
      | true =>
        obtain rfl := hfull rfl
        obtain ⟨hmore, hall⟩ := ih (k + 1)
        refine ⟨(List.prefix_append_right_inj _).mpr hmore, fun h => ?_⟩
        exact congrArg (Framing.encode data ++ ·) (hall h)

end

end ArenaLab
