import ArenaLab.ImaGrammar
import ArenaLab.HexText
import Mathlib.Data.List.Induction

/-! The replayed register pins the whole log, up to a collision of the hash. -/

namespace ArenaLab

def hashed (H : List UInt8 → Bytes 32) (pcr : Bytes 32) : List ImaRecord → List (List UInt8)
  | [] => []
  | r :: rs => r.data :: (pcr.toList ++ r.digest.toList) ::
      hashed H (H (pcr.toList ++ r.digest.toList)) rs

def HashedBy (H : List UInt8 → Bytes 32) (log x : List UInt8) : Prop :=
  ∃ rs, IsLog H rs log ∧ x ∈ hashed H zero32 rs

/-- Two logs are the same, or their replays exhibit a collision or a zero digest. -/
def Pinned (H : List UInt8 → Bytes 32) (log₁ log₂ : List UInt8) : Prop :=
  log₁ = log₂ ∨
  (∃ x y, (HashedBy H log₁ x ∨ HashedBy H log₂ x) ∧ (HashedBy H log₁ y ∨ HashedBy H log₂ y) ∧
    x ≠ y ∧ H x = H y) ∨
  ∃ x, (HashedBy H log₁ x ∨ HashedBy H log₂ x) ∧ H x = zero32

inductive ImaVerdict
  | quoteBound (records : ℕ)
  | mismatch
  | invalid
  | unavailable
  deriving DecidableEq

/-- The failures of the replayer that are not the log's fault. -/
def unavailableReasons : List String :=
  ["OPEN_ERROR", "READ_ERROR", "CLOCK_ERROR", "TIME_LIMIT", "CLOSE_ERROR"]

/-- `ImaQuoteVerifier.verify` after the quote: the result of the replayer
against the signed registers; a replayer that crashes gives no verdict. -/
def imaVerdict (value : Ima Replayed) (pcrs : List UInt8) : ImaVerdict :=
  match value with
  | .ok out =>
    if HexText.toHex out.pcr.toList = HexText.toHex pcrs then .quoteBound out.records else .mismatch
  | .error (.reject reason) => if reason.text ∈ unavailableReasons then .unavailable else .invalid
  | .error _ => .unavailable

section

variable {H : List UInt8 → Bytes 32} {pcr : Bytes 32} {r r' : ImaRecord} {rs rs' : List ImaRecord}

theorem frames_inj {fs gs : List (List UInt8)} (hsmall : (fs.flatMap frame).length < 2 ^ 32)
    (h : fs.flatMap frame = gs.flatMap frame) : fs = gs := by
  induction fs generalizing gs with
  | nil =>
    cases gs with
    | nil => rfl
    | cons g gs =>
      have hl := congrArg List.length h
      rw [List.flatMap_nil, List.flatMap_cons, List.length_nil, List.length_append, length_frame] at hl
      omega
  | cons f fs ih =>
    cases gs with
    | nil =>
      have hl := congrArg List.length h
      rw [List.flatMap_nil, List.flatMap_cons, List.length_nil, List.length_append, length_frame] at hl
      omega
    | cons g gs =>
      rw [List.flatMap_cons] at h hsmall
      rw [List.flatMap_cons] at h
      have hg : g.length < 2 ^ 32 := by
        have hl := congrArg List.length h
        have hr : (frame g ++ gs.flatMap frame).length = 4 + g.length + (gs.flatMap frame).length := by
          rw [List.length_append, length_frame]
        omega
      have hf : f.length < 2 ^ 32 := by
        rw [List.length_append, length_frame] at hsmall
        omega
      obtain ⟨hvf, htf, hdf⟩ := frame_split hf rfl
      obtain ⟨hvg, htg, hdg⟩ := frame_split hg h
      have hlen : f.length = g.length := hvf.symm.trans hvg
      have hfg : f = g := by
        rw [← htf, ← htg, hlen]
      have hrest : fs.flatMap frame = gs.flatMap frame := by
        rw [← hdf, ← hdg, hlen]
      rw [hfg, ih (by rw [List.length_append] at hsmall; omega) hrest]

theorem template_of_data (hv : r.Valid H) (hv' : r'.Valid H) (h : r.data = r'.data) :
    r.template = r'.template := by
  obtain ⟨f, g, fs, hdata, hlen, _⟩ := hv.fields
  obtain ⟨f', g', fs', hdata', hlen', _⟩ := hv'.fields
  have hsize := hv.size
  rw [hdata] at hsize
  have hfs := frames_inj (by omega) ((hdata.symm.trans h).trans hdata')
  rw [← hfs, hlen] at hlen'
  cases ht : r.template <;> cases ht' : r'.template <;> simp [ImaTemplate.fields, ht, ht'] at hlen' ⊢

theorem chain_snoc (H : List UInt8 → Bytes 32) (pcr : Bytes 32) (rs : List ImaRecord) (r : ImaRecord) :
    chain H pcr (rs ++ [r]) = H ((chain H pcr rs).toList ++ r.digest.toList) := by
  simp [chain]

theorem hashed_snoc (H : List UInt8 → Bytes 32) (pcr : Bytes 32) (rs : List ImaRecord) (r : ImaRecord) :
    hashed H pcr (rs ++ [r]) =
      hashed H pcr rs ++ [r.data, (chain H pcr rs).toList ++ r.digest.toList] := by
  induction rs generalizing pcr with
  | nil => rfl
  | cons r₀ rs ih =>
    simp only [List.cons_append, hashed, ih]
    rfl

/-- Records that lead to the same register are the same, or something they hash collides. -/
theorem chain_pins (hv : ∀ r ∈ rs, r.Valid H) (hv' : ∀ r ∈ rs', r.Valid H)
    (h : chain H zero32 rs = chain H zero32 rs') : rs = rs' ∨
    (∃ x y, x ∈ hashed H zero32 rs ++ hashed H zero32 rs' ∧ y ∈ hashed H zero32 rs ++ hashed H zero32 rs' ∧
      x ≠ y ∧ H x = H y) ∨
    ∃ x ∈ hashed H zero32 rs ++ hashed H zero32 rs', H x = zero32 := by
  induction rs using List.reverseRecOn generalizing rs' with
  | nil =>
    rcases List.eq_nil_or_concat rs' with rfl | ⟨rs', r', rfl⟩
    · exact .inl rfl
    · rw [List.concat_eq_append, chain_snoc] at h
      refine .inr (.inr ⟨_, ?_, h.symm⟩)
      simp [List.concat_eq_append, hashed_snoc]
  | append_singleton rs r ih =>
    rcases List.eq_nil_or_concat rs' with rfl | ⟨rs', r', rfl⟩
    · rw [chain_snoc] at h
      refine .inr (.inr ⟨_, ?_, h⟩)
      simp [hashed_snoc]
    · rw [List.concat_eq_append] at hv' h ⊢
      rw [chain_snoc, chain_snoc] at h
      simp only [hashed_snoc]
      by_cases hin : (chain H zero32 rs).toList ++ r.digest.toList =
          (chain H zero32 rs').toList ++ r'.digest.toList
      · obtain ⟨hpcr, hdigest⟩ := List.append_inj hin (by simp)
        have hr := hv r (by simp)
        have hr' := hv' r' (by simp)
        have hd : r.digest = r'.digest := Vector.toList_inj.mp hdigest
        by_cases hdata : r.data = r'.data
        · have hsame : r = r' := by
            have ht := template_of_data hr hr' hdata
            cases r
            cases r'
            simp only at hd ht hdata
            rw [hd, ht, hdata]
          rcases ih (fun x hx => hv x (by simp [hx])) (fun x hx => hv' x (by simp [hx]))
            (Vector.toList_inj.mp hpcr) with heq | ⟨x, y, hx, hy, hne, hh⟩ | ⟨x, hx, hz⟩
          · exact .inl (by rw [heq, hsame])
          · refine .inr (.inl ⟨x, y, ?_, ?_, hne, hh⟩)
            · simp only [List.mem_append] at hx ⊢
              tauto
            · simp only [List.mem_append] at hy ⊢
              tauto
          · refine .inr (.inr ⟨x, ?_, hz⟩)
            simp only [List.mem_append] at hx ⊢
            tauto
        · refine .inr (.inl ⟨r.data, r'.data, by simp, by simp, hdata, ?_⟩)
          rw [← hr.digest, ← hr'.digest, hd]
      · exact .inr (.inl ⟨_, _, by simp, by simp, hin, h⟩)

theorem quoteBound_pcr {value : Ima Replayed} {pcrs : List UInt8} {n : ℕ}
    (h : imaVerdict value pcrs = .quoteBound n) :
    ∃ out, value = .ok out ∧ out.pcr.toList = pcrs := by
  simp only [imaVerdict] at h
  split at h
  · rename_i out
    split at h
    · rename_i hhex
      exact ⟨out, rfl, HexText.toHex_inj hhex⟩
    · cases h
  · split at h <;> cases h
  · cases h

/-- The register pins the log: two accepted logs with the same register, or two
logs that pass against the same signed register, are the same log, unless their
replays exhibit a collision of the hash or an input that it maps to zero. -/
theorem replayed_pcr_pins_log (H : List UInt8 → Bytes 32) (reader₁ reader₂ : ℕ → ℕ)
    (log₁ log₂ : List UInt8) :
    (∀ out₁ out₂, replay H reader₁ log₁ = .ok out₁ → replay H reader₂ log₂ = .ok out₂ →
      out₁.pcr = out₂.pcr → Pinned H log₁ log₂) ∧
    ∀ pcrs n₁ n₂, imaVerdict (replay H reader₁ log₁) pcrs = .quoteBound n₁ →
      imaVerdict (replay H reader₂ log₂) pcrs = .quoteBound n₂ → Pinned H log₁ log₂ := by
  have hpins : ∀ out₁ out₂, replay H reader₁ log₁ = .ok out₁ → replay H reader₂ log₂ = .ok out₂ →
      out₁.pcr = out₂.pcr → Pinned H log₁ log₂ := by
    intro out₁ out₂ h₁ h₂ hpcr
    obtain ⟨rs₁, hlog₁, rfl⟩ := (replay_meets H reader₁ log₁).of_ok h₁
    obtain ⟨rs₂, hlog₂, rfl⟩ := (replay_meets H reader₂ log₂).of_ok h₂
    have hby : ∀ x ∈ hashed H zero32 rs₁ ++ hashed H zero32 rs₂, HashedBy H log₁ x ∨ HashedBy H log₂ x := by
      intro x hx
      rcases List.mem_append.mp hx with hx | hx
      · exact .inl ⟨rs₁, hlog₁, hx⟩
      · exact .inr ⟨rs₂, hlog₂, hx⟩
    rcases chain_pins hlog₁.valid hlog₂.valid hpcr with heq | ⟨x, y, hx, hy, hne, hh⟩ | ⟨x, hx, hz⟩
    · exact .inl (by rw [hlog₁.bytes, hlog₂.bytes, heq])
    · exact .inr (.inl ⟨x, y, hby x hx, hby y hy, hne, hh⟩)
    · exact .inr (.inr ⟨x, hby x hx, hz⟩)
  refine ⟨hpins, ?_⟩
  intro pcrs n₁ n₂ h₁ h₂
  obtain ⟨out₁, ho₁, hp₁⟩ := quoteBound_pcr h₁
  obtain ⟨out₂, ho₂, hp₂⟩ := quoteBound_pcr h₂
  exact hpins out₁ out₂ ho₁ ho₂ (Vector.toList_inj.mp (hp₁.trans hp₂.symm))

end

theorem sampleIma_twice : IsLog sampleImaHash [sampleImaRecord, sampleImaRecord]
    (sampleImaRecord.encode ++ sampleImaRecord.encode) where
  nonempty := by decide
  count := by decide
  valid := by
    intro r hr
    have hone : r = sampleImaRecord := by simpa using hr
    exact sampleIma_log.valid r (by rw [hone]; exact List.mem_singleton_self _)
  bytes := by simp

/-- The sample hash maps every register to the same one, so that a record and the same
record twice pass against one signed register. -/
theorem replayed_pcr_pins_log_sample : ∃ pcrs log₁ log₂, log₁ ≠ log₂ ∧
    imaVerdict (replay sampleImaHash (fun _ => 0) log₁) pcrs = .quoteBound 1 ∧
    imaVerdict (replay sampleImaHash (fun n => n) log₂) pcrs = .quoteBound 2 ∧
    Pinned sampleImaHash log₁ log₂ := by
  have hslow := replay_of_log (fun _ => 0) (by decide) sampleIma_log
  have hfast := replay_of_log (fun n => n) (by decide) sampleIma_twice
  have hbound₁ : imaVerdict (replay sampleImaHash (fun _ => 0) sampleImaRecord.encode)
      (chain sampleImaHash zero32 [sampleImaRecord]).toList = .quoteBound 1 := by
    rw [hslow, imaVerdict, if_pos rfl]
    rfl
  have hbound₂ : imaVerdict (replay sampleImaHash (fun n => n) (sampleImaRecord.encode ++ sampleImaRecord.encode))
      (chain sampleImaHash zero32 [sampleImaRecord]).toList = .quoteBound 2 := by
    have hsame : chain sampleImaHash zero32 [sampleImaRecord, sampleImaRecord] =
        chain sampleImaHash zero32 [sampleImaRecord] := by decide +kernel
    rw [hfast, hsame, imaVerdict, if_pos rfl]
    rfl
  refine ⟨_, _, _, by decide, hbound₁, hbound₂, ?_⟩
  exact (replayed_pcr_pins_log _ _ _ _ _).2 _ _ _ hbound₁ hbound₂

end ArenaLab
