import ArenaLab.JsonScanner
import Mathlib.Data.List.Nodup
import Mathlib.Tactic.Common

/-! What both strict readers accept, and that they accept the same. -/

namespace ArenaLab

open JsonText

def asciiText (data : List UInt8) : List Char := data.map (fun byte => Char.ofNat byte.toNat)

/-- No two names of one object are equal once unescaped. -/
def distinctKeys : Value → Bool
  | .object members => (members.map (fun m => unescape m.1)).Nodup
  | _ => true

def integral : Value → Bool
  | .number n => !isFloat n
  | _ => true

/-- The bytes that both sides of the pipe take for `t`. -/
structure IsStrict (data : List UInt8) (t : Value) : Prop where
  size : 1 ≤ data.length ∧ data.length ≤ 4096
  text : IsText words (asciiText data) t
  keys : t.holds distinctKeys = true
  nesting : t.height ≤ 4
  numbers : t.holds integral = true

namespace GatewayProtocol

theorem pairs_iff (items : List (List Char × Value)) (result : List (List ℕ)) : pairs result items = true ↔
    (items.map (fun m => unescape m.1)).Nodup ∧ ∀ k ∈ items.map (fun m => unescape m.1), k ∉ result := by
  induction items generalizing result with
  | nil => simp [pairs]
  | cons m items ih =>
    obtain ⟨key, t⟩ := m
    simp only [pairs, Bool.and_eq_true, ih, List.map_cons, List.nodup_cons, List.forall_mem_cons]
    simp only [Bool.not_eq_true', ← Bool.not_eq_true, List.contains_iff_mem, List.mem_cons, not_or]
    constructor
    · rintro ⟨hk, hnodup, hrest⟩
      exact ⟨⟨fun h => (hrest _ h).1 rfl, hnodup⟩, hk, fun k h => (hrest k h).2⟩
    · rintro ⟨⟨hkey, hnodup⟩, hk, hrest⟩
      refine ⟨hk, hnodup, fun k h => ⟨?_, hrest k h⟩⟩
      rintro rfl
      exact hkey h

theorem hook_iff {s : List Char} {t : Value} (h : IsText words s t) :
    t.holds hook = true ↔ t.holds distinctKeys = true := by
  have hwords : t.holds (onlyWords words) = true := Derives.onlyWords h
  have hconst : ∀ w ∈ words, (!constants.contains w) = true := by decide
  constructor
  · refine fun hh => holds_imp (p := hook) (q := hook) ?_ t hh hh
    intro t ht _
    cases t with
    | object members => exact decide_eq_true ((pairs_iff members []).1 ht).1
    | _ => rfl
  · refine fun hh => holds_imp (p := onlyWords words) (q := distinctKeys) ?_ t hwords hh
    intro t hw hd
    cases t with
    | word w => exact hconst w (List.contains_iff_mem.1 hw)
    | object members => exact (pairs_iff members []).2 ⟨of_decide_eq_true hd, by simp⟩
    | _ => rfl

theorem vocabulary_constants : Vocabulary (words ++ constants) := by
  constructor <;> decide

/-- The constants that `json.loads` knows beside the grammar are all refused. -/
theorem loads_eq_some {s : List Char} {t : Value} :
    loads s = some t ↔ IsText words s t ∧ t.holds distinctKeys = true := by
  simp only [loads, Option.filter_eq_some_iff, parse_eq_some vocabulary_constants]
  constructor
  · rintro ⟨htext, hhook⟩
    have hwords : t.holds (onlyWords (words ++ constants)) = true := Derives.onlyWords htext
    have hword : t.holds (onlyWords words) = true := by
      refine holds_imp (p := onlyWords (words ++ constants)) (q := hook) ?_ t hwords hhook
      intro t hw hh
      cases t with
      | word w =>
        have hc : w ∉ constants := by simpa [hook] using hh
        have hm : w ∈ words ∨ w ∈ constants := by simpa [onlyWords] using hw
        exact List.contains_iff_mem.2 (hm.resolve_right hc)
      | _ => rfl
    have htext' : IsText words s t := Derives.transfer htext hword
    exact ⟨htext', (hook_iff htext').1 hhook⟩
  · rintro ⟨htext, hkeys⟩
    refine ⟨Derives.transfer htext ?_, (hook_iff htext).2 hkeys⟩
    have hwords : t.holds (onlyWords words) = true := Derives.onlyWords htext
    refine holds_imp (p := onlyWords words) (q := onlyWords words) ?_ t hwords hwords
    intro t hw _
    cases t with
    | word w => exact List.contains_iff_mem.2 (List.mem_append_left _ (List.contains_iff_mem.1 hw))
    | _ => rfl

mutual

theorem depth_iff : ∀ (t : Value) (level : ℕ), level ≤ 4 →
    (depth level t = true ↔ level + t.height ≤ 4 ∧ t.holds integral = true)
  | .word w, level, h => by simp [depth, Value.height, Value.holds, integral]
  | .number n, level, h => by simp [depth, Value.height, Value.holds, integral]
  | .string b, level, h => by simp [depth, Value.height, Value.holds, integral]
  | .array items, level, h => by
    simp only [depth, Value.height, Value.holds, integral, Bool.and_eq_true, decide_eq_true_eq, true_and]
    by_cases hl : level ≤ 3
    · rw [depthItems_iff items (level + 1) (by omega)]
      constructor
      · rintro ⟨-, hd, hn⟩
        exact ⟨by omega, hn⟩
      · rintro ⟨hd, hn⟩
        exact ⟨hl, by omega, hn⟩
    · constructor
      · rintro ⟨hl', -⟩
        exact absurd hl' hl
      · rintro ⟨hd, -⟩
        omega
  | .object members, level, h => by
    simp only [depth, Value.height, Value.holds, integral, Bool.and_eq_true, decide_eq_true_eq, true_and]
    by_cases hl : level ≤ 3
    · rw [depthValues_iff members (level + 1) (by omega)]
      constructor
      · rintro ⟨-, hd, hn⟩
        exact ⟨by omega, hn⟩
      · rintro ⟨hd, hn⟩
        exact ⟨hl, by omega, hn⟩
    · constructor
      · rintro ⟨hl', -⟩
        exact absurd hl' hl
      · rintro ⟨hd, -⟩
        omega

theorem depthItems_iff : ∀ (items : List Value) (level : ℕ), level ≤ 4 →
    (depthItems level items = true ↔ level + heightItems items ≤ 4 ∧ holdsItems integral items = true)
  | [], level, h => by simpa [depthItems, heightItems, holdsItems] using h
  | t :: items, level, h => by
    simp only [depthItems, heightItems, holdsItems, Bool.and_eq_true, depth_iff t level h,
      depthItems_iff items level h]
    constructor
    · rintro ⟨⟨hd, hn⟩, hd', hn'⟩
      exact ⟨by omega, hn, hn'⟩
    · rintro ⟨hd, hn, hn'⟩
      exact ⟨⟨by omega, hn⟩, by omega, hn'⟩

theorem depthValues_iff : ∀ (members : List (List Char × Value)) (level : ℕ), level ≤ 4 →
    (depthValues level members = true ↔ level + heightMembers members ≤ 4 ∧ holdsMembers integral members = true)
  | [], level, h => by simpa [depthValues, heightMembers, holdsMembers] using h
  | (_, t) :: members, level, h => by
    simp only [depthValues, heightMembers, holdsMembers, Bool.and_eq_true, depth_iff t level h,
      depthValues_iff members level h]
    constructor
    · rintro ⟨⟨hd, hn⟩, hd', hn'⟩
      exact ⟨by omega, hn, hn'⟩
    · rintro ⟨hd, hn, hn'⟩
      exact ⟨⟨by omega, hn⟩, by omega, hn'⟩

end

theorem utf8Encode_ascii {data : List UInt8} (h : ∀ byte ∈ data, byte ≤ 127) :
    (asciiText data).utf8Encode = ByteArray.mk data.toArray := by
  induction data with
  | nil => rfl
  | cons byte data ih =>
    have hbyte : byte.toNat ≤ 127 := UInt8.le_iff_toNat_le.1 (h byte (by simp))
    have hvalid : byte.toNat.isValidChar := Or.inl (by omega)
    have hval : (Char.ofNat byte.toNat).val.toNat = byte.toNat := by
      rw [Char.ofNat, dif_pos hvalid]
      rfl
    have hsize : (Char.ofNat byte.toNat).utf8Size = 1 := by
      rw [Char.utf8Size_eq_one_iff, UInt32.le_iff_toNat_le, hval]
      exact hbyte
    have hto : (Char.ofNat byte.toNat).val.toUInt8 = byte := by
      apply UInt8.toNat.inj
      rw [UInt32.toNat_toUInt8, hval]
      omega
    have ih := ih fun b hb => h b (by simp [hb])
    simp only [asciiText, List.map_cons] at ih ⊢
    rw [List.utf8Encode_cons, ih, List.utf8Encode_singleton, String.utf8EncodeChar_eq_singleton hsize, hto]
    apply ByteArray.ext
    simp

theorem strictJson_eq_some {data : List UInt8} (h : ∀ byte ∈ data, byte ≤ 127) {t : Value} :
    strictJson data = some t ↔ IsStrict data t := by
  unfold strictJson
  rw [← utf8Encode_ascii h, List.utf8Decode?_utf8Encode]
  simp only [Option.ite_none_right_eq_some, Option.filter_eq_some_iff, loads_eq_some,
    depth_iff t 0 (by omega), Nat.zero_add]
  constructor
  · rintro ⟨hsize, ⟨htext, hkeys⟩, hnesting, hnumbers⟩
    exact ⟨hsize, htext, hkeys, hnesting, hnumbers⟩
  · rintro ⟨hsize, htext, hkeys, hnesting, hnumbers⟩
    exact ⟨hsize, ⟨htext, hkeys⟩, hnesting, hnumbers⟩

end GatewayProtocol

namespace GatewayProcess

open GatewayProtocol

theorem fits_iff {s : List Char} {t : Value} (h : IsText words s t) :
    fits 0 t = true ↔ t.holds distinctKeys = true ∧ t.height ≤ 4 ∧ t.holds integral = true := by
  rw [fits, Bool.and_eq_true, depth_iff t 0 (by omega), hook_iff h, Nat.zero_add]
  tauto

theorem body_no_nul {b : List Char} (h : IsBody b) : '\x00' ∉ b := by
  have hescape : '\x00' ∉ escapes := by decide
  induction h with
  | nil => simp
  | @plain c s hc _ _ _ ih =>
    have : '\x00' ≠ c := by
      rintro rfl
      exact absurd hc (by decide)
    simp [ih, this]
  | @escape c s hc _ ih =>
    have : '\x00' ≠ c := by
      rintro rfl
      exact hescape hc
    simp [ih, this]
  | @unicode a b c d s h _ ih =>
    have hne : ∀ x ∈ [a, b, c, d], '\x00' ≠ x := by
      rintro x hx rfl
      exact absurd (h _ hx) (by decide)
    simp only [List.mem_cons, List.not_mem_nil, or_false, forall_eq_or_imp, forall_eq] at hne
    simp [ih, hne]

theorem no_nul {p : Piece} {u : List Char} (h : Derives words p u) : '\x00' ∉ u := by
  have hblank : ∀ {w : List Char}, IsBlank w → '\x00' ∉ w := fun hw hc => absurd (hw _ hc) (by decide)
  have hwords : ∀ w ∈ words, '\x00' ∉ w := by decide
  induction h with
  | word h => exact hwords _ h
  | number h => exact fun hc => absurd (number_chars h _ hc) (by decide)
  | string h => simp [body_no_nul h]
  | emptyArray h => simp [hblank h]
  | array h ih => simp [ih]
  | emptyObject h => simp [hblank h]
  | object h ih => simp [ih]
  | element hw h hw' ih => simp [hblank hw, hblank hw', ih]
  | lastElement h ih => exact ih
  | moreElements h h' ih ih' => simp [ih, ih']
  | member hw hb hw' h ih => simp [hblank hw, body_no_nul hb, hblank hw', ih]
  | lastMember h ih => exact ih
  | moreMembers h h' ih ih' => simp [ih, ih']

theorem data_eq_some {t t' : Value} : GatewayProcess.data t' = some t ↔ t' = t ∧ t ≠ .word "null".toList := by
  constructor
  · intro h
    cases t' with
    | word w =>
      simp only [GatewayProcess.data, Option.ite_none_left_eq_some, Option.some.injEq] at h
      obtain ⟨hw, rfl⟩ := h
      exact ⟨rfl, by simpa using hw⟩
    | _ =>
      cases h
      exact ⟨rfl, by simp⟩
  · rintro ⟨rfl, h⟩
    cases t' with
    | word w =>
      have hw : w ≠ "null".toList := fun hw => h (by rw [hw])
      simp only [GatewayProcess.data, if_neg hw]
    | _ => rfl

theorem takeWhile_of_length {data : List UInt8} {p : UInt8 → Bool}
    (h : (data.takeWhile p).length = data.length) : data.takeWhile p = data :=
  (List.takeWhile_prefix p).eq_of_length h

theorem strictJson_eq_some {data : List UInt8} (h : ∀ byte ∈ data, byte ≤ 127) {t : Value} :
    strictJson data = some t ↔ IsStrict data t ∧ t ≠ .word "null".toList := by
  have hany : ¬data.any (fun byte => byte > 127) = true := by
    simpa using h
  have hsize : (data = [] ∨ data.length > 4096) ↔ ¬(1 ≤ data.length ∧ data.length ≤ 4096) := by
    rw [← List.length_eq_zero_iff]
    omega
  unfold strictJson
  simp only [if_neg hany, hsize, Option.ite_none_left_eq_some, not_not, List.length_map, ne_eq]
  constructor
  · rintro ⟨hsize, hlength, hscan⟩
    have htake := takeWhile_of_length hlength
    simp only [htake] at hscan
    split at hscan
    case h_2 => cases hscan
    case h_1 hrun =>
      obtain ⟨t', hparse, hdata⟩ := Option.bind_eq_some_iff.1 hscan
      obtain ⟨rfl, hnull⟩ := data_eq_some.1 hdata
      have htext := (parse_eq_some vocabulary_words).1 hparse
      have hscanned := scanned_text htext
      have hfits : fits 0 t' = true := by
        rw [scanned, List.length_map, hrun] at hscanned
        simpa using hscanned.symm
      obtain ⟨hkeys, hnesting, hnumbers⟩ := (fits_iff htext).1 hfits
      exact ⟨⟨hsize, htext, hkeys, hnesting, hnumbers⟩, hnull⟩
  · rintro ⟨⟨hsize, htext, hkeys, hnesting, hnumbers⟩, hnull⟩
    have hzero : ∀ byte ∈ data, (decide (byte ≠ 0)) = true := by
      intro byte hb
      refine decide_eq_true ?_
      rintro rfl
      exact no_nul htext (List.mem_map.2 ⟨0, hb, rfl⟩)
    have htake := List.takeWhile_eq_self_iff.2 hzero
    have hscanned := scanned_text htext
    rw [(fits_iff htext).2 ⟨hkeys, hnesting, hnumbers⟩, scanned, asciiText, List.length_map] at hscanned
    simp only [ne_eq] at htake
    refine ⟨hsize, by rw [htake], ?_⟩
    rw [htake, hscanned]
    exact Option.bind_eq_some_iff.2 ⟨t, (parse_eq_some vocabulary_words).2 htext, data_eq_some.2 ⟨rfl, hnull⟩⟩

end GatewayProcess

/-- Both readers take exactly the strict texts and give the same tree; a refusal and the text
`null` look the same to the game. The scanner stops on every text. -/
theorem strict_readers_agree (data : List UInt8) (hascii : ∀ byte ∈ data, byte ≤ 127) :
    (∀ t, GatewayProtocol.strictJson data = some t ↔ IsStrict data t) ∧
    (∀ t, GatewayProcess.strictJson data = some t ↔ IsStrict data t ∧ t ≠ .word "null".toList) ∧
    (∀ stack text, ∃ passed, GatewayProcess.scan text.length stack text = some passed) := by
  refine ⟨fun t => GatewayProtocol.strictJson_eq_some hascii, fun t => GatewayProcess.strictJson_eq_some hascii, ?_⟩
  intro stack text
  exact Option.isSome_iff_exists.1 (GatewayProcess.scanned_isSome stack text)

/-- The bytes of an object with one number. -/
def sampleObject : List UInt8 := [123, 34, 97, 34, 58, 49, 125]

theorem strict_readers_agree_on_object : (∀ byte ∈ sampleObject, byte ≤ 127) ∧
    GatewayProtocol.strictJson sampleObject = some (.object [(['a'], .number ['1'])]) ∧
    GatewayProcess.strictJson sampleObject = some (.object [(['a'], .number ['1'])]) := by
  have hascii : ∀ byte ∈ sampleObject, byte ≤ 127 := by decide +kernel
  have hstrict : IsStrict sampleObject (.object [(['a'], .number ['1'])]) :=
    ⟨by decide, (parse_eq_some vocabulary_words).1 rfl, by decide, by decide, by decide⟩
  obtain ⟨hpython, hgodot, -⟩ := strict_readers_agree sampleObject hascii
  exact ⟨hascii, (hpython _).2 hstrict, (hgodot _).2 ⟨hstrict, by simp⟩⟩

end ArenaLab
