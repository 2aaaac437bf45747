import ArenaLab.BoundNonceInj
import ArenaLab.JsonAgreement
import Mathlib.Data.List.Sort
import Mathlib.Tactic.Common

/-! What `json.dumps` writes is a text of the grammar, in ASCII. -/

namespace ArenaLab

open JsonText

def escaped (s : String) : List Char := s.toList.flatMap jsonEscape

mutual

def jsonTree : Json → Value
  | .null => .word "null".toList
  | .bool true => .word "true".toList
  | .bool false => .word "false".toList
  | .int n => .number n.repr.toList
  | .str s => .string (escaped s)
  | .arr items => .array (jsonTrees items)
  | .obj fields => .object (((jsonTreeMembers fields).insertionSort (fun a b => a.1 ≤ b.1)).map
      (fun m => (escaped m.1, m.2)))

def jsonTrees : List Json → List Value
  | [] => []
  | v :: vs => jsonTree v :: jsonTrees vs

def jsonTreeMembers : List (String × Json) → List (String × Value)
  | [] => []
  | (k, v) :: rest => (k, jsonTree v) :: jsonTreeMembers rest

end

/-! Numbers. -/

theorem isDigit_digitChar {n : ℕ} (h : n < 10) : isDigit n.digitChar = true := by
  have hall : ∀ n < 10, isDigit (Nat.digitChar n) = true := by decide
  exact hall n h

theorem isInt_toDigits (n : ℕ) : IsInt (Nat.toDigits 10 n) := by
  induction n using Nat.strong_induction_on with
  | _ n ih =>
    by_cases h : n < 10
    · rw [Nat.toDigits_of_lt_base h]
      refine ⟨⟨by simp, ?_⟩, ?_⟩
      · intro c hc
        obtain rfl : c = n.digitChar := by simpa using hc
        exact isDigit_digitChar h
      · intro h0
        simpa using h0
    · rw [Nat.toDigits_of_base_le (by omega) (by omega)]
      obtain ⟨⟨hne, hall⟩, hzero⟩ := ih (n / 10) (by omega)
      refine ⟨⟨by simp, ?_⟩, ?_⟩
      · intro c hc
        rcases List.mem_append.1 hc with hc | hc
        · exact hall c hc
        · obtain rfl : c = (n % 10).digitChar := by simpa using hc
          exact isDigit_digitChar (by omega)
      · intro h0
        rw [List.head?_append_of_ne_nil _ hne] at h0
        have hval := Nat.ofDigitChars_ten_toDigits (n := n / 10)
        rw [hzero h0] at hval
        have : Nat.ofDigitChars 10 ['0'] 0 = 0 := by decide
        omega

theorem isNumber_repr (n : ℤ) : IsNumber n.repr.toList := by
  cases n with
  | ofNat k =>
    refine ⟨[], Nat.toDigits 10 k, [], [], ?_, by simp, isInt_toDigits k, .inl rfl, .inl rfl⟩
    simp [Int.repr, Nat.toList_repr]
  | negSucc k =>
    refine ⟨['-'], Nat.toDigits 10 (k + 1), [], [], ?_, by simp, isInt_toDigits (k + 1), .inl rfl, .inl rfl⟩
    simp [Int.repr, Nat.toList_repr, String.toList_append]

/-! Strings. -/

theorem isHexDigit_digitChar {n : ℕ} (h : n < 16) : isHexDigit n.digitChar = true := by
  have hall : ∀ n < 16, isHexDigit (Nat.digitChar n) = true := by decide
  exact hall n h

theorem isBody_unicodeEscape {n : ℕ} (h : n < 65536) {s : List Char} (hs : IsBody s) :
    IsBody (unicodeEscape n ++ s) := by
  refine .unicode ?_ hs
  intro x hx
  simp only [List.mem_cons, List.not_mem_nil, or_false] at hx
  rcases hx with rfl | rfl | rfl | rfl
  · exact isHexDigit_digitChar (by omega)
  · exact isHexDigit_digitChar (by omega)
  · exact isHexDigit_digitChar (by omega)
  · exact isHexDigit_digitChar (by omega)

theorem isBody_jsonEscape (c : Char) {s : List Char} (hs : IsBody s) : IsBody (jsonEscape c ++ s) := by
  unfold jsonEscape
  split
  · exact .escape (by decide) hs
  rename_i hquote
  split
  · exact .escape (by decide) hs
  rename_i hback
  split
  · exact .escape (by decide) hs
  split
  · exact .escape (by decide) hs
  split
  · exact .escape (by decide) hs
  split
  · exact .escape (by decide) hs
  split
  · exact .escape (by decide) hs
  split
  · rename_i hrange
    exact .plain hrange.1 hquote hback hs
  split
  · exact isBody_unicodeEscape (by omega) hs
  · have hmax : c.toNat < 0x110000 := by
      rcases c.valid with h | h
      · exact Nat.lt_trans h (by omega)
      · exact h.2
    rw [List.append_assoc]
    exact isBody_unicodeEscape (by omega) (isBody_unicodeEscape (by omega) hs)

theorem isBody_flatMap (cs : List Char) : IsBody (cs.flatMap jsonEscape) := by
  induction cs with
  | nil => exact .nil
  | cons c cs ih =>
    rw [List.flatMap_cons]
    exact isBody_jsonEscape c ih

theorem isBody_escaped (s : String) : IsBody (escaped s) := isBody_flatMap s.toList

/-! Values. -/

def memberText (m : String × Json) : List Char := jsonString m.1 ++ ':' :: jsonText m.2

def memberTree (m : String × Json) : List Char × Value := (escaped m.1, jsonTree m.2)

theorem jsonMembers_eq_map (fields : List (String × Json)) :
    jsonMembers fields = fields.map (fun m => (m.1, memberText m)) := by
  induction fields with
  | nil => rfl
  | cons m fields ih => simp [jsonMembers, memberText, ih]

theorem jsonTreeMembers_eq_map (fields : List (String × Json)) :
    jsonTreeMembers fields = fields.map (fun m => (m.1, jsonTree m.2)) := by
  induction fields with
  | nil => rfl
  | cons m fields ih => simp [jsonTreeMembers, ih]

def sortFields (fields : List (String × Json)) : List (String × Json) :=
  fields.insertionSort (fun a b => a.1 ≤ b.1)

theorem sorted_text (fields : List (String × Json)) :
    (sortKeys (jsonMembers fields)).map Prod.snd = (sortFields fields).map memberText := by
  rw [jsonMembers_eq_map, sortKeys, ← List.map_insertionSort (r := fun a b : String × Json => a.1 ≤ b.1)
    (s := fun a b : String × List Char => a.1 ≤ b.1) _ _ (by simp), List.map_map]
  rfl

theorem jsonText_obj (fields : List (String × Json)) :
    jsonText (.obj fields) = '\x7b' :: (commaJoin ((sortFields fields).map memberText) ++ ['\x7d']) := by
  rw [jsonText, sorted_text]

theorem jsonTree_obj (fields : List (String × Json)) :
    jsonTree (.obj fields) = .object ((sortFields fields).map memberTree) := by
  rw [jsonTree, jsonTreeMembers_eq_map, ← List.map_insertionSort (r := fun a b : String × Json => a.1 ≤ b.1)
    (s := fun a b : String × Value => a.1 ≤ b.1) _ _ (by simp), List.map_map]
  rfl

theorem commaJoin_singleton (p : List Char) : commaJoin [p] = p := by
  simp [commaJoin]

theorem isBlank_nil : IsBlank [] := by simp [IsBlank]

theorem derives_element {t : Value} {u : List Char} (h : Derives words (.value t) u) :
    Derives words (.element t) u := by
  have := Derives.element isBlank_nil h isBlank_nil
  simpa using this

theorem derives_elements {ts : List (Value × List Char)} (hne : ts ≠ [])
    (h : ∀ t ∈ ts, Derives words (.value t.1) t.2) :
    Derives words (.elements (ts.map Prod.fst)) (commaJoin (ts.map Prod.snd)) := by
  induction ts with
  | nil => exact absurd rfl hne
  | cons t ts ih =>
    cases ts with
    | nil =>
      rw [List.map_singleton, List.map_singleton, commaJoin_singleton]
      exact .lastElement (derives_element (h t (by simp)))
    | cons t' ts =>
      have ih := ih (by simp) fun x hx => h x (by simp [hx])
      simp only [List.map_cons, commaJoin_cons_cons] at ih ⊢
      exact .moreElements (derives_element (h t (by simp))) ih

theorem derives_member {m : String × Json} (h : Derives words (.value (jsonTree m.2)) (jsonText m.2)) :
    Derives words (.member (memberTree m)) (memberText m) := by
  have := Derives.member isBlank_nil (isBody_escaped m.1) isBlank_nil (derives_element h)
  simpa [memberTree, memberText, jsonString, escaped] using this

theorem derives_members {ms : List (String × Json)} (hne : ms ≠ [])
    (h : ∀ m ∈ ms, Derives words (.value (jsonTree m.2)) (jsonText m.2)) :
    Derives words (.members (ms.map memberTree)) (commaJoin (ms.map memberText)) := by
  induction ms with
  | nil => exact absurd rfl hne
  | cons m ms ih =>
    cases ms with
    | nil =>
      rw [List.map_singleton, List.map_singleton, commaJoin_singleton]
      exact .lastMember (derives_member (h m (by simp)))
    | cons m' ms =>
      have ih := ih (by simp) fun x hx => h x (by simp [hx])
      simp only [List.map_cons, commaJoin_cons_cons] at ih ⊢
      exact .moreMembers (derives_member (h m (by simp))) ih

theorem derives_object {fields : List (String × Json)}
    (h : ∀ m ∈ fields, Derives words (.value (jsonTree m.2)) (jsonText m.2)) :
    Derives words (.value (jsonTree (.obj fields))) (jsonText (.obj fields)) := by
  rw [jsonTree_obj, jsonText_obj]
  by_cases hne : fields = []
  · subst hne
    exact .emptyObject isBlank_nil
  · refine .object (derives_members ?_ fun m hm => h m ?_)
    · intro hnil
      have hlen := List.length_insertionSort (fun a b : String × Json => a.1 ≤ b.1) fields
      rw [sortFields] at hnil
      rw [hnil] at hlen
      exact hne (List.length_eq_zero_iff.1 hlen.symm)
    · exact (List.mem_insertionSort _).1 hm

mutual

theorem derives_jsonText : ∀ v : Json, Derives words (.value (jsonTree v)) (jsonText v)
  | .null => .word (by decide)
  | .bool true => .word (by decide)
  | .bool false => .word (by decide)
  | .int n => .number (isNumber_repr n)
  | .str s => .string (isBody_escaped s)
  | .arr items => by
    have h := derives_items items
    rw [jsonTree, jsonText]
    cases items with
    | nil => exact .emptyArray isBlank_nil
    | cons v vs =>
      obtain ⟨ts, ht, hs, hall⟩ := h
      rw [ht, hs]
      refine .array (derives_elements ?_ hall)
      rintro rfl
      cases ht
  | .obj fields => derives_object (derives_fields fields)

theorem derives_items : ∀ items : List Json, ∃ ts : List (Value × List Char), jsonTrees items = ts.map Prod.fst ∧
    jsonItems items = ts.map Prod.snd ∧ ∀ t ∈ ts, Derives words (.value t.1) t.2
  | [] => ⟨[], rfl, rfl, by simp⟩
  | v :: vs => by
    obtain ⟨ts, ht, hs, hall⟩ := derives_items vs
    refine ⟨(jsonTree v, jsonText v) :: ts, by simp [jsonTrees, ht], by simp [jsonItems, hs], ?_⟩
    intro t hmem
    rcases List.mem_cons.1 hmem with rfl | hmem
    · exact derives_jsonText v
    · exact hall t hmem

theorem derives_fields : ∀ fields : List (String × Json),
    ∀ m ∈ fields, Derives words (.value (jsonTree m.2)) (jsonText m.2)
  | [] => by simp
  | (k, v) :: fields => by
    intro m hm
    rcases List.mem_cons.1 hm with rfl | hm
    · exact derives_jsonText v
    · exact derives_fields fields m hm

end

theorem isText_jsonText (v : Json) : IsText words (jsonText v) (jsonTree v) := derives_element (derives_jsonText v)

/-! The text is in ASCII. -/

theorem unicodeEscape_ascii {n : ℕ} (h : n < 65536) : Ascii (unicodeEscape n) := by
  have hall : ∀ n < 16, (Nat.digitChar n).toNat < 128 := by decide
  intro c hc
  simp only [unicodeEscape, hexFour, List.map_cons, List.map_nil, List.mem_cons, List.not_mem_nil, or_false] at hc
  rcases hc with rfl | rfl | rfl | rfl | rfl | rfl
  · decide
  · decide
  · exact hall _ (by omega)
  · exact hall _ (by omega)
  · exact hall _ (by omega)
  · exact hall _ (by omega)

theorem jsonEscape_ascii (c : Char) : Ascii (jsonEscape c) := by
  unfold jsonEscape
  split
  · exact .of_all (by decide)
  split
  · exact .of_all (by decide)
  split
  · exact .of_all (by decide)
  split
  · exact .of_all (by decide)
  split
  · exact .of_all (by decide)
  split
  · exact .of_all (by decide)
  split
  · exact .of_all (by decide)
  split
  · rename_i hrange
    intro x hx
    obtain rfl : x = c := by simpa using hx
    omega
  split
  · exact unicodeEscape_ascii (by omega)
  · have hmax : c.toNat < 0x110000 := by
      rcases c.valid with h | h
      · exact Nat.lt_trans h (by omega)
      · exact h.2
    exact (unicodeEscape_ascii (by omega)).append (unicodeEscape_ascii (by omega))

theorem jsonString_ascii (s : String) : Ascii (jsonString s) := by
  refine .cons (by decide) (Ascii.append ?_ (.of_all (by decide)))
  intro c hc
  obtain ⟨d, _, hd⟩ := List.mem_flatMap.1 hc
  exact jsonEscape_ascii d c hd

theorem repr_ascii (n : ℤ) : Ascii n.repr.toList := by
  intro c hc
  have hchar := number_chars (isNumber_repr n) c hc
  simp only [isNumberChar, isDigit, Bool.or_eq_true, decide_eq_true_eq] at hchar
  have hdigits : ∀ c ∈ "0123456789".toList, c.toNat < 128 := by simp
  rcases hchar with ((((h | rfl) | rfl) | rfl) | rfl) | rfl
  · exact hdigits c h
  all_goals decide

mutual

theorem jsonText_ascii : ∀ v : Json, Ascii (jsonText v)
  | .null => .of_all (by decide)
  | .bool true => .of_all (by decide)
  | .bool false => .of_all (by decide)
  | .int n => repr_ascii n
  | .str s => jsonString_ascii s
  | .arr items => .cons (by decide) (Ascii.append (commaJoin_ascii (jsonItems_ascii items)) (.of_all (by decide)))
  | .obj fields => by
    have h := jsonFields_ascii fields
    rw [jsonText_obj]
    refine .cons (by decide) (Ascii.append (commaJoin_ascii ?_) (.of_all (by decide)))
    intro p hp
    obtain ⟨m, hm, rfl⟩ := List.mem_map.1 hp
    exact h m ((List.mem_insertionSort _).1 hm)

theorem jsonItems_ascii : ∀ items : List Json, ∀ p ∈ jsonItems items, Ascii p
  | [] => by simp [jsonItems]
  | v :: vs => by
    intro p hp
    rcases List.mem_cons.1 hp with rfl | hp
    · exact jsonText_ascii v
    · exact jsonItems_ascii vs p hp

theorem jsonFields_ascii : ∀ fields : List (String × Json), ∀ m ∈ fields, Ascii (memberText m)
  | [] => by simp
  | (k, v) :: fields => by
    intro m hm
    rcases List.mem_cons.1 hm with rfl | hm
    · exact (jsonString_ascii k).append (.cons (by decide) (jsonText_ascii v))
    · exact jsonFields_ascii fields m hm

end

theorem encodeAscii_eq {cs : List Char} (h : Ascii cs) :
    encodeAscii cs = some (cs.map (fun c => UInt8.ofNat c.toNat)) := by
  have hc : cs.all (·.toNat < 128) = true := by
    simpa [List.all_eq_true, Ascii] using h
  rw [encodeAscii, if_pos hc]

theorem ascii_bytes {cs : List Char} (h : Ascii cs) :
    ∀ byte ∈ cs.map (fun c => UInt8.ofNat c.toNat), byte ≤ 127 := by
  intro byte hb
  obtain ⟨c, hc, rfl⟩ := List.mem_map.1 hb
  have := h c hc
  rw [UInt8.le_iff_toNat_le, UInt8.toNat_ofNat']
  change c.toNat % 256 ≤ 127
  omega

end ArenaLab
