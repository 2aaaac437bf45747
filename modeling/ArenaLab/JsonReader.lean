import ArenaLab.JsonPieces

/-! The reader of `JsonText` accepts a text with a tree exactly when the grammar
derives the text from the tree. -/

namespace JsonText

section

variable {ws : List (List Char)}

/-! What the reader accepts is derived. -/

/-- `readValue`, `readElements` and `readMembers` at one fuel. -/
structure Sound (ws : List (List Char)) (n : ℕ) : Prop where
  value : ∀ {s t r}, readValue ws n s = some (t, r) → ∃ u, s = u ++ r ∧ Derives ws (.value t) u
  elements : ∀ {s ts r}, readElements ws n s = some (ts, r) →
    ∃ u, s = u ++ ']' :: r ∧ Derives ws (.elements ts) u
  members : ∀ {s ms r}, readMembers ws n s = some (ms, r) →
    ∃ u, s = u ++ '\x7d' :: r ∧ Derives ws (.members ms) u

theorem Sound.element {n : ℕ} (ih : Sound ws n) {s r : List Char} {t : Value}
    (h : readValue ws n (skipWs s) = some (t, r)) : ∃ u, s = u ++ skipWs r ∧ Derives ws (.element t) u := by
  obtain ⟨u, hu, hd⟩ := ih.value h
  obtain ⟨w, hw, hs⟩ := exists_blank s
  obtain ⟨w', hw', hr⟩ := exists_blank r
  refine ⟨w ++ (u ++ w'), ?_, .element hw hd hw'⟩
  rw [List.append_assoc, List.append_assoc, ← hr, ← hu]
  exact hs

theorem sound_value {n : ℕ} (ih : Sound ws n) {s r : List Char} {t : Value}
    (h : readValue ws (n + 1) s = some (t, r)) : ∃ u, s = u ++ r ∧ Derives ws (.value t) u := by
  unfold readValue at h
  split at h
  case h_1 s' =>
    obtain ⟨⟨b, r'⟩, hread, heq⟩ := Option.map_eq_some_iff.1 h
    cases heq
    obtain ⟨rfl, hb⟩ := readBody_sound hread
    exact ⟨_, by simp, .string hb⟩
  case h_2 s' =>
    split at h
    case h_1 r' hskip =>
      cases h
      obtain ⟨w, hw, hs⟩ := exists_blank s'
      rw [hskip] at hs
      exact ⟨_, by simp [hs], .emptyArray hw⟩
    case h_2 =>
      obtain ⟨⟨ts, r'⟩, hread, heq⟩ := Option.map_eq_some_iff.1 h
      cases heq
      obtain ⟨u, rfl, hd⟩ := ih.elements hread
      exact ⟨_, by simp, .array hd⟩
  case h_3 s' =>
    split at h
    case h_1 r' hskip =>
      cases h
      obtain ⟨w, hw, hs⟩ := exists_blank s'
      rw [hskip] at hs
      exact ⟨_, by simp [hs], .emptyObject hw⟩
    case h_2 =>
      obtain ⟨⟨ms, r'⟩, hread, heq⟩ := Option.map_eq_some_iff.1 h
      cases heq
      obtain ⟨u, rfl, hd⟩ := ih.members hread
      exact ⟨_, by simp, .object hd⟩
  case h_4 => exact readScalar_sound h

theorem sound_elements {n : ℕ} (ih : Sound ws n) {s r : List Char} {ts : List Value}
    (h : readElements ws (n + 1) s = some (ts, r)) : ∃ u, s = u ++ ']' :: r ∧ Derives ws (.elements ts) u := by
  unfold readElements at h
  split at h
  · cases h
  case h_2 t r' hread =>
    obtain ⟨u, rfl, hd⟩ := ih.element hread
    split at h
    case h_1 rest hr =>
      obtain ⟨⟨us, r'⟩, hrest, heq⟩ := Option.map_eq_some_iff.1 h
      cases heq
      obtain ⟨u', rfl, hd'⟩ := ih.elements hrest
      exact ⟨_, by rw [hr]; simp, .moreElements hd hd'⟩
    case h_2 rest hr =>
      cases h
      exact ⟨u, by rw [hr], .lastElement hd⟩
    case h_3 => cases h

theorem sound_members {n : ℕ} (ih : Sound ws n) {s r : List Char} {ms : List (List Char × Value)}
    (h : readMembers ws (n + 1) s = some (ms, r)) : ∃ u, s = u ++ '\x7d' :: r ∧ Derives ws (.members ms) u := by
  unfold readMembers at h
  split at h
  · cases h
  case h_2 b s' hname =>
    obtain ⟨w, w', rfl, hw, hb, hw'⟩ := readName_sound hname
    split at h
    · cases h
    case h_2 t r' hread =>
      obtain ⟨u, rfl, hd⟩ := ih.element hread
      have hm := Derives.member hw hb hw' hd
      split at h
      case h_1 rest hr =>
        obtain ⟨⟨ns, r'⟩, hrest, heq⟩ := Option.map_eq_some_iff.1 h
        cases heq
        obtain ⟨u', rfl, hd'⟩ := ih.members hrest
        exact ⟨_, by rw [hr]; simp, .moreMembers hm hd'⟩
      case h_2 rest hr =>
        cases h
        exact ⟨_, by rw [hr]; simp, .lastMember hm⟩
      case h_3 => cases h

theorem sound (ws : List (List Char)) (n : ℕ) : Sound ws n := by
  induction n with
  | zero =>
    constructor
    · intro s t r h
      simp [readValue] at h
    · intro s ts r h
      simp [readElements] at h
    · intro s ms r h
      simp [readMembers] at h
  | succ n ih => exact ⟨sound_value ih, sound_elements ih, sound_members ih⟩

theorem isText_of_parse {s : List Char} {t : Value} (h : parse ws s = some t) : IsText ws s t := by
  unfold parse at h
  split at h
  case h_1 t' r hread =>
    obtain ⟨u, hs, hd⟩ := (sound ws _).element hread
    obtain ⟨hr, heq⟩ := Option.ite_none_right_eq_some.1 h
    cases heq
    rw [hr, List.append_nil] at hs
    exact hs ▸ hd
  case h_2 => cases h

/-! What is derived the reader accepts. -/

/-- The first character of a piece that is not a blank. -/
def Starts (w : List Char) (u : List Char) : Prop :=
  ∃ c r, u = w ++ c :: r ∧ IsBlank w ∧ isWs c = false ∧ c ≠ ']' ∧ c ≠ '\x7d'

theorem Starts.append {w u : List Char} (h : Starts w u) (r : List Char) : Starts w (u ++ r) := by
  obtain ⟨c, r', rfl, hw, hc⟩ := h
  exact ⟨c, r' ++ r, by simp, hw, hc⟩

theorem Starts.skipWs {w u : List Char} (h : Starts w u) :
    ∃ c r, u = w ++ c :: r ∧ JsonText.skipWs u = c :: r ∧ c ≠ ']' ∧ c ≠ '\x7d' := by
  obtain ⟨c, r, rfl, hw, hc, h1, h2⟩ := h
  exact ⟨c, r, rfl, by rw [skipWs_blank hw, skipWs_cons hc], h1, h2⟩

theorem starts_value (hv : Vocabulary ws) {t : Value} {u : List Char} (h : Derives ws (.value t) u) :
    Starts [] u := by
  have hnil : IsBlank [] := by simp [IsBlank]
  cases h with
  | word h =>
    obtain ⟨c, r, rfl, -, hc, hmem⟩ := hv.head h
    refine ⟨c, r, rfl, hnil, hc, ?_, ?_⟩
    · rintro rfl
      exact hmem (by decide)
    · rintro rfl
      exact hmem (by decide)
  | number h =>
    obtain ⟨c, r, rfl, hc⟩ := number_head h
    rcases hc with hc | ⟨rfl, -⟩
    · have hdigits : ∀ c ∈ "0123456789".toList, isWs c = false ∧ c ≠ ']' ∧ c ≠ '\x7d' := by simp [isWs]
      exact ⟨c, r, rfl, hnil, hdigits c (of_decide_eq_true hc)⟩
    · exact ⟨'-', r, rfl, hnil, by decide⟩
  | string h => exact ⟨'"', _, rfl, hnil, by decide⟩
  | emptyArray h => exact ⟨'[', _, rfl, hnil, by decide⟩
  | array h => exact ⟨'[', _, rfl, hnil, by decide⟩
  | emptyObject h => exact ⟨'\x7b', _, rfl, hnil, by decide⟩
  | object h => exact ⟨'\x7b', _, rfl, hnil, by decide⟩

theorem starts_element (hv : Vocabulary ws) {t : Value} {u : List Char} (h : Derives ws (.element t) u) :
    ∃ w, Starts w u := by
  cases h with
  | @element t w s w' hw hs hw' =>
    obtain ⟨c, r, rfl, -, hc⟩ := starts_value hv hs
    exact ⟨w, c, r ++ w', by simp, hw, hc⟩

theorem starts_elements (hv : Vocabulary ws) {ts : List Value} {u : List Char} (h : Derives ws (.elements ts) u) :
    ∃ w, Starts w u := by
  cases h with
  | lastElement h => exact starts_element hv h
  | moreElements h h' =>
    obtain ⟨w, hs⟩ := starts_element hv h
    exact ⟨w, hs.append _⟩

theorem starts_member {m : List Char × Value} {u : List Char} (h : Derives ws (.member m) u) :
    ∃ w, Starts w u := by
  cases h with
  | member hw _ _ _ => exact ⟨_, '"', _, rfl, hw, by decide⟩

theorem starts_members {ms : List (List Char × Value)} {u : List Char} (h : Derives ws (.members ms) u) :
    ∃ w, Starts w u := by
  cases h with
  | lastMember h => exact starts_member h
  | moreMembers h h' =>
    obtain ⟨w, hs⟩ := starts_member h
    exact ⟨w, hs.append _⟩

/-- Where the reader stands after a piece: a number is not cut short. -/
def Completes (ws : List (List Char)) : Piece → List Char → Prop
  | .value t, u => ∀ n r, u.length ≤ n → HeadNot isNumberChar r → readValue ws n (u ++ r) = some (t, r)
  | .element t, u => ∀ n r, u.length ≤ n → HeadNot isNumberChar r →
      ∃ r', readValue ws n (skipWs (u ++ r)) = some (t, r') ∧ skipWs r' = skipWs r
  | .elements ts, u => ∀ n r, u.length + 1 ≤ n → readElements ws n (u ++ ']' :: r) = some (ts, r)
  | .member (b, t), u => ∀ n r, u.length ≤ n → HeadNot isNumberChar r →
      ∃ x r', readName (u ++ r) = some (b, x) ∧ readValue ws n (skipWs x) = some (t, r') ∧ skipWs r' = skipWs r
  | .members ms, u => ∀ n r, u.length + 1 ≤ n → readMembers ws n (u ++ '\x7d' :: r) = some (ms, r)

theorem headNot_blank {w r : List Char} (hw : IsBlank w) (hr : HeadNot isNumberChar r) :
    HeadNot isNumberChar (w ++ r) := by
  cases w with
  | nil => exact hr
  | cons c w =>
    refine headNot_cons ?_
    have hc := hw c (by simp)
    simp only [isWs, Bool.or_eq_true, decide_eq_true_eq] at hc
    rcases hc with ((rfl | rfl) | rfl) | rfl <;> decide

theorem readValue_scalar {n : ℕ} {c : Char} {s : List Char} (h : c ∉ "\"[\x7b".toList) :
    readValue ws (n + 1) (c :: s) = readScalar ws (c :: s) := by
  unfold readValue
  split
  case h_1 heq =>
    cases heq
    exact absurd (by decide) h
  case h_2 heq =>
    cases heq
    exact absurd (by decide) h
  case h_3 heq =>
    cases heq
    exact absurd (by decide) h
  case h_4 => rfl

theorem completes_word (hv : Vocabulary ws) {w r : List Char} (n : ℕ) (h : w ∈ ws) :
    readValue ws (n + 1) (w ++ r) = some (.word w, r) := by
  obtain ⟨c, s, rfl, -, -, hmem⟩ := hv.head h
  have hc : c ∉ "\"[\x7b".toList := fun h => hmem (by revert h; simp; tauto)
  rw [List.cons_append, readValue_scalar hc, ← List.cons_append, readScalar, readWord_append hv h]

theorem completes_number (hv : Vocabulary ws) {m r : List Char} (n : ℕ) (h : IsNumber m)
    (hr : HeadNot isNumberChar r) : readValue ws (n + 1) (m ++ r) = some (.number m, r) := by
  obtain ⟨c, s, rfl, hc⟩ := number_head h
  have hmem : c ∉ "\"[\x7b".toList := by
    have hchar := number_chars h c (by simp)
    have hbrackets : ∀ c ∈ "\"[\x7b".toList, isNumberChar c = false := by
      simp [isNumberChar, isDigit]
    intro h
    simp [hbrackets c h] at hchar
  rw [List.cons_append, readValue_scalar hmem, ← List.cons_append, readScalar, readWord_number hv h,
    readNumber_append h hr]
  rfl

theorem completes (hv : Vocabulary ws) {p : Piece} {u : List Char} (h : Derives ws p u) : Completes ws p u := by
  induction h with
  | @word w h =>
    intro n r hn hr
    obtain ⟨c, s, rfl, -⟩ := hv.head h
    obtain ⟨m, rfl⟩ : ∃ m, n = m + 1 := Nat.exists_eq_succ_of_ne_zero (by simp at hn; omega)
    exact completes_word hv m h
  | @number m h =>
    intro n r hn hr
    obtain ⟨c, s, rfl, -⟩ := number_head h
    obtain ⟨k, rfl⟩ : ∃ k, n = k + 1 := Nat.exists_eq_succ_of_ne_zero (by simp at hn; omega)
    exact completes_number hv k h hr
  | @string b h =>
    intro n r hn hr
    obtain ⟨k, rfl⟩ : ∃ k, n = k + 1 := Nat.exists_eq_succ_of_ne_zero (by simp at hn; omega)
    simp [readValue, readBody_append h]
  | @emptyArray w h =>
    intro n r hn hr
    obtain ⟨k, rfl⟩ : ∃ k, n = k + 1 := Nat.exists_eq_succ_of_ne_zero (by simp at hn; omega)
    have hc : isWs ']' = false := by decide
    simp [readValue, skipWs_blank h, skipWs_cons hc]
  | @array ts s h ih =>
    intro n r hn hr
    obtain ⟨k, rfl⟩ : ∃ k, n = k + 1 := Nat.exists_eq_succ_of_ne_zero (by simp at hn; omega)
    obtain ⟨w, hs⟩ := starts_elements hv h
    obtain ⟨c, s', -, hskip, hc, -⟩ := (hs.append (']' :: r)).skipWs
    have hread := ih k r (by simp at hn; omega)
    simp only [List.cons_append, List.append_assoc, List.nil_append, readValue, hread]
    rw [hskip]
    split
    case h_1 heq =>
      cases heq
      exact absurd rfl hc
    case h_2 => rfl
  | @emptyObject w h =>
    intro n r hn hr
    obtain ⟨k, rfl⟩ : ∃ k, n = k + 1 := Nat.exists_eq_succ_of_ne_zero (by simp at hn; omega)
    have hc : isWs '\x7d' = false := by decide
    simp [readValue, skipWs_blank h, skipWs_cons hc]
  | @object ms s h ih =>
    intro n r hn hr
    obtain ⟨k, rfl⟩ : ∃ k, n = k + 1 := Nat.exists_eq_succ_of_ne_zero (by simp at hn; omega)
    obtain ⟨w, hs⟩ := starts_members h
    obtain ⟨c, s', -, hskip, -, hc⟩ := (hs.append ('\x7d' :: r)).skipWs
    have hread := ih k r (by simp at hn; omega)
    simp only [List.cons_append, List.append_assoc, List.nil_append, readValue, hread]
    rw [hskip]
    split
    case h_1 heq =>
      cases heq
      exact absurd rfl hc
    case h_2 => rfl
  | @element t w s w' hw h hw' ih =>
    intro n r hn hr
    have hread := ih n (w' ++ r) (by simp at hn; omega) (headNot_blank hw' hr)
    obtain ⟨c, s', hs, hskip, -⟩ := ((starts_value hv h).append (w' ++ r)).skipWs
    refine ⟨w' ++ r, ?_, skipWs_blank hw' r⟩
    rw [List.append_assoc, List.append_assoc, skipWs_blank hw, hskip, ← List.nil_append (c :: s'), ← hs, hread]
  | @lastElement t s h ih =>
    intro n r hn
    obtain ⟨k, rfl⟩ : ∃ k, n = k + 1 := Nat.exists_eq_succ_of_ne_zero (by omega)
    obtain ⟨r', hread, hskip⟩ := ih k (']' :: r) (by omega) (headNot_cons (by decide))
    have hc : isWs ']' = false := by decide
    simp [readElements, hread, hskip, skipWs_cons hc]
  | @moreElements t ts s s' h h' ih ih' =>
    intro n r hn
    obtain ⟨k, rfl⟩ : ∃ k, n = k + 1 := Nat.exists_eq_succ_of_ne_zero (by omega)
    simp only [List.length_append, List.length_cons] at hn
    obtain ⟨r', hread, hskip⟩ := ih k (',' :: (s' ++ ']' :: r)) (by omega) (headNot_cons (by decide))
    have hrest := ih' k r (by omega)
    have hc : isWs ',' = false := by decide
    simp [readElements, hread, hskip, skipWs_cons hc, hrest]
  | @member b w w' s t hw hb hw' h ih =>
    intro n r hn hr
    obtain ⟨r', hread, hskip⟩ := ih n r (by simp at hn; omega) hr
    refine ⟨s ++ r, r', ?_, hread, hskip⟩
    have := readName_append (s := s ++ r) hw hb hw'
    simpa using this
  | @lastMember m s h ih =>
    intro n r hn
    obtain ⟨k, rfl⟩ : ∃ k, n = k + 1 := Nat.exists_eq_succ_of_ne_zero (by omega)
    obtain ⟨b, t⟩ := m
    obtain ⟨x, r', hname, hread, hskip⟩ := ih k ('\x7d' :: r) (by omega) (headNot_cons (by decide))
    have hc : isWs '\x7d' = false := by decide
    simp [readMembers, hname, hread, hskip, skipWs_cons hc]
  | @moreMembers m ms s s' h h' ih ih' =>
    intro n r hn
    obtain ⟨k, rfl⟩ : ∃ k, n = k + 1 := Nat.exists_eq_succ_of_ne_zero (by omega)
    simp only [List.length_append, List.length_cons] at hn
    obtain ⟨b, t⟩ := m
    obtain ⟨x, r', hname, hread, hskip⟩ :=
      ih k (',' :: (s' ++ '\x7d' :: r)) (by omega) (headNot_cons (by decide))
    have hrest := ih' k r (by omega)
    have hc : isWs ',' = false := by decide
    simp [readMembers, hname, hread, hskip, skipWs_cons hc, hrest]

/-- The reader accepts the texts of the grammar and no others. -/
theorem parse_eq_some (hv : Vocabulary ws) {s : List Char} {t : Value} : parse ws s = some t ↔ IsText ws s t := by
  constructor
  · exact isText_of_parse
  · intro h
    obtain ⟨r', hread, hskip⟩ := completes hv h (s.length + 1) [] (by omega) headNot_nil
    rw [List.append_nil] at hread
    have hnil : skipWs [] = [] := rfl
    simp [parse, hread, hskip, hnil]

end

theorem vocabulary_words : Vocabulary words := by
  constructor <;> decide

/-! Tests at every node. -/

mutual

theorem holds_imp {p q r : Value → Bool} (h : ∀ t, p t = true → q t = true → r t = true) :
    ∀ t : Value, t.holds p = true → t.holds q = true → t.holds r = true
  | .word w, hp, hq => h (.word w) hp hq
  | .number n, hp, hq => h (.number n) hp hq
  | .string b, hp, hq => h (.string b) hp hq
  | .array ts, hp, hq => by
    simp only [Value.holds, Bool.and_eq_true] at hp hq ⊢
    exact ⟨h _ hp.1 hq.1, holdsItems_imp h ts hp.2 hq.2⟩
  | .object ms, hp, hq => by
    simp only [Value.holds, Bool.and_eq_true] at hp hq ⊢
    exact ⟨h _ hp.1 hq.1, holdsMembers_imp h ms hp.2 hq.2⟩

theorem holdsItems_imp {p q r : Value → Bool} (h : ∀ t, p t = true → q t = true → r t = true) :
    ∀ ts : List Value, holdsItems p ts = true → holdsItems q ts = true → holdsItems r ts = true
  | [], _, _ => rfl
  | t :: ts, hp, hq => by
    simp only [holdsItems, Bool.and_eq_true] at hp hq ⊢
    exact ⟨holds_imp h t hp.1 hq.1, holdsItems_imp h ts hp.2 hq.2⟩

theorem holdsMembers_imp {p q r : Value → Bool} (h : ∀ t, p t = true → q t = true → r t = true) :
    ∀ ms : List (List Char × Value), holdsMembers p ms = true → holdsMembers q ms = true →
      holdsMembers r ms = true
  | [], _, _ => rfl
  | (_, t) :: ms, hp, hq => by
    simp only [holdsMembers, Bool.and_eq_true] at hp hq ⊢
    exact ⟨holds_imp h t hp.1 hq.1, holdsMembers_imp h ms hp.2 hq.2⟩

end

/-- Every literal name is one of the list. -/
def onlyWords (ws : List (List Char)) : Value → Bool
  | .word w => ws.contains w
  | _ => true

theorem Derives.onlyWords {ws : List (List Char)} {p : Piece} {u : List Char} (h : Derives ws p u) :
    p.holds (JsonText.onlyWords ws) = true := by
  induction h with
  | word h => simpa [Piece.holds, Value.holds, JsonText.onlyWords] using h
  | number h => rfl
  | string h => rfl
  | emptyArray h => rfl
  | array h ih => simpa [Piece.holds, Value.holds, JsonText.onlyWords] using ih
  | emptyObject h => rfl
  | object h ih => simpa [Piece.holds, Value.holds, JsonText.onlyWords] using ih
  | element hw h hw' ih => exact ih
  | lastElement h ih => simpa [Piece.holds, holdsItems] using ih
  | moreElements h h' ih ih' =>
    simp only [Piece.holds, holdsItems, Bool.and_eq_true] at ih ih' ⊢
    exact ⟨ih, ih'⟩
  | member hw hb hw' h ih => exact ih
  | lastMember h ih => simpa [Piece.holds, holdsMembers] using ih
  | moreMembers h h' ih ih' =>
    simp only [Piece.holds, holdsMembers, Bool.and_eq_true] at ih ih' ⊢
    exact ⟨ih, ih'⟩

/-- A reader that knows other literal names derives the same where it knows those that stand there. -/
theorem Derives.transfer {ws ws' : List (List Char)} {p : Piece} {u : List Char} (h : Derives ws p u)
    (hp : p.holds (JsonText.onlyWords ws') = true) : Derives ws' p u := by
  induction h with
  | word h =>
    refine .word ?_
    simpa [Piece.holds, Value.holds, JsonText.onlyWords] using hp
  | number h => exact .number h
  | string h => exact .string h
  | emptyArray h => exact .emptyArray h
  | array h ih =>
    refine .array (ih ?_)
    simpa [Piece.holds, Value.holds, JsonText.onlyWords] using hp
  | emptyObject h => exact .emptyObject h
  | object h ih =>
    refine .object (ih ?_)
    simpa [Piece.holds, Value.holds, JsonText.onlyWords] using hp
  | element hw h hw' ih => exact .element hw (ih hp) hw'
  | lastElement h ih =>
    refine .lastElement (ih ?_)
    simpa [Piece.holds, holdsItems] using hp
  | moreElements h h' ih ih' =>
    simp only [Piece.holds, holdsItems, Bool.and_eq_true] at hp
    exact .moreElements (ih hp.1) (ih' hp.2)
  | member hw hb hw' h ih => exact .member hw hb hw' (ih hp)
  | lastMember h ih =>
    refine .lastMember (ih ?_)
    simpa [Piece.holds, holdsMembers] using hp
  | moreMembers h h' ih ih' =>
    simp only [Piece.holds, holdsMembers, Bool.and_eq_true] at hp
    exact .moreMembers (ih hp.1) (ih' hp.2)

end JsonText
