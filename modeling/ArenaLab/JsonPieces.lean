import ArenaLab.JsonText
import Mathlib.Data.List.TakeWhile
import Mathlib.Tactic.Common

/-! The parts of a text that hold no other: what `JsonText` reads as a blank, a number, a
string or a literal name, against the grammar. -/

namespace JsonText

def HeadNot (p : Char → Bool) (s : List Char) : Prop := ∀ c ∈ s.head?, p c = false

theorem headNot_nil {p : Char → Bool} : HeadNot p [] := by
  intro c h
  cases h

theorem headNot_cons {p : Char → Bool} {c : Char} {s : List Char} (h : p c = false) : HeadNot p (c :: s) := by
  intro d hd
  obtain rfl : c = d := by simpa using hd
  exact h

theorem takeWhile_append {p : Char → Bool} {a r : List Char} (ha : ∀ c ∈ a, p c = true) (hr : HeadNot p r) :
    (a ++ r).takeWhile p = a := by
  rw [List.takeWhile_append_of_pos ha]
  cases r with
  | nil => simp
  | cons c r =>
    have hc : p c = false := hr c rfl
    simp [hc]

theorem dropWhile_append {p : Char → Bool} {a r : List Char} (ha : ∀ c ∈ a, p c = true) (hr : HeadNot p r) :
    (a ++ r).dropWhile p = r := by
  rw [List.dropWhile_append_of_pos ha]
  cases r with
  | nil => simp
  | cons c r =>
    have hc : p c = false := hr c rfl
    simp [hc]

theorem takeWhile_all (p : Char → Bool) (s : List Char) : ∀ c ∈ s.takeWhile p, p c = true := fun _ =>
  List.mem_takeWhile_imp

/-! Blanks. -/

theorem skipWs_blank {w : List Char} (hw : IsBlank w) (s : List Char) : skipWs (w ++ s) = skipWs s :=
  List.dropWhile_append_of_pos hw

theorem skipWs_of_headNot {s : List Char} (h : HeadNot isWs s) : skipWs s = s :=
  dropWhile_append (a := []) (by simp) h

theorem skipWs_cons {c : Char} (h : isWs c = false) (s : List Char) : skipWs (c :: s) = c :: s :=
  skipWs_of_headNot (headNot_cons h)

theorem exists_blank (s : List Char) : ∃ w, IsBlank w ∧ s = w ++ skipWs s :=
  ⟨s.takeWhile isWs, takeWhile_all isWs s, (List.takeWhile_append_dropWhile).symm⟩

/-! Numbers. -/

theorem isDigits_iff (n : List Char) : IsDigits n ↔ (!n.isEmpty && n.all isDigit) = true := by
  simp [IsDigits]

theorem digits_head {n : List Char} (h : IsDigits n) : ∃ c r, n = c :: r ∧ isDigit c = true := by
  obtain ⟨hne, hall⟩ := h
  cases n with
  | nil => exact absurd rfl hne
  | cons c r => exact ⟨c, r, rfl, hall c (by simp)⟩

theorem isExp_iff (n : List Char) : isExp n = true ↔ n = [] ∨ IsExp n := by
  cases n with
  | nil => simp [isExp]
  | cons e n =>
    constructor
    · intro h
      refine Or.inr ?_
      by_cases hsign : n.head? = some '+' ∨ n.head? = some '-'
      · simp only [isExp, if_pos hsign, Bool.and_assoc] at h
        rw [Bool.and_eq_true, ← isDigits_iff] at h
        obtain ⟨he, hds⟩ := h
        cases n with
        | nil => simp at hsign
        | cons c ds =>
          refine ⟨e, [c], ds, rfl, by simpa using he, ?_, hds⟩
          rcases hsign with h | h <;> simp_all
      · simp only [isExp, if_neg hsign, Bool.and_assoc] at h
        rw [Bool.and_eq_true, ← isDigits_iff] at h
        obtain ⟨he, hds⟩ := h
        exact ⟨e, [], n, rfl, by simpa using he, by simp, hds⟩
    · rintro (h | ⟨e', sign, ds, h, he, hsign, hds⟩)
      · cases h
      · cases h
        have hall := (isDigits_iff ds).1 hds
        have hhead : ¬(ds.head? = some '+' ∨ ds.head? = some '-') := by
          obtain ⟨d, r, rfl, hd⟩ := digits_head hds
          rintro (h | h)
          · obtain rfl : d = '+' := by simpa using h
            exact absurd hd (by decide)
          · obtain rfl : d = '-' := by simpa using h
            exact absurd hd (by decide)
        rcases (by simpa using hsign : sign = [] ∨ sign = ['+'] ∨ sign = ['-']) with rfl | rfl | rfl
        · simp only [isExp, List.nil_append, if_neg hhead, Bool.and_assoc, hall]
          simpa using he
        · simp only [isExp, List.cons_append, List.nil_append, List.head?_cons, true_or, if_true, List.tail_cons,
            Bool.and_assoc, hall]
          simpa using he
        · simp only [isExp, List.cons_append, List.nil_append, List.head?_cons, or_true, if_true, List.tail_cons,
            Bool.and_assoc, hall]
          simpa using he

theorem isExp_headNot {n : List Char} (h : n = [] ∨ IsExp n) : HeadNot isDigit n ∧ n.head? ≠ some '.' := by
  rcases h with rfl | ⟨e, sign, ds, rfl, rfl | rfl, -⟩
  · exact ⟨headNot_nil, by simp⟩
  · exact ⟨headNot_cons (by decide), by simp⟩
  · exact ⟨headNot_cons (by decide), by simp⟩

theorem isFracExp_iff (n : List Char) : isFracExp n = true ↔
    ∃ frac exp, n = frac ++ exp ∧ (frac = [] ∨ IsFrac frac) ∧ (exp = [] ∨ IsExp exp) := by
  constructor
  · intro h
    unfold isFracExp at h
    split at h
    case h_1 n =>
      rw [Bool.and_eq_true, isExp_iff] at h
      refine ⟨'.' :: n.takeWhile isDigit, n.dropWhile isDigit, ?_, Or.inr ⟨_, rfl, ?_, ?_⟩, h.2⟩
      · simp [List.takeWhile_append_dropWhile]
      · simpa [List.isEmpty_iff] using h.1
      · exact takeWhile_all isDigit n
    case h_2 => exact ⟨[], n, rfl, Or.inl rfl, (isExp_iff n).1 h⟩
  · rintro ⟨frac, exp, rfl, rfl | ⟨ds, rfl, hne, hall⟩, hexp⟩
    · have hhead := (isExp_headNot hexp).2
      rw [List.nil_append]
      unfold isFracExp
      split
      · simp at hhead
      · exact (isExp_iff exp).2 hexp
    · have hhead := (isExp_headNot hexp).1
      simp only [List.cons_append, isFracExp, takeWhile_append hall hhead, dropWhile_append hall hhead]
      simp [(isExp_iff exp).2 hexp, hne]

theorem isFracExp_headNot {frac exp : List Char} (hf : frac = [] ∨ IsFrac frac) (he : exp = [] ∨ IsExp exp) :
    HeadNot isDigit (frac ++ exp) := by
  rcases hf with rfl | ⟨ds, rfl, -⟩
  · exact (isExp_headNot he).1
  · exact headNot_cons (by decide)

theorem isNumber_iff (n : List Char) : isNumber n = true ↔ IsNumber n := by
  constructor
  · intro h
    obtain ⟨minus, m, hn, hminus, hm⟩ : ∃ minus m, n = minus ++ m ∧ minus ∈ [[], ['-']] ∧
        (if n.head? = some '-' then n.tail else n) = m := by
      by_cases hd : n.head? = some '-'
      · refine ⟨['-'], n.tail, ?_, by simp, if_pos hd⟩
        cases n with
        | nil => simp at hd
        | cons c r => simp_all
      · exact ⟨[], n, rfl, by simp, if_neg hd⟩
    simp only [isNumber, hm, Bool.and_eq_true, isFracExp_iff] at h
    obtain ⟨⟨hne, hzero⟩, frac, exp, hrest, hfrac, hexp⟩ := h
    refine ⟨minus, m.takeWhile isDigit, frac, exp, ?_, hminus, ⟨⟨?_, takeWhile_all isDigit m⟩, ?_⟩, hfrac, hexp⟩
    · rw [hn, ← hrest, List.takeWhile_append_dropWhile]
    · simpa [List.isEmpty_iff] using hne
    · intro h0
      simpa [h0] using hzero
  · rintro ⟨minus, int, frac, exp, rfl, hminus, ⟨hdigits, hzero⟩, hfrac, hexp⟩
    have hrest := isFracExp_headNot hfrac hexp
    have hne := hdigits.1
    have hm : (if (minus ++ (int ++ (frac ++ exp))).head? = some '-' then
        (minus ++ (int ++ (frac ++ exp))).tail else minus ++ (int ++ (frac ++ exp))) = int ++ (frac ++ exp) := by
      rcases (by simpa using hminus : minus = [] ∨ minus = ['-']) with rfl | rfl
      · obtain ⟨d, r, rfl, hd⟩ := digits_head hdigits
        have : d ≠ '-' := by
          rintro rfl
          exact absurd hd (by decide)
        simp [this]
      · simp
    simp only [isNumber, hm, takeWhile_append hdigits.2 hrest, dropWhile_append hdigits.2 hrest, Bool.and_eq_true]
    refine ⟨⟨by simpa [List.isEmpty_iff] using hne, ?_⟩, (isFracExp_iff _).2 ⟨frac, exp, rfl, hfrac, hexp⟩⟩
    by_cases h0 : int.head? = some '0'
    · simp [hzero h0]
    · simp [h0]

theorem isNumberChar_of_isDigit {c : Char} (h : isDigit c = true) : isNumberChar c = true := by
  simp [isNumberChar, h]

theorem number_chars {n : List Char} (h : IsNumber n) : ∀ c ∈ n, isNumberChar c = true := by
  obtain ⟨minus, int, frac, exp, rfl, hminus, hint, hfrac, hexp⟩ := h
  intro c hc
  rcases List.mem_append.1 hc with hc | hc
  · rcases (by simpa using hminus : minus = [] ∨ minus = ['-']) with rfl | rfl
    · cases hc
    · obtain rfl : c = '-' := by simpa using hc
      decide
  rcases List.mem_append.1 hc with hc | hc
  · exact isNumberChar_of_isDigit (hint.1.2 c hc)
  rcases List.mem_append.1 hc with hc | hc
  · rcases hfrac with rfl | ⟨ds, rfl, -, hds⟩
    · cases hc
    · rcases List.mem_cons.1 hc with rfl | hc
      · decide
      · exact isNumberChar_of_isDigit (hds c hc)
  · rcases hexp with rfl | ⟨e, sign, ds, rfl, he, hsign, -, hds⟩
    · cases hc
    · rcases List.mem_cons.1 hc with rfl | hc
      · rcases he with rfl | rfl <;> decide
      rcases List.mem_append.1 hc with hc | hc
      · rcases (by simpa using hsign : sign = [] ∨ sign = ['+'] ∨ sign = ['-']) with rfl | rfl | rfl
        · cases hc
        · obtain rfl : c = '+' := by simpa using hc
          decide
        · obtain rfl : c = '-' := by simpa using hc
          decide
      · exact isNumberChar_of_isDigit (hds c hc)

theorem number_head {n : List Char} (h : IsNumber n) :
    ∃ c r, n = c :: r ∧ (isDigit c = true ∨ c = '-' ∧ ∃ d r', r = d :: r' ∧ isDigit d = true) := by
  obtain ⟨minus, int, frac, exp, rfl, hminus, hint, -, -⟩ := h
  obtain ⟨d, r, rfl, hd⟩ := digits_head hint.1
  rcases (by simpa using hminus : minus = [] ∨ minus = ['-']) with rfl | rfl
  · exact ⟨d, r ++ (frac ++ exp), rfl, Or.inl hd⟩
  · exact ⟨'-', _, rfl, Or.inr ⟨rfl, d, r ++ (frac ++ exp), rfl, hd⟩⟩

theorem readNumber_append {n r : List Char} (h : IsNumber n) (hr : HeadNot isNumberChar r) :
    readNumber (n ++ r) = some (n, r) := by
  have hall := number_chars h
  simp [readNumber, takeWhile_append hall hr, dropWhile_append hall hr, (isNumber_iff n).2 h]

theorem readNumber_sound {s n r : List Char} (h : readNumber s = some (n, r)) : s = n ++ r ∧ IsNumber n := by
  simp only [readNumber, Option.ite_none_right_eq_some, Option.some.injEq, Prod.mk.injEq] at h
  obtain ⟨hn, rfl, rfl⟩ := h
  exact ⟨(List.takeWhile_append_dropWhile).symm, (isNumber_iff _).1 hn⟩

/-! Strings and names. -/

theorem readBody_append {b : List Char} (h : IsBody b) (r : List Char) : readBody (b ++ '"' :: r) = some (b, r) := by
  induction h with
  | nil => simp [readBody]
  | @plain c s hc hquote hback _ ih =>
    rw [List.cons_append, readBody, ih] <;> simp_all
  | @escape c s hc _ ih =>
    have hu : c ≠ 'u' := by
      rintro rfl
      exact absurd hc (by decide)
    rw [List.cons_append, List.cons_append, readBody, ih]
    · simp [hc]
    · rintro - - - - - rfl
      exact absurd rfl hu
  | @unicode a b c d s h _ ih =>
    simp only [List.cons_append, readBody, ih]
    simp_all

theorem readBody_sound {s b r : List Char} (h : readBody s = some (b, r)) : s = b ++ '"' :: r ∧ IsBody b := by
  fun_induction readBody s generalizing b r with
  | case1 r' =>
    cases h
    exact ⟨rfl, .nil⟩
  | case2 x y z w r' hall ih =>
    obtain ⟨⟨b', r''⟩, hread, heq⟩ := Option.map_eq_some_iff.1 h
    cases heq
    obtain ⟨rfl, hb⟩ := ih hread
    exact ⟨rfl, .unicode (List.all_eq_true.1 hall) hb⟩
  | case3 x y z w r' hall => cases h
  | case4 c r' _ hc ih =>
    obtain ⟨⟨b', r''⟩, hread, heq⟩ := Option.map_eq_some_iff.1 h
    cases heq
    obtain ⟨rfl, hb⟩ := ih hread
    exact ⟨rfl, .escape hc hb⟩
  | case5 c r' _ hc => cases h
  | case6 c r' hquote _ _ hc ih =>
    obtain ⟨⟨b', r''⟩, hread, heq⟩ := Option.map_eq_some_iff.1 h
    cases heq
    obtain ⟨rfl, hb⟩ := ih hread
    exact ⟨rfl, .plain hc.1 (fun h => hquote h) hc.2 hb⟩
  | case7 c r' _ _ _ hc => cases h
  | case8 => cases h

theorem readName_append {w b w' s : List Char} (hw : IsBlank w) (hb : IsBody b) (hw' : IsBlank w') :
    readName (w ++ '"' :: (b ++ '"' :: (w' ++ ':' :: s))) = some (b, s) := by
  have hquote : isWs '"' = false := by decide
  have hcolon : isWs ':' = false := by decide
  simp only [readName, skipWs_blank hw, skipWs_cons hquote, readBody_append hb, skipWs_blank hw', skipWs_cons hcolon]

theorem readName_sound {s b r : List Char} (h : readName s = some (b, r)) :
    ∃ w w', s = w ++ '"' :: (b ++ '"' :: (w' ++ ':' :: r)) ∧ IsBlank w ∧ IsBody b ∧ IsBlank w' := by
  obtain ⟨w, hw, hs⟩ := exists_blank s
  unfold readName at h
  split at h
  case h_1 s' hs' =>
    split at h
    case h_1 b' r' hread =>
      split at h
      case h_1 r'' hr' =>
        cases h
        obtain ⟨rfl, hb⟩ := readBody_sound hread
        obtain ⟨w', hw', hr⟩ := exists_blank r'
        exact ⟨w, w', by rw [hs, hs', ← hr', ← hr], hw, hb, hw'⟩
      case h_2 => cases h
    case h_2 => cases h
  case h_2 => cases h

/-! Literal names. -/

/-- No name starts like a number, a blank or a bracket. -/
def isName : List Char → Bool
  | [] => false
  | [c] => !isNumberChar c && !isWs c && !"\"[]\x7b\x7d".toList.contains c
  | c :: d :: _ => (!isDigit c && !isWs c && !"\"[]\x7b\x7d".toList.contains c) && !isDigit d

/-- What makes reading a literal name unambiguous. -/
structure Vocabulary (ws : List (List Char)) : Prop where
  names : ∀ w ∈ ws, isName w = true
  unique : ∀ w ∈ ws, ∀ w' ∈ ws, w <+: w' → w = w'

section

variable {ws : List (List Char)}

theorem Vocabulary.head (hv : Vocabulary ws) {w : List Char} (h : w ∈ ws) :
    ∃ c r, w = c :: r ∧ isDigit c = false ∧ isWs c = false ∧ c ∉ "\"[]\x7b\x7d".toList := by
  have hw := hv.names w h
  unfold isName at hw
  split at hw
  · cases hw
  case h_2 c => exact ⟨c, [], rfl, by simp_all [isNumberChar]⟩
  case h_3 c d r => exact ⟨c, d :: r, rfl, by simp_all⟩

theorem not_prefix_number (hv : Vocabulary ws) {w n r : List Char} (hw : w ∈ ws) (hn : IsNumber n) :
    ¬ w <+: n ++ r := by
  obtain ⟨c, m, rfl, hc⟩ := number_head hn
  have hname := hv.names w hw
  intro hp
  unfold isName at hname
  split at hname
  · cases hname
  case h_2 x =>
    obtain ⟨rfl, -⟩ := List.cons_prefix_cons.1 hp
    have hchar := number_chars hn x (by simp)
    simp [hchar] at hname
  case h_3 x y z =>
    obtain ⟨rfl, hp'⟩ := List.cons_prefix_cons.1 hp
    rcases hc with hc | ⟨rfl, d, m', rfl, hd⟩
    · simp [hc] at hname
    · obtain ⟨rfl, -⟩ := List.cons_prefix_cons.1 hp'
      simp [hd] at hname

theorem readWord_append (hv : Vocabulary ws) {w : List Char} (h : w ∈ ws) (r : List Char) :
    readWord ws (w ++ r) = some (w, r) := by
  cases hf : ws.find? (fun w' => w'.isPrefixOf (w ++ r)) with
  | none =>
    have := List.find?_eq_none.1 hf w h
    simp at this
  | some w' =>
    have hmem := List.mem_of_find?_eq_some hf
    have hp : w' <+: w ++ r := by simpa using List.find?_some hf
    obtain rfl : w' = w := by
      rcases List.prefix_or_prefix_of_prefix hp (List.prefix_append w r) with h' | h'
      · exact hv.unique w' hmem w h h'
      · exact (hv.unique w h w' hmem h').symm
    simp [readWord, hf]

theorem readWord_sound {s w r : List Char} (h : readWord ws s = some (w, r)) : s = w ++ r ∧ w ∈ ws := by
  obtain ⟨w', hf, heq⟩ := Option.map_eq_some_iff.1 h
  cases heq
  have hp : w <+: s := by simpa using List.find?_some hf
  exact ⟨(List.prefix_iff_eq_append.1 hp).symm, List.mem_of_find?_eq_some hf⟩

theorem readWord_number (hv : Vocabulary ws) {n r : List Char} (hn : IsNumber n) : readWord ws (n ++ r) = none := by
  have : ws.find? (fun w => w.isPrefixOf (n ++ r)) = none := by
    refine List.find?_eq_none.2 fun w hw => ?_
    simpa using not_prefix_number hv hw hn
  simp [readWord, this]

theorem readScalar_sound {s r : List Char} {t : Value} (h : readScalar ws s = some (t, r)) :
    ∃ u, s = u ++ r ∧ Derives ws (.value t) u := by
  unfold readScalar at h
  split at h
  case h_1 w r' hread =>
    cases h
    obtain ⟨rfl, hw⟩ := readWord_sound hread
    exact ⟨w, rfl, .word hw⟩
  case h_2 =>
    obtain ⟨⟨n, r'⟩, hread, heq⟩ := Option.map_eq_some_iff.1 h
    cases heq
    obtain ⟨rfl, hn⟩ := readNumber_sound hread
    exact ⟨n, rfl, .number hn⟩

end

end JsonText
