import ArenaLab.StrictJson
import Mathlib.Data.List.Basic
import Mathlib.Tactic.Common

/-! The two strict JSON readers agree: over a text that the grammar derives, the
scanner of the game refuses what the tree checks of the gateway refuse. -/

namespace ArenaLab

open JsonText

namespace GatewayProcess

theorem skipString_length {s body r : List Char} (h : skipString s = some (body, r)) : r.length ≤ s.length := by
  fun_induction skipString s generalizing body r with
  | case1 => cases h
  | case2 s =>
    cases h
    simp
  | case3 => cases h
  | case4 c s ih =>
    obtain ⟨⟨b, r'⟩, hskip, heq⟩ := Option.map_eq_some_iff.1 h
    cases heq
    have := ih hskip
    simp only [List.length_cons]
    omega
  | case5 c s _ _ _ ih =>
    obtain ⟨⟨b, r'⟩, hskip, heq⟩ := Option.map_eq_some_iff.1 h
    cases heq
    have := ih hskip
    simp only [List.length_cons]
    omega

theorem skipNumber_length {s r : List Char} (h : skipNumber s = some r) : r.length ≤ s.length := by
  induction s with
  | nil =>
    cases h
    simp
  | cons c s ih =>
    unfold skipNumber at h
    split at h
    · split at h
      · cases h
      · have := ih h
        simp only [List.length_cons]
        omega
    · cases h
      simp

theorem scanStep_length {stack stack' : List (List (List ℕ))} {c : Char} {s r : List Char}
    (h : scanStep stack c s = some (stack', r)) : r.length ≤ s.length := by
  unfold scanStep at h
  split at h
  · split at h <;> cases h
    exact le_refl _
  split at h
  · split at h <;> cases h
    exact le_refl _
  split at h
  · split at h
    · cases h
    case h_2 body r' hskip =>
      have hlength := skipString_length hskip
      split at h
      · split at h
        · split at h <;> cases h
          exact hlength
        · cases h
      · cases h
        exact hlength
  split at h
  · split at h
    · cases h
    case h_2 r' hskip =>
      cases h
      exact skipNumber_length hskip
  · cases h
    exact le_refl _

theorem scan_fuel {n : ℕ} {stack : List (List (List ℕ))} {s : List Char} (h : s.length ≤ n) :
    scan n stack s = scan s.length stack s := by
  induction n using Nat.strong_induction_on generalizing stack s with
  | _ n ih =>
    cases s with
    | nil => simp [scan]
    | cons c s =>
      obtain ⟨m, rfl⟩ : ∃ m, n = m + 1 := Nat.exists_eq_succ_of_ne_zero (by simp at h; omega)
      simp only [List.length_cons, scan]
      cases hstep : scanStep stack c s with
      | none => rfl
      | some x =>
        obtain ⟨stack', r⟩ := x
        have hr := scanStep_length hstep
        simp only [List.length_cons] at h
        dsimp only
        rw [ih m (by omega) (by omega)]
        by_cases hm : s.length < m + 1
        · exact (ih s.length hm hr).symm
        · omega

/-- The loop with all the rounds it can take. -/
def scanned (stack : List (List (List ℕ))) (s : List Char) : Option Bool := scan s.length stack s

theorem scanned_nil (stack : List (List (List ℕ))) : scanned stack [] = some true := rfl

theorem scanned_none {stack : List (List (List ℕ))} {c : Char} {s : List Char}
    (h : scanStep stack c s = none) : scanned stack (c :: s) = some false := by
  simp [scanned, scan, h]

theorem scanned_some {stack stack' : List (List (List ℕ))} {c : Char} {s r : List Char}
    (h : scanStep stack c s = some (stack', r)) : scanned stack (c :: s) = scanned stack' r := by
  simp [scanned, scan, h, scan_fuel (scanStep_length h)]

/-- Whatever the text, the loop ends within as many rounds as the text has characters. -/
theorem scanned_isSome (stack : List (List (List ℕ))) (s : List Char) : (scanned stack s).isSome = true := by
  induction hn : s.length using Nat.strong_induction_on generalizing stack s with
  | _ n ih =>
    cases s with
    | nil => rfl
    | cons c s =>
      cases hstep : scanStep stack c s with
      | none => rw [scanned_none hstep, Option.isSome_some]
      | some x =>
        obtain ⟨stack', r⟩ := x
        have hr := scanStep_length hstep
        simp only [List.length_cons] at hn
        rw [scanned_some hstep]
        exact ih r.length (by omega) stack' r rfl

/-- What the scanner passes over one character at a time. -/
def isPlain (c : Char) : Bool := !"\x7b[\x7d]\"-0123456789".toList.contains c

theorem scanStep_plain {c : Char} (h : isPlain c = true) (stack : List (List (List ℕ))) (s : List Char) :
    scanStep stack c s = some (stack, s) := by
  simp only [isPlain, Bool.not_eq_true', ← Bool.not_eq_true, List.contains_iff_mem] at h
  have h1 : ¬(c = '\x7b' ∨ c = '[') := by
    rintro (rfl | rfl) <;> exact h (by decide)
  have h2 : ¬(c = '\x7d' ∨ c = ']') := by
    rintro (rfl | rfl) <;> exact h (by decide)
  have h3 : c ≠ '"' := by
    rintro rfl
    exact h (by decide)
  have h4 : ¬"-0123456789".toList.contains c = true := by
    intro hc
    have hsub : ∀ c ∈ "-0123456789".toList, c ∈ "\x7b[\x7d]\"-0123456789".toList := by simp
    exact h (hsub c (List.contains_iff_mem.1 hc))
  simp only [scanStep, if_neg h1, if_neg h2, if_neg h3, if_neg h4]

theorem scanned_plain {w : List Char} (hw : ∀ c ∈ w, isPlain c = true) (stack : List (List (List ℕ)))
    (r : List Char) : scanned stack (w ++ r) = scanned stack r := by
  induction w with
  | nil => rfl
  | cons c w ih =>
    rw [List.cons_append, scanned_some (scanStep_plain (hw c (by simp)) stack (w ++ r))]
    exact ih fun d hd => hw d (by simp [hd])

theorem isPlain_of_isWs {c : Char} (h : isWs c = true) : isPlain c = true := by
  simp only [isWs, Bool.or_eq_true, decide_eq_true_eq] at h
  rcases h with ((rfl | rfl) | rfl) | rfl <;> decide

theorem scanned_blank {w : List Char} (hw : IsBlank w) (stack : List (List (List ℕ))) (r : List Char) :
    scanned stack (w ++ r) = scanned stack r :=
  scanned_plain (fun c hc => isPlain_of_isWs (hw c hc)) stack r

theorem scanned_cons_plain {c : Char} (h : isPlain c = true) (stack : List (List (List ℕ))) (r : List Char) :
    scanned stack (c :: r) = scanned stack r :=
  scanned_some (scanStep_plain h stack r)

theorem scanned_word {w : List Char} (h : w ∈ words) (stack : List (List (List ℕ))) (r : List Char) :
    scanned stack (w ++ r) = scanned stack r := by
  have hwords : ∀ w ∈ words, ∀ c ∈ w, isPlain c = true := by simp [words, isPlain]
  exact scanned_plain (hwords w h) stack r

theorem scanned_open {c : Char} (hc : c = '\x7b' ∨ c = '[') (stack : List (List (List ℕ))) (s : List Char) :
    scanned stack (c :: s) = if stack.length ≤ 3 then scanned ([] :: stack) s else some false := by
  by_cases h : stack.length ≤ 3
  · rw [if_pos h]
    refine scanned_some ?_
    unfold scanStep
    rw [if_pos hc, if_neg (by omega)]
  · rw [if_neg h]
    refine scanned_none ?_
    unfold scanStep
    rw [if_pos hc, if_pos (by omega)]

theorem scanned_close {c : Char} (hc : c = '\x7d' ∨ c = ']') (keys : List (List ℕ))
    (stack : List (List (List ℕ))) (s : List Char) : scanned (keys :: stack) (c :: s) = scanned stack s := by
  have hopen : ¬(c = '\x7b' ∨ c = '[') := by
    rcases hc with rfl | rfl <;> decide
  refine scanned_some ?_
  rw [scanStep, if_neg hopen, if_pos hc]

theorem skipString_append {b : List Char} (h : IsBody b) (r : List Char) :
    skipString (b ++ '"' :: r) = some (b, r) := by
  induction h with
  | nil => simp [skipString]
  | @plain c s hc hquote hback _ ih =>
    rw [List.cons_append, skipString]
    · rw [ih, Option.map_some]
    all_goals simp_all
  | @escape c s hc _ ih => simp [skipString, ih]
  | @unicode a b c d s h _ ih =>
    have hplain : ∀ x ∈ "0123456789abcdefABCDEF".toList, x ≠ '"' ∧ x ≠ '\\' := by simp
    have hne : ∀ x ∈ [a, b, c, d], x ≠ '"' ∧ x ≠ '\\' := fun x hx => hplain x (of_decide_eq_true (h x hx))
    simp only [List.mem_cons, List.not_mem_nil, or_false, forall_eq_or_imp, forall_eq] at hne
    obtain ⟨⟨ha, ha'⟩, ⟨hb, hb'⟩, ⟨hc, hc'⟩, ⟨hd, hd'⟩⟩ := hne
    simp [skipString, ih, ha', hb', hc', hd']

theorem scanStep_string {b : List Char} (hb : IsBody b) {r : List Char} (hr : (skipWs r).head? ≠ some ':')
    (stack : List (List (List ℕ))) : scanStep stack '"' (b ++ '"' :: r) = some (stack, r) := by
  unfold scanStep
  rw [if_neg (by decide), if_neg (by decide), if_pos rfl, skipString_append hb]
  dsimp only
  split
  case h_1 r' heq =>
    rw [heq] at hr
    simp at hr
  case h_2 => rfl

theorem parse_string {b : List Char} (hb : IsBody b) : parse words ('"' :: (b ++ ['"'])) = some (.string b) := by
  rw [parse_eq_some vocabulary_words]
  have hnil : IsBlank [] := by simp [IsBlank]
  have := Derives.element hnil (Derives.string hb : Derives words _ _) hnil
  simpa [IsText] using this

theorem scanned_key {b w r : List Char} (hb : IsBody b) (hw : IsBlank w) (keys : List (List ℕ))
    (stack : List (List (List ℕ))) : scanned (keys :: stack) ('"' :: (b ++ '"' :: (w ++ ':' :: r))) =
      if keys.contains (unescape b) then some false else scanned ((unescape b :: keys) :: stack) r := by
  have hcolon : isWs ':' = false := by decide
  have hstep : scanStep (keys :: stack) '"' (b ++ '"' :: (w ++ ':' :: r)) =
      if keys.contains (unescape b) then none else some ((unescape b :: keys) :: stack, w ++ ':' :: r) := by
    simp only [scanStep, skipString_append hb, skipWs_blank hw, skipWs_cons hcolon, parse_string hb]
    rfl
  by_cases hk : keys.contains (unescape b) = true
  · rw [if_pos hk] at hstep ⊢
    exact scanned_none hstep
  · rw [if_neg hk] at hstep ⊢
    rw [scanned_some hstep, scanned_blank hw, scanned_cons_plain (by decide)]

/-! Numbers. -/

theorem skipNumber_append {m r : List Char} (hm : ∀ c ∈ m, isNumberChar c = true) (hr : HeadNot isNumberChar r) :
    skipNumber (m ++ r) = if m.any (fun c => ".eE+".toList.contains c) then none else some r := by
  have hchar : ∀ c, "0123456789.eE+-".toList.contains c = isNumberChar c := by
    intro c
    rw [Bool.eq_iff_iff, List.contains_iff_mem]
    simp only [isNumberChar, isDigit, Bool.or_eq_true, decide_eq_true_eq]
    constructor
    · intro h
      simp only [String.reduceToList, List.mem_cons, List.not_mem_nil, or_false] at h ⊢
      tauto
    · intro h
      simp only [String.reduceToList, List.mem_cons, List.not_mem_nil, or_false] at h ⊢
      tauto
  induction m with
  | nil =>
    cases r with
    | nil => rfl
    | cons c r =>
      have hc : isNumberChar c = false := hr c rfl
      have : skipNumber (c :: r) = some (c :: r) := by
        rw [skipNumber, hchar, hc]
        rfl
      simpa using this
  | cons c m ih =>
    have hc := hm c (by simp)
    have ih := ih fun d hd => hm d (by simp [hd])
    rw [List.cons_append, skipNumber, hchar, if_pos hc, ih, List.any_cons]
    cases ".eE+".toList.contains c <;> simp

theorem any_mark_append {s t : List Char} {p : Char → Bool} (h : (s ++ t).any p = false) :
    s.any p = false ∧ t.any p = false := by
  simpa using h

/-- A sign stands in a number only at its start or in an exponent. -/
theorem mark_iff_isFloat {n : List Char} (h : IsNumber n) :
    n.any (fun c => ".eE+".toList.contains c) = isFloat n := by
  rw [Bool.eq_iff_iff]
  constructor
  · intro hmark
    by_contra hfloat
    obtain ⟨minus, int, frac, exp, rfl, hminus, hint, hfrac, hexp⟩ := h
    simp only [isFloat, Bool.not_eq_true] at hfloat
    obtain ⟨-, hfloat⟩ := any_mark_append hfloat
    obtain ⟨-, hfloat⟩ := any_mark_append hfloat
    obtain ⟨hf, he⟩ := any_mark_append hfloat
    obtain rfl : frac = [] := by
      rcases hfrac with h | ⟨ds, rfl, -⟩
      · exact h
      · simp at hf
    obtain rfl : exp = [] := by
      rcases hexp with h | ⟨e, sign, ds, rfl, rfl | rfl, -⟩
      · exact h
      · simp at he
      · simp at he
    have hdigits : ∀ c ∈ "0123456789".toList, ".eE+".toList.contains c = false := by simp
    have hint' : int.any (fun c => ".eE+".toList.contains c) = false := by
      rw [List.any_eq_false]
      intro c hc
      rw [hdigits c (of_decide_eq_true (hint.1.2 c hc))]
      decide
    rcases (by simpa using hminus : minus = [] ∨ minus = ['-']) with rfl | rfl
    · simp only [List.nil_append, List.append_nil, hint'] at hmark
      cases hmark
    · simp only [List.cons_append, List.nil_append, List.append_nil, List.any_cons, hint'] at hmark
      exact absurd hmark (by decide)
  · intro hfloat
    obtain ⟨c, hc, hp⟩ := List.any_eq_true.1 hfloat
    refine List.any_eq_true.2 ⟨c, hc, ?_⟩
    simp only [Bool.or_eq_true, decide_eq_true_eq] at hp
    rcases hp with (rfl | rfl) | rfl <;> decide

theorem scanned_number {n r : List Char} (h : IsNumber n) (hr : HeadNot isNumberChar r)
    (stack : List (List (List ℕ))) :
    scanned stack (n ++ r) = if isFloat n then some false else scanned stack r := by
  obtain ⟨c, m, rfl, hc⟩ := number_head h
  have hm : ∀ d ∈ m, isNumberChar d = true := fun d hd => number_chars h d (by simp [hd])
  have hfirst : ∀ c ∈ "-0123456789".toList, (¬(c = '\x7b' ∨ c = '[')) ∧ (¬(c = '\x7d' ∨ c = ']')) ∧ c ≠ '"' ∧
      ".eE+".toList.contains c = false := by simp
  have hmem : c ∈ "-0123456789".toList := by
    rcases hc with hc | ⟨rfl, -⟩
    · exact List.mem_cons_of_mem _ (of_decide_eq_true hc)
    · decide
  obtain ⟨h1, h2, h3, h4⟩ := hfirst c hmem
  have hmark := mark_iff_isFloat h
  rw [List.any_cons, h4, Bool.false_or] at hmark
  have hstep : scanStep stack c (m ++ r) = if isFloat (c :: m) then none else some (stack, r) := by
    unfold scanStep
    rw [if_neg h1, if_neg h2, if_neg h3, if_pos (List.contains_iff_mem.2 hmem), skipNumber_append hm hr, hmark]
    cases isFloat (c :: m) <;> rfl
  rw [List.cons_append]
  cases hf : isFloat (c :: m) with
  | true =>
    rw [hf] at hstep
    exact scanned_none hstep
  | false =>
    rw [hf] at hstep
    exact scanned_some hstep

/-! Whole texts. -/

section

open GatewayProtocol

/-- The tree checks of the gateway below `level` containers. -/
def fits (level : ℕ) (t : Value) : Bool := depth level t && t.holds hook

def fitsItems (level : ℕ) (ts : List Value) : Bool := depthItems level ts && holdsItems hook ts

def fitsMembers (level : ℕ) (ms : List (List Char × Value)) : Bool := depthValues level ms && holdsMembers hook ms

theorem fits_array (level : ℕ) (ts : List Value) :
    fits level (.array ts) = (decide (level ≤ 3) && fitsItems (level + 1) ts) := by
  simp [fits, fitsItems, depth, Value.holds, hook, Bool.and_assoc]

theorem fits_object (level : ℕ) (ms : List (List Char × Value)) :
    fits level (.object ms) = (decide (level ≤ 3) && (pairs [] ms && fitsMembers (level + 1) ms)) := by
  simp only [fits, fitsMembers, depth, Value.holds, hook]
  ac_rfl

theorem fitsItems_cons (level : ℕ) (t : Value) (ts : List Value) :
    fitsItems level (t :: ts) = (fits level t && fitsItems level ts) := by
  simp only [fits, fitsItems, depthItems, holdsItems]
  ac_rfl

theorem fitsMembers_cons (level : ℕ) (b : List Char) (t : Value) (ms : List (List Char × Value)) :
    fitsMembers level ((b, t) :: ms) = (fits level t && fitsMembers level ms) := by
  simp only [fits, fitsMembers, depthValues, holdsMembers]
  ac_rfl

/-- What may follow a value: neither more of a number nor a colon. -/
def Follow (r : List Char) : Prop := HeadNot isNumberChar r ∧ (skipWs r).head? ≠ some ':'

theorem Follow.blank {w r : List Char} (hw : IsBlank w) (hr : Follow r) : Follow (w ++ r) :=
  ⟨headNot_blank hw hr.1, by rw [skipWs_blank hw]; exact hr.2⟩

theorem follow_cons {c : Char} (r : List Char) (hc : c = ',' ∨ c = ']' ∨ c = '\x7d') : Follow (c :: r) := by
  have hws : isWs c = false := by
    rcases hc with rfl | rfl | rfl <;> decide
  refine ⟨headNot_cons ?_, ?_⟩
  · rcases hc with rfl | rfl | rfl <;> decide
  · rw [skipWs_cons hws]
    rcases hc with rfl | rfl | rfl <;> simp

/-- What the scanner makes of a piece, from any stack. -/
def Scans : Piece → List Char → Prop
  | .value t, u => ∀ stack r, stack.length ≤ 4 → Follow r →
      scanned stack (u ++ r) = if fits stack.length t then scanned stack r else some false
  | .element t, u => ∀ stack r, stack.length ≤ 4 → Follow r →
      scanned stack (u ++ r) = if fits stack.length t then scanned stack r else some false
  | .elements ts, u => ∀ stack r, stack.length ≤ 4 → Follow r →
      scanned stack (u ++ r) = if fitsItems stack.length ts then scanned stack r else some false
  | .member (b, t), u => ∀ keys stack r, stack.length ≤ 3 → Follow r → scanned (keys :: stack) (u ++ r) =
      if !keys.contains (unescape b) && fits (stack.length + 1) t then
        scanned ((unescape b :: keys) :: stack) r
      else some false
  | .members ms, u => ∀ keys stack r, stack.length ≤ 3 → Follow r → ∃ keys', scanned (keys :: stack) (u ++ r) =
      if pairs keys ms && fitsMembers (stack.length + 1) ms then scanned (keys' :: stack) r else some false

theorem scans_container {c c' : Char} (hc : c = '\x7b' ∨ c = '[') (hc' : c' = '\x7d' ∨ c' = ']')
    {stack : List (List (List ℕ))} {s r : List Char} {inside : Bool}
    (h : stack.length ≤ 3 → ∃ keys, scanned ([] :: stack) (s ++ c' :: r) =
      if inside then scanned (keys :: stack) (c' :: r) else some false) :
    scanned stack (c :: (s ++ [c']) ++ r) =
      if decide (stack.length ≤ 3) && inside then scanned stack r else some false := by
  rw [List.cons_append, List.append_assoc, scanned_open hc]
  by_cases hlevel : stack.length ≤ 3
  · obtain ⟨keys, h⟩ := h hlevel
    rw [scanned_close hc'] at h
    simpa [hlevel] using h
  · simp [hlevel]

theorem scans {p : Piece} {u : List Char} (h : Derives words p u) : Scans p u := by
  induction h with
  | @word w h =>
    intro stack r hlevel hr
    have hword : ∀ w ∈ words, (!constants.contains w) = true := by decide
    have hfits : fits stack.length (.word w) = true := by
      simp [fits, depth, Value.holds, hook, hlevel, by simpa using hword w h]
    rw [scanned_word h, hfits, if_pos rfl]
  | @number n h =>
    intro stack r hlevel hr
    have hfits : fits stack.length (.number n) = !isFloat n := by
      simp [fits, depth, Value.holds, hook, hlevel]
    rw [scanned_number h hr.1, hfits]
    cases isFloat n <;> rfl
  | @string b h =>
    intro stack r hlevel hr
    have hfits : fits stack.length (.string b) = true := by
      simp [fits, depth, Value.holds, hook, hlevel]
    rw [hfits, if_pos rfl, List.cons_append, List.append_assoc]
    exact scanned_some (scanStep_string h hr.2 stack)
  | @emptyArray w h =>
    intro stack r hlevel hr
    rw [fits_array]
    refine scans_container (Or.inr rfl) (Or.inr rfl) fun _ => ⟨[], ?_⟩
    rw [scanned_blank h]
    rfl
  | @array ts s h ih =>
    intro stack r hlevel hr
    rw [fits_array]
    exact scans_container (Or.inr rfl) (Or.inr rfl) fun hlevel =>
      ⟨[], ih ([] :: stack) _ (by simp; omega) (follow_cons r (by simp))⟩
  | @emptyObject w h =>
    intro stack r hlevel hr
    rw [fits_object]
    refine scans_container (Or.inl rfl) (Or.inl rfl) fun _ => ⟨[], ?_⟩
    rw [scanned_blank h]
    rfl
  | @object ms s h ih =>
    intro stack r hlevel hr
    rw [fits_object]
    exact scans_container (Or.inl rfl) (Or.inl rfl) fun hlevel =>
      ih [] stack _ hlevel (follow_cons r (by simp))
  | @element t w s w' hw h hw' ih =>
    intro stack r hlevel hr
    rw [List.append_assoc, List.append_assoc, scanned_blank hw, ih stack (w' ++ r) hlevel (hr.blank hw'),
      scanned_blank hw']
  | @lastElement t s h ih =>
    intro stack r hlevel hr
    have hfits : fitsItems stack.length [t] = fits stack.length t := by
      rw [fitsItems_cons]
      exact Bool.and_true _
    rw [hfits]
    exact ih stack r hlevel hr
  | @moreElements t ts s s' h h' ih ih' =>
    intro stack r hlevel hr
    rw [List.append_assoc, List.cons_append, ih stack _ hlevel (follow_cons _ (by simp)),
      scanned_cons_plain (by decide), ih' stack r hlevel hr, fitsItems_cons]
    cases fits stack.length t <;> rfl
  | @member b w w' s t hw hb hw' h ih =>
    intro keys stack r hlevel hr
    have hvalue := ih ((unescape b :: keys) :: stack) r (by simp; omega) hr
    simp only [List.append_assoc, List.cons_append]
    rw [scanned_blank hw, scanned_key hb hw', hvalue, List.length_cons]
    cases keys.contains (unescape b) <;> rfl
  | @lastMember m s h ih =>
    intro keys stack r hlevel hr
    obtain ⟨b, t⟩ := m
    refine ⟨unescape b :: keys, ?_⟩
    have hfits : (pairs keys [(b, t)] && fitsMembers (stack.length + 1) [(b, t)]) =
        (!keys.contains (unescape b) && fits (stack.length + 1) t) := by
      rw [fitsMembers_cons]
      simp [pairs, fitsMembers, depthValues, holdsMembers]
    rw [hfits]
    exact ih keys stack r hlevel hr
  | @moreMembers m ms s s' h h' ih ih' =>
    intro keys stack r hlevel hr
    obtain ⟨b, t⟩ := m
    obtain ⟨keys', hrest⟩ := ih' (unescape b :: keys) stack r hlevel hr
    refine ⟨keys', ?_⟩
    rw [List.append_assoc, List.cons_append, ih keys stack _ hlevel (follow_cons _ (by simp)),
      scanned_cons_plain (by decide), hrest, fitsMembers_cons, pairs]
    cases keys.contains (unescape b) <;> cases fits (stack.length + 1) t <;>
      simp

theorem scanned_text {s : List Char} {t : Value} (h : IsText words s t) : scanned [] s = some (fits 0 t) := by
  have := scans h [] [] (by simp) ⟨headNot_nil, by simp [skipWs]⟩
  rw [List.append_nil, scanned_nil] at this
  rw [this]
  cases hf : fits 0 t <;> simp_all

end

end GatewayProcess

end ArenaLab
