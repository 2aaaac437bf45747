import Mathlib.Data.List.AList

/-! Shared objects and the tables that name them. An object is known by its
place in a list that only grows; a table is an association list of places,
rebuilt from the entries that pass a test. -/

namespace AList

variable {α : Type*} {β : α → Type*}

def keep (s : AList β) (p : Sigma β → Bool) : AList β where
  entries := s.entries.filter p
  nodupKeys := s.nodupKeys.sublist List.filter_sublist

@[simp] theorem keep_entries (s : AList β) (p : Sigma β → Bool) :
    (s.keep p).entries = s.entries.filter p := rfl

@[simp] theorem keep_empty (p : Sigma β → Bool) : (∅ : AList β).keep p = ∅ := rfl

theorem mem_lookup_keep [DecidableEq α] {s : AList β} {p : Sigma β → Bool} {a : α} {b : β a} :
    (s.keep p).lookup a = some b ↔ s.lookup a = some b ∧ p ⟨a, b⟩ = true := by
  change b ∈ (s.keep p).lookup a ↔ b ∈ s.lookup a ∧ _
  rw [mem_lookup_iff, mem_lookup_iff, keep_entries, List.mem_filter]

theorem mem_entries_insert [DecidableEq α] {s : AList β} {a : α} {b : β a} (h : a ∉ s) {e : Sigma β} :
    e ∈ (s.insert a b).entries ↔ e = ⟨a, b⟩ ∨ e ∈ s.entries := by
  rw [entries_insert_of_notMem h, List.mem_cons]

theorem mem_of_lookup [DecidableEq α] {s : AList β} {a : α} {b : β a} (h : s.lookup a = some b) : a ∈ s := by
  rw [← lookup_isSome, h]
  rfl

theorem two_le_keys {s : AList β} : 2 ≤ s.keys.length ↔ ∃ a b, a ≠ b ∧ a ∈ s ∧ b ∈ s := by
  constructor
  · intro h
    have hn := s.keys_nodup
    match hk : s.keys, h with
    | a :: b :: _, _ =>
      rw [hk] at hn
      have hne : a ≠ b := fun he => (List.nodup_cons.mp hn).1 (by simp [he])
      exact ⟨a, b, hne, mem_keys.mpr (by simp [hk]), mem_keys.mpr (by simp [hk])⟩
  · rintro ⟨a, b, hne, ha, hb⟩
    have ha := mem_keys.mp ha
    have hb := mem_keys.mp hb
    match hk : s.keys with
    | [] => simp [hk] at ha
    | [c] =>
      rw [hk, List.mem_singleton] at ha hb
      exact absurd (ha.trans hb.symm) hne
    | _ :: _ :: _ => simp

theorem exists_lookup [DecidableEq α] {s : AList β} {a : α} (h : a ∈ s) : ∃ b, s.lookup a = some b :=
  Option.isSome_iff_exists.mp (lookup_isSome.mpr h)

section

variable {α β γ : Type*} (s : AList (fun _ : α => β)) (f : β → γ)

def mapValues : AList (fun _ : α => γ) where
  entries := s.entries.map (fun e => ⟨e.1, f e.2⟩)
  nodupKeys := by
    have hk : (s.entries.map (fun e => (⟨e.1, f e.2⟩ : Sigma (fun _ : α => γ)))).keys = s.entries.keys := by
      simp [List.keys]
    rw [List.NodupKeys, hk]
    exact s.nodupKeys

theorem keys_mapValues : (s.mapValues f).keys = s.keys := by
  simp [keys, mapValues, List.keys]

theorem lookup_mapValues [DecidableEq α] (a : α) : (s.mapValues f).lookup a = (s.lookup a).map f := by
  ext b
  change b ∈ (s.mapValues f).lookup a ↔ _
  rw [mem_lookup_iff, Option.map_eq_some_iff]
  constructor
  · intro h
    obtain ⟨⟨a', x⟩, hx, he⟩ := List.mem_map.mp h
    cases he
    exact ⟨x, mem_lookup_iff.mpr hx, rfl⟩
  · rintro ⟨x, hx, rfl⟩
    exact List.mem_map.mpr ⟨⟨a, x⟩, mem_lookup_iff.mp hx, rfl⟩

end

section

variable {α β : Type*} [DecidableEq α] (s : AList (fun _ : α => β)) (a : α) (f : β → β)

/-- The value at a key changed in place, if the key is there. -/
def adjust : AList (fun _ : α => β) where
  entries := s.entries.map (fun e => if e.1 = a then ⟨e.1, f e.2⟩ else e)
  nodupKeys := by
    have hk : (s.entries.map (fun e => if e.1 = a then (⟨e.1, f e.2⟩ : Sigma (fun _ : α => β)) else e)).keys =
        s.entries.keys := by
      rw [List.keys, List.map_map]
      refine List.map_congr_left ?_
      intro e _
      simp only [Function.comp_apply]
      split <;> rfl
    rw [List.NodupKeys, hk]
    exact s.nodupKeys

theorem lookup_adjust (b : α) : (s.adjust a f).lookup b = if b = a then (s.lookup b).map f else s.lookup b := by
  ext x
  have hx : (s.adjust a f).lookup b = some x ↔
      ∃ e ∈ s.entries, (if e.1 = a then (⟨e.1, f e.2⟩ : Sigma (fun _ : α => β)) else e) = ⟨b, x⟩ :=
    mem_lookup_iff.trans List.mem_map
  rw [hx]
  by_cases he : b = a
  · rw [if_pos he, Option.map_eq_some_iff]
    constructor
    · rintro ⟨⟨c, y⟩, hy, hc⟩
      dsimp only at hc
      split at hc
      · cases hc
        exact ⟨y, mem_lookup_iff.mpr hy, rfl⟩
      · cases hc
        contradiction
    · rintro ⟨y, hy, rfl⟩
      exact ⟨⟨b, y⟩, mem_lookup_iff.mp hy, by rw [if_pos he]⟩
  · rw [if_neg he]
    constructor
    · rintro ⟨⟨c, y⟩, hy, hc⟩
      dsimp only at hc
      split at hc
      · cases hc
        contradiction
      · cases hc
        exact mem_lookup_iff.mpr hy
    · intro hl
      exact ⟨⟨b, x⟩, mem_lookup_iff.mp hl, by rw [if_neg he]⟩

theorem mem_adjust {b : α} : b ∈ s.adjust a f ↔ b ∈ s := by
  rw [← lookup_isSome, ← lookup_isSome, lookup_adjust]
  split
  · rw [Option.isSome_map]
  · rfl

theorem lookup_adjust_self : (s.adjust a f).lookup a = (s.lookup a).map f := by
  rw [lookup_adjust, if_pos rfl]

theorem lookup_adjust_ne {b : α} (h : b ≠ a) : (s.adjust a f).lookup b = s.lookup b := by
  rw [lookup_adjust, if_neg h]

end

end AList

namespace List

variable {α : Type*} {xs : List α} {i j : ℕ} {x y : α}

theorem getElem?_set_of_some (h : xs[i]? = some x) : (xs.set i y)[i]? = some y :=
  getElem?_set_self (getElem?_eq_some_iff.mp h).1

theorem getElem?_concat_of_some (h : xs[i]? = some x) : (xs ++ [y])[i]? = some x := by
  rw [getElem?_append_left (getElem?_eq_some_iff.mp h).1]
  exact h

theorem getElem?_set_some (h : (xs.set i x)[j]? = some y) :
    i = j ∧ x = y ∨ i ≠ j ∧ xs[j]? = some y := by
  by_cases he : i = j
  · subst he
    rw [getElem?_set] at h
    simp only [if_true] at h
    split at h
    · exact .inl ⟨rfl, Option.some.inj h⟩
    · cases h
  · rw [getElem?_set_ne he] at h
    exact .inr ⟨he, h⟩

theorem getElem?_concat_some (h : (xs ++ [x])[j]? = some y) :
    xs[j]? = some y ∨ j = xs.length ∧ x = y := by
  rw [getElem?_append] at h
  split at h
  · exact .inl h
  · have hl := (getElem?_eq_some_iff.mp h).1
    simp only [length_singleton] at hl
    refine .inr ⟨by omega, ?_⟩
    simpa [show j - xs.length = 0 by omega] using h

/-- Under distinct images, no other element shares that of the one erased. -/
theorem mem_eraseIdx_ne {β : Type*} {f : α → β} (h : (xs.map f).Nodup) (hx : xs[i]? = some x)
    (hy : y ∈ xs.eraseIdx i) : f x ≠ f y := by
  induction xs generalizing i with
  | nil => simp at hx
  | cons z xs ih =>
    rw [map_cons, nodup_cons] at h
    obtain ⟨hz, hn⟩ := h
    cases i with
    | zero =>
      obtain rfl := Option.some.inj hx
      intro he
      exact hz (he ▸ mem_map_of_mem hy)
    | succ i =>
      rw [getElem?_cons_succ] at hx
      rw [eraseIdx_cons_succ] at hy
      rcases mem_cons.mp hy with rfl | hy
      · intro he
        exact hz (he ▸ mem_map_of_mem (mem_of_getElem? hx))
      · exact ih hn hx hy

/-- An element of a list with one more at the end is that one, or it was there before. -/
theorem concat_eq_append_cons {pre post : List α} (h : xs ++ [x] = pre ++ y :: post) :
    post = [] ∧ xs = pre ∧ x = y ∨ ∃ post', post = post' ++ [x] ∧ xs = pre ++ y :: post' := by
  rcases eq_nil_or_concat post with rfl | ⟨post', z, rfl⟩
  · obtain ⟨hxs, hx⟩ := append_inj' h rfl
    exact .inl ⟨rfl, hxs, (cons.inj hx).1⟩
  · have he : xs ++ [x] = (pre ++ y :: post') ++ [z] := by simpa using h
    obtain ⟨hxs, hx⟩ := append_inj' he rfl
    obtain rfl := (cons.inj hx).1
    exact .inr ⟨post', concat_eq_append, hxs⟩

end List
