import ArenaLab.Places
import Mathlib.Data.Int.Notation
import Mathlib.Tactic.Common

/-! The admission boundary of the game server: one context for each connection.
Contexts are objects that outlive their connection, so they are kept by place. -/

namespace ArenaLab

inductive ContextState
  | pending
  | admitted
  | closed
  deriving DecidableEq

structure ConnectionContext where
  peer_id : ℤ
  generation : ℤ
  connected_at_ms : ℤ
  state : ContextState := .pending
  last_sequence : ℤ := 0
  last_input_tick : ℤ := -1
  deriving DecidableEq

def ConnectionContext.close (c : ConnectionContext) : ConnectionContext :=
  { c with state := .closed, last_sequence := 0, last_input_tick := -1 }

/-- All contexts made so far, and the place of the one that each peer holds. -/
structure Admission where
  contexts : List ConnectionContext
  connections : AList (fun _ : ℤ => ℕ)
  generation : ℤ

def Admission.new : Admission := ⟨[], ∅, 0⟩

def Admission.disconnected (a : Admission) (id : ℤ) : Admission :=
  match a.connections.lookup id with
  | none => a
  | some place =>
    { a with
      contexts := a.contexts.modify place ConnectionContext.close
      connections := a.connections.erase id }

def Admission.connected (a : Admission) (id now : ℤ) : Admission × ℕ :=
  let a := a.disconnected id
  ({ contexts := a.contexts ++ [⟨id, a.generation + 1, now, .pending, 0, -1⟩]
     connections := a.connections.insert id a.contexts.length
     generation := a.generation + 1 }, a.contexts.length)

def Admission.clear (a : Admission) : Admission := a.connections.keys.foldl Admission.disconnected a

/-- The held contexts are pending, all others are closed, and generations count up. -/
structure AdmissionInv (a : Admission) : Prop where
  generation : a.generation = a.contexts.length
  numbered : ∀ (i : ℕ) c, a.contexts[i]? = some c → c.generation = (i : ℤ) + 1
  held : ∀ id i, a.connections.lookup id = some i →
    ∃ c, a.contexts[i]? = some c ∧ c.peer_id = id ∧ c.state = .pending
  dropped : ∀ i c, a.contexts[i]? = some c → (∀ id, a.connections.lookup id ≠ some i) → c.state = .closed

/-- The held contexts are live, all others are closed, and generations count up. -/
structure HeldInv (live : ContextState → Prop) (a : Admission) : Prop where
  generation : a.generation = a.contexts.length
  numbered : ∀ (i : ℕ) c, a.contexts[i]? = some c → c.generation = (i : ℤ) + 1
  held : ∀ id i, a.connections.lookup id = some i →
    ∃ c, a.contexts[i]? = some c ∧ c.peer_id = id ∧ live c.state
  dropped : ∀ i c, a.contexts[i]? = some c → (∀ id, a.connections.lookup id ≠ some i) → c.state = .closed

theorem admissionInv_iff {a : Admission} : AdmissionInv a ↔ HeldInv (· = .pending) a :=
  ⟨fun h => ⟨h.generation, h.numbered, h.held, h.dropped⟩, fun h => ⟨h.generation, h.numbered, h.held, h.dropped⟩⟩

section

variable {a : Admission} {id now : ℤ} {live : ContextState → Prop}

theorem heldInv_new : HeldInv live Admission.new := by
  refine ⟨rfl, ?_, ?_, ?_⟩
  · intro i c hc
    cases hc
  · intro id i hi
    cases hi
  · intro i c hc
    cases hc

theorem admissionInv_new : AdmissionInv Admission.new :=
  admissionInv_iff.mpr heldInv_new

theorem disconnected_lookup (a : Admission) (id other : ℤ) :
    (a.disconnected id).connections.lookup other = if other = id then none else a.connections.lookup other := by
  simp only [Admission.disconnected]
  split
  · rename_i hnone
    by_cases he : other = id
    · rw [if_pos he, he, hnone]
    · rw [if_neg he]
  · by_cases he : other = id
    · rw [if_pos he, he, AList.lookup_erase]
    · rw [if_neg he, AList.lookup_erase_ne he]

theorem HeldInv.disconnected (h : HeldInv live a) (id : ℤ) : HeldInv live (a.disconnected id) := by
  cases hl : a.connections.lookup id with
  | none =>
    rw [Admission.disconnected, hl]
    exact h
  | some place =>
    obtain ⟨c₀, hc₀, hid₀, _⟩ := h.held id place hl
    have hlook := disconnected_lookup a id
    have hctx : ∀ i, (a.disconnected id).contexts[i]? =
        if place = i then (a.contexts[i]?).map ConnectionContext.close else a.contexts[i]? := by
      intro i
      rw [Admission.disconnected, hl]
      simp only [List.getElem?_modify]
      split
      · rfl
      · cases a.contexts[i]? <;> rfl
    constructor
    · have hgen := h.generation
      rw [Admission.disconnected, hl]
      simpa using hgen
    · intro i c hc
      rw [hctx] at hc
      split at hc
      · obtain ⟨c', hc', rfl⟩ := Option.map_eq_some_iff.mp hc
        exact h.numbered i c' hc'
      · exact h.numbered i c hc
    · intro other i hi
      rw [hlook] at hi
      split at hi
      · cases hi
      · rename_i hne
        obtain ⟨c, hc, hid, hp⟩ := h.held other i hi
        refine ⟨c, ?_, hid, hp⟩
        rw [hctx, if_neg]
        · exact hc
        · rintro rfl
          rw [hc] at hc₀
          obtain rfl := Option.some.inj hc₀
          exact hne (hid.symm.trans hid₀)
    · intro i c hc hnone
      rw [hctx] at hc
      split at hc
      · obtain ⟨c', _, rfl⟩ := Option.map_eq_some_iff.mp hc
        rfl
      · rename_i hi
        refine h.dropped i c hc ?_
        intro other ho
        have hf := hnone other
        rw [hlook] at hf
        split at hf
        · rename_i he
          rw [he, hl] at ho
          exact hi (Option.some.inj ho)
        · exact hf ho

theorem connected_lookup (a : Admission) (id now other : ℤ) :
    (a.connected id now).1.connections.lookup other =
      if other = id then some (a.connected id now).2 else a.connections.lookup other := by
  simp only [Admission.connected]
  by_cases he : other = id
  · rw [if_pos he, he, AList.lookup_insert]
  · rw [if_neg he, AList.lookup_insert_ne he, disconnected_lookup, if_neg he]

theorem HeldInv.connected (h : HeldInv live a) (hlive : live .pending) (id now : ℤ) :
    HeldInv live (a.connected id now).1 := by
  have hd := h.disconnected id
  have hgen := hd.generation
  have hlook := connected_lookup a id now
  have hplace : (a.connected id now).2 = (a.disconnected id).contexts.length := rfl
  have hctx : ∀ {i : ℕ} {c : ConnectionContext}, (a.connected id now).1.contexts[i]? = some c →
      (a.disconnected id).contexts[i]? = some c ∨
      i = (a.disconnected id).contexts.length ∧
        (⟨id, (a.disconnected id).generation + 1, now, .pending, 0, -1⟩ : ConnectionContext) = c := by
    intro i c hc
    exact List.getElem?_concat_some hc
  constructor
  · show (a.disconnected id).generation + 1 =
      (((a.disconnected id).contexts ++ [_]).length : ℤ)
    rw [hgen, List.length_append, List.length_singleton]
    rfl
  · intro i c hc
    rcases hctx hc with hold | ⟨rfl, rfl⟩
    · exact hd.numbered i c hold
    · show (a.disconnected id).generation + 1 = _
      rw [hgen]
  · intro other i hi
    rw [hlook] at hi
    split at hi
    · rename_i he
      obtain rfl := Option.some.inj hi
      exact ⟨_, List.getElem?_concat_length .., he.symm, hlive⟩
    · rename_i hne
      obtain ⟨c, hc, hid, hp⟩ := hd.held other i (by rw [disconnected_lookup, if_neg hne]; exact hi)
      exact ⟨c, List.getElem?_concat_of_some hc, hid, hp⟩
  · intro i c hc hnone
    rcases hctx hc with hold | ⟨rfl, _⟩
    · refine hd.dropped i c hold ?_
      intro other ho
      rw [disconnected_lookup] at ho
      split at ho
      · cases ho
      · rename_i hne
        have hf := hnone other
        rw [hlook, if_neg hne] at hf
        exact hf ho
    · have hf := hnone id
      rw [hlook, if_pos rfl, hplace] at hf
      exact absurd rfl hf

theorem AdmissionInv.disconnected (h : AdmissionInv a) (id : ℤ) : AdmissionInv (a.disconnected id) :=
  admissionInv_iff.mpr ((admissionInv_iff.mp h).disconnected id)

theorem AdmissionInv.connected (h : AdmissionInv a) (id now : ℤ) : AdmissionInv (a.connected id now).1 :=
  admissionInv_iff.mpr ((admissionInv_iff.mp h).connected rfl id now)

end

end ArenaLab
