import ArenaLab.Admission
import Mathlib.Data.Rat.Init

/-! What the admission boundary decides for a server: which hello is accepted, what an
admitted peer may do, and which handshakes have expired. -/

namespace ArenaLab

inductive ServerPhase
  | disconnected
  | lobby
  | inMatch
  | results
  deriving DecidableEq

structure Member where
  name : String
  ready : Bool := false
  score : ℚ := 0
  state : String := "NORMAL"

inductive Hello
  | ignore
  | disconnect
  | inMatch
  | duplicateName
  | accept
  deriving DecidableEq

/-- Whether `profile_error` returns an error: only development servers are available. -/
def profileError (development : Bool) : Bool := !development

/-- `String.is_valid_identifier`: ASCII letters, digits and underscores, no leading digit. -/
def isValidIdentifier (s : String) : Bool :=
  match s.toList with
  | [] => false
  | c :: cs => !c.isDigit && (c :: cs).all (fun c => c.isAlphanum || c = '_')

namespace Admission

def connection (a : Admission) (id : ℤ) : Option ConnectionContext :=
  (a.connections.lookup id).bind (fun place => a.contexts[place]?)

/-- The context that a peer holds, changed in place. -/
def update (a : Admission) (id : ℤ) (f : ConnectionContext → ConnectionContext) : Admission :=
  match a.connections.lookup id with
  | none => a
  | some place => { a with contexts := a.contexts.modify place f }

def expiredHandshakes (a : Admission) (now : ℤ) : List ℤ :=
  a.connections.keys.filter fun id =>
    (a.connection id).any fun c => c.state = .pending && 5000 < now - c.connected_at_ms

def hello (a : Admission) (id version expected : ℤ) (nickname : String) (development : Bool) (phase : ServerPhase)
    (members : AList (fun _ : ℤ => Member)) : Hello × Admission :=
  match a.connection id with
  | none => (.ignore, a)
  | some c =>
    if c.state ≠ .pending then (.ignore, a)
    else if version ≠ expected ∨ nickname.length < 1 ∨ 24 < nickname.length ∨ !isValidIdentifier nickname then
      (.disconnect, a)
    else if phase = .inMatch then (.inMatch, a)
    else if members.entries.any (fun e => e.2.name = nickname) then (.duplicateName, a)
    else if profileError development then (.ignore, a)
    else (.accept, a.update id fun c => { c with state := .admitted })

def admitted (a : Admission) (id : ℤ) : Bool := (a.connection id).any (fun c => c.state = .admitted)

def permits (a : Admission) (id : ℤ) (claimed session : String) : Bool := a.admitted id && claimed = session

end Admission

/-- A closed context is never touched again. -/
structure Sealed (a a' : Admission) : Prop where
  grows : a.contexts.length ≤ a'.contexts.length
  closed : ∀ (i : ℕ) c, a.contexts[i]? = some c → c.state = .closed → a'.contexts[i]? = some c

/-- Moreover, a context that is open keeps its meters or is new. -/
structure Carried (a a' : Admission) : Prop extends Sealed a a' where
  opened : ∀ (i : ℕ) c', a'.contexts[i]? = some c' → c'.state ≠ .closed →
    (∃ c, a.contexts[i]? = some c ∧ c.state ≠ .closed ∧ c'.last_sequence = c.last_sequence ∧
      c'.last_input_tick = c.last_input_tick) ∨
    a.contexts.length ≤ i ∧ c'.last_sequence = 0 ∧ c'.last_input_tick = -1

section

variable {a a' a'' : Admission} {id other now : ℤ} {f : ConnectionContext → ConnectionContext}

theorem Sealed.refl (a : Admission) : Sealed a a :=
  ⟨le_refl _, fun _ _ h _ => h⟩

theorem Sealed.trans (h : Sealed a a') (h' : Sealed a' a'') : Sealed a a'' :=
  ⟨Nat.le_trans h.grows h'.grows, fun i c hi hc => h'.closed i c (h.closed i c hi hc) hc⟩

theorem Carried.refl (a : Admission) : Carried a a :=
  ⟨.refl a, fun _ c h hc => .inl ⟨c, h, hc, rfl, rfl⟩⟩

theorem Carried.trans (h : Carried a a') (h' : Carried a' a'') : Carried a a'' := by
  refine ⟨h.toSealed.trans h'.toSealed, ?_⟩
  intro i c' hi hc
  rcases h'.opened i c' hi hc with ⟨c, hi', hc', hseq, htick⟩ | ⟨hlen, hnew⟩
  · rw [hseq, htick]
    exact h.opened i c hi' hc'
  · exact .inr ⟨Nat.le_trans h.grows hlen, hnew⟩

theorem update_connections (a : Admission) (id : ℤ) (f : ConnectionContext → ConnectionContext) :
    (a.update id f).connections = a.connections := by
  rw [Admission.update]
  split <;> rfl

theorem update_generation (a : Admission) (id : ℤ) (f : ConnectionContext → ConnectionContext) :
    (a.update id f).generation = a.generation := by
  rw [Admission.update]
  split <;> rfl

theorem update_length (a : Admission) (id : ℤ) (f : ConnectionContext → ConnectionContext) :
    (a.update id f).contexts.length = a.contexts.length := by
  rw [Admission.update]
  split
  · rfl
  · exact List.length_modify ..

theorem update_contexts (a : Admission) (id : ℤ) (f : ConnectionContext → ConnectionContext) (i : ℕ) :
    (a.update id f).contexts[i]? =
      if a.connections.lookup id = some i then (a.contexts[i]?).map f else a.contexts[i]? := by
  rw [Admission.update]
  split
  · rename_i hl
    rw [hl, if_neg (by simp)]
  · rename_i place hl
    rw [hl, List.getElem?_modify]
    by_cases he : place = i
    · simp [he]
    · simp [he]

theorem disconnected_contexts (a : Admission) (id : ℤ) :
    (a.disconnected id).contexts = (a.update id ConnectionContext.close).contexts := by
  unfold Admission.disconnected Admission.update
  cases a.connections.lookup id <;> rfl

/-- Contexts change only where a peer holds them open. -/
theorem sealed_update (h : HeldInv (· ≠ .closed) a) (hgrow : a'.contexts = (a.update id f).contexts) :
    Sealed a a' := by
  constructor
  · rw [hgrow, update_length]
  · intro i c hi hc
    rw [hgrow, update_contexts, if_neg]
    · exact hi
    · intro hl
      obtain ⟨c', hi', -, hopen⟩ := h.held id i hl
      rw [hi] at hi'
      obtain rfl := Option.some.inj hi'
      exact hopen hc

theorem carried_update (h : HeldInv (· ≠ .closed) a) (hgrow : a'.contexts = (a.update id f).contexts)
    (hf : ∀ c, (f c).state ≠ .closed → (f c).last_sequence = c.last_sequence ∧
      (f c).last_input_tick = c.last_input_tick) : Carried a a' := by
  refine ⟨sealed_update h hgrow, ?_⟩
  intro i c' hi hc
  rw [hgrow, update_contexts] at hi
  by_cases hl : a.connections.lookup id = some i
  · rw [if_pos hl] at hi
    obtain ⟨c, hi', rfl⟩ := Option.map_eq_some_iff.mp hi
    obtain ⟨d, hd, -, hopen⟩ := h.held id i hl
    rw [hi'] at hd
    obtain rfl := Option.some.inj hd
    exact .inl ⟨c, hi', hopen, hf c hc⟩
  · rw [if_neg hl] at hi
    exact .inl ⟨c', hi, hc, rfl, rfl⟩

theorem carried_disconnected (h : HeldInv (· ≠ .closed) a) (id : ℤ) : Carried a (a.disconnected id) :=
  carried_update h (disconnected_contexts a id) (fun _ hc => absurd rfl hc)

theorem carried_connected (h : HeldInv (· ≠ .closed) a) (id now : ℤ) : Carried a (a.connected id now).1 := by
  refine (carried_disconnected h id).trans ⟨⟨?_, ?_⟩, ?_⟩
  · simp [Admission.connected]
  · intro i c hi _
    exact List.getElem?_concat_of_some hi
  · intro i c' hi hc
    rcases List.getElem?_concat_some hi with hold | ⟨rfl, rfl⟩
    · exact .inl ⟨c', hold, hc, rfl, rfl⟩
    · exact .inr ⟨le_refl _, rfl, rfl⟩

theorem HeldInv.update {live live' : ContextState → Prop} (h : HeldInv live a)
    (hlive : ∀ other c, a.connection other = some c → live' (if other = id then (f c).state else c.state))
    (hf : ∀ c, (f c).peer_id = c.peer_id ∧ (f c).generation = c.generation) : HeldInv live' (a.update id f) := by
  have hctx := update_contexts a id f
  have hconn := update_connections a id f
  constructor
  · rw [update_generation, update_length]
    exact h.generation
  · intro i c hc
    rw [hctx] at hc
    split at hc
    · obtain ⟨c', hc', rfl⟩ := Option.map_eq_some_iff.mp hc
      rw [(hf c').2]
      exact h.numbered i c' hc'
    · exact h.numbered i c hc
  · intro other i hi
    rw [hconn] at hi
    obtain ⟨c, hc, hid, -⟩ := h.held other i hi
    have hl := hlive other c (by rw [Admission.connection, hi]; exact hc)
    rw [hctx]
    by_cases he : other = id
    · subst he
      rw [if_pos rfl] at hl
      rw [if_pos hi, hc]
      exact ⟨f c, rfl, (hf c).1.trans hid, hl⟩
    · rw [if_neg he] at hl
      rw [if_neg, hc]
      · exact ⟨c, rfl, hid, hl⟩
      · intro hi'
        obtain ⟨c', hc', hid', -⟩ := h.held id i hi'
        rw [hc] at hc'
        obtain rfl := Option.some.inj hc'
        exact he (hid.symm.trans hid')
  · intro i c hc hnone
    rw [hconn] at hnone
    rw [hctx, if_neg (hnone id)] at hc
    exact h.dropped i c hc hnone

/-! The context that a peer holds after each operation. -/

theorem connection_update (h : HeldInv (· ≠ .closed) a) (id : ℤ) (f : ConnectionContext → ConnectionContext)
    (other : ℤ) :
    (a.update id f).connection other = if other = id then (a.connection id).map f else a.connection other := by
  rw [Admission.connection, update_connections, Admission.connection, Admission.connection]
  by_cases he : other = id
  · subst he
    rw [if_pos rfl]
    cases hl : a.connections.lookup other with
    | none => rfl
    | some place => simp [update_contexts, hl]
  · rw [if_neg he]
    cases hl : a.connections.lookup other with
    | none => rfl
    | some place =>
      have hne : a.connections.lookup id ≠ some place := by
        intro hl'
        obtain ⟨c, hc, hid, -⟩ := h.held other place hl
        obtain ⟨c', hc', hid', -⟩ := h.held id place hl'
        rw [hc] at hc'
        obtain rfl := Option.some.inj hc'
        exact he (hid.symm.trans hid')
      simp [update_contexts, hne]

theorem connection_disconnected (h : HeldInv (· ≠ .closed) a) (id other : ℤ) :
    (a.disconnected id).connection other = if other = id then none else a.connection other := by
  rw [Admission.connection, disconnected_lookup]
  by_cases he : other = id
  · rw [if_pos he, if_pos he]
    rfl
  · have hu := connection_update h id ConnectionContext.close other
    rw [if_neg he, Admission.connection, update_connections, ← disconnected_contexts] at hu
    rw [if_neg he, if_neg he]
    exact hu

theorem connection_connected (h : HeldInv (· ≠ .closed) a) (id now other : ℤ) :
    (a.connected id now).1.connection other =
      if other = id then some ⟨id, (a.disconnected id).generation + 1, now, .pending, 0, -1⟩
      else a.connection other := by
  have hd := connection_disconnected h id other
  rw [Admission.connection, connected_lookup]
  by_cases he : other = id
  · rw [if_pos he, if_pos he]
    exact List.getElem?_concat_length ..
  · rw [if_neg he] at hd ⊢
    rw [if_neg he, ← hd, Admission.connection, disconnected_lookup, if_neg he]
    cases hl : a.connections.lookup other with
    | none => rfl
    | some place =>
      obtain ⟨c, hc, -⟩ := (h.disconnected id).held other place (by rw [disconnected_lookup, if_neg he, hl])
      exact (List.getElem?_concat_of_some hc).trans hc.symm

theorem connections_clear (a : Admission) (id : ℤ) : a.clear.connections.lookup id = none := by
  have hfold : ∀ (ids : List ℤ) (a : Admission), (id ∈ ids ∨ a.connections.lookup id = none) →
      (ids.foldl Admission.disconnected a).connections.lookup id = none := by
    intro ids
    induction ids with
    | nil => simp
    | cons other ids ih =>
      intro a h
      refine ih (a.disconnected other) ?_
      rw [disconnected_lookup]
      by_cases he : id = other
      · exact .inr (if_pos he)
      · rw [if_neg he]
        rcases h with h | h
        · exact .inl ((List.mem_cons.mp h).resolve_left he)
        · exact .inr h
  refine hfold _ a ?_
  by_cases hm : id ∈ a.connections
  · exact .inl (AList.mem_keys.mp hm)
  · exact .inr (AList.lookup_eq_none.mpr hm)

theorem connection_clear (a : Admission) (id : ℤ) : a.clear.connection id = none := by
  rw [Admission.connection, connections_clear]
  rfl

/-- Several disconnections keep the contexts in order and carry them over. -/
theorem HeldInv.disconnect_all (ids : List ℤ) (h : HeldInv (· ≠ .closed) a) :
    HeldInv (· ≠ .closed) (ids.foldl Admission.disconnected a) ∧ Carried a (ids.foldl Admission.disconnected a) := by
  induction ids generalizing a with
  | nil => exact ⟨h, .refl a⟩
  | cons id ids ih =>
    obtain ⟨hheld, hcarried⟩ := ih (h.disconnected id)
    exact ⟨hheld, (carried_disconnected h id).trans hcarried⟩

theorem connection_disconnect_all (ids : List ℤ) (h : HeldInv (· ≠ .closed) a) (id : ℤ) :
    (ids.foldl Admission.disconnected a).connection id = if id ∈ ids then none else a.connection id := by
  induction ids generalizing a with
  | nil => simp
  | cons other ids ih =>
    rw [List.foldl_cons, ih (h.disconnected other), connection_disconnected h]
    by_cases he : id = other
    · simp [he]
    · simp [he]

/-- A handshake that expires is still pending. -/
theorem not_expired (hc : a.admitted id = true) : id ∉ a.expiredHandshakes now := by
  intro hid
  have hexp := (List.mem_filter.mp hid).2
  rw [Admission.admitted] at hc
  cases hl : a.connection id with
  | none =>
    rw [hl] at hc
    cases hc
  | some c =>
    rw [hl] at hc hexp
    simp only [Option.any_some, Bool.and_eq_true, decide_eq_true_eq] at hc hexp
    rw [hc] at hexp
    cases hexp.1

theorem HeldInv.generations (h : HeldInv (· ≠ .closed) a) {i j : ℕ} {c d : ConnectionContext}
    (hi : a.contexts[i]? = some c) (hj : a.contexts[j]? = some d) (hlt : i < j) : c.generation < d.generation := by
  have hc := h.numbered i c hi
  have hd := h.numbered j d hj
  omega

end

end ArenaLab
