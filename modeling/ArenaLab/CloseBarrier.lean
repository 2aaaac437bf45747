import ArenaLab.GatewayGate

/-! What is left to a channel that the parent has closed. -/

namespace ArenaLab

/-- The worker does not run: `forward` has not been entered, or has cancelled it. -/
def Link.still (l : Link) (w : Worker) : Prop :=
  l.stage ≠ .forwarding ∧ (l.stage = .stopping → l.alive w = false)

def Relay.still (s : Relay) (c : HexStr 32) (w : Worker) : Prop := ∀ l, s.links.lookup c = some l → l.still w

section

variable {role : GatewayRole} {τ : List RelayEvent} {e : RelayEvent} {c d : HexStr 32} {l l' : Link} {s s' : Relay}
  {w : Worker} {ev : WorkerEvent}

theorem Link.still.dead (h : l.still w) (hworks : l.works = true) : l.alive w = false := by
  simp only [Link.works, Bool.or_eq_true, decide_eq_true_eq] at hworks
  exact h.2 (hworks.resolve_left h.1)

theorem Link.still.shrink (h : l.still w) (hworks : l.works = true) (hstage : l'.stage ≠ .forwarding)
    (halive : l'.alive w = true → l.alive w = true) : l'.still w := by
  refine ⟨hstage, fun _ => ?_⟩
  rw [← Bool.not_eq_true]
  intro hf
  rw [h.dead hworks] at halive
  cases halive hf

theorem LinkChange.still (h : LinkChange role c l e l') (hclosed : l.closed = true) (hstill : l.still w) :
    l'.still w := by
  cases h with
  | started hack hopen hs =>
    rw [hclosed] at hopen
    cases hopen
  | resumed outlives hworks => exact hstill.shrink hworks (by simp [Link.cancel]) alive_cancel
  | opened hs => exact ⟨by simp, fun hf => (by cases hf)⟩
  | worked hworks hw =>
    have hkept := workerNext_worked hw
    refine hstill.shrink hworks ?_ (hkept.alive w)
    rcases hkept.stage with ⟨hs, -⟩ | ⟨hs, -⟩
    · rw [hs]
      exact hstill.1
    · rw [hs]
      simp
  | _ => exact hstill

/-- Once closed, a channel whose worker does not run will not see it run. -/
theorem RelayInv.still (h : RelayInv role τ s) (hclosed : .closed c ∈ τ) (hstill : s.still c w)
    (hc : RelayChange role s e s') : s'.still c w := by
  intro x hx
  cases hc with
  | same he hlinks _ _ =>
    rw [hlinks] at hx
    exact hstill x hx
  | @created d hd hr =>
    by_cases heq : c = d
    · subst heq
      exact absurd hclosed (h.unknown c hd hr).2.2
    · simp only [Relay.put, AList.lookup_insert_ne heq] at hx
      exact hstill x hx
  | @moved d l l' _ _ hd hl hlinks _ _ _ =>
    rw [hlinks] at hx
    by_cases heq : c = d
    · subst heq
      rw [AList.lookup_insert, Option.some.injEq] at hx
      rw [← hx]
      exact hl.still ((h.link c l hd).closed hclosed) (hstill l hd)
    · rw [AList.lookup_insert_ne heq] at hx
      exact hstill x hx
  | @retired d _ hd hlinks _ _ =>
    rw [hlinks] at hx
    by_cases heq : c = d
    · subst heq
      rw [AList.lookup_erase] at hx
      cases hx
    · rw [AList.lookup_erase_ne heq] at hx
      exact hstill x hx
  | stopped hlinks _ _ =>
    rw [hlinks, AList.lookup_mapValues] at hx
    obtain ⟨l, hl, rfl⟩ := Option.map_eq_some_iff.mp hx
    exact hstill l hl

variable {τ' : List RelayEvent} {t t' u : Relay}

end

end ArenaLab
