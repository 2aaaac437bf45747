import ArenaLab.Seats

/-! The loop of the laboratory's server: a poll, a sweep, and up to sixteen datagrams,
until a system call fails or a signal comes. -/

namespace ArenaLab

/-- Where `main` is: about to poll, in a batch with so many calls of `recvfrom` left in
it, or past its loop. -/
inductive ServerLoop
  | top
  | batch (left : ℕ)
  | ended
  deriving DecidableEq

inductive LoopAction
  | poll (readable : Bool)
  | receive (from_ : SockAddr) (d : List UInt8)
  | drained
  | receiveError
  | leave (io_error : Bool)

/-- One step of `main`; it leaves its loop on a signal, on an error of the poll and once
`running` is 0, but a batch goes on after a failed send. -/
def Server.main (host : LabHost) (s : Server) (loop : ServerLoop) : LoopAction → Option (Server × ServerLoop)
  | .poll readable =>
    match loop with
    | .top =>
      let swept := s.sweepTimeouts host
      if !s.net.running then none
      else if !swept.net.running then some (swept.shutdown host, .ended)
      else some (swept, if readable then .batch 16 else .top)
    | _ => none
  | .receive from_ d =>
    match loop with
    | .batch (k + 1) => some (s.receive host from_ d, .batch k)
    | _ => none
  | .drained =>
    match loop with
    | .batch _ => some (s, .top)
    | _ => none
  | .receiveError =>
    match loop with
    | .batch (_ + 1) => some ({ s with net := { s.net with io_error := true, running := false } }, .top)
    | _ => none
  | .leave io_error =>
    match loop with
    | .top => some ({ s with net := { s.net with io_error := s.net.io_error || io_error } }.shutdown host, .ended)
    | _ => none

def LoopAction.isFrom (addr : SockAddr) : LoopAction → Bool
  | .receive from_ _ => from_ = addr
  | _ => false

/-- The server with the place of `main` in its loop. -/
abbrev LoopStep (host : LabHost) (m : Server × ServerLoop) (a : LoopAction) (m' : Server × ServerLoop) : Prop :=
  m.1.main host m.2 a = some m'

/-- What may happen at the server while the peer waits: sweeps that find the peer's session
in time, and the datagrams of others, as long as no send fails. -/
def LoopAction.Quiet (host : LabHost) (s : Server) (me : SockAddr) : LoopAction → Prop
  | .poll _ => ¬s.Stale host me ∧ (s.sweepTimeouts host).net.running = true
  | .receive from_ d => from_ ≠ me ∧ (s.receive host from_ d).net.running = true
  | .drained => True
  | _ => False

section

variable {host : LabHost} {s s' : Server} {loop loop' : ServerLoop} {a : LoopAction} {me : SockAddr}

/-- As long as `main` is in its loop, what it does is an action of the server or nothing. -/
theorem main_act (h : s.main host loop a = some (s', loop')) (hend : loop' ≠ .ended) :
    s' = s ∨ ∃ b, ServerStep host s b s' := by
  simp only [Server.main] at h
  cases a with
  | poll readable =>
    dsimp only at h
    split at h
    · split at h
      · cases h
      split at h
      · obtain ⟨-, hl⟩ := Prod.mk.inj (Option.some.inj h)
        exact absurd hl.symm hend
      · obtain ⟨hs, -⟩ := Prod.mk.inj (Option.some.inj h)
        exact .inr ⟨.sweep, hs.symm⟩
    · cases h
  | receive from_ d =>
    dsimp only at h
    split at h
    · cases h
      exact .inr ⟨.datagram from_ d, rfl⟩
    · cases h
  | drained =>
    dsimp only at h
    split at h
    · cases h
      exact .inl rfl
    · cases h
  | receiveError =>
    dsimp only at h
    split at h
    · cases h
      exact .inr ⟨.receiveError, rfl⟩
    · cases h
  | leave io_error =>
    dsimp only at h
    split at h
    · cases h
      exact absurd rfl hend
    · cases h

/-- Nothing happens once `main` is past its loop. -/
theorem main_ended : s.main host .ended a = none := by
  cases a <;> rfl

/-- The server of `main` is one that its actions reach. -/
theorem main_run {m m' : Server × ServerLoop} {τ : List LoopAction} (h : Runs.Steps (LoopStep host) m τ m')
    (hend : m'.2 ≠ .ended) : ∃ τ', Runs.Steps (ServerStep host) m.1 τ' m'.1 := by
  induction h with
  | nil => exact ⟨[], .nil⟩
  | @snoc τ t u a hr hstep ih =>
    have hloop : t.2 ≠ .ended := by
      intro he
      rw [LoopStep, he, main_ended] at hstep
      cases hstep
    obtain ⟨τ', hτ'⟩ := ih hloop
    rcases main_act hstep hend with hsame | ⟨b, hb⟩
    · exact ⟨τ', hsame ▸ hτ'⟩
    · exact ⟨τ' ++ [b], hτ'.snoc hb⟩

/-- Nothing quiet touches the peer's session or its replies, or ends the server. -/
theorem sameFor_quiet (hi : SlotInv s) (hrun : s.net.running = true) (hq : a.Quiet host s me)
    (h : s.main host loop a = some (s', loop')) :
    SameFor me s s' ∧ s'.net.running = true ∧ loop' ≠ .ended := by
  simp only [Server.main] at h
  cases a with
  | poll readable =>
    dsimp only at h
    split at h
    · simp only [hrun, hq.2, Bool.not_true, Bool.false_eq_true, if_false] at h
      obtain ⟨hs, hl⟩ := Prod.mk.inj (Option.some.inj h)
      rw [← hs, ← hl]
      refine ⟨sameFor_sweep hi hq.1, hq.2, ?_⟩
      split
      all_goals exact ServerLoop.noConfusion
    · cases h
  | receive from_ d =>
    dsimp only at h
    split at h
    · cases h
      exact ⟨sameFor_receive hi hq.1, hq.2, ServerLoop.noConfusion⟩
    · cases h
  | drained =>
    dsimp only at h
    split at h
    · cases h
      exact ⟨⟨hi, rfl, rfl, fun _ hc => hc, fun hn => hn⟩, hrun, ServerLoop.noConfusion⟩
    · cases h
  | receiveError => cases hq
  | leave io_error => cases hq

end

end ArenaLab
