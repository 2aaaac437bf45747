import ArenaLab.FullPipe

/-! The crowd goes on while the output task waits for room in the pipe: the queue fills as
well, and an id is spent whose frame never enters it. -/

namespace ArenaLab

section

variable {s : TimedOutbox} {print : HexStr 64} {k tx len n : ℕ} {start : ℚ} {w : Option (ℚ × ℕ)}
  {τ : List OutboxEvent}

/-- While the pipe is full the queue fills, one closing after the other. -/
theorem Hurried.grows (h : Hurried print start n (n + 2) 0 w s) (hn : n ≤ 65) (hpipe : 0 < s.pipe)
    (hids : (enteredIn τ).map QueuedFrame.request = List.range' 1 (n + 2)) (k : ℕ) (hk : k ≤ 128) :
    ∃ τ' s', Runs.Steps RoomyStep s τ' s' ∧ Hurried print start (n + k) (n + 2 + k) k w s' ∧ 0 < s'.pipe ∧
      (enteredIn (τ ++ τ')).map QueuedFrame.request = List.range' 1 (n + 2 + k) := by
  have hmax : (256 : ℕ) ≤ maxRequest := by decide
  induction k with
  | zero => exact ⟨[], s, .nil, h, hpipe, by rw [List.append_nil]; exact hids⟩
  | succ k ih =>
    obtain ⟨τ', s', hr, hs, hpipe', hids'⟩ := ih (by omega)
    obtain ⟨f, s'', hnext, hf, hs', hsame, -⟩ := hs.next (by omega) (by omega) (by omega)
    refine ⟨_, s'', hr.trans hnext, hs', hsame ▸ hpipe', ?_⟩
    have hmore := ids_snoc [.silent, .silent, .silent, .entered f] hids' rfl hf
    rwa [List.append_assoc] at hmore

end

end ArenaLab
