import ArenaLab.GatewayQuotas
import ArenaLab.IpcDelivery

/-! What a gateway process may emit: every frame is that of its message, and `READY` comes
once and before the first route. -/

namespace ArenaLab

open GatewayProcess

/-- Frames of proper messages. -/
structure WellSent (run : HexStr 32) (generation : ℕ) (F : List QueuedFrame) : Prop where
  framed : ∀ f ∈ F, ipcFrame run generation f.request f.message = some f.data ∧ f.request ≤ maxRequest
  proper : Proper false (F.map QueuedFrame.message)

def readyIn (F : List QueuedFrame) : Bool := F.any (fun f => announcesReady f.message)

section

variable {run : HexStr 32} {generation : ℕ} {F : List QueuedFrame} {f : QueuedFrame}
  {o o' : Outbox} {m : GatewayMessage}

theorem readyIn_snoc (F : List QueuedFrame) (f : QueuedFrame) :
    readyIn (F ++ [f]) = (readyIn F || announcesReady f.message) := by
  simp [readyIn]

theorem wellSent_nil (run : HexStr 32) (generation : ℕ) : WellSent run generation [] :=
  ⟨by simp, trivial⟩

theorem WellSent.snoc (h : WellSent run generation F) (hf : ipcFrame run generation f.request f.message = some f.data)
    (hrequest : f.request ≤ maxRequest) (hm : f.message.WellFormed) (ho : Orders (readyIn F) f.message) :
    WellSent run generation (F ++ [f]) := by
  refine ⟨?_, ?_⟩
  · intro x hx
    rcases List.mem_append.mp hx with hx | hx
    · exact h.framed x hx
    · rw [List.mem_singleton.mp hx]
      exact ⟨hf, hrequest⟩
  · rw [List.map_append, proper_append]
    refine ⟨h.proper, hm, ?_, trivial⟩
    rw [Bool.false_or, List.any_map]
    exact ho

/-- What `emit` has queued is the frame of its message under an id that exists. -/
theorem emit_framed (h : o.emit m = (some f, o')) :
    ipcFrame o.gateway.config.run o.generation f.request f.message = some f.data ∧ f.request ≤ maxRequest ∧
      f.message = m := by
  obtain ⟨hf, -, htx, -⟩ := emit_some h
  obtain ⟨hrequest, hmessage⟩ := nextFrame_eq hf
  rw [hrequest, hmessage]
  refine ⟨?_, by omega, rfl⟩
  obtain ⟨data, hdata, rfl⟩ := Option.map_eq_some_iff.mp hf
  exact hdata

theorem emit_generation {r : Option QueuedFrame} (h : o.emit m = (r, o')) :
    o'.generation = o.generation ∧ o'.running = o.running := by
  cases r with
  | none =>
    rcases emit_none h with ⟨-, rfl⟩ | ⟨-, -, rfl⟩
    · exact ⟨rfl, rfl⟩
    · exact ⟨rfl, rfl⟩
  | some f =>
    obtain ⟨-, -, -, rfl⟩ := emit_some h
    exact ⟨rfl, rfl⟩

theorem emit_run {r : Option QueuedFrame} (h : o.emit m = (r, o')) :
    o'.gateway.config.run = o.gateway.config.run := by
  rw [emit_gateway h]

end

end ArenaLab
