import ArenaLab.GatewayPoll

/-! However the bytes of the gateway are cut into reads and polls, its messages reach
the parent in order, whole and once. -/

namespace ArenaLab

open JsonText GatewayProcess

/-- The payloads of the messages, numbered from `k`. -/
def payloadsFrom (run : HexStr 32) (generation : ℕ) : ℕ → List GatewayMessage → List (List UInt8)
  | _, [] => []
  | k, m :: E => ipcPayload run generation k m :: payloadsFrom run generation (k + 1) E

/-- The messages as the parent is to see them, numbered from `k`. -/
def treesFrom (run : HexStr 32) (generation : ℕ) : ℕ → List GatewayMessage → List Value
  | _, [] => []
  | k, m :: E => jsonTree (envelope run generation k m) :: treesFrom run generation (k + 1) E

/-- Messages that the parent takes one after the other. -/
def Proper : Bool → List GatewayMessage → Prop
  | _, [] => True
  | ready, m :: E => m.WellFormed ∧ Orders ready m ∧ Proper (ready || announcesReady m) E

section

variable {run : HexStr 32} {generation now n : ℕ} {E : List GatewayMessage} {t t' : Turn}

theorem treesFrom_append (k : ℕ) (E E' : List GatewayMessage) :
    treesFrom run generation k (E ++ E') =
      treesFrom run generation k E ++ treesFrom run generation (k + E.length) E' := by
  induction E generalizing k with
  | nil => rfl
  | cons m E ih =>
    rw [List.cons_append, treesFrom, treesFrom, ih, List.length_cons, Nat.add_right_comm, List.cons_append]
    rfl

theorem proper_append (ready : Bool) (E E' : List GatewayMessage) :
    Proper ready (E ++ E') ↔ Proper ready E ∧ Proper (ready || E.any announcesReady) E' := by
  induction E generalizing ready with
  | nil => simp [Proper]
  | cons m E ih =>
    rw [List.cons_append, Proper, Proper, ih, List.any_cons, ← Bool.or_assoc]
    tauto

variable (run) in
theorem payloadsFrom_length {ready : Bool} {k : ℕ} (hg : generation ≤ maxRequest) (hE : Proper ready E)
    (hk : k + E.length ≤ maxRequest + 1) : ∀ p ∈ payloadsFrom run generation k E, 1 ≤ p.length ∧ p.length ≤ 600 := by
  induction E generalizing k ready with
  | nil => simp [payloadsFrom]
  | cons m E ih =>
    obtain ⟨hm, -, hE⟩ := hE
    rw [List.length_cons] at hk
    intro p hp
    rcases List.mem_cons.mp hp with rfl | hp
    · obtain ⟨hlow, hhigh⟩ := payload_size run hg (show k ≤ maxRequest by omega) hm
      exact ⟨by omega, hhigh⟩
    · exact ih hE (by omega) p hp

/-- The pipe between the two ends while the messages `E` are still to come. -/
structure Tracks (run : HexStr 32) (generation : ℕ) (E : List GatewayMessage) (s : State) (wire : List UInt8) :
    Prop where
  bytes : s.buffer ++ wire = Framing.stream (payloadsFrom run generation (s.rx + 1) E)
  proper : Proper s.ready E
  room : s.rx + E.length ≤ maxRequest
  fine : s.failed = false
  bound : s.buffer.length ≤ 8195

theorem read_some (h : t.read now n = some t') :
    ∃ data, data.length ≤ 4096 ∧ t'.state.buffer = t.state.buffer ++ data ∧ t.wire = data ++ t'.wire ∧
      t'.state.rx = t.state.rx ∧ t'.state.ready = t.state.ready ∧ t'.state.failed = t.state.failed ∧
      t'.messages = t.messages := by
  unfold Turn.read at h
  split at h
  · cases h
  · cases h
    refine ⟨_, ?_, rfl, (List.take_append_drop _ _).symm, rfl, rfl, rfl, rfl⟩
    rw [List.length_take]
    omega

theorem Tracks.read (h : Tracks run generation E t.state t.wire) (hr : t.read now n = some t')
    (hshort : t.state.buffer.length ≤ 4099) : Tracks run generation E t'.state t'.wire := by
  obtain ⟨data, hdata, hbuffer, hwire, hrx, hready, hfailed, -⟩ := read_some hr
  refine ⟨?_, ?_, ?_, ?_, ?_⟩
  · rw [hbuffer, List.append_assoc, ← hwire, hrx]
    exact h.bytes
  · rw [hready]
    exact h.proper
  · rw [hrx]
    exact h.room
  · rw [hfailed]
    exact h.fine
  · rw [hbuffer, List.length_append]
    omega

/-- A header in the buffer is that of the next message. -/
theorem Tracks.header {length : ℕ} (hg : 1 ≤ generation ∧ generation ≤ maxRequest)
    (h : Tracks run generation E t.state t.wire) (hh : Framing.header t.state.buffer = some length) :
    ∃ m E', E = m :: E' ∧ (ipcPayload run generation (t.state.rx + 1) m).length = length ∧ 1 ≤ length ∧
      length ≤ 600 := by
  have hlen := payloadsFrom_length run (k := t.state.rx + 1) hg.2 h.proper (by have := h.room; omega)
  obtain ⟨p, ps, hpayloads, rfl⟩ := Framing.header_prefix h.bytes
    (fun p hp => by have := (hlen p hp).2; omega) hh
  cases E with
  | nil => cases hpayloads
  | cons m E' =>
    obtain ⟨rfl, -⟩ := List.cons.inj hpayloads
    exact ⟨m, E', rfl, rfl, hlen _ List.mem_cons_self⟩

variable (now) in
/-- The parent takes the first frame out of its buffer. -/
theorem Tracks.take {m : GatewayMessage} {E' : List GatewayMessage} (hg : 1 ≤ generation ∧ generation ≤ maxRequest)
    (h : Tracks run generation (m :: E') t.state t.wire)
    (hlen : (ipcPayload run generation (t.state.rx + 1) m).length + 4 ≤ t.state.buffer.length) :
    ∃ t', t.take run generation now (ipcPayload run generation (t.state.rx + 1) m).length = some t' ∧
      Tracks run generation E' t'.state t'.wire ∧ t'.state.rx = t.state.rx + 1 ∧
      t'.messages = t.messages ++ [jsonTree (envelope run generation (t.state.rx + 1) m)] := by
  obtain ⟨hm, horder, hproper⟩ := h.proper
  have hroom := h.room
  rw [List.length_cons] at hroom
  obtain ⟨hpayload, hrest⟩ := Framing.frame_prefix h.bytes hlen
  have hjson : strictJson (ipcPayload run generation (t.state.rx + 1) m) =
      some (jsonTree (envelope run generation (t.state.rx + 1) m)) := by
    refine (GatewayProcess.strictJson_eq_some (ascii_bytes (jsonText_ascii _))).2
      ⟨payload_strict hg.2 (by omega) hm, ?_⟩
    rw [jsonTree_envelope]
    intro hf
    cases hf
  set rest := t.state.buffer.drop ((ipcPayload run generation (t.state.rx + 1) m).length + 4) with hdrop
  have hvalid := validMessage_tree run
    (s := { t.state with buffer := rest, partial_at := if rest.isEmpty then 0 else now }) hg
    (show t.state.rx + 1 ≤ maxRequest by omega) hm horder
  have htake : t.take run generation now (ipcPayload run generation (t.state.rx + 1) m).length = some { t with
      state := { t.state with
        buffer := rest
        partial_at := if rest.isEmpty then 0 else now
        ready := t.state.ready || announcesReady m
        rx := t.state.rx + 1
        last_received := now }
      messages := t.messages ++ [jsonTree (envelope run generation (t.state.rx + 1) m)]
      bytes_processed := t.bytes_processed + ((ipcPayload run generation (t.state.rx + 1) m).length + 4) } := by
    simp only [Turn.take]
    rw [hpayload, hjson]
    dsimp only
    rw [← hdrop, hvalid]
    rfl
  refine ⟨_, htake, ⟨hrest, hproper, ?_, h.fine, ?_⟩, rfl, rfl⟩
  · change t.state.rx + 1 + E'.length ≤ maxRequest
    omega
  · have hbound := h.bound
    change rest.length ≤ 8195
    rw [hdrop, List.length_drop]
    omega

/-- What a turn of the loop does while messages are to come: it ends the loop, reads on, or
takes the next one. -/
inductive TurnChange (run : HexStr 32) (generation : ℕ) (E : List GatewayMessage) (t : Turn) : TurnOutcome → Prop
  | stops : TurnChange run generation E t .stops
  | reads {t' : Turn} (htracks : Tracks run generation E t'.state t'.wire) (hrx : t'.state.rx = t.state.rx)
      (hmessages : t'.messages = t.messages) : TurnChange run generation E t (.goes t')
  | takes {m : GatewayMessage} {E' : List GatewayMessage} {t' : Turn} (hE : E = m :: E')
      (htracks : Tracks run generation E' t'.state t'.wire) (hrx : t'.state.rx = t.state.rx + 1)
      (hmessages : t'.messages = t.messages ++ [jsonTree (envelope run generation (t.state.rx + 1) m)]) :
      TurnChange run generation E t (.goes t')

theorem Tracks.reading (h : Tracks run generation E t.state t.wire) (hshort : t.state.buffer.length ≤ 4099) :
    TurnChange run generation E t (match t.read now n with
      | none => .stops
      | some t' => .goes t') := by
  cases hr : t.read now n with
  | none => exact .stops
  | some t' =>
    obtain ⟨data, -, -, -, hrx, -, -, hmessages⟩ := read_some hr
    exact .reads (h.read hr hshort) hrx hmessages

variable (now n) in
theorem Tracks.next (hg : 1 ≤ generation ∧ generation ≤ maxRequest) (h : Tracks run generation E t.state t.wire) :
    TurnChange run generation E t (t.next run generation now n) := by
  simp only [Turn.next]
  split
  · exact .stops
  · cases hh : Framing.header t.state.buffer with
    | none =>
      have hshort : ¬4 ≤ t.state.buffer.length := by
        rw [← Framing.header_isSome, hh]
        simp
      exact h.reading (by omega)
    | some length =>
      obtain ⟨m, E', rfl, rfl, hlow, hhigh⟩ := h.header hg hh
      dsimp only
      rw [if_neg (by omega)]
      split
      · rename_i hlen
        split
        · exact .stops
        · obtain ⟨t', htake, htracks, hrx, hmessages⟩ := h.take now hg hlen
          rw [htake]
          exact .takes rfl htracks hrx hmessages
      · exact h.reading (by omega)

variable (now) in
/-- One call of `poll`, by induction on its turns. -/
theorem Tracks.loop (hg : 1 ≤ generation ∧ generation ≤ maxRequest) (reads : List ℕ)
    (h : Tracks run generation E t.state t.wire) :
    ∃ t' E₁ E₂, pollLoop run generation now reads t = some t' ∧ E = E₁ ++ E₂ ∧
      Tracks run generation E₂ t'.state t'.wire ∧ t'.state.rx = t.state.rx + E₁.length ∧
      t'.messages = t.messages ++ treesFrom run generation (t.state.rx + 1) E₁ := by
  induction reads generalizing t E with
  | nil => exact ⟨t, [], E, rfl, rfl, h, rfl, (List.append_nil _).symm⟩
  | cons n reads ih =>
    rw [pollLoop]
    have hnext := h.next now n hg
    cases ho : t.next run generation now n with
    | fails =>
      rw [ho] at hnext
      cases hnext
    | stops => exact ⟨t, [], E, rfl, rfl, h, rfl, (List.append_nil _).symm⟩
    | goes t₁ =>
      rw [ho] at hnext
      cases hnext with
      | reads htracks hrx hmessages =>
        obtain ⟨t', E₁, E₂, hloop, rfl, htracks', hrx', hmessages'⟩ := ih htracks
        rw [hrx] at hrx' hmessages'
        rw [hmessages] at hmessages'
        exact ⟨t', E₁, E₂, hloop, rfl, htracks', hrx', hmessages'⟩
      | @takes m _ _ hE htracks hrx hmessages =>
        obtain ⟨t', E₁, E₂, hloop, rfl, htracks', hrx', hmessages'⟩ := ih htracks
        rw [hrx] at hrx' hmessages'
        rw [hmessages] at hmessages'
        refine ⟨t', m :: E₁, E₂, hloop, hE, htracks', ?_, ?_⟩
        · rw [hrx', List.length_cons]
          omega
        · rw [hmessages', treesFrom, List.append_assoc]
          rfl

end

def GatewayProcess.PollEvent.messages : PollEvent → List Value
  | .polled messages => messages
  | _ => []

/-- Everything that the calls of `poll` have returned, in this order. -/
def polledIn (τ : List PollEvent) : List Value := τ.flatMap PollEvent.messages

section

variable {run : HexStr 32} {generation now : ℕ} {E : List GatewayMessage} {τ : List PollEvent} {p : Pipe}

/-- What has come, what is to come and nothing else. -/
structure Delivered (run : HexStr 32) (generation : ℕ) (E : List GatewayMessage) (τ : List PollEvent) (p : Pipe) :
    Prop where
  fine : .failed ∉ τ
  split : ∃ E₁ E₂, E = E₁ ++ E₂ ∧ p.state.rx = E₁.length ∧ Tracks run generation E₂ p.state p.wire ∧
    polledIn τ = treesFrom run generation 1 E₁

theorem Delivered.step {e : PollEvent} {p' : Pipe} (hg : 1 ≤ generation ∧ generation ≤ maxRequest)
    (h : Delivered run generation E τ p) (hs : PollStep run generation p e p') (hlate : e ≠ .late) :
    Delivered run generation E (τ ++ [e]) p' := by
  obtain ⟨hfine, E₁, E₂, rfl, hrx, htracks, hpolled⟩ := h
  obtain ⟨⟨now, reads⟩, hs⟩ := hs
  simp only [pollNext, htracks.fine] at hs
  rw [if_neg (by decide)] at hs
  split at hs
  · cases hs
    exact absurd rfl hlate
  · obtain ⟨t', E₃, E₄, hloop, rfl, htracks', hrx', hmessages⟩ :=
      Tracks.loop now (t := ⟨p.state, p.wire, [], 0, 0⟩) hg reads htracks
    rw [hloop] at hs
    cases hs
    refine ⟨?_, E₁ ++ E₃, E₄, (List.append_assoc _ _ _).symm, ?_, htracks', ?_⟩
    · simp [hfine]
    · rw [List.length_append, ← hrx]
      exact hrx'
    · have hall : polledIn (τ ++ [.polled t'.messages]) = polledIn τ ++ t'.messages := by
        simp [polledIn, PollEvent.messages]
      rw [hall, hpolled, hmessages, treesFrom_append, List.nil_append, hrx, Nat.add_comm 1]

theorem delivered_of_run (hg : 1 ≤ generation ∧ generation ≤ maxRequest) (hE : Proper false E)
    (hlen : E.length ≤ maxRequest)
    (hr : Runs.Steps (PollStep run generation) (.start now (Framing.stream (payloadsFrom run generation 1 E))) τ p)
    (hlate : .late ∉ τ) : Delivered run generation E τ p := by
  refine hr.history (I := fun τ p => .late ∉ τ → Delivered run generation E τ p) ?_ ?_ hlate
  · intro _
    refine ⟨by simp, [], E, rfl, rfl, ⟨rfl, hE, ?_, rfl, by simp [Pipe.start]⟩, rfl⟩
    change 0 + E.length ≤ maxRequest
    omega
  · intro τ p e p' _ ih hs hlate
    simp only [List.mem_append, List.mem_singleton, not_or] at hlate
    exact (ih hlate.1).step hg hs (fun hf => hlate.2 hf.symm)

end

end ArenaLab
