import ArenaLab.OutboxCrowd
import ArenaLab.TimedOutbox
import Mathlib.Tactic.Linarith
import Mathlib.Tactic.NormNum
import Mathlib.Tactic.Positivity
import Mathlib.Tactic.Ring

/-! Clients that answer `OPEN` wrongly, one each millisecond, while the parent does not read:
in the end the closing of a channel finds no room in the pipe, and the output task has to wait. -/

namespace ArenaLab

section

variable {s : TimedOutbox} {o o' : Outbox} {f : QueuedFrame} {a : GatewayAction} {e : OutboxEvent}
  {print : HexStr 64} {k tx len : ℕ} {start : ℚ} {w : Option (ℚ × ℕ)} {τ : List OutboxEvent}

theorem timed_task (ha : s.allows a = true) (h : outboxNext s.outbox (.gateway a) = some (e, o')) :
    timedNext s (.task a) = some (e, s.stamp a e o') := by
  simp [timedNext, ha, h]

theorem roomy_task (ha : s.allows a = true) (h : outboxNext s.outbox (.gateway a) = some (e, o'))
    (hroom : s.outbox.Roomy (.gateway a)) : RoomyStep s e (s.stamp a e o') := by
  refine ⟨_, timed_task ha h, ?_⟩
  rintro b ⟨⟩
  exact hroom

theorem roomy_tick (seconds : ℚ) (h : 0 < seconds) : RoomyStep s .silent { s with now := s.now + seconds } := by
  refine ⟨.tick seconds, ?_, by simp⟩
  rw [timedNext, if_neg (not_le.mpr h)]

theorem roomy_wrote {since : ℚ} {bytes : ℕ} (hw : s.writing = some (since, bytes)) (h : s.now < since + 1 / 5)
    (hfits : s.pipe + bytes ≤ s.size) : RoomyStep s .silent { s with writing := none, pipe := s.pipe + bytes } := by
  refine ⟨.wrote, ?_, by simp⟩
  rw [timedNext, hw]
  dsimp only
  rw [if_neg (not_or.mpr ⟨not_le.mpr h, not_lt.mpr hfits⟩)]

theorem roomy_take {put : ℚ} {stamps : List ℚ} {rest : List QueuedFrame} (hw : s.writing = none)
    (hs : s.stamps = put :: stamps) (hage : s.now - put ≤ 1 / 5) (hrun : s.outbox.running = true)
    (hq : s.outbox.queue = f :: rest) : RoomyStep s (.written f)
      { s with
        outbox := s.outbox.popped f rest
        stamps := stamps
        writing := some (s.now, f.data.length) } := by
  have hout : outboxNext s.outbox .output = some (.written f, s.outbox.popped f rest) := by
    simp [outboxNext, hrun, hq, Outbox.popped]
  refine ⟨.take, ?_, by simp⟩
  rw [timedNext, hw, hs]
  dsimp only
  rw [if_neg (not_lt.mpr hage), hout, hq]
  rfl

theorem ids_snoc (τ' : List OutboxEvent) {n : ℕ} (h : (enteredIn τ).map QueuedFrame.request = List.range' 1 n)
    (hτ' : enteredIn τ' = [f]) (hf : f.request = n + 1) :
    (enteredIn (τ ++ τ')).map QueuedFrame.request = List.range' 1 (n + 1) := by
  have hsplit : enteredIn (τ ++ τ') = enteredIn τ ++ enteredIn τ' := List.filterMap_append
  rw [hsplit, hτ', List.map_append, h, List.range'_1_concat, List.map_singleton, hf, Nat.add_comm 1 n]

/-- After `k` clients, one each millisecond, over a pipe of two pages. -/
structure Hurried (print : HexStr 64) (start : ℚ) (k tx len : ℕ) (w : Option (ℚ × ℕ)) (s : TimedOutbox) : Prop where
  crowd : Crowded print k tx len s.outbox
  names : ∀ c ∈ s.outbox.gateway.retired_ids, ∃ j < k, c = countingHost.tokenHex j 16
  now : s.now = start + k / 1000
  writing : s.writing = w
  stamps : s.stamps.length = len
  fresh : ∀ put ∈ s.stamps, start ≤ put
  size : s.size = 8192

theorem crowd_name_inj {j k : ℕ} (hj : j < 256) (hk : k < 256)
    (h : countingHost.tokenHex j 16 = countingHost.tokenHex k 16) : j = k := by
  have ht := congrArg (fun c => c.text.toList) h
  simp only [countingHost, String.toList_ofList] at ht
  exact HexText.bigEndian_inj (k := 16) (by omega) (by omega) (HexText.toHex_inj ht)

theorem Hurried.unused (h : Hurried print start k tx len w s) (hk : k < 256) :
    countingHost.tokenHex k 16 ∉ s.outbox.gateway.retired_ids := by
  intro hc
  obtain ⟨j, hj, he⟩ := h.names _ hc
  have hsame := crowd_name_inj (by omega) (by omega) he
  omega

/-- The next client has shaken hands within its millisecond. -/
def TimedOutbox.greeting (s : TimedOutbox) (print : HexStr 64) (k : ℕ) : TimedOutbox :=
  { s with
    outbox := { s.outbox with
      gateway := s.outbox.gateway.joined print (countingHost.tokenHex k 16) k
        (.opening (countingHost.tokenHex k 16)) 0 }
    now := s.now + 1 / 1000 }

theorem stamp_silent (s : TimedOutbox) (o : Outbox) (ha : a ≠ .beat) (ht : ∀ t, a ≠ .openAck t) :
    s.stamp a .silent o = { s with outbox := o } := by
  have hstamps : s.stamps ++ ((OutboxEvent.silent.put).map (fun _ => s.now)).toList = s.stamps := List.append_nil _
  cases a with
  | beat => exact absurd rfl ha
  | openAck t => exact absurd rfl (ht t)
  | _ =>
    unfold TimedOutbox.stamp
    rw [hstamps]

theorem Hurried.greets (h : Hurried print start k tx len w s) (hk : k < 256) :
    Runs.Steps RoomyStep s [.silent, .silent, .silent] (s.greeting print k) := by
  have haccept := h.crowd.accept hk
  have hshake := h.crowd.handshake hk (h.unused hk)
  have h1 : RoomyStep s .silent { s with outbox := { s.outbox with gateway := s.outbox.gateway.greeted k } } := by
    have hstep := roomy_task (s := s) (a := .accept k) rfl (outboxNext_quiet h.crowd.running haccept)
      (roomy_quiet haccept)
    rwa [stamp_silent _ _ (by simp) (by simp)] at hstep
  have h2 := roomy_tick (s := { s with outbox := { s.outbox with gateway := s.outbox.gateway.greeted k } })
    (1 / 1000) (by norm_num)
  have h3 := roomy_task (s := { s with
      outbox := { s.outbox with gateway := s.outbox.gateway.greeted k }, now := s.now + 1 / 1000 })
    (a := .handshake k print (countingHost.tokenHex k 16) (40000 + k)) rfl
    (outboxNext_quiet h.crowd.running hshake) (roomy_quiet hshake)
  rw [stamp_silent _ _ (by simp) (by simp)] at h3
  exact ((Runs.Steps.single h1).snoc h2).snoc h3

/-- The client whose channel was never announced may go at any time. -/
theorem Hurried.may_go (s : TimedOutbox) : (s.greeting print k).allows (.fail k) = true := by
  simp [TimedOutbox.allows, TimedOutbox.greeting, Gateway.joined, Gateway.put]

theorem Hurried.parted {t : TimedOutbox} (h : Hurried print start k tx len w s)
    (hn : t.now = s.now + 1 / 1000) (hw : t.writing = s.writing)
    {len' : ℕ} (hcrowd : Crowded print (k + 1) (tx + 1) len' t.outbox)
    (hids : t.outbox.gateway.retired_ids = s.outbox.gateway.retired_ids.insert (countingHost.tokenHex k 16))
    (hlen : t.stamps.length = len') (hfresh : ∀ put ∈ t.stamps, start ≤ put) (hsize : t.size = s.size) :
    Hurried print start (k + 1) (tx + 1) len' w t := by
  refine ⟨hcrowd, ?_, ?_, hw.trans h.writing, hlen, hfresh, hsize.trans h.size⟩
  · intro c hc
    rw [hids] at hc
    rcases List.mem_insert_iff.mp hc with rfl | hc
    · exact ⟨k, by omega, rfl⟩
    · obtain ⟨j, hj, he⟩ := h.names c hc
      exact ⟨j, by omega, he⟩
  · rw [hn, h.now]
    push_cast
    ring

/-- A client comes and goes, and its closing is queued. -/
theorem Hurried.next (h : Hurried print start k tx len w s) (hk : k < 256) (htx : tx < maxRequest) (hlen : len < 128) :
    ∃ f s', Runs.Steps RoomyStep s [.silent, .silent, .silent, .entered f] s' ∧ f.request = tx + 1 ∧
      Hurried print start (k + 1) (tx + 1) (len + 1) w s' ∧ s'.pipe = s.pipe ∧
      s'.outbox.queue = s.outbox.queue ++ [f] ∧ 128 ≤ f.data.length := by
  obtain ⟨f, hemit, hf, hsize, hlarge⟩ := h.crowd.refused (k := k) (c := countingHost.tokenHex k 16) htx hlen
  have hgo := h.crowd.refuse (c := countingHost.tokenHex k 16)
  have hstep := roomy_task (s := s.greeting print k) (Hurried.may_go s) (outboxNext_sent h.crowd.running hgo hemit)
    (roomy_sent hgo hemit)
  refine ⟨f, _, (h.greets hk).snoc hstep, hf, ?_, rfl, rfl, hlarge⟩
  refine h.parted (t := (s.greeting print k).stamp _ _ _) rfl rfl (h.crowd.put hsize) rfl ?_ ?_ rfl
  · change (s.stamps ++ [s.now + 1 / 1000]).length = len + 1
    rw [List.length_append, h.stamps]
    rfl
  · intro put hput
    rcases List.mem_append.mp (show put ∈ s.stamps ++ [s.now + 1 / 1000] from hput) with hput | hput
    · exact h.fresh put hput
    · rw [List.mem_singleton.mp hput, h.now, add_assoc]
      exact le_add_of_nonneg_right (by positivity)

/-- The output task takes the next frame. -/
theorem Hurried.takes {rest : List QueuedFrame} (h : Hurried print start k tx (len + 1) none s) (hk : k < 200)
    (hq : s.outbox.queue = f :: rest) : ∃ s', Runs.Steps RoomyStep s [.written f] s' ∧
      Hurried print start k tx len (some (s'.now, f.data.length)) s' ∧ s'.pipe = s.pipe ∧
      s'.outbox.queue = rest := by
  have hcast : (k : ℚ) < 200 := by exact_mod_cast hk
  obtain ⟨put, stamps, hstamps⟩ := List.exists_cons_of_length_eq_add_one h.stamps
  have hput : start ≤ put := h.fresh put (by rw [hstamps]; exact List.mem_cons_self)
  have htake := roomy_take h.writing hstamps
    (show s.now - put ≤ 1 / 5 by
      rw [h.now]
      linarith) h.crowd.running hq
  refine ⟨_, .single htake, ⟨h.crowd.popped hq, h.names, h.now, rfl, ?_, ?_, h.size⟩, rfl, rfl⟩
  · have hlen := h.stamps
    rw [hstamps] at hlen
    exact Nat.succ.inj hlen
  · intro x hx
    exact h.fresh x (by rw [hstamps]; exact List.mem_cons_of_mem _ hx)

/-- The pipe takes the frame. -/
theorem Hurried.wrote {since : ℚ} {bytes : ℕ} (h : Hurried print start k tx len (some (since, bytes)) s) (hk : k < 200)
    (hsince : start ≤ since) (hfits : s.pipe + bytes ≤ 8192) :
    Runs.Steps RoomyStep s [.silent] { s with writing := none, pipe := s.pipe + bytes } ∧
      Hurried print start k tx len none { s with writing := none, pipe := s.pipe + bytes } := by
  have hcast : (k : ℚ) < 200 := by exact_mod_cast hk
  have hwrote := roomy_wrote h.writing
    (show s.now < since + 1 / 5 by
      rw [h.now]
      linarith) (by rw [h.size]; exact hfits)
  exact ⟨.single hwrote, h.crowd, h.names, h.now, rfl, h.stamps, h.fresh, h.size⟩

end

end ArenaLab
