import ArenaLab.AdapterPlan

/-! For the planned datagrams the routes are as isolated as without faults. -/

namespace ArenaLab

/-- What may go on for a datagram: nothing, the datagram or the datagram without its end,
and a ping maybe twice. -/
inductive Copies (config : AdapterConfig) (data : List UInt8) : List (List UInt8) → Prop
  | none (h : config.drop ≠ 0) : Copies config data []
  | once (t : UInt32) : Copies config data [faultCut t data]
  | twice (t : UInt32) (h : config.Replays data) : Copies config data [faultCut t data, faultCut t data]

section

variable {config : AdapterConfig} {truncate : UInt32} {out : List AdapterEvent} {k : ℕ} {data : List UInt8}
  {peer : SockAddr} {e : AdapterEvent}

/-- What a socket carries after the faults, against what came for it. -/
structure PassedOn (config : AdapterConfig) (v w : SocketHistory) : Prop where
  peer : w.peer = v.peer
  sent : w.sent = v.sent
  session : w.session = v.session
  copies : ∃ copies, List.Forall₂ (Copies config) v.accepted copies ∧ w.accepted = copies.flatten

theorem PassedOn.other {v w : SocketHistory} (h : PassedOn config v w) (k : ℕ) (he : e.isReceived = false) :
    PassedOn config (v.note k e) (w.note k e) := by
  have hsame : ∀ fd, PassedOn config (if fd = k then v else v) (if fd = k then w else w) := by
    intro fd
    rwa [ite_self, ite_self]
  cases e with
  | received => cases he
  | opened fd peer =>
    simp only [SocketHistory.note]
    split
    · exact ⟨rfl, h.sent, h.session, h.copies⟩
    · exact h
  | sent fd data =>
    simp only [SocketHistory.note]
    split
    · exact ⟨h.peer, congrArg (· ++ [data]) h.sent, h.session, h.copies⟩
    · exact h
  | upstream fd data =>
    simp only [SocketHistory.note]
    split
    · exact ⟨h.peer, h.sent, congrArg (ackSession · data) h.session, h.copies⟩
    · exact h
  | closed fd =>
    simp only [SocketHistory.note]
    split
    · exact ⟨rfl, h.sent, h.session, h.copies⟩
    · exact h
  | delivered fd data peer => exact h
  | answered peer wire => exact h

/-- A datagram of the peer, and the copies of it that the plan lets pass. -/
theorem PassedOn.received {v w : SocketHistory} (h : PassedOn config v w) (k : ℕ) {copies : List (List UInt8)}
    (hcopies : Copies config data copies) :
    PassedOn config (v.note k (.received peer data none))
      (copies.foldl (fun w c => w.note k (.received peer c none)) w) := by
  have hfold : ∀ (copies : List (List UInt8)) (w : SocketHistory),
      copies.foldl (fun w c => w.note k (.received peer c none)) w =
        if w.peer = some peer then { w with accepted := w.accepted ++ copies } else w := by
    intro copies
    induction copies with
    | nil =>
      intro w
      simp
    | cons c copies ih =>
      intro w
      rw [List.foldl_cons, ih]
      by_cases hp : w.peer = some peer
      · simp [SocketHistory.note, hp]
      · simp [SocketHistory.note, hp]
  rw [hfold, SocketHistory.note, h.peer]
  by_cases hp : v.peer = some peer
  · rw [if_pos hp, if_pos hp]
    obtain ⟨copies', hforall, hflat⟩ := h.copies
    refine ⟨rfl, h.sent, h.session, copies' ++ [copies], ?_, ?_⟩
    · exact List.rel_append hforall (.cons hcopies .nil)
    · rw [List.flatten_append, ← hflat, List.flatten_singleton]
  · rw [if_neg hp, if_neg hp]
    exact h

theorem planned_passedOn {log : List AdapterEvent} {n lost : UInt64} {t : UInt32}
    (h : Planned config truncate log n t lost out) (k : ℕ) :
    PassedOn config (socketHistory k log) (socketHistory k out) := by
  induction h with
  | nil => exact ⟨rfl, rfl, rfl, [], .nil, rfl⟩
  | other _ he ih => exact ih.other k he
  | dropped _ hd ih => exact ih.received k (.none hd.1)
  | once _ _ _ ih => exact ih.received k (.once _)
  | twice _ _ hr ih => exact ih.received k (.twice _ hr)
  | noRoom _ _ _ ih => exact ih.received k (.once _)
  | full _ _ ih => exact ih
  | refused _ _ ih => exact ih

end

theorem adapterBoot_faults (config : AdapterConfig) (truncate : UInt32) :
    FaultInv config truncate (adapterBoot truncate) [] :=
  ⟨⟨.nil, rfl⟩, (adapterBoot_inv config).isolated, rfl⟩

theorem fault_run {config : AdapterConfig} {truncate : UInt32} {τ : List AdapterAction} {s : Adapter}
    (h : Runs.Steps (AdapterStep config) (adapterBoot truncate) τ s) :
    ∃ out, FaultInv config truncate s out ∨ Failing config truncate s out := by
  have hboth : (∃ out, FaultInv config truncate s out) ∧ Placed s ∨ ∃ out, Failing config truncate s out := by
    refine h.invariant (I := fun s => (∃ out, FaultInv config truncate s out) ∧ Placed s ∨
      ∃ out, Failing config truncate s out) (.inl ⟨⟨[], adapterBoot_faults config truncate⟩, placed_of_slot rfl⟩) ?_
    rintro t e u ht ⟨a, ha⟩
    obtain ⟨v, hv, hpair⟩ := Option.map_eq_some_iff.mp ha
    obtain rfl : v = u := congrArg Prod.snd hpair
    rcases ht with ⟨⟨out, hinv⟩, hplace⟩ | ⟨out, hfailing⟩
    · obtain ⟨⟨out', hout | hout⟩, hplace'⟩ := fault_step hinv hplace hv
      · exact .inl ⟨⟨out', hout⟩, hplace'⟩
      · exact .inr ⟨out', hout⟩
    · exact .inr (failing_step hfailing hv)
  rcases hboth with ⟨⟨out, hinv⟩, -⟩ | ⟨out, hfailing⟩
  · exact ⟨out, .inl hinv⟩
  · exact ⟨out, .inr hfailing⟩

/-- Whatever the fault options, what a socket sends is a prefix of the copies that they
let pass of what came from the peer that it is open for, in order; an answer goes to that
peer; routes have peers of their own; and the counters are those of the plan and the history. -/
theorem adapter_faults {config : AdapterConfig} {truncate : UInt32} {τ : List AdapterAction} {s : Adapter}
    (h : Runs.Steps (AdapterStep config) (adapterBoot truncate) τ s) :
    ∃ out n, Planned config truncate s.log n s.truncate s.discarded out ∧ (s.failed = false → s.received = n) ∧
      s.forwarded = UInt64.ofNat (s.log.countP AdapterEvent.isForwarded) ∧
      (∀ i j, (s.routes i).used = true → (s.routes j).used = true → (s.routes i).peer = (s.routes j).peer →
        i = j) ∧
      activeRoutes s.routes ≤ config.max_clients ∧
      (∀ k, (socketHistory k s.log).sent <+: (socketHistory k out).accepted ∧
        ∃ copies, List.Forall₂ (Copies config) (socketHistory k s.log).accepted copies ∧
          (socketHistory k out).accepted = copies.flatten) ∧
      (∀ i, (s.routes i).used = true → (socketHistory (s.routes i).fd s.log).peer = some (s.routes i).peer ∧
        (socketHistory (s.routes i).fd out).accepted = (socketHistory (s.routes i).fd s.log).sent ++
          (s.routes i).queue.toList.map Pending.data) ∧
      ∀ pre post fd data peer, out = post ++ .delivered fd data peer :: pre →
        pre.head? = some (.upstream fd data) ∧ (socketHistory fd pre).peer = some peer := by
  obtain ⟨out, hcase⟩ := fault_run h
  have hall : ∃ n, FaultInv config truncate { s with received := n } out ∧ (s.failed = false → s.received = n) := by
    rcases hcase with hinv | ⟨⟨n, hinv⟩, hfailed, -⟩
    · exact ⟨s.received, hinv, fun _ => rfl⟩
    · exact ⟨n, hinv, fun hf => by rw [hfailed] at hf; cases hf⟩
  obtain ⟨n, hinv, hreceived⟩ := hall
  have hroutes := hinv.routes.isolated
  have hpassedOn := fun k => planned_passedOn hinv.plan.planned k
  refine ⟨out, n, hinv.plan.planned, hreceived, hinv.plan.forwarded, hroutes.apart, hroutes.few, fun k => ?_,
    fun i hi => ?_, fun pre post fd data peer hout => ?_⟩
  · refine ⟨?_, (hpassedOn k).copies⟩
    have hsent : (socketHistory k s.log).sent = (socketHistory k out).sent := (hpassedOn k).sent.symm
    rw [hsent]
    by_cases hroute : ∃ i, (s.routes i).used = true ∧ (s.routes i).fd = k
    · obtain ⟨i, hi, rfl⟩ := hroute
      exact ⟨_, (hroutes.agree i hi).queue.symm⟩
    · exact (hroutes.shut k (fun i hi hfd => hroute ⟨i, hi, hfd⟩)).2
  · have hagree := hroutes.agree i hi
    refine ⟨(hpassedOn (s.routes i).fd).peer.symm.trans hagree.peer, ?_⟩
    have hsent : (socketHistory (s.routes i).fd s.log).sent = (socketHistory (s.routes i).fd out).sent :=
      (hpassedOn (s.routes i).fd).sent.symm
    rw [hsent]
    exact hagree.queue
  · have hpassed := hroutes.passed
    change EventLog.Passed adapterTest out at hpassed
    rw [hout] at hpassed
    exact hpassed.at

def sampleFaulty : AdapterConfig := { sampleAdapter with drop := 3, delay := 2, replay := true }

/-- Of three datagrams the first is dropped, the second is cut, and the third, a ping, goes up twice. -/
def sampleFaultTraffic : List AdapterAction :=
  [.polled 5 (fun _ => false) true false] ++ List.replicate 33 .go ++
    [.arrived (some ⟨2, 0x7F000001, 5000⟩) [1] true true true,
      .arrived (some ⟨2, 0x7F000001, 5000⟩) [1, 2, 3, 4, 5, 6, 7, 8, 9] true true true,
      .arrived (some ⟨2, 0x7F000001, 5000⟩) (samplePing.datagram 1) true true true, .wait,
      .polled 200 (fun _ => false) false false, .go, .go, .sent, .sent, .sent]

theorem adapter_faults_sample : ∃ τ s, Runs.Steps (AdapterStep sampleFaulty) (adapterBoot 1) τ s ∧
    (socketHistory 0 s.log).sent = [[1], samplePing.datagram 1, samplePing.datagram 1] ∧
    ∃ copies, List.Forall₂ (Copies sampleFaulty) (socketHistory 0 s.log).accepted copies := by
  have hexec : (Runs.exec (fun s a => (adapterNext sampleFaulty s a).map (fun t => (a, t)))
      (adapterBoot 1) sampleFaultTraffic).any (fun r => decide ((socketHistory 0 r.2.log).sent =
        [[1], samplePing.datagram 1, samplePing.datagram 1])) = true := by
    decide +kernel
  obtain ⟨τ, s, hsteps, hp⟩ := Runs.exec_any hexec
  obtain ⟨out, n, -, -, -, -, -, hcopies, -⟩ := adapter_faults hsteps
  obtain ⟨-, copies, hforall, -⟩ := hcopies 0
  exact ⟨τ, s, hsteps, of_decide_eq_true hp, copies, hforall⟩

end ArenaLab
