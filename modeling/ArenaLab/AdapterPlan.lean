import ArenaLab.AdapterIsolation
import ArenaLab.LabCodec

/-! The relay with its faults: it drops, cuts and repeats datagrams on purpose. A plan turns the
datagrams that came into those that go on, and every step keeps to it. -/

namespace ArenaLab

/-- The datagrams that are dropped, counted over all peers. -/
def AdapterConfig.Drops (config : AdapterConfig) (n : UInt64) : Prop := config.drop ≠ 0 ∧ n % config.drop = 0

def faultCut (truncate : UInt32) (data : List UInt8) : List UInt8 :=
  if truncate ≠ 0 ∧ 8 ≤ data.length then data.take (data.length - 8) else data

def faultLess (truncate : UInt32) : UInt32 := if truncate ≠ 0 then truncate - 1 else 0

/-- The datagrams that are sent a second time. -/
def AdapterConfig.Replays (config : AdapterConfig) (data : List UInt8) : Prop :=
  config.replay = true ∧ 16 ≤ data.length ∧ data.getD 2 0 = Kind.ping.code

def queueFull : String := "adapter queue full"

/-- What the relay does with an event of its history besides a datagram of a peer: those
that are too long from upstream are discarded. -/
def AdapterEvent.waste : AdapterEvent → UInt64
  | .upstream _ data => if labMaxDatagram < data.length then 1 else 0
  | _ => 0

def AdapterEvent.isReceived : AdapterEvent → Bool
  | .received _ _ _ => true
  | _ => false

/-- A history, the number of datagrams of peers in it, the cuts that are still to be
made, the datagrams that were discarded, and the history with the faults in effect. -/
inductive Planned (config : AdapterConfig) (truncate : UInt32) :
    List AdapterEvent → UInt64 → UInt32 → UInt64 → List AdapterEvent → Prop
  | nil : Planned config truncate [] 0 truncate 0 []
  | other {log out : List AdapterEvent} {n lost : UInt64} {t : UInt32} {e : AdapterEvent}
      (h : Planned config truncate log n t lost out) (he : e.isReceived = false) :
      Planned config truncate (e :: log) n t (lost + e.waste) (e :: out)
  | dropped {log out : List AdapterEvent} {n lost : UInt64} {t : UInt32} {peer : SockAddr} {data : List UInt8}
      (h : Planned config truncate log n t lost out) (hd : config.Drops n) :
      Planned config truncate (.received peer data none :: log) (n + 1) t (lost + 1) out
  | once {log out : List AdapterEvent} {n lost : UInt64} {t : UInt32} {peer : SockAddr} {data : List UInt8}
      (h : Planned config truncate log n t lost out) (hd : ¬config.Drops n) (hr : ¬config.Replays data) :
      Planned config truncate (.received peer data none :: log) (n + 1) (faultLess t) lost
        (.received peer (faultCut t data) none :: out)
  | twice {log out : List AdapterEvent} {n lost : UInt64} {t : UInt32} {peer : SockAddr} {data : List UInt8}
      (h : Planned config truncate log n t lost out) (hd : ¬config.Drops n) (hr : config.Replays data) :
      Planned config truncate (.received peer data none :: log) (n + 1) (faultLess t) lost
        (.received peer (faultCut t data) none :: .received peer (faultCut t data) none :: out)
  | noRoom {log out : List AdapterEvent} {n lost : UInt64} {t : UInt32} {peer : SockAddr} {data : List UInt8}
      (h : Planned config truncate log n t lost out) (hd : ¬config.Drops n) (hr : config.Replays data) :
      Planned config truncate (.received peer data none :: log) (n + 1) (faultLess t) (lost + 1)
        (.received peer (faultCut t data) none :: out)
  | full {log out : List AdapterEvent} {n lost : UInt64} {t : UInt32} {peer : SockAddr} {data : List UInt8}
      (h : Planned config truncate log n t lost out) (hd : ¬config.Drops n) :
      Planned config truncate (.received peer data (some queueFull) :: log) (n + 1) (faultLess t) (lost + 1)
        (.received peer data (some queueFull) :: out)
  | refused {log out : List AdapterEvent} {n lost : UInt64} {t : UInt32} {peer : SockAddr} {data : List UInt8}
      {text : String} (h : Planned config truncate log n t lost out) (ht : text ≠ queueFull) :
      Planned config truncate (.received peer data (some text) :: log) (n + 1) t (lost + 1)
        (.received peer data (some text) :: out)

/-- The events that count as forwarded. -/
def AdapterEvent.isForwarded : AdapterEvent → Bool
  | .sent _ _ => true
  | .delivered _ _ _ => true
  | _ => false

/-- The relay as its planned history has it. -/
def Adapter.behind (s : Adapter) (out : List AdapterEvent) : Adapter := { s with log := out, truncate := 0 }

/-- The counters and the fault options, against the history. -/
structure FaultPlan (config : AdapterConfig) (truncate : UInt32) (s : Adapter) (out : List AdapterEvent) : Prop where
  planned : Planned config truncate s.log s.received s.truncate s.discarded out
  forwarded : s.forwarded = UInt64.ofNat (s.log.countP AdapterEvent.isForwarded)

structure FaultInv (config : AdapterConfig) (truncate : UInt32) (s : Adapter) (out : List AdapterEvent) : Prop where
  plan : FaultPlan config truncate s out
  routes : AdapterInv config (s.behind out)

section

variable {config : AdapterConfig} {truncate : UInt32} {s : Adapter} {out : List AdapterEvent} {i : Fin 32}
  {work : ℕ} {data : List UInt8} {peer : SockAddr} {e : AdapterEvent}

@[simp] theorem behind_routes : (s.behind out).routes = s.routes := rfl

theorem countP_forwarded (e : AdapterEvent) (log : List AdapterEvent) :
    UInt64.ofNat ((e :: log).countP AdapterEvent.isForwarded) =
      UInt64.ofNat (log.countP AdapterEvent.isForwarded) + if e.isForwarded = true then 1 else 0 := by
  rw [List.countP_cons, UInt64.ofNat_add]
  split
  · rfl
  · rfl

theorem Planned.quiet {log : List AdapterEvent} {n lost : UInt64} {t : UInt32}
    (h : Planned config truncate log n t lost out) (he : e.isReceived = false) (hw : e.waste = 0) :
    Planned config truncate (e :: log) n t lost (e :: out) := by
  have hother := h.other he
  rwa [hw, UInt64.add_zero] at hother

theorem FaultPlan.forwards (h : FaultPlan config truncate s out) (hf : e.isForwarded = false) :
    s.forwarded = UInt64.ofNat ((e :: s.log).countP AdapterEvent.isForwarded) := by
  rw [countP_forwarded, hf]
  exact h.forwarded.trans (UInt64.add_zero _).symm

/-- An event that neither comes from a peer nor counts. -/
theorem FaultPlan.note (h : FaultPlan config truncate s out) (he : e.isReceived = false) (hw : e.waste = 0)
    (hf : e.isForwarded = false) : FaultPlan config truncate (s.note e) (e :: out) :=
  ⟨h.planned.quiet he hw, h.forwards hf⟩

theorem FaultPlan.passOn (h : FaultPlan config truncate s out) (he : e.isReceived = false) (hw : e.waste = 0)
    (hf : e.isForwarded = true) :
    FaultPlan config truncate ({ s with forwarded := s.forwarded + 1 }.note e) (e :: out) := by
  refine ⟨h.planned.quiet he hw, ?_⟩
  have hcount := countP_forwarded e s.log
  rw [if_pos hf, ← h.forwarded] at hcount
  exact hcount.symm

theorem FaultInv.goto (h : FaultInv config truncate s out) (pc : AdapterPc) :
    FaultInv config truncate (s.goto pc) out :=
  ⟨⟨h.plan.planned, h.plan.forwarded⟩, h.routes.goto pc⟩

theorem FaultInv.fail (h : FaultInv config truncate s out) : FaultInv config truncate s.fail out :=
  ⟨⟨h.plan.planned, h.plan.forwarded⟩, h.routes.fail⟩

theorem FaultInv.reject (h : FaultInv config truncate s out) (answered : Bool) (peer : SockAddr) (session : Bytes 16)
    (reason : Reason) (message : String) :
    ∃ out', FaultInv config truncate (s.reject answered peer session reason message) out' := by
  cases answered with
  | true => exact ⟨_, h.plan.note rfl rfl rfl, h.routes.reject true peer session reason message⟩
  | false => exact ⟨out, h.fail⟩

theorem FaultInv.release (h : FaultInv config truncate s out) (i : Fin 32) :
    ∃ out', FaultInv config truncate (s.release i) out' := by
  have hroutes := h.routes.release i
  have hput : FaultPlan config truncate (s.put i .zero) out := ⟨h.plan.planned, h.plan.forwarded⟩
  rw [Adapter.release] at hroutes ⊢
  rw [behind_routes] at hroutes
  by_cases hused : (s.routes i).used = true
  · rw [if_pos hused] at hroutes ⊢
    exact ⟨_, hput.note rfl rfl rfl, hroutes⟩
  · rw [if_neg hused] at hroutes ⊢
    exact ⟨out, hput, hroutes⟩

theorem FaultInv.unavailable (h : FaultInv config truncate s out) (i : Fin 32) (answered : Bool) :
    ∃ out', FaultInv config truncate (s.unavailable i answered) out' := by
  obtain ⟨_, h⟩ := h.reject answered (s.routes i).peer (s.routes i).session .closing "upstream unavailable"
  exact h.release i

theorem FaultInv.read (h : FaultInv config truncate s out) (hused : (s.routes i).used = true) (work : ℕ)
    (data : List UInt8) (delivered : Bool) :
    ∃ out', FaultInv config truncate (s.read i work data delivered) out' := by
  have hup := h.routes.isolated.heard hused data
  rw [Adapter.read]
  by_cases hlong : labMaxDatagram < data.length
  · have hroutes := h.routes.read (i := i) hused work data delivered
    rw [Adapter.read, if_pos hlong] at hroutes
    rw [if_pos hlong]
    have hplan := h.plan.planned.other (e := .upstream (s.routes i).fd data) rfl
    rw [show AdapterEvent.waste (.upstream (s.routes i).fd data) = 1 from if_pos hlong] at hplan
    exact ⟨_, ⟨hplan, h.plan.forwards rfl⟩, hroutes⟩
  · rw [if_neg hlong]
    have hplan : FaultPlan config truncate ((s.note (.upstream (s.routes i).fd data)).put i
        { s.routes i with session := ackSession (s.routes i).session data }) (.upstream (s.routes i).fd data :: out) :=
      ⟨h.plan.planned.quiet rfl (if_neg hlong), h.plan.forwards rfl⟩
    cases delivered with
    | false => exact ⟨_, ⟨hplan.planned, hplan.forwarded⟩, hup, rfl⟩
    | true =>
      have hpeer : (socketHistory (s.routes i).fd (.upstream (s.routes i).fd data :: out)).peer =
          some (s.routes i).peer := by
        rw [socketHistory, SocketHistory.note, if_pos rfl]
        exact (h.routes.isolated.agree i hused).peer
      have hdeliver := hup.note (e := .delivered (s.routes i).fd data (s.routes i).peer) (fun _ => rfl) ⟨rfl, hpeer⟩
      have hnext := hplan.passOn (e := .delivered (s.routes i).fd data (s.routes i).peer) rfl rfl rfl
      have hboth : FaultInv config truncate ({ (s.note (.upstream (s.routes i).fd data)).put i
          { s.routes i with session := ackSession (s.routes i).session data } with
          forwarded := s.forwarded + 1 }.note (.delivered (s.routes i).fd data (s.routes i).peer))
          (.delivered (s.routes i).fd data (s.routes i).peer :: .upstream (s.routes i).fd data :: out) :=
        ⟨hnext, hdeliver, rfl⟩
      simp only [Bool.not_true, Bool.false_eq_true, if_false]
      split
      · obtain ⟨out', hout⟩ := hboth.release i
        exact ⟨out', hout.goto _⟩
      · exact ⟨_, hboth.goto _⟩

theorem FaultInv.flushed (h : FaultInv config truncate s out) (hused : (s.routes i).used = true)
    (hcount : (s.routes i).queue.count ≠ 0) (work : ℕ) :
    ∃ out', FaultInv config truncate (s.flushed i work) out' := by
  have hplan := h.plan.passOn (e := .sent (s.routes i).fd (s.routes i).queue.front.data) rfl rfl rfl
  exact ⟨_, ⟨hplan.planned, hplan.forwarded⟩, h.routes.flushed (s := s.behind out) (i := i) hused hcount work⟩

theorem FaultInv.shut (h : FaultInv config truncate s out) : ∃ out', FaultInv config truncate s.shut out' := by
  have hall : ∀ (l : List (Fin 32)) (s : Adapter) (out : List AdapterEvent), FaultInv config truncate s out →
      ∃ out', FaultInv config truncate (l.foldl Adapter.release s) out' := by
    intro l
    induction l with
    | nil => exact fun s out hs => ⟨out, hs⟩
    | cons i l ih =>
      intro s out hs
      obtain ⟨out', hs'⟩ := hs.release i
      exact ih _ out' hs'
  obtain ⟨out', hs⟩ := hall (List.finRange 32) s out h
  exact ⟨out', hs.goto _⟩

theorem FaultInv.visit (h : FaultInv config truncate s out) (i : ℕ) :
    ∃ out', FaultInv config truncate (s.visit i) out' := by
  rw [Adapter.visit]
  split
  · split
    · exact ⟨out, h.goto _⟩
    · split
      · exact ⟨out, h.goto _⟩
      · exact ⟨out, h.goto _⟩
  · split
    · exact h.fail.shut
    · split
      · exact ⟨out, h.goto _⟩
      · exact ⟨out, h.goto _⟩

theorem FaultInv.age (h : FaultInv config truncate s out) (i : Fin 32) :
    ∃ out', FaultInv config truncate (s.age config i) out' := by
  rw [Adapter.age]
  split
  · exact ⟨out, h.goto _⟩
  · split
    · obtain ⟨out', hs⟩ := h.release i
      exact ⟨out', hs.goto _⟩
    · exact ⟨out, h.goto _⟩

/-- The relay once it has counted a datagram. -/
def Adapter.counted (s : Adapter) : Adapter := { s with received := s.received + 1 }

theorem turnDown_eq (answered : Bool) (session : Bytes 16) (reason : Reason) (message : String) :
    s.turnDown work answered peer data session reason message =
      (({ s with discarded := s.discarded + 1 }.note (.received peer data (some message))).reject answered peer
        session reason message).goto (.accepting (work + 1)) := by
  cases answered <;> rfl

theorem FaultInv.turnDown (h : FaultInv config truncate s out) (message : String) (ht : message ≠ queueFull)
    (work : ℕ) (answered : Bool) (peer : SockAddr) (data : List UInt8) (session : Bytes 16) (reason : Reason) :
    ∃ out', FaultInv config truncate (s.counted.turnDown work answered peer data session reason message) out' := by
  have hroutes : AdapterInv config ((s.note (.received peer data (some message))).behind
      (.received peer data (some message) :: out)) := h.routes.note (fun _ => rfl) trivial
  have hnote : FaultInv config truncate ({ s.counted with discarded := s.discarded + 1 }.note
      (.received peer data (some message))) (.received peer data (some message) :: out) :=
    ⟨⟨h.plan.planned.refused ht, h.plan.forwards rfl⟩, hroutes.isolated, rfl⟩
  rw [turnDown_eq]
  obtain ⟨out', hout⟩ := hnote.reject answered peer session reason message
  exact ⟨out', hout.goto _⟩

/-- The relay once it has decided what to keep of a datagram. -/
def Adapter.trimmed (s : Adapter) (i : Fin 32) : Adapter :=
  { s.counted with
    routes := Function.update s.routes i { s.routes i with activity := s.now }
    truncate := faultLess s.truncate }

theorem enqueue_kept (hdrop : ¬config.Drops s.received) (answered : Bool) :
    s.counted.enqueue config i work data answered =
      match (s.routes i).queue.push ⟨faultCut s.truncate data, s.now + config.delay⟩ with
      | none => (s.trimmed i).turnDown work answered (s.routes i).peer data (s.routes i).session .busy queueFull
      | some queue =>
        if config.replay ∧ 16 ≤ data.length ∧ data.getD 2 0 = Kind.ping.code then
          match queue.push ⟨faultCut s.truncate data, s.now + config.delay + 100⟩ with
          | none => { ((s.trimmed i).note (.received (s.routes i).peer data none)).put i
              { s.routes i with activity := s.now, queue := queue } with
              discarded := s.discarded + 1 }.goto (.accepting (work + 1))
          | some queue => (((s.trimmed i).note (.received (s.routes i).peer data none)).put i
              { s.routes i with activity := s.now, queue := queue }).goto (.accepting (work + 1))
        else (((s.trimmed i).note (.received (s.routes i).peer data none)).put i
          { s.routes i with activity := s.now, queue := queue }).goto (.accepting (work + 1)) := by
  have hcount : s.received + 1 - 1 = s.received := UInt64.add_sub_cancel _ _
  have hkept : ¬(config.drop ≠ 0 ∧ (s.received + 1 - 1) % config.drop = 0) := by
    rw [hcount]
    exact hdrop
  exact if_neg hkept

/-- A datagram on its route is dropped, or it is queued once or twice, or the queue is full. -/
theorem FaultInv.enqueue (h : FaultInv config truncate s out) (hused : (s.routes i).used = true) (work : ℕ)
    (data : List UInt8) (answered : Bool) :
    ∃ out', FaultInv config truncate (s.counted.enqueue config i work data answered) out' := by
  have htouch := h.routes.isolated.touched hused s.now
  have hself : (Function.update s.routes i { s.routes i with activity := s.now } i).used = true := by
    rw [Function.update_self]
    exact hused
  have hstore : ∀ (p : Pending) (queue : RingBuffer Pending 32), (s.routes i).queue.push p = some queue →
      Isolated config.max_clients (Function.update s.routes i { s.routes i with activity := s.now, queue := queue })
        s.sockets (.received (s.routes i).peer p.data none :: out) := by
    intro p queue hpush
    have hpush' : (Function.update s.routes i { s.routes i with activity := s.now } i).queue.push p = some queue := by
      rw [Function.update_self]
      exact hpush
    have hstored := htouch.stored hself hpush'
    rwa [Function.update_self, Function.update_idem] at hstored
  by_cases hdrop : config.Drops s.received
  · have hcount : s.received + 1 - 1 = s.received := UInt64.add_sub_cancel _ _
    have hgone : s.counted.enqueue config i work data answered = { (s.counted.put i
        { s.routes i with activity := s.now }).note (.received (s.routes i).peer data none) with
        discarded := s.discarded + 1 }.goto (.accepting (work + 1)) := by
      have hdrop' := hdrop
      rw [← hcount] at hdrop'
      exact if_pos hdrop'
    rw [hgone]
    exact ⟨out, ⟨h.plan.planned.dropped hdrop, h.plan.forwards rfl⟩, htouch, rfl⟩
  · rw [enqueue_kept hdrop]
    cases hpush : (s.routes i).queue.push ⟨faultCut s.truncate data, s.now + config.delay⟩ with
    | none =>
      have hroutes : Isolated config.max_clients (Function.update s.routes i { s.routes i with activity := s.now })
          s.sockets (.received (s.routes i).peer data (some queueFull) :: out) := htouch.note (fun _ => rfl) trivial
      have hnote : FaultInv config truncate ({ s.trimmed i with discarded := s.discarded + 1 }.note
          (.received (s.routes i).peer data (some queueFull)))
          (.received (s.routes i).peer data (some queueFull) :: out) :=
        ⟨⟨h.plan.planned.full hdrop, h.plan.forwards rfl⟩, hroutes, rfl⟩
      obtain ⟨out', hout⟩ := hnote.reject answered (s.routes i).peer (s.routes i).session .busy queueFull
      simp only [turnDown_eq]
      exact ⟨out', hout.goto _⟩
    | some queue =>
      have hstored := hstore _ _ hpush
      by_cases hreplay : config.replay = true ∧ 16 ≤ data.length ∧ data.getD 2 0 = Kind.ping.code
      · simp only [if_pos hreplay]
        cases hagain : queue.push ⟨faultCut s.truncate data, s.now + config.delay + 100⟩ with
        | none =>
          refine ⟨_, ⟨h.plan.planned.noRoom hdrop hreplay, h.plan.forwards rfl⟩, ?_, rfl⟩
          simpa only [Adapter.goto, Adapter.put, Adapter.trimmed, Adapter.counted, Adapter.note, Adapter.behind,
            Function.update_idem] using hstored
        | some queue' =>
          have htwice := hstored.stored (i := i) (by rw [Function.update_self]; exact hused)
            (by rw [Function.update_self]; exact hagain)
          rw [Function.update_self, Function.update_idem] at htwice
          refine ⟨_, ⟨h.plan.planned.twice hdrop hreplay, h.plan.forwards rfl⟩, ?_, rfl⟩
          simpa only [Adapter.goto, Adapter.put, Adapter.trimmed, Adapter.counted, Adapter.note, Adapter.behind,
            Function.update_idem] using htwice
      · simp only [if_neg hreplay]
        refine ⟨_, ⟨h.plan.planned.once hdrop hreplay, h.plan.forwards rfl⟩, ?_, rfl⟩
        simpa only [Adapter.goto, Adapter.put, Adapter.trimmed, Adapter.counted, Adapter.note, Adapter.behind,
          Function.update_idem] using hstored

/-- The relay has failed behind a datagram that it had counted, and is at its end. -/
def Failing (config : AdapterConfig) (truncate : UInt32) (s : Adapter) (out : List AdapterEvent) : Prop :=
  (∃ n, FaultInv config truncate { s with received := n } out) ∧ s.failed = true ∧ (s.pc = .top ∨ s.pc = .ended)

theorem FaultInv.routeless (h : FaultInv config truncate s out) (hnew : s.routeOf peer = none) (work : ℕ)
    (data : List UInt8) (answered bound connected : Bool) :
    ∃ out', FaultInv config truncate (s.counted.routeless config work peer data answered bound connected) out' ∨
      Failing config truncate (s.counted.routeless config work peer data answered bound connected) out' := by
  rw [Adapter.routeless]
  split
  · obtain ⟨out', hout⟩ := h.turnDown "HELLO primero" (by decide) work answered peer data _ .badKind
    exact ⟨out', .inl hout⟩
  · split
    · obtain ⟨out', hout⟩ := h.turnDown "adapter full" (by decide) work answered peer data _ .busy
      exact ⟨out', .inl hout⟩
    · rename_i i hfree
      have hunused : (s.routes i).used = false := freeSlot_unused (s := s.counted) hfree
      split
      · obtain ⟨out', hout⟩ := h.turnDown "adapter full" (by decide) work answered peer data _ .busy
        exact ⟨out', .inl hout⟩
      · rename_i hroom
        rw [Nat.not_le] at hroom
        split
        · exact ⟨out, .inr ⟨⟨s.received, h.fail.goto .top⟩, rfl, .inl rfl⟩⟩
        · have hfill := h.routes.isolated.fill hunused hroom (routeOf_none hnew)
          have hzero : s.routes i = .zero := h.routes.isolated.clean i hunused
          have hopened : FaultInv config truncate { (s.note (.opened s.sockets peer)).put i
              { AdapterRoute.zero with fd := s.sockets, peer := peer, used := true } with
              sockets := s.sockets + 1 } (.opened s.sockets peer :: out) :=
            ⟨⟨h.plan.planned.quiet rfl rfl, h.plan.forwards rfl⟩, hfill, rfl⟩
          have hin : (({ (s.note (.opened s.sockets peer)).put i
              { AdapterRoute.zero with fd := s.sockets, peer := peer, used := true } with
              sockets := s.sockets + 1 } : Adapter).routes i).used = true := by
            simp [Adapter.put]
          obtain ⟨out', hout⟩ := hopened.enqueue hin work data answered
          refine ⟨out', .inl ?_⟩
          rw [show s.counted.routes i = .zero from hzero]
          exact hout

theorem FaultInv.accept (h : FaultInv config truncate s out) (work : ℕ) (from_ : Option SockAddr)
    (data : List UInt8) (answered bound connected : Bool) :
    ∃ out', FaultInv config truncate (s.accept config work from_ data answered bound connected) out' ∨
      Failing config truncate (s.accept config work from_ data answered bound connected) out' := by
  simp only [Adapter.accept]
  split
  · exact ⟨out, .inl (h.goto _)⟩
  · rename_i peer
    split
    · exact ⟨out, .inl (h.goto _)⟩
    · split
      · obtain ⟨out', hout⟩ := h.turnDown ">128 B" (by decide) work answered peer data _ .tooBig
        exact ⟨out', .inl hout⟩
      · split
        · rename_i i hroute
          obtain ⟨out', hout⟩ := h.enqueue (routeOf_some (s := s) hroute).1 work data answered
          exact ⟨out', .inl hout⟩
        · rename_i hroute
          exact h.routeless hroute work data answered bound connected

theorem shut_received (s : Adapter) (n : UInt64) :
    ({ s with received := n } : Adapter).shut = { s.shut with received := n } := by
  have hrelease : ∀ (s : Adapter) (i : Fin 32), ({ s with received := n } : Adapter).release i =
      { s.release i with received := n } := by
    intro s i
    rw [Adapter.release, Adapter.release]
    by_cases hused : (s.routes i).used = true
    · rw [if_pos hused, if_pos hused]
      rfl
    · rw [if_neg hused, if_neg hused]
      rfl
  have hall : ∀ (l : List (Fin 32)) (s : Adapter), l.foldl Adapter.release { s with received := n } =
      { l.foldl Adapter.release s with received := n } := by
    intro l
    induction l with
    | nil => exact fun s => rfl
    | cons i l ih =>
      intro s
      rw [List.foldl_cons, List.foldl_cons, hrelease, ih]
  rw [Adapter.shut, Adapter.shut, hall]
  rfl

theorem failed_release (s : Adapter) (i : Fin 32) : (s.release i).failed = s.failed := by
  rw [Adapter.release]
  split
  · rfl
  · rfl

theorem failed_shut (s : Adapter) : s.shut.failed = s.failed := by
  have hall : ∀ (l : List (Fin 32)) (s : Adapter), (l.foldl Adapter.release s).failed = s.failed := by
    intro l
    induction l with
    | nil => exact fun s => rfl
    | cons i l ih => exact fun s => (ih _).trans (failed_release s i)
  exact hall _ s

theorem Failing.shut (h : Failing config truncate s out) : ∃ out', Failing config truncate s.shut out' := by
  obtain ⟨⟨n, hinv⟩, hfailed, -⟩ := h
  obtain ⟨out', hshut⟩ := hinv.shut
  rw [shut_received] at hshut
  exact ⟨out', ⟨n, hshut⟩, (failed_shut s).trans hfailed, .inr rfl⟩

/-- What a step of the relay keeps, whatever its options. -/
theorem fault_step {a : AdapterAction} {t : Adapter} (h : FaultInv config truncate s out) (hplace : Placed s)
    (hnext : adapterNext config s a = some t) :
    (∃ out', FaultInv config truncate t out' ∨ Failing config truncate t out') ∧ Placed t := by
  have hkeep : ∀ {t : Adapter}, (∃ out', FaultInv config truncate t out') →
      ∃ out', FaultInv config truncate t out' ∨ Failing config truncate t out' :=
    fun ⟨out', ht⟩ => ⟨out', .inl ht⟩
  simp only [adapterNext] at hnext
  split at hnext <;>
    simp only [Option.ite_none_left_eq_some, Option.ite_none_right_eq_some, Option.some.injEq, reduceCtorEq] at hnext
  case h_1 hpc =>
    subst hnext
    exact ⟨hkeep h.shut, placed_of_slot rfl⟩
  case h_2 hpc =>
    obtain ⟨-, rfl⟩ := hnext
    exact ⟨⟨out, .inl h⟩, hplace⟩
  case h_3 hpc =>
    obtain ⟨-, rfl⟩ := hnext
    exact ⟨hkeep h.fail.shut, placed_of_slot rfl⟩
  case h_4 now revents readable broken hpc =>
    obtain ⟨-, rfl⟩ := hnext
    exact ⟨⟨out, .inl ⟨⟨h.plan.planned, h.plan.forwarded⟩, h.routes.isolated, rfl⟩⟩, placed_of_slot rfl⟩
  case h_5 hpc =>
    obtain ⟨-, rfl⟩ := hnext
    exact ⟨hkeep h.shut, placed_of_slot rfl⟩
  case h_6 i hpc =>
    subst hnext
    exact ⟨hkeep (h.visit _), placed_visit _⟩
  case h_7 i work hpc =>
    obtain ⟨-, rfl⟩ := hnext
    exact ⟨⟨out, .inl (h.goto _)⟩, placed_of_slot rfl⟩
  case h_8 i work hpc =>
    obtain ⟨-, rfl⟩ := hnext
    exact ⟨⟨out, .inl (h.goto _)⟩, placed_of_slot rfl⟩
  case h_9 i work answered hpc =>
    obtain ⟨-, rfl⟩ := hnext
    obtain ⟨out', hout⟩ := h.unavailable i answered
    exact ⟨⟨out', .inl (hout.goto _)⟩, placed_of_slot rfl⟩
  case h_10 i work data delivered hpc =>
    obtain ⟨-, rfl⟩ := hnext
    have hused := hplace i (by rw [hpc]; rfl)
    exact ⟨hkeep (h.read hused work data delivered), placed_read hused work data delivered⟩
  case h_11 i hpc =>
    subst hnext
    exact ⟨hkeep (h.age i), placed_age i⟩
  case h_12 i work hpc =>
    obtain ⟨-, rfl⟩ := hnext
    exact ⟨⟨out, .inl (h.goto _)⟩, placed_of_slot rfl⟩
  case h_13 i work hpc =>
    obtain ⟨hcond, rfl⟩ := hnext
    have hused := hplace i (by rw [hpc]; rfl)
    have hcount : (s.routes i).queue.count ≠ 0 := by
      intro hzero
      exact hcond (by simp [Adapter.idleQueue, hzero])
    exact ⟨hkeep (h.flushed hused hcount work), placed_flushed hused work⟩
  case h_14 i work hpc =>
    obtain ⟨-, rfl⟩ := hnext
    exact ⟨⟨out, .inl (h.goto _)⟩, placed_of_slot rfl⟩
  case h_15 i work answered hpc =>
    obtain ⟨-, rfl⟩ := hnext
    obtain ⟨out', hout⟩ := h.unavailable i answered
    exact ⟨⟨out', .inl (hout.goto _)⟩, placed_of_slot rfl⟩
  case h_16 work hpc =>
    obtain ⟨-, rfl⟩ := hnext
    exact ⟨⟨out, .inl (h.goto _)⟩, placed_of_slot rfl⟩
  case h_17 work hpc =>
    obtain ⟨-, rfl⟩ := hnext
    exact ⟨⟨out, .inl (h.goto _)⟩, placed_of_slot rfl⟩
  case h_18 work answered hpc =>
    obtain ⟨-, rfl⟩ := hnext
    exact ⟨⟨out, .inl (h.fail.goto _)⟩, placed_of_slot rfl⟩
  case h_19 work from_ data answered bound connected hpc =>
    obtain ⟨-, rfl⟩ := hnext
    exact ⟨h.accept work from_ data answered bound connected, placed_of_slot (accept_slot _ _ _ _)⟩

theorem failing_step {a : AdapterAction} {t : Adapter} (h : Failing config truncate s out)
    (hnext : adapterNext config s a = some t) : ∃ out', Failing config truncate t out' := by
  have hshut := h.shut
  obtain ⟨-, hfailed, hpc | hpc⟩ := h
  · cases a
    case stop =>
      simp only [adapterNext, hpc, Option.some.injEq] at hnext
      exact hnext ▸ hshut
    case go =>
      simp only [adapterNext, hpc, hfailed, if_true, Option.some.injEq] at hnext
      exact hnext ▸ hshut
    all_goals simp [adapterNext, hpc, hfailed] at hnext
  · cases a
    all_goals simp [adapterNext, hpc] at hnext

end

end ArenaLab
