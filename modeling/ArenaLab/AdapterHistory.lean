import ArenaLab.Adapter
import ArenaLab.EventLog

/-! What the history of the relay says of one upstream socket, and the routes that
agree with it. -/

namespace ArenaLab

/-- Of one socket: the peer it is open for, the datagrams accepted from that peer and
those sent on, oldest first, and the session that it received last. -/
structure SocketHistory where
  peer : Option SockAddr
  accepted : List (List UInt8)
  sent : List (List UInt8)
  session : Bytes 16

def SocketHistory.blank : SocketHistory := ⟨none, [], [], Vector.replicate 16 0⟩

def SocketHistory.note (k : ℕ) (v : SocketHistory) : AdapterEvent → SocketHistory
  | .opened fd peer => if fd = k then { v with peer := some peer } else v
  | .received peer data none =>
    if v.peer = some peer then { v with accepted := v.accepted ++ [data] } else v
  | .received _ _ (some _) => v
  | .sent fd data => if fd = k then { v with sent := v.sent ++ [data] } else v
  | .upstream fd data => if fd = k then { v with session := ackSession v.session data } else v
  | .delivered _ _ _ => v
  | .answered _ _ => v
  | .closed fd => if fd = k then { v with peer := none } else v

def socketHistory (k : ℕ) : List AdapterEvent → SocketHistory
  | [] => .blank
  | e :: log => (socketHistory k log).note k e

/-- A socket is opened once, sends while it is open, and what it has just received goes to
the peer that it is open for. -/
def adapterTest (log : List AdapterEvent) : AdapterEvent → Prop
  | .opened fd _ => socketHistory fd log = .blank
  | .delivered fd data peer =>
    log.head? = some (.upstream fd data) ∧ (socketHistory fd log).peer = some peer
  | .sent fd _ => (socketHistory fd log).peer ≠ none
  | _ => True

structure RouteAgrees (log : List AdapterEvent) (sockets : ℕ) (r : AdapterRoute) : Prop where
  opened : r.fd < sockets
  room : r.queue.count ≤ 32
  peer : (socketHistory r.fd log).peer = some r.peer
  queue : (socketHistory r.fd log).accepted =
    (socketHistory r.fd log).sent ++ r.queue.toList.map Pending.data
  session : r.session = (socketHistory r.fd log).session

structure Isolated (limit : ℕ) (routes : Fin 32 → AdapterRoute) (sockets : ℕ) (log : List AdapterEvent) :
    Prop where
  agree : ∀ i, (routes i).used = true → RouteAgrees log sockets (routes i)
  clean : ∀ i, (routes i).used = false → routes i = .zero
  sole : ∀ i j, (routes i).used = true → (routes j).used = true → (routes i).fd = (routes j).fd → i = j
  apart : ∀ i j, (routes i).used = true → (routes j).used = true → (routes i).peer = (routes j).peer → i = j
  few : activeRoutes routes ≤ limit
  shut : ∀ k, (∀ i, (routes i).used = true → (routes i).fd ≠ k) →
    (socketHistory k log).peer = none ∧ (socketHistory k log).sent <+: (socketHistory k log).accepted
  fresh : ∀ k, sockets ≤ k → socketHistory k log = .blank
  passed : EventLog.Passed adapterTest log

section

variable {limit sockets k : ℕ} {routes : Fin 32 → AdapterRoute} {log : List AdapterEvent} {e : AdapterEvent}
  {i : Fin 32} {r : AdapterRoute} {data : List UInt8} {peer : SockAddr}

theorem RouteAgrees.frame {log' : List AdapterEvent} (h : RouteAgrees log sockets r)
    (hsame : socketHistory r.fd log' = socketHistory r.fd log) : RouteAgrees log' sockets r := by
  refine ⟨h.opened, h.room, ?_, ?_, ?_⟩
  · rw [hsame, h.peer]
  · rw [hsame, h.queue]
  · rw [hsame, h.session]

/-- A datagram from upstream reaches the history of the socket and the session of its route. -/
theorem RouteAgrees.heard (h : RouteAgrees log sockets r) (data : List UInt8) :
    RouteAgrees (.upstream r.fd data :: log) sockets { r with session := ackSession r.session data } := by
  have hself : socketHistory r.fd (.upstream r.fd data :: log) = { socketHistory r.fd log with
      session := ackSession (socketHistory r.fd log).session data } := if_pos rfl
  refine ⟨h.opened, h.room, ?_, ?_, ?_⟩ <;> simp only [hself]
  · exact h.peer
  · exact h.queue
  · rw [h.session]

theorem RouteAgrees.dispatched (h : RouteAgrees log sockets r) (hcount : r.queue.count ≠ 0) :
    RouteAgrees (.sent r.fd r.queue.front.data :: log) sockets { r with queue := r.queue.pop } := by
  have hself : socketHistory r.fd (.sent r.fd r.queue.front.data :: log) = { socketHistory r.fd log with
      sent := (socketHistory r.fd log).sent ++ [r.queue.front.data] } := if_pos rfl
  have hroom : r.queue.pop.count ≤ 32 := by
    have hle := h.room
    show r.queue.count - 1 ≤ 32
    omega
  refine ⟨h.opened, hroom, ?_, ?_, ?_⟩ <;> simp only [hself]
  · exact h.peer
  · rw [h.queue, RingBuffer.toList_pop hcount]
    simp
  · exact h.session

theorem RouteAgrees.stored (h : RouteAgrees log sockets r) {p : Pending} {queue : RingBuffer Pending 32}
    (hpush : r.queue.push p = some queue) :
    RouteAgrees (.received r.peer p.data none :: log) sockets { r with queue := queue } := by
  have hself : socketHistory r.fd (.received r.peer p.data none :: log) = { socketHistory r.fd log with
      accepted := (socketHistory r.fd log).accepted ++ [p.data] } := if_pos h.peer
  obtain ⟨hlist, hroom⟩ := RingBuffer.toList_push h.room hpush
  refine ⟨h.opened, hroom, ?_, ?_, ?_⟩ <;> simp only [hself]
  · exact h.peer
  · rw [h.queue, hlist]
    simp
  · exact h.session

/-- An event that no socket's history notes leaves all as it is. -/
theorem Isolated.note (h : Isolated limit routes sockets log)
    (he : ∀ k, socketHistory k (e :: log) = socketHistory k log) (htest : adapterTest log e) :
    Isolated limit routes sockets (e :: log) where
  agree i hi := (h.agree i hi).frame (he _)
  clean := h.clean
  sole := h.sole
  apart := h.apart
  few := h.few
  shut k hk := by
    rw [he k]
    exact h.shut k hk
  fresh k hk := by
    rw [he k]
    exact h.fresh k hk
  passed := ⟨htest, h.passed⟩

theorem used_change {j : Fin 32} (hused : (routes i).used = true)
    (h : (Function.update routes i r j).used = true) : (routes j).used = true := by
  by_cases hj : j = i
  · rw [hj]
    exact hused
  · rwa [Function.update_of_ne hj] at h

theorem active_update (hused : (routes i).used = true) (hr : r.used = true) :
    activeRoutes (Function.update routes i r) = activeRoutes routes := by
  rw [activeRoutes, activeRoutes]
  congr 1
  apply Finset.filter_congr
  intro j _
  by_cases hj : j = i
  · rw [hj, Function.update_self, hused, hr]
  · rw [Function.update_of_ne hj]

/-- A used route changes together with the history of its own socket. -/
theorem Isolated.update {log' : List AdapterEvent} (h : Isolated limit routes sockets log)
    (hused : (routes i).used = true) (hr : r.used = true) (hfd : r.fd = (routes i).fd)
    (hpeer : r.peer = (routes i).peer)
    (hrest : ∀ k, k ≠ (routes i).fd → socketHistory k log' = socketHistory k log)
    (hagrees : RouteAgrees log' sockets r) (hpassed : EventLog.Passed adapterTest log') :
    Isolated limit (Function.update routes i r) sockets log' := by
  have hsame : ∀ j, (Function.update routes i r j).fd = (routes j).fd ∧
      (Function.update routes i r j).peer = (routes j).peer := by
    intro j
    by_cases hj : j = i
    · rw [hj, Function.update_self]
      exact ⟨hfd, hpeer⟩
    · rw [Function.update_of_ne hj]
      exact ⟨rfl, rfl⟩
  refine ⟨?_, ?_, ?_, ?_, ?_, ?_, ?_, hpassed⟩
  · intro j hj
    by_cases hji : j = i
    · rw [hji, Function.update_self]
      exact hagrees
    · rw [Function.update_of_ne hji] at hj ⊢
      exact (h.agree j hj).frame (hrest _ (fun heq => hji (h.sole j i hj hused heq)))
  · intro j hj
    by_cases hji : j = i
    · rw [hji, Function.update_self, hr] at hj
      cases hj
    · rw [Function.update_of_ne hji] at hj ⊢
      exact h.clean j hj
  · intro j l hj hl heq
    rw [(hsame j).1, (hsame l).1] at heq
    exact h.sole j l (used_change hused hj) (used_change hused hl) heq
  · intro j l hj hl heq
    rw [(hsame j).2, (hsame l).2] at heq
    exact h.apart j l (used_change hused hj) (used_change hused hl) heq
  · rw [active_update hused hr]
    exact h.few
  · intro k hk
    have hne : (routes i).fd ≠ k := by
      have hself := hk i (by rw [Function.update_self]; exact hr)
      rwa [(hsame i).1] at hself
    rw [hrest k hne.symm]
    refine h.shut k (fun j hj => ?_)
    have hj' : (Function.update routes i r j).used = true := by
      by_cases hji : j = i
      · rw [hji, Function.update_self]
        exact hr
      · rw [Function.update_of_ne hji]
        exact hj
    rw [← (hsame j).1]
    exact hk j hj'
  · intro k hk
    rw [hrest k (by have := (h.agree i hused).opened; omega)]
    exact h.fresh k hk

theorem active_clear : activeRoutes (Function.update routes i .zero) ≤ activeRoutes routes := by
  apply Finset.card_le_card
  intro j hj
  rw [Finset.mem_filter] at hj ⊢
  refine ⟨hj.1, ?_⟩
  by_cases hji : j = i
  · rw [hji, Function.update_self] at hj
    cases hj.2
  · rw [Function.update_of_ne hji] at hj
    exact hj.2

theorem used_clear {j : Fin 32} (h : (Function.update routes i .zero j).used = true) :
    j ≠ i ∧ (routes j).used = true ∧ Function.update routes i .zero j = routes j := by
  by_cases hji : j = i
  · rw [hji, Function.update_self] at h
    cases h
  · rw [Function.update_of_ne hji] at h ⊢
    exact ⟨hji, h, rfl⟩

theorem Isolated.clear (h : Isolated limit routes sockets log) (hused : (routes i).used = true) :
    Isolated limit (Function.update routes i .zero) sockets (.closed (routes i).fd :: log) := by
  have hrest : ∀ k, k ≠ (routes i).fd →
      socketHistory k (.closed (routes i).fd :: log) = socketHistory k log :=
    fun k hk => if_neg hk.symm
  refine ⟨?_, ?_, ?_, ?_, active_clear.trans h.few, ?_, ?_, ⟨trivial, h.passed⟩⟩
  · intro j hj
    obtain ⟨hji, hj, heq⟩ := used_clear hj
    rw [heq]
    exact (h.agree j hj).frame (hrest _ (fun hfd => hji (h.sole j i hj hused hfd)))
  · intro j hj
    by_cases hji : j = i
    · rw [hji, Function.update_self]
    · rw [Function.update_of_ne hji] at hj ⊢
      exact h.clean j hj
  · intro j l hj hl hfd
    obtain ⟨-, hj, hej⟩ := used_clear hj
    obtain ⟨-, hl, hel⟩ := used_clear hl
    rw [hej, hel] at hfd
    exact h.sole j l hj hl hfd
  · intro j l hj hl hpeer
    obtain ⟨-, hj, hej⟩ := used_clear hj
    obtain ⟨-, hl, hel⟩ := used_clear hl
    rw [hej, hel] at hpeer
    exact h.apart j l hj hl hpeer
  · intro k hk
    by_cases hki : k = (routes i).fd
    · have hqueue := (h.agree i hused).queue
      rw [hki, socketHistory, SocketHistory.note, if_pos rfl]
      exact ⟨rfl, _, hqueue.symm⟩
    · rw [hrest k hki]
      refine h.shut k (fun j hj => ?_)
      by_cases hji : j = i
      · rw [hji]
        exact Ne.symm hki
      · have hj' := hk j (by rwa [Function.update_of_ne hji])
        rwa [Function.update_of_ne hji] at hj'
  · intro k hk
    rw [hrest k (by have := (h.agree i hused).opened; omega)]
    exact h.fresh k hk

theorem active_fill (hfree : (routes i).used = false) (hr : r.used = true) :
    activeRoutes (Function.update routes i r) = activeRoutes routes + 1 := by
  have hfilter : Finset.univ.filter (fun j => (Function.update routes i r j).used = true) =
      insert i (Finset.univ.filter (fun j => (routes j).used = true)) := by
    ext j
    rw [Finset.mem_filter, Finset.mem_insert, Finset.mem_filter]
    by_cases hji : j = i
    · rw [hji, Function.update_self]
      simp [hr]
    · rw [Function.update_of_ne hji]
      simp [hji]
  rw [activeRoutes, hfilter, Finset.card_insert_of_notMem (by simp [hfree]), activeRoutes]

/-- A new socket takes a free slot for a peer that has none. -/
theorem Isolated.fill (h : Isolated limit routes sockets log) (hfree : (routes i).used = false)
    (hroom : activeRoutes routes < limit) (hnew : ∀ j, (routes j).used = true → (routes j).peer ≠ peer) :
    Isolated limit (Function.update routes i { AdapterRoute.zero with fd := sockets, peer := peer, used := true })
      (sockets + 1) (.opened sockets peer :: log) := by
  have hblank := h.fresh sockets le_rfl
  have hself : socketHistory sockets (.opened sockets peer :: log) =
      { SocketHistory.blank with peer := some peer } := by
    rw [socketHistory, hblank, SocketHistory.note, if_pos rfl]
  have hrest : ∀ k, k ≠ sockets → socketHistory k (.opened sockets peer :: log) = socketHistory k log :=
    fun k hk => if_neg hk.symm
  have hold : ∀ j, j ≠ i →
      (Function.update routes i { AdapterRoute.zero with fd := sockets, peer := peer, used := true }) j =
      routes j := fun j hj => Function.update_of_ne hj _ _
  have hother : ∀ j, (routes j).used = true → j ≠ i := by
    intro j hj hji
    rw [hji, hfree] at hj
    cases hj
  have hfd : ∀ j, (routes j).used = true → (routes j).fd ≠ sockets := fun j hj => (h.agree j hj).opened.ne
  refine ⟨?_, ?_, ?_, ?_, ?_, ?_, ?_, ⟨hblank, h.passed⟩⟩
  · intro j hj
    by_cases hji : j = i
    · rw [hji, Function.update_self]
      refine ⟨by simp, by simp [AdapterRoute.zero], ?_, ?_, ?_⟩
      · rw [hself]
      · rw [hself]
        rfl
      · rw [hself]
        rfl
    · rw [hold j hji] at hj ⊢
      have hframe := (h.agree j hj).frame (hrest _ (hfd j hj))
      exact ⟨hframe.opened.trans (by omega), hframe.room, hframe.peer, hframe.queue, hframe.session⟩
  · intro j hj
    by_cases hji : j = i
    · rw [hji, Function.update_self] at hj
      cases hj
    · rw [hold j hji] at hj ⊢
      exact h.clean j hj
  · intro j l hj hl heq
    by_cases hji : j = i <;> by_cases hli : l = i
    · rw [hji, hli]
    · rw [hold l hli] at hl heq
      rw [hji, Function.update_self] at heq
      exact absurd heq.symm (hfd l hl)
    · rw [hold j hji] at hj heq
      rw [hli, Function.update_self] at heq
      exact absurd heq (hfd j hj)
    · rw [hold j hji] at hj heq
      rw [hold l hli] at hl heq
      exact h.sole j l hj hl heq
  · intro j l hj hl heq
    by_cases hji : j = i <;> by_cases hli : l = i
    · rw [hji, hli]
    · rw [hold l hli] at hl heq
      rw [hji, Function.update_self] at heq
      exact absurd heq.symm (hnew l hl)
    · rw [hold j hji] at hj heq
      rw [hli, Function.update_self] at heq
      exact absurd heq (hnew j hj)
    · rw [hold j hji] at hj heq
      rw [hold l hli] at hl heq
      exact h.apart j l hj hl heq
  · rw [active_fill hfree rfl]
    omega
  · intro k hk
    have hne : k ≠ sockets := by
      have hself := hk i (by rw [Function.update_self])
      rw [Function.update_self] at hself
      exact hself.symm
    rw [hrest k hne]
    refine h.shut k (fun j hj => ?_)
    have hj' := hk j (by rw [hold j (hother j hj)]; exact hj)
    rwa [hold j (hother j hj)] at hj'
  · intro k hk
    rw [hrest k (by omega)]
    exact h.fresh k (by omega)

/-- No other socket is open for the peer of a used route. -/
theorem Isolated.other (h : Isolated limit routes sockets log) (hused : (routes i).used = true)
    (hk : k ≠ (routes i).fd) : (socketHistory k log).peer ≠ some (routes i).peer := by
  intro hpeer
  by_cases hroute : ∃ j, (routes j).used = true ∧ (routes j).fd = k
  · obtain ⟨j, hj, rfl⟩ := hroute
    rw [(h.agree j hj).peer] at hpeer
    have hji := h.apart j i hj hused (Option.some.inj hpeer)
    exact hk (by rw [hji])
  · have hnone := (h.shut k (fun j hj hfd => hroute ⟨j, hj, hfd⟩)).1
    rw [hnone] at hpeer
    cases hpeer

theorem Isolated.heard (h : Isolated limit routes sockets log) (hused : (routes i).used = true)
    (data : List UInt8) : Isolated limit
      (Function.update routes i { routes i with session := ackSession (routes i).session data }) sockets
      (.upstream (routes i).fd data :: log) :=
  h.update hused hused rfl rfl (fun _ hk => if_neg hk.symm) ((h.agree i hused).heard data) ⟨trivial, h.passed⟩

theorem Isolated.dispatched (h : Isolated limit routes sockets log) (hused : (routes i).used = true)
    (hcount : (routes i).queue.count ≠ 0) : Isolated limit
      (Function.update routes i { routes i with queue := (routes i).queue.pop }) sockets
      (.sent (routes i).fd (routes i).queue.front.data :: log) := by
  have hopen : (socketHistory (routes i).fd log).peer ≠ none := by
    rw [(h.agree i hused).peer]
    exact Option.some_ne_none _
  exact h.update hused hused rfl rfl (fun _ hk => if_neg hk.symm) ((h.agree i hused).dispatched hcount)
    ⟨hopen, h.passed⟩

theorem Isolated.stored (h : Isolated limit routes sockets log) (hused : (routes i).used = true)
    {p : Pending} {queue : RingBuffer Pending 32} (hpush : (routes i).queue.push p = some queue) :
    Isolated limit (Function.update routes i { routes i with queue := queue }) sockets
      (.received (routes i).peer p.data none :: log) :=
  h.update hused hused rfl rfl (fun _ hk => if_neg (h.other hused hk)) ((h.agree i hused).stored hpush)
    ⟨trivial, h.passed⟩

theorem Isolated.touched (h : Isolated limit routes sockets log) (hused : (routes i).used = true)
    (activity : UInt64) :
    Isolated limit (Function.update routes i { routes i with activity := activity }) sockets log := by
  have hroute := h.agree i hused
  exact h.update hused hused rfl rfl (fun _ _ => rfl)
    ⟨hroute.opened, hroute.room, hroute.peer, hroute.queue, hroute.session⟩ h.passed

end

end ArenaLab
