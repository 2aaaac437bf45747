import ArenaLab.AdapterHistory

/-! Routes of the relay do not mix: every step keeps each route in agreement with the
history of its own socket. -/

namespace ArenaLab

open EventLog

structure Faultless (config : AdapterConfig) : Prop where
  drop : config.drop = 0
  delay : config.delay = 0
  replay : config.replay = false

structure AdapterInv (config : AdapterConfig) (s : Adapter) : Prop where
  isolated : Isolated config.max_clients s.routes s.sockets s.log
  whole : s.truncate = 0

section

variable {config : AdapterConfig} {s : Adapter} {i : Fin 32} {work k : ℕ} {data : List UInt8}
  {peer : SockAddr} {e : AdapterEvent}

theorem AdapterInv.goto (h : AdapterInv config s) (pc : AdapterPc) : AdapterInv config (s.goto pc) :=
  ⟨h.isolated, h.whole⟩

theorem AdapterInv.fail (h : AdapterInv config s) : AdapterInv config s.fail := ⟨h.isolated, h.whole⟩

theorem AdapterInv.note (h : AdapterInv config s)
    (he : ∀ k, socketHistory k (e :: s.log) = socketHistory k s.log) (htest : adapterTest s.log e) :
    AdapterInv config (s.note e) :=
  ⟨h.isolated.note he htest, h.whole⟩

theorem AdapterInv.reject (h : AdapterInv config s) (answered : Bool) (peer : SockAddr) (session : Bytes 16)
    (reason : Reason) (message : String) :
    AdapterInv config (s.reject answered peer session reason message) := by
  rw [Adapter.reject]
  split
  · exact h.note (fun _ => rfl) trivial
  · exact h.fail

theorem AdapterInv.release (h : AdapterInv config s) (i : Fin 32) : AdapterInv config (s.release i) := by
  rw [Adapter.release]
  by_cases hused : (s.routes i).used = true
  · rw [if_pos hused]
    exact ⟨h.isolated.clear hused, h.whole⟩
  · rw [if_neg hused]
    have hzero : Function.update s.routes i .zero = s.routes := by
      rw [← h.isolated.clean i (Bool.eq_false_iff.mpr hused), Function.update_eq_self]
    exact ⟨by simpa only [Adapter.put, hzero] using h.isolated, h.whole⟩

theorem AdapterInv.unavailable (h : AdapterInv config s) (i : Fin 32) (answered : Bool) :
    AdapterInv config (s.unavailable i answered) :=
  (h.reject _ _ _ _ _).release i

theorem ackSession_long (session : Bytes 16) (h : labMaxDatagram < data.length) :
    ackSession session data = session := by
  have hlen : data.length ≠ 16 + 56 := by
    have hmax : labMaxDatagram = 128 := rfl
    omega
  rw [ackSession]
  cases labHdrParse data with
  | none => rfl
  | some hdr => exact if_neg (fun hack => hlen hack.2.2.2)

theorem AdapterInv.read (h : AdapterInv config s) (hused : (s.routes i).used = true) (work : ℕ)
    (data : List UInt8) (delivered : Bool) : AdapterInv config (s.read i work data delivered) := by
  have hup := h.isolated.heard hused data
  rw [Adapter.read]
  by_cases hlong : labMaxDatagram < data.length
  · rw [if_pos hlong]
    have hput : Function.update s.routes i { s.routes i with session := ackSession (s.routes i).session data } =
        s.routes := by
      rw [ackSession_long _ hlong]
      exact Function.update_eq_self i s.routes
    rw [hput] at hup
    exact ⟨hup, h.whole⟩
  · rw [if_neg hlong]
    cases delivered with
    | false => exact ⟨hup, h.whole⟩
    | true =>
      have hpeer : (socketHistory (s.routes i).fd (.upstream (s.routes i).fd data :: s.log)).peer =
          some (s.routes i).peer := by
        rw [socketHistory, SocketHistory.note, if_pos rfl]
        exact (h.isolated.agree i hused).peer
      have hdeliver := hup.note (e := .delivered (s.routes i).fd data (s.routes i).peer) (fun _ => rfl) ⟨rfl, hpeer⟩
      simp only [Bool.not_true, Bool.false_eq_true, if_false]
      split
      · refine AdapterInv.goto (AdapterInv.release ?_ i) _
        exact ⟨hdeliver, h.whole⟩
      · exact ⟨hdeliver, h.whole⟩

theorem AdapterInv.flushed (h : AdapterInv config s) (hused : (s.routes i).used = true)
    (hcount : (s.routes i).queue.count ≠ 0) (work : ℕ) : AdapterInv config (s.flushed i work) :=
  ⟨h.isolated.dispatched hused hcount, h.whole⟩

theorem AdapterInv.turnDown (h : AdapterInv config s) (work : ℕ) (answered : Bool) (peer : SockAddr)
    (data : List UInt8) (session : Bytes 16) (reason : Reason) (message : String) :
    AdapterInv config (s.turnDown work answered peer data session reason message) := by
  have hnote : AdapterInv config (s.note (.received peer data (some message))) := h.note (fun _ => rfl) trivial
  have hreject := hnote.reject answered peer session reason message
  exact ⟨hreject.isolated, hreject.whole⟩

theorem AdapterInv.enqueue (h : AdapterInv config s) (hfault : Faultless config) (hused : (s.routes i).used = true)
    (work : ℕ) (data : List UInt8) (answered : Bool) :
    AdapterInv config (s.enqueue config i work data answered) := by
  have htouch := h.isolated.touched hused s.now
  have hself : (Function.update s.routes i { s.routes i with activity := s.now } i).used = true := by
    rw [Function.update_self]
    exact hused
  rw [Adapter.enqueue, if_neg (fun hdrop => hdrop.1 hfault.drop)]
  simp only [Adapter.put, h.whole, ne_eq, not_true_eq_false, false_and, if_false, hfault.replay, Bool.false_eq_true]
  split
  · exact AdapterInv.turnDown ⟨htouch, rfl⟩ _ _ _ _ _ _ _
  · rename_i queue hpush
    have hpush' : (Function.update s.routes i { s.routes i with activity := s.now } i).queue.push
        ⟨data, s.now + config.delay⟩ = some queue := by
      rw [Function.update_self]
      exact hpush
    have hstored := htouch.stored hself hpush'
    rw [Function.update_self, Function.update_idem] at hstored
    exact ⟨by simpa only [Adapter.goto, Adapter.note, Function.update_idem] using hstored, rfl⟩

theorem freeSlot_unused (h : s.freeSlot = some i) : (s.routes i).used = false := by
  have hfound := List.find?_some h
  simpa using hfound

theorem routeOf_some (h : s.routeOf peer = some i) : (s.routes i).used = true ∧ (s.routes i).peer = peer := by
  have hfound := List.find?_some h
  simpa using hfound

theorem routeOf_none (h : s.routeOf peer = none) (j : Fin 32) (hj : (s.routes j).used = true) :
    (s.routes j).peer ≠ peer := by
  have hall := List.find?_eq_none.mp h j (by simp)
  simpa [hj] using hall

theorem AdapterInv.routeless (h : AdapterInv config s) (hfault : Faultless config) (hnew : s.routeOf peer = none)
    (work : ℕ) (data : List UInt8) (answered bound connected : Bool) :
    AdapterInv config (s.routeless config work peer data answered bound connected) := by
  rw [Adapter.routeless]
  split
  · exact h.turnDown _ _ _ _ _ _ _
  · split
    · exact h.turnDown _ _ _ _ _ _ _
    · rename_i i hfree
      have hunused := freeSlot_unused hfree
      split
      · exact h.turnDown _ _ _ _ _ _ _
      · rename_i hroom
        split
        · exact h.fail.goto _
        · have hfill := h.isolated.fill hunused (by omega) (routeOf_none hnew)
          rw [h.isolated.clean i hunused]
          refine AdapterInv.enqueue ?_ hfault ?_ _ _ _
          · exact ⟨hfill, h.whole⟩
          · simp [Adapter.put]

theorem AdapterInv.accept (h : AdapterInv config s) (hfault : Faultless config) (work : ℕ)
    (from_ : Option SockAddr) (data : List UInt8) (answered bound connected : Bool) :
    AdapterInv config (s.accept config work from_ data answered bound connected) := by
  have hcount : AdapterInv config { s with received := s.received + 1 } := ⟨h.isolated, h.whole⟩
  simp only [Adapter.accept]
  split
  · exact h.goto _
  · rename_i peer
    split
    · exact h.goto _
    · split
      · exact hcount.turnDown _ _ _ _ _ _ _
      · split
        · rename_i i hroute
          exact hcount.enqueue hfault (routeOf_some hroute).1 _ _ _
        · rename_i hroute
          exact hcount.routeless hfault hroute _ _ _ _ _

theorem AdapterInv.shut (h : AdapterInv config s) : AdapterInv config s.shut := by
  have hall : ∀ (l : List (Fin 32)) (s : Adapter), AdapterInv config s →
      AdapterInv config (l.foldl Adapter.release s) := by
    intro l
    induction l with
    | nil => exact fun s hs => hs
    | cons i l ih => exact fun s hs => ih _ (hs.release i)
  exact (hall _ s h).goto _

theorem AdapterInv.visit (h : AdapterInv config s) (i : ℕ) : AdapterInv config (s.visit i) := by
  rw [Adapter.visit]
  split
  · split
    · exact h.goto _
    · split <;> exact h.goto _
  · split
    · exact h.fail.shut
    · split <;> exact h.goto _

theorem AdapterInv.age (h : AdapterInv config s) (i : Fin 32) : AdapterInv config (s.age config i) := by
  rw [Adapter.age]
  split
  · exact h.goto _
  · split
    · exact (h.release i).goto _
    · exact h.goto _

/-- The route whose loops a place of `main` is in. -/
def AdapterPc.slot : AdapterPc → Option (Fin 32)
  | .reading i _ => some i
  | .flushing i _ => some i
  | _ => none

/-- A route is in use as long as one of its loops runs. -/
def Placed (s : Adapter) : Prop := ∀ i, s.pc.slot = some i → (s.routes i).used = true

theorem placed_read (hused : (s.routes i).used = true) (work : ℕ) (data : List UInt8) (delivered : Bool) :
    Placed (s.read i work data delivered) := by
  simp only [Adapter.read]
  split
  · intro j hj
    obtain rfl := Option.some.inj hj
    exact hused
  · split
    · intro j hj
      cases hj
    · split
      · intro j hj
        cases hj
      · intro j hj
        obtain rfl := Option.some.inj hj
        show (Function.update s.routes i _ i).used = true
        rw [Function.update_self]
        exact hused

theorem placed_flushed (hused : (s.routes i).used = true) (work : ℕ) : Placed (s.flushed i work) := by
  intro j hj
  obtain rfl := Option.some.inj hj
  show (Function.update s.routes i _ i).used = true
  rw [Function.update_self]
  exact hused

theorem placed_visit (i : ℕ) : Placed (s.visit i) := by
  rw [Adapter.visit]
  split
  · rename_i hi
    split
    · intro j hj
      cases hj
    · rename_i hused
      split <;> intro j hj
      · obtain rfl := Option.some.inj hj
        simp only [Bool.not_eq_true', Bool.not_eq_false] at hused
        exact hused
      · cases hj
  · split
    · intro j hj
      cases hj
    · split <;> intro j hj <;> cases hj

theorem placed_age (i : Fin 32) : Placed (s.age config i) := by
  rw [Adapter.age]
  split
  · intro j hj
    cases hj
  · rename_i hused
    split <;> intro j hj
    · cases hj
    · obtain rfl := Option.some.inj hj
      simp only [Bool.not_eq_true', Bool.not_eq_false] at hused
      exact hused

theorem enqueue_slot (answered : Bool) : (s.enqueue config i work data answered).pc.slot = none := by
  simp only [Adapter.enqueue]
  split
  · rfl
  · split
    · rfl
    · split
      · split <;> rfl
      · rfl

theorem routeless_slot (answered bound connected : Bool) :
    (s.routeless config work peer data answered bound connected).pc.slot = none := by
  rw [Adapter.routeless]
  split
  · rfl
  · split
    · rfl
    · split
      · rfl
      · split
        · rfl
        · exact enqueue_slot _

theorem accept_slot (from_ : Option SockAddr) (answered bound connected : Bool) :
    (s.accept config work from_ data answered bound connected).pc.slot = none := by
  simp only [Adapter.accept]
  split
  · rfl
  · split
    · rfl
    · split
      · rfl
      · split
        · exact enqueue_slot _
        · exact routeless_slot _ _ _

theorem placed_of_slot (h : s.pc.slot = none) : Placed s := by
  intro j hj
  rw [h] at hj
  cases hj

/-- What a step of the relay keeps. -/
theorem adapter_step {a : AdapterAction} {t : Adapter} (hfault : Faultless config) (h : AdapterInv config s)
    (hplace : Placed s) (hnext : adapterNext config s a = some t) : AdapterInv config t ∧ Placed t := by
  simp only [adapterNext] at hnext
  split at hnext <;>
    simp only [Option.ite_none_left_eq_some, Option.ite_none_right_eq_some, Option.some.injEq, reduceCtorEq] at hnext
  case h_1 hpc =>
    subst hnext
    exact ⟨h.shut, placed_of_slot rfl⟩
  case h_2 hpc =>
    obtain ⟨-, rfl⟩ := hnext
    exact ⟨h, hplace⟩
  case h_3 hpc =>
    obtain ⟨-, rfl⟩ := hnext
    exact ⟨h.fail.shut, placed_of_slot rfl⟩
  case h_4 now revents readable broken hpc =>
    obtain ⟨-, rfl⟩ := hnext
    exact ⟨⟨h.isolated, h.whole⟩, placed_of_slot rfl⟩
  case h_5 hpc =>
    obtain ⟨-, rfl⟩ := hnext
    exact ⟨h.shut, placed_of_slot rfl⟩
  case h_6 i hpc =>
    subst hnext
    exact ⟨h.visit _, placed_visit _⟩
  case h_7 i work hpc =>
    obtain ⟨-, rfl⟩ := hnext
    exact ⟨h.goto _, placed_of_slot rfl⟩
  case h_8 i work hpc =>
    obtain ⟨-, rfl⟩ := hnext
    exact ⟨h.goto _, placed_of_slot rfl⟩
  case h_9 i work answered hpc =>
    obtain ⟨-, rfl⟩ := hnext
    exact ⟨(h.unavailable i answered).goto _, placed_of_slot rfl⟩
  case h_10 i work data delivered hpc =>
    obtain ⟨-, rfl⟩ := hnext
    have hused := hplace i (by rw [hpc]; rfl)
    exact ⟨h.read hused work data delivered, placed_read hused work data delivered⟩
  case h_11 i hpc =>
    subst hnext
    exact ⟨h.age i, placed_age i⟩
  case h_12 i work hpc =>
    obtain ⟨-, rfl⟩ := hnext
    exact ⟨h.goto _, placed_of_slot rfl⟩
  case h_13 i work hpc =>
    obtain ⟨hcond, rfl⟩ := hnext
    have hused := hplace i (by rw [hpc]; rfl)
    have hcount : (s.routes i).queue.count ≠ 0 := by
      intro hzero
      exact hcond (by simp [Adapter.idleQueue, hzero])
    exact ⟨h.flushed hused hcount work, placed_flushed hused work⟩
  case h_14 i work hpc =>
    obtain ⟨-, rfl⟩ := hnext
    exact ⟨h.goto _, placed_of_slot rfl⟩
  case h_15 i work answered hpc =>
    obtain ⟨-, rfl⟩ := hnext
    exact ⟨(h.unavailable i answered).goto _, placed_of_slot rfl⟩
  case h_16 work hpc =>
    obtain ⟨-, rfl⟩ := hnext
    exact ⟨h.goto _, placed_of_slot rfl⟩
  case h_17 work hpc =>
    obtain ⟨-, rfl⟩ := hnext
    exact ⟨h.goto _, placed_of_slot rfl⟩
  case h_18 work answered hpc =>
    obtain ⟨-, rfl⟩ := hnext
    exact ⟨h.fail.goto _, placed_of_slot rfl⟩
  case h_19 work from_ data answered bound connected hpc =>
    obtain ⟨-, rfl⟩ := hnext
    exact ⟨h.accept hfault work from_ data answered bound connected, placed_of_slot (accept_slot _ _ _ _)⟩

end

theorem adapterBoot_inv (config : AdapterConfig) : AdapterInv config (adapterBoot 0) := by
  refine ⟨⟨?_, ?_, ?_, ?_, ?_, ?_, ?_, trivial⟩, rfl⟩
  · intro i hi
    cases hi
  · exact fun i _ => rfl
  · intro i j hi
    cases hi
  · intro i j hi
    cases hi
  · exact (Finset.card_eq_zero.mpr (Finset.filter_false_of_mem (fun i _ => Bool.false_ne_true))).le.trans
      (Nat.zero_le _)
  · exact fun k _ => ⟨rfl, List.prefix_rfl⟩
  · exact fun k _ => rfl

theorem adapter_run {config : AdapterConfig} (hfault : Faultless config) {τ : List AdapterAction} {s : Adapter}
    (h : Runs.Steps (AdapterStep config) (adapterBoot 0) τ s) : AdapterInv config s := by
  have hboth : AdapterInv config s ∧ Placed s := by
    refine h.invariant (I := fun s => AdapterInv config s ∧ Placed s)
      ⟨adapterBoot_inv config, placed_of_slot rfl⟩ ?_
    rintro t e u ⟨ht, hplace⟩ ⟨a, ha⟩
    obtain ⟨v, hv, hpair⟩ := Option.map_eq_some_iff.mp ha
    obtain rfl : v = u := congrArg Prod.snd hpair
    exact adapter_step hfault ht hplace hv
  exact hboth.1

/-- In every run without faults the routes have peers of their own, and what a socket
carries is what the history says of it. -/
theorem adapter_isolation {config : AdapterConfig} (hfault : Faultless config) {τ : List AdapterAction}
    {s : Adapter} (h : Runs.Steps (AdapterStep config) (adapterBoot 0) τ s) :
    (∀ i j, (s.routes i).used = true → (s.routes j).used = true → (s.routes i).peer = (s.routes j).peer →
      i = j) ∧
    activeRoutes s.routes ≤ config.max_clients ∧
    (∀ k, (socketHistory k s.log).sent <+: (socketHistory k s.log).accepted) ∧
    (∀ pre post fd data peer, s.log = post ++ .delivered fd data peer :: pre →
      pre.head? = some (.upstream fd data) ∧ (socketHistory fd pre).peer = some peer) ∧
    (∀ i, (s.routes i).queue.count ≤ 32) ∧
    (∀ pre post fd peer, s.log = post ++ .opened fd peer :: pre → socketHistory fd pre = .blank) ∧
    ∀ i, (s.routes i).used = true →
      (socketHistory (s.routes i).fd s.log).peer = some (s.routes i).peer ∧
      (socketHistory (s.routes i).fd s.log).accepted =
        (socketHistory (s.routes i).fd s.log).sent ++ (s.routes i).queue.toList.map Pending.data ∧
      (s.routes i).session = (socketHistory (s.routes i).fd s.log).session := by
  have hinv := (adapter_run hfault h).isolated
  refine ⟨hinv.apart, hinv.few, ?_, ?_, ?_, ?_, ?_⟩
  · intro k
    by_cases hroute : ∃ i, (s.routes i).used = true ∧ (s.routes i).fd = k
    · obtain ⟨i, hi, rfl⟩ := hroute
      exact ⟨_, (hinv.agree i hi).queue.symm⟩
    · exact (hinv.shut k (fun i hi hfd => hroute ⟨i, hi, hfd⟩)).2
  · intro pre post fd data peer hlog
    have hpassed := hinv.passed
    rw [hlog] at hpassed
    exact hpassed.at
  · intro i
    by_cases hi : (s.routes i).used = true
    · exact (hinv.agree i hi).room
    · rw [hinv.clean i (Bool.eq_false_iff.mpr hi)]
      exact Nat.zero_le 32
  · intro pre post fd peer hlog
    have hpassed := hinv.passed
    rw [hlog] at hpassed
    exact hpassed.at
  · intro i hi
    have hroute := hinv.agree i hi
    exact ⟨hroute.peer, hroute.queue, hroute.session⟩

def sampleAdapter : AdapterConfig where
  max_clients := 32
  idle := 10000
  drop := 0
  delay := 0
  replay := false
  clients_range := all_clients

def sampleAdapterPeer (port : UInt16) : SockAddr := ⟨2, 0x7F000001, port⟩

/-- Two peers come. The first one's datagram goes up and an answer comes down; the second
one's socket fails, a third peer gets its slot, and an answer comes down to that one. -/
def sampleTraffic : List AdapterAction :=
  [.polled 5 (fun _ => false) true false] ++ List.replicate 33 .go ++
    [.arrived (some (sampleAdapterPeer 5000)) [1] true true true,
      .arrived (some (sampleAdapterPeer 5001)) [2] true true true, .wait,
      .polled 6 (fun i => i = 0 ∨ i = 1) true false, .go, .recv [9] true, .wait, .go, .sent, .go,
      .go, .recvFailed true, .go] ++ List.replicate 31 .go ++
    [.arrived (some (sampleAdapterPeer 5002)) [3] true true true, .wait,
      .polled 7 (fun i => i = 1) false false, .go, .go, .go, .go, .recv [8] true, .wait, .go, .sent]

theorem adapter_isolation_relayed : ∃ τ s, Runs.Steps (AdapterStep sampleAdapter) (adapterBoot 0) τ s ∧
    activeRoutes s.routes ≤ 32 ∧ (s.routes 0).used = true ∧ (s.routes 1).used = true ∧
    (socketHistory 0 s.log).sent = [[1]] ∧ .opened 1 (sampleAdapterPeer 5001) ∈ s.log ∧ .closed 1 ∈ s.log ∧
    (socketHistory (s.routes 1).fd s.log).peer = some (s.routes 1).peer ∧
    (s.routes 1).peer = sampleAdapterPeer 5002 ∧
    ∃ pre post, s.log = post ++ .delivered 2 [8] (sampleAdapterPeer 5002) :: pre ∧
      pre.head? = some (.upstream 2 [8]) ∧ (socketHistory 2 pre).peer = some (sampleAdapterPeer 5002) := by
  have hexec : (Runs.exec (fun s a => (adapterNext sampleAdapter s a).map (fun t => (a, t)))
      (adapterBoot 0) sampleTraffic).any (fun r =>
        (r.2.routes 0).used ∧ (r.2.routes 1).used ∧ (socketHistory 0 r.2.log).sent = [[1]] ∧
        .opened 1 (sampleAdapterPeer 5001) ∈ r.2.log ∧ .closed 1 ∈ r.2.log ∧
        (r.2.routes 1).peer = sampleAdapterPeer 5002 ∧
        .delivered 2 [8] (sampleAdapterPeer 5002) ∈ r.2.log) = true := by
    decide +kernel
  obtain ⟨τ, s, hsteps, hp⟩ := Runs.exec_any hexec
  obtain ⟨hfirst, hsecond, hsent, hopened, hlost, hpeer, hdown⟩ := of_decide_eq_true hp
  have hfault : Faultless sampleAdapter := ⟨rfl, rfl, rfl⟩
  obtain ⟨-, hfew, -, hdelivered, -, -, hroute⟩ := adapter_isolation hfault hsteps
  obtain ⟨post, pre, hsplit⟩ := List.append_of_mem hdown
  obtain ⟨hhead, hto⟩ := hdelivered pre post 2 [8] _ hsplit
  exact ⟨τ, s, hsteps, hfew, hfirst, hsecond, hsent, hopened, hlost, (hroute 1 hsecond).1, hpeer, pre, post, hsplit,
    hhead, hto⟩

end ArenaLab
