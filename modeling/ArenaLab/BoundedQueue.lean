import ArenaLab.GatewayForward
import ArenaLab.Outbox
import Mathlib.Algebra.BigOperators.Ring.Finset
import Mathlib.Tactic.Common

/-! The queue between the tasks of the gateway: `asyncio.Queue` with a count of the
bytes beside it and an age for what it holds. -/

namespace ArenaLab

/-- The `getters` wait in `get`, the first of them longest; the `woken` have been woken and
have not run yet. -/
structure BoundedQueue (K : Type*) where
  maxsize : ℤ
  queue : List (K × List UInt8)
  getters : List ℕ
  woken : List ℕ
  limit : ℤ
  bytes : ℤ
  age : K
  deriving DecidableEq

inductive QueueEvent (K : Type*)
  | accepted (item : K × List UInt8)
  | refused (data : List UInt8)
  | waits (getter : ℕ)
  | got (getter : ℕ) (item : K × List UInt8) (now : K)
  | expired (getter : ℕ) (item : K × List UInt8) (now : K)
  | cancelled (getter : ℕ)
  deriving DecidableEq

/-- A call of `put`, a task that calls `get`, one that was woken and runs, and one that is
cancelled; `now` is what the clock says where the step reads it. -/
inductive QueueAction (K : Type*)
  | put (now : K) (data : List UInt8)
  | get (getter : ℕ) (now : K)
  | resume (getter : ℕ) (now : K)
  | cancel (getter : ℕ)

variable {K : Type*}

namespace BoundedQueue

def init (count size : ℤ) (age : K) : BoundedQueue K := ⟨count, [], [], [], size, 0, age⟩

/-- A `maxsize` that is not positive is no bound. -/
def full (q : BoundedQueue K) : Bool := 0 < q.maxsize && q.maxsize ≤ q.queue.length

def wakeupNext (q : BoundedQueue K) : BoundedQueue K :=
  match q.getters with
  | [] => q
  | g :: getters => { q with getters := getters, woken := q.woken ++ [g] }

def putNowait (q : BoundedQueue K) (item : K × List UInt8) : BoundedQueue K :=
  { q with queue := q.queue ++ [item] }.wakeupNext

/-- `put`, with no result where it raises. -/
def put (q : BoundedQueue K) (now : K) (data : List UInt8) : Option (BoundedQueue K) :=
  if q.limit < q.bytes + data.length || q.full then none
  else some { q.putNowait (now, data) with bytes := q.bytes + data.length }

/-- `get` from where it looks whether the queue is empty to its next `await` or its end. -/
def get [LinearOrder K] [Sub K] (q : BoundedQueue K) (getter : ℕ) (now : K) : QueueEvent K × BoundedQueue K :=
  match q.queue with
  | [] => (.waits getter, { q with getters := q.getters ++ [getter] })
  | item :: rest =>
    (if q.age < now - item.1 then .expired getter item now else .got getter item now,
      { q with queue := rest, bytes := q.bytes - item.2.length })

/-- A woken task that is cancelled wakes the next one, if there is an item for it. -/
def cancelWoken (q : BoundedQueue K) (getter : ℕ) : BoundedQueue K :=
  if q.queue.isEmpty then { q with woken := q.woken.erase getter }
  else { q with woken := q.woken.erase getter }.wakeupNext

end BoundedQueue

section

variable [LinearOrder K] [Sub K]

def queueNext (q : BoundedQueue K) (a : QueueAction K) : Option (QueueEvent K × BoundedQueue K) :=
  match a with
  | .put now data =>
    match q.put now data with
    | none => some (.refused data, q)
    | some q' => some (.accepted (now, data), q')
  | .get g now => if g ∈ q.getters ∨ g ∈ q.woken then none else some (q.get g now)
  | .resume g now => if g ∈ q.woken then some ({ q with woken := q.woken.erase g }.get g now) else none
  | .cancel g =>
    if g ∈ q.getters then some (.cancelled g, { q with getters := q.getters.erase g })
    else if g ∈ q.woken then some (.cancelled g, q.cancelWoken g)
    else none

abbrev QueueStep : BoundedQueue K → QueueEvent K → BoundedQueue K → Prop := Runs.Induced queueNext

end

def QueueEvent.put : QueueEvent K → Option (K × List UInt8)
  | .accepted item => some item
  | _ => none

/-- The item that leaves the queue, returned or expired. -/
def QueueEvent.left : QueueEvent K → Option (K × List UInt8)
  | .got _ item _ => some item
  | .expired _ item _ => some item
  | _ => none

def queuedBytes (items : List (K × List UInt8)) : ℤ := (items.map (fun item => (item.2.length : ℤ))).sum

/-- What a step does to the items: it takes none and adds none, or one of the two. -/
inductive QueueChange (q : BoundedQueue K) (e : QueueEvent K) (q' : BoundedQueue K) : Prop
  | quiet (put : e.put = none) (left : e.left = none) (queue : q'.queue = q.queue) (bytes : q'.bytes = q.bytes)
  | added (item : K × List UInt8) (put : e.put = some item) (left : e.left = none)
      (queue : q'.queue = q.queue ++ [item]) (bytes : q'.bytes = q.bytes + item.2.length)
      (fits : q.bytes + item.2.length ≤ q.limit) (room : q.full = false)
  | removed (item : K × List UInt8) (put : e.put = none) (left : e.left = some item)
      (queue : q.queue = item :: q'.queue) (bytes : q'.bytes = q.bytes - item.2.length)

/-- The parameters of a queue stay as they are. -/
structure SameLimits (q q' : BoundedQueue K) : Prop where
  maxsize : q'.maxsize = q.maxsize
  limit : q'.limit = q.limit
  age : q'.age = q.age

structure QueueInv [LE K] [Sub K] (count size : ℤ) (age : K) (τ : List (QueueEvent K)) (q : BoundedQueue K) :
    Prop where
  limits : SameLimits (.init count size age) q
  bytes : q.bytes = queuedBytes q.queue
  within : 0 ≤ size → q.bytes ≤ size
  counted : 0 < count → q.queue.length ≤ count
  fifo : τ.filterMap QueueEvent.put = τ.filterMap QueueEvent.left ++ q.queue
  fresh : ∀ g item now, .got g item now ∈ τ → now - item.1 ≤ age

section

variable {q q' : BoundedQueue K} {e : QueueEvent K} {τ : List (QueueEvent K)} {count size : ℤ} {age now : K}
  {g : ℕ} {data : List UInt8} {item : K × List UInt8}

theorem wakeupNext_items (q : BoundedQueue K) : q.wakeupNext.queue = q.queue ∧ q.wakeupNext.bytes = q.bytes ∧
    SameLimits q q.wakeupNext := by
  rw [BoundedQueue.wakeupNext]
  split
  · exact ⟨rfl, rfl, rfl, rfl, rfl⟩
  · exact ⟨rfl, rfl, rfl, rfl, rfl⟩

theorem put_some (h : q.put now data = some q') : q'.queue = q.queue ++ [(now, data)] ∧
    q'.bytes = q.bytes + data.length ∧ q.bytes + data.length ≤ q.limit ∧ q.full = false ∧ SameLimits q q' := by
  rw [BoundedQueue.put] at h
  split at h
  · cases h
  · rename_i hroom
    obtain rfl := Option.some.inj h
    obtain ⟨hqueue, _, hlimits⟩ := wakeupNext_items { q with queue := q.queue ++ [(now, data)] }
    rw [Bool.or_eq_true, decide_eq_true_eq, not_or, not_lt, Bool.not_eq_true] at hroom
    exact ⟨hqueue, rfl, hroom.1, hroom.2, hlimits.maxsize, hlimits.limit, hlimits.age⟩

theorem cancelWoken_items (q : BoundedQueue K) (g : ℕ) : (q.cancelWoken g).queue = q.queue ∧
    (q.cancelWoken g).bytes = q.bytes ∧ SameLimits q (q.cancelWoken g) := by
  rw [BoundedQueue.cancelWoken]
  split
  · exact ⟨rfl, rfl, rfl, rfl, rfl⟩
  · obtain ⟨hqueue, hbytes, hlimits⟩ := wakeupNext_items { q with woken := q.woken.erase g }
    exact ⟨hqueue, hbytes, hlimits.maxsize, hlimits.limit, hlimits.age⟩

theorem queuedBytes_append (items : List (K × List UInt8)) (item : K × List UInt8) :
    queuedBytes (items ++ [item]) = queuedBytes items + item.2.length := by
  simp [queuedBytes]

theorem queuedBytes_cons (items : List (K × List UInt8)) (item : K × List UInt8) :
    queuedBytes (item :: items) = item.2.length + queuedBytes items := by
  simp [queuedBytes]

theorem SameLimits.trans {q'' : BoundedQueue K} (h : SameLimits q q') (h' : SameLimits q' q'') : SameLimits q q'' :=
  ⟨h'.maxsize.trans h.maxsize, h'.limit.trans h.limit, h'.age.trans h.age⟩

theorem full_eq_false (h : 0 < q.maxsize) :
    q.full = false ↔ (q.queue.length : ℤ) < q.maxsize := by
  simp [BoundedQueue.full, h]

theorem put_isSome :
    (q.put now data).isSome = true ↔ q.bytes + data.length ≤ q.limit ∧ q.full = false := by
  rw [BoundedQueue.put]
  split
  · rename_i hno
    simp only [Option.isSome_none, Bool.false_eq_true, false_iff, not_and, Bool.not_eq_false]
    intro hfits
    rcases Bool.or_eq_true _ _ ▸ hno with hover | hfull
    · have := of_decide_eq_true hover
      omega
    · exact hfull
  · rename_i hyes
    rw [Bool.or_eq_true, decide_eq_true_eq, not_or, not_lt, Bool.not_eq_true] at hyes
    exact ⟨fun _ => hyes, fun _ => rfl⟩

variable [LinearOrder K] [Sub K]

theorem get_cases {o : BoundedQueue K} (hqueue : o.queue = q.queue) (hbytes : o.bytes = q.bytes)
    (hlimits : SameLimits q o) (h : o.get g now = (e, q')) :
    QueueChange q e q' ∧ SameLimits q q' ∧
      ∀ g item now, e = .got g item now → now - item.1 ≤ q.age := by
  rw [BoundedQueue.get] at h
  split at h
  · obtain ⟨rfl, rfl⟩ := Prod.mk.inj h
    refine ⟨.quiet rfl rfl hqueue hbytes, ⟨hlimits.maxsize, hlimits.limit, hlimits.age⟩, ?_⟩
    intro g item now he
    cases he
  · rename_i item rest hitem
    obtain ⟨rfl, rfl⟩ := Prod.mk.inj h
    have hfirst : q.queue = item :: rest := hqueue.symm.trans hitem
    refine ⟨.removed item ?_ ?_ hfirst ?_, ⟨hlimits.maxsize, hlimits.limit, hlimits.age⟩, ?_⟩
    · split <;> rfl
    · split <;> rfl
    · rw [← hbytes]
    · intro g' item' now' he
      split at he
      · cases he
      · rename_i hfresh
        obtain ⟨_, rfl, rfl⟩ := QueueEvent.got.inj he
        rw [← hlimits.age]
        exact not_lt.mp hfresh

theorem refused_unchanged (h : QueueStep q (.refused data) q') : q' = q := by
  obtain ⟨action, h⟩ := h
  cases action with
  | put now data =>
    simp only [queueNext] at h
    split at h
    · exact (Prod.mk.inj (Option.some.inj h)).2.symm
    · cases (Prod.mk.inj (Option.some.inj h)).1
  | get g now =>
    simp only [queueNext, BoundedQueue.get] at h
    split at h
    · cases h
    · split at h
      · cases (Prod.mk.inj (Option.some.inj h)).1
      · have he := (Prod.mk.inj (Option.some.inj h)).1
        split at he <;> cases he
  | resume g now =>
    simp only [queueNext, BoundedQueue.get] at h
    split at h
    · split at h
      · cases (Prod.mk.inj (Option.some.inj h)).1
      · have he := (Prod.mk.inj (Option.some.inj h)).1
        split at he <;> cases he
    · cases h
  | cancel g =>
    simp only [queueNext] at h
    split at h
    · cases (Prod.mk.inj (Option.some.inj h)).1
    · split at h
      · cases (Prod.mk.inj (Option.some.inj h)).1
      · cases h

/-- What a step does, by its action. -/
theorem queue_cases (h : QueueStep q e q') : QueueChange q e q' ∧ SameLimits q q' ∧
    ∀ g item now, e = .got g item now → now - item.1 ≤ q.age := by
  have hsame : SameLimits q q := ⟨rfl, rfl, rfl⟩
  obtain ⟨action, h⟩ := h
  cases action with
  | put now data =>
    simp only [queueNext] at h
    split at h
    · obtain ⟨rfl, rfl⟩ := Prod.mk.inj (Option.some.inj h)
      exact ⟨.quiet rfl rfl rfl rfl, hsame, fun _ _ _ he => by cases he⟩
    · rename_i q'' hput
      obtain ⟨rfl, rfl⟩ := Prod.mk.inj (Option.some.inj h)
      obtain ⟨hqueue, hbytes, hfits, hroom, hlimits⟩ := put_some hput
      exact ⟨.added (now, data) rfl rfl hqueue hbytes hfits hroom, hlimits, fun _ _ _ he => by cases he⟩
  | get g now =>
    simp only [queueNext] at h
    split at h
    · cases h
    · exact get_cases rfl rfl hsame (Option.some.inj h)
  | resume g now =>
    simp only [queueNext] at h
    split at h
    · exact get_cases (o := { q with woken := q.woken.erase g }) rfl rfl ⟨rfl, rfl, rfl⟩ (Option.some.inj h)
    · cases h
  | cancel g =>
    simp only [queueNext] at h
    split at h
    · obtain ⟨rfl, rfl⟩ := Prod.mk.inj (Option.some.inj h)
      exact ⟨.quiet rfl rfl rfl rfl, ⟨rfl, rfl, rfl⟩, fun _ _ _ he => by cases he⟩
    · split at h
      · obtain ⟨rfl, rfl⟩ := Prod.mk.inj (Option.some.inj h)
        obtain ⟨hqueue, hbytes, hlimits⟩ := cancelWoken_items q g
        exact ⟨.quiet rfl rfl hqueue hbytes, hlimits, fun _ _ _ he => by cases he⟩
      · cases h

theorem queueInv_init : QueueInv count size age [] (BoundedQueue.init count size age) := by
  refine ⟨⟨rfl, rfl, rfl⟩, rfl, id, ?_, rfl, ?_⟩
  · exact fun hcount => le_of_lt hcount
  · intro g item now h
    cases h

theorem QueueInv.step (h : QueueInv count size age τ q) (hs : QueueStep q e q') :
    QueueInv count size age (τ ++ [e]) q' := by
  obtain ⟨hchange, hlimits, hfresh⟩ := queue_cases hs
  have hfresh' : ∀ g item now, QueueEvent.got g item now ∈ τ ++ [e] → now - item.1 ≤ age := by
    intro g item now hmem
    rcases List.mem_append.mp hmem with hmem | hmem
    · exact h.fresh g item now hmem
    · rw [← show q.age = age from h.limits.age]
      exact hfresh g item now (List.mem_singleton.mp hmem).symm
  have hsize : q.limit = size := h.limits.limit
  have hcount : q.maxsize = count := h.limits.maxsize
  have hput : (τ ++ [e]).filterMap QueueEvent.put = τ.filterMap QueueEvent.put ++ e.put.toList := by
    rw [List.filterMap_append]
    cases e <;> rfl
  have hleft : (τ ++ [e]).filterMap QueueEvent.left = τ.filterMap QueueEvent.left ++ e.left.toList := by
    rw [List.filterMap_append]
    cases e <;> rfl
  refine ⟨h.limits.trans hlimits, ?_, ?_, ?_, ?_, hfresh'⟩
  · cases hchange with
    | quiet _ _ hqueue hbytes =>
      rw [hqueue, hbytes]
      exact h.bytes
    | added item _ _ hqueue hbytes =>
      rw [hqueue, hbytes, queuedBytes_append, h.bytes]
    | removed item _ _ hqueue hbytes =>
      rw [hbytes, h.bytes, hqueue, queuedBytes_cons]
      omega
  · intro hpos
    have hbefore := h.within hpos
    cases hchange with
    | quiet _ _ _ hbytes =>
      rw [hbytes]
      exact hbefore
    | added item _ _ _ hbytes hfits =>
      rw [hbytes, ← hsize]
      exact hfits
    | removed item _ _ _ hbytes =>
      rw [hbytes]
      omega
  · intro hpos
    have hbefore := h.counted hpos
    cases hchange with
    | quiet _ _ hqueue =>
      rw [hqueue]
      exact hbefore
    | added item _ _ hqueue _ _ hroom =>
      have hless := (full_eq_false (by omega)).mp hroom
      rw [hqueue, List.length_append, List.length_singleton]
      push_cast
      omega
    | removed item _ _ hqueue =>
      have hlen := congrArg List.length hqueue
      rw [List.length_cons] at hlen
      omega
  · rw [hput, hleft, h.fifo]
    cases hchange with
    | quiet hnone hnone' hqueue => simp [hnone, hnone', hqueue]
    | added item hsome hnone hqueue => simp [hsome, hnone, hqueue]
    | removed item hnone hsome hqueue => simp [hnone, hsome, hqueue]

theorem queue_run (h : Runs.Steps QueueStep (.init count size age) τ q) : QueueInv count size age τ q :=
  h.history (I := fun τ q => QueueInv count size age τ q) queueInv_init (fun _ _ _ _ _ hi hs => hi.step hs)

/-- The bytes are those of the items that are queued, within the limit; the items leave in
the order in which they were put, each once, and those that are returned are not too old. -/
theorem queue_accounting (h : Runs.Steps QueueStep (.init count size age) τ q) :
    q.bytes = queuedBytes q.queue ∧ (0 ≤ size → q.bytes ≤ size) ∧ (0 < count → q.queue.length ≤ count) ∧
    (∀ data q', QueueStep q (.refused data) q' → q' = q) ∧
    τ.filterMap QueueEvent.put = τ.filterMap QueueEvent.left ++ q.queue ∧
    ∀ g item now, .got g item now ∈ τ → now - item.1 ≤ age :=
  have hinv := queue_run h
  ⟨hinv.bytes, hinv.within, hinv.counted, fun _ _ hs => refused_unchanged hs, hinv.fifo, hinv.fresh⟩

end

/-- Two items fill the queue, a third is refused, a task that was woken gets the first and
the second is too old. -/
def sampleQueueing : List (QueueAction ℤ) :=
  [.get 0 0, .put 0 [97, 98], .put 0 [99, 100], .put 0 [120], .resume 0 50, .get 1 101]

theorem queue_accounting_sample : ∃ (τ : List (QueueEvent ℤ)) (q : BoundedQueue ℤ),
    Runs.Steps QueueStep (.init 2 4 100) τ q ∧ q.bytes = queuedBytes q.queue ∧
      .got 0 (0, [97, 98]) 50 ∈ τ ∧ (50 : ℤ) - 0 ≤ 100 := by
  have hexec : (Runs.exec queueNext (.init (K := ℤ) 2 4 100) sampleQueueing).any
      (fun r => decide (.got 0 (0, [97, 98]) 50 ∈ r.1)) = true := by
    decide
  obtain ⟨τ, q, hsteps, hp⟩ := Runs.exec_any hexec
  obtain ⟨hbytes, _, _, _, _, hfresh⟩ := queue_accounting hsteps
  have hgot := of_decide_eq_true hp
  exact ⟨τ, q, hsteps, hbytes, hgot, hfresh _ _ _ hgot⟩

/-! The queues of the gateway take what the channels and the outbox say they take. -/

theorem put_hasRoom [LinearOrder K] [Sub K] {q : BoundedQueue K} {age now : K} {τ : List (QueueEvent K)}
    {data : List UInt8} (h : Runs.Steps QueueStep (.init 64 65536 age) τ q) :
    (q.put now data).isSome = true ↔ hasRoom (q.queue.map (fun item => item.2.length)) data.length = true := by
  have hinv := queue_run h
  have hlimit : q.limit = 65536 := hinv.limits.limit
  have hmax : q.maxsize = 64 := hinv.limits.maxsize
  have hbytes : q.bytes = ((q.queue.map (fun item => item.2.length)).sum : ℕ) := by
    rw [hinv.bytes, queuedBytes, Nat.cast_list_sum, List.map_map]
    rfl
  rw [put_isSome, full_eq_false (by omega), hlimit, hmax, hbytes, hasRoom, List.length_map, Bool.and_eq_true,
    decide_eq_true_eq, decide_eq_true_eq]
  omega

theorem put_fits [LinearOrder K] [Sub K] {q : BoundedQueue K} {age now : K} {τ : List (QueueEvent K)}
    {o : Outbox} {f : QueuedFrame} (h : Runs.Steps QueueStep (.init 128 262144 age) τ q)
    (hqueue : q.queue.map Prod.snd = o.queue.map QueuedFrame.data) (hbytes : q.bytes = o.bytes) :
    (q.put now f.data).isSome = true ↔ o.fits f = true := by
  have hinv := queue_run h
  have hlimit : q.limit = 262144 := hinv.limits.limit
  have hmax : q.maxsize = 128 := hinv.limits.maxsize
  have hlen : q.queue.length = o.queue.length := by
    have := congrArg List.length hqueue
    rwa [List.length_map, List.length_map] at this
  rw [put_isSome, full_eq_false (by omega), hlimit, hmax, hbytes, hlen, Outbox.fits, Bool.and_eq_true,
    decide_eq_true_eq, decide_eq_true_eq]
  omega

end ArenaLab
