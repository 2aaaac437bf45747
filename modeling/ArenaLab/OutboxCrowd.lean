import ArenaLab.OutboxIds
import Mathlib.Algebra.Order.BigOperators.Group.List

/-! A crowd of clients that come and go one after the other, in terms of the steps of the
process: those that open a channel, and those that answer its opening wrongly. -/

namespace ArenaLab

section

variable {o o' : Outbox} {g : Gateway} {f : QueuedFrame} {a : GatewayAction} {m : GatewayMessage}
  {print : HexStr 64} {c : HexStr 32} {k t tx len : ℕ}

theorem emit_roomy (hg : o.generation ≤ maxRequest) (htx : o.gateway.tx < maxRequest)
    (hm : m.WellFormed) (hq : o.queue.length < 128) (hb : o.bytes + 604 ≤ 262144) :
    ∃ f, o.emit m = (some f, (o.numbered (o.gateway.tx + 1)).put f) ∧ f.request = o.gateway.tx + 1 ∧
      f.data.length ≤ 604 := by
  have hnext : o.gateway.tx + 1 ≤ maxRequest := by omega
  have hframe := ipcFrame_eq o.gateway.config.run hg hnext hm
  obtain ⟨-, hsize⟩ := payload_size o.gateway.config.run hg hnext hm
  obtain ⟨data, hdata, hlen⟩ : ∃ data, o.nextFrame m = some ⟨o.gateway.tx + 1, m, data⟩ ∧ data.length ≤ 604 := by
    refine ⟨_, by rw [Outbox.nextFrame, hframe, Option.map_some], ?_⟩
    simp only [List.length_append, HexText.bigEndian_length]
    omega
  refine ⟨⟨o.gateway.tx + 1, m, data⟩, ?_, rfl, hlen⟩
  have hfits : o.fits ⟨o.gateway.tx + 1, m, data⟩ = true := by
    simp only [Outbox.fits, Bool.and_eq_true, decide_eq_true_eq]
    omega
  simp only [Outbox.emit, if_neg (show ¬maxRequest ≤ o.gateway.tx by omega), hdata, if_pos hfits]

theorem emit_size (he : o.emit m = (some f, o')) (hg : o.generation ≤ maxRequest) (hm : m.WellFormed) :
    128 ≤ f.data.length := by
  obtain ⟨hf, -, htx, -⟩ := emit_some he
  rw [Outbox.nextFrame, ipcFrame_eq o.gateway.config.run hg htx hm, Option.map_some] at hf
  obtain ⟨hlow, -⟩ := payload_size o.gateway.config.run hg (show o.gateway.tx + 1 ≤ maxRequest from htx) hm
  obtain rfl := Option.some.inj hf
  rw [List.length_append]
  exact le_add_left hlow

theorem outboxNext_quiet (hrun : o.running = true) (hg : gatewayNext o.gateway a = some (none, g)) :
    outboxNext o (.gateway a) = some (.silent, { o with gateway := g }) := by
  simp [outboxNext, hrun, Outbox.act, hg]

theorem outboxNext_sent (hrun : o.running = true) (hg : gatewayNext o.gateway a = some (some m, g))
    (he : ({ o with gateway := g }.numbered o.gateway.tx).emit m = (some f, o')) :
    outboxNext o (.gateway a) = some (.entered f, o') := by
  have hact : o.act a = some (some f, o') := by
    rw [Outbox.act, hg]
    dsimp only
    rw [he]
  rw [outboxNext, hrun, hact]
  rfl

theorem roomy_quiet (hg : gatewayNext o.gateway a = some (none, g)) : o.Roomy (.gateway a) := by
  rintro b m' g' ⟨rfl⟩ - - hg'
  rw [hg] at hg'
  cases hg'

theorem roomy_sent (hg : gatewayNext o.gateway a = some (some m, g))
    (he : ({ o with gateway := g }.numbered o.gateway.tx).emit m = (some f, o')) : o.Roomy (.gateway a) := by
  rintro b m' g' ⟨rfl⟩ - - hg' -
  rw [hg] at hg'
  cases hg'
  obtain ⟨hf, hfits, -⟩ := emit_some he
  exact ⟨f, hf, hfits⟩

/-- The process after `k` clients that have come and gone, with `len` frames in its queue. -/
structure Crowded (print : HexStr 64) (k tx len : ℕ) (o : Outbox) : Prop where
  known : print ∈ o.gateway.config.attestors
  generation : o.generation = 1
  running : o.running = true
  commands : o.gateway.commands = true
  stopping : o.gateway.stopping = false
  listener : o.gateway.listener.isSome = true
  pending : o.gateway.pending = 0
  channels : o.gateway.channels = ∅
  ports : o.gateway.retired = (List.range k).map (40000 + ·)
  tasks : ∀ t, k ≤ t → o.gateway.tasks t = none
  bytes : o.bytes = (o.queue.map (fun f => f.data.length)).sum
  small : ∀ f ∈ o.queue, f.data.length ≤ 604
  tx : o.gateway.tx = tx
  queue : o.queue.length = len

theorem Crowded.room (h : Crowded print k tx len o) (hlen : len < 128) : o.bytes + 604 ≤ 262144 := by
  have hsum := List.sum_le_card_nsmul (o.queue.map (fun f => f.data.length)) 604 (by
    intro n hn
    obtain ⟨f, hf, rfl⟩ := List.mem_map.mp hn
    exact h.small f hf)
  rw [← h.bytes, List.length_map, h.queue, Nat.nsmul_eq_mul] at hsum
  omega

theorem Crowded.small_put (h : Crowded print k tx len o) (hf : f.data.length ≤ 604) :
    ∀ x ∈ o.queue ++ [f], x.data.length ≤ 604 := by
  intro x hx
  rcases List.mem_append.mp hx with hx | hx
  · exact h.small x hx
  · rw [List.mem_singleton.mp hx]
    exact hf

def crowdChannel (print : HexStr 64) (k request : ℕ) : Channel := ⟨print, 40000 + k, false, false, request⟩

def crowdBody (config : GatewayConfig) (print : HexStr 64) (c : HexStr 32) (k : ℕ) : RouteOpen :=
  ⟨c, print, "127.0.0.1", 40000 + k, config.run, config.game_session_id⟩

def alone (c : HexStr 32) (x : Channel) : AList (fun _ : HexStr 32 => Channel) := AList.singleton c x

theorem insert_alone (c : HexStr 32) (x y : Channel) : (alone c x).insert c y = alone c y :=
  AList.insert_singleton_eq

theorem erase_alone (c : HexStr 32) (x : Channel) : (alone c x).erase c = ∅ := by
  apply AList.ext
  exact List.kerase_cons_eq rfl

theorem lookup_alone (c : HexStr 32) (x : Channel) : (alone c x).lookup c = some x := by
  rw [alone, ← AList.insert_empty, AList.lookup_insert]

def Gateway.greeted (g : Gateway) (k : ℕ) : Gateway := { g with pending := 1 }.put k .handshaking

/-- The next client has the channel `c`. -/
def Gateway.joined (g : Gateway) (print : HexStr 64) (c : HexStr 32) (k : ℕ) (phase : ServePhase) (request : ℕ) :
    Gateway :=
  { g with pending := 1, channels := alone c (crowdChannel print k request) }.put k phase

def Gateway.parted (g : Gateway) (c : HexStr 32) (k : ℕ) : Gateway :=
  { g with
    channels := ∅
    retired := g.retired ++ [40000 + k]
    retired_ids := g.retired_ids.insert c
    pending := 0 }.put k .closing

theorem Crowded.accept (h : Crowded print k tx len o) (hk : k < 256) :
    gatewayNext o.gateway (.accept k) = some (none, o.gateway.greeted k) := by
  have hfull : o.gateway.full = false := by
    simp [Gateway.full, h.channels, h.ports]
    omega
  have hlistener : o.gateway.listener.isNone = false := by
    rw [Option.isNone_eq_false_iff]
    exact h.listener
  simp [gatewayNext, h.tasks k le_rfl, hlistener, h.stopping, h.pending, hfull, Gateway.greeted]

theorem Crowded.handshake (h : Crowded print k tx len o) (hk : k < 256) (hc : c ∉ o.gateway.retired_ids) :
    gatewayNext (o.gateway.greeted k) (.handshake k print c (40000 + k)) =
      some (none, o.gateway.joined print c k (.opening c) 0) := by
  have hfull : (o.gateway.greeted k).full = false := by
    simp [Gateway.full, Gateway.greeted, Gateway.put, h.channels, h.ports]
    omega
  have hbound : (o.gateway.greeted k).bound (40000 + k) = false := by
    simp [Gateway.bound, Gateway.greeted, Gateway.put, h.channels, h.ports]
  have hattestor : ¬print ∉ (o.gateway.greeted k).config.attestors := not_not.2 h.known
  have hmem : ¬(c ∈ (o.gateway.greeted k).channels ∨ c ∈ (o.gateway.greeted k).retired_ids) := by
    rintro (hm | hm)
    · rw [show (o.gateway.greeted k).channels = o.gateway.channels from rfl, h.channels] at hm
      exact AList.notMem_empty _ hm
    · exact hc hm
  have hport : ¬(40000 + k = 0 ∨ 65535 < 40000 + k ∨ (o.gateway.greeted k).bound (40000 + k) = true) := by
    rw [hbound]
    rintro (hp | hp | hp)
    · omega
    · omega
    · cases hp
  have htask : (o.gateway.greeted k).tasks k = some .handshaking := by simp [Gateway.greeted, Gateway.put]
  have hstop : (o.gateway.greeted k).stopping = false := h.stopping
  rw [gatewayNext, htask, hstop]
  dsimp only
  rw [Gateway.handshake, if_neg hattestor, if_neg (by rw [hfull]; decide), if_neg hmem, if_neg hport]
  simp [Gateway.joined, Gateway.greeted, Gateway.put, h.channels, crowdChannel, alone]

theorem Crowded.advertise (h : Crowded print k tx len o) :
    gatewayNext (o.gateway.joined print c k (.opening c) 0) (.openAck k) =
      some (some (.routeOpen (crowdBody o.gateway.config print c k)),
        { o.gateway.joined print c k (.advertised c) (o.gateway.tx + 1) with tx := o.gateway.tx + 1 }) := by
  have htask : (o.gateway.joined print c k (.opening c) 0).tasks k = some (.opening c) := by
    simp [Gateway.joined, Gateway.put]
  have hstop : (o.gateway.joined print c k (.opening c) 0).stopping = false := h.stopping
  have hlookup : (o.gateway.joined print c k (.opening c) 0).channels.lookup c =
    some (crowdChannel print k 0) := lookup_alone c _
  rw [gatewayNext, htask, hstop]
  dsimp only
  rw [hlookup, Option.map_some]
  simp [Gateway.advertise, Gateway.joined, Gateway.put, crowdChannel, crowdBody, insert_alone]

theorem Crowded.leave (h : Crowded print k tx len o) :
    gatewayNext { o.gateway.joined print c k (.advertised c) (o.gateway.tx + 1) with tx := o.gateway.tx + 1 }
      (.fail k) = some (some (.routeClose c), { o.gateway.parted c k with tx := o.gateway.tx + 2 }) := by
  have htask : (o.gateway.joined print c k (.advertised c) (o.gateway.tx + 1)).tasks k = some (.advertised c) := by
    simp [Gateway.joined, Gateway.put]
  rw [gatewayNext]
  dsimp only
  rw [htask]
  simp [Gateway.leave, Gateway.retire, Gateway.joined, Gateway.parted, Gateway.put, h.stopping, crowdChannel,
    erase_alone, lookup_alone]

/-- The process while the next client holds the channel `c`. -/
def Outbox.hosting (o : Outbox) (print : HexStr 64) (c : HexStr 32) (k : ℕ) (f : QueuedFrame) : Outbox :=
  { o with gateway :=
      { o.gateway.joined print c k (.advertised c) (o.gateway.tx + 1) with tx := o.gateway.tx + 1 } }.put f

theorem Crowded.opens (h : Crowded print k tx len o) (hk : k < 256) (htx : tx < maxRequest) (hlen : len < 128) :
    ∃ f, ({ o with gateway := { o.gateway.joined print c k (.advertised c) (o.gateway.tx + 1) with
        tx := o.gateway.tx } } : Outbox).emit (.routeOpen (crowdBody o.gateway.config print c k)) =
        (some f, o.hosting print c k f) ∧ f.request = o.gateway.tx + 1 ∧ f.data.length ≤ 604 := by
  have hspent := h.tx
  have hqueue := h.queue
  have hm : GatewayMessage.WellFormed (.routeOpen (crowdBody o.gateway.config print c k)) :=
    ⟨rfl, by simp only [crowdBody]; omega, by simp only [crowdBody]; omega⟩
  have hgen : o.generation ≤ maxRequest := by
    rw [h.generation]
    decide
  have hroom : o.gateway.tx < maxRequest := by
    rw [hspent]
    exact htx
  obtain ⟨f, hemit, hf, hlen⟩ := emit_roomy (m := .routeOpen (crowdBody o.gateway.config print c k))
    (o := { o with gateway := { o.gateway.joined print c k (.advertised c) (o.gateway.tx + 1) with
      tx := o.gateway.tx } })
    hgen hroom hm (show o.queue.length < 128 by omega) (h.room hlen)
  exact ⟨f, hemit, hf, hlen⟩

/-- The client's answer to `OPEN` is wrong: its channel is retired at once. -/
theorem Crowded.refuse (h : Crowded print k tx len o) :
    gatewayNext (o.gateway.joined print c k (.opening c) 0) (.fail k) =
      some (some (.routeClose c), { o.gateway.parted c k with tx := o.gateway.tx + 1 }) := by
  have htask : (o.gateway.joined print c k (.opening c) 0).tasks k = some (.opening c) := by
    simp [Gateway.joined, Gateway.put]
  rw [gatewayNext]
  dsimp only
  rw [htask]
  simp [Gateway.leave, Gateway.retire, Gateway.joined, Gateway.parted, Gateway.put, h.stopping, crowdChannel,
    erase_alone, lookup_alone]

/-- The process after the client, whose closing was queued or not. -/
def Outbox.parted (o : Outbox) (c : HexStr 32) (k : ℕ) : Outbox :=
  { o with gateway := { o.gateway.parted c k with tx := o.gateway.tx + 1 } }

theorem Crowded.refused (h : Crowded print k tx len o) (htx : tx < maxRequest) (hlen : len < 128) :
    ∃ f, ({ o with gateway := { o.gateway.parted c k with tx := o.gateway.tx } } : Outbox).emit (.routeClose c) =
      (some f, (o.parted c k).put f) ∧ f.request = tx + 1 ∧ f.data.length ≤ 604 ∧ 128 ≤ f.data.length := by
  have hspent := h.tx
  have hqueue := h.queue
  have hgen : o.generation ≤ maxRequest := by
    rw [h.generation]
    decide
  obtain ⟨f, hemit, hf, hsize⟩ := emit_roomy (m := .routeClose c)
    (o := { o with gateway := { o.gateway.parted c k with tx := o.gateway.tx } }) hgen
    (show o.gateway.tx < maxRequest by rw [hspent]; exact htx) trivial
    (show o.queue.length < 128 by omega)
    (h.room hlen)
  exact ⟨f, hemit, hf.trans (congrArg (· + 1) hspent), hsize, emit_size hemit hgen trivial⟩

def Outbox.popped (o : Outbox) (x : QueuedFrame) (rest : List QueuedFrame) : Outbox :=
  { o with queue := rest, bytes := o.bytes - x.data.length }

/-- The closing of the client's channel is lost. -/
theorem Crowded.parted (h : Crowded print k tx len o) : Crowded print (k + 1) (tx + 1) len (o.parted c k) where
  known := h.known
  generation := h.generation
  running := h.running
  commands := h.commands
  stopping := h.stopping
  listener := h.listener
  pending := rfl
  channels := rfl
  ports := by
    simp [Outbox.parted, Gateway.parted, Gateway.put, h.ports, List.range_succ]
  tasks := by
    intro t ht
    have hne : t ≠ k := by omega
    simp [Outbox.parted, Gateway.parted, Gateway.put, hne, h.tasks t (by omega)]
  tx := congrArg (· + 1) h.tx
  queue := h.queue
  bytes := h.bytes
  small := h.small

/-- The closing of the client's channel is queued. -/
theorem Crowded.put (h : Crowded print k tx len o) (hf : f.data.length ≤ 604) :
    Crowded print (k + 1) (tx + 1) (len + 1) ((o.parted c k).put f) :=
  have hparted := h.parted (c := c)
  { known := hparted.known
    generation := hparted.generation
    running := hparted.running
    commands := hparted.commands
    stopping := hparted.stopping
    listener := hparted.listener
    pending := hparted.pending
    channels := hparted.channels
    ports := hparted.ports
    tasks := hparted.tasks
    tx := hparted.tx
    queue := by
      have hqueue := h.queue
      simp [Outbox.put, Outbox.parted]
      omega
    small := h.small_put hf
    bytes := by
      change o.bytes + f.data.length = _
      simp [Outbox.put, Outbox.parted, h.bytes] }

/-- The output task takes a frame. -/
theorem Crowded.popped {rest : List QueuedFrame} (h : Crowded print k tx (len + 1) o) (hq : o.queue = f :: rest) :
    Crowded print k tx len (o.popped f rest) :=
  { h with
    queue := by
      have hqueue := h.queue
      rw [hq] at hqueue
      exact Nat.succ.inj hqueue
    small := fun x hx => h.small x (by rw [hq]; exact List.mem_cons_of_mem _ hx)
    bytes := by
      have hbytes := h.bytes
      rw [hq, List.map_cons, List.sum_cons] at hbytes
      change o.bytes - f.data.length = (rest.map (fun f => f.data.length)).sum
      omega }

end

def crowdConfig : GatewayConfig where
  run := countingHost.tokenHex 1 16
  game_session_id := countingHost.tokenHex 2 16
  attestors := [countingHost.tokenHex 3 32]

/-- The listener comes up, whatever is in the queue by then. -/
theorem crowd_listens (queue : List QueuedFrame) (hlen : queue.length < 128) (hsmall : ∀ f ∈ queue, f.data.length ≤ 604)
    {n bytes : ℕ} (hn : n < 128) (hbytes : bytes = (queue.map (fun f => f.data.length)).sum) : ∃ f o,
      outboxNext ⟨{ Gateway.boot crowdConfig with tx := n }, 1, queue, bytes, true⟩ (.gateway (.listen 7777)) =
        some (.entered f, o) ∧
      f.request = n + 1 ∧ f.message = .ready 7777 ∧ o.queue = queue ++ [f] ∧
      Crowded (countingHost.tokenHex 3 32) 0 (n + 1) (queue.length + 1) o ∧ o.gateway.retired_ids = [] := by
  have hmax : (128 : ℕ) ≤ maxRequest := by decide
  have hlisten : gatewayNext { Gateway.boot crowdConfig with tx := n } (.listen 7777) =
      some (some (.ready 7777), { Gateway.boot crowdConfig with listener := some 7777, tx := n + 1 }) := rfl
  have hsum := List.sum_le_card_nsmul (queue.map (fun f => f.data.length)) 604 (by
    intro n hn
    obtain ⟨f, hf, rfl⟩ := List.mem_map.mp hn
    exact hsmall f hf)
  rw [List.length_map, Nat.nsmul_eq_mul] at hsum
  obtain ⟨f, hemit, hf, hsize⟩ := emit_roomy (m := .ready 7777)
    (o := ⟨{ Gateway.boot crowdConfig with listener := some 7777, tx := n }, 1, queue, bytes, true⟩)
    (show 1 ≤ maxRequest by omega) (show n < maxRequest by omega) (show 7777 ≤ 65535 by decide) hlen
    (show bytes + 604 ≤ 262144 by omega)
  have hmessage := (nextFrame_eq (emit_some hemit).1).2
  refine ⟨f, _, outboxNext_sent rfl hlisten hemit, hf, hmessage, rfl, ?_, rfl⟩
  exact
    { known := List.mem_singleton_self _
      generation := rfl
      running := rfl
      commands := rfl
      stopping := rfl
      listener := rfl
      pending := rfl
      channels := rfl
      ports := rfl
      tasks := fun _ _ => rfl
      tx := rfl
      queue := by simp [Outbox.put, Outbox.numbered]
      small := by
        intro x hx
        rcases List.mem_append.mp (show x ∈ queue ++ [f] from hx) with hx | hx
        · exact hsmall x hx
        · rw [List.mem_singleton.mp hx]
          exact hsize
      bytes := by simp [Outbox.put, Outbox.numbered, hbytes] }

end ArenaLab
