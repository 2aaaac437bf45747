import ArenaLab.ChannelChanges

/-! The gateway under a parent that conforms: it answers each opening that it gets once,
closes only channels that it was told about, and otherwise sends heartbeats. -/

namespace ArenaLab

/-- The process with what its parent knows: the openings that reached it, as channel and
request, and the channels whose opening it has answered. -/
structure Supervised where
  outbox : Outbox
  told : List (HexStr 32 × ℕ)
  answered : List (HexStr 32)

def Supervised.boot (config : GatewayConfig) (generation : ℕ) : Supervised := ⟨.boot config generation, [], []⟩

def QueuedFrame.opening (f : QueuedFrame) : Option (HexStr 32 × ℕ) :=
  f.message.opening.map (fun body => (body.channel_id, f.request))

inductive SupervisedAction
  | process (a : OutboxAction)
  | routeAck (c : HexStr 32) (request : ℕ)
  | routeClose (c : HexStr 32)
  | heartbeat

/-- A command tells whether it is not a late acknowledgement and whether `command` has raised. -/
inductive SupervisedEvent
  | quiet
  | command (timely raised : Bool)

/-- What `command` handles comes from the parent alone. -/
def OutboxAction.isCommand : OutboxAction → Bool
  | .gateway (.routeAck _ _) => true
  | .gateway (.routeClose _) => true
  | .gateway .badCommand => true
  | _ => false

/-- The channel is still in the table and has not been closed. -/
def Gateway.live (g : Gateway) (c : HexStr 32) : Bool :=
  ((g.channels.lookup c).map (fun channel => !channel.closed)).getD false

def supervisedNext (s : Supervised) (a : SupervisedAction) : Option (SupervisedEvent × Supervised) :=
  match a with
  | .process a =>
    if a.isCommand then none
    else match outboxNext s.outbox a with
      | none => none
      | some (e, o) =>
        some (.quiet, { s with outbox := o, told := s.told ++ (e.got.bind QueuedFrame.opening).toList })
  | .routeAck c request =>
    if (c, request) ∉ s.told ∨ s.answered.contains c then none
    else match outboxNext s.outbox (.gateway (.routeAck c request)) with
      | none => none
      | some (_, o) =>
        some (.command (s.outbox.gateway.live c) (!o.gateway.commands),
          { s with outbox := o, answered := c :: s.answered })
  | .routeClose c =>
    if !(s.told.map Prod.fst).contains c then none
    else match outboxNext s.outbox (.gateway (.routeClose c)) with
      | none => none
      | some (_, o) => some (.command true (!o.gateway.commands), { s with outbox := o })
  | .heartbeat =>
    if s.outbox.running && s.outbox.gateway.commands then some (.command true false, s) else none

abbrev SupervisedStep := Runs.Induced supervisedNext

/-- The openings that the parent knows or will know. -/
def Supervised.openings (s : Supervised) : List (HexStr 32 × ℕ) :=
  s.told ++ s.outbox.queue.filterMap QueuedFrame.opening

section

variable {g g' : Gateway} {a : GatewayAction} {m : Option GatewayMessage} {c d : HexStr 32} {t : ℕ}
  {channel channel' : Channel}

/-- The gateway against the openings `L` that have found room and the channels `A` that were answered. -/
structure ParentInv (config : GatewayConfig) (L : List (HexStr 32 × ℕ)) (A : List (HexStr 32)) (g : Gateway) :
    Prop where
  history : ∃ E, GatewayHistory config E g ∧ (opensIn E).map RouteOpen.channel_id = L.map Prod.fst
  acks : ∀ c channel, g.channels.lookup c = some channel → channel.ack = true → c ∈ A
  requests : ∀ c r, (c, r) ∈ L → ∀ channel, g.channels.lookup c = some channel → channel.route_request = r
  positive : ∀ p ∈ L, p.2 ≠ 0

/-- What a message adds to the openings. -/
def Gateway.announces (g : Gateway) (m : Option GatewayMessage) : List (HexStr 32 × ℕ) :=
  (m.bind GatewayMessage.opening).toList.map (fun body => (body.channel_id, g.tx + 1))

variable {config : GatewayConfig} {L : List (HexStr 32 × ℕ)} {A A' : List (HexStr 32)} {o o' : Outbox}

theorem parentInv_boot (config : GatewayConfig) : ParentInv config [] [] (.boot config) where
  history := ⟨[], gatewayHistory_boot config, rfl⟩
  acks := by simp [Gateway.boot]
  requests := by simp
  positive := by simp

theorem ParentInv.renumber (h : ParentInv config L A g) (n : ℕ) : ParentInv config L A { g with tx := n } := by
  obtain ⟨⟨E, ⟨hconfig, hi, ho⟩, hL⟩, hacks, hrequests, hpositive⟩ := h
  exact ⟨⟨E, ⟨hconfig, ⟨hi.active_le, hi.total_le, hi.same_size, hi.apart, hi.held, hi.owned, hi.waiting,
    hi.distinct, hi.range, hi.placed, hi.opens_nodup, hi.closed, hi.announced, hi.closes_nodup⟩, ho⟩, hL⟩,
    hacks, hrequests, hpositive⟩

/-- A channel that the parent was told about is in the table or retired. -/
theorem ParentInv.known (h : ParentInv config L A g) (hc : c ∈ L.map Prod.fst) :
    c ∈ g.channels ∨ c ∈ g.retired_ids := by
  obtain ⟨E, hE, hL⟩ := h.history
  rw [← hL] at hc
  obtain ⟨body, hbody, rfl⟩ := List.mem_map.mp hc
  rcases hE.inv.placed body hbody with hp | ⟨hr, _⟩
  · exact .inl (mem_of_portOf hp)
  · exact .inr hr

theorem ParentInv.fresh {body : RouteOpen} (h : ParentInv config L A g)
    (hc : GatewayChange g (some (.routeOpen body)) g') : body.channel_id ∉ L.map Prod.fst := by
  obtain ⟨E, hE, hL⟩ := h.history
  have hnodup := (hE.step hc).inv.opens_nodup
  rw [Option.toList_some, opensIn_concat, List.map_append, hL] at hnodup
  exact (List.nodup_concat _ _).1 (by simpa [GatewayMessage.opening] using hnodup) |>.1

theorem ParentInv.step (h : ParentInv config L A g) (hc : GatewayChange g m g')
    (hchannel : ∀ c channel', g'.channels.lookup c = some channel' → ChannelChange g a m c channel')
    (hopen : ∀ body, m = some (.routeOpen body) →
      ∀ channel, g'.channels.lookup body.channel_id = some channel → channel.route_request = g.tx + 1)
    (hA : A ⊆ A') (hack : ∀ c request, a = .routeAck c request → c ∈ A') :
    ParentInv config (L ++ g.announces m) A' g' := by
  have hlast := hc.lasting
  obtain ⟨E, hE, hL⟩ := h.history
  have hE' := hE.step hc
  refine ⟨⟨_, hE', ?_⟩, ?_, ?_, ?_⟩
  · cases m with
    | none => simpa [Gateway.announces] using hL
    | some x =>
      rw [Option.toList_some, opensIn_concat, List.map_append, List.map_append, hL]
      cases x <;> rfl
  · intro c channel' hc' hacked
    cases hchannel c channel' hc' with
    | kept hc hsame _ => exact hA (h.acks c _ hc (hsame ▸ hacked))
    | created _ hnone =>
      rw [hnone] at hacked
      cases hacked
    | opened hc hsame _ _ _ => exact hA (h.acks c _ hc (hsame ▸ hacked))
    | acknowledged ha _ _ => exact hack c _ ha
  · intro c r hr channel' hc'
    rcases List.mem_append.mp hr with hr | hr
    · have hold : c ∈ L.map Prod.fst := List.mem_map_of_mem hr
      cases hchannel c channel' hc' with
      | kept hc _ hsame => exact hsame.trans (h.requests c r hr _ hc)
      | created hnew _ =>
        rcases h.known hold with hmem | hmem
        · exact absurd hmem hnew
        · exact absurd (hlast.retired c hmem) (hE'.inv.apart c (AList.mem_of_lookup hc'))
      | opened _ _ _ hm hid =>
        subst hm hid
        exact absurd hold (h.fresh hc)
      | acknowledged _ hc hsame => exact hsame.trans (h.requests c r hr _ hc)
    · obtain ⟨body, hbody, heq⟩ := List.mem_map.mp hr
      obtain ⟨rfl, rfl⟩ := Prod.mk.inj heq
      rw [Option.mem_toList] at hbody
      obtain ⟨x, rfl, hx⟩ := Option.bind_eq_some_iff.mp hbody
      cases x with
      | routeOpen b =>
        cases hx
        exact hopen _ rfl channel' hc'
      | ready port => cases hx
      | routeClose c => cases hx
      | heartbeat => cases hx
  · intro p hp
    rcases List.mem_append.mp hp with hp | hp
    · exact h.positive p hp
    · obtain ⟨body, _, rfl⟩ := List.mem_map.mp hp
      exact Nat.succ_ne_zero _

theorem ParentInv.next {r : Option GatewayMessage × Gateway} (h : ParentInv config L A g)
    (hs : gatewayNext g a = some r) (hA : A ⊆ A') (hack : ∀ c request, a = .routeAck c request → c ∈ A') :
    ParentInv config (L ++ g.announces r.1) A' r.2 := by
  obtain ⟨m, g'⟩ := r
  refine h.step (gatewayNext_change hs) (fun _ _ hc => gatewayNext_channel hs hc) ?_ hA hack
  rintro body ⟨⟩
  exact (gatewayNext_opening hs).2

theorem ParentInv.leave (h : ParentInv config L A g) (ht : g.channelOf t = some c) :
    ParentInv config L A (g.leave t c).2 := by
  have hsilent : g.announces (g.leave t c).1 = [] := by
    rw [leave_message]
    split <;> rfl
  have hstep := h.step (a := .close) (.retired g.pending ht) (fun _ _ hc => channelChange_leave hc)
    (fun body hm => by cases leave_emits (Prod.ext hm rfl)) (List.Subset.refl A) (by simp)
  have hsame : ({ g with pending := g.pending } : Gateway).leave t c = g.leave t c := rfl
  rw [hsame, hsilent, List.append_nil] at hstep
  exact hstep

theorem announces_unless (hs : gatewayNext g a = some (m, g')) (ha : ∀ t, a ≠ .openAck t) :
    g.announces m = [] := by
  cases m with
  | none => rfl
  | some x =>
    cases x with
    | routeOpen body =>
      obtain ⟨⟨t, ht⟩, _⟩ := gatewayNext_opening hs
      exact absurd ht (ha t)
    | ready port => rfl
    | routeClose c => rfl
    | heartbeat => rfl

/-- The frames of one step, as openings. -/
def openingOf (r : Option QueuedFrame) : List (HexStr 32 × ℕ) := (r.bind QueuedFrame.opening).toList

theorem emit_queue {x : GatewayMessage} {r : Option QueuedFrame} (h : o.emit x = (r, o')) :
    o'.queue = o.queue ++ r.toList := by
  cases r with
  | none =>
    rcases emit_none h with ⟨-, rfl⟩ | ⟨-, -, rfl⟩
    · exact (List.append_nil _).symm
    · exact (List.append_nil _).symm
  | some f =>
    obtain ⟨-, -, -, rfl⟩ := emit_some h
    rfl

theorem emit_opening {x : GatewayMessage} {f : QueuedFrame} (h : o.emit x = (some f, o')) :
    openingOf (some f) = o.gateway.announces (some x) := by
  obtain ⟨hf, -⟩ := emit_some h
  obtain ⟨hrequest, hmessage⟩ := nextFrame_eq hf
  rw [openingOf, Option.bind_some, QueuedFrame.opening, hrequest, hmessage]
  cases x <;> rfl

theorem ParentInv.abandon (h : ParentInv config L A o.gateway) (ht : o.gateway.channelOf t = some c) :
    ParentInv config (L ++ openingOf (o.abandon t).1) A (o.abandon t).2.gateway ∧
      (o.abandon t).2.queue = o.queue ++ (o.abandon t).1.toList := by
  have hleave := h.leave ht
  unfold Outbox.abandon
  rw [ht]
  dsimp only
  split
  · rename_i g' hg'
    rw [hg'] at hleave
    refine ⟨?_, (List.append_nil _).symm⟩
    rw [openingOf, Option.bind_none, Option.toList_none, List.append_nil]
    exact hleave
  · rename_i x g' hg'
    have hmessage := leave_message o.gateway t c
    rw [hg'] at hleave hmessage
    have hx : x.opening = none := by
      dsimp only at hmessage
      split at hmessage <;> cases hmessage
      rfl
    cases he : ({ o with gateway := g' }.numbered o.gateway.tx).emit x with
    | mk r o' =>
      have hgateway := emit_gateway he
      have hqueue := emit_queue he
      refine ⟨?_, hqueue⟩
      have hnone : openingOf r = [] := by
        cases r with
        | none => rfl
        | some f =>
          rw [emit_opening he, Gateway.announces, Option.bind_some, hx]
          rfl
      rw [hnone, List.append_nil, hgateway]
      exact hleave.renumber _

theorem ParentInv.act {r : Option QueuedFrame} (h : ParentInv config L A o.gateway) (hc : OutboxChange o a r o')
    (hA : A ⊆ A') (hack : ∀ c request, a = .routeAck c request → c ∈ A') :
    ParentInv config (L ++ openingOf r) A' o'.gateway ∧ o'.queue = o.queue ++ r.toList := by
  cases hc with
  | quiet hg => exact ⟨h.next hg hA hack, (List.append_nil _).symm⟩
  | sent hg he =>
    have hnext := (h.next hg hA hack).renumber
    have hqueue := emit_queue he
    refine ⟨?_, hqueue⟩
    rw [emit_opening he, emit_gateway he]
    exact hnext _
  | ended hg he ha =>
    have hnext := (h.next hg hA hack).renumber
    have hqueue := emit_queue he
    rw [announces_unless hg (by rcases ha with rfl | ⟨port, rfl⟩ <;> simp)] at hnext
    refine ⟨?_, hqueue⟩
    rw [emit_gateway he]
    exact hnext _
  | lost hg he ha =>
    have hnext := (h.next hg hA hack).renumber
    have hqueue := emit_queue he
    rw [announces_unless hg ha.2.2] at hnext
    refine ⟨?_, hqueue⟩
    rw [emit_gateway he]
    exact hnext _
  | @abandoned m g t o₁ hg he ha =>
    subst ha
    obtain ⟨c, ht⟩ := openAck_task hg
    have hsame : ParentInv config L A' o.gateway :=
      ⟨h.history, fun c channel hc hacked => hA (h.acks c channel hc hacked), h.requests, h.positive⟩
    exact (hsame.renumber o₁.gateway.tx).abandon (o := o.numbered o₁.gateway.tx) (channelOf_of_tasks ht)

/-- The process and what its parent knows agree. -/
def Supervised.Agrees (config : GatewayConfig) (s : Supervised) : Prop :=
  ParentInv config s.openings s.answered s.outbox.gateway

variable {s s' : Supervised} {e : SupervisedEvent} {r request : ℕ}

theorem outboxNext_act {ev : OutboxEvent} (h : outboxNext o (.gateway a) = some (ev, o')) :
    ∃ r, OutboxChange o a r o' ∧ ev.got = none := by
  unfold outboxNext at h
  split at h
  · cases h
  · dsimp only at h
    split at h
    · cases h
    · rename_i hact
      cases h
      exact ⟨_, act_change hact, rfl⟩
    · rename_i hact
      cases h
      exact ⟨_, act_change hact, rfl⟩

theorem openings_enqueued {r : Option QueuedFrame} (hq : o'.queue = s.outbox.queue ++ r.toList) :
    ({ s with outbox := o' } : Supervised).openings = s.openings ++ openingOf r := by
  have hr : r.toList.filterMap QueuedFrame.opening = openingOf r := by
    cases r with
    | none => rfl
    | some f => cases hf : f.opening <;> simp [openingOf, hf]
  simp only [Supervised.openings, hq, List.filterMap_append, hr, List.append_assoc]

theorem Supervised.Agrees.act {ev : OutboxEvent} (h : s.Agrees config)
    (hs : outboxNext s.outbox (.gateway a) = some (ev, o')) (hA : s.answered ⊆ A')
    (hack : ∀ c request, a = .routeAck c request → c ∈ A') :
    ({ s with outbox := o', answered := A' } : Supervised).Agrees config ∧ ev.got = none := by
  obtain ⟨r, hc, hgot⟩ := outboxNext_act hs
  obtain ⟨hi, hq⟩ := ParentInv.act h hc hA hack
  refine ⟨?_, hgot⟩
  rw [← openings_enqueued hq] at hi
  exact hi

theorem Supervised.Agrees.output {f : QueuedFrame} {rest : List QueuedFrame} {n : ℕ} (h : s.Agrees config)
    (hq : s.outbox.queue = f :: rest) :
    ({ s with outbox := { s.outbox with queue := rest, bytes := n }
              told := s.told ++ f.opening.toList } : Supervised).Agrees config := by
  have hopenings : s.told ++ f.opening.toList ++ rest.filterMap QueuedFrame.opening = s.openings := by
    rw [Supervised.openings, hq, List.filterMap_cons]
    cases f.opening <;> simp
  have hi : ParentInv config s.openings s.answered s.outbox.gateway := h
  rw [← hopenings] at hi
  exact hi

/-- A command emits nothing by itself. -/
theorem gatewayNext_command (ha : (OutboxAction.gateway a).isCommand = true) (h : gatewayNext g a = some (m, g')) :
    m = none := by
  cases m with
  | none => rfl
  | some x =>
    rcases gatewayNext_emits h with ⟨_, rfl, -⟩ | ⟨_, _, _, rfl, -⟩ | ⟨_, _, rfl | rfl, -⟩ | ⟨rfl, -⟩ <;> cases ha

theorem outboxNext_command {ev : OutboxEvent} (ha : (OutboxAction.gateway a).isCommand = true)
    (h : outboxNext o (.gateway a) = some (ev, o')) :
    ∃ g, gatewayNext o.gateway a = some (none, g) ∧ o' = { o with gateway := g } := by
  obtain ⟨r, hc, -⟩ := outboxNext_act h
  cases hc with
  | quiet hg => exact ⟨_, hg, rfl⟩
  | sent hg _ => cases gatewayNext_command ha hg
  | ended hg _ _ => cases gatewayNext_command ha hg
  | lost hg _ _ => cases gatewayNext_command ha hg
  | abandoned hg _ _ => cases gatewayNext_command ha hg

/-- In time, the acknowledgement finds its own channel as it was announced. -/
theorem Supervised.Agrees.routeAck {ev : OutboxEvent} (h : s.Agrees config) (hr : (c, request) ∈ s.told)
    (hnew : c ∉ s.answered) (hs : outboxNext s.outbox (.gateway (.routeAck c request)) = some (ev, o')) :
    (!o'.gateway.commands) = !s.outbox.gateway.live c := by
  have hmem : (c, request) ∈ s.openings := List.mem_append_left _ hr
  obtain ⟨g, hg, rfl⟩ := outboxNext_command rfl hs
  simp only [gatewayNext] at hg
  split at hg
  · cases hg
  · rename_i hcommands
    replace hcommands : s.outbox.gateway.commands = true := by simpa using hcommands
    split at hg
    · rename_i hlookup
      cases hg
      simp [Gateway.live, hlookup, Gateway.fault]
    · rename_i channel hlookup
      have hack : channel.ack = false := by
        by_contra hf
        exact hnew (h.acks c channel hlookup (by simpa using hf))
      have hrequest := h.requests c request hmem channel hlookup
      have hpositive : request ≠ 0 := h.positive _ hmem
      cases hg
      cases hclosed : channel.closed <;>
        simp [Gateway.live, hlookup, Gateway.acknowledge, hack, hrequest, hpositive, hclosed, hcommands,
          Gateway.fault]

theorem Supervised.Agrees.routeClose {ev : OutboxEvent} (h : s.Agrees config) (hc : c ∈ s.told.map Prod.fst)
    (hs : outboxNext s.outbox (.gateway (.routeClose c)) = some (ev, o')) : o'.gateway.commands = true := by
  have hmem : c ∈ s.openings.map Prod.fst := by
    rw [Supervised.openings, List.map_append]
    exact List.mem_append_left _ hc
  obtain ⟨g, hg, rfl⟩ := outboxNext_command rfl hs
  simp only [gatewayNext] at hg
  split at hg
  · cases hg
  · rename_i hcommands
    replace hcommands : s.outbox.gateway.commands = true := by simpa using hcommands
    split at hg
    · rename_i hlookup
      have hretired : c ∈ s.outbox.gateway.retired_ids := by
        rcases ParentInv.known h hmem with hin | hin
        · rw [← AList.lookup_isSome, hlookup] at hin
          cases hin
        · exact hin
      rw [if_pos hretired] at hg
      cases hg
      exact hcommands
    · cases hg
      exact hcommands

/-- A command raises exactly if it is an acknowledgement that comes too late. -/
def SupervisedEvent.Fair : SupervisedEvent → Prop
  | .quiet => True
  | .command timely raised => raised = !timely

theorem Supervised.Agrees.step (h : s.Agrees config) (hs : SupervisedStep s e s') :
    s'.Agrees config ∧ e.Fair := by
  obtain ⟨b, hs⟩ := hs
  cases b with
  | process b =>
    simp only [supervisedNext] at hs
    split at hs
    · cases hs
    · rename_i hcommand
      split at hs
      · cases hs
      · rename_i ev o' ho
        cases hs
        refine ⟨?_, trivial⟩
        cases b with
        | gateway a =>
          have hack : ∀ c request, a = .routeAck c request → c ∈ s.answered := by
            rintro c request rfl
            exact absurd rfl hcommand
          obtain ⟨hi, hgot⟩ := h.act ho (List.Subset.refl _) hack
          rw [hgot, Option.bind_none, Option.toList_none, List.append_nil]
          exact hi
        | output =>
          unfold outboxNext at ho
          split at ho
          · cases ho
          · dsimp only at ho
            split at ho
            · cases ho
            · rename_i hq
              cases ho
              exact h.output hq
        | stop =>
          unfold outboxNext at ho
          split at ho
          · cases ho
          · cases ho
            rw [show OutboxEvent.silent.got = none from rfl, Option.bind_none, Option.toList_none, List.append_nil]
            exact h
  | routeAck c request =>
    simp only [supervisedNext] at hs
    split at hs
    · cases hs
    · rename_i hallowed
      rw [not_or, not_not, List.contains_iff_mem] at hallowed
      split at hs
      · cases hs
      · rename_i ho
        cases hs
        refine ⟨(h.act ho (List.subset_cons_self _ _) ?_).1, h.routeAck hallowed.1 hallowed.2 ho⟩
        rintro d request ⟨⟩
        exact List.mem_cons_self
  | routeClose c =>
    simp only [supervisedNext] at hs
    split at hs
    · cases hs
    · rename_i htold
      have htold : c ∈ s.told.map Prod.fst := by simpa using htold
      split at hs
      · cases hs
      · rename_i ho
        cases hs
        refine ⟨(h.act ho (List.Subset.refl _) (by simp)).1, ?_⟩
        rw [SupervisedEvent.Fair, h.routeClose htold ho]
  | heartbeat =>
    simp only [supervisedNext] at hs
    split at hs <;> cases hs
    exact ⟨h, rfl⟩

variable {generation : ℕ} {τ : List SupervisedEvent}

theorem fair_of_run (hr : Runs.Steps SupervisedStep (.boot config generation) τ s) :
    s.Agrees config ∧ ∀ e ∈ τ, e.Fair := by
  refine hr.history (I := fun τ s => s.Agrees config ∧ ∀ e ∈ τ, e.Fair) ⟨parentInv_boot config, by simp⟩ ?_
  rintro τ s e s' - ⟨hi, hτ⟩ hs
  obtain ⟨hi', he⟩ := hi.step hs
  refine ⟨hi', fun x hx => ?_⟩
  rcases List.mem_append.mp hx with hx | hx
  · exact hτ x hx
  · rw [List.mem_singleton.mp hx]
    exact he

/-- Under a parent that conforms no command raises, whatever the tasks of the channels do, exactly
if every acknowledgement is handled while its channel is in the table and open. -/
theorem no_command_raises_iff (hr : Runs.Steps SupervisedStep (.boot config generation) τ s) :
    (∀ timely raised, .command timely raised ∈ τ → raised = false) ↔
      ∀ timely raised, .command timely raised ∈ τ → timely = true := by
  obtain ⟨-, hfair⟩ := fair_of_run hr
  refine forall_congr' fun timely => forall_congr' fun raised => ?_
  refine imp_congr_right fun he => ?_
  have hraised : raised = !timely := hfair _ he
  rw [hraised, Bool.not_eq_eq_eq_not, Bool.not_false]

end

section

variable {o o' : Outbox} {told : List (HexStr 32 × ℕ)} {answered : List (HexStr 32)}

theorem supervised_silent {a : GatewayAction} {ev : OutboxEvent}
    (ha : (OutboxAction.gateway a).isCommand = false) (h : outboxNext o (.gateway a) = some (ev, o')) :
    SupervisedStep ⟨o, told, answered⟩ .quiet ⟨o', told, answered⟩ := by
  obtain ⟨r, -, hgot⟩ := outboxNext_act h
  refine ⟨.process (.gateway a), ?_⟩
  simp [supervisedNext, ha, h, hgot]

theorem supervised_output {f : QueuedFrame} {rest : List QueuedFrame} (hrun : o.running = true)
    (hq : o.queue = f :: rest) :
    SupervisedStep ⟨o, told, answered⟩ .quiet ⟨o.popped f rest, told ++ f.opening.toList, answered⟩ := by
  refine ⟨.process .output, ?_⟩
  simp [supervisedNext, OutboxAction.isCommand, outboxNext, hrun, hq, OutboxEvent.got, Outbox.popped]

theorem supervised_late {c : HexStr 32} {request : ℕ} (hrun : o.running = true)
    (hcommands : o.gateway.commands = true)
    (hempty : o.gateway.channels = ∅) (htold : (c, request) ∈ told) (hnew : c ∉ answered) :
    ∃ s, SupervisedStep ⟨o, told, answered⟩ (.command false true) s := by
  have hnext : gatewayNext o.gateway (.routeAck c request) = some (none, o.gateway.fault) := by
    simp [gatewayNext, hcommands, hempty]
  have hallowed : ¬((c, request) ∉ told ∨ answered.contains c) := by
    rw [not_or, not_not, List.contains_iff_mem]
    exact ⟨htold, hnew⟩
  have hlive : o.gateway.live c = false := by simp [Gateway.live, hempty]
  refine ⟨⟨{ o with gateway := o.gateway.fault }, told, c :: answered⟩, .routeAck c request, ?_⟩
  simp only [supervisedNext]
  rw [if_neg hallowed, outboxNext_quiet hrun hnext, hlive]
  rfl

theorem supervised_timely {c : HexStr 32} {channel : Channel} (hrun : o.running = true)
    (hcommands : o.gateway.commands = true) (hlookup : o.gateway.channels.lookup c = some channel)
    (hrequest : channel.route_request ≠ 0) (hack : channel.ack = false) (hopen : channel.closed = false)
    (htold : (c, channel.route_request) ∈ told) (hnew : c ∉ answered) :
    ∃ s, SupervisedStep ⟨o, told, answered⟩ (.command true false) s := by
  have hnext : gatewayNext o.gateway (.routeAck c channel.route_request) =
      some (none, o.gateway.acknowledge c channel channel.route_request) := by
    simp [gatewayNext, hcommands, hlookup]
  have hallowed : ¬((c, channel.route_request) ∉ told ∨ answered.contains c) := by
    rw [not_or, not_not, List.contains_iff_mem]
    exact ⟨htold, hnew⟩
  have hlive : o.gateway.live c = true := by simp [Gateway.live, hlookup, hopen]
  have hheard : (o.gateway.acknowledge c channel channel.route_request).commands = true := by
    simp [Gateway.acknowledge, hrequest, hack, hopen, hcommands]
  refine ⟨⟨{ o with gateway := o.gateway.acknowledge c channel channel.route_request }, told, c :: answered⟩,
    .routeAck c channel.route_request, ?_⟩
  simp only [supervisedNext]
  rw [if_neg hallowed, outboxNext_quiet hrun hnext, hlive]
  dsimp only
  rw [hheard]
  rfl

end

def firstName : HexStr 32 := countingHost.tokenHex 0 16

/-- The gateway of `o` once its first client waits for the answer of the parent. -/
def Outbox.awaiting (o : Outbox) : Gateway :=
  { o.gateway.joined (countingHost.tokenHex 3 32) firstName 0 (.advertised firstName) (o.gateway.tx + 1) with
    tx := o.gateway.tx + 1 }

/-- The parent has heard of the first client's channel. -/
theorem parent_hears : ∃ o o' τ, Crowded (countingHost.tokenHex 3 32) 0 1 1 o ∧
    Runs.Steps SupervisedStep (.boot crowdConfig 1) τ ⟨o', [(firstName, 2)], []⟩ ∧
    o'.running = true ∧ o'.generation = 1 ∧ o'.queue = [] ∧ o'.bytes ≤ 1208 ∧ o'.gateway = o.awaiting := by
  obtain ⟨f, o, hlisten, -, hready, hqueue, hcrowd, hids⟩ := crowd_listens [] (by simp) (by simp) (n := 0)
    (by omega) rfl
  have hfresh : firstName ∉ o.gateway.retired_ids := by simp [hids]
  obtain ⟨f', hemit, hf', hlen⟩ := hcrowd.opens (c := firstName) (by omega) (by decide) (by decide)
  have hopening : f'.opening = some (firstName, 2) := by
    have hmessage := (nextFrame_eq (emit_some hemit).1).2
    rw [QueuedFrame.opening, hmessage, hf', hcrowd.tx]
    rfl
  have hsilent : f.opening = none := by
    rw [QueuedFrame.opening, hready]
    rfl
  have h1 : Runs.Steps SupervisedStep (.boot crowdConfig 1) [.quiet] ⟨o, [], []⟩ :=
    .single (supervised_silent rfl hlisten)
  have h2 : Runs.Steps SupervisedStep (.boot crowdConfig 1) [.quiet, .quiet]
      ⟨{ o with gateway := o.gateway.greeted 0 }, [], []⟩ :=
    h1.snoc (supervised_silent rfl (outboxNext_quiet hcrowd.running (hcrowd.accept (by omega))))
  have h3 : Runs.Steps SupervisedStep (.boot crowdConfig 1) [.quiet, .quiet, .quiet]
      ⟨{ o with
        gateway := o.gateway.joined (countingHost.tokenHex 3 32) firstName 0 (.opening firstName) 0 }, [], []⟩ :=
    h2.snoc (supervised_silent rfl (outboxNext_quiet hcrowd.running (hcrowd.handshake (by omega) hfresh)))
  have h4 := h3.snoc (supervised_silent rfl (outboxNext_sent hcrowd.running hcrowd.advertise hemit))
  have hq : (o.hosting (countingHost.tokenHex 3 32) firstName 0 f').queue = [f, f'] := by
    change o.queue ++ [f'] = _
    rw [hqueue]
    rfl
  have h5 := h4.snoc (supervised_output hcrowd.running hq)
  have h6 := h5.snoc (supervised_output hcrowd.running rfl)
  rw [hsilent, hopening] at h6
  refine ⟨o, _, _, hcrowd, h6, hcrowd.running, hcrowd.generation, rfl, ?_, rfl⟩
  have hbytes : o.bytes = f.data.length := by
    rw [hcrowd.bytes, hqueue]
    simp
  change o.bytes + f'.data.length - f.data.length - f'.data.length ≤ 1208
  omega

/-- The channel times out while its acknowledgement is on the way. -/
theorem late_ack_raises : ∃ τ s, Runs.Steps SupervisedStep (.boot crowdConfig 1) τ s ∧
    ¬∀ timely raised, .command timely raised ∈ τ → raised = false := by
  obtain ⟨o, o', τ, hcrowd, hr, hrun, hgen, hqueue, hbytes, hgateway⟩ := parent_hears
  have hfail : gatewayNext o'.gateway (.fail 0) =
      some (some (.routeClose firstName), { o.gateway.parted firstName 0 with tx := o.gateway.tx + 2 }) := by
    rw [hgateway]
    exact hcrowd.leave
  have htx : o'.gateway.tx = 2 := by
    rw [hgateway]
    change o.gateway.tx + 1 = 2
    rw [hcrowd.tx]
  obtain ⟨f, hemit, -, -⟩ := emit_roomy (m := .routeClose firstName)
    (o := { o' with gateway := { o.gateway.parted firstName 0 with tx := o'.gateway.tx } })
    (by rw [hgen]; decide) (by rw [htx]; decide) trivial (by rw [hqueue]; decide)
    (show o'.bytes + 604 ≤ 262144 by omega)
  have hretired := hr.snoc (supervised_silent rfl (outboxNext_sent hrun hfail hemit))
  obtain ⟨s, hlate⟩ := supervised_late
    (o := (Outbox.numbered { o' with gateway := { o.gateway.parted firstName 0 with tx := o'.gateway.tx } } _).put f)
    hrun hcrowd.commands rfl (List.mem_singleton_self (firstName, 2)) (List.not_mem_nil)
  refine ⟨_, s, hretired.snoc hlate, fun hall => ?_⟩
  have hfalse := hall false true (List.mem_append_right _ (List.mem_singleton_self _))
  cases hfalse

/-- The acknowledgement comes in time. -/
theorem no_command_raises_timely : ∃ τ s, Runs.Steps SupervisedStep (.boot crowdConfig 1) τ s ∧
    .command true false ∈ τ ∧ ((∀ timely raised, .command timely raised ∈ τ → raised = false) ↔
      ∀ timely raised, .command timely raised ∈ τ → timely = true) := by
  obtain ⟨o, o', τ, hcrowd, hr, hrun, -, -, -, hgateway⟩ := parent_hears
  have hlookup : o'.gateway.channels.lookup firstName = some (crowdChannel (countingHost.tokenHex 3 32) 0 2) := by
    rw [hgateway]
    change (alone firstName (crowdChannel _ 0 (o.gateway.tx + 1))).lookup firstName = _
    rw [lookup_alone, hcrowd.tx]
  have hcommands : o'.gateway.commands = true := by
    rw [hgateway]
    exact hcrowd.commands
  obtain ⟨s, hack⟩ := supervised_timely hrun hcommands hlookup (by decide) rfl rfl
    (List.mem_singleton_self (firstName, 2)) (List.not_mem_nil)
  refine ⟨_, s, hr.snoc hack, List.mem_append_right _ (List.mem_singleton_self _), ?_⟩
  exact no_command_raises_iff (hr.snoc hack)

end ArenaLab
