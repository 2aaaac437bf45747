import ArenaLab.LabPolicyAdmits

/-! What the client and the server agree on between the messages of a session, and the
steps that go well. -/

namespace ArenaLab

/-- The system calls before a send gave what the stage needs. -/
def LabInput.Fine (x : LabInput) (o : LabOptions) (policy : LabPolicy) : LabStage → Prop
  | .hello => x.sent = true ∧ x.nonce.any validNonce = true
  | .ping _ => x.sent = true ∧ x.nonce.isSome = true
  | .observation => x.sent = true ∧ x.measured_ok = true ∧ x.measured.Sound o.capability ∧
      x.elapsed_ms ≤ policy.request_timeout_ms
  | _ => x.sent = true

/-- The server can take the client's datagram: there is room for a greeting, and a request
or an observation comes while its deadline can be kept. -/
def LabWorld.Timely (host : LabHost) (me : SockAddr) (w : LabWorld) : LabStage → Prop
  | .hello => w.server.Welcomes host w.client.hello
  | .request => ¬0xFFFFFFFFFFFFFFFF - host.now w.server.net.reads <
      w.server.config.policy.request_timeout_ms.toUInt64
  | .observation => ∀ i, (w.server.slots i).used = true → (w.server.slots i).addr = me →
      host.now w.server.net.reads < (w.server.slots i).evidence.deadline
  | _ => True

/-- Nothing goes wrong around the client in this step. -/
def LabWorld.Calm (host : LabHost) (o : LabOptions) (me : SockAddr) (w : LabWorld) : LabAction → Prop
  | .send x =>
    match w.client.pc with
    | .ready stage => x.Fine o w.server.config.policy stage
    | _ => True
  | .hear => host.sendOk w.server.net.sends = true ∧
    match w.client.pc with
    | .awaiting stage _ => w.Timely host me stage
    | _ => True
  | .read => True
  | .giveUp => False
  | .serve a => a.Quiet host w.server me

instance {r : CapResult} {capability : UInt8} : Decidable (r.Sound capability) :=
  decidable_of_iff (r.error = 0 ∧ nonzero r.subject.toList = true ∧
      (capability = 1 → r.size = 4096 ∧ nonzero r.digest.toList = true) ∧
      (capability = 2 → r.process_id ≠ 0 ∧ r.generation ≠ 0))
    ⟨fun ⟨h₁, h₂, h₃, h₄⟩ => ⟨h₁, h₂, h₃, h₄⟩, fun ⟨h₁, h₂, h₃, h₄⟩ => ⟨h₁, h₂, h₃, h₄⟩⟩

instance {host : LabHost} {s : Server} {q : LabHello} : Decidable (s.Welcomes host q) :=
  decidable_of_iff (s.slots.usedCount < s.config.max_clients ∧
      (∀ i, (s.slots i).used = true → (s.slots i).cnonce ≠ q.nonce) ∧ (host.random s.net.draws).isSome = true)
    ⟨fun ⟨h₁, h₂, h₃⟩ => ⟨h₁, h₂, h₃⟩, fun ⟨h₁, h₂, h₃⟩ => ⟨h₁, h₂, h₃⟩⟩

instance {x : LabInput} {o : LabOptions} {policy : LabPolicy} : ∀ {stage}, Decidable (x.Fine o policy stage)
  | .hello => inferInstanceAs (Decidable (_ ∧ _))
  | .ping _ => inferInstanceAs (Decidable (_ ∧ _))
  | .observation => inferInstanceAs (Decidable (_ ∧ _ ∧ _ ∧ _))
  | .request => inferInstanceAs (Decidable (_ = _))
  | .bye => inferInstanceAs (Decidable (_ = _))

instance {host : LabHost} {me : SockAddr} {w : LabWorld} : ∀ {stage}, Decidable (w.Timely host me stage)
  | .hello => inferInstanceAs (Decidable (w.server.Welcomes host _))
  | .request => inferInstanceAs (Decidable ¬_)
  | .observation => inferInstanceAs (Decidable (∀ _i, _ → _ → _))
  | .ping _ => inferInstanceAs (Decidable True)
  | .bye => inferInstanceAs (Decidable True)

instance {host : LabHost} {s : Server} {me : SockAddr} : Decidable (s.Stale host me) :=
  inferInstanceAs (Decidable (∃ _i, _ ∧ _ ∧ _))

instance {host : LabHost} {s : Server} {me : SockAddr} : ∀ {a : LoopAction}, Decidable (a.Quiet host s me)
  | .poll _ => inferInstanceAs (Decidable (¬_ ∧ _))
  | .receive _ _ => inferInstanceAs (Decidable (_ ∧ _))
  | .drained => inferInstanceAs (Decidable True)
  | .receiveError => inferInstanceAs (Decidable False)
  | .leave _ => inferInstanceAs (Decidable False)

instance {host : LabHost} {o : LabOptions} {me : SockAddr} {w : LabWorld} : ∀ {a}, Decidable (w.Calm host o me a)
  | .send x =>
    match h : w.client.pc with
    | .ready stage => decidable_of_iff (x.Fine o w.server.config.policy stage) (by simp [LabWorld.Calm, h])
    | .awaiting _ _ => isTrue (by simp [LabWorld.Calm, h])
    | .ended _ => isTrue (by simp [LabWorld.Calm, h])
  | .hear =>
    match h : w.client.pc with
    | .awaiting stage _ =>
      decidable_of_iff (host.sendOk w.server.net.sends = true ∧ w.Timely host me stage) (by simp [LabWorld.Calm, h])
    | .ready _ => decidable_of_iff (host.sendOk w.server.net.sends = true) (by simp [LabWorld.Calm, h])
    | .ended _ => decidable_of_iff (host.sendOk w.server.net.sends = true) (by simp [LabWorld.Calm, h])
  | .read => isTrue trivial
  | .giveUp => isFalse id
  | .serve a => inferInstanceAs (Decidable (a.Quiet host w.server me))

def CalmStep (host : LabHost) (o : LabOptions) (me : SockAddr) (w : LabWorld) (a : LabAction) (w' : LabWorld) :
    Prop :=
  labNext host o me w a = some w' ∧ w.Calm host o me a

/-- The stages of a session with these options. -/
def LabStage.Of (o : LabOptions) : LabStage → Prop
  | .hello => True
  | .ping i => 1 ≤ i.toNat ∧ i.toNat ≤ o.count.toNat
  | .request => o.capability ≠ 0
  | .observation => o.capability ≠ 0
  | .bye => True

/-- What the peer's slot must hold before a stage. -/
def LabStage.Prepared (o : LabOptions) (request : LabRequest) (c : Client) : LabStage → Prop
  | .hello => False
  | .ping i => c.sequence.next = i ∧ c.evidence.pending = false ∧ c.evidence.last_request = 0
  | .request => c.sequence.next = o.count + 1 ∧ c.evidence.pending = false ∧ c.evidence.last_request = 0
  | .observation => c.sequence.next = o.count + 2 ∧ c.evidence.pending = true ∧ c.evidence.request = request
  | .bye => True

/-- Client and server agree on the session before a stage. -/
def LabWorld.Before (o : LabOptions) (me : SockAddr) (w : LabWorld) (stage : LabStage) : Prop :=
  stage.Of o ∧ (stage = .hello ∧ ¬w.server.slots.Seats me ∨
    ∃ c, w.server.slots.Holds me c ∧ c.session = w.client.ack.session ∧ c.cnonce = w.client.hello.nonce ∧
      stage.Prepared o (w.client.request o) c)

/-- Between two exchanges. -/
def LabWorld.Settled (o : LabOptions) (me : SockAddr) (w : LabWorld) : Prop :=
  w.uplink = none ∧ (w.server.net.repliesTo me).length = w.seen ∧
    ((∃ stage, w.client.pc = .ready stage ∧ w.Before o me stage) ∨
      w.client.pc = .ended true ∧ ¬w.server.slots.Seats me)

/-- The message that the client sent at this stage. -/
def LabClient.Asked (o : LabOptions) (policy : LabPolicy) (c : LabClient) (stage : LabStage) (sent : Payload) : Prop :=
  ∃ x : LabInput, x.Fine o policy stage ∧ c.message o x stage = some sent ∧ c.keep sent = c

/-- The client's datagram is on its way to the server. -/
def LabWorld.Asking (o : LabOptions) (me : SockAddr) (w : LabWorld) : Prop :=
  ∃ stage sent, w.client.pc = .awaiting stage sent ∧
    w.client.Asked o w.server.config.policy stage sent ∧
    w.uplink = some (sent.datagram (o.sequence stage)) ∧
    (w.server.net.repliesTo me).length = w.seen ∧ w.Before o me stage

/-- The server's answer is on its way to the client. -/
def LabWorld.Replied (o : LabOptions) (me : SockAddr) (w : LabWorld) : Prop :=
  ∃ stage sent d, w.client.pc = .awaiting stage sent ∧ stage.Of o ∧ w.uplink = none ∧
    (w.server.net.repliesTo me).drop w.seen = [d] ∧ (w.server.net.repliesTo me).length = w.seen + 1 ∧
    LabWorld.Settled o me
      { w with client := w.client.read o stage sent d, seen := w.seen + 1 } ∧
    (w.client.read o stage sent d).pc = o.after stage

/-- The server's answer is on its way, and the server goes on. -/
def LabWorld.Heard (o : LabOptions) (me : SockAddr) (w : LabWorld) : Prop :=
  w.Replied o me ∧ w.server.net.running = true

structure LabWorld.Agreed (o : LabOptions) (me : SockAddr) (w : LabWorld) : Prop where
  inv : SlotInv w.server
  running : w.server.net.running = true
  looping : w.loop ≠ .ended
  admits : o.capability ≠ 0 → w.server.config.policy.Admits originLinux o.capability
  phase : w.Settled o me ∨ w.Asking o me ∨ w.Replied o me

end ArenaLab
