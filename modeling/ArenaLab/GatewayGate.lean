import ArenaLab.RelayBooks

/-! No datagram passes before the acknowledgement of its channel, and none from a stranger. -/

namespace ArenaLab

section

variable {role : GatewayRole} {τ : List RelayEvent} {e : RelayEvent} {c d : HexStr 32} {l l' : Link} {s s' : Relay}

/-- A datagram only passes on a channel whose gate has been opened. -/
theorem RelayInv.passes (h : RelayInv role τ s) (hc : s.links.lookup c = some l) (hworks : l.works = true) :
    ∃ address body, l.origin = some address ∧ .opened c l.route_request ∈ τ ∧
      .accepted c l.route_request address body ∈ τ := by
  have hi := h.link c l hc
  have hack := hi.gate hworks
  obtain ⟨address, haddress⟩ := Option.isSome_iff_exists.mp (hi.origin hack)
  have haccepted : (l.route_request, address) ∈ acceptedIn c τ := by
    rw [hi.accepted, hack, haddress]
    simp
  obtain ⟨body, hbody⟩ := mem_acceptedIn.mp haccepted
  refine ⟨address, body, haddress, ?_, hbody⟩
  rw [← mem_openedIn, hi.opened, if_neg (opened_of_works hworks)]
  exact List.mem_singleton_self _

theorem wroteTls_change {x : Datagram} (h : RelayChange role s (.wroteTls c x) s') :
    ∃ l, s.links.lookup c = some l ∧ l.works = true ∧ l.alive .tlsWriter = true ∧ .datagram x ∈ l.outgoing := by
  cases h with
  | same he => rcases he with he | he <;> cases he
  | moved hc hl _ _ _ _ =>
    generalize he : RelayEvent.wroteTls c x = e at hl
    cases hl with
    | @worked a ev l' hworks hw =>
      cases ev with
      | wrote y =>
        cases he
        exact ⟨_, hc, hworks, (workerNext_worked hw).wrote _ rfl⟩
      | _ => cases he
    | _ => cases he

theorem sentUdp_change {data : List UInt8} (h : RelayChange role s (.sentUdp c data) s') :
    ∃ l, s.links.lookup c = some l ∧ l.works = true ∧ l.alive .udpWriter = true := by
  cases h with
  | same he => rcases he with he | he <;> cases he
  | moved hc hl _ _ _ _ =>
    generalize he : RelayEvent.sentUdp c data = e at hl
    cases hl with
    | @worked a ev l' hworks hw =>
      cases ev with
      | sent y =>
        cases he
        exact ⟨_, hc, hworks, (workerNext_worked hw).sent _ rfl⟩
      | _ => cases he
    | _ => cases he

theorem accepted_change {request : ℕ} {address : Address} {body : Dict}
    (h : RelayChange role s (.accepted c request address body) s') :
    ∃ l, s.links.lookup c = some l ∧ l.ack = false ∧ l.closed = false ∧ l.route_request = request ∧ request ≠ 0 ∧
      s.commands = true ∧ AckNames role c request address body := by
  cases h with
  | same he => rcases he with he | he <;> cases he
  | moved hc hl _ _ _ hheard =>
    have hcommands := hheard _ _ _ _ rfl
    generalize he : RelayEvent.accepted c request address body = e at hl
    cases hl with
    | accepted hack hopen hrequest hnames ho =>
      cases he
      exact ⟨_, hc, hack, hopen, rfl, hrequest, hcommands, hnames⟩
    | @worked a ev l' hworks hw => cases ev <;> cases he
    | _ => cases he

theorem named_of_run (hr : Runs.Steps (RelayStep role) .boot τ s) {request : ℕ} {address : Address} {body : Dict}
    (h : .accepted c request address body ∈ τ) : AckNames role c request address body := by
  refine hr.history (I := fun τ _ => .accepted c request address body ∈ τ → AckNames role c request address body)
    (fun hf => absurd hf List.not_mem_nil) ?_ h
  rintro τ t e u - ih ⟨a, ha⟩ hmem
  rcases List.mem_append.mp hmem with hmem | hmem
  · exact ih hmem
  · obtain rfl := List.mem_singleton.mp hmem
    obtain ⟨-, -, -, -, -, -, -, hnames⟩ := accepted_change (relayNext_change ha)
    exact hnames

theorem opened_change {request : ℕ} (h : RelayChange role s (.opened c request) s') :
    ∃ l, s.links.lookup c = some l ∧ l.stage = .opening := by
  cases h with
  | same he => rcases he with he | he <;> cases he
  | moved hc hl _ _ _ _ =>
    generalize he : RelayEvent.opened c request = e at hl
    cases hl with
    | opened hstage =>
      cases he
      exact ⟨_, hc, hstage⟩
    | @worked a ev l' hstage hw => cases ev <;> cases he
    | _ => cases he

theorem raised_change (h : RelayChange role s .raised s') : s'.links = s.links := by
  cases h with
  | same _ hlinks _ _ => exact hlinks
  | moved hc hl _ _ _ _ =>
    generalize he : RelayEvent.raised = e at hl
    cases hl with
    | @worked a ev l' hstage hw => cases ev <;> cases he
    | _ => cases he

theorem unconnected_change (h : RelayChange role s (.unconnected c) s') (d : HexStr 32) :
    (s'.links.lookup d).map Link.ack = (s.links.lookup d).map Link.ack := by
  cases h with
  | same he => rcases he with he | he <;> cases he
  | moved hc hl hlinks _ _ _ =>
    generalize he : RelayEvent.unconnected c = e at hl
    cases hl with
    | unconnected hack hrole =>
      cases he
      rw [hlinks]
      by_cases heq : d = c
      · subst heq
        rw [AList.lookup_insert, hc]
        rfl
      · rw [AList.lookup_insert_ne heq]
    | @worked a ev l' hstage hw => cases ev <;> cases he
    | _ => cases he

/-- In every state that a run reaches, for its next step: a datagram passes only on a channel that
was announced and whose own acknowledgement was accepted, one that names the channel, the
announcement and, at the client, the port of the origin, and to the tunnel only from the origin
that was fixed then; an acknowledgement is accepted once, after the announcement that it names and
before the channel is closed or retired; a command that raises changes no channel, and where only
the system's `connect` fails the gate stays shut. -/
theorem ack_gate (hr : Runs.Steps (RelayStep role) .boot τ s) (hs : RelayStep role s e s') :
    (∀ c x, e = .wroteTls c x → ∃ request body, .opened c request ∈ τ ∧ .accepted c request x.sender body ∈ τ ∧
      AckNames role c request x.sender body) ∧
    (∀ c data, e = .sentUdp c data → ∃ request address body, .opened c request ∈ τ ∧
      .accepted c request address body ∈ τ ∧ AckNames role c request address body) ∧
    (∀ c request address body, e = .accepted c request address body →
      AckNames role c request address body ∧ .opened c request ∈ τ ∧
      (∀ request' address' body', .accepted c request' address' body' ∉ τ) ∧
      .closed c ∉ τ ∧ .retired c ∉ τ ∧ .stopped ∉ τ) ∧
    (∀ c request, e = .opened c request → ∀ request', .opened c request' ∉ τ) ∧
    (e = .raised → s'.links = s.links) ∧
    (∀ c, e = .unconnected c → ∀ d, (s'.links.lookup d).map Link.ack = (s.links.lookup d).map Link.ack) := by
  have hi := relayInv_of_run hr
  obtain ⟨a, ha⟩ := hs
  have hc := relayNext_change ha
  refine ⟨?_, ?_, ?_, ?_, ?_, ?_⟩
  · rintro c x rfl
    obtain ⟨l, hl, hworks, -, hx⟩ := wroteTls_change hc
    obtain ⟨address, body, haddress, hopened, haccepted⟩ := hi.passes hl hworks
    have hsender := (hi.link c l hl).filtered x hx
    rw [haddress, Option.some.injEq] at hsender
    rw [hsender] at haccepted
    exact ⟨_, body, hopened, haccepted, named_of_run hr haccepted⟩
  · rintro c data rfl
    obtain ⟨l, hl, hworks, -⟩ := sentUdp_change hc
    obtain ⟨address, body, -, hopened, haccepted⟩ := hi.passes hl hworks
    exact ⟨_, address, body, hopened, haccepted, named_of_run hr haccepted⟩
  · rintro c request address body rfl
    obtain ⟨l, hl, hack, hclosed, rfl, hrequest, hcommands, hnames⟩ := accepted_change hc
    have hlink := hi.link c l hl
    refine ⟨hnames, ?_, ?_, ?_, ?_, ?_⟩
    · rw [← mem_openedIn, hlink.opened, if_neg fun hf => hrequest (hlink.fresh hf).2]
      exact List.mem_singleton_self _
    · intro request' address' body' hf
      have hmem := mem_acceptedIn.mpr ⟨body', hf⟩
      rw [hlink.accepted, hack] at hmem
      cases hmem
    · intro hf
      rw [hlink.closed hf] at hclosed
      cases hclosed
    · intro hf
      exact hi.apart c (AList.mem_of_lookup hl) (hi.retired c hf)
    · intro hf
      rw [hi.stopped hf] at hcommands
      cases hcommands
  · rintro c request rfl request' hf
    obtain ⟨l, hl, hstage⟩ := opened_change hc
    rw [← mem_openedIn, (hi.link c l hl).opened, hstage] at hf
    cases hf
  · rintro rfl
    exact raised_change hc
  · rintro c rfl
    exact unconnected_change hc

end

def gateName : HexStr 32 := countingHost.tokenHex 0 16

def gateProbe : Datagram := ⟨[1], ("127.0.0.1", 7777)⟩

def gateAck : Dict := [("channel_id", .str gateName.text), ("route_request_id", .int 1)]

/-- A channel is opened and acknowledged, and a datagram of the game is queued for the tunnel. -/
def gateActions : List RelayAction :=
  [.create gateName, .advertise gateName true true, .command "ROUTE_ACK" gateAck true, .acked gateName true,
    .arrive gateName gateProbe, .work gateName .receive, .work gateName (.filter false)]

def gateEvents : List RelayEvent :=
  [.quiet, .opened gateName 1, .accepted gateName 1 ("127.0.0.1", 7777) gateAck, .quiet, .quiet, .quiet, .quiet]

theorem ack_gate_forwards : ∃ τ s s', Runs.Steps (RelayStep (.server 7777)) .boot τ s ∧
    RelayStep (.server 7777) s (.wroteTls gateName gateProbe) s' ∧
    ∃ request body, .opened gateName request ∈ τ ∧ .accepted gateName request gateProbe.sender body ∈ τ ∧
      AckNames (.server 7777) gateName request gateProbe.sender body := by
  obtain ⟨s', he⟩ : ∃ s', Runs.exec (relayNext (.server 7777)) .boot (gateActions ++ [.work gateName (.write false)]) =
      some (gateEvents ++ [.wroteTls gateName gateProbe], s') := ⟨_, rfl⟩
  obtain ⟨s, hr, hs⟩ := (Runs.exec_steps he).of_snoc
  exact ⟨_, s, s', hr, hs, (ack_gate hr hs).1 _ _ rfl⟩

end ArenaLab
