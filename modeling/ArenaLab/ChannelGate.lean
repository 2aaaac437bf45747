import ArenaLab.ChannelWork

/-! A channel against its own history: what was announced, acknowledged and closed in it. -/

namespace ArenaLab

def RelayEvent.opening (c : HexStr 32) : RelayEvent → Option ℕ
  | .opened d request => if d = c then some request else none
  | _ => none

def RelayEvent.acceptance (c : HexStr 32) : RelayEvent → Option (ℕ × Address)
  | .accepted d request origin _ => if d = c then some (request, origin) else none
  | _ => none

/-- The requests under which the channel was announced. -/
def openedIn (c : HexStr 32) (τ : List RelayEvent) : List ℕ := τ.filterMap (RelayEvent.opening c)

/-- The acknowledgements of the channel that were accepted. -/
def acceptedIn (c : HexStr 32) (τ : List RelayEvent) : List (ℕ × Address) := τ.filterMap (RelayEvent.acceptance c)

section

variable {τ : List RelayEvent} {e : RelayEvent} {c d : HexStr 32} {r : ℕ} {address : Address}

theorem openedIn_snoc (c : HexStr 32) (τ : List RelayEvent) (e : RelayEvent) :
    openedIn c (τ ++ [e]) = openedIn c τ ++ (e.opening c).toList := by
  cases he : e.opening c <;> simp [openedIn, he]

theorem acceptedIn_snoc (c : HexStr 32) (τ : List RelayEvent) (e : RelayEvent) :
    acceptedIn c (τ ++ [e]) = acceptedIn c τ ++ (e.acceptance c).toList := by
  cases he : e.acceptance c <;> simp [acceptedIn, he]

theorem mem_openedIn : r ∈ openedIn c τ ↔ .opened c r ∈ τ := by
  simp only [openedIn, List.mem_filterMap]
  constructor
  · rintro ⟨e, he, hr⟩
    cases e with
    | opened d request =>
      simp only [RelayEvent.opening] at hr
      split at hr
      · rename_i hd
        cases hr
        rw [← hd]
        exact he
      · cases hr
    | _ => cases hr
  · intro h
    exact ⟨_, h, by simp [RelayEvent.opening]⟩

theorem mem_acceptedIn : (r, address) ∈ acceptedIn c τ ↔ ∃ body, .accepted c r address body ∈ τ := by
  simp only [acceptedIn, List.mem_filterMap]
  constructor
  · rintro ⟨e, he, hr⟩
    cases e with
    | accepted d request origin body =>
      simp only [RelayEvent.acceptance] at hr
      split at hr
      · rename_i hd
        cases hr
        rw [← hd]
        exact ⟨body, he⟩
      · cases hr
    | _ => cases hr
  · rintro ⟨body, h⟩
    exact ⟨_, h, by simp [RelayEvent.acceptance]⟩

end

/-- The channel whose gate an event is about. -/
def RelayEvent.subject : RelayEvent → Option (HexStr 32)
  | .opened c _ => some c
  | .accepted c _ _ _ => some c
  | .closed c => some c
  | _ => none

/-- The body of a `ROUTE_ACK` names the channel, its announcement and the address that is fixed. -/
def AckNames (role : GatewayRole) (c : HexStr 32) (request : ℕ) (address : Address) (body : Dict) : Prop :=
  body.get "channel_id" = some (.str c.text) ∧ body.get "route_request_id" = some (.int request) ∧
    match role with
    | .server game_port => address = ("127.0.0.1", game_port)
    | .client => ∃ port : ℕ, 1 ≤ port ∧ port ≤ 65535 ∧ body.get "client_port" = some (.int port) ∧
      address = ("127.0.0.1", port)

/-- What a channel knows of its own history. -/
structure LinkInv (role : GatewayRole) (τ : List RelayEvent) (c : HexStr 32) (l : Link) : Prop where
  opened : openedIn c τ = if l.stage = .opening then [] else [l.route_request]
  accepted : acceptedIn c τ = if l.ack then (l.origin.map (Prod.mk l.route_request)).toList else []
  origin : l.ack = true → l.origin.isSome = true
  closed : .closed c ∈ τ → l.closed = true
  gate : l.works = true → l.ack = true
  fresh : l.stage = .opening → l.ack = false ∧ l.route_request = 0
  idle : l.ack = false → l.outgoing = []
  home : ∀ port, role = .server port → l.origin = some ("127.0.0.1", port)
  filtered : ∀ d, .datagram d ∈ l.outgoing → l.origin = some d.sender

/-- One step of a channel. -/
inductive LinkChange (role : GatewayRole) (c : HexStr 32) (l : Link) : RelayEvent → Link → Prop
  | opened {r : ℕ} (hstage : l.stage = .opening) :
      LinkChange role c l (.opened c r) { l with route_request := r, stage := .advertised }
  | accepted {address : Address} {body : Dict} {o : Option Address} (hack : l.ack = false) (hopen : l.closed = false)
      (hrequest : l.route_request ≠ 0) (hnames : AckNames role c l.route_request address body)
      (ho : (role = .client ∧ o = some address) ∨
        ∃ port, role = .server port ∧ o = l.origin ∧ address = ("127.0.0.1", port)) :
      LinkChange role c l (.accepted c l.route_request address body) { l with origin := o, ack := true }
  | unconnected {address : Address} (hack : l.ack = false) (hrole : role = .client) :
      LinkChange role c l (.unconnected c) { l with origin := some address }
  | closed : LinkChange role c l (.closed c) { l with closed := true }
  | started (hack : l.ack = true) (hopen : l.closed = false) (hstage : l.stage = .advertised) :
      LinkChange role c l .quiet { l with stage := .forwarding }
  | resumed (outlives : Worker → Bool) (hworks : l.works = true) :
      LinkChange role c l (.resumed c (l.cancel outlives).left) (l.cancel outlives)
  | arrived (d : Datagram) : LinkChange role c l .quiet { l with socket := l.socket ++ [d] }
  | worked {a : WorkerAction} {e : WorkerEvent} {l' : Link} (hworks : l.works = true)
      (hw : workerNext l a = some (e, l')) : LinkChange role c l (e.on c) l'

section

variable {role : GatewayRole} {τ : List RelayEvent} {e : RelayEvent} {c d : HexStr 32} {l l' : Link}

theorem opening_of_subject (h : e.subject ≠ some c) : e.opening c = none := by
  cases e with
  | opened d request =>
    have hne : d ≠ c := by
      rintro rfl
      exact h rfl
    simp [RelayEvent.opening, hne]
  | _ => rfl

theorem acceptance_of_subject (h : e.subject ≠ some c) : e.acceptance c = none := by
  cases e with
  | accepted d request origin body =>
    have hne : d ≠ c := by
      rintro rfl
      exact h rfl
    simp [RelayEvent.acceptance, hne]
  | _ => rfl

theorem openedIn_frame (h : e.subject ≠ some c) : openedIn c (τ ++ [e]) = openedIn c τ := by
  rw [openedIn_snoc, opening_of_subject h]
  exact List.append_nil _

theorem acceptedIn_frame (h : e.subject ≠ some c) : acceptedIn c (τ ++ [e]) = acceptedIn c τ := by
  rw [acceptedIn_snoc, acceptance_of_subject h]
  exact List.append_nil _

theorem closed_frame (h : e.subject ≠ some c) (hc : .closed c ∈ τ ++ [e]) : .closed c ∈ τ := by
  rcases List.mem_append.mp hc with hc | hc
  · exact hc
  · rw [← List.mem_singleton.mp hc] at h
    exact absurd rfl h

theorem LinkInv.frame (h : LinkInv role τ c l) (he : e.subject ≠ some c) : LinkInv role (τ ++ [e]) c l where
  opened := (openedIn_frame he).trans h.opened
  accepted := (acceptedIn_frame he).trans h.accepted
  origin := h.origin
  closed := fun hc => h.closed (closed_frame he hc)
  gate := h.gate
  fresh := h.fresh
  idle := h.idle
  home := h.home
  filtered := h.filtered

theorem subject_on (e : WorkerEvent) (c d : HexStr 32) : (e.on c).subject ≠ some d := by
  cases e <;> simp [WorkerEvent.on, RelayEvent.subject]

theorem LinkInv.worked {e : WorkerEvent} (h : LinkInv role τ c l) (hworks : l.works = true)
    (hw : Worked l e l') : LinkInv role τ c l' := by
  have hack := h.gate hworks
  have hne : l'.stage ≠ .opening := by
    rcases hw.stage with ⟨hs, -⟩ | ⟨hs, -⟩
    · rw [hs]
      exact opened_of_works hworks
    · rw [hs]
      simp
  constructor
  · rw [h.opened, if_neg hne, if_neg (opened_of_works hworks), hw.request]
  · rw [hw.ack, hw.origin, hw.request]
    exact h.accepted
  · rw [hw.ack, hw.origin]
    exact h.origin
  · rw [hw.closed]
    exact h.closed
  · intro _
    rw [hw.ack]
    exact hack
  · intro hf
    exact absurd hf hne
  · rw [hw.ack, hack]
    intro hf
    cases hf
  · rw [hw.origin]
    exact h.home
  · intro d hd
    rw [hw.origin]
    rcases hw.queued d hd with hd | hd
    · exact h.filtered d hd
    · exact hd

theorem LinkInv.accept {address : Address} {body : Dict} {o : Option Address} (h : LinkInv role τ c l)
    (hack : l.ack = false)
    (hrequest : l.route_request ≠ 0) (ho : o = some address)
    (hhome : ∀ port, role = .server port → o = some ("127.0.0.1", port)) :
    LinkInv role (τ ++ [.accepted c l.route_request address body]) c { l with origin := o, ack := true } := by
  have hstage : l.stage ≠ .opening := fun hs => hrequest (h.fresh hs).2
  have hopened : openedIn c (τ ++ [.accepted c l.route_request address body]) = openedIn c τ := by
    rw [openedIn_snoc]
    exact List.append_nil _
  have haccepted : acceptedIn c (τ ++ [.accepted c l.route_request address body]) = [(l.route_request, address)] := by
    have hnone := h.accepted
    rw [hack] at hnone
    rw [acceptedIn_snoc, hnone]
    simp [RelayEvent.acceptance]
  constructor
  · rw [hopened]
    exact h.opened
  · rw [haccepted, ho]
    rfl
  · intro _
    rw [ho]
    rfl
  · intro hc
    simp only [List.mem_append, List.mem_singleton, reduceCtorEq, or_false] at hc
    exact h.closed hc
  · intro _
    rfl
  · intro hs
    exact absurd hs hstage
  · intro hf
    cases hf
  · exact hhome
  · intro d hd
    rw [h.idle hack] at hd
    cases hd

theorem LinkInv.step (h : LinkInv role τ c l) (hc : LinkChange role c l e l') : LinkInv role (τ ++ [e]) c l' := by
  cases hc with
  | @opened r hstage =>
    obtain ⟨hack, -⟩ := h.fresh hstage
    have hnone := h.opened
    rw [hstage, if_pos rfl] at hnone
    constructor
    · rw [openedIn_snoc, hnone]
      simp [RelayEvent.opening]
    · rw [acceptedIn_snoc, h.accepted, hack]
      rfl
    · exact h.origin
    · intro hc
      simp only [List.mem_append, List.mem_singleton, reduceCtorEq, or_false] at hc
      exact h.closed hc
    · intro hf
      cases hf
    · intro hf
      cases hf
    · exact h.idle
    · exact h.home
    · exact h.filtered
  | accepted hack hopen hrequest _ ho =>
    rcases ho with ⟨hrole, rfl⟩ | ⟨port, hrole, rfl, rfl⟩
    · refine h.accept hack hrequest rfl ?_
      intro port hserver
      rw [hrole] at hserver
      cases hserver
    · exact h.accept hack hrequest (h.home port hrole) h.home
  | @unconnected address hack hrole =>
    have hi := h.frame (e := .unconnected c) (by simp [RelayEvent.subject])
    constructor
    · exact hi.opened
    · have hnone := hi.accepted
      rw [hack] at hnone
      rw [hack, hnone]
      rfl
    · intro _
      rfl
    · exact hi.closed
    · exact hi.gate
    · exact hi.fresh
    · exact hi.idle
    · intro port hserver
      rw [hrole] at hserver
      cases hserver
    · intro d hd
      rw [hi.idle hack] at hd
      cases hd
  | closed =>
    constructor
    · rw [openedIn_snoc]
      exact (List.append_nil _).trans h.opened
    · rw [acceptedIn_snoc]
      exact (List.append_nil _).trans h.accepted
    · exact h.origin
    · intro _
      rfl
    · exact h.gate
    · exact h.fresh
    · exact h.idle
    · exact h.home
    · exact h.filtered
  | started hack _ hstage =>
    have hi := h.frame (e := .quiet) (by simp [RelayEvent.subject])
    have hopened := hi.opened
    rw [hstage] at hopened
    exact ⟨hopened, hi.accepted, hi.origin, hi.closed, fun _ => hack, fun hf => (by cases hf), hi.idle, hi.home,
      hi.filtered⟩
  | resumed outlives hworks =>
    have hi := h.frame (e := .resumed c (l.cancel outlives).left) (by simp [RelayEvent.subject])
    have hopened := hi.opened
    rw [if_neg (opened_of_works hworks)] at hopened
    exact ⟨hopened, hi.accepted, hi.origin, hi.closed, fun _ => h.gate hworks, fun hf => (by cases hf), hi.idle,
      hi.home, hi.filtered⟩
  | arrived d =>
    have hi := h.frame (e := .quiet) (by simp [RelayEvent.subject])
    exact ⟨hi.opened, hi.accepted, hi.origin, hi.closed, hi.gate, hi.fresh, hi.idle, hi.home, hi.filtered⟩
  | worked hworks hw => exact (h.worked hworks (workerNext_worked hw)).frame (subject_on _ c c)

theorem linkInv_new (hopened : openedIn c τ = []) (haccepted : acceptedIn c τ = []) (hclosed : .closed c ∉ τ) :
    LinkInv role τ c (.new role) where
  opened := hopened
  accepted := haccepted
  origin := fun hf => (by cases hf)
  closed := fun hf => absurd hf hclosed
  gate := fun hf => (by cases hf)
  fresh := fun _ => ⟨rfl, rfl⟩
  idle := fun _ => rfl
  home := by
    rintro port rfl
    rfl
  filtered := by simp [Link.new]

/-- The subject of a step of a channel is this channel. -/
theorem LinkChange.subject (h : LinkChange role c l e l') (hd : e.subject = some d) : d = c := by
  cases h with
  | worked hstage hw => exact absurd hd (subject_on _ c d)
  | opened hstage => exact (Option.some.inj hd).symm
  | accepted => exact (Option.some.inj hd).symm
  | closed => exact (Option.some.inj hd).symm
  | unconnected hack hrole => cases hd
  | started hack hopen hstage => cases hd
  | resumed outlives hworks => cases hd
  | arrived x => cases hd

end

end ArenaLab
