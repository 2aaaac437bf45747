import ArenaLab.TunnelPair

/-! The way out of a channel, from its socket to the connection, under the steps of its workers. -/

namespace ArenaLab

def TunnelFrame.datagram? : TunnelFrame → Option Datagram
  | .datagram d => some d
  | .heartbeat => none

def datagrams (fs : List TunnelFrame) : List Datagram := fs.filterMap TunnelFrame.datagram?

def Link.fits (l : Link) (d : Datagram) : Bool := decide (l.origin = some d.sender)

/-- From the socket to the connection: `taken` is what `udp_reader` has looked at. -/
structure Outflow (l : Link) (arrived : List Datagram) (wrote : List TunnelFrame) (taken : List Datagram) :
    Prop where
  arrived : arrived = taken ++ l.received.toList ++ l.socket
  idle : l.ack = false → taken = [] ∧ l.received = none ∧ l.outgoing = [] ∧ wrote = []
  inOrder : datagrams wrote <+: taken.filter l.fits
  queued : l.alive .tlsWriter = true → datagrams (wrote ++ l.outgoing) <+: taken.filter l.fits
  whole : l.alive .tlsWriter = true → l.alive .udpReader = true →
    datagrams (wrote ++ l.outgoing) = taken.filter l.fits
  sizes : ∀ d ∈ datagrams (wrote ++ l.outgoing), 1 ≤ d.data.length ∧ d.data.length ≤ 4096

section

variable {l l' : Link} {arrived taken : List Datagram} {wrote : List TunnelFrame}
  {a : WorkerAction} {e : WorkerEvent} {d : Datagram}

theorem datagrams_append (fs gs : List TunnelFrame) : datagrams (fs ++ gs) = datagrams fs ++ datagrams gs :=
  List.filterMap_append

/-- A step that leaves the way out alone. -/
theorem Outflow.congr (h : Outflow l arrived wrote taken) (hack : l'.ack = true) (hsocket : l'.socket = l.socket)
    (hreceived : l'.received = l.received) (hout : datagrams l'.outgoing = datagrams l.outgoing)
    (horigin : l'.origin = l.origin) (halive : ∀ w, l'.alive w = true → l.alive w = true) :
    Outflow l' arrived wrote taken := by
  have hfits : l'.fits = l.fits := by
    funext d
    rw [Link.fits, Link.fits, horigin]
  have hboth : datagrams (wrote ++ l'.outgoing) = datagrams (wrote ++ l.outgoing) := by
    rw [datagrams_append, datagrams_append, hout]
  refine ⟨?_, ?_, ?_, ?_, ?_, ?_⟩
  · rw [hsocket, hreceived]
    exact h.arrived
  · intro hf
    rw [hack] at hf
    cases hf
  · rw [hfits]
    exact h.inOrder
  · intro hw
    rw [hfits, hboth]
    exact h.queued (halive _ hw)
  · intro hw hr
    rw [hfits, hboth]
    exact h.whole (halive _ hw) (halive _ hr)
  · rw [hboth]
    exact h.sizes

theorem Outflow.die (h : Outflow l arrived wrote taken) (hack : l.ack = true) (w : Worker) :
    Outflow (l.die w) arrived wrote taken :=
  h.congr hack rfl rfl rfl rfl (fun _ hx => (alive_die hx).1)

/-- A datagram that `udp_reader` gives up on is the last that it takes. -/
theorem Outflow.refuse (h : Outflow l arrived wrote taken) (hack : l.ack = true) (hd : l.received = some d) :
    Outflow ({ l with received := none }.die .udpReader) arrived wrote (taken ++ [d]) := by
  have hfits : ({ l with received := none }.die .udpReader).fits = l.fits := rfl
  have hmore : taken.filter l.fits <+: (taken ++ [d]).filter l.fits := by
    rw [List.filter_append]
    exact List.prefix_append _ _
  refine ⟨?_, ?_, ?_, ?_, ?_, h.sizes⟩
  · rw [h.arrived, hd]
    simp [Link.die]
  · intro hf
    have hack' : ({ l with received := none }.die .udpReader).ack = true := hack
    rw [hack'] at hf
    cases hf
  · rw [hfits]
    exact h.inOrder.trans hmore
  · intro hw
    rw [hfits]
    exact (h.queued (alive_die hw).1).trans hmore
  · intro _ hr
    exact absurd rfl (alive_die hr).2

theorem Outflow.filter (h : Outflow l arrived wrote taken) (hack : l.ack = true) (hd : l.received = some d)
    (halive : l.alive .udpReader = true) (limited : Bool) :
    ∃ taken', Outflow ({ l with received := none }.filter d limited) arrived wrote taken' := by
  have hrefuse := h.refuse hack hd
  have harrived : arrived = (taken ++ [d]) ++ (none : Option Datagram).toList ++ l.socket := by
    rw [h.arrived, hd]
    simp
  unfold Link.filter
  split
  · exact ⟨_, hrefuse⟩
  split
  · rename_i hforeign
    have hdrop : (taken ++ [d]).filter l.fits = taken.filter l.fits := by
      have hno : l.fits d = false := decide_eq_false hforeign
      rw [List.filter_append, List.filter_singleton, hno]
      exact List.append_nil _
    refine ⟨taken ++ [d], harrived, ?_, ?_, ?_, ?_, h.sizes⟩
    · intro hf
      rw [show ({ l with received := none } : Link).ack = true from hack] at hf
      cases hf
    · exact hdrop ▸ h.inOrder
    · exact fun hw => hdrop ▸ h.queued hw
    · exact fun hw hr => hdrop ▸ h.whole hw hr
  rename_i horigin
  rw [not_not] at horigin
  split
  · exact ⟨_, hrefuse⟩
  rename_i hsize
  split
  · have hkeep : (taken ++ [d]).filter l.fits = taken.filter l.fits ++ [d] := by
      have hyes : l.fits d = true := decide_eq_true horigin
      rw [List.filter_append, List.filter_singleton, hyes]
      rfl
    have hout : datagrams (wrote ++ (l.outgoing ++ [.datagram d])) = datagrams (wrote ++ l.outgoing) ++ [d] := by
      rw [← List.append_assoc, datagrams_append]
      rfl
    refine ⟨taken ++ [d], harrived, ?_, ?_, ?_, ?_, ?_⟩
    · intro hf
      rw [show ({ l with received := none, outgoing := l.outgoing ++ [.datagram d] } : Link).ack = true from hack] at hf
      cases hf
    · show datagrams wrote <+: (taken ++ [d]).filter l.fits
      rw [hkeep]
      exact h.inOrder.trans (List.prefix_append _ _)
    · intro hw
      show datagrams (wrote ++ (l.outgoing ++ [.datagram d])) <+: (taken ++ [d]).filter l.fits
      rw [hout, hkeep, h.whole hw halive]
    · intro hw _
      show datagrams (wrote ++ (l.outgoing ++ [.datagram d])) = (taken ++ [d]).filter l.fits
      rw [hout, hkeep, h.whole hw halive]
    · intro x hx
      rw [show datagrams (wrote ++ (l.outgoing ++ [.datagram d])) = datagrams (wrote ++ l.outgoing) ++ [d] from hout,
        List.mem_append, List.mem_singleton] at hx
      rcases hx with hx | rfl
      · exact h.sizes x hx
      · omega
  · exact ⟨_, hrefuse⟩

theorem Outflow.work (h : Outflow l arrived wrote taken) (hack : l.ack = true) (hw : workerNext l a = some (e, l')) :
    ∃ taken', Outflow l' arrived (wrote ++ a.written l) taken' := by
  have hack' : l'.ack = true := (workerNext_worked hw).ack.trans hack
  cases a with
  | receive =>
    simp only [workerNext] at hw
    split at hw <;> cases hw
    rename_i d rest hr hnone hsocket
    refine ⟨taken, ?_⟩
    rw [show WorkerAction.written l .receive = [] from rfl, List.append_nil]
    refine ⟨?_, ?_, h.inOrder, h.queued, h.whole, h.sizes⟩
    · rw [h.arrived, hnone, hsocket]
      simp
    · intro hf
      rw [hack'] at hf
      cases hf
  | filter limited =>
    simp only [workerNext] at hw
    split at hw
    · rename_i d hr hd
      cases hw
      rw [show WorkerAction.written l (.filter limited) = [] from rfl, List.append_nil]
      exact h.filter hack hd hr limited
    · cases hw
  | write expired =>
    simp only [workerNext] at hw
    split at hw
    · rename_i f rest hgood hq
      rw [Bool.and_eq_true] at hgood
      have hr := hgood.1
      cases expired with
      | true =>
        cases hw
        rw [show WorkerAction.written l (.write true) = [] from rfl, List.append_nil]
        refine ⟨taken, h.arrived, ?_, h.inOrder, ?_, ?_, ?_⟩
        · intro hf
          rw [hack'] at hf
          cases hf
        · exact fun hf => absurd rfl (alive_die hf).2
        · exact fun hf _ => absurd rfl (alive_die hf).2
        · intro d hd
          refine h.sizes d ?_
          rw [hq, show f :: rest = [f] ++ rest from rfl]
          change d ∈ datagrams (wrote ++ rest) at hd
          rw [datagrams_append, List.mem_append] at hd
          rw [datagrams_append, datagrams_append, List.mem_append, List.mem_append]
          exact hd.imp_right .inr
      | false =>
        cases hw
        have hsame : wrote ++ [f] ++ rest = wrote ++ l.outgoing := by
          rw [hq, List.append_assoc]
          rfl
        rw [show WorkerAction.written l (.write false) = [f] by rw [WorkerAction.written, hq]; rfl]
        have hq' := h.queued hr
        refine ⟨taken, h.arrived, ?_, ?_, ?_, ?_, ?_⟩
        · intro hf
          rw [hack'] at hf
          cases hf
        · show datagrams (wrote ++ [f]) <+: taken.filter l.fits
          refine List.IsPrefix.trans ?_ hq'
          rw [← hsame, datagrams_append (wrote ++ [f])]
          exact List.prefix_append _ _
        · intro _
          show datagrams (wrote ++ [f] ++ rest) <+: taken.filter l.fits
          rw [hsame]
          exact hq'
        · intro hw' hr'
          show datagrams (wrote ++ [f] ++ rest) = taken.filter l.fits
          rw [hsame]
          exact h.whole hw' hr'
        · show ∀ d ∈ datagrams (wrote ++ [f] ++ rest), _
          rw [hsame]
          exact h.sizes
    · cases hw
  | read control data limited =>
    simp only [workerNext] at hw
    split at hw <;> cases hw
    rw [show WorkerAction.written l (.read control data limited) = [] from rfl, List.append_nil]
    refine ⟨taken, ?_⟩
    unfold Link.read
    split
    · exact h.die hack _
    split
    · split
      · exact h
      · exact h.die hack _
    split
    · exact h.congr hack rfl rfl rfl rfl (fun _ hx => hx)
    · exact h.die hack _
  | take expired =>
    simp only [workerNext] at hw
    rw [show WorkerAction.written l (.take expired) = [] from rfl, List.append_nil]
    split at hw
    · split at hw
      · cases hw
        exact ⟨taken, h.congr hack rfl rfl rfl rfl (fun _ hx => (alive_die hx).1)⟩
      · cases hw
        exact ⟨taken, h.congr hack rfl rfl rfl rfl (fun _ hx => hx)⟩
    · cases hw
  | send =>
    simp only [workerNext] at hw
    rw [show WorkerAction.written l .send = [] from rfl, List.append_nil]
    split at hw <;> cases hw
    exact ⟨taken, h.congr hack rfl rfl rfl rfl (fun _ hx => hx)⟩
  | back w =>
    simp only [workerNext] at hw
    rw [show WorkerAction.written l (.back w) = [] from rfl, List.append_nil]
    split at hw <;> cases hw
    exact ⟨taken, h.congr hack rfl rfl rfl rfl (fun _ hx => hx)⟩
  | beat =>
    simp only [workerNext] at hw
    rw [show WorkerAction.written l .beat = [] from rfl, List.append_nil]
    split at hw
    · cases hw
    · split at hw <;> cases hw
      · refine ⟨taken, h.congr hack rfl rfl ?_ rfl (fun _ hx => hx)⟩
        rw [datagrams_append]
        exact List.append_nil _
      · exact ⟨taken, h.die hack _⟩
  | fail w =>
    simp only [workerNext] at hw
    rw [show WorkerAction.written l (.fail w) = [] from rfl, List.append_nil]
    split at hw <;> cases hw
    exact ⟨taken, h.die hack _⟩
  | wake =>
    simp only [workerNext] at hw
    rw [show WorkerAction.written l .wake = [] from rfl, List.append_nil]
    split at hw <;> cases hw
    exact ⟨taken, h.die hack _⟩
  | resume outlives =>
    simp only [workerNext] at hw
    rw [show WorkerAction.written l (.resume outlives) = [] from rfl, List.append_nil]
    split at hw <;> cases hw
    exact ⟨taken, h.congr hack rfl rfl rfl rfl (fun _ hx => alive_cancel hx)⟩

theorem Outflow.arrive (h : Outflow l arrived wrote taken) (d : Datagram) :
    Outflow { l with socket := l.socket ++ [d] } (arrived ++ [d]) wrote taken := by
  refine ⟨?_, h.idle, h.inOrder, h.queued, h.whole, h.sizes⟩
  rw [h.arrived]
  simp

end

end ArenaLab
