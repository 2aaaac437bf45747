import ArenaLab.AdapterIsolation
import ArenaLab.SlotTable

/-! The datagrams that the relay rejects in the server's place. -/

namespace ArenaLab

/-- The address of an upstream socket, which is bound to the loopback interface. -/
def forwardingAddress (port : UInt16) : SockAddr := ⟨afInet, 0x7F000001, port⟩

/-- One call to `sendto`, of these bytes to this address. -/
structure SendsOnce (host : LabHost) (s s' : Server) (to_ : SockAddr) (wire : List UInt8) : Prop where
  calls : s'.net.sends = s.net.sends + 1
  sent : s'.net.sent = s.net.sent ++ if host.sendOk s.net.sends then [(to_, wire)] else []

structure SameSessions (slots slots' : Slots) : Prop where
  used : ∀ i, (slots' i).used = (slots i).used
  kept : ∀ i, (slots i).used = true → slots' i = slots i

def helloFirst : List UInt8 := rejectWire (Vector.replicate 16 0) .badKind "HELLO primero"

section

variable {host : LabHost} {config : AdapterConfig} {s t : Adapter} {i : Fin 32} {work : ℕ} {peer : SockAddr}
  {data wire : List UInt8} {log : List AdapterEvent} {answered bound connected : Bool}

/-- The history ends with this rejection of a datagram. -/
def Adapter.Shortcut (s : Adapter) (peer : SockAddr) (data wire : List UInt8)
    (log : List AdapterEvent) : Prop :=
  s.log = .answered peer wire :: .received peer data (some "HELLO primero") :: log

theorem turnDown_shortcut {from_ : SockAddr} {session : Bytes 16} {reason : Reason}
    {message : String} {datagram : List UInt8}
    (h : (s.turnDown work answered from_ datagram session reason message).Shortcut peer data wire log) :
    message = "HELLO primero" ∧ wire = rejectWire session reason message := by
  simp only [Adapter.Shortcut, Adapter.turnDown, Adapter.reject, Adapter.goto, Adapter.note] at h
  cases answered with
  | false => simp [Adapter.fail] at h
  | true =>
    simp only [if_true, List.cons.injEq, AdapterEvent.answered.injEq, AdapterEvent.received.injEq,
      Option.some.injEq] at h
    exact ⟨h.2.1.2.2, h.1.2.symm⟩

theorem enqueue_shortcut :
    ¬(s.enqueue config i work data answered).Shortcut peer data wire log := by
  intro h
  simp only [Adapter.enqueue] at h
  split at h
  · simp [Adapter.Shortcut, Adapter.goto, Adapter.note] at h
  · split at h
    · obtain ⟨hmessage, _⟩ := turnDown_shortcut h
      exact absurd hmessage (by decide)
    · split at h
      · split at h
        · simp [Adapter.Shortcut, Adapter.goto, Adapter.note, Adapter.put] at h
        · simp [Adapter.Shortcut, Adapter.goto, Adapter.note, Adapter.put] at h
      · simp [Adapter.Shortcut, Adapter.goto, Adapter.note, Adapter.put] at h

theorem log_ne_cons_cons {α : Type*} (l : List α) (a b : α) : l ≠ a :: b :: l := by
  intro h
  have hlen := congrArg List.length h
  simp only [List.length_cons] at hlen
  omega

theorem routeless_shortcut
    (h : (s.routeless config work peer data answered bound connected).Shortcut peer data wire s.log) :
    needsHello data = true ∧ wire = helloFirst := by
  simp only [Adapter.routeless] at h
  split at h
  · rename_i hneeds
    exact ⟨hneeds, (turnDown_shortcut h).2⟩
  · split at h
    · exact absurd (turnDown_shortcut h).1 (by decide)
    · split at h
      · exact absurd (turnDown_shortcut h).1 (by decide)
      · split at h
        · exact absurd h (log_ne_cons_cons _ _ _)
        · exact absurd h enqueue_shortcut

theorem accept_shortcut
    (h : (s.accept config work (some peer) data answered bound connected).Shortcut peer data wire s.log) :
    data.length ≤ labMaxDatagram ∧ needsHello data = true ∧ wire = helloFirst := by
  simp only [Adapter.accept] at h
  split at h
  · exact absurd h (log_ne_cons_cons _ _ _)
  · split at h
    · exact absurd (turnDown_shortcut h).1 (by decide)
    · rename_i hsize
      refine ⟨Nat.le_of_not_lt hsize, ?_⟩
      split at h
      · exact absurd h enqueue_shortcut
      · exact routeless_shortcut h

theorem arrived_accept {from_ : Option SockAddr}
    (h : adapterNext config s (.arrived from_ data answered bound connected) = some t) :
    ∃ work, t = s.accept config work from_ data answered bound connected := by
  cases hpc : s.pc with
  | accepting work =>
    simp only [adapterNext, hpc] at h
    split at h
    · cases h
    · exact ⟨work, (Option.some.inj h).symm⟩
  | _ => simp [adapterNext, hpc] at h

/-- What the relay's header test makes of the server's byte tests. -/
theorem needsHello_bytes (h : needsHello data = true) : 16 ≤ data.length ∧ data.getD 0 0 = labMagic ∧
    data.getD 1 0 = labVersion ∧ data.getD 2 0 ≠ Kind.hello.code := by
  simp only [needsHello] at h
  split at h
  · rename_i hdr hparse
    simp only [labHdrParse] at hparse
    split at hparse
    · cases hparse
    · rename_i hshape
      obtain rfl := Option.some.inj hparse
      simp only [Bool.and_eq_true, Bool.or_eq_true, decide_eq_true_eq] at h
      obtain ⟨⟨hmagic, hversion⟩, hkind⟩ := h
      refine ⟨by omega, hmagic, hversion, ?_⟩
      intro hhello
      rw [hhello] at hkind
      revert hkind
      decide
  · cases h

theorem doNew_shortcut {slots : Slots} {net : Net} {c : Client} (hsize : data.length ≤ labMaxDatagram)
    (h : needsHello data = true) :
    doNew host slots net c data = sendRst host net c .badKind "HELLO primero" := by
  obtain ⟨hlong, hmagic, hversion, hkind⟩ := needsHello_bytes h
  rw [doNew, if_neg (by omega), if_neg (by omega), if_neg (not_not.mpr hmagic),
    if_neg (not_not.mpr hversion), if_pos hkind]

/-- The server's builder and the relay's make the same datagram. -/
theorem visitor_rst (from_ : SockAddr) :
    (Payload.rst (rstPayload (Client.visitor from_).session .badKind "HELLO primero")).datagram
      (Client.visitor from_).nrst = helloFirst := rfl

theorem sendRst_once (host : LabHost) (net : Net) (c : Client) (reason : Reason) (msg : String) :
    (sendRst host net c reason msg).1.sends = net.sends + 1 ∧
    (sendRst host net c reason msg).1.sent = net.sent ++ if host.sendOk net.sends then
      [(c.addr, (Payload.rst (rstPayload c.session reason msg)).datagram c.nrst)] else [] := by
  simp only [sendRst, sendDatagram]
  by_cases hok : host.sendOk net.sends = true
  · simp [hok]
  · simp [hok]

/-- A free slot that is served a datagram for which it only has a rejection. -/
theorem serve_shortcut {server : Server} {from_ : SockAddr} (hunused : (server.slots i).used = false)
    (hsize : data.length ≤ labMaxDatagram) (h : needsHello data = true) :
    (server.serve host i from_ data).net =
      (sendRst host server.net (.visitor from_) .badKind "HELLO primero").1 ∧
    SameSessions server.slots (server.serve host i from_ data).slots := by
  have hslot : server.slotFor i from_ = .visitor from_ := by
    rw [Server.slotFor, if_neg (by simp [hunused])]
  have hhandle : ∀ slots : Slots, handle host { server with slots := slots } (.visitor from_) data =
      sendRst host server.net (.visitor from_) .badKind "HELLO primero" := by
    intro slots
    rw [handle, if_neg (by omega)]
    exact doNew_shortcut hsize h
  simp only [Server.serve, hslot, hhandle]
  refine ⟨trivial, ?_, ?_⟩
  · intro j
    by_cases hj : j = i
    · subst hj
      rw [Function.update_self, sendRst_client, hunused]
      rfl
    · rw [Function.update_of_ne hj, Function.update_of_ne hj]
  · intro j hused
    by_cases hj : j = i
    · subst hj
      rw [hunused] at hused
      cases hused
    · rw [Function.update_of_ne hj, Function.update_of_ne hj]

theorem receive_shortcut {server : Server} {from_ : SockAddr} (hloop : from_.addr >>> 24 = 127)
    (hroom : server.slots.usedCount < server.config.max_clients) (hnew : server.slots.ofPeer from_ = none)
    (hsize : data.length ≤ labMaxDatagram) (h : needsHello data = true) :
    SendsOnce host server (server.receive host from_ data) from_ helloFirst ∧
    SameSessions server.slots (server.receive host from_ data).slots := by
  obtain ⟨j, hfree⟩ := exists_free hroom server.config.clients_range.2
  have hunused : (server.slots j).used = false := by
    simpa using List.find?_some hfree
  have hroute : server.receive host from_ data =
      Server.serve host { server with net := { server.net with n_rx := server.net.n_rx + 1 } } j from_ data := by
    simp only [Server.receive, Server.route]
    rw [if_neg (not_not.mpr hloop), hnew]
    simp only
    rw [if_neg (by omega), hfree]
  rw [hroute]
  obtain ⟨hnet, hslots⟩ := @serve_shortcut host j data
    { server with net := { server.net with n_rx := server.net.n_rx + 1 } } from_ hunused hsize h
  refine ⟨⟨?_, ?_⟩, hslots⟩
  · rw [hnet]
    exact (sendRst_once host _ _ _ _).1
  · rw [hnet, (sendRst_once host _ _ _ _).2, visitor_rst]
    rfl

/-- What the relay rejects for want of a HELLO, a server with room and no session
for the relay's socket would reject with the same bytes, and keep its sessions. -/
theorem shortcut_rejection
    (h : adapterNext config s (.arrived (some peer) data answered bound connected) = some t)
    (hlog : t.Shortcut peer data wire s.log) (server : Server) (port : UInt16)
    (hroom : server.slots.usedCount < server.config.max_clients)
    (hnew : server.slots.ofPeer (forwardingAddress port) = none) :
    wire.length = 76 ∧
    SendsOnce host server (server.receive host (forwardingAddress port) data) (forwardingAddress port) wire ∧
    SameSessions server.slots (server.receive host (forwardingAddress port) data).slots := by
  obtain ⟨work, rfl⟩ := arrived_accept h
  obtain ⟨hsize, hneeds, rfl⟩ := accept_shortcut hlog
  exact ⟨by decide, receive_shortcut (by decide : (0x7F000001 : UInt32) >>> 24 = 127) hroom hnew hsize hneeds⟩

end

def sampleEarlyPing : List UInt8 :=
  labHdrPack ⟨labMagic, labVersion, Kind.ping.code, 0, 7, 0, Vector.replicate 4 0⟩

def sampleAccepting : Adapter := (adapterBoot 0).goto (.accepting 0)

theorem sampleEarlyPing_shortcut : (sampleAccepting.accept sampleAdapter 0 (some (samplePeer 5000))
    sampleEarlyPing true true true).Shortcut (samplePeer 5000) sampleEarlyPing helloFirst
      sampleAccepting.log := by
  have hneeds : needsHello sampleEarlyPing = true := by decide
  have hroute : Adapter.routeOf { sampleAccepting with received := sampleAccepting.received + 1 }
      (samplePeer 5000) = none := by decide
  simp only [Adapter.accept]
  rw [if_neg (by decide), if_neg (by decide), hroute]
  simp only [Adapter.routeless, hneeds, if_true]
  rfl

theorem shortcut_rejection_ping :
    helloFirst.length = 76 ∧
    SendsOnce sampleLabHost (Server.boot sampleServerConfig 0)
      ((Server.boot sampleServerConfig 0).receive sampleLabHost (forwardingAddress 6000) sampleEarlyPing)
      (forwardingAddress 6000) helloFirst := by
  have hstep : adapterNext sampleAdapter sampleAccepting (.arrived (some (samplePeer 5000)) sampleEarlyPing
      true true true) = some (sampleAccepting.accept sampleAdapter 0 (some (samplePeer 5000))
        sampleEarlyPing true true true) := rfl
  have hroom : (Server.boot sampleServerConfig 0).slots.usedCount < sampleServerConfig.max_clients := by
    decide
  have hnew : (Server.boot sampleServerConfig 0).slots.ofPeer (forwardingAddress 6000) = none := by decide
  obtain ⟨hlength, hsends, _⟩ := @shortcut_rejection sampleLabHost _ _ _ _ _ _ _ _ _ hstep
    sampleEarlyPing_shortcut (Server.boot sampleServerConfig 0) 6000 hroom hnew
  exact ⟨hlength, hsends⟩

end ArenaLab
