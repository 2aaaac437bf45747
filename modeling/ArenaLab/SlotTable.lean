import ArenaLab.SlotHandlers

/-! The table of slots over whole runs of the server. -/

namespace ArenaLab

structure SlotInv (s : Server) : Prop where
  sound : ∀ i, (s.slots i).used = true → (s.slots i).Sound
  idle : ∀ i, (s.slots i).used = false → (s.slots i).state = .stNew
  peers : ∀ i j, (s.slots i).used = true → (s.slots j).used = true →
    (s.slots i).addr = (s.slots j).addr → i = j
  nonces : ∀ i j, (s.slots i).used = true → (s.slots j).used = true →
    (s.slots i).cnonce = (s.slots j).cnonce → i = j
  bounded : s.slots.usedCount ≤ s.config.max_clients

theorem usedCount_update (slots : Slots) (i : Fin 32) (c : Client) :
    Slots.usedCount (Function.update slots i c) + (slots i).weight = slots.usedCount + c.weight := by
  have hcomp : (fun j => (Function.update slots i c j).weight) =
      Function.update (fun j => (slots j).weight) i c.weight :=
    Function.comp_update Client.weight slots i c
  have hrest := Finset.add_sum_erase Finset.univ (fun j => (slots j).weight) (Finset.mem_univ i)
  rw [Slots.usedCount, hcomp, Finset.sum_update_of_mem (Finset.mem_univ i), Finset.sdiff_singleton_eq_erase]
  rw [Slots.usedCount, ← hrest]
  omega

theorem exists_free {slots : Slots} {n : ℕ} (h : slots.usedCount < n) (hn : n ≤ 32) :
    ∃ i, slots.free = some i := by
  by_contra hnone
  have hall : ∀ i, (slots i).used = true := by
    intro i
    have hfree : slots.free = none := by
      cases hf : slots.free with
      | none => rfl
      | some j => exact absurd ⟨j, hf⟩ hnone
    have hused := List.find?_eq_none.mp hfree i (List.mem_finRange i)
    simpa using hused
  have hcount : slots.usedCount = 32 := by
    simp only [Slots.usedCount, Client.weight, hall, if_true]
    rfl
  omega

section

variable {host : LabHost} {s s' : Server}

theorem SlotInv.update {i : Fin 32} {c : Client} (h : SlotInv s)
    (hslots : s'.slots = Function.update s.slots i c) (hconf : s'.config = s.config)
    (hidle : c.used = false → c.state = .stNew)
    (hused : c.used = true → c.Sound ∧
      (∀ j, j ≠ i → (s.slots j).used = true → (s.slots j).addr ≠ c.addr) ∧
      (∀ j, j ≠ i → (s.slots j).used = true → (s.slots j).cnonce ≠ c.cnonce) ∧
      ((s.slots i).used = true ∨ s.slots.usedCount < s.config.max_clients)) : SlotInv s' := by
  have hself : s'.slots i = c := by rw [hslots, Function.update_self]
  have hother : ∀ j, j ≠ i → s'.slots j = s.slots j := by
    intro j hj
    rw [hslots, Function.update_of_ne hj]
  constructor
  · intro j hj
    by_cases hji : j = i
    · subst hji
      rw [hself] at hj ⊢
      exact (hused hj).1
    · rw [hother j hji] at hj ⊢
      exact h.sound j hj
  · intro j hj
    by_cases hji : j = i
    · subst hji
      rw [hself] at hj ⊢
      exact hidle hj
    · rw [hother j hji] at hj ⊢
      exact h.idle j hj
  · intro j k hj hk he
    by_cases hji : j = i
    · subst hji
      by_cases hkj : k = j
      · exact hkj.symm
      · rw [hself] at hj he
        rw [hother k hkj] at hk he
        exact absurd he.symm ((hused hj).2.1 k hkj hk)
    · rw [hother j hji] at hj he
      by_cases hki : k = i
      · subst hki
        rw [hself] at hk he
        exact absurd he ((hused hk).2.1 j hji hj)
      · rw [hother k hki] at hk he
        exact h.peers j k hj hk he
  · intro j k hj hk he
    by_cases hji : j = i
    · subst hji
      by_cases hkj : k = j
      · exact hkj.symm
      · rw [hself] at hj he
        rw [hother k hkj] at hk he
        exact absurd he.symm ((hused hj).2.2.1 k hkj hk)
    · rw [hother j hji] at hj he
      by_cases hki : k = i
      · subst hki
        rw [hself] at hk he
        exact absurd he ((hused hk).2.2.1 j hji hj)
      · rw [hother k hki] at hk he
        exact h.nonces j k hj hk he
  · have hcount := usedCount_update s.slots i c
    have hb := h.bounded
    rw [hslots, hconf]
    cases hc : c.used with
    | false =>
      simp only [Client.weight, hc, Bool.false_eq_true, if_false] at hcount
      omega
    | true =>
      rcases (hused hc).2.2.2 with hi | hi
      · simp only [Client.weight, hc, hi, if_true] at hcount
        omega
      · simp only [Client.weight, hc, if_true] at hcount
        omega

theorem SlotInv.kept {i : Fin 32} {c : Client} (h : SlotInv s)
    (hslots : s'.slots = Function.update s.slots i c) (hconf : s'.config = s.config)
    (hk : Kept (s.slots i) c) : SlotInv s' := by
  obtain ⟨k, rfl⟩ := hk
  refine h.update hslots hconf (h.idle i) ?_
  intro hu
  exact ⟨h.sound i hu, fun j hj hju he => hj (h.peers j i hju hu he),
    fun j hj hju he => hj (h.nonces j i hju hu he), .inl hu⟩

theorem SlotInv.released {i : Fin 32} (h : SlotInv s)
    (hslots : s'.slots = Function.update s.slots i .zero) (hconf : s'.config = s.config) :
    SlotInv s' :=
  h.update hslots hconf (fun _ => rfl) (fun hu => absurd hu (by decide))

theorem ofPeer_some {slots : Slots} {from_ : SockAddr} {i : Fin 32}
    (h : slots.ofPeer from_ = some i) : (slots i).used = true ∧ (slots i).addr = from_ := by
  simpa using List.find?_some h

theorem ofPeer_none {slots : Slots} {from_ : SockAddr} (h : slots.ofPeer from_ = none) (i : Fin 32)
    (hu : (slots i).used = true) : (slots i).addr ≠ from_ := by
  have hn := List.find?_eq_none.mp h i (List.mem_finRange i)
  simpa [hu] using hn

theorem slotFor_used {i : Fin 32} {from_ : SockAddr} (hu : (s.slots i).used = true)
    (ha : (s.slots i).addr = from_) : s.slotFor i from_ = s.slots i := by
  rw [Server.slotFor, if_pos hu, ← ha]

theorem slotFor_free {i : Fin 32} {from_ : SockAddr} (hu : (s.slots i).used = false) :
    s.slotFor i from_ = .visitor from_ := by
  simp [Server.slotFor, hu]

theorem serve_eq (s : Server) (i : Fin 32) (from_ : SockAddr) (d : List UInt8) :
    s.serve host i from_ d = { s with
      net := (handle host { s with slots := Function.update s.slots i (s.slotFor i from_) }
        (s.slotFor i from_) d).1
      slots := Function.update s.slots i (handle host
        { s with slots := Function.update s.slots i (s.slotFor i from_) }
        (s.slotFor i from_) d).2 } := by
  simp only [Server.serve, Function.update_idem]

theorem handle_open {c : Client} {d : List UInt8} (hs : c.Sound) :
    Kept c (handle host s c d).2 ∨ Carries d c.session ∧ Moved c (handle host s c d).2 := by
  obtain ⟨hst, _, hid⟩ := hs
  simp only [EvidenceState.identity, Prod.mk.injEq] at hid
  simp only [handle, hst]
  split
  · exact .inl sendRst_kept
  · exact doOpen_cases hid.1 hid.2.1

theorem handle_new (host : LabHost) (s : Server) {c : Client} (d : List UInt8)
    (hu : c.used = false) (hs : c.state = .stNew) :
    Greeted s.slots s.net c (handle host s c d) := by
  simp only [handle, hs]
  split
  · exact .rst hu hs
  · exact doNew_greeted hu hs

inductive Received (s s' : Server) (from_ : SockAddr) (d : List UInt8) : Prop
  | turnedAway (hslots : s'.slots = s.slots) (hacks : s'.net.n_acks = s.net.n_acks)
  | peer (i : Fin 32) (c : Client) (hu : (s.slots i).used = true) (ha : (s.slots i).addr = from_)
      (hslots : s'.slots = Function.update s.slots i c)
      (hcase : Kept (s.slots i) c ∨ Carries d (s.slots i).session ∧ Moved (s.slots i) c)
  | free (i : Fin 32) (c : Client) (hu : (s.slots i).used = false) (hc : c.used = false)
      (hst : c.state = .stNew) (hslots : s'.slots = Function.update s.slots i c)
  | opened (i : Fin 32) (c : Client) (hu : (s.slots i).used = false) (hc : c.used = true)
      (hsound : c.Sound) (ha : c.addr = from_) (hpeer : s.slots.ofPeer from_ = none)
      (hroom : s.slots.usedCount < s.config.max_clients)
      (hnonce : ∀ j, (s.slots j).used = true → (s.slots j).cnonce ≠ c.cnonce)
      (hslots : s'.slots = Function.update s.slots i c)
      (hacks : s'.net.n_acks = s.net.n_acks + 1)

theorem route_spec (host : LabHost) (h : SlotInv s) (from_ : SockAddr) (d : List UInt8) :
    Received s (s.route host from_ d) from_ d ∧ (s.route host from_ d).config = s.config := by
  have haway : ∀ (reason : Reason) (msg : String),
      Received s (s.turnAway host from_ reason msg) from_ d ∧
        (s.turnAway host from_ reason msg).config = s.config :=
    fun reason msg => ⟨.turnedAway rfl sendRst_acks, rfl⟩
  simp only [Server.route]
  split
  · exact haway _ _
  · split
    · rename_i i hi
      obtain ⟨hu, ha⟩ := ofPeer_some hi
      rw [serve_eq, slotFor_used hu ha, Function.update_eq_self]
      exact ⟨.peer i _ hu ha rfl (handle_open (h.sound i hu)), rfl⟩
    · rename_i hpeer
      split
      · exact haway _ _
      · rename_i hroom
        split
        · rename_i i hi
          have hu : (s.slots i).used = false := by simpa using List.find?_some hi
          rw [serve_eq, slotFor_free hu]
          refine ⟨?_, rfl⟩
          rcases handle_new host { s with slots := Function.update s.slots i (.visitor from_) } d
            (c := Client.visitor from_) rfl rfl with
            ⟨hc, hst, _⟩ | ⟨hacks, hc, hsound, ha, hnonce⟩
          · exact .free i _ hu hc hst rfl
          · refine .opened i _ hu hc hsound ha hpeer (not_le.mp hroom) ?_ rfl hacks
            intro j hj
            have hji : j ≠ i := by
              rintro rfl
              simp [hu] at hj
            have hn := hnonce j
            simp only [Function.update_of_ne hji] at hn
            exact hn hj
        · exact haway _ _

theorem SlotInv.congr (h : SlotInv s) (hslots : s'.slots = s.slots) (hconf : s'.config = s.config) :
    SlotInv s' := by
  constructor
  · rw [hslots]
    exact h.sound
  · rw [hslots]
    exact h.idle
  · rw [hslots]
    exact h.peers
  · rw [hslots]
    exact h.nonces
  · rw [hslots, hconf]
    exact h.bounded

theorem receive_spec (host : LabHost) (h : SlotInv s) (from_ : SockAddr) (d : List UInt8) :
    Received s (s.receive host from_ d) from_ d ∧ (s.receive host from_ d).config = s.config := by
  obtain ⟨hr, hconf⟩ := route_spec host
    (s := { s with net := { s.net with n_rx := s.net.n_rx + 1 } }) (h.congr rfl rfl) from_ d
  refine ⟨?_, hconf⟩
  cases hr with
  | turnedAway hslots hacks => exact .turnedAway hslots hacks
  | peer i c hu ha hslots hcase => exact .peer i c hu ha hslots hcase
  | free i c hu hc hst hslots => exact .free i c hu hc hst hslots
  | opened i c hu hc hsound ha hpeer hroom hnonce hslots hacks =>
    exact .opened i c hu hc hsound ha hpeer hroom hnonce hslots hacks

theorem SlotInv.receive (h : SlotInv s) (from_ : SockAddr) (d : List UInt8) :
    SlotInv (s.receive host from_ d) := by
  obtain ⟨hr, hconf⟩ := receive_spec host h from_ d
  cases hr with
  | turnedAway hslots => exact h.congr hslots hconf
  | peer i c hu ha hslots hcase =>
    rcases hcase with hk | ⟨_, hm⟩
    · exact h.kept hslots hconf hk
    · rcases hm.sound (h.sound i hu) with rfl | ⟨hs, hcu, hca, hcn⟩
      · exact h.released hslots hconf
      · refine h.update hslots hconf (fun hf => by simp [hcu, hu] at hf) ?_
        intro _
        refine ⟨hs, ?_, ?_, .inl hu⟩
        · rw [hca]
          exact fun j hj hju he => hj (h.peers j i hju hu he)
        · rw [hcn]
          exact fun j hj hju he => hj (h.nonces j i hju hu he)
  | free i c hu hc hst hslots =>
    exact h.update hslots hconf (fun _ => hst) (fun hf => by simp [hc] at hf)
  | opened i c hu hc hsound ha hpeer hroom hnonce hslots =>
    refine h.update hslots hconf (fun hf => by simp [hc] at hf) ?_
    intro _
    refine ⟨hsound, ?_, fun j _ hj => hnonce j hj, .inr hroom⟩
    rw [ha]
    exact fun j _ hj => ofPeer_none hpeer j hj

theorem SlotInv.sweepSlot (h : SlotInv s) (now : UInt64) (i : Fin 32) :
    SlotInv (sweepSlot host now s i) := by
  simp only [ArenaLab.sweepSlot]
  split
  · exact h
  · split
    · exact h.released rfl rfl
    · exact h

theorem SlotInv.shutdownSlot (h : SlotInv s) (i : Fin 32) : SlotInv (shutdownSlot host s i) := by
  simp only [ArenaLab.shutdownSlot]
  split
  · exact h.kept rfl rfl sendRst_kept
  · exact h

theorem SlotInv.act (h : SlotInv s) (a : ServerAction) : SlotInv (s.act host a) := by
  cases a with
  | datagram from_ d => exact h.receive from_ d
  | sweep => exact List.foldlRecOn _ _ (h.congr rfl rfl) (fun _ hi i _ => hi.sweepSlot _ i)
  | receiveError => exact h.congr rfl rfl
  | shutdown => exact List.foldlRecOn _ _ h (fun _ hi i _ => hi.shutdownSlot i)

theorem slotInv_boot (config : ServerConfig) (listen : UInt32) :
    SlotInv (Server.boot config listen) := by
  have hfree : ∀ i, ((Server.boot config listen).slots i).used = false ∧
      ((Server.boot config listen).slots i).state = .stNew := by
    intro i
    by_cases hi : i = 0
    · subst hi
      simp [Server.boot, Client.zero]
    · simp [Server.boot, hi, Client.zero]
  constructor
  · intro i hi
    simp [(hfree i).1] at hi
  · exact fun i _ => (hfree i).2
  · intro i j hi
    simp [(hfree i).1] at hi
  · intro i j hi
    simp [(hfree i).1] at hi
  · have hz : (Server.boot config listen).slots.usedCount = 0 :=
      Finset.sum_eq_zero (fun i _ => by simp [Client.weight, (hfree i).1])
    omega

theorem slotInv_of_run {config : ServerConfig} {listen : UInt32} {τ : List ServerAction}
    (h : Runs.Steps (ServerStep host) (Server.boot config listen) τ s) : SlotInv s := by
  refine h.invariant (slotInv_boot config listen) ?_
  rintro t a u hi rfl
  exact hi.act a

theorem not_carries_hello {d : List UInt8} {session : Bytes 16} (h : d[2]? = some Kind.hello.code) :
    ¬Carries d session := by
  rintro ⟨kind, hmem, hk, _⟩
  rw [h] at hk
  have hcode : ∀ kind ∈ sessionKinds, Kind.hello.code ≠ kind.code := by decide
  exact hcode kind hmem (Option.some.inj hk)

theorem used_update {i : Fin 32} {c : Client} (hslots : s'.slots = Function.update s.slots i c)
    (hc : c.used = (s.slots i).used) (j : Fin 32) : (s'.slots j).used = (s.slots j).used := by
  by_cases hj : j = i
  · subst hj
    rw [hslots, Function.update_self, hc]
  · rw [hslots, Function.update_of_ne hj]

/-- The table in every reachable state; and a greeting that is not
acknowledged leaves every used slot as it was, but for the reset counter of a
slot its sender already holds. -/
theorem slot_table_invariant {config : ServerConfig} {listen : UInt32} {τ : List ServerAction}
    (h : Runs.Steps (ServerStep host) (Server.boot config listen) τ s) :
    SlotInv s ∧ ∀ from_ d, d[2]? = some Kind.hello.code →
      (s.receive host from_ d).net.n_acks = s.net.n_acks →
      (s.receive host from_ d).slots.usedCount = s.slots.usedCount ∧
      ∀ i, ((s.receive host from_ d).slots i).used = (s.slots i).used ∧
        ((s.slots i).used = true → (s.receive host from_ d).slots i = s.slots i ∨
          (s.slots i).addr = from_ ∧ Kept (s.slots i) ((s.receive host from_ d).slots i)) := by
  have hi := slotInv_of_run h
  refine ⟨hi, ?_⟩
  intro from_ d hd hack
  have hcase : ∀ i, ((s.receive host from_ d).slots i).used = (s.slots i).used ∧
      ((s.slots i).used = true → (s.receive host from_ d).slots i = s.slots i ∨
        (s.slots i).addr = from_ ∧ Kept (s.slots i) ((s.receive host from_ d).slots i)) := by
    intro i
    cases (receive_spec host hi from_ d).1 with
    | turnedAway hslots => rw [hslots]; exact ⟨rfl, fun _ => .inl rfl⟩
    | peer j c hu ha hslots hcase =>
      have hk : Kept (s.slots j) c := by
        rcases hcase with hk | ⟨hc, _⟩
        · exact hk
        · exact absurd hc (not_carries_hello hd)
      have hcu : c.used = (s.slots j).used := by
        obtain ⟨k, rfl⟩ := hk
        rfl
      refine ⟨used_update hslots hcu i, fun _ => ?_⟩
      by_cases hij : i = j
      · subst hij
        rw [hslots, Function.update_self]
        exact .inr ⟨ha, hk⟩
      · rw [hslots, Function.update_of_ne hij]
        exact .inl rfl
    | free j c hu hc _ hslots =>
      refine ⟨used_update hslots (hc.trans hu.symm) i, fun hui => .inl ?_⟩
      have hij : i ≠ j := by
        rintro rfl
        simp [hu] at hui
      rw [hslots, Function.update_of_ne hij]
    | opened _ _ _ _ _ _ _ _ _ _ hacks =>
      rw [hacks] at hack
      simp at hack
  refine ⟨?_, hcase⟩
  exact Finset.sum_congr rfl (fun i _ => by simp [Client.weight, (hcase i).1])

end

def sampleLabHost : LabHost :=
  ⟨fun k => UInt64.ofNat k, fun _ => some (Vector.replicate 32 7), fun _ => true⟩

def sampleServerConfig : ServerConfig := ⟨2000, 32, ⟨0, 7, selfReported, 1000⟩, all_clients⟩

def samplePeer (port : UInt16) : SockAddr := ⟨2, 0x7F000001, port⟩

def sampleHello (nonce : UInt8) : List UInt8 :=
  (Payload.hello ⟨labAppId, field (asciiBytes labAppName) 0 16, field (asciiBytes "ana") 0 24,
    Vector.replicate 16 nonce⟩).datagram 0

def sampleOpened : Server :=
  (Server.boot sampleServerConfig 0).receive sampleLabHost (samplePeer 5000) (sampleHello 1)

theorem sampleOpened_run : Runs.Steps (ServerStep sampleLabHost) (Server.boot sampleServerConfig 0)
    [.datagram (samplePeer 5000) (sampleHello 1)] sampleOpened := .single rfl

theorem sampleOpened_used : (sampleOpened.slots 0).used = true ∧
    (sampleOpened.slots 0).addr = samplePeer 5000 := by decide +kernel

def sampleShortHello : List UInt8 := (sampleHello 1).take 16

theorem slot_table_invariant_sample : (sampleOpened.slots 0).used = true ∧ SlotInv sampleOpened :=
  ⟨sampleOpened_used.1, (slot_table_invariant sampleOpened_run).1⟩

theorem rejected_hello_advances_reset :
    Runs.Steps (ServerStep sampleLabHost) (Server.boot sampleServerConfig 0)
      [.datagram (samplePeer 5000) (sampleHello 1)] sampleOpened ∧
    sampleShortHello[2]? = some Kind.hello.code ∧
    (sampleOpened.receive sampleLabHost (samplePeer 5000) sampleShortHello).net.sent.getLast? =
      some (samplePeer 5000, (Payload.rst (rstPayload (sampleOpened.slots 0).session .badLen
        "len != real")).datagram 0) ∧
    (sampleOpened.slots 0).used = true ∧
    (sampleOpened.receive sampleLabHost (samplePeer 5000) sampleShortHello).slots 0 ≠
      sampleOpened.slots 0 :=
  ⟨sampleOpened_run, by decide +kernel, by decide +kernel, sampleOpened_used.1, by decide +kernel⟩

end ArenaLab
