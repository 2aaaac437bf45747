import ArenaLab.GameRecord

/-! The private worker: its input codec and the command loop of `lab_game_host`. -/

namespace ArenaLab

def inputMagic : List UInt8 := [0x4C, 0x47, 0x49, 0x4E]

def gameInputDecode (bytes : List UInt8) : Option GameInput :=
  if bytes.length ≠ 48 ∨ bytes.take 4 ≠ inputMagic ∨ bytes.getD 4 0 ≠ 1 ∨ bytes.getD 44 0 ≠ 0 ∨
      bytes.getD 45 0 ≠ 0 ∨ bytes.getD 46 0 ≠ 0 ∨ bytes.getD 47 0 ≠ 0 then none
  else
    let candidate : GameInput :=
      { «match» := field bytes 8 16
        session := field bytes 24 16
        sequence := get32 bytes 40
        action := bytes.getD 5 0
        axis_x := bytes.getD 6 0
        axis_y := bytes.getD 7 0 }
    if validInput candidate then some candidate else none

/-- The bytes that an operation without an input must leave zero. -/
def hostReserved (op : UInt8) (command : List UInt8) : Bool :=
  (command.drop (2 + if op = 2 then 8 else 0)).any (· ≠ 0)

/-- One round of the worker's loop on a whole command: the world and the record
that it writes, or nothing if the worker exits. -/
def hostStep (w : GameWorld) (command : List UInt8) : Option (GameWorld × List UInt8) :=
  let op := command.getD 0 0
  if h : (command.getD 1 0).toNat < 2 then
    let slot : Fin 2 := ⟨(command.getD 1 0).toNat, h⟩
    if op = 1 then
      match gameInputDecode (command.drop 2) with
      | some input =>
        let (w', status) := gameApply w slot input
        some (w', reply w' slot input.sequence status)
      | none => some (w, reply w slot 0 .badInput)
    else if hostReserved op command then none
    else if op = 2 then (w.assign (readLe (command.drop 2) 8)).map (fun w' => (w', reply w' slot 0 .ok))
    else if op = 3 then
      let (w', status) := gameClose w slot
      some (w', reply w' slot 0 status)
    else if op = 4 then
      some (w, reply w slot 0 (if (w.players slot).isOpen then .ok else .closed))
    else none
  else none

/-- What `GameService.exchange` writes. -/
def serviceCommand (op : UInt8) (slot : Fin 2) (payload : List UInt8) : List UInt8 :=
  op :: UInt8.ofNat slot :: payload

def noPayload : List UInt8 := List.replicate 48 0

section

variable {w w' : GameWorld} {slot : Fin 2} {record : List UInt8}

theorem serviceCommand_slot (op : UInt8) (slot : Fin 2) (payload : List UInt8) :
    ((serviceCommand op slot payload).getD 1 0).toNat = slot := (slot_byte slot).2

/-- A command that the worker answers moves the world by at most one step of the
game and is answered with a record of its own slot. -/
theorem hostStep_spec {command : List UInt8} (h : hostStep w command = some (w', record)) :
    (∃ τ, Runs.Steps GameStep w τ w') ∧ ∃ slot sequence status,
      (command.getD 1 0).toNat = (slot : Fin 2) ∧ record = reply w' slot sequence status := by
  have hstay : ∃ τ, Runs.Steps GameStep w τ w := ⟨[], .nil⟩
  simp only [hostStep] at h
  split at h
  · rename_i hslot
    split at h
    · split at h
      · rename_i input _
        obtain ⟨rfl, rfl⟩ := Prod.mk.inj (Option.some.inj h)
        exact ⟨⟨_, .single ⟨.apply (command.getD 1 0).toNat input, rfl⟩⟩, ⟨_, hslot⟩, _, _, rfl, rfl⟩
      · obtain ⟨rfl, rfl⟩ := Prod.mk.inj (Option.some.inj h)
        exact ⟨hstay, ⟨_, hslot⟩, _, _, rfl, rfl⟩
    · split at h
      · cases h
      · split at h
        · obtain ⟨u, hu, he⟩ := Option.map_eq_some_iff.mp h
          obtain ⟨rfl, rfl⟩ := Prod.mk.inj he
          have hstep : GameStep w ⟨.assign (readLe (command.drop 2) 8), w.tick, .ok⟩ u :=
            ⟨.assign (readLe (command.drop 2) 8), by simp [gameNext, hu]⟩
          exact ⟨⟨_, .single hstep⟩, ⟨_, hslot⟩, _, _, rfl, rfl⟩
        · split at h
          · obtain ⟨rfl, rfl⟩ := Prod.mk.inj (Option.some.inj h)
            exact ⟨⟨_, .single ⟨.close (command.getD 1 0).toNat, rfl⟩⟩, ⟨_, hslot⟩, _, _, rfl, rfl⟩
          · split at h
            · obtain ⟨rfl, rfl⟩ := Prod.mk.inj (Option.some.inj h)
              exact ⟨hstay, ⟨_, hslot⟩, _, _, rfl, rfl⟩
            · cases h
  · cases h

theorem reserved_none (op : UInt8) (slot : Fin 2) :
    hostReserved op (serviceCommand op slot noPayload) = false := by
  by_cases hop : op = 2
  · simp [hostReserved, serviceCommand, noPayload, hop]
  · simp [hostReserved, serviceCommand, noPayload, hop]

theorem hostStep_status (w : GameWorld) (slot : Fin 2) :
    hostStep w (serviceCommand 4 slot noPayload) =
      some (w, reply w slot 0 (if (w.players slot).isOpen then .ok else .closed)) := by
  have hr := reserved_none 4 slot
  simp only [serviceCommand] at hr
  simp only [hostStep, serviceCommand, List.getD_cons_zero, List.getD_cons_succ, (slot_byte slot).2,
    slot.isLt, Fin.eta, hr]
  rfl

theorem hostStep_close (w : GameWorld) (slot : Fin 2) :
    ∃ record, hostStep w (serviceCommand 3 slot noPayload) = some ((gameClose w slot).1, record) := by
  have hr := reserved_none 3 slot
  simp only [serviceCommand] at hr
  simp only [hostStep, serviceCommand, List.getD_cons_zero, List.getD_cons_succ, (slot_byte slot).2,
    slot.isLt, Fin.eta, hr]
  exact ⟨_, rfl⟩

theorem gameApply_tick (w : GameWorld) (slot : ℕ) (input : GameInput) :
    (gameApply w slot input).1.tick = w.tick := by
  rcases gameApply_cases w slot input with ⟨_, hw⟩ | ⟨_, _, _, _, _, _, _, hw⟩
  · rw [hw]
  · rw [hw]
    rfl

theorem hostStep_intent (w : GameWorld) (slot : Fin 2) (payload : List UInt8) :
    ∃ w' record, hostStep w (serviceCommand 1 slot payload) = some (w', record) ∧
      w'.tick = w.tick := by
  simp only [hostStep, serviceCommand, List.getD_cons_zero, List.getD_cons_succ, (slot_byte slot).2,
    slot.isLt, dite_true, if_true]
  split
  · exact ⟨_, _, rfl, gameApply_tick w slot _⟩
  · exact ⟨_, _, rfl, rfl⟩

def tickPayload (tick : ℕ) : List UInt8 := LittleEndian.bytes tick 8 ++ List.replicate 40 0

theorem hostStep_tick {tick : ℕ} (hmax : tick < 2 ^ 64) (hle : w.tick.toNat ≤ tick) (slot : Fin 2) :
    ∃ record, hostStep w (serviceCommand 2 slot (tickPayload tick)) =
      some ({ w with tick := UInt64.ofNat tick }, record) := by
  have hlen : (LittleEndian.bytes tick 8).length = 8 := LittleEndian.length_bytes tick 8
  have hr : hostReserved 2 (2 :: UInt8.ofNat slot :: tickPayload tick) = false := by
    have hd : (tickPayload tick).drop 8 = List.replicate 40 0 := List.drop_left' hlen
    simp [hostReserved, hd]
  have hread : readLe (tickPayload tick) 8 = UInt64.ofNat tick := by
    have hv : (readLe (tickPayload tick) 8).toNat = tick := by
      rw [readLe_take _ (Nat.le_refl 8) (by simp [tickPayload])]
      rw [tickPayload, List.take_left' hlen, LittleEndian.value_bytes]
      exact Nat.mod_eq_of_lt hmax
    rw [← UInt64.toNat_inj, hv, UInt64.toNat_ofNat_of_lt' hmax]
  have hback : ¬UInt64.ofNat tick < w.tick := by
    rw [UInt64.lt_iff_toNat_lt, UInt64.toNat_ofNat_of_lt' hmax]
    omega
  have hassign : w.assign (UInt64.ofNat tick) = some { w with tick := UInt64.ofNat tick } := if_neg hback
  simp only [hostStep, serviceCommand, List.getD_cons_zero, List.getD_cons_succ, (slot_byte slot).2,
    slot.isLt, Fin.eta, hr, List.drop_succ_cons, List.drop_zero, hread, hassign]
  exact ⟨_, rfl⟩

theorem gameClose_tick (w : GameWorld) (slot : Fin 2) : (gameClose w slot).1.tick = w.tick := by
  rw [gameClose, dif_pos slot.isLt]

theorem gameClose_closed (w : GameWorld) (slot : Fin 2) :
    (((gameClose w slot).1).players slot).isOpen = false := by
  rw [gameClose, dif_pos slot.isLt]
  simp

theorem gameApply_closed (hclosed : (w.players slot).isOpen = false) (input : GameInput) :
    (gameApply w slot input).2 ≠ .ok := by
  rcases gameApply_cases w slot input with ⟨hbad, _⟩ | ⟨_, s, _, _, hs, hadm, _⟩
  · exact hbad
  · obtain rfl : slot = s := Fin.ext hs
    rw [hadm.isOpen] at hclosed
    cases hclosed

theorem hostStep_refused {command : List UInt8}
    (h : hostStep w command = some (w', record)) (hop : command.getD 0 0 = 1)
    (hslot : (command.getD 1 0).toNat = (slot : ℕ)) (hclosed : (w.players slot).isOpen = false) :
    ∃ sequence status, record = reply w' slot sequence status ∧ status ≠ .ok := by
  simp only [hostStep, hop, hslot, slot.isLt, dite_true, if_true, Fin.eta] at h
  split at h
  · rename_i input _
    obtain ⟨rfl, rfl⟩ := Prod.mk.inj (Option.some.inj h)
    exact ⟨_, _, rfl, gameApply_closed hclosed input⟩
  · obtain ⟨rfl, rfl⟩ := Prod.mk.inj (Option.some.inj h)
    exact ⟨_, _, rfl, by simp⟩

end

end ArenaLab
