import ArenaLab.ByteStores
import ArenaLab.GameHost

/-! The intent record `LGIN/1`: the C codec with its buffers and the builder of the
Python client. -/

namespace ArenaLab

def gameInputStores (input : GameInput) : List (ℕ × List UInt8) :=
  [(0, inputMagic), (4, [1]), (5, [input.action]), (6, [input.axis_x]), (7, [input.axis_y]),
    (8, input.match.toList), (24, input.session.toList)] ++
    (List.range 4).map (fun i => (40 + i, [(input.sequence >>> UInt32.ofNat (8 * i)).toUInt8]))

/-- The record is assembled apart and copied out whole. -/
def gameInputEncode (bytes : List UInt8) (size : ℕ) (input : GameInput) : List UInt8 × Bool :=
  if size ≠ 48 ∨ validInput input = false then (bytes, false)
  else
    (ByteStores.put bytes (0, ByteStores.run (List.replicate 48 0) (gameInputStores input)), true)

def gameInputDecodeInto (bytes : List UInt8) (out : GameInput) : GameInput × Bool :=
  match gameInputDecode bytes with
  | some candidate => (candidate, true)
  | none => (out, false)

def directions : List (String × UInt8 × UInt8 × UInt8) :=
  [("east", 1, 2, 0), ("west", 1, 1, 0), ("north", 1, 0, 2), ("south", 1, 0, 1), ("fire", 2, 0, 0),
    ("wait", 3, 0, 0)]

def gameCommand (hello : List UInt8) (sequence : ℤ) (action : String) : Except String (List UInt8) :=
  (pyState hello).bind fun _ =>
    match directions.lookup action with
    | none => .error "INPUT_ARGUMENT"
    | some (kind, x, y) =>
      if 0 < sequence ∧ sequence < 0xffffffff then
        .ok (inputMagic ++ [1, kind, x, y] ++ (hello.drop 20).take 32 ++
          LittleEndian.bytes sequence.toNat 4 ++ [0, 0, 0, 0])
      else .error "INPUT_ARGUMENT"

/-- The table of `lab-game-input/1`. -/
structure IntentRecord (bytes : List UInt8) : Prop where
  size : bytes.length = 48
  magic : bytes.take 4 = inputMagic
  version : bytes.getD 4 0 = 1
  action : bytes.getD 5 0 = gameMove ∧
      (bytes.getD 6 0 = axisNone ∧ (bytes.getD 7 0 = axisNeg ∨ bytes.getD 7 0 = axisPos) ∨
        (bytes.getD 6 0 = axisNeg ∨ bytes.getD 6 0 = axisPos) ∧ bytes.getD 7 0 = axisNone) ∨
    (bytes.getD 5 0 = gameFire ∨ bytes.getD 5 0 = gameWait) ∧
      bytes.getD 6 0 = axisNone ∧ bytes.getD 7 0 = axisNone
  ids : (∃ b ∈ (bytes.drop 8).take 16, b ≠ 0) ∧ ∃ b ∈ (bytes.drop 24).take 16, b ≠ 0
  sequence : ∃ b ∈ (bytes.drop 40).take 4, b ≠ 0
  reserved : ∀ b ∈ bytes.drop 44, b = 0

def inputRecord (input : GameInput) : List UInt8 :=
  inputMagic ++ [1, input.action, input.axis_x, input.axis_y] ++ input.match.toList ++
    input.session.toList ++ put32 input.sequence ++ [0, 0, 0, 0]

theorem length_inputRecord (input : GameInput) : (inputRecord input).length = 48 := by
  simp [inputRecord, inputMagic]

theorem gameInputStores_run (input : GameInput) :
    ByteStores.run (List.replicate 48 0) (gameInputStores input) = inputRecord input := by
  have hplaces : ByteStores.Contiguous 0 (gameInputStores input) := by
    simp [gameInputStores, ByteStores.Contiguous, List.range_succ, inputMagic]
  have himage : ByteStores.image (gameInputStores input) =
      inputMagic ++ [1, input.action, input.axis_x, input.axis_y] ++ input.match.toList ++
        input.session.toList ++ put32 input.sequence := by
    simp [gameInputStores, ByteStores.image, List.range_succ, put32]
  rw [ByteStores.run_contiguous _ hplaces, himage, inputRecord]
  simp [inputMagic]

theorem axis_cases {axis : UInt8} (h : ¬axisPos < axis) :
    axis = axisNone ∨ axis = axisNeg ∨ axis = axisPos := by
  have hle : axis.toNat ≤ 2 := UInt8.le_iff_toNat_le.mp (UInt8.not_lt.mp h)
  simp only [← UInt8.toNat_inj]
  show axis.toNat = 0 ∨ axis.toNat = 1 ∨ axis.toNat = 2
  omega

theorem validInput_iff (input : GameInput) : validInput input = true ↔
    nonzeroId input.match = true ∧ nonzeroId input.session = true ∧ input.sequence ≠ 0 ∧
      (input.action = gameMove ∧
        (input.axis_x = axisNone ∧ (input.axis_y = axisNeg ∨ input.axis_y = axisPos) ∨
          (input.axis_x = axisNeg ∨ input.axis_x = axisPos) ∧ input.axis_y = axisNone) ∨
      (input.action = gameFire ∨ input.action = gameWait) ∧
        input.axis_x = axisNone ∧ input.axis_y = axisNone) := by
  have hneg : axisNeg ≠ axisNone := by decide
  have hpos : axisPos ≠ axisNone := by decide
  have hlow : ¬axisPos < axisNone ∧ ¬axisPos < axisNeg ∧ ¬axisPos < axisPos := by decide
  have hfire : gameFire ≠ gameMove := by decide
  have hwait : gameWait ≠ gameMove := by decide
  constructor
  · intro h
    simp only [validInput] at h
    split at h
    · cases h
    · rename_i hshape
      simp only [Bool.or_eq_true, decide_eq_true_eq, Bool.not_eq_true', not_or, Bool.not_eq_false] at hshape
      obtain ⟨⟨⟨⟨hm, hs⟩, hq⟩, hx⟩, hy⟩ := hshape
      refine ⟨hm, hs, hq, ?_⟩
      split at h
      · rename_i hmove
        refine .inl ⟨hmove, ?_⟩
        rcases axis_cases hx with hx | hx | hx <;> rcases axis_cases hy with hy | hy | hy <;>
          simp_all
      · refine .inr ?_
        simpa [and_assoc] using h
  · rintro ⟨hm, hs, hq, ⟨hact, ⟨hx, hy | hy⟩ | ⟨hx | hx, hy⟩⟩ | ⟨hact | hact, hx, hy⟩⟩ <;>
      simp [validInput, hm, hs, hq, hact, hx, hy, hneg, hpos, hlow, hfire, hwait]

theorem inputRecord_fields (input : GameInput) :
    (inputRecord input).getD 5 0 = input.action ∧ (inputRecord input).getD 6 0 = input.axis_x ∧
      (inputRecord input).getD 7 0 = input.axis_y ∧ field (inputRecord input) 8 16 = input.match ∧
      field (inputRecord input) 24 16 = input.session ∧ get32 (inputRecord input) 40 = input.sequence := by
  have hmatch : (inputRecord input).drop 8 =
      input.match.toList ++ (input.session.toList ++ (put32 input.sequence ++ [0, 0, 0, 0])) := by
    simp [inputRecord, inputMagic]
  have hsession := drop_next hmatch input.match.length_toList
  have hsequence := drop_next hsession input.session.length_toList
  exact ⟨rfl, rfl, rfl, field_eq hmatch, field_eq hsession, get32_eq hsequence⟩

theorem inputRecord_fixed (input : GameInput) :
    (inputRecord input).take 4 = inputMagic ∧ (inputRecord input).getD 4 0 = 1 ∧
      (inputRecord input).drop 44 = [0, 0, 0, 0] := by
  refine ⟨rfl, rfl, ?_⟩
  have hlen : (inputMagic ++ [1, input.action, input.axis_x, input.axis_y] ++ input.match.toList ++
      input.session.toList ++ put32 input.sequence).length = 44 := by
    simp [inputMagic]
  exact List.drop_left' hlen

theorem reserved_bytes {bytes : List UInt8} (h : bytes.length = 48) :
    bytes.drop 44 = [bytes.getD 44 0, bytes.getD 45 0, bytes.getD 46 0, bytes.getD 47 0] := by
  have hfour : [bytes.getD 44 0, bytes.getD 45 0, bytes.getD 46 0, bytes.getD 47 0] =
      (bytes.drop 44).take 4 := octets 44 (by omega)
  rw [hfour, List.take_of_length_le (by rw [List.length_drop]; omega)]

/-- What the decoder reads before it judges the input. -/
def intentOf (bytes : List UInt8) : GameInput where
  «match» := field bytes 8 16
  session := field bytes 24 16
  sequence := get32 bytes 40
  action := bytes.getD 5 0
  axis_x := bytes.getD 6 0
  axis_y := bytes.getD 7 0

theorem intentOf_record (input : GameInput) : intentOf (inputRecord input) = input := by
  obtain ⟨hact, hx, hy, hm, hs, hq⟩ := inputRecord_fields input
  simp only [intentOf, hact, hx, hy, hm, hs, hq]

theorem record_intentOf {bytes : List UInt8} (hlen : bytes.length = 48)
    (hmagic : bytes.take 4 = inputMagic) (hversion : bytes.getD 4 0 = 1)
    (hreserved : bytes.drop 44 = [0, 0, 0, 0]) : inputRecord (intentOf bytes) = bytes := by
  have hhead : [1, bytes.getD 5 0, bytes.getD 6 0, bytes.getD 7 0] = (bytes.drop 4).take 4 := by
    rw [← hversion]
    exact octets 4 (by omega)
  have htail : [0, 0, 0, 0] = (bytes.drop 44).take 4 := by
    rw [hreserved]
    rfl
  rw [inputRecord, intentOf, hhead, ← hmagic, htail, field_toList bytes (by omega),
    field_toList bytes (by omega), put32_get32 (by omega)]
  simp only [← List.take_add]
  exact List.take_of_length_le hlen.le

theorem gameInputDecode_eq (bytes : List UInt8) :
    gameInputDecode bytes = if bytes.length = 48 ∧ bytes.take 4 = inputMagic ∧ bytes.getD 4 0 = 1 ∧
      bytes.drop 44 = [0, 0, 0, 0] ∧ validInput (intentOf bytes) = true then some (intentOf bytes)
      else none := by
  rw [gameInputDecode]
  by_cases hlen : bytes.length = 48
  · rw [reserved_bytes hlen]
    split
    · rename_i hbad
      rw [if_neg]
      rintro ⟨-, hmagic, hversion, hreserved, -⟩
      simp_all
    · rename_i hok
      simp only [not_or, not_not] at hok
      obtain ⟨-, hmagic, hversion, h44, h45, h46, h47⟩ := hok
      simp only [hlen, hmagic, hversion, h44, h45, h46, h47, true_and]
      rfl
  · rw [if_pos (.inl hlen), if_neg (fun h => hlen h.1)]

theorem gameInputDecode_iff {bytes : List UInt8} {input : GameInput} :
    gameInputDecode bytes = some input ↔ validInput input = true ∧ bytes = inputRecord input := by
  rw [gameInputDecode_eq]
  constructor
  · intro h
    split at h
    · rename_i hok
      obtain ⟨hlen, hmagic, hversion, hreserved, hvalid⟩ := hok
      obtain rfl := Option.some.inj h
      exact ⟨hvalid, (record_intentOf hlen hmagic hversion hreserved).symm⟩
    · cases h
  · rintro ⟨hvalid, rfl⟩
    obtain ⟨hmagic, hversion, hreserved⟩ := inputRecord_fixed input
    rw [intentOf_record, if_pos ⟨length_inputRecord input, hmagic, hversion, hreserved, hvalid⟩]


theorem any_nonzero_iff (l : List UInt8) : l.any (· ≠ 0) = true ↔ ∃ b ∈ l, b ≠ 0 := by simp

theorem get32_eq_zero {bytes : List UInt8} (h : 44 ≤ bytes.length) :
    get32 bytes 40 ≠ 0 ↔ ∃ b ∈ (bytes.drop 40).take 4, b ≠ 0 := by
  have hput : put32 (get32 bytes 40) = (bytes.drop 40).take 4 := put32_get32 (by omega)
  constructor
  · intro hne
    by_contra hzero
    have hall : (bytes.drop 40).take 4 = put32 0 := by
      have hlen : ((bytes.drop 40).take 4).length = 4 := by
        rw [List.length_take, List.length_drop]
        omega
      exact List.eq_replicate_of_mem (a := 0) (fun b hb => by
        by_contra hb0
        exact hzero ⟨b, hb, hb0⟩) |>.trans (by rw [hlen]; rfl)
    have hdrop : bytes.drop 40 = put32 0 ++ (bytes.drop 40).drop 4 := by
      rw [← hall, List.take_append_drop]
    exact hne (get32_eq hdrop)
  · rintro ⟨b, hb, hb0⟩ hzero
    rw [← hput, hzero] at hb
    have hzeros : put32 0 = List.replicate 4 0 := rfl
    rw [hzeros] at hb
    exact hb0 (List.eq_of_mem_replicate hb)

theorem gameInputDecode_isSome (bytes : List UInt8) :
    (gameInputDecode bytes).isSome = true ↔ IntentRecord bytes := by
  have hreserved : bytes.length = 48 → (bytes.drop 44 = [0, 0, 0, 0] ↔ ∀ b ∈ bytes.drop 44, b = 0) := by
    intro hlen
    rw [reserved_bytes hlen]
    simp
  rw [gameInputDecode_eq]
  constructor
  · intro h
    split at h
    · rename_i hok
      obtain ⟨hlen, hmagic, hversion, hzero, hvalid⟩ := hok
      obtain ⟨hm, hs, hq, hact⟩ := (validInput_iff _).mp hvalid
      rw [nonzeroId, intentOf, field_toList bytes (by omega), any_nonzero_iff] at hm hs
      exact ⟨hlen, hmagic, hversion, hact, ⟨hm, hs⟩, (get32_eq_zero (by omega)).mp hq,
        (hreserved hlen).mp hzero⟩
    · cases h
  · intro h
    have hlen := h.size
    have hvalid : validInput (intentOf bytes) = true := by
      refine (validInput_iff _).mpr ⟨?_, ?_, (get32_eq_zero (by omega)).mpr h.sequence, h.action⟩
      · rw [nonzeroId, intentOf, field_toList bytes (by omega), any_nonzero_iff]
        exact h.ids.1
      · rw [nonzeroId, intentOf, field_toList bytes (by omega), any_nonzero_iff]
        exact h.ids.2
    rw [if_pos ⟨hlen, h.magic, h.version, (hreserved hlen).mpr h.reserved, hvalid⟩]
    rfl

theorem gameInputEncode_eq (bytes : List UInt8) (size : ℕ) (input : GameInput) :
    gameInputEncode bytes size input =
      if size = 48 ∧ validInput input = true then (inputRecord input ++ bytes.drop 48, true)
      else (bytes, false) := by
  have hlen := length_inputRecord input
  have hput : ByteStores.put bytes (0, inputRecord input) = inputRecord input ++ bytes.drop 48 := by
    rw [ByteStores.put, hlen]
    rfl
  rw [gameInputEncode, gameInputStores_run, hput]
  by_cases h : size = 48 ∧ validInput input = true
  · rw [if_neg (by simp [h.1, h.2]), if_pos h]
  · rw [if_pos (by by_contra hc; simp at hc; exact h hc), if_neg h]

theorem pyState_length {data : List UInt8} {s : GameState} (h : pyState data = .ok s) :
    data.length = 80 := by
  simp only [pyState] at h
  split at h
  · cases h
  · split at h
    · cases h
    · rename_i hshape
      simp only [not_or, not_not] at hshape
      exact hshape.1

theorem gameView_ids {data : List UInt8} {v : GameView} (h : gameViewDecode data = some v) :
    v.match = field data 20 16 ∧ v.session = field data 36 16 ∧
      nonzeroId v.match = true ∧ nonzeroId v.session = true := by
  simp only [gameViewDecode] at h
  split at h
  · cases h
  · split at h
    · cases h
    · rename_i hids
      simp only [Bool.or_eq_true, Bool.not_eq_true', not_or, Bool.not_eq_false] at hids
      split at h
      · cases h
      · split at h
        · cases h
        · obtain rfl := Option.some.inj h
          exact ⟨rfl, rfl, hids.1, hids.2⟩

theorem hello_view {hello : List UInt8} {s : GameState} (h : pyState hello = .ok s) :
    ∃ v, gameViewDecode hello = some v ∧ v.common = s := by
  have hview := pyState_view hello (pyState_length h)
  rw [h] at hview
  cases hv : gameViewDecode hello with
  | none =>
    rw [hv] at hview
    cases hview
  | some v =>
    rw [hv] at hview
    exact ⟨v, rfl, (Option.some.inj hview).symm⟩

theorem directions_valid {action : String} {kind x y : UInt8}
    (h : directions.lookup action = some (kind, x, y)) :
    kind = gameMove ∧ (x = axisNone ∧ (y = axisNeg ∨ y = axisPos) ∨
        (x = axisNeg ∨ x = axisPos) ∧ y = axisNone) ∨
      (kind = gameFire ∨ kind = gameWait) ∧ x = axisNone ∧ y = axisNone := by
  have hall : ∀ d ∈ directions, d.2.1 = gameMove ∧
      (d.2.2.1 = axisNone ∧ (d.2.2.2 = axisNeg ∨ d.2.2.2 = axisPos) ∨
        (d.2.2.1 = axisNeg ∨ d.2.2.1 = axisPos) ∧ d.2.2.2 = axisNone) ∨
      (d.2.1 = gameFire ∨ d.2.1 = gameWait) ∧ d.2.2.1 = axisNone ∧ d.2.2.2 = axisNone := by
    simp [directions, gameMove, gameFire, gameWait, axisNone, axisNeg, axisPos]
  obtain ⟨l₁, l₂, hl, -⟩ := List.lookup_eq_some_iff.mp h
  have hmem : (action, kind, x, y) ∈ directions := by
    rw [hl]
    simp
  exact hall _ hmem

theorem gameCommand_record {hello : List UInt8} {st : GameState} {v : GameView} {action : String}
    {sequence : ℤ} {kind x y : UInt8} (h : pyState hello = .ok st) (hview : gameViewDecode hello = some v)
    (haction : directions.lookup action = some (kind, x, y)) (hlow : 0 < sequence)
    (hhigh : sequence < 0xffffffff) : gameCommand hello sequence action =
      .ok (inputRecord ⟨v.match, v.session, UInt32.ofNat sequence.toNat, kind, x, y⟩) := by
  have hlen := pyState_length h
  obtain ⟨hm, hs, -, -⟩ := gameView_ids hview
  have hids : (hello.drop 20).take 32 = v.match.toList ++ v.session.toList := by
    rw [hm, hs, field_toList hello (by omega), field_toList hello (by omega)]
    exact List.take_add (l := hello.drop 20) (i := 16) (j := 16) |>.trans (by rw [List.drop_drop])
  have hword : (UInt32.ofNat sequence.toNat).toNat = sequence.toNat :=
    UInt32.toNat_ofNat_of_lt' (show sequence.toNat < 2 ^ 32 by omega)
  have hbytes : LittleEndian.bytes sequence.toNat 4 = put32 (UInt32.ofNat sequence.toNat) := by
    rw [put32_eq, hword]
  simp only [gameCommand, h, haction, Except.bind, if_pos (And.intro hlow hhigh), hids, hbytes,
    inputRecord, List.append_assoc]

theorem decodeInto_record {input : GameInput} (h : validInput input = true) (g : GameInput) :
    gameInputDecodeInto (inputRecord input) g = (input, true) := by
  rw [gameInputDecodeInto, gameInputDecode_iff.mpr ⟨h, rfl⟩]

/-- The C codec and the Python builder agree on the record of an intent. -/
theorem intent_agreement :
    (∀ (input g : GameInput) (bytes : List UInt8), validInput input = true →
      ∃ record, gameInputEncode bytes 48 input = (record ++ bytes.drop 48, true) ∧
        record.length = 48 ∧ gameInputDecodeInto record g = (input, true)) ∧
    (∀ (bytes out : List UInt8) (input g : GameInput), gameInputDecodeInto bytes g = (input, true) →
      bytes.length = 48 ∧ gameInputEncode out 48 input = (bytes ++ out.drop 48, true)) ∧
    (∀ (bytes : List UInt8) (g : GameInput),
      ((gameInputDecodeInto bytes g).2 = true ↔ IntentRecord bytes) ∧
      ((gameInputDecodeInto bytes g).2 = false → (gameInputDecodeInto bytes g).1 = g)) ∧
    (∀ (bytes : List UInt8) (size : ℕ) (input : GameInput),
      (gameInputEncode bytes size input).2 = false → (gameInputEncode bytes size input).1 = bytes) ∧
    ∀ (hello : List UInt8) (st : GameState) (action : String) (sequence : ℤ) (kind x y : UInt8),
      pyState hello = .ok st → directions.lookup action = some (kind, x, y) →
      0 < sequence → sequence < 0xffffffff →
      ∃ bytes v input, gameCommand hello sequence action = .ok bytes ∧
        gameViewDecode hello = some v ∧ (∀ g, gameInputDecodeInto bytes g = (input, true)) ∧
        input.action = kind ∧ input.axis_x = x ∧ input.axis_y = y ∧
        (input.sequence.toNat : ℤ) = sequence ∧ input.match = v.match ∧ input.session = v.session := by
  refine ⟨?_, ?_, ?_, ?_, ?_⟩
  · intro input g bytes hvalid
    refine ⟨inputRecord input, ?_, length_inputRecord input, decodeInto_record hvalid g⟩
    rw [gameInputEncode_eq, if_pos ⟨rfl, hvalid⟩]
  · intro bytes out input g h
    rw [gameInputDecodeInto] at h
    split at h
    · rename_i candidate hdec
      obtain rfl := congrArg Prod.fst h
      obtain ⟨hvalid, rfl⟩ := gameInputDecode_iff.mp hdec
      exact ⟨length_inputRecord _, by rw [gameInputEncode_eq, if_pos ⟨rfl, hvalid⟩]⟩
    · cases congrArg Prod.snd h
  · intro bytes g
    rw [← gameInputDecode_isSome, gameInputDecodeInto]
    cases gameInputDecode bytes with
    | none => simp
    | some candidate => simp
  · intro bytes size input h
    rw [gameInputEncode_eq] at h ⊢
    split at h
    · cases h
    · rename_i hbad
      rw [if_neg hbad]
  · intro hello st action sequence kind x y h haction hlow hhigh
    obtain ⟨v, hview, -⟩ := hello_view h
    obtain ⟨-, -, hm, hs⟩ := gameView_ids hview
    have hword : (UInt32.ofNat sequence.toNat).toNat = sequence.toNat :=
      UInt32.toNat_ofNat_of_lt' (show sequence.toNat < 2 ^ 32 by omega)
    have hne : UInt32.ofNat sequence.toNat ≠ 0 := by
      intro hzero
      have hz := congrArg UInt32.toNat hzero
      rw [hword, UInt32.toNat_zero] at hz
      omega
    have hvalid : validInput ⟨v.match, v.session, UInt32.ofNat sequence.toNat, kind, x, y⟩ = true :=
      (validInput_iff _).mpr ⟨hm, hs, hne, directions_valid haction⟩
    refine ⟨_, v, _, gameCommand_record h hview haction hlow hhigh, hview, decodeInto_record hvalid,
      rfl, rfl, rfl, ?_, rfl, rfl⟩
    show ((UInt32.ofNat sequence.toNat).toNat : ℤ) = sequence
    rw [hword]
    omega

def helloState : List UInt8 :=
  stateMagic ++ [1, 0, 0, 1] ++ List.replicate 12 0 ++ List.replicate 16 1 ++ List.replicate 16 2 ++
    List.replicate 8 0 ++ [100, 4, 0, 0, 0xF4, 1, 0, 0, 0, 0, 0, 0, 100, 4, 0, 0, 3, 0, 0, 0]

def sampleIntent : GameInput :=
  ⟨Vector.replicate 16 1, Vector.replicate 16 2, 0x12345678, gameMove, axisNeg, axisNone⟩

theorem intent_agreement_west :
    (∃ record, gameInputEncode [] 48 sampleIntent = (record, true) ∧
      gameInputDecodeInto record sampleIntent = (sampleIntent, true)) ∧
    gameInputEncode [7] 48 (gameInputDecodeInto (inputRecord sampleIntent) sampleIntent).1 =
      (inputRecord sampleIntent, true) ∧
    (∃ bytes v input, gameCommand helloState 305419896 "west" = .ok bytes ∧
      gameViewDecode helloState = some v ∧ (∀ g, gameInputDecodeInto bytes g = (input, true)) ∧
      input.axis_x = 1 ∧ input.match = v.match) := by
  obtain ⟨hback, hforth, -, -, hbuilt⟩ := intent_agreement
  have hdec : gameInputDecodeInto (inputRecord sampleIntent) sampleIntent = (sampleIntent, true) := by
    decide
  refine ⟨?_, ?_, ?_⟩
  · obtain ⟨record, henc, -, hd⟩ := hback sampleIntent sampleIntent [] (by decide)
    exact ⟨record, by simpa using henc, hd⟩
  · have h := (hforth (inputRecord sampleIntent) [7] sampleIntent sampleIntent hdec).2
    rw [hdec]
    simpa using h
  · obtain ⟨bytes, v, input, hb, hv, hd, -, hx, -, -, hm, -⟩ :=
      hbuilt helloState _ "west" 305419896 1 1 0 (by rfl) (by decide) (by decide) (by decide)
    exact ⟨bytes, v, input, hb, hv, hd, hx, hm⟩

end ArenaLab
