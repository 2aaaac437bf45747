import ArenaLab.GameRules
import ArenaLab.WireBytes

/-! The state record `LGST/1`: the worker's encoder and the decoders of the C
client and of the Python service. -/

namespace ArenaLab

def GameResult.code : GameResult → UInt8
  | .ok => 0
  | .badInput => 1
  | .wrongMatch => 2
  | .wrongSession => 3
  | .closed => 4
  | .dead => 5
  | .replay => 6
  | .sequenceExhausted => 7
  | .tickUsed => 8
  | .cooldown => 9
  | .noAmmo => 10
  | .wall => 11
  | .occupied => 12
  | .clockExhausted => 13

def putLe (value : UInt64) (count : ℕ) : List UInt8 :=
  (List.range count).map (fun i => (value >>> UInt64.ofNat (8 * i)).toUInt8)

/-- The conversion of an `int32_t` to `uint32_t` and on to `uint64_t`. -/
def unsigned32 (v : ℤ) : UInt64 := UInt64.ofNat (v % 4294967296).toNat

def stateMagic : List UInt8 := [0x4C, 0x47, 0x53, 0x54]

def playerRecord (p : GamePlayer) : List UInt8 :=
  putLe (unsigned32 p.x_mm) 4 ++ putLe (unsigned32 p.y_mm) 4 ++
    [UInt8.ofNat p.health, UInt8.ofNat p.ammo, UInt8.ofNat p.hits, UInt8.ofNat p.kills]

def openMask (w : GameWorld) : UInt8 :=
  (if (w.players 0).isOpen then 1 else 0) ||| (if (w.players 1).isOpen then 2 else 0)

/-- The bytes that `reply` writes. -/
def reply (w : GameWorld) (slot : Fin 2) (sequence : UInt32) (status : GameResult) : List UInt8 :=
  stateMagic ++ [1, status.code, UInt8.ofNat slot, 1] ++ putLe w.tick 8 ++ putLe sequence.toUInt64 4 ++
    w.match.toList ++ (w.players slot).session.toList ++ playerRecord (w.players 0) ++
    playerRecord (w.players 1) ++ [openMask w, 0, 0, 0]

def readLe (bytes : List UInt8) (count : ℕ) : UInt64 :=
  (List.range count).foldl
    (fun result i => result ||| ((bytes.getD i 0).toUInt64 <<< UInt64.ofNat (8 * i))) 0

def signed32 (bytes : List UInt8) : ℤ :=
  let raw := (readLe bytes 4).toUInt32
  if raw.toNat ≤ 2147483647 then raw.toNat else raw.toNat - 4294967296

structure ViewPlayer where
  x_mm : ℤ
  y_mm : ℤ
  health : UInt8
  ammo : UInt8
  hits : UInt8
  kills : UInt8
  isOpen : Bool

structure GameView where
  «match» : Bytes 16
  session : Bytes 16
  slot : UInt8
  result : UInt8
  sequence : UInt32
  tick : UInt64
  players : Fin 2 → ViewPlayer

def viewPlayer (bytes : List UInt8) (i : Fin 2) : ViewPlayer :=
  let p := bytes.drop (52 + 12 * i)
  { x_mm := signed32 p
    y_mm := signed32 (p.drop 4)
    health := p.getD 8 0
    ammo := p.getD 9 0
    hits := p.getD 10 0
    kills := p.getD 11 0
    isOpen := bytes.getD 76 0 &&& (1 <<< UInt8.ofNat i) ≠ 0 }

def ViewPlayer.inRange (p : ViewPlayer) : Bool :=
  !(p.x_mm < -gameEdgeMm || gameEdgeMm < p.x_mm || p.y_mm < -gameEdgeMm || gameEdgeMm < p.y_mm ||
    100 < p.health || 4 < p.ammo || 4 < p.hits || 1 < p.kills)

def gameViewDecode (bytes : List UInt8) : Option GameView :=
  if bytes.length ≠ 80 ∨ bytes.take 5 ≠ stateMagic ++ [1] ∨ 13 < bytes.getD 5 0 ∨
      2 ≤ bytes.getD 6 0 ∨ bytes.getD 7 0 ≠ 1 ∨ 3 < bytes.getD 76 0 ∨ bytes.getD 77 0 ≠ 0 ∨
      bytes.getD 78 0 ≠ 0 ∨ bytes.getD 79 0 ≠ 0 then none
  else
    let view : GameView :=
      { «match» := field bytes 20 16
        session := field bytes 36 16
        slot := bytes.getD 6 0
        result := bytes.getD 5 0
        sequence := (readLe (bytes.drop 16) 4).toUInt32
        tick := readLe (bytes.drop 8) 8
        players := viewPlayer bytes }
    if !nonzeroId view.match || !nonzeroId view.session then none
    else if !(view.players 0).inRange then none
    else if !(view.players 1).inRange then none
    else some view

def gameResults : List String :=
  ["ACCEPTED", "BAD_INPUT", "WRONG_MATCH", "WRONG_SESSION", "SESSION_CLOSED", "PLAYER_DEAD",
    "SEQUENCE_REPLAY", "SEQUENCE_EXHAUSTED", "TICK_ALREADY_USED", "FIRE_COOLDOWN", "NO_AMMO",
    "OUTSIDE_ARENA", "POSITION_OCCUPIED", "SERVER_TICK_EXHAUSTED"]

def gameErrors : ℕ → Option String
  | 1 => some "IDENTITY_NOT_ENROLLED"
  | 2 => some "PLAYER_CONNECTED"
  | 3 => some "SESSION_CLOSED"
  | 4 => some "WORKER_UNAVAILABLE"
  | 5 => some "BAD_FRAME"
  | 6 => some "SESSION_LIMIT"
  | 7 => some "MATCH_INACTIVE"
  | _ => none

structure StatePlayer where
  x_mm : ℤ
  y_mm : ℤ
  health : ℕ
  ammo : ℕ
  hits : ℕ
  kills : ℕ
  isOpen : Bool
  deriving DecidableEq

structure GameState where
  tick : ℕ
  sequence : ℕ
  player : ℕ
  reason : String
  profile : String
  players : List StatePlayer
  deriving DecidableEq

/-- `struct.unpack` of a little-endian signed 32-bit integer. -/
def unpackInt (bytes : List UInt8) : ℤ :=
  let v := LittleEndian.value (bytes.take 4)
  if v < 2147483648 then v else v - 4294967296

def statePlayer (data : List UInt8) (slot : ℕ) : Except String StatePlayer :=
  let record := data.drop (52 + slot * 12)
  let p : StatePlayer :=
    { x_mm := unpackInt record
      y_mm := unpackInt (record.drop 4)
      health := (record.getD 8 0).toNat
      ammo := (record.getD 9 0).toNat
      hits := (record.getD 10 0).toNat
      kills := (record.getD 11 0).toNat
      isOpen := (data.getD 76 0).toNat &&& (1 <<< slot) ≠ 0 }
  if -10000 ≤ p.x_mm ∧ p.x_mm ≤ 10000 ∧ -10000 ≤ p.y_mm ∧ p.y_mm ≤ 10000 ∧ p.health ≤ 100 ∧
      p.ammo ≤ 4 ∧ p.hits ≤ 4 ∧ p.kills ≤ 1 then .ok p
  else .error "STATE_RANGE"

/-- The errors that the service answers in place of a record. -/
def stateError (data : List UInt8) : Option String :=
  if data.length = 5 ∧ data.take 4 = [0x4C, 0x47, 0x52, 0x45] then gameErrors (data.getD 4 0).toNat
  else none

def pyState (data : List UInt8) : Except String GameState :=
  match stateError data with
  | some reason => .error reason
  | none =>
    if data.length ≠ 80 ∨ data.take 5 ≠ stateMagic ++ [1] ∨ gameResults.length ≤ (data.getD 5 0).toNat ∨
        1 < data.getD 6 0 ∨ data.getD 7 0 ≠ 1 ∨ 3 < data.getD 76 0 ∨ (data.drop 77).any (· ≠ 0) then
      .error "STATE_SCHEMA"
    else (statePlayer data 0).bind fun a => (statePlayer data 1).bind fun b =>
      if !((data.drop 20).take 16).any (· ≠ 0) || !((data.drop 36).take 16).any (· ≠ 0) then
        .error "STATE_IDENTITY"
      else .ok
        { tick := LittleEndian.value ((data.drop 8).take 8)
          sequence := LittleEndian.value ((data.drop 16).take 4)
          player := (data.getD 6 0).toNat
          reason := gameResults.getD (data.getD 5 0).toNat ""
          profile := "server_rules_v1"
          players := [a, b] }

def ViewPlayer.common (p : ViewPlayer) : StatePlayer :=
  ⟨p.x_mm, p.y_mm, p.health.toNat, p.ammo.toNat, p.hits.toNat, p.kills.toNat, p.isOpen⟩

def GameView.common (v : GameView) : GameState where
  tick := v.tick.toNat
  sequence := v.sequence.toNat
  player := v.slot.toNat
  reason := gameResults.getD v.result.toNat ""
  profile := "server_rules_v1"
  players := [(v.players 0).common, (v.players 1).common]

theorem shift_toNat {i : ℕ} (h : i < 8) : (UInt64.ofNat (8 * i)).toNat % 64 = 8 * i := by
  rw [UInt64.toNat_ofNat_of_lt' (show 8 * i < 2 ^ 64 by omega)]
  omega

theorem putLe_eq (v : UInt64) {count : ℕ} (h : count ≤ 8) :
    putLe v count = LittleEndian.bytes v.toNat count := by
  apply List.ext_getElem?
  intro i
  by_cases hi : i < count
  · rw [LittleEndian.getElem?_bytes _ hi]
    simp only [putLe, List.getElem?_map, List.getElem?_range hi, Option.map_some, Option.some.injEq]
    rw [← UInt8.toNat_inj, UInt64.toNat_toUInt8, UInt64.toNat_shiftRight, shift_toNat (by omega),
      UInt8.toNat_ofNat', Nat.shiftRight_eq_div_pow, pow_mul]
    rfl
  · rw [List.getElem?_eq_none (by simp [putLe]; omega), List.getElem?_eq_none (by simp; omega)]

theorem readLe_succ (l : List UInt8) (n : ℕ) :
    readLe l (n + 1) = readLe l n ||| ((l.getD n 0).toUInt64 <<< UInt64.ofNat (8 * n)) := by
  simp [readLe, List.range_succ]

theorem readLe_toNat (l : List UInt8) {n : ℕ} (h : n ≤ 8) :
    (readLe l n).toNat = LittleEndian.value ((List.range n).map (l.getD · 0)) := by
  induction n with
  | zero => rfl
  | succ n ih =>
    have hlow : (readLe l n).toNat < 2 ^ (8 * n) := by
      have hlt := LittleEndian.value_lt ((List.range n).map (l.getD · 0))
      rw [ih (by omega)]
      simpa [pow_mul] using hlt
    have hbyte := (l.getD n 0).toNat_lt
    have hpow : 2 ^ (8 * n) * 256 ≤ 2 ^ 64 := by
      calc 2 ^ (8 * n) * 256 = 2 ^ (8 * n + 8) := by rw [pow_add]; rfl
        _ ≤ 2 ^ 64 := Nat.pow_le_pow_right (by omega) (by omega)
    have hshift : ((l.getD n 0).toUInt64 <<< UInt64.ofNat (8 * n)).toNat =
        2 ^ (8 * n) * (l.getD n 0).toNat := by
      rw [UInt64.toNat_shiftLeft, shift_toNat (by omega), UInt8.toNat_toUInt64, Nat.shiftLeft_eq,
        Nat.mul_comm]
      apply Nat.mod_eq_of_lt
      calc 2 ^ (8 * n) * (l.getD n 0).toNat < 2 ^ (8 * n) * 256 :=
            Nat.mul_lt_mul_of_pos_left hbyte (Nat.two_pow_pos _)
        _ ≤ 2 ^ 64 := hpow
    rw [readLe_succ, UInt64.toNat_or, hshift, Nat.or_comm,
      ← Nat.two_pow_add_eq_or_of_lt hlow, ih (by omega), List.range_succ, List.map_append,
      LittleEndian.value_append]
    simp [pow_mul]
    ring

theorem readLe_take (l : List UInt8) {n : ℕ} (h : n ≤ 8) (hl : n ≤ l.length) :
    (readLe l n).toNat = LittleEndian.value (l.take n) := by
  rw [readLe_toNat l h, map_range_getD l hl]

theorem toUInt32_readLe (l : List UInt8) (h : 4 ≤ l.length) :
    (readLe l 4).toUInt32.toNat = LittleEndian.value (l.take 4) := by
  have hlt := LittleEndian.value_lt (l.take 4)
  rw [List.length_take, Nat.min_eq_left h] at hlt
  rw [UInt64.toNat_toUInt32, readLe_take l (by omega) h]
  exact Nat.mod_eq_of_lt hlt

theorem signed32_eq (l : List UInt8) (h : 4 ≤ l.length) : signed32 l = unpackInt l := by
  simp only [signed32, unpackInt, toUInt32_readLe l h]
  by_cases hv : LittleEndian.value (l.take 4) < 2147483648
  · rw [if_pos hv, if_pos (by omega)]
  · rw [if_neg hv, if_neg (by omega)]

theorem tail_bytes (l : List UInt8) (h : l.length = 80) :
    l.drop 77 = [l.getD 77 0, l.getD 78 0, l.getD 79 0] := by
  rw [← List.take_of_length_le (l := l.drop 77) (i := 3) (by simp [h]),
    ← map_range_getD (l.drop 77) (by simp [h])]
  simp [List.range_succ]

theorem nonzeroId_field (l : List UInt8) (off : ℕ) (h : off + 16 ≤ l.length) :
    nonzeroId (field l off 16) = ((l.drop off).take 16).any (· ≠ 0) := by
  rw [nonzeroId, field_toList l h]

theorem open_bit (b : UInt8) (i : Fin 2) :
    (b &&& (1 <<< UInt8.ofNat i) ≠ 0) ↔ (b.toNat &&& (1 <<< (i : ℕ)) ≠ 0) := by
  have hbit : ((1 : UInt8) <<< UInt8.ofNat i).toNat = 1 <<< (i : ℕ) := by
    revert i
    decide
  rw [ne_eq, ← UInt8.toNat_inj, UInt8.toNat_and, hbit]
  rfl

theorem inRange_iff (p : ViewPlayer) : p.inRange = true ↔
    -10000 ≤ p.x_mm ∧ p.x_mm ≤ 10000 ∧ -10000 ≤ p.y_mm ∧ p.y_mm ≤ 10000 ∧ p.health.toNat ≤ 100 ∧
      p.ammo.toNat ≤ 4 ∧ p.hits.toNat ≤ 4 ∧ p.kills.toNat ≤ 1 := by
  have hedge : gameEdgeMm = 10000 := rfl
  have h100 : (100 : UInt8).toNat = 100 := rfl
  have h4 : (4 : UInt8).toNat = 4 := rfl
  have h1 : (1 : UInt8).toNat = 1 := rfl
  simp only [ViewPlayer.inRange, Bool.not_eq_true', Bool.or_eq_false_iff, decide_eq_false_iff_not,
    UInt8.lt_iff_toNat_lt, h100, h4, h1]
  omega

theorem statePlayer_eq (l : List UInt8) (h : l.length = 80) (i : Fin 2) :
    statePlayer l i = if (viewPlayer l i).inRange then .ok (viewPlayer l i).common
      else .error "STATE_RANGE" := by
  have hi := i.isLt
  have hoff : 52 + (i : ℕ) * 12 = 52 + 12 * (i : ℕ) := by omega
  have hx : unpackInt (l.drop (52 + 12 * i)) = (viewPlayer l i).x_mm :=
    (signed32_eq _ (by rw [List.length_drop, h]; omega)).symm
  have hy : unpackInt ((l.drop (52 + 12 * i)).drop 4) = (viewPlayer l i).y_mm :=
    (signed32_eq _ (by rw [List.length_drop, List.length_drop, h]; omega)).symm
  have hopen : decide ((l.getD 76 0).toNat &&& (1 <<< (i : ℕ)) ≠ 0) = (viewPlayer l i).isOpen :=
    decide_eq_decide.mpr (open_bit (l.getD 76 0) i).symm
  simp only [statePlayer, hoff, hx, hy, hopen]
  by_cases hr : (viewPlayer l i).inRange = true
  · rw [if_pos hr]
    exact if_pos ((inRange_iff _).mp hr)
  · rw [if_neg hr]
    exact if_neg (fun hc => hr ((inRange_iff _).mpr hc))

/-- On every string of eighty bytes the two decoders accept the same and read the same. -/
theorem pyState_view (l : List UInt8) (h : l.length = 80) :
    (pyState l).toOption = (gameViewDecode l).map GameView.common := by
  have herr : stateError l = none := if_neg (by omega)
  have hresults : gameResults.length = 14 := rfl
  have h5 : (13 < l.getD 5 0) ↔ gameResults.length ≤ (l.getD 5 0).toNat := by
    rw [UInt8.lt_iff_toNat_lt, hresults]
    exact Nat.lt_iff_add_one_le
  have h6 : (2 ≤ l.getD 6 0) ↔ 1 < l.getD 6 0 := by
    rw [UInt8.le_iff_toNat_le, UInt8.lt_iff_toNat_lt]
    exact Nat.lt_iff_add_one_le
  have htail : (l.drop 77).any (· ≠ 0) = true ↔
      l.getD 77 0 ≠ 0 ∨ l.getD 78 0 ≠ 0 ∨ l.getD 79 0 ≠ 0 := by
    rw [tail_bytes l h]
    simp
  have hmatch := nonzeroId_field l 20 (by omega)
  have hsession := nonzeroId_field l 36 (by omega)
  have htick := readLe_take (l.drop 8) (n := 8) (by omega) (by rw [List.length_drop]; omega)
  have hseq := toUInt32_readLe (l.drop 16) (by rw [List.length_drop]; omega)
  have ha := statePlayer_eq l h 0
  have hb := statePlayer_eq l h 1
  have h0 : ((0 : Fin 2) : ℕ) = 0 := rfl
  have h1 : ((1 : Fin 2) : ℕ) = 1 := rfl
  rw [h0] at ha
  rw [h1] at hb
  simp only [pyState, gameViewDecode, herr, h5, h6, htail]
  split
  · rfl
  · rw [hmatch, hsession, ha, hb]
    by_cases hra : (viewPlayer l 0).inRange = true
    · by_cases hrb : (viewPlayer l 1).inRange = true
      · simp only [hra, hrb, if_true, Except.bind, Bool.not_true, Bool.false_eq_true, if_false]
        split
        · rfl
        · simp only [Except.toOption, Option.map_some, GameView.common, htick, hseq]
      · simp only [hra, hrb, Except.bind, if_true, Bool.not_false, Bool.not_true, Bool.false_eq_true, if_false]
        split <;> rfl
    · simp only [hra, Except.bind, if_true, Bool.not_false, Bool.false_eq_true, if_false]
      split <;> rfl

def GameResult.name : GameResult → String
  | .ok => "ACCEPTED"
  | .badInput => "BAD_INPUT"
  | .wrongMatch => "WRONG_MATCH"
  | .wrongSession => "WRONG_SESSION"
  | .closed => "SESSION_CLOSED"
  | .dead => "PLAYER_DEAD"
  | .replay => "SEQUENCE_REPLAY"
  | .sequenceExhausted => "SEQUENCE_EXHAUSTED"
  | .tickUsed => "TICK_ALREADY_USED"
  | .cooldown => "FIRE_COOLDOWN"
  | .noAmmo => "NO_AMMO"
  | .wall => "OUTSIDE_ARENA"
  | .occupied => "POSITION_OCCUPIED"
  | .clockExhausted => "SERVER_TICK_EXHAUSTED"

/-- What a record should show of a player and of the world, with nothing cut off. -/
def GamePlayer.shown (p : GamePlayer) : StatePlayer :=
  ⟨p.x_mm, p.y_mm, p.health, p.ammo, p.hits, p.kills, p.isOpen⟩

def GameWorld.shown (w : GameWorld) (slot : Fin 2) (sequence : UInt32) (status : GameResult) :
    GameState where
  tick := w.tick.toNat
  sequence := sequence.toNat
  player := slot
  reason := status.name
  profile := "server_rules_v1"
  players := [(w.players 0).shown, (w.players 1).shown]

theorem length_putLe (v : UInt64) (count : ℕ) : (putLe v count).length = count := by simp [putLe]

theorem value_putLe (v : UInt64) {count : ℕ} (h : count ≤ 8) :
    LittleEndian.value (putLe v count) = v.toNat % 256 ^ count := by
  rw [putLe_eq v h, LittleEndian.value_bytes]

theorem take_putLe (v : UInt64) (count : ℕ) (rest : List UInt8) :
    (putLe v count ++ rest).take count = putLe v count := List.take_left' (length_putLe v count)

theorem drop_putLe (v : UInt64) (count : ℕ) (rest : List UInt8) :
    (putLe v count ++ rest).drop count = rest := List.drop_left' (length_putLe v count)

theorem drop_next {l a b : List UInt8} {n k : ℕ} (h : l.drop n = a ++ b) (hk : a.length = k) :
    l.drop (n + k) = b := by
  rw [← List.drop_drop, h]
  exact List.drop_left' hk

theorem signed32_putLe (x : ℤ) (rest : List UInt8) (hlow : -2147483648 ≤ x) (hhigh : x < 2147483648) :
    signed32 (putLe (unsigned32 x) 4 ++ rest) = x := by
  have hword : (unsigned32 x).toNat = (x % 4294967296).toNat :=
    UInt64.toNat_ofNat_of_lt' (show (x % 4294967296).toNat < 2 ^ 64 by omega)
  have hvalue : LittleEndian.value ((putLe (unsigned32 x) 4 ++ rest).take 4) =
      (x % 4294967296).toNat := by
    rw [take_putLe, value_putLe _ (by omega), hword]
    omega
  have hlen : 4 ≤ (putLe (unsigned32 x) 4 ++ rest).length := by
    rw [List.length_append, length_putLe]
    omega
  rw [signed32_eq _ hlen]
  simp only [unpackInt, hvalue]
  split <;> omega

section

variable (w : GameWorld) (slot : Fin 2) (sequence : UInt32) (status : GameResult)

def replyTail : List UInt8 :=
  playerRecord (w.players 0) ++ (playerRecord (w.players 1) ++ [openMask w, 0, 0, 0])

theorem reply_eq : reply w slot sequence status =
    [0x4C, 0x47, 0x53, 0x54, 1, status.code, UInt8.ofNat slot, 1] ++ (putLe w.tick 8 ++
      (putLe sequence.toUInt64 4 ++ (w.match.toList ++ ((w.players slot).session.toList ++
        replyTail w)))) := by
  simp [reply, stateMagic, replyTail]

theorem length_playerRecord (p : GamePlayer) : (playerRecord p).length = 12 := by
  simp [playerRecord, length_putLe]

theorem length_reply : (reply w slot sequence status).length = 80 := by
  simp [reply_eq, replyTail, length_putLe, length_playerRecord]

theorem reply_drop_tick : (reply w slot sequence status).drop 8 = putLe w.tick 8 ++
    (putLe sequence.toUInt64 4 ++ (w.match.toList ++ ((w.players slot).session.toList ++
      replyTail w))) := by
  rw [reply_eq]
  exact List.drop_left' rfl

theorem reply_drop_sequence : (reply w slot sequence status).drop 16 = putLe sequence.toUInt64 4 ++
    (w.match.toList ++ ((w.players slot).session.toList ++ replyTail w)) :=
  drop_next (reply_drop_tick w slot sequence status) (length_putLe _ _)

theorem reply_drop_match : (reply w slot sequence status).drop 20 =
    w.match.toList ++ ((w.players slot).session.toList ++ replyTail w) :=
  drop_next (reply_drop_sequence w slot sequence status) (length_putLe _ _)

theorem reply_drop_session : (reply w slot sequence status).drop 36 =
    (w.players slot).session.toList ++ replyTail w :=
  drop_next (reply_drop_match w slot sequence status) w.match.length_toList

theorem reply_drop_tail : (reply w slot sequence status).drop 52 = replyTail w :=
  drop_next (reply_drop_session w slot sequence status) (w.players slot).session.length_toList

theorem reply_drop_player (i : Fin 2) : ∃ rest, (reply w slot sequence status).drop (52 + 12 * i) =
    playerRecord (w.players i) ++ rest := by
  rw [← List.drop_drop, reply_drop_tail, replyTail]
  rcases slot_cases i 0 with rfl | rfl
  · exact ⟨_, rfl⟩
  · exact ⟨_, List.drop_left' (length_playerRecord _)⟩

theorem reply_drop_mask : (reply w slot sequence status).drop 76 = [openMask w, 0, 0, 0] :=
  drop_next (drop_next (reply_drop_tail w slot sequence status) (length_playerRecord _))
    (length_playerRecord _)

theorem openMask_bit (i : Fin 2) :
    decide (openMask w &&& (1 <<< UInt8.ofNat i) ≠ 0) = (w.players i).isOpen := by
  have hbits : ∀ (a b : Bool) (j : Fin 2),
      decide ((((if a then 1 else 0) ||| (if b then 2 else 0) : UInt8) &&&
        (1 <<< UInt8.ofNat j)) ≠ 0) = if j = 0 then a else b := by decide
  rw [openMask, hbits]
  rcases slot_cases i 0 with rfl | rfl <;> rfl

end

/-- The record cuts off nothing of a player that keeps the rules. -/
theorem viewPlayer_record {w : GameWorld} (h : GameRules w) (slot : Fin 2) (sequence : UInt32)
    (status : GameResult) (i : Fin 2) :
    (viewPlayer (reply w slot sequence status) i).common = (w.players i).shown ∧
      (viewPlayer (reply w slot sequence status) i).inRange = true := by
  obtain ⟨rest, hdrop⟩ := reply_drop_player w slot sequence status i
  have hrules := h.own i
  obtain ⟨hxl, hxh⟩ := hrules.x_range
  obtain ⟨hyl, hyh⟩ := hrules.y_range
  obtain ⟨hammo, hhits⟩ := hrules.shots
  have hhealth := h.health (1 - i)
  have hkills := h.kills i
  rw [other_other] at hhealth
  simp only [gameEdgeMm, gameAmmo, gameDamage, gameHealth] at hxl hxh hyl hyh hammo hhits hhealth
  have hbyte : ∀ n : ℕ, n ≤ 100 → (UInt8.ofNat n).toNat = n :=
    fun n hn => UInt8.toNat_ofNat_of_lt' (show n < 2 ^ 8 by omega)
  have hk : (w.players i).kills ≤ 1 := by
    rw [hkills]
    split <;> omega
  have hmask : (reply w slot sequence status).getD 76 0 = openMask w := by
    have hget := getD_drop (reply w slot sequence status) 76 0
    rw [reply_drop_mask] at hget
    exact hget.symm
  have hx : signed32 (playerRecord (w.players i) ++ rest) = (w.players i).x_mm := by
    rw [playerRecord, List.append_assoc, List.append_assoc]
    exact signed32_putLe _ _ (by omega) (by omega)
  have hy : signed32 ((playerRecord (w.players i) ++ rest).drop 4) = (w.players i).y_mm := by
    rw [playerRecord, List.append_assoc, List.append_assoc, drop_putLe]
    exact signed32_putLe _ _ (by omega) (by omega)
  have hbytes : (playerRecord (w.players i) ++ rest).drop 8 =
      UInt8.ofNat (w.players i).health :: UInt8.ofNat (w.players i).ammo ::
        UInt8.ofNat (w.players i).hits :: UInt8.ofNat (w.players i).kills :: rest := by
    rw [playerRecord, List.append_assoc]
    exact List.drop_left' (by simp [length_putLe])
  have hget : ∀ k, (playerRecord (w.players i) ++ rest).getD (8 + k) 0 =
      (UInt8.ofNat (w.players i).health :: UInt8.ofNat (w.players i).ammo ::
        UInt8.ofNat (w.players i).hits :: UInt8.ofNat (w.players i).kills :: rest).getD k 0 := by
    intro k
    rw [← getD_drop, hbytes]
  have hview : viewPlayer (reply w slot sequence status) i =
      ⟨(w.players i).x_mm, (w.players i).y_mm, UInt8.ofNat (w.players i).health,
        UInt8.ofNat (w.players i).ammo, UInt8.ofNat (w.players i).hits, UInt8.ofNat (w.players i).kills,
        (w.players i).isOpen⟩ := by
    simp only [viewPlayer, hdrop, hx, hy, hmask, openMask_bit]
    rw [hget 0, hget 1, hget 2, hget 3]
    rfl
  have hall : (w.players i).health ≤ 100 ∧ (w.players i).ammo ≤ 4 ∧ (w.players i).hits ≤ 4 := by
    refine ⟨?_, ?_, ?_⟩ <;> omega
  obtain ⟨h1, h2, h3⟩ := hall
  rw [hview, inRange_iff]
  simp only [ViewPlayer.common, GamePlayer.shown]
  rw [hbyte _ h1, hbyte _ (by omega), hbyte _ (by omega), hbyte _ (by omega)]
  exact ⟨rfl, hxl, hxh, hyl, hyh, h1, h2, h3, hk⟩

section

variable {w : GameWorld} (slot : Fin 2) (sequence : UInt32) (status : GameResult)

theorem code_name : gameResults.getD status.code.toNat "" = status.name := by
  cases status <;> rfl

theorem slot_byte (slot : Fin 2) : ¬(2 : UInt8) ≤ UInt8.ofNat slot ∧ (UInt8.ofNat slot).toNat = slot := by
  revert slot
  decide

theorem reply_head : (reply w slot sequence status).take 5 = stateMagic ++ [1] ∧
    (reply w slot sequence status).getD 5 0 = status.code ∧
    (reply w slot sequence status).getD 6 0 = UInt8.ofNat slot ∧
    (reply w slot sequence status).getD 7 0 = 1 := by
  rw [reply_eq]
  exact ⟨rfl, rfl, rfl, rfl⟩

theorem reply_shape : ¬((reply w slot sequence status).length ≠ 80 ∨
    (reply w slot sequence status).take 5 ≠ stateMagic ++ [1] ∨
    13 < (reply w slot sequence status).getD 5 0 ∨ 2 ≤ (reply w slot sequence status).getD 6 0 ∨
    (reply w slot sequence status).getD 7 0 ≠ 1 ∨ 3 < (reply w slot sequence status).getD 76 0 ∨
    (reply w slot sequence status).getD 77 0 ≠ 0 ∨ (reply w slot sequence status).getD 78 0 ≠ 0 ∨
    (reply w slot sequence status).getD 79 0 ≠ 0) := by
  obtain ⟨hmagic, h5, h6, h7⟩ := reply_head (w := w) slot sequence status
  have hmask : ∀ k, (reply w slot sequence status).getD (76 + k) 0 =
      [openMask w, 0, 0, 0].getD k 0 := by
    intro k
    rw [← getD_drop, reply_drop_mask]
  have hcode : ¬13 < status.code := by cases status <;> decide
  have hbits : ¬3 < openMask w := by
    simp only [openMask]
    split <;> split <;> decide
  rw [length_reply, hmagic, h5, h6, h7, hmask 0, hmask 1, hmask 2, hmask 3]
  simp [hcode, (slot_byte slot).1, hbits]

theorem reply_tick : (readLe ((reply w slot sequence status).drop 8) 8).toNat = w.tick.toNat := by
  have hlen := length_reply w slot sequence status
  have hlt := w.tick.toNat_lt
  rw [readLe_take _ (by omega) (by rw [List.length_drop, hlen]; omega), reply_drop_tick, take_putLe,
    value_putLe _ (by omega)]
  exact Nat.mod_eq_of_lt hlt

theorem reply_sequence :
    (readLe ((reply w slot sequence status).drop 16) 4).toUInt32.toNat = sequence.toNat := by
  have hlen := length_reply w slot sequence status
  have hlt := sequence.toNat_lt
  rw [toUInt32_readLe _ (by rw [List.length_drop, hlen]; omega), reply_drop_sequence, take_putLe,
    value_putLe _ (by omega), UInt32.toNat_toUInt64]
  exact Nat.mod_eq_of_lt hlt

theorem gameViewDecode_reply (h : GameRules w) (hmatch : nonzeroId w.match = true)
    (hsession : nonzeroId (w.players slot).session = true) :
    ∃ v, gameViewDecode (reply w slot sequence status) = some v ∧
      v.common = w.shown slot sequence status ∧ v.result = status.code ∧ v.match = w.match ∧
      v.session = (w.players slot).session := by
  have hm := field_eq (reply_drop_match w slot sequence status)
  have hs := field_eq (reply_drop_session w slot sequence status)
  have htick := reply_tick (w := w) slot sequence status
  have hseq := reply_sequence (w := w) slot sequence status
  obtain ⟨_, h5, h6, _⟩ := reply_head (w := w) slot sequence status
  obtain ⟨ha, hra⟩ := viewPlayer_record h slot sequence status 0
  obtain ⟨hb, hrb⟩ := viewPlayer_record h slot sequence status 1
  simp only [gameViewDecode]
  rw [if_neg (reply_shape slot sequence status), hm, hs, hmatch, hsession, hra, hrb]
  refine ⟨_, rfl, ?_, h5, rfl, rfl⟩
  simp only [GameView.common, GameWorld.shown, htick, hseq, ha, hb, h5, h6, (slot_byte slot).2, code_name]

theorem pyState_reply (h : GameRules w) (hmatch : nonzeroId w.match = true)
    (hsession : nonzeroId (w.players slot).session = true) :
    pyState (reply w slot sequence status) = .ok (w.shown slot sequence status) := by
  obtain ⟨v, hv, hc, _⟩ := gameViewDecode_reply slot sequence status h hmatch hsession
  have hp := pyState_view _ (length_reply w slot sequence status)
  rw [hv, Option.map_some, hc] at hp
  cases hs : pyState (reply w slot sequence status) with
  | error e =>
    rw [hs] at hp
    cases hp
  | ok s =>
    rw [hs] at hp
    rw [Option.some.inj hp]

end

theorem gameInit_ids {id a b : Bytes 16} {w : GameWorld} (h : gameInit id a b = some w) :
    nonzeroId w.match = true ∧ ∀ i, nonzeroId (w.players i).session = true := by
  simp only [gameInit] at h
  split at h
  · cases h
  · rename_i hids
    obtain rfl := Option.some.inj h
    simp only [Bool.or_eq_true, not_or, Bool.not_eq_true', Bool.not_eq_false] at hids
    obtain ⟨⟨⟨hid, ha⟩, hb⟩, _⟩ := hids
    refine ⟨hid, ?_⟩
    intro i
    rcases slot_cases i 0 with rfl | rfl
    · exact ha
    · exact hb

theorem ids_of_run {id a b : Bytes 16} {w₀ w : GameWorld} {τ : List GameEvent}
    (h₀ : gameInit id a b = some w₀) (h : Runs.Steps GameStep w₀ τ w) :
    nonzeroId w.match = true ∧ ∀ i, nonzeroId (w.players i).session = true := by
  obtain ⟨hid, hses⟩ := gameInit_ids h₀
  have hsame := sameMatch_run h
  refine ⟨hsame.id ▸ hid, ?_⟩
  intro i
  rw [hsame.session i]
  exact hses i

/-- Every record of a reachable world is accepted by both decoders and shows
the world, to the C client with its ids; and on every string of eighty bytes
the decoders accept the same and read the same. -/
theorem state_record_agreement {id a b : Bytes 16} {w₀ w : GameWorld} {τ : List GameEvent}
    (h₀ : gameInit id a b = some w₀) (h : Runs.Steps GameStep w₀ τ w) :
    (∀ slot sequence status, (reply w slot sequence status).length = 80 ∧
      (∃ v, gameViewDecode (reply w slot sequence status) = some v ∧
        v.common = w.shown slot sequence status ∧ v.result = status.code ∧ v.match = w.match ∧
        v.session = (w.players slot).session) ∧
      pyState (reply w slot sequence status) = .ok (w.shown slot sequence status)) ∧
    ∀ data : List UInt8, data.length = 80 →
      (pyState data).toOption = (gameViewDecode data).map GameView.common := by
  have hrules := gameRules_of_run h₀ h
  obtain ⟨hid, hses⟩ := ids_of_run h₀ h
  refine ⟨?_, pyState_view⟩
  intro slot sequence status
  exact ⟨length_reply w slot sequence status,
    gameViewDecode_reply slot sequence status hrules hid (hses slot),
    pyState_reply slot sequence status hrules hid (hses slot)⟩

theorem state_record_agreement_sample :
    pyState (reply sampleShotWorld 0 1 .ok) = .ok (sampleShotWorld.shown 0 1 .ok) ∧
    (sampleShotWorld.shown 0 1 .ok).players.map (·.health) = [100, 75] :=
  ⟨(((state_record_agreement sampleWorld_init sampleShot_run).1 0 1 .ok).2).2, by decide +kernel⟩

def sampleOtherWorld : GameWorld := { sampleWorld with «match» := Vector.replicate 16 9 }

theorem sampleOtherWorld_init : gameInit (Vector.replicate 16 9) (Vector.replicate 16 2)
    (Vector.replicate 16 3) = some sampleOtherWorld := by
  have hids : (!nonzeroId (Vector.replicate 16 9) || !nonzeroId (Vector.replicate 16 2) ||
      !nonzeroId (Vector.replicate 16 3) ||
      decide ((Vector.replicate 16 2 : Bytes 16) = Vector.replicate 16 3)) = false := by decide
  simp only [gameInit, hids]
  rfl

theorem pyState_init {id a b : Bytes 16} {w : GameWorld} (h : gameInit id a b = some w) :
    pyState (reply w 0 0 .ok) = .ok (w.shown 0 0 .ok) :=
  pyState_reply 0 0 .ok (gameRules_init h) (gameInit_ids h).1 ((gameInit_ids h).2 0)

theorem state_omits_ids :
    gameInit (Vector.replicate 16 1) (Vector.replicate 16 2) (Vector.replicate 16 3) = some sampleWorld ∧
    gameInit (Vector.replicate 16 9) (Vector.replicate 16 2) (Vector.replicate 16 3) =
      some sampleOtherWorld ∧
    sampleWorld.match ≠ sampleOtherWorld.match ∧
    pyState (reply sampleWorld 0 0 .ok) = pyState (reply sampleOtherWorld 0 0 .ok) := by
  refine ⟨sampleWorld_init, sampleOtherWorld_init, by decide, ?_⟩
  rw [pyState_init sampleWorld_init, pyState_init sampleOtherWorld_init]
  rfl

end ArenaLab
