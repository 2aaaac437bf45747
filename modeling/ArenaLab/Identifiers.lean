import ArenaLab.HexText
import Mathlib.Data.Rat.Floor
import Mathlib.Order.Monotone.Defs
import Mathlib.Tactic.NormNum

/-! Values shared by the attestation and admission services: decoded JSON,
validated identifiers, the refusals raised as `ValueError`, and what the host
returns for clock readings, random tokens and SHA-256. -/

namespace ArenaLab

inductive Json
  | null
  | bool (b : Bool)
  | int (n : Int)
  | str (s : String)
  | arr (items : List Json)
  | obj (fields : List (String × Json))

abbrev Dict := List (String × Json)

def Dict.get (d : Dict) (key : String) : Option Json := List.lookup key d

def Dict.keysEq (d : Dict) (keys : List String) : Bool :=
  (d.map Prod.fst).all (· ∈ keys) && keys.all (· ∈ d.map Prod.fst)

def Json.isStr (v : Option Json) (s : String) : Bool :=
  match v with
  | some (.str t) => t == s
  | _ => false

inductive ValueError
  | invalidIdentifier | invalidRoles | invalidLimit | invalidSchema | unauthorizedRole
  | unknownAdmission | admissionClosed | challengePending | noPendingChallenge
  | invalidPeer | unknownAttestor | peerAlreadyRegistered | admissionLimit
  | entropyCollision | ttlRange | sessionLimit | invalidSession | akSize
  deriving DecidableEq, Repr

def ValueError.text : ValueError → String
  | .invalidIdentifier => "INVALID_IDENTIFIER"
  | .invalidRoles => "INVALID_ROLES"
  | .invalidLimit => "INVALID_LIMIT"
  | .invalidSchema => "INVALID_SCHEMA"
  | .unauthorizedRole => "UNAUTHORIZED_ROLE"
  | .unknownAdmission => "UNKNOWN_ADMISSION"
  | .admissionClosed => "ADMISSION_CLOSED"
  | .challengePending => "CHALLENGE_PENDING"
  | .noPendingChallenge => "NO_PENDING_CHALLENGE"
  | .invalidPeer => "INVALID_PEER"
  | .unknownAttestor => "UNKNOWN_ATTESTOR"
  | .peerAlreadyRegistered => "PEER_ALREADY_REGISTERED"
  | .admissionLimit => "ADMISSION_LIMIT"
  | .entropyCollision => "ENTROPY_COLLISION"
  | .ttlRange => "TTL_RANGE"
  | .sessionLimit => "SESSION_LIMIT"
  | .invalidSession => "INVALID_SESSION"
  | .akSize => "AK_SIZE"

def isHex (s : String) (length : Nat) : Bool :=
  s.length = length && s.toList.all (· ∈ HexText.lowerDigits)

/-- A string that `hex_value` has let through. -/
structure HexStr (length : Nat) where
  text : String
  valid : isHex text length = true
  deriving DecidableEq

theorem HexStr.ext {n : Nat} {a b : HexStr n} (h : a.text = b.text) : a = b := by
  cases a
  cases b
  simpa using h

theorem HexStr.chars_length {n : Nat} (h : HexStr n) : h.text.toList.length = n := by
  have hv := h.valid
  simp only [isHex, Bool.and_eq_true, decide_eq_true_eq] at hv
  rw [String.length_toList]
  exact hv.1

theorem HexStr.chars_lower {n : Nat} (h : HexStr n) : ∀ c ∈ h.text.toList, c ∈ HexText.lowerDigits := by
  have hv := h.valid
  simp only [isHex, Bool.and_eq_true, List.all_eq_true, decide_eq_true_eq] at hv
  exact hv.2

def hexValue (value : Json) (length : Nat) : Except ValueError (HexStr length) :=
  match value with
  | .str s => if h : isHex s length = true then .ok ⟨s, h⟩ else .error .invalidIdentifier
  | _ => .error .invalidIdentifier

theorem hexValue_text {n : Nat} (h : HexStr n) : hexValue (.str h.text) n = .ok h := by
  simp [hexValue, h.valid]

structure PeerId where
  value : Int
  range : 2 ≤ value ∧ value ≤ 2147483647
  deriving DecidableEq

def peerId (value : Json) : Except ValueError PeerId :=
  match value with
  | .int n => if h : 2 ≤ n ∧ n ≤ 2147483647 then .ok ⟨n, h⟩ else .error .invalidPeer
  | _ => .error .invalidPeer

/-- The connection binding that registration builds; every field is validated
or drawn, so no other binding exists. -/
structure Binding where
  instance_id : HexStr 32
  admission_id : HexStr 32
  game_session_id : HexStr 32
  peer_id : PeerId
  connection_id : HexStr 64
  controller : HexStr 64
  attestor : HexStr 64
  deriving DecidableEq

/-- Successive results of the host's clock, wall clock and token generator,
indexed by call, and its hash. `time.monotonic` never goes back. -/
structure Host where
  clock : ℕ → ℚ
  clock_mono : Monotone clock
  wall : ℕ → ℚ
  tokenHex : ℕ → (n : ℕ) → HexStr (2 * n)
  sha256 : List UInt8 → Vector UInt8 32

/-- `secrets.token_hex(16)` has not repeated itself among the first draws. -/
def Host.FreshTokens (host : Host) (draws : ℕ) : Prop :=
  ∀ i < draws, ∀ j < draws, host.tokenHex i 16 = host.tokenHex j 16 → i = j

/-- How many clock readings, wall readings and tokens have been taken. -/
structure Tape where
  reads : ℕ := 0
  walls : ℕ := 0
  draws : ℕ := 0
  deriving DecidableEq

def Tape.read (t : Tape) : Tape := { t with reads := t.reads + 1 }

def Tape.readWall (t : Tape) : Tape := { t with walls := t.walls + 1 }

def Tape.draw (t : Tape) : Tape := { t with draws := t.draws + 1 }

@[simp] theorem Tape.read_reads (t : Tape) : t.read.reads = t.reads + 1 := rfl
@[simp] theorem Tape.read_draws (t : Tape) : t.read.draws = t.draws := rfl
@[simp] theorem Tape.readWall_reads (t : Tape) : t.readWall.reads = t.reads := rfl
@[simp] theorem Tape.readWall_draws (t : Tape) : t.readWall.draws = t.draws := rfl
@[simp] theorem Tape.draw_reads (t : Tape) : t.draw.reads = t.reads := rfl
@[simp] theorem Tape.draw_draws (t : Tape) : t.draw.draws = t.draws + 1 := rfl

/-- `int(q)`: the fraction is dropped, whatever the sign. -/
def truncate (q : ℚ) : Int := if 0 ≤ q then ⌊q⌋ else ⌈q⌉

theorem truncate_le {q : ℚ} (h : 0 ≤ q) : (truncate q : ℚ) ≤ q := by
  rw [truncate, if_pos h]
  exact Int.floor_le q

/-- A host whose tokens count up and whose clocks advance a millisecond a call. -/
def countingHost : Host where
  clock := fun i => i / 1000
  clock_mono := by
    intro i j h
    have hc : (i : ℚ) ≤ j := by exact_mod_cast h
    exact div_le_div_of_nonneg_right hc (by norm_num)
  wall := fun i => 1700000000 + i / 1000
  tokenHex := fun i n => ⟨String.ofList (HexText.toHex (HexText.bigEndian n i)), by
    simp only [isHex, Bool.and_eq_true, decide_eq_true_eq, List.all_eq_true]
    refine ⟨?_, ?_⟩
    · rw [← String.length_toList, String.toList_ofList, HexText.toHex_length,
        HexText.bigEndian_length]
    · rw [String.toList_ofList]
      exact HexText.toHex_lower _⟩
  sha256 := fun data => Vector.ofFn (fun i => data.getD i 0)

end ArenaLab
