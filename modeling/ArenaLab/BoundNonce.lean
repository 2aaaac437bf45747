import ArenaLab.Identifiers
import Mathlib.Data.List.Sort
import Std.Data.String.ToInt

/-! The two byte strings the services hash: the canonical JSON of a binding
with its salt, and the fixed-width qualification of a challenge. -/

namespace ArenaLab

def hexFour (n : Nat) : List Char :=
  ([n / 4096, n / 256 % 16, n / 16 % 16, n % 16]).map Nat.digitChar

def unicodeEscape (n : Nat) : List Char := '\\' :: 'u' :: hexFour n

/-- Escapes of `json.dumps` with its default `ensure_ascii`. -/
def jsonEscape (c : Char) : List Char :=
  if c = '"' then ['\\', '"']
  else if c = '\\' then ['\\', '\\']
  else if c = '\n' then ['\\', 'n']
  else if c = '\r' then ['\\', 'r']
  else if c = '\t' then ['\\', 't']
  else if c = '\x0c' then ['\\', 'f']
  else if c = '\x08' then ['\\', 'b']
  else if 0x20 ≤ c.toNat ∧ c.toNat ≤ 0x7e then [c]
  else if c.toNat < 0x10000 then unicodeEscape c.toNat
  else
    unicodeEscape (0xd800 + (c.toNat - 0x10000) / 0x400) ++
      unicodeEscape (0xdc00 + (c.toNat - 0x10000) % 0x400)

def jsonString (s : String) : List Char := '"' :: (s.toList.flatMap jsonEscape ++ ['"'])

def commaJoin (parts : List (List Char)) : List Char := (parts.intersperse [',']).flatten

def sortKeys (members : List (String × List Char)) : List (String × List Char) :=
  members.insertionSort (fun a b => a.1 ≤ b.1)

mutual

def jsonText : Json → List Char
  | .null => "null".toList
  | .bool true => "true".toList
  | .bool false => "false".toList
  | .int n => n.repr.toList
  | .str s => jsonString s
  | .arr items => '[' :: (commaJoin (jsonItems items) ++ [']'])
  | .obj fields => '\x7b' :: (commaJoin ((sortKeys (jsonMembers fields)).map Prod.snd) ++ ['\x7d'])

def jsonItems : List Json → List (List Char)
  | [] => []
  | v :: vs => jsonText v :: jsonItems vs

def jsonMembers : List (String × Json) → List (String × List Char)
  | [] => []
  | (k, v) :: rest => (k, jsonString k ++ ':' :: jsonText v) :: jsonMembers rest

end

def Binding.toDict (b : Binding) : Dict :=
  [("instance_id", .str b.instance_id.text), ("admission_id", .str b.admission_id.text),
    ("game_session_id", .str b.game_session_id.text), ("peer_id", .int b.peer_id.value),
    ("connection_id", .str b.connection_id.text), ("controller", .str b.controller.text),
    ("attestor", .str b.attestor.text)]

def encodeAscii (cs : List Char) : Option (List UInt8) :=
  if cs.all (·.toNat < 128) then some (cs.map (fun c => UInt8.ofNat c.toNat)) else none

def hexdigest (digest : Vector UInt8 32) : HexStr 64 where
  text := String.ofList (HexText.toHex digest.toList)
  valid := by
    simp only [isHex, Bool.and_eq_true, decide_eq_true_eq, List.all_eq_true]
    refine ⟨?_, ?_⟩
    · rw [← String.length_toList, String.toList_ofList, HexText.toHex_length]
      simp
    · rw [String.toList_ofList]
      exact HexText.toHex_lower _

def admissionProtocol : String := "arena-admission/1"

def boundPreimage (binding : Binding) (salt : String) : Option (List UInt8) := do
  let payload ← encodeAscii (jsonText (.obj binding.toDict))
  let protocol ← encodeAscii admissionProtocol.toList
  let salt ← (hexValue (.str salt) 64).toOption
  let salt ← HexText.fromHex salt.text.toList
  some (protocol ++ [0] ++ payload ++ [0] ++ salt)

/-- `none` where one of the conversions raises. -/
def boundNonce (host : Host) (binding : Binding) (salt : String) : Option (HexStr 64) :=
  (boundPreimage binding salt).map (fun data => hexdigest (host.sha256 data))

def attestProtocol : String := "lab-attest/1"

structure Challenge where
  protocol_version : String := attestProtocol
  session_id : HexStr 32
  nonce : HexStr 64
  created_at : Int
  expires_at : Int
  policy_id : String
  requested_evidence : List String
  ak_sha256 : HexStr 64
  deriving DecidableEq

def packUint64 (n : Int) : Option (List UInt8) :=
  if 0 ≤ n ∧ n < 2 ^ 64 then some (HexText.bigEndian 8 n.toNat) else none

def policyDigest (host : Host) (challenge : Challenge) : Option (Vector UInt8 32) :=
  (encodeAscii challenge.policy_id.toList).map host.sha256

def qualificationPreimage (host : Host) (challenge : Challenge) : Option (List UInt8) := do
  let sid ← HexText.fromHex challenge.session_id.text.toList
  let nonce ← HexText.fromHex challenge.nonce.text.toList
  let created ← packUint64 challenge.created_at
  let expires ← packUint64 challenge.expires_at
  let policy ← policyDigest host challenge
  let ak ← HexText.fromHex challenge.ak_sha256.text.toList
  let protocol ← encodeAscii attestProtocol.toList
  some (protocol ++ [0] ++ sid ++ nonce ++ (created ++ expires) ++ policy.toList ++ ak)

def qualification (host : Host) (challenge : Challenge) : Option (HexStr 64) :=
  (qualificationPreimage host challenge).map (fun data => hexdigest (host.sha256 data))

end ArenaLab
