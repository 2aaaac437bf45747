import ArenaLab.Gateway
import ArenaLab.JsonDumps
import Mathlib.Data.List.Perm.Basic
import Mathlib.Tactic.Common

/-! The frames that the gateway puts on its pipe. -/

namespace ArenaLab

open JsonText

def ipcProtocol : String := "arena-gateway-ipc/1"

def maxRequest : ℕ := 2147483647

def RouteOpen.toDict (body : RouteOpen) : Dict :=
  [("channel_id", .str body.channel_id.text), ("attestor", .str body.attestor.text),
    ("address", .str body.address), ("port", .int body.port), ("remote_run_id", .str body.remote_run_id.text),
    ("game_session_id", .str body.game_session_id.text)]

def GatewayMessage.operation : GatewayMessage → String
  | .ready _ => "READY"
  | .routeOpen _ => "ROUTE_OPEN"
  | .routeClose _ => "ROUTE_CLOSE"
  | .heartbeat => "HEARTBEAT"

def GatewayMessage.body : GatewayMessage → Dict
  | .ready port => [("port", .int port)]
  | .routeOpen body => body.toDict
  | .routeClose channel => [("channel_id", .str channel.text)]
  | .heartbeat => []

def envelope (run : HexStr 32) (generation request : ℕ) (m : GatewayMessage) : Json :=
  .obj [("protocol_version", .str ipcProtocol), ("server_run_id", .str run.text),
    ("gateway_generation", .int generation), ("request_id", .int request), ("operation", .str m.operation),
    ("body", .obj m.body)]

/-- `json_bytes`: the text in ASCII, read back by the strict reader. -/
def GatewayProtocol.jsonBytes (value : Json) : Option (List UInt8) :=
  (encodeAscii (jsonText value)).filter (fun result => (GatewayProtocol.strictJson result).isSome)

/-- `frame` without a kind. -/
def GatewayProtocol.frame (payload : List UInt8) : Option (List UInt8) :=
  if 1 ≤ payload.length ∧ payload.length ≤ 4096 then some (HexText.bigEndian 4 payload.length ++ payload)
  else none

def ipcFrame (run : HexStr 32) (generation request : ℕ) (m : GatewayMessage) : Option (List UInt8) :=
  (GatewayProtocol.jsonBytes (envelope run generation request m)).bind GatewayProtocol.frame

/-- What the gateway can say: its ports exist and its routes are local. -/
def GatewayMessage.WellFormed : GatewayMessage → Prop
  | .ready port => port ≤ 65535
  | .routeOpen body => body.address = "127.0.0.1" ∧ 1 ≤ body.port ∧ body.port ≤ 65535
  | _ => True

/-! Sizes. -/

theorem length_commaJoin_le (parts : List (List Char)) :
    (commaJoin parts).length ≤ (parts.map (fun p => p.length + 1)).sum := by
  induction parts with
  | nil => simp [commaJoin]
  | cons p parts ih =>
    cases parts with
    | nil =>
      rw [commaJoin_singleton]
      simp
    | cons q parts =>
      rw [commaJoin_cons_cons]
      simp only [List.length_append, List.length_cons, List.map_cons, List.sum_cons] at ih ⊢
      omega

theorem length_object_le (fields : List (String × Json)) :
    (jsonText (.obj fields)).length ≤ 2 + (fields.map (fun m => (memberText m).length + 1)).sum := by
  have hperm := (List.perm_insertionSort (fun a b : String × Json => a.1 ≤ b.1) fields).map
    (fun m => (memberText m).length + 1)
  have hlen := length_commaJoin_le ((sortFields fields).map memberText)
  rw [List.map_map] at hlen
  rw [jsonText_obj, List.length_cons, List.length_append, List.length_singleton, ← hperm.sum_eq]
  exact Nat.add_le_add_right hlen 2 |>.trans (by simp [sortFields, Function.comp_def]; omega)

theorem le_length_commaJoin (parts : List (List Char)) : (parts.map List.length).sum ≤ (commaJoin parts).length := by
  induction parts with
  | nil => simp
  | cons p parts ih =>
    cases parts with
    | nil =>
      rw [commaJoin_singleton]
      simp
    | cons q parts =>
      rw [commaJoin_cons_cons]
      simp only [List.length_append, List.length_cons, List.map_cons, List.sum_cons] at ih ⊢
      omega

theorem le_length_object (fields : List (String × Json)) :
    (fields.map (fun m => (memberText m).length)).sum ≤ (jsonText (.obj fields)).length := by
  have hperm := (List.perm_insertionSort (fun a b : String × Json => a.1 ≤ b.1) fields).map
    (fun m => (memberText m).length)
  have hlen := le_length_commaJoin ((sortFields fields).map memberText)
  rw [List.map_map] at hlen
  rw [jsonText_obj, List.length_cons, List.length_append, List.length_singleton, ← hperm.sum_eq]
  exact hlen.trans (by omega)

theorem length_hex {n : ℕ} (h : HexStr n) : (jsonText (.str h.text)).length = n + 2 := by
  have := h.chars_length
  rw [jsonText, jsonString_hex]
  simp [this]

theorem length_int {n : ℕ} (h : n ≤ maxRequest) : (jsonText (.int n)).length ≤ 10 := by
  have hlen := (Nat.length_toDigits_le_iff (b := 10) (n := n) (k := 10) (by omega) (by omega)).2
    (by simp only [maxRequest] at h; omega)
  change (Nat.repr n).toList.length ≤ 10
  rw [Nat.toList_repr]
  exact hlen

theorem length_body_le {m : GatewayMessage} (hm : m.WellFormed) : (jsonText (.obj m.body)).length ≤ 360 := by
  refine (length_object_le m.body).trans ?_
  cases m with
  | ready port =>
    have hport := length_int (n := port)
      (by simp only [GatewayMessage.WellFormed] at hm; simp only [maxRequest]; omega)
    have hkey : (jsonString "port").length = 6 := by decide
    simp only [GatewayMessage.body, List.map_cons, List.map_nil, List.sum_cons, List.sum_nil, memberText,
      List.length_append, List.length_cons, hkey]
    omega
  | routeOpen body =>
    obtain ⟨haddress, _, hport⟩ := hm
    have hport := length_int (n := body.port) (by simp only [maxRequest]; omega)
    have haddress' : (jsonText (.str body.address)).length = 11 := by
      rw [haddress]
      decide
    have h1 : (jsonString "channel_id").length = 12 := by decide
    have h2 : (jsonString "attestor").length = 10 := by decide
    have h3 : (jsonString "address").length = 9 := by decide
    have h4 : (jsonString "port").length = 6 := by decide
    have h5 : (jsonString "remote_run_id").length = 15 := by decide
    have h6 : (jsonString "game_session_id").length = 17 := by decide
    simp only [GatewayMessage.body, RouteOpen.toDict, List.map_cons, List.map_nil, List.sum_cons, List.sum_nil,
      memberText, List.length_append, List.length_cons, h1, h2, h3, h4, h5, h6, haddress', length_hex]
    omega
  | routeClose channel =>
    have hkey : (jsonString "channel_id").length = 12 := by decide
    simp only [GatewayMessage.body, List.map_cons, List.map_nil, List.sum_cons, List.sum_nil, memberText,
      List.length_append, List.length_cons, hkey, length_hex]
    omega
  | heartbeat => simp [GatewayMessage.body]

theorem length_envelope_le (run : HexStr 32) {generation request : ℕ} {m : GatewayMessage}
    (hg : generation ≤ maxRequest) (hr : request ≤ maxRequest) (hm : m.WellFormed) :
    (jsonText (envelope run generation request m)).length ≤ 600 := by
  refine (length_object_le _).trans ?_
  have hbody := length_body_le hm
  have hgen := length_int hg
  have hreq := length_int hr
  have hops : ∀ op ∈ ["READY", "ROUTE_OPEN", "ROUTE_CLOSE", "HEARTBEAT"], (jsonText (.str op)).length ≤ 13 := by
    decide
  have hop := hops m.operation (by cases m <;> simp [GatewayMessage.operation])
  have hprotocol : (jsonText (.str ipcProtocol)).length = 21 := by decide
  have h1 : (jsonString "protocol_version").length = 18 := by decide
  have h2 : (jsonString "server_run_id").length = 15 := by decide
  have h3 : (jsonString "gateway_generation").length = 20 := by decide
  have h4 : (jsonString "request_id").length = 12 := by decide
  have h5 : (jsonString "operation").length = 11 := by decide
  have h6 : (jsonString "body").length = 6 := by decide
  simp only [List.map_cons, List.map_nil, List.sum_cons, List.sum_nil,
    memberText, List.length_append, List.length_cons, h1, h2, h3, h4, h5, h6, hprotocol, length_hex]
  omega

/-- The two identifiers and the names of the members alone take more. -/
theorem le_length_envelope (run : HexStr 32) (generation request : ℕ) (m : GatewayMessage) :
    128 ≤ (jsonText (envelope run generation request m)).length := by
  refine le_trans ?_ (le_length_object _)
  have hprotocol : (jsonText (.str ipcProtocol)).length = 21 := by decide
  have h1 : (jsonString "protocol_version").length = 18 := by decide
  have h2 : (jsonString "server_run_id").length = 15 := by decide
  have h3 : (jsonString "gateway_generation").length = 20 := by decide
  have h4 : (jsonString "request_id").length = 12 := by decide
  have h5 : (jsonString "operation").length = 11 := by decide
  have h6 : (jsonString "body").length = 6 := by decide
  simp only [List.map_cons, List.map_nil, List.sum_cons, List.sum_nil,
    memberText, List.length_append, List.length_cons, h1, h2, h3, h4, h5, h6, hprotocol, length_hex]
  omega

/-! Trees. -/

def RouteOpen.members (body : RouteOpen) : List (String × Json) :=
  [("address", .str body.address), ("attestor", .str body.attestor.text),
    ("channel_id", .str body.channel_id.text), ("game_session_id", .str body.game_session_id.text),
    ("port", .int body.port), ("remote_run_id", .str body.remote_run_id.text)]

/-- The members of the body in the order of their names. -/
def GatewayMessage.members : GatewayMessage → List (String × Json)
  | .routeOpen body => body.members
  | m => m.body

theorem sortFields_body (m : GatewayMessage) : sortFields m.body = m.members := by
  cases m with
  | routeOpen body =>
    simp [sortFields, GatewayMessage.body, GatewayMessage.members, RouteOpen.toDict, RouteOpen.members,
      List.insertionSort, List.orderedInsert]
  | _ => rfl

def envelopeMembers (run : HexStr 32) (generation request : ℕ) (m : GatewayMessage) : List (String × Json) :=
  [("body", .obj m.body), ("gateway_generation", .int generation), ("operation", .str m.operation),
    ("protocol_version", .str ipcProtocol), ("request_id", .int request), ("server_run_id", .str run.text)]

theorem envelope_tree (run : HexStr 32) (generation request : ℕ) (m : GatewayMessage) :
    jsonTree (envelope run generation request m) =
      .object ((envelopeMembers run generation request m).map memberTree) := by
  rw [envelope, jsonTree_obj]
  simp [sortFields, envelopeMembers, List.insertionSort, List.orderedInsert]

theorem isFloat_repr (n : ℕ) : isFloat (Int.repr (n : ℤ)).toList = false := by
  change isFloat (Nat.repr n).toList = false
  have hdigits : ∀ c ∈ "0123456789".toList, (c = '.' || c = 'e' || c = 'E') = false := by simp
  rw [Nat.toList_repr, isFloat, List.any_eq_false]
  intro c hc
  have := hdigits c (of_decide_eq_true ((isInt_toDigits n).1.2 c hc))
  rw [this]
  decide

theorem jsonTree_int (n : ℤ) : jsonTree (.int n) = .number n.repr.toList := rfl

theorem jsonTree_str (s : String) : jsonTree (.str s) = .string (escaped s) := rfl

theorem body_strict (m : GatewayMessage) : (jsonTree (.obj m.body)).holds distinctKeys = true ∧
    (jsonTree (.obj m.body)).height ≤ 1 ∧ (jsonTree (.obj m.body)).holds integral = true := by
  rw [jsonTree_obj, sortFields_body]
  cases m with
  | routeOpen body =>
    have hnames : [unescape (escaped "address"), unescape (escaped "attestor"), unescape (escaped "channel_id"),
        unescape (escaped "game_session_id"), unescape (escaped "port"),
        unescape (escaped "remote_run_id")].Nodup := by decide
    refine ⟨?_, ?_, ?_⟩
    · simpa [GatewayMessage.members, RouteOpen.members, memberTree, Value.holds, holdsMembers, jsonTree,
        distinctKeys] using hnames
    · simp [GatewayMessage.members, RouteOpen.members, memberTree, Value.height, heightMembers, jsonTree]
    · simp [GatewayMessage.members, RouteOpen.members, memberTree, Value.holds, holdsMembers, jsonTree, integral,
        isFloat_repr]
  | ready port =>
    refine ⟨?_, ?_, ?_⟩
    · simp [GatewayMessage.members, GatewayMessage.body, memberTree, Value.holds, holdsMembers, jsonTree,
        distinctKeys]
    · simp [GatewayMessage.members, GatewayMessage.body, memberTree, Value.height, heightMembers, jsonTree]
    · simp [GatewayMessage.members, GatewayMessage.body, memberTree, Value.holds, holdsMembers, jsonTree, integral,
        isFloat_repr]
  | routeClose channel =>
    refine ⟨?_, ?_, ?_⟩
    · simp [GatewayMessage.members, GatewayMessage.body, memberTree, Value.holds, holdsMembers, jsonTree,
        distinctKeys]
    · simp [GatewayMessage.members, GatewayMessage.body, memberTree, Value.height, heightMembers, jsonTree]
    · simp [GatewayMessage.members, GatewayMessage.body, memberTree, Value.holds, holdsMembers, jsonTree, integral]
  | heartbeat => exact ⟨rfl, by decide, rfl⟩

def ipcPayload (run : HexStr 32) (generation request : ℕ) (m : GatewayMessage) : List UInt8 :=
  (jsonText (envelope run generation request m)).map (fun c => UInt8.ofNat c.toNat)

section

variable {run : HexStr 32} {generation request : ℕ} {m : GatewayMessage}

variable (run) in
theorem payload_size (hg : generation ≤ maxRequest) (hr : request ≤ maxRequest) (hm : m.WellFormed) :
    128 ≤ (ipcPayload run generation request m).length ∧ (ipcPayload run generation request m).length ≤ 600 := by
  rw [ipcPayload, List.length_map]
  exact ⟨le_length_envelope run generation request m, length_envelope_le run hg hr hm⟩

theorem payload_strict (hg : generation ≤ maxRequest) (hr : request ≤ maxRequest) (hm : m.WellFormed) :
    IsStrict (ipcPayload run generation request m) (jsonTree (envelope run generation request m)) := by
  obtain ⟨hlow, hhigh⟩ := payload_size run hg hr hm
  obtain ⟨hkeys, hheight, hnumbers⟩ := body_strict m
  refine ⟨⟨by omega, by omega⟩, ?_, ?_, ?_, ?_⟩
  · have hdecode := encodeAscii_decode (encodeAscii_eq (jsonText_ascii (envelope run generation request m)))
    rw [ipcPayload, asciiText, hdecode]
    exact isText_jsonText _
  · have hnames : [unescape (escaped "body"), unescape (escaped "gateway_generation"),
        unescape (escaped "operation"), unescape (escaped "protocol_version"), unescape (escaped "request_id"),
        unescape (escaped "server_run_id")].Nodup := by decide
    rw [envelope_tree]
    simp only [envelopeMembers, List.map_cons, List.map_nil, memberTree, Value.holds, holdsMembers, hkeys]
    simpa [jsonTree_int, jsonTree_str, Value.holds, distinctKeys] using hnames
  · rw [envelope_tree]
    simp only [envelopeMembers, List.map_cons, List.map_nil, memberTree, Value.height, heightMembers]
    simp only [jsonTree_int, jsonTree_str, Value.height]
    omega
  · rw [envelope_tree]
    simp only [envelopeMembers, List.map_cons, List.map_nil, memberTree, Value.holds, holdsMembers, hnumbers]
    simp [jsonTree_int, jsonTree_str, Value.holds, integral, isFloat_repr]

variable (run) in
/-- Every message of the gateway has a frame. -/
theorem ipcFrame_eq (hg : generation ≤ maxRequest) (hr : request ≤ maxRequest) (hm : m.WellFormed) :
    ipcFrame run generation request m =
      some (HexText.bigEndian 4 (ipcPayload run generation request m).length ++
        ipcPayload run generation request m) := by
  have hascii := jsonText_ascii (envelope run generation request m)
  have hstrict := (GatewayProtocol.strictJson_eq_some (ascii_bytes hascii)).2 (payload_strict hg hr hm)
  obtain ⟨hlow, hhigh⟩ := payload_size run hg hr hm
  have hbytes : GatewayProtocol.jsonBytes (envelope run generation request m) =
      some (ipcPayload run generation request m) := by
    rw [GatewayProtocol.jsonBytes, encodeAscii_eq hascii]
    refine Option.filter_eq_some_iff.2 ⟨rfl, ?_⟩
    rw [ipcPayload, hstrict, Option.isSome_some]
  rw [ipcFrame, hbytes, Option.bind_some, GatewayProtocol.frame, if_pos ⟨by omega, by omega⟩]

end

end ArenaLab
