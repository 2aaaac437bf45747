import ArenaLab.Framing
import ArenaLab.GatewayIpc

/-! The parent's side of the pipe: `poll` reads what there is, cuts it into frames
and returns the messages that `valid_message` takes. -/

namespace ArenaLab

open JsonText

namespace GatewayProcess

/-- A member of a parsed dictionary. -/
def member (value : Value) (name : String) : Option Value :=
  match value with
  | .object ms => (ms.find? (fun m => unescape m.1 = codes name)).map Prod.snd
  | _ => none

def exactFields (value : Option Value) (names : List String) : Bool :=
  match value with
  | some (.object ms) =>
    ms.length = names.length && names.all (fun name => ms.any (fun m => unescape m.1 = codes name))
  | _ => false

/-- The number that a text without fraction and exponent stands for. -/
def decimal (text : List Char) : ℤ :=
  match text with
  | '-' :: digits => -(Nat.ofDigitChars 10 digits 0 : ℤ)
  | digits => Nat.ofDigitChars 10 digits 0

def number (value : Option Value) (low high : ℤ) : Bool :=
  match value with
  | some (.number text) => low ≤ decimal text && decimal text ≤ high
  | _ => false

/-- `==` of a parsed value and an integer. -/
def isNumber (value : Option Value) (n : ℤ) : Bool :=
  match value with
  | some (.number text) => decimal text = n
  | _ => false

/-- `==` of a parsed value and a string. -/
def isText (value : Option Value) (s : String) : Bool :=
  match value with
  | some (.string body) => unescape body = codes s
  | _ => false

def hexId (value : Option Value) (length : ℕ) : Bool :=
  match value with
  | some (.string body) =>
    (unescape body).length = length &&
      (unescape body).all (fun unit => HexText.lowerDigits.any (fun c => c.toNat = unit))
  | _ => false

/-- What `poll` keeps from call to call; the times are milliseconds. -/
structure State where
  buffer : List UInt8
  rx : ℕ
  ready : Bool
  failed : Bool
  last_received : ℕ
  started_at : ℕ
  partial_at : ℕ

def envelopeFields : List String :=
  ["protocol_version", "server_run_id", "gateway_generation", "request_id", "operation", "body"]

/-- The checks of `valid_message` on the envelope. -/
def validEnvelope (run : HexStr 32) (generation : ℕ) (s : State) (value : Value) : Bool :=
  exactFields (some value) envelopeFields && isText (member value "protocol_version") ipcProtocol &&
    isText (member value "server_run_id") run.text &&
    number (member value "gateway_generation") 1 maxId &&
    isNumber (member value "gateway_generation") generation &&
    number (member value "request_id") 1 maxId && isNumber (member value "request_id") (s.rx + 1)

def validRoute (body : Value) : Bool :=
  hexId (member body "channel_id") 32 && hexId (member body "attestor") 64 &&
    isText (member body "address") "127.0.0.1" && number (member body "port") 1 65535 &&
    hexId (member body "remote_run_id") 32 && hexId (member body "game_session_id") 32

/-- The body by the operation: whether it is good and whether it makes the child ready. -/
def validBody (s : State) (operation : Option Value) (body : Value) : Option Bool :=
  if isText operation "HEARTBEAT" then
    if exactFields (some body) [] then some s.ready else none
  else if isText operation "READY" then
    if !s.ready && exactFields (some body) ["port"] && number (member body "port") 0 65535 then some true else none
  else if isText operation "ROUTE_OPEN" then
    if s.ready && exactFields (some body)
        ["channel_id", "attestor", "address", "port", "remote_run_id", "game_session_id"] && validRoute body then
      some s.ready
    else none
  else if isText operation "ROUTE_CLOSE" then
    if exactFields (some body) ["channel_id"] && hexId (member body "channel_id") 32 then some s.ready else none
  else none

/-- `valid_message`; `none` is false. -/
def validMessage (run : HexStr 32) (generation : ℕ) (s : State) (value : Value) : Option State :=
  if !validEnvelope run generation s value then none
  else (validBody s (member value "operation") ((member value "body").getD (.word "null".toList))).map
    (fun ready => { s with ready := ready, rx := s.rx + 1 })

/-- `poll` in its loop: the state, what the child has written and is not read, and the locals. -/
structure Turn where
  state : State
  wire : List UInt8
  messages : List Value
  bytes_read : ℕ
  bytes_processed : ℕ

/-- `get_buffer` gives some bytes of what there is, at most 4096; none ends the loop. -/
def Turn.read (t : Turn) (now n : ℕ) : Option Turn :=
  match t.wire.take (min n 4096) with
  | [] => none
  | data =>
    some { t with
      state := { t.state with
        partial_at := if t.state.buffer.isEmpty then now else t.state.partial_at
        buffer := t.state.buffer ++ data }
      wire := t.wire.drop (min n 4096)
      bytes_read := t.bytes_read + data.length }

/-- A whole frame leaves the buffer. -/
def Turn.take (t : Turn) (run : HexStr 32) (generation now length : ℕ) : Option Turn :=
  let rest := t.state.buffer.drop (length + 4)
  match strictJson ((t.state.buffer.drop 4).take length) with
  | none => none
  | some message =>
    let s := { t.state with buffer := rest, partial_at := if rest.isEmpty then 0 else now }
    (validMessage run generation s message).map (fun s => { t with
      state := { s with last_received := now }
      messages := t.messages ++ [message]
      bytes_processed := t.bytes_processed + (length + 4) })

/-- What one turn of the loop comes to. -/
inductive TurnOutcome
  | fails
  | stops
  | goes (t : Turn)

def Turn.next (t : Turn) (run : HexStr 32) (generation now n : ℕ) : TurnOutcome :=
  let reading := match t.read now n with
    | none => TurnOutcome.stops
    | some t => .goes t
  if 32 ≤ t.messages.length ∨ 65536 ≤ t.bytes_read then .stops
  else match Framing.header t.state.buffer with
    | none => reading
    | some length =>
      if length < 1 ∨ 4096 < length then .fails
      else if length + 4 ≤ t.state.buffer.length then
        if 65536 < t.bytes_processed + (length + 4) then .stops
        else match t.take run generation now length with
          | none => .fails
          | some t => .goes t
      else reading

/-- The loop of `poll`. Each turn has the number of bytes that a read would give in it; the
list ends where the millisecond is over. -/
def pollLoop (run : HexStr 32) (generation now : ℕ) : List ℕ → Turn → Option Turn
  | [], t => some t
  | n :: reads, t =>
    match t.next run generation now n with
    | .fails => none
    | .stops => some t
    | .goes t => pollLoop run generation now reads t

/-- The child as its parent has started it, with what it has written. -/
structure Pipe where
  state : State
  wire : List UInt8

inductive PollEvent
  | polled (messages : List Value)
  | late
  | failed

/-- The deadlines that `poll` looks at before it reads. -/
def State.overdue (s : State) (now : ℕ) : Bool :=
  s.last_received + 1000 < now || !s.ready && s.started_at + 5000 < now ||
    0 < s.partial_at && s.partial_at + 200 < now

/-- `fail`. -/
def State.fail (s : State) : State := { s with failed := true, buffer := [] }

/-- `poll` of a child that runs. -/
def pollNext (run : HexStr 32) (generation : ℕ) (p : Pipe) (a : ℕ × List ℕ) : Option (PollEvent × Pipe) :=
  if p.state.failed then some (.polled [], p)
  else if p.state.overdue a.1 then some (.late, { p with state := p.state.fail })
  else match pollLoop run generation a.1 a.2 ⟨p.state, p.wire, [], 0, 0⟩ with
    | none => some (.failed, { p with state := p.state.fail })
    | some t => some (.polled t.messages, ⟨t.state, t.wire⟩)

abbrev PollStep (run : HexStr 32) (generation : ℕ) := Runs.Induced (pollNext run generation)

/-- `start` at some time; the pipe will carry these bytes. -/
def Pipe.start (now : ℕ) (bytes : List UInt8) : Pipe := ⟨⟨[], 0, false, false, now, now, 0⟩, bytes⟩

/-! The messages of the gateway pass. -/

theorem decimal_repr (n : ℕ) : decimal (Int.repr (n : ℤ)).toList = n := by
  change decimal (Nat.repr n).toList = n
  rw [Nat.toList_repr]
  have hdigits := (isInt_toDigits n).1.2
  have hvalue := Nat.ofDigitChars_ten_toDigits (n := n)
  unfold decimal
  split
  · rename_i digits heq
    have hminus := hdigits '-' (by rw [heq]; exact List.mem_cons_self)
    cases hminus
  · rw [hvalue]

theorem escaped_hex {n : ℕ} (h : HexStr n) : escaped h.text = h.text.toList := by
  have hs := jsonString_hex h
  rw [jsonString, List.cons_eq_cons] at hs
  exact List.append_cancel_right hs.2

theorem unescape_lower : ∀ cs : List Char, (∀ c ∈ cs, c ∈ HexText.lowerDigits) →
    unescape cs = cs.flatMap codeUnits
  | [], _ => rfl
  | c :: cs, h => by
    have hplain : ∀ c ∈ HexText.lowerDigits, c ≠ '\\' := HexText.forall_lower (by decide)
    have hc := hplain c (h c List.mem_cons_self)
    have hrest := unescape_lower cs fun d hd => h d (List.mem_cons_of_mem c hd)
    rw [unescape, hrest, List.flatMap_cons]
    · intro a b d e s hf
      exact absurd hf hc
    · intro d s hf
      exact absurd hf hc

theorem unescape_hex {n : ℕ} (h : HexStr n) : unescape (escaped h.text) = codes h.text := by
  rw [escaped_hex]
  exact unescape_lower _ h.chars_lower

section

variable {run : HexStr 32} {generation : ℕ} {s : State} {m : GatewayMessage}

theorem number_repr {n : ℕ} {low high : ℤ} (hlow : low ≤ n) (hhigh : (n : ℤ) ≤ high) :
    number (some (.number (Int.repr (n : ℤ)).toList)) low high = true := by
  rw [number, decimal_repr]
  simp [hlow, hhigh]

theorem isNumber_natCast (n : ℕ) : isNumber (some (.number (Int.repr (n : ℤ)).toList)) n = true := by
  rw [isNumber, decimal_repr]
  simp

theorem isText_hex {n : ℕ} (h : HexStr n) : isText (some (.string (escaped h.text))) h.text = true := by
  rw [isText, unescape_hex]
  simp

theorem hexId_hex {n : ℕ} (h : HexStr n) : hexId (some (.string (escaped h.text))) n = true := by
  have hunits : ∀ c ∈ HexText.lowerDigits, codeUnits c = [c.toNat] := HexText.forall_lower (by decide)
  have hcodes : ∀ cs : List Char, (∀ c ∈ cs, c ∈ HexText.lowerDigits) →
      cs.flatMap codeUnits = cs.map Char.toNat := by
    intro cs hcs
    induction cs with
    | nil => rfl
    | cons c cs ih =>
      rw [List.flatMap_cons, hunits c (hcs c List.mem_cons_self), ih fun d hd => hcs d (List.mem_cons_of_mem c hd)]
      rfl
  rw [hexId, unescape_hex, codes, hcodes _ h.chars_lower]
  simp only [List.length_map, h.chars_length, decide_true, Bool.true_and, List.all_map, List.all_eq_true]
  intro c hc
  exact List.any_eq_true.mpr ⟨c, h.chars_lower c hc, by simp⟩

/-- The envelope of the gateway as a parsed dictionary. -/
def envelopeValue (run : HexStr 32) (generation request : ℕ) (m : GatewayMessage) : Value :=
  .object [(escaped "body", jsonTree (.obj m.body)),
    (escaped "gateway_generation", .number (Int.repr generation).toList),
    (escaped "operation", .string (escaped m.operation)), (escaped "protocol_version", .string (escaped ipcProtocol)),
    (escaped "request_id", .number (Int.repr request).toList), (escaped "server_run_id", .string (escaped run.text))]

theorem jsonTree_envelope (run : HexStr 32) (generation request : ℕ) (m : GatewayMessage) :
    jsonTree (envelope run generation request m) = envelopeValue run generation request m := envelope_tree _ _ _ _

theorem validEnvelope_value (hg : 1 ≤ generation ∧ generation ≤ maxRequest) (hr : s.rx + 1 ≤ maxRequest) :
    validEnvelope run generation s (envelopeValue run generation (s.rx + 1) m) = true := by
  have h1 : exactFields (some (envelopeValue run generation (s.rx + 1) m)) envelopeFields = true := rfl
  have h2 : member (envelopeValue run generation (s.rx + 1) m) "protocol_version" =
    some (.string (escaped ipcProtocol)) := rfl
  have h3 : member (envelopeValue run generation (s.rx + 1) m) "server_run_id" =
    some (.string (escaped run.text)) := rfl
  have h4 : member (envelopeValue run generation (s.rx + 1) m) "gateway_generation" =
    some (.number (Int.repr generation).toList) := rfl
  have h5 : member (envelopeValue run generation (s.rx + 1) m) "request_id" =
    some (.number (Int.repr ((s.rx + 1 : ℕ) : ℤ)).toList) := rfl
  have hprotocol : isText (some (.string (escaped ipcProtocol))) ipcProtocol = true := by decide
  have hrequest := isNumber_natCast (s.rx + 1)
  push_cast at hrequest
  simp only [maxRequest] at hg hr
  have hgen : number (some (.number (Int.repr generation).toList)) 1 maxId = true :=
    number_repr (by omega) (by simp only [maxId]; omega)
  have hid : number (some (.number (Int.repr ((s.rx + 1 : ℕ) : ℤ)).toList)) 1 maxId = true :=
    number_repr (by omega) (by simp only [maxId]; omega)
  rw [validEnvelope, h1, h2, h3, h4, h5, hprotocol, isText_hex, hgen, isNumber_natCast, hid]
  push_cast
  rw [hrequest]
  rfl

/-- The order that the parent relies on: one `READY`, and no route before it. -/
def Orders (ready : Bool) : GatewayMessage → Prop
  | .ready _ => ready = false
  | .routeOpen _ => ready = true
  | _ => True

def announcesReady : GatewayMessage → Bool
  | .ready _ => true
  | _ => false

/-- The body of `ROUTE_OPEN` as a parsed dictionary. -/
def routeValue (body : RouteOpen) : Value :=
  .object [(escaped "address", .string (escaped body.address)),
    (escaped "attestor", .string (escaped body.attestor.text)),
    (escaped "channel_id", .string (escaped body.channel_id.text)),
    (escaped "game_session_id", .string (escaped body.game_session_id.text)),
    (escaped "port", .number (Int.repr (body.port : ℤ)).toList),
    (escaped "remote_run_id", .string (escaped body.remote_run_id.text))]

theorem validBody_value (hm : m.WellFormed) (ho : Orders s.ready m) :
    validBody s (some (.string (escaped m.operation))) (jsonTree (.obj m.body)) =
      some (s.ready || announcesReady m) := by
  rw [jsonTree_obj, sortFields_body]
  cases m with
  | ready port =>
    have hport : number (some (.number (Int.repr (port : ℤ)).toList)) 0 65535 = true := by
      simp only [GatewayMessage.WellFormed] at hm
      exact number_repr (by omega) (by omega)
    have hready : s.ready = false := ho
    have h1 : isText (some (.string (escaped "READY"))) "HEARTBEAT" = false := by decide
    have h2 : isText (some (.string (escaped "READY"))) "READY" = true := by decide
    have h3 : exactFields (some (.object [(escaped "port", .number (Int.repr (port : ℤ)).toList)])) ["port"] = true :=
      rfl
    have h4 : member (.object [(escaped "port", .number (Int.repr (port : ℤ)).toList)]) "port" =
      some (.number (Int.repr (port : ℤ)).toList) := rfl
    change validBody s (some (.string (escaped "READY")))
      (.object [(escaped "port", .number (Int.repr (port : ℤ)).toList)]) = _
    rw [validBody, h1, h2, h3, h4, hport, hready]
    rfl
  | routeOpen body =>
    obtain ⟨haddress, hlow, hhigh⟩ := hm
    have hready : s.ready = true := ho
    have hport : number (some (.number (Int.repr (body.port : ℤ)).toList)) 1 65535 = true :=
      number_repr (by omega) (by omega)
    have h1 : isText (some (.string (escaped "ROUTE_OPEN"))) "HEARTBEAT" = false := by decide
    have h2 : isText (some (.string (escaped "ROUTE_OPEN"))) "READY" = false := by decide
    have h3 : isText (some (.string (escaped "ROUTE_OPEN"))) "ROUTE_OPEN" = true := by decide
    have h4 : exactFields (some (routeValue body))
      ["channel_id", "attestor", "address", "port", "remote_run_id", "game_session_id"] = true := rfl
    have h5 : isText (some (.string (escaped body.address))) "127.0.0.1" = true := by
      rw [haddress]
      decide
    have h6 : validRoute (routeValue body) =
      (hexId (some (.string (escaped body.channel_id.text))) 32 &&
        hexId (some (.string (escaped body.attestor.text))) 64 &&
        isText (some (.string (escaped body.address))) "127.0.0.1" &&
        number (some (.number (Int.repr (body.port : ℤ)).toList)) 1 65535 &&
        hexId (some (.string (escaped body.remote_run_id.text))) 32 &&
        hexId (some (.string (escaped body.game_session_id.text))) 32) := rfl
    change validBody s (some (.string (escaped "ROUTE_OPEN"))) (routeValue body) = _
    rw [validBody, h1, h2, h3, h4, h6, h5, hport, hexId_hex, hexId_hex, hexId_hex, hexId_hex, hready]
    rfl
  | routeClose channel =>
    have h1 : isText (some (.string (escaped "ROUTE_CLOSE"))) "HEARTBEAT" = false := by decide
    have h2 : isText (some (.string (escaped "ROUTE_CLOSE"))) "READY" = false := by decide
    have h3 : isText (some (.string (escaped "ROUTE_CLOSE"))) "ROUTE_OPEN" = false := by decide
    have h4 : isText (some (.string (escaped "ROUTE_CLOSE"))) "ROUTE_CLOSE" = true := by decide
    have h5 : exactFields (some (.object [(escaped "channel_id", .string (escaped channel.text))])) ["channel_id"] =
      true := rfl
    have h6 : member (.object [(escaped "channel_id", .string (escaped channel.text))]) "channel_id" =
      some (.string (escaped channel.text)) := rfl
    change validBody s (some (.string (escaped "ROUTE_CLOSE")))
      (.object [(escaped "channel_id", .string (escaped channel.text))]) = _
    rw [validBody, h1, h2, h3, h4, h5, h6, hexId_hex]
    simp [announcesReady]
  | heartbeat =>
    have h1 : isText (some (.string (escaped "HEARTBEAT"))) "HEARTBEAT" = true := by decide
    change validBody s (some (.string (escaped "HEARTBEAT"))) (.object []) = _
    rw [validBody, h1]
    simp [announcesReady, exactFields]

variable (run) in
/-- The parent takes the next message of the gateway. -/
theorem validMessage_tree (hg : 1 ≤ generation ∧ generation ≤ maxRequest) (hr : s.rx + 1 ≤ maxRequest)
    (hm : m.WellFormed) (ho : Orders s.ready m) :
    validMessage run generation s (jsonTree (envelope run generation (s.rx + 1) m)) =
      some { s with ready := s.ready || announcesReady m, rx := s.rx + 1 } := by
  have hop : member (envelopeValue run generation (s.rx + 1) m) "operation" =
    some (.string (escaped m.operation)) := rfl
  have hbody : member (envelopeValue run generation (s.rx + 1) m) "body" = some (jsonTree (.obj m.body)) := rfl
  rw [jsonTree_envelope, validMessage, validEnvelope_value hg hr, hop, hbody, Option.getD_some, validBody_value hm ho]
  rfl

end

end GatewayProcess

end ArenaLab
