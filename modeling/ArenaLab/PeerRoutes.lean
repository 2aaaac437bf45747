import ArenaLab.Admission
import ArenaLab.HexText
import ArenaLab.Runs

/-! The route table of the game server: which local endpoint carries which
authenticated connection. -/

namespace ArenaLab

/-- A value of the scripting language; a float is `none` when it is not finite. -/
inductive Variant
  | nil
  | bool (b : Bool)
  | int (n : ℤ)
  | float (x : Option Rat)
  | string (s : String)
  | stringName (s : String)
  | other (n : ℕ)
  deriving DecidableEq

def Variant.text : Variant → String
  | .string s => s
  | .stringName s => s
  | _ => ""

/-- `==` of a value and a string. -/
def Variant.isText (v : Variant) (s : String) : Bool := v = .string s || v = .stringName s

def Variant.toInt : Variant → ℤ
  | .bool b => if b then 1 else 0
  | .int n => n
  | .float (some x) => x.num.tdiv x.den
  | _ => 0

abbrev Dictionary := AList (fun _ : Variant => Variant)

def Dictionary.get (d : Dictionary) (name : String) : Variant := (d.lookup (.string name)).getD .nil

def maxId : ℤ := 2147483647

def ipcExact (value : Dictionary) (names : List String) : Bool :=
  value.keys.length = names.length && names.all (fun name => Variant.string name ∈ value)

def ipcNumber (value : Variant) (low high : ℤ) : Bool :=
  match value with
  | .int n => low ≤ n && n ≤ high
  | .float (some x) => x = x.floor && low ≤ x && x ≤ high
  | _ => false

def ipcHexId (value : Variant) (length : ℕ) : Bool :=
  match value with
  | .string s => s.toList.length = length && s.toList.all (· ∈ HexText.lowerDigits)
  | _ => false

structure Route where
  body : Dictionary
  peer_id : ℤ

structure PeerRoutes where
  admission : Admission
  routes : AList (fun _ : String => Route)
  ports : AList (fun _ : ℤ => String)
  used_channels : AList (fun _ : String => Bool)
  peers : AList (fun _ : ℤ => String)
  run_id : String
  session : String
  closed : Bool
  serial : ℤ

def PeerRoutes.new (server_run game_session : String) : PeerRoutes :=
  ⟨.new, ∅, ∅, ∅, ∅, server_run, game_session, false, 0⟩

def routeFields : List String :=
  ["channel_id", "attestor", "address", "port", "remote_run_id", "game_session_id"]

/-- The tests of `open_route` on the values of a body. -/
def PeerRoutes.admits (s : PeerRoutes) (body : Dictionary) : Bool :=
  ipcHexId (body.get "channel_id") 32 && ipcHexId (body.get "attestor") 64 &&
    (body.get "address").isText "127.0.0.1" && ipcNumber (body.get "port") 1 65535 &&
    (body.get "remote_run_id").isText s.run_id && (body.get "game_session_id").isText s.session

def PeerRoutes.openRoute (s : PeerRoutes) (body : Dictionary) : Bool × PeerRoutes :=
  if s.closed || 8 ≤ s.routes.keys.length || 256 ≤ s.ports.keys.length then (false, s)
  else if !ipcExact body routeFields then (false, s)
  else if !s.admits body then (false, s)
  else
    let channel := (body.get "channel_id").text
    let port := (body.get "port").toInt
    if channel ∈ s.used_channels ∨ port ∈ s.ports then (false, s)
    else (true, { s with
      routes := s.routes.insert channel ⟨body, 0⟩
      ports := s.ports.insert port channel
      used_channels := s.used_channels.insert channel true })

def PeerRoutes.retire (s : PeerRoutes) (channel : String) : ℤ × PeerRoutes :=
  match s.routes.lookup channel with
  | none => (0, s)
  | some route => (route.peer_id, { s with
      admission := s.admission.disconnected route.peer_id
      peers := s.peers.erase route.peer_id
      routes := s.routes.erase channel })

def PeerRoutes.close (s : PeerRoutes) : PeerRoutes :=
  let s := { s with closed := true }
  let s := s.routes.keys.foldl (fun s channel => (s.retire channel).2) s
  { s with admission := s.admission.clear }

/-- What `consume` returns; the context is given by its place. -/
structure Association where
  channel_id : String
  attestor : Variant
  context : ℕ

def PeerRoutes.consume (s : PeerRoutes) (id : ℤ) (address : String) (port now : ℤ) :
    Option Association × PeerRoutes :=
  if maxId ≤ s.serial then (none, s.close)
  else if s.closed || !ipcNumber (.int id) 2 maxId || decide (id ∈ s.peers) || address ≠ "127.0.0.1" then
    (none, s)
  else
    let channel := (s.ports.lookup port).getD ""
    match s.routes.lookup channel with
    | none => (none, s)
    | some route =>
      if route.peer_id ≠ 0 then (none, s)
      else
        let admission := s.admission.connected id now
        (some ⟨channel, route.body.get "attestor", admission.2⟩, { s with
          serial := s.serial + 1
          routes := s.routes.insert channel { route with peer_id := id }
          peers := s.peers.insert id channel
          admission := admission.1 })

inductive RouteAction
  | openRoute (body : Dictionary)
  | consume (id : ℤ) (address : String) (port now : ℤ)
  | retire (channel : String)
  | close

inductive RouteEvent
  | opened (channel : String) (port : ℤ)
  | consumed (id : ℤ) (channel : String) (attestor : Variant) (context : ℕ)
  | refused
  | retired (channel : String) (id : ℤ)
  | closed

def routeNext (s : PeerRoutes) (a : RouteAction) : Option (RouteEvent × PeerRoutes) :=
  match a with
  | .openRoute body =>
    match s.openRoute body with
    | (true, s') => some (.opened (body.get "channel_id").text (body.get "port").toInt, s')
    | (false, s') => some (.refused, s')
  | .consume id address port now =>
    match s.consume id address port now with
    | (some c, s') => some (.consumed id c.channel_id c.attestor c.context, s')
    | (none, s') => some (.refused, s')
  | .retire channel => some (.retired channel (s.retire channel).1, (s.retire channel).2)
  | .close => some (.closed, s.close)

abbrev RouteStep := Runs.Induced routeNext

end ArenaLab
