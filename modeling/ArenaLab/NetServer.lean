import ArenaLab.AdmissionPolicy
import ArenaLab.Identifiers
import ArenaLab.Runs
import Mathlib.Algebra.Order.Ring.Rat
import Mathlib.Algebra.Order.Ring.Abs

/-! The game server of `network.gd`. Physics is not simulated: where pawns are and what
their rays meet is given to each tick. -/

namespace ArenaLab

abbrev Bounded (low high : ℤ) := {n : ℤ // low ≤ n ∧ n ≤ high}

inductive AlertAction
  | logOnly
  | warn
  deriving DecidableEq

/-- A configuration that `configure` accepts. -/
structure MatchConfig where
  tick_rate : Bounded 20 120
  snapshot_rate : Bounded 10 60
  max_players : Bounded 2 8
  duration_seconds : Bounded 10 3600
  frag_limit : Bounded 1 100
  threshold : ℚ
  action : AlertAction

/-- A file as `ConfigFile` reads it. A value of the wrong type reads as none. -/
structure ConfigFile where
  tick_rate : Option ℤ
  snapshot_rate : Option ℤ
  max_players : Option ℤ
  duration_seconds : Option ℤ
  frag_limit : Option ℤ
  threshold : Option ℚ
  action : String

def checkRule (name : String) (value : Option ℤ) (low high : ℤ) : Except String (Bounded low high) :=
  match value with
  | none => .error ("Valor inválido: match/" ++ name)
  | some n => if h : low ≤ n ∧ n ≤ high then .ok ⟨n, h⟩ else .error ("Valor inválido: match/" ++ name)

def configure (file : Option ConfigFile) : Except String MatchConfig :=
  match file with
  | none => .error "No se pudo leer la configuración del servidor"
  | some file => do
    let tick_rate ← checkRule "tick_rate" file.tick_rate 20 120
    let snapshot_rate ← checkRule "snapshot_rate" file.snapshot_rate 10 60
    let max_players ← checkRule "max_players" file.max_players 2 8
    let duration_seconds ← checkRule "duration_seconds" file.duration_seconds 10 3600
    let frag_limit ← checkRule "frag_limit" file.frag_limit 1 100
    let threshold ← match file.threshold with
      | none => .error "Umbral anticheat inválido"
      | some x => if x < 1 ∨ 100 < x then .error "Umbral anticheat inválido" else .ok x
    let action ← if file.action = "LOG_ONLY" then .ok .logOnly
      else if file.action = "WARN" then .ok .warn
      else .error "Acción anticheat no implementada; usa LOG_ONLY o WARN"
    return ⟨tick_rate, snapshot_rate, max_players, duration_seconds, frag_limit, threshold, action⟩

/-- What `get_value` gives: the configured values, or its defaults. -/
def settings : Except String MatchConfig → MatchConfig
  | .ok config => config
  | .error _ => ⟨⟨60, by decide⟩, ⟨20, by decide⟩, ⟨8, by decide⟩, ⟨300, by decide⟩, ⟨15, by decide⟩, 75, .warn⟩

inductive GodotError
  | ok
  | failed
  | unavailable
  | invalidData
  | invalidParameter
  | cantCreate
  deriving DecidableEq

structure Pawn where
  health : ℤ := 100
  ammo : ℤ := 12
  kills : ℤ := 0
  deaths : ℤ := 0
  cooldown : ℚ := 0
  reload_time : ℚ := 0
  respawn_time : ℚ := 0

structure PlayerInput where
  move : ℚ × ℚ
  yaw : ℚ
  pitch : ℚ
  jump : Bool
  fire : Bool
  reload : Bool
  at_tick : ℤ

structure Detector where
  alert_sent : Bool := false

/-- The arguments of an intent. A vector or an angle that is not finite is none. -/
structure Intent where
  seq : ℤ
  move : Option (ℚ × ℚ)
  yaw : Option ℚ
  pitch : Option ℚ
  jump : Bool
  fire : Bool
  reload : Bool

structure Evidence where
  score : ℚ
  state : String

/-- What the engine tells a tick: the pawn that the ray of each shooter meets, who has
fallen off the arena once moved, and what the detectors say. -/
structure World where
  hit : ℤ → Option ℤ
  fallen : ℤ → Bool
  evidence : ℤ → Evidence

inductive CombatEvent
  | started
  | advanced (delta : ℚ)
  | simulated (id : ℤ)
  | reloaded (id : ℤ)
  | respawned (id : ℤ)
  | shot (id : ℤ)
  | damaged (attacker victim health : ℤ)
  | finished
  deriving DecidableEq

/-- The node, with the peers that its transport has connected and, as history, the log of
the combat, newest first. -/
structure NetServer where
  admission : Admission := .new
  members : AList (fun _ : ℤ => Member) := ∅
  detectors : AList (fun _ : ℤ => Detector) := ∅
  pawns : AList (fun _ : ℤ => Pawn) := ∅
  inputs : AList (fun _ : ℤ => PlayerInput) := ∅
  session : String := ""
  phase : ServerPhase := .disconnected
  server_mode : Bool := false
  development : Bool := false
  tick : ℤ := 0
  match_left : ℚ := 300
  telemetry_elapsed : ℚ := 0
  peers : List ℤ := []
  log : List CombatEvent := []

/-- The constant `PI`, a double. -/
def godotPi : ℚ := 884279719003555 / 281474976710656

namespace Pawn

/-- Whether a reload that is under way ends within the step. -/
def reloads (pawn : Pawn) (delta : ℚ) : Bool := 0 < pawn.reload_time && max 0 (pawn.reload_time - delta) = 0

/-- `simulate` but for the motion. -/
def simulate (pawn : Pawn) (delta : ℚ) (reload : Bool) : Pawn :=
  let pawn := { pawn with
    cooldown := max 0 (pawn.cooldown - delta)
    ammo := if pawn.reloads delta then 12 else pawn.ammo
    reload_time := if 0 < pawn.reload_time then max 0 (pawn.reload_time - delta) else pawn.reload_time }
  if pawn.health ≤ 0 then pawn
  else if reload && pawn.ammo < 12 && pawn.reload_time = 0 then { pawn with reload_time := 14 / 10 }
  else pawn

def canFire (pawn : Pawn) : Bool :=
  0 < pawn.health && 0 < pawn.ammo && pawn.reload_time = 0 && pawn.cooldown = 0

end Pawn

namespace NetServer

def stop (s : NetServer) : NetServer :=
  { s with
    admission := s.admission.clear
    members := ∅
    detectors := ∅
    pawns := ∅
    inputs := ∅
    session := ""
    phase := .disconnected
    server_mode := false
    development := false
    tick := 0
    telemetry_elapsed := 0
    peers := [] }

/-- `host`: the bytes are none when fewer than sixteen could be had, and `listening` is
what the transport answers. -/
def host (s : NetServer) (config : Except String MatchConfig) (port : ℤ) (dev : Bool) (random : Option (HexStr 32))
    (listening : GodotError) : GodotError × NetServer :=
  match config with
  | .error _ => (.invalidData, s)
  | .ok _ =>
    if port < 1024 ∨ 65535 < port then (.invalidParameter, s)
    else if profileError dev then (.unavailable, s)
    else match random with
      | none => (.unavailable, s.stop)
      | some bytes =>
        if listening ≠ .ok then (listening, s.stop)
        else (.ok, { s.stop with server_mode := true, development := dev, phase := .lobby, session := bytes.text })

def peerConnected (s : NetServer) (id now : ℤ) : NetServer :=
  let s := { s with peers := id :: s.peers }
  if s.server_mode then { s with admission := (s.admission.connected id now).1 } else s

def peerDisconnected (s : NetServer) (id : ℤ) : NetServer :=
  { s with
    peers := s.peers.filter (· != id)
    admission := s.admission.disconnected id
    members := s.members.erase id
    inputs := s.inputs.erase id
    detectors := s.detectors.erase id
    pawns := s.pawns.erase id }

def hello (s : NetServer) (id version : ℤ) (nickname : String) : NetServer :=
  if s.server_mode then
    let (answer, admission) := s.admission.hello id version 1 nickname s.development s.phase s.members
    if answer = .accept then
      { s with
        admission := admission
        members := s.members.insert id { name := nickname }
        detectors := s.detectors.insert id {} }
    else { s with admission := admission }
  else s

def record (s : NetServer) (e : CombatEvent) : NetServer := { s with log := e :: s.log }

def setPawn (s : NetServer) (id : ℤ) (f : Pawn → Pawn) : NetServer := { s with pawns := s.pawns.adjust id f }

def spawn (s : NetServer) (id : ℤ) : NetServer := { s with pawns := s.pawns.insert id {} }

def respawn (s : NetServer) (id : ℤ) : NetServer :=
  let s := s.setPawn id fun pawn =>
    { pawn with health := 100, ammo := 12, reload_time := 0, cooldown := 0, respawn_time := 0 }
  { s.record (.respawned id) with inputs := s.inputs.erase id }

/-- The start of a match for one player. -/
def enlist (s : NetServer) (player : ℤ) : NetServer :=
  let s := if player ∈ s.pawns then s else s.spawn player
  (s.setPawn player fun pawn => { pawn with kills := 0, deaths := 0 }).respawn player

/-- Keys are kept newest first, so dictionaries are run through in reverse. -/
def startMatch (config : MatchConfig) (s : NetServer) : NetServer :=
  s.members.keys.reverse.foldl enlist
    { s.record .started with phase := .inMatch, match_left := config.duration_seconds.1 }

def allReady (s : NetServer) : Bool := s.members.entries.all (fun e => e.2.ready)

def readyRequest (config : MatchConfig) (s : NetServer) (id : ℤ) (value : String) : NetServer :=
  if !s.server_mode ∨ !s.admission.permits id value s.session ∨ id ∉ s.members ∨
      ¬(s.phase = .lobby ∨ s.phase = .results) then s
  else
    let s := { s with members := s.members.adjust id fun member => { member with ready := true } }
    if s.allReady && 2 ≤ s.members.keys.length then s.startMatch config else s

end NetServer

/-- An accepted intent, under the generation of its connection. -/
structure AcceptedIntent where
  generation : ℤ
  seq : ℤ
  tick : ℤ

namespace NetServer

def acceptIntent (s : NetServer) (id : ℤ) (value : String) (i : Intent) : Option AcceptedIntent × NetServer :=
  if !s.server_mode ∨ s.phase ≠ .inMatch then (none, s)
  else if !s.admission.permits id value s.session ∨ id ∉ s.pawns ∨ id ∉ s.members then (none, s)
  else match s.admission.connection id with
    | none => (none, s)
    | some context =>
      if i.seq ≤ context.last_sequence ∨ 2147483647 < i.seq then (none, s)
      else match i.move, i.yaw, i.pitch with
        | some move, some yaw, some pitch =>
          if 1001 / 1000 < move.1 * move.1 + move.2 * move.2 then (none, s)
          else if godotPi < |yaw| ∨ 3 / 2 < |pitch| then (none, s)
          else if context.last_input_tick = s.tick then (none, s)
          else (some ⟨context.generation, i.seq, s.tick⟩, { s with
            admission := s.admission.update id fun c => { c with last_sequence := i.seq, last_input_tick := s.tick }
            inputs := s.inputs.insert id ⟨move, yaw, pitch, i.jump, i.fire, i.reload, s.tick⟩ })
        | _, _, _ => (none, s)

def finishMatch (s : NetServer) : NetServer :=
  { s.record .finished with
    phase := .results
    members := s.members.mapValues fun member => { member with ready := false }
    inputs := ∅ }

def damage (config : MatchConfig) (s : NetServer) (attacker victim amount : ℤ) : NetServer :=
  match s.pawns.lookup victim with
  | none => s
  | some pawn =>
    if pawn.health ≤ 0 then s
    else
      let health := max 0 (pawn.health - amount)
      let s := (s.setPawn victim fun pawn => { pawn with health := health }).record (.damaged attacker victim health)
      if health = 0 then
        let s := s.setPawn victim fun pawn => { pawn with deaths := pawn.deaths + 1, respawn_time := 3 }
        let s := if attacker ≠ victim then s.setPawn attacker fun pawn => { pawn with kills := pawn.kills + 1 } else s
        if (s.pawns.lookup attacker).any (fun pawn => config.frag_limit.1 ≤ pawn.kills) then s.finishMatch else s
      else s

def fireWeapon (config : MatchConfig) (world : World) (s : NetServer) (id : ℤ) : NetServer :=
  let s := (s.setPawn id fun pawn =>
    { pawn with ammo := pawn.ammo - 1, cooldown := 18 / 100 }).record (.shot id)
  match world.hit id with
  | none => s
  | some other =>
    if (s.pawns.lookup other).any (fun pawn => 0 < pawn.health) then s.damage config id other 25 else s

/-- The input that a pawn follows, if there is one and it is not stale. -/
def freshInput (config : MatchConfig) (s : NetServer) (id : ℤ) : Option PlayerInput :=
  (s.inputs.lookup id).filter fun input => !(config.tick_rate.1 / 4 < s.tick - input.at_tick)

def simulate (s : NetServer) (id : ℤ) (delta : ℚ) (pawn : Pawn) (reload : Bool) : NetServer :=
  let s := (s.setPawn id fun pawn => pawn.simulate delta reload).record (.simulated id)
  if pawn.reloads delta then s.record (.reloaded id) else s

def clearEdges (s : NetServer) (id : ℤ) : NetServer :=
  { s with inputs := s.inputs.adjust id fun input => { input with jump := false, reload := false } }

/-- What the loop does for one pawn, and whether it goes on to the next. -/
def pawnTurn (config : MatchConfig) (delta : ℚ) (world : World) (s : NetServer) (id : ℤ) : Bool × NetServer :=
  match s.pawns.lookup id with
  | none => (true, s)
  | some pawn =>
    if pawn.health ≤ 0 then
      let s := s.setPawn id fun pawn => { pawn with respawn_time := pawn.respawn_time - delta }
      (true, if pawn.respawn_time - delta ≤ 0 then s.respawn id else s)
    else
      let input := s.freshInput config id
      let s := s.simulate id delta pawn (input.any (·.reload))
      let s := if input.any (·.fire) && (s.pawns.lookup id).any (·.canFire) then s.fireWeapon config world id else s
      if s.phase ≠ .inMatch then (false, s)
      else
        let s := if input.isSome then s.clearEdges id else s
        (true, if world.fallen id then s.damage config id id 100 else s)

def pawnLoop (config : MatchConfig) (delta : ℚ) (world : World) : List ℤ → NetServer → NetServer
  | [], s => s
  | id :: ids, s =>
    match s.pawnTurn config delta world id with
    | (true, s) => pawnLoop config delta world ids s
    | (false, s) => s

def observe (config : MatchConfig) (world : World) (s : NetServer) (id : ℤ) : NetServer :=
  if (s.pawns.lookup id).any (fun pawn => 0 < pawn.health) then
    let evidence := world.evidence id
    { s with
      members := s.members.adjust id fun member => { member with score := evidence.score, state := evidence.state }
      detectors := s.detectors.adjust id fun detector =>
        { detector with alert_sent := detector.alert_sent || config.threshold ≤ evidence.score } }
  else s

def runClock (delta : ℚ) (s : NetServer) : NetServer :=
  { s.record (.advanced delta) with match_left := max 0 (s.match_left - delta) }

def timeUp (s : NetServer) : NetServer := if s.match_left ≤ 0 then s.finishMatch else s

def telemetry (config : MatchConfig) (delta : ℚ) (world : World) (s : NetServer) : NetServer :=
  let s := { s with telemetry_elapsed := s.telemetry_elapsed + delta }
  if 1 / 20 ≤ s.telemetry_elapsed then
    { s.pawns.keys.reverse.foldl (observe config world) s with telemetry_elapsed := 0 }
  else s

/-- A tick of a running match. -/
def matchTick (config : MatchConfig) (delta : ℚ) (world : World) (s : NetServer) : NetServer :=
  let s := s.runClock delta
  let s := pawnLoop config delta world s.pawns.keys.reverse s
  s.timeUp.telemetry config delta world

/-- The clock, and the handshakes that have expired. -/
def beginTick (now : ℤ) (s : NetServer) : NetServer :=
  { s with
    tick := s.tick + 1
    admission := (s.admission.expiredHandshakes now).foldl Admission.disconnected s.admission }

def physicsProcess (config : MatchConfig) (delta : ℚ) (now : ℤ) (world : World) (s : NetServer) : NetServer :=
  if s.server_mode then
    if (s.beginTick now).phase = .inMatch then (s.beginTick now).matchTick config delta world else s.beginTick now
  else s

end NetServer

inductive NetAction
  | host (port : ℤ) (dev : Bool) (random : Option (HexStr 32)) (listening : GodotError)
  | stop
  | connected (id now : ℤ)
  | disconnected (id : ℤ)
  | hello (id version : ℤ) (nickname : String)
  | readyRequest (id : ℤ) (session : String)
  | intent (id : ℤ) (session : String) (intent : Intent)
  | physics (delta : ℚ) (now : ℤ) (world : World)

structure NetEvent where
  action : NetAction
  accepted : Option AcceptedIntent

/-- One event at the server. A peer that is connected does not connect again, and time
does not run backwards. -/
def netNext (file : Option ConfigFile) (s : NetServer) (a : NetAction) : Option (NetEvent × NetServer) :=
  let config := settings (configure file)
  match a with
  | .host port dev random listening => some (⟨a, none⟩, (s.host (configure file) port dev random listening).2)
  | .stop => some (⟨a, none⟩, s.stop)
  | .connected id now => if s.peers.contains id then none else some (⟨a, none⟩, s.peerConnected id now)
  | .disconnected id => some (⟨a, none⟩, s.peerDisconnected id)
  | .hello id version nickname => some (⟨a, none⟩, s.hello id version nickname)
  | .readyRequest id session => some (⟨a, none⟩, s.readyRequest config id session)
  | .intent id session i => some (⟨a, (s.acceptIntent id session i).1⟩, (s.acceptIntent id session i).2)
  | .physics delta now world =>
    if delta < 0 then none else some (⟨a, none⟩, s.physicsProcess config delta now world)

/-- The `server.cfg` of the game. -/
def serverCfg : ConfigFile := ⟨some 60, some 20, some 8, some 300, some 15, some 75, "WARN"⟩

def quietSession : HexStr 32 := ⟨"00000000000000000000000000000000", by decide⟩

/-- Two players that join and start a match. -/
def twoPlayers : List NetAction :=
  [.host 7777 true (some quietSession) .ok, .connected 2 0, .connected 3 0, .hello 2 1 "Alice", .hello 3 1 "Bob",
    .readyRequest 2 quietSession.text, .readyRequest 3 quietSession.text]

abbrev NetStep (file : Option ConfigFile) := Runs.Induced (netNext file)

end ArenaLab
