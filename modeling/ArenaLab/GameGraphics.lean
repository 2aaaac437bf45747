import ArenaLab.GameService
import ArenaLab.GameIntent
import ArenaLab.LabWorker
import Mathlib.Data.List.AList

/-! The graphical client of the match service: it sends a command, waits for the answer
and hands the authoritative packets on to the renderer. -/

namespace ArenaLab

/-- `ACTIONS`: the bytes that the renderer writes for its keys. -/
def graphicsActions : List (UInt8 × String) :=
  [(0x6e, "north"), (0x73, "south"), (0x65, "east"), (0x77, "west"), (0x66, "fire"), (0x2e, "wait")]

/-- The ids of the match and of the session in a state record. -/
def stateIds (record : List UInt8) : List UInt8 := (record.drop 20).take 32

inductive GraphicsPhase
  | connecting
  | idle
  | waiting (action : String)
  | ended (error : Option String)
  deriving DecidableEq

/-- What `graphics` keeps, with the packets that it has written to the renderer. -/
structure Graphics where
  phase : GraphicsPhase
  hello : List UInt8
  sequence : ℕ
  history : AList (fun _ : ℕ => GameState)
  decisions : List (String × String × ℕ)
  forwarded : List (List UInt8)

def Graphics.boot : Graphics := ⟨.connecting, [], 0, ∅, [], []⟩

def Graphics.raise (g : Graphics) (error : String) : Graphics := { g with phase := .ended (some error) }

/-- The first packet. -/
def Graphics.greet (g : Graphics) (packet : List UInt8) : Graphics :=
  match pyState packet with
  | .error e => g.raise e
  | .ok value =>
    { g with phase := .idle, hello := packet, history := g.history.insert 0 value, forwarded := [packet] }

/-- The first half of a round of the loop, with the command that it writes; `key` is the
byte that waits, and one that is no action has ended the task that reads them. -/
def Graphics.act (g : Graphics) (key : Option UInt8) : Graphics × List (List UInt8) :=
  match key.elim (some "wait") (fun b => List.lookup b graphicsActions) with
  | none => (g.raise "RENDERER_ACTION_INVALID", [])
  | some action =>
    let g := { g with sequence := g.sequence + 1 }
    if 256 < g.sequence then (g.raise "GRAPHICS_SESSION_LIMIT", [])
    else match gameCommand g.hello g.sequence action with
      | .error e => (g.raise e, [])
      | .ok data => ({ g with phase := .waiting action }, [data])

/-- The end of a round; `gone` is a renderer that has stopped. -/
def Graphics.forward (g : Graphics) (packet : List UInt8) (gone : Bool) : Graphics :=
  if gone then { g with phase := .ended none }
  else { g with phase := .idle, forwarded := g.forwarded ++ [packet] }

/-- The second half of a round, from the answer on. -/
def Graphics.answer (g : Graphics) (action : String) (packet : List UInt8) (gone : Bool) : Graphics :=
  if packet = errorFrame 7 then g.forward packet gone
  else match pyState packet with
    | .error e => g.raise e
    | .ok value =>
      if stateIds packet ≠ stateIds g.hello ∨ value.player ≠ (g.hello.getD 6 0).toNat ∨
          value.sequence ≠ g.sequence then g.raise "RESPONSE_ASSOCIATION"
      else
        let decisions :=
          if action = "wait" then g.decisions else g.decisions ++ [(action, value.reason, value.tick)]
        { g with history := g.history.insert g.sequence value, decisions := decisions }.forward packet gone

/-- The last checks of `graphics`, on what the renderer prints of its view. -/
def Graphics.displayed (g : Graphics) (view : GameView) : Except String GameState :=
  match g.history.lookup view.sequence.toNat with
  | none => .error "RENDERER_STATE_NOT_RECEIVED"
  | some displayed =>
    if displayed.tick ≠ view.tick.toNat ∨ displayed.player ≠ view.slot.toNat then
      .error "RENDERER_STATE_NOT_RECEIVED"
    else .ok displayed

/-- The frame that handler `t` has just written: it now waits for its drain. -/
def Service.emitted (s s' : Service) (t : ℕ) : List (List UInt8) :=
  match s'.handlers t with
  | some ⟨_, _, _, .sending data _⟩ => if s'.handlers t = s.handlers t then [] else [data]
  | _ => []

/-- What a step of the service leaves of the bytes that wait for handler `t`. -/
def ServiceAction.leaves (t : ℕ) (up : List UInt8) : ServiceAction → Option (List UInt8)
  | .frame u data =>
    if u ≠ t then some up
    else match readFrame up with
      | some (data', rest) => if data' = data then some rest else none
      | none => none
  | _ => some up

/-- The service, the client whose connection is that of handler `t`, and the bytes under
way between the two. -/
structure GraphicsWorld where
  service : Service
  client : Graphics
  up : List UInt8
  down : List UInt8

def GraphicsWorld.boot (w : GameWorld) : GraphicsWorld := ⟨.boot w, .boot, [], []⟩

/-- `stop` is any end of the client that no packet brings: a renderer that has left, and what
`graphics` raises without a check of its own, at a timeout, a lost connection or a renderer
that fails. -/
inductive GraphicsAction
  | service (a : ServiceAction)
  | hello
  | act (key : Option UInt8)
  | answer (gone : Bool)
  | stop

def graphicsNext (config : ServiceConfig) (t : ℕ) (w : GraphicsWorld) : GraphicsAction → Option GraphicsWorld
  | .service a =>
    match a.leaves t w.up, serviceNext config w.service a with
    | some up, some (_, service) =>
      some { w with
        service := service
        up := up
        down := w.down ++ Framing.stream (w.service.emitted service t) }
    | _, _ => none
  | .hello =>
    match w.client.phase, readFrame w.down with
    | .connecting, some (packet, down) => some { w with client := w.client.greet packet, down := down }
    | _, _ => none
  | .act key =>
    match w.client.phase with
    | .idle =>
      some { w with
        client := (w.client.act key).1
        up := w.up ++ Framing.stream (w.client.act key).2 }
    | _ => none
  | .answer gone =>
    match w.client.phase, readFrame w.down with
    | .waiting action, some (packet, down) =>
      some { w with client := w.client.answer action packet gone, down := down }
    | _, _ => none
  | .stop =>
    match w.client.phase with
    | .ended _ => none
    | _ => some { w with client := { w.client with phase := .ended none } }

abbrev GraphicsStep (config : ServiceConfig) (t : ℕ) :=
  Runs.Induced (fun w a => (graphicsNext config t w a).map (fun w' => (a, w')))

end ArenaLab
