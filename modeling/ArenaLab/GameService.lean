import ArenaLab.GameHost

/-! The match service: connection handlers that share one worker. A handler is
cut at its awaits, and the event loop may resume any handler whose await is over. -/

namespace ArenaLab

/-- The enrolled certificates, and the successive ticks of the monotonic clock,
`int((time() - started) / 0.05)`. -/
structure ServiceConfig where
  identities : Fin 2 → Bytes 32
  distinct : identities 0 ≠ identities 1
  sha256 : List UInt8 → Bytes 32
  clock : ℕ → ℤ

def ServiceConfig.slotOf (config : ServiceConfig) : Option (List UInt8) → Option (Fin 2)
  | none => none
  | some cert =>
    if cert = [] then none
    else if config.sha256 cert = config.identities 0 then some 0
    else if config.sha256 cert = config.identities 1 then some 1
    else none

/-- Why a handler takes the lock; `left` counts the frames it may still read,
the current one included. -/
inductive Job
  | duplicate
  | hello
  | tick (payload : List UInt8) (left : ℕ)
  | intent (payload : List UInt8) (left : ℕ)
  | close
  deriving DecidableEq

inductive AfterSend
  | stop
  | loop (left : ℕ)
  deriving DecidableEq

/-- The await a handler is at. `ready` is no await: the lock is held and the
next exchange is about to write. -/
inductive Phase
  | sending (data : List UInt8) (next : AfterSend)
  | reading (left : ℕ)
  | acquiring (job : Job)
  | ready (job : Job)
  | exchanging (job : Job) (command : List UInt8)
  | closing
  | ended
  deriving DecidableEq

structure Handler where
  cert : Option (List UInt8)
  slot : Option (Fin 2)
  owned : Bool
  phase : Phase
  deriving DecidableEq

/-- The service, its worker and the two pipes between them. -/
structure Service where
  handlers : ℕ → Option Handler
  tasks : List ℕ
  lock : Option ℕ
  claimed : Fin 2 → Bool
  connected : Fin 2 → Bool
  broken : Bool
  shut : Bool
  returncode : Bool
  reads : ℕ
  world : GameWorld
  exited : Bool
  stdin : List UInt8
  stdout : List UInt8

inductive ServiceEvent
  | silent
  | claimed (t : ℕ) (slot : Fin 2)
  | wrote (t : ℕ) (op : UInt8) (slot : Fin 2) (command : List UInt8)
  | returned (t : ℕ) (command record : List UInt8)
  | answered (command record : List UInt8)
  | poisoned (t : ℕ)
  | timedOut (t : ℕ)
  | crashed
  | killed
  | closed
  | ended (t : ℕ)
  deriving DecidableEq

def errorFrame (code : UInt8) : List UInt8 := [0x4C, 0x47, 0x52, 0x45, code]

def Service.put (s : Service) (t : ℕ) (h : Handler) (phase : Phase) : Service :=
  { s with handlers := Function.update s.handlers t (some { h with phase := phase }) }

def Service.disconnect (s : Service) (h : Handler) : Service :=
  match h.slot with
  | some slot => if h.owned then { s with connected := Function.update s.connected slot false } else s
  | none => s

/-- The `finally` of `handle` up to its first await. -/
def Service.windDown (s : Service) (t : ℕ) (h : Handler) : Service :=
  (s.disconnect h).put t h (if h.owned && !s.broken then .acquiring .close else .closing)

/-- An exception leaves `exchange`, and with it the lock. -/
def Service.raised (s : Service) (t : ℕ) (h : Handler) (job : Job) : Service :=
  match job with
  | .close => { s with lock := none, broken := true }.put t h .closing
  | _ => { s with lock := none }.windDown t h

/-- The first part of `handle`. -/
def Service.connect (config : ServiceConfig) (s : Service) (t : ℕ) (cert : Option (List UInt8)) :
    Option (ServiceEvent × Service) :=
  if (s.handlers t).isSome then none
  else if 4 ≤ s.tasks.length then some (.silent, s)
  else
    let slot := config.slotOf cert
    let h : Handler := ⟨cert, slot, false, .closing⟩
    let s := { s with tasks := t :: s.tasks }
    match slot with
    | none => some (.silent, s.put t h (.sending (errorFrame 1) .stop))
    | some slot =>
      if s.broken then some (.silent, s.put t h (.sending (errorFrame 4) .stop))
      else if s.claimed slot then some (.silent, s.put t h (.acquiring .duplicate))
      else
        let s := { s with
          claimed := Function.update s.claimed slot true
          connected := Function.update s.connected slot true }
        some (.claimed t slot, s.put t { h with owned := true } (.acquiring .hello))

/-- The synchronous part of `exchange`. -/
def Service.issue (s : Service) (t : ℕ) (h : Handler) (slot : Fin 2) (job : Job) (op : UInt8)
    (payload : List UInt8) : ServiceEvent × Service :=
  if s.broken || s.returncode then (.silent, s.raised t h job)
  else if payload.length ≠ 48 then (.silent, s.raised t h job)
  else
    let command := serviceCommand op slot payload
    (.wrote t op slot command,
      { s with stdin := s.stdin ++ command }.put t h (.exchanging job command))

def Service.write (config : ServiceConfig) (s : Service) (t : ℕ) (h : Handler) (slot : Fin 2) (job : Job) :
    ServiceEvent × Service :=
  match job with
  | .duplicate => s.issue t h slot job 4 noPayload
  | .hello => s.issue t h slot job 4 noPayload
  | .tick _ _ =>
    let tick := config.clock s.reads
    let s := { s with reads := s.reads + 1 }
    if 0 ≤ tick ∧ tick < 18446744073709551616 then s.issue t h slot job 2 (tickPayload tick.toNat)
    else (.silent, s.raised t h job)
  | .intent payload _ => s.issue t h slot job 1 payload
  | .close => s.issue t h slot job 3 noPayload

/-- What a handler does with the reply it waited for. -/
def Service.resume (s : Service) (t : ℕ) (h : Handler) (slot : Fin 2) (job : Job) (record : List UInt8)
    (state : GameState) : Service :=
  match job with
  | .duplicate =>
    let isOpen := (state.players.map (·.isOpen)).getD slot false
    { s with lock := none }.put t h (.sending (errorFrame (if isOpen then 2 else 3)) .stop)
  | .hello => { s with lock := none }.put t h (.sending record (.loop 256))
  | .tick payload left => s.put t h (.ready (.intent payload left))
  | .intent _ left => { s with lock := none }.put t h (.sending record (.loop (left - 1)))
  | .close => { s with lock := none }.put t h .closing

/-- `exchange` once `readexactly` has its eighty bytes. -/
def Service.reply (s : Service) (t : ℕ) (h : Handler) (slot : Fin 2) (job : Job) (command : List UInt8) :
    ServiceEvent × Service :=
  let record := s.stdout.take 80
  let s := { s with stdout := s.stdout.drop 80 }
  match pyState record with
  | .ok state =>
    if state.player = slot then (.returned t command record, s.resume t h slot job record state)
    else (.poisoned t, { s with broken := true }.raised t h job)
  | .error _ => (.poisoned t, { s with broken := true }.raised t h job)

/-- The loop of `handle` after a frame has been answered. -/
def AfterSend.phase : AfterSend → Option Phase
  | .stop => none
  | .loop 0 => some (.sending (errorFrame 6) .stop)
  | .loop left => some (.reading left)

def Service.frame (s : Service) (t : ℕ) (h : Handler) (left : ℕ) (data : List UInt8) : Service :=
  if data.length ≠ 48 then s.put t h (.sending (errorFrame 5) .stop)
  else if !(s.connected 0 && s.connected 1) then s.put t h (.sending (errorFrame 7) (.loop (left - 1)))
  else s.put t h (.acquiring (.tick data left))

/-- The worker takes one command from its pipe. -/
def Service.serve (s : Service) : Option (ServiceEvent × Service) :=
  if s.exited || s.stdin.length < 50 then none
  else
    let command := s.stdin.take 50
    let s := { s with stdin := s.stdin.drop 50 }
    match hostStep s.world command with
    | none => some (.crashed, { s with exited := true })
    | some (world, record) =>
      some (.answered command record, { s with world := world, stdout := s.stdout ++ record })

/-- What the event loop or the world outside does next: `leave` ends the loop of
a handler or its client's connection, `fail` breaks off an exchange that has
written, `cancel` is the cancellation that `close` asks for. -/
inductive ServiceAction
  | connect (t : ℕ) (cert : Option (List UInt8))
  | acquire (t : ℕ)
  | write (t : ℕ)
  | reply (t : ℕ)
  | fail (t : ℕ)
  | sent (t : ℕ)
  | frame (t : ℕ) (data : List UInt8)
  | leave (t : ℕ)
  | cancel (t : ℕ)
  | finish (t : ℕ)
  | serve
  | kill
  | reap
  | close

/-- One step of handler `t`. -/
def Service.resumeHandler (config : ServiceConfig) (s : Service) (t : ℕ) (h : Handler) :
    ServiceAction → Option (ServiceEvent × Service)
  | .acquire _ =>
    match h.phase, s.lock with
    | .acquiring job, none => some (.silent, { s with lock := some t }.put t h (.ready job))
    | _, _ => none
  | .write _ =>
    match h.phase, h.slot with
    | .ready job, some slot => some (s.write config t h slot job)
    | _, _ => none
  | .reply _ =>
    match h.phase, h.slot with
    | .exchanging job command, some slot =>
      if s.stdout.length < 80 then none else some (s.reply t h slot job command)
    | _, _ => none
  | .fail _ =>
    match h.phase with
    | .exchanging job _ => some (.timedOut t, { s with broken := true }.raised t h job)
    | _ => none
  | .sent _ =>
    match h.phase with
    | .sending _ next =>
      match next.phase with
      | none => some (.silent, s.windDown t h)
      | some phase => some (.silent, s.put t h phase)
    | _ => none
  | .frame _ data =>
    match h.phase with
    | .reading left => some (.silent, s.frame t h left data)
    | _ => none
  | .leave _ =>
    match h.phase with
    | .sending _ _ => some (.silent, s.windDown t h)
    | .reading _ => some (.silent, s.windDown t h)
    | _ => none
  | .cancel _ =>
    if !s.shut then none
    else match h.phase with
      | .sending _ _ => some (.silent, s.windDown t h)
      | .reading _ => some (.silent, s.windDown t h)
      | .acquiring _ => some (.silent, s.windDown t h)
      | _ => none
  | .finish _ =>
    match h.phase with
    | .closing => some (.ended t, { s with tasks := s.tasks.erase t }.put t h .ended)
    | _ => none
  | _ => none

def serviceNext (config : ServiceConfig) (s : Service) (a : ServiceAction) :
    Option (ServiceEvent × Service) :=
  match a with
  | .connect t cert => s.connect config t cert
  | .serve => s.serve
  | .kill => some (.killed, { s with exited := true })
  | .reap => if s.exited then some (.silent, { s with returncode := true }) else none
  | .close => some (.closed, { s with broken := true, shut := true })
  | .acquire t | .write t | .reply t | .fail t | .sent t | .frame t _ | .leave t | .cancel t
  | .finish t => (s.handlers t).bind (fun h => s.resumeHandler config t h a)

abbrev ServiceStep (config : ServiceConfig) := Runs.Induced (serviceNext config)

/-- The service after `start`, with a worker that has said hello. -/
def Service.boot (w : GameWorld) : Service where
  handlers := fun _ => none
  tasks := []
  lock := none
  claimed := fun _ => false
  connected := fun _ => false
  broken := false
  shut := false
  returncode := false
  reads := 0
  world := w
  exited := false
  stdin := []
  stdout := []

end ArenaLab
