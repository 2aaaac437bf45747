import ArenaLab.EventLog
import ArenaLab.ProcessTable
import ArenaLab.Runs

/-! `stop` of the local service: for each record the identity is checked, the
process is pinned, and the identity is checked again before every signal, while
the processes of the machine come and go between any two of these steps. -/

namespace ArenaLab

abbrev LabProc := ProcessTable.Proc String String

abbrev LabTable := ProcessTable.Table String String

/-- What `stop_process` reads of a record of `state.json`. -/
structure ProcRecord where
  pid : ℕ
  start_ticks : String
  executable : String
  deriving DecidableEq

inductive StopSignal
  | sigterm
  | sigkill
  deriving DecidableEq

/-- The calls of `matches` in `stop_process`, in their order. -/
inductive MatchSite
  | first
  | pinned
  | terminating
  | terminated
  | killing
  | killed
  deriving DecidableEq

/-- Where `stop_process` is; `identity` reads the start first, then the executable. -/
inductive StopAt
  | stat (site : MatchSite)
  | exe (site : MatchSite) (start : String)
  | opening
  | sending (signal : StopSignal)

structure StopCall where
  record : ProcRecord
  fd : Option ℕ
  «at» : StopAt

inductive StopEvent
  | sawExecutable (serial : ℕ) (executable : String)
  | signalled (record : ProcRecord) (p : LabProc) (signal : StopSignal)
  deriving DecidableEq

/-- The loop of `manage` over the records, with the machine's processes and the
history, newest first. -/
structure Stopping where
  table : LabTable
  todo : List ProcRecord
  call : Option StopCall
  raised : Bool
  log : List StopEvent

/-- A step of `stop`, with what its system call and its clock answer, or one of the machine. -/
inductive StopAction
  | next
  | readStat (ok : Bool)
  | readExe (ok late : Bool)
  | pidfdOpen (ok : Bool)
  | pidfdSend (ok : Bool)
  | reap (serial : ℕ)
  | exec (serial : ℕ) (exe : Option String)
  | spawn (p : LabProc)

def stopBoot (table : LabTable) (records : List ProcRecord) : Stopping where
  table := table
  todo := records.reverse
  call := none
  raised := false
  log := []

def Stopping.goto (s : Stopping) (c : StopCall) (at_ : StopAt) : Stopping :=
  { s with call := some { c with «at» := at_ } }

def Stopping.finish (s : Stopping) : Stopping := { s with call := none }

def Stopping.raise (s : Stopping) : Stopping := { s with call := none, raised := true }

def Stopping.note (s : Stopping) (e : StopEvent) : Stopping := { s with log := e :: s.log }

/-- What follows a call of `matches`. -/
def Stopping.matched (s : Stopping) (c : StopCall) (site : MatchSite) (result late : Bool) : Stopping :=
  match site with
  | .first => if result then s.goto c .opening else s.finish
  | .pinned => if result then s.goto c (.sending .sigterm) else s.finish
  | .terminating => if result && !late then s.goto c (.stat .terminating) else s.goto c (.stat .terminated)
  | .terminated => if result then s.goto c (.sending .sigkill) else s.finish
  | .killing => if result && !late then s.goto c (.stat .killing) else s.goto c (.stat .killed)
  | .killed => if result then s.raise else s.finish

def Stopping.readStat (s : Stopping) (c : StopCall) (site : MatchSite) (ok : Bool) : Stopping :=
  match s.table.holder c.record.pid with
  | none => s.matched c site false false
  | some p => if ok then s.goto c (.exe site p.start) else s.matched c site false false

def Stopping.readExe (s : Stopping) (c : StopCall) (site : MatchSite) (start : String) (ok late : Bool) :
    Stopping :=
  match (s.table.holder c.record.pid).bind (fun p => p.exe.map (p.serial, ·)) with
  | none => s.matched c site false late
  | some (serial, executable) =>
    if ok then (s.note (.sawExecutable serial executable)).matched c site
      (start = c.record.start_ticks && executable = c.record.executable) late
    else s.matched c site false late

/-- `pidfd_open`, outside of the `try`. -/
def Stopping.pidfdOpen (s : Stopping) (c : StopCall) (ok : Bool) : Stopping :=
  match s.table.holder c.record.pid with
  | none => s.raise
  | some p => if ok then s.goto { c with fd := some p.serial } (.stat .pinned) else s.raise

def StopSignal.after : StopSignal → MatchSite
  | .sigterm => .terminating
  | .sigkill => .killing

/-- `pidfd_send_signal`; a process that is gone ends the call. -/
def Stopping.pidfdSend (s : Stopping) (c : StopCall) (signal : StopSignal) (ok : Bool) : Stopping :=
  match c.fd.bind s.table.find with
  | none => s.finish
  | some p => if ok then (s.note (.signalled c.record p signal)).goto c (.stat signal.after) else s.raise

def Stopping.act (s : Stopping) (c : StopCall) (a : StopAction) : Option Stopping :=
  match c.at, a with
  | .stat site, .readStat ok => some (s.readStat c site ok)
  | .exe site start, .readExe ok late => some (s.readExe c site start ok late)
  | .opening, .pidfdOpen ok => some (s.pidfdOpen c ok)
  | .sending signal, .pidfdSend ok => some (s.pidfdSend c signal ok)
  | _, _ => none

def Stopping.begin (s : Stopping) : Option Stopping :=
  match s.call, s.raised, s.todo with
  | none, false, record :: todo =>
    some { s with todo := todo, call := some ⟨record, none, .stat .first⟩ }
  | _, _, _ => none

def stopNext (s : Stopping) (a : StopAction) : Option Stopping :=
  match a with
  | .reap serial => some { s with table := s.table.reap serial }
  | .exec serial exe => some { s with table := s.table.exec serial exe }
  | .spawn p => if h : ProcessTable.Fresh s.table p then some { s with table := s.table.spawn p h } else none
  | .next => s.begin
  | _ => s.call.bind (fun c => s.act c a)

abbrev StopStep := Runs.Induced (fun s a => (stopNext s a).map (fun t => (a, t)))

/-- What a step is: the machine's, the start of a call, or one of a call's. -/
theorem stop_cases {s s' : Stopping} {action : StopAction} (h : stopNext s action = some s') :
    (∃ t, ProcessTable.Later s.table t ∧ s' = { s with table := t }) ∨
    s.begin = some s' ∨
    ∃ c, s.call = some c ∧
      ((∃ site ok, action = .readStat ok ∧ c.at = .stat site ∧ s' = s.readStat c site ok) ∨
       (∃ site start ok late, action = .readExe ok late ∧ c.at = .exe site start ∧
          s' = s.readExe c site start ok late) ∨
       (∃ ok, c.at = .opening ∧ s' = s.pidfdOpen c ok) ∨
       ∃ signal ok, c.at = .sending signal ∧ s' = s.pidfdSend c signal ok) := by
  have hcall : s.call.bind (fun c => s.act c action) = some s' → ∃ c, s.call = some c ∧
      ((∃ site ok, action = .readStat ok ∧ c.at = .stat site ∧ s' = s.readStat c site ok) ∨
       (∃ site start ok late, action = .readExe ok late ∧ c.at = .exe site start ∧
          s' = s.readExe c site start ok late) ∨
       (∃ ok, c.at = .opening ∧ s' = s.pidfdOpen c ok) ∨
       ∃ signal ok, c.at = .sending signal ∧ s' = s.pidfdSend c signal ok) := by
    intro hb
    obtain ⟨c, hc, ha⟩ := Option.bind_eq_some_iff.mp hb
    refine ⟨c, hc, ?_⟩
    simp only [Stopping.act] at ha
    split at ha
    · rename_i site ok hat
      exact .inl ⟨site, ok, rfl, hat, (Option.some.inj ha).symm⟩
    · rename_i site start ok late hat
      exact .inr (.inl ⟨site, start, ok, late, rfl, hat, (Option.some.inj ha).symm⟩)
    · rename_i ok hat
      exact .inr (.inr (.inl ⟨ok, hat, (Option.some.inj ha).symm⟩))
    · rename_i signal ok hat
      exact .inr (.inr (.inr ⟨signal, ok, hat, (Option.some.inj ha).symm⟩))
    · cases ha
  cases action with
  | reap serial => exact .inl ⟨_, ProcessTable.later_reap _ _, (Option.some.inj h).symm⟩
  | exec serial exe => exact .inl ⟨_, ProcessTable.later_exec _ _ _, (Option.some.inj h).symm⟩
  | spawn p =>
    simp only [stopNext] at h
    split at h
    · rename_i hfresh
      exact .inl ⟨_, ProcessTable.later_spawn hfresh, (Option.some.inj h).symm⟩
    · cases h
  | next => exact .inr (.inl h)
  | readStat ok => exact .inr (.inr (hcall h))
  | readExe ok late => exact .inr (.inr (hcall h))
  | pidfdOpen ok => exact .inr (.inr (hcall h))
  | pidfdSend ok => exact .inr (.inr (hcall h))

end ArenaLab
