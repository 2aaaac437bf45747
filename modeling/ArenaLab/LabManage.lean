import ArenaLab.LabStop

/-! `manage` with the command `stop`: the records of `state.json` are stopped one
after the other and then forgotten, on a machine whose processes exit and whose
executables are removed or replaced. -/

namespace ArenaLab

/-- The `exited` are those that may not be reaped yet; `state` is the content of `state.json`. -/
structure Managing where
  stopping : Stopping
  exited : List ℕ
  state : List ProcRecord
  returned : Bool

/-- A step of `stop_process` or of the machine; `save` is the call after the loop. -/
inductive ManageAction
  | step (a : StopAction)
  | exit (serial : ℕ)
  | unlink (path : String)
  | save (ok : Bool)

def manageBoot (table : LabTable) (records : List ProcRecord) : Managing :=
  ⟨stopBoot table records, [], records, false⟩

def Managing.onTable (s : Managing) (t : LabTable) : Managing :=
  { s with stopping := { s.stopping with table := t } }

/-- The loop of `manage` is over and nothing was raised. -/
def Managing.looped (s : Managing) : Bool :=
  s.stopping.call.isNone && !s.stopping.raised && s.stopping.todo.isEmpty && !s.returned

def manageNext (s : Managing) (a : ManageAction) : Option Managing :=
  match a with
  | .step a => (stopNext s.stopping a).map (fun t => { s with stopping := t })
  | .exit serial =>
    if (s.stopping.table.find serial).isSome then
      some { s.onTable (s.stopping.table.exec serial none) with exited := serial :: s.exited }
    else none
  | .unlink path => some (s.onTable (s.stopping.table.unlink path))
  | .save ok =>
    if s.looped then
      if ok then some { s with state := [], returned := true } else some { s with stopping := s.stopping.raise }
    else none

abbrev ManageStep := Runs.Induced (fun s a => (manageNext s a).map (fun t => (a, t)))

def Managing.Gone (s : Managing) (serial : ℕ) : Prop := ¬ s.stopping.table.Alive serial ∨ serial ∈ s.exited

/-- The process was sent a SIGTERM. -/
def Managing.Termed (s : Managing) (serial : ℕ) : Prop :=
  ∃ r p, StopEvent.signalled r p .sigterm ∈ s.stopping.log ∧ p.serial = serial

/-- Once `stop` has returned, no recorded process runs on without a SIGTERM. -/
def Managing.StopsAll (table : LabTable) (records : List ProcRecord) (s : Managing) : Prop :=
  s.returned = true → ∀ r ∈ records, ∀ a, Named table r a → s.Gone a ∨ s.Termed a

/-- The checks on whose answer it depends whether there is a SIGTERM. -/
def MatchSite.early : MatchSite → Bool
  | .first => true
  | .pinned => true
  | _ => false

/-- The process that a record names, as long as it runs. -/
structure Managing.Running (s : Managing) (r : ProcRecord) (p : LabProc) : Prop where
  holder : s.stopping.table.holder r.pid = some p
  start : p.start = r.start_ticks
  exited : p.serial ∉ s.exited

/-- A read of `identity` for a check before the SIGTERM, while the recorded process runs,
does not fail, and its executable is still found where the record has it. -/
def Managing.Seen (s : Managing) : ManageAction → Prop
  | .step (.readStat ok) => ∀ c site p, s.stopping.call = some c → c.at = .stat site → site.early = true →
      s.Running c.record p → ok = true
  | .step (.readExe ok _) => ∀ c site start p, s.stopping.call = some c → c.at = .exe site start →
      site.early = true → s.Running c.record p → ok = true ∧ p.exe = some c.record.executable
  | _ => True

/-- A call for a record ends without a signal while the recorded process runs on. -/
def Managing.Drops (s s' : Managing) : Prop :=
  ∃ c p, s.stopping.call = some c ∧ s'.Running c.record p ∧ s'.stopping.call = none ∧
    s'.stopping.todo = s.stopping.todo ∧ s'.stopping.raised = s.stopping.raised ∧
    ∀ r q signal, StopEvent.signalled r q signal ∈ s'.stopping.log → .signalled r q signal ∈ s.stopping.log

abbrev SeenStep (s : Managing) (a : ManageAction) (s' : Managing) : Prop := ManageStep s a s' ∧ s.Seen a

end ArenaLab
