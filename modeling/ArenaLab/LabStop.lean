import ArenaLab.LabProcesses

/-! No signal of `stop` reaches a process other than the one its record names. -/

namespace ArenaLab

/-- The process that has, or had, the record's number and start. -/
def Named (t : LabTable) (r : ProcRecord) (serial : ℕ) : Prop := (serial, r.pid, r.start_ticks) ∈ t.born

def SawExecutable (log : List StopEvent) (r : ProcRecord) (serial : ℕ) : Prop :=
  .sawExecutable serial r.executable ∈ log

/-- The descriptor is the named process, whose executable has been seen. -/
structure Identified (t : LabTable) (log : List StopEvent) (r : ProcRecord) (fd : Option ℕ) (serial : ℕ) :
    Prop where
  named : Named t r serial
  fd : fd = some serial
  seen : SawExecutable log r serial

/-- What a call knows at each place; up to the second check it knows it of the named
process only as long as that one lives. -/
def CallKnows (t : LabTable) (log : List StopEvent) (r : ProcRecord) (fd : Option ℕ) : StopAt → Prop
  | .stat .first => True
  | .exe .first start => start = r.start_ticks → ∃ a, Named t r a
  | .opening => ∃ a, Named t r a ∧ (t.Alive a → SawExecutable log r a)
  | .stat .pinned => ∃ a, Named t r a ∧ (t.Alive a → SawExecutable log r a ∧ fd = some a)
  | .exe .pinned start => start = r.start_ticks → ∃ a, Identified t log r fd a
  | _ => ∃ a, Identified t log r fd a

def stopTest (log : List StopEvent) : StopEvent → Prop
  | .signalled r p _ => p.pid = r.pid ∧ p.start = r.start_ticks ∧ SawExecutable log r p.serial
  | .sawExecutable _ _ => True

structure StopInv (s : Stopping) : Prop where
  call : ∀ c, s.call = some c → CallKnows s.table s.log c.record c.fd c.at
  passed : EventLog.Passed stopTest s.log

section

variable {s s' : Stopping} {t t' : LabTable} {log : List StopEvent} {c : StopCall} {r : ProcRecord}
  {fd : Option ℕ} {a : ℕ} {site : MatchSite} {start : String} {p : LabProc} {e : StopEvent}

theorem Named.later (h : Named t r a) (hl : ProcessTable.Later t t') : Named t' r a := hl.born _ h

theorem Named.alive (h : Named t r a) (hl : ProcessTable.Later t t') (ha : t'.Alive a) : t.Alive a :=
  hl.alive _ h ha

theorem SawExecutable.note (h : SawExecutable log r a) (e : StopEvent) : SawExecutable (e :: log) r a :=
  List.mem_cons_of_mem e h

theorem Identified.later (h : Identified t log r fd a) (hl : ProcessTable.Later t t') :
    Identified t' log r fd a := ⟨h.named.later hl, h.fd, h.seen⟩

theorem Identified.note (h : Identified t log r fd a) (e : StopEvent) : Identified t (e :: log) r fd a :=
  ⟨h.named, h.fd, h.seen.note e⟩

/-- The machine goes on, and a call still knows what it knew. -/
theorem callKnows_later {at_ : StopAt} (h : CallKnows t log r fd at_) (hl : ProcessTable.Later t t') :
    CallKnows t' log r fd at_ := by
  have hall : (∃ a, Identified t log r fd a) → ∃ a, Identified t' log r fd a := by
    rintro ⟨a, ha⟩
    exact ⟨a, ha.later hl⟩
  cases at_ with
  | stat site =>
    cases site with
    | first => trivial
    | pinned =>
      obtain ⟨a, ha, hseen⟩ := h
      exact ⟨a, ha.later hl, fun halive => hseen (ha.alive hl halive)⟩
    | _ => exact hall h
  | exe site start =>
    cases site with
    | first =>
      intro hstart
      obtain ⟨a, ha⟩ := h hstart
      exact ⟨a, ha.later hl⟩
    | pinned => exact fun hstart => hall (h hstart)
    | _ => exact hall h
  | opening =>
    obtain ⟨a, ha, hseen⟩ := h
    exact ⟨a, ha.later hl, fun halive => hseen (ha.alive hl halive)⟩
  | sending signal => exact hall h

theorem StopInv.tabled (h : StopInv s) (hl : ProcessTable.Later s.table t) :
    StopInv { s with table := t } :=
  ⟨fun c hc => callKnows_later (h.call c hc) hl, h.passed⟩

theorem stopInv_finish (h : EventLog.Passed stopTest s.log) : StopInv s.finish := by
  refine ⟨?_, h⟩
  intro c hc
  cases hc

theorem stopInv_raise (h : EventLog.Passed stopTest s.log) : StopInv s.raise := by
  refine ⟨?_, h⟩
  intro c hc
  cases hc

theorem stopInv_goto (h : EventLog.Passed stopTest s.log) {at_ : StopAt}
    (hk : CallKnows s.table s.log c.record c.fd at_) : StopInv (s.goto c at_) := by
  refine ⟨?_, h⟩
  intro c' hc
  obtain rfl := Option.some.inj hc
  exact hk

/-- A process that holds the record's number with its start is the named one. -/
theorem named_holder (hp : t.holder r.pid = some p) (hstart : p.start = r.start_ticks) : Named t r p.serial := by
  obtain ⟨hlive, hpid⟩ := ProcessTable.holder_some hp
  have hborn := t.known p hlive
  rw [ProcessTable.Proc.key, hpid, hstart] at hborn
  exact hborn

/-- Whoever holds the record's number is the named process, as long as that one lives. -/
theorem holder_named (ha : Named t r a) (halive : t.Alive a) (hp : t.holder r.pid = some p) : p.serial = a := by
  obtain ⟨q, hq, hserial⟩ := halive
  obtain ⟨hlive, hpid⟩ := ProcessTable.holder_some hp
  have hkey : (a, q.pid, q.start) ∈ t.born := by
    rw [← hserial]
    exact t.known q hq
  have hsame := ProcessTable.start_of_serial hkey ha
  have hqp : q = p := ProcessTable.eq_of_pid hq hlive ((congrArg Prod.fst hsame).trans hpid.symm)
  rw [← hqp, hserial]

/-- What the site of a check needs for what follows it. -/
def SiteKnows (t : LabTable) (log : List StopEvent) (r : ProcRecord) (fd : Option ℕ) (result : Bool) :
    MatchSite → Prop
  | .first => result = true → ∃ a, Named t r a ∧ (t.Alive a → SawExecutable log r a)
  | .pinned => result = true → ∃ a, Identified t log r fd a
  | _ => ∃ a, Identified t log r fd a

theorem siteKnows_false {at_ : StopAt} (hat : at_ = .stat site ∨ ∃ start, at_ = .exe site start)
    (h : CallKnows t log r fd at_) : SiteKnows t log r fd false site := by
  have hno : ∀ P : Prop, false = true → P := fun P hf => by cases hf
  rcases hat with rfl | ⟨start, rfl⟩
  · cases site with
    | first => exact hno _
    | pinned => exact hno _
    | _ => exact h
  · cases site with
    | first => exact hno _
    | pinned => exact hno _
    | _ => exact h

theorem stopInv_matched (h : EventLog.Passed stopTest s.log) {result : Bool} (late : Bool)
    (hk : SiteKnows s.table s.log c.record c.fd result site) : StopInv (s.matched c site result late) := by
  cases site with
  | first =>
    cases result with
    | false => exact stopInv_finish h
    | true => exact stopInv_goto h (hk rfl)
  | pinned =>
    cases result with
    | false => exact stopInv_finish h
    | true => exact stopInv_goto h (hk rfl)
  | terminating =>
    simp only [Stopping.matched]
    split
    · exact stopInv_goto h hk
    · exact stopInv_goto h hk
  | terminated =>
    cases result with
    | false => exact stopInv_finish h
    | true => exact stopInv_goto h hk
  | killing =>
    simp only [Stopping.matched]
    split
    · exact stopInv_goto h hk
    · exact stopInv_goto h hk
  | killed =>
    cases result with
    | false => exact stopInv_finish h
    | true => exact stopInv_raise h

theorem StopInv.readStat (h : StopInv s) (hc : s.call = some c) (hat : c.at = .stat site) (ok : Bool) :
    StopInv (s.readStat c site ok) := by
  have hknown := h.call c hc
  rw [hat] at hknown
  have hfail := siteKnows_false (.inl rfl) hknown
  simp only [Stopping.readStat]
  cases hholder : s.table.holder c.record.pid with
  | none => exact stopInv_matched h.passed false hfail
  | some p =>
    cases ok with
    | false => exact stopInv_matched h.passed false hfail
    | true =>
      refine stopInv_goto h.passed ?_
      cases site with
      | first => exact fun hstart => ⟨p.serial, named_holder hholder hstart⟩
      | pinned =>
        intro hstart
        obtain ⟨a, ha, hseen⟩ := hknown
        have hsame : p.serial = a := ProcessTable.serial_of_start (named_holder hholder hstart) ha
        obtain ⟨hsaw, hfd⟩ := hseen ⟨p, (ProcessTable.holder_some hholder).1, hsame⟩
        exact ⟨a, ha, hfd, hsaw⟩
      | _ => exact hknown

theorem StopInv.readExe (h : StopInv s) (hc : s.call = some c) (hat : c.at = .exe site start)
    (ok late : Bool) : StopInv (s.readExe c site start ok late) := by
  have hknown := h.call c hc
  rw [hat] at hknown
  have hfail := siteKnows_false (.inr ⟨start, rfl⟩) hknown
  simp only [Stopping.readExe]
  split
  · exact stopInv_matched h.passed late hfail
  · rename_i serial executable hread
    obtain ⟨p, hholder, hexe⟩ := Option.bind_eq_some_iff.mp hread
    obtain ⟨found, _, hpair⟩ := Option.map_eq_some_iff.mp hexe
    obtain ⟨rfl, rfl⟩ := Prod.mk.inj hpair
    cases ok with
    | false => exact stopInv_matched h.passed late hfail
    | true =>
      refine stopInv_matched (s := s.note (.sawExecutable p.serial found)) ⟨trivial, h.passed⟩ late ?_
      cases site with
      | first =>
        intro hresult
        rw [Bool.and_eq_true, decide_eq_true_eq, decide_eq_true_eq] at hresult
        obtain ⟨a, ha⟩ := hknown hresult.1
        refine ⟨a, ha, ?_⟩
        intro halive
        rw [SawExecutable, ← holder_named ha halive hholder, ← hresult.2]
        exact List.mem_cons_self
      | pinned =>
        intro hresult
        rw [Bool.and_eq_true, decide_eq_true_eq, decide_eq_true_eq] at hresult
        obtain ⟨a, ha⟩ := hknown hresult.1
        exact ⟨a, ha.note _⟩
      | _ =>
        obtain ⟨a, ha⟩ := hknown
        exact ⟨a, ha.note _⟩

theorem StopInv.pidfdOpen (h : StopInv s) (hc : s.call = some c) (hat : c.at = .opening) (ok : Bool) :
    StopInv (s.pidfdOpen c ok) := by
  have hknown := h.call c hc
  rw [hat] at hknown
  obtain ⟨a, ha, hseen⟩ := hknown
  simp only [Stopping.pidfdOpen]
  cases hholder : s.table.holder c.record.pid with
  | none => exact stopInv_raise h.passed
  | some p =>
    cases ok with
    | false => exact stopInv_raise h.passed
    | true =>
      refine stopInv_goto (c := { c with fd := some p.serial }) h.passed ⟨a, ha, ?_⟩
      intro halive
      exact ⟨hseen halive, congrArg some (holder_named ha halive hholder)⟩

theorem StopInv.pidfdSend {signal : StopSignal} (h : StopInv s) (hc : s.call = some c)
    (hat : c.at = .sending signal) (ok : Bool) : StopInv (s.pidfdSend c signal ok) := by
  have hknown := h.call c hc
  rw [hat] at hknown
  obtain ⟨a, ha⟩ := hknown
  simp only [Stopping.pidfdSend]
  cases htarget : c.fd.bind s.table.find with
  | none => exact stopInv_finish h.passed
  | some p =>
    cases ok with
    | false => exact stopInv_raise h.passed
    | true =>
      rw [ha.fd] at htarget
      obtain ⟨hlive, hserial⟩ := ProcessTable.find_some htarget
      have hkey : (a, p.pid, p.start) ∈ s.table.born := by
        rw [← hserial]
        exact s.table.known p hlive
      obtain ⟨hpid, hstart⟩ := Prod.mk.inj (ProcessTable.start_of_serial hkey ha.named)
      have hseen : SawExecutable s.log c.record p.serial := by
        rw [hserial]
        exact ha.seen
      refine stopInv_goto (s := s.note (.signalled c.record p signal)) ⟨⟨hpid, hstart, hseen⟩, h.passed⟩ ?_
      cases signal with
      | sigterm => exact ⟨a, ha.note _⟩
      | sigkill => exact ⟨a, ha.note _⟩

theorem StopInv.begin (h : StopInv s) (hb : s.begin = some s') : StopInv s' := by
  simp only [Stopping.begin] at hb
  split at hb
  · obtain rfl := Option.some.inj hb
    refine ⟨?_, h.passed⟩
    intro c hc
    obtain rfl := Option.some.inj hc
    trivial
  · cases hb

theorem StopInv.step {action : StopAction} (h : StopInv s) (hs : stopNext s action = some s') :
    StopInv s' := by
  rcases stop_cases hs with ⟨t, hlater, rfl⟩ | hbegin | ⟨c, hc, hact⟩
  · exact h.tabled hlater
  · exact h.begin hbegin
  · rcases hact with ⟨site, ok, _, hat, rfl⟩ | ⟨site, start, ok, late, _, hat, rfl⟩ | ⟨ok, hat, rfl⟩ |
      ⟨signal, ok, hat, rfl⟩
    · exact h.readStat hc hat ok
    · exact h.readExe hc hat ok late
    · exact h.pidfdOpen hc hat ok
    · exact h.pidfdSend hc hat ok

/-- Every signal of `stop` goes to the process with its record's number and start,
after that process's executable was seen to be the record's. -/
theorem stop_signals_named {table : LabTable} {records : List ProcRecord} {τ : List StopAction}
    (h : Runs.Steps StopStep (stopBoot table records) τ s) (later earlier : List StopEvent)
    (r : ProcRecord) (p : LabProc) (signal : StopSignal)
    (hlog : s.log = later ++ .signalled r p signal :: earlier) :
    p.pid = r.pid ∧ p.start = r.start_ticks ∧ .sawExecutable p.serial r.executable ∈ earlier := by
  have hboot : StopInv (stopBoot table records) := by
    refine ⟨?_, trivial⟩
    intro c hc
    cases hc
  have hinv : StopInv s := by
    refine h.invariant hboot ?_
    rintro t e u ht ⟨action, hs⟩
    obtain ⟨u', hu, he⟩ := Option.map_eq_some_iff.mp hs
    obtain ⟨_, rfl⟩ := Prod.mk.inj he
    exact ht.step hu
  have hpassed := hinv.passed
  rw [hlog] at hpassed
  exact hpassed.at

end

def sampleLabProc : LabProc := ⟨0, 41, "700", some "/opt/lab_server"⟩

def sampleLabTable : LabTable where
  live := [sampleLabProc]
  born := [sampleLabProc.key]
  pids := by decide
  known := by simp
  serials := by decide
  starts := by decide

def sampleRecord : ProcRecord := ⟨41, "700", "/opt/lab_server"⟩

/-- The record's process is stopped while another one starts. -/
def sampleStop : List StopAction :=
  [.next, .readStat true, .readExe true false, .pidfdOpen true, .spawn ⟨1, 42, "701", none⟩, .readStat true,
    .readExe true false, .pidfdSend true]

theorem stop_signals_named_sample :
    ∃ τ s earlier, Runs.Steps StopStep (stopBoot sampleLabTable [sampleRecord]) τ s ∧
      s.log = .signalled sampleRecord sampleLabProc .sigterm :: earlier ∧
      sampleLabProc.pid = sampleRecord.pid ∧ .sawExecutable 0 "/opt/lab_server" ∈ earlier := by
  have hexec : (Runs.exec (fun s a => (stopNext s a).map (fun t => (a, t)))
      (stopBoot sampleLabTable [sampleRecord]) sampleStop).any
        (fun r => decide (r.2.log.head? = some (.signalled sampleRecord sampleLabProc .sigterm))) = true := by
    decide
  obtain ⟨τ, s, hsteps, hp⟩ := Runs.exec_any hexec
  obtain ⟨earlier, hlog⟩ := List.head?_eq_some_iff.mp (of_decide_eq_true hp)
  obtain ⟨hpid, _, hseen⟩ := stop_signals_named hsteps [] earlier sampleRecord sampleLabProc .sigterm hlog
  exact ⟨τ, s, earlier, hsteps, hlog, hpid, hseen⟩

end ArenaLab
