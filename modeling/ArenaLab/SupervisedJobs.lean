import ArenaLab.WorkerJobs

/-! The supervisor takes exactly the jobs that went well and in time, with the records that
the worker has written for them. -/

namespace ArenaLab

/-- What the supervisor waits for behind the hello. -/
def WorkerTimes.awaited (t : WorkerTimes) (n : ℕ) : List ℚ :=
  t.drained :: (List.range' 1 n).map t.framed ++ [t.closed, t.exited]

/-- The hello comes in time, and so does everything behind it once the job is there. -/
structure WorkerTimes.InTime (t : WorkerTimes) (n : ℕ) : Prop where
  hello : t.framed 0 < frameTimeout
  job : Prompt (max (max 0 (t.framed 0)) t.asked) (t.awaited n)

section

variable {host : WorkerHost} {nonce : Bytes 16} {times : WorkerTimes} {now : ℚ} {stdout command : List UInt8}
  {code : Bool} {records : List (List UInt8)}

theorem execute_waits (h : execute times now stdout code command = some records) :
    (command.length = 60 ∨ command.length = 180) ∧ code = true ∧ Prompt now (times.awaited (jobFrames command)) := by
  rw [execute] at h
  split at h
  · cases h
  · rename_i hlen
    split at h
    · cases h
    · rename_i drained hdrained
      split at h
      · cases h
      · rename_i observations extra read hread
        split at h
        · cases h
        · rename_i last hlast
          split at h
          · cases h
          · rename_i hgood
            simp only [not_or, Bool.not_eq_false] at hgood
            refine ⟨by omega, hgood.2.1, ?_⟩
            rw [← waitAll_isSome, WorkerTimes.awaited, List.cons_append, waitAll, hdrained, Option.bind_some,
              waitAll_append, readFrames_waits hread, Option.bind_some]
            obtain ⟨closed, hclosed, hexited⟩ := Option.bind_eq_some_iff.mp hlast
            rw [waitAll, hclosed, Option.bind_some, waitAll, hexited]
            rfl

theorem execute_records (hlen : command.length = 60 ∨ command.length = 180)
    (hcount : records.length = jobFrames command) (hsizes : ∀ data ∈ records, data.length = 120)
    (htimes : Prompt now (times.awaited (jobFrames command))) :
    execute times now (Framing.stream records) true command = some records := by
  have hno : ¬(([] : List UInt8) ≠ [] ∨ true = false ∨
      records.any (fun data => decide (data.length ≠ 120)) = true) := by
    rintro (hf | hf | hf)
    · exact hf rfl
    · cases hf
    · obtain ⟨data, hd, hbad⟩ := List.any_eq_true.mp hf
      exact of_decide_eq_true hbad (hsizes data hd)
  have hbounds : ∀ p ∈ records, 0 < p.length ∧ p.length ≤ 256 := fun p hp => by
    rw [hsizes p hp]
    decide
  obtain ⟨last, hlast⟩ := Option.isSome_iff_exists.mp (waitAll_isSome.mpr htimes)
  rw [WorkerTimes.awaited, List.cons_append, waitAll] at hlast
  obtain ⟨drained, hdrained, hlast⟩ := Option.bind_eq_some_iff.mp hlast
  rw [waitAll_append] at hlast
  obtain ⟨read, hread, hlast⟩ := Option.bind_eq_some_iff.mp hlast
  obtain ⟨closed, hclosed, hlast⟩ := Option.bind_eq_some_iff.mp hlast
  obtain ⟨exited, hexited, -⟩ := Option.bind_eq_some_iff.mp hlast
  have hframes := @readFrames_stream records 1 times.framed drained hbounds []
  rw [List.append_nil, hcount, hread, Option.map_some] at hframes
  rw [execute, if_neg (by omega)]
  simp only [hdrained, hframes, hclosed, hexited, Option.bind_some]
  rw [if_neg hno]

theorem supervise_read {out hello rest : List UInt8} (hrun : labWorkerStdio host
    (Framing.encode command) = (out, code)) (hread : readFrame out = some (hello, rest)) (hlen : hello.length = 76)
    (htime : times.framed 0 < frameTimeout) :
    supervise host times command =
      (execute times (max (max 0 (times.framed 0)) times.asked) rest code command).map
        (fun records => (hello, records)) := by
  have hwait : waitFor 0 (times.framed 0) = some (max 0 (times.framed 0)) := if_pos (by rwa [sub_zero])
  rw [supervise, hrun]
  simp only [hwait, hread]
  rw [if_neg (not_not.mpr hlen)]

/-- Whatever the supervisor takes is a job of the right size whose worker has ended well, and
nothing that it has waited for took longer than it may. -/
theorem supervise_some {result : List UInt8 × List (List UInt8)} (h : supervise host times command = some result) :
    (command.length = 60 ∨ command.length = 180) ∧ (labWorkerStdio host (Framing.encode command)).2 = true ∧
      times.InTime (jobFrames command) := by
  simp only [supervise] at h
  split at h
  · rename_i now hello rest hwait hread
    split at h
    · cases h
    · obtain ⟨records, hexec, -⟩ := Option.map_eq_some_iff.mp h
      obtain ⟨hlen, hcode, hprompt⟩ := execute_waits hexec
      rw [waitFor] at hwait
      split at hwait
      · rename_i hquick
        obtain rfl := Option.some.inj hwait
        exact ⟨hlen, hcode, by rwa [sub_zero] at hquick, hprompt⟩
      · cases hwait
  · cases h

theorem supervise_good (hlen : command.length = 60 ∨ command.length = 180)
    (hok : (labWorkerStdio host (Framing.encode command)).2 = true) (htimes : times.InTime (jobFrames command)) :
    ∃ (nonce : Bytes 16) (job : WorkerJob), host.nonce = some nonce ∧ host.measured_ok = true ∧
      job.Of host nonce command ∧
      supervise host times command = some (workerHello nonce, job.records host nonce) := by
  rcases worker_writes host (Framing.encode command) with ⟨-, hf⟩ | ⟨nonce, frames, hn, -, hframes, hdone⟩
  · rw [hf] at hok
    cases hok
  · obtain ⟨hne, hmeasured, hout⟩ := hdone hok
    obtain ⟨command', job, hread, hjob, rfl⟩ := hframes hne
    have hcommand : frameRead 256 (Framing.encode command ++ []) = some command :=
      frameRead_encode (by omega) (by omega) []
    rw [List.append_nil, hread] at hcommand
    obtain rfl := Option.some.inj hcommand
    have hof := workerJob_of hjob
    obtain ⟨hcount, hsizes⟩ := job_records hof hlen
    refine ⟨nonce, job, hn, hmeasured, hof, ?_⟩
    have hsixteen : 0 < (workerHello nonce).length ∧ (workerHello nonce).length ≤ 256 := by
      rw [length_workerHello]
      decide
    have hhello := readFrame_encode hsixteen.1 hsixteen.2 (Framing.stream (job.records host nonce))
    have hsplit : labWorkerStdio host (Framing.encode command') =
        (Framing.encode (workerHello nonce) ++ Framing.stream (job.records host nonce), true) := by
      rw [← Framing.stream_cons, ← hout, ← hok]
    rw [supervise_read hsplit hhello (length_workerHello nonce) htimes.hello,
      execute_records hlen hcount hsizes htimes.job, Option.map_some]

/-- The supervisor takes a job exactly when the worker has ended it well and in time. The
records are then the imported observation, byte for byte and itself in order, and the worker's
own, which answers the request and which whoever has accepted the request accepts. -/
theorem supervised_jobs (host : WorkerHost) (times : WorkerTimes) (command : List UInt8) :
    ((supervise host times command).isSome = true ↔ (command.length = 60 ∨ command.length = 180) ∧
      (labWorkerStdio host (Framing.encode command)).2 = true ∧ times.InTime (jobFrames command)) ∧
    ∀ hello records, supervise host times command = some (hello, records) →
      ∃ nonce r seq source, host.nonce = some nonce ∧ hello = workerHello nonce ∧
        command = (Payload.request r).datagram seq ++ source ∧ r.instance = nonce ∧
        (source = [] ∧ records = [(Payload.observation (host.observation nonce r)).datagram (seq + 1)] ∨
          (∃ o, ImportedFrom host.policy r source o) ∧
          records = [source, (Payload.observation (host.observation nonce r)).datagram (seq + 1)]) ∧
        (host.measured.Sound r.capability → ∀ (policy : LabPolicy) (e e' : EvidenceState) (now now' : UInt64),
          labPolicyRequest e policy r now = (e', .ok) → now' < e'.deadline →
          host.elapsed_ms ≤ policy.request_timeout_ms →
          labPolicyObservation e' policy (host.observation nonce r) now' =
            ({ e' with pending := false }, .ok)) := by
  refine ⟨⟨fun h => ?_, fun h => ?_⟩, fun hello records h => ?_⟩
  · obtain ⟨r, hr⟩ := Option.isSome_iff_exists.mp h
    exact supervise_some hr
  · obtain ⟨nonce, job, -, -, -, hsome⟩ := supervise_good h.1 h.2.1 h.2.2
    rw [hsome]
    rfl
  · obtain ⟨hlen, hok, htimes⟩ := supervise_some h
    obtain ⟨nonce, job, hn, hmeasured, hof, hsome⟩ := supervise_good hlen hok htimes
    rw [h] at hsome
    obtain ⟨rfl, rfl⟩ := Prod.mk.inj (Option.some.inj hsome)
    refine ⟨nonce, job.request, job.seq, job.source, hn, rfl, hof.command, hof.inst, ?_, ?_⟩
    · by_cases hs : job.source = []
      · left
        rw [WorkerJob.records, if_pos hs]
        exact ⟨hs, rfl⟩
      · right
        rw [WorkerJob.records, if_neg hs]
        exact ⟨hof.source.resolve_left hs, rfl⟩
    · intro hsound policy e e' now now' hreq htime helapsed
      exact worker_observation_due hof.inst (worker_origin hof.policy) hmeasured hsound hreq htime helapsed

end

def sampleWorkerHost : WorkerHost where
  nonce := some (Vector.replicate 16 9)
  windows := false
  asked := 40
  measured_ok := true
  measured := sampleLabInput.measured
  elapsed_ms := 12
  cut _ := none

def sampleSource : List UInt8 :=
  (Payload.observation (sampleWorkerHost.observation (Vector.replicate 16 8)
    ⟨Vector.replicate 16 5, 1, Vector.replicate 16 8, originLinux, 1, selfReported, 0, 37⟩)).datagram 2

def sampleCommand : List UInt8 :=
  (Payload.request ⟨Vector.replicate 16 6, 1, Vector.replicate 16 9, originLinux, 1, selfReported, 0, 37⟩).datagram 1 ++
    sampleSource

theorem sampleCommand_length : sampleCommand.length = 180 := by decide +kernel

theorem sampleCommand_served : (labWorkerStdio sampleWorkerHost (Framing.encode sampleCommand)).2 = true := by
  decide +kernel

/-- The hello takes a second, the job comes at the third and each frame takes half a second. -/
def sampleWorkerTimes : WorkerTimes where
  framed k := if k = 0 then 1 else 3 + k / 2
  asked := 3
  drained := 3
  closed := 9 / 2
  exited := 5

theorem sampleWorkerTimes_inTime : sampleWorkerTimes.InTime 2 := by
  refine ⟨by norm_num [sampleWorkerTimes, frameTimeout], ?_⟩
  have hstart : max (max 0 (sampleWorkerTimes.framed 0)) sampleWorkerTimes.asked = 3 := by
    norm_num [sampleWorkerTimes]
  rw [hstart]
  refine prompt_of_quick fun ready hready => ?_
  simp only [WorkerTimes.awaited, sampleWorkerTimes, frameTimeout, List.range'_succ, List.range'_zero, List.map_cons,
    List.map_nil, List.mem_cons, List.mem_append, List.not_mem_nil] at hready ⊢
  norm_num at hready ⊢
  rcases hready with (rfl | rfl | rfl) | rfl | rfl
  all_goals norm_num

theorem supervised_jobs_sample : (supervise sampleWorkerHost sampleWorkerTimes sampleCommand).isSome = true :=
  (supervised_jobs sampleWorkerHost sampleWorkerTimes sampleCommand).1.mpr
    ⟨.inr sampleCommand_length, sampleCommand_served, by
      rw [jobFrames, if_pos sampleCommand_length]
      exact sampleWorkerTimes_inTime⟩

end ArenaLab
