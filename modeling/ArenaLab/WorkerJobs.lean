import ArenaLab.WorkerFrames

/-! What a worker makes of a command: the jobs that it takes, the imported observation that
it lets pass, and that it writes its hello and the records of the job and nothing else. -/

namespace ArenaLab

section

variable {policy : LabPolicy} {e e' : EvidenceState} {now : UInt64} {host : WorkerHost} {nonce : Bytes 16}

/-- A header and a payload that are taken make up a datagram of the protocol. -/
theorem parsed_datagram {wire : List UInt8} {kind : Kind} {h : LabHdr} {p : Payload}
    (hh : workerHeader wire kind = some h)
    (hp : labPayloadParse (wire.drop 16) kind.code = some p) : wire = p.datagram h.seq ∧ p.kind = kind := by
  rw [workerHeader] at hh
  split at hh
  · cases hh
  · rename_i g hparse
    split at hh
    · rename_i hok
      obtain rfl := Option.some.inj hh
      obtain ⟨hmagic, hversion, hkind, hflags, hlen, hsize⟩ := hok
      rw [labPayloadParse_known] at hp
      have hdrop : (wire.drop 16).length = kind.payloadLen := by
        rw [List.length_drop]
        omega
      rw [if_pos hdrop] at hp
      obtain rfl := Option.some.inj hp
      have hhead : (wire.take 16).length = 16 := by
        rw [List.length_take]
        omega
      have hsame : labHdrParse (wire.take 16) = some g := by
        have hfield : ((wire.take 16).drop 12).take 4 = (wire.drop 12).take 4 := by
          rw [List.drop_take, List.take_take]
          rfl
        have hget : ∀ i < 16, (wire.take 16).getD i 0 = wire.getD i 0 := by
          intro i hi
          rw [List.getD_eq_getElem?_getD, List.getD_eq_getElem?_getD, List.getElem?_take_of_lt hi]
        rw [labHdrParse_eq] at hparse ⊢
        rw [hfield, get32, get32]
        rw [get32, get32] at hparse
        simp only [hget _ (show 0 < 16 by decide), hget _ (show 1 < 16 by decide), hget _ (show 2 < 16 by decide),
          hget _ (show 3 < 16 by decide), hget _ (show 4 < 16 by decide), hget _ (show 4 + 1 < 16 by decide),
          hget _ (show 4 + 2 < 16 by decide), hget _ (show 4 + 3 < 16 by decide), hget _ (show 8 < 16 by decide),
          hget _ (show 8 + 1 < 16 by decide), hget _ (show 8 + 2 < 16 by decide), hget _ (show 8 + 3 < 16 by decide)]
        rw [← hparse, hhead]
        refine if_congr ?_ rfl rfl
        exact and_congr_left (fun _ => ⟨fun _ => by omega, fun _ => le_rfl⟩)
      have hpack := labHdr_pack_parse hhead hsame
      refine ⟨?_, kind_read _ _⟩
      rw [Payload.datagram, pack_read hdrop, kind_read, ← List.take_append_drop 16 wire, ← hpack]
      have hlen32 : g.len = UInt32.ofNat kind.payloadLen := by
        apply UInt32.toNat_inj.mp
        rw [hlen, payloadLen_ofNat]
      rw [labHdrPack, hmagic, hversion, hkind, hflags, hlen32]
      rw [List.drop_left' (by simp)]
      rfl
    · cases hh

/-- What `common` has taken. -/
theorem policyCommon_admits {session peer : Bytes 16} {origin capability evidence_class : UInt8}
    (h : policyCommon e policy session peer origin capability evidence_class = .ok) :
    e.identity = (true, session, peer) ∧ (origin = originLinux ∨ origin = originWindows) ∧
      evidence_class = selfReported ∧ policy.Admits origin capability := by
  rw [policyCommon] at h
  split at h
  · cases h
  · rename_i hopen
    split at h
    · cases h
    · rename_i hses
      split at h
      · cases h
      · rename_i hins
        split at h
        · cases h
        · rename_i horigin
          split at h
          · cases h
          · rename_i hcap
            split at h
            · cases h
            · rename_i hclass
              simp only [Bool.not_eq_true', Bool.not_eq_false, not_not] at hopen hses hins
              simp only [not_or, not_and, not_not] at horigin hcap hclass
              have hknown : capability = 1 ∨ capability = 2 ∨ capability = 3 := by
                obtain ⟨hlow, hhigh, -⟩ := hcap
                rw [UInt8.lt_iff_toNat_lt] at hlow hhigh
                have hone : (1 : UInt8).toNat = 1 := rfl
                have htwo : (2 : UInt8).toNat = 2 := rfl
                have hthree : (3 : UInt8).toNat = 3 := rfl
                rcases (by omega : capability.toNat = 1 ∨ capability.toNat = 2 ∨ capability.toNat = 3) with hc | hc | hc
                · exact .inl (UInt8.toNat_inj.mp hc)
                · exact .inr (.inl (UInt8.toNat_inj.mp hc))
                · exact .inr (.inr (UInt8.toNat_inj.mp hc))
              have hfrom : policy.origin = 0 ∨ policy.origin = origin := by
                by_cases h0 : policy.origin = 0
                · exact .inl h0
                · exact .inr (horigin.2 h0)
              have hwhich : origin = originLinux ∨ origin = originWindows := by
                by_cases h0 : origin = originLinux
                · exact .inl h0
                · exact .inr (horigin.1 h0)
              refine ⟨?_, hwhich, hclass.1, hfrom, hknown, hcap.2.2, hclass.2.symm.trans hclass.1⟩
              rw [EvidenceState.identity, hopen, hses, hins]

theorem labPolicyRequest_common {r : LabRequest} (h : (labPolicyRequest e policy r now).2 = .ok) :
    policyCommon e policy r.session r.instance r.origin r.capability r.evidence_class = .ok := by
  rw [labPolicyRequest] at h
  split at h
  · rename_i hc
    exact hc
  · rename_i hne
    exact absurd h hne

theorem worker_origin {r : LabRequest} (h : (labPolicyRequest e host.policy r now).2 = .ok) :
    r.origin = host.origin := by
  obtain ⟨-, -, -, ⟨hfrom, -⟩⟩ := policyCommon_admits (labPolicyRequest_common h)
  rcases hfrom with hzero | hsame
  · rw [WorkerHost.policy, WorkerHost.origin] at hzero
    split at hzero
    · cases hzero
    · cases hzero
  · exact hsame.symm

/-- Whoever has accepted the request accepts the worker's observation in time. -/
theorem worker_observation_due {r : LabRequest} {now' : UInt64} (hr : r.instance = nonce)
    (horigin : r.origin = host.origin) (hok : host.measured_ok = true) (hsound : host.measured.Sound r.capability)
    (hreq : labPolicyRequest e policy r now = (e', .ok)) (htime : now' < e'.deadline)
    (helapsed : host.elapsed_ms ≤ policy.request_timeout_ms) :
    labPolicyObservation e' policy (host.observation nonce r) now' = ({ e' with pending := false }, .ok) := by
  have hcode : (labPolicyRequest e policy r now).2 = .ok := by rw [hreq]
  obtain ⟨hid, hwhich, hclass, hadmits⟩ := policyCommon_admits (labPolicyRequest_common hcode)
  obtain ⟨-, -, deadline, -, hstate⟩ := labPolicyRequest_ok hcode
  have hident := labPolicyRequest_identity e policy r now
  rw [hreq] at hident hstate
  simp only at hident hstate
  refine labPolicyObservation_due (by rw [horigin] at hadmits; exact hadmits) ?_
    (by rw [horigin] at hwhich; exact hwhich)
    rfl (by rw [hstate]) (by rw [hstate]; rfl) (UInt64.not_le.mpr htime) ?_ hsound.subject (if_pos hok) hsound.error
    helapsed (measured_observed hsound hadmits.known)
  · rw [hident, hid, hr]
    rfl
  · rw [hstate]
    exact ⟨rfl, horigin.symm, rfl⟩

/-- An imported observation is a datagram of a Linux worker that answered its own request. -/
structure ImportedFrom (policy : LabPolicy) (r : LabRequest) (source : List UInt8) (o : LabObservation) : Prop where
  wire : ∃ seq, source = (Payload.observation o).datagram seq
  origin : o.origin = originLinux
  capability : o.capability = r.capability
  seed : o.seed = r.seed
  good : ∃ imported, labPolicyRequest (.opened o.session o.instance) { policy with origin := originLinux }
      o.original 0 = (imported, .ok) ∧
    labPolicyObservation imported { policy with origin := originLinux } o 1 =
      ({ imported with pending := false }, .ok)

theorem workerSource_imported {r : LabRequest} {source : List UInt8} (h : workerSource policy r source = true) :
    ∃ o, ImportedFrom policy r source o := by
  rw [workerSource] at h
  split at h
  · rename_i hdr o hh hp
    obtain ⟨hwire, -⟩ := parsed_datagram hh hp
    split at h
    · cases h
    · rename_i hmatch
      simp only [not_or, not_not] at hmatch
      split at h
      · rename_i imported himported
        have hcode := of_decide_eq_true h
        obtain ⟨-, -, -, -, -, -, hstate⟩ := labPolicyObservation_ok hcode
        exact ⟨o, ⟨_, hwire⟩, hmatch.1, hmatch.2.1, hmatch.2.2, imported, himported, Prod.ext hstate hcode⟩
      · cases h
  · cases h

/-- The command of a job: its request for this worker, and the imported observation. -/
structure WorkerJob.Of (host : WorkerHost) (nonce : Bytes 16) (command : List UInt8) (job : WorkerJob) : Prop where
  command : command = (Payload.request job.request).datagram job.seq ++ job.source
  inst : job.request.instance = nonce
  seq : job.seq ≠ 0 ∧ job.seq < uint32Max - 1
  policy : (labPolicyRequest (.opened job.request.session nonce) host.policy job.request host.asked).2 = .ok
  source : job.source = [] ∨ ∃ o, ImportedFrom host.policy job.request job.source o

theorem workerJob_of {command : List UInt8} {job : WorkerJob} (h : workerJob host nonce command = some job) :
    job.Of host nonce command := by
  rw [workerJob] at h
  split at h
  · cases h
  · rename_i hlen
    split at h
    · rename_i hdr r hh hp
      obtain ⟨hwire, -⟩ := parsed_datagram hh hp
      split at h
      · cases h
      · rename_i hseq
        rw [not_or, UInt32.not_le] at hseq
        split at h
        · cases h
        · rename_i hinst
          rw [not_not] at hinst
          split at h
          · cases h
          · rename_i hpolicy
            rw [not_not] at hpolicy
            split at h
            · rename_i hshort
              obtain rfl := Option.some.inj h
              refine ⟨?_, hinst, hseq, hpolicy, .inl rfl⟩
              rw [← hwire, List.append_nil, List.take_of_length_le hshort.le]
            · split at h
              · rename_i hsource
                obtain rfl := Option.some.inj h
                refine ⟨?_, hinst, hseq, hpolicy, .inr (workerSource_imported hsource)⟩
                rw [← hwire, List.take_append_drop]
              · cases h
    · cases h

/-- Whatever comes through its pipe, the worker writes its hello, and behind it nothing
but the records of the job that it was sent; its success means that all of it is written. -/
theorem worker_writes (host : WorkerHost) (stdin : List UInt8) :
    (labWorkerStdio host stdin).1 = [] ∧ (labWorkerStdio host stdin).2 = false ∨
    ∃ nonce frames, host.nonce = some nonce ∧
      (labWorkerStdio host stdin).1 <+: Framing.stream (workerHello nonce :: frames) ∧
      (frames ≠ [] → ∃ command job, frameRead 256 stdin = some command ∧ workerJob host nonce command = some job ∧
        frames = job.records host nonce) ∧
      ((labWorkerStdio host stdin).2 = true → frames ≠ [] ∧ host.measured_ok = true ∧
        (labWorkerStdio host stdin).1 = Framing.stream (workerHello nonce :: frames)) := by
  cases hn : host.nonce with
  | none =>
    left
    rw [labWorkerStdio, hn]
    exact ⟨rfl, rfl⟩
  | some nonce =>
    right
    obtain ⟨hpre, hfull⟩ := frameWrite_prefix (host.cut 0) (workerHello nonce)
    cases hw : frameWrite (host.cut 0) (workerHello nonce) with
    | mk out ok =>
      rw [hw] at hpre hfull
      cases ok with
      | false =>
        simp only [labWorkerStdio, hn, hw]
        refine ⟨nonce, [], rfl, ?_, by simp, by simp⟩
        rw [Framing.stream_cons]
        exact hpre.trans (List.prefix_append _ _)
      | true =>
        obtain rfl := hfull rfl
        cases hj : (frameRead 256 stdin).bind (workerJob host nonce) with
        | none =>
          simp only [labWorkerStdio, hn, hw, hj]
          refine ⟨nonce, [], rfl, ?_, by simp, by simp⟩
          rw [Framing.stream_cons]
          exact List.prefix_append _ _
        | some job =>
          simp only [labWorkerStdio, hn, hw, hj]
          obtain ⟨command, hread, hjob⟩ := Option.bind_eq_some_iff.mp hj
          obtain ⟨hmore, hall⟩ := frameWrites_prefix host.cut 1 (job.records host nonce)
          refine ⟨nonce, job.records host nonce, rfl, ?_, fun _ => ⟨command, job, hread, hjob, rfl⟩, fun hok => ?_⟩
          · rw [Framing.stream_cons]
            exact (List.prefix_append_right_inj _).mpr hmore
          · have hboth := Bool.and_eq_true_iff.mp hok
            refine ⟨by simp [WorkerJob.records], hboth.2, ?_⟩
            rw [Framing.stream_cons]
            exact congrArg (Framing.encode (workerHello nonce) ++ ·) (hall hboth.1)

theorem length_workerHello (nonce : Bytes 16) : (workerHello nonce).length = 76 := by
  rw [workerHello, datagram_length]
  rfl

/-- A record is a datagram of 120 bytes, and there are as many as the command asks for. -/
theorem job_records {command : List UInt8} {job : WorkerJob} (h : job.Of host nonce command)
    (hlen : command.length = 60 ∨ command.length = 180) :
    (job.records host nonce).length = jobFrames command ∧
      ∀ data ∈ job.records host nonce, data.length = 120 := by
  have hsize : command.length = 60 + job.source.length := by
    rw [h.command, List.length_append, datagram_length]
    rfl
  have hown : ∀ data ∈ [(Payload.observation (host.observation nonce job.request)).datagram (job.seq + 1)],
      data.length = 120 := by
    intro data hd
    rw [List.mem_singleton.mp hd, datagram_length]
    rfl
  by_cases hs : job.source = []
  · rw [WorkerJob.records, if_pos hs, jobFrames, if_neg (by rw [hsize, hs]; decide)]
    exact ⟨rfl, hown⟩
  · have hpos := List.length_pos_iff.mpr hs
    rw [WorkerJob.records, if_neg hs, jobFrames, if_pos (by omega)]
    refine ⟨rfl, fun data hd => ?_⟩
    rcases List.mem_append.mp hd with hd | hd
    · rw [List.mem_singleton.mp hd]
      omega
    · exact hown data hd

end

end ArenaLab
