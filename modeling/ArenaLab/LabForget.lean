import ArenaLab.LabManage

/-! What `stop` forgets: as long as the reads before the SIGTERM find every recorded
process that runs, each has exited or was signalled when its record is erased. -/

namespace ArenaLab

/-- Every process that the record names is gone or was sent a SIGTERM. -/
def Settled (boot : LabTable) (s : Managing) (r : ProcRecord) : Prop :=
  ∀ a, Named boot r a → s.Gone a ∨ s.Termed a

/-- The descriptor is the process that the record names, unless that one is gone. -/
def Aimed (boot : LabTable) (s : Managing) (r : ProcRecord) (fd : Option ℕ) : Prop :=
  ∀ a, Named boot r a → s.Gone a ∨ fd = some a

/-- The start that was read is the record's, unless the process is gone. -/
def Started (boot : LabTable) (s : Managing) (r : ProcRecord) (start : String) : Prop :=
  ∀ a, Named boot r a → s.Gone a ∨ start = r.start_ticks

def CallAims (boot : LabTable) (s : Managing) (c : StopCall) : Prop :=
  match c.at with
  | .stat .first => True
  | .opening => True
  | .exe .first start => Started boot s c.record start
  | .stat .pinned => Aimed boot s c.record c.fd
  | .exe .pinned start => Aimed boot s c.record c.fd ∧ Started boot s c.record start
  | .sending .sigterm => Aimed boot s c.record c.fd
  | _ => Settled boot s c.record

structure ForgetInv (boot : LabTable) (records : List ProcRecord) (s : Managing) : Prop where
  born : ∀ k ∈ boot.born, k ∈ s.stopping.table.born
  call : ∀ c, s.stopping.call = some c → CallAims boot s c
  todo : s.stopping.raised = false → ∀ r ∈ records,
    r ∈ s.stopping.todo ∨ (∃ c, s.stopping.call = some c ∧ c.record = r) ∨ Settled boot s r
  saved : s.returned = true →
    s.stopping.todo = [] ∧ s.stopping.call = none ∧ s.stopping.raised = false ∧ s.state = []

/-- What a later state still has of an earlier one. -/
structure Keeps (boot : LabTable) (s s' : Managing) : Prop where
  gone : ∀ a k, (a, k) ∈ boot.born → s.Gone a → s'.Gone a
  termed : ∀ a, s.Termed a → s'.Termed a

section

variable {boot : LabTable} {records : List ProcRecord} {s s' : Managing} {t : LabTable} {r : ProcRecord}
  {c : StopCall} {site : MatchSite} {start : String} {fd : Option ℕ} {a : ℕ} {p : LabProc}

theorem Settled.keep (h : Settled boot s r) (hk : Keeps boot s s') : Settled boot s' r := by
  intro a ha
  rcases h a ha with hgone | htermed
  · exact .inl (hk.gone a _ ha hgone)
  · exact .inr (hk.termed a htermed)

theorem Aimed.keep (h : Aimed boot s r fd) (hk : Keeps boot s s') : Aimed boot s' r fd := by
  intro a ha
  rcases h a ha with hgone | hfd
  · exact .inl (hk.gone a _ ha hgone)
  · exact .inr hfd

theorem Started.keep (h : Started boot s r start) (hk : Keeps boot s s') : Started boot s' r start := by
  intro a ha
  rcases h a ha with hgone | hstart
  · exact .inl (hk.gone a _ ha hgone)
  · exact .inr hstart

theorem CallAims.keep (h : CallAims boot s c) (hk : Keeps boot s s') : CallAims boot s' c := by
  unfold CallAims at h ⊢
  split at h
  · trivial
  · trivial
  · exact Started.keep h hk
  · exact Aimed.keep h hk
  · exact ⟨h.1.keep hk, h.2.keep hk⟩
  · exact Aimed.keep h hk
  · exact Settled.keep h hk

/-! The machine's steps. -/

theorem keeps_table (hborn : ∀ k ∈ boot.born, k ∈ s.stopping.table.born)
    (hl : ProcessTable.Later s.stopping.table t) {exited : List ℕ} (he : ∀ a ∈ s.exited, a ∈ exited) :
    Keeps boot s { s.onTable t with exited := exited } := by
  constructor
  · rintro a k hk (hdead | hexited)
    · exact .inl (fun halive => hdead (hl.alive _ (hborn _ hk) halive))
    · exact .inr (he a hexited)
  · exact fun a h => h

/-- A step that leaves the call and the records where they are. -/
theorem ForgetInv.keep (h : ForgetInv boot records s) (hk : Keeps boot s s')
    (hborn : ∀ k ∈ boot.born, k ∈ s'.stopping.table.born) (htodo : s'.stopping.todo = s.stopping.todo)
    (hcall : s'.stopping.call = s.stopping.call) (hraised : s'.stopping.raised = s.stopping.raised)
    (hreturned : s'.returned = s.returned) (hstate : s'.state = s.state) : ForgetInv boot records s' := by
  constructor
  · exact hborn
  · intro c hc
    rw [hcall] at hc
    exact (h.call c hc).keep hk
  · intro hno r hr
    rw [hraised] at hno
    rw [htodo, hcall]
    rcases h.todo hno r hr with hin | hc | hsettled
    · exact .inl hin
    · exact .inr (.inl hc)
    · exact .inr (.inr (hsettled.keep hk))
  · intro hr
    rw [hreturned] at hr
    rw [htodo, hcall, hraised, hstate]
    exact h.saved hr

theorem ForgetInv.table (h : ForgetInv boot records s) (hl : ProcessTable.Later s.stopping.table t)
    {exited : List ℕ} (he : ∀ a ∈ s.exited, a ∈ exited) :
    ForgetInv boot records { s.onTable t with exited := exited } :=
  h.keep (keeps_table h.born hl he) (fun k hb => hl.born k (h.born k hb)) rfl rfl rfl rfl rfl

/-! The steps of a call. -/

theorem keeps_log {o : Stopping} (htable : o.table = s.stopping.table)
    (hlog : ∀ e ∈ s.stopping.log, e ∈ o.log) : Keeps boot s { s with stopping := o } := by
  constructor
  · rintro a k _ (hdead | hexited)
    · refine .inl ?_
      show ¬ o.table.Alive a
      rw [htable]
      exact hdead
    · exact .inr hexited
  · rintro a ⟨r, p, hmem, hserial⟩
    exact ⟨r, p, hlog _ hmem, hserial⟩

theorem ForgetInv.not_returned (h : ForgetInv boot records s) (hc : s.stopping.call = some c) :
    s.returned ≠ true := by
  intro hreturned
  have hnone := (h.saved hreturned).2.1
  rw [hc] at hnone
  cases hnone

theorem ForgetInv.note (h : ForgetInv boot records s) (e : StopEvent) :
    ForgetInv boot records { s with stopping := s.stopping.note e } :=
  h.keep (keeps_log rfl (fun _ hmem => List.mem_cons_of_mem e hmem)) h.born rfl rfl rfl rfl rfl

theorem ForgetInv.goto (h : ForgetInv boot records s) (hc : s.stopping.call = some c) {c' : StopCall}
    (hrecord : c'.record = c.record) {at_ : StopAt} (haims : CallAims boot s { c' with «at» := at_ }) :
    ForgetInv boot records { s with stopping := s.stopping.goto c' at_ } := by
  have hk : Keeps boot s { s with stopping := s.stopping.goto c' at_ } := keeps_log rfl (fun _ hmem => hmem)
  constructor
  · exact h.born
  · intro d hd
    obtain rfl := Option.some.inj hd
    exact haims.keep hk
  · intro hraised r hr
    rcases h.todo hraised r hr with htodo | ⟨d, hd, hdr⟩ | hsettled
    · exact .inl htodo
    · rw [hc] at hd
      obtain rfl := Option.some.inj hd
      exact .inr (.inl ⟨_, rfl, hrecord.trans hdr⟩)
    · exact .inr (.inr (hsettled.keep hk))
  · exact fun hreturned => absurd hreturned (h.not_returned hc)

theorem ForgetInv.finish (h : ForgetInv boot records s) (hc : s.stopping.call = some c)
    (hsettled : Settled boot s c.record) : ForgetInv boot records { s with stopping := s.stopping.finish } := by
  have hk : Keeps boot s { s with stopping := s.stopping.finish } := keeps_log rfl (fun _ hmem => hmem)
  constructor
  · exact h.born
  · intro d hd
    cases hd
  · intro hraised r hr
    rcases h.todo hraised r hr with htodo | ⟨d, hd, hdr⟩ | hdone
    · exact .inl htodo
    · rw [hc] at hd
      obtain rfl := Option.some.inj hd
      rw [← hdr]
      exact .inr (.inr (hsettled.keep hk))
    · exact .inr (.inr (hdone.keep hk))
  · exact fun hreturned => absurd hreturned (h.not_returned hc)

theorem ForgetInv.raise (h : ForgetInv boot records s) (hreturned : s.returned ≠ true) :
    ForgetInv boot records { s with stopping := s.stopping.raise } := by
  constructor
  · exact h.born
  · intro d hd
    cases hd
  · intro hraised
    cases hraised
  · exact fun hr => absurd hr hreturned

/-- What a check that succeeds has to leave behind it. -/
def MatchSite.Aims (boot : LabTable) (s : Managing) (c : StopCall) : MatchSite → Prop
  | .first => True
  | .pinned => Aimed boot s c.record c.fd
  | _ => Settled boot s c.record

theorem ForgetInv.matched (h : ForgetInv boot records s) (hc : s.stopping.call = some c) {result : Bool}
    (late : Bool) (hno : site.early = false ∨ result = false → Settled boot s c.record)
    (hyes : result = true → site.Aims boot s c) :
    ForgetInv boot records { s with stopping := s.stopping.matched c site result late } := by
  cases site with
  | first =>
    cases result with
    | false => exact h.finish hc (hno (.inr rfl))
    | true => exact h.goto hc rfl trivial
  | pinned =>
    cases result with
    | false => exact h.finish hc (hno (.inr rfl))
    | true => exact h.goto hc rfl (hyes rfl)
  | terminating =>
    simp only [Stopping.matched]
    split
    · exact h.goto hc rfl (hno (.inl rfl))
    · exact h.goto hc rfl (hno (.inl rfl))
  | terminated =>
    cases result with
    | false => exact h.finish hc (hno (.inr rfl))
    | true => exact h.goto hc rfl (hno (.inl rfl))
  | killing =>
    simp only [Stopping.matched]
    split
    · exact h.goto hc rfl (hno (.inl rfl))
    · exact h.goto hc rfl (hno (.inl rfl))
  | killed =>
    cases result with
    | false => exact h.finish hc (hno (.inr rfl))
    | true => exact h.raise (h.not_returned hc)

/-- A recorded process that is not gone is the one that holds the record's number. -/
theorem ForgetInv.running (h : ForgetInv boot records s) (ha : Named boot r a) (hgone : ¬ s.Gone a) :
    ∃ p, s.Running r p ∧ p.serial = a := by
  rw [Managing.Gone, not_or, not_not] at hgone
  obtain ⟨⟨p, hlive, rfl⟩, hexited⟩ := hgone
  have hkey : (p.serial, p.pid, p.start) ∈ s.stopping.table.born := s.stopping.table.known p hlive
  obtain ⟨hpid, hstart⟩ := Prod.mk.inj (ProcessTable.start_of_serial hkey (h.born _ ha))
  refine ⟨p, ⟨?_, hstart, hexited⟩, rfl⟩
  rw [← hpid]
  exact ProcessTable.holder_of_live hlive

/-- Whoever holds the record's number is the recorded process, unless that one is gone. -/
theorem ForgetInv.holder (h : ForgetInv boot records s) (hholder : s.stopping.table.holder r.pid = some p)
    (ha : Named boot r a) : s.Gone a ∨ p.serial = a ∧ p.start = r.start_ticks := by
  by_cases hgone : s.Gone a
  · exact .inl hgone
  · obtain ⟨q, hq, hserial⟩ := h.running ha hgone
    have hsame := hq.holder
    rw [hholder] at hsame
    obtain rfl := Option.some.inj hsame
    exact .inr ⟨hserial, hq.start⟩

theorem settled_of_late (hat : c.at = .stat site ∨ ∃ start, c.at = .exe site start) (hlate : site.early = false)
    (h : CallAims boot s c) : Settled boot s c.record := by
  obtain ⟨record, fd, at_⟩ := c
  rcases hat with rfl | ⟨start, rfl⟩
  · cases site with
    | first => cases hlate
    | pinned => cases hlate
    | _ => exact h
  · cases site with
    | first => cases hlate
    | pinned => cases hlate
    | _ => exact h

/-- A check fails only where the process is gone. -/
theorem ForgetInv.unseen (h : ForgetInv boot records s) (hc : s.stopping.call = some c)
    (hat : c.at = .stat site ∨ ∃ start, c.at = .exe site start)
    (hrun : site.early = true → ∀ a p, Named boot c.record a → ¬ s.Gone a → s.Running c.record p → False) :
    Settled boot s c.record := by
  cases hsite : site.early with
  | false => exact settled_of_late hat hsite (h.call c hc)
  | true =>
    intro a ha
    by_cases hgone : s.Gone a
    · exact .inl hgone
    · obtain ⟨p, hp, _⟩ := h.running ha hgone
      exact absurd (hrun hsite a p ha hgone hp) not_false

theorem ForgetInv.readStat {ok : Bool} (h : ForgetInv boot records s) (hc : s.stopping.call = some c)
    (hat : c.at = .stat site) (hseen : s.Seen (.step (.readStat ok))) :
    ForgetInv boot records { s with stopping := s.stopping.readStat c site ok } := by
  have hknown := h.call c hc
  simp only [Stopping.readStat]
  cases hholder : s.stopping.table.holder c.record.pid with
  | none =>
    refine h.matched hc false (fun _ => h.unseen hc (.inl hat) ?_) (fun hf => by cases hf)
    intro _ a p _ _ hp
    rw [hp.holder] at hholder
    cases hholder
  | some q =>
    cases ok with
    | false =>
      refine h.matched hc false (fun _ => h.unseen hc (.inl hat) ?_) (fun hf => by cases hf)
      intro hsite a p _ _ hp
      cases hseen c site p hc hat hsite hp
    | true =>
      have hstarted : Started boot s c.record q.start := by
        intro a ha
        rcases h.holder hholder ha with hgone | ⟨_, hstart⟩
        · exact .inl hgone
        · exact .inr hstart
      refine h.goto hc rfl ?_
      rw [CallAims, hat] at hknown
      cases site with
      | first => exact hstarted
      | pinned => exact ⟨hknown, hstarted⟩
      | _ => exact hknown

theorem ForgetInv.readExe {ok : Bool} (late : Bool) (h : ForgetInv boot records s)
    (hc : s.stopping.call = some c) (hat : c.at = .exe site start)
    (hseen : s.Seen (.step (.readExe ok late))) :
    ForgetInv boot records { s with stopping := s.stopping.readExe c site start ok late } := by
  have hknown := h.call c hc
  simp only [Stopping.readExe]
  split
  · rename_i hnone
    refine h.matched hc late (fun _ => h.unseen hc (.inr ⟨start, hat⟩) ?_) (fun hf => by cases hf)
    intro hsite a p _ _ hp
    obtain ⟨_, hexe⟩ := hseen c site start p hc hat hsite hp
    rw [hp.holder, Option.bind_some, hexe] at hnone
    cases hnone
  · rename_i serial executable hread
    cases ok with
    | false =>
      refine h.matched hc late (fun _ => h.unseen hc (.inr ⟨start, hat⟩) ?_) (fun hf => by cases hf)
      intro hsite a p _ _ hp
      cases (hseen c site start p hc hat hsite hp).1
    | true =>
      have hk : Keeps boot s { s with stopping := s.stopping.note (.sawExecutable serial executable) } :=
        keeps_log rfl (fun _ hmem => List.mem_cons_of_mem _ hmem)
      refine ForgetInv.matched (h.note (.sawExecutable serial executable)) hc late ?_ ?_
      · intro hno
        refine Settled.keep (h.unseen hc (.inr ⟨start, hat⟩) ?_) hk
        intro hsite a p ha hgone hp
        rcases hno with hlate | hresult
        · rw [hsite] at hlate
          cases hlate
        · obtain ⟨_, hexe⟩ := hseen c site start p hc hat hsite hp
          have hstart : start = c.record.start_ticks := by
            rw [CallAims, hat] at hknown
            cases site with
            | first => exact (hknown a ha).resolve_left hgone
            | pinned => exact (hknown.2 a ha).resolve_left hgone
            | _ => cases hsite
          rw [hp.holder, Option.bind_some, hexe, Option.map_some] at hread
          obtain ⟨_, rfl⟩ := Prod.mk.inj (Option.some.inj hread)
          simp [hstart] at hresult
      · intro _
        rw [CallAims, hat] at hknown
        cases site with
        | first => trivial
        | pinned => exact Aimed.keep hknown.1 hk
        | _ => exact Settled.keep hknown hk

theorem ForgetInv.pidfdOpen (ok : Bool) (h : ForgetInv boot records s) (hc : s.stopping.call = some c) :
    ForgetInv boot records { s with stopping := s.stopping.pidfdOpen c ok } := by
  simp only [Stopping.pidfdOpen]
  cases hholder : s.stopping.table.holder c.record.pid with
  | none => exact h.raise (h.not_returned hc)
  | some q =>
    cases ok with
    | false => exact h.raise (h.not_returned hc)
    | true =>
      have hrecord : ({ c with fd := some q.serial } : StopCall).record = c.record := rfl
      refine h.goto hc hrecord ?_
      intro a ha
      rcases h.holder hholder ha with hgone | ⟨hserial, _⟩
      · exact .inl hgone
      · exact .inr (congrArg some hserial)

theorem ForgetInv.pidfdSend {signal : StopSignal} (ok : Bool) (h : ForgetInv boot records s)
    (hc : s.stopping.call = some c) (hat : c.at = .sending signal) :
    ForgetInv boot records { s with stopping := s.stopping.pidfdSend c signal ok } := by
  have hknown := h.call c hc
  rw [CallAims, hat] at hknown
  simp only [Stopping.pidfdSend]
  cases htarget : c.fd.bind s.stopping.table.find with
  | none =>
    refine h.finish hc ?_
    cases signal with
    | sigkill => exact hknown
    | sigterm =>
      intro a ha
      rcases hknown a ha with hgone | hfd
      · exact .inl hgone
      · refine .inl (.inl ?_)
        intro halive
        obtain ⟨p, hp⟩ := ProcessTable.alive_find halive
        rw [hfd, Option.bind_some, hp] at htarget
        cases htarget
  | some p =>
    cases ok with
    | false => exact h.raise (h.not_returned hc)
    | true =>
      have hk : Keeps boot s { s with stopping := s.stopping.note (.signalled c.record p signal) } :=
        keeps_log rfl (fun _ hmem => List.mem_cons_of_mem _ hmem)
      refine ForgetInv.goto (h.note (.signalled c.record p signal)) hc rfl ?_
      cases signal with
      | sigkill => exact Settled.keep hknown hk
      | sigterm =>
        intro a ha
        rcases hknown a ha with hgone | hfd
        · exact .inl (hk.gone a _ ha hgone)
        · rw [hfd, Option.bind_some] at htarget
          exact .inr ⟨c.record, p, List.mem_cons_self, (ProcessTable.find_some htarget).2⟩

theorem ForgetInv.begin {o : Stopping} (h : ForgetInv boot records s) (hb : s.stopping.begin = some o) :
    ForgetInv boot records { s with stopping := o } := by
  simp only [Stopping.begin] at hb
  split at hb
  · rename_i record todo hcall hraised htodo
    obtain rfl := Option.some.inj hb
    have hk : Keeps boot s { s with stopping := { s.stopping with
        todo := todo, call := some ⟨record, none, .stat .first⟩ } } := keeps_log rfl (fun _ hmem => hmem)
    constructor
    · exact h.born
    · intro d hd
      obtain rfl := Option.some.inj hd
      trivial
    · intro _ r hr
      rcases h.todo hraised r hr with hin | ⟨d, hd, _⟩ | hsettled
      · rw [htodo] at hin
        rcases List.mem_cons.mp hin with rfl | hin
        · exact .inr (.inl ⟨_, rfl, rfl⟩)
        · exact .inl hin
      · rw [hcall] at hd
        cases hd
      · exact .inr (.inr (hsettled.keep hk))
    · intro hreturned
      have hnil := (h.saved hreturned).1
      rw [htodo] at hnil
      cases hnil
  · cases hb

theorem ForgetInv.stop {action : StopAction} {o : Stopping} (h : ForgetInv boot records s)
    (hseen : s.Seen (.step action)) (hs : stopNext s.stopping action = some o) :
    ForgetInv boot records { s with stopping := o } := by
  rcases stop_cases hs with ⟨t, hlater, rfl⟩ | hbegin | ⟨c, hc, hact⟩
  · exact h.table hlater (fun _ hmem => hmem)
  · exact h.begin hbegin
  · rcases hact with ⟨site, ok, rfl, hat, rfl⟩ | ⟨site, start, ok, late, rfl, hat, rfl⟩ | ⟨ok, _, rfl⟩ |
      ⟨signal, ok, hat, rfl⟩
    · exact h.readStat hc hat hseen
    · exact h.readExe late hc hat hseen
    · exact h.pidfdOpen ok hc
    · exact h.pidfdSend ok hc hat

theorem ForgetInv.step {action : ManageAction} (h : ForgetInv boot records s)
    (hs : manageNext s action = some s') (hseen : s.Seen action) : ForgetInv boot records s' := by
  cases action with
  | step action =>
    obtain ⟨o, ho, rfl⟩ := Option.map_eq_some_iff.mp hs
    exact h.stop hseen ho
  | exit serial =>
    simp only [manageNext] at hs
    split at hs
    · obtain rfl := Option.some.inj hs
      exact h.table (ProcessTable.later_exec _ _ _) (fun _ hmem => List.mem_cons_of_mem _ hmem)
    · cases hs
  | unlink path =>
    obtain rfl := Option.some.inj hs
    exact h.table (ProcessTable.later_unlink _ _) (fun _ hmem => hmem)
  | save ok =>
    simp only [manageNext] at hs
    split at hs
    · rename_i hlooped
      simp only [Managing.looped, Bool.and_eq_true, Option.isNone_iff_eq_none, Bool.not_eq_true',
        List.isEmpty_iff] at hlooped
      obtain ⟨⟨⟨hcall, hraised⟩, htodo⟩, hreturned⟩ := hlooped
      split at hs
      · obtain rfl := Option.some.inj hs
        exact ⟨h.born, h.call, h.todo, fun _ => ⟨htodo, hcall, hraised, rfl⟩⟩
      · obtain rfl := Option.some.inj hs
        exact h.raise (by simp [hreturned])
    · cases hs

theorem forgetInv_boot (table : LabTable) (records : List ProcRecord) :
    ForgetInv table records (manageBoot table records) := by
  constructor
  · exact fun k hk => hk
  · intro c hc
    cases hc
  · intro _ r hr
    exact .inl (List.mem_reverse.mpr hr)
  · intro hreturned
    cases hreturned

/-- An early check that fails ends the call there. -/
theorem matched_false (o : Stopping) (late : Bool) (hsite : site.early = true) :
    o.matched c site false late = o.finish := by
  cases site with
  | first => rfl
  | pinned => rfl
  | _ => cases hsite

theorem act_of_call {action : StopAction} {o : Stopping} (hc : s.stopping.call = some c)
    (h : stopNext s.stopping action = some o)
    (haction : (∃ ok, action = .readStat ok) ∨ ∃ ok late, action = .readExe ok late) :
    s.stopping.act c action = some o := by
  rcases haction with ⟨ok, rfl⟩ | ⟨ok, late, rfl⟩
  · simpa only [stopNext, hc, Option.bind_some] using h
  · simpa only [stopNext, hc, Option.bind_some] using h

theorem drops_readStat {ok : Bool} {o : Stopping} (hs : stopNext s.stopping (.readStat ok) = some o)
    (hunseen : ¬ s.Seen (.step (.readStat ok))) : s.Drops { s with stopping := o } := by
  simp only [Managing.Seen, not_forall] at hunseen
  obtain ⟨c, site, p, hc, hat, hsite, hp, hok⟩ := hunseen
  rw [Bool.not_eq_true] at hok
  have hact := act_of_call hc hs (.inl ⟨ok, rfl⟩)
  simp only [Stopping.act, hat] at hact
  obtain rfl := Option.some.inj hact
  have hread : s.stopping.readStat c site ok = s.stopping.finish := by
    simp only [Stopping.readStat, hp.holder, hok]
    exact matched_false _ _ hsite
  rw [hread]
  exact ⟨c, p, hc, ⟨hp.holder, hp.start, hp.exited⟩, rfl, rfl, rfl, fun _ _ _ hmem => hmem⟩

theorem drops_readExe {ok late : Bool} {o : Stopping} (hs : stopNext s.stopping (.readExe ok late) = some o)
    (hunseen : ¬ s.Seen (.step (.readExe ok late))) : s.Drops { s with stopping := o } := by
  simp only [Managing.Seen, not_forall] at hunseen
  obtain ⟨c, site, start, p, hc, hat, hsite, hp, hno⟩ := hunseen
  have hact := act_of_call hc hs (.inr ⟨ok, late, rfl⟩)
  simp only [Stopping.act, hat] at hact
  obtain rfl := Option.some.inj hact
  have hread : s.stopping.readExe c site start ok late = s.stopping.finish ∨
      ∃ serial executable, s.stopping.readExe c site start ok late =
        (s.stopping.note (.sawExecutable serial executable)).finish := by
    simp only [Stopping.readExe, hp.holder, Option.bind_some]
    cases hexe : p.exe with
    | none => exact .inl (matched_false _ _ hsite)
    | some executable =>
      cases ok with
      | false => exact .inl (matched_false _ _ hsite)
      | true =>
        refine .inr ⟨p.serial, executable, ?_⟩
        have hother : executable ≠ c.record.executable := by
          intro heq
          exact hno ⟨rfl, by rw [hexe, heq]⟩
        simp only [Option.map_some, if_true, hother, decide_false, Bool.and_false]
        exact matched_false _ _ hsite
  rcases hread with hread | ⟨serial, executable, hread⟩
  · rw [hread]
    exact ⟨c, p, hc, ⟨hp.holder, hp.start, hp.exited⟩, rfl, rfl, rfl, fun _ _ _ hmem => hmem⟩
  · rw [hread]
    refine ⟨c, p, hc, ⟨hp.holder, hp.start, hp.exited⟩, rfl, rfl, rfl, ?_⟩
    intro r q signal hmem
    rcases List.mem_cons.mp hmem with heq | hmem
    · cases heq
    · exact hmem

/-- A read that is not seen drops its record. -/
theorem unseen_drops {action : ManageAction} (hs : manageNext s action = some s') (hunseen : ¬ s.Seen action) :
    s.Drops s' := by
  cases action with
  | step action =>
    obtain ⟨o, ho, rfl⟩ := Option.map_eq_some_iff.mp hs
    cases action with
    | readStat ok => exact drops_readStat ho hunseen
    | readExe ok late => exact drops_readExe ho hunseen
    | _ => exact absurd trivial hunseen
  | _ => exact absurd trivial hunseen

/-- Where every read before a SIGTERM finds the recorded process that runs, `stop` empties
`state.json` only after each has exited or was sent the signal; the first read that does
not drops the record of a process that runs. -/
theorem stop_forgets_nothing {table : LabTable} {records : List ProcRecord} {τ : List ManageAction}
    (h : Runs.Steps SeenStep (manageBoot table records) τ s) :
    s.StopsAll table records ∧ (s.returned = true → s.state = []) ∧
      ∀ action s', ManageStep s action s' → ¬ s.Seen action → s.Drops s' := by
  have hinv : ForgetInv table records s := by
    refine h.invariant (forgetInv_boot table records) ?_
    rintro t e u ht ⟨⟨action, hs⟩, hseen⟩
    obtain ⟨u', hu, he⟩ := Option.map_eq_some_iff.mp hs
    obtain ⟨rfl, rfl⟩ := Prod.mk.inj he
    exact ht.step hu hseen
  refine ⟨?_, fun hreturned => (hinv.saved hreturned).2.2.2, ?_⟩
  · intro hreturned r hr a ha
    obtain ⟨htodo, hcall, hraised, _⟩ := hinv.saved hreturned
    rcases hinv.todo hraised r hr with hin | ⟨c, hc, _⟩ | hsettled
    · rw [htodo] at hin
      cases hin
    · rw [hcall] at hc
      cases hc
    · exact hsettled a ha
  · rintro action s' ⟨act, hs⟩ hunseen
    obtain ⟨u, hu, he⟩ := Option.map_eq_some_iff.mp hs
    obtain ⟨rfl, rfl⟩ := Prod.mk.inj he
    exact unseen_drops hu hunseen

end

/-- The record's process is stopped and reaped. -/
def sampleManage : List ManageAction :=
  [.step .next, .step (.readStat true), .step (.readExe true false), .step (.pidfdOpen true),
    .step (.readStat true), .step (.readExe true false), .step (.pidfdSend true), .exit 0, .step (.reap 0),
    .step (.readStat true), .step (.readStat true), .save true]

/-- A check that is enough for `Seen`. -/
def Managing.sees (s : Managing) : ManageAction → Bool
  | .step (.readStat ok) => ok
  | .step (.readExe ok _) => ok && s.stopping.call.all (fun c =>
      (s.stopping.table.holder c.record.pid).all (fun p => p.exe = some c.record.executable))
  | _ => true

def seenNext (s : Managing) (a : ManageAction) : Option (ManageAction × Managing) :=
  if s.sees a then (manageNext s a).map (fun t => (a, t)) else none

theorem seen_of_sees {s : Managing} {action : ManageAction} (h : s.sees action = true) : s.Seen action := by
  cases action with
  | step action =>
    cases action with
    | readStat ok => exact fun _ _ _ _ _ _ _ => h
    | readExe ok late =>
      intro c site start p hc _ _ hp
      simp only [Managing.sees, hc, hp.holder, Option.all_some, Bool.and_eq_true, decide_eq_true_eq] at h
      exact h
    | _ => trivial
  | _ => trivial

theorem seenStep_of_next {s t : Managing} {e : ManageAction} (h : Runs.Induced seenNext s e t) :
    SeenStep s e t := by
  obtain ⟨action, h⟩ := h
  simp only [seenNext] at h
  split at h
  · rename_i hsees
    obtain ⟨u, hu, he⟩ := Option.map_eq_some_iff.mp h
    obtain ⟨rfl, rfl⟩ := Prod.mk.inj he
    exact ⟨⟨action, by simp [hu]⟩, seen_of_sees hsees⟩
  · cases h

theorem stop_forgets_nothing_sample : ∃ τ s,
    Runs.Steps SeenStep (manageBoot sampleLabTable [sampleRecord]) τ s ∧ s.returned = true ∧
      s.state = [] ∧ (s.Gone 0 ∨ s.Termed 0) := by
  have hexec : (Runs.exec seenNext
      (manageBoot sampleLabTable [sampleRecord]) sampleManage).any (fun r => r.2.returned) = true := by
    decide
  obtain ⟨τ, s, hsteps, hreturned⟩ := Runs.exec_any hexec
  have hseen := hsteps.mono (fun _ _ _ => seenStep_of_next)
  obtain ⟨hall, hstate, _⟩ := stop_forgets_nothing hseen
  exact ⟨τ, s, hseen, hreturned, hstate hreturned, hall hreturned _ List.mem_cons_self 0 List.mem_cons_self⟩

/-- The build replaces the executable of a server that runs, and `stop` forgets it. -/
theorem replaced_executable_forgotten : ¬ ∀ table records τ s,
    Runs.Steps ManageStep (manageBoot table records) τ s → s.StopsAll table records := by
  intro hclaim
  have hexec : (Runs.exec (fun s a => (manageNext s a).map (fun t => (a, t)))
      (manageBoot sampleLabTable [sampleRecord])
      [.unlink "/opt/lab_server", .step .next, .step (.readStat true), .step (.readExe true false),
        .save true]).any
        (fun r => r.2.returned && (r.2.stopping.table.find 0).isSome && r.2.exited.isEmpty &&
          r.2.stopping.log.isEmpty) = true := by
    decide
  obtain ⟨τ, s, hsteps, hp⟩ := Runs.exec_any hexec
  simp only [Bool.and_eq_true, List.isEmpty_iff] at hp
  obtain ⟨⟨⟨hreturned, hfind⟩, hexited⟩, hlog⟩ := hp
  rcases hclaim _ _ _ _ hsteps hreturned _ List.mem_cons_self 0 List.mem_cons_self with hgone | ⟨r, p, hmem, _⟩
  · obtain ⟨p, hp⟩ := Option.isSome_iff_exists.mp hfind
    rcases hgone with hdead | hexit
    · exact hdead ⟨p, ProcessTable.find_some hp⟩
    · rw [hexited] at hexit
      cases hexit
  · rw [hlog] at hmem
    cases hmem

end ArenaLab
