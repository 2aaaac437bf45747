import ArenaLab.SessionHistory
import ArenaLab.Places

/-! The evidence transactions of a session: requests, observations and the
sequence numbers that they share with pings. -/

namespace ArenaLab

def Transaction.issued : Transaction → Option (LabRequest × UInt64)
  | .requested r _ now .ok => some (r, now)
  | _ => none

def Transaction.answered : Transaction → Option LabObservation
  | .observed o _ _ .ok => some o
  | _ => none

/-- The sequence number that the transaction took from the window. -/
def Transaction.consumed : Transaction → Option UInt32
  | .pinged seq .ok => some seq
  | .requested _ seq _ .ok => some seq
  | .observed _ seq _ .ok => some seq
  | _ => none

/-- The request accepted right after `pre` is neither answered nor expired. -/
def PendingAfter (policy : LabPolicy) (now : UInt64) (history pre : List Transaction)
    (r : LabRequest) : Prop :=
  ∃ seq at_ post, history = pre ++ .requested r seq at_ .ok :: post ∧
    (∀ o ∈ post.filterMap Transaction.answered, o.request_id ≠ r.request_id) ∧
    now.toNat < at_.toNat + policy.request_timeout_ms.toNat

/-- The observation answers the most recently accepted request before its deadline. -/
def Answers (policy : LabPolicy) (pre : List Transaction) (o : LabObservation) (now : UInt64) : Prop :=
  ∃ r at_, (pre.filterMap Transaction.issued).getLast? = some (r, at_) ∧
    o.request_id = r.request_id ∧ o.origin = r.origin ∧ o.capability = r.capability ∧
    o.seed = r.seed ∧ now.toNat < at_.toNat + policy.request_timeout_ms.toNat

structure SessionInv (policy : LabPolicy) (now : UInt64) (c : Client) (history : List Transaction) :
    Prop where
  ring : RingInv c.sequence (history.filterMap Transaction.consumed).reverse
  increasing : ((history.filterMap Transaction.issued).map (·.1.request_id)).Pairwise (· < ·)
  last : ∀ x ∈ history.filterMap Transaction.issued, x.1.request_id ≤ c.evidence.last_request
  known : ∀ o ∈ history.filterMap Transaction.answered, o.request_id ≤ c.evidence.last_request
  once : ((history.filterMap Transaction.answered).map (·.request_id)).Nodup
  current : c.evidence.pending = true → ∃ at_,
    (history.filterMap Transaction.issued).getLast? = some (c.evidence.request, at_) ∧
    c.evidence.deadline.toNat = at_.toNat + policy.request_timeout_ms.toNat ∧
    ∀ o ∈ history.filterMap Transaction.answered, o.request_id ≠ c.evidence.request.request_id
  matched : ∀ pre o seq at_ post, history = pre ++ .observed o seq at_ .ok :: post →
    Answers policy pre o at_
  settled : ∀ pre r seq at_ post, history = pre ++ .requested r seq at_ .ok :: post →
    (∃ o ∈ post.filterMap Transaction.answered, o.request_id = r.request_id) ∨
    at_.toNat + policy.request_timeout_ms.toNat ≤ now.toNat ∨
    c.evidence.pending = true ∧ post.filterMap Transaction.issued = []

section

variable {policy : LabPolicy} {now now' : UInt64} {c c' : Client} {history : List Transaction}
  {tr : Transaction}

theorem SessionInv.blank (h : c.Blank) : SessionInv policy now c [] where
  ring := by
    rw [h.1]
    exact RingInv.fresh_start
  increasing := List.Pairwise.nil
  last := by simp
  known := by simp
  once := List.nodup_nil
  current := by
    rw [h.2.1]
    simp
  matched := by simp
  settled := by simp

theorem SessionInv.idle (h : SessionInv policy now c history) (hnow : now ≤ now')
    (hseq : c'.sequence = c.sequence) (hev : c'.evidence = c.evidence) :
    SessionInv policy now' c' history where
  ring := by
    rw [hseq]
    exact h.ring
  increasing := h.increasing
  last := by
    rw [hev]
    exact h.last
  known := by
    rw [hev]
    exact h.known
  once := h.once
  current := by
    rw [hev]
    exact h.current
  matched := h.matched
  settled := by
    intro pre r seq at_ post he
    rw [hev]
    rcases h.settled pre r seq at_ post he with ha | ht | hp
    · exact .inl ha
    · exact .inr (.inl (ht.trans (UInt64.le_iff_toNat_le.mp hnow)))
    · exact .inr (.inr hp)

theorem SessionInv.passive (h : SessionInv policy now c history) (hissued : tr.issued = none)
    (hanswered : tr.answered = none) (hev : c'.evidence = c.evidence)
    (hring : RingInv c'.sequence ((history ++ [tr]).filterMap Transaction.consumed).reverse) :
    SessionInv policy now c' (history ++ [tr]) := by
  have hi : (history ++ [tr]).filterMap Transaction.issued = history.filterMap Transaction.issued := by
    simp [hissued]
  have ha : (history ++ [tr]).filterMap Transaction.answered =
      history.filterMap Transaction.answered := by simp [hanswered]
  constructor
  · exact hring
  · rw [hi]
    exact h.increasing
  · rw [hi, hev]
    exact h.last
  · rw [ha, hev]
    exact h.known
  · rw [ha]
    exact h.once
  · rw [hi, ha, hev]
    exact h.current
  · intro pre o seq at_ post he
    rcases List.concat_eq_append_cons he with ⟨_, _, rfl⟩ | ⟨post', _, he'⟩
    · cases hanswered
    · exact h.matched pre o seq at_ post' he'
  · intro pre r seq at_ post he
    rcases List.concat_eq_append_cons he with ⟨_, _, rfl⟩ | ⟨post', rfl, he'⟩
    · cases hissued
    · rw [hev]
      simpa [hissued, hanswered] using h.settled pre r seq at_ post' he'

theorem ring_consume {seq : UInt32}
    (h : RingInv c.sequence (history.filterMap Transaction.consumed).reverse)
    (hok : (c.sequence.accept seq).2 = .ok) (htr : tr.consumed = some seq) :
    RingInv (c.sequence.accept seq).1
      ((history ++ [tr]).filterMap Transaction.consumed).reverse := by
  have hcall := h.call seq
  simpa [sequenceCall, hok, htr] using hcall

theorem ring_kept (h : RingInv c.sequence (history.filterMap Transaction.consumed).reverse)
    (hseq : c'.sequence = c.sequence) (htr : tr.consumed = none) :
    RingInv c'.sequence ((history ++ [tr]).filterMap Transaction.consumed).reverse := by
  rw [hseq]
  simpa [htr] using h

theorem getLast_issued {pre post : List Transaction} {r : LabRequest} {seq : UInt32} {at_ : UInt64}
    (he : history = pre ++ .requested r seq at_ .ok :: post)
    (hp : post.filterMap Transaction.issued = []) :
    (history.filterMap Transaction.issued).getLast? = some (r, at_) := by
  subst he
  simp [Transaction.issued, hp]

/-- An accepted request replaces one that was answered or has expired. -/
theorem SessionInv.request {r : LabRequest} {seq : UInt32} {t : UInt64}
    (h : SessionInv policy now c history)
    (hpolicy : (labPolicyRequest c.evidence policy r now).2 = .ok)
    (hseq : (c.sequence.accept seq).2 = .ok) :
    SessionInv policy now
      { c with
        evidence := (labPolicyRequest c.evidence policy r now).1
        sequence := (c.sequence.accept seq).1
        last_rx := t } (history ++ [.requested r seq now .ok]) := by
  obtain ⟨hnew, hidle, deadline, hdeadline, hnext⟩ := labPolicyRequest_ok hpolicy
  rw [hnext]
  have hi : (history ++ [Transaction.requested r seq now .ok]).filterMap Transaction.issued =
      history.filterMap Transaction.issued ++ [(r, now)] := by simp [Transaction.issued]
  have ha : (history ++ [Transaction.requested r seq now .ok]).filterMap Transaction.answered =
      history.filterMap Transaction.answered := by simp [Transaction.answered]
  have hknown : ∀ o ∈ history.filterMap Transaction.answered, o.request_id < r.request_id :=
    fun o ho => UInt32.lt_of_le_of_lt (h.known o ho) hnew
  constructor
  · exact ring_consume h.ring hseq rfl
  · rw [hi, List.map_append, List.pairwise_append]
    refine ⟨h.increasing, by simp, ?_⟩
    intro x hx y hy
    obtain ⟨z, hz, rfl⟩ := List.mem_map.mp hx
    obtain rfl := List.mem_singleton.mp hy
    exact UInt32.lt_of_le_of_lt (h.last z hz) hnew
  · rw [hi]
    intro x hx
    rcases List.mem_append.mp hx with hx | hx
    · exact UInt32.le_of_lt (UInt32.lt_of_le_of_lt (h.last x hx) hnew)
    · obtain rfl := List.mem_singleton.mp hx
      exact UInt32.le_refl _
  · rw [ha]
    exact fun o ho => UInt32.le_of_lt (hknown o ho)
  · rw [ha]
    exact h.once
  · intro _
    rw [hi, ha]
    exact ⟨now, by simp, hdeadline, fun o ho => UInt32.ne_of_lt (hknown o ho)⟩
  · intro pre o seq' at_ post he
    rcases List.concat_eq_append_cons he with ⟨_, _, hx⟩ | ⟨post', _, he'⟩
    · cases hx
    · exact h.matched pre o seq' at_ post' he'
  · intro pre r' seq' at_ post he
    rcases List.concat_eq_append_cons he with ⟨rfl, _, hx⟩ | ⟨post', rfl, he'⟩
    · exact .inr (.inr ⟨rfl, rfl⟩)
    · rcases h.settled pre r' seq' at_ post' he' with hans | hexp | ⟨hp, hnone⟩
      · left
        simpa [Transaction.answered] using hans
      · exact .inr (.inl hexp)
      · right; left
        obtain ⟨at', hlast, hd, _⟩ := h.current hp
        have hsame := Option.some.inj (hlast.symm.trans (getLast_issued he' hnone))
        obtain ⟨_, rfl⟩ := Prod.mk.inj hsame
        rw [← hd]
        exact UInt64.le_iff_toNat_le.mp (hidle hp)

theorem SessionInv.observation {o : LabObservation} {seq : UInt32} {t : UInt64}
    (h : SessionInv policy now c history)
    (hpolicy : (labPolicyObservation c.evidence policy o now).2 = .ok)
    (hseq : (c.sequence.accept seq).2 = .ok) :
    SessionInv policy now
      { c with
        evidence := (labPolicyObservation c.evidence policy o now).1
        sequence := (c.sequence.accept seq).1
        last_rx := t } (history ++ [.observed o seq now .ok]) := by
  obtain ⟨hp, hid, htime, horigin, hcap, hseed, hnext⟩ := labPolicyObservation_ok hpolicy
  obtain ⟨at_, hlast, hdeadline, hfresh⟩ := h.current hp
  rw [hnext]
  have hi : (history ++ [Transaction.observed o seq now .ok]).filterMap Transaction.issued =
      history.filterMap Transaction.issued := by simp [Transaction.issued]
  have ha : (history ++ [Transaction.observed o seq now .ok]).filterMap Transaction.answered =
      history.filterMap Transaction.answered ++ [o] := by simp [Transaction.answered]
  have hmem : (c.evidence.request, at_) ∈ history.filterMap Transaction.issued :=
    List.mem_of_getLast? hlast
  constructor
  · exact ring_consume h.ring hseq rfl
  · rw [hi]
    exact h.increasing
  · rw [hi]
    exact h.last
  · rw [ha]
    intro x hx
    rcases List.mem_append.mp hx with hx | hx
    · exact h.known x hx
    · obtain rfl := List.mem_singleton.mp hx
      rw [hid]
      exact h.last _ hmem
  · rw [ha, List.map_append, List.nodup_append]
    refine ⟨h.once, by simp, ?_⟩
    intro x hx y hy
    obtain ⟨z, hz, rfl⟩ := List.mem_map.mp hx
    obtain rfl := List.mem_singleton.mp hy
    have hne := hfresh z hz
    rw [← hid] at hne
    exact hne
  · intro hf
    cases hf
  · intro pre o' seq' at' post he
    rcases List.concat_eq_append_cons he with ⟨_, rfl, hx⟩ | ⟨post', _, he'⟩
    · obtain ⟨rfl, _, rfl⟩ : o = o' ∧ seq = seq' ∧ now = at' := by
        injection hx with h₁ h₂ h₃
        exact ⟨h₁, h₂, h₃⟩
      refine ⟨c.evidence.request, at_, hlast, hid, horigin, hcap, hseed, ?_⟩
      rw [← hdeadline]
      exact UInt64.lt_iff_toNat_lt.mp htime
    · exact h.matched pre o' seq' at' post' he'
  · intro pre r seq' at' post he
    rcases List.concat_eq_append_cons he with ⟨_, _, hx⟩ | ⟨post', rfl, he'⟩
    · cases hx
    · rcases h.settled pre r seq' at' post' he' with hans | hexp | ⟨_, hnone⟩
      · left
        obtain ⟨x, hx, hxr⟩ := hans
        exact ⟨x, by simp [hx], hxr⟩
      · exact .inr (.inl hexp)
      · left
        have hsame := Option.some.inj (hlast.symm.trans (getLast_issued he' hnone))
        obtain ⟨rfl, _⟩ := Prod.mk.inj hsame
        exact ⟨o, by simp [Transaction.answered], hid⟩

/-- A rejected decision leaves the slot alone unless the numbers are exhausted. -/
theorem decided_rejected {next : EvidenceState} {verdict : Reason} {seq : UInt32}
    (h : c.Decided next verdict seq c') (hverdict : verdict ≠ .closing)
    (hbad : c.answer seq verdict ≠ .ok) :
    c.answer seq verdict ≠ .closing ∧ c' = c ∨
      c.answer seq verdict = .closing ∧ (seq = uint32Max ∨ c.sequence.next = uint32Max) ∧
        c' = .zero := by
  rcases h with ⟨hok, _⟩ | ⟨hcl, hz⟩ | ⟨_, hcl, hc⟩
  · exact absurd hok hbad
  · refine .inr ⟨hcl, ?_, hz⟩
    simp only [Client.answer] at hcl
    split at hcl
    · exact accept_closing hcl
    · exact absurd hcl hverdict
  · exact .inl ⟨hcl, hc⟩

/-- One transaction carries the invariant over, or ends the session. -/
theorem SessionInv.handled (h : SessionInv policy now c history)
    (ht : c.Handled policy now tr c') (hu : c'.used = true) :
    SessionInv policy now c' (history ++ [tr]) := by
  have hzero : c' ≠ .zero := by
    rintro rfl
    cases hu
  have hrefused : tr.issued = none → tr.answered = none → tr.consumed = none →
      c'.evidence = c.evidence → c'.sequence = c.sequence →
      SessionInv policy now c' (history ++ [tr]) :=
    fun hi ha hc hev hseq => h.passive hi ha hev (ring_kept h.ring hseq hc)
  have hkept : Kept c c' → c'.evidence = c.evidence ∧ c'.sequence = c.sequence := by
    rintro ⟨k, rfl⟩
    exact ⟨rfl, rfl⟩
  cases tr with
  | other =>
    obtain ⟨hev, hseq⟩ := hkept (ht.resolve_right hzero)
    exact hrefused rfl rfl rfl hev hseq
  | pinged seq reason =>
    obtain ⟨hreason, hc⟩ := ht
    rcases hc with ⟨hok, t, rfl⟩ | ⟨hbad, hc⟩
    · subst hok
      exact h.passive rfl rfl rfl (ring_consume h.ring hreason.symm rfl)
    · obtain ⟨hev, hseq⟩ := hkept (hc.resolve_right hzero)
      refine hrefused rfl rfl ?_ hev hseq
      cases reason <;> first | rfl | exact absurd rfl hbad
  | requested r seq at_ reason =>
    obtain ⟨rfl, hreason, hd⟩ := ht
    rcases hd with ⟨hok, hverdict, hseq, t, rfl⟩ | ⟨_, hz⟩ | ⟨hbad, _, rfl⟩
    · rw [hreason, hok]
      exact h.request hverdict hseq
    · exact absurd hz hzero
    · rw [← hreason] at hbad
      refine hrefused ?_ rfl ?_ rfl rfl
      · cases reason <;> first | rfl | exact absurd rfl hbad
      · cases reason <;> first | rfl | exact absurd rfl hbad
  | observed o seq at_ reason =>
    obtain ⟨rfl, hreason, hd⟩ := ht
    rcases hd with ⟨hok, hverdict, hseq, t, rfl⟩ | ⟨_, hz⟩ | ⟨hbad, _, rfl⟩
    · rw [hreason, hok]
      exact h.observation hverdict hseq
    · exact absurd hz hzero
    · rw [← hreason] at hbad
      refine hrefused rfl ?_ ?_ rfl rfl
      · cases reason <;> first | rfl | exact absurd rfl hbad
      · cases reason <;> first | rfl | exact absurd rfl hbad

theorem SessionInv.pending_unique (h : SessionInv policy now c history)
    {pre pre' : List Transaction} {r r' : LabRequest} (hp : PendingAfter policy now history pre r)
    (hp' : PendingAfter policy now history pre' r') : pre = pre' ∧ r = r' := by
  have hlast : ∀ pre r, PendingAfter policy now history pre r → ∃ seq at_ post,
      history = pre ++ .requested r seq at_ .ok :: post ∧
      post.filterMap Transaction.issued = [] := by
    rintro pre r ⟨seq, at_, post, he, hans, hnow⟩
    rcases h.settled pre r seq at_ post he with ⟨o, ho, hor⟩ | hexp | ⟨_, hnone⟩
    · exact absurd hor (hans o ho)
    · exact absurd hnow (not_lt.mpr hexp)
    · exact ⟨seq, at_, post, he, hnone⟩
  obtain ⟨seq, at_, post, he, hnone⟩ := hlast pre r hp
  obtain ⟨seq', at', post', he', hnone'⟩ := hlast pre' r' hp'
  rw [he] at he'
  rcases List.append_eq_append_iff.mp he' with ⟨mid, hpre, hpost⟩ | ⟨mid, hpre, hpost⟩
  · cases mid with
    | nil =>
      obtain ⟨hx, _⟩ := List.cons.inj hpost
      injection hx with hr
      exact ⟨by simpa using hpre.symm, hr⟩
    | cons x mid =>
      obtain ⟨_, hmid⟩ := List.cons.inj hpost
      rw [hmid] at hnone
      simp [Transaction.issued] at hnone
  · cases mid with
    | nil =>
      obtain ⟨hx, _⟩ := List.cons.inj hpost
      injection hx with hr
      exact ⟨by simpa using hpre, hr.symm⟩
    | cons x mid =>
      obtain ⟨_, hmid⟩ := List.cons.inj hpost
      rw [hmid] at hnone'
      simp [Transaction.issued] at hnone'

end

section

variable {host : LabHost} {config : ServerConfig} {listen : UInt32} {τ : List ServerAction}
  {w : Watched}

theorem sessionInv_of_run (hclock : ∀ j k, j ≤ k → host.now j ≤ host.now k)
    (h : Runs.Steps (WatchedStep host) (Watched.boot config listen) τ w) :
    w.server.config = config ∧ ∀ i, (w.server.slots i).used = true →
      SessionInv config.policy (host.now w.server.net.reads) (w.server.slots i) (w.history i) := by
  refine h.history (I := fun _ w => w.server.config = config ∧ ∀ i, (w.server.slots i).used = true →
    SessionInv config.policy (host.now w.server.net.reads) (w.server.slots i) (w.history i)) ?_ ?_
  · refine ⟨rfl, ?_⟩
    intro i hi
    by_cases h0 : i = 0
    · subst h0
      simp [Watched.boot, Server.boot, Client.zero] at hi
    · simp [Watched.boot, Server.boot, h0, Client.zero] at hi
  · rintro τ w a w' hr ⟨hconf, hinv⟩ rfl
    have hi := slotInv_of_run (watched_server hr)
    have hreads := hclock _ _ (@act_reads host w.server a)
    refine ⟨(act_config host hi a).trans hconf, ?_⟩
    intro i hu
    rcases act_slot host hi i a with hf | ⟨hold, hblank⟩ | ⟨hold, hcase⟩
    · rw [Watched.act] at hu
      simp [hf] at hu
    · have hh : (w.act host a).history i = [] := by simp [Watched.act, hold]
      rw [hh]
      exact .blank hblank
    · have hold' := hinv i hold
      have hh : (w.act host a).history i = w.history i ++ w.server.transactions host i a :=
        if_pos ⟨hu, hold⟩
      rw [hh]
      rcases hcase with ⟨htr, k, hk⟩ | ⟨tr, htr, hd⟩
      · rw [htr, List.append_nil]
        have hk' : (w.act host a).server.slots i = { w.server.slots i with nrst := k } := hk
        exact hold'.idle hreads (by rw [hk']) (by rw [hk'])
      · rw [htr]
        rw [hconf] at hd
        exact (hold'.handled hd hu).idle hreads rfl rfl

end

end ArenaLab
