import ArenaLab.TunnelPair

/-! The way into a channel, from the connection to its socket, under the steps of its workers. -/

namespace ArenaLab

/-- What the frames of kind 1 carry. -/
def payloads (frames : List (Bool × List UInt8)) : List (List UInt8) :=
  frames.filterMap (fun f => if f.1 then none else some f.2)

/-- From the connection to the socket. -/
structure Inflow (l : Link) (heard : List (Bool × List UInt8)) (sent : List (List UInt8)) : Prop where
  idle : l.ack = false → l.sending = none ∧ l.incoming = [] ∧ sent = []
  inOrder : sent <+: payloads heard
  queued : l.alive .udpWriter = true → sent ++ l.sending.toList ++ l.incoming <+: payloads heard
  whole : l.alive .udpWriter = true → l.alive .tlsReader = true →
    sent ++ l.sending.toList ++ l.incoming = payloads heard

section

variable {l l' : Link} {heard : List (Bool × List UInt8)}
  {sent : List (List UInt8)} {a : WorkerAction} {e : WorkerEvent}

theorem payloads_append (fs gs : List (Bool × List UInt8)) : payloads (fs ++ gs) = payloads fs ++ payloads gs :=
  List.filterMap_append

theorem Inflow.congr (h : Inflow l heard sent) (hack : l'.ack = true) (hsending : l'.sending = l.sending)
    (hincoming : l'.incoming = l.incoming) (halive : ∀ w, l'.alive w = true → l.alive w = true) :
    Inflow l' heard sent := by
  refine ⟨?_, h.inOrder, ?_, ?_⟩
  · intro hf
    rw [hack] at hf
    cases hf
  · intro hw
    rw [hsending, hincoming]
    exact h.queued (halive _ hw)
  · intro hw hr
    rw [hsending, hincoming]
    exact h.whole (halive _ hw) (halive _ hr)

/-- A frame that `tls_reader` gives up on is the last that it reads. -/
theorem Inflow.refuse (h : Inflow l heard sent) (hack : l.ack = true) (frames : List (Bool × List UInt8)) :
    Inflow (l.die .tlsReader) (heard ++ frames) sent := by
  have hmore : payloads heard <+: payloads (heard ++ frames) := by
    rw [payloads_append]
    exact List.prefix_append _ _
  refine ⟨?_, h.inOrder.trans hmore, ?_, ?_⟩
  · intro hf
    rw [show (l.die .tlsReader).ack = true from hack] at hf
    cases hf
  · exact fun hw => (h.queued (alive_die hw).1).trans hmore
  · exact fun _ hr => absurd rfl (alive_die hr).2

theorem Inflow.read (h : Inflow l heard sent) (hack : l.ack = true) (halive : l.alive .tlsReader = true)
    (control : Bool) (data : List UInt8) (limited : Bool) :
    Inflow (l.read control data limited) (heard ++ [(control, data)]) sent := by
  have hrefuse := h.refuse hack [(control, data)]
  unfold Link.read
  split
  · exact hrefuse
  split
  · rename_i hcontrol
    have hsame : payloads (heard ++ [(control, data)]) = payloads heard := by
      rw [hcontrol, payloads_append]
      exact List.append_nil _
    split
    · refine ⟨h.idle, ?_, ?_, ?_⟩
      · rw [hsame]
        exact h.inOrder
      · rw [hsame]
        exact h.queued
      · rw [hsame]
        exact h.whole
    · exact hrefuse
  rename_i hdata
  split
  · have hmore : payloads (heard ++ [(control, data)]) = payloads heard ++ [data] := by
      rw [Bool.eq_false_iff.mpr hdata, payloads_append]
      rfl
    refine ⟨?_, ?_, ?_, ?_⟩
    · intro hf
      rw [show ({ l with incoming := l.incoming ++ [data] } : Link).ack = true from hack] at hf
      cases hf
    · rw [hmore]
      exact h.inOrder.trans (List.prefix_append _ _)
    · intro hw
      show sent ++ l.sending.toList ++ (l.incoming ++ [data]) <+: _
      rw [hmore, ← List.append_assoc, h.whole hw halive]
    · intro hw hr
      show sent ++ l.sending.toList ++ (l.incoming ++ [data]) = _
      rw [hmore, ← List.append_assoc, h.whole hw halive]
  · exact hrefuse

theorem Inflow.work (h : Inflow l heard sent) (hack : l.ack = true) (hw : workerNext l a = some (e, l')) :
    Inflow l' (heard ++ a.frames) (sent ++ a.sends l) := by
  have hack' : l'.ack = true := (workerNext_worked hw).ack.trans hack
  have hquiet : ∀ {l' : Link}, Inflow l' heard sent → Inflow l' (heard ++ []) (sent ++ []) := by
    intro l' hl
    rwa [List.append_nil, List.append_nil]
  cases a with
  | receive =>
    simp only [workerNext] at hw
    split at hw <;> cases hw
    exact hquiet (h.congr hack rfl rfl (fun _ hx => hx))
  | filter limited =>
    simp only [workerNext] at hw
    split at hw <;> cases hw
    refine hquiet ?_
    have hnext : Inflow { l with received := none } heard sent := h.congr hack rfl rfl (fun _ hx => hx)
    unfold Link.filter
    split
    · exact hnext.congr hack rfl rfl (fun _ hx => (alive_die hx).1)
    split
    · exact hnext
    split
    · exact hnext.congr hack rfl rfl (fun _ hx => (alive_die hx).1)
    split
    · exact hnext.congr hack rfl rfl (fun _ hx => hx)
    · exact hnext.congr hack rfl rfl (fun _ hx => (alive_die hx).1)
  | write expired =>
    simp only [workerNext] at hw
    split at hw
    · rename_i f rest hr hq
      split at hw
      · cases hw
        exact hquiet (h.congr hack rfl rfl (fun _ hx => (alive_die hx).1))
      · cases hw
        exact hquiet (h.congr hack rfl rfl (fun _ hx => hx))
    · cases hw
  | read control data limited =>
    simp only [workerNext] at hw
    split at hw <;> cases hw
    rename_i hgood
    simp only [Bool.or_eq_true, Bool.not_eq_true', decide_eq_true_eq, not_or, Bool.not_eq_false] at hgood
    rw [show sent ++ WorkerAction.sends l (.read control data limited) = sent from List.append_nil _]
    exact h.read hack hgood.1.1 control data limited
  | take expired =>
    simp only [workerNext] at hw
    split at hw
    · rename_i data rest hr hnone hq
      split at hw
      · cases hw
        refine hquiet ⟨?_, h.inOrder, ?_, ?_⟩
        · intro hf
          rw [hack'] at hf
          cases hf
        · exact fun hf => absurd rfl (alive_die hf).2
        · exact fun hf _ => absurd rfl (alive_die hf).2
      · cases hw
        have hsame : sent ++ (some data).toList ++ rest = sent ++ l.sending.toList ++ l.incoming := by
          rw [hnone, hq]
          simp
        refine hquiet ⟨?_, h.inOrder, ?_, ?_⟩
        · intro hf
          rw [hack'] at hf
          cases hf
        · exact fun hw' => hsame ▸ h.queued hw'
        · exact fun hw' hr' => hsame ▸ h.whole hw' hr'
    · cases hw
  | send =>
    simp only [workerNext] at hw
    split at hw <;> cases hw
    rename_i data hr hsome
    have hsame : sent ++ [data] ++ (none : Option (List UInt8)).toList ++ l.incoming =
        sent ++ l.sending.toList ++ l.incoming := by
      rw [hsome]
      simp
    rw [show heard ++ WorkerAction.frames .send = heard from List.append_nil _,
      show WorkerAction.sends l .send = [data] by rw [WorkerAction.sends, hsome]; rfl]
    refine ⟨?_, ?_, ?_, ?_⟩
    · intro hf
      rw [hack'] at hf
      cases hf
    · have hq := h.queued hr
      rw [hsome] at hq
      exact (List.prefix_append _ _).trans hq
    · intro hw'
      exact hsame ▸ h.queued hw'
    · intro hw' hr'
      exact hsame ▸ h.whole hw' hr'
  | back w =>
    simp only [workerNext] at hw
    split at hw <;> cases hw
    exact hquiet (h.congr hack rfl rfl (fun _ hx => hx))
  | beat =>
    simp only [workerNext] at hw
    split at hw
    · cases hw
    · split at hw <;> cases hw
      · exact hquiet (h.congr hack rfl rfl (fun _ hx => hx))
      · exact hquiet (h.congr hack rfl rfl (fun _ hx => (alive_die hx).1))
  | fail w =>
    simp only [workerNext] at hw
    split at hw <;> cases hw
    exact hquiet (h.congr hack rfl rfl (fun _ hx => (alive_die hx).1))
  | wake =>
    simp only [workerNext] at hw
    split at hw <;> cases hw
    exact hquiet (h.congr hack rfl rfl (fun _ hx => (alive_die hx).1))
  | resume outlives =>
    simp only [workerNext] at hw
    split at hw <;> cases hw
    exact hquiet (h.congr hack rfl rfl (fun _ hx => alive_cancel hx))

end

end ArenaLab
