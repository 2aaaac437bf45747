import ArenaLab.RegistrySteps

/-! The table of admissions over whole runs: keys, roles, capacity, and the
exact condition under which a registration goes through. -/

namespace ArenaLab

/-- The place of the entry that an event reads or writes. -/
def Event.about : Event → Option ℕ
  | .dispatched _ _ (.registered place _ _ _) => some place
  | .dispatched _ _ (.viewed place _ _ _) => some place
  | .dispatched _ _ (.challenged place _ _ _ _ _) => some place
  | .dispatched _ _ (.entered x) => some x.entry
  | .finished x _ _ => some x.entry
  | _ => none

/-- One entry may be rewritten, under its old binding and deadline and without
leaving `REVOKED`. -/
def Rewritten (s s' : Registry) (ev : Event) : Prop :=
  s'.heap = s.heap ∨ ∃ place e e', ev.about = some place ∧ s.heap[place]? = some e ∧
    s'.heap = s.heap.set place e' ∧ e'.binding = e.binding ∧ e'.deadline = e.deadline ∧
    (e.state = .revoked → e'.state = .revoked)

/-- Every step but a registration keeps the table or drops the dead from it. -/
theorem Effect.rewritten {host : Host} {cfg : Config} {s s' : Registry} {ev : Event}
    (h : Effect host cfg s s' ev) :
    Rewritten s s' ev ∧ (s'.entries = s.entries ∨ s'.heap = s.heap ∧
      s'.entries = (s.prune (host.clock s.tape.reads)).entries ∧ s.tape.reads < s'.tape.reads) ∨
    ∃ identity message registeredAt now view e, s'.heap = s.heap ++ [e] ∧
      ev = .dispatched identity message (.registered s.heap.length registeredAt now view) := by
  cases h with
  | idle _ hheap _ _ htable =>
    rcases htable with ht | ht
    · exact .inl ⟨.inl hheap, .inl ht⟩
    · exact .inl ⟨.inl hheap, .inr ⟨hheap, ht⟩⟩
  | registered _ _ _ _ _ _ _ _ _ _ hheap => exact .inr ⟨_, _, _, _, _, _, hheap, rfl⟩
  | viewed hop _ _ he _ hheap _ _ htable =>
    refine .inl ⟨.inr ⟨_, _, _, rfl, he, hheap, ?_, ?_, ?_⟩, .inl htable⟩
    · simp
    · simp
    · intro hr
      rcases viewed_state _ _ _ with ⟨_, hs⟩ | ⟨_, hs | ⟨_, hs, _⟩⟩
      · exact hs
      · exact hs.trans hr
      · exact absurd hr hs
  | challenged _ _ he _ hlive _ _ hheap _ _ htable =>
    exact .inl ⟨.inr ⟨_, _, _, rfl, he, hheap, rfl, rfl, fun hr => absurd hr hlive⟩, .inl htable⟩
  | entered _ _ he _ _ _ hst _ hheap _ _ htable =>
    exact .inl ⟨.inr ⟨_, _, _, rfl, he, hheap, rfl, rfl, fun hr => by simp [hst] at hr⟩, .inl htable⟩
  | dropped _ _ hheap _ _ htable => exact .inl ⟨.inl hheap, .inl htable⟩
  | failed _ he hst hheap _ _ htable =>
    exact .inl ⟨.inr ⟨_, _, _, rfl, he, hheap, rfl, rfl, fun hr => by simp [hst] at hr⟩, .inl htable⟩
  | settled _ he hst _ hheap _ _ htable =>
    exact .inl ⟨.inr ⟨_, _, _, rfl, he, hheap, by simp, by simp, fun hr => by simp [hst] at hr⟩,
      .inl htable⟩

theorem Rewritten.forth {s s' : Registry} {ev : Event} (h : Rewritten s s' ev) {a : ℕ} {e : Entry}
    (ha : s.heap[a]? = some e) :
    ∃ e', s'.heap[a]? = some e' ∧ e'.binding = e.binding ∧ e'.deadline = e.deadline ∧
      (e.state = .revoked → e'.state = .revoked) ∧ (ev.about ≠ some a → e' = e) := by
  rcases h with hheap | ⟨place, e₀, e₁, hab, he, hheap, hb, hd, hr⟩
  · have ha' : s'.heap[a]? = some e := by
      rw [hheap]
      exact ha
    exact ⟨e, ha', rfl, rfl, id, fun _ => rfl⟩
  · by_cases hp : place = a
    · subst hp
      obtain rfl := Option.some.inj (ha.symm.trans he)
      refine ⟨e₁, ?_, hb, hd, hr, fun hn => absurd hab hn⟩
      rw [hheap, List.getElem?_set_of_some ha]
    · have ha' : s'.heap[a]? = some e := by
        rw [hheap, List.getElem?_set_ne hp]
        exact ha
      exact ⟨e, ha', rfl, rfl, id, fun _ => rfl⟩

theorem Rewritten.back {s s' : Registry} {ev : Event} (h : Rewritten s s' ev) {a : ℕ} {e' : Entry}
    (ha : s'.heap[a]? = some e') :
    ∃ e, s.heap[a]? = some e ∧ e'.binding = e.binding ∧ e'.deadline = e.deadline := by
  rcases h with hheap | ⟨place, e₀, e₁, _, he, hheap, hb, hd, _⟩
  · exact ⟨e', by rw [← hheap]; exact ha, rfl, rfl⟩
  · rw [hheap] at ha
    rcases List.getElem?_set_some ha with ⟨rfl, rfl⟩ | ⟨_, ha⟩
    · exact ⟨e₀, he, hb, hd⟩
    · exact ⟨e', ha, rfl, rfl⟩

/-- A step keeps every entry in its place, with its binding, its deadline and
a revocation; it changes only the entry it is about. -/
theorem Effect.forth {host : Host} {cfg : Config} {s s' : Registry} {ev : Event}
    (h : Effect host cfg s s' ev) {a : ℕ} {e : Entry} (ha : s.heap[a]? = some e) :
    ∃ e', s'.heap[a]? = some e' ∧ e'.binding = e.binding ∧ e'.deadline = e.deadline ∧
      (e.state = .revoked → e'.state = .revoked) ∧ (ev.about ≠ some a → e' = e) := by
  rcases h.rewritten with ⟨hw, _⟩ | ⟨_, _, _, _, _, _, hheap, _⟩
  · exact hw.forth ha
  · refine ⟨e, ?_, rfl, rfl, id, fun _ => rfl⟩
    rw [hheap]
    exact List.getElem?_concat_of_some ha

def Entry.triple (e : Entry) : HexStr 64 × HexStr 32 × PeerId :=
  (e.binding.controller, e.binding.game_session_id, e.binding.peer_id)

theorem holds_iff {e : Entry} {controller : HexStr 64} {session : HexStr 32} {peer : PeerId} :
    e.holds controller session peer = true ↔ e.triple = (controller, session, peer) := by
  simp [Entry.holds, Entry.triple, and_assoc]

/-- `live`: an entry leaves the table only once it is revoked or the clock has
shown its deadline. -/
structure TableInv (host : Host) (cfg : Config) (s : Registry) : Prop where
  place : ∀ id a, s.entries.lookup id = some a →
    ∃ e, s.heap[a]? = some e ∧ e.binding.admission_id = id
  roles : ∀ (a : ℕ) e, s.heap[a]? = some e →
    e.binding.controller ∈ cfg.controllers ∧ e.binding.attestor ∈ cfg.attestors
  drawn : ∀ (a : ℕ) e, s.heap[a]? = some e →
    ∃ i < s.tape.draws, e.binding.admission_id = host.tokenHex i 16
  ids : host.FreshTokens s.tape.draws → ∀ (a b : ℕ) e f, s.heap[a]? = some e → s.heap[b]? = some f →
    e.binding.admission_id = f.binding.admission_id → a = b
  triples : ∀ x ∈ s.entries.entries, ∀ y ∈ s.entries.entries, ∀ e f, s.heap[x.2]? = some e →
    s.heap[y.2]? = some f → e.triple = f.triple → x = y
  live : ∀ (a : ℕ) e, s.heap[a]? = some e → s.entries.lookup e.binding.admission_id = some a ∨
    e.state = .revoked ∨ ∃ k < s.tape.reads, e.deadline ≤ host.clock k
  bounded : s.entries.entries.length ≤ cfg.maximum

theorem FreshTokens.mono {host : Host} {m n : ℕ} (h : host.FreshTokens n) (hle : m ≤ n) :
    host.FreshTokens m :=
  fun i hi j hj he => h i (by omega) j (by omega) he

section

variable {host : Host} {cfg : Config} {s s' : Registry} {ev : Event}

theorem triple_of_binding {e f : Entry} (h : e.binding = f.binding) : e.triple = f.triple := by
  simp [Entry.triple, h]

theorem TableInv.kept (h : TableInv host cfg s) (hw : Rewritten s s' ev)
    (ht : s'.entries = s.entries) (hb : s.tape.Before s'.tape) : TableInv host cfg s' := by
  constructor
  · intro id a hl
    rw [ht] at hl
    obtain ⟨e, he, hid⟩ := h.place id a hl
    obtain ⟨e', he', hb', _⟩ := hw.forth he
    exact ⟨e', he', by rw [hb', hid]⟩
  · intro a e' he'
    obtain ⟨e, he, hb', _⟩ := hw.back he'
    rw [hb']
    exact h.roles a e he
  · intro a e' he'
    obtain ⟨e, he, hb', _⟩ := hw.back he'
    obtain ⟨i, hi, hid⟩ := h.drawn a e he
    exact ⟨i, hi.trans_le hb.2, by rw [hb', hid]⟩
  · intro hf a b e' f' he' hf' hid
    obtain ⟨e, he, hbe, _⟩ := hw.back he'
    obtain ⟨f, hfb, hbf, _⟩ := hw.back hf'
    exact h.ids (FreshTokens.mono hf hb.2) a b e f he hfb (by rw [← hbe, ← hbf]; exact hid)
  · intro x hx y hy e' f' he' hf' hid
    rw [ht] at hx hy
    obtain ⟨e, he, hbe, _⟩ := hw.back he'
    obtain ⟨f, hfb, hbf, _⟩ := hw.back hf'
    refine h.triples x hx y hy e f he hfb ?_
    rw [← triple_of_binding hbe, ← triple_of_binding hbf, hid]
  · intro a e' he'
    obtain ⟨e, he, hbe, hde⟩ := hw.back he'
    obtain ⟨e₁, he₁, _, _, hr, _⟩ := hw.forth he
    obtain rfl := Option.some.inj (he'.symm.trans he₁)
    rw [ht, hbe, hde]
    rcases h.live a e he with hl | hl | ⟨k, hk, hl⟩
    · exact .inl hl
    · exact .inr (.inl (hr hl))
    · exact .inr (.inr ⟨k, hk.trans_le hb.1, hl⟩)
  · rw [ht]
    exact h.bounded

theorem alive_iff {now : ℚ} {a : ℕ} : s.alive now a = true ↔
    ∃ e, s.heap[a]? = some e ∧ now < e.deadline ∧ e.state ≠ .revoked := by
  simp only [Registry.alive]
  cases s.heap[a]? with
  | none => simp
  | some e => simp

theorem lookup_prune {now : ℚ} {id : HexStr 32} {a : ℕ} :
    (s.prune now).entries.lookup id = some a ↔
      s.entries.lookup id = some a ∧ s.alive now a = true :=
  AList.mem_lookup_keep

theorem TableInv.pruned (h : TableInv host cfg s) (hheap : s'.heap = s.heap)
    (ht : s'.entries = (s.prune (host.clock s.tape.reads)).entries)
    (hread : s.tape.reads < s'.tape.reads) (hb : s.tape.Before s'.tape) : TableInv host cfg s' := by
  have hsub : ∀ x ∈ s'.entries.entries, x ∈ s.entries.entries := by
    intro x hx
    rw [ht] at hx
    exact List.mem_of_mem_filter hx
  have hlook : ∀ id a, s'.entries.lookup id = some a ↔
      s.entries.lookup id = some a ∧ s.alive (host.clock s.tape.reads) a = true := by
    intro id a
    rw [ht]
    exact lookup_prune
  constructor
  · intro id a hl
    rw [hheap]
    exact h.place id a ((hlook id a).mp hl).1
  · rw [hheap]
    exact h.roles
  · intro a e he
    rw [hheap] at he
    obtain ⟨i, hi, hid⟩ := h.drawn a e he
    exact ⟨i, hi.trans_le hb.2, hid⟩
  · rw [hheap]
    exact fun hf => h.ids (FreshTokens.mono hf hb.2)
  · rw [hheap]
    exact fun x hx y hy => h.triples x (hsub x hx) y (hsub y hy)
  · intro a e he
    rw [hheap] at he
    rcases h.live a e he with hl | hl | ⟨k, hk, hl⟩
    · by_cases ha : s.alive (host.clock s.tape.reads) a = true
      · exact .inl ((hlook _ _).mpr ⟨hl, ha⟩)
      · by_cases hr : e.state = .revoked
        · exact .inr (.inl hr)
        · refine .inr (.inr ⟨s.tape.reads, hread, ?_⟩)
          by_contra hc
          exact ha (alive_iff.mpr ⟨e, he, not_le.mp hc, hr⟩)
    · exact .inr (.inl hl)
    · exact .inr (.inr ⟨k, hk.trans hread, hl⟩)
  · rw [ht]
    exact (List.length_filter_le _ _).trans h.bounded

theorem taken_false {controller : HexStr 64} {session : HexStr 32} {peer : PeerId} :
    s.taken controller session peer = false ↔
      ∀ x ∈ s.entries.entries, ∀ e, s.heap[x.2]? = some e → e.triple ≠ (controller, session, peer) := by
  simp only [Registry.taken, List.any_eq_false, Option.any_eq_true, not_exists, not_and, holds_iff]

theorem TableInv.grown {e : Entry} (h : TableInv host cfg s)
    (hctl : e.binding.controller ∈ cfg.controllers) (hatt : e.binding.attestor ∈ cfg.attestors)
    (hid : e.binding.admission_id = host.tokenHex s.tape.draws 16)
    (hdraw : s.tape.draws < s'.tape.draws) (hread : s.tape.reads ≤ s'.tape.reads)
    (hnew : e.binding.admission_id ∉ s.entries)
    (hfree : s.taken e.binding.controller e.binding.game_session_id e.binding.peer_id = false)
    (hroom : s.entries.entries.length < cfg.maximum) (hheap : s'.heap = s.heap ++ [e])
    (ht : s'.entries = s.entries.insert e.binding.admission_id s.heap.length) :
    TableInv host cfg s' := by
  have hold : ∀ (a : ℕ) f, s.heap[a]? = some f → s'.heap[a]? = some f := by
    intro a f hf
    rw [hheap]
    exact List.getElem?_concat_of_some hf
  have hcases : ∀ (a : ℕ) f, s'.heap[a]? = some f → s.heap[a]? = some f ∨ a = s.heap.length ∧ e = f := by
    intro a f hf
    rw [hheap] at hf
    exact List.getElem?_concat_some hf
  have hself : s'.heap[s.heap.length]? = some e := by
    rw [hheap]
    simp
  have hplace : ∀ x ∈ s.entries.entries, ∃ f, s.heap[x.2]? = some f := by
    intro x hx
    obtain ⟨f, hf, _⟩ := h.place x.1 x.2 (AList.mem_lookup_iff.mpr hx)
    exact ⟨f, hf⟩
  have hother : ∀ x ∈ s.entries.entries, ∀ f g, s'.heap[x.2]? = some f →
      s'.heap[s.heap.length]? = some g → f.triple ≠ g.triple := by
    intro x hx f g hf hg
    obtain ⟨f', hf'⟩ := hplace x hx
    obtain rfl := Option.some.inj (hf.symm.trans (hold _ _ hf'))
    obtain rfl := Option.some.inj (hg.symm.trans hself)
    exact taken_false.mp hfree x hx f hf'
  constructor
  · intro id a hl
    rw [ht] at hl
    by_cases hi : id = e.binding.admission_id
    · subst hi
      rw [AList.lookup_insert] at hl
      obtain rfl := Option.some.inj hl
      exact ⟨e, hself, rfl⟩
    · rw [AList.lookup_insert_ne hi] at hl
      obtain ⟨f, hf, hfid⟩ := h.place id a hl
      exact ⟨f, hold a f hf, hfid⟩
  · intro a f hf
    rcases hcases a f hf with hf | ⟨_, rfl⟩
    · exact h.roles a f hf
    · exact ⟨hctl, hatt⟩
  · intro a f hf
    rcases hcases a f hf with hf | ⟨_, rfl⟩
    · obtain ⟨i, hi, hfid⟩ := h.drawn a f hf
      exact ⟨i, hi.trans hdraw, hfid⟩
    · exact ⟨_, hdraw, hid⟩
  · intro hfresh a b f g hf hg heq
    have hstale : ∀ (c : ℕ) k, s.heap[c]? = some k → k.binding.admission_id ≠ e.binding.admission_id := by
      intro c k hk hc
      obtain ⟨i, hi, hkid⟩ := h.drawn c k hk
      rw [hkid, hid] at hc
      have := hfresh i (by omega) _ hdraw hc
      omega
    rcases hcases a f hf with hf | ⟨ha, rfl⟩
    · rcases hcases b g hg with hg | ⟨_, rfl⟩
      · exact h.ids (FreshTokens.mono hfresh hdraw.le) a b f g hf hg heq
      · exact absurd heq (hstale a f hf)
    · rcases hcases b g hg with hg | ⟨hb, rfl⟩
      · exact absurd heq.symm (hstale b g hg)
      · rw [ha, hb]
  · intro x hx y hy f g hf hg heq
    rw [ht, AList.mem_entries_insert hnew] at hx hy
    rcases hx with rfl | hx
    · rcases hy with rfl | hy
      · rfl
      · exact absurd heq.symm (hother y hy g f hg hf)
    · rcases hy with rfl | hy
      · exact absurd heq (hother x hx f g hf hg)
      · obtain ⟨f', hf'⟩ := hplace x hx
        obtain ⟨g', hg'⟩ := hplace y hy
        obtain rfl := Option.some.inj (hf.symm.trans (hold _ _ hf'))
        obtain rfl := Option.some.inj (hg.symm.trans (hold _ _ hg'))
        exact h.triples x hx y hy f g hf' hg' heq
  · intro a f hf
    rcases hcases a f hf with hf | ⟨rfl, rfl⟩
    · rcases h.live a f hf with hl | hl | ⟨k, hk, hl⟩
      · left
        have hne : f.binding.admission_id ≠ e.binding.admission_id := by
          intro hc
          rw [hc] at hl
          have hsome := Option.isSome_of_eq_some hl
          exact hnew (AList.lookup_isSome.mp hsome)
        rw [ht, AList.lookup_insert_ne hne]
        exact hl
      · exact .inr (.inl hl)
      · exact .inr (.inr ⟨k, hk.trans_le hread, hl⟩)
    · left
      rw [ht, AList.lookup_insert]
  · rw [ht, AList.entries_insert_of_notMem hnew, List.length_cons]
    omega

theorem TableInv.step (h : TableInv host cfg s) (hb : s.tape.Before s'.tape)
    (heff : Effect host cfg s s' ev) : TableInv host cfg s' := by
  rcases heff.rewritten with ⟨hw, ht | ⟨hheap, ht, hread⟩⟩ | ⟨_, _, _, _, _, _, _, rfl⟩
  · exact h.kept hw ht hb
  · exact h.pruned hheap ht hread hb
  · cases heff with
    | idle hev => simp at hev
    | registered hctl hatt hid hdraw hnew hfree hroom _ _ _ hheap _ _ htable hread =>
      have hp : TableInv host cfg { s.prune (host.clock s.tape.reads) with
          tape := { s.tape with reads := s'.tape.reads } } :=
        h.pruned rfl rfl hread ⟨hb.1, le_refl _⟩
      exact hp.grown hctl hatt hid hdraw (le_refl _) hnew hfree hroom hheap htable

theorem TableInv.start (host : Host) (cfg : Config) : TableInv host cfg (Registry.start host) := by
  constructor <;> simp [Registry.start]

theorem tableInv_of_run {τ : List Event} (h : RegistryRun host cfg τ s) : TableInv host cfg s :=
  h.invariant (TableInv.start host cfg)
    (fun _ _ _ hi he => hi.step (step_effect he).1 (step_effect he).2)

theorem TableInv.draw_fresh (h : TableInv host cfg s) (hf : host.FreshTokens (s.tape.draws + 1))
    (now : ℚ) : host.tokenHex s.tape.draws 16 ∉ (s.prune now).entries := by
  intro hm
  obtain ⟨a, ha⟩ := Option.isSome_iff_exists.mp (AList.lookup_isSome.mpr hm)
  obtain ⟨e, he, hid⟩ := h.place _ _ (lookup_prune.mp ha).1
  obtain ⟨i, hi, hd⟩ := h.drawn _ _ he
  have := hf i (by omega) s.tape.draws (by omega) (hd.symm.trans hid)
  omega

def Registered (controller attestor : HexStr 64) (session : HexStr 32) (peer : PeerId)
    (reply : Reply) : Prop :=
  ∃ place registeredAt now view, reply = .registered place registeredAt now view ∧
    view.binding.controller = controller ∧ view.binding.attestor = attestor ∧
    view.binding.game_session_id = session ∧ view.binding.peer_id = peer

theorem newAdmission_registered {controller attestor : HexStr 64} {session : HexStr 32} {peer : PeerId}
    (hfree : (s.prune (host.clock s.tape.reads)).taken controller session peer = false)
    (hnew : host.tokenHex s.tape.draws 16 ∉ (s.prune (host.clock s.tape.reads)).entries) :
    Registered controller attestor session peer
        (s.newAdmission host cfg controller attestor session peer).2 ↔
      (s.prune (host.clock s.tape.reads)).entries.entries.length < cfg.maximum := by
  have htaken : ({ s.prune (host.clock s.tape.reads) with tape := s.tape.read } : Registry).taken
      controller session peer = false := hfree
  simp only [Registry.newAdmission, htaken, Bool.false_eq_true, if_false]
  by_cases hroom : cfg.maximum ≤ (s.prune (host.clock s.tape.reads)).entries.entries.length
  · rw [if_pos hroom]
    constructor
    · rintro ⟨_, _, _, _, he, _⟩
      cases he
    · intro hlt
      omega
  · rw [if_neg hroom, if_neg (by simpa using hnew)]
    constructor
    · intro _
      omega
    · intro _
      exact ⟨_, _, _, _, rfl, by simp [Entry.view], by simp [Entry.view], by simp [Entry.view],
        by simp [Entry.view]⟩

/-- The table in every reachable state, and when it takes one more entry. -/
theorem registry_table_invariant {τ : List Event} (h : RegistryRun host cfg τ s)
    (hf : host.FreshTokens (s.tape.draws + 1)) :
    (∀ x ∈ s.entries.entries, ∃ e, s.heap[x.2]? = some e ∧ e.binding.admission_id = x.1 ∧
      e.binding.controller ∈ cfg.controllers ∧ e.binding.controller ∉ cfg.attestors ∧
      e.binding.attestor ∈ cfg.attestors ∧ e.binding.attestor ∉ cfg.controllers) ∧
    (∀ x ∈ s.entries.entries, ∀ y ∈ s.entries.entries, ∀ e f, s.heap[x.2]? = some e →
      s.heap[y.2]? = some f → e.triple = f.triple → x = y) ∧
    s.entries.entries.length ≤ cfg.maximum ∧
    (∀ identity message fields controller session attestor peer,
      cfg.controller identity = some controller →
      parseRequest message = some (.register, fields) →
      hexValue ((Dict.get fields "game_session_id").getD .null) 32 = .ok session →
      hexValue ((Dict.get fields "attestor").getD .null) 64 = .ok attestor →
      attestor ∈ cfg.attestors → peerId ((Dict.get fields "peer_id").getD .null) = .ok peer →
      (∀ x ∈ s.entries.entries, s.alive (host.clock s.tape.reads) x.2 = true →
        ∀ e, s.heap[x.2]? = some e → e.triple ≠ (controller, session, peer)) →
      (Registered controller attestor session peer (s.dispatch host cfg identity message).2 ↔
        s.entries.entries.countP (fun x => s.alive (host.clock s.tape.reads) x.2) <
          cfg.maximum)) := by
  have hi := tableInv_of_run h
  refine ⟨?_, hi.triples, hi.bounded, ?_⟩
  · intro x hx
    obtain ⟨e, he, hid⟩ := hi.place x.1 x.2 (AList.mem_lookup_iff.mpr hx)
    obtain ⟨hc, ha⟩ := hi.roles _ _ he
    have hd := cfg.roles.2.2
    exact ⟨e, he, hid, hc, hd _ hc, ha, fun hm => hd _ hm ha⟩
  · intro identity message fields controller session attestor peer hc hp hses hatt hmem hpeer hfree
    have htaken : (s.prune (host.clock s.tape.reads)).taken controller session peer = false := by
      rw [taken_false]
      intro x hx e he
      obtain ⟨hx, ha⟩ := List.mem_filter.mp hx
      exact hfree x hx ha e he
    have hdisp : s.dispatch host cfg identity message =
        s.newAdmission host cfg controller attestor session peer := by
      simp only [Registry.dispatch, hp, hc, Operation.byController, if_true,
        Registry.dispatchController, Registry.register, hses, hatt, hpeer, hmem]
    rw [hdisp, newAdmission_registered htaken (hi.draw_fresh hf _), List.countP_eq_length_filter]
    rfl

end

theorem countingHost_fresh {n : ℕ} (h : n ≤ 256 ^ 16) : countingHost.FreshTokens n := by
  intro i hi j hj he
  have ht := String.ofList_injective (congrArg HexStr.text he)
  exact HexText.bigEndian_inj (hi.trans_le h) (hj.trans_le h) (HexText.toHex_inj ht)

def sampleConfig : Config where
  controllers := [countingHost.tokenHex 1 32]
  attestors := AList.singleton (countingHost.tokenHex 2 32) ⟨none, none, countingHost.tokenHex 3 32⟩
  maximum := 1
  binding_ms := 300000
  challenge_ms := 10000
  lease_ms := 30000
  roles := by decide +kernel
  limits := by decide

def sampleRequest (operation : String) (fields : Dict) : Json :=
  .obj ([("protocol_version", .str admissionProtocol), ("operation", .str operation)] ++ fields)

def sampleRegister (peer : Int) : Action :=
  .dispatch (countingHost.tokenHex 1 32).text (sampleRequest "register"
    [("game_session_id", .str (countingHost.tokenHex 4 16).text), ("peer_id", .int peer),
      ("attestor", .str (countingHost.tokenHex 2 32).text)])

def sampleRun (actions : List Action) : Option (List Event × Registry) :=
  Runs.exec (fun s => Registry.next countingHost sampleConfig s) (Registry.start countingHost) actions

theorem registry_table_invariant_sample : ∃ τ s,
    RegistryRun countingHost sampleConfig τ s ∧ s.entries.entries.length = 1 ∧
    countingHost.FreshTokens (s.tape.draws + 1) ∧ s.entries.entries.length ≤ sampleConfig.maximum := by
  have hrun : (sampleRun [sampleRegister 2, sampleRegister 3]).map
      (fun r => (r.2.entries.entries.length, r.2.tape.draws)) = some (1, 3) := by decide +kernel
  obtain ⟨⟨τ, s⟩, he, hd⟩ := Option.map_eq_some_iff.mp hrun
  obtain ⟨hlen, hdraws⟩ := Prod.mk.inj hd
  have hn : s.tape.draws = 3 := by simpa using hdraws
  have hf : countingHost.FreshTokens (s.tape.draws + 1) := countingHost_fresh (by omega)
  have hh := registry_table_invariant (Runs.exec_steps he) hf
  exact ⟨τ, s, Runs.exec_steps he, hlen, hf, hh.2.2.1⟩

end ArenaLab
