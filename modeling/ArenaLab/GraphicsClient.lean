import ArenaLab.GraphicsRounds

/-! The graphical client at its own steps: what it reads next is the answer to its command,
and the renderer refuses nothing of what it is passed. -/

namespace ArenaLab

open Framing

section

variable {made : List UInt8 → GameWorld → GameWorld → Prop} {id a b : Bytes 16}
  {w₀ u : GameWorld} {w : GraphicsWorld} {s : Service} {t : ℕ} {slot : Fin 2} {g g' : Graphics}
  {up up' down down' p packet record rest data : List UInt8} {action : String}
  {o : Option Phase} {left k : ℕ} {job : Job}

/-! The renderer. -/

theorem display_snoc (ps : List (List UInt8)) (p : List UInt8) :
    display (ps ++ [p]) = (display ps).bind (fun v => viewerMessage v p) := by
  simp [display, List.foldlM_append]

theorem message_waiting (v : ViewerState) :
    viewerMessage v (errorFrame 7) = some { v with message := "Waiting for both players" } := rfl

/-- A record that is not older is shown. -/
theorem message_record {v : ViewerState} {next : GameView} (hv : gameViewDecode record = some next)
    (hfirst : v.ready = true → v.view.continues next = true) :
    ∃ v', viewerMessage v record = some v' ∧ v'.ready = true ∧ v'.view = next := by
  have hlen := gameViewDecode_size hv
  rw [viewerMessage, if_neg (by omega), hv]
  simp only
  rw [if_neg]
  · exact ⟨_, rfl, rfl, rfl⟩
  · intro hbad
    rw [Bool.and_eq_true, Bool.not_eq_true'] at hbad
    rw [hfirst hbad.1] at hbad
    cases hbad.2

/-! The pipes at a step of the client. -/

theorem Ahead.map (h : Ahead g up down o) (hnone : ¬(g.phase = .connecting ∧ up = [] ∧ down = []))
    (hround : ∀ left, Round g up down left → Round g' up' down' left)
    (hserving : ∀ job, Serving g up down job → Serving g' up' down' job) : Ahead g' up' down' o := by
  cases o with
  | none => exact absurd h hnone
  | some q =>
    cases q with
    | sending data next =>
      cases next with
      | stop => exact trivial
      | loop left => exact hround left h
    | reading left => exact hround left h
    | acquiring job => exact hserving job h
    | ready job => exact hserving job h
    | exchanging job command => exact hserving job h
    | closing => exact trivial
    | ended => exact trivial

theorem readFrame_some (h : readFrame down = some (p, rest)) : down ≠ [] := by
  rintro rfl
  cases h

theorem readFrame_one (hsize : 0 < p.length ∧ p.length ≤ 256) (h : readFrame (encode p) = some (packet, rest)) :
    rest = [] := by
  rw [← List.append_nil (encode p), readFrame_encode hsize.1 hsize.2] at h
  exact (Prod.mk.inj (Option.some.inj h)).2.symm

theorem Ahead.hello (h : Ahead g up down o) (hphase : g.phase = .connecting) (hread : readFrame down = some (p, rest))
    (hidle : g'.phase = .idle) (hzero : g'.sequence = 0) : Ahead g' up rest o := by
  refine h.map (fun hn => readFrame_some hread hn.2.2) ?_ ?_
  · intro left hround
    cases hround with
    | greeted _ hup hdown hsize =>
      obtain rfl := readFrame_one hsize (hdown ▸ hread)
      exact .idle hidle (by omega) hup rfl
    | idle hp | asked hp | answered hp =>
      rw [hphase] at hp
      cases hp
  · intro job hserving
    cases hserving with
    | first _ _ _ hdown => exact absurd hdown (readFrame_some hread)
    | round _ hp =>
      rw [hphase] at hp
      cases hp
    | close => exact .close

theorem Ahead.answer (h : Ahead g up down o) (hphase : g.phase = .waiting action)
    (hread : readFrame down = some (p, rest)) (hidle : g'.phase = .idle) (hsame : g'.sequence = g.sequence) :
    Ahead g' up rest o := by
  refine h.map (fun hn => readFrame_some hread hn.2.2) ?_ ?_
  · intro left hround
    cases hround with
    | greeted hp | idle hp =>
      rw [hphase] at hp
      cases hp
    | asked _ _ _ _ _ hdown => exact absurd hdown (readFrame_some hread)
    | answered _ hcount hup hdown hsize =>
      obtain rfl := readFrame_one hsize (hdown ▸ hread)
      exact .idle hidle (by omega) hup rfl
  · intro job hserving
    cases hserving with
    | first _ hp =>
      rw [hphase] at hp
      cases hp
    | round _ _ _ _ _ _ hdown => exact absurd hdown (readFrame_some hread)
    | close => exact .close

theorem Ahead.act (h : Ahead g up down o) (hphase : g.phase = .idle) (hwaiting : g'.phase = .waiting action)
    (hnext : g'.sequence = g.sequence + 1) (hmax : g'.sequence ≤ 256)
    (hdata : gameCommand g'.hello g'.sequence action = .ok data) : Ahead g' (up ++ encode data) down o := by
  refine h.map (fun hn => by rw [hphase] at hn; cases hn.1) ?_ ?_
  · intro left hround
    cases hround with
    | greeted hp | asked hp | answered hp =>
      rw [hphase] at hp
      cases hp
    | idle _ hcount hup hdown =>
      obtain ⟨left, rfl⟩ : ∃ k, left = k + 1 := ⟨left - 1, by omega⟩
      exact .asked hwaiting hdata (by omega) (by omega) (by rw [hup, List.nil_append]) hdown
  · intro job hserving
    cases hserving with
    | first _ hp | round _ hp =>
      rw [hphase] at hp
      cases hp
    | close => exact .close

theorem Fit.idle_of (hf : Fit made w₀ s t slot g down) (hphase : g.phase = .idle) : down = [] ∨ g.sequence = 256 := by
  cases hf with
  | nothing => exact .inl rfl
  | limit _ hlast => exact .inr hlast
  | refused hp | hello hp | answer hp =>
    rw [hphase] at hp
    cases hp

theorem Fit.connecting_of (hf : Fit made w₀ s t slot g down) (hphase : g.phase = .connecting) (hdown : down ≠ []) :
    (∃ code : UInt8, (code = 1 ∨ code = 2 ∨ code = 3 ∨ code = 4) ∧ down = encode (errorFrame code)) ∨
      ∃ u slot' status, s.Plays t slot' ∧ Reached w₀ u ∧ u.tick ≤ s.world.tick ∧
        down = encode (reply u slot' 0 status) := by
  cases hf with
  | nothing => exact absurd rfl hdown
  | refused _ hcode => exact .inl ⟨_, hcode, rfl⟩
  | hello _ hplays hu htick => exact .inr ⟨_, _, _, hplays, hu, htick, rfl⟩
  | limit hp | answer hp =>
    rw [hphase] at hp
    cases hp

theorem pyState_refused {code : UInt8} (hcode : code = 1 ∨ code = 2 ∨ code = 3 ∨ code = 4) :
    ∃ e, gameErrors code.toNat = some e ∧ pyState (errorFrame code) = .error e := by
  rcases hcode with rfl | rfl | rfl | rfl <;> exact ⟨_, rfl, rfl⟩

/-- The first packet is refused or starts the session of a slot. -/
theorem Open.hello (h₀ : gameInit id a b = some w₀) (ho : Open made w₀ t slot w) (hphase : w.client.phase = .connecting)
    (hread : readFrame w.down = some (packet, rest)) : ∃ slot, Displays made w₀ slot (w.client.greet packet) ∧
      ((∃ e, (w.client.greet packet).phase = .ended e) ∨
        Open made w₀ t slot { w with client := w.client.greet packet, down := rest }) := by
  have hboot : w.client = .boot := ho.stage.resolve_right (fun hhail => hhail.phase hphase)
  rcases ho.fit.connecting_of hphase (readFrame_some hread) with ⟨code, hcode, hdown⟩ |
    ⟨u, slot', status, hplays, hu, htick, hdown⟩
  · obtain ⟨e, hname, hstate⟩ := pyState_refused hcode
    have hsize : 0 < (errorFrame code).length ∧ (errorFrame code).length ≤ 256 := by simp [errorFrame]
    rw [hdown, ← List.append_nil (encode _), readFrame_encode hsize.1 hsize.2] at hread
    obtain ⟨rfl, rfl⟩ := Prod.mk.inj (Option.some.inj hread)
    have hraise : w.client.greet (errorFrame code) = Graphics.boot.raise e := by
      rw [hboot, Graphics.greet, hstate]
    rw [hraise]
    refine ⟨slot, ⟨fun h => absurd rfl h, by simp [Graphics.raise, Graphics.boot], ?_, ?_,
      [], .nil, fun _ hk => (by cases hk), .nil⟩, .inl ⟨_, rfl⟩⟩
    · intro ps hps
      obtain rfl : ps = [] := List.prefix_nil.mp hps
      exact ⟨viewerStart, rfl, fun h => absurd rfl h⟩
    · intro e' he'
      obtain rfl := Option.some.inj (GraphicsPhase.ended.inj he')
      refine .inr (.inr ⟨rfl, code.toNat, ?_, hname⟩)
      rcases hcode with rfl | rfl | rfl | rfl <;> simp
  · have hsize : 0 < (reply u slot' 0 status).length ∧ (reply u slot' 0 status).length ≤ 256 := by
      rw [length_reply]
      omega
    rw [hdown, ← List.append_nil (encode _), readFrame_encode hsize.1 hsize.2] at hread
    obtain ⟨rfl, rfl⟩ := Prod.mk.inj (Option.some.inj hread)
    obtain ⟨hstate, -, v, hv, hcommon, hm, hs, hslot, hvt, hseq⟩ := record_read h₀ hu slot' 0 status
    obtain ⟨v', hmessage, hready, hview⟩ := message_record (v := viewerStart) hv (fun h => by cases h)
    have hshow : display [reply u slot' 0 status] = some v' := by
      show List.foldlM viewerMessage viewerStart [_] = _
      rw [List.foldlM_cons, hmessage]
      rfl
    have hgreet : w.client.greet (reply u slot' 0 status) = { Graphics.boot with
        phase := .idle
        hello := reply u slot' 0 status
        history := Graphics.boot.history.insert 0 (u.shown slot' 0 status)
        forwarded := [reply u slot' 0 status] } := by
      rw [hboot, Graphics.greet, hstate]
    rw [hgreet]
    have hall : ∀ ps, ps <+: [reply u slot' 0 status] → ps = [] ∨ ps = [reply u slot' 0 status] := by
      intro ps hps
      rcases List.prefix_cons_iff.mp hps with h | ⟨l, rfl, hl⟩
      · exact .inl h
      · rw [List.prefix_nil.mp hl]
        exact .inr rfl
    refine ⟨slot', ⟨fun _ => ?_, ?_, ?_, fun e he => (by cases he), [], .nil,
      fun _ hk => (by cases hk), .nil⟩, .inr ⟨?_, ?_, .inr ?_⟩⟩
    · rw [(reply_head slot' 0 status).2.2.1, (slot_byte slot').2]
    · intro p hp
      rw [List.mem_singleton.mp hp, length_reply]
      rfl
    · intro ps hps
      rcases hall ps hps with rfl | rfl
      · exact ⟨viewerStart, rfl, fun h => absurd rfl h⟩
      · refine ⟨v', hshow, fun _ => ⟨hready, ?_⟩⟩
        rw [hview, hseq, hcommon]
        exact AList.lookup_insert _
    · exact ho.ahead.hello hphase (p := reply u slot' 0 status) (by
        rw [hdown, ← List.append_nil (encode _), readFrame_encode hsize.1 hsize.2]) rfl rfl
    · exact .nothing
    · refine ⟨⟨u, status, hu, rfl⟩, fun h => (by cases h), Nat.zero_le _, fun _ h => (by cases h), hplays, ?_, v',
        hshow, hready, ?_⟩
      · intro ps v'' hps hne hd
        rcases hall ps hps with rfl | rfl
        · exact absurd rfl hne
        · rw [hshow] at hd
          obtain rfl := Option.some.inj hd
          rw [hview, hseq]
          exact Nat.zero_lt_one
      · rw [hview]
        exact ⟨hm, hs, hslot, hvt ▸ htick⟩

/-! The rounds of the client. -/

theorem Displays.turned (hd : Displays made w₀ slot g) {q : GraphicsPhase} {n : ℕ}
    (herrors : ∀ e, q = .ended (some e) → GraphicsError g e)
    (hlater : g.unanswered ≤ { g with phase := q, sequence := n : Graphics }.unanswered) :
    Displays made w₀ slot { g with phase := q, sequence := n } := by
  obtain ⟨ks, hks, hbound, hall⟩ := hd.decisions
  exact ⟨hd.seat, hd.lengths, hd.views, herrors, ks, hks,
    fun k hk => ⟨(hbound k hk).1, lt_of_lt_of_le (hbound k hk).2 hlater⟩, hall⟩

theorem unanswered_le (g : Graphics) : g.unanswered ≤ g.sequence + 1 := by
  rw [Graphics.unanswered]
  split <;> omega

/-- Every key that the renderer writes is an action of the game. -/
theorem action_direction {key : Option UInt8}
    (h : key.elim (some "wait") (fun b => List.lookup b graphicsActions) = some action) :
    ∃ d, directions.lookup action = some d := by
  have hall : ∀ b action, (b, action) ∈ graphicsActions → (directions.lookup action).isSome := by
    intro b action hmem
    simp only [graphicsActions, List.mem_cons, Prod.mk.injEq, List.not_mem_nil, or_false] at hmem
    rcases hmem with ⟨-, rfl⟩ | ⟨-, rfl⟩ | ⟨-, rfl⟩ | ⟨-, rfl⟩ | ⟨-, rfl⟩ | ⟨-, rfl⟩ <;> rfl
  cases key with
  | none =>
    obtain rfl := Option.some.inj h
    exact ⟨_, rfl⟩
  | some b =>
    obtain ⟨l₁, l₂, hl, -⟩ := List.lookup_eq_some_iff.mp h
    exact Option.isSome_iff_exists.mp (hall b action (by rw [hl]; simp))

/-- The client sends a command, or a key or the number of commands has ended it. -/
theorem Open.act (h₀ : gameInit id a b = some w₀) (hd : Displays made w₀ slot w.client) (ho : Open made w₀ t slot w)
    (hphase : w.client.phase = .idle) (key : Option UInt8) : Displays made w₀ slot (w.client.act key).1 ∧
      ((∃ e, (w.client.act key).1.phase = .ended e) ∨ Open made w₀ t slot { w with
        client := (w.client.act key).1
        up := w.up ++ stream (w.client.act key).2 }) := by
  have hhail : Hailed w₀ w.service t slot w.client := by
    rcases ho.stage with hboot | hhail
    · rw [hboot] at hphase
      cases hphase
    · exact hhail
  rw [Graphics.act]
  cases hkey : key.elim (some "wait") (fun b => List.lookup b graphicsActions) with
  | none =>
    refine ⟨hd.turned (fun e he => ?_) (unanswered_le _), .inl ⟨_, rfl⟩⟩
    obtain rfl := Option.some.inj (GraphicsPhase.ended.inj he)
    exact .inr (.inl rfl)
  | some action =>
    simp only
    by_cases hlimit : 256 < w.client.sequence + 1
    · rw [if_pos hlimit]
      refine ⟨hd.turned (fun e he => ?_) ((unanswered_le _).trans (Nat.le_succ _)), .inl ⟨_, rfl⟩⟩
      obtain rfl := Option.some.inj (GraphicsPhase.ended.inj he)
      exact .inl rfl
    · rw [if_neg hlimit]
      obtain ⟨u, status, hu, hhello⟩ := hhail.hello
      obtain ⟨hstate, -, v, hv, -⟩ := record_read h₀ hu slot 0 status
      rw [← hhello] at hstate hv
      obtain ⟨⟨kind, x, y⟩, hdirection⟩ := action_direction hkey
      have hdata := gameCommand_record hstate hv hdirection (show 0 < ((w.client.sequence + 1 : ℕ) : ℤ) by omega)
        (show ((w.client.sequence + 1 : ℕ) : ℤ) < 0xffffffff by omega)
      simp only [hdata]
      refine ⟨hd.turned (fun e he => by cases he) (unanswered_le _), .inr ⟨?_, ?_, .inr ?_⟩⟩
      · show Ahead _ (w.up ++ stream [_]) w.down _
        rw [stream, List.map_singleton, List.flatten_singleton]
        exact ho.ahead.act hphase rfl rfl (not_lt.mp hlimit) hdata
      · rcases ho.fit.idle_of hphase with hdown | hlast
        · show Fit _ _ _ _ _ _ w.down
          rw [hdown]
          exact .nothing
        · omega
      · have hsame : w.client.unanswered = w.client.sequence + 1 := by
          rw [Graphics.unanswered, hphase]
        refine ⟨hhail.hello, fun h => (by cases h), not_lt.mp hlimit, fun _ _ => Nat.succ_pos _, hhail.plays, ?_,
          hhail.latest⟩
        intro ps v' hps hne hv'
        exact hsame ▸ hhail.fresh ps v' hps hne hv'

/-- The client `g'` has taken what the renderer then shows. -/
structure Taken (made : List UInt8 → GameWorld → GameWorld → Prop) (w₀ : GameWorld) (s : Service) (slot : Fin 2)
    (g g' : Graphics) (packet : List UInt8) : Prop where
  displays : Displays made w₀ slot g'
  idle : g'.phase = .idle
  hello : g'.hello = g.hello
  sequence : g'.sequence = g.sequence
  forwarded : g'.forwarded = g.forwarded
  size : viewerLengths packet.length = true
  shown : ∃ v, display (g.forwarded ++ [packet]) = some v ∧ v.ready = true ∧ v.view.match = w₀.match ∧
    v.view.session = (w₀.players slot).session ∧ v.view.slot = UInt8.ofNat slot ∧ v.view.tick ≤ s.world.tick ∧
    v.view.sequence.toNat ≤ g.sequence ∧ g'.history.lookup v.view.sequence.toNat = some v.view.common

theorem Hailed.nonempty (hh : Hailed w₀ s t slot g) : g.forwarded ≠ [] := by
  obtain ⟨v, hv, hready, -⟩ := hh.latest
  intro hnil
  rw [hnil] at hv
  obtain rfl := Option.some.inj hv
  cases hready

theorem waiting_taken (hd : Displays made w₀ slot g) (hh : Hailed w₀ s t slot g) (hphase : g.phase = .waiting action) :
    Taken made w₀ s slot g { g with phase := .idle } (errorFrame 7) := by
  obtain ⟨v, hv, hready, hm, hs, hslot, htick⟩ := hh.latest
  obtain ⟨v', hv', hshown⟩ := hd.views g.forwarded List.prefix_rfl
  rw [hv] at hv'
  obtain rfl := Option.some.inj hv'
  have hless := hh.fresh _ v List.prefix_rfl hh.nonempty hv
  rw [Graphics.unanswered, hphase] at hless
  refine ⟨hd.turned (fun e he => by cases he) (unanswered_le g), rfl, rfl, rfl, rfl, rfl,
    { v with message := "Waiting for both players" }, ?_, hready, hm, hs, hslot, htick, le_of_lt hless,
    (hshown hh.nonempty).2⟩
  rw [display_snoc, hv, Option.bind_some, message_waiting]

/-- What the client keeps of a verdict. -/
def Graphics.judged (g : Graphics) (action : String) (value : GameState) : Graphics :=
  { g with
    phase := .idle
    history := g.history.insert g.sequence value
    decisions := if action = "wait" then g.decisions else g.decisions ++ [(action, value.reason, value.tick)] }

theorem verdict_taken (h₀ : gameInit id a b = some w₀) (hmade : ∀ command w u, made command w u → Reached w₀ w)
    (hd : Displays made w₀ slot g) (hh : Hailed w₀ s t slot g)
    (hphase : g.phase = .waiting action) (hverdict : VerdictOn made w₀ slot g.sequence action u record)
    (htick : u.tick ≤ s.world.tick) (hlater : ∀ v, display g.forwarded = some v → v.view.tick ≤ u.tick) :
    ∃ value, pyState record = .ok value ∧ stateIds record = stateIds g.hello ∧
      value.player = (g.hello.getD 6 0).toNat ∧ value.sequence = g.sequence ∧
      Taken made w₀ s slot g (g.judged action value) record := by
  obtain ⟨status, hrecord⟩ := hverdict.record_eq
  obtain ⟨hstate, hids, v', hv', hcommon, hm', hs', hslot', htick', hseq'⟩ :=
    record_read h₀ (hverdict.reached hmade) slot (UInt32.ofNat g.sequence) status
  rw [← hrecord] at hstate hids hv'
  obtain ⟨w, status', hw, hhello⟩ := hh.hello
  obtain ⟨-, hids', -⟩ := record_read h₀ hw slot 0 status'
  have hk : (UInt32.ofNat g.sequence).toNat = g.sequence :=
    UInt32.toNat_ofNat_of_lt' (show g.sequence < 2 ^ 32 by have := hh.count; omega)
  obtain ⟨v, hv, hready, hm, hs, hslot, -⟩ := hh.latest
  have hless : ∀ ps v, ps <+: g.forwarded → ps ≠ [] → display ps = some v → v.view.sequence.toNat < g.sequence := by
    intro ps v hps hne hv
    have := hh.fresh ps v hps hne hv
    rwa [Graphics.unanswered, hphase] at this
  have hcontinues : v.view.continues v' = true := by
    have hle : v.view.sequence ≤ UInt32.ofNat g.sequence := by
      rw [UInt32.le_iff_toNat_le, hk]
      exact le_of_lt (hless _ v List.prefix_rfl hh.nonempty hv)
    simp only [GameView.continues, hm, hm', hs, hs', hslot, hslot', htick', hseq', decide_true, Bool.true_and,
      Bool.and_eq_true, decide_eq_true_eq]
    exact ⟨hlater v hv, hle⟩
  obtain ⟨v₁, hmessage, hready₁, hview⟩ := message_record hv' (fun _ => hcontinues)
  refine ⟨_, hstate, by rw [hids, hhello, hids'], ?_, hk, ?_, rfl, rfl, rfl, rfl, ?_, v₁, ?_, hready₁, ?_⟩
  · rw [hhello, (reply_head slot 0 status').2.2.1, (slot_byte slot).2]
    rfl
  · refine ⟨hd.seat, hd.lengths, ?_, fun e he => (by cases he), ?_⟩
    · intro ps hps
      obtain ⟨v₂, hv₂, hshown⟩ := hd.views ps hps
      refine ⟨v₂, hv₂, fun hne => ⟨(hshown hne).1, ?_⟩⟩
      have hother := hless ps v₂ hps hne hv₂
      exact (AList.lookup_insert_ne (by omega)).trans (hshown hne).2
    · obtain ⟨ks, hks, hbound, hall⟩ := hd.decisions
      have hunder : ∀ k ∈ ks, 0 < k ∧ k < g.sequence := by
        intro k hk
        have := hbound k hk
        rwa [Graphics.unanswered, hphase] at this
      simp only [Graphics.judged]
      split
      · exact ⟨ks, hks, fun k hk => ⟨(hunder k hk).1, Nat.lt_succ_of_lt (hunder k hk).2⟩, hall⟩
      · refine ⟨ks ++ [g.sequence], ?_, ?_, List.rel_append hall (.cons ⟨u, record, hverdict, _, hstate, rfl⟩ .nil)⟩
        · refine List.pairwise_append.mpr ⟨hks, List.pairwise_singleton _ _, ?_⟩
          intro k hk n hn
          rw [List.mem_singleton.mp hn]
          exact (hunder k hk).2
        · intro k hk
          rcases List.mem_append.mp hk with hk | hk
          · exact ⟨(hunder k hk).1, Nat.lt_succ_of_lt (hunder k hk).2⟩
          · rw [List.mem_singleton.mp hk]
            exact ⟨hh.turn action hphase, Nat.lt_succ_self _⟩
  · rw [hrecord, length_reply]
    rfl
  · rw [display_snoc, hv, Option.bind_some, hmessage]
  · rw [hview, hseq', hk, hcommon]
    exact ⟨hm', hs', hslot', htick' ▸ htick, Nat.le_refl _, AList.lookup_insert _⟩

theorem answer_wait (g : Graphics) (action : String) (gone : Bool) :
    g.answer action (errorFrame 7) gone = { g with phase := .idle : Graphics }.forward (errorFrame 7) gone := by
  rw [Graphics.answer, if_pos rfl]
  rfl

theorem answer_verdict {value : GameState} (hne : record ≠ errorFrame 7) (hstate : pyState record = .ok value)
    (hids : stateIds record = stateIds g.hello) (hplayer : value.player = (g.hello.getD 6 0).toNat)
    (hseq : value.sequence = g.sequence) (action : String) (gone : Bool) :
    g.answer action record gone = (g.judged action value).forward record gone := by
  rw [Graphics.answer, if_neg hne, hstate]
  simp only [hids, hplayer, hseq, ne_eq, not_true_eq_false, or_self, if_false]
  rfl

/-- What was taken is handed on, unless the renderer has gone. -/
theorem Open.forward (ho : Open made w₀ t slot w) (hphase : w.client.phase = .waiting action)
    (hread : readFrame w.down = some (packet, rest)) (hrest : rest = [] ∨ w.client.sequence = 256 ∧
      rest = encode (errorFrame 6)) (ht : Taken made w₀ w.service slot w.client g packet) (gone : Bool) :
    Displays made w₀ slot (g.forward packet gone) ∧ ((∃ e, (g.forward packet gone).phase = .ended e) ∨
      Open made w₀ t slot { w with client := g.forward packet gone, down := rest }) := by
  have hhail := ho.hailed hphase
  obtain ⟨v, hv, hready, hm, hs, hslot, htick, hle, hlook⟩ := ht.shown
  cases gone with
  | true =>
    refine ⟨ht.displays.turned (fun e he => by cases he) ?_, .inl ⟨_, rfl⟩⟩
    exact unanswered_le g
  | false =>
    have hall : ∀ ps, ps <+: g.forwarded ++ [packet] → ps = g.forwarded ++ [packet] ∨ ps <+: g.forwarded :=
      fun ps hps => List.prefix_concat_iff.mp hps
    have hne : g.forwarded ++ [packet] ≠ [] := by simp
    rw [Graphics.forward, if_neg (Bool.false_ne_true)]
    have hsame : g.unanswered = g.sequence + 1 := by rw [Graphics.unanswered, ht.idle]
    have hdecisions := ht.displays.decisions
    rw [hsame] at hdecisions
    refine ⟨⟨fun _ => ht.displays.seat (ht.forwarded ▸ hhail.nonempty), ?_, ?_, fun e he => (by cases he),
      hdecisions⟩, .inr ⟨?_, ?_, .inr ?_⟩⟩
    · intro p hp
      rcases List.mem_append.mp hp with hp | hp
      · exact ht.displays.lengths p hp
      · rw [List.mem_singleton.mp hp]
        exact ht.size
    · intro ps hps
      rcases hall ps hps with rfl | hps
      · rw [ht.forwarded]
        exact ⟨v, hv, fun _ => ⟨hready, hlook⟩⟩
      · exact ht.displays.views ps hps
    · exact ho.ahead.answer hphase hread rfl ht.sequence
    · rcases hrest with rfl | ⟨hlast, rfl⟩
      · exact .nothing
      · exact .limit rfl (ht.sequence.trans hlast)
    · obtain ⟨u, status, hu, hhello⟩ := hhail.hello
      refine ⟨⟨u, status, hu, ht.hello.trans hhello⟩, fun h => (by cases h), ?_, fun _ h => (by cases h), hhail.plays,
        ?_, v, ?_, hready, hm, hs, hslot, htick⟩
      · show g.sequence ≤ 256
        rw [ht.sequence]
        exact hhail.count
      · intro ps v' hps hnil hv'
        show v'.view.sequence.toNat < g.sequence + 1
        rw [ht.sequence]
        rcases hall ps hps with rfl | hps
        · rw [ht.forwarded, hv] at hv'
          obtain rfl := Option.some.inj hv'
          omega
        · rw [ht.forwarded] at hps
          have hless := hhail.fresh ps v' hps hnil hv'
          rw [Graphics.unanswered, hphase] at hless
          simp only at hless
          omega
      · show display (g.forwarded ++ [packet]) = some v
        rw [ht.forwarded]
        exact hv

theorem Open.answer (h₀ : gameInit id a b = some w₀) (hmade : ∀ command w u, made command w u → Reached w₀ w)
    (hd : Displays made w₀ slot w.client) (ho : Open made w₀ t slot w)
    (hphase : w.client.phase = .waiting action) (hread : readFrame w.down = some (packet, rest)) (gone : Bool) :
    Displays made w₀ slot (w.client.answer action packet gone) ∧
      ((∃ e, (w.client.answer action packet gone).phase = .ended e) ∨
        Open made w₀ t slot { w with client := w.client.answer action packet gone, down := rest }) := by
  obtain ⟨p, extra, hdown, hp, hextra⟩ := ho.fit.waiting_of hphase (readFrame_some hread)
  have hhail := ho.hailed hphase
  have hread' := hread
  rw [hdown, readFrame_encode (answer_size hp).1 (answer_size hp).2] at hread'
  obtain ⟨rfl, rfl⟩ := Prod.mk.inj (Option.some.inj hread')
  rcases hp with rfl | ⟨u, hverdict, htick, hlater⟩
  · rw [answer_wait]
    exact ho.forward hphase hread hextra (waiting_taken hd hhail hphase) gone
  · obtain ⟨value, hstate, hids, hplayer, hseq, ht⟩ := verdict_taken h₀ hmade hd hhail hphase hverdict htick hlater
    have hne : p ≠ errorFrame 7 := by
      obtain ⟨status, rfl⟩ := hverdict.record_eq
      exact errorFrame_ne_reply 7 u slot _ status
    rw [answer_verdict hne hstate hids hplayer hseq]
    exact ho.forward hphase hread hextra ht gone

end

end ArenaLab
