import ArenaLab.GraphicsClient

/-! A client of the match service always gets the answer to its own command, whatever the
others do and whatever fails, and the renderer that it feeds refuses nothing. -/

namespace ArenaLab

open Framing

section

variable {made : List UInt8 → GameWorld → GameWorld → Prop} {config : ServiceConfig} {id a b : Bytes 16}
  {w₀ u : GameWorld} {w : GraphicsWorld} {s : Service} {t k : ℕ} {slot : Fin 2} {g : Graphics}
  {down p record rest : List UInt8} {action : String}

theorem graphicsInv_boot (made : List UInt8 → GameWorld → GameWorld → Prop) (config : ServiceConfig) (w₀ : GameWorld)
    (t : ℕ) : GraphicsInv made config w₀ t (.boot w₀) := by
  refine ⟨serviceInv_boot config w₀, synced_boot made w₀, 0, ⟨?_, ?_, ?_, ?_, ?_⟩,
    .inr ⟨⟨rfl, rfl, rfl⟩, .nothing, .inl rfl⟩⟩
  · exact fun h => absurd rfl h
  · exact fun p hp => by cases hp
  · intro ps hps
    obtain rfl : ps = [] := List.prefix_nil.mp hps
    exact ⟨viewerStart, rfl, fun h => absurd rfl h⟩
  · exact fun e he => by cases he
  · exact ⟨[], .nil, fun k hk => (by cases hk), .nil⟩

/-- A step of the service from `w` to `w'` at which the worker answers was made. -/
def Served (made : List UInt8 → GameWorld → GameWorld → Prop) (config : ServiceConfig) (w w' : GraphicsWorld)
    (x : GraphicsAction) : Prop :=
  ∀ y command record, x = .service y → serviceNext config w.service y = some (.answered command record, w'.service) →
    made command w.service.world w'.service.world

theorem GraphicsInv.step {w' : GraphicsWorld} {y : GraphicsAction} (h₀ : gameInit id a b = some w₀)
    (hmade : ∀ command w u, made command w u → Reached w₀ w) (h : GraphicsInv made config w₀ t w)
    (hn : graphicsNext config t w y = some w') (hserved : Served made config w w' y) :
    GraphicsInv made config w₀ t w' := by
  obtain ⟨slot, hd, hclient⟩ := h.client
  have hopen : (∀ e, w.client.phase ≠ .ended e) → Open made w₀ t slot w := by
    intro hne
    rcases hclient with ⟨e, he⟩ | ho
    · exact absurd he (hne e)
    · exact ho
  cases y with
  | service z =>
    simp only [graphicsNext] at hn
    split at hn
    · rename_i up' e s' hl hz
      obtain rfl := Option.some.inj hn
      refine ⟨h.service.step ⟨z, hz⟩, synced_step h.service h.synced ⟨z, hz⟩ ?_, slot, hd, ?_⟩
      · rintro command record rfl
        exact hserved z command record rfl hz
      · exact hclient.imp_right (fun ho => ho.service h₀ h.service h.synced hz hl)
    · cases hn
  | hello =>
    simp only [graphicsNext] at hn
    split at hn
    · rename_i packet down hphase hread
      obtain rfl := Option.some.inj hn
      exact ⟨h.service, h.synced, (hopen (by rw [hphase]; simp)).hello h₀ hphase hread⟩
    · cases hn
  | act key =>
    simp only [graphicsNext] at hn
    split at hn
    · rename_i hphase
      obtain rfl := Option.some.inj hn
      exact ⟨h.service, h.synced, slot, (hopen (by rw [hphase]; simp)).act h₀ hd hphase key⟩
    · cases hn
  | answer gone =>
    simp only [graphicsNext] at hn
    split at hn
    · rename_i action packet down hphase hread
      obtain rfl := Option.some.inj hn
      exact ⟨h.service, h.synced, slot, (hopen (by rw [hphase]; simp)).answer h₀ hmade hd hphase hread gone⟩
    · cases hn
  | stop =>
    simp only [graphicsNext] at hn
    split at hn
    · cases hn
    · obtain rfl := Option.some.inj hn
      exact ⟨h.service, h.synced, slot, hd.turned (fun e he => by cases he) (unanswered_le _), .inl ⟨none, rfl⟩⟩

/-- In the run the worker answers the command in world `u` and leaves world `u'`. -/
def WorkerAnswered (config : ServiceConfig) (t : ℕ) (w₀ : GameWorld) (τ : List GraphicsAction) (command : List UInt8)
    (u u' : GameWorld) : Prop :=
  ∃ τ₁ τ₂ y w w' record, τ = τ₁ ++ .service y :: τ₂ ∧ Runs.Steps (GraphicsStep config t) (.boot w₀) τ₁ w ∧
    graphicsNext config t w (.service y) = some w' ∧
    serviceNext config w.service y = some (.answered command record, w'.service) ∧ w.service.world = u ∧
    w'.service.world = u'

theorem WorkerAnswered.snoc {τ : List GraphicsAction} {command : List UInt8} {u u' : GameWorld}
    (h : WorkerAnswered config t w₀ τ command u u') (x : GraphicsAction) :
    WorkerAnswered config t w₀ (τ ++ [x]) command u u' := by
  obtain ⟨τ₁, τ₂, y, w, w', record, rfl, hrest⟩ := h
  exact ⟨τ₁, τ₂ ++ [x], y, w, w', record, by simp, hrest⟩

theorem graphicsInv_of_run {τ : List GraphicsAction} (h₀ : gameInit id a b = some w₀)
    (h : Runs.Steps (GraphicsStep config t) (.boot w₀) τ w) :
    GraphicsInv (fun command u u' => Reached w₀ u ∧ WorkerAnswered config t w₀ τ command u u') config w₀ t w := by
  refine h.history (I := fun τ w => GraphicsInv (fun command u u' => Reached w₀ u ∧
    WorkerAnswered config t w₀ τ command u u') config w₀ t w) (graphicsInv_boot _ config w₀ t) ?_
  rintro τ w x w' hrun hi ⟨y, hy⟩
  obtain ⟨w'', hn, he⟩ := Option.map_eq_some_iff.mp hy
  obtain ⟨rfl, rfl⟩ := Prod.mk.inj he
  have hlater : GraphicsInv (fun command u u' => Reached w₀ u ∧
      WorkerAnswered config t w₀ (τ ++ [y]) command u u') config w₀ t w :=
    hi.mono (fun _ _ _ hm => ⟨hm.1, hm.2.snoc y⟩)
  refine hlater.step h₀ (fun _ _ _ hm => hm.1) hn ?_
  rintro z command record rfl hz
  exact ⟨hi.service.world, τ, [], z, w, w'', record, rfl, hrun, hn, hz, rfl, rfl⟩

/-! What the renderer makes of the packets. -/

theorem heard_shown {v v' : ViewerState} {ps : List (List UInt8)} (h : ps.foldlM viewerMessage v = some v') :
    heard v ps = ps := by
  have hall : heard v (ps ++ []) = ps ++ heard v' [] := heard_append h
  rwa [List.append_nil, heard, List.append_nil] at hall

/-- Unless it refuses a message, the renderer shows what it was passed. -/
theorem shown_run {σ : List (Option ViewerRead)} {v : Viewing} (h : Runs.Steps ViewerStep .boot σ v) :
    v.ended ≠ some .message → display (viewerPassed σ) = some v.viewer.toViewerState := by
  refine h.history (I := fun σ v => v.ended ≠ some .message → display (viewerPassed σ) = some v.viewer.toViewerState)
    (fun _ => rfl) ?_
  intro σ v e v' _ hi hs hend
  rcases viewer_cases hs with ⟨rfl, hviewer, hended⟩ | ⟨r, answer, rfl, hlive, hr⟩
  · rw [hended] at hend
    have hpassed : viewerPassed (σ ++ [none]) = viewerPassed σ := by simp [viewerPassed]
    rw [hpassed, hviewer]
    exact hi hend
  · have hbefore := hi (live_ended hlive _)
    have hwant := v.viewer.want_display.1
    obtain ⟨-, -, hrest⟩ := read_cases hr
    rcases hrest with ⟨-, hpassed, hviewer, -⟩ | ⟨-, hcollect⟩
    · rw [viewerPassed_none hpassed, hviewer, hwant]
      exact hbefore
    · simp only [Viewing.collect] at hcollect
      have hfill : (v.viewer.want.fill r.bytes).toViewerState = v.viewer.toViewerState := hwant
      split at hcollect
      · obtain ⟨hpassed, rfl⟩ := Prod.mk.inj hcollect
        rw [viewerPassed_none hpassed]
        exact hfill ▸ hbefore
      · split at hcollect
        · split at hcollect
          · obtain ⟨hpassed, rfl⟩ := Prod.mk.inj hcollect
            rw [viewerPassed_none hpassed]
            exact hfill ▸ hbefore
          · obtain ⟨hpassed, rfl⟩ := Prod.mk.inj hcollect
            rw [viewerPassed_none hpassed]
            exact hfill ▸ hbefore
        · split at hcollect
          · obtain ⟨-, rfl⟩ := Prod.mk.inj hcollect
            exact absurd rfl hend
          · rename_i shown hmessage
            obtain ⟨hpassed, rfl⟩ := Prod.mk.inj hcollect
            rw [viewerPassed_some hpassed, display_snoc, hbefore, Option.bind_some, ← hfill]
            exact hmessage

/-- A renderer that gets the packets refuses none, and what it shows is in the history. -/
theorem Displays.renders (hd : Displays made w₀ slot g) {σ : List (Option ViewerRead)} {v : Viewing}
    (h : Runs.Steps ViewerStep .boot σ v) (hbytes : viewerBytes σ <+: stream g.forwarded) :
    v.ended ≠ some .length ∧ v.ended ≠ some .message ∧
      (v.viewer.ready = true → g.displayed v.viewer.view = .ok v.viewer.view.common) := by
  obtain ⟨hinv, -⟩ := viewer_run h
  obtain ⟨rest, hrest⟩ := hbytes
  have hsmall := small_lengths hd.lengths
  have hpart : frames viewerLengths (viewerBytes σ) <+: g.forwarded := frames_part hsmall hrest
  obtain ⟨last, hlast, -⟩ := hd.views g.forwarded List.prefix_rfl
  have hnone : ¬(v.ended = some .length ∨ v.ended = some .message) := by
    intro hend
    have hall := hinv.refused hend rest
    rw [hrest, ← List.append_nil (stream g.forwarded), frames_stream hsmall,
      frames_incomplete (fun n hn => by cases hn), List.append_nil, heard_shown hlast] at hall
    have hmore := hinv.refused hend (rest ++ stream [errorFrame 7])
    have hvalid : ∀ p ∈ [errorFrame 7], viewerLengths p.length = true := by simp [errorFrame, viewerLengths]
    rw [← List.append_assoc, hrest, frames_stream hsmall, ← List.append_nil (stream [errorFrame 7]),
      frames_stream (small_lengths hvalid), frames_incomplete (fun n hn => by cases hn), List.append_nil,
      heard_append hlast, ← hall] at hmore
    simp only [heard, message_waiting] at hmore
    have hlen := congrArg List.length hmore
    simp at hlen
  obtain ⟨hlength, hmessage⟩ := not_or.mp hnone
  refine ⟨hlength, hmessage, ?_⟩
  intro hready
  obtain ⟨v', hv', hshown⟩ := hd.views _ hpart
  have hexact := hinv.exact
  rw [heard_shown hv'] at hexact
  have hview := shown_run h hmessage
  rw [← hexact, hv'] at hview
  obtain rfl := Option.some.inj hview
  have hne : frames viewerLengths (viewerBytes σ) ≠ [] := by
    intro hnil
    rw [hnil] at hv'
    rw [← Option.some.inj hv'] at hready
    cases hready
  obtain ⟨-, hlook⟩ := hshown hne
  rw [Graphics.displayed, hlook]
  simp only
  rw [if_neg]
  rintro (hbad | hbad)
  · exact hbad rfl
  · exact hbad rfl

/-- What waits for the client begins with a whole frame. -/
theorem Fit.frame (hf : Fit made w₀ s t slot g down) : down = [] ∨ ∃ p rest, readFrame down = some (p, rest) := by
  have hone : ∀ {p : List UInt8} (rest : List UInt8), 0 < p.length ∧ p.length ≤ 256 →
      ∃ p' rest', readFrame (encode p ++ rest) = some (p', rest') :=
    fun rest hsize => ⟨_, rest, readFrame_encode hsize.1 hsize.2 rest⟩
  have herror : ∀ code, 0 < (errorFrame code).length ∧ (errorFrame code).length ≤ 256 := by simp [errorFrame]
  cases hf with
  | nothing => exact .inl rfl
  | @refused code => exact .inr (by simpa using hone [] (herror code))
  | @hello u slot' status =>
    have hsize : 0 < (reply u slot' 0 status).length ∧ (reply u slot' 0 status).length ≤ 256 := by
      rw [length_reply]
      omega
    exact .inr (by simpa using hone [] hsize)
  | limit => exact .inr (by simpa using hone [] (herror 6))
  | @answer action p extra hphase hp => exact .inr (hone extra (answer_size hp))

/-- A client of the service ends by its own key or after its last command, or is refused at
the start; it never reads a broken frame; what it notes is what the game decided on commands of
its own, each in its turn, in the world that the service had at the exchange; and the renderer
refuses none of its packets and shows a state that it has noted. -/
theorem graphics_session {τ : List GraphicsAction} (h₀ : gameInit id a b = some w₀)
    (h : Runs.Steps (GraphicsStep config t) (.boot w₀) τ w) :
    (∀ e, w.client.phase = .ended (some e) → e = "GRAPHICS_SESSION_LIMIT" ∨ e = "RENDERER_ACTION_INVALID" ∨
      w.client.forwarded = [] ∧ ∃ code, (code = 1 ∨ code = 2 ∨ code = 3 ∨ code = 4) ∧ gameErrors code = some e) ∧
    ((∃ e, w.client.phase = .ended e) ∨ w.down = [] ∨ ∃ p rest, readFrame w.down = some (p, rest)) ∧
    (∃ slot : Fin 2, (w.client.forwarded ≠ [] → (w.client.hello.getD 6 0).toNat = slot) ∧
      ∃ ks : List ℕ, ks.Pairwise (· < ·) ∧ (∀ k ∈ ks, 0 < k ∧ k ≤ w.client.sequence) ∧
        List.Forall₂ (fun k d => ∃ w' dir u status, (∃ τ', Runs.Steps GameStep w₀ τ' w') ∧
          WorkerAnswered config t w₀ τ (serviceCommand 1 slot (inputRecord
            ⟨w₀.match, (w₀.players slot).session, UInt32.ofNat k, dir.1, dir.2.1, dir.2.2⟩)) w' u ∧
          directions.lookup d.1 = some dir ∧
          gameApply w' slot ⟨w₀.match, (w₀.players slot).session, UInt32.ofNat k, dir.1, dir.2.1, dir.2.2⟩ =
            (u, status) ∧
          ∃ state, pyState (reply u slot (UInt32.ofNat k) status) = .ok state ∧ d.2 = (state.reason, state.tick))
          ks w.client.decisions) ∧
    ∀ σ v, Runs.Steps ViewerStep .boot σ v → viewerBytes σ <+: Framing.stream w.client.forwarded →
      v.ended ≠ some .length ∧ v.ended ≠ some .message ∧
        (v.viewer.ready = true → w.client.displayed v.viewer.view = .ok v.viewer.view.common) := by
  obtain ⟨slot, hd, hclient⟩ := (graphicsInv_of_run h₀ h).client
  obtain ⟨ks, hks, hbound, hall⟩ := hd.decisions
  refine ⟨hd.errors, hclient.imp_right (fun ho => ho.fit.frame), ⟨slot, hd.seat, ks, hks, ?_, hall.imp ?_⟩,
    fun σ v hv hbytes => hd.renders hv hbytes⟩
  · intro k hk
    exact ⟨(hbound k hk).1, Nat.le_of_lt_succ (lt_of_lt_of_le (hbound k hk).2 (unanswered_le _))⟩
  · rintro k d ⟨u, record, ⟨w', dir, status, hanswered, hdirection, happly, hrecord⟩, state, hstate, hsame⟩
    exact ⟨w', dir, u, status, hanswered.1, hanswered.2, hdirection, happly, state, hrecord ▸ hstate, hsame⟩

end

/-- Both players join, and the first fires once over the graphical client. -/
def sampleGraphics : List GraphicsAction :=
  ([.connect 0 (some [0x61, 0x62, 0x63]), .connect 1 (some [0x61]), .acquire 0, .write 0, .serve, .reply 0,
    .sent 0, .acquire 1, .write 1, .serve, .reply 1] : List ServiceAction).map .service ++
  [.hello, .act (some 0x66)] ++
  ([.frame 0 sampleShotBytes, .acquire 0, .write 0, .serve, .reply 0, .write 0, .serve, .reply 0] :
    List ServiceAction).map .service ++ [.answer false]

theorem graphics_session_sample : ∃ τ w, Runs.Steps (GraphicsStep sampleServiceConfig 0) (.boot sampleWorld) τ w ∧
    w.client.decisions = [("fire", "ACCEPTED", 0)] ∧ w.client.forwarded.length = 2 ∧
    ∀ σ v, Runs.Steps ViewerStep .boot σ v → viewerBytes σ <+: stream w.client.forwarded → v.ended ≠ some .length ∧
      v.ended ≠ some .message ∧
      (v.viewer.ready = true → w.client.displayed v.viewer.view = .ok v.viewer.view.common) := by
  have hexec : (Runs.exec (fun w a => (graphicsNext sampleServiceConfig 0 w a).map (fun w' => (a, w')))
      (.boot sampleWorld) sampleGraphics).any (fun r => decide (r.2.client.decisions = [("fire", "ACCEPTED", 0)]) &&
        decide (r.2.client.forwarded.length = 2)) = true := by decide +kernel
  obtain ⟨τ, w, hsteps, hp⟩ := Runs.exec_any hexec
  rw [Bool.and_eq_true, decide_eq_true_eq, decide_eq_true_eq] at hp
  exact ⟨τ, w, hsteps, hp.1, hp.2, (graphics_session sampleWorld_init hsteps).2.2.2⟩

end ArenaLab
