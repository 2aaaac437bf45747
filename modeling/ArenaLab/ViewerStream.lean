import ArenaLab.Framing
import ArenaLab.GameViewer

/-! The messages that the viewer gets are the frames of its stream, wherever the
reads cut it, and the states it shows are of one session and in order. -/

namespace ArenaLab

open Framing

def viewerBytes (τ : List (Option ViewerRead)) : List UInt8 :=
  τ.flatMap (fun e => (e.map ViewerRead.bytes).getD [])

/-- The payloads that `message` got. -/
def viewerPassed (τ : List (Option ViewerRead)) : List (List UInt8) :=
  τ.filterMap (fun e => e.bind (fun r => r.passed.map Prod.fst))

/-- The state messages that `message` took. -/
def viewerViews (τ : List (Option ViewerRead)) : List GameView :=
  τ.filterMap (fun e => e.bind (fun r => r.passed.bind (fun p => if p.2 then gameViewDecode p.1 else none)))

def viewerLengths (n : ℕ) : Bool := n = 80 || n = 5

/-- The messages up to the first one that is rejected, which is one of them. -/
def heard (v : ViewerState) : List (List UInt8) → List (List UInt8)
  | [] => []
  | p :: ps =>
    match viewerMessage v p with
    | none => [p]
    | some v' => p :: heard v' ps

/-- Where the buffer stands between two reads. -/
inductive Viewer.Place (v : Viewer) : Prop
  | start (wanted : v.wanted = 0) (used : v.used = 0)
  | head (wanted : v.wanted = 4) (used : v.used < 4)
  | body (n : ℕ) (valid : viewerLengths n = true) (wanted : v.wanted = n + 4) (used : v.used < v.wanted)
      (header : header (v.buffer.take v.used) = some n)

/-- The stream so far is the frames that were passed and what the buffer holds. -/
structure Reading (τ : List (Option ViewerRead)) (v : Viewer) : Prop where
  bytes : viewerBytes τ = stream (viewerPassed τ) ++ v.buffer.take v.used
  lengths : ∀ p ∈ viewerPassed τ, viewerLengths p.length = true
  shown : (viewerPassed τ).foldlM viewerMessage viewerStart = some v.toViewerState
  place : v.Place

structure ViewerInv (τ : List (Option ViewerRead)) (s : Viewing) : Prop where
  size : s.viewer.buffer.length = 84
  live : s.ended = none → Reading τ s.viewer
  exact : heard viewerStart (frames viewerLengths (viewerBytes τ)) = viewerPassed τ
  refused : s.ended = some .length ∨ s.ended = some .message →
    ∀ rest, heard viewerStart (frames viewerLengths (viewerBytes τ ++ rest)) = viewerPassed τ

/-- One view can follow another in the same session. -/
structure GameView.Follows (a b : GameView) : Prop where
  «match» : b.match = a.match
  session : b.session = a.session
  slot : b.slot = a.slot
  tick : a.tick ≤ b.tick
  sequence : a.sequence ≤ b.sequence

structure ViewsInv (τ : List (Option ViewerRead)) (v : ViewerState) : Prop where
  ordered : (viewerViews τ).Pairwise GameView.Follows
  latest : ∀ a ∈ viewerViews τ, v.ready = true ∧ a.Follows v.view

section

variable {τ : List (Option ViewerRead)} {s s' : Viewing} {v : Viewer} {w w' : ViewerState} {r : ViewerRead}
  {e : Option ViewerRead} {answer : ReadAnswer} {action : ViewerAction} {bytes p : List UInt8}
  {ps qs : List (List UInt8)} {n : ℕ}

/-! What a step adds to the histories. -/

theorem viewerBytes_snoc (τ : List (Option ViewerRead)) (e : Option ViewerRead) :
    viewerBytes (τ ++ [e]) = viewerBytes τ ++ (e.map ViewerRead.bytes).getD [] := by
  simp [viewerBytes]

theorem viewerPassed_none (h : r.passed = none) : viewerPassed (τ ++ [some r]) = viewerPassed τ := by
  simp [viewerPassed, h]

theorem viewerPassed_some {ok : Bool} (h : r.passed = some (p, ok)) :
    viewerPassed (τ ++ [some r]) = viewerPassed τ ++ [p] := by
  simp [viewerPassed, h]

/-! Messages and lengths. -/

theorem heard_append (h : ps.foldlM viewerMessage w = some w') : heard w (ps ++ qs) = ps ++ heard w' qs := by
  induction ps generalizing w with
  | nil =>
    obtain rfl := Option.some.inj h
    rfl
  | cons p ps ih =>
    rw [List.foldlM_cons] at h
    obtain ⟨x, hx, hrest⟩ := Option.bind_eq_some_iff.mp h
    rw [List.cons_append, heard, hx]
    exact congrArg (p :: ·) (ih hrest)

theorem viewerLengths_iff : viewerLengths n = true ↔ n = 80 ∨ n = 5 := by
  simp [viewerLengths]

theorem header_buffer {buffer : List UInt8} (h : 4 ≤ buffer.length) :
    header (buffer.take 4) = some (viewerLength buffer).toNat := by
  match buffer, h with
  | a :: b :: c :: d :: rest, _ =>
    have hB := b.toNat_lt
    have hC := c.toNat_lt
    have hD := d.toNat_lt
    have h8 := Nat.two_pow_add_eq_or_of_lt (i := 8) (by omega : d.toNat < 2 ^ 8) c.toNat
    have h16 := Nat.two_pow_add_eq_or_of_lt (i := 16)
      (by omega : 2 ^ 8 * c.toNat + d.toNat < 2 ^ 16) b.toNat
    have h24 := Nat.two_pow_add_eq_or_of_lt (i := 24)
      (by omega : 2 ^ 16 * b.toNat + (2 ^ 8 * c.toNat + d.toNat) < 2 ^ 24) a.toNat
    have ha : (a.toUInt32 <<< 24).toNat = 2 ^ 24 * a.toNat := shiftLeft_toNat a (k := 24) (by decide)
    have hb : (b.toUInt32 <<< 16).toNat = 2 ^ 16 * b.toNat := shiftLeft_toNat b (k := 16) (by decide)
    have hc : (c.toUInt32 <<< 8).toNat = 2 ^ 8 * c.toNat := shiftLeft_toNat c (k := 8) (by decide)
    have hvalue : (viewerLength (a :: b :: c :: d :: rest)).toNat =
        2 ^ 24 * a.toNat + (2 ^ 16 * b.toNat + (2 ^ 8 * c.toNat + d.toNat)) := by
      rw [h24, h16, h8, ← Nat.or_assoc, ← Nat.or_assoc]
      simp only [viewerLength, List.getD_cons_zero, List.getD_cons_succ, UInt32.toNat_or, ha, hb, hc,
        UInt8.toNat_toUInt32]
    rw [hvalue]
    simp only [List.take_succ_cons, List.take_zero, header, Option.some.injEq]
    omega

/-- What the buffer holds between two reads is not a frame yet. -/
theorem Viewer.Place.unfinished (h : v.Place) : frames viewerLengths (v.buffer.take v.used) = [] := by
  apply frames_incomplete
  intro n hn _
  have hshort : (v.buffer.take v.used).length ≤ v.used := List.length_take_le _ _
  cases h with
  | start _ hused => omega
  | head _ hused => omega
  | body m _ hwanted hused hheader =>
    rw [hheader] at hn
    obtain rfl := Option.some.inj hn
    omega

theorem small_lengths (h : ∀ p ∈ ps, viewerLengths p.length = true) :
    ∀ p ∈ ps, p.length < 4294967296 ∧ viewerLengths p.length = true := by
  intro p hp
  have hvalid := h p hp
  rcases viewerLengths_iff.mp hvalid with hlen | hlen
  · exact ⟨by omega, hvalid⟩
  · exact ⟨by omega, hvalid⟩

theorem Reading.exact (h : Reading τ v) :
    heard viewerStart (frames viewerLengths (viewerBytes τ)) = viewerPassed τ := by
  rw [h.bytes, frames_stream (small_lengths h.lengths), h.place.unfinished, heard_append h.shown, heard,
    List.append_nil]

/-! The reads. -/

theorem Viewer.want_display (v : Viewer) : v.want.toViewerState = v.toViewerState ∧ v.want.buffer = v.buffer ∧
    v.want.used = v.used := by
  rw [Viewer.want]
  split
  · exact ⟨rfl, rfl, rfl⟩
  · exact ⟨rfl, rfl, rfl⟩

theorem Reading.want (h : Reading τ v) : Reading τ v.want ∧ v.want.used < v.want.wanted ∧ v.want.wanted ≤ 84 := by
  obtain ⟨hdisplay, hbuffer, hused⟩ := v.want_display
  have hplace : v.want.Place ∧ v.want.used < v.want.wanted ∧ v.want.wanted ≤ 84 := by
    rw [Viewer.want]
    cases h.place with
    | start hwanted hzero =>
      rw [if_pos hwanted]
      have hless : v.used < 4 := by omega
      exact ⟨.head rfl hless, hless, (by omega : 4 ≤ 84)⟩
    | head hwanted hless =>
      rw [if_neg (by omega)]
      exact ⟨.head hwanted hless, by omega, by omega⟩
    | body n hvalid hwanted hless hheader =>
      rw [if_neg (by omega)]
      refine ⟨.body n hvalid hwanted hless hheader, hless, ?_⟩
      rcases viewerLengths_iff.mp hvalid with hn | hn
      · omega
      · omega
  refine ⟨⟨?_, h.lengths, ?_, hplace.1⟩, hplace.2⟩
  · rw [hbuffer, hused]
    exact h.bytes
  · rw [hdisplay]
    exact h.shown

theorem sizeSub_eq {m k : ℕ} (h : k ≤ m) (hm : m ≤ 84) : sizeSub m k = m - k := by
  rw [sizeSub]
  omega

theorem Viewer.fill_take (v : Viewer) (bytes : List UInt8) (h : v.used ≤ v.buffer.length) :
    (v.fill bytes).buffer.take (v.fill bytes).used = v.buffer.take v.used ++ bytes := by
  have hlen : (v.buffer.take v.used ++ bytes).length = v.used + bytes.length := by
    rw [List.length_append, List.length_take, Nat.min_eq_left h]
  exact List.take_left' hlen

theorem Viewer.fill_length (v : Viewer) (bytes : List UInt8) (h : v.used + bytes.length ≤ v.buffer.length) :
    (v.fill bytes).buffer.length = v.buffer.length := by
  simp only [Viewer.fill, ByteStores.put, List.length_append, List.length_take, List.length_drop]
  omega

/-- What the buffer holds after a `read` that returned bytes. -/
structure Filled (τ : List (Option ViewerRead)) (bytes : List UInt8) (v : Viewer) : Prop where
  size : v.buffer.length = 84
  bytes : viewerBytes τ ++ bytes = stream (viewerPassed τ) ++ v.buffer.take v.used
  lengths : ∀ p ∈ viewerPassed τ, viewerLengths p.length = true
  shown : (viewerPassed τ).foldlM viewerMessage viewerStart = some v.toViewerState
  used : v.used ≤ v.wanted
  goal : v.wanted = 4 ∨ ∃ n, viewerLengths n = true ∧ v.wanted = n + 4 ∧ header (v.buffer.take v.used) = some n

theorem Reading.fill (h : Reading τ v) (hsize : v.buffer.length = 84) (hwanted : v.wanted ≠ 0)
    (hfits : v.used + bytes.length ≤ v.wanted) (hmax : v.wanted ≤ 84) : Filled τ bytes (v.fill bytes) := by
  have htake := v.fill_take bytes (by omega)
  refine ⟨?_, ?_, h.lengths, h.shown, hfits, ?_⟩
  · rw [v.fill_length bytes (by omega)]
    exact hsize
  · rw [htake, h.bytes, List.append_assoc]
  · cases h.place with
    | start hzero _ => exact absurd hzero hwanted
    | head hfour _ => exact .inl hfour
    | body n hvalid hn _ hheader =>
      refine .inr ⟨n, hvalid, hn, ?_⟩
      rw [htake]
      exact header_append hheader bytes

/-- What a call of `read` does, up to the bytes it returns. -/
theorem read_cases (h : s.read answer = some (r, s')) :
    r.used = s.viewer.want.used ∧ r.wanted = s.viewer.want.wanted ∧
    (r.bytes = [] ∧ r.passed = none ∧ s'.viewer = s.viewer.want ∧
        (s'.ended = s.ended ∨ s'.ended = some .failed ∨ s'.ended = some .closed) ∨
      r.bytes.length ≤ sizeSub s.viewer.want.wanted s.viewer.want.used ∧
        (r.passed, s') = s.collect (s.viewer.want.fill r.bytes)) := by
  cases answer with
  | interrupted =>
    obtain ⟨rfl, rfl⟩ := Prod.mk.inj (Option.some.inj h)
    exact ⟨rfl, rfl, .inl ⟨rfl, rfl, rfl, .inl rfl⟩⟩
  | again =>
    obtain ⟨rfl, rfl⟩ := Prod.mk.inj (Option.some.inj h)
    exact ⟨rfl, rfl, .inl ⟨rfl, rfl, rfl, .inl rfl⟩⟩
  | failed =>
    obtain ⟨rfl, rfl⟩ := Prod.mk.inj (Option.some.inj h)
    exact ⟨rfl, rfl, .inl ⟨rfl, rfl, rfl, .inr (.inl rfl)⟩⟩
  | data bytes =>
    simp only [Viewing.read] at h
    split at h
    · cases h
    · rename_i hroom
      split at h
      · obtain ⟨rfl, rfl⟩ := Prod.mk.inj (Option.some.inj h)
        exact ⟨rfl, rfl, .inl ⟨rfl, rfl, rfl, .inr (.inr rfl)⟩⟩
      · obtain ⟨rfl, rfl⟩ := Prod.mk.inj (Option.some.inj h)
        exact ⟨rfl, rfl, .inr ⟨not_lt.mp hroom, rfl⟩⟩

theorem Reading.quiet (h : Reading τ v) (hbytes : r.bytes = []) (hpassed : r.passed = none) :
    Reading (τ ++ [some r]) v := by
  have hsame : viewerBytes (τ ++ [some r]) = viewerBytes τ := by
    rw [viewerBytes_snoc, Option.map_some, Option.getD_some, hbytes, List.append_nil]
  have hp := viewerPassed_none (τ := τ) hpassed
  constructor
  · rw [hsame, hp]
    exact h.bytes
  · rw [hp]
    exact h.lengths
  · rw [hp]
    exact h.shown
  · exact h.place

theorem Reading.inv (h : Reading τ s.viewer) (hsize : s.viewer.buffer.length = 84)
    (hlength : s.ended ≠ some .length) (hmessage : s.ended ≠ some .message) : ViewerInv τ s := by
  refine ⟨hsize, fun _ => h, h.exact, ?_⟩
  rintro (hend | hend)
  · exact absurd hend hlength
  · exact absurd hend hmessage

/-- Whatever comes after a message that was refused, it is not looked at. -/
theorem viewerInv_refused (hsize : s.viewer.buffer.length = 84) (hend : s.ended ≠ none)
    (h : ∀ rest, heard viewerStart (frames viewerLengths (viewerBytes τ ++ rest)) = viewerPassed τ) :
    ViewerInv τ s := by
  refine ⟨hsize, fun hlive => absurd hlive hend, ?_, fun _ => h⟩
  have hnil := h []
  rw [List.append_nil] at hnil
  exact hnil

theorem Filled.snoc (h : Filled τ r.bytes v) :
    viewerBytes (τ ++ [some r]) = stream (viewerPassed τ) ++ v.buffer.take v.used := by
  rw [viewerBytes_snoc]
  exact h.bytes

/-- An iteration without a message leaves the reader in its place. -/
theorem Filled.reading (h : Filled τ r.bytes v) (hpassed : r.passed = none) {wanted : ℕ}
    (hplace : Viewer.Place { v with wanted := wanted }) : Reading (τ ++ [some r]) { v with wanted := wanted } := by
  have hp := viewerPassed_none (τ := τ) hpassed
  constructor
  · rw [hp]
    exact h.snoc
  · rw [hp]
    exact h.lengths
  · rw [hp]
    exact h.shown
  · exact hplace

theorem live_ended (hlive : s.ended = none) (e : ReceiveEnd) : s.ended ≠ some e := by
  rw [hlive]
  exact (Option.some_ne_none e).symm

theorem viewerLength_valid {buffer : List UInt8} :
    ¬ (viewerLength buffer ≠ 80 ∧ viewerLength buffer ≠ 5) ↔ viewerLengths (viewerLength buffer).toNat = true := by
  rw [viewerLengths_iff, ← UInt32.toNat_inj.ne, ← UInt32.toNat_inj.ne, not_and_or, not_not, not_not]
  rfl

theorem Filled.payload (h : Filled τ r.bytes v) (hfull : v.used = v.wanted) (hbody : v.wanted ≠ 4) :
    viewerLengths v.payload.length = true ∧ v.buffer.take v.used = encode v.payload := by
  rcases h.goal with hfour | ⟨n, hvalid, hn, hheader⟩
  · exact absurd hfour hbody
  · have hsize := h.size
    have hmax : n ≤ 80 := by
      rcases viewerLengths_iff.mp hvalid with hlen | hlen
      · omega
      · omega
    have hpayload : v.payload = (v.buffer.take v.used).drop 4 := by
      rw [Viewer.payload, List.drop_take, hfull]
    have hlen : (v.buffer.take v.used).length = n + 4 := by
      rw [List.length_take]
      omega
    refine ⟨?_, ?_⟩
    · rw [hpayload, List.length_drop, hlen, Nat.add_sub_cancel]
      exact hvalid
    · rw [hpayload, encode_eq hheader hlen]

/-- The end of an iteration that got bytes. -/
theorem Filled.collect (h : Filled τ r.bytes v) (hlive : s.ended = none)
    (hc : (r.passed, s') = s.collect v) : ViewerInv (τ ++ [some r]) s' := by
  have hused := h.used
  rw [Viewing.collect] at hc
  by_cases hmore : v.used ≠ v.wanted
  · rw [if_pos hmore] at hc
    obtain ⟨hpassed, rfl⟩ := Prod.mk.inj hc
    have hplace : v.Place := by
      rcases h.goal with hfour | ⟨n, hvalid, hn, hheader⟩
      · exact .head hfour (by omega)
      · exact .body n hvalid hn (by omega) hheader
    exact Reading.inv (s := s.next v) (h.reading hpassed hplace) h.size (live_ended hlive _) (live_ended hlive _)
  · have hfull := not_not.mp hmore
    rw [if_neg hmore] at hc
    by_cases hhead : v.wanted = 4
    · have hsize := h.size
      have hheader : header (v.buffer.take v.used) = some (viewerLength v.buffer).toNat := by
        rw [hfull, hhead]
        exact header_buffer (by omega)
      rw [if_pos hhead] at hc
      by_cases hbad : viewerLength v.buffer ≠ 80 ∧ viewerLength v.buffer ≠ 5
      · rw [if_pos hbad] at hc
        obtain ⟨hpassed, rfl⟩ := Prod.mk.inj hc
        refine viewerInv_refused h.size (Option.some_ne_none _) ?_
        intro rest
        rw [h.snoc, viewerPassed_none hpassed, List.append_assoc, frames_stream (small_lengths h.lengths),
          frames_incomplete, heard_append h.shown]
        · exact List.append_nil _
        · intro n hn hvalid
          rw [header_append hheader] at hn
          obtain rfl := Option.some.inj hn
          exact absurd hbad (viewerLength_valid.mpr hvalid)
      · rw [if_neg hbad] at hc
        obtain ⟨hpassed, rfl⟩ := Prod.mk.inj hc
        have hvalid := viewerLength_valid.mp hbad
        have hplace : Viewer.Place { v with wanted := 4 + (viewerLength v.buffer).toNat } := by
          refine .body _ hvalid (Nat.add_comm _ _) ?_ hheader
          show v.used < 4 + (viewerLength v.buffer).toNat
          rcases viewerLengths_iff.mp hvalid with hn | hn
          · omega
          · omega
        exact Reading.inv (s := s.next _) (h.reading hpassed hplace) h.size (live_ended hlive _)
          (live_ended hlive _)
    · obtain ⟨hvalid, hencode⟩ := h.payload hfull hhead
      have hlengths : ∀ p ∈ viewerPassed τ ++ [v.payload], viewerLengths p.length = true := by
        intro p hp
        rcases List.mem_append.mp hp with hp | hp
        · exact h.lengths p hp
        · rw [List.mem_singleton.mp hp]
          exact hvalid
      have hbytes : viewerBytes (τ ++ [some r]) = stream (viewerPassed τ ++ [v.payload]) := by
        rw [h.snoc, stream_snoc, hencode]
      rw [if_neg hhead] at hc
      cases hmessage : viewerMessage v.toViewerState v.payload with
      | none =>
        rw [hmessage] at hc
        obtain ⟨hpassed, rfl⟩ := Prod.mk.inj hc
        refine viewerInv_refused h.size (Option.some_ne_none _) ?_
        intro rest
        rw [hbytes, viewerPassed_some hpassed, frames_stream (small_lengths hlengths), List.append_assoc,
          heard_append h.shown, List.singleton_append, heard, hmessage]
      | some shown =>
        rw [hmessage] at hc
        obtain ⟨hpassed, rfl⟩ := Prod.mk.inj hc
        have hreading : Reading (τ ++ [some r]) { v with toViewerState := shown, used := 0, wanted := 4 } := by
          have hp := viewerPassed_some (τ := τ) hpassed
          constructor
          · rw [hp, hbytes]
            exact (List.append_nil _).symm
          · rw [hp]
            exact hlengths
          · rw [hp, List.foldlM_append, h.shown]
            simp [hmessage]
          · exact .head rfl (by omega : 0 < 4)
        exact Reading.inv (s := s.next _) hreading h.size (live_ended hlive _) (live_ended hlive _)

theorem ViewerInv.read (h : ViewerInv τ s) (hlive : s.ended = none) (hr : s.read answer = some (r, s')) :
    ViewerInv (τ ++ [some r]) s' ∧ r.used < r.wanted ∧ r.wanted ≤ 84 ∧ r.used + r.bytes.length ≤ r.wanted := by
  obtain ⟨hreading, hless, hmax⟩ := (h.live hlive).want
  obtain ⟨hused, hwanted, hrest⟩ := read_cases hr
  have hsize : s.viewer.want.buffer.length = 84 := by
    rw [s.viewer.want_display.2.1]
    exact h.size
  rw [hused, hwanted]
  rcases hrest with ⟨hbytes, hpassed, hviewer, hend⟩ | ⟨hroom, hcollect⟩
  · rw [hbytes]
    refine ⟨?_, hless, hmax, le_of_lt hless⟩
    have hsame := hreading.quiet hbytes hpassed
    rw [← hviewer] at hsame hsize
    rcases hend with hend | hend | hend
    · rw [hlive] at hend
      exact hsame.inv hsize (live_ended hend _) (live_ended hend _)
    · refine hsame.inv hsize ?_ ?_
      · rw [hend]
        decide
      · rw [hend]
        decide
    · refine hsame.inv hsize ?_ ?_
      · rw [hend]
        decide
      · rw [hend]
        decide
  · rw [sizeSub_eq (le_of_lt hless) hmax] at hroom
    have hfits : s.viewer.want.used + r.bytes.length ≤ s.viewer.want.wanted := by omega
    exact ⟨(hreading.fill hsize (by omega) hfits hmax).collect hlive hcollect, hless, hmax, hfits⟩

theorem viewer_cases (h : ViewerStep s e s') :
    (e = none ∧ s'.viewer = s.viewer ∧ s'.ended = s.ended) ∨
      ∃ r answer, e = some r ∧ s.ended = none ∧ s.read answer = some (r, s') := by
  obtain ⟨action, h⟩ := h
  simp only [viewerNext] at h
  split at h
  · obtain ⟨rfl, rfl⟩ := Prod.mk.inj (Option.some.inj h)
    exact .inl ⟨rfl, rfl, rfl⟩
  · rename_i answer _ _ hlive
    obtain ⟨⟨r, t⟩, hr, he⟩ := Option.map_eq_some_iff.mp h
    obtain ⟨rfl, rfl⟩ := Prod.mk.inj he
    exact .inr ⟨r, answer, rfl, hlive, hr⟩
  · cases h

theorem ViewerInv.called (h : ViewerInv τ s) (hviewer : s'.viewer = s.viewer) (hended : s'.ended = s.ended) :
    ViewerInv (τ ++ [none]) s' := by
  have hbytes : viewerBytes (τ ++ [none]) = viewerBytes τ := by
    rw [viewerBytes_snoc]
    exact List.append_nil _
  have hpassed : viewerPassed (τ ++ [none]) = viewerPassed τ := by simp [viewerPassed]
  constructor
  · rw [hviewer]
    exact h.size
  · intro hlive
    rw [hended] at hlive
    have hr := h.live hlive
    constructor
    · rw [hbytes, hpassed, hviewer]
      exact hr.bytes
    · rw [hpassed]
      exact hr.lengths
    · rw [hpassed, hviewer]
      exact hr.shown
    · rw [hviewer]
      exact hr.place
  · rw [hbytes, hpassed]
    exact h.exact
  · rw [hbytes, hpassed, hended]
    exact h.refused

theorem viewerInv_boot : ViewerInv [] .boot := by
  have hreading : Reading [] viewerBoot := ⟨rfl, by simp [viewerPassed], rfl, .start rfl rfl⟩
  exact Reading.inv (s := .boot) hreading (List.length_replicate ..) (live_ended rfl _) (live_ended rfl _)

theorem viewer_run (h : Runs.Steps ViewerStep .boot τ s) : ViewerInv τ s ∧
    ∀ r, some r ∈ τ → r.used < r.wanted ∧ r.wanted ≤ 84 ∧ r.used + r.bytes.length ≤ r.wanted := by
  refine h.history (I := fun τ s => ViewerInv τ s ∧ ∀ r, some r ∈ τ →
    r.used < r.wanted ∧ r.wanted ≤ 84 ∧ r.used + r.bytes.length ≤ r.wanted) ⟨viewerInv_boot, by simp⟩ ?_
  rintro τ t e u _ ⟨hinv, hreads⟩ hstep
  rcases viewer_cases hstep with ⟨rfl, hviewer, hended⟩ | ⟨r, answer, rfl, hlive, hr⟩
  · refine ⟨hinv.called hviewer hended, ?_⟩
    intro q hq
    rcases List.mem_append.mp hq with hq | hq
    · exact hreads q hq
    · cases List.mem_singleton.mp hq
  · obtain ⟨hnext, hbounds⟩ := hinv.read hlive hr
    refine ⟨hnext, ?_⟩
    intro q hq
    rcases List.mem_append.mp hq with hq | hq
    · exact hreads q hq
    · obtain rfl := Option.some.inj (List.mem_singleton.mp hq)
      exact hbounds

/-! The states that are shown. -/

theorem GameView.Follows.refl (a : GameView) : a.Follows a :=
  ⟨rfl, rfl, rfl, UInt64.le_refl _, UInt32.le_refl _⟩

theorem GameView.Follows.trans {a b c : GameView} (h : a.Follows b) (h' : b.Follows c) : a.Follows c :=
  ⟨h'.match.trans h.match, h'.session.trans h.session, h'.slot.trans h.slot, UInt64.le_trans h.tick h'.tick,
    UInt32.le_trans h.sequence h'.sequence⟩

theorem follows_of_continues {a b : GameView} (h : a.continues b = true) : a.Follows b := by
  simp only [GameView.continues, Bool.and_eq_true, decide_eq_true_eq] at h
  exact ⟨h.1.1.1.1, h.1.1.1.2, h.1.1.2, h.1.2, h.2⟩

theorem gameViewDecode_size {v : GameView} (h : gameViewDecode p = some v) : p.length = 80 := by
  by_contra hlen
  rw [gameViewDecode, if_pos (.inl hlen)] at h
  cases h

/-- A message that is taken shows a view that follows, or none. -/
theorem viewerMessage_view (h : viewerMessage w p = some w') :
    gameViewDecode p = none ∧ w'.ready = w.ready ∧ w'.view = w.view ∨
      gameViewDecode p = some w'.view ∧ w'.ready = true ∧ (w.ready = true → w.view.Follows w'.view) := by
  simp only [viewerMessage] at h
  split at h
  · rename_i herror
    split at h
    · cases h
    · obtain rfl := Option.some.inj h
      refine .inl ⟨?_, rfl, rfl⟩
      cases hv : gameViewDecode p with
      | none => rfl
      | some v =>
        have hlen := gameViewDecode_size hv
        omega
  · split at h
    · cases h
    · rename_i next hnext
      split at h
      · cases h
      · rename_i hfollows
        obtain rfl := Option.some.inj h
        refine .inr ⟨hnext, rfl, ?_⟩
        intro hready
        apply follows_of_continues
        simpa [hready] using hfollows

theorem collect_cases (h : (r.passed, s') = s.collect v) :
    (∀ p, r.passed ≠ some (p, true)) ∧ s'.viewer.toViewerState = v.toViewerState ∨
      ∃ p, r.passed = some (p, true) ∧ viewerMessage v.toViewerState p = some s'.viewer.toViewerState := by
  simp only [Viewing.collect] at h
  split at h
  · obtain ⟨hpassed, rfl⟩ := Prod.mk.inj h
    exact .inl ⟨by simp [hpassed], rfl⟩
  · split at h
    · split at h
      · obtain ⟨hpassed, rfl⟩ := Prod.mk.inj h
        exact .inl ⟨by simp [hpassed], rfl⟩
      · obtain ⟨hpassed, rfl⟩ := Prod.mk.inj h
        exact .inl ⟨by simp [hpassed], rfl⟩
    · split at h
      · obtain ⟨hpassed, rfl⟩ := Prod.mk.inj h
        exact .inl ⟨by simp [hpassed], rfl⟩
      · rename_i shown hmessage
        obtain ⟨hpassed, rfl⟩ := Prod.mk.inj h
        exact .inr ⟨_, hpassed, hmessage⟩

theorem viewerViews_snoc (τ : List (Option ViewerRead)) (e : Option ViewerRead) :
    viewerViews (τ ++ [e]) = viewerViews τ ++
      (e.bind (fun r => r.passed.bind (fun p => if p.2 then gameViewDecode p.1 else none))).toList := by
  rw [viewerViews, List.filterMap_append]
  congr 1

/-- Nothing was shown by a step, or one message was taken. -/
theorem shown_cases (h : ViewerStep s e s') :
    viewerViews (τ ++ [e]) = viewerViews τ ∧ s'.viewer.toViewerState = s.viewer.toViewerState ∨
      ∃ p, viewerViews (τ ++ [e]) = viewerViews τ ++ (gameViewDecode p).toList ∧
        viewerMessage s.viewer.toViewerState p = some s'.viewer.toViewerState := by
  rw [viewerViews_snoc]
  rcases viewer_cases h with ⟨rfl, hviewer, _⟩ | ⟨r, answer, rfl, _, hr⟩
  · refine .inl ⟨List.append_nil _, ?_⟩
    rw [hviewer]
  · obtain ⟨_, _, hrest⟩ := read_cases hr
    have hwant := s.viewer.want_display.1
    rcases hrest with ⟨_, hpassed, hviewer, _⟩ | ⟨_, hcollect⟩
    · refine .inl ⟨?_, ?_⟩
      · rw [Option.bind_some, hpassed]
        exact List.append_nil _
      · rw [hviewer, hwant]
    · rcases collect_cases hcollect with ⟨hnone, hsame⟩ | ⟨p, hpassed, hmessage⟩
      · refine .inl ⟨?_, hsame.trans hwant⟩
        rw [Option.bind_some]
        cases hp : r.passed with
        | none => exact List.append_nil _
        | some q =>
          obtain ⟨p, ok⟩ := q
          cases ok with
          | false => exact List.append_nil _
          | true => exact absurd hp (hnone p)
      · refine .inr ⟨p, ?_, hwant ▸ hmessage⟩
        rw [Option.bind_some, hpassed]
        rfl

theorem ViewsInv.step (h : ViewsInv τ s.viewer.toViewerState) (hs : ViewerStep s e s') :
    ViewsInv (τ ++ [e]) s'.viewer.toViewerState := by
  rcases shown_cases (τ := τ) hs with ⟨hviews, hsame⟩ | ⟨p, hviews, hmessage⟩
  · constructor
    · rw [hviews]
      exact h.ordered
    · rw [hviews, hsame]
      exact h.latest
  · rcases viewerMessage_view hmessage with ⟨hnone, hready, hview⟩ | ⟨hsome, hready, hfollows⟩
    · rw [hnone, Option.toList_none, List.append_nil] at hviews
      constructor
      · rw [hviews]
        exact h.ordered
      · rw [hviews, hready, hview]
        exact h.latest
    · have hlatest : ∀ a ∈ viewerViews τ, a.Follows s'.viewer.view := by
        intro a ha
        obtain ⟨hr, hlast⟩ := h.latest a ha
        exact hlast.trans (hfollows hr)
      rw [hsome, Option.toList_some] at hviews
      constructor
      · rw [hviews, List.pairwise_append]
        refine ⟨h.ordered, List.pairwise_singleton _ _, ?_⟩
        intro a ha b hb
        rw [List.mem_singleton.mp hb]
        exact hlatest a ha
      · rw [hviews]
        intro a ha
        refine ⟨hready, ?_⟩
        rcases List.mem_append.mp ha with ha | ha
        · exact hlatest a ha
        · rw [List.mem_singleton.mp ha]
          exact .refl _

theorem views_run (h : Runs.Steps ViewerStep .boot τ s) : ViewsInv τ s.viewer.toViewerState :=
  h.history (I := fun τ s => ViewsInv τ s.viewer.toViewerState) ⟨.nil, by simp [viewerViews]⟩
    (fun _ _ _ _ _ hinv hs => hinv.step hs)

/-- Every read of the viewer asks for room that the buffer has; the messages are the
frames of the stream up to the first that is refused, however the reads cut it; and the
states that are taken are of one session and in order. -/
theorem stream_reassembled (h : Runs.Steps ViewerStep .boot τ s) :
    (∀ r, some r ∈ τ → 1 ≤ sizeSub r.wanted r.used ∧ r.used + sizeSub r.wanted r.used ≤ 84 ∧
      r.used < r.wanted ∧ r.wanted ≤ 84 ∧ r.used + r.bytes.length ≤ 84) ∧
    s.viewer.buffer.length = 84 ∧
    viewerPassed τ = heard viewerStart (frames viewerLengths (viewerBytes τ)) ∧
    (s.ended = some .length ∨ s.ended = some .message → ∀ rest,
      heard viewerStart (frames viewerLengths (viewerBytes τ ++ rest)) = viewerPassed τ) ∧
    (viewerViews τ).Pairwise (fun a b => b.match = a.match ∧ b.session = a.session ∧ b.slot = a.slot ∧
      a.tick ≤ b.tick ∧ a.sequence ≤ b.sequence) := by
  obtain ⟨hinv, hreads⟩ := viewer_run h
  refine ⟨?_, hinv.size, hinv.exact.symm, hinv.refused, ?_⟩
  · intro r hr
    obtain ⟨hless, hmax, hfits⟩ := hreads r hr
    rw [sizeSub_eq (le_of_lt hless) hmax]
    exact ⟨by omega, by omega, hless, hmax, by omega⟩
  · refine (views_run h).ordered.imp ?_
    intro a b hab
    exact ⟨hab.match, hab.session, hab.slot, hab.tick, hab.sequence⟩

end

def sampleStates : List (List UInt8) := [reply sampleWorld 0 0 .ok, reply sampleShotWorld 0 1 .ok]

/-- The server says that it waits and sends two states; the reads cut the first two frames,
and the calls end inside them. -/
def sampleViewing : List ViewerAction :=
  [.receive, .read (.data [0, 0, 0]), .read .again, .receive, .read (.data [5]),
    .read (.data [0x4C, 0x47, 0x52, 0x45, 7]), .read (.data [0, 0, 0, 80]),
    .read (.data ((reply sampleWorld 0 0 .ok).take 30)), .read .again, .receive, .read .interrupted,
    .read (.data ((reply sampleWorld 0 0 .ok).drop 30)), .read (.data [0, 0, 0, 80]),
    .read (.data (reply sampleShotWorld 0 1 .ok)), .read .again]

theorem stream_reassembled_sample : ∃ τ s, Runs.Steps ViewerStep .boot τ s ∧ s.viewer.buffer.length = 84 ∧
    viewerPassed τ = (errorMagic ++ [7]) :: sampleStates ∧
    heard viewerStart (frames viewerLengths (viewerBytes τ)) = (errorMagic ++ [7]) :: sampleStates ∧
    (viewerViews τ).map GameView.sequence = [0, 1] ∧ (viewerViews τ).Pairwise (fun a b => a.session = b.session) := by
  have hexec : (Runs.exec viewerNext .boot sampleViewing).any (fun r =>
      decide (viewerPassed r.1 = (errorMagic ++ [7]) :: sampleStates ∧
        (viewerViews r.1).map GameView.sequence = [0, 1])) = true := by
    decide +kernel
  obtain ⟨τ, s, hsteps, hp⟩ := Runs.exec_any hexec
  obtain ⟨_, hsize, hheard, _, hviews⟩ := stream_reassembled hsteps
  obtain ⟨hpassed, hnumbers⟩ := of_decide_eq_true hp
  exact ⟨τ, s, hsteps, hsize, hpassed, hheard ▸ hpassed, hnumbers, hviews.imp fun h => h.2.1.symm⟩

end ArenaLab
