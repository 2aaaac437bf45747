import ArenaLab.TokenBucket
import Mathlib.Data.Rat.Cast.Order

/-! The rate limiter of the gateway's tunnels: one bucket of frames and one of
bytes, with exact arithmetic in place of floats. -/

namespace ArenaLab

structure Rate where
  «at» : ℚ
  frames : ℚ
  bytes : ℚ
  deriving DecidableEq

def rateInit (now : ℚ) : Rate := ⟨now, 64, 65536⟩

def Rate.refilled (r : Rate) (now : ℚ) : Rate :=
  let delta := max 0 (now - r.at)
  { «at» := now
    frames := min 64 (r.frames + delta * 512)
    bytes := min 65536 (r.bytes + delta * 524288) }

/-- `take` at a reading of the clock; false where it raises. -/
def Rate.take (r : Rate) (now : ℚ) (size : ℕ) : Rate × Bool :=
  let next := r.refilled now
  if next.frames < 1 ∨ next.bytes < size then (next, false)
  else ({ next with frames := next.frames - 1, bytes := next.bytes - size }, true)

structure RateTake where
  now : ℚ
  size : ℕ
  taken : Bool
  deriving DecidableEq

/-- A call of `take` with a clock that does not run backwards. -/
def rateNext (r : Rate) (a : ℚ × ℕ) : Option (RateTake × Rate) :=
  if a.1 < r.at then none else some (⟨a.1, a.2, (r.take a.1 a.2).2⟩, (r.take a.1 a.2).1)

abbrev RateStep := Runs.Induced rateNext

def takenFrames (es : List RateTake) : ℕ := (es.filter (·.taken)).length

def takenBytes (es : List RateTake) : ℕ := ((es.filter (·.taken)).map (·.size)).sum

def frameLimits : TokenBucket.Limits ℚ := ⟨64, 512⟩

def byteLimits : TokenBucket.Limits ℚ := ⟨65536, 524288⟩

def Rate.frameBucket (r : Rate) : TokenBucket.Bucket ℚ := ⟨r.at, r.frames⟩

def Rate.byteBucket (r : Rate) : TokenBucket.Bucket ℚ := ⟨r.at, r.bytes⟩

def RateTake.frameCost (e : RateTake) : ℚ × ℚ := (e.now, if e.taken then 1 else 0)

def RateTake.byteCost (e : RateTake) : ℚ × ℚ := (e.now, if e.taken then e.size else 0)

section

variable {r r' : Rate} {e first last : RateTake} {τ window : List RateTake} {now start : ℚ} {size : ℕ}

theorem Rate.refilled_frames (r : Rate) (now : ℚ) :
    (r.refilled now).frames = TokenBucket.refilled frameLimits r.frameBucket now := rfl

theorem Rate.refilled_bytes (r : Rate) (now : ℚ) :
    (r.refilled now).bytes = TokenBucket.refilled byteLimits r.byteBucket now := rfl

theorem take_cases_rate (r : Rate) (now : ℚ) (size : ℕ) :
    ((r.refilled now).frames < 1 ∨ (r.refilled now).bytes < size) ∧
      r.take now size = (r.refilled now, false) ∨
    1 ≤ (r.refilled now).frames ∧ (size : ℚ) ≤ (r.refilled now).bytes ∧
      r.take now size = (⟨now, (r.refilled now).frames - 1, (r.refilled now).bytes - size⟩, true) := by
  by_cases hshort : (r.refilled now).frames < 1 ∨ (r.refilled now).bytes < size
  · refine .inl ⟨hshort, ?_⟩
    simp only [Rate.take]
    rw [if_pos hshort]
  · refine .inr ?_
    have henough := not_or.mp hshort
    refine ⟨le_of_not_gt henough.1, le_of_not_gt henough.2, ?_⟩
    simp only [Rate.take]
    rw [if_neg hshort]
    rfl

/-- A call spends a frame and its size, or nothing of either. -/
theorem spends_of_step (h : RateStep r e r') :
    TokenBucket.Spends frameLimits r.frameBucket e.frameCost r'.frameBucket ∧
    TokenBucket.Spends byteLimits r.byteBucket e.byteCost r'.byteBucket := by
  obtain ⟨⟨now, size⟩, h⟩ := h
  simp only [rateNext] at h
  split at h
  · cases h
  · rename_i hlater
    rw [not_lt] at hlater
    obtain ⟨rfl, rfl⟩ := Prod.mk.inj (Option.some.inj h)
    rcases take_cases_rate r now size with ⟨_, htake⟩ | ⟨hframes, hbytes, htake⟩
    · rw [htake]
      exact ⟨⟨hlater, le_refl 0, .inl rfl, rfl, (sub_zero _).symm⟩,
        ⟨hlater, le_refl 0, .inl rfl, rfl, (sub_zero _).symm⟩⟩
    · rw [htake]
      rw [Rate.refilled_frames] at hframes
      rw [Rate.refilled_bytes] at hbytes
      exact ⟨⟨hlater, zero_le_one, .inr hframes, rfl, rfl⟩,
        ⟨hlater, Nat.cast_nonneg size, .inr hbytes, rfl, rfl⟩⟩

theorem frame_steps (h : Runs.Steps RateStep r τ r') : Runs.Steps (TokenBucket.Spends frameLimits)
    r.frameBucket (τ.map RateTake.frameCost) r'.frameBucket :=
  h.map (f := Rate.frameBucket) (g := RateTake.frameCost) (fun _ _ _ hs => (spends_of_step hs).1)

theorem byte_steps (h : Runs.Steps RateStep r τ r') : Runs.Steps (TokenBucket.Spends byteLimits)
    r.byteBucket (τ.map RateTake.byteCost) r'.byteBucket :=
  h.map (f := Rate.byteBucket) (g := RateTake.byteCost) (fun _ _ _ hs => (spends_of_step hs).2)

theorem sum_frameCost (es : List RateTake) :
    ((es.map RateTake.frameCost).map Prod.snd).sum = (takenFrames es : ℚ) := by
  induction es with
  | nil => rfl
  | cons e es ih =>
    simp only [List.map_cons, List.sum_cons, ih, takenFrames, RateTake.frameCost, List.filter_cons]
    by_cases htaken : e.taken = true
    · simp only [htaken, if_true, List.length_cons, Nat.cast_add, Nat.cast_one, add_comm]
    · simp only [htaken, if_false, zero_add, Bool.false_eq_true]

theorem sum_byteCost (es : List RateTake) :
    ((es.map RateTake.byteCost).map Prod.snd).sum = (takenBytes es : ℚ) := by
  induction es with
  | nil => rfl
  | cons e es ih =>
    simp only [List.map_cons, List.sum_cons, ih, takenBytes, RateTake.byteCost, List.filter_cons]
    by_cases htaken : e.taken = true
    · simp only [htaken, if_true, List.map_cons, List.sum_cons, Nat.cast_add]
    · simp only [htaken, if_false, zero_add, Bool.false_eq_true]

theorem frame_rate : 0 ≤ frameLimits.rate := by decide

theorem byte_rate : 0 ≤ byteLimits.rate := by decide

theorem frames_within (h : Runs.Steps RateStep (rateInit start) τ r) :
    TokenBucket.Within frameLimits r.frameBucket :=
  TokenBucket.Within.steps frame_rate ⟨(by decide : (0 : ℚ) ≤ 64), le_refl _⟩ (frame_steps h)

theorem bytes_within (h : Runs.Steps RateStep (rateInit start) τ r) :
    TokenBucket.Within byteLimits r.byteBucket :=
  TokenBucket.Within.steps byte_rate ⟨(by decide : (0 : ℚ) ≤ 65536), le_refl _⟩ (byte_steps h)

theorem rate_window (h : Runs.Steps RateStep (rateInit start) τ r) (h' : Runs.Steps RateStep r window r')
    (hfirst : window.head? = some first) (hlast : window.getLast? = some last) :
    (takenFrames window : ℚ) ≤ 64 + 512 * (last.now - first.now) ∧
      (takenBytes window : ℚ) ≤ 65536 + 524288 * (last.now - first.now) := by
  obtain ⟨more, rfl⟩ := List.head?_eq_some_iff.mp hfirst
  have hframe := TokenBucket.window frame_rate (frames_within h) (frame_steps h')
    (by rw [← List.map_cons, List.getLast?_map, hlast]; rfl)
  have hbyte := TokenBucket.window byte_rate (bytes_within h) (byte_steps h')
    (by rw [← List.map_cons, List.getLast?_map, hlast]; rfl)
  rw [← List.map_cons, sum_frameCost, mul_comm] at hframe
  rw [← List.map_cons, sum_byteCost, mul_comm] at hbyte
  exact ⟨hframe, hbyte⟩

theorem refused_take (hwithin : TokenBucket.Within frameLimits r.frameBucket)
    (hbytes : TokenBucket.Within byteLimits r.byteBucket) (h : (r.take now size).2 = false) :
    r.frames ≤ (r.take now size).1.frames ∧ r.bytes ≤ (r.take now size).1.bytes := by
  rcases take_cases_rate r now size with ⟨_, htake⟩ | ⟨_, _, htake⟩
  · rw [htake]
    exact ⟨TokenBucket.le_refilled frame_rate hwithin.high now, TokenBucket.le_refilled byte_rate hbytes.high now⟩
  · rw [htake] at h
    cases h

theorem covered_take (hframes : 1 ≤ (r.refilled now).frames) (hbytes : (size : ℚ) ≤ (r.refilled now).bytes) :
    (r.take now size).2 = true := by
  rcases take_cases_rate r now size with ⟨hshort | hshort, _⟩ | ⟨_, _, htake⟩
  · exact absurd hframes (not_le_of_gt hshort)
  · exact absurd hbytes (not_le_of_gt hshort)
  · rw [htake]

/-- After every run of calls both balances are within their caps, a call that is
refused spends nothing and one that is covered is not refused; and from any call
of the run to any later one, what was taken is at most a full bucket of each kind
and the inflow between the two. -/
theorem rate_limits (h : Runs.Steps RateStep (rateInit start) τ r) :
    (0 ≤ r.frames ∧ r.frames ≤ 64 ∧ 0 ≤ r.bytes ∧ r.bytes ≤ 65536) ∧
    (∀ before window after first last, τ = before ++ window ++ after → window.head? = some first →
      window.getLast? = some last →
      (takenFrames window : ℚ) ≤ 64 + 512 * (last.now - first.now) ∧
      (takenBytes window : ℚ) ≤ 65536 + 524288 * (last.now - first.now)) ∧
    ∀ now size, ((r.take now size).2 = false →
        r.frames ≤ (r.take now size).1.frames ∧ r.bytes ≤ (r.take now size).1.bytes) ∧
      (1 ≤ (r.refilled now).frames → (size : ℚ) ≤ (r.refilled now).bytes → (r.take now size).2 = true) := by
  have hframes := frames_within h
  have hbytes := bytes_within h
  refine ⟨⟨hframes.low, hframes.high, hbytes.low, hbytes.high⟩, ?_, ?_⟩
  · rintro before window after first last rfl hfirst hlast
    obtain ⟨m', hm', _⟩ := h.of_append
    obtain ⟨m, hm, hw⟩ := hm'.of_append
    exact rate_window hm hw hfirst hlast
  · intro now size
    exact ⟨refused_take hframes hbytes, covered_take⟩

end

def sampleTakes : List RateTake := [⟨0, 65536, true⟩, ⟨0, 1, false⟩, ⟨1, 1, true⟩]

theorem sampleTakes_run : Runs.Steps RateStep (rateInit 0) sampleTakes ⟨1, 63, 65535⟩ :=
  Runs.exec_steps (show Runs.exec rateNext (rateInit 0) [(0, 65536), (0, 1), (1, 1)] =
    some (sampleTakes, ⟨1, 63, 65535⟩) by decide +kernel)

theorem rate_limits_sample : takenFrames sampleTakes = 2 ∧ takenBytes sampleTakes = 65537 ∧
    (takenFrames sampleTakes : ℚ) ≤ 64 + 512 * (1 - 0) ∧
    (takenBytes sampleTakes : ℚ) ≤ 65536 + 524288 * (1 - 0) :=
  ⟨rfl, rfl, (rate_limits sampleTakes_run).2.1 [] sampleTakes [] ⟨0, 65536, true⟩ ⟨1, 1, true⟩ rfl rfl rfl⟩

end ArenaLab
