import Mathlib.Data.List.Induction

/-! Finite runs of a labelled transition relation. The labels of a run are
listed oldest first, and every rule adds the newest label at the end. -/

namespace Runs

inductive Steps {σ ε : Type*} (step : σ → ε → σ → Prop) (s : σ) : List ε → σ → Prop
  | nil : Steps step s [] s
  | snoc {τ : List ε} {t u : σ} {e : ε} : Steps step s τ t → step t e u → Steps step s (τ ++ [e]) u

variable {σ ε : Type*} {step : σ → ε → σ → Prop}

theorem Steps.single {s t : σ} {e : ε} (h : step s e t) : Steps step s [e] t :=
  .snoc .nil h

theorem Steps.trans {s t u : σ} {τ τ' : List ε} (h : Steps step s τ t)
    (h' : Steps step t τ' u) : Steps step s (τ ++ τ') u := by
  induction h' with
  | nil => simpa using h
  | snoc _ he ih => simpa only [List.append_assoc] using ih.snoc he

theorem Steps.mono {step' : σ → ε → σ → Prop} (hstep : ∀ s e t, step s e t → step' s e t) {s t : σ} {τ : List ε}
    (h : Steps step s τ t) : Steps step' s τ t := by
  induction h with
  | nil => exact .nil
  | snoc _ he ih => exact ih.snoc (hstep _ _ _ he)

/-- An image of the states and labels that keeps the steps keeps the runs. -/
theorem Steps.map {σ' ε' : Type*} {step' : σ' → ε' → σ' → Prop} {f : σ → σ'} {g : ε → ε'}
    (hstep : ∀ s e t, step s e t → step' (f s) (g e) (f t)) {s t : σ} {τ : List ε} (h : Steps step s τ t) :
    Steps step' (f s) (τ.map g) (f t) := by
  induction h with
  | nil => exact .nil
  | snoc _ he ih =>
    rw [List.map_append]
    exact ih.snoc (hstep _ _ _ he)

/-- A property of the labels so far and the state reached holds after every
run once each step carries it over. -/
theorem Steps.history {s : σ} {I : List ε → σ → Prop} (h0 : I [] s)
    (hstep : ∀ τ t e u, Steps step s τ t → I τ t → step t e u → I (τ ++ [e]) u)
    {τ : List ε} {t : σ} (h : Steps step s τ t) : I τ t := by
  induction h with
  | nil => exact h0
  | snoc hr he ih => exact hstep _ _ _ _ hr ih he

theorem Steps.invariant {s : σ} {I : σ → Prop} (h0 : I s)
    (hstep : ∀ t e u, I t → step t e u → I u)
    {τ : List ε} {t : σ} (h : Steps step s τ t) : I t :=
  h.history (I := fun _ t => I t) h0 (fun _ t e u _ hi he => hstep t e u hi he)

theorem Steps.of_snoc {s u : σ} {τ : List ε} {e : ε} (h : Steps step s (τ ++ [e]) u) :
    ∃ t, Steps step s τ t ∧ step t e u := by
  generalize hl : τ ++ [e] = labels at h
  cases h with
  | nil => simp at hl
  | snoc hr he =>
    obtain ⟨rfl, hs⟩ := List.append_inj' hl rfl
    obtain rfl := (List.cons.inj hs).1
    exact ⟨_, hr, he⟩

theorem Steps.of_append {s u : σ} {τ τ' : List ε} (h : Steps step s (τ ++ τ') u) :
    ∃ t, Steps step s τ t ∧ Steps step t τ' u := by
  induction τ' using List.reverseRecOn generalizing u with
  | nil => exact ⟨u, by simpa using h, .nil⟩
  | append_singleton τ' e ih =>
    rw [← List.append_assoc] at h
    obtain ⟨m, hm, he⟩ := h.of_snoc
    obtain ⟨t, ht, ht'⟩ := ih hm
    exact ⟨t, ht, ht'.snoc he⟩

theorem Steps.of_split {s u : σ} {pre post : List ε} {e : ε}
    (h : Steps step s (pre ++ e :: post) u) :
    ∃ m m', Steps step s pre m ∧ step m e m' ∧ Steps step m' post u := by
  rw [show pre ++ e :: post = (pre ++ [e]) ++ post by simp] at h
  obtain ⟨m', hm, hp⟩ := h.of_append
  obtain ⟨m, hm, he⟩ := hm.of_snoc
  exact ⟨m, m', hm, he, hp⟩

/-- The relation that a step function of chosen actions induces. -/
def Induced {α : Type*} (next : σ → α → Option (ε × σ)) (s : σ) (e : ε) (t : σ) : Prop :=
  ∃ a, next s a = some (e, t)

def exec {α : Type*} (next : σ → α → Option (ε × σ)) : σ → List α → Option (List ε × σ)
  | s, [] => some ([], s)
  | s, a :: as =>
    match next s a with
    | none => none
    | some (e, t) => (exec next t as).map (fun r => (e :: r.1, r.2))

theorem exec_steps {α : Type*} {next : σ → α → Option (ε × σ)} {s t : σ} {as : List α}
    {τ : List ε} (h : exec next s as = some (τ, t)) : Steps (Induced next) s τ t := by
  induction as generalizing s τ with
  | nil =>
    obtain ⟨rfl, rfl⟩ := Prod.mk.inj (Option.some.inj h)
    exact .nil
  | cons a as ih =>
    simp only [exec] at h
    split at h
    · cases h
    · rename_i e u hn
      obtain ⟨⟨τ', t'⟩, hr, he⟩ := Option.map_eq_some_iff.mp h
      obtain ⟨rfl, rfl⟩ := Prod.mk.inj he
      exact (Steps.single ⟨a, hn⟩).trans (ih hr)

theorem exec_any {α : Type*} {next : σ → α → Option (ε × σ)} {s : σ} {as : List α} {p : List ε × σ → Bool}
    (h : (exec next s as).any p = true) : ∃ τ t, Steps (Induced next) s τ t ∧ p (τ, t) = true := by
  cases hr : exec next s as with
  | none =>
    rw [hr] at h
    cases h
  | some r =>
    rw [hr] at h
    exact ⟨r.1, r.2, exec_steps hr, h⟩

end Runs
