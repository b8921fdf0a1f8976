import QaCopilot.Lib.Results

/-!
# Errors that escape

A computation is closed over its errors when every error that it fails with is one of the expected
ones. Any other escapes; these lemmas follow it through the parts of a computation.
-/

namespace QaCopilot.Results

variable {ε ε' α β σ : Type} {expected : ε → Prop}

/-- The computation fails with an error that is not expected. -/
def Escapes (expected : ε → Prop) (x : Except ε α) : Prop := ∃ e, x = .error e ∧ ¬ expected e

theorem closed_iff {x : Except ε α} :
    (∀ e, x = .error e → expected e) ↔ ¬ Escapes expected x := by
  constructor
  · rintro closed ⟨e, failed, unexpected⟩
    exact unexpected (closed e failed)
  · intro none' e failed
    by_contra unexpected
    exact none' ⟨e, failed, unexpected⟩

@[simp] theorem escapes_ok (a : α) : ¬ Escapes expected (.ok a : Except ε α) := by
  rintro ⟨e, failed, -⟩
  cases failed

@[simp] theorem escapes_error {e : ε} :
    Escapes expected (.error e : Except ε α) ↔ ¬ expected e := by
  constructor
  · rintro ⟨_, failed, unexpected⟩
    obtain rfl := Except.error.inj failed
    exact unexpected
  · exact fun unexpected => ⟨e, rfl, unexpected⟩

theorem escapes_bind {x : Except ε α} {f : α → Except ε β} :
    Escapes expected (x >>= f) ↔
      Escapes expected x ∨ ∃ a, x = .ok a ∧ Escapes expected (f a) := by
  cases x with
  | error e =>
    have failed : (Except.error e >>= f) = .error e := rfl
    rw [failed]
    simp
  | ok a =>
    rw [ok_bind]
    simp

/-- A computation whose errors are all expected ones. -/
theorem escapes_mapError {x : Except ε' α} {f : ε' → ε} (all : ∀ e, expected (f e)) :
    ¬ Escapes expected (x.mapError f) := by
  cases x with
  | error e => simpa [Except.mapError] using all e
  | ok a => exact escapes_ok a

/-- An error escapes a loop at some step that the loop reaches. -/
theorem escapes_foldlM {f : σ → α → Except ε σ} {s : σ} {xs : List α} :
    Escapes expected (xs.foldlM f s) ↔ ∃ before x after t, xs = before ++ x :: after ∧
      before.foldlM f s = .ok t ∧ Escapes expected (f t x) := by
  induction xs generalizing s with
  | nil =>
    constructor
    · exact fun h => absurd h (escapes_ok s)
    · rintro ⟨before, x, after, t, split, -⟩
      cases before <;> cases split
  | cons x xs ih =>
    rw [List.foldlM_cons, escapes_bind]
    constructor
    · rintro (now | ⟨t, first, later⟩)
      · exact ⟨[], x, xs, s, rfl, rfl, now⟩
      · obtain ⟨before, y, after, u, rfl, reached, escapes⟩ := ih.mp later
        refine ⟨x :: before, y, after, u, rfl, ?_, escapes⟩
        rw [List.foldlM_cons, first]
        exact reached
    · rintro ⟨before, y, after, u, split, reached, escapes⟩
      cases before with
      | nil =>
        obtain ⟨rfl, rfl⟩ := List.cons.inj split
        obtain rfl := Except.ok.inj reached
        exact .inl escapes
      | cons b before =>
        obtain ⟨rfl, rfl⟩ := List.cons.inj split
        rw [List.foldlM_cons] at reached
        obtain ⟨t, first, reached⟩ := bind_ok.mp reached
        exact .inr ⟨t, first, ih.mpr ⟨before, y, after, u, rfl, reached, escapes⟩⟩

/-- A loop that succeeds does every step from some state, in order. -/
theorem foldlM_append_ok {f : σ → α → Except ε σ} {s u : σ} {xs ys : List α} :
    (xs ++ ys).foldlM f s = .ok u ↔ ∃ t, xs.foldlM f s = .ok t ∧ ys.foldlM f t = .ok u := by
  rw [List.foldlM_append, bind_ok]

end QaCopilot.Results
