import Mathlib.Data.List.Nodup

/-!
# Runs of a step function

A system is a total step function on its state: a refused step leaves the
state alone, so an interleaving is any list of inputs.

* `run_invariant`: what every admitted step preserves holds after any run;
* `run_rel`: a reflexive, transitive relation between the two ends of each
  step relates the two ends of the run;
* `trace_forall`: what holds of each report of a step holds of the trace;
* `trace_nodup`: a report that is only made while it is not spent, and is
  spent for ever once made, is made at most once.
-/

namespace QaCopilot.Runs

section
variable {σ ι ε : Type} {step : σ → ι → σ} {emit : σ → ι → List ε}

/-- The state after the inputs `is`. -/
def run (step : σ → ι → σ) : σ → List ι → σ
  | s, [] => s
  | s, i :: is => run step (step s i) is

/-- What the steps report along the inputs `is`, in order. -/
def trace (step : σ → ι → σ) (emit : σ → ι → List ε) : σ → List ι → List ε
  | _, [] => []
  | s, i :: is => emit s i ++ trace step emit (step s i) is

/-- Every input meets `C` in the state it is given to. -/
def Meets (step : σ → ι → σ) (C : σ → ι → Prop) : σ → List ι → Prop
  | _, [] => True
  | s, i :: is => C s i ∧ Meets step C (step s i) is

instance {C : σ → ι → Prop} [∀ s i, Decidable (C s i)] :
    (s : σ) → (is : List ι) → Decidable (Meets step C s is)
  | _, [] => inferInstanceAs (Decidable True)
  | s, i :: is =>
    have : Decidable (Meets step C (step s i) is) := instDecidableMeets (step s i) is
    inferInstanceAs (Decidable (C s i ∧ Meets step C (step s i) is))

@[simp] theorem run_nil (s : σ) : run step s [] = s := rfl

@[simp] theorem run_cons (s : σ) (i : ι) (is : List ι) :
    run step s (i :: is) = run step (step s i) is := rfl

@[simp] theorem trace_nil (s : σ) : trace step emit s [] = [] := rfl

@[simp] theorem trace_cons (s : σ) (i : ι) (is : List ι) :
    trace step emit s (i :: is) = emit s i ++ trace step emit (step s i) is := rfl

theorem run_append (s : σ) (is js : List ι) :
    run step s (is ++ js) = run step (run step s is) js := by
  induction is generalizing s with
  | nil => rfl
  | cons i is ih => exact ih (step s i)

theorem meets_append {C : σ → ι → Prop} {s : σ} {is js : List ι} :
    Meets step C s (is ++ js) ↔ Meets step C s is ∧ Meets step C (run step s is) js := by
  induction is generalizing s with
  | nil => simp [Meets]
  | cons i is ih => simp only [List.cons_append, Meets, run_cons, ih, and_assoc]

theorem meets_true (s : σ) (is : List ι) : Meets step (fun _ _ => True) s is := by
  induction is generalizing s with
  | nil => trivial
  | cons i is ih => exact ⟨trivial, ih _⟩

theorem run_invariant {I : σ → Prop} {C : σ → ι → Prop}
    (preserved : ∀ s i, I s → C s i → I (step s i)) {s : σ} {is : List ι}
    (start : I s) (meets : Meets step C s is) : I (run step s is) := by
  induction is generalizing s with
  | nil => exact start
  | cons i is ih => exact ih (preserved s i start meets.1) meets.2

/-- `run_invariant` when no step needs a condition. -/
theorem run_invariant' {I : σ → Prop} (preserved : ∀ s i, I s → I (step s i))
    {s : σ} (start : I s) (is : List ι) : I (run step s is) :=
  run_invariant (C := fun _ _ => True) (fun s i h _ => preserved s i h) start (meets_true s is)

/-- An invariant that holds as long as `C` does gives `P` of each step. -/
theorem meets_of_invariant {I : σ → Prop} {A : ι → Prop} {C P : σ → ι → Prop}
    (preserved : ∀ s i, I s → A i → C s i → I (step s i)) (each : ∀ s i, I s → C s i → P s i)
    {s : σ} {is : List ι} (start : I s) (all : ∀ i ∈ is, A i) (meets : Meets step C s is) :
    Meets step P s is := by
  induction is generalizing s with
  | nil => trivial
  | cons i is ih =>
    refine ⟨each s i start meets.1, ?_⟩
    exact ih (preserved s i start (all i List.mem_cons_self) meets.1)
      (fun j hj => all j (List.mem_cons_of_mem i hj)) meets.2

theorem run_rel {I : σ → Prop} {R : σ → σ → Prop} (rfl' : ∀ s, R s s)
    (trans' : ∀ {a b c}, R a b → R b c → R a c)
    (preserved : ∀ s i, I s → I (step s i)) (related : ∀ s i, I s → R s (step s i))
    {s : σ} (start : I s) (is : List ι) : R s (run step s is) := by
  induction is generalizing s with
  | nil => exact rfl' s
  | cons i is ih => exact trans' (related s i start) (ih (preserved s i start))

theorem trace_forall {I : σ → Prop} {C : σ → ι → Prop} {P : ε → Prop}
    (preserved : ∀ s i, I s → C s i → I (step s i))
    (each : ∀ s i, I s → C s i → ∀ e ∈ emit s i, P e) {s : σ} {is : List ι}
    (start : I s) (meets : Meets step C s is) : ∀ e ∈ trace step emit s is, P e := by
  induction is generalizing s with
  | nil => simp
  | cons i is ih =>
    intro e he
    rcases List.mem_append.mp he with he | he
    · exact each s i start meets.1 e he
    · exact ih (preserved s i start meets.1) meets.2 e he

theorem trace_nodup {I : σ → Prop} {spent : σ → ε → Prop}
    (preserved : ∀ s i, I s → I (step s i))
    (fresh : ∀ s i, I s → (emit s i).Nodup ∧ ∀ e ∈ emit s i, ¬ spent s e)
    (marks : ∀ s i, I s → ∀ e ∈ emit s i, spent (step s i) e)
    (keeps : ∀ s i, I s → ∀ e, spent s e → spent (step s i) e)
    {s : σ} (start : I s) (is : List ι) :
    (trace step emit s is).Nodup ∧ ∀ e ∈ trace step emit s is, ¬ spent s e := by
  induction is generalizing s with
  | nil => simp
  | cons i is ih =>
    obtain ⟨nodup, later⟩ := ih (preserved s i start)
    obtain ⟨nodup₀, now⟩ := fresh s i start
    constructor
    · refine List.nodup_append.mpr ⟨nodup₀, nodup, ?_⟩
      rintro e he f hf rfl
      exact later e hf (marks s i start e he)
    · intro e he spentNow
      rcases List.mem_append.mp he with he | he
      · exact now e he spentNow
      · exact later e he (keeps s i start e spentNow)

end

end QaCopilot.Runs
