import QaCopilot.Evaluation.ReviewEffects

/-!
# Adjudication

A call of `adjudicate` that meets no failing repository fails for one of its checks, or for a blank
rationale once it has created the final label.

* `adjudication_allOrNothing`: when a call that raises has changed nothing.
-/

namespace QaCopilot.Reviews

open QaCopilot.Python QaCopilot.Table QaCopilot.Results

/-! ## All or nothing -/

/-- A call that raises has changed nothing, and what could be adjudicated before it still can. -/
def AllOrNothing (rt : Runtime) (s : Store) (w : Weather) (v : Verdict) : Prop :=
  ∀ e, (adjudicate rt s w v).1 = .error e →
    (adjudicate rt s w v).2 = s ∧
      ∀ w' v', (adjudicate rt s w' v').1.isOk = true →
        (adjudicate rt (adjudicate rt s w v).2 w' v').1.isOk = true

/-- Once no check refuses the call, it comes to every rationale; each has text. -/
def RationalesGiven (rt : Runtime) (s : Store) (w : Weather) (v : Verdict) : Prop :=
  ∀ label material, prepareAdjudication rt s v (w.newId 0) (w.now 0) = .ok (label, material) →
    ∀ d ∈ material, strip (v.rationale d) ≠ []

/-- Beside a failing repository only a blank rationale stops the loop. -/
theorem createAdjudications_isOk {w : Weather} {v : Verdict} {label : Label} {n : Nat}
    {ds : List Disagreement} {s : Store}
    (answered : (createAdjudications w v label n ds s).1 ≠ .error .unavailable) :
    (createAdjudications w v label n ds s).1 = .ok () ↔ ∀ d ∈ ds, strip (v.rationale d) ≠ [] := by
  induction ds generalizing n s with
  | nil => simp [createAdjudications]
  | cons d ds ih =>
    rw [List.forall_mem_cons]
    rw [createAdjudications] at answered ⊢
    cases text : requireText (v.rationale d) "Adjudication rationale" with
    | error e =>
      refine iff_of_false (by simp) fun given => ?_
      rw [requireText_ok.mpr ⟨given.1, rfl⟩] at text
      cases text
    | ok rationale =>
      have given := (requireText_ok.mp text).1
      simp only [text] at answered ⊢
      rcases createAdjudication_cases s (w.fails n) (newAdjudication w v label n d rationale) with refused | made
      · simp [refused] at answered
      · simp only [made] at answered ⊢
        rw [ih answered, and_iff_right given]

/-- What a call of `adjudicate` comes to. -/
theorem adjudicate_refused {rt : Runtime} {s : Store} {w : Weather} {v : Verdict} {e : ReviewError}
    (refused : prepareAdjudication rt s v (w.newId 0) (w.now 0) = .error e) :
    adjudicate rt s w v = (.error e, s) := by
  rw [adjudicate, refused]

/-- A call past its checks, with a repository that answers, writes the label, and raises if and
only if a rationale is blank. -/
theorem adjudicate_prepared {rt : Runtime} {s : Store} {w : Weather} {v : Verdict} {label : Label}
    {material : List Disagreement}
    (prepared : prepareAdjudication rt s v (w.newId 0) (w.now 0) = .ok (label, material))
    (answered : (adjudicate rt s w v).1 ≠ .error .unavailable) :
    (adjudicate rt s w v).2.labels = s.labels ++ [label] ∧
      ((∃ e, (adjudicate rt s w v).1 = .error e) ↔ ∃ d ∈ material, strip (v.rationale d) = []) := by
  obtain ⟨_, _, -, -, -, -, -, -, -, written⟩ := prepareAdjudication_ok.mp prepared
  obtain ⟨-, -, readBack⟩ := newLabel_ok written
  simp only [adjudicate, prepared] at answered ⊢
  rcases createLabel_cases rt s (w.fails 0) label with refused | ⟨-, made⟩
  · simp [refused] at answered
  · simp only [made, readBack] at answered ⊢
    obtain ⟨_, after, -⟩ := createAdjudications_effect w v label 1 material
      { s with labels := s.labels ++ [label] }
    have labels := congrArg Store.labels after
    have loop := @createAdjudications_isOk w v label 1 material
      { s with labels := s.labels ++ [label] }
    cases result : createAdjudications w v label 1 material
        { s with labels := s.labels ++ [label] } with
    | mk outcome after =>
      rw [result] at labels loop
      simp only [result] at answered ⊢
      cases outcome with
      | ok u =>
        have given := (loop (by simp)).mp rfl
        refine ⟨labels, iff_of_false (by simp) ?_⟩
        rintro ⟨d, hd, blank⟩
        exact given d hd blank
      | error e =>
        have notGiven := (not_congr (loop (by simpa using answered))).mp (by simp)
        refine ⟨labels, iff_of_true ⟨e, rfl⟩ ?_⟩
        simpa using notGiven

/-- Where the repository answers, `adjudicate` is all or nothing exactly when a check refuses the
call or every rationale has text. -/
theorem adjudication_allOrNothing (rt : Runtime) (s : Store) (w : Weather) (v : Verdict)
    (answered : (adjudicate rt s w v).1 ≠ .error .unavailable) :
    AllOrNothing rt s w v ↔ RationalesGiven rt s w v := by
  constructor
  · intro all label material prepared d hd blank
    obtain ⟨labels, raises⟩ := adjudicate_prepared prepared answered
    obtain ⟨e, raised⟩ := raises.mpr ⟨d, hd, blank⟩
    rw [(all e raised).1] at labels
    simp at labels
  · intro given e raised
    have unchanged : (adjudicate rt s w v).2 = s := by
      cases prepared : prepareAdjudication rt s v (w.newId 0) (w.now 0) with
      | error e => rw [adjudicate_refused prepared]
      | ok p =>
        obtain ⟨d, hd, blank⟩ := (adjudicate_prepared prepared answered).2.mp ⟨e, raised⟩
        exact absurd blank (given p.1 p.2 prepared d hd)
    refine ⟨unchanged, ?_⟩
    intro w' v' succeeds
    rwa [unchanged]

theorem adjudication_allOrNothing_sample :
    AllOrNothing sampleRuntime comparedStore (sampleWeather 7) (sampleVerdict "seen") ↔
      RationalesGiven sampleRuntime comparedStore (sampleWeather 7) (sampleVerdict "seen") :=
  adjudication_allOrNothing sampleRuntime comparedStore (sampleWeather 7) (sampleVerdict "seen")
    (by decide +kernel)

/-- A blank second rationale leaves the label and the first adjudication behind, and the corrected
call is refused. -/
theorem blank_rationale_strands :
    (adjudicate sampleRuntime comparedStore (sampleWeather 7) (sampleVerdict " ")).1 ≠
        .error .unavailable ∧
      ¬ AllOrNothing sampleRuntime comparedStore (sampleWeather 7) (sampleVerdict " ") := by
  refine ⟨by decide +kernel, ?_⟩
  intro all
  have raised : (adjudicate sampleRuntime comparedStore (sampleWeather 7) (sampleVerdict " ")).1 =
      .error (.rejected "Adjudication rationale must not be blank") := by decide +kernel
  have corrected := (all _ raised).2 (sampleWeather 8) (sampleVerdict "seen") (by decide +kernel)
  revert corrected
  decide +kernel

end QaCopilot.Reviews
