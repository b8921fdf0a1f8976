import QaCopilot.Evaluation.ReviewEffects

/-!
# Who reviews whom

An independent reviewer is compared with the author of the latest primary revision, an adjudicator
with the authors of the two linked labels.

* `roles_separate`: if nobody who wrote another revision comes back, no author of a primary label
  reviews the subject independently and no author of either adjudicates it;
* `superseded_author_reviews`: the author of a superseded primary revision is let in.
-/

namespace QaCopilot.Reviews

open QaCopilot.Python QaCopilot.Runs QaCopilot.Table

/-- What the author of an earlier label may still write about its subject. -/
def Separate (earlier later : Label) : Prop :=
  earlier.isOf later.caseId later.subjectKind later.subjectId = true →
    earlier.reviewerId = later.reviewerId →
      (later.role = .independent → earlier.role ≠ .primary) ∧
        (later.role = .adjudicated → earlier.role = .adjudicated)

instance (earlier later : Label) : Decidable (Separate earlier later) :=
  inferInstanceAs (Decidable (_ → _ → _ ∧ _))

/-- The author of every label wrote none before that excludes it, and every adjudication was made
with a label of its adjudicator, about the subject of the disagreement. -/
structure RolesSeparate (s : Store) : Prop where
  labels : s.labels.Pairwise Separate
  adjudications : ∀ a ∈ s.adjudications, ∃ label ∈ s.labels, label.id = a.adjudicatedLabelId ∧
    label.role = .adjudicated ∧ label.reviewerId = a.adjudicatorId ∧
    ∃ d ∈ s.disagreements, d.id = a.disagreementId ∧ ∃ primary ∈ s.labels,
      primary.id = d.primaryLabelId ∧
        label.isOf primary.caseId primary.subjectKind primary.subjectId = true

/-- The reviewer of a call wrote no revision that excludes it besides those it is compared with. -/
def comparedWithAll (rt : Runtime) (s : Store) (i : Call × Weather) : Bool :=
  match i.1 with
  | .submitIndependent r =>
    match lockedPrimary rt s r.caseId r.subjectKind r.subjectId with
    | .ok primary => s.labels.all fun l =>
        !(l.isOf r.caseId r.subjectKind r.subjectId && l.role = .primary &&
          l.reviewerId = strip r.reviewerId) || l.id = primary.id
    | .error _ => true
  | .adjudicate v =>
    match linkedLabels rt s v.independentLabelId "Only an independent label can be adjudicated" with
    | .ok (primary, independent) => s.labels.all fun l =>
        !(l.isOf primary.caseId primary.subjectKind primary.subjectId && l.role ≠ .adjudicated &&
          l.reviewerId = strip v.adjudicatorId) || l.id = primary.id || l.id = independent.id
    | .error _ => true
  | _ => true

/-- Labels have identifiers of their own and name their subjects without blanks at the ends. -/
structure Tidy (s : Store) : Prop where
  ids : (s.labels.map (·.id)).Nodup
  subjects : ∀ l ∈ s.labels, strip l.caseId = l.caseId ∧ strip l.subjectId = l.subjectId

theorem step_tidy {rt : Runtime} {s : Store} {i : Call × Weather} (tidy : Tidy s) :
    Tidy (step rt s i) := by
  have effect := step_effect rt s i
  generalize step rt s i = s' at effect
  cases effect with
  | nothing => exact tidy
  | attested => exact ⟨tidy.ids, tidy.subjects⟩
  | disagreed => exact ⟨tidy.ids, tidy.subjects⟩
  | @labelled d label adjudications drafted made fresh resolved =>
    obtain ⟨-, new, -⟩ := newLabel_ok made
    constructor
    · simp only [List.map_append, List.map_cons, List.map_nil, List.nodup_append, List.nodup_cons,
        List.not_mem_nil, not_false_eq_true, List.nodup_nil, and_true, tidy.ids, true_and]
      intro id hid id' hid' same
      obtain ⟨l, hl, rfl⟩ := List.mem_map.mp hid
      have := fresh l hl
      simp only [Label.clashes, Bool.or_eq_false_iff, decide_eq_false_iff_not] at this
      exact this.1 (by simp_all)
    · intro l hl
      rcases List.mem_append.mp hl with hl | hl
      · exact tidy.subjects l hl
      · obtain rfl := List.mem_singleton.mp hl
        exact ⟨new.texts.1.1, new.texts.2.1.1⟩

/-- A label written under the condition is separate from every label before it. -/
theorem drafted_separate {rt : Runtime} {s : Store} {i : Call × Weather} {d : Draft} {label : Label}
    (tidy : Tidy s) (compared : comparedWithAll rt s i = true) (drafted : Drafted rt s i.1 d)
    (new : NewLabel rt s d label) : ∀ l ∈ s.labels, Separate l label := by
  intro l hl same author
  obtain ⟨call, w⟩ := i
  cases drafted with
  | primary r =>
    have role : label.role = .primary := new.role
    simp [role]
  | @independent r primary locked differs =>
    have role : label.role = .independent := new.role
    refine ⟨fun _ wasPrimary => ?_, by simp [role]⟩
    obtain ⟨-, row, hrow, subject, read⟩ := latestLabel_mem (lockedPrimary_ok.mp locked)
    obtain ⟨-, _, _, _, _, rfl⟩ := labelFromRecord_ok read
    obtain ⟨caseTidy, subjectTidy⟩ := tidy.subjects row hrow
    have about : l.isOf r.caseId r.subjectKind r.subjectId = true := by
      rw [isOf_iff] at same subject ⊢
      obtain ⟨caseId, kind, subjectId⟩ := isOf_iff.mp new.subject
      simp only [IndependentReview.draft, caseTidy, subjectTidy] at caseId kind subjectId
      exact ⟨by rw [same.1, caseId, subject.1], by rw [same.2.1, kind, subject.2.1],
        by rw [same.2.2, subjectId, subject.2.2]⟩
    have byReviewer : l.reviewerId = strip r.reviewerId := author.trans new.reviewer
    have id : l.id = row.id := by
      simp only [comparedWithAll, locked, List.all_eq_true] at compared
      simpa [about, wasPrimary, byReviewer] using compared l hl
    have latest : l = row := eq_of_key tidy.ids hl hrow id
    exact differs (byReviewer ▸ latest ▸ rfl)
  | @adjudicated v message primary independent linked differs =>
    have role : label.role = .adjudicated := new.role
    refine ⟨by simp [role], fun _ => ?_⟩
    by_contra other
    obtain ⟨readIndependent, -, primaryId, -, readPrimary⟩ := linkedLabels_ok.mp linked
    obtain ⟨p, hp, -, made⟩ := labelOf_row readPrimary
    obtain ⟨q, hq, -, made'⟩ := labelOf_row readIndependent
    obtain ⟨-, _, _, _, _, rfl⟩ := labelFromRecord_ok made
    obtain ⟨-, _, _, _, _, rfl⟩ := labelFromRecord_ok made'
    obtain ⟨caseTidy, subjectTidy⟩ := tidy.subjects p hp
    have about : l.isOf p.caseId p.subjectKind p.subjectId = true := by
      rw [isOf_iff] at same ⊢
      obtain ⟨caseId, kind, subjectId⟩ := isOf_iff.mp new.subject
      simp only [Verdict.draft, caseTidy, subjectTidy] at caseId kind subjectId
      exact ⟨by rw [same.1, caseId], by rw [same.2.1, kind], by rw [same.2.2, subjectId]⟩
    have byAdjudicator : l.reviewerId = strip v.adjudicatorId := author.trans new.reviewer
    have either : l.id = p.id ∨ l.id = q.id := by
      simp only [comparedWithAll, linkedLabels_ok.mpr (linkedLabels_ok.mp linked),
        List.all_eq_true] at compared
      simpa [about, other, byAdjudicator] using compared l hl
    rcases either with id | id
    · have : l = p := eq_of_key tidy.ids hl hp id
      exact differs.1 (byAdjudicator ▸ this ▸ rfl)
    · have : l = q := eq_of_key tidy.ids hl hq id
      exact differs.2 (byAdjudicator ▸ this ▸ rfl)

/-- A final label is about the subject of its primary label. -/
theorem drafted_subject {rt : Runtime} {s : Store} {call : Call} {d : Draft} {label : Label}
    (tidy : Tidy s) (drafted : Drafted rt s call d) (new : NewLabel rt s d label)
    (final : d.role = .adjudicated) {primaryId : Uuid} (link : label.primaryLabelId = some primaryId) :
    ∃ primary ∈ s.labels, primary.id = primaryId ∧
      label.isOf primary.caseId primary.subjectKind primary.subjectId = true := by
  cases drafted with
  | primary r => cases final
  | independent r => cases final
  | @adjudicated v message primary independent linked differs =>
    obtain ⟨-, -, id, -, readPrimary⟩ := linkedLabels_ok.mp linked
    obtain ⟨p, hp, -, made⟩ := labelOf_row readPrimary
    obtain ⟨-, _, _, _, _, rfl⟩ := labelFromRecord_ok made
    obtain ⟨caseTidy, subjectTidy⟩ := tidy.subjects p hp
    refine ⟨p, hp, ?_, ?_⟩
    · have := new.primary.symm.trans link
      exact Option.some.inj this
    · have subject := new.subject
      simpa only [Verdict.draft, caseTidy, subjectTidy] using subject

theorem step_separate {rt : Runtime} {s : Store} {i : Call × Weather}
    (kept : Tidy s ∧ RolesSeparate s) (compared : comparedWithAll rt s i = true) :
    Tidy (step rt s i) ∧ RolesSeparate (step rt s i) := by
  refine ⟨step_tidy kept.1, ?_⟩
  obtain ⟨tidy, separate⟩ := kept
  have effect := step_effect rt s i
  generalize step rt s i = s' at effect
  cases effect with
  | nothing => exact separate
  | attested => exact ⟨separate.labels, separate.adjudications⟩
  | disagreed =>
    refine ⟨separate.labels, fun a ha => ?_⟩
    obtain ⟨label, hl, id, role, author, d, hd, about⟩ := separate.adjudications a ha
    exact ⟨label, hl, id, role, author, d, List.mem_append_left _ hd, about⟩
  | @labelled d label adjudications drafted made fresh resolved =>
    obtain ⟨-, new, -⟩ := newLabel_ok made
    constructor
    · simp only [List.pairwise_append, List.pairwise_singleton, separate.labels, true_and,
        List.mem_singleton, forall_eq]
      exact drafted_separate tidy compared drafted new
    · intro a ha
      rcases List.mem_append.mp ha with ha | ha
      · obtain ⟨old, hl, id, role, author, x, hx, about, p, hp, subject⟩ :=
          separate.adjudications a ha
        exact ⟨old, List.mem_append_left _ hl, id, role, author, x, hx, about, p,
          List.mem_append_left _ hp, subject⟩
      · obtain ⟨final, written, author, x, hx, about, link⟩ := resolved a ha
        obtain ⟨p, hp, id, subject⟩ := drafted_subject tidy drafted new final link
        exact ⟨label, by simp, written.symm, new.role.trans final, author.symm, x, hx, about.symm, p,
          List.mem_append_left _ hp, id, subject⟩

/-- In every run whose independent reviewers and adjudicators wrote no revision besides those they
are compared with, the roles stay separate. -/
theorem roles_separate {rt : Runtime} {calls : List (Call × Weather)}
    (compared : Meets (step rt) (fun s i => comparedWithAll rt s i = true) .empty calls) :
    RolesSeparate (run (step rt) .empty calls) := by
  have start : Tidy .empty ∧ RolesSeparate .empty :=
    ⟨⟨.nil, by simp [Store.empty]⟩, ⟨.nil, by simp [Store.empty]⟩⟩
  exact (run_invariant (I := fun s => Tidy s ∧ RolesSeparate s)
    (fun s i kept compared => step_separate kept compared) start compared).2

theorem roles_separate_sample :
    RolesSeparate (run (step sampleRuntime) .empty (sampleCalls ++
      [(.recordMaterialDisagreements (sampleId 500), sampleWeather 6),
        (.adjudicate (sampleVerdict "seen"), sampleWeather 7)])) :=
  roles_separate (by decide +kernel)

/-- Ann writes a primary label, Bob revises it, and Ann reviews the subject independently. -/
theorem superseded_author_reviews :
    ¬ RolesSeparate (run (step sampleRuntime) .empty
      [(sampleAttestation "ann", sampleWeather 1), (sampleAttestation "bob", sampleWeather 2),
        (.submitPrimary (samplePrimary "ann" 100 (sampleLabels false "p.1" "a")), sampleWeather 3),
        (.submitPrimary (samplePrimary "bob" 200 (sampleLabels true "p.1" "abc")),
          sampleWeather 4),
        (.submitIndependent (sampleIndependent "ann" 100 (sampleLabels true "p.2" "a")),
          sampleWeather 5)]) := by
  intro separate
  have labels := separate.labels
  revert labels
  decide +kernel

end QaCopilot.Reviews
