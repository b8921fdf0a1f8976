import QaCopilot.Evaluation.LabelFailures

/-!
# What an accepted manifest promises

A manifest that the verification accepts in independent-review mode labels every case once, under
revisions that are used once, and has the selected cases reviewed by somebody else. Each promise is
about the mappings of the manifest itself.

* `accepted_sound`: all of them, for any suite, selection and manifest.
-/

namespace QaCopilot.Evaluation.LabelCompleteness

open Python Results

/-! ## The manifest as it is written -/

def textOf (fields : Fields) (key : String) : Option Str := (fields.get key).str?

/-- The mappings that a key lists. -/
def recordsOf (fields : Fields) (key : String) : Option (List Fields) :=
  match fields.get key with
  | .list xs => xs.mapM Object.fields?
  | _ => none

def reviewOf (label : Fields) (key : String) : Option Fields := (label.get key).fields?

/-- The reviews of a label, and its adjudication. -/
def reviewsOf (label : Fields) : List Fields :=
  ["primary", "independent", "adjudication"].filterMap (reviewOf label)

def revisionsOf (label : Fields) : List Str := (reviewsOf label).filterMap (textOf · "label_revision")

/-- An attestation of the review's reviewer says that they are eligible. -/
def EligibleReviewer (attestations : List Fields) (review : Fields) : Prop :=
  ∃ attestationId reviewerId, textOf review "reviewer_attestation_id" = some attestationId ∧
    textOf review "reviewer_id" = some reviewerId ∧
    ∃ record ∈ attestations, textOf record "attestation_id" = some attestationId ∧
      textOf record "reviewer_id" = some reviewerId ∧ record.get "eligible" = .bool true

/-- Two reviews by two people. -/
def OtherReviewer (review other : Fields) : Prop :=
  ∃ reviewer otherReviewer, textOf review "reviewer_id" = some reviewer ∧
    textOf other "reviewer_id" = some otherReviewer ∧ reviewer ≠ otherReviewer

/-- A blind review by somebody eligible who did not label the case. -/
def IndependentlyReviewed (attestations : List Fields) (label : Fields) : Prop :=
  ∃ primary independent, reviewOf label "primary" = some primary ∧
    reviewOf label "independent" = some independent ∧ independent.get "blind" = .bool true ∧
    EligibleReviewer attestations independent ∧ OtherReviewer independent primary

/-- What is promised of one label. -/
structure SoundLabel (attestations : List Fields) (selected : List Str) (label : Fields) :
    Prop where
  revised : ∀ review ∈ reviewsOf label, ∃ revision, textOf review "label_revision" = some revision
  final : ∃ revision ∈ revisionsOf label,
    textOf label "approved_final_label_revision" = some revision
  reviewed : ∀ caseId ∈ selected, textOf label "case_id" = some caseId →
    IndependentlyReviewed attestations label
  adjudicated : ∀ adjudication, reviewOf label "adjudication" = some adjudication →
    ∀ key ∈ ["primary", "independent"], ∀ review, reviewOf label key = some review →
      OtherReviewer adjudication review

/-- What is promised of all labels. -/
def SoundManifest (suite : EvaluationCaseSuite) (selection manifest : Fields) : Prop :=
  ∃ labels attestations selected, recordsOf manifest "labels" = some labels ∧
    recordsOf manifest "reviewer_attestations" = some attestations ∧
    recordsOf selection "selected_cases" = some selected ∧
    (labels.map (textOf · "case_id")).Perm (suite.cases.map (some ·.id)) ∧
    (labels.flatMap revisionsOf).Nodup ∧
    ∀ label ∈ labels, SoundLabel attestations (selected.filterMap (textOf · "case_id")) label

/-! ## Readers -/

theorem requireText_ok {fields : Fields} {key : String} {description s : Str}
    (read : requireText fields key description = .ok s) : textOf fields key = some s := by
  unfold requireText at read
  split at read
  · rename_i held
    split at read
    · cases read
    · obtain rfl := Except.ok.inj read
      rw [textOf, held]
      rfl
  · cases read

theorem requireMapping_ok {fields record : Fields} {key : String} {description : Str} :
    requireMapping fields key description = .ok record ↔ reviewOf fields key = some record :=
  mapping_ok

theorem optionalMapping_ok {fields : Fields} {key : String} {description : Str}
    {record : Option Fields} (read : optionalMapping fields key description = .ok record) :
    reviewOf fields key = record := by
  unfold optionalMapping at read
  split at read
  · rename_i held
    obtain rfl := Except.ok.inj read
    rw [reviewOf, held]
    rfl
  · cases found : mapping (fields.get key) (at' description key) with
    | error e =>
      rw [found] at read
      cases read
    | ok value =>
      rw [found] at read
      obtain rfl := Except.ok.inj read
      exact mapping_ok.mp found

theorem requireList_ok {fields : Fields} {key : String} {description : Str} {items : List Object} :
    requireList fields key description = .ok items ↔ fields.get key = .list items := by
  unfold requireList
  split
  · rename_i held
    rw [held, Except.ok.injEq, Object.list.injEq]
  · rename_i other
    simp only [reject, reduceCtorEq, false_iff]
    exact other items

theorem requireBool_ok {fields : Fields} {key : String} {message : Str} {b : Bool}
    (read : requireBool fields key message = .ok b) : fields.get key = .bool b := by
  unfold requireBool at read
  split at read
  · rename_i held
    rw [held, Except.ok.inj read]
  · cases read

theorem isTrue_iff {value : Object} : isTrue value = true ↔ value = .bool true := by
  cases value <;> simp [isTrue]

/-- A check that passed, and the rest of the computation. -/
theorem rejectWhen_bind_ok {α : Type} {c : Bool} {message : Str} {next : Unit → Checked α} {a : α} :
    (rejectWhen c message >>= next) = .ok a ↔ c = false ∧ next () = .ok a := by
  rw [bind_ok]
  constructor
  · rintro ⟨u, passed, rest⟩
    exact ⟨rejectWhen_ok.mp passed, rest⟩
  · rintro ⟨passed, rest⟩
    exact ⟨(), rejectWhen_ok.mpr passed, rest⟩

/-! ## Records -/

/-- The dictionary has the listed mappings, each under the id of its case. -/
structure Holds (suite : EvaluationCaseSuite) (items : List Object) (records : ByCase) : Prop where
  mappings : items.mapM Object.fields? = some (records.items.map (·.2.2))
  named : ∀ item ∈ records.items, textOf item.2.2 "case_id" = some item.1 ∧
    caseOf suite item.1 = some item.2.1

theorem mapM_concat {α β : Type} {f : α → Option β} {as : List α} {bs : List β} {a : α} {b : β}
    (before : as.mapM f = some bs) (last : f a = some b) :
    (as ++ [a]).mapM f = some (bs ++ [b]) := by
  rw [List.mapM_append, before, List.mapM_cons, last]
  rfl

theorem addRecord_holds {suite : EvaluationCaseSuite} {description repeats unknown : Str}
    {items : List Object} {rawRecord : Object} {records after : ByCase}
    (held : Holds suite items records)
    (added : addRecord suite description repeats unknown records rawRecord = .ok after) :
    Holds suite (items ++ [rawRecord]) after := by
  obtain ⟨record, isMapping, added⟩ := bind_ok.mp added
  obtain ⟨caseId, named, added⟩ := bind_ok.mp added
  obtain ⟨fresh, added⟩ := rejectWhen_bind_ok.mp added
  have isNew : caseId ∉ records.keys := by simpa using fresh
  split at added
  · cases added
  · rename_i case found
    obtain rfl := Except.ok.inj added
    have appended := Dict.items_set_new (case, record) isNew
    refine ⟨?_, ?_⟩
    · rw [appended, List.map_append]
      exact mapM_concat held.mappings (mapping_ok.mp isMapping)
    · rw [appended]
      intro item hi
      rcases List.mem_append.mp hi with earlier | last
      · exact held.named item earlier
      · obtain rfl := List.mem_singleton.mp last
        exact ⟨requireText_ok named, found⟩

theorem addRecords_hold {suite : EvaluationCaseSuite} {description repeats unknown : Str}
    {items : List Object} {records : ByCase}
    (added : items.foldlM (addRecord suite description repeats unknown) .empty = .ok records) :
    Holds suite items records := by
  refine foldlM_run (P := Holds suite) ?_ (fun _ _ _ _ => addRecord_holds) added
  exact ⟨rfl, fun item hi => absurd hi List.not_mem_nil⟩

theorem labels_ok {manifest : Fields} {suite : EvaluationCaseSuite} {records : ByCase}
    (read : labels manifest suite = .ok records) :
    ∃ items, manifest.get "labels" = .list items ∧ Holds suite items records := by
  obtain ⟨items, listed, added⟩ := bind_ok.mp read
  exact ⟨items, requireList_ok.mp listed, addRecords_hold added⟩

theorem selectedCases_ok {selection : Fields} {suite : EvaluationCaseSuite} {records : ByCase}
    (read : selectedCases selection suite = .ok records) :
    ∃ items, selection.get "selected_cases" = .list items ∧ Holds suite items records := by
  obtain ⟨items, listed, read⟩ := bind_ok.mp read
  obtain ⟨selected, added, read⟩ := bind_ok.mp read
  obtain ⟨-, read⟩ := rejectWhen_bind_ok.mp read
  obtain rfl := Except.ok.inj read
  exact ⟨items, requireList_ok.mp listed, addRecords_hold added⟩

theorem recordsOf_eq {fields : Fields} {key : String} {items : List Object} {records : List Fields}
    (listed : fields.get key = .list items) (read : items.mapM Object.fields? = some records) :
    recordsOf fields key = some records := by
  rw [recordsOf, listed]
  exact read

/-! ## Attestations -/

/-- Each attestation of the dictionary is one of the records. -/
def Attests (records : List Fields) (attestations : Dict Str Attestation) : Prop :=
  ∀ item ∈ attestations.items, ∃ record ∈ records, textOf record "attestation_id" = some item.1 ∧
    textOf record "reviewer_id" = some item.2.reviewerId ∧
    record.get "eligible" = .bool item.2.eligible

theorem addAttestation_attests {rawRecord : Object} {items : List Object}
    {attestations after : Dict Str Attestation}
    (held : ∃ records, items.mapM Object.fields? = some records ∧ Attests records attestations)
    (added : addAttestation attestations rawRecord = .ok after) :
    ∃ records, (items ++ [rawRecord]).mapM Object.fields? = some records ∧
      Attests records after := by
  obtain ⟨records, read, attested⟩ := held
  obtain ⟨record, isMapping, added⟩ := bind_ok.mp added
  obtain ⟨attestationId, named, added⟩ := bind_ok.mp added
  obtain ⟨fresh, added⟩ := rejectWhen_bind_ok.mp added
  have isNew : attestationId ∉ attestations.keys := by simpa using fresh
  obtain ⟨reviewerId, reviewer, added⟩ := bind_ok.mp added
  obtain ⟨-, -, added⟩ := bind_ok.mp added
  obtain ⟨-, -, added⟩ := bind_ok.mp added
  obtain ⟨eligible, isEligible, added⟩ := bind_ok.mp added
  obtain ⟨independent, -, added⟩ := bind_ok.mp added
  obtain rfl := Except.ok.inj added
  refine ⟨records ++ [record], mapM_concat read (mapping_ok.mp isMapping), ?_⟩
  rw [Attests, Dict.items_set_new _ isNew]
  intro item hi
  rcases List.mem_append.mp hi with earlier | last
  · obtain ⟨record', listed, facts⟩ := attested item earlier
    exact ⟨record', List.mem_append_left _ listed, facts⟩
  · obtain rfl := List.mem_singleton.mp last
    exact ⟨record, List.mem_append_right _ (List.mem_singleton_self record), requireText_ok named,
      requireText_ok reviewer, requireBool_ok isEligible⟩

theorem attestations_ok {manifest : Fields} {atts : Dict Str Attestation}
    (read : attestations manifest = .ok atts) :
    ∃ records, recordsOf manifest "reviewer_attestations" = some records ∧ Attests records atts := by
  obtain ⟨items, listed, added⟩ := bind_ok.mp read
  obtain ⟨records, mappings, attested⟩ := foldlM_run
    (P := fun items atts => ∃ records, items.mapM Object.fields? = some records ∧
      Attests records atts)
    ⟨[], rfl, fun item hi => absurd hi List.not_mem_nil⟩
    (fun _ _ _ _ => addAttestation_attests) added
  exact ⟨records, recordsOf_eq (requireList_ok.mp listed) mappings, attested⟩

/-! ## Reviews -/

/-- A review that passes its checks, after these revisions. -/
structure Reviewed (attestations : Dict Str Attestation) (seenRevisions : List Str)
    (review : Fields) (read : ValidReview) : Prop where
  revision : textOf review "label_revision" = some read.revision
  isNew : read.revision ∉ seenRevisions
  reviewer : textOf review "reviewer_id" = some read.reviewer
  attested : ∃ attestationId attestation,
    textOf review "reviewer_attestation_id" = some attestationId ∧
    attestations.get? attestationId = some attestation ∧
    attestation.reviewerId = read.reviewer ∧ attestation.eligible = true

theorem findAttestation_ok {attestations : Dict Str Attestation} {attestationId context : Str}
    {attestation : Attestation}
    (found : findAttestation attestations attestationId context = .ok attestation) :
    attestations.get? attestationId = some attestation := by
  unfold findAttestation at found
  split at found
  · rename_i held
    rw [held, Except.ok.inj found]
  · cases found

theorem validateReview_ok {attestations : Dict Str Attestation} {expectedIndependent : Bool}
    {context : Str} {seenRevisions : List Str} {review : Fields} {read : ValidReview}
    (passed : validateReview attestations expectedIndependent context seenRevisions review =
      .ok read) : Reviewed attestations seenRevisions review read := by
  obtain ⟨revision, isRevision, passed⟩ := bind_ok.mp passed
  obtain ⟨isNew, passed⟩ := rejectWhen_bind_ok.mp passed
  obtain ⟨_, -, passed⟩ := bind_ok.mp passed
  obtain ⟨-, passed⟩ := rejectWhen_bind_ok.mp passed
  obtain ⟨reviewerId, isReviewer, passed⟩ := bind_ok.mp passed
  obtain ⟨attestationId, isAttestation, passed⟩ := bind_ok.mp passed
  obtain ⟨lockedAt, -, passed⟩ := bind_ok.mp passed
  obtain ⟨attestation, found, passed⟩ := bind_ok.mp passed
  obtain ⟨same, passed⟩ := rejectWhen_bind_ok.mp passed
  obtain ⟨eligible, passed⟩ := rejectWhen_bind_ok.mp passed
  obtain ⟨-, passed⟩ := rejectWhen_bind_ok.mp passed
  obtain rfl := Except.ok.inj passed
  exact {
    revision := requireText_ok isRevision
    isNew := by simpa using isNew
    reviewer := requireText_ok isReviewer
    attested := ⟨attestationId, attestation, requireText_ok isAttestation, findAttestation_ok found,
      by simpa using same, by simpa using eligible⟩ }

theorem Reviewed.eligible {attestations : Dict Str Attestation} {seenRevisions : List Str}
    {review : Fields} {read : ValidReview} {records : List Fields}
    (reviewed : Reviewed attestations seenRevisions review read)
    (attests : Attests records attestations) : EligibleReviewer records review := by
  obtain ⟨attestationId, attestation, named, found, same, eligible⟩ := reviewed.attested
  obtain ⟨record, listed, isAttestation, reviewer, isEligible⟩ :=
    attests (attestationId, attestation) (Dict.get?_eq_some.mp found)
  rw [eligible] at isEligible
  rw [same] at reviewer
  exact ⟨attestationId, read.reviewer, named, reviewed.reviewer, record, listed, isAttestation,
    reviewer, isEligible⟩

theorem Reviewed.other {attestations : Dict Str Attestation} {seen seen' : List Str}
    {review review' : Fields} {read read' : ValidReview}
    (reviewed : Reviewed attestations seen review read)
    (reviewed' : Reviewed attestations seen' review' read') (different : read.reviewer ≠ read'.reviewer) :
    OtherReviewer review review' :=
  ⟨read.reviewer, read'.reviewer, reviewed.reviewer, reviewed'.reviewer, different⟩

/-! ## Disagreements -/

/-- How the disagreement over a label ends, with the revisions that are seen after it. -/
inductive Settled (attestations : Dict Str Attestation) (label : Fields) (primary : ValidReview)
    (independent : Option ValidReview) (seenRevisions : List Str) : List Str → Prop where
  | agreed (absent : reviewOf label "adjudication" = none) (final : Str)
      (isFinal : textOf label "approved_final_label_revision" = some final)
      (approved : final = primary.revision ∨ ∃ review, independent = some review ∧
        final = review.revision) :
      Settled attestations label primary independent seenRevisions seenRevisions
  | adjudicated (review : ValidReview) (isReview : independent = some review)
      (adjudication : Fields) (present : reviewOf label "adjudication" = some adjudication)
      (read : ValidReview) (reviewed : Reviewed attestations seenRevisions adjudication read)
      (notPrimary : read.reviewer ≠ primary.reviewer)
      (notIndependent : read.reviewer ≠ review.reviewer)
      (isFinal : textOf label "approved_final_label_revision" = some read.revision) :
      Settled attestations label primary independent seenRevisions
        (read.revision :: seenRevisions)

section
variable {attestations : Dict Str Attestation} {caseId : Str} {label : Fields}
  {primary : ValidReview} {independent : Option ValidReview} {seenRevisions after : List Str}

theorem checkResolved_ok {review : ValidReview} {finalRevision : Str} {adjudication : Fields}
    (passed : checkResolved attestations caseId primary review finalRevision seenRevisions
      adjudication = .ok after) :
    ∃ read, Reviewed attestations seenRevisions adjudication read ∧
      read.reviewer ≠ primary.reviewer ∧ read.reviewer ≠ review.reviewer ∧
      finalRevision = read.revision ∧ after = read.revision :: seenRevisions := by
  obtain ⟨read, reviewed, passed⟩ := bind_ok.mp passed
  obtain ⟨others, passed⟩ := rejectWhen_bind_ok.mp passed
  obtain ⟨_, -, passed⟩ := bind_ok.mp passed
  obtain ⟨final, passed⟩ := rejectWhen_bind_ok.mp passed
  have notEither : read.reviewer ≠ primary.reviewer ∧ read.reviewer ≠ review.reviewer := by
    simpa using others
  exact ⟨read, validateReview_ok reviewed, notEither.1, notEither.2, by simpa using final,
    (Except.ok.inj passed).symm⟩

theorem validateDisagreement_ok
    (passed : validateDisagreement attestations caseId label primary independent seenRevisions =
      .ok after) : Settled attestations label primary independent seenRevisions after := by
  obtain ⟨_, -, passed⟩ := bind_ok.mp passed
  obtain ⟨status, -, passed⟩ := bind_ok.mp passed
  obtain ⟨materialIds, -, passed⟩ := bind_ok.mp passed
  obtain ⟨-, passed⟩ := rejectWhen_bind_ok.mp passed
  obtain ⟨-, passed⟩ := rejectWhen_bind_ok.mp passed
  obtain ⟨final, isFinal, passed⟩ := bind_ok.mp passed
  obtain ⟨adjudication, present, passed⟩ := bind_ok.mp passed
  have present := optionalMapping_ok present
  by_cases agreed : status = lit "none"
  · rw [if_pos agreed] at passed
    obtain ⟨consistent, passed⟩ := rejectWhen_bind_ok.mp passed
    obtain ⟨approved, passed⟩ := rejectWhen_bind_ok.mp passed
    obtain rfl := Except.ok.inj passed
    obtain rfl : adjudication = none := by
      simp only [Bool.or_eq_false_iff, Option.isSome_eq_false_iff, Option.isNone_iff_eq_none]
        at consistent
      exact consistent.2
    refine .agreed present final (requireText_ok isFinal) ?_
    cases independent with
    | none => exact .inl (by simpa using approved)
    | some review =>
      by_cases same : final = primary.revision
      · exact .inl same
      · have kept : review.revision = final := by simpa [same] using approved
        exact .inr ⟨review, rfl, kept.symm⟩
  · rw [if_neg agreed] at passed
    obtain ⟨-, passed⟩ := rejectWhen_bind_ok.mp passed
    cases independent with
    | none => cases passed
    | some review =>
      cases adjudication with
      | none => cases passed
      | some adjudication =>
        obtain ⟨-, passed⟩ := rejectWhen_bind_ok.mp passed
        obtain ⟨read, reviewed, notPrimary, notIndependent, rfl, rfl⟩ := checkResolved_ok passed
        exact .adjudicated review rfl adjudication present read reviewed notPrimary notIndependent
          (requireText_ok isFinal)

end

/-! ## Labels -/

/-- How a label passes: with its primary review alone, or with an independent one. -/
inductive Passed (context : LabelContext) (caseId : Str) (label : Fields) (seenRevisions : List Str) :
    List Str → Prop where
  | alone (primary : Fields) (isPrimary : reviewOf label "primary" = some primary)
      (read : ValidReview) (reviewed : Reviewed context.attestations seenRevisions primary read)
      (absent : reviewOf label "independent" = none)
      (unselected : context.reviewMode = .independent → caseId ∉ context.selected.keys)
      (after : List Str)
      (settled : Settled context.attestations label read none (read.revision :: seenRevisions)
        after) : Passed context caseId label seenRevisions after
  | reviewed (primary : Fields) (isPrimary : reviewOf label "primary" = some primary)
      (read : ValidReview) (reviewed : Reviewed context.attestations seenRevisions primary read)
      (independent : Fields) (isIndependent : reviewOf label "independent" = some independent)
      (blind : independent.get "blind" = .bool true) (review : ValidReview)
      (reviewed' : Reviewed context.attestations (read.revision :: seenRevisions) independent
        review)
      (other : review.reviewer ≠ read.reviewer) (after : List Str)
      (settled : Settled context.attestations label read (some review)
        (review.revision :: read.revision :: seenRevisions) after) :
      Passed context caseId label seenRevisions after

section
variable {context : LabelContext} {caseId : Str} {label : Fields} {seenRevisions after : List Str}

theorem validateIndependent_ok {case : EvaluationCase} {primary review : ValidReview}
    {independent : Fields}
    (passed : validateIndependent context case primary seenRevisions independent = .ok review) :
    independent.get "blind" = .bool true ∧
      Reviewed context.attestations seenRevisions independent review ∧
      review.reviewer ≠ primary.reviewer := by
  obtain ⟨blind, passed⟩ := rejectWhen_bind_ok.mp passed
  obtain ⟨-, passed⟩ := rejectWhen_bind_ok.mp passed
  obtain ⟨read, reviewed, passed⟩ := bind_ok.mp passed
  obtain ⟨other, passed⟩ := rejectWhen_bind_ok.mp passed
  obtain ⟨-, passed⟩ := rejectWhen_bind_ok.mp passed
  obtain rfl := Except.ok.inj passed
  exact ⟨isTrue_iff.mp (by simpa using blind), validateReview_ok reviewed, by simpa using other⟩

theorem validateLabel_ok {case : EvaluationCase} {progress after : LabelProgress}
    (passed : validateLabel context progress (caseId, case, label) = .ok after) :
    Passed context caseId label progress.seenRevisions after.seenRevisions := by
  obtain ⟨_, -, passed⟩ := bind_ok.mp passed
  obtain ⟨-, passed⟩ := rejectWhen_bind_ok.mp passed
  obtain ⟨_, -, passed⟩ := bind_ok.mp passed
  obtain ⟨-, passed⟩ := rejectWhen_bind_ok.mp passed
  obtain ⟨primary, isPrimary, passed⟩ := bind_ok.mp passed
  obtain ⟨read, reviewed, passed⟩ := bind_ok.mp passed
  obtain ⟨independent, isIndependent, passed⟩ := bind_ok.mp passed
  obtain ⟨-, passed⟩ := rejectWhen_bind_ok.mp passed
  have isPrimary := requireMapping_ok.mp isPrimary
  have reviewed := validateReview_ok reviewed
  have isIndependent := optionalMapping_ok isIndependent
  cases independent with
  | none =>
    obtain ⟨unselected, passed⟩ := rejectWhen_bind_ok.mp passed
    obtain ⟨seenRevisions, settled, passed⟩ := bind_ok.mp passed
    obtain rfl := Except.ok.inj passed
    refine .alone primary isPrimary read reviewed isIndependent ?_ seenRevisions
      (validateDisagreement_ok settled)
    intro mode isSelected
    simp [mode, isSelected] at unselected
  | some independent =>
    obtain ⟨review, valid, passed⟩ := bind_ok.mp passed
    obtain ⟨seenRevisions, settled, passed⟩ := bind_ok.mp passed
    obtain rfl := Except.ok.inj passed
    obtain ⟨blind, reviewed', other⟩ := validateIndependent_ok valid
    exact .reviewed primary isPrimary read reviewed independent isIndependent blind review
      reviewed' other seenRevisions (validateDisagreement_ok settled)

/-- The revisions that are seen are those of the label. -/
theorem Passed.revisions (passed : Passed context caseId label seenRevisions after) :
    after = (revisionsOf label).reverse ++ seenRevisions := by
  cases passed with
  | alone primary isPrimary read reviewed absent unselected _ settled =>
    cases settled with
    | agreed none' =>
      simp [revisionsOf, reviewsOf, isPrimary, absent, none', reviewed.revision]
    | adjudicated review isReview => cases isReview
  | reviewed primary isPrimary read reviewed independent isIndependent blind review reviewed'
      other _ settled =>
    cases settled with
    | agreed none' =>
      simp [revisionsOf, reviewsOf, isPrimary, isIndependent, none', reviewed.revision,
        reviewed'.revision]
    | adjudicated _ _ adjudication present read' adjudicated =>
      simp [revisionsOf, reviewsOf, isPrimary, isIndependent, present, reviewed.revision,
        reviewed'.revision, adjudicated.revision]

theorem Settled.nodup {attestations : Dict Str Attestation} {primary : ValidReview}
    {independent : Option ValidReview}
    (settled : Settled attestations label primary independent seenRevisions after)
    (distinct : seenRevisions.Nodup) : after.Nodup := by
  cases settled with
  | agreed => exact distinct
  | adjudicated _ _ _ _ _ reviewed => exact List.nodup_cons.mpr ⟨reviewed.isNew, distinct⟩

theorem Passed.nodup (passed : Passed context caseId label seenRevisions after)
    (distinct : seenRevisions.Nodup) : after.Nodup := by
  cases passed with
  | alone _ _ _ reviewed _ _ _ settled =>
    exact settled.nodup (List.nodup_cons.mpr ⟨reviewed.isNew, distinct⟩)
  | reviewed _ _ _ reviewed _ _ _ _ reviewed' _ _ settled =>
    exact settled.nodup (List.nodup_cons.mpr
      ⟨reviewed'.isNew, List.nodup_cons.mpr ⟨reviewed.isNew, distinct⟩⟩)

/-- What a label that passes promises, whatever its attestations and the selection are. -/
theorem Passed.sound {records : List Fields} {selected : List Str}
    (passed : Passed context caseId label seenRevisions after)
    (named : textOf label "case_id" = some caseId) (mode : context.reviewMode = .independent)
    (attests : Attests records context.attestations)
    (listed : ∀ s ∈ selected, s ∈ context.selected.keys) : SoundLabel records selected label := by
  cases passed with
  | alone primary isPrimary read reviewed absent unselected _ settled =>
    have present : reviewsOf label = [primary] := by
      cases settled with
      | agreed none' => simp [reviewsOf, isPrimary, absent, none']
      | adjudicated review isReview => cases isReview
    cases settled with
    | adjudicated review isReview => cases isReview
    | agreed none' final isFinal approved =>
      obtain rfl : final = read.revision := by simpa using approved
      refine ⟨?_, ?_, ?_, ?_⟩
      · intro review hr
        rw [present, List.mem_singleton] at hr
        exact ⟨read.revision, hr ▸ reviewed.revision⟩
      · exact ⟨read.revision, by simp [revisionsOf, present, reviewed.revision], isFinal⟩
      · intro s hs same
        obtain rfl := Option.some.inj (named.symm.trans same)
        exact absurd (listed _ hs) (unselected mode)
      · intro adjudication present'
        rw [none'] at present'
        cases present'
  | reviewed primary isPrimary read reviewed independent isIndependent blind review reviewed'
      other _ settled =>
    have promised : IndependentlyReviewed records label :=
      ⟨primary, independent, isPrimary, isIndependent, blind, reviewed'.eligible attests,
        reviewed'.other reviewed other⟩
    cases settled with
    | agreed none' final isFinal approved =>
      have present : reviewsOf label = [primary, independent] := by
        simp [reviewsOf, isPrimary, isIndependent, none']
      refine ⟨?_, ⟨final, ?_, isFinal⟩, fun _ _ _ => promised, ?_⟩
      · intro r hr
        rw [present, List.mem_pair] at hr
        rcases hr with rfl | rfl
        · exact ⟨_, reviewed.revision⟩
        · exact ⟨_, reviewed'.revision⟩
      · simpa [revisionsOf, present, reviewed.revision, reviewed'.revision] using approved
      · intro adjudication present'
        rw [none'] at present'
        cases present'
    | adjudicated _ isReview adjudication isAdjudication read' adjudicated notPrimary
        notIndependent isFinal =>
      obtain rfl := Option.some.inj isReview
      have present : reviewsOf label = [primary, independent, adjudication] := by
        simp [reviewsOf, isPrimary, isIndependent, isAdjudication]
      refine ⟨?_, ⟨read'.revision, ?_, isFinal⟩, fun _ _ _ => promised, ?_⟩
      · intro r hr
        rw [present] at hr
        simp only [List.mem_cons, List.not_mem_nil, or_false] at hr
        rcases hr with rfl | rfl | rfl
        · exact ⟨_, reviewed.revision⟩
        · exact ⟨_, reviewed'.revision⟩
        · exact ⟨_, adjudicated.revision⟩
      · simp [revisionsOf, present, adjudicated.revision]
      · intro adjudication' same key hk r found
        obtain rfl := Option.some.inj (isAdjudication.symm.trans same)
        rcases List.mem_pair.mp hk with rfl | rfl
        · obtain rfl := Option.some.inj (isPrimary.symm.trans found)
          exact adjudicated.other reviewed notPrimary
        · obtain rfl := Option.some.inj (isIndependent.symm.trans found)
          exact adjudicated.other reviewed' notIndependent

end

/-! ## The manifest -/

/-- Labels that passed one after another. -/
structure AllPassed (context : LabelContext) (items : List (Str × EvaluationCase × Fields))
    (progress : LabelProgress) : Prop where
  revisions : progress.seenRevisions = (items.flatMap (revisionsOf ·.2.2)).reverse
  distinct : progress.seenRevisions.Nodup
  passed : ∀ item ∈ items, ∃ before after, Passed context item.1 item.2.2 before after

theorem validateLabels_ok {context : LabelContext} {items : List (Str × EvaluationCase × Fields)}
    {progress : LabelProgress}
    (validated : items.foldlM (validateLabel context) ⟨[], []⟩ = .ok progress) :
    AllPassed context items progress := by
  refine foldlM_run (P := AllPassed context) ⟨rfl, List.nodup_nil, by simp⟩ ?_ validated
  intro before item progress after earlier validated
  have passed := validateLabel_ok validated
  refine ⟨?_, passed.nodup earlier.distinct, ?_⟩
  · rw [passed.revisions, earlier.revisions, List.flatMap_append, List.flatMap_singleton,
      List.reverse_append]
  · intro item' hi
    rcases List.mem_append.mp hi with hi | hi
    · exact earlier.passed item' hi
    · obtain rfl := List.mem_singleton.mp hi
      exact ⟨_, _, passed⟩

theorem checkLabels_ok {suite : EvaluationCaseSuite} {records : ByCase} {reviewMode : ReviewMode}
    {splits : List Str} (passed : checkLabels suite records reviewMode splits = .ok ()) :
    records.keys.Perm (suite.cases.map (·.id)) := by
  simp only [checkLabels] at passed
  split at passed
  · cases passed
  · rename_i covered
    simp only [ne_eq, not_or, not_not, List.filter_eq_nil_iff, decide_eq_true_eq] at covered
    refine (List.perm_ext_iff_of_nodup records.nodup_keys suite.distinct).mpr fun id => ?_
    exact ⟨covered.2 id, covered.1 id⟩

theorem ReviewMode.text_injective : Function.Injective ReviewMode.text := by
  intro a b same
  cases a <;> cases b
  · rfl
  · exact absurd same (by decide)
  · exact absurd same (by decide)
  · rfl

theorem Holds.caseIds {suite : EvaluationCaseSuite} {items : List Object} {records : ByCase}
    (held : Holds suite items records) :
    (records.items.map (·.2.2)).map (textOf · "case_id") = records.keys.map some := by
  rw [Dict.keys, List.map_map, List.map_map]
  exact List.map_congr_left fun item hi => (held.named item hi).1

theorem completeVerification_ok {manifest : Fields} {suite : EvaluationCaseSuite}
    {header : Header} {selected : ByCase} {atts : Dict Str Attestation} {records : ByCase}
    {count : Nat} {result : LabelCompletenessAndAdjudicationResult}
    (passed : completeVerification manifest suite header selected atts records count = .ok result) :
    result.reviewMode = header.review.mode.text ∧
      records.keys.Perm (suite.cases.map (·.id)) ∧
      ∃ progress, AllPassed ⟨atts, selected, header.review.mode, header.candidate.frozenAt⟩
        records.items progress := by
  obtain ⟨-, passed⟩ := rejectWhen_bind_ok.mp passed
  obtain ⟨progress, validated, passed⟩ := bind_ok.mp passed
  obtain ⟨_, covered, passed⟩ := bind_ok.mp passed
  obtain ⟨_, -, passed⟩ := bind_ok.mp passed
  obtain ⟨_, -, passed⟩ := bind_ok.mp passed
  obtain rfl := Except.ok.inj passed
  exact ⟨rfl, checkLabels_ok covered, progress, validateLabels_ok validated⟩

theorem prepare_ok {show' : Object → Option Str} {manifest selection : Fields}
    {suite : EvaluationCaseSuite} {p : Prepared}
    (prepared : prepare show' manifest selection suite = .ok p) :
    selectedCases selection suite = .ok p.context.selected ∧
      attestations manifest = .ok p.attestations ∧
      labels manifest suite = .ok p.context.labels := by
  obtain ⟨header, -, prepared⟩ := bind_ok.mp prepared
  obtain ⟨selected, isSelected, prepared⟩ := bind_ok.mp prepared
  obtain ⟨atts, attested, prepared⟩ := bind_ok.mp prepared
  obtain ⟨records, labelled, prepared⟩ := bind_ok.mp prepared
  obtain rfl := Except.ok.inj prepared
  exact ⟨isSelected, attested, labelled⟩

/-- Every manifest that is accepted in independent-review mode is sound. -/
theorem accepted_sound (show' : Object → Option Str) (path : Str) (document : Document)
    (selection : Fields) (suite : EvaluationCaseSuite)
    (result : LabelCompletenessAndAdjudicationResult)
    (accepted : verifyLabelCompletenessAndAdjudication show' path document selection suite =
      .ok result)
    (independent : result.reviewMode = ReviewMode.independent.text) :
    ∃ value manifest, document = .loaded value ∧ value.fields? = some manifest ∧
      SoundManifest suite selection manifest := by
  obtain ⟨manifest, loaded, accepted⟩ := bind_ok.mp accepted
  obtain ⟨value, isValue, isMapping⟩ := loadMapping_ok.mp loaded
  obtain ⟨p, prepared, accepted⟩ := bind_ok.mp accepted
  obtain ⟨count, -, completed⟩ := bind_ok.mp accepted
  obtain ⟨isSelected, attested, labelled⟩ := prepare_ok (mapError_ok.mp prepared)
  obtain ⟨sameMode, covered, progress, allPassed⟩ :=
    completeVerification_ok (mapError_ok.mp completed)
  have mode := ReviewMode.text_injective (sameMode.symm.trans independent)
  obtain ⟨labelItems, listed, held⟩ := labels_ok labelled
  obtain ⟨selectedItems, selectedListed, selectedHeld⟩ := selectedCases_ok isSelected
  obtain ⟨records, isRecords, attests⟩ := attestations_ok attested
  refine ⟨value, manifest, isValue, isMapping, p.context.labels.items.map (·.2.2), records,
    p.context.selected.items.map (·.2.2), recordsOf_eq listed held.mappings, isRecords,
    recordsOf_eq selectedListed selectedHeld.mappings, ?_, ?_, ?_⟩
  · have perm := covered.map some
    rwa [← held.caseIds, List.map_map (f := EvaluationCase.id)] at perm
  · have distinct := allPassed.distinct
    rwa [allPassed.revisions, List.nodup_reverse, ← List.flatMap_map] at distinct
  · intro label hl
    obtain ⟨item, hi, rfl⟩ := List.mem_map.mp hl
    obtain ⟨before, after, passed⟩ := allPassed.passed item hi
    refine passed.sound (held.named item hi).1 mode attests ?_
    intro caseId hc
    obtain ⟨record, hr, named⟩ := List.mem_filterMap.mp hc
    have among := List.mem_map_of_mem (f := (textOf · "case_id")) hr
    rw [selectedHeld.caseIds, named] at among
    simpa using among

/-! ## A manifest that is accepted -/

def sampleReview (kind : String) (n : Nat) (reviewer : String) : List (String × Object) :=
  [("label_revision", .str (lit kind ++ padded 3 n)), ("label_sha256", sampleDigest),
    ("reviewer_id", text reviewer), ("reviewer_attestation_id", text reviewer),
    ("locked_at", text "2026-09-13T00:00:00Z")]

def sampleIndependent (n : Nat) : Object :=
  record (sampleReview "independent-" n "reviewer" ++
    [("blind", .bool true), ("candidate_output_visible_before_lock", .bool false)])

def sampleAdjudication (n : Nat) : Object :=
  record (sampleReview "adjudicated-" n "adjudicator" ++ [("rationale", text "Agreed criteria")])

/-- The selected cases alone. -/
def selectedSuite : EvaluationCaseSuite where
  schemaVersion := sampleSuite.schemaVersion
  suiteId := sampleSuite.suiteId
  cases := (sampleSuite.cases.drop 70).take 20
  distinct := by
    refine List.Nodup.sublist (List.Sublist.map _ ?_) sampleSuite.distinct
    exact (List.take_sublist 20 _).trans (List.drop_sublist 70 _)

/-- The first case was adjudicated. -/
def sampleLabel (n : Nat) : Object :=
  record ([("case_id", .str (sampleCaseId n)), ("split", .str (sampleCase n).split),
    ("category", .str (sampleCase n).category),
    ("primary", record (sampleReview "primary-" n "owner")),
    ("independent", sampleIndependent n)] ++
    if n = 71 then
      [("adjudication", sampleAdjudication n),
        ("approved_final_label_revision", .str (lit "adjudicated-" ++ padded 3 n)),
        ("disagreement", record [("status", text "resolved"),
          ("material_disagreement_ids", .list [text "D-1"])])]
    else
      [("approved_final_label_revision", .str (lit "primary-" ++ padded 3 n)),
        ("disagreement", record [("status", text "none"), ("material_disagreement_ids", .list [])])])

def sampleAttestation (reviewer : String) (independent : Bool) : Object :=
  record [("attestation_id", text reviewer), ("reviewer_id", text reviewer),
    ("qualification_summary", text "Reviewed earlier corpora"),
    ("attested_at", text "2026-09-01T00:00:00Z"), ("eligible", .bool true),
    ("independent", .bool independent)]

/-- A v1 manifest that labels all of them. -/
def labelledManifest : Object :=
  record [("schema_version", .str releaseReviewManifestSchemaVersion),
    ("dataset_version", text "evaluation-corpus/v1"),
    ("release_review_selection_id", text "SELECTION"),
    ("case_fixture_semantic_sha256", sampleDigest),
    ("ground_truth_fixture_semantic_sha256", sampleDigest),
    ("candidate", record [("commit_sha", .str (List.replicate 40 (CodePoint.ofChar 'c'))),
      ("frozen_at", text "2026-09-12T00:00:00Z")]),
    ("reviewer_attestations", .list [sampleAttestation "owner" false,
      sampleAttestation "reviewer" true, sampleAttestation "adjudicator" true]),
    ("labels", .list ((List.range' 71 20).map sampleLabel)),
    ("release_status", record [("all_required_reviews_complete", .bool true),
      ("all_disagreements_resolved", .bool true), ("eg_09_eligible", .bool true)])]

def labelledResult : LabelCompletenessAndAdjudicationResult where
  suiteId := lit "evaluation-corpus/v1"
  caseCount := 20
  validationIndependentReviewCount := 10
  holdoutIndependentReviewCount := 10
  candidateCommitSha := List.replicate 40 (CodePoint.ofChar 'c')
  manifestSchemaVersion := releaseReviewManifestSchemaVersion
  reviewModeSchemaVersion := reviewModeSchemaVersion
  reviewMode := lit "independent"
  independentReviewStatus := lit "completed"
  externalCustodyClaimed := false
  disclosure := lit "independently_reviewed"
  holdoutAccessEventCount := 0

theorem labelledManifest_accepted :
    verifyLabelCompletenessAndAdjudication (fun _ => none) [] (.loaded labelledManifest)
      sampleSelection selectedSuite = .ok labelledResult := by
  decide +kernel

theorem accepted_sound_sample : ∃ value manifest, Document.loaded labelledManifest = .loaded value ∧
    value.fields? = some manifest ∧ SoundManifest selectedSuite sampleSelection manifest :=
  accepted_sound (fun _ => none) [] (.loaded labelledManifest) sampleSelection selectedSuite
    labelledResult labelledManifest_accepted (by decide)

end QaCopilot.Evaluation.LabelCompleteness
