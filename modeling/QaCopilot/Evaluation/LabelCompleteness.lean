import QaCopilot.Evaluation.Cases
import QaCopilot.Python.Datetime

/-!
# Label completeness

`verify_label_completeness_and_adjudication`: the checks of a release review manifest against the
case suite and the release selection. A check that refuses the manifest says why; what else can
come out of the verification is a `Failure`.
-/

namespace QaCopilot.Evaluation.LabelCompleteness

open Python

def releaseReviewManifestSchemaVersion : Str := lit "release-review-manifest/v1"

def internalReviewManifestSchemaVersion : Str := lit "release-review-manifest/v2"

def reviewModeSchemaVersion : Str := lit "evaluation-review-mode/v1"

def holdoutAccessSchemaVersion : Str := lit "holdout-access-log/v1"

def internalDisclosure : Str := lit "results_not_independently_validated"

/-- What a `LabelCompletenessAndAdjudicationRejected` says. -/
inductive Message where
  | text (s : Str)
  | coverage (missing unexpected : List Str)
  /-- The splits of the selected cases that were reviewed independently. -/
  | counts (found : List Str)
deriving DecidableEq

/-- A check that passes or rejects the manifest. -/
abbrev Checked := Except Message

/-- An exception of the verification. -/
inductive Failure where
  | rejected (message : Message)
  /-- `KeyError`, of a case that has no label. -/
  | unlabelled (caseId : Str)
  /-- What `str` raises for a value that it cannot write. -/
  | unprintable
  /-- What `yaml.safe_load` raises beside a `YAMLError`, as for an impossible date. -/
  | unloadable
deriving DecidableEq

abbrev Verified := Except Failure

def reject {α : Type} (text : Str) : Checked α := .error (.text text)

def rejectWhen (c : Bool) (text : Str) : Checked Unit := if c then reject text else .ok ()

/-- A check as a step of the verification. -/
def check {α : Type} : Checked α → Verified α := Except.mapError .rejected

/-! ## Readers -/

/-- A YAML file as `_load_mapping` finds it. -/
inductive Document where
  | missing
  | loaded (value : Object)
  | invalid
  | unloadable

/-- `_mapping` -/
def mapping (value : Object) (description : Str) : Checked Fields :=
  match value.fields? with
  | some fields => .ok fields
  | none => reject (description ++ lit " must be a mapping with string keys")

/-- `_load_mapping` -/
def loadMapping (path : Str) (document : Document) (description : Str) : Verified Fields :=
  match document with
  | .missing => check (reject (description ++ lit " does not exist: " ++ path))
  | .invalid => check (reject (description ++ lit " is not valid YAML"))
  | .unloadable => .error .unloadable
  | .loaded value => check (mapping value description)

/-- `f"{description}.{key}"` -/
def at' (description : Str) (key : String) : Str := description ++ lit "." ++ lit key

/-- `_require_mapping` -/
def requireMapping (fields : Fields) (key : String) (description : Str) : Checked Fields :=
  mapping (fields.get key) (at' description key)

/-- `_optional_mapping` -/
def optionalMapping (fields : Fields) (key : String) (description : Str) :
    Checked (Option Fields) :=
  match fields.get key with
  | .none => .ok none
  | value => (mapping value (at' description key)).map some

/-- `_require_list` -/
def requireList (fields : Fields) (key : String) (description : Str) : Checked (List Object) :=
  match fields.get key with
  | .list xs => .ok xs
  | _ => reject (at' description key ++ lit " must be a list")

/-- `_require_text` -/
def requireText (fields : Fields) (key : String) (description : Str) : Checked Str :=
  match fields.get key with
  | .str s =>
    if strip s = [] then reject (at' description key ++ lit " must be non-empty text") else .ok s
  | _ => reject (at' description key ++ lit " must be non-empty text")

/-- `_require_timestamp`; times are compared by their instants. -/
def requireTimestamp (fields : Fields) (key : String) (description : Str) : Checked Int := do
  let value ← requireText fields key description
  match fromisoformat (withOffset value) with
  | none => reject (at' description key ++ lit " must be an ISO-8601 timestamp")
  | some ⟨_, none⟩ => reject (at' description key ++ lit " must include a timezone")
  | some ⟨wall, some offset⟩ => return wall.instant offset

/-- `value is True` -/
def isTrue : Object → Bool
  | .bool b => b
  | _ => false

/-- `value is False` -/
def isFalse : Object → Bool
  | .bool b => !b
  | _ => false

/-- `value == text` -/
def isText (value : Object) (text : Str) : Bool := value.str? = some text

/-! ## The manifest's head -/

/-- A lowercase Git SHA of 40 characters. -/
def isCommitSha (s : Str) : Bool :=
  s.length = 40 && s.all fun c =>
    (0x30 ≤ c.val && c.val ≤ 0x39) || (0x61 ≤ c.val && c.val ≤ 0x66)

def manifestDescription : Str := lit "Release review manifest"

def selectionDescription : Str := lit "Release review selection"

/-- One pair of `_validate_provenance`. -/
def matchSelection (manifest selection : Fields) (manifestKey selectionKey : String)
    (digest : Bool) : Checked Unit := do
  let actual ← requireText manifest manifestKey manifestDescription
  let expected ← requireText selection selectionKey selectionDescription
  rejectWhen (actual ≠ expected)
    (manifestDescription ++ lit " " ++ lit manifestKey ++ lit " does not match the selection")
  rejectWhen (digest && !isDigest actual)
    (manifestDescription ++ lit " " ++ lit manifestKey ++ lit " is not a SHA-256 digest")

/-- `_validate_provenance` -/
def validateProvenance (manifest selection : Fields) : Checked Unit := do
  matchSelection manifest selection "release_review_selection_id" "selection_id" false
  matchSelection manifest selection "case_fixture_semantic_sha256"
    "case_fixture_semantic_sha256" true
  matchSelection manifest selection "ground_truth_fixture_semantic_sha256"
    "ground_truth_fixture_semantic_sha256" true

/-- The schema version, and whether it is the second. -/
def readSchemaVersion (manifest : Fields) (suiteId : Str) : Checked (Str × Bool) := do
  let schemaVersion ← requireText manifest "schema_version" manifestDescription
  rejectWhen (schemaVersion ≠ releaseReviewManifestSchemaVersion
      && schemaVersion ≠ internalReviewManifestSchemaVersion)
    (lit "Unsupported release review manifest schema version")
  let isV2 : Bool := schemaVersion = internalReviewManifestSchemaVersion
  rejectWhen (!isV2 && lit "review_mode" ∈ manifest.keys)
    (lit "v1 manifest cannot declare a v2 review mode")
  let datasetVersion ← requireText manifest "dataset_version" manifestDescription
  rejectWhen (datasetVersion ≠ suiteId)
    (lit "Release review manifest dataset_version does not match the case suite")
  return (schemaVersion, isV2)

structure Candidate where
  commitSha : Str
  frozenAt : Int

def readCandidate (manifest : Fields) : Checked Candidate := do
  let candidate ← requireMapping manifest "candidate" manifestDescription
  let commitSha ← requireText candidate "commit_sha" (lit "candidate")
  rejectWhen (!isCommitSha commitSha)
    (lit "candidate.commit_sha must be a 40-character lowercase Git SHA")
  let frozenAt ← requireTimestamp candidate "frozen_at" (lit "candidate")
  return ⟨commitSha, frozenAt⟩

/-- The selection of a v2 manifest was frozen before its candidate. -/
def checkSelectionPolicy (selection : Fields) (candidate : Candidate) : Checked Unit := do
  let policy ← requireMapping selection "selection" selectionDescription
  let selectedAt ← requireTimestamp policy "recorded_at" (lit "Release review selection.selection")
  rejectWhen (!isTrue (policy.get "selected_before_candidate_execution")
      || !isText (policy.get "replacement_policy") (lit "no_replacement")
      || candidate.frozenAt < selectedAt)
    (lit "Release selection must be frozen without replacement before candidate freeze")

inductive ReviewMode where
  | internal
  | independent
deriving DecidableEq

def ReviewMode.text : ReviewMode → Str
  | .internal => lit "internal"
  | .independent => lit "independent"

structure Review where
  mode : ReviewMode
  independentReviewStatus : Str
  disclosure : Str

/-- The review mode of a v1 manifest. -/
def Review.default : Review := ⟨.independent, lit "completed", lit "independently_reviewed"⟩

/-- The `review_mode` of a v2 manifest. -/
def readReviewMode (manifest : Fields) : Checked Review := do
  let mode ← requireMapping manifest "review_mode" manifestDescription
  rejectWhen (!isText (mode.get "schema_version") reviewModeSchemaVersion)
    (lit "Unsupported review mode schema")
  let reviewMode ← requireText mode "mode" (lit "review_mode")
  rejectWhen (reviewMode ≠ ReviewMode.internal.text && reviewMode ≠ ReviewMode.independent.text)
    (lit "Unsupported review mode")
  let status ← requireText mode "independent_review_status" (lit "review_mode")
  let disclosure ← requireText mode "disclosure" (lit "review_mode")
  rejectWhen (!isFalse (mode.get "external_custody_claimed"))
    (lit "External custody requires separate verified evidence")
  if reviewMode = ReviewMode.internal.text then
    rejectWhen (status ≠ lit "not_performed" || disclosure ≠ internalDisclosure)
      (lit "Internal review must disclose that it was not independently validated")
    let _ ← requireText mode "rationale" (lit "review_mode")
    return ⟨.internal, status, disclosure⟩
  else
    rejectWhen (status ≠ lit "completed" || disclosure ≠ lit "independently_reviewed")
      (lit "Independent review mode requires completed independent review")
    return ⟨.independent, status, disclosure⟩

structure Header where
  schemaVersion : Str
  isV2 : Bool
  candidate : Candidate
  review : Review

/-- What is checked before the records of the manifest. -/
def readHeader (manifest selection : Fields) (suiteId : Str) : Checked Header := do
  let (schemaVersion, isV2) ← readSchemaVersion manifest suiteId
  validateProvenance manifest selection
  let candidate ← readCandidate manifest
  if isV2 then
    checkSelectionPolicy selection candidate
    return ⟨schemaVersion, isV2, candidate, ← readReviewMode manifest⟩
  else return ⟨schemaVersion, isV2, candidate, .default⟩

/-! ## The manifest's records -/

/-- `cases_by_id.get` -/
def caseOf (suite : EvaluationCaseSuite) (caseId : Str) : Option EvaluationCase :=
  suite.cases.find? (·.id = caseId)

/-- Records by the id of their case, which the suite knows and which comes once. -/
abbrev ByCase := Dict Str (EvaluationCase × Fields)

def addRecord (suite : EvaluationCaseSuite) (description repeats unknown : Str) (records : ByCase)
    (rawRecord : Object) : Checked ByCase := do
  let record ← mapping rawRecord description
  let caseId ← requireText record "case_id" description
  rejectWhen (caseId ∈ records.keys) (repeats ++ caseId)
  match caseOf suite caseId with
  | none => reject (unknown ++ caseId)
  | some case => return records.set caseId (case, record)

/-- `_selected_cases` -/
def selectedCases (selection : Fields) (suite : EvaluationCaseSuite) : Checked ByCase := do
  let records ← requireList selection "selected_cases" selectionDescription
  let selected ← records.foldlM (addRecord suite (lit "Release review selection case")
    (lit "Release review selection repeats case ")
    (lit "Release review selection contains unknown case ")) .empty
  rejectWhen (selected.size ≠ 20) (lit "Release review selection must contain exactly 20 cases")
  return selected

/-- `_labels` -/
def labels (manifest : Fields) (suite : EvaluationCaseSuite) : Checked ByCase := do
  let records ← requireList manifest "labels" manifestDescription
  records.foldlM (addRecord suite (lit "Release review label")
    (lit "Release review manifest repeats label for ")
    (lit "Release review manifest contains unknown case ")) .empty

structure Attestation where
  reviewerId : Str
  eligible : Bool
  independent : Bool

def requireBool (fields : Fields) (key : String) (text : Str) : Checked Bool :=
  match fields.get key with
  | .bool b => .ok b
  | _ => reject text

def addAttestation (attestations : Dict Str Attestation) (rawRecord : Object) :
    Checked (Dict Str Attestation) := do
  let description := lit "Reviewer attestation"
  let record ← mapping rawRecord description
  let attestationId ← requireText record "attestation_id" description
  rejectWhen (attestationId ∈ attestations.keys)
    (lit "Reviewer attestation is duplicated: " ++ attestationId)
  let reviewerId ← requireText record "reviewer_id" description
  let _ ← requireText record "qualification_summary" description
  let _ ← requireTimestamp record "attested_at" description
  let eligible ← requireBool record "eligible"
    (lit "Reviewer attestation eligible must be a boolean")
  let independent ← requireBool record "independent"
    (lit "Reviewer attestation independent must be a boolean")
  return attestations.set attestationId ⟨reviewerId, eligible, independent⟩

/-- `_attestations` -/
def attestations (manifest : Fields) : Checked (Dict Str Attestation) := do
  let records ← requireList manifest "reviewer_attestations" manifestDescription
  records.foldlM addAttestation .empty

/-! ## The holdout access log -/

inductive AccessPurpose where
  | ownerLabeling
  | releaseCandidateAssessment
  | independentReview
deriving DecidableEq

def AccessPurpose.ofText (s : Str) : Option AccessPurpose :=
  if s = lit "owner_labeling" then some .ownerLabeling
  else if s = lit "release_candidate_assessment" then some .releaseCandidateAssessment
  else if s = lit "independent_review" then some .independentReview
  else none

/-- What the log is checked against. -/
structure AccessContext where
  suite : EvaluationCaseSuite
  selected : ByCase
  labels : ByCase
  candidate : Candidate
  reviewMode : ReviewMode
  /-- `str` of a container or of an object of another type; none where it raises. -/
  show' : Object → Option Str

/-- `str(value)`; none where Python raises. -/
def strOf (show' : Object → Option Str) : Object → Option Str
  | .none => some (lit "None")
  | .bool b => some (if b then lit "True" else lit "False")
  | .int n => if (digits n.natAbs).length ≤ maxStrDigits then some (intText n) else none
  | .float (.finite x) => some x.repr
  | .float (.infinite negative) => some (if negative then lit "-inf" else lit "inf")
  | .float .nan => some (lit "nan")
  | .str s => some s
  | value => show' value

structure AccessEvent where
  fields : Fields
  eventId : Str
  accessor : Str
  purpose : AccessPurpose
  accessedAt : Int
  rawCaseIds : List Object

/-- The log so far. -/
structure AccessLog where
  eventIds : List Str
  assessed : List Str
  independentlyReviewed : List Str

def AccessLog.empty : AccessLog := ⟨[], [], []⟩

def readPurpose (event : Fields) (description : Str) : Checked AccessPurpose := do
  let text ← requireText event "purpose" description
  match AccessPurpose.ofText text with
  | some purpose => return purpose
  | none => reject (lit "Prohibited holdout access purpose " ++ text)

/-- What is checked of an event before its case ids are. -/
def readEvent (reviewMode : ReviewMode) (eventIds : List Str) (rawEvent : Object) :
    Checked AccessEvent := do
  let event ← mapping rawEvent (lit "Holdout access event")
  let eventId ← requireText event "event_id" (lit "Holdout access event")
  rejectWhen (eventId ∈ eventIds) (lit "Duplicate holdout access event " ++ eventId)
  let description := lit "Holdout access " ++ eventId
  let accessor ← requireText event "accessor_id" description
  let purpose ← readPurpose event description
  rejectWhen (purpose = .independentReview && reviewMode = .internal)
    (lit "Internal mode cannot record independent holdout review")
  let accessedAt ← requireTimestamp event "accessed_at" description
  let rawCaseIds ← requireList event "case_ids" description
  return ⟨event, eventId, accessor, purpose, accessedAt, rawCaseIds⟩

/-- A case of the suite that is held out. -/
def isHoldout (suite : EvaluationCaseSuite) (caseId : Str) : Bool :=
  (caseOf suite caseId).any (·.split = lit "holdout")

def requireHoldout (suite : EvaluationCaseSuite) (eventId : Str) (rawCaseId : Object) :
    Checked Str :=
  let text := lit "Holdout access " ++ eventId ++ lit " contains an unknown or non-holdout case"
  match rawCaseId.str? with
  | some caseId => if isHoldout suite caseId then .ok caseId else reject text
  | none => reject text

/-- `labels[case_id]` -/
def labelOf (labels : ByCase) (caseId : Str) : Verified Fields :=
  match labels.get? caseId with
  | some (_, label) => .ok label
  | none => .error (.unlabelled caseId)

/-- The accessor of a case is who reviewed it. -/
def checkAccessor (labels : ByCase) (key : String) (text accessor caseId : Str) :
    Verified Unit := do
  let label ← labelOf labels caseId
  let review ← check (requireMapping label key (lit "Label " ++ caseId))
  check (rejectWhen (!isText (review.get "reviewer_id") accessor) (text ++ caseId))

def accessCase (context : AccessContext) (event : AccessEvent) (log : AccessLog)
    (rawCaseId : Object) : Verified AccessLog := do
  let caseId ← check (requireHoldout context.suite event.eventId rawCaseId)
  match event.purpose with
  | .ownerLabeling => return log
  | .releaseCandidateAssessment =>
    checkAccessor context.labels "primary"
      (lit "Holdout assessment accessor differs from primary reviewer for ") event.accessor caseId
    return { log with assessed := caseId :: log.assessed }
  | .independentReview =>
    checkAccessor context.labels "independent"
      (lit "Holdout review accessor differs from independent reviewer for ") event.accessor caseId
    return { log with independentlyReviewed := caseId :: log.independentlyReviewed }

/-- `map(str, raw_case_ids)` -/
def caseTexts (show' : Object → Option Str) (rawCaseIds : List Object) : Verified (List Str) :=
  match rawCaseIds.mapM (strOf show') with
  | some texts => .ok texts
  | none => .error .unprintable

/-- What is checked of an event after its case ids. -/
def checkCandidate (candidate : Candidate) (event : AccessEvent) : Checked Unit :=
  match event.purpose with
  | .ownerLabeling =>
    rejectWhen (lit "candidate_commit_sha" ∉ event.fields.keys
        || !(event.fields.get "candidate_commit_sha" matches .none))
      (lit "Owner labeling access " ++ event.eventId ++ lit " must have a null candidate SHA")
  | _ =>
    rejectWhen (!isText (event.fields.get "candidate_commit_sha") candidate.commitSha
        || event.accessedAt < candidate.frozenAt)
      (lit "Holdout access " ++ event.eventId ++
        lit " predates freeze or names another candidate")

def recordEvent (context : AccessContext) (log : AccessLog) (rawEvent : Object) :
    Verified AccessLog := do
  let event ← check (readEvent context.reviewMode log.eventIds rawEvent)
  let texts ← caseTexts context.show' event.rawCaseIds
  check (rejectWhen (event.rawCaseIds.isEmpty || !decide texts.Nodup)
    (lit "Holdout access " ++ event.eventId ++ lit " requires distinct case IDs"))
  let log ← event.rawCaseIds.foldlM (accessCase context event)
    { log with eventIds := event.eventId :: log.eventIds }
  check (checkCandidate context.candidate event)
  return log

/-- The events of the log. -/
def accessEvents (manifest : Fields) : Checked (List Object) := do
  let log ← requireMapping manifest "holdout_access" manifestDescription
  rejectWhen (!isText (log.get "schema_version") holdoutAccessSchemaVersion)
    (lit "Unsupported holdout access log schema")
  let events ← requireList log "events" (lit "holdout_access")
  rejectWhen events.isEmpty (lit "Holdout access events are required")
  return events

/-- Every selected holdout case was accessed as the review mode asks. -/
def checkCoverage (context : AccessContext) (log : AccessLog) : Checked Unit := do
  let selectedHoldouts := context.selected.keys.filter (isHoldout context.suite)
  rejectWhen (!selectedHoldouts.all (· ∈ log.assessed))
    (lit "Selected holdout cases lack recorded candidate assessment access")
  rejectWhen (context.reviewMode = .independent
      && !selectedHoldouts.all (· ∈ log.independentlyReviewed))
    (lit "Selected holdout cases lack recorded independent-review access")

/-- `_validate_holdout_access` -/
def validateHoldoutAccess (manifest : Fields) (context : AccessContext) : Verified Nat := do
  let events ← check (accessEvents manifest)
  let log ← events.foldlM (recordEvent context) .empty
  check (checkCoverage context log)
  return events.length

/-! ## The labels -/

/-- The revision, the time and the reviewer of a review. -/
structure ValidReview where
  revision : Str
  lockedAt : Int
  reviewer : Str

def findAttestation (attestations : Dict Str Attestation) (attestationId context : Str) :
    Checked Attestation :=
  match attestations.get? attestationId with
  | some attestation => .ok attestation
  | none => reject (context ++ lit " references an unknown reviewer attestation")

/-- `_validate_review` -/
def validateReview (attestations : Dict Str Attestation) (expectedIndependent : Bool)
    (context : Str) (seenRevisions : List Str) (review : Fields) : Checked ValidReview := do
  let revision ← requireText review "label_revision" context
  rejectWhen (revision ∈ seenRevisions) (lit "Immutable label revision is reused: " ++ revision)
  let labelSha256 ← requireText review "label_sha256" context
  rejectWhen (!isDigest labelSha256) (context ++ lit " label_sha256 is not a SHA-256 digest")
  let reviewerId ← requireText review "reviewer_id" context
  let attestationId ← requireText review "reviewer_attestation_id" context
  let lockedAt ← requireTimestamp review "locked_at" context
  let attestation ← findAttestation attestations attestationId context
  rejectWhen (attestation.reviewerId ≠ reviewerId)
    (context ++ lit " reviewer does not match the attestation")
  rejectWhen (!attestation.eligible) (context ++ lit " reviewer is not eligible")
  rejectWhen (attestation.independent ≠ expectedIndependent)
    (context ++ lit " independence attestation is inconsistent")
  return ⟨revision, lockedAt, reviewerId⟩

/-- A disagreement that was settled by an adjudication. -/
def checkResolved (attestations : Dict Str Attestation) (caseId : Str) (primary : ValidReview)
    (independent : ValidReview) (finalRevision : Str) (seenRevisions : List Str)
    (adjudication : Fields) : Checked (List Str) := do
  let adjudicated ← validateReview attestations true (lit "Adjudication for " ++ caseId)
    seenRevisions adjudication
  rejectWhen (adjudicated.reviewer = primary.reviewer
      || adjudicated.reviewer = independent.reviewer)
    (lit "Adjudication for " ++ caseId ++ lit " is not independent")
  let _ ← requireText adjudication "rationale" (lit "Adjudication for " ++ caseId)
  rejectWhen (finalRevision ≠ adjudicated.revision)
    (lit "Resolved disagreement for " ++ caseId ++ lit " does not use the adjudicated label")
  return adjudicated.revision :: seenRevisions

/-- `_validate_disagreement`, with the revisions that are seen after it. -/
def validateDisagreement (attestations : Dict Str Attestation) (caseId : Str) (label : Fields)
    (primary : ValidReview) (independent : Option ValidReview) (seenRevisions : List Str) :
    Checked (List Str) := do
  let description := lit "Disagreement for " ++ caseId
  let disagreement ← requireMapping label "disagreement" (lit "Label " ++ caseId)
  let status ← requireText disagreement "status" description
  let materialIds ← requireList disagreement "material_disagreement_ids" description
  let texts := materialIds.filterMap Object.str?
  rejectWhen (texts.length ≠ materialIds.length || texts.any (strip · = []))
    (description ++ lit " has an invalid material disagreement ID")
  rejectWhen (!decide texts.Nodup) (description ++ lit " repeats a material disagreement ID")
  let finalRevision ← requireText label "approved_final_label_revision" (lit "Label " ++ caseId)
  let adjudication ← optionalMapping label "adjudication" (lit "Label " ++ caseId)
  if status = lit "none" then
    rejectWhen (!materialIds.isEmpty || adjudication.isSome)
      (description ++ lit " is inconsistent with status none")
    rejectWhen (finalRevision ≠ primary.revision
        && independent.all (·.revision ≠ finalRevision))
      (lit "Label " ++ caseId ++ lit " final revision is not an approved immutable review")
    return seenRevisions
  else
    rejectWhen (status ≠ lit "resolved") (description ++ lit " is unresolved")
    match independent, adjudication with
    | some independent, some adjudication =>
      rejectWhen materialIds.isEmpty
        (lit "Resolved disagreement for " ++ caseId ++ lit " lacks required evidence")
      checkResolved attestations caseId primary independent finalRevision seenRevisions
        adjudication
    | _, _ =>
      reject (lit "Resolved disagreement for " ++ caseId ++ lit " lacks required evidence")

/-- What the labels are checked against. -/
structure LabelContext where
  attestations : Dict Str Attestation
  selected : ByCase
  reviewMode : ReviewMode
  candidateFrozenAt : Int

/-- The revisions seen so far, and the splits of the selected cases reviewed independently. -/
structure LabelProgress where
  seenRevisions : List Str
  independentSplits : List Str

/-- The independent review of a case. -/
def validateIndependent (context : LabelContext) (case : EvaluationCase) (primary : ValidReview)
    (seenRevisions : List Str) (independent : Fields) : Checked ValidReview := do
  let description := lit "Independent review for " ++ case.id
  rejectWhen (!isTrue (independent.get "blind")) (description ++ lit " is not blind")
  rejectWhen (!isFalse (independent.get "candidate_output_visible_before_lock"))
    (description ++ lit " exposed candidate output before lock")
  let review ← validateReview context.attestations true description seenRevisions independent
  rejectWhen (review.reviewer = primary.reviewer)
    (lit "Independent reviewer for " ++ case.id ++ lit " is not independent")
  rejectWhen (case.split = lit "holdout" && review.lockedAt < context.candidateFrozenAt)
    (lit "Holdout review for " ++ case.id ++ lit " was locked before the candidate freeze")
  return review

/-- One turn of the loop over the labels. -/
def validateLabel (context : LabelContext) (progress : LabelProgress)
    (item : Str × EvaluationCase × Fields) : Checked LabelProgress := do
  let (caseId, case, label) := item
  let description := lit "Label " ++ caseId
  let split ← requireText label "split" description
  rejectWhen (split ≠ case.split) (description ++ lit " split does not match the case fixture")
  let category ← requireText label "category" description
  rejectWhen (category ≠ case.category)
    (description ++ lit " category does not match the case fixture")
  let primary ← requireMapping label "primary" description
  let primary ← validateReview context.attestations false (lit "Primary review for " ++ caseId)
    progress.seenRevisions primary
  let seenRevisions := primary.revision :: progress.seenRevisions
  let independent ← optionalMapping label "independent" description
  let isSelected : Bool := caseId ∈ context.selected.keys
  rejectWhen (context.reviewMode = .internal
      && (independent.isSome || !(label.get "adjudication" matches .none)))
    (lit "Internal mode cannot claim independent review or adjudication for " ++ caseId)
  match independent with
  | none =>
    rejectWhen (isSelected && context.reviewMode = .independent)
      (lit "Selected case " ++ caseId ++ lit " lacks an independent review")
    let seenRevisions ← validateDisagreement context.attestations caseId label primary none
      seenRevisions
    return { progress with seenRevisions }
  | some independent =>
    let independent ← validateIndependent context case primary seenRevisions independent
    let seenRevisions ← validateDisagreement context.attestations caseId label primary
      (some independent) (independent.revision :: seenRevisions)
    return {
      seenRevisions
      independentSplits :=
        if isSelected then case.split :: progress.independentSplits
        else progress.independentSplits }

/-! ## The verification -/

/-- What the manifest says of itself. -/
def checkReleaseStatus (header : Header) (releaseStatus : Fields) : Checked Unit :=
  match header.review.mode with
  | .internal =>
    rejectWhen (!isTrue (releaseStatus.get "primary_labels_complete")
        || !(["independent_review_complete", "adjudication_complete", "eg_09_eligible"].all
          fun key => isFalse (releaseStatus.get key))
        || ["all_required_reviews_complete", "all_disagreements_resolved"].any
          (fun key => isTrue (releaseStatus.get key)))
      (lit "Internal release status falsely claims independent review or EG-09 eligibility")
  | .independent => do
    for fieldName in ["all_required_reviews_complete", "all_disagreements_resolved",
        "eg_09_eligible"] do
      rejectWhen (!isTrue (releaseStatus.get fieldName))
        (lit "release_status." ++ lit fieldName ++ lit " must be true")
    rejectWhen (header.isV2 && (!isTrue (releaseStatus.get "independent_review_complete")
        || !isTrue (releaseStatus.get "adjudication_complete")))
      (lit "Independent release status requires completed review and adjudication")

structure LabelCompletenessAndAdjudicationResult where
  suiteId : Str
  caseCount : Nat
  validationIndependentReviewCount : Nat
  holdoutIndependentReviewCount : Nat
  candidateCommitSha : Str
  manifestSchemaVersion : Str
  reviewModeSchemaVersion : Str
  reviewMode : Str
  independentReviewStatus : Str
  externalCustodyClaimed : Bool
  disclosure : Str
  holdoutAccessEventCount : Nat
deriving DecidableEq

/-- Every case of the suite has a label, and the selected ones their reviews. -/
def checkLabels (suite : EvaluationCaseSuite) (labels : ByCase) (reviewMode : ReviewMode)
    (splits : List Str) : Checked Unit := do
  let caseIds := suite.cases.map (·.id)
  let missing := caseIds.filter (· ∉ labels.keys)
  let unexpected := labels.keys.filter (· ∉ caseIds)
  if missing ≠ [] ∨ unexpected ≠ [] then
    .error (.coverage (sortedTexts missing) (sortedTexts unexpected))
  else if reviewMode = .independent ∧ ¬ (splits.count (lit "validation") = 10
      ∧ splits.count (lit "holdout") = 10 ∧ splits.length = 20) then
    .error (.counts splits)
  else .ok ()

/-- What is checked after the access log. -/
def completeVerification (manifest : Fields) (suite : EvaluationCaseSuite) (header : Header)
    (selected : ByCase) (attestations : Dict Str Attestation) (labels : ByCase)
    (accessEventCount : Nat) : Checked LabelCompletenessAndAdjudicationResult := do
  rejectWhen (header.review.mode = .internal
      && attestations.items.any (·.2.independent))
    (lit "Internal mode cannot contain independent reviewer attestations")
  let context := ⟨attestations, selected, header.review.mode, header.candidate.frozenAt⟩
  let progress ← labels.items.foldlM (validateLabel context) ⟨[], []⟩
  let splits := progress.independentSplits
  checkLabels suite labels header.review.mode splits
  let releaseStatus ← requireMapping manifest "release_status" manifestDescription
  checkReleaseStatus header releaseStatus
  return {
    suiteId := suite.suiteId
    caseCount := labels.size
    validationIndependentReviewCount := splits.count (lit "validation")
    holdoutIndependentReviewCount := splits.count (lit "holdout")
    candidateCommitSha := header.candidate.commitSha
    manifestSchemaVersion := header.schemaVersion
    reviewModeSchemaVersion
    reviewMode := header.review.mode.text
    independentReviewStatus := header.review.independentReviewStatus
    externalCustodyClaimed := false
    disclosure := header.review.disclosure
    holdoutAccessEventCount := accessEventCount }

/-- What the checks before the access log read. -/
structure Prepared where
  header : Header
  attestations : Dict Str Attestation
  context : AccessContext

def prepare (show' : Object → Option Str) (manifest selection : Fields)
    (suite : EvaluationCaseSuite) : Checked Prepared := do
  let header ← readHeader manifest selection suite.suiteId
  let selected ← selectedCases selection suite
  let attestations ← attestations manifest
  let labels ← labels manifest suite
  return {
    header
    attestations
    context := ⟨suite, selected, labels, header.candidate, header.review.mode, show'⟩ }

/-- The events of the log that a v2 manifest has. -/
def accessEventCount (manifest : Fields) (p : Prepared) : Verified Nat :=
  if p.header.isV2 then validateHoldoutAccess manifest p.context else .ok 0

/-- `verify_label_completeness_and_adjudication` of the manifest that was read at a path, with
the release selection and the case suite of the repository. -/
def verifyLabelCompletenessAndAdjudication (show' : Object → Option Str) (path : Str)
    (document : Document) (selection : Fields) (suite : EvaluationCaseSuite) :
    Verified LabelCompletenessAndAdjudicationResult := do
  let manifest ← loadMapping path document manifestDescription
  let p ← check (prepare show' manifest selection suite)
  let count ← accessEventCount manifest p
  check (completeVerification manifest suite p.header p.context.selected p.attestations
    p.context.labels count)

end QaCopilot.Evaluation.LabelCompleteness
