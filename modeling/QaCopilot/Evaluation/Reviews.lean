import QaCopilot.Evaluation.ReviewLabels
import QaCopilot.Lib.Runs
import QaCopilot.Lib.Table

/-!
# The review workflow

`EvaluationReviewService` of `evaluation_reviews.py` over the rows of its repository. A call reads
rows, appends rows and returns or raises; what it has appended stays.
-/

namespace QaCopilot.Reviews

open QaCopilot.Python QaCopilot.Table

/-- `EvaluationReviewRejected` by its message, also where that is the message of an invalid label,
`EvaluationReviewUnavailable`, and the exceptions that no handler of the module takes. -/
inductive ReviewError where
  | rejected (message : String)
  | invalidLabel (error : LabelError)
  | unavailable
  | jsonDecode
  | value
  | recursion
deriving DecidableEq

inductive Role where
  | primary
  | independent
  | adjudicated
deriving DecidableEq

def captureSchemaVersion : Str := lit "evaluation-review-capture/v1"

structure Attestation where
  id : Uuid
  reviewerId : Str
  datasetVersion : Str
  rubricVersion : Str
  qualificationSummary : Str
  eligible : Bool
  independent : Bool
  createdAt : Nat
deriving DecidableEq

structure Label where
  id : Uuid
  caseId : Str
  caseSha256 : Str
  datasetVersion : Str
  rubricVersion : Str
  subjectKind : SubjectKind
  subjectId : Str
  role : Role
  reviewerId : Str
  reviewerAttestationId : Uuid
  labelJson : Str
  labelSha256 : Str
  candidateOutputSha256 : Option Str
  reviewCaptureSchemaVersion : Option Str
  reviewPacketSha256 : Option Str
  revisionNumber : Nat
  parentRevisionId : Option Uuid
  primaryLabelId : Option Uuid
  independentLabelId : Option Uuid
  createdAt : Nat
deriving DecidableEq

structure Disagreement where
  id : Uuid
  primaryLabelId : Uuid
  independentLabelId : Uuid
  fieldPath : Str
  primaryValueJson : Str
  independentValueJson : Str
  material : Bool
  createdAt : Nat
deriving DecidableEq

structure Adjudication where
  id : Uuid
  disagreementId : Uuid
  adjudicatedLabelId : Uuid
  adjudicatorId : Str
  rationale : Str
  createdAt : Nat
deriving DecidableEq

/-- The tables of the repository, each in the order in which its rows were appended. -/
structure Store where
  attestations : List Attestation
  labels : List Label
  disagreements : List Disagreement
  adjudications : List Adjudication
deriving DecidableEq

def Store.empty : Store := ⟨[], [], [], []⟩

/-- What the service runs on. The labels that it writes nest two containers. -/
structure Runtime where
  sha256 : Bytes → BitVec 256
  maxDepth : Nat
  deep : 2 ≤ maxDepth

/-- What the `n`th create of one call meets: the identifier and the time given to its row, and
whether the database refuses the row for a reason other than a unique key. -/
structure Weather where
  newId : Nat → Uuid
  now : Nat → Nat
  fails : Nat → Bool

/-- The unique constraints of the tables. -/
def Attestation.clashes (a b : Attestation) : Bool := a.id = b.id

def Label.clashes (a b : Label) : Bool :=
  a.id = b.id || (a.caseId = b.caseId && a.subjectKind = b.subjectKind &&
    a.subjectId = b.subjectId && a.role = b.role && a.revisionNumber = b.revisionNumber)

def Disagreement.clashes (a b : Disagreement) : Bool :=
  a.id = b.id || (a.primaryLabelId = b.primaryLabelId &&
    a.independentLabelId = b.independentLabelId && a.fieldPath = b.fieldPath)

def Adjudication.clashes (a b : Adjudication) : Bool :=
  a.id = b.id || a.disagreementId = b.disagreementId

/-- `ORDER BY created_at, id` -/
def olderFirst {ρ : Type} (createdAt : ρ → Nat) (id : ρ → Uuid) (rows : List ρ) : List ρ :=
  rows.insertionSort fun a b =>
    createdAt a < createdAt b || (createdAt a == createdAt b && id a ≤ id b)

theorem mem_olderFirst {ρ : Type} {createdAt : ρ → Nat} {id : ρ → Uuid} {rows : List ρ} {r : ρ} :
    r ∈ olderFirst createdAt id rows ↔ r ∈ rows :=
  (List.perm_insertionSort _ rows).mem_iff

/-! ## Texts, digests and snapshots -/

def rejectIf (c : Bool) (message : String) : Except ReviewError Unit :=
  if c then .error (.rejected message) else .ok ()

/-- `_required_text` -/
def requireText (v : Str) (label : String) : Except ReviewError Str :=
  if strip v = [] then .error (.rejected (label ++ " must not be blank")) else .ok (strip v)

/-- `_sha256` -/
def requireDigest (v : Str) (label : String) : Except ReviewError Str :=
  if isDigest (strip v) then .ok (strip v)
  else .error (.rejected (label ++ " must be a lowercase SHA-256 digest"))

def optionalDigest (v : Option Str) (label : String) : Except ReviewError (Option Str) :=
  match v with
  | none => .ok none
  | some v => do return some (← requireDigest v label)

/-- `_sha256_digest`; a lone surrogate has no UTF-8. -/
def sha256Digest (rt : Runtime) (text : Str) : Except ReviewError Str :=
  match utf8 text with
  | some bytes => .ok (hexdigest (rt.sha256 bytes))
  | none => .error .value

def canonicalJson (rt : Runtime) (v : Json) (label : String) : Except ReviewError Str :=
  match dumps .compactUnicode rt.maxDepth v.sorted with
  | .ok text => .ok text
  | .error .value => .error (.rejected (label ++ " must be JSON serializable"))
  | .error .recursion => .error .recursion

def labelSnapshot (rt : Runtime) (labels : Payload) : Except ReviewError Str :=
  if labels = [] then .error (.rejected "Review labels must be a non-empty mapping")
  else canonicalJson rt (.dict labels) "Review labels"

/-- `EvaluationReviewLabel.labels` -/
def Label.labels (rt : Runtime) (label : Label) : Except ReviewError Payload :=
  match loads rt.maxDepth label.labelJson with
  | .ok (.dict payload) => .ok payload
  | .ok _ => .error (.rejected "Stored review label must be a mapping")
  | .error .decode => .error .jsonDecode
  | .error .value => .error .value
  | .error .recursion => .error .recursion

/-- The snapshot of a stored label; what is refused or not JSON is malformed. -/
def checkSnapshot (rt : Runtime) (label : Label) : Except ReviewError Unit :=
  match label.labels rt >>= labelSnapshot rt with
  | .ok _ => .ok ()
  | .error (.rejected _) | .error .jsonDecode =>
    .error (.rejected "Stored review label is malformed")
  | .error e => .error e

def labelFromRecord (rt : Runtime) (row : Label) : Except ReviewError Label := do
  let caseSha256 ← requireDigest row.caseSha256 "Stored case SHA-256"
  let labelSha256 ← requireDigest row.labelSha256 "Stored label SHA-256"
  let candidate ← optionalDigest row.candidateOutputSha256 "Stored candidate-output SHA-256"
  let packet ← optionalDigest row.reviewPacketSha256 "Stored review-packet SHA-256"
  let label := { row with
    caseSha256 := caseSha256
    labelSha256 := labelSha256
    candidateOutputSha256 := candidate
    reviewPacketSha256 := packet }
  let digest ← sha256Digest rt label.labelJson
  rejectIf (digest ≠ label.labelSha256) "Stored review label hash does not match"
  checkSnapshot rt label
  return label

/-! ## The repository -/

section
variable (rt : Runtime) (s : Store)

def Store.getAttestation (id : Uuid) : Option Attestation := s.attestations.find? (·.id = id)

def Store.getLabel (id : Uuid) : Except ReviewError (Option Label) :=
  match s.labels.find? (·.id = id) with
  | none => .ok none
  | some row => do return some (← labelFromRecord rt row)

def Label.isOf (label : Label) (caseId : Str) (kind : SubjectKind) (subjectId : Str) : Bool :=
  label.caseId = caseId && label.subjectKind = kind && label.subjectId = subjectId

def Store.listLabels (caseId : Str) (kind : SubjectKind) (subjectId : Str) :
    Except ReviewError (List Label) :=
  ((s.labels.filter (·.isOf caseId kind subjectId)).insertionSort fun a b =>
    a.revisionNumber < b.revisionNumber || (a.revisionNumber == b.revisionNumber &&
      (a.createdAt < b.createdAt || (a.createdAt == b.createdAt && a.id ≤ b.id)))).mapM
    (labelFromRecord rt)

def Disagreement.isOf (d : Disagreement) (primary independent : Uuid) : Bool :=
  d.primaryLabelId = primary && d.independentLabelId = independent

def Store.listDisagreements (primary independent : Uuid) : List Disagreement :=
  olderFirst (·.createdAt) (·.id) (s.disagreements.filter (·.isOf primary independent))

def Store.listAdjudications (disagreement : Uuid) : List Adjudication :=
  olderFirst (·.createdAt) (·.id) (s.adjudications.filter (·.disagreementId = disagreement))

def Store.createAttestation (fails : Bool) (row : Attestation) :
    Except ReviewError Attestation × Store :=
  if fails || s.attestations.any row.clashes then (.error .unavailable, s)
  else (.ok row, { s with attestations := s.attestations ++ [row] })

/-- The row is read back after the commit. -/
def Store.createLabel (fails : Bool) (row : Label) : Except ReviewError Label × Store :=
  if fails || s.labels.any row.clashes then (.error .unavailable, s)
  else (labelFromRecord rt row, { s with labels := s.labels ++ [row] })

def Store.createDisagreement (fails : Bool) (row : Disagreement) :
    Except ReviewError Disagreement × Store :=
  if fails || s.disagreements.any row.clashes then (.error .unavailable, s)
  else (.ok row, { s with disagreements := s.disagreements ++ [row] })

def Store.createAdjudication (fails : Bool) (row : Adjudication) :
    Except ReviewError Adjudication × Store :=
  if fails || s.adjudications.any row.clashes then (.error .unavailable, s)
  else (.ok row, { s with adjudications := s.adjudications ++ [row] })

/-! ## Reads of the service -/

/-- `_attestation_for` -/
def attestationFor (attestationId : Uuid) (reviewerId datasetVersion rubricVersion : Str)
    (requireIndependent : Bool) : Except ReviewError Unit :=
  match s.getAttestation attestationId with
  | none => .error (.rejected "Reviewer attestation was not found")
  | some attestation =>
    if !attestation.eligible then .error (.rejected "Reviewer attestation is not eligible")
    else if attestation.reviewerId ≠ strip reviewerId then
      .error (.rejected "Reviewer attestation does not belong to the supplied reviewer")
    else if attestation.datasetVersion ≠ datasetVersion then
      .error (.rejected "Reviewer attestation has a different dataset version")
    else if attestation.rubricVersion ≠ rubricVersion then
      .error (.rejected "Reviewer attestation has a different rubric version")
    else if requireIndependent && !attestation.independent then
      .error (.rejected "Independent review requires an independence attestation")
    else .ok ()

/-- `_label` -/
def labelOf (id : Uuid) : Except ReviewError Label := do
  match ← s.getLabel rt id with
  | none => .error (.rejected "Review label was not found")
  | some label => return label

/-- The order of `(revision_number, created_at, str(id))`. -/
def Label.newer (a b : Label) : Bool :=
  b.revisionNumber < a.revisionNumber || (a.revisionNumber == b.revisionNumber &&
    (b.createdAt < a.createdAt || (a.createdAt == b.createdAt && b.id < a.id)))

/-- `_latest_label` -/
def latestLabel (caseId : Str) (kind : SubjectKind) (subjectId : Str) (role : Role) :
    Except ReviewError (Option Label) := do
  let labels ← s.listLabels rt caseId kind subjectId
  return firstBy Label.newer (labels.filter (·.role = role))

end

/-! ## Labels -/

/-- The arguments of `_create_label`. -/
structure Draft where
  caseId : Str
  caseSha256 : Str
  datasetVersion : Str
  rubricVersion : Str
  subjectKind : SubjectKind
  subjectId : Str
  role : Role
  reviewerId : Str
  reviewerAttestationId : Uuid
  labels : Payload
  candidateOutputSha256 : Option Str
  reviewPacketSha256 : Option Str
  primaryLabelId : Option Uuid
  independentLabelId : Option Uuid

/-- Which hashes a label of each role carries. -/
def checkHashes (role : Role) (candidate packet : Option Str) : Except ReviewError Unit :=
  match role with
  | .primary =>
    if candidate = none then
      .error (.rejected "Captured primary review requires candidate-output SHA-256")
    else if packet = none then
      .error (.rejected "Captured primary review requires review-packet SHA-256")
    else .ok ()
  | .independent =>
    if candidate ≠ none then
      .error (.rejected "Independent review cannot retain candidate-output hashes")
    else if packet = none then
      .error (.rejected "Captured independent review requires review-packet SHA-256")
    else .ok ()
  | .adjudicated =>
    if candidate ≠ none ∨ packet ≠ none then
      .error (.rejected "Adjudicated review cannot retain candidate-output or packet hashes")
    else .ok ()

/-- `_create_label` up to the create: the row it hands to the repository. -/
def newLabel (rt : Runtime) (s : Store) (d : Draft) (id : Uuid) (now : Nat) :
    Except ReviewError Label := do
  let caseId ← requireText d.caseId "Case ID"
  let subjectId ← requireText d.subjectId "Subject ID"
  let datasetVersion ← requireText d.datasetVersion "Dataset version"
  let rubricVersion ← requireText d.rubricVersion "Rubric version"
  let reviewerId ← requireText d.reviewerId "Reviewer ID"
  let caseSha256 ← requireDigest d.caseSha256 "Case SHA-256"
  let candidate ← optionalDigest d.candidateOutputSha256 "Candidate-output SHA-256"
  let packet ← optionalDigest d.reviewPacketSha256 "Review-packet SHA-256"
  checkHashes d.role candidate packet
  let validated ← (validateLabel d.subjectKind d.labels).mapError .invalidLabel
  let labelJson ← labelSnapshot rt validated
  let prior ← latestLabel rt s caseId d.subjectKind subjectId d.role
  rejectIf (prior.any (·.labelJson = labelJson)) "A label revision must change the prior label"
  let labelSha256 ← sha256Digest rt labelJson
  return { id := id, caseId := caseId, caseSha256 := caseSha256, datasetVersion := datasetVersion,
           rubricVersion := rubricVersion, subjectKind := d.subjectKind, subjectId := subjectId,
           role := d.role, reviewerId := reviewerId,
           reviewerAttestationId := d.reviewerAttestationId, labelJson := labelJson,
           labelSha256 := labelSha256, candidateOutputSha256 := candidate,
           reviewCaptureSchemaVersion := some captureSchemaVersion, reviewPacketSha256 := packet,
           revisionNumber := prior.elim 1 (·.revisionNumber + 1),
           parentRevisionId := prior.map (·.id), primaryLabelId := d.primaryLabelId,
           independentLabelId := d.independentLabelId, createdAt := now }

/-- `_create_label` -/
def createLabel (rt : Runtime) (s : Store) (w : Weather) (d : Draft) :
    Except ReviewError Label × Store :=
  match newLabel rt s d (w.newId 0) (w.now 0) with
  | .error e => (.error e, s)
  | .ok label => s.createLabel rt (w.fails 0) label

/-! ## Disagreements -/

/-- `_json_pointer_segment` -/
def pointerSegment (key : Str) : Str :=
  key.flatMap fun c =>
    if c = CodePoint.ofChar '~' then lit "~0" else if c = CodePoint.ofChar '/' then lit "~1" else [c]

mutual

/-- `visit` of `_flatten_labels`, in order of the items. -/
def flattenValue (path : Str) : Json → List (Str × Json)
  | .dict [] => [(path, .dict [])]
  | .dict (i :: items) => flattenItems path (i :: items)
  | .list [] => [(path, .list [])]
  | .list (v :: vs) => flattenList path 0 (v :: vs)
  | v => [(path, v)]

def flattenList (path : Str) (index : Nat) : List Json → List (Str × Json)
  | [] => []
  | v :: vs => flattenValue (path ++ lit "/" ++ digits index) v ++ flattenList path (index + 1) vs

def flattenItems (path : Str) : List (Str × Json) → List (Str × Json)
  | [] => []
  | (key, v) :: items =>
    flattenValue (path ++ lit "/" ++ pointerSegment key) v ++ flattenItems path items

end

/-- `_flatten_labels`: the assignments of the visit, in the order of the sorted keys. -/
def flattenLabels (labels : Payload) : Payload :=
  (flattenValue [] (Json.dict labels).sorted).foldl (fun items i => setItem items i.1 i.2) []

/-- `==` of a finite double and an integer. -/
def floatEqInt (x : Finite) (n : Int) : Bool :=
  x.units = n.natAbs * scale && (x.units = 0 || x.negative = decide (n < 0))

/-- `==` of two values that a flattened label holds: scalars and empty containers. -/
def leafEq : Json → Json → Bool
  | .null, .null => true
  | .bool a, .bool b => a = b
  | .bool a, .int n | .int n, .bool a => n = if a then 1 else 0
  | .bool a, .float (.finite x) | .float (.finite x), .bool a => floatEqInt x (if a then 1 else 0)
  | .int m, .int n => m = n
  | .int n, .float (.finite x) | .float (.finite x), .int n => floatEqInt x n
  | .float (.finite x), .float (.finite y) =>
    x.units = y.units && (x.units = 0 || x.negative = y.negative)
  | .float (.infinite a), .float (.infinite b) => a = b
  | .str s, .str t => s = t
  | .list [], .list [] => true
  | .dict [], .dict [] => true
  | _, _ => false

/-- `==` of two looked up values, either of which may be `_MISSING`. -/
def valueEq : Option Json → Option Json → Bool
  | none, none => true
  | some v, some w => leafEq v w
  | _, _ => false

/-- `sorted(set(primary) | set(independent))` -/
def fieldPaths (primary independent : Payload) : List Str :=
  (primary.map (·.1) ++ independent.map (·.1)).dedup.insertionSort fun a b => Str.le a b

/-- The field paths on which the two flattened labels differ. -/
def differingPaths (primary independent : Payload) : List Str :=
  (fieldPaths primary independent).filter fun path =>
    !valueEq (primary.lookup path) (independent.lookup path)

/-- `_value_snapshot` -/
def valueSnapshot (rt : Runtime) (v : Option Json) : Except ReviewError Str :=
  match v with
  | none => canonicalJson rt (.dict [(lit "missing", .bool true)]) "Missing label value"
  | some v => canonicalJson rt v "Label value"

/-- The row of one differing field path. -/
def newDisagreement (rt : Runtime) (primary independent : Label) (primaryValues
    independentValues : Payload) (path : Str) (id : Uuid) (now : Nat) :
    Except ReviewError Disagreement := do
  let primaryValueJson ← valueSnapshot rt (primaryValues.lookup path)
  let independentValueJson ← valueSnapshot rt (independentValues.lookup path)
  return { id := id, primaryLabelId := primary.id, independentLabelId := independent.id,
           fieldPath := path, primaryValueJson := primaryValueJson,
           independentValueJson := independentValueJson,
           material := isMaterialField primary.subjectKind path, createdAt := now }

/-- The loop of `record_material_disagreements` over the differing paths. -/
def createDisagreements (w : Weather) (row : Str → Uuid → Nat → Except ReviewError Disagreement) :
    Nat → List Str → Store → Except ReviewError (List Disagreement) × Store
  | _, [], s => (.ok [], s)
  | n, path :: paths, s =>
    match row path (w.newId n) (w.now n) with
    | .error e => (.error e, s)
    | .ok d =>
      match s.createDisagreement (w.fails n) d with
      | (.error e, s) => (.error e, s)
      | (.ok d, s) =>
        match createDisagreements w row (n + 1) paths s with
        | (.error e, s) => (.error e, s)
        | (.ok ds, s) => (.ok (d :: ds), s)

/-- The independent label and its primary label; `unsuited` says what the label was wanted for. -/
def linkedLabels (rt : Runtime) (s : Store) (independentLabelId : Uuid) (unsuited : String) :
    Except ReviewError (Label × Label) := do
  let independent ← labelOf rt s independentLabelId
  rejectIf (independent.role ≠ .independent) unsuited
  match independent.primaryLabelId with
  | none => .error (.rejected "Independent label lacks primary-label linkage")
  | some primaryId => return (← labelOf rt s primaryId, independent)

def recordMaterialDisagreements (rt : Runtime) (s : Store) (w : Weather)
    (independentLabelId : Uuid) : Except ReviewError (List Disagreement) × Store :=
  match linkedLabels rt s independentLabelId "Only independent labels can be compared" with
  | .error e => (.error e, s)
  | .ok (primary, independent) =>
    match s.listDisagreements primary.id independent.id with
    | d :: ds => (.ok (d :: ds), s)
    | [] =>
      match primary.labels rt, independent.labels rt with
      | .error e, _ => (.error e, s)
      | _, .error e => (.error e, s)
      | .ok primaryLabels, .ok independentLabels =>
        let primaryValues := flattenLabels primaryLabels
        let independentValues := flattenLabels independentLabels
        createDisagreements w (newDisagreement rt primary independent primaryValues
          independentValues) 0 (differingPaths primaryValues independentValues) s

/-! ## Adjudication -/

/-- The arguments of `adjudicate`; the rationales are the items of a dict. -/
structure Verdict where
  independentLabelId : Uuid
  adjudicatorId : Str
  adjudicatorAttestationId : Uuid
  labels : Payload
  rationales : List (Uuid × Str)

/-- The final label that the verdict asks for. -/
def Verdict.draft (v : Verdict) (primary independent : Label) : Draft where
  caseId := primary.caseId
  caseSha256 := primary.caseSha256
  datasetVersion := primary.datasetVersion
  rubricVersion := primary.rubricVersion
  subjectKind := primary.subjectKind
  subjectId := primary.subjectId
  role := .adjudicated
  reviewerId := v.adjudicatorId
  reviewerAttestationId := v.adjudicatorAttestationId
  labels := v.labels
  candidateOutputSha256 := none
  reviewPacketSha256 := none
  primaryLabelId := some primary.id
  independentLabelId := some independent.id

/-- `set(a) == set(b)` -/
def sameIds (a b : List Uuid) : Bool := a.all (b.contains ·) && b.all (a.contains ·)

/-- What `adjudicate` makes sure of before it creates the final label: that label, and the material
disagreements that it resolves. -/
def prepareAdjudication (rt : Runtime) (s : Store) (v : Verdict) (id : Uuid) (now : Nat) :
    Except ReviewError (Label × List Disagreement) := do
  let (primary, independent) ← linkedLabels rt s v.independentLabelId
    "Only an independent label can be adjudicated"
  rejectIf (strip v.adjudicatorId = primary.reviewerId ||
      strip v.adjudicatorId = independent.reviewerId)
    "Adjudicator must differ from the primary and independent reviewers"
  attestationFor s v.adjudicatorAttestationId v.adjudicatorId primary.datasetVersion
    primary.rubricVersion false
  let material := (s.listDisagreements primary.id independent.id).filter (·.material)
  rejectIf (material = []) "Adjudication requires at least one material disagreement"
  rejectIf (!sameIds (v.rationales.map (·.1)) (material.map (·.id)))
    "Adjudication requires a rationale for every material disagreement"
  rejectIf (material.any fun d => s.listAdjudications d.id ≠ [])
    "Material disagreements already have immutable adjudication evidence"
  let label ← newLabel rt s (v.draft primary independent) id now
  return (label, material)

def Verdict.rationale (v : Verdict) (d : Disagreement) : Str := (v.rationales.lookup d.id).getD []

def newAdjudication (w : Weather) (v : Verdict) (label : Label) (n : Nat) (d : Disagreement)
    (rationale : Str) : Adjudication where
  id := w.newId n
  disagreementId := d.id
  adjudicatedLabelId := label.id
  adjudicatorId := strip v.adjudicatorId
  rationale := rationale
  createdAt := w.now n

/-- The loop of `adjudicate` over the material disagreements. -/
def createAdjudications (w : Weather) (v : Verdict) (label : Label) :
    Nat → List Disagreement → Store → Except ReviewError Unit × Store
  | _, [], s => (.ok (), s)
  | n, d :: ds, s =>
    match requireText (v.rationale d) "Adjudication rationale" with
    | .error e => (.error e, s)
    | .ok rationale =>
      match s.createAdjudication (w.fails n) (newAdjudication w v label n d rationale) with
      | (.error e, s) => (.error e, s)
      | (.ok _, s) => createAdjudications w v label (n + 1) ds s

def adjudicate (rt : Runtime) (s : Store) (w : Weather) (v : Verdict) :
    Except ReviewError Label × Store :=
  match prepareAdjudication rt s v (w.newId 0) (w.now 0) with
  | .error e => (.error e, s)
  | .ok (label, material) =>
    match s.createLabel rt (w.fails 0) label with
    | (.error e, s) => (.error e, s)
    | (.ok adjudicated, s) =>
      match createAdjudications w v adjudicated 1 material s with
      | (.error e, s) => (.error e, s)
      | (.ok _, s) => (.ok adjudicated, s)

/-- The labels that adjudicate every one of the disagreements. At most one label adjudicates a
disagreement, so the order of the set does not matter. -/
def candidateLabels (s : Store) : List Disagreement → List Uuid
  | [] => []
  | [d] => (s.listAdjudications d.id).map (·.adjudicatedLabelId)
  | d :: ds => (candidateLabels s ds).filter fun id =>
      (s.listAdjudications d.id).any (·.adjudicatedLabelId = id)

def approvedFinalLabel (rt : Runtime) (s : Store) (w : Weather) (independentLabelId : Uuid) :
    Except ReviewError Label × Store :=
  match linkedLabels rt s independentLabelId "Only an independent label can be finalized" with
  | .error e => (.error e, s)
  | .ok (primary, independent) =>
    match recordMaterialDisagreements rt s w independent.id with
    | (.error e, s) => (.error e, s)
    | (.ok disagreements, s) =>
      match disagreements.filter (·.material) with
      | [] => (.ok primary, s)
      | d :: ds =>
        match candidateLabels s (d :: ds) with
        | [] =>
          (.error (.rejected "Unresolved material disagreement cannot be represented as approved"),
            s)
        | id :: _ =>
          match labelOf rt s id with
          | .error e => (.error e, s)
          | .ok approved =>
            if approved.role = .adjudicated then (.ok approved, s)
            else (.error (.rejected "Approved final label must be adjudicated"), s)

/-! ## Attestations and first labels -/

def recordAttestation (s : Store) (w : Weather) (reviewerId datasetVersion rubricVersion
    qualificationSummary : Str) (eligible independent : Bool) :
    Except ReviewError Attestation × Store :=
  let made : Except ReviewError Attestation := do
    let reviewerId ← requireText reviewerId "Reviewer ID"
    let datasetVersion ← requireText datasetVersion "Dataset version"
    let rubricVersion ← requireText rubricVersion "Rubric version"
    let qualificationSummary ← requireText qualificationSummary "Qualification summary"
    return { id := w.newId 0, reviewerId := reviewerId, datasetVersion := datasetVersion,
             rubricVersion := rubricVersion, qualificationSummary := qualificationSummary,
             eligible := eligible, independent := independent, createdAt := w.now 0 }
  match made with
  | .error e => (.error e, s)
  | .ok attestation => s.createAttestation (w.fails 0) attestation

/-- The arguments of `submit_primary`. -/
structure PrimaryReview where
  caseId : Str
  caseSha256 : Str
  datasetVersion : Str
  rubricVersion : Str
  subjectKind : SubjectKind
  subjectId : Str
  reviewerId : Str
  reviewerAttestationId : Uuid
  labels : Payload
  reviewPacketSha256 : Str
  candidateOutputSha256 : Option Str

def PrimaryReview.draft (r : PrimaryReview) : Draft where
  caseId := r.caseId
  caseSha256 := r.caseSha256
  datasetVersion := r.datasetVersion
  rubricVersion := r.rubricVersion
  subjectKind := r.subjectKind
  subjectId := r.subjectId
  role := .primary
  reviewerId := r.reviewerId
  reviewerAttestationId := r.reviewerAttestationId
  labels := r.labels
  candidateOutputSha256 := r.candidateOutputSha256
  reviewPacketSha256 := some r.reviewPacketSha256
  primaryLabelId := none
  independentLabelId := none

def submitPrimary (rt : Runtime) (s : Store) (w : Weather) (r : PrimaryReview) :
    Except ReviewError Label × Store :=
  match attestationFor s r.reviewerAttestationId r.reviewerId r.datasetVersion r.rubricVersion
      false with
  | .error e => (.error e, s)
  | .ok () => createLabel rt s w r.draft

/-- The arguments of `submit_independent`. -/
structure IndependentReview where
  caseId : Str
  subjectKind : SubjectKind
  subjectId : Str
  reviewerId : Str
  reviewerAttestationId : Uuid
  labels : Payload
  reviewPacketSha256 : Str

/-- The label of the independent review of a primary label. -/
def IndependentReview.draft (r : IndependentReview) (primary : Label) : Draft where
  caseId := primary.caseId
  caseSha256 := primary.caseSha256
  datasetVersion := primary.datasetVersion
  rubricVersion := primary.rubricVersion
  subjectKind := primary.subjectKind
  subjectId := primary.subjectId
  role := .independent
  reviewerId := r.reviewerId
  reviewerAttestationId := r.reviewerAttestationId
  labels := r.labels
  candidateOutputSha256 := none
  reviewPacketSha256 := some r.reviewPacketSha256
  primaryLabelId := some primary.id
  independentLabelId := none

/-- The latest primary label, from which the blind packet of the independent reviewer is made. -/
def lockedPrimary (rt : Runtime) (s : Store) (caseId : Str) (kind : SubjectKind)
    (subjectId : Str) : Except ReviewError Label := do
  match ← latestLabel rt s caseId kind subjectId .primary with
  | none =>
    .error (.rejected "A locked primary review is required before independent review")
  | some primary => return primary

/-- The primary label that an independent review may be submitted for. -/
def prepareIndependent (rt : Runtime) (s : Store) (r : IndependentReview) :
    Except ReviewError Label := do
  let primary ← lockedPrimary rt s r.caseId r.subjectKind r.subjectId
  rejectIf (strip r.reviewerId = primary.reviewerId)
    "Independent reviewer must differ from the primary reviewer"
  attestationFor s r.reviewerAttestationId r.reviewerId primary.datasetVersion
    primary.rubricVersion true
  return primary

def submitIndependent (rt : Runtime) (s : Store) (w : Weather) (r : IndependentReview) :
    Except ReviewError Label × Store :=
  match prepareIndependent rt s r with
  | .error e => (.error e, s)
  | .ok primary => createLabel rt s w (r.draft primary)

/-! ## Runs -/

inductive Call where
  | recordAttestation (reviewerId datasetVersion rubricVersion qualificationSummary : Str)
      (eligible independent : Bool)
  | submitPrimary (r : PrimaryReview)
  | submitIndependent (r : IndependentReview)
  | recordMaterialDisagreements (independentLabelId : Uuid)
  | adjudicate (v : Verdict)
  | approvedFinalLabel (independentLabelId : Uuid)

/-- The store after one call in its weather, whether it returned or raised. -/
def step (rt : Runtime) (s : Store) (i : Call × Weather) : Store :=
  match i.1 with
  | .recordAttestation reviewer dataset rubric summary eligible independent =>
    (recordAttestation s i.2 reviewer dataset rubric summary eligible independent).2
  | .submitPrimary r => (submitPrimary rt s i.2 r).2
  | .submitIndependent r => (submitIndependent rt s i.2 r).2
  | .recordMaterialDisagreements label => (recordMaterialDisagreements rt s i.2 label).2
  | .adjudicate v => (adjudicate rt s i.2 v).2
  | .approvedFinalLabel label => (approvedFinalLabel rt s i.2 label).2

/-! ## A sample review

Ann's and Bob's labels of one finding differ in an evidence locator and on whether it makes an
unsupported claim.
-/

def sampleId (n : Nat) : Uuid := BitVec.ofNat 128 n

def sampleLabels (unsupported : Bool) (locator rationale : String) : Payload :=
  [(lit "schema_version", .str labelSchemaVersion), (lit "subject_kind", .str (lit "finding")),
    (lit "score", .int (if unsupported then 0 else 2)),
    (lit "criteria", .dict (findingCriteria.map fun key => (lit key, .str (lit "meets")))),
    (lit "unsupported_claim_present", .bool unsupported),
    (lit "evidence_locators", .list [.str (lit locator)]), (lit "rationale", .str (lit rationale))]

def sampleDigest : Str := hexdigest 0

/-- The SHA-256 of the texts of the sample labels, by their lengths. -/
def sampleHashes : List (Nat × BitVec 256) :=
  [(255, 0x93cc38fea21aee586f8dfcc744370dd1f02eb5c487bfdb3157e9b973120837d0),
    (256, 0x6a63ac72cbcf29b7fe3bfe78e040188d7492e476157dc837ef2cb785685dfb44),
    (257, 0xbdb33d7bf688ec418c1502913b052cca3270a51e4b642089ea86bb6f4c28cfbd),
    (258, 0x8e5ac54ed4d0c7709577654086185c7ed834254c8fd67fc88c502120b3e8b82e)]

def sampleRuntime : Runtime where
  sha256 := fun bytes => (sampleHashes.lookup bytes.length).getD 0
  maxDepth := 1000
  deep := by decide

/-- The `n`th call takes its identifiers and times from the `n`th hundred. -/
def sampleWeather (n : Nat) : Weather where
  newId := fun k => sampleId (100 * n + k)
  now := fun k => 100 * n + k
  fails := fun _ => false

def sampleAttestation (reviewer : String) : Call :=
  .recordAttestation (lit reviewer) (lit "d1") (lit "r1") (lit "qualified") true true

def samplePrimary (reviewer : String) (attestation : Nat) (labels : Payload) : PrimaryReview where
  caseId := lit "case"
  caseSha256 := sampleDigest
  datasetVersion := lit "d1"
  rubricVersion := lit "r1"
  subjectKind := .finding
  subjectId := lit "F1"
  reviewerId := lit reviewer
  reviewerAttestationId := sampleId attestation
  labels := labels
  reviewPacketSha256 := sampleDigest
  candidateOutputSha256 := some sampleDigest

def sampleIndependent (reviewer : String) (attestation : Nat) (labels : Payload) :
    IndependentReview where
  caseId := lit "case"
  subjectKind := .finding
  subjectId := lit "F1"
  reviewerId := lit reviewer
  reviewerAttestationId := sampleId attestation
  labels := labels
  reviewPacketSha256 := sampleDigest

/-- Three attested reviewers, and the labels of the first two. -/
def sampleCalls : List (Call × Weather) :=
  [(sampleAttestation "ann", sampleWeather 1), (sampleAttestation "bob", sampleWeather 2),
    (sampleAttestation "eve", sampleWeather 3),
    (.submitPrimary (samplePrimary "ann" 100 (sampleLabels false "p.1" "a")), sampleWeather 4),
    (.submitIndependent (sampleIndependent "bob" 200 (sampleLabels true "p.2" "a")),
      sampleWeather 5)]

def sampleStore : Store := Runs.run (step sampleRuntime) .empty sampleCalls

theorem sampleStore_length : sampleStore.labels.length = 2 := by decide +kernel

/-- Ann's label. -/
def annsLabel : Label := sampleStore.labels.get ⟨0, by rw [sampleStore_length]; decide⟩

/-- Bob's label. -/
def bobsLabel : Label := sampleStore.labels.get ⟨1, by rw [sampleStore_length]; decide⟩

def comparedStore : Store :=
  step sampleRuntime sampleStore (.recordMaterialDisagreements (sampleId 500), sampleWeather 6)

/-- The verdict on the two material disagreements of the sample, with the second rationale. -/
def sampleVerdict (rationale : String) : Verdict where
  independentLabelId := sampleId 500
  adjudicatorId := lit "eve"
  adjudicatorAttestationId := sampleId 300
  labels := sampleLabels true "p.1" "abc"
  rationales := [(sampleId 601, lit "seen"), (sampleId 602, lit rationale)]

end QaCopilot.Reviews
