import QaCopilot.Lib.Results
import QaCopilot.Python.Uuids

/-!
# The finding contract

`findings.py`: a requirement finding, the payload that renders it and the validator that reads an
untrusted payload.

* `validate_asPayload`: the payload of a valid finding is accepted as that finding;
* `valid_of_validate`: what is accepted is valid.
-/

namespace QaCopilot.Findings

open QaCopilot.Python QaCopilot.Results

def requirementFindingSchemaVersion : Str := lit "requirement-finding/v1"

def maxFindingTextLength : Nat := 4000

inductive FindingCategory where
  | ambiguity
  | contradiction
  | missingAcceptanceCriteria
  | validationGap
  | authorizationGap
  | errorHandlingGap
  | stateTransitionGap
  | requirementsContractMismatch
  | unmappedRequirement
  | unmappedOperation
  | securityRisk
  | performanceRisk
  | unsupportedClaim
deriving DecidableEq

def FindingCategory.value : FindingCategory → Str
  | .ambiguity => lit "ambiguity"
  | .contradiction => lit "contradiction"
  | .missingAcceptanceCriteria => lit "missing_acceptance_criteria"
  | .validationGap => lit "validation_gap"
  | .authorizationGap => lit "authorization_gap"
  | .errorHandlingGap => lit "error_handling_gap"
  | .stateTransitionGap => lit "state_transition_gap"
  | .requirementsContractMismatch => lit "requirements_contract_mismatch"
  | .unmappedRequirement => lit "unmapped_requirement"
  | .unmappedOperation => lit "unmapped_operation"
  | .securityRisk => lit "security_risk"
  | .performanceRisk => lit "performance_risk"
  | .unsupportedClaim => lit "unsupported_claim"

def FindingCategory.all : List FindingCategory :=
  [.ambiguity, .contradiction, .missingAcceptanceCriteria, .validationGap, .authorizationGap,
    .errorHandlingGap, .stateTransitionGap, .requirementsContractMismatch, .unmappedRequirement,
    .unmappedOperation, .securityRisk, .performanceRisk, .unsupportedClaim]

inductive FindingSeverity where
  | critical
  | high
  | medium
  | low
  | info
deriving DecidableEq

def FindingSeverity.value : FindingSeverity → Str
  | .critical => lit "critical"
  | .high => lit "high"
  | .medium => lit "medium"
  | .low => lit "low"
  | .info => lit "info"

def FindingSeverity.all : List FindingSeverity := [.critical, .high, .medium, .low, .info]

/-- `RequirementFindingValidationError` with its message, and the `OverflowError` of `float`. -/
inductive FindingError where
  | validation (message : String)
  | overflow
deriving DecidableEq

structure FindingEvidence where
  citationId : Uuid
  observedFact : Str
deriving DecidableEq

structure RequirementFindingV1 where
  id : Uuid
  category : FindingCategory
  severity : FindingSeverity
  evidence : List FindingEvidence
  analysis : Str
  confidence : PyFloat
  recommendation : Str
  unsupported : Bool
  unsupportedReason : Option Str
deriving DecidableEq

abbrev Mapping := List (Str × Json)

def Mapping.get (p : Mapping) (key : Str) : Json := (p.lookup key).getD .null

def optionalStr : Option Str → Json
  | some s => .str s
  | none => .null

def FindingEvidence.asPayload (e : FindingEvidence) : Json :=
  .dict [(lit "citation_id", .str (uuidText e.citationId)),
    (lit "observed_fact", .str e.observedFact)]

/-- `as_payload` -/
def RequirementFindingV1.asPayload (f : RequirementFindingV1) : Mapping :=
  [(lit "schema_version", .str requirementFindingSchemaVersion),
    (lit "id", .str (uuidText f.id)),
    (lit "category", .str f.category.value),
    (lit "severity", .str f.severity.value),
    (lit "evidence", .list (f.evidence.map FindingEvidence.asPayload)),
    (lit "analysis", .str f.analysis),
    (lit "confidence", .float f.confidence),
    (lit "recommendation", .str f.recommendation),
    (lit "unsupported", .bool f.unsupported),
    (lit "unsupported_reason", optionalStr f.unsupportedReason)]

/-! ## Validation -/

def findingFields : List Str :=
  [lit "schema_version", lit "id", lit "category", lit "severity", lit "evidence", lit "analysis",
    lit "confidence", lit "recommendation", lit "unsupported", lit "unsupported_reason"]

def evidenceFields : List Str := [lit "citation_id", lit "observed_fact"]

def rejectIf (c : Bool) (message : String) : Except FindingError Unit :=
  if c then .error (.validation message) else .ok ()

@[simp] theorem rejectIf_ok {c : Bool} {message : String} {u : Unit} :
    rejectIf c message = .ok u ↔ c = false := by
  cases c <;> simp [rejectIf]

/-- `set(payload) != expected` -/
def fieldsDiffer (p : Mapping) (expected : List Str) : Bool :=
  !((p.map (·.1)).all expected.contains && expected.all (p.map (·.1)).contains)

def requireExactFields (p : Mapping) (expected : List Str) (label : String) :
    Except FindingError Unit :=
  rejectIf (fieldsDiffer p expected)
    (label ++ " fields must exactly match the versioned schema")

/-- `_uuid` -/
def uuid (decimal : CodePoint → Option Nat) (v : Json) (label : String) :
    Except FindingError Uuid :=
  match v with
  | .str s =>
    match parseUuid decimal s with
    | some u => .ok u
    | none => .error (.validation (label ++ " must be a UUID string"))
  | _ => .error (.validation (label ++ " must be a UUID string"))

/-- `_enum`, over the values of the enumeration. -/
def enum {T : Type} (all : List T) (value : T → Str) (v : Json) (label : String) :
    Except FindingError T :=
  match v with
  | .str s =>
    match all.find? (value · = s) with
    | some t => .ok t
    | none => .error (.validation (label ++ " is not allowed"))
  | _ => .error (.validation (label ++ " is not allowed"))

/-- `_text` -/
def text (v : Json) (label : String) : Except FindingError Str :=
  match v with
  | .str s => do
    rejectIf (strip s = [] || maxFindingTextLength < (strip s).length)
      (label ++ " must be bounded, non-empty text")
    return strip s
  | _ => .error (.validation (label ++ " must be text"))

/-- `_optional_text` -/
def optionalText (v : Json) (label : String) : Except FindingError (Option Str) :=
  match v with
  | .null => .ok none
  | v => do return some (← text v label)

/-- `_bool` -/
def bool (v : Json) (label : String) : Except FindingError Bool :=
  match v with
  | .bool b => .ok b
  | _ => .error (.validation (label ++ " must be boolean"))

/-- `isfinite(x) and 0 <= x <= 1` -/
def isProbability : PyFloat → Bool
  | .finite x => (!x.negative || x.units == 0) && x.units ≤ scale
  | _ => false

/-- `_confidence` -/
def confidence (v : Json) : Except FindingError PyFloat :=
  let bounded (x : PyFloat) : Except FindingError PyFloat := do
    rejectIf (!isProbability x) "Finding confidence must be between 0 and 1"
    return x
  match v with
  | .int n =>
    match PyFloat.ofRatio (n < 0) n.natAbs 1 with
    | .finite x => bounded (.finite x)
    | _ => .error .overflow
  | .float x => bounded x
  | _ => .error (.validation "Finding confidence must be numeric")

/-- One item of `_evidence`. -/
def evidenceItem (decimal : CodePoint → Option Nat) (v : Json) :
    Except FindingError FindingEvidence :=
  match v with
  | .dict item => do
    requireExactFields item evidenceFields "Finding evidence"
    let citationId ← uuid decimal (Mapping.get item (lit "citation_id")) "Citation id"
    let observedFact ← text (Mapping.get item (lit "observed_fact")) "Observed fact"
    return ⟨citationId, observedFact⟩
  | _ => .error (.validation "Finding evidence item must be an object")

/-- `_evidence` -/
def evidence (decimal : CodePoint → Option Nat) (v : Json) :
    Except FindingError (List FindingEvidence) :=
  match v with
  | .list items => do
    let evidence ← items.mapM (evidenceItem decimal)
    rejectIf (!decide evidence.Nodup) "Finding evidence must not repeat"
    return evidence
  | _ => .error (.validation "Finding evidence must be a list")

/-- `_validate_evidence_state` -/
def validateEvidenceState (f : RequirementFindingV1) : Except FindingError Unit :=
  if f.unsupported then do
    rejectIf (f.evidence ≠ []) "Unsupported findings must not present evidence"
    rejectIf (f.category ≠ .unsupportedClaim)
      "Unsupported findings must use the unsupported_claim category"
    rejectIf (f.severity ≠ .info) "Unsupported findings must use info severity"
    rejectIf f.unsupportedReason.isNone "Unsupported findings require an evidence-gap reason"
  else do
    rejectIf (f.evidence = []) "Supported findings require at least one citation"
    rejectIf (f.category = .unsupportedClaim)
      "Supported findings must use a material finding category"
    rejectIf f.unsupportedReason.isSome
      "Supported findings must not include an unsupported reason"

/-- `validate_requirement_finding` -/
def validateRequirementFinding (decimal : CodePoint → Option Nat) (p : Mapping) :
    Except FindingError RequirementFindingV1 := do
  requireExactFields p findingFields "Finding"
  rejectIf (match p.get (lit "schema_version") with
    | .str s => s ≠ requirementFindingSchemaVersion
    | _ => true) "Unsupported finding schema version"
  let finding : RequirementFindingV1 := {
    id := ← uuid decimal (p.get (lit "id")) "Finding id"
    category := ← enum FindingCategory.all FindingCategory.value (p.get (lit "category"))
      "Finding category"
    severity := ← enum FindingSeverity.all FindingSeverity.value (p.get (lit "severity"))
      "Finding severity"
    evidence := ← evidence decimal (p.get (lit "evidence"))
    analysis := ← text (p.get (lit "analysis")) "Finding analysis"
    confidence := ← confidence (p.get (lit "confidence"))
    recommendation := ← text (p.get (lit "recommendation")) "Finding recommendation"
    unsupported := ← bool (p.get (lit "unsupported")) "Finding unsupported state"
    unsupportedReason := ← optionalText (p.get (lit "unsupported_reason"))
      "Finding unsupported reason" }
  validateEvidenceState finding
  return finding

/-! ## Valid findings -/

/-- A text as `_text` returns it. -/
def Fits (s : Str) : Prop := strip s = s ∧ s ≠ [] ∧ s.length ≤ maxFindingTextLength

instance (s : Str) : Decidable (Fits s) := inferInstanceAs (Decidable (_ ∧ _))

structure RequirementFindingV1.Valid (f : RequirementFindingV1) : Prop where
  facts : ∀ e ∈ f.evidence, Fits e.observedFact
  distinct : f.evidence.Nodup
  analysis : Fits f.analysis
  confidence : isProbability f.confidence = true
  recommendation : Fits f.recommendation
  reason : ∀ s, f.unsupportedReason = some s → Fits s
  state : validateEvidenceState f = .ok ()

theorem text_ok {v : Json} {label : String} {s : Str} :
    text v label = .ok s ↔ ∃ t, v = .str t ∧ s = strip t ∧ Fits s := by
  constructor
  · intro h
    cases v with
    | str t =>
      obtain ⟨_, bounded, eq⟩ := bind_ok.mp h
      obtain rfl := Except.ok.inj eq
      simp only [rejectIf_ok, Bool.or_eq_false_iff, decide_eq_false_iff_not, Nat.not_lt] at bounded
      exact ⟨t, rfl, rfl, strip_strip t, bounded.1, bounded.2⟩
    | _ => cases h
  · rintro ⟨t, rfl, rfl, fits⟩
    apply bind_ok.mpr
    refine ⟨(), ?_, rfl⟩
    simp only [rejectIf_ok, Bool.or_eq_false_iff, decide_eq_false_iff_not, Nat.not_lt]
    exact fits.2

theorem text_str {s : Str} (fits : Fits s) (label : String) : text (.str s) label = .ok s :=
  text_ok.mpr ⟨s, rfl, fits.1.symm, fits⟩

theorem uuid_str (decimal : CodePoint → Option Nat) (u : Uuid) (label : String) :
    uuid decimal (.str (uuidText u)) label = .ok u := by
  simp only [uuid, parseUuid_uuidText]

theorem category_str (c : FindingCategory) (label : String) :
    enum FindingCategory.all FindingCategory.value (.str c.value) label = .ok c := by
  have found : ∀ c : FindingCategory,
      FindingCategory.all.find? (FindingCategory.value · = c.value) = some c := by
    intro c
    cases c <;> decide +kernel
  simp only [enum, found c]

theorem severity_str (s : FindingSeverity) (label : String) :
    enum FindingSeverity.all FindingSeverity.value (.str s.value) label = .ok s := by
  have found : ∀ s : FindingSeverity,
      FindingSeverity.all.find? (FindingSeverity.value · = s.value) = some s := by
    intro s
    cases s <;> decide +kernel
  simp only [enum, found s]

theorem optionalText_optionalStr {reason : Option Str} (fits : ∀ s, reason = some s → Fits s)
    (label : String) : optionalText (optionalStr reason) label = .ok reason := by
  cases reason with
  | none => rfl
  | some s => simp only [optionalStr, optionalText, text_str (fits s rfl)]; rfl

theorem evidence_asPayload (decimal : CodePoint → Option Nat) {es : List FindingEvidence}
    (facts : ∀ e ∈ es, Fits e.observedFact) (distinct : es.Nodup) :
    evidence decimal (.list (es.map FindingEvidence.asPayload)) = .ok es := by
  have item : ∀ e : FindingEvidence, Fits e.observedFact →
      evidenceItem decimal e.asPayload = .ok e := by
    intro e fits
    have citation : Mapping.get [(lit "citation_id", .str (uuidText e.citationId)),
        (lit "observed_fact", .str e.observedFact)] (lit "citation_id") =
        .str (uuidText e.citationId) := rfl
    have fact : Mapping.get [(lit "citation_id", .str (uuidText e.citationId)),
        (lit "observed_fact", .str e.observedFact)] (lit "observed_fact") =
        .str e.observedFact := rfl
    simp only [FindingEvidence.asPayload, evidenceItem, citation, fact, uuid_str, text_str fits]
    rfl
  have items : (es.map FindingEvidence.asPayload).mapM (evidenceItem decimal) = .ok es := by
    apply mapM_ok.mpr
    rw [List.forall₂_map_left_iff]
    exact List.forall₂_same.mpr fun e he => item e (facts e he)
  have kept : rejectIf (!decide es.Nodup) "Finding evidence must not repeat" = .ok () := by
    simp [distinct]
  simp only [evidence, items, ok_bind, kept]
  rfl

theorem confidence_float {x : PyFloat} (bounded : isProbability x = true) :
    confidence (.float x) = .ok x := by
  have kept : rejectIf (!isProbability x) "Finding confidence must be between 0 and 1" = .ok () := by
    rw [bounded]
    rfl
  unfold confidence
  simp only [kept, ok_bind]
  rfl

theorem requireExactFields_self {p : Mapping} {expected : List Str}
    (same : p.map (·.1) = expected) (label : String) :
    requireExactFields p expected label = .ok () := by
  simp [requireExactFields, fieldsDiffer, same]

/-- The members of a payload by their keys. -/
theorem get_asPayload (f : RequirementFindingV1) :
    f.asPayload.get (lit "schema_version") = .str requirementFindingSchemaVersion ∧
    f.asPayload.get (lit "id") = .str (uuidText f.id) ∧
    f.asPayload.get (lit "category") = .str f.category.value ∧
    f.asPayload.get (lit "severity") = .str f.severity.value ∧
    f.asPayload.get (lit "evidence") = .list (f.evidence.map FindingEvidence.asPayload) ∧
    f.asPayload.get (lit "analysis") = .str f.analysis ∧
    f.asPayload.get (lit "confidence") = .float f.confidence ∧
    f.asPayload.get (lit "recommendation") = .str f.recommendation ∧
    f.asPayload.get (lit "unsupported") = .bool f.unsupported ∧
    f.asPayload.get (lit "unsupported_reason") = optionalStr f.unsupportedReason :=
  ⟨rfl, rfl, rfl, rfl, rfl, rfl, rfl, rfl, rfl, rfl⟩

theorem validate_asPayload (decimal : CodePoint → Option Nat) {f : RequirementFindingV1}
    (valid : f.Valid) : validateRequirementFinding decimal f.asPayload = .ok f := by
  have fields : requireExactFields f.asPayload findingFields "Finding" = .ok () :=
    requireExactFields_self rfl "Finding"
  obtain ⟨version, id, category, severity, items, analysis, trust, recommendation, state, reason⟩ :=
    get_asPayload f
  have supported : rejectIf (decide (requirementFindingSchemaVersion ≠
      requirementFindingSchemaVersion)) "Unsupported finding schema version" = .ok () := by simp
  rw [validateRequirementFinding, fields, version, id, category, severity, items, analysis, trust,
    recommendation, state, reason]
  simp only [ok_bind, supported, uuid_str, category_str, severity_str,
    evidence_asPayload decimal valid.facts valid.distinct, text_str valid.analysis,
    confidence_float valid.confidence, text_str valid.recommendation, bool,
    optionalText_optionalStr valid.reason, valid.state]
  rfl

theorem fits_of_evidence {decimal : CodePoint → Option Nat} {v : Json} {es : List FindingEvidence}
    (h : evidence decimal v = .ok es) : (∀ e ∈ es, Fits e.observedFact) ∧ es.Nodup := by
  cases v with
  | list items =>
    obtain ⟨es', read, rest⟩ := bind_ok.mp h
    obtain ⟨_, distinct, eq⟩ := bind_ok.mp rest
    obtain rfl := Except.ok.inj eq
    constructor
    · intro e he
      obtain ⟨item, -, itemRead⟩ := forall₂_mem (mapM_ok.mp read) he
      cases item with
      | dict item =>
        obtain ⟨_, _, rest⟩ := bind_ok.mp itemRead
        obtain ⟨u, _, rest⟩ := bind_ok.mp rest
        obtain ⟨fact, factRead, eq⟩ := bind_ok.mp rest
        obtain rfl := Except.ok.inj eq
        obtain ⟨_, _, _, fits⟩ := text_ok.mp factRead
        exact fits
      | _ => cases itemRead
    · simpa using distinct
  | _ => cases h

theorem isProbability_of_confidence {v : Json} {x : PyFloat} (h : confidence v = .ok x) :
    isProbability x = true := by
  have bounded : ∀ y, (rejectIf (!isProbability y) "Finding confidence must be between 0 and 1" >>=
      fun _ => (.ok y : Except FindingError PyFloat)) = .ok x → isProbability x = true := by
    intro y read
    obtain ⟨_, kept, eq⟩ := bind_ok.mp read
    obtain rfl := Except.ok.inj eq
    simpa using kept
  unfold confidence at h
  cases v with
  | float y => exact bounded y h
  | int n =>
    dsimp only at h
    split at h
    · exact bounded _ h
    · cases h
  | _ => cases h

theorem fits_of_optionalText {v : Json} {label : String} {reason : Option Str}
    (h : optionalText v label = .ok reason) : ∀ s, reason = some s → Fits s := by
  rintro s rfl
  unfold optionalText at h
  split at h
  · cases h
  · obtain ⟨t, read, eq⟩ := bind_ok.mp h
    obtain rfl := Option.some.inj (Except.ok.inj eq)
    obtain ⟨_, _, _, fits⟩ := text_ok.mp read
    exact fits

/-- What the fields of an accepted finding were read from. -/
structure ReadFrom (decimal : CodePoint → Option Nat) (p : Mapping) (f : RequirementFindingV1) :
    Prop where
  evidence : evidence decimal (p.get (lit "evidence")) = .ok f.evidence
  analysis : text (p.get (lit "analysis")) "Finding analysis" = .ok f.analysis
  confidence : confidence (p.get (lit "confidence")) = .ok f.confidence
  recommendation : text (p.get (lit "recommendation")) "Finding recommendation" = .ok f.recommendation
  reason : optionalText (p.get (lit "unsupported_reason")) "Finding unsupported reason" =
    .ok f.unsupportedReason
  state : validateEvidenceState f = .ok ()

theorem readFrom_of_validate {decimal : CodePoint → Option Nat} {p : Mapping}
    {f : RequirementFindingV1} (h : validateRequirementFinding decimal p = .ok f) :
    ReadFrom decimal p f := by
  obtain ⟨_, _, h⟩ := bind_ok.mp h
  obtain ⟨_, _, h⟩ := bind_ok.mp h
  obtain ⟨id, _, h⟩ := bind_ok.mp h
  obtain ⟨category, _, h⟩ := bind_ok.mp h
  obtain ⟨severity, _, h⟩ := bind_ok.mp h
  obtain ⟨es, facts, h⟩ := bind_ok.mp h
  obtain ⟨analysis, analysisRead, h⟩ := bind_ok.mp h
  obtain ⟨trust, trustRead, h⟩ := bind_ok.mp h
  obtain ⟨recommendation, recommendationRead, h⟩ := bind_ok.mp h
  obtain ⟨unsupported, _, h⟩ := bind_ok.mp h
  obtain ⟨reason, reasonRead, h⟩ := bind_ok.mp h
  obtain ⟨_, state, eq⟩ := bind_ok.mp h
  obtain rfl := Except.ok.inj eq
  exact ⟨facts, analysisRead, trustRead, recommendationRead, reasonRead, state⟩

theorem valid_of_validate {decimal : CodePoint → Option Nat} {p : Mapping}
    {f : RequirementFindingV1} (h : validateRequirementFinding decimal p = .ok f) : f.Valid := by
  have read := readFrom_of_validate h
  obtain ⟨_, _, _, analysisFits⟩ := text_ok.mp read.analysis
  obtain ⟨_, _, _, recommendationFits⟩ := text_ok.mp read.recommendation
  exact {
    facts := (fits_of_evidence read.evidence).1
    distinct := (fits_of_evidence read.evidence).2
    analysis := analysisFits
    confidence := isProbability_of_confidence read.confidence
    recommendation := recommendationFits
    reason := fits_of_optionalText read.reason
    state := read.state }

end QaCopilot.Findings
