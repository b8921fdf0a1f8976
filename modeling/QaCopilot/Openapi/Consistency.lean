import QaCopilot.Openapi.Facts
import QaCopilot.Requirements.Analysis

/-!
# Consistency of requirements with OpenAPI facts

`openapi_consistency.py`: expectations with citations, compared with the facts of a document.

* `findingForMismatch_ok`, `findingForMismatch_short`: a mismatch has a finding exactly when its
  analysis is short enough.
-/

namespace QaCopilot.Openapi

open QaCopilot.Python QaCopilot.Results QaCopilot.Findings

inductive OpenapiConsistencyKind where
  | field
  | response
  | enum
  | security
  | operation
  | limit
deriving DecidableEq

def OpenapiConsistencyKind.value : OpenapiConsistencyKind → Str
  | .field => lit "field"
  | .response => lit "response"
  | .enum => lit "enum"
  | .security => lit "security"
  | .operation => lit "operation"
  | .limit => lit "limit"

theorem OpenapiConsistencyKind.value_injective : Function.Injective OpenapiConsistencyKind.value :=
  texts_injective [.field, .response, .enum, .security, .operation, .limit]
    (fun kind => by cases kind <;> simp) (by decide +kernel)

/-- `expected_fact_kind` -/
def expectedFactKind : OpenapiConsistencyKind → OpenapiFactKind
  | .field => .schema
  | .response => .response
  | .enum => .enum
  | .security => .security
  | .operation => .operation
  | .limit => .limit

/-- What the analysis reads of a citation. -/
structure CitedPassage where
  id : Uuid
  passage : Str
deriving DecidableEq

abbrev Attributes := List (Str × Str)

structure OpenapiConsistencyExpectation where
  citation : CitedPassage
  kind : OpenapiConsistencyKind
  factIdentifier : Str
  expectedAttributes : Attributes
deriving DecidableEq

structure OpenapiConsistencyMismatch where
  kind : OpenapiConsistencyKind
  factIdentifier : Str
  expectedAttributes : Attributes
  actualAttributes : Option Attributes
  finding : RequirementFindingV1
deriving DecidableEq

def openapiConsistencyFindingNamespace : Uuid := 0x4b4a0ff02b7c4a109d1bc1d8c8e7ad93#128

def openapiConsistencyAnalyzerVersion : Str := lit "openapi-consistency-rules/v1"

def maxFactIdentifierLength : Nat := 1000

/-- `OpenApiConsistencyRejected` with its message, the error of the finding contract, and what
`json.loads` and `json.dumps` raise beside a `JSONDecodeError`. -/
inductive ConsistencyError where
  | rejected (message : String)
  | finding (e : FindingError)
  | value
  | recursion
deriving DecidableEq

/-- What the analysis runs on: the decimal digits of Unicode and SHA-1 beside the platform. -/
structure Runtime extends Platform where
  decimal : CodePoint → Option Nat
  sha1 : Bytes → BitVec 160

def refuseWhen (c : Bool) (message : String) : Except ConsistencyError Unit :=
  if c then .error (.rejected message) else .ok ()

@[simp] theorem refuseWhen_ok {c : Bool} {message : String} {u : Unit} :
    refuseWhen c message = .ok u ↔ c = false := by
  cases c <;> simp [refuseWhen]

/-! ## Expectations -/

def canonicalMessage : String := "Expected attributes must use canonical JSON values"

/-- `_require_canonical_json` -/
def requireCanonicalJson (p : Platform) (value : Str) : Except ConsistencyError Unit :=
  match loads p.recursionLimit value with
  | .error .decode => .error (.rejected canonicalMessage)
  | .error .value => .error .value
  | .error .recursion => .error .recursion
  | .ok parsed =>
    match canonical p parsed with
    | .ok text => refuseWhen (text ≠ value) canonicalMessage
    | .error .recursion => .error .recursion
    | .error _ => .error .value

/-- `_expectation_key` -/
def expectationKey (e : OpenapiConsistencyExpectation) :
    Uuid × OpenapiConsistencyKind × Str × Attributes :=
  (e.citation.id, e.kind, e.factIdentifier, e.expectedAttributes)

/-- What `_validate_expectations` asks of one expectation by itself. -/
def checkExpectation (p : Platform) (e : OpenapiConsistencyExpectation) :
    Except ConsistencyError Unit := do
  refuseWhen (strip e.factIdentifier = [] || maxFactIdentifierLength < e.factIdentifier.length)
    "Fact identifiers must be bounded, non-empty text"
  refuseWhen (e.kind ≠ .operation && e.expectedAttributes.isEmpty)
    "Non-operation expectations require at least one attribute"
  refuseWhen (sortByTexts (fun a : Str × Str => [a.1, a.2]) e.expectedAttributes ≠
    e.expectedAttributes) "Expected attributes must be sorted deterministically"
  refuseWhen (!decide (e.expectedAttributes.map (·.1)).Nodup)
    "Expected attribute names must not repeat"
  e.expectedAttributes.forM fun a => requireCanonicalJson p a.2

/-- One turn of `_validate_expectations`, which returns the keys so far. -/
def validateExpectation (p : Platform)
    (keys : List (Uuid × OpenapiConsistencyKind × Str × Attributes))
    (e : OpenapiConsistencyExpectation) :
    Except ConsistencyError (List (Uuid × OpenapiConsistencyKind × Str × Attributes)) := do
  checkExpectation p e
  refuseWhen (keys.contains (expectationKey e)) "Cited consistency expectations must not repeat"
  return keys ++ [expectationKey e]

/-- `_validate_expectations` -/
def validateExpectations (p : Platform) (expectations : List OpenapiConsistencyExpectation) :
    Except ConsistencyError Unit := do
  let _ ← expectations.foldlM (validateExpectation p) []
  return ()

/-- `_expectation_sort_key` -/
def expectationSortKey (e : OpenapiConsistencyExpectation) : List Str :=
  [e.kind.value, e.factIdentifier, uuidText e.citation.id]

/-! ## Comparison -/

/-- `_matches_expectation`; the last of repeated names counts. -/
def matchesExpectation (e : OpenapiConsistencyExpectation) (fact : Option OpenapiFact) : Bool :=
  match fact with
  | none => false
  | some fact => e.expectedAttributes.all fun a => fact.attributes.reverse.lookup a.1 = some a.2

/-- `_attributes_description` -/
def attributesDescription (attributes : Attributes) : Str :=
  (lit ", ").intercalate (attributes.map fun a => a.1 ++ lit "=" ++ a.2)

/-- `_bounded_evidence_text` -/
def boundedEvidenceText (passage : Str) : Except ConsistencyError Str := do
  refuseWhen (strip passage).isEmpty "Cited requirement passages must contain non-empty text"
  if (strip passage).length ≤ maxFindingTextLength then return strip passage
  else return (strip passage).take (maxFindingTextLength - 1) ++ lit "…"

def attributesJson (attributes : Attributes) : Json :=
  .list (attributes.map fun a => .list [.str a.1, .str a.2])

/-- What `_finding_identity` dumps: a dict of three levels. -/
def identityJson (e : OpenapiConsistencyExpectation) (actual : Option Attributes) : Json :=
  .dict [(lit "analyzer_version", .str openapiConsistencyAnalyzerVersion),
    (lit "citation_id", .str (uuidText e.citation.id)),
    (lit "kind", .str e.kind.value),
    (lit "fact_identifier", .str e.factIdentifier),
    (lit "expected_attributes", attributesJson e.expectedAttributes),
    (lit "actual_attributes", (actual.map attributesJson).getD .null)]

/-- `_finding_identity` -/
def findingIdentity (e : OpenapiConsistencyExpectation) (actual : Option Attributes) :
    Except ConsistencyError Str :=
  (dumps ⟨true, true, lit ",", lit ":"⟩ 3 (identityJson e actual).sorted).mapError fun
    | .value => .value
    | .recursion => .recursion

/-- The description of what was observed. -/
def actualDescription (actual : Option Attributes) : Str :=
  match actual with
  | some attributes => attributesDescription attributes
  | none => lit "the OpenAPI fact is missing"

/-- The analysis of a finding. -/
def mismatchAnalysis (e : OpenapiConsistencyExpectation) (actual : Option Attributes) : Str :=
  e.kind.value ++ lit " mismatch for '" ++ e.factIdentifier ++ lit "': expected " ++
    attributesDescription e.expectedAttributes ++ lit "; observed " ++ actualDescription actual ++
    lit "."

/-- The finding of a mismatch, before it is validated. -/
def newFinding (rt : Runtime) (e : OpenapiConsistencyExpectation) (actual : Option Attributes)
    (identity observedFact : Str) : RequirementFindingV1 where
  id := uuid5 rt.sha1 openapiConsistencyFindingNamespace identity
  category := .requirementsContractMismatch
  severity := if e.kind = .security then .high else .medium
  evidence := [⟨e.citation.id, observedFact⟩]
  analysis := mismatchAnalysis e actual
  confidence := .finite ⟨false, scale, representable_scale⟩
  recommendation := lit "Align the requirement and OpenAPI contract for '" ++ e.factIdentifier ++
    lit "'."
  unsupported := false
  unsupportedReason := none

/-- `_finding_for_mismatch` -/
def findingForMismatch (rt : Runtime) (e : OpenapiConsistencyExpectation)
    (actual : Option Attributes) : Except ConsistencyError RequirementFindingV1 := do
  let identity ← findingIdentity e actual
  let observedFact ← boundedEvidenceText e.citation.passage
  (validateRequirementFinding rt.decimal
    (newFinding rt e actual identity observedFact).asPayload).mapError .finding

/-- The fact that an expectation is about. -/
def factOf (index : Dict (OpenapiFactKind × Str) OpenapiFact) (e : OpenapiConsistencyExpectation) :
    Option OpenapiFact :=
  index.get? (expectedFactKind e.kind, e.factIdentifier)

/-- The mismatch of an expectation that fails. -/
def mismatchOf (rt : Runtime) (index : Dict (OpenapiFactKind × Str) OpenapiFact)
    (e : OpenapiConsistencyExpectation) : Except ConsistencyError OpenapiConsistencyMismatch := do
  let actual := (factOf index e).map (·.attributes)
  let finding ← findingForMismatch rt e actual
  return ⟨e.kind, e.factIdentifier, e.expectedAttributes, actual, finding⟩

/-- One turn of the comparison. -/
def compare (rt : Runtime) (index : Dict (OpenapiFactKind × Str) OpenapiFact)
    (mismatches : List OpenapiConsistencyMismatch) (e : OpenapiConsistencyExpectation) :
    Except ConsistencyError (List OpenapiConsistencyMismatch) :=
  if matchesExpectation e (factOf index e) then .ok mismatches
  else do return mismatches ++ [← mismatchOf rt index e]

/-- `_index_facts` with the error of this module. -/
def indexConsistencyFacts (facts : List OpenapiFact) :
    Except ConsistencyError (Dict (OpenapiFactKind × Str) OpenapiFact) :=
  (indexFacts facts).mapError .rejected

/-- `analyze_openapi_consistency` -/
def analyzeOpenapiConsistency (rt : Runtime) (expectations : List OpenapiConsistencyExpectation)
    (facts : OpenapiFactsV1) : Except ConsistencyError (List OpenapiConsistencyMismatch) := do
  refuseWhen (facts.schemaVersion ≠ openapiFactSchemaVersion)
    "Unsupported OpenAPI facts schema version"
  validateExpectations rt.toPlatform expectations
  let index ← indexConsistencyFacts facts.facts
  (sortByTexts expectationSortKey expectations).foldlM (compare rt index) []

/-- `_mismatch_key`, where the finding has its one citation. -/
def mismatchKey (m : OpenapiConsistencyMismatch) :
    Option (Uuid × OpenapiConsistencyKind × Str × Attributes) :=
  m.finding.evidence.head?.map fun e => (e.citationId, m.kind, m.factIdentifier, m.expectedAttributes)

/-! ## Findings -/

theorem attributesJson_dumps (o : DumpsOptions) (attributes : Attributes) :
    (attributesJson attributes).check o.accepts = true ∧ (attributesJson attributes).depth ≤ 2 := by
  constructor
  · refine checkList_eq_true.mpr fun v hv => ?_
    obtain ⟨a, -, rfl⟩ := List.mem_map.mp hv
    rfl
  · refine Nat.succ_le_succ (depthList_le.mpr fun v hv => ?_)
    obtain ⟨a, -, rfl⟩ := List.mem_map.mp hv
    exact Nat.le_refl 1

theorem findingIdentity_ok (e : OpenapiConsistencyExpectation) (actual : Option Attributes) :
    ∃ identity, findingIdentity e actual = .ok identity := by
  let o : DumpsOptions := ⟨true, true, lit ",", lit ":"⟩
  have observed : ((actual.map attributesJson).getD .null).check o.accepts = true ∧
      ((actual.map attributesJson).getD .null).depth ≤ 2 := by
    cases actual with
    | none => exact ⟨rfl, Nat.zero_le 2⟩
    | some attributes => exact attributesJson_dumps o attributes
  have expected := attributesJson_dumps o e.expectedAttributes
  have fits : (identityJson e actual).sorted.check o.accepts = true ∧
      (identityJson e actual).sorted.depth ≤ 3 := by
    rw [check_sorted (accepts_unordered o), depth_sorted]
    constructor
    · simp only [identityJson, Json.check, Json.checkItems, observed.1, expected.1]
      rfl
    · refine Nat.succ_le_succ (depthItems_le.mpr ?_)
      simp only [List.forall_mem_cons, Json.depth]
      exact ⟨Nat.zero_le 2, Nat.zero_le 2, Nat.zero_le 2, Nat.zero_le 2, expected.2, observed.2,
        fun _ h => absurd h List.not_mem_nil⟩
  obtain ⟨text, dumped⟩ := (dumps_isOk o _ 3).mpr fits
  exact ⟨text, mapError_ok.mpr dumped⟩

/-- A passage that is not blank gives an observed fact. -/
theorem boundedEvidenceText_ok {passage : Str} (some' : strip passage ≠ []) :
    ∃ t, boundedEvidenceText passage = .ok t ∧ Findings.Fits t := by
  obtain ⟨c, s, eq⟩ := List.exists_cons_of_ne_nil some'
  have kept : refuseWhen (strip passage).isEmpty
      "Cited requirement passages must contain non-empty text" = .ok () := by simp [eq]
  rw [boundedEvidenceText, kept, ok_bind]
  split_ifs with short
  · exact ⟨_, rfl, strip_strip passage, some', short⟩
  · refine ⟨_, rfl, strip_eq_self ?_ ?_, by simp [lit_eq], ?_⟩
    · intro d t whole
      have first : isSpace c = false := (strip_ends passage).1 c s eq
      rw [eq] at whole
      obtain ⟨rfl, -⟩ := List.cons.inj whole
      exact first
    · intro d t whole
      obtain ⟨-, last⟩ := List.append_inj' whole rfl
      obtain rfl := (List.cons.inj last).1
      decide +kernel
    · have one : (lit "…").length = 1 := by decide +kernel
      rw [List.length_append, List.length_take, one]
      simp only [maxFindingTextLength]
      omega

theorem strip_mismatchAnalysis (e : OpenapiConsistencyExpectation) (actual : Option Attributes) :
    strip (mismatchAnalysis e actual) = mismatchAnalysis e actual := by
  have first : ∀ kind : OpenapiConsistencyKind, ∃ c s, kind.value = c :: s ∧ isSpace c = false := by
    intro kind
    cases kind <;> exact ⟨_, _, rfl, by decide +kernel⟩
  apply strip_eq_self
  · intro c s whole
    obtain ⟨c', s', eq, visible⟩ := first e.kind
    simp only [mismatchAnalysis, eq, List.cons_append] at whole
    obtain ⟨rfl, -⟩ := List.cons.inj whole
    exact visible
  · intro c s whole
    obtain ⟨-, last⟩ := List.append_inj' whole rfl
    obtain rfl := (List.cons.inj last).1
    decide +kernel

theorem mismatchAnalysis_fits {e : OpenapiConsistencyExpectation} {actual : Option Attributes}
    (short : (mismatchAnalysis e actual).length ≤ maxFindingTextLength) :
    Findings.Fits (mismatchAnalysis e actual) := by
  refine ⟨strip_mismatchAnalysis e actual, fun empty => ?_, short⟩
  have dot := congrArg List.length empty
  simp [mismatchAnalysis, lit_eq] at dot

theorem newFinding_valid {rt : Runtime} {e : OpenapiConsistencyExpectation}
    {actual : Option Attributes} {identity observedFact : Str}
    (bounded : e.factIdentifier.length ≤ maxFactIdentifierLength) (fact : Findings.Fits observedFact)
    (analysis : Findings.Fits (mismatchAnalysis e actual)) :
    (newFinding rt e actual identity observedFact).Valid where
  facts := by simpa [newFinding] using fact
  distinct := List.nodup_singleton _
  analysis := analysis
  confidence := by
    change isProbability (.finite ⟨false, scale, _⟩) = true
    decide +kernel
  recommendation := by
    have texts : (lit "Align the requirement and OpenAPI contract for '").length +
        maxFactIdentifierLength + (lit "'.").length ≤ maxFindingTextLength := by decide +kernel
    apply Requirements.fits_around (by decide +kernel) (by decide +kernel)
    omega
  reason := nofun
  state := rfl

theorem findingForMismatch_ok (rt : Runtime) {e : OpenapiConsistencyExpectation}
    {actual : Option Attributes} (some' : strip e.citation.passage ≠ [])
    (bounded : e.factIdentifier.length ≤ maxFactIdentifierLength)
    (short : (mismatchAnalysis e actual).length ≤ maxFindingTextLength) :
    ∃ identity observedFact,
      findingForMismatch rt e actual = .ok (newFinding rt e actual identity observedFact) := by
  obtain ⟨identity, identified⟩ := findingIdentity_ok e actual
  obtain ⟨observedFact, observed, fact⟩ := boundedEvidenceText_ok some'
  refine ⟨identity, observedFact, ?_⟩
  rw [findingForMismatch, identified, ok_bind, observed, ok_bind]
  exact mapError_ok.mpr
    (validate_asPayload rt.decimal (newFinding_valid bounded fact (mismatchAnalysis_fits short)))

/-- An analysis that is too long is refused. -/
theorem findingForMismatch_short {rt : Runtime} {e : OpenapiConsistencyExpectation}
    {actual : Option Attributes} {f : RequirementFindingV1}
    (h : findingForMismatch rt e actual = .ok f) :
    (mismatchAnalysis e actual).length ≤ maxFindingTextLength := by
  obtain ⟨identity, -, h⟩ := bind_ok.mp h
  obtain ⟨observedFact, -, h⟩ := bind_ok.mp h
  obtain ⟨t, read, same, fits⟩ := text_ok.mp (readFrom_of_validate (mapError_ok.mp h)).analysis
  rw [(get_asPayload _).2.2.2.2.2.1] at read
  obtain rfl := Json.str.inj read
  rw [same, newFinding, strip_mismatchAnalysis] at fits
  exact fits.2.2

end QaCopilot.Openapi
