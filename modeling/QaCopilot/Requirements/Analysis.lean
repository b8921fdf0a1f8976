import Mathlib.Data.List.Sort
import QaCopilot.Lib.Runs
import QaCopilot.Python.Words
import QaCopilot.Requirements.Findings

/-!
# Requirement analysis

The rules of `requirements_analysis.py` over cited passages.

* `analyzeCitations_valid`: what the rules find meets the finding contract.
-/

namespace QaCopilot.Requirements

open QaCopilot.Python QaCopilot.Findings

/-! ## Texts -/

/-- The tables of Unicode that the rules consult: `str.casefold`, what `\w` matches and the value of
what `\d` matches. -/
structure Tables where
  casefold : Str → Str
  word : CodePoint → Bool
  decimal : CodePoint → Option Nat

/-- `\b` between two characters. -/
def boundary (word : CodePoint → Bool) (before after : Option CodePoint) : Bool :=
  before.any word != after.any word

/-! ## Citations -/

/-- The text of a chunk: it has no blanks at its ends and is no longer than a finding may quote. -/
structure Passage where
  text : Str
  fits : Fits text
deriving DecidableEq

structure Citation where
  id : Uuid
  projectId : Uuid
  passage : Passage
deriving DecidableEq

/-! ## Rules -/

def ambiguousTerms : List Str :=
  [lit "fast", lit "appropriate", lit "reasonable", lit "as needed", lit "user-friendly"]

def actionTerms : List Str := [lit "delete", lit "update", lit "export", lit "approve"]

def authorizationTerms : List Str :=
  [lit "owner", lit "role", lit "authorized", lit "permission", lit "admin"]

def errorTerms : List Str :=
  [lit "error", lit "failure", lit "invalid", lit "not found", lit "reject"]

def performanceTerms : List Str :=
  [lit "many", lit "large", lit "real time", lit "quickly", lit "high traffic"]

def acceptanceMarkers : List Str :=
  [lit "ac-", lit "acceptance criteria", lit "given", lit "when", lit "then"]

/-- `_REQUIREMENT_MARKER.search` after the character `before`. -/
def hasRequirementMarker (word : CodePoint → Bool) : Option CodePoint → Str → Bool
  | _, [] => false
  | before, c :: s =>
    [lit "must", lit "shall", lit "should"].any (fun marker =>
      boundary word before (some c) && marker.isPrefixOf (c :: s) &&
        boundary word marker.getLast? ((c :: s).drop marker.length).head?) ||
      hasRequirementMarker word (some c) s

/-- `_has_measurable_bound` -/
def hasMeasurableBound (t : Tables) (s : Str) : Bool := s.any fun c => (t.decimal c).isSome

def findingNamespace : Uuid := 0xf2e32d13e8fe4b5390e975443b896a35#128

def one : PyFloat := .finite ⟨false, scale, representable_scale⟩

/-- `_evidence` -/
def evidenceOf (c : Citation) (observedFact : Str) : List FindingEvidence := [⟨c.id, observedFact⟩]

/-- What the identifier of a finding is derived from. -/
def findingName (rule : Str) (citationIds : List Uuid) : Str :=
  rule ++ lit ":" ++ (lit ":").intercalate (citationIds.map uuidText)

/-- `_supported_finding` -/
def supportedFinding (sha1 : Bytes → BitVec 160) (rule : Str) (category : FindingCategory)
    (severity : FindingSeverity) (evidence : List FindingEvidence) (analysis recommendation : Str) :
    RequirementFindingV1 where
  id := uuid5 sha1 findingNamespace (findingName rule (evidence.map (·.citationId)))
  category := category
  severity := severity
  evidence := evidence
  analysis := analysis
  confidence := one
  recommendation := recommendation
  unsupported := false
  unsupportedReason := none

def missingAcceptanceCriteria (sha1 : Bytes → BitVec 160) (c : Citation) : RequirementFindingV1 :=
  supportedFinding sha1 (lit "missing_acceptance_criteria") .missingAcceptanceCriteria .medium
    (evidenceOf c (lit "The requirement contains a normative statement but no acceptance-criterion or Gherkin marker."))
    (lit "The requirement cannot be verified consistently because its success and failure conditions are absent.")
    (lit "Add observable acceptance criteria, including expected success, boundary, and failure behavior.")

def ambiguity (sha1 : Bytes → BitVec 160) (c : Citation) (term : Str) : RequirementFindingV1 :=
  supportedFinding sha1 (lit "ambiguity") .ambiguity .medium
    (evidenceOf c (lit "The passage uses the vague term '" ++ term ++ lit "'."))
    (lit "'" ++ term ++ lit "' is not objectively testable without a measurable definition.")
    (lit "Replace '" ++ term ++ lit "' with an observable threshold, time limit, or measurable acceptance criterion.")

def authorizationGap (sha1 : Bytes → BitVec 160) (c : Citation) : RequirementFindingV1 :=
  supportedFinding sha1 (lit "authorization_gap") .authorizationGap .high
    (evidenceOf c (lit "The passage describes a state-changing action without an explicit authorization term."))
    (lit "The actor and permission boundary are not specified, so authorization behavior cannot be tested.")
    (lit "Specify the permitted actor, required role or ownership rule, and forbidden-access behavior.")

def errorHandlingGap (sha1 : Bytes → BitVec 160) (c : Citation) : RequirementFindingV1 :=
  supportedFinding sha1 (lit "error_handling_gap") .errorHandlingGap .medium
    (evidenceOf c (lit "The passage describes an action without an explicit failure, invalid-input, or not-found outcome."))
    (lit "The error behavior is not specified, preventing negative-path test design.")
    (lit "Add expected failure outcomes, error responses, and state-preservation behavior.")

def performanceRisk (sha1 : Bytes → BitVec 160) (c : Citation) (term : Str) :
    RequirementFindingV1 :=
  supportedFinding sha1 (lit "performance_risk") .performanceRisk .medium
    (evidenceOf c (lit "The passage uses the unbounded performance term '" ++ term ++ lit "'."))
    (lit "The performance expectation has no measurable volume, latency, or throughput target.")
    (lit "Specify workload, percentile, latency, throughput, or capacity limits.")

def contradiction (sha1 : Bytes → BitVec 160) (left right : Citation) : RequirementFindingV1 :=
  supportedFinding sha1 (lit "contradiction") .contradiction .high
    [⟨left.id, left.passage.text⟩, ⟨right.id, right.passage.text⟩]
    (lit "The cited requirements state opposite mandatory behavior for the same normalized subject and action.")
    (lit "Resolve the conflict and retain one unambiguous requirement with testable acceptance criteria.")

/-- What the rules on one passage find, in their order. -/
def passageFindings (t : Tables) (sha1 : Bytes → BitVec 160) (c : Citation) :
    List RequirementFindingV1 :=
  let passage := t.casefold c.passage.text
  let mentions (terms : List Str) := terms.any (occursIn · passage)
  let unbounded (terms : List Str) :=
    terms.filter fun term => occursIn term passage && !hasMeasurableBound t passage
  (if hasRequirementMarker t.word none passage && !mentions acceptanceMarkers then
    [missingAcceptanceCriteria sha1 c] else []) ++
  (unbounded ambiguousTerms).map (ambiguity sha1 c) ++
  (if mentions actionTerms && !mentions authorizationTerms then [authorizationGap sha1 c]
    else []) ++
  (if mentions actionTerms && !mentions errorTerms then [errorHandlingGap sha1 c] else []) ++
  (unbounded performanceTerms).map (performanceRisk sha1 c)

/-! ## Contradictions -/

/-- `[a-z0-9]` -/
def isSubjectHead (c : CodePoint) : Bool :=
  (0x61 ≤ c.val && c.val ≤ 0x7A) || (0x30 ≤ c.val && c.val ≤ 0x39)

/-- `[a-z0-9 _-]` -/
def isSubjectRest (c : CodePoint) : Bool :=
  isSubjectHead c || c.val == 0x20 || c.val == 0x5F || c.val == 0x2D

/-- `[a-z0-9][a-z0-9 _-]{0,160}` -/
def isPredicate : Str → Bool
  | [] => false
  | c :: s => isSubjectHead c && s.all isSubjectRest && s.length ≤ 160

/-- What follows the subject: ` must `, the greedy `not ` and a predicate up to the end. -/
def afterSubject (s : Str) : Option (Bool × Str) :=
  if (lit " must ").isPrefixOf s then
    let rest := s.drop 6
    if (lit "not ").isPrefixOf rest && isPredicate (rest.drop 4) then some (true, rest.drop 4)
    else if isPredicate rest then some (false, rest)
    else none
  else none

/-- The lazy `{0,120}?`: the shortest subject that the rest of the pattern can follow. -/
def lazySubject (subject : Str) : Nat → Str → Option (Str × Bool × Str)
  | budget, s =>
    match afterSubject s with
    | some (negative, predicate) => some (subject, negative, predicate)
    | none =>
      match budget, s with
      | budget + 1, c :: s =>
        if isSubjectRest c then lazySubject (subject ++ [c]) budget s else none
      | _, _ => none

/-- `_must_statement` -/
def mustStatement (t : Tables) (c : Citation) : Option (Str × Bool × Str) :=
  let normalized := rstripChars (lit ".!;") (joinWords (split (t.casefold c.passage.text)))
  match normalized with
  | [] => none
  | head :: s =>
    if isSubjectHead head then
      match lazySubject [head] 120 s with
      | some (subject, negative, predicate) => some (strip subject, negative, strip predicate)
      | none => none
    else none

def contradicts (t : Tables) (left right : Citation) : Bool :=
  match mustStatement t left, mustStatement t right with
  | some (subject, negative, predicate), some (subject', negative', predicate') =>
    subject = subject' && predicate = predicate' && negative != negative'
  | _, _ => false

/-- The contradictions of each citation with those after it. -/
def contradictions (t : Tables) (sha1 : Bytes → BitVec 160) : List Citation →
    List RequirementFindingV1
  | [] => []
  | left :: rest =>
    (rest.filter (contradicts t left)).map (contradiction sha1 left) ++ contradictions t sha1 rest

/-- `sorted(citations, key=lambda citation: str(citation.id))` -/
def orderedCitations (citations : List Citation) : List Citation :=
  citations.insertionSort fun a b => a.id ≤ b.id

/-- `analyze_citations` -/
def analyzeCitations (t : Tables) (sha1 : Bytes → BitVec 160) (citations : List Citation) :
    List RequirementFindingV1 :=
  let ordered := orderedCitations citations
  ordered.flatMap (passageFindings t sha1) ++ contradictions t sha1 ordered

/-! ## The findings are valid -/

theorem fits_lit {cs : List Char} (h : Fits (cs.map CodePoint.ofChar)) :
    Fits (lit (String.ofList cs)) := by
  rwa [lit_ofList]

/-- A term between two texts. -/
theorem fits_around {a term b : Str} (front : a.head?.any (!isSpace ·) = true)
    (back : b.getLast?.any (!isSpace ·) = true)
    (short : a.length + term.length + b.length ≤ maxFindingTextLength) :
    Fits (a ++ term ++ b) := by
  obtain ⟨c, a, rfl⟩ : ∃ c t, a = c :: t := by
    cases a with
    | nil => cases front
    | cons c t => exact ⟨c, t, rfl⟩
  rcases List.eq_nil_or_concat b with rfl | ⟨b, d, rfl⟩
  · cases back
  refine ⟨strip_eq_self ?_ ?_, by simp, ?_⟩
  · intro c' t eq
    obtain ⟨rfl, -⟩ := List.cons.inj eq
    simpa using front
  · intro d' t eq
    rw [List.concat_eq_append, ← List.append_assoc] at eq
    obtain ⟨-, eq⟩ := List.append_inj' eq rfl
    obtain rfl := (List.cons.inj eq).1
    simpa using back
  · simp only [List.length_append] at short ⊢
    exact short

/-- `fits_around` for one of the terms. -/
theorem fits_term {front back : List Char} {term : Str}
    (h : term ∈ ambiguousTerms ++ performanceTerms)
    (fits : (front.map CodePoint.ofChar).head?.any (!isSpace ·) = true ∧
      (back.map CodePoint.ofChar).getLast?.any (!isSpace ·) = true ∧
      front.length + 20 + back.length ≤ maxFindingTextLength) :
    Fits (lit (String.ofList front) ++ term ++ lit (String.ofList back)) := by
  have terms_short : ∀ term ∈ ambiguousTerms ++ performanceTerms, term.length ≤ 20 := by
    decide +kernel
  have := terms_short term h
  rw [lit_ofList, lit_ofList]
  apply fits_around fits.1 fits.2.1
  simp only [List.length_map]
  omega

theorem supportedFinding_valid (sha1 : Bytes → BitVec 160) (rule : Str) {category : FindingCategory}
    (severity : FindingSeverity) {evidence : List FindingEvidence} {analysis recommendation : Str}
    (material : category ≠ .unsupportedClaim) (cited : evidence ≠ [])
    (facts : ∀ e ∈ evidence, Fits e.observedFact) (distinct : evidence.Nodup)
    (analysisFits : Fits analysis) (recommendationFits : Fits recommendation) :
    (supportedFinding sha1 rule category severity evidence analysis recommendation).Valid where
  facts := facts
  distinct := distinct
  analysis := analysisFits
  confidence := by
    change isProbability one = true
    decide +kernel
  recommendation := recommendationFits
  reason := by
    intro s none
    cases none
  state := by simp [validateEvidenceState, supportedFinding, rejectIf, material, cited]

/-- A rule that cites one passage. -/
theorem single_valid (sha1 : Bytes → BitVec 160) (rule : Str) {category : FindingCategory}
    (severity : FindingSeverity) (c : Citation) {fact analysis recommendation : Str}
    (material : category ≠ .unsupportedClaim) (factFits : Fits fact) (analysisFits : Fits analysis)
    (recommendationFits : Fits recommendation) :
    (supportedFinding sha1 rule category severity (evidenceOf c fact) analysis
      recommendation).Valid :=
  supportedFinding_valid sha1 rule severity material (List.cons_ne_nil _ _)
    (List.forall_mem_singleton.mpr factFits) (List.nodup_singleton _) analysisFits
    recommendationFits

theorem passageFindings_valid {t : Tables} {sha1 : Bytes → BitVec 160} {c : Citation}
    {f : RequirementFindingV1} (h : f ∈ passageFindings t sha1 c) : f.Valid := by
  simp only [passageFindings, List.mem_append, List.mem_map, List.mem_filter] at h
  rcases h with (((h | ⟨term, ⟨listed, -⟩, rfl⟩) | h) | h) | ⟨term, ⟨listed, -⟩, rfl⟩
  · split at h
    · obtain rfl := List.mem_singleton.mp h
      exact single_valid sha1 _ _ c (by decide) (fits_lit (by decide +kernel))
        (fits_lit (by decide +kernel)) (fits_lit (by decide +kernel))
    · cases h
  · have known := List.mem_append_left performanceTerms listed
    exact single_valid sha1 _ _ c (by decide) (fits_term known (by decide +kernel))
      (fits_term known (by decide +kernel)) (fits_term known (by decide +kernel))
  · split at h
    · obtain rfl := List.mem_singleton.mp h
      exact single_valid sha1 _ _ c (by decide) (fits_lit (by decide +kernel))
        (fits_lit (by decide +kernel)) (fits_lit (by decide +kernel))
    · cases h
  · split at h
    · obtain rfl := List.mem_singleton.mp h
      exact single_valid sha1 _ _ c (by decide) (fits_lit (by decide +kernel))
        (fits_lit (by decide +kernel)) (fits_lit (by decide +kernel))
    · cases h
  · have known := List.mem_append_right ambiguousTerms listed
    exact single_valid sha1 _ _ c (by decide) (fits_term known (by decide +kernel))
      (fits_lit (by decide +kernel)) (fits_lit (by decide +kernel))

theorem contradicts_ne {t : Tables} {left right : Citation} (h : contradicts t left right = true) :
    left.passage.text ≠ right.passage.text := by
  intro same
  have statements : mustStatement t left = mustStatement t right := by
    simp only [mustStatement, same]
  rw [contradicts, statements] at h
  split at h
  · rename_i first second
    have eq := Option.some.inj (first.symm.trans second)
    simp only [Prod.mk.injEq] at eq
    obtain ⟨rfl, rfl, rfl⟩ := eq
    simp at h
  · cases h

theorem contradictions_valid {t : Tables} {sha1 : Bytes → BitVec 160} {cs : List Citation}
    {f : RequirementFindingV1} (h : f ∈ contradictions t sha1 cs) : f.Valid := by
  induction cs with
  | nil => cases h
  | cons left rest ih =>
    rcases List.mem_append.mp h with h | h
    · obtain ⟨right, found, rfl⟩ := List.mem_map.mp h
      have differs := contradicts_ne (List.mem_filter.mp found).2
      apply supportedFinding_valid sha1 _ _ (by decide) (List.cons_ne_nil _ _)
      · intro e he
        rcases List.mem_pair.mp he with rfl | rfl
        · exact left.passage.fits
        · exact right.passage.fits
      · simp [differs]
      · exact fits_lit (by decide +kernel)
      · exact fits_lit (by decide +kernel)
    · exact ih h

theorem analyzeCitations_valid {t : Tables} {sha1 : Bytes → BitVec 160} {cs : List Citation} :
    ∀ f ∈ analyzeCitations t sha1 cs, f.Valid := by
  intro f h
  rcases List.mem_append.mp h with h | h
  · obtain ⟨c, -, h⟩ := List.mem_flatMap.mp h
    exact passageFindings_valid h
  · exact contradictions_valid h

end QaCopilot.Requirements
