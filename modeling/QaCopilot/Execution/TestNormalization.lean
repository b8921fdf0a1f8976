import QaCopilot.Execution.StoredTests
import QaCopilot.Python.KeyOrder
import QaCopilot.Python.Surrogates

/-!
# Normalised tests

`test_normalization.py`: the semantic key of a test and the groups of tests that have one key. Under
`Behaviour` stands what it means that two tests behave the same, in terms of their parts.
-/

namespace QaCopilot.Execution

open Python Results

def normalizationVersion : Str := lit "generated-test-normalization/v1"

def duplicateGroupNamespace : Uuid := 0xbfa7fa30b11c41b795d03b2fbd63d108#128

/-- `TestNormalizationError` by its message, and the `ValueError` and `RecursionError` of
`json.dumps`. -/
inductive NormalizationError where
  | ids
  | value
  | recursion
deriving DecidableEq

/-- The text functions and hashes of Python, and how deep its calls may nest. -/
structure Normalizer where
  nfkc : Str → Str
  casefold : Str → Str
  sha1 : Bytes → BitVec 160
  sha256 : Bytes → BitVec 256
  recursionLimit : Nat

structure NormalizedTestCase where
  testCaseId : Uuid
  normalizedTitle : Str
  semanticKey : Str
  semanticFingerprint : Str

structure DuplicateCandidateGroup where
  id : Uuid
  semanticFingerprint : Str
  testCaseIds : List Uuid
deriving DecidableEq

/-! ## Semantic keys -/

/-- The separators of `_canonical_json`, which lets every float pass. -/
def normalDumps : DumpsOptions := ⟨true, true, lit ",", lit ":"⟩

/-- `_canonical_json` -/
def canonicalJson (limit : Nat) (v : Json) : Except NormalizationError Str :=
  (dumps normalDumps limit v.sorted).mapError fun
    | .value => .value
    | .recursion => .recursion

/-- The text of a value that has one. -/
def jsonText (limit : Nat) (v : Json) : Str :=
  match canonicalJson limit v with
  | .ok text => text
  | .error _ => []

/-- `sorted(items, key=_canonical_json)`, which makes all keys first. -/
def sortedByJson (limit : Nat) (items : List Json) : Except NormalizationError (List Json) := do
  let _ ← items.mapM (canonicalJson limit)
  return sortByTexts (fun v => [jsonText limit v]) items

/-- `_normalized_selector` -/
def normalizedSelector (a : GeneratedAssertion) : Option Str :=
  match a.target with
  | .responseHeader => a.selector.map lowerName
  | _ => a.selector

/-- A header as it counts for the key. -/
def normalizedHeader (h : RequestParameter) : RequestParameter := ⟨lowerName h.name, strip h.value⟩

/-- An assertion as it counts for the key. -/
def normalizedAssertion (a : GeneratedAssertion) : GeneratedAssertion :=
  ⟨a.target, normalizedSelector a, a.operator, a.expectedValue⟩

/-- `_semantic_payload` -/
def semanticPayload (limit : Nat) (t : GeneratedTestCase) : Except NormalizationError Json := do
  let query ← sortedByJson limit (t.request.query.map RequestParameter.asPayload)
  let headers ← sortedByJson limit (t.request.headers.map fun h => (normalizedHeader h).asPayload)
  let assertions ← sortedByJson limit (t.assertions.map fun a => (normalizedAssertion a).asPayload)
  return .dict [(lit "normalization_version", .str normalizationVersion),
    (lit "kind", .str t.kind.value),
    (lit "request", .dict [(lit "method", .str t.request.method.value),
      (lit "path", .str t.request.path), (lit "query", .list query), (lit "headers", .list headers),
      (lit "json_body", bodyPayload t.request.jsonBody)]),
    (lit "assertions", .list assertions)]

/-- The semantic key of a test. -/
def semanticKey (limit : Nat) (t : GeneratedTestCase) : Except NormalizationError Str := do
  canonicalJson limit (← semanticPayload limit t)

/-- `_normalize_title` -/
def normalizeTitle (n : Normalizer) (title : Str) : Str :=
  joinWords (split (n.casefold (n.nfkc title)))

/-- `sha256(semantic_key.encode("utf-8")).hexdigest()`; a key has ASCII characters only. -/
def fingerprint (n : Normalizer) (key : Str) : Str := hexdigest (n.sha256 ((utf8 key).getD []))

/-- `normalize_generated_test_case` -/
def normalizeGeneratedTestCase (n : Normalizer) (t : GeneratedTestCase) :
    Except NormalizationError NormalizedTestCase := do
  let key ← semanticKey n.recursionLimit t
  return ⟨t.id, normalizeTitle n t.title, key, fingerprint n key⟩

/-! ## Groups -/

/-- The group of a key, when two tests have it. -/
def duplicateGroup (n : Normalizer) (members : Dict Str (List Uuid)) (fingerprints : Dict Str Str)
    (key : Str) : Option DuplicateCandidateGroup :=
  let ids := sortByTexts (fun u => [uuidText u]) ((members.get? key).getD [])
  if ids.length < 2 then none
  else some ⟨uuid5 n.sha1 duplicateGroupNamespace key, (fingerprints.get? key).getD [], ids⟩

/-- The groups of normalised tests, in the order of their keys. -/
def duplicateGroups (n : Normalizer) (normalized : List NormalizedTestCase) :
    List DuplicateCandidateGroup :=
  let members := Dict.empty.appends (normalized.map fun t => (t.semanticKey, t.testCaseId))
  let fingerprints := Dict.empty.update (normalized.map fun t => (t.semanticKey, t.semanticFingerprint))
  (sortedTexts members.keys).filterMap (duplicateGroup n members fingerprints)

/-- `group_duplicate_candidates` -/
def groupDuplicateCandidates (n : Normalizer) (tests : List GeneratedTestCase) :
    Except NormalizationError (List DuplicateCandidateGroup) := do
  if ¬ (tests.map (·.id)).Nodup then .error .ids
  let normalized ← tests.mapM (normalizeGeneratedTestCase n)
  return duplicateGroups n normalized

/-! ## Behaviour -/

/-- The tests differ in nothing that is sent or asserted: in the order of parameters, headers,
assertions and keys alone, and in the case of header names. -/
structure SameBehaviour (t u : GeneratedTestCase) : Prop where
  kind : t.kind = u.kind
  method : t.request.method = u.request.method
  path : t.request.path = u.request.path
  query : t.request.query.Perm u.request.query
  headers : (t.request.headers.map fun h => (⟨lowerName h.name, h.value⟩ : RequestParameter)).Perm
    (u.request.headers.map fun h => ⟨lowerName h.name, h.value⟩)
  body : (bodyPayload t.request.jsonBody).same (bodyPayload u.request.jsonBody) = true
  assertions : (t.assertions.map normalizedAssertion).Perm (u.assertions.map normalizedAssertion)

/-- The request and the assertions pass a check. -/
structure Behaves (c : Check) (t : GeneratedTestCase) : Prop where
  request : t.request.asPayload.check c = true
  assertions : (Json.list (t.assertions.map GeneratedAssertion.asPayload)).check c = true

/-- JSON spells every text and every integer of the request and the assertions: no surrogate pair
stands for a character, and no integer has too many digits. -/
structure Spelled (t : GeneratedTestCase) : Prop where
  texts : Behaves .pairFree t
  integers : Behaves normalDumps.accepts t

end QaCopilot.Execution
