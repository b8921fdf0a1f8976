import QaCopilot.Execution.GeneratedAssertions
import QaCopilot.Python.Dict
import QaCopilot.Python.Uuids
import QaCopilot.Python.Words

/-!
# Generated test cases

`generated_tests.py`: a proposal for an API test, the payload that renders it and the validator that
reads an untrusted payload.
-/

namespace QaCopilot.Execution

open Python Results

def generatedTestCaseSchemaVersion : Str := lit "generated-test-case/v1"

def maxRequestPathLength : Nat := 1000

def maxRequestItems : Nat := 20

def maxJsonDepth : Nat := 8

def maxJsonItems : Nat := 100

inductive GeneratedTestKind where
  | positive
  | negative
  | boundary
  | authorization
  | contract
  | state
deriving DecidableEq

def GeneratedTestKind.value : GeneratedTestKind → Str
  | .positive => lit "positive"
  | .negative => lit "negative"
  | .boundary => lit "boundary"
  | .authorization => lit "authorization"
  | .contract => lit "contract"
  | .state => lit "state"

def GeneratedTestKind.all : List GeneratedTestKind :=
  [.positive, .negative, .boundary, .authorization, .contract, .state]

inductive HttpMethod where
  | get
  | post
  | put
  | patch
  | delete
deriving DecidableEq

def HttpMethod.value : HttpMethod → Str
  | .get => lit "GET"
  | .post => lit "POST"
  | .put => lit "PUT"
  | .patch => lit "PATCH"
  | .delete => lit "DELETE"

def HttpMethod.all : List HttpMethod := [.get, .post, .put, .patch, .delete]

/-- A query parameter or a request header. -/
structure RequestParameter where
  name : Str
  value : Str
deriving DecidableEq

structure RequestTemplate where
  method : HttpMethod
  path : Str
  query : List RequestParameter
  headers : List RequestParameter
  jsonBody : Option (List (Str × Json))

structure GeneratedTestCase where
  id : Uuid
  title : Str
  kind : GeneratedTestKind
  sourceFindingId : Uuid
  citationIds : List Uuid
  request : RequestTemplate
  assertions : List GeneratedAssertion

/-! ## Payloads -/

def RequestParameter.asPayload (p : RequestParameter) : Json :=
  .dict [(lit "name", .str p.name), (lit "value", .str p.value)]

/-- The body of a request, or `None`. -/
def bodyPayload : Option (List (Str × Json)) → Json
  | some items => .dict items
  | none => .null

def RequestTemplate.asPayload (r : RequestTemplate) : Json :=
  .dict [(lit "method", .str r.method.value), (lit "path", .str r.path),
    (lit "query", .list (r.query.map RequestParameter.asPayload)),
    (lit "headers", .list (r.headers.map RequestParameter.asPayload)),
    (lit "json_body", bodyPayload r.jsonBody)]

/-- A selector, or `None`. -/
def selectorPayload : Option Str → Json
  | some s => .str s
  | none => .null

def GeneratedAssertion.asPayload (a : GeneratedAssertion) : Json :=
  .dict [(lit "target", .str a.target.text), (lit "selector", selectorPayload a.selector),
    (lit "operator", .str a.operator.text), (lit "expected_value", a.expectedValue.toJson)]

/-- `as_payload` -/
def GeneratedTestCase.asPayload (t : GeneratedTestCase) : List (Str × Json) :=
  [(lit "schema_version", .str generatedTestCaseSchemaVersion),
    (lit "id", .str (uuidText t.id)),
    (lit "title", .str t.title),
    (lit "kind", .str t.kind.value),
    (lit "source_finding_id", .str (uuidText t.sourceFindingId)),
    (lit "citation_ids", .list (t.citationIds.map fun u => .str (uuidText u))),
    (lit "request", t.request.asPayload),
    (lit "assertions", .list (t.assertions.map GeneratedAssertion.asPayload))]

/-! ## Validation -/

/-- `_CASE_FIELDS` -/
def caseFields : List Str :=
  [lit "schema_version", lit "id", lit "title", lit "kind", lit "source_finding_id",
    lit "citation_ids", lit "request", lit "assertions"]

/-- `_REQUEST_FIELDS` -/
def requestFields : List Str :=
  [lit "method", lit "path", lit "query", lit "headers", lit "json_body"]

/-- `_PARAMETER_FIELDS` -/
def parameterFields : List Str := [lit "name", lit "value"]

/-- `_FORBIDDEN_HEADER_NAMES` -/
def forbiddenHeaderNames : List Str :=
  [lit "authorization", lit "cookie", lit "host", lit "proxy-authorization", lit "set-cookie"]

/-- `_require_exact_fields` -/
def requireExactFields (payload : List (Object × Object)) (expected : List Str) (label : String) :
    Validated Fields :=
  match (Object.dict payload).fields? with
  | some fields =>
    if expected.all (· ∈ fields.keys) && fields.keys.all (· ∈ expected) then .ok fields
    else reject (label ++ " fields must exactly match the versioned schema")
  | none => reject (label ++ " fields must exactly match the versioned schema")

/-- `_mapping` -/
def mappingOf (value : Object) (label : String) : Validated (List (Object × Object)) :=
  match value with
  | .dict items => .ok items
  | _ => reject (label ++ " must be an object")

/-- `_list` -/
def listOf (value : Object) (label : String) : Validated (List Object) :=
  match value with
  | .list items => .ok items
  | _ => reject (label ++ " must be a list")

/-- `_uuid` -/
def uuid (decimal : CodePoint → Option Nat) (value : Object) (label : String) : Validated Uuid :=
  match value.str? >>= parseUuid decimal with
  | some u => .ok u
  | none => reject (label ++ " must be a UUID string")

/-- `_citation_ids` -/
def citationIds (decimal : CodePoint → Option Nat) (value : Object) : Validated (List Uuid) := do
  let items ← listOf value "Generated test case citation IDs"
  rejectWhen items.isEmpty "Generated test cases require at least one citation ID"
  let ids ← items.mapM (uuid decimal · "Generated test case citation id")
  rejectWhen (!decide ids.Nodup) "Generated test case citation IDs must not repeat"
  return ids

/-- `_request_path` -/
def requestPath (value : Object) : Validated Str := do
  let path ← text value "Request path"
  rejectWhen (maxRequestPathLength < path.length) "Request path is too long"
  rejectWhen (!(lit "/").isPrefixOf path || (lit "//").isPrefixOf path || occursIn (lit "\\") path
      || occursIn (lit "://") path || occursIn (lit "?") path || occursIn (lit "#") path)
    "Request path must be a relative path without a URL, query, or fragment"
  return path

/-- `str.lower` of a header name, which has ASCII characters only. -/
def lowerName (s : Str) : Str :=
  s.map fun c => if 0x41 ≤ c.val ∧ c.val ≤ 0x5A then Fin.ofNat _ (c.val + 0x20) else c

/-- `_header_name` -/
def headerName (value : Object) : Validated Str := do
  let name ← text value "Request header name"
  rejectWhen (!isHeaderName name) "Request header name is not allowed"
  rejectWhen (forbiddenHeaderNames.contains (lowerName name))
    "Credential or routing headers are not allowed"
  return name

/-- `_parameter_name` -/
def parameterName (value : Object) (label : String) : Validated Str := do
  let name ← text value label
  rejectWhen (256 < name.length) (label ++ " is too long")
  return name

/-- One turn of the loops of `_query_parameters` and `_request_headers`. -/
def readParameter (label : String) (readName : Object → Validated Str) (valueLabel : String)
    (item : Object) : Validated RequestParameter := do
  let payload ← mappingOf item label
  let fields ← requireExactFields payload parameterFields label
  let name ← readName (fields.get "name")
  let value ← text (fields.get "value") valueLabel
  return ⟨name, value⟩

/-- `_query_parameters` -/
def queryParameters (value : Object) : Validated (List RequestParameter) := do
  let items ← listOf value "Request query"
  rejectWhen (maxRequestItems < items.length) "Request query has too many items"
  let parameters ← items.mapM (readParameter "Request query item"
    (parameterName · "Request query name") "Request query value")
  rejectWhen (!decide (parameters.map (·.name)).Nodup) "Request query names must not repeat"
  return parameters

/-- `_request_headers` -/
def requestHeaders (value : Object) : Validated (List RequestParameter) := do
  let items ← listOf value "Request headers"
  rejectWhen (maxRequestItems < items.length) "Request headers have too many items"
  let headers ← items.mapM (readParameter "Request header" headerName "Request header value")
  rejectWhen (!decide (headers.map fun h => lowerName h.name).Nodup)
    "Request header names must not repeat"
  return headers

/-! ## The JSON body -/

/-- `_json_key` -/
def jsonKey (value : Object) : Validated Str :=
  match value with
  | .str s => text (.str s) "Request JSON key"
  | _ => reject "Request JSON keys must be text"

/-- `math.isfinite` -/
def isFiniteFloat : PyFloat → Bool
  | .finite _ => true
  | _ => false

def checkDepth (depth : Nat) : Validated Unit :=
  rejectWhen (maxJsonDepth < depth) "Request JSON body is too deeply nested"

mutual

/-- `_json_value` -/
def jsonValue (depth : Nat) : Object → Validated Json
  | .none => do
    checkDepth depth
    return .null
  | .bool b => do
    checkDepth depth
    return .bool b
  | .int n => do
    checkDepth depth
    return .int n
  | .str s => do
    checkDepth depth
    rejectWhen (maxGeneratedTestTextLength < s.length) "Request JSON text is too long"
    return .str s
  | .float x => do
    checkDepth depth
    rejectWhen (!isFiniteFloat x) "Request JSON numbers must be finite"
    return .float x
  | .list items => do
    checkDepth depth
    rejectWhen (maxJsonItems < items.length) "Request JSON array has too many items"
    return .list (← jsonValues (depth + 1) items)
  | .dict items => do
    checkDepth depth
    rejectWhen (maxJsonItems < items.length) "Request JSON object has too many items"
    let members ← jsonItems (depth + 1) items
    return .dict (Dict.empty.update members).items
  | .other _ => do
    checkDepth depth
    reject "Request JSON body must contain JSON data"

def jsonValues (depth : Nat) : List Object → Validated (List Json)
  | [] => .ok []
  | item :: items => do
    let v ← jsonValue depth item
    return v :: (← jsonValues depth items)

/-- The keys and values of a mapping, each as it is normalised. -/
def jsonItems (depth : Nat) : List (Object × Object) → Validated (List (Str × Json))
  | [] => .ok []
  | (key, item) :: items => do
    let k ← jsonKey key
    let v ← jsonValue depth item
    return (k, v) :: (← jsonItems depth items)

end

/-- `_json_body` -/
def jsonBody (value : Object) : Validated (Option (List (Str × Json))) :=
  match value with
  | .none => .ok none
  | value => do
    let body ← mappingOf value "Request JSON body"
    rejectWhen (maxJsonItems < body.length) "Request JSON body has too many items"
    let members ← jsonItems 0 body
    return some (Dict.empty.update members).items

/-! ## Test cases -/

/-- `_request_template` -/
def requestTemplate (value : Object) : Validated RequestTemplate := do
  let request ← mappingOf value "Request template"
  let fields ← requireExactFields request requestFields "Request template"
  let method ← enum HttpMethod.all HttpMethod.value (fields.get "method") "Request method"
  let path ← requestPath (fields.get "path")
  let query ← queryParameters (fields.get "query")
  let headers ← requestHeaders (fields.get "headers")
  let body ← jsonBody (fields.get "json_body")
  return ⟨method, path, query, headers, body⟩

/-- `validate_generated_test_case` of a mapping. -/
def validateGeneratedTestCase (decimal : CodePoint → Option Nat) (payload : List (Object × Object)) :
    Validated GeneratedTestCase := do
  let fields ← requireExactFields payload caseFields "Generated test case"
  rejectWhen ((fields.get "schema_version").str? ≠ some generatedTestCaseSchemaVersion)
    "Unsupported generated-test-case schema version"
  let id ← uuid decimal (fields.get "id") "Generated test case id"
  let title ← text (fields.get "title") "Generated test case title"
  let kind ← enum GeneratedTestKind.all GeneratedTestKind.value (fields.get "kind")
    "Generated test case kind"
  let sourceFindingId ← uuid decimal (fields.get "source_finding_id")
    "Generated test case source finding id"
  let citationIds ← citationIds decimal (fields.get "citation_ids")
  let request ← requestTemplate (fields.get "request")
  let assertions ← readAssertions (fields.get "assertions")
  return ⟨id, title, kind, sourceFindingId, citationIds, request, assertions⟩

/-! ## What is read -/

theorem mappingOf_ok {value : Object} {label : String} {payload : List (Object × Object)} :
    mappingOf value label = .ok payload ↔ value = .dict payload := by
  cases value <;> simp [mappingOf, reject]

theorem listOf_ok {value : Object} {label : String} {items : List Object} :
    listOf value label = .ok items ↔ value = .list items := by
  cases value <;> simp [listOf, reject]

theorem readParameter_ok {label valueLabel : String} {readName : Object → Validated Str} {item : Object}
    {p : RequestParameter} : readParameter label readName valueLabel item = .ok p ↔
      ∃ payload fields, item = .dict payload ∧
        requireExactFields payload parameterFields label = .ok fields ∧
          readName (fields.get "name") = .ok p.name ∧ text (fields.get "value") valueLabel = .ok p.value := by
  constructor
  · intro h
    obtain ⟨payload, found, h⟩ := bind_ok.mp h
    obtain ⟨fields, exact', h⟩ := bind_ok.mp h
    obtain ⟨name, named, h⟩ := bind_ok.mp h
    obtain ⟨value, valued, h⟩ := bind_ok.mp h
    obtain rfl := Except.ok.inj h
    exact ⟨payload, fields, mappingOf_ok.mp found, exact', named, valued⟩
  · rintro ⟨payload, fields, rfl, exact', named, valued⟩
    rw [readParameter, mappingOf_ok.mpr rfl, ok_bind, exact', ok_bind, named, ok_bind, valued]
    rfl

theorem queryParameters_ok {value : Object} {ps : List RequestParameter} :
    queryParameters value = .ok ps ↔ ∃ items, value = .list items ∧ items.length ≤ maxRequestItems ∧
      items.mapM (readParameter "Request query item" (parameterName · "Request query name")
        "Request query value") = .ok ps ∧ (ps.map (·.name)).Nodup := by
  constructor
  · intro h
    obtain ⟨items, found, h⟩ := bind_ok.mp h
    obtain ⟨_, few, h⟩ := bind_ok.mp h
    obtain ⟨parameters, read, h⟩ := bind_ok.mp h
    obtain ⟨_, distinct, h⟩ := bind_ok.mp h
    obtain rfl := Except.ok.inj h
    rw [rejectWhen_ok] at few distinct
    exact ⟨items, listOf_ok.mp found, by simpa using few, read, by simpa using distinct⟩
  · rintro ⟨items, rfl, few, read, distinct⟩
    rw [queryParameters, listOf_ok.mpr rfl, ok_bind, rejectWhen_ok.mpr (by simpa using few), ok_bind, read,
      ok_bind, rejectWhen_ok.mpr (by simpa using distinct)]
    rfl

theorem requestHeaders_ok {value : Object} {ps : List RequestParameter} :
    requestHeaders value = .ok ps ↔ ∃ items, value = .list items ∧ items.length ≤ maxRequestItems ∧
      items.mapM (readParameter "Request header" headerName "Request header value") = .ok ps ∧
        (ps.map fun h => lowerName h.name).Nodup := by
  constructor
  · intro h
    obtain ⟨items, found, h⟩ := bind_ok.mp h
    obtain ⟨_, few, h⟩ := bind_ok.mp h
    obtain ⟨headers, read, h⟩ := bind_ok.mp h
    obtain ⟨_, distinct, h⟩ := bind_ok.mp h
    obtain rfl := Except.ok.inj h
    rw [rejectWhen_ok] at few distinct
    exact ⟨items, listOf_ok.mp found, by simpa using few, read, by simpa using distinct⟩
  · rintro ⟨items, rfl, few, read, distinct⟩
    rw [requestHeaders, listOf_ok.mpr rfl, ok_bind, rejectWhen_ok.mpr (by simpa using few), ok_bind, read,
      ok_bind, rejectWhen_ok.mpr (by simpa using distinct)]
    rfl

theorem citationIds_ok {decimal : CodePoint → Option Nat} {value : Object} {ids : List Uuid} :
    citationIds decimal value = .ok ids ↔ ∃ items, value = .list items ∧ items ≠ [] ∧
      items.mapM (uuid decimal · "Generated test case citation id") = .ok ids ∧ ids.Nodup := by
  constructor
  · intro h
    obtain ⟨items, found, h⟩ := bind_ok.mp h
    obtain ⟨_, some', h⟩ := bind_ok.mp h
    obtain ⟨ids', read, h⟩ := bind_ok.mp h
    obtain ⟨_, distinct, h⟩ := bind_ok.mp h
    obtain rfl := Except.ok.inj h
    rw [rejectWhen_ok] at some' distinct
    exact ⟨items, listOf_ok.mp found, by simpa using some', read, by simpa using distinct⟩
  · rintro ⟨items, rfl, some', read, distinct⟩
    rw [citationIds, listOf_ok.mpr rfl, ok_bind, rejectWhen_ok.mpr (by simpa using some'), ok_bind, read,
      ok_bind, rejectWhen_ok.mpr (by simpa using distinct)]
    rfl

/-- What the parts of a request were read from. -/
structure ReadsRequest (fields : Fields) (r : RequestTemplate) : Prop where
  method : enum HttpMethod.all HttpMethod.value (fields.get "method") "Request method" = .ok r.method
  path : requestPath (fields.get "path") = .ok r.path
  query : queryParameters (fields.get "query") = .ok r.query
  headers : requestHeaders (fields.get "headers") = .ok r.headers
  body : jsonBody (fields.get "json_body") = .ok r.jsonBody

theorem requestTemplate_ok {value : Object} {r : RequestTemplate} : requestTemplate value = .ok r ↔
    ∃ payload fields, value = .dict payload ∧
      requireExactFields payload requestFields "Request template" = .ok fields ∧
        ReadsRequest fields r := by
  unfold requestTemplate
  constructor
  · intro h
    obtain ⟨payload, found, h⟩ := bind_ok.mp h
    obtain ⟨fields, exact', h⟩ := bind_ok.mp h
    obtain ⟨method, methodRead, h⟩ := bind_ok.mp h
    obtain ⟨path, pathRead, h⟩ := bind_ok.mp h
    obtain ⟨query, queryRead, h⟩ := bind_ok.mp h
    obtain ⟨headers, headersRead, h⟩ := bind_ok.mp h
    obtain ⟨body, bodyRead, h⟩ := bind_ok.mp h
    obtain rfl := Except.ok.inj h
    exact ⟨payload, fields, mappingOf_ok.mp found, exact', methodRead, pathRead, queryRead, headersRead,
      bodyRead⟩
  · rintro ⟨payload, fields, rfl, exact', read⟩
    rw [mappingOf_ok.mpr rfl, ok_bind, exact', ok_bind, read.method, ok_bind, read.path, ok_bind,
      read.query, ok_bind, read.headers, ok_bind, read.body]
    rfl

/-- What the parts of a test case were read from. -/
structure ReadsTest (decimal : CodePoint → Option Nat) (fields : Fields) (t : GeneratedTestCase) :
    Prop where
  version : (fields.get "schema_version").str? = some generatedTestCaseSchemaVersion
  id : uuid decimal (fields.get "id") "Generated test case id" = .ok t.id
  title : text (fields.get "title") "Generated test case title" = .ok t.title
  kind : enum GeneratedTestKind.all GeneratedTestKind.value (fields.get "kind")
    "Generated test case kind" = .ok t.kind
  source : uuid decimal (fields.get "source_finding_id") "Generated test case source finding id" =
    .ok t.sourceFindingId
  citations : citationIds decimal (fields.get "citation_ids") = .ok t.citationIds
  request : requestTemplate (fields.get "request") = .ok t.request
  assertions : readAssertions (fields.get "assertions") = .ok t.assertions

theorem validateGeneratedTestCase_ok {decimal : CodePoint → Option Nat}
    {payload : List (Object × Object)} {t : GeneratedTestCase} :
    validateGeneratedTestCase decimal payload = .ok t ↔
      ∃ fields, requireExactFields payload caseFields "Generated test case" = .ok fields ∧
        ReadsTest decimal fields t := by
  unfold validateGeneratedTestCase
  constructor
  · intro h
    obtain ⟨fields, exact', h⟩ := bind_ok.mp h
    obtain ⟨_, version, h⟩ := bind_ok.mp h
    obtain ⟨id, idRead, h⟩ := bind_ok.mp h
    obtain ⟨title, titleRead, h⟩ := bind_ok.mp h
    obtain ⟨kind, kindRead, h⟩ := bind_ok.mp h
    obtain ⟨source, sourceRead, h⟩ := bind_ok.mp h
    obtain ⟨citations, citationsRead, h⟩ := bind_ok.mp h
    obtain ⟨request, requestRead, h⟩ := bind_ok.mp h
    obtain ⟨assertions, assertionsRead, h⟩ := bind_ok.mp h
    obtain rfl := Except.ok.inj h
    rw [rejectWhen_ok] at version
    exact ⟨fields, exact', by simpa using version, idRead, titleRead, kindRead, sourceRead, citationsRead,
      requestRead, assertionsRead⟩
  · rintro ⟨fields, exact', read⟩
    rw [exact', ok_bind, rejectWhen_ok.mpr (by simpa using read.version), ok_bind, read.id, ok_bind,
      read.title, ok_bind, read.kind, ok_bind, read.source, ok_bind, read.citations, ok_bind, read.request,
      ok_bind, read.assertions]
    rfl

end QaCopilot.Execution
