import QaCopilot.Openapi.Parser
import QaCopilot.Python.Dict

/-!
# OpenAPI facts

`openapi_facts.py`: the facts that an accepted document states, and the difference of two lists of
facts.

* `indexFacts_isOk`: the facts are indexed when their kinds and identifiers differ;
* `diff_isOk`: two such lists have a difference.
-/

namespace QaCopilot.Openapi

open QaCopilot.Python QaCopilot.Results

def openapiFactSchemaVersion : Str := lit "openapi-facts/v1"

def maxOpenapiFacts : Nat := 50000

/-- `_LIMIT_FIELDS` -/
def limitFields : List Str :=
  [lit "minimum", lit "maximum", lit "exclusiveMinimum", lit "exclusiveMaximum", lit "multipleOf",
    lit "minLength", lit "maxLength", lit "minItems", lit "maxItems", lit "minProperties",
    lit "maxProperties"]

inductive OpenapiFactKind where
  | operation
  | parameter
  | schema
  | response
  | security
  | enum
  | limit
deriving DecidableEq

def OpenapiFactKind.value : OpenapiFactKind → Str
  | .operation => lit "operation"
  | .parameter => lit "parameter"
  | .schema => lit "schema"
  | .response => lit "response"
  | .security => lit "security"
  | .enum => lit "enum"
  | .limit => lit "limit"

theorem OpenapiFactKind.value_injective : Function.Injective OpenapiFactKind.value :=
  texts_injective [.operation, .parameter, .schema, .response, .security, .enum, .limit]
    (fun kind => by cases kind <;> simp) (by decide +kernel)

structure OpenapiFact where
  kind : OpenapiFactKind
  identifier : Str
  jsonPointer : Str
  attributes : List (Str × Str)
deriving DecidableEq

/-- What a fact is found by. -/
def OpenapiFact.key (f : OpenapiFact) : OpenapiFactKind × Str := (f.kind, f.identifier)

structure OpenapiFactsV1 where
  schemaVersion : Str
  openapiVersion : Str
  facts : List OpenapiFact
deriving DecidableEq

/-! ## Extraction -/

/-- `_mapping` -/
def mapping : Option Json → Members
  | some (.dict items) => items
  | _ => []

/-- `sorted` of the keys. -/
def sortedKeys (m : Members) : List Str := sortedTexts (m.map (·.1))

/-- `_canonical` -/
def canonical (p : Platform) (v : Json) : Except OpenapiError Str :=
  (dumps ⟨true, true, lit ",", lit ":"⟩ p.recursionLimit v.sorted).mapError fun
    | .value => .value
    | .recursion => .recursion

/-- `_attributes` -/
def attributes (p : Platform) (value : Members) (fields : List String) :
    Except OpenapiError (List (Str × Str)) :=
  (fields.filterMap fun field => (member value field).map (lit field, ·)).mapM fun i => do
    return (i.1, ← canonical p i.2)

/-- `_append` -/
def append (facts : List OpenapiFact) (kind : OpenapiFactKind) (identifier pointer : Str)
    (attributes : List (Str × Str)) : Except OpenapiError (List OpenapiFact) :=
  if maxOpenapiFacts ≤ facts.length then .error (.factExtractionRejected "OPENAPI_FACT_LIMIT")
  else .ok (facts ++ [⟨kind, identifier, pointer, attributes⟩])

/-- The fact of an `enum` in a schema. -/
def appendEnum (p : Platform) (facts : List OpenapiFact) (identifier pointer : Str)
    (schema : Members) : Except OpenapiError (List OpenapiFact) :=
  match member schema "enum" with
  | some v => do
    append facts .enum (identifier ++ lit "::enum") pointer [(lit "values", ← canonical p v)]
  | none => .ok facts

/-- The fact of one limit in a schema. -/
def appendLimit (p : Platform) (identifier pointer : Str) (schema : Members)
    (facts : List OpenapiFact) (limit : Str) : Except OpenapiError (List OpenapiFact) :=
  match schema.lookup limit with
  | some v => do
    append facts .limit (identifier ++ lit "::" ++ limit) pointer [(lit "value", ← canonical p v)]
  | none => .ok facts

/-- `_extract_schema`, with so many nested calls left. -/
def extractSchema (p : Platform) : Nat → List OpenapiFact → Str → Str → Members →
    Except OpenapiError (List OpenapiFact)
  | 0, _, _, _, _ => .error .recursion
  | calls + 1, facts, identifier, pointer, schema => do
    let facts ← append facts .schema identifier pointer
      (← attributes p schema ["type", "format", "nullable", "$ref"])
    let facts ← appendEnum p facts identifier pointer schema
    let facts ← limitFields.foldlM (appendLimit p identifier pointer schema) facts
    let properties := mapping (member schema "properties")
    let facts ← (sortedKeys properties).foldlM (fun facts name =>
      let nested := mapping (properties.lookup name)
      if nested.isEmpty then .ok facts
      else extractSchema p calls facts (identifier ++ lit "." ++ name)
        (pointer ++ lit "/properties/" ++ escape name) nested) facts
    let items := mapping (member schema "items")
    if items.isEmpty then .ok facts
    else extractSchema p calls facts (identifier ++ lit "[]") (pointer ++ lit "/items") items

/-- A schema that says something. -/
def extractSchemaOf (p : Platform) (facts : List OpenapiFact) (identifier pointer : Str)
    (schema : Members) : Except OpenapiError (List OpenapiFact) :=
  if schema.isEmpty then .ok facts
  else extractSchema p p.recursionLimit facts identifier pointer schema

/-- What a parameter is called within its scope. -/
def parameterIdentifier (scope : Str) (index : Nat) (parameter : Members) : Str :=
  match member parameter "name", member parameter "in" with
  | some (.str name), some (.str location) => scope ++ lit "::" ++ location ++ lit ":" ++ name
  | _, _ => scope ++ lit "::parameter[" ++ digits index ++ lit "]"

/-- One item of `_extract_parameters`. -/
def extractParameter (p : Platform) (scope pointer : Str) (facts : List OpenapiFact)
    (item : Json × Nat) : Except OpenapiError (List OpenapiFact) := do
  let parameter := mapping (some item.1)
  let itemPointer := pointer ++ lit "/parameters/" ++ digits item.2
  let identifier := parameterIdentifier scope item.2 parameter
  let facts ← append facts .parameter identifier itemPointer
    (← attributes p parameter ["name", "in", "required", "$ref"])
  extractSchemaOf p facts (lit "parameter:" ++ identifier) (itemPointer ++ lit "/schema")
    (mapping (member parameter "schema"))

/-- `_extract_parameters` -/
def extractParameters (p : Platform) (facts : List OpenapiFact) (scope pointer : Str)
    (value : Option Json) : Except OpenapiError (List OpenapiFact) :=
  match value with
  | some (.list items) => items.zipIdx.foldlM (extractParameter p scope pointer) facts
  | _ => .ok facts

/-- The media types of a response, which are an attribute when there are any. -/
def mediaTypes (p : Platform) (content : Members) : Except OpenapiError (List (Str × Str)) :=
  if content.isEmpty then .ok []
  else do return [(lit "media_types", ← canonical p (.list ((sortedKeys content).map .str)))]

/-- One response of `_extract_responses`. -/
def extractResponse (p : Platform) (operationKey pointer : Str) (responses : Members)
    (facts : List OpenapiFact) (status : Str) : Except OpenapiError (List OpenapiFact) := do
  let response := mapping (responses.lookup status)
  let responsePointer := pointer ++ lit "/responses/" ++ escape status
  let identifier := operationKey ++ lit "::" ++ status
  let content := mapping (member response "content")
  let facts ← append facts .response identifier responsePointer
    ((← attributes p response ["$ref"]) ++ (← mediaTypes p content))
  (sortedKeys content).foldlM (fun facts mediaType =>
    extractSchemaOf p facts (lit "response:" ++ identifier ++ lit ":" ++ mediaType)
      (responsePointer ++ lit "/content/" ++ escape mediaType ++ lit "/schema")
      (mapping (member (mapping (content.lookup mediaType)) "schema"))) facts

/-- `_extract_responses` -/
def extractResponses (p : Platform) (facts : List OpenapiFact) (operationKey pointer : Str)
    (value : Option Json) : Except OpenapiError (List OpenapiFact) :=
  (sortedKeys (mapping value)).foldlM (extractResponse p operationKey pointer (mapping value)) facts

/-- `_extract_component_schemas` -/
def extractComponentSchemas (p : Platform) (facts : List OpenapiFact) (schemas : Members) :
    Except OpenapiError (List OpenapiFact) :=
  (sortedKeys schemas).foldlM (fun facts name =>
    extractSchemaOf p facts (lit "component:" ++ name) (lit "/components/schemas/" ++ escape name)
      (mapping (schemas.lookup name))) facts

/-- `_extract_security_schemes` -/
def extractSecuritySchemes (p : Platform) (facts : List OpenapiFact) (schemes : Members) :
    Except OpenapiError (List OpenapiFact) :=
  (sortedKeys schemes).foldlM (fun facts name => do
    append facts .security (lit "scheme:" ++ name)
      (lit "/components/securitySchemes/" ++ escape name)
      (← attributes p (mapping (schemes.lookup name))
        ["type", "scheme", "bearerFormat", "openIdConnectUrl", "$ref"])) facts

/-- The requirements that are extracted: a value of the document, or the tuple of the requirements
that an operation inherits. -/
inductive SecurityValue where
  | own (v : Option Json)
  | inherited (requirements : List Json)

/-- `_extract_security_requirements`; a tuple is no list. -/
def extractSecurityRequirements (p : Platform) (facts : List OpenapiFact) (scope pointer : Str)
    (value : SecurityValue) (inherited : Bool) : Except OpenapiError (List OpenapiFact) :=
  match value with
  | .own (some (.list requirements)) => do
    append facts .security (lit "requirement:" ++ scope) pointer
      [(lit "requirements", ← canonical p (.list requirements)),
        (lit "inherited", ← canonical p (.bool inherited))]
  | _ => .ok facts

/-- `str.upper` of a method. -/
def upperMethod (s : Str) : Str :=
  s.map fun c => if 0x61 ≤ c.val ∧ c.val ≤ 0x7A then Fin.ofNat _ (c.val - 0x20) else c

/-- The name of an operation: its method and its path. -/
def operationName (method path : Str) : Str := upperMethod method ++ lit " " ++ path

/-- One operation of `_extract_operations`. -/
def extractOperation (p : Platform) (inheritedSecurity : List Json) (path pathPointer : Str)
    (pathItem : Members) (facts : List OpenapiFact) (method : Str) :
    Except OpenapiError (List OpenapiFact) := do
  let operation := mapping (pathItem.lookup method)
  let operationKey := operationName method path
  let operationPointer := pathPointer ++ lit "/" ++ escape method
  let facts ← append facts .operation operationKey operationPointer
    (← attributes p operation ["operationId", "deprecated"])
  let facts ← extractParameters p facts operationKey operationPointer
    (member operation "parameters")
  let facts ← extractResponses p facts operationKey operationPointer (member operation "responses")
  let security := match member operation "security" with
    | some v => SecurityValue.own (some v)
    | none => .inherited inheritedSecurity
  extractSecurityRequirements p facts operationKey (operationPointer ++ lit "/security") security
    (member operation "security").isNone

/-- The methods of a path item, sorted. -/
def sortedMethods (pathItem : Members) : List Str :=
  sortedTexts ((pathItem.map (·.1)).filter isMethod)

/-- One path of `_extract_operations`. -/
def extractPath (p : Platform) (inheritedSecurity : List Json) (paths : Members)
    (facts : List OpenapiFact) (path : Str) : Except OpenapiError (List OpenapiFact) := do
  let pathItem := mapping (paths.lookup path)
  let pathPointer := lit "/paths/" ++ escape path
  let facts ← extractParameters p facts (lit "path:" ++ path) pathPointer
    (member pathItem "parameters")
  (sortedMethods pathItem).foldlM
    (extractOperation p inheritedSecurity path pathPointer pathItem) facts

/-- `_extract_operations` -/
def extractOperations (p : Platform) (facts : List OpenapiFact) (root : Members)
    (inheritedSecurity : List Json) : Except OpenapiError (List OpenapiFact) :=
  let paths := mapping (member root "paths")
  (sortedKeys paths).foldlM (extractPath p inheritedSecurity paths) facts

/-- The key of a fact as a pair of texts. -/
def keyTexts (key : OpenapiFactKind × Str) : List Str := [key.1.value, key.2]

/-- What `extract_openapi_facts` extracts of a parsed document, before it is sorted. -/
def extractRoot (p : Platform) (root : Members) (inheritedSecurity : List Json) :
    Except OpenapiError (List OpenapiFact) := do
  let facts ← extractSecurityRequirements p [] (lit "global") (lit "/security")
    (.own (member root "security")) false
  let components := mapping (member root "components")
  let facts ← extractSecuritySchemes p facts (mapping (member components "securitySchemes"))
  let facts ← extractComponentSchemas p facts (mapping (member components "schemas"))
  extractOperations p facts root inheritedSecurity

/-- `extract_openapi_facts` -/
def extractOpenapiFacts (p : Platform) (documentType : DocumentType) (raw : Bytes) :
    Except OpenapiError OpenapiFactsV1 := do
  let parsed ← parseOpenapi p documentType raw
  let (_, root) ← parseOpenapiRoot p documentType raw
  let facts ← extractRoot p root parsed.security
  return ⟨openapiFactSchemaVersion, parsed.version,
    sortByTexts (fun f => keyTexts f.key) facts⟩

/-! ## Differences -/

inductive OpenapiFactDifferenceKind where
  | added
  | removed
  | changed
deriving DecidableEq

structure OpenapiFactDifference where
  kind : OpenapiFactDifferenceKind
  factKind : OpenapiFactKind
  identifier : Str
  before : Option OpenapiFact
  after : Option OpenapiFact

/-- `_index_facts` -/
def indexFacts (facts : List OpenapiFact) :
    Except String (Dict (OpenapiFactKind × Str) OpenapiFact) :=
  let index := Dict.empty.update (facts.map fun f => (f.key, f))
  if index.size ≠ facts.length then
    .error "OpenAPI facts must have unique kind and identifier pairs"
  else .ok index

/-- The difference at one key. -/
def difference (left right : Option OpenapiFact) : Option OpenapiFactDifference :=
  match left, right with
  | none, some right => some ⟨.added, right.kind, right.identifier, none, some right⟩
  | some left, none => some ⟨.removed, left.kind, left.identifier, some left, none⟩
  | some left, some right =>
    if left = right then none
    else some ⟨.changed, left.kind, left.identifier, some left, some right⟩
  | none, none => none

/-- `diff_openapi_facts`; an error is the message of a `ValueError`. -/
def diffOpenapiFacts (before after : OpenapiFactsV1) :
    Except String (List OpenapiFactDifference) :=
  if before.schemaVersion ≠ openapiFactSchemaVersion ∨
      after.schemaVersion ≠ openapiFactSchemaVersion then
    .error "OpenAPI facts must use the supported schema version"
  else do
    let beforeIndex ← indexFacts before.facts
    let afterIndex ← indexFacts after.facts
    let keys := sortByTexts keyTexts (beforeIndex.update afterIndex.items).keys
    return keys.filterMap fun key => difference (beforeIndex.get? key) (afterIndex.get? key)

/-- The kinds and identifiers of the facts differ. -/
def UniqueFacts (facts : List OpenapiFact) : Prop := (facts.map (·.key)).Nodup

theorem indexFacts_isOk {facts : List OpenapiFact} :
    (∃ index, indexFacts facts = .ok index) ↔ UniqueFacts facts := by
  have sized : (Dict.empty.update (facts.map fun f => (f.key, f))).size = facts.length ↔
      UniqueFacts facts := by
    have indexed : (Dict.empty.update (facts.map fun f => (f.key, f))).size =
        (facts.map fun f => (f.key, f)).length ↔ _ := Dict.size_comprehension
    rwa [List.length_map, List.map_map] at indexed
  rw [← sized, indexFacts]
  split_ifs with differs
  · exact ⟨fun ⟨_, h⟩ => (nomatch h), fun same => absurd same differs⟩
  · exact ⟨fun _ => not_not.mp differs, fun _ => ⟨_, rfl⟩⟩

/-- Two lists of facts have a difference when the identifiers within each differ. -/
theorem diff_isOk {before after : OpenapiFactsV1}
    (known : before.schemaVersion = openapiFactSchemaVersion)
    (known' : after.schemaVersion = openapiFactSchemaVersion) :
    (∃ differences, diffOpenapiFacts before after = .ok differences) ↔
      UniqueFacts before.facts ∧ UniqueFacts after.facts := by
  rw [diffOpenapiFacts, if_neg (by simp [known, known']), ← indexFacts_isOk, ← indexFacts_isOk]
  constructor
  · rintro ⟨differences, h⟩
    obtain ⟨beforeIndex, first, h⟩ := bind_ok.mp h
    obtain ⟨afterIndex, second, -⟩ := bind_ok.mp h
    exact ⟨⟨beforeIndex, first⟩, ⟨afterIndex, second⟩⟩
  · rintro ⟨⟨beforeIndex, first⟩, ⟨afterIndex, second⟩⟩
    rw [first, second]
    exact ⟨_, rfl⟩

end QaCopilot.Openapi
