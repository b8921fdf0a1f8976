import QaCopilot.Python.SortedTexts
import QaCopilot.Python.StrictLoads
import QaCopilot.Python.Words

/-!
# The OpenAPI parser

`openapi_parser.py`: an OpenAPI document that is read from JSON or YAML, within limits.

* `parseOpenapiRoot_keys`: no mapping of an accepted document repeats a key.
-/

namespace QaCopilot.Openapi

open QaCopilot.Python QaCopilot.Results

def maxDepth : Nat := 40

def maxNodes : Nat := 25000

def maxMembers : Nat := 10000

def maxScalarLength : Nat := 64 * 1024

def maxReferences : Nat := 500

def maxOperations : Nat := 500

def maxComponents : Nat := 5000

/-- `_METHODS` -/
def methods : List Str :=
  [lit "get", lit "put", lit "post", lit "delete", lit "options", lit "head", lit "patch",
    lit "trace"]

/-- `OpenApiParseRejected` and `OpenApiFactExtractionRejected` by their codes, and the `ValueError`
and `RecursionError` that nothing catches. -/
inductive OpenapiError where
  | parseRejected (code : String)
  | factExtractionRejected (code : String)
  | value
  | recursion
deriving DecidableEq

def rejectWhen (c : Bool) (code : String) : Except OpenapiError Unit :=
  if c then .error (.parseRejected code) else .ok ()

@[simp] theorem rejectWhen_ok {c : Bool} {code : String} {u : Unit} :
    rejectWhen c code = .ok u ↔ c = false := by
  cases c <;> simp [rejectWhen]

/-- The items of a mapping whose keys are all text. -/
abbrev Members := List (Str × Json)

/-- `dict.get` -/
def member (m : Members) (key : String) : Option Json := m.lookup (lit key)

inductive DocumentType where
  | openapiJson
  | openapiYaml
  | other
deriving DecidableEq

/-! ## YAML -/

inductive YamlToken where
  | directive
  | documentStart
  | documentEnd
  | anchor
  | alias
  | tag
  | other
deriving DecidableEq

/-- A node with its tag, and whether it has an anchor. -/
inductive YamlNode where
  | scalar (tag value : Str) (anchored : Bool)
  | sequence (tag : Str) (anchored : Bool) (items : List YamlNode)
  | mapping (tag : Str) (anchored : Bool) (items : List (YamlNode × YamlNode))

/-- `yaml.scan`, whose tokens may end in a `YAMLError`, and `yaml.compose`. -/
structure Yaml where
  scan : Str → List YamlToken × Bool
  compose : Str → Except Unit (Option YamlNode)

/-- PyYAML, and how deep Python calls may nest. -/
structure Platform where
  yaml : Yaml
  recursionLimit : Nat

def yamlTag (name : String) : Str := lit "tag:yaml.org,2002:" ++ lit name

def yamlTags : List Str :=
  [yamlTag "map", yamlTag "seq", yamlTag "str", yamlTag "int", yamlTag "float", yamlTag "bool",
    yamlTag "null"]

/-- What the caller of `json.loads` sees: a `JSONDecodeError` and the errors of the hooks become a
rejection, other errors pass. -/
def rejectDecode (code : String) : LoadsError → OpenapiError
  | .decode => .parseRejected code
  | .value => .value
  | .recursion => .recursion

/-- The value is of the type that the tag names. -/
def hasTag (tag : Str) : Json → Bool
  | .null => tag = yamlTag "null"
  | .bool _ => tag = yamlTag "bool"
  | .int _ => tag = yamlTag "int"
  | .float (.finite _) => tag = yamlTag "float"
  | _ => false

/-- `_yaml_scalar_to_json` -/
def yamlScalarToJson (p : Platform) (tag value : Str) : Except OpenapiError Json :=
  if tag = yamlTag "str" then .ok (.str value)
  else do
    let v ← (loadsFinite p.recursionLimit value).mapError (rejectDecode "OPENAPI_YAML_SCALAR_INVALID")
    rejectWhen (!hasTag tag v) "OPENAPI_YAML_SCALAR_INVALID"
    return v

/-- The checks of `_yaml_node_to_json` on any node. -/
def checkNode (tag : Str) (anchored : Bool) : Except OpenapiError Unit :=
  rejectWhen (anchored || !yamlTags.contains tag) "OPENAPI_YAML_TAG_OR_ALIAS_UNSUPPORTED"

mutual

/-- `_yaml_node_to_json` -/
def yamlNodeToJson (p : Platform) : YamlNode → Except OpenapiError Json
  | .scalar tag value anchored => do
    rejectWhen (value = lit "<<") "OPENAPI_YAML_KEY_OR_MERGE_INVALID"
    checkNode tag anchored
    yamlScalarToJson p tag value
  | .sequence tag anchored items => do
    checkNode tag anchored
    return .list (← yamlNodesToJson p items)
  | .mapping tag anchored items => do
    checkNode tag anchored
    return .dict (← yamlItemsToJson p [] items)

def yamlNodesToJson (p : Platform) : List YamlNode → Except OpenapiError (List Json)
  | [] => .ok []
  | node :: nodes => do
    let v ← yamlNodeToJson p node
    return v :: (← yamlNodesToJson p nodes)

/-- The items of a mapping after those that were read. -/
def yamlItemsToJson (p : Platform) (value : Members) :
    List (YamlNode × YamlNode) → Except OpenapiError Members
  | [] => .ok value
  | (keyNode, valueNode) :: items => do
    let key ← yamlNodeToJson p keyNode
    match key with
    | .str key =>
      rejectWhen ((value.map (·.1)).contains key || key = lit "<<")
        "OPENAPI_YAML_KEY_OR_MERGE_INVALID"
      let v ← yamlNodeToJson p valueNode
      yamlItemsToJson p (value ++ [(key, v)]) items
    | _ => .error (.parseRejected "OPENAPI_YAML_KEY_OR_MERGE_INVALID")

end

/-- A token that no document may have. -/
def checkToken : YamlToken → Except OpenapiError Unit
  | .directive | .documentStart | .documentEnd =>
    .error (.parseRejected "OPENAPI_YAML_DIRECTIVE_OR_MULTIDOCUMENT")
  | .anchor | .alias | .tag => .error (.parseRejected "OPENAPI_YAML_TAG_OR_ALIAS_UNSUPPORTED")
  | .other => .ok ()

/-- `_load_yaml` -/
def loadYaml (p : Platform) (text : Str) : Except OpenapiError Json := do
  let (tokens, fails) := p.yaml.scan text
  tokens.forM checkToken
  rejectWhen fails "OPENAPI_YAML_SYNTAX_INVALID"
  match p.yaml.compose text with
  | .error () => .error (.parseRejected "OPENAPI_YAML_SYNTAX_INVALID")
  | .ok none => .error (.parseRejected "OPENAPI_YAML_EMPTY")
  | .ok (some node) => yamlNodeToJson p node

/-- `_load_json` -/
def loadJson (p : Platform) (text : Str) : Except OpenapiError Json :=
  (loadsStrict p.recursionLimit text).mapError (rejectDecode "OPENAPI_JSON_SYNTAX_INVALID")

/-! ## Limits -/

/-- What `_validate_value` asks of any value: the number of nodes with this one. -/
def countNode (depth nodes : Nat) : Except OpenapiError Nat := do
  rejectWhen (maxDepth < depth || maxNodes < nodes + 1) "OPENAPI_STRUCTURE_LIMIT"
  return nodes + 1

/-- `_validate_value` of a text. -/
def validateText (depth nodes : Nat) (s : Str) : Except OpenapiError Nat := do
  let nodes ← countNode depth nodes
  rejectWhen (maxScalarLength < s.length) "OPENAPI_SCALAR_LIMIT"
  return nodes

mutual

/-- `_validate_value`, after so many nodes; it counts the nodes. -/
def validateValue (depth nodes : Nat) : Json → Except OpenapiError Nat
  | .dict items => do
    let nodes ← countNode depth nodes
    rejectWhen (maxMembers < items.length) "OPENAPI_COLLECTION_LIMIT"
    validateItems (depth + 1) nodes items
  | .list xs => do
    let nodes ← countNode depth nodes
    rejectWhen (maxMembers < xs.length) "OPENAPI_COLLECTION_LIMIT"
    validateValues (depth + 1) nodes xs
  | .str s => validateText depth nodes s
  | _ => countNode depth nodes

def validateValues (depth nodes : Nat) : List Json → Except OpenapiError Nat
  | [] => .ok nodes
  | v :: vs => do
    let nodes ← validateValue depth nodes v
    validateValues depth nodes vs

def validateItems (depth nodes : Nat) : Members → Except OpenapiError Nat
  | [] => .ok nodes
  | (key, v) :: items => do
    let nodes ← validateText depth nodes key
    let nodes ← validateValue depth nodes v
    validateItems depth nodes items

end

/-! ## References -/

/-- A reference into the document itself. -/
def isReference : Json → Bool
  | .str s => (lit "#/").isPrefixOf s && !s.contains (CodePoint.ofChar '%')
  | _ => false

mutual

/-- `visit` of `_validate_references`, which counts the references. -/
def visitReferences (refs : Nat) : Json → Except OpenapiError Nat
  | .dict items => visitItems refs items
  | .list xs => visitValues refs xs
  | _ => .ok refs

def visitValues (refs : Nat) : List Json → Except OpenapiError Nat
  | [] => .ok refs
  | v :: vs => do
    let refs ← visitReferences refs v
    visitValues refs vs

def visitItems (refs : Nat) : Members → Except OpenapiError Nat
  | [] => .ok refs
  | (key, child) :: items => do
    rejectWhen (key = lit "$dynamicRef") "OPENAPI_DYNAMIC_REFERENCE_UNSUPPORTED"
    rejectWhen (key = lit "$ref" && !isReference child) "OPENAPI_REFERENCE_UNSUPPORTED"
    let refs ← visitReferences (if key = lit "$ref" then refs + 1 else refs) child
    visitItems refs items

end

/-- `_validate_references` -/
def validateReferences (v : Json) : Except OpenapiError Unit := do
  let refs ← visitReferences 0 v
  rejectWhen (maxReferences < refs) "OPENAPI_REFERENCE_LIMIT"

/-! ## The document -/

/-- `value.get(key, {})`, which must be a mapping. -/
def memberMapping (m : Members) (key : String) (code : String) : Except OpenapiError Members :=
  match member m key with
  | none => .ok []
  | some (.dict items) => .ok items
  | some _ => .error (.parseRejected code)

/-- The schemas of the components, within their limit. -/
def componentSchemas (value : Members) : Except OpenapiError Members := do
  let components ← memberMapping value "components" "OPENAPI_COMPONENTS_OBJECT_REQUIRED"
  let schemas ← memberMapping components "schemas" "OPENAPI_SCHEMAS_OBJECT_REQUIRED"
  rejectWhen (maxComponents < schemas.length) "OPENAPI_COMPONENT_LIMIT"
  return schemas

def loadText (p : Platform) (documentType : DocumentType) (text : Str) : Except OpenapiError Json :=
  if documentType = .openapiJson then loadJson p text else loadYaml p text

/-- `_parse_openapi_root` -/
def parseOpenapiRoot (p : Platform) (documentType : DocumentType) (raw : Bytes) :
    Except OpenapiError (Str × Members) := do
  rejectWhen (documentType = .other) "OPENAPI_DOCUMENT_TYPE_UNSUPPORTED"
  match decodeUtf8 raw with
  | none => .error (.parseRejected "OPENAPI_TEXT_ENCODING_INVALID")
  | some text =>
    let v ← loadText p documentType text
    let _ ← validateValue 0 0 v
    match v with
    | .dict value =>
      match member value "openapi" with
      | some (.str version) =>
        rejectWhen (!((lit "3.0.").isPrefixOf version || (lit "3.1.").isPrefixOf version))
          "OPENAPI_VERSION_UNSUPPORTED"
        validateReferences v
        let _ ← memberMapping value "paths" "OPENAPI_PATHS_OBJECT_REQUIRED"
        let _ ← componentSchemas value
        return (version, value)
      | _ => .error (.parseRejected "OPENAPI_VERSION_UNSUPPORTED")
    | _ => .error (.parseRejected "OPENAPI_ROOT_OBJECT_REQUIRED")

/-- `str.lower` of a method. A text is lowered to a method exactly when this lowers it to that
method: no other character is lowered to a letter of a method. -/
def lowerMethod (s : Str) : Str :=
  s.map fun c => if 0x41 ≤ c.val ∧ c.val ≤ 0x5A then Fin.ofNat _ (c.val + 0x20) else c

def isMethod (s : Str) : Bool := methods.contains (lowerMethod s)

/-- `_escape` -/
def escape (s : Str) : Str := replaceAll (lit "/") (lit "~1") (replaceAll (lit "~") (lit "~0") s)

/-- `_security`; what is no list gives no requirement. -/
def security : Option Json → List Json
  | some (.list xs) => xs
  | _ => []

structure OpenapiOperation where
  path : Str
  method : Str
  jsonPointer : Str
  security : List Json

structure OpenapiSchema where
  name : Str
  jsonPointer : Str

structure ParsedOpenapi where
  version : Str
  operations : List OpenapiOperation
  schemas : List OpenapiSchema
  security : List Json

/-- The operations of one path item. -/
def pathOperations (value : Members) (path : Str) (pathItem : Members) :
    Except OpenapiError (List OpenapiOperation) :=
  (pathItem.filter fun item => isMethod item.1).mapM fun item =>
    match item.2 with
    | .dict operation =>
      .ok ⟨path, lowerMethod item.1, lit "/paths/" ++ escape path ++ lit "/" ++ item.1,
        security ((member operation "security").or (member value "security"))⟩
    | _ => .error (.parseRejected "OPENAPI_OPERATION_INVALID")

/-- `parse_openapi` -/
def parseOpenapi (p : Platform) (documentType : DocumentType) (raw : Bytes) :
    Except OpenapiError ParsedOpenapi := do
  let (version, value) ← parseOpenapiRoot p documentType raw
  let paths ← memberMapping value "paths" "OPENAPI_PATHS_OBJECT_REQUIRED"
  let operations ← paths.mapM fun item =>
    match item.2 with
    | .dict pathItem =>
      if (lit "/").isPrefixOf item.1 then pathOperations value item.1 pathItem
      else .error (.parseRejected "OPENAPI_PATH_ITEM_INVALID")
    | _ => .error (.parseRejected "OPENAPI_PATH_ITEM_INVALID")
  rejectWhen (maxOperations < operations.flatten.length) "OPENAPI_OPERATION_LIMIT"
  let schemas ← componentSchemas value
  return ⟨version, operations.flatten,
    schemas.map fun item => ⟨item.1, lit "/components/schemas/" ++ escape item.1⟩,
    security (member value "security")⟩

/-! ## Keys -/

theorem distinctKeys_dict {m : Members} : (Json.dict m).check .distinctKeys = true ↔
    (m.map (·.1)).Nodup ∧ ∀ i ∈ m, i.2.check .distinctKeys = true := by
  simp only [Json.check, Bool.and_eq_true, Check.distinctKeys, decide_eq_true_eq]
  rw [← Check.distinctKeys, checkItems_eq_true]

theorem distinctKeys_yamlScalar {p : Platform} {tag value : Str} {v : Json}
    (h : yamlScalarToJson p tag value = .ok v) : v.check .distinctKeys = true := by
  unfold yamlScalarToJson at h
  split_ifs at h
  · exact Except.ok.inj h ▸ rfl
  · obtain ⟨w, -, h⟩ := bind_ok.mp h
    obtain ⟨_, kept, h⟩ := bind_ok.mp h
    obtain rfl := Except.ok.inj h
    rw [rejectWhen_ok, Bool.not_eq_false'] at kept
    cases w with
    | list | dict => cases kept
    | null | bool | int | float | str => rfl

mutual

theorem distinctKeys_yamlNode {p : Platform} (node : YamlNode) {v : Json}
    (h : yamlNodeToJson p node = .ok v) : v.check .distinctKeys = true := by
  match node with
  | .scalar tag value anchored =>
    rw [yamlNodeToJson] at h
    obtain ⟨_, -, h⟩ := bind_ok.mp h
    obtain ⟨_, -, h⟩ := bind_ok.mp h
    exact distinctKeys_yamlScalar h
  | .sequence tag anchored items =>
    rw [yamlNodeToJson] at h
    obtain ⟨_, -, h⟩ := bind_ok.mp h
    obtain ⟨vs, read, h⟩ := bind_ok.mp h
    obtain rfl := Except.ok.inj h
    exact checkList_eq_true.mpr (distinctKeys_yamlNodes items read)
  | .mapping tag anchored items =>
    rw [yamlNodeToJson] at h
    obtain ⟨_, -, h⟩ := bind_ok.mp h
    obtain ⟨m, read, h⟩ := bind_ok.mp h
    obtain rfl := Except.ok.inj h
    exact distinctKeys_yamlItems items (by rfl) read

theorem distinctKeys_yamlNodes {p : Platform} (nodes : List YamlNode) {vs : List Json}
    (h : yamlNodesToJson p nodes = .ok vs) : ∀ v ∈ vs, v.check .distinctKeys = true := by
  match nodes with
  | [] =>
    obtain rfl := Except.ok.inj h
    nofun
  | node :: nodes =>
    rw [yamlNodesToJson] at h
    obtain ⟨v, first, h⟩ := bind_ok.mp h
    obtain ⟨vs', later, h⟩ := bind_ok.mp h
    obtain rfl := Except.ok.inj h
    exact List.forall_mem_cons.mpr
      ⟨distinctKeys_yamlNode node first, distinctKeys_yamlNodes nodes later⟩

theorem distinctKeys_yamlItems {p : Platform} (items : List (YamlNode × YamlNode)) {before m : Members}
    (kept : (Json.dict before).check .distinctKeys = true)
    (h : yamlItemsToJson p before items = .ok m) : (Json.dict m).check .distinctKeys = true := by
  match items with
  | [] => exact Except.ok.inj h ▸ kept
  | (keyNode, valueNode) :: items =>
    rw [yamlItemsToJson] at h
    obtain ⟨key, -, h⟩ := bind_ok.mp h
    cases key with
    | str key =>
      obtain ⟨_, isNew, h⟩ := bind_ok.mp h
      obtain ⟨v, read, h⟩ := bind_ok.mp h
      refine distinctKeys_yamlItems items ?_ h
      rw [rejectWhen_ok, Bool.or_eq_false_iff] at isNew
      obtain ⟨keys, values⟩ := distinctKeys_dict.mp kept
      refine distinctKeys_dict.mpr ⟨?_, ?_⟩
      · rw [List.map_append, List.map_singleton, ← List.concat_eq_append, List.nodup_concat]
        refine ⟨?_, keys⟩
        simpa using isNew.1
      · exact List.forall_mem_append.mpr
          ⟨values, List.forall_mem_singleton.mpr (distinctKeys_yamlNode valueNode read)⟩
    | null | bool | int | float | list | dict => cases h

end

theorem distinctKeys_loadYaml {p : Platform} {text : Str} {v : Json} (h : loadYaml p text = .ok v) :
    v.check .distinctKeys = true := by
  unfold loadYaml at h
  obtain ⟨_, -, h⟩ := bind_ok.mp h
  obtain ⟨_, -, h⟩ := bind_ok.mp h
  split at h
  · cases h
  · cases h
  · exact distinctKeys_yamlNode _ h

theorem parseOpenapiRoot_keys {p : Platform} {documentType : DocumentType} {raw : Bytes}
    {version : Str} {value : Members}
    (h : parseOpenapiRoot p documentType raw = .ok (version, value)) :
    (Json.dict value).check .distinctKeys = true := by
  unfold parseOpenapiRoot at h
  obtain ⟨_, -, h⟩ := bind_ok.mp h
  split at h
  · cases h
  · obtain ⟨v, read, h⟩ := bind_ok.mp h
    have distinct : v.check .distinctKeys = true := by
      unfold loadText at read
      split_ifs at read
      · exact distinctKeys_loadsStrict (mapError_ok.mp read)
      · exact distinctKeys_loadYaml read
    obtain ⟨_, -, h⟩ := bind_ok.mp h
    split at h
    · split at h
      · obtain ⟨_, -, h⟩ := bind_ok.mp h
        obtain ⟨_, -, h⟩ := bind_ok.mp h
        obtain ⟨_, -, h⟩ := bind_ok.mp h
        obtain ⟨_, -, h⟩ := bind_ok.mp h
        obtain ⟨-, rfl⟩ := Prod.mk.inj (Except.ok.inj h)
        exact distinct
      · cases h
    · cases h

end QaCopilot.Openapi
