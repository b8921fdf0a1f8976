import QaCopilot.Execution.TestBodies
import QaCopilot.Python.DecodedValues

/-!
# The payloads of generated tests

* `validate_asPayload`: the payload of an accepted test is accepted as that test;
* `revalidated`: so is the payload that comes back from its JSON text, when the first payload was read
  from JSON.
-/

namespace QaCopilot.Execution

open Python Results

variable {decimal : CodePoint → Option Nat}

/-! ## Reading again -/

theorem text_again {value : Object} {label : String} {s : Str} (h : text value label = .ok s) :
    text (.str s) label = .ok s := by
  obtain ⟨t, -, rfl, bounded⟩ := text_ok.mp h
  exact text_ok.mpr ⟨strip t, rfl, strip_strip t, bounded⟩

theorem uuid_again (u : Uuid) (label : String) :
    uuid decimal (.str (uuidText u)) label = .ok u := by
  simp only [uuid, Object.str?, Option.bind_eq_bind, Option.bind_some, parseUuid_uuidText]

theorem enum_again {T : Type} {members : List T} {name : T → Str}
    (found : ∀ t, members.find? (name · = name t) = some t) (t : T) (label : String) :
    enum members name (.str (name t)) label = .ok t := by
  simp only [enum, Object.str?, Option.bind_eq_bind, Option.bind_some, found t]

theorem method_again (m : HttpMethod) (label : String) :
    enum HttpMethod.all HttpMethod.value (.str m.value) label = .ok m :=
  enum_again (fun t => by cases t <;> decide) m label

theorem kind_again (k : GeneratedTestKind) (label : String) :
    enum GeneratedTestKind.all GeneratedTestKind.value (.str k.value) label = .ok k :=
  enum_again (fun t => by cases t <;> decide) k label

/-- A loop reads again what it read, when each item does. -/
theorem mapM_again {T : Type} {read : Object → Validated T} {render : T → Object}
    (again : ∀ item t, read item = .ok t → read (render t) = .ok t) {items : List Object} {ts : List T}
    (h : items.mapM read = .ok ts) : (ts.map render).mapM read = .ok ts := by
  rw [mapM_ok, List.forall₂_map_left_iff, List.forall₂_same]
  intro t ht
  obtain ⟨item, -, made⟩ := forall₂_mem (mapM_ok.mp h) ht
  exact again item t made

theorem fields_toItems (items : List (Str × Json)) :
    (Object.dict (Json.toItems items)).fields? = some (items.map fun i => (i.1, i.2.toObject)) := by
  have texts : ∀ items : List (Str × Json),
      (items.map fun i => ((.str i.1 : Object), i.2.toObject)).mapM
        (fun i => do return (← i.1.str?, i.2)) = some (items.map fun i => (i.1, i.2.toObject)) := by
    intro items
    induction items with
    | nil => rfl
    | cons i items ih =>
      rw [List.map_cons, List.mapM_cons, ih]
      rfl
  rw [toItems_eq]
  exact texts items

/-- Items with the fields that are expected pass. -/
theorem requireExactFields_items {items : List (Str × Json)} {expected : List Str}
    (same : items.map (·.1) = expected) (label : String) :
    requireExactFields (Json.toItems items) expected label =
      .ok (items.map fun i => (i.1, i.2.toObject)) := by
  have keys : Fields.keys (items.map fun i => (i.1, i.2.toObject)) = expected := by
    rw [Fields.keys, List.map_map]
    exact same
  rw [requireExactFields, fields_toItems]
  simp only [keys]
  rw [if_pos (by simp)]

/-! ## Requests -/

theorem parameter_again {label valueLabel : String} {readName : Object → Validated Str}
    (nameAgain : ∀ value s, readName value = .ok s → readName (.str s) = .ok s) (item : Object)
    (p : RequestParameter) (h : readParameter label readName valueLabel item = .ok p) :
    readParameter label readName valueLabel p.asPayload.toObject = .ok p := by
  obtain ⟨_, _, -, -, named, valued⟩ := readParameter_ok.mp h
  let items : List (Str × Json) := [(lit "name", .str p.name), (lit "value", .str p.value)]
  have fields : requireExactFields (Json.toItems items) parameterFields label =
      .ok (items.map fun i => (i.1, i.2.toObject)) := requireExactFields_items rfl label
  have payload : p.asPayload.toObject = .dict (Json.toItems items) := rfl
  exact readParameter_ok.mpr ⟨_, _, payload, fields, nameAgain _ _ named, text_again valued⟩

theorem requestPath_again {value : Object} {path : Str} (h : requestPath value = .ok path) :
    requestPath (.str path) = .ok path := by
  obtain ⟨s, read, h⟩ := bind_ok.mp h
  obtain ⟨_, short, h⟩ := bind_ok.mp h
  obtain ⟨_, relative, h⟩ := bind_ok.mp h
  obtain rfl := Except.ok.inj h
  rw [requestPath, text_again read, ok_bind, short, ok_bind, relative]
  rfl

theorem headerName_again (value : Object) (name : Str) (h : headerName value = .ok name) :
    headerName (.str name) = .ok name := by
  obtain ⟨s, read, h⟩ := bind_ok.mp h
  obtain ⟨_, allowed, h⟩ := bind_ok.mp h
  obtain ⟨_, open', h⟩ := bind_ok.mp h
  obtain rfl := Except.ok.inj h
  rw [headerName, text_again read, ok_bind, allowed, ok_bind, open']
  rfl

theorem parameterName_again (label : String) (value : Object) (name : Str)
    (h : parameterName value label = .ok name) : parameterName (.str name) label = .ok name := by
  obtain ⟨s, read, h⟩ := bind_ok.mp h
  obtain ⟨_, short, h⟩ := bind_ok.mp h
  obtain rfl := Except.ok.inj h
  rw [parameterName, text_again read, ok_bind, short]
  rfl

/-- A list of parameters as a value. -/
def parametersPayload (ps : List RequestParameter) : Object :=
  .list (ps.map fun p => p.asPayload.toObject)

theorem queryParameters_again {value : Object} {ps : List RequestParameter}
    (h : queryParameters value = .ok ps) : queryParameters (parametersPayload ps) = .ok ps := by
  obtain ⟨items, -, few, read, distinct⟩ := queryParameters_ok.mp h
  have again := mapM_again (parameter_again (parameterName_again "Request query name")) read
  refine queryParameters_ok.mpr ⟨_, rfl, ?_, again, distinct⟩
  rwa [List.length_map, ← (mapM_ok.mp read).length_eq]

theorem requestHeaders_again {value : Object} {ps : List RequestParameter}
    (h : requestHeaders value = .ok ps) : requestHeaders (parametersPayload ps) = .ok ps := by
  obtain ⟨items, -, few, read, distinct⟩ := requestHeaders_ok.mp h
  have again := mapM_again (parameter_again headerName_again) read
  refine requestHeaders_ok.mpr ⟨_, rfl, ?_, again, distinct⟩
  rwa [List.length_map, ← (mapM_ok.mp read).length_eq]

/-! ## Bodies -/

/-- Members that are read again as they are. -/
theorem jsonItems_again {depth : Nat} (members : List (Str × Json))
    (all : ∀ i ∈ members, jsonKey (.str i.1) = .ok i.1 ∧ jsonValue depth i.2.toObject = .ok i.2) :
    jsonItems depth (Json.toItems members) = .ok members := by
  induction members with
  | nil => rfl
  | cons i members ih =>
    obtain ⟨⟨key, value⟩, rest⟩ := List.forall_mem_cons.mp all
    rw [Json.toItems, jsonItems, key, ok_bind, value, ok_bind, ih rest]
    rfl

theorem length_toItems (items : List (Str × Json)) : (Json.toItems items).length = items.length := by
  rw [toItems_eq, List.length_map]

/-- The members of a comprehension are few when those that were read are. -/
theorem few_comprehension {items : List (Object × Object)} {members : List (Str × Json)} {depth : Nat}
    {label : String} (read : jsonItems depth items = .ok members)
    (few : rejectWhen (maxJsonItems < items.length) label = .ok ()) :
    rejectWhen (maxJsonItems < (Json.toItems (Dict.empty.update members).items).length) label = .ok () := by
  have short := Dict.length_comprehension_le members
  rw [rejectWhen_ok, decide_eq_false_iff_not] at few ⊢
  rw [length_toItems]
  rw [jsonItems_length read] at short
  omega

mutual

theorem jsonValue_again (value : Object) {depth : Nat} {v : Json} (h : jsonValue depth value = .ok v) :
    jsonValue depth v.toObject = .ok v := by
  match value with
  | .none | .bool _ | .int _ =>
    obtain ⟨_, shallow, h'⟩ := bind_ok.mp h
    obtain rfl := Except.ok.inj h'
    exact h
  | .str _ | .float _ =>
    obtain ⟨_, shallow, h'⟩ := bind_ok.mp h
    obtain ⟨_, bounded, h'⟩ := bind_ok.mp h'
    obtain rfl := Except.ok.inj h'
    exact h
  | .list items =>
    obtain ⟨_, shallow, h⟩ := bind_ok.mp h
    obtain ⟨_, few, h⟩ := bind_ok.mp h
    obtain ⟨vs, read, h⟩ := bind_ok.mp h
    obtain rfl := Except.ok.inj h
    obtain ⟨again, length⟩ := jsonValues_again items read
    rw [← length] at few
    rw [Json.toObject, jsonValue, shallow, ok_bind, few, ok_bind, again]
    rfl
  | .dict items =>
    obtain ⟨_, shallow, h⟩ := bind_ok.mp h
    obtain ⟨_, few, h⟩ := bind_ok.mp h
    obtain ⟨members, read, h⟩ := bind_ok.mp h
    obtain rfl := Except.ok.inj h
    have all := jsonItems_members items read
    have again := jsonItems_again (Dict.empty.update members).items fun i hi =>
      all i (Dict.mem_comprehension hi)
    rw [Json.toObject, jsonValue, shallow, ok_bind, few_comprehension read few, ok_bind, again, ok_bind,
      Dict.items_comprehension (Dict.nodup_keys _)]
    rfl
  | .other n =>
    obtain ⟨_, -, h⟩ := bind_ok.mp h
    cases h

theorem jsonValues_again (items : List Object) {depth : Nat} {vs : List Json}
    (h : jsonValues depth items = .ok vs) :
    jsonValues depth (Json.toObjects vs) = .ok vs ∧ (Json.toObjects vs).length = items.length := by
  match items with
  | [] =>
    obtain rfl := Except.ok.inj h
    exact ⟨rfl, rfl⟩
  | item :: items =>
    obtain ⟨v, first, h⟩ := bind_ok.mp h
    obtain ⟨vs', later, h⟩ := bind_ok.mp h
    obtain rfl := Except.ok.inj h
    obtain ⟨again, length⟩ := jsonValues_again items later
    constructor
    · rw [Json.toObjects, jsonValues, jsonValue_again item first, ok_bind, again]
      rfl
    · exact congrArg (· + 1) length

theorem jsonItems_members (items : List (Object × Object)) {depth : Nat} {members : List (Str × Json)}
    (h : jsonItems depth items = .ok members) :
    ∀ i ∈ members, jsonKey (.str i.1) = .ok i.1 ∧ jsonValue depth i.2.toObject = .ok i.2 := by
  match items with
  | [] =>
    obtain rfl := Except.ok.inj h
    nofun
  | (key, item) :: items =>
    obtain ⟨k, named, h⟩ := bind_ok.mp h
    obtain ⟨v, first, h⟩ := bind_ok.mp h
    obtain ⟨members', later, h⟩ := bind_ok.mp h
    obtain rfl := Except.ok.inj h
    have keyAgain : jsonKey (.str k) = .ok k := by
      cases key with
      | str s =>
        have read : text (.str s) "Request JSON key" = .ok k := named
        exact text_again read
      | none | bool | int | float | list | dict | other => cases named
    exact List.forall_mem_cons.mpr
      ⟨⟨keyAgain, jsonValue_again item first⟩, jsonItems_members items later⟩

end

theorem jsonBody_again {value : Object} {body : Option (List (Str × Json))}
    (h : jsonBody value = .ok body) : jsonBody (bodyPayload body).toObject = .ok body := by
  cases value with
  | none =>
    obtain rfl := Except.ok.inj h
    rfl
  | dict items =>
    obtain ⟨_, found, h⟩ := bind_ok.mp h
    obtain rfl := Except.ok.inj found
    obtain ⟨_, few, h⟩ := bind_ok.mp h
    obtain ⟨members, read, h⟩ := bind_ok.mp h
    obtain rfl := Except.ok.inj h
    have all := jsonItems_members items read
    have again := jsonItems_again (Dict.empty.update members).items fun i hi =>
      all i (Dict.mem_comprehension hi)
    simp only [bodyPayload, Json.toObject, jsonBody, mappingOf, ok_bind, few_comprehension read few, again,
      Dict.items_comprehension (Dict.nodup_keys _)]
    rfl
  | bool | int | float | str | list | other => cases h

/-! ## Assertions -/

theorem target_again (t : AssertionTarget) (label : String) :
    enum [.statusCode, .responseHeader, .jsonBody, .responseTimeMs] AssertionTarget.text
      (.str t.text) label = .ok t :=
  enum_again (fun t => by cases t <;> decide) t label

theorem operator_again (o : AssertionOperator) (label : String) :
    enum [.equals, .exists', .contains, .lessThanOrEqual] AssertionOperator.text (.str o.text) label =
      .ok o :=
  enum_again (fun t => by cases t <;> decide) o label

theorem selector_again {value : Object} {selector : Option Str}
    (h : optionalSelector value = .ok selector) :
    optionalSelector (selectorPayload selector).toObject = .ok selector := by
  unfold optionalSelector at h
  split at h
  · obtain rfl := Except.ok.inj h
    rfl
  · cases read : text value "Assertion selector" with
    | error e =>
      rw [read] at h
      cases h
    | ok s =>
      rw [read] at h
      obtain rfl := Except.ok.inj h
      simp only [selectorPayload, Json.toObject, optionalSelector, text_again read]
      rfl

theorem expectedValue_again {value : Object} {expected : ExpectedValue}
    (h : expectedValue value = .ok expected) : expectedValue expected.toJson.toObject = .ok expected := by
  unfold expectedValue at h
  split at h
  · obtain rfl := Except.ok.inj h
    rfl
  · obtain rfl := Except.ok.inj h
    rfl
  · obtain rfl := Except.ok.inj h
    rfl
  · split_ifs at h with long
    · cases h
    · obtain rfl := Except.ok.inj h
      simp only [ExpectedValue.toJson, Json.toObject, expectedValue, if_neg long]
  · obtain rfl := Except.ok.inj h
    rfl
  · cases h
  · cases h

theorem readAssertion_again (item : Object) (a : GeneratedAssertion) (h : readAssertion item = .ok a) :
    readAssertion a.asPayload.toObject = .ok a := by
  obtain ⟨_, _, -, -, read⟩ := readAssertion_ok.mp h
  let items : List (Str × Json) := [(lit "target", .str a.target.text),
    (lit "selector", selectorPayload a.selector), (lit "operator", .str a.operator.text),
    (lit "expected_value", a.expectedValue.toJson)]
  have fields : requireAssertionFields (Json.toItems items) =
      .ok (items.map fun i => (i.1, i.2.toObject)) := by
    have keys : Fields.keys (items.map fun i => (i.1, i.2.toObject)) = assertionFields := rfl
    rw [requireAssertionFields, fields_toItems]
    simp only [keys]
    rw [if_pos (by simp)]
  have payload : a.asPayload.toObject = .dict (Json.toItems items) := rfl
  exact readAssertion_ok.mpr ⟨_, _, payload, fields, {
    target := target_again a.target _
    selector := selector_again read.selector
    operator := operator_again a.operator _
    expected := expectedValue_again read.expected
    contract := read.contract }⟩

theorem readAssertions_again {value : Object} {assertions : List GeneratedAssertion}
    (h : readAssertions value = .ok assertions) :
    readAssertions (.list (assertions.map fun a => a.asPayload.toObject)) = .ok assertions := by
  obtain ⟨items, -, some', few, read, distinct⟩ := readAssertions_ok.mp h
  have again := mapM_again readAssertion_again read
  have length := (mapM_ok.mp read).length_eq
  refine readAssertions_ok.mpr ⟨_, rfl, ?_, ?_, again, distinct⟩
  · rw [← List.length_pos_iff, List.length_map, ← length]
    exact List.length_pos_iff.mpr some'
  · rwa [List.length_map, ← length]

/-! ## Test cases -/

theorem requestTemplate_again {value : Object} {r : RequestTemplate} (h : requestTemplate value = .ok r) :
    requestTemplate r.asPayload.toObject = .ok r := by
  obtain ⟨_, _, -, -, read⟩ := requestTemplate_ok.mp h
  let items : List (Str × Json) := [(lit "method", .str r.method.value), (lit "path", .str r.path),
    (lit "query", .list (r.query.map RequestParameter.asPayload)),
    (lit "headers", .list (r.headers.map RequestParameter.asPayload)),
    (lit "json_body", bodyPayload r.jsonBody)]
  let fields : Fields := items.map fun i => (i.1, i.2.toObject)
  have listed : ∀ ps : List RequestParameter,
      (Json.list (ps.map RequestParameter.asPayload)).toObject = parametersPayload ps := by
    intro ps
    rw [Json.toObject, toObjects_eq, List.map_map]
    rfl
  have required : requireExactFields (Json.toItems items) requestFields "Request template" =
      .ok fields := requireExactFields_items rfl _
  have payload : r.asPayload.toObject = .dict (Json.toItems items) := rfl
  have query : fields.get "query" = parametersPayload r.query := listed r.query
  have headers : fields.get "headers" = parametersPayload r.headers := listed r.headers
  exact requestTemplate_ok.mpr ⟨_, fields, payload, required, {
    method := method_again r.method _
    path := requestPath_again read.path
    query := query ▸ queryParameters_again read.query
    headers := headers ▸ requestHeaders_again read.headers
    body := jsonBody_again read.body }⟩

theorem citationIds_again {value : Object} {ids : List Uuid} (h : citationIds decimal value = .ok ids) :
    citationIds decimal (.list (ids.map fun u => .str (uuidText u))) = .ok ids := by
  obtain ⟨items, -, some', read, distinct⟩ := citationIds_ok.mp h
  refine citationIds_ok.mpr ⟨_, rfl, ?_, ?_, distinct⟩
  · rw [← List.length_pos_iff, List.length_map, ← (mapM_ok.mp read).length_eq]
    exact List.length_pos_iff.mpr some'
  · rw [mapM_ok, List.forall₂_map_left_iff, List.forall₂_same]
    exact fun u _ => uuid_again u "Generated test case citation id"

/-- The payload of an accepted test is accepted as that test. -/
theorem validate_asPayload {payload : List (Object × Object)} {test : GeneratedTestCase}
    (accepted : validateGeneratedTestCase decimal payload = .ok test) :
    validateGeneratedTestCase decimal (Json.toItems test.asPayload) = .ok test := by
  obtain ⟨_, -, read⟩ := validateGeneratedTestCase_ok.mp accepted
  let fields : Fields := test.asPayload.map fun i => (i.1, i.2.toObject)
  have required : requireExactFields (Json.toItems test.asPayload) caseFields "Generated test case" =
      .ok fields := requireExactFields_items rfl _
  have citations : fields.get "citation_ids" =
      .list (test.citationIds.map fun u => .str (uuidText u)) := by
    have listed : fields.get "citation_ids" =
        .list (Json.toObjects (test.citationIds.map fun u => .str (uuidText u))) := rfl
    rw [listed, toObjects_eq, List.map_map]
    rfl
  have assertions : fields.get "assertions" =
      .list (test.assertions.map fun a => a.asPayload.toObject) := by
    have listed : fields.get "assertions" =
        .list (Json.toObjects (test.assertions.map GeneratedAssertion.asPayload)) := rfl
    rw [listed, toObjects_eq, List.map_map]
    rfl
  exact validateGeneratedTestCase_ok.mpr ⟨fields, required, {
    version := rfl
    id := uuid_again test.id _
    title := text_again read.title
    kind := kind_again test.kind _
    source := uuid_again test.sourceFindingId _
    citations := citations ▸ citationIds_again read.citations
    request := requestTemplate_again read.request
    assertions := assertions ▸ readAssertions_again read.assertions }⟩

end QaCopilot.Execution
