import QaCopilot.Execution.TestPayloads

/-!
# Generated tests in JSON

* `passes_asPayload`: the payload of an accepted test passes the checks that the payload passed;
* `depth_asPayload`: it nests twelve containers at most;
* `revalidated`: the payload that is read back from its JSON text is accepted as the same test.
-/

namespace QaCopilot.Execution

open Python Results

/-! ## Checks -/

/-- A text without surrogates. -/
def isPlain (s : Str) : Bool := s.all (·.val < 0xD800)

/-- The check passes the texts that are made of those that pass, and every text without surrogates. -/
structure Kept (c : Check) : Prop where
  settable : c.Settable
  names : ∀ keys, c.keys keys = true → ∀ key ∈ keys, c.str key = true
  strip : ∀ s, c.str s = true → c.str (strip s) = true
  plain : ∀ s : Str, isPlain s = true → c.str s = true

theorem kept_distinct : Kept .distinctKeys where
  settable := settable_distinct
  names _ _ _ _ := rfl
  strip _ _ := rfl
  plain _ _ := rfl

theorem kept_accepts : Kept DumpsOptions.default.accepts where
  settable := settable_accepts _
  names _ _ _ _ := rfl
  strip _ _ := rfl
  plain _ _ := rfl

theorem kept_pairFree : Kept .pairFree where
  settable := settable_pairFree
  names _ free key h := List.all_eq_true.mp free key h
  strip _ free := pairFree_strip free
  plain _ low := pairFree_of_low fun a ha => of_decide_eq_true (List.all_eq_true.mp low a ha)

/-- The value of a JSON document that passes the check. -/
def Passes (c : Check) (value : Object) : Prop := ∃ v : Json, v.toObject = value ∧ v.check c = true

section
variable {c : Check}

theorem Passes.none : Passes c .none := ⟨.null, rfl, rfl⟩

theorem Passes.int {n : Int} (h : Passes c (.int n)) : c.int n = true := by
  obtain ⟨v, same, checked⟩ := h
  cases v with
  | int m =>
    obtain rfl := Object.int.inj same
    exact checked
  | null | bool | float | str | list | dict => cases same

theorem Passes.float {x : PyFloat} (h : Passes c (.float x)) : c.float x = true := by
  obtain ⟨v, same, checked⟩ := h
  cases v with
  | float y =>
    obtain rfl := Object.float.inj same
    exact checked
  | null | bool | int | str | list | dict => cases same

theorem Passes.str {s : Str} (h : Passes c (.str s)) : c.str s = true := by
  obtain ⟨v, same, checked⟩ := h
  cases v with
  | str t =>
    obtain rfl := Object.str.inj same
    exact checked
  | null | bool | int | float | list | dict => cases same

theorem Passes.list {items : List Object} (h : Passes c (.list items)) : ∀ i ∈ items, Passes c i := by
  obtain ⟨v, same, checked⟩ := h
  cases v with
  | list vs =>
    obtain rfl := Object.list.inj same
    intro i hi
    rw [toObjects_eq] at hi
    obtain ⟨w, hw, rfl⟩ := List.mem_map.mp hi
    exact ⟨w, rfl, checkList_eq_true.mp checked w hw⟩
  | null | bool | int | float | str | dict => cases same

theorem Passes.dict (kept : Kept c) {items : List (Object × Object)} (h : Passes c (.dict items)) :
    ∀ i ∈ items, Passes c i.1 ∧ Passes c i.2 := by
  obtain ⟨v, same, checked⟩ := h
  cases v with
  | dict members =>
    obtain rfl := Object.dict.inj same
    intro i hi
    rw [toItems_eq] at hi
    obtain ⟨m, hm, rfl⟩ := List.mem_map.mp hi
    rw [Json.check, Bool.and_eq_true, checkItems_eq_true] at checked
    have name := kept.names _ checked.1 m.1 (List.mem_map_of_mem hm)
    exact ⟨⟨.str m.1, rfl, name⟩, ⟨m.2, rfl, checked.2 m hm⟩⟩
  | null | bool | int | float | str | list => cases same

/-- A field of a mapping passes, and so does `None` for one that is absent. -/
theorem Passes.field {value : Object} (h : Passes c value) (name : String) :
    Passes c ((fieldsOf value).get name) := by
  obtain ⟨v, rfl, checked⟩ := h
  cases v with
  | dict members =>
    rw [Json.check, Bool.and_eq_true, checkItems_eq_true] at checked
    rw [Json.toObject, fieldsOf, fields_toItems, Option.getD_some, Fields.get]
    cases found : (members.map fun i => (i.1, i.2.toObject)).find? (·.1 = lit name) with
    | none => exact Passes.none
    | some i =>
      obtain ⟨m, hm, rfl⟩ := List.mem_map.mp (List.mem_of_find?_eq_some found)
      exact ⟨m.2, rfl, checked.2 m hm⟩
  | null | bool | int | float | str | list => exact Passes.none

/-! ## Dicts -/

theorem keys_of_distinct (settable : c.Settable) {keys : List Str} (distinct : keys.Nodup)
    (names : ∀ key ∈ keys, c.str key = true) : c.keys keys = true := by
  induction keys using List.reverseRecOn with
  | nil => exact settable.none
  | append_singleton keys key ih =>
    rw [List.forall_mem_append] at names
    obtain ⟨before, -, disjoint⟩ := List.nodup_append.mp distinct
    refine settable.set keys key (ih before names.1) (names.2 key (List.mem_singleton_self key)) ?_
    exact fun h => disjoint key h key (List.mem_singleton_self key) rfl

/-- The names of the fields of a payload. -/
def plainNames (names : List Str) : Bool :=
  decide names.Nodup && names.all isPlain

theorem check_payload (kept : Kept c) {items : List (Str × Json)} (names : List Str)
    (same : items.map (·.1) = names) (plain : plainNames names = true)
    (values : ∀ i ∈ items, i.2.check c = true) : (Json.dict items).check c = true := by
  rw [plainNames, Bool.and_eq_true, decide_eq_true_eq, List.all_eq_true] at plain
  rw [Json.check, Bool.and_eq_true, checkItems_eq_true, same]
  refine ⟨keys_of_distinct kept.settable plain.1 fun key hkey => ?_, values⟩
  exact kept.plain key (plain.2 key hkey)

theorem plainNames_nodup {names : List Str} (plain : plainNames names = true) : names.Nodup := by
  rw [plainNames, Bool.and_eq_true, decide_eq_true_eq] at plain
  exact plain.1

/-- The names that the payloads of a test and of its parts have. -/
def payloadNames : List (List Str) := [parameterFields, requestFields, assertionFields, caseFields]

theorem payloadNames_plain : ∀ names ∈ payloadNames, plainNames names = true := by decide +kernel

theorem parameterFields_plain : plainNames parameterFields = true :=
  payloadNames_plain _ (by simp [payloadNames])

theorem requestFields_plain : plainNames requestFields = true :=
  payloadNames_plain _ (by simp [payloadNames])

theorem assertionFields_plain : plainNames assertionFields = true :=
  payloadNames_plain _ (by simp [payloadNames])

theorem caseFields_plain : plainNames caseFields = true :=
  payloadNames_plain _ (by simp [payloadNames])

/-! ## Bodies -/

theorem text_passes (kept : Kept c) {value : Object} {label : String} {s : Str} (h : Passes c value)
    (read : text value label = .ok s) : c.str s = true := by
  obtain ⟨t, rfl, rfl, -⟩ := text_ok.mp read
  exact kept.strip t h.str

theorem jsonKey_passes (kept : Kept c) {key : Object} {k : Str} (h : Passes c key)
    (read : jsonKey key = .ok k) : c.str k = true := by
  cases key with
  | str s =>
    have read : text (.str s) "Request JSON key" = .ok k := read
    exact text_passes kept h read
  | none | bool | int | float | list | dict | other => cases read

theorem check_comprehension (kept : Kept c) {members : List (Str × Json)}
    (all : ∀ m ∈ members, c.str m.1 = true ∧ m.2.check c = true) :
    (Json.dict (Dict.empty.update members).items).check c = true := by
  rw [Json.check, Bool.and_eq_true, checkItems_eq_true]
  constructor
  · refine keys_of_distinct kept.settable (Dict.nodup_keys _) fun key hkey => ?_
    obtain ⟨m, hm, rfl⟩ := List.mem_map.mp hkey
    exact (all m (Dict.mem_comprehension hm)).1
  · exact fun m hm => (all m (Dict.mem_comprehension hm)).2

mutual

theorem jsonValue_passes (kept : Kept c) (value : Object) {depth : Nat} {v : Json} (h : Passes c value)
    (read : jsonValue depth value = .ok v) : v.check c = true := by
  match value with
  | .none | .bool _ =>
    obtain ⟨_, -, read⟩ := bind_ok.mp read
    obtain rfl := Except.ok.inj read
    rfl
  | .int n =>
    obtain ⟨_, -, read⟩ := bind_ok.mp read
    obtain rfl := Except.ok.inj read
    exact h.int
  | .str s =>
    obtain ⟨_, -, read⟩ := bind_ok.mp read
    obtain ⟨_, -, read⟩ := bind_ok.mp read
    obtain rfl := Except.ok.inj read
    exact h.str
  | .float x =>
    obtain ⟨_, -, read⟩ := bind_ok.mp read
    obtain ⟨_, -, read⟩ := bind_ok.mp read
    obtain rfl := Except.ok.inj read
    exact h.float
  | .list items =>
    obtain ⟨_, -, read⟩ := bind_ok.mp read
    obtain ⟨_, -, read⟩ := bind_ok.mp read
    obtain ⟨vs, all, read⟩ := bind_ok.mp read
    obtain rfl := Except.ok.inj read
    exact checkList_eq_true.mpr (jsonValues_passes kept items h.list all)
  | .dict items =>
    obtain ⟨_, -, read⟩ := bind_ok.mp read
    obtain ⟨_, -, read⟩ := bind_ok.mp read
    obtain ⟨members, all, read⟩ := bind_ok.mp read
    obtain rfl := Except.ok.inj read
    exact check_comprehension kept (jsonItems_passes kept items (h.dict kept) all)
  | .other n =>
    obtain ⟨_, -, read⟩ := bind_ok.mp read
    cases read

theorem jsonValues_passes (kept : Kept c) (items : List Object) {depth : Nat} {vs : List Json}
    (h : ∀ i ∈ items, Passes c i) (read : jsonValues depth items = .ok vs) :
    ∀ v ∈ vs, v.check c = true := by
  match items with
  | [] =>
    obtain rfl := Except.ok.inj read
    nofun
  | item :: items =>
    obtain ⟨v, first, read⟩ := bind_ok.mp read
    obtain ⟨vs', later, read⟩ := bind_ok.mp read
    obtain rfl := Except.ok.inj read
    obtain ⟨own, others⟩ := List.forall_mem_cons.mp h
    exact List.forall_mem_cons.mpr
      ⟨jsonValue_passes kept item own first, jsonValues_passes kept items others later⟩

theorem jsonItems_passes (kept : Kept c) (items : List (Object × Object)) {depth : Nat}
    {members : List (Str × Json)} (h : ∀ i ∈ items, Passes c i.1 ∧ Passes c i.2)
    (read : jsonItems depth items = .ok members) :
    ∀ m ∈ members, c.str m.1 = true ∧ m.2.check c = true := by
  match items with
  | [] =>
    obtain rfl := Except.ok.inj read
    nofun
  | (key, item) :: items =>
    obtain ⟨k, named, read⟩ := bind_ok.mp read
    obtain ⟨v, first, read⟩ := bind_ok.mp read
    obtain ⟨members', later, read⟩ := bind_ok.mp read
    obtain rfl := Except.ok.inj read
    obtain ⟨own, others⟩ := List.forall_mem_cons.mp h
    exact List.forall_mem_cons.mpr
      ⟨⟨jsonKey_passes kept own.1 named, jsonValue_passes kept item own.2 first⟩,
        jsonItems_passes kept items others later⟩

end

theorem jsonBody_passes (kept : Kept c) {value : Object} {body : Option (List (Str × Json))}
    (h : Passes c value) (read : jsonBody value = .ok body) : (bodyPayload body).check c = true := by
  cases value with
  | none =>
    obtain rfl := Except.ok.inj read
    rfl
  | dict items =>
    obtain ⟨_, found, read⟩ := bind_ok.mp read
    obtain rfl := Except.ok.inj found
    obtain ⟨_, -, read⟩ := bind_ok.mp read
    obtain ⟨members, all, read⟩ := bind_ok.mp read
    obtain rfl := Except.ok.inj read
    exact check_comprehension kept (jsonItems_passes kept items (h.dict kept) all)
  | bool | int | float | str | list | other => cases read

/-! ## Requests -/

theorem parameter_passes (kept : Kept c) {label valueLabel : String} {readName : Object → Validated Str}
    (nameKept : ∀ value s, Passes c value → readName value = .ok s → c.str s = true) {item : Object}
    {p : RequestParameter} (h : Passes c item)
    (read : readParameter label readName valueLabel item = .ok p) : p.asPayload.check c = true := by
  obtain ⟨payload, fields, rfl, exact', named, valued⟩ := readParameter_ok.mp read
  obtain rfl := requireExactFields_ok exact'
  refine check_payload kept parameterFields rfl parameterFields_plain ?_
  rw [List.forall_mem_cons, List.forall_mem_singleton]
  exact ⟨nameKept _ p.name (h.field "name") named, text_passes kept (h.field "value") valued⟩

theorem headerName_passes (kept : Kept c) (value : Object) (name : Str) (h : Passes c value)
    (read : headerName value = .ok name) : c.str name = true := by
  obtain ⟨s, first, read⟩ := bind_ok.mp read
  obtain ⟨_, -, read⟩ := bind_ok.mp read
  obtain ⟨_, -, read⟩ := bind_ok.mp read
  obtain rfl := Except.ok.inj read
  exact text_passes kept h first

theorem parameterName_passes (kept : Kept c) (label : String) (value : Object) (name : Str)
    (h : Passes c value) (read : parameterName value label = .ok name) : c.str name = true := by
  obtain ⟨s, first, read⟩ := bind_ok.mp read
  obtain ⟨_, -, read⟩ := bind_ok.mp read
  obtain rfl := Except.ok.inj read
  exact text_passes kept h first

theorem requestPath_passes (kept : Kept c) {value : Object} {path : Str} (h : Passes c value)
    (read : requestPath value = .ok path) : c.str path = true := by
  obtain ⟨s, first, read⟩ := bind_ok.mp read
  obtain ⟨_, -, read⟩ := bind_ok.mp read
  obtain ⟨_, -, read⟩ := bind_ok.mp read
  obtain rfl := Except.ok.inj read
  exact text_passes kept h first

/-- What is made of the items of a list passes when what is made of each does. -/
theorem list_passes {T : Type} {readItem : Object → Validated T} {render : T → Json}
    (each : ∀ {item t}, Passes c item → readItem item = .ok t → (render t).check c = true)
    {items : List Object} {ts : List T} (h : Passes c (.list items))
    (read : items.mapM readItem = .ok ts) : (Json.list (ts.map render)).check c = true := by
  rw [Json.check, checkList_eq_true, List.forall_mem_map]
  intro t ht
  obtain ⟨item, hi, made⟩ := forall₂_mem (mapM_ok.mp read) ht
  exact each (h.list item hi) made

theorem queryParameters_passes (kept : Kept c) {value : Object} {ps : List RequestParameter}
    (h : Passes c value) (read : queryParameters value = .ok ps) :
    (Json.list (ps.map RequestParameter.asPayload)).check c = true := by
  obtain ⟨items, rfl, -, all, -⟩ := queryParameters_ok.mp read
  exact list_passes (parameter_passes kept (parameterName_passes kept "Request query name")) h all

theorem requestHeaders_passes (kept : Kept c) {value : Object} {ps : List RequestParameter}
    (h : Passes c value) (read : requestHeaders value = .ok ps) :
    (Json.list (ps.map RequestParameter.asPayload)).check c = true := by
  obtain ⟨items, rfl, -, all, -⟩ := requestHeaders_ok.mp read
  exact list_passes (parameter_passes kept (headerName_passes kept)) h all

theorem method_plain (m : HttpMethod) : isPlain m.value = true := by
  cases m <;> rfl

theorem requestTemplate_passes (kept : Kept c) {value : Object} {r : RequestTemplate} (h : Passes c value)
    (read : requestTemplate value = .ok r) : r.asPayload.check c = true := by
  obtain ⟨payload, fields, rfl, exact', read⟩ := requestTemplate_ok.mp read
  obtain rfl := requireExactFields_ok exact'
  refine check_payload kept requestFields rfl requestFields_plain ?_
  simp only [List.forall_mem_cons, List.not_mem_nil, false_implies, implies_true, and_true]
  exact ⟨kept.plain _ (method_plain r.method), requestPath_passes kept (h.field "path") read.path,
    queryParameters_passes kept (h.field "query") read.query,
    requestHeaders_passes kept (h.field "headers") read.headers,
    jsonBody_passes kept (h.field "json_body") read.body⟩

/-! ## Assertions -/

theorem requireAssertionFields_ok {payload : List (Object × Object)} {fields : Fields}
    (h : requireAssertionFields payload = .ok fields) : fieldsOf (.dict payload) = fields := by
  unfold requireAssertionFields at h
  split at h
  · rename_i fields' read
    split_ifs at h
    · rw [fieldsOf, read, Option.getD_some, Except.ok.inj h]
    · cases h
  · cases h

theorem selector_passes (kept : Kept c) {value : Object} {selector : Option Str} (h : Passes c value)
    (read : optionalSelector value = .ok selector) : (selectorPayload selector).check c = true := by
  unfold optionalSelector at read
  split at read
  · obtain rfl := Except.ok.inj read
    rfl
  · cases made : text value "Assertion selector" with
    | error e =>
      rw [made] at read
      cases read
    | ok s =>
      rw [made] at read
      obtain rfl := Except.ok.inj read
      exact text_passes kept h made

theorem expectedValue_passes {value : Object} {expected : ExpectedValue} (h : Passes c value)
    (read : expectedValue value = .ok expected) : expected.toJson.check c = true := by
  unfold expectedValue at read
  split at read
  · obtain rfl := Except.ok.inj read
    rfl
  · obtain rfl := Except.ok.inj read
    rfl
  · obtain rfl := Except.ok.inj read
    exact h.int
  · split_ifs at read
    · cases read
    · obtain rfl := Except.ok.inj read
      exact h.str
  · obtain rfl := Except.ok.inj read
    exact h.float
  · cases read
  · cases read

theorem target_plain (t : AssertionTarget) : isPlain t.text = true := by
  cases t <;> rfl

theorem operator_plain (o : AssertionOperator) : isPlain o.text = true := by
  cases o <;> rfl

theorem readAssertion_passes (kept : Kept c) {item : Object} {a : GeneratedAssertion}
    (h : Passes c item) (read : readAssertion item = .ok a) : a.asPayload.check c = true := by
  obtain ⟨payload, fields, rfl, exact', read⟩ := readAssertion_ok.mp read
  obtain rfl := requireAssertionFields_ok exact'
  refine check_payload kept assertionFields rfl assertionFields_plain ?_
  simp only [List.forall_mem_cons, List.not_mem_nil, false_implies, implies_true, and_true]
  exact ⟨kept.plain _ (target_plain a.target), selector_passes kept (h.field "selector") read.selector,
    kept.plain _ (operator_plain a.operator),
    expectedValue_passes (h.field "expected_value") read.expected⟩

theorem readAssertions_passes (kept : Kept c) {value : Object} {assertions : List GeneratedAssertion}
    (h : Passes c value) (read : readAssertions value = .ok assertions) :
    (Json.list (assertions.map GeneratedAssertion.asPayload)).check c = true := by
  obtain ⟨items, rfl, -, -, all, -⟩ := readAssertions_ok.mp read
  exact list_passes (readAssertion_passes kept) h all

/-! ## Test cases -/

theorem uuidText_plain (u : Uuid) : isPlain (uuidText u) = true := by
  have digit : ∀ d < 16, decide ((hexDigit d).val < 0xD800) = true := by decide
  refine List.all_eq_true.mpr fun a ha => ?_
  rcases mem_uuidText ha with rfl | ⟨d, lt, rfl⟩
  · decide
  · exact digit d lt

theorem kind_plain (k : GeneratedTestKind) : isPlain k.value = true := by
  cases k <;> rfl

/-- The payload of an accepted test passes what the payload passed. -/
theorem passes_asPayload (kept : Kept c) {decimal : CodePoint → Option Nat}
    {payload : List (Str × Json)} {test : GeneratedTestCase}
    (checked : (Json.dict payload).check c = true)
    (accepted : validateGeneratedTestCase decimal (Json.toItems payload) = .ok test) :
    (Json.dict test.asPayload).check c = true := by
  have h : Passes c (.dict (Json.toItems payload)) := ⟨.dict payload, rfl, checked⟩
  obtain ⟨fields, exact', read⟩ := validateGeneratedTestCase_ok.mp accepted
  obtain rfl := requireExactFields_ok exact'
  have version : isPlain generatedTestCaseSchemaVersion = true := rfl
  have cited : (Json.list (test.citationIds.map fun u => .str (uuidText u))).check c = true := by
    rw [Json.check, checkList_eq_true, List.forall_mem_map]
    exact fun u _ => kept.plain _ (uuidText_plain u)
  refine check_payload kept caseFields rfl caseFields_plain ?_
  simp only [GeneratedTestCase.asPayload, List.forall_mem_cons, List.not_mem_nil, false_implies,
    implies_true, and_true]
  exact ⟨kept.plain _ version, kept.plain _ (uuidText_plain test.id),
    text_passes kept (h.field "title") read.title, kept.plain _ (kind_plain test.kind),
    kept.plain _ (uuidText_plain test.sourceFindingId), cited,
    requestTemplate_passes kept (h.field "request") read.request,
    readAssertions_passes kept (h.field "assertions") read.assertions⟩

end

/-! ## Depth -/

theorem checkDepth_ok {depth : Nat} {u : Unit} (h : checkDepth depth = .ok u) : depth ≤ 8 := by
  have shallow := rejectWhen_ok.mp h
  rw [decide_eq_false_iff_not, Nat.not_lt] at shallow
  exact shallow

theorem depth_comprehension {members : List (Str × Json)} {n : Nat}
    (all : ∀ m ∈ members, m.2.depth ≤ n) :
    (Json.dict (Dict.empty.update members).items).depth ≤ n + 1 := by
  rw [Json.depth, Nat.add_le_add_iff_right, depthItems_le]
  exact fun m hm => all m (Dict.mem_comprehension hm)

mutual

theorem jsonValue_depth (value : Object) {depth : Nat} {v : Json} (read : jsonValue depth value = .ok v) :
    v.depth + depth ≤ 9 := by
  match value with
  | .none | .bool _ | .int _ =>
    obtain ⟨_, shallow, read⟩ := bind_ok.mp read
    have room := checkDepth_ok shallow
    obtain rfl := Except.ok.inj read
    simp only [Json.depth]
    omega
  | .str _ | .float _ =>
    obtain ⟨_, shallow, read⟩ := bind_ok.mp read
    obtain ⟨_, -, read⟩ := bind_ok.mp read
    have room := checkDepth_ok shallow
    obtain rfl := Except.ok.inj read
    simp only [Json.depth]
    omega
  | .list items =>
    obtain ⟨_, shallow, read⟩ := bind_ok.mp read
    obtain ⟨_, -, read⟩ := bind_ok.mp read
    obtain ⟨vs, all, read⟩ := bind_ok.mp read
    have room := checkDepth_ok shallow
    obtain rfl := Except.ok.inj read
    have inner : Json.depthList vs ≤ 8 - depth := depthList_le.mpr fun v hv => by
      have := jsonValues_depth items all v hv
      omega
    rw [Json.depth]
    omega
  | .dict items =>
    obtain ⟨_, shallow, read⟩ := bind_ok.mp read
    obtain ⟨_, -, read⟩ := bind_ok.mp read
    obtain ⟨members, all, read⟩ := bind_ok.mp read
    have room := checkDepth_ok shallow
    obtain rfl := Except.ok.inj read
    have inner : ∀ m ∈ members, m.2.depth ≤ 8 - depth := fun m hm => by
      have := jsonItems_depth items all m hm
      omega
    have := depth_comprehension inner
    omega
  | .other n =>
    obtain ⟨_, -, read⟩ := bind_ok.mp read
    cases read

theorem jsonValues_depth (items : List Object) {depth : Nat} {vs : List Json}
    (read : jsonValues depth items = .ok vs) : ∀ v ∈ vs, v.depth + depth ≤ 9 := by
  match items with
  | [] =>
    obtain rfl := Except.ok.inj read
    nofun
  | item :: items =>
    obtain ⟨v, first, read⟩ := bind_ok.mp read
    obtain ⟨vs', later, read⟩ := bind_ok.mp read
    obtain rfl := Except.ok.inj read
    exact List.forall_mem_cons.mpr ⟨jsonValue_depth item first, jsonValues_depth items later⟩

theorem jsonItems_depth (items : List (Object × Object)) {depth : Nat} {members : List (Str × Json)}
    (read : jsonItems depth items = .ok members) : ∀ m ∈ members, m.2.depth + depth ≤ 9 := by
  match items with
  | [] =>
    obtain rfl := Except.ok.inj read
    nofun
  | (key, item) :: items =>
    obtain ⟨k, -, read⟩ := bind_ok.mp read
    obtain ⟨v, first, read⟩ := bind_ok.mp read
    obtain ⟨members', later, read⟩ := bind_ok.mp read
    obtain rfl := Except.ok.inj read
    exact List.forall_mem_cons.mpr ⟨jsonValue_depth item first, jsonItems_depth items later⟩

end

theorem jsonBody_depth {value : Object} {body : Option (List (Str × Json))}
    (read : jsonBody value = .ok body) : (bodyPayload body).depth ≤ 10 := by
  cases value with
  | none =>
    obtain rfl := Except.ok.inj read
    exact Nat.zero_le 10
  | dict items =>
    obtain ⟨_, found, read⟩ := bind_ok.mp read
    obtain rfl := Except.ok.inj found
    obtain ⟨_, -, read⟩ := bind_ok.mp read
    obtain ⟨members, all, read⟩ := bind_ok.mp read
    obtain rfl := Except.ok.inj read
    exact depth_comprehension fun m hm => jsonItems_depth items all m hm
  | bool | int | float | str | list | other => cases read

/-- The items of a list and the list around them. -/
theorem depth_list {T : Type} {render : T → Json} {n : Nat} (each : ∀ t, (render t).depth ≤ n)
    (ts : List T) : (Json.list (ts.map render)).depth ≤ n + 1 := by
  rw [Json.depth, Nat.add_le_add_iff_right, depthList_le, List.forall_mem_map]
  exact fun t _ => each t

theorem depth_assertion (a : GeneratedAssertion) : a.asPayload.depth ≤ 1 := by
  obtain ⟨target, selector, operator, expected⟩ := a
  cases selector <;> cases expected <;> exact Nat.le_refl 1

theorem depth_asPayload {decimal : CodePoint → Option Nat} {payload : List (Object × Object)}
    {test : GeneratedTestCase} (accepted : validateGeneratedTestCase decimal payload = .ok test) :
    (Json.dict test.asPayload).depth ≤ 12 := by
  obtain ⟨id, title, kind, source, citations, ⟨method, path, query, headers, body⟩, assertions⟩ := test
  have inner : (bodyPayload body).depth ≤ 10 := jsonBody_depth (accepted_body accepted)
  have parameter : ∀ p : RequestParameter, p.asPayload.depth ≤ 1 := fun p => Nat.le_refl 1
  have queryDepth := depth_list parameter query
  have headersDepth := depth_list parameter headers
  have assertionsDepth := depth_list depth_assertion assertions
  have citationsDepth : (Json.list (citations.map fun u => .str (uuidText u))).depth ≤ 1 :=
    depth_list (fun _ => Nat.le_refl 0) citations
  simp only [GeneratedTestCase.asPayload, RequestTemplate.asPayload, Json.depth, Json.depthItems] at *
  omega

/-! ## Stored tests -/

/-- The payload of a test that was read from JSON is accepted as that test, and so is what a reader
makes of its JSON text, from twelve nested containers on. -/
theorem revalidated {decimal : CodePoint → Option Nat} {payload : List (Str × Json)}
    {test : GeneratedTestCase} (decoded : Decoded (.dict payload))
    (accepted : validateGeneratedTestCase decimal (Json.toItems payload) = .ok test) :
    validateGeneratedTestCase decimal (Json.toItems test.asPayload) = .ok test ∧
      ∀ limit, 12 ≤ limit → ∃ text again, dumps .default limit (.dict test.asPayload) = .ok text ∧
        loads limit text = .ok (.dict again) ∧
          validateGeneratedTestCase decimal (Json.toItems again) = .ok test := by
  have again := validate_asPayload accepted
  refine ⟨again, fun limit enough => ?_⟩
  have distinct := passes_asPayload kept_distinct decoded.distinct accepted
  have printable := passes_asPayload kept_accepts decoded.printable accepted
  have free := passes_asPayload kept_pairFree decoded.pairFree accepted
  have room := (depth_asPayload accepted).trans enough
  obtain ⟨text, made⟩ := (dumps_isOk .default (.dict test.asPayload) limit).mpr ⟨printable, room⟩
  exact ⟨text, test.asPayload, made, loads_dumps separates_default made distinct (fun _ => free) room, again⟩

/-- A test in JSON whose texts have blanks around them. -/
def storedText : Str :=
  lit "\x7b\"schema_version\":\"generated-test-case/v1\"," ++
  lit "\"id\":\"00000000-0000-0000-0000-000000000601\"," ++
  lit "\"title\":\" An order is created \",\"kind\":\"positive\"," ++
  lit "\"source_finding_id\":" ++ lit "\"00000000000000000000000000000603\"," ++
  lit "\"citation_ids\":[" ++ lit "\"00000000-0000-0000-0000-000000000604\"]," ++
  lit "\"request\":\x7b\"method\":\"POST\",\"path\":\" /orders\"," ++
  lit "\"query\":[\x7b\"name\":\"dry \",\"value\":\"no\"\x7d]," ++
  lit "\"headers\":[],\"json_body\":\x7b\" quantity\":[1,2.5]\x7d\x7d," ++
  lit "\"assertions\":[\x7b\"target\":\"status_code\"," ++
  lit "\"selector\":null,\"operator\":\"equals\"," ++ lit "\"expected_value\":201\x7d]\x7d"

/-- The reader made a payload that is accepted. -/
def readsValid : Except LoadsError Json → Bool
  | .ok (.dict payload) => (validateGeneratedTestCase asciiDecimal (Json.toItems payload)).toBool
  | _ => false

theorem readsValid_ok {result : Except LoadsError Json} (h : readsValid result = true) :
    ∃ payload test, result = .ok (.dict payload) ∧
      validateGeneratedTestCase asciiDecimal (Json.toItems payload) = .ok test := by
  unfold readsValid at h
  split at h
  · rename_i payload
    cases accepted : validateGeneratedTestCase asciiDecimal (Json.toItems payload) with
    | error e =>
      rw [accepted] at h
      cases h
    | ok test => exact ⟨payload, test, rfl, accepted⟩
  · cases h

theorem storedText_decoded : ((utf8 storedText).bind decodeUtf8) = some storedText := by decide +kernel

theorem storedText_valid : readsValid (loads 64 storedText) = true := by decide +kernel

theorem revalidated_sample : ∃ payload test, loads 64 storedText = .ok (.dict payload) ∧
    validateGeneratedTestCase asciiDecimal (Json.toItems payload) = .ok test ∧
    validateGeneratedTestCase asciiDecimal (Json.toItems test.asPayload) = .ok test ∧
    ∃ text again, dumps .default 64 (.dict test.asPayload) = .ok text ∧
      loads 64 text = .ok (.dict again) ∧
        validateGeneratedTestCase asciiDecimal (Json.toItems again) = .ok test := by
  obtain ⟨raw, -, decodes⟩ := Option.bind_eq_some_iff.mp storedText_decoded
  obtain ⟨payload, test, read, accepted⟩ := readsValid_ok storedText_valid
  have decoded : Decoded (.dict payload) := ⟨raw, storedText, 64, decodes, read⟩
  obtain ⟨again, stored⟩ := revalidated decoded accepted
  exact ⟨payload, test, read, accepted, again, stored 64 (by decide)⟩

end QaCopilot.Execution
