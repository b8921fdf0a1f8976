import QaCopilot.Execution.TestNormalization

/-!
# Semantic keys

* `semanticKey_isOk`: a test that JSON spells has a key;
* `semanticKey_eq_iff`: two such tests have one key exactly when they behave the same.
-/

namespace QaCopilot.Execution

open Python Results

variable {limit : Nat}

/-! ## Canonical texts -/

theorem canonicalJson_ok {v : Json} {text : Str} :
    canonicalJson limit v = .ok text ↔ dumps normalDumps limit v.sorted = .ok text := mapError_ok

theorem canonicalJson_isOk {v : Json} :
    (∃ text, canonicalJson limit v = .ok text) ↔ v.check normalDumps.accepts = true ∧ v.depth ≤ limit := by
  simp only [canonicalJson_ok]
  rw [dumps_isOk, check_sorted (accepts_unordered normalDumps), depth_sorted]

theorem jsonText_eq {v : Json} {text : Str} (made : canonicalJson limit v = .ok text) :
    jsonText limit v = text := by
  rw [jsonText, made]

theorem separates_normal : normalDumps.Separates :=
  ⟨separates_compact.items, separates_compact.keys, separates_compact.stop⟩

/-- The value is spelled by one text. -/
structure OneText (v : Json) : Prop where
  distinct : v.check .distinctKeys = true
  free : v.check .pairFree = true

/-- Values have one text exactly when they are the same. -/
theorem canonicalJson_eq_iff {v w : Json} {text text' : Str} (hv : OneText v) (hw : OneText w)
    (made : canonicalJson limit v = .ok text) (made' : canonicalJson limit w = .ok text') :
    text = text' ↔ v.same w = true := by
  rw [← sorted_eq_iff v w hv.distinct hw.distinct]
  rw [canonicalJson_ok] at made made'
  constructor
  · rintro rfl
    refine dumps_injective separates_normal made made' ?_ ?_ (fun _ => ?_) fun _ => ?_
    · rw [check_sorted distinctKeys_unordered, hv.distinct]
    · rw [check_sorted distinctKeys_unordered, hw.distinct]
    · rw [check_sorted pairFree_unordered, hv.free]
    · rw [check_sorted pairFree_unordered, hw.free]
  · intro same
    rw [same] at made
    exact Except.ok.inj (made.symm.trans made')

/-! ## Sorted items -/

theorem sortedByJson_ok {items sorted : List Json} : sortedByJson limit items = .ok sorted ↔
    (∀ v ∈ items, v.check normalDumps.accepts = true ∧ v.depth ≤ limit) ∧
      sorted = sortByTexts (fun v => [jsonText limit v]) items := by
  have each : (∃ texts, items.mapM (canonicalJson limit) = .ok texts) ↔
      ∀ v ∈ items, v.check normalDumps.accepts = true ∧ v.depth ≤ limit := by
    simp only [mapM_isOk, canonicalJson_isOk]
  rw [← each, sortedByJson]
  constructor
  · intro h
    obtain ⟨texts, made, h⟩ := bind_ok.mp h
    exact ⟨⟨texts, made⟩, (Except.ok.inj h).symm⟩
  · rintro ⟨⟨texts, made⟩, rfl⟩
    exact bind_ok.mpr ⟨texts, made, rfl⟩

/-- A rendering of things as items that JSON tells apart. -/
structure Told {T : Type} (render : T → Json) : Prop where
  distinct : ∀ t, (render t).check .distinctKeys = true
  apart : ∀ t u, (render t).same (render u) = true → t = u

theorem Told.sorted_injective {T : Type} {render : T → Json} (told : Told render) :
    (fun t => (render t).sorted).Injective := by
  intro t u same
  exact told.apart t u ((sorted_eq_iff _ _ (told.distinct t) (told.distinct u)).mp same)

/-- Sorted items are the same exactly when the things are the same in some order. -/
theorem sortedByJson_same {T : Type} {render : T → Json} (told : Told render) {ts us : List T}
    {vs ws : List Json} (free : ∀ t ∈ ts, (render t).check .pairFree = true)
    (first : sortedByJson limit (ts.map render) = .ok vs)
    (second : sortedByJson limit (us.map render) = .ok ws) :
    Json.sameList vs ws = true ↔ ts.Perm us := by
  obtain ⟨printed, rfl⟩ := sortedByJson_ok.mp first
  obtain ⟨-, rfl⟩ := sortedByJson_ok.mp second
  have perm := sortByTexts_perm (fun v => [jsonText limit v]) (ts.map render)
  have perm' := sortByTexts_perm (fun v => [jsonText limit v]) (us.map render)
  have distinct : ∀ ts : List T, ∀ v ∈ sortByTexts (fun v => [jsonText limit v]) (ts.map render),
      v.check .distinctKeys = true := by
    intro ts v hv
    obtain ⟨t, -, rfl⟩ := List.mem_map.mp ((sortByTexts_perm _ _).mem_iff.mp hv)
    exact told.distinct t
  rw [← sortedList_eq_iff _ _ (distinct ts) (distinct us), sortedList_eq, sortedList_eq]
  constructor
  · intro same
    have both := (perm.map Json.sorted).symm.trans (same ▸ perm'.map Json.sorted)
    rw [List.map_map, List.map_map] at both
    exact (List.map_perm_map_iff told.sorted_injective).mp both
  · intro same
    refine congrArg _ (sortByTexts_eq (same.map render) fun v hv w hw texts => ?_)
    obtain ⟨t, ht, rfl⟩ := List.mem_map.mp hv
    obtain ⟨u, hu, rfl⟩ := List.mem_map.mp hw
    obtain ⟨text, made⟩ := canonicalJson_isOk.mpr (printed _ hv)
    obtain ⟨text', made'⟩ := canonicalJson_isOk.mpr (printed _ hw)
    rw [jsonText_eq made, jsonText_eq made', List.cons.injEq] at texts
    have one : OneText (render t) := ⟨told.distinct t, free t ht⟩
    have one' : OneText (render u) := ⟨told.distinct u, free u hu⟩
    rw [told.apart t u ((canonicalJson_eq_iff one one' made made').mp texts.1)]

/-! ## Payloads with the same fields -/

theorem sameItems_aligned {others : List (Str × Json)} (distinct : (others.map (·.1)).Nodup)
    {items rest : List (Str × Json)} (keys : items.map (·.1) = rest.map (·.1))
    (within : ∀ i ∈ rest, i ∈ others) :
    Json.sameItems items others = Json.sameList (items.map (·.2)) (rest.map (·.2)) := by
  induction items generalizing rest with
  | nil =>
    obtain rfl := List.map_eq_nil_iff.mp keys.symm
    rfl
  | cons i items ih =>
    obtain ⟨k, v⟩ := i
    cases rest with
    | nil => cases keys
    | cons j rest =>
      obtain ⟨k', w⟩ := j
      obtain ⟨rfl, keysLater⟩ := List.cons.inj keys
      obtain ⟨here, later⟩ := List.forall_mem_cons.mp within
      rw [Json.sameItems, find?_key distinct here, ih keysLater later]
      rfl

/-- Payloads with the same fields are the same when their values are. -/
theorem same_aligned {items others : List (Str × Json)} (names : List Str) (distinct : names.Nodup)
    (keys : items.map (·.1) = names) (keys' : others.map (·.1) = names) :
    (Json.dict items).same (.dict others) = Json.sameList (items.map (·.2)) (others.map (·.2)) := by
  have long : items.length = others.length := by
    simpa using congrArg List.length (keys.trans keys'.symm)
  rw [Json.same, decide_eq_true long, Bool.true_and]
  exact sameItems_aligned (keys' ▸ distinct) (keys.trans keys'.symm) fun _ h => h

theorem parameter_told : Told RequestParameter.asPayload where
  distinct p := check_payload kept_distinct parameterFields rfl parameterFields_plain (by
    intro i hi
    simp only [List.mem_cons, List.not_mem_nil, or_false] at hi
    rcases hi with rfl | rfl <;> rfl)
  apart p q same := by
    rw [RequestParameter.asPayload, RequestParameter.asPayload,
      same_aligned parameterFields (plainNames_nodup parameterFields_plain) (by rfl) (by rfl)] at same
    obtain ⟨name, value⟩ := p
    obtain ⟨name', value'⟩ := q
    simpa [Json.sameList, Json.same] using same

theorem selector_same {s t : Option Str} :
    (selectorPayload s).same (selectorPayload t) = true ↔ s = t := by
  cases s <;> cases t <;> simp [selectorPayload, Json.same]

theorem expected_same {v w : ExpectedValue} : v.toJson.same w.toJson = true ↔ v = w := by
  cases v <;> cases w <;> simp [ExpectedValue.toJson, Json.same]

theorem target_text_injective : Function.Injective AssertionTarget.text :=
  texts_injective [.statusCode, .responseHeader, .jsonBody, .responseTimeMs]
    (fun t => by cases t <;> simp) (by decide)

theorem operator_text_injective : Function.Injective AssertionOperator.text :=
  texts_injective [.equals, .exists', .contains, .lessThanOrEqual]
    (fun o => by cases o <;> simp) (by decide)

theorem kind_value_injective : Function.Injective GeneratedTestKind.value :=
  texts_injective [.positive, .negative, .boundary, .authorization, .contract, .state]
    (fun k => by cases k <;> simp) (by decide)

theorem method_value_injective : Function.Injective HttpMethod.value :=
  texts_injective [.get, .post, .put, .patch, .delete]
    (fun m => by cases m <;> simp) (by decide)

theorem assertion_told : Told GeneratedAssertion.asPayload where
  distinct a := check_payload kept_distinct assertionFields rfl assertionFields_plain (by
    obtain ⟨target, selector, operator, expected⟩ := a
    intro i hi
    simp only [List.mem_cons, List.not_mem_nil, or_false] at hi
    rcases hi with rfl | rfl | rfl | rfl
    · rfl
    · cases selector <;> rfl
    · rfl
    · cases expected <;> rfl)
  apart a b same := by
    rw [GeneratedAssertion.asPayload, GeneratedAssertion.asPayload,
      same_aligned assertionFields (plainNames_nodup assertionFields_plain) (by rfl) (by rfl)] at same
    obtain ⟨target, selector, operator, expected⟩ := a
    simp only [List.map_cons, List.map_nil, Json.sameList, Json.same, Bool.and_eq_true,
      decide_eq_true_eq, selector_same, expected_same, and_true] at same
    obtain ⟨targets, rfl, operators, rfl⟩ := same
    rw [target_text_injective targets, operator_text_injective operators]

/-! ## Tests that were accepted -/

/-- The test was made by the validator. -/
def IsValidated (decimal : CodePoint → Option Nat) (t : GeneratedTestCase) : Prop :=
  ∃ payload, validateGeneratedTestCase decimal payload = .ok t

mutual

theorem jsonValue_distinct (value : Object) {depth : Nat} {v : Json} (read : jsonValue depth value = .ok v) :
    v.check .distinctKeys = true := by
  match value with
  | .none | .bool _ | .int _ =>
    obtain ⟨_, -, read⟩ := bind_ok.mp read
    exact Except.ok.inj read ▸ rfl
  | .str _ | .float _ =>
    obtain ⟨_, -, read⟩ := bind_ok.mp read
    obtain ⟨_, -, read⟩ := bind_ok.mp read
    exact Except.ok.inj read ▸ rfl
  | .list items =>
    obtain ⟨_, -, read⟩ := bind_ok.mp read
    obtain ⟨_, -, read⟩ := bind_ok.mp read
    obtain ⟨vs, all, read⟩ := bind_ok.mp read
    obtain rfl := Except.ok.inj read
    exact checkList_eq_true.mpr (jsonValues_distinct items all)
  | .dict items =>
    obtain ⟨_, -, read⟩ := bind_ok.mp read
    obtain ⟨_, -, read⟩ := bind_ok.mp read
    obtain ⟨members, all, read⟩ := bind_ok.mp read
    obtain rfl := Except.ok.inj read
    exact check_comprehension kept_distinct fun m hm => ⟨rfl, jsonItems_distinct items all m hm⟩
  | .other n =>
    obtain ⟨_, -, read⟩ := bind_ok.mp read
    cases read

theorem jsonValues_distinct (items : List Object) {depth : Nat} {vs : List Json}
    (read : jsonValues depth items = .ok vs) : ∀ v ∈ vs, v.check .distinctKeys = true := by
  match items with
  | [] =>
    obtain rfl := Except.ok.inj read
    nofun
  | item :: items =>
    obtain ⟨v, first, read⟩ := bind_ok.mp read
    obtain ⟨vs', later, read⟩ := bind_ok.mp read
    obtain rfl := Except.ok.inj read
    exact List.forall_mem_cons.mpr ⟨jsonValue_distinct item first, jsonValues_distinct items later⟩

theorem jsonItems_distinct (items : List (Object × Object)) {depth : Nat} {members : List (Str × Json)}
    (read : jsonItems depth items = .ok members) : ∀ m ∈ members, m.2.check .distinctKeys = true := by
  match items with
  | [] =>
    obtain rfl := Except.ok.inj read
    nofun
  | (key, item) :: items =>
    obtain ⟨k, -, read⟩ := bind_ok.mp read
    obtain ⟨v, first, read⟩ := bind_ok.mp read
    obtain ⟨members', later, read⟩ := bind_ok.mp read
    obtain rfl := Except.ok.inj read
    exact List.forall_mem_cons.mpr ⟨jsonValue_distinct item first, jsonItems_distinct items later⟩

end

theorem jsonBody_distinct {value : Object} {body : Option (List (Str × Json))}
    (read : jsonBody value = .ok body) : (bodyPayload body).check .distinctKeys = true := by
  cases value with
  | none =>
    obtain rfl := Except.ok.inj read
    rfl
  | dict items =>
    obtain ⟨_, -, read⟩ := bind_ok.mp read
    obtain ⟨_, -, read⟩ := bind_ok.mp read
    obtain ⟨members, all, read⟩ := bind_ok.mp read
    obtain rfl := Except.ok.inj read
    exact check_comprehension kept_distinct fun m hm => ⟨rfl, jsonItems_distinct _ all m hm⟩
  | bool | int | float | str | list | other => cases read

variable {decimal : CodePoint → Option Nat} {t u : GeneratedTestCase}

theorem IsValidated.body_distinct (h : IsValidated decimal t) :
    (bodyPayload t.request.jsonBody).check .distinctKeys = true := by
  obtain ⟨payload, accepted⟩ := h
  exact jsonBody_distinct (accepted_body accepted)

theorem IsValidated.body_depth (h : IsValidated decimal t) : (bodyPayload t.request.jsonBody).depth ≤ 10 := by
  obtain ⟨payload, accepted⟩ := h
  exact jsonBody_depth (accepted_body accepted)

/-- Header values have no blanks around them. -/
theorem IsValidated.header_value (h : IsValidated decimal t) {header : RequestParameter}
    (listed : header ∈ t.request.headers) : strip header.value = header.value := by
  obtain ⟨payload, accepted⟩ := h
  obtain ⟨fields, -, read⟩ := validateGeneratedTestCase_ok.mp accepted
  obtain ⟨_, _, -, -, request⟩ := requestTemplate_ok.mp read.request
  obtain ⟨items, -, -, all, -⟩ := requestHeaders_ok.mp request.headers
  obtain ⟨item, -, made⟩ := forall₂_mem (mapM_ok.mp all) listed
  obtain ⟨_, _, -, -, -, valued⟩ := readParameter_ok.mp made
  obtain ⟨s, -, same, -⟩ := text_ok.mp valued
  rw [← same, strip_strip]

/-! ## Checks of the semantic payload -/

/-- A check that texts keep when they are stripped and lowered. -/
structure KeptLower (c : Check) : Prop extends Kept c where
  lower : ∀ s, c.str s = true → c.str (lowerName s) = true

theorem keptLower_distinct : KeptLower .distinctKeys := { kept_distinct with lower := fun _ _ => rfl }

theorem keptLower_accepts : KeptLower normalDumps.accepts where
  settable := settable_accepts _
  names _ _ _ _ := rfl
  strip _ _ := rfl
  plain _ _ := rfl
  lower _ _ := rfl

theorem surrogate_lower (c : CodePoint) :
    isHighSurrogate (if 0x41 ≤ c.val ∧ c.val ≤ 0x5A then Fin.ofNat _ (c.val + 0x20) else c) =
        isHighSurrogate c ∧
      isLowSurrogate (if 0x41 ≤ c.val ∧ c.val ≤ 0x5A then Fin.ofNat _ (c.val + 0x20) else c) =
        isLowSurrogate c := by
  split_ifs with upper
  · have low : (Fin.ofNat 0x110000 (c.val + 0x20)).val = c.val + 0x20 := by
      simp only [Fin.ofNat]
      omega
    simp only [isHighSurrogate, isLowSurrogate, low]
    constructor <;> rw [Bool.eq_iff_iff] <;> simp only [Bool.and_eq_true, decide_eq_true_eq] <;> omega
  · exact ⟨rfl, rfl⟩

theorem pairFree_lower {s : Str} (free : pairFree s = true) : pairFree (lowerName s) = true := by
  induction s with
  | nil => rfl
  | cons c s ih =>
    cases s with
    | nil => rfl
    | cons d s =>
      obtain ⟨apart, rest⟩ := pairFree_cons_cons.mp free
      refine pairFree_cons_cons.mpr ⟨?_, ih rest⟩
      rw [(surrogate_lower c).1, (surrogate_lower d).2]
      exact apart

theorem keptLower_pairFree : KeptLower .pairFree :=
  { kept_pairFree with lower := fun _ free => pairFree_lower free }

variable {c : Check}

/-- What passes of a request that passes. -/
theorem request_passes (h : Behaves c t) : c.str t.request.path = true ∧
    (∀ p ∈ t.request.query, p.asPayload.check c = true) ∧
      (∀ p ∈ t.request.headers, p.asPayload.check c = true) ∧
        (bodyPayload t.request.jsonBody).check c = true := by
  have request := h.request
  rw [RequestTemplate.asPayload, Json.check, Bool.and_eq_true, checkItems_eq_true] at request
  simp only [List.forall_mem_cons, List.not_mem_nil, false_implies, implies_true, and_true] at request
  obtain ⟨-, -, path, query, headers, body⟩ := request
  exact ⟨path, List.forall_mem_map.mp (checkList_eq_true.mp query),
    List.forall_mem_map.mp (checkList_eq_true.mp headers), body⟩

theorem query_passes (h : Behaves c t) : ∀ p ∈ t.request.query, p.asPayload.check c = true :=
  (request_passes h).2.1

theorem headers_pass (h : Behaves c t) : ∀ p ∈ t.request.headers, p.asPayload.check c = true :=
  (request_passes h).2.2.1

theorem assertions_pass (h : Behaves c t) : ∀ a ∈ t.assertions, a.asPayload.check c = true :=
  List.forall_mem_map.mp (checkList_eq_true.mp h.assertions)

theorem normalizedHeader_passes (kept : KeptLower c) {p : RequestParameter}
    (passes : p.asPayload.check c = true) : (normalizedHeader p).asPayload.check c = true := by
  rw [RequestParameter.asPayload, Json.check, Bool.and_eq_true, checkItems_eq_true] at passes
  refine check_payload kept.toKept parameterFields rfl parameterFields_plain ?_
  rw [List.forall_mem_cons, List.forall_mem_singleton] at passes ⊢
  exact ⟨kept.lower _ passes.2.1, kept.strip _ passes.2.2⟩

theorem normalizedAssertion_passes (kept : KeptLower c) {a : GeneratedAssertion}
    (passes : a.asPayload.check c = true) : (normalizedAssertion a).asPayload.check c = true := by
  rw [GeneratedAssertion.asPayload, Json.check, Bool.and_eq_true, checkItems_eq_true] at passes
  refine check_payload kept.toKept assertionFields rfl assertionFields_plain ?_
  simp only [List.forall_mem_cons, List.not_mem_nil, false_implies, implies_true, and_true] at passes ⊢
  obtain ⟨-, targeted, selected, operated, expected⟩ := passes
  refine ⟨targeted, ?_, operated, expected⟩
  obtain ⟨target, selector, operator, value⟩ := a
  cases target with
  | responseHeader =>
    cases selector with
    | none => exact selected
    | some s => exact kept.lower s selected
  | statusCode | jsonBody | responseTimeMs => exact selected

/-! ## Semantic payloads -/

def semanticFields : List Str :=
  [lit "normalization_version", lit "kind", lit "request", lit "assertions"]

theorem semanticFields_plain : plainNames semanticFields = true := by decide

theorem normalizationVersion_plain : isPlain normalizationVersion = true := by decide

/-- The request of a semantic payload, of its sorted items. -/
def semanticRequest (t : GeneratedTestCase) (query headers : List Json) : Json :=
  .dict [(lit "method", .str t.request.method.value), (lit "path", .str t.request.path),
    (lit "query", .list query), (lit "headers", .list headers),
    (lit "json_body", bodyPayload t.request.jsonBody)]

/-- The semantic payload of its sorted items. -/
def semanticDict (t : GeneratedTestCase) (query headers assertions : List Json) : Json :=
  .dict [(lit "normalization_version", .str normalizationVersion), (lit "kind", .str t.kind.value),
    (lit "request", semanticRequest t query headers), (lit "assertions", .list assertions)]

/-- The items of a test, sorted. -/
structure SortedItems (limit : Nat) (t : GeneratedTestCase) (query headers assertions : List Json) :
    Prop where
  query : sortedByJson limit (t.request.query.map RequestParameter.asPayload) = .ok query
  headers : sortedByJson limit (t.request.headers.map fun h => (normalizedHeader h).asPayload) = .ok headers
  assertions : sortedByJson limit (t.assertions.map fun a => (normalizedAssertion a).asPayload) =
    .ok assertions

theorem semanticPayload_ok {v : Json} : semanticPayload limit t = .ok v ↔
    ∃ query headers assertions, SortedItems limit t query headers assertions ∧
      v = semanticDict t query headers assertions := by
  constructor
  · intro h
    obtain ⟨query, first, h⟩ := bind_ok.mp h
    obtain ⟨headers, second, h⟩ := bind_ok.mp h
    obtain ⟨assertions, third, h⟩ := bind_ok.mp h
    exact ⟨query, headers, assertions, ⟨first, second, third⟩, (Except.ok.inj h).symm⟩
  · rintro ⟨query, headers, assertions, sorted, rfl⟩
    exact bind_ok.mpr ⟨query, sorted.query, bind_ok.mpr ⟨headers, sorted.headers,
      bind_ok.mpr ⟨assertions, sorted.assertions, rfl⟩⟩⟩

theorem mem_sortedByJson {items sorted : List Json} (made : sortedByJson limit items = .ok sorted)
    {v : Json} : v ∈ sorted ↔ v ∈ items := by
  obtain ⟨-, rfl⟩ := sortedByJson_ok.mp made
  exact (sortByTexts_perm _ items).mem_iff

/-- The payload passes what the request and the assertions pass. -/
theorem semanticDict_passes (kept : KeptLower c) (h : Behaves c t) {query headers assertions : List Json}
    (sorted : SortedItems limit t query headers assertions) :
    (semanticDict t query headers assertions).check c = true := by
  have queries : (Json.list query).check c = true := by
    refine checkList_eq_true.mpr fun v hv => ?_
    obtain ⟨p, hp, rfl⟩ := List.mem_map.mp ((mem_sortedByJson sorted.query).mp hv)
    exact query_passes h p hp
  have headed : (Json.list headers).check c = true := by
    refine checkList_eq_true.mpr fun v hv => ?_
    obtain ⟨p, hp, rfl⟩ := List.mem_map.mp ((mem_sortedByJson sorted.headers).mp hv)
    exact normalizedHeader_passes kept (headers_pass h p hp)
  have asserted : (Json.list assertions).check c = true := by
    refine checkList_eq_true.mpr fun v hv => ?_
    obtain ⟨a, ha, rfl⟩ := List.mem_map.mp ((mem_sortedByJson sorted.assertions).mp hv)
    exact normalizedAssertion_passes kept (assertions_pass h a ha)
  have request : (semanticRequest t query headers).check c = true := by
    refine check_payload kept.toKept requestFields rfl requestFields_plain ?_
    simp only [List.forall_mem_cons, List.not_mem_nil, false_implies, implies_true, and_true]
    exact ⟨kept.plain _ (method_plain t.request.method), (request_passes h).1, queries, headed,
      (request_passes h).2.2.2⟩
  refine check_payload kept.toKept semanticFields rfl semanticFields_plain ?_
  simp only [List.forall_mem_cons, List.not_mem_nil, false_implies, implies_true, and_true]
  exact ⟨kept.plain _ normalizationVersion_plain, kept.plain _ (kind_plain t.kind), request, asserted⟩

theorem sortedByJson_depth {T : Type} {render : T → Json} (flat : ∀ x, (render x).depth ≤ 1) {ts : List T}
    {sorted : List Json} (made : sortedByJson limit (ts.map render) = .ok sorted) :
    (Json.list sorted).depth ≤ 2 := by
  rw [Json.depth, Nat.add_le_add_iff_right, depthList_le]
  intro v hv
  obtain ⟨x, -, rfl⟩ := List.mem_map.mp ((mem_sortedByJson made).mp hv)
  exact flat x

theorem semanticDict_depth (valid : IsValidated decimal t) {query headers assertions : List Json}
    (sorted : SortedItems limit t query headers assertions) :
    (semanticDict t query headers assertions).depth ≤ 12 := by
  have parameter : ∀ p : RequestParameter, p.asPayload.depth ≤ 1 := fun p => Nat.le_refl 1
  have queries := sortedByJson_depth parameter sorted.query
  have headed := sortedByJson_depth (fun h => parameter (normalizedHeader h)) sorted.headers
  have asserted := sortedByJson_depth (fun a => depth_assertion (normalizedAssertion a)) sorted.assertions
  have body := valid.body_depth
  simp only [semanticDict, semanticRequest, Json.depth, Json.depthItems] at *
  omega

/-! ## Semantic keys -/

theorem sortedByJson_isOk {T : Type} {render : T → Json} {ts : List T}
    (each : ∀ x ∈ ts, (render x).check normalDumps.accepts = true ∧ (render x).depth ≤ limit) :
    ∃ sorted, sortedByJson limit (ts.map render) = .ok sorted :=
  ⟨_, sortedByJson_ok.mpr ⟨List.forall_mem_map.mpr each, rfl⟩⟩

/-- A test that JSON spells has a key, from twelve nested containers on. -/
theorem semanticKey_isOk (valid : IsValidated decimal t) (spelled : Spelled t) (enough : 12 ≤ limit) :
    ∃ key, semanticKey limit t = .ok key := by
  have room : 1 ≤ limit := by omega
  have printed := spelled.integers
  obtain ⟨query, first⟩ := sortedByJson_isOk fun p hp =>
    ⟨query_passes printed p hp, (Nat.le_refl 1).trans room⟩
  obtain ⟨headers, second⟩ := sortedByJson_isOk fun p hp =>
    ⟨normalizedHeader_passes keptLower_accepts (headers_pass printed p hp), (Nat.le_refl 1).trans room⟩
  obtain ⟨assertions, third⟩ := sortedByJson_isOk fun a ha =>
    ⟨normalizedAssertion_passes keptLower_accepts (assertions_pass printed a ha),
      (depth_assertion (normalizedAssertion a)).trans room⟩
  have sorted : SortedItems limit t query headers assertions := ⟨first, second, third⟩
  obtain ⟨key, made⟩ := canonicalJson_isOk.mpr ⟨semanticDict_passes keptLower_accepts printed sorted,
    (semanticDict_depth valid sorted).trans enough⟩
  exact ⟨key, bind_ok.mpr ⟨_, semanticPayload_ok.mpr ⟨_, _, _, sorted, rfl⟩, made⟩⟩

theorem IsValidated.behaves_distinct (valid : IsValidated decimal t) : Behaves .distinctKeys t := by
  have rendered : ∀ {T : Type} {render : T → Json}, Told render → ∀ ts : List T,
      (Json.list (ts.map render)).check .distinctKeys = true := fun told ts =>
    checkList_eq_true.mpr (List.forall_mem_map.mpr fun x _ => told.distinct x)
  refine ⟨?_, rendered assertion_told t.assertions⟩
  refine check_payload kept_distinct requestFields rfl requestFields_plain ?_
  simp only [List.forall_mem_cons, List.not_mem_nil, false_implies, implies_true, and_true]
  exact ⟨rfl, rfl, rendered parameter_told _, rendered parameter_told _, valid.body_distinct⟩

/-- Headers of validated tests, as they count for the key. -/
theorem normalizedHeaders (valid : IsValidated decimal t) : t.request.headers.map normalizedHeader =
    t.request.headers.map fun h => ⟨lowerName h.name, h.value⟩ := by
  refine List.map_congr_left fun h listed => ?_
  rw [normalizedHeader, valid.header_value listed]

theorem semanticRequest_same {query headers query' headers' : List Json} :
    (semanticRequest t query headers).same (semanticRequest u query' headers') = true ↔
      t.request.method = u.request.method ∧ t.request.path = u.request.path ∧
        Json.sameList query query' = true ∧ Json.sameList headers headers' = true ∧
          (bodyPayload t.request.jsonBody).same (bodyPayload u.request.jsonBody) = true := by
  rw [semanticRequest, semanticRequest, same_aligned requestFields (plainNames_nodup requestFields_plain) rfl rfl]
  simp only [List.map_cons, List.map_nil, Json.sameList, Json.same, Bool.and_eq_true, decide_eq_true_eq,
    and_true]
  exact and_congr_left fun _ => ⟨fun same => method_value_injective same, fun method => congrArg _ method⟩

theorem semanticDict_same {query headers assertions query' headers' assertions' : List Json} :
    (semanticDict t query headers assertions).same (semanticDict u query' headers' assertions') = true ↔
      t.kind = u.kind ∧
        (semanticRequest t query headers).same (semanticRequest u query' headers') = true ∧
          Json.sameList assertions assertions' = true := by
  rw [semanticDict, semanticDict, same_aligned semanticFields (plainNames_nodup semanticFields_plain) rfl rfl]
  generalize semanticRequest t query headers = request
  generalize semanticRequest u query' headers' = request'
  simp only [List.map_cons, List.map_nil, Json.sameList, Json.same, Bool.and_eq_true, decide_eq_true_eq,
    and_true, true_and]
  exact and_congr_left fun _ => ⟨fun same => kind_value_injective same, fun kind => congrArg _ kind⟩

/-- Two tests have one key exactly when they behave the same. -/
theorem semanticKey_eq_iff (valid : IsValidated decimal t) (valid' : IsValidated decimal u)
    (spelled : Spelled t) (spelled' : Spelled u) {key key' : Str} (made : semanticKey limit t = .ok key)
    (made' : semanticKey limit u = .ok key') : key = key' ↔ SameBehaviour t u := by
  obtain ⟨v, payload, printed⟩ := bind_ok.mp made
  obtain ⟨w, payload', printed'⟩ := bind_ok.mp made'
  obtain ⟨query, headers, assertions, sorted, rfl⟩ := semanticPayload_ok.mp payload
  obtain ⟨query', headers', assertions', sorted', rfl⟩ := semanticPayload_ok.mp payload'
  have one : OneText (semanticDict t query headers assertions) :=
    ⟨semanticDict_passes keptLower_distinct valid.behaves_distinct sorted,
      semanticDict_passes keptLower_pairFree spelled.texts sorted⟩
  have one' : OneText (semanticDict u query' headers' assertions') :=
    ⟨semanticDict_passes keptLower_distinct valid'.behaves_distinct sorted',
      semanticDict_passes keptLower_pairFree spelled'.texts sorted'⟩
  have queries : Json.sameList query query' = true ↔ t.request.query.Perm u.request.query :=
    sortedByJson_same parameter_told (query_passes spelled.texts) sorted.query sorted'.query
  have headed : Json.sameList headers headers' = true ↔
      (t.request.headers.map normalizedHeader).Perm (u.request.headers.map normalizedHeader) := by
    have first := sorted.headers
    have second := sorted'.headers
    rw [← Function.comp_def, ← List.map_map] at first second
    refine sortedByJson_same parameter_told (List.forall_mem_map.mpr fun h listed => ?_) first second
    exact normalizedHeader_passes keptLower_pairFree (headers_pass spelled.texts h listed)
  have asserted : Json.sameList assertions assertions' = true ↔
      (t.assertions.map normalizedAssertion).Perm (u.assertions.map normalizedAssertion) := by
    have first := sorted.assertions
    have second := sorted'.assertions
    rw [← Function.comp_def, ← List.map_map] at first second
    refine sortedByJson_same assertion_told (List.forall_mem_map.mpr fun a listed => ?_) first second
    exact normalizedAssertion_passes keptLower_pairFree (assertions_pass spelled.texts a listed)
  rw [canonicalJson_eq_iff one one' printed printed', semanticDict_same, semanticRequest_same, queries,
    headed, asserted, normalizedHeaders valid, normalizedHeaders valid']
  constructor
  · rintro ⟨kind, ⟨method, path, query, headers, body⟩, assertions⟩
    exact ⟨kind, method, path, query, headers, body, assertions⟩
  · rintro ⟨kind, method, path, query, headers, body, assertions⟩
    exact ⟨kind, ⟨method, path, query, headers, body⟩, assertions⟩

end QaCopilot.Execution
