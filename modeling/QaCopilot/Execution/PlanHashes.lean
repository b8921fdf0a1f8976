import QaCopilot.Execution.Plans
import QaCopilot.Execution.SemanticKeys
import QaCopilot.Python.AsciiJson

/-!
# What a plan hash binds

* `validateExecutionPlan_ok`: what a plan is that is accepted;
* `planHash_binds`: plans of one hash do the same, or the hash of what they do collides.
-/

namespace QaCopilot.Plans

open Execution Python Results

variable {p : Planner} {r : TargetRegistry}

/-! ## Accepted plans -/

theorem notPlannedWhen_ok {c : Prop} [Decidable c] {message : String} :
    notPlannedWhen c message = .ok () ↔ ¬ c := by
  unfold notPlannedWhen
  by_cases holds : c
  · rw [if_pos holds]
    exact iff_of_false (fun h => by cases h) (not_not.mpr holds)
  · rw [if_neg holds]
    exact iff_of_true rfl holds

theorem canonicalJson_ok {v : Json} {text : Str} :
    canonicalJson p v = .ok text ↔ Execution.canonicalJson p.recursionLimit v = .ok text := mapError_ok

theorem registeredTarget_ok {targetId : Str} {target : RegisteredTarget} :
    registeredTarget r targetId = .ok target ↔ r.get targetId = some target := by
  unfold registeredTarget
  cases r.get targetId with
  | none => exact iff_of_false (fun h => by cases h) (fun h => by cases h)
  | some t =>
    constructor
    · exact fun h => congrArg some (Except.ok.inj h)
    · exact fun h => congrArg Except.ok (Option.some.inj h)

/-- The target, the test and the text of an accepted plan. -/
structure Accepts (p : Planner) (r : TargetRegistry) (plan : ExecutionPlan) (test : GeneratedTestCase)
    (target : RegisteredTarget) (material : Str) : Prop where
  schemaVersion : plan.schemaVersion = executionPlanSchemaVersion
  testCase : testCaseFromSnapshot p plan.testCasePayload = .ok test
  testCaseId : test.id = plan.testCaseId
  registered : r.get plan.targetId.value = some target
  baseUrl : plan.targetBaseUrl = target.configuration.baseUrl
  targetSchemaVersion : plan.targetSchemaVersion = target.configuration.schemaVersion
  limits : validatedLimits plan.limits = .ok plan.limits
  estimate : estimateOf p test plan.limits = .ok plan.estimate
  printed : planHashPayload p target test plan.limits plan.estimate = .ok material
  planHash : plan.planHash = sha256Hex p material
  id : plan.id = uuid5 p.sha1 executionPlanNamespace plan.planHash

theorem validatedLimits_ok {l l' : ExecutionLimits} (h : validatedLimits l = .ok l') : l' = l := by
  obtain ⟨⟨⟩, -, h⟩ := bind_ok.mp h
  obtain ⟨⟨⟩, -, h⟩ := bind_ok.mp h
  obtain ⟨⟨⟩, -, h⟩ := bind_ok.mp h
  obtain ⟨⟨⟩, -, h⟩ := bind_ok.mp h
  exact (Except.ok.inj h).symm

theorem validateExecutionPlan_ok {plan plan' : ExecutionPlan} :
    validateExecutionPlan p r plan = .ok plan' ↔
      plan' = plan ∧ ∃ test target material, Accepts p r plan test target material := by
  constructor
  · intro h
    obtain ⟨⟨⟩, schemaVersion, h⟩ := bind_ok.mp h
    obtain ⟨test, testCase, h⟩ := bind_ok.mp h
    obtain ⟨⟨⟩, testCaseId, h⟩ := bind_ok.mp h
    obtain ⟨target, registered, h⟩ := bind_ok.mp h
    obtain ⟨⟨⟩, configured, h⟩ := bind_ok.mp h
    obtain ⟨limits, limited, h⟩ := bind_ok.mp h
    obtain ⟨estimate, estimated, h⟩ := bind_ok.mp h
    obtain ⟨⟨⟩, sameEstimate, h⟩ := bind_ok.mp h
    obtain ⟨material, printed, h⟩ := bind_ok.mp h
    obtain ⟨⟨⟩, hashed, h⟩ := bind_ok.mp h
    obtain ⟨⟨⟩, identified, h⟩ := bind_ok.mp h
    have same := (Except.ok.inj h).symm
    obtain rfl := validatedLimits_ok limited
    simp only [notPlannedWhen_ok, not_or, not_not] at schemaVersion testCaseId configured
    simp only [notPlannedWhen_ok, not_not] at sameEstimate hashed identified
    obtain rfl := sameEstimate
    refine ⟨same, test, target, material, ?_⟩
    exact ⟨schemaVersion, testCase, testCaseId, registeredTarget_ok.mp registered, configured.1,
      configured.2, limited, estimated, printed, hashed, by rw [identified, hashed]⟩
  · rintro ⟨rfl, test, target, material, a⟩
    have configured : ¬ (plan'.targetBaseUrl ≠ target.configuration.baseUrl ∨
        plan'.targetSchemaVersion ≠ target.configuration.schemaVersion) := by
      simp only [not_or, not_not]
      exact ⟨a.baseUrl, a.targetSchemaVersion⟩
    have identified : plan'.id = uuid5 p.sha1 executionPlanNamespace (sha256Hex p material) := by
      rw [a.id, a.planHash]
    rw [validateExecutionPlan, notPlannedWhen_ok.mpr (not_not.mpr a.schemaVersion), ok_bind, a.testCase,
      ok_bind, notPlannedWhen_ok.mpr (not_not.mpr a.testCaseId), ok_bind,
      registeredTarget_ok.mpr a.registered, ok_bind, notPlannedWhen_ok.mpr configured, ok_bind, a.limits,
      ok_bind, a.estimate, ok_bind, notPlannedWhen_ok.mpr (not_not.mpr rfl), ok_bind, a.printed, ok_bind]
    dsimp only
    rw [notPlannedWhen_ok.mpr (not_not.mpr a.planHash), ok_bind,
      notPlannedWhen_ok.mpr (not_not.mpr identified), ok_bind]
    rfl

theorem testCaseFromSnapshot_ok {snapshot : Str} {test : GeneratedTestCase} :
    testCaseFromSnapshot p snapshot = .ok test ↔
      ∃ payload, loads p.recursionLimit snapshot = .ok (.dict payload) ∧
        validateGeneratedTestCase p.decimal (Json.toItems payload) = .ok test := by
  unfold testCaseFromSnapshot
  cases loads p.recursionLimit snapshot with
  | error e => cases e <;> simp [notPlanned]
  | ok v =>
    cases v with
    | dict payload => simp [mapError_ok]
    | null | bool | int | float | str | list => simp [notPlanned]

/-! ## The payload that is hashed -/

def targetFields : List Str :=
  [lit "id", lit "base_url", lit "schema_version", lit "redirects_allowed"]

def materialFields : List Str :=
  [lit "schema_version", lit "id", lit "kind", lit "source_finding_id", lit "citation_ids",
    lit "request", lit "assertions"]

def limitsFields : List Str :=
  [lit "request_timeout_ms", lit "max_request_body_bytes", lit "max_response_bytes",
    lit "max_assertions"]

def estimateFields : List Str :=
  [lit "request_count", lit "request_body_bytes", lit "assertion_count",
    lit "maximum_response_bytes", lit "maximum_duration_ms"]

def hashedFields : List Str :=
  [lit "schema_version", lit "target", lit "generated_test_case", lit "limits", lit "estimate"]

theorem planNames_plain : ∀ names ∈ [targetFields, materialFields, limitsFields, estimateFields,
    hashedFields], plainNames names = true := by decide +kernel

theorem targetFields_plain : plainNames targetFields = true := planNames_plain _ (by simp)

theorem materialFields_plain : plainNames materialFields = true := planNames_plain _ (by simp)

theorem limitsFields_plain : plainNames limitsFields = true := planNames_plain _ (by simp)

theorem estimateFields_plain : plainNames estimateFields = true := planNames_plain _ (by simp)

theorem hashedFields_plain : plainNames hashedFields = true := planNames_plain _ (by simp)

theorem material_eq (t : GeneratedTestCase) : materialTestCasePayload t =
    [(lit "schema_version", .str generatedTestCaseSchemaVersion), (lit "id", .str (uuidText t.id)),
      (lit "kind", .str t.kind.value), (lit "source_finding_id", .str (uuidText t.sourceFindingId)),
      (lit "citation_ids", .list (t.citationIds.map fun u => .str (uuidText u))),
      (lit "request", t.request.asPayload),
      (lit "assertions", .list (t.assertions.map GeneratedAssertion.asPayload))] := by
  rfl

section
variable {c : Check} {target target' : RegisteredTarget} {t t' : GeneratedTestCase}
  {l l' : ExecutionLimits} {e e' : ExecutionEstimate}

theorem material_passes (kept : Kept c) (passes : (Json.dict t.asPayload).check c = true) :
    (Json.dict (materialTestCasePayload t)).check c = true := by
  rw [Json.check, Bool.and_eq_true, checkItems_eq_true] at passes
  refine check_payload kept materialFields (by rw [material_eq]; rfl) materialFields_plain ?_
  exact fun i hi => passes.2 i (List.mem_of_mem_filter hi)

/-- What the hashed payload passes. -/
theorem hashed_passes (kept : Kept c) (integers : ∀ n, c.int n = true)
    (baseUrl : c.str target.configuration.baseUrl = true)
    (schemaVersion : c.str target.configuration.schemaVersion = true)
    (passes : (Json.dict t.asPayload).check c = true) : (hashedPayload target t l e).check c = true := by
  have identified : isPlain target.id.value = true := by cases target.id; decide
  have version : isPlain executionPlanSchemaVersion = true := by decide
  have targeted : target.asPayload.check c = true := by
    refine check_payload kept targetFields rfl targetFields_plain ?_
    simp only [List.forall_mem_cons, List.not_mem_nil, false_implies, implies_true, and_true]
    exact ⟨kept.plain _ identified, baseUrl, schemaVersion, rfl⟩
  have limited : l.asPayload.check c = true := by
    refine check_payload kept limitsFields rfl limitsFields_plain ?_
    simp only [List.forall_mem_cons, List.not_mem_nil, false_implies, implies_true, and_true]
    exact ⟨integers _, integers _, integers _, integers _⟩
  have estimated : e.asPayload.check c = true := by
    refine check_payload kept estimateFields rfl estimateFields_plain ?_
    simp only [List.forall_mem_cons, List.not_mem_nil, false_implies, implies_true, and_true]
    exact ⟨integers _, integers _, integers _, integers _, integers _⟩
  refine check_payload kept hashedFields rfl hashedFields_plain ?_
  simp only [List.forall_mem_cons, List.not_mem_nil, false_implies, implies_true, and_true]
  exact ⟨kept.plain _ version, targeted, material_passes kept passes, limited, estimated⟩

/-! ## Payloads that are the same -/

theorem told_refl {T : Type} {render : T → Json} (told : Told render) (t : T) :
    (render t).same (render t) = true :=
  (sorted_eq_iff _ _ (told.distinct t) (told.distinct t)).mp rfl

theorem sameList_iff {T : Type} {render : T → Json} (told : Told render) {ts us : List T} :
    Json.sameList (ts.map render) (us.map render) = true ↔ ts = us := by
  induction ts generalizing us with
  | nil => cases us <;> simp [Json.sameList]
  | cons t ts ih =>
    cases us with
    | nil => simp [Json.sameList]
    | cons u us =>
      rw [List.map_cons, List.map_cons, Json.sameList, Bool.and_eq_true, ih, List.cons.injEq]
      refine and_congr_left fun _ => ⟨told.apart t u, ?_⟩
      rintro rfl
      exact told_refl told t

theorem uuid_told : Told fun u => .str (uuidText u) where
  distinct _ := rfl
  apart u v same := by
    simp only [Json.same, decide_eq_true_eq] at same
    exact uuidText_injective same

theorem target_same : target.asPayload.same target'.asPayload = true ↔
    target.id = target'.id ∧ target.configuration = target'.configuration := by
  obtain ⟨id, baseUrl, redirects, schemaVersion⟩ := target
  obtain ⟨id', baseUrl', redirects', schemaVersion'⟩ := target'
  cases id
  cases id'
  rw [RegisteredTarget.asPayload, RegisteredTarget.asPayload,
    same_aligned targetFields (plainNames_nodup targetFields_plain) rfl rfl]
  simp only [List.map_cons, List.map_nil, Json.sameList, Json.same, decide_true, Bool.true_and,
    Bool.and_true, Bool.and_eq_true, decide_eq_true_eq, true_and, TargetConfiguration.mk.injEq]
  tauto

theorem limits_same : l.asPayload.same l'.asPayload = true ↔ l = l' := by
  rw [ExecutionLimits.asPayload, ExecutionLimits.asPayload,
    same_aligned limitsFields (plainNames_nodup limitsFields_plain) rfl rfl]
  obtain ⟨timeout, request, response, assertions⟩ := l
  obtain ⟨timeout', request', response', assertions'⟩ := l'
  simp [Json.sameList, Json.same]

theorem estimate_same : e.asPayload.same e'.asPayload = true ↔ e = e' := by
  rw [ExecutionEstimate.asPayload, ExecutionEstimate.asPayload,
    same_aligned estimateFields (plainNames_nodup estimateFields_plain) rfl rfl]
  obtain ⟨requests, bytes, assertions, response, duration⟩ := e
  obtain ⟨requests', bytes', assertions', response', duration'⟩ := e'
  simp [Json.sameList, Json.same]

/-- The tests do the same. Their titles may differ. -/
structure SameTest (t t' : GeneratedTestCase) : Prop where
  id : t.id = t'.id
  kind : t.kind = t'.kind
  sourceFindingId : t.sourceFindingId = t'.sourceFindingId
  citationIds : t.citationIds = t'.citationIds
  method : t.request.method = t'.request.method
  path : t.request.path = t'.request.path
  query : t.request.query = t'.request.query
  headers : t.request.headers = t'.request.headers
  jsonBody : (bodyPayload t.request.jsonBody).same (bodyPayload t'.request.jsonBody) = true
  assertions : t.assertions = t'.assertions

theorem request_same {q q' : RequestTemplate} : q.asPayload.same q'.asPayload = true ↔
    q.method = q'.method ∧ q.path = q'.path ∧ q.query = q'.query ∧ q.headers = q'.headers ∧
      (bodyPayload q.jsonBody).same (bodyPayload q'.jsonBody) = true := by
  rw [RequestTemplate.asPayload, RequestTemplate.asPayload,
    same_aligned requestFields (plainNames_nodup requestFields_plain) rfl rfl]
  simp only [List.map_cons, List.map_nil, Json.sameList, Json.same, Bool.and_eq_true,
    decide_eq_true_eq, and_true, sameList_iff parameter_told, method_value_injective.eq_iff]

theorem material_same :
    (Json.dict (materialTestCasePayload t)).same (.dict (materialTestCasePayload t')) = true ↔
      SameTest t t' := by
  have uuids : ∀ u v : Uuid, uuidText u = uuidText v ↔ u = v :=
    fun u v => ⟨uuidText_injective, congrArg uuidText⟩
  rw [material_eq, material_eq,
    same_aligned materialFields (plainNames_nodup materialFields_plain) rfl rfl]
  simp only [List.map_cons, List.map_nil, Json.sameList, Bool.and_eq_true, request_same]
  simp only [Json.same, decide_eq_true_eq, uuids, kind_value_injective.eq_iff, sameList_iff uuid_told,
    sameList_iff assertion_told, true_and, and_true]
  constructor
  · rintro ⟨id, kind, finding, citations, ⟨method, path, query, headers, body⟩, assertions⟩
    exact ⟨id, kind, finding, citations, method, path, query, headers, body, assertions⟩
  · intro h
    exact ⟨h.id, h.kind, h.sourceFindingId, h.citationIds,
      ⟨h.method, h.path, h.query, h.headers, h.jsonBody⟩, h.assertions⟩

theorem hashed_same : (hashedPayload target t l e).same (hashedPayload target' t' l' e') = true ↔
    (target.id = target'.id ∧ target.configuration = target'.configuration) ∧ SameTest t t' ∧
      l = l' ∧ e = e' := by
  rw [hashedPayload, hashedPayload,
    same_aligned hashedFields (plainNames_nodup hashedFields_plain) rfl rfl]
  simp only [List.map_cons, List.map_nil, Json.sameList, Bool.and_eq_true, target_same, material_same,
    limits_same, estimate_same, and_true]
  simp only [Json.same, decide_true, true_and]

end

/-! ## Hashes -/

/-- The texts of the plan are Unicode scalars. -/
structure PlainTexts (plan : ExecutionPlan) : Prop where
  baseUrl : ∀ c ∈ plan.targetBaseUrl, isSurrogate c = false
  schemaVersion : ∀ c ∈ plan.targetSchemaVersion, isSurrogate c = false
  snapshot : ∀ c ∈ plan.testCasePayload, isSurrogate c = false

theorem pairFree_of_plain {s : Str} (plain : ∀ c ∈ s, isSurrogate c = false) : pairFree s = true := by
  induction s with
  | nil => rfl
  | cons c s ih =>
    obtain ⟨first, rest⟩ := List.forall_mem_cons.mp plain
    cases s with
    | nil => rfl
    | cons d s =>
      refine pairFree_cons_cons.mpr ⟨?_, ih rest⟩
      rw [isSurrogate, Bool.or_eq_false_iff] at first
      simp [first.1]

variable {plan plan' : ExecutionPlan} {test test' : GeneratedTestCase}
  {target target' : RegisteredTarget} {material material' : Str}

theorem Accepts.oneText (a : Accepts p r plan test target material) (plain : PlainTexts plan) :
    OneText (hashedPayload target test plan.limits plan.estimate) := by
  obtain ⟨payload, read, accepted⟩ := testCaseFromSnapshot_ok.mp a.testCase
  have distinct := check_loads spelled_distinct settable_distinct (fun _ _ => trivial) read
  have free := check_loads spelled_pairFree settable_pairFree plain.snapshot read
  constructor
  · exact hashed_passes kept_distinct (fun _ => rfl) rfl rfl
      (passes_asPayload kept_distinct distinct accepted)
  · refine hashed_passes kept_pairFree (fun _ => rfl) ?_ ?_ (passes_asPayload kept_pairFree free accepted)
    · exact pairFree_of_plain (a.baseUrl ▸ plain.baseUrl)
    · exact pairFree_of_plain (a.targetSchemaVersion ▸ plain.schemaVersion)

theorem printsAscii_normal : normalDumps.PrintsAscii where
  ensure := rfl
  items := ascii_of_all (by decide)
  keys := ascii_of_all (by decide)

theorem Accepts.material_ascii (a : Accepts p r plan test target material) : Ascii material :=
  ascii_dumps printsAscii_normal _ (Execution.canonicalJson_ok.mp (canonicalJson_ok.mp a.printed))

/-- The plans run the same test against the same target within the same limits. -/
structure SameRun (plan plan' : ExecutionPlan) (test test' : GeneratedTestCase) : Prop where
  targetId : plan.targetId = plan'.targetId
  baseUrl : plan.targetBaseUrl = plan'.targetBaseUrl
  schemaVersion : plan.targetSchemaVersion = plan'.targetSchemaVersion
  limits : plan.limits = plan'.limits
  estimate : plan.estimate = plan'.estimate
  test : SameTest test test'

theorem get_id {targetId : Str} (found : r.get targetId = some target) : target.id.value = targetId := by
  obtain ⟨expected, known, found⟩ := Option.bind_eq_some_iff.mp found
  have same := List.find?_some found
  have named := List.find?_some known
  rw [of_decide_eq_true same]
  exact of_decide_eq_true named

theorem targetId_value_injective : Function.Injective TargetId.value :=
  fun a b _ => by cases a; cases b; rfl

/-- The texts that are hashed are one exactly when the plans do the same. -/
theorem Accepts.material_eq_iff (a : Accepts p r plan test target material)
    (a' : Accepts p r plan' test' target' material') (plain : PlainTexts plan)
    (plain' : PlainTexts plan') : material = material' ↔ SameRun plan plan' test test' := by
  have printed := canonicalJson_ok.mp a.printed
  have printed' := canonicalJson_ok.mp a'.printed
  rw [canonicalJson_eq_iff (a.oneText plain) (a'.oneText plain') printed printed', hashed_same]
  have id : target.id = plan.targetId := targetId_value_injective (get_id a.registered)
  have id' : target'.id = plan'.targetId := targetId_value_injective (get_id a'.registered)
  constructor
  · rintro ⟨⟨sameId, configured⟩, same, limits, estimate⟩
    have targets : plan.targetId = plan'.targetId := id.symm.trans (sameId.trans id')
    exact ⟨targets, by rw [a.baseUrl, a'.baseUrl, configured],
      by rw [a.targetSchemaVersion, a'.targetSchemaVersion, configured], limits, estimate, same⟩
  · intro same
    have found := a.registered
    rw [same.targetId, a'.registered] at found
    obtain rfl := Option.some.inj found
    exact ⟨⟨rfl, rfl⟩, same.test, same.limits, same.estimate⟩

/-- Plans of one hash do the same, or SHA-256 gives one digest to the two texts of what they do. -/
theorem planHash_binds (accepted : validateExecutionPlan p r plan = .ok plan)
    (accepted' : validateExecutionPlan p r plan' = .ok plan') (plain : PlainTexts plan)
    (plain' : PlainTexts plan') :
    ∃ test target material test' target' material',
      Accepts p r plan test target material ∧ Accepts p r plan' test' target' material' ∧
        (plan.planHash = plan'.planHash ↔ SameRun plan plan' test test' ∨
          material ≠ material' ∧
            p.sha256 ((utf8 material).getD []) = p.sha256 ((utf8 material').getD [])) := by
  obtain ⟨-, test, target, material, a⟩ := validateExecutionPlan_ok.mp accepted
  obtain ⟨-, test', target', material', a'⟩ := validateExecutionPlan_ok.mp accepted'
  refine ⟨test, target, material, test', target', material', a, a', ?_⟩
  rw [← a.material_eq_iff a' plain plain', a.planHash, a'.planHash]
  constructor
  · intro hash
    by_cases same : material = material'
    · exact .inl same
    · exact .inr ⟨same, hexdigest_injective hash⟩
  · rintro (rfl | ⟨-, collide⟩)
    · rfl
    · exact congrArg hexdigest collide

end QaCopilot.Plans
