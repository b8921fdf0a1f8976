import QaCopilot.Evaluation.ResumedRuns
import QaCopilot.Evaluation.RunReports

/-!
# The round trip of a run report

A run whose texts hold no surrogate pair and whose ints have no more digits than Python prints
comes back from its report; no other run does.
-/

namespace QaCopilot.Evaluation

open Python Results

/-! ## What a report holds -/

def EvaluationObservation.strings (o : EvaluationObservation) : List Str :=
  o.boundary :: (o.groundTruthIds ++ o.sourceReferences)

def EvaluationObservation.numbers (o : EvaluationObservation) : List IntOrFloat :=
  o.cost :: o.sideEffects.items.map (·.2)

def EvaluationRunCaseResult.strings (r : EvaluationRunCaseResult) : List Str :=
  r.caseId :: r.caseSha256 :: r.observation.strings

def EvaluationRunCaseResult.numbers (r : EvaluationRunCaseResult) : List IntOrFloat :=
  .int r.caseVersion :: r.observation.numbers

/-- The texts of a run. -/
def EvaluationRun.strings (r : EvaluationRun) : List Str :=
  r.schemaVersion :: r.suiteId :: r.fixtureSha256 ::
    (r.selectedCaseIds ++ r.results.flatMap (·.strings))

/-- The numbers of a run. -/
def EvaluationRun.numbers (r : EvaluationRun) : List IntOrFloat :=
  .int r.maxConcurrency :: (r.maxExpectedCost.toList ++ r.results.flatMap (·.numbers))

/-- `int.__repr__` prints the number. -/
def printable : IntOrFloat → Bool
  | .int n => (digits n.natAbs).length ≤ maxStrDigits
  | _ => true

/-- No text of the run holds a high surrogate before a low one, and no int has too many digits. -/
def EvaluationRun.Portable (r : EvaluationRun) : Prop :=
  (∀ s ∈ r.strings, pairFree s = true) ∧ ∀ n ∈ r.numbers, printable n = true

def numberCheck (c : Check) : IntOrFloat → Bool
  | .bool _ => true
  | .int n => c.int n
  | .float x => c.float x

section
variable {c : Check}

theorem check_toJson_number (n : IntOrFloat) : n.toJson.check c = numberCheck c n := by
  cases n <;> rfl

theorem check_texts {values : List Str} :
    (texts values).check c = true ↔ ∀ s ∈ values, c.str s = true := by
  rw [texts, Json.check, checkList_eq_true, List.forall_mem_map]
  rfl

/-- The check accepts the keys of every dict of a report. -/
def AcceptsKeys (c : Check) : Prop :=
  ∀ names ∈ [runKeys, resultKeys, observationKeys, sortedFieldNames],
    c.keys (names.map lit) = true

theorem check_observation (keys : AcceptsKeys c) {o : EvaluationObservation} (valid : o.Valid) :
    (Json.dict o.toItems).check c = true ↔
      (∀ s ∈ o.strings, c.str s = true) ∧ ∀ n ∈ o.numbers, numberCheck c n = true := by
  obtain ⟨count, same⟩ := valid.sideEffects
  have own : c.keys (o.toItems.map (·.1)) = true := keys observationKeys (by simp)
  have names : c.keys ((o.sideEffects.items.map fun i => (i.1, i.2.toJson)).map (·.1)) = true := by
    rw [List.map_map]
    have := keys sortedFieldNames (by simp)
    rw [← keys_byFieldName fun name => IntOrFloat.int (count name), ← same] at this
    exact this
  rw [Json.check, own, Bool.true_and, checkItems_eq_true]
  simp only [EvaluationObservation.toItems, List.forall_mem_cons, Json.check, check_texts, names,
    Bool.true_and, checkItems_eq_true, check_toJson_number, List.forall_mem_map,
    EvaluationObservation.strings, EvaluationObservation.numbers, List.forall_mem_append,
    List.not_mem_nil, false_implies, implies_true, and_true]
  tauto

theorem check_result (keys : AcceptsKeys c) {r : EvaluationRunCaseResult} (valid : r.Valid) :
    (Json.dict r.toItems).check c = true ↔
      (∀ s ∈ r.strings, c.str s = true) ∧ ∀ n ∈ r.numbers, numberCheck c n = true := by
  have own : c.keys (r.toItems.map (·.1)) = true := keys resultKeys (by simp)
  rw [Json.check, own, Bool.true_and, checkItems_eq_true]
  simp only [EvaluationRunCaseResult.toItems, List.forall_mem_cons, EvaluationRunCaseResult.strings,
    EvaluationRunCaseResult.numbers, check_observation keys valid.observation, numberCheck,
    List.not_mem_nil, false_implies, implies_true, and_true]
  simp only [Json.check]
  tauto

theorem check_run (keys : AcceptsKeys c) {r : EvaluationRun} (valid : r.Valid) :
    r.toJson.check c = true ↔
      (∀ s ∈ r.strings, c.str s = true) ∧ ∀ n ∈ r.numbers, numberCheck c n = true := by
  have own : c.keys (r.toItems.map (·.1)) = true := keys runKeys (by simp)
  have results : (Json.list (r.results.map fun result => .dict result.toItems)).check c = true ↔
      ∀ result ∈ r.results, (∀ s ∈ result.strings, c.str s = true) ∧
        ∀ n ∈ result.numbers, numberCheck c n = true := by
    rw [Json.check, checkList_eq_true, List.forall_mem_map]
    exact forall₂_congr fun result listed => check_result keys (valid.results result listed)
  have budget : (budgetJson r.maxExpectedCost).check c = true ↔
      ∀ n ∈ r.maxExpectedCost.toList, numberCheck c n = true := by
    cases r.maxExpectedCost with
    | none => simp [budgetJson, Json.check]
    | some cost => simp [budgetJson, check_toJson_number]
  have folds : (∀ result ∈ r.results, (∀ s ∈ result.strings, c.str s = true) ∧
      ∀ n ∈ result.numbers, numberCheck c n = true) ↔
      (∀ s ∈ r.results.flatMap (·.strings), c.str s = true) ∧
        ∀ n ∈ r.results.flatMap (·.numbers), numberCheck c n = true := by
    simp only [List.mem_flatMap, forall_exists_index, and_imp]
    constructor
    · intro all
      exact ⟨fun s result listed hs => (all result listed).1 s hs,
        fun n result listed hn => (all result listed).2 n hn⟩
    · intro all result listed
      exact ⟨fun s hs => all.1 s result listed hs, fun n hn => all.2 n result listed hn⟩
  rw [EvaluationRun.toJson, Json.check, own, Bool.true_and, checkItems_eq_true]
  simp only [EvaluationRun.toItems, List.forall_mem_cons, results, budget, check_texts,
    EvaluationRun.strings, EvaluationRun.numbers, List.forall_mem_append, numberCheck,
    List.not_mem_nil, false_implies, implies_true, and_true]
  simp only [Json.check]
  tauto

end

theorem acceptsKeys_accepts (o : DumpsOptions) : AcceptsKeys o.accepts := fun _ _ => rfl

theorem acceptsKeys_distinct : AcceptsKeys .distinctKeys := by
  intro names listed
  have distinct : names.Nodup := by
    simp only [List.mem_cons, List.not_mem_nil, or_false] at listed
    rcases listed with rfl | rfl | rfl | rfl
    · decide
    · decide
    · decide
    · exact sortedFieldNames_perm.nodup_iff.mpr (by decide)
  exact decide_eq_true (nodup_names distinct)

/-- A literal of ASCII text holds no surrogates. -/
theorem pairFree_lit {s : String} (ascii : s.toList.all (·.toNat < 0xD800) = true) :
    pairFree (lit s) = true := by
  refine pairFree_of_low ?_
  rw [lit_eq, List.forall_mem_map]
  exact fun c hc => of_decide_eq_true (List.all_eq_true.mp ascii c hc)

theorem acceptsKeys_pairFree (c : Check) (keys : c.keys = fun l => l.all pairFree) : AcceptsKeys c := by
  intro names listed
  have ascii : ∀ name ∈ names, name.toList.all (·.toNat < 0xD800) = true := by
    simp only [List.mem_cons, List.not_mem_nil, or_false] at listed
    rcases listed with rfl | rfl | rfl | rfl
    · decide
    · decide
    · decide
    · have all : ∀ name ∈ sideEffectFieldNames, name.toList.all (·.toNat < 0xD800) = true := by
        decide +kernel
      exact fun name hname => all name (sortedFieldNames_perm.mem_iff.mp hname)
  rw [keys]
  exact List.all_eq_true.mpr
    (List.forall_mem_map.mpr fun name hname => pairFree_lit (ascii name hname))

theorem depth_texts (values : List Str) : (texts values).depth = 1 := by
  have flat : Json.depthList (values.map .str) ≤ 0 :=
    depthList_le.mpr (List.forall_mem_map.mpr fun _ _ => le_rfl)
  rw [texts, Json.depth, Nat.le_zero.mp flat]

theorem depth_number (n : IntOrFloat) : n.toJson.depth = 0 := by cases n <;> rfl

/-- A report nests five containers. -/
theorem depth_run (r : EvaluationRun) : r.toJson.depth ≤ 5 := by
  have effects : ∀ o : EvaluationObservation, (Json.dict o.toItems).depth ≤ 2 := by
    intro o
    have counts : Json.depthItems (o.sideEffects.items.map fun i => (i.1, i.2.toJson)) ≤ 0 :=
      depthItems_le.mpr (List.forall_mem_map.mpr fun i _ => (depth_number i.2).le)
    simp only [EvaluationObservation.toItems, Json.depth, Json.depthItems, depth_texts,
      depth_number]
    omega
  have result : ∀ r : EvaluationRunCaseResult, (Json.dict r.toItems).depth ≤ 3 := by
    intro r
    have inner := effects r.observation
    simp only [EvaluationRunCaseResult.toItems, Json.depth, Json.depthItems] at inner ⊢
    omega
  have results : Json.depthList (r.results.map fun result => .dict result.toItems) ≤ 3 :=
    depthList_le.mpr (List.forall_mem_map.mpr fun r _ => result r)
  have budget : (budgetJson r.maxExpectedCost).depth = 0 := by
    cases r.maxExpectedCost with
    | none => rfl
    | some cost => exact depth_number cost
  simp only [EvaluationRun.toJson, EvaluationRun.toItems, Json.depth, Json.depthItems, depth_texts,
    budget]
  omega

/-! ## There and back -/

theorem separates_report : reportDumps.Separates :=
  ⟨fun _ => rfl, fun _ => rfl, fun _ => numberEnd_mark _ (by decide)⟩

/-- When a valid run is printed. -/
theorem asJson_isOk {r : EvaluationRun} (valid : r.Valid) :
    (∃ text, r.asJson = .ok text) ↔ ∀ n ∈ r.numbers, printable n = true := by
  have made : (∃ text, r.asJson = .ok text) ↔
      ∃ text, dumpsIndent reportDumps 2 0 r.toJson.sorted = .ok text := by
    constructor
    · rintro ⟨text, h⟩
      obtain ⟨inner, h, -⟩ := bind_ok.mp h
      exact ⟨inner, h⟩
    · rintro ⟨text, h⟩
      exact ⟨_, bind_ok.mpr ⟨text, h, rfl⟩⟩
  have numbers : ∀ n, numberCheck reportDumps.accepts n = printable n := by
    intro n
    cases n <;> rfl
  have all : ∀ s ∈ r.strings, reportDumps.accepts.str s = true := fun _ _ => rfl
  rw [made, dumpsIndent_isOk, check_sorted (accepts_unordered _),
    check_run (acceptsKeys_accepts _) valid, and_iff_right all]
  simp only [numbers]

/-- The value that the JSON decoder reads from a report. -/
theorem loads_asJson {r : EvaluationRun} (valid : r.Valid) {text : Str} (made : r.asJson = .ok text)
    {limit : Nat} (room : 5 ≤ limit) :
    loads limit text = .ok (r.toJson.sorted.mapStr joinPairs) := by
  obtain ⟨inner, printed, h⟩ := bind_ok.mp made
  obtain rfl := Except.ok.inj h
  have distinct : r.toJson.sorted.check .distinctKeys = true := by
    rw [check_sorted distinctKeys_unordered, check_run acceptsKeys_distinct valid]
    exact ⟨fun _ _ => rfl, fun n _ => by cases n <;> rfl⟩
  have keys : r.toJson.sorted.check .pairFreeKeys = true := by
    rw [check_sorted pairFreeKeys_unordered, check_run (acceptsKeys_pairFree _ rfl) valid]
    exact ⟨fun _ _ => rfl, fun n _ => by cases n <;> rfl⟩
  refine loads_dumpsIndent separates_report rfl printed distinct keys ?_
  rw [depth_sorted]
  exact (depth_run r).trans room

/-- The run is printed, and comes back from the text and from the text of its decoded value. -/
def RoundTrips (ε : Type) (limit : Nat) (r : EvaluationRun) : Prop :=
  ∃ text, r.asJson = .ok text ∧ evaluationRunFromJson ε limit text = .ok r ∧
    ∃ v text', loads limit text = .ok v ∧ dumps .default limit v = .ok text' ∧
      evaluationRunFromJson ε limit text' = .ok r

theorem roundTrips_of_portable {ε : Type} {limit : Nat} (room : 5 ≤ limit) {r : EvaluationRun}
    (valid : r.Valid) (portable : r.Portable) : RoundTrips ε limit r := by
  obtain ⟨text, made⟩ := (asJson_isOk valid).mpr portable.2
  have free : r.toJson.sorted.check .pairFree = true := by
    rw [check_sorted pairFree_unordered, check_run (acceptsKeys_pairFree _ rfl) valid]
    exact ⟨portable.1, fun n _ => by cases n <;> rfl⟩
  have read := loads_asJson valid made room
  rw [mapStr_of_pairFree free] at read
  have accepts : r.toJson.sorted.check DumpsOptions.default.accepts = true := by
    rw [check_sorted (accepts_unordered _), check_run (acceptsKeys_accepts _) valid]
    exact ⟨fun _ _ => rfl, fun n hn => by
      have := portable.2 n hn
      cases n <;> exact this⟩
  have distinct : r.toJson.sorted.check .distinctKeys = true := by
    rw [check_sorted distinctKeys_unordered, check_run acceptsKeys_distinct valid]
    exact ⟨fun _ _ => rfl, fun n _ => by cases n <;> rfl⟩
  have shallow : r.toJson.sorted.depth ≤ limit := by
    rw [depth_sorted]
    exact (depth_run r).trans room
  obtain ⟨text', made'⟩ := (dumps_isOk .default r.toJson.sorted limit).mpr ⟨accepts, shallow⟩
  have read' := loads_dumps separates_default made' distinct (fun _ => free) shallow
  have decoded : ∀ {t : Str}, loads limit t = .ok r.toJson.sorted →
      evaluationRunFromJson ε limit t = .ok r := by
    intro t h
    rw [evaluationRunFromJson, h]
    exact checked_ok.mpr valid.decoded
  exact ⟨text, made, decoded read, _, text', read, made', decoded read'⟩

/-! ## What the decoder can return -/

/-- An object that the JSON decoder made of escaped text: its strings hold no surrogate pair. -/
def Joined (x : Object) : Prop := ∃ v : Json, v.check .pairFree = true ∧ x = v.toObject

theorem joined_none : Joined .none := ⟨.null, rfl, rfl⟩

theorem Joined.get {x : Object} (joined : Joined x) {label : String} {fields : Fields}
    (read : requireMapping x label = .ok fields) (key : String) : Joined (fields.get key) := by
  obtain ⟨v, free, rfl⟩ := joined
  cases v with
  | dict items =>
    rw [requireMapping, fields?_toObject] at read
    obtain rfl := Except.ok.inj read
    rw [Json.check, Bool.and_eq_true, checkItems_eq_true] at free
    rw [Fields.get]
    cases found : (items.map fun i => (i.1, i.2.toObject)).find? (·.1 = lit key) with
    | none => exact joined_none
    | some i =>
      obtain ⟨j, listed, rfl⟩ := List.mem_map.mp (List.mem_of_find?_eq_some found)
      exact ⟨j.2, free.2 j listed, rfl⟩
  | null | bool | int | float | str | list => cases read

theorem Joined.text {x : Object} (joined : Joined x) {label : String} {s : Str}
    (read : requireText x label = .ok s) : pairFree s = true := by
  obtain ⟨v, free, rfl⟩ := joined
  cases v with
  | str t =>
    have read' : (if strip t = [] then reject (label ++ " must be non-empty text")
      else Except.ok (strip t) : Checked Str) = .ok s := read
    split at read'
    · cases read'
    · obtain rfl := Except.ok.inj read'
      exact pairFree_strip free
  | null | bool | int | float | list | dict => cases read

theorem Joined.list {x : Object} (joined : Joined x) {label : String} {xs : List Object}
    (read : requireList x label = .ok xs) : ∀ y ∈ xs, Joined y := by
  obtain ⟨v, free, rfl⟩ := joined
  cases v with
  | list vs =>
    have read' : Except.ok (Json.toObjects vs) = (.ok xs : Checked (List Object)) := read
    obtain rfl := Except.ok.inj read'
    rw [Json.check, checkList_eq_true] at free
    rw [toObjects_eq, List.forall_mem_map]
    exact fun w hw => ⟨w, free w hw, rfl⟩
  | null | bool | int | float | str | dict => cases read

theorem Joined.texts {x : Object} (joined : Joined x) {label : String} {nonEmpty : Bool}
    {values : List Str} (read : requireDistinctTextList x label nonEmpty = .ok values) :
    ∀ s ∈ values, pairFree s = true := by
  obtain ⟨items, first, read⟩ := bind_ok.mp read
  obtain ⟨values', each, read⟩ := bind_ok.mp read
  obtain ⟨⟨⟩, -, read⟩ := bind_ok.mp read
  obtain ⟨⟨⟩, -, read⟩ := bind_ok.mp read
  obtain rfl := Except.ok.inj read
  intro s hs
  obtain ⟨item, listed, made⟩ := forall₂_mem (mapM_ok.mp each) hs
  exact (joined.list first item listed).text made

theorem Joined.digest {x : Object} (joined : Joined x) {label : String} {s : Str}
    (read : requireSha256 x label = .ok s) : pairFree s = true := by
  obtain ⟨t, first, read⟩ := bind_ok.mp read
  obtain ⟨⟨⟩, -, read⟩ := bind_ok.mp read
  obtain rfl := Except.ok.inj read
  exact joined.text first

/-- Validation keeps texts free of pairs. -/
theorem validatedObservation_strings {o v : EvaluationObservation}
    (made : validatedObservation o = .ok v) (free : ∀ s ∈ o.strings, pairFree s = true) :
    ∀ s ∈ v.strings, pairFree s = true := by
  obtain ⟨⟨⟩, -, made⟩ := bind_ok.mp made
  obtain ⟨⟨⟩, -, made⟩ := bind_ok.mp made
  obtain ⟨⟨⟩, -, made⟩ := bind_ok.mp made
  obtain ⟨cost, -, made⟩ := bind_ok.mp made
  obtain ⟨⟨⟩, -, made⟩ := bind_ok.mp made
  obtain ⟨ids, first, made⟩ := bind_ok.mp made
  obtain ⟨references, second, made⟩ := bind_ok.mp made
  obtain rfl := Except.ok.inj made
  obtain ⟨rfl, -⟩ := distinctTexts_ok.mp first
  obtain ⟨rfl, -⟩ := distinctTexts_ok.mp second
  simp only [EvaluationObservation.strings, List.forall_mem_cons, List.forall_mem_append,
    List.forall_mem_map] at free ⊢
  exact ⟨pairFree_strip free.1, fun s hs => pairFree_strip (free.2.1 s hs),
    fun s hs => pairFree_strip (free.2.2 s hs)⟩

theorem Joined.observation {x : Object} (joined : Joined x) {label : String}
    {o : EvaluationObservation} (read : observationFromMapping x label = .ok o) :
    ∀ s ∈ o.strings, pairFree s = true := by
  obtain ⟨fields, mapping, read⟩ := bind_ok.mp read
  obtain ⟨⟨⟩, -, read⟩ := bind_ok.mp read
  obtain ⟨sideEffects, -, read⟩ := bind_ok.mp read
  obtain ⟨⟨⟩, -, read⟩ := bind_ok.mp read
  obtain ⟨boundary, hboundary, read⟩ := bind_ok.mp read
  obtain ⟨counts, -, read⟩ := bind_ok.mp read
  obtain ⟨ids, hids, read⟩ := bind_ok.mp read
  obtain ⟨references, hreferences, read⟩ := bind_ok.mp read
  obtain ⟨cost, -, read⟩ := bind_ok.mp read
  refine validatedObservation_strings read ?_
  simp only [EvaluationObservation.strings, List.forall_mem_cons, List.forall_mem_append]
  exact ⟨(joined.get mapping _).text hboundary, (joined.get mapping _).texts hids,
    (joined.get mapping _).texts hreferences⟩

theorem Joined.result {x : Object} (joined : Joined x) {index : Nat}
    {r : EvaluationRunCaseResult} (read : resultFromMapping x index = .ok r) :
    ∀ s ∈ r.strings, pairFree s = true := by
  obtain ⟨fields, mapping, read⟩ := bind_ok.mp read
  obtain ⟨⟨⟩, -, read⟩ := bind_ok.mp read
  obtain ⟨reused, -, read⟩ := bind_ok.mp read
  obtain ⟨caseId, hid, read⟩ := bind_ok.mp read
  obtain ⟨caseVersion, -, read⟩ := bind_ok.mp read
  obtain ⟨caseSha256, hsha, read⟩ := bind_ok.mp read
  obtain ⟨observation, hobservation, read⟩ := bind_ok.mp read
  obtain rfl := Except.ok.inj read
  simp only [EvaluationRunCaseResult.strings, List.forall_mem_cons]
  exact ⟨(joined.get mapping _).text hid, (joined.get mapping _).digest hsha,
    (joined.get mapping _).observation hobservation⟩

/-- A decoded run holds no surrogate pair. -/
theorem Joined.run {x : Object} (joined : Joined x) {r : EvaluationRun}
    (read : evaluationRunFromObject x = .ok r) : ∀ s ∈ r.strings, pairFree s = true := by
  obtain ⟨fields, mapping, read⟩ := bind_ok.mp read
  obtain ⟨⟨⟩, -, read⟩ := bind_ok.mp read
  obtain ⟨schemaVersion, hschema, read⟩ := bind_ok.mp read
  obtain ⟨⟨⟩, -, read⟩ := bind_ok.mp read
  obtain ⟨fixtureSha256, hfixture, read⟩ := bind_ok.mp read
  obtain ⟨maxConcurrency, -, read⟩ := bind_ok.mp read
  obtain ⟨maxExpectedCost, -, read⟩ := bind_ok.mp read
  obtain ⟨selectedCaseIds, hids, read⟩ := bind_ok.mp read
  obtain ⟨records, hrecords, read⟩ := bind_ok.mp read
  obtain ⟨results, hresults, read⟩ := bind_ok.mp read
  obtain ⟨⟨⟩, -, read⟩ := bind_ok.mp read
  obtain ⟨suiteId, hsuite, read⟩ := bind_ok.mp read
  obtain rfl := Except.ok.inj read
  have each : ∀ s ∈ results.flatMap (·.strings), pairFree s = true := by
    intro s hs
    obtain ⟨result, listed, hs⟩ := List.mem_flatMap.mp hs
    obtain ⟨⟨record, index⟩, indexed', made⟩ := forall₂_mem (mapM_ok.mp hresults) listed
    have record' := (List.mem_zipIdx indexed').2.2
    refine ((joined.get mapping _).list hrecords record ?_).result made s hs
    rw [record']
    exact List.getElem_mem _
  simp only [EvaluationRun.strings, List.forall_mem_cons, List.forall_mem_append]
  exact ⟨(joined.get mapping _).text hschema, (joined.get mapping _).text hsuite,
    (joined.get mapping _).digest hfixture, (joined.get mapping _).texts hids, each⟩

theorem portable_of_roundTrips {ε : Type} {limit : Nat} (room : 5 ≤ limit) {r : EvaluationRun}
    (valid : r.Valid) (back : RoundTrips ε limit r) : r.Portable := by
  obtain ⟨text, made, decoded, -⟩ := back
  refine ⟨?_, (asJson_isOk valid).mp ⟨text, made⟩⟩
  rw [evaluationRunFromJson, loads_asJson valid made room] at decoded
  refine Joined.run ⟨_, pairFree_mapStr ?_, rfl⟩ (checked_ok.mp decoded)
  rw [check_sorted pairFreeKeys_unordered, check_run (acceptsKeys_pairFree _ rfl) valid]
  exact ⟨fun _ _ => rfl, fun n _ => by cases n <;> rfl⟩

/-! ## Runs over a loaded suite -/

theorem requirePositiveInteger_positive {x : Object} {label : String} {n : Int}
    (read : requirePositiveInteger x label = .ok n) : 1 ≤ n := by
  obtain ⟨m, first, read⟩ := bind_ok.mp read
  obtain ⟨⟨⟩, positive, read⟩ := bind_ok.mp read
  obtain rfl := Except.ok.inj read
  have nonzero := rejectWhen_ok.mp positive
  rw [requireNonNegativeInteger] at first
  split at first
  · split at first
    · cases first
    · obtain rfl := Except.ok.inj first
      simp only [decide_eq_false_iff_not] at nonzero
      omega
  · cases first

/-- What the loader has checked of a case. -/
structure EvaluationCase.Loaded (case : EvaluationCase) : Prop where
  id : Trimmed case.id
  version : 1 ≤ case.version

theorem caseFromMapping_loaded {x : Object} {index : Nat} {case : EvaluationCase}
    (read : caseFromMapping x index = .ok case) : case.Loaded := by
  obtain ⟨record, -, read⟩ := bind_ok.mp read
  obtain ⟨⟨⟩, -, read⟩ := bind_ok.mp read
  obtain ⟨id, hid, read⟩ := bind_ok.mp read
  obtain ⟨version, hversion, read⟩ := bind_ok.mp read
  obtain ⟨split, -, read⟩ := bind_ok.mp read
  obtain ⟨⟨⟩, -, read⟩ := bind_ok.mp read
  obtain ⟨criticality, -, read⟩ := bind_ok.mp read
  obtain ⟨⟨⟩, -, read⟩ := bind_ok.mp read
  obtain ⟨schema, -, read⟩ := bind_ok.mp read
  obtain ⟨⟨⟩, -, read⟩ := bind_ok.mp read
  obtain ⟨category, -, read⟩ := bind_ok.mp read
  obtain ⟨tags, -, read⟩ := bind_ok.mp read
  obtain ⟨runMode, -, read⟩ := bind_ok.mp read
  obtain ⟨inputs, -, read⟩ := bind_ok.mp read
  obtain ⟨expected, -, read⟩ := bind_ok.mp read
  obtain rfl := Except.ok.inj read
  exact ⟨requireText_trimmed hid, requirePositiveInteger_positive hversion⟩

theorem loadEvaluationCaseSuite_loaded {raw : Object} {suite : EvaluationCaseSuite}
    (read : loadEvaluationCaseSuite raw = .ok suite) :
    Trimmed suite.suiteId ∧ ∀ case ∈ suite.cases, case.Loaded := by
  obtain ⟨fields, -, read⟩ := bind_ok.mp read
  obtain ⟨⟨⟩, -, read⟩ := bind_ok.mp read
  obtain ⟨schemaVersion, -, read⟩ := bind_ok.mp read
  obtain ⟨⟨⟩, -, read⟩ := bind_ok.mp read
  obtain ⟨suiteId, hsuite, read⟩ := bind_ok.mp read
  obtain ⟨records, -, read⟩ := bind_ok.mp read
  obtain ⟨⟨⟩, -, read⟩ := bind_ok.mp read
  obtain ⟨cases, hcases, read⟩ := bind_ok.mp read
  split at read
  · obtain rfl := Except.ok.inj read
    refine ⟨requireText_trimmed hsuite, fun case listed => ?_⟩
    obtain ⟨i, -, made⟩ := forall₂_mem (mapM_ok.mp hcases) listed
    exact caseFromMapping_loaded made
  · cases read

theorem digest_hexdigest (hash : BitVec 256) : Digest (hexdigest hash) := by
  have digest := isDigest_hexdigest hash
  have parts := digest
  simp only [isDigest, Bool.and_eq_true, decide_eq_true_eq, List.all_eq_true] at parts
  have solid : ∀ c ∈ hexdigest hash, isSpace c = false := by
    intro c hc
    have hex := parts.2 c hc
    simp only [Bool.or_eq_true, Bool.and_eq_true, decide_eq_true_eq] at hex
    simp only [isSpace, Bool.or_eq_false_iff, Bool.and_eq_false_iff, decide_eq_false_iff_not,
      beq_eq_false_iff_ne, ne_eq]
    omega
  refine ⟨digest, strip_eq_self ?_ ?_, ?_⟩
  · intro c t h
    exact solid c (h ▸ List.mem_cons_self)
  · intro c t h
    exact solid c (h ▸ List.mem_append_right t (List.mem_singleton_self c))
  · intro empty
    rw [empty] at parts
    exact absurd parts.1 (by decide)

section
variable {ε : Type} {files : Files} {suite : EvaluationCaseSuite} {executor : Executor ε}
  {schedule : Schedule} {o : RunOptions}

theorem caseDigest_digest {case : EvaluationCase} {digest : Str}
    (made : caseDigest (ε := ε) files case = .ok digest) : Digest digest := by
  unfold caseDigest at made
  split at made
  · rename_i hashed
    obtain rfl := Except.ok.inj made
    obtain ⟨text, -, hashed⟩ := bind_ok.mp hashed
    split at hashed
    · obtain rfl := Except.ok.inj hashed
      exact digest_hexdigest _
    · cases hashed
  · cases made
  · cases made

/-- A result that a run holds for a case. -/
structure ResultFor (files : Files) (ε : Type) (case : EvaluationCase)
    (r : EvaluationRunCaseResult) : Prop where
  caseId : r.caseId = case.id
  caseVersion : r.caseVersion = case.version
  caseSha256 : caseDigest (ε := ε) files case = .ok r.caseSha256
  observation : r.observation.Valid

theorem ResultFor.valid {case : EvaluationCase} {r : EvaluationRunCaseResult}
    (result : ResultFor files ε case r) (loaded : case.Loaded) : r.Valid where
  caseId := result.caseId ▸ loaded.id
  caseVersion := result.caseVersion ▸ loaded.version
  caseSha256 := caseDigest_digest result.caseSha256
  observation := result.observation

theorem executeCase_result {case : EvaluationCase} {r : EvaluationRunCaseResult}
    (made : executeCase files executor case = .ok r) : ResultFor files ε case r := by
  obtain ⟨_, digest, observation, -, hashed, valid, rfl⟩ := executeCase_ok made
  exact ⟨rfl, rfl, hashed, validatedObservation_valid (checked_ok.mp valid)⟩

/-- Every result that is taken over belongs to the selected case of its key. -/
def ResumedFor (files : Files) (ε : Type) (selected : List EvaluationCase)
    (resumed : Dict Str EvaluationRunCaseResult) : Prop :=
  ∀ k r, resumed.get? k = some r → ∃ case ∈ selected, case.id = k ∧ ResultFor files ε case r

theorem resumeResult_result {selected : List EvaluationCase}
    {resumed resumed' : Dict Str EvaluationRunCaseResult} {result : EvaluationRunCaseResult}
    (before : ResumedFor files ε selected resumed)
    (made : resumeResult (ε := ε) files selected resumed result = .ok resumed') :
    ResumedFor files ε selected resumed' := by
  rw [resumeResult] at made
  split at made
  · obtain rfl := Except.ok.inj made
    exact before
  · rename_i case found
    obtain ⟨⟨⟩, version, made⟩ := bind_ok.mp made
    obtain ⟨digest, hashed, made⟩ := bind_ok.mp made
    obtain ⟨⟨⟩, same, made⟩ := bind_ok.mp made
    obtain ⟨⟨⟩, -, made⟩ := bind_ok.mp made
    obtain ⟨observation, valid, made⟩ := bind_ok.mp made
    obtain rfl := Except.ok.inj made
    have own : case.id = result.caseId := by simpa using List.find?_some found
    have version' : result.caseVersion = case.version := by simpa using rejectAboutWhen_ok.mp version
    have same' : result.caseSha256 = digest := by simpa using rejectAboutWhen_ok.mp same
    intro k r taken
    by_cases hk : k = result.caseId
    · subst hk
      rw [Dict.get?_set_self] at taken
      obtain rfl := Option.some.inj taken
      exact ⟨case, List.mem_of_find?_eq_some found, own, own.symm, version', same' ▸ hashed,
        validatedObservation_valid (checked_ok.mp valid)⟩
    · rw [Dict.get?_set_other _ _ hk] at taken
      exact before k r taken

theorem resumedResults_result {selected : List EvaluationCase} {fixtureSha256 : Str}
    {resumeFrom : Option EvaluationRun} {resumed : Dict Str EvaluationRunCaseResult}
    (made : resumedResults (ε := ε) files resumeFrom suite fixtureSha256 selected = .ok resumed) :
    ResumedFor files ε selected resumed := by
  have start : ResumedFor files ε selected .empty := fun k r taken => by cases taken
  cases resumeFrom with
  | none =>
    obtain rfl := Except.ok.inj made
    exact start
  | some earlier =>
    obtain ⟨⟨⟩, -, made⟩ := bind_ok.mp made
    obtain ⟨⟨⟩, -, made⟩ := bind_ok.mp made
    obtain ⟨⟨⟩, -, made⟩ := bind_ok.mp made
    generalize earlier.results = results at made
    generalize Dict.empty = before at start made
    induction results generalizing before with
    | nil =>
      obtain rfl := Except.ok.inj made
      exact start
    | cons result results ih =>
      rw [List.foldlM_cons] at made
      obtain ⟨next, step, made⟩ := bind_ok.mp made
      exact ih next (resumeResult_result start step) made

theorem validateBudget_ok {budget : Option IntOrFloat}
    (accepted : validateBudget (ε := ε) budget = .ok ()) :
    ∀ cost, budget = some cost → cost.nonNegative = .ok true := by
  rintro cost rfl
  obtain ⟨b, checked', accepted⟩ := bind_ok.mp accepted
  have positive := rejectRunWhen_ok.mp accepted
  rw [Bool.not_eq_false'] at positive
  subst positive
  have inner := checked_ok.mp checked'
  cases known : cost.nonNegative with
  | error e =>
    rw [known] at inner
    cases inner
  | ok b =>
    rw [known] at inner
    exact congrArg Except.ok (Except.ok.inj inner)

theorem resultOf_result {p : Prepared} (prepares : Prepares files suite o ε p)
    {case : EvaluationCase} (listed : case ∈ p.selected) {r : EvaluationRunCaseResult}
    (made : resultOf files executor p.resumed case = .ok r) : ResultFor files ε case r := by
  rw [resultOf] at made
  split at made
  · rename_i result taken
    obtain rfl := Except.ok.inj made
    obtain ⟨case', listed', own, result'⟩ := resumedResults_result prepares.resumed _ _ taken
    obtain rfl := List.inj_on_of_nodup_map prepares.distinct listed' listed own
    exact result'
  · exact executeCase_result made

theorem fixtureDigest_digest {digest : Str} (read : fixtureDigest (ε := ε) files = .ok digest) :
    Digest digest := by
  rw [fixtureDigest] at read
  split at read
  · cases read
  · obtain rfl := Except.ok.inj read
    exact digest_hexdigest _

theorem validateConcurrency_ok {v : IntOrFloat} {n : Int}
    (accepted : validateConcurrency (ε := ε) v = .ok n) : 1 ≤ n := by
  cases v with
  | int m =>
    rw [validateConcurrency] at accepted
    split at accepted
    · rename_i positive
      obtain rfl := Except.ok.inj accepted
      exact positive
    · cases accepted
  | bool b => cases accepted
  | float x => cases accepted

/-- The runs over a loaded suite are valid. -/
theorem run_valid {raw : Object} (loaded : loadEvaluationCaseSuite raw = .ok suite)
    {r : EvaluationRun} (made : (runEvaluationCases files suite executor schedule o).run = .ok r) :
    r.Valid := by
  obtain ⟨suiteId, loadedCases⟩ := loadEvaluationCaseSuite_loaded loaded
  obtain ⟨p, results, prepares, -, done, rfl⟩ := runEvaluationCases_ok.mp made
  have sub := filterEvaluationCases_sublist prepares.selected
  have limits := validateRunLimits_ok.mp prepares.limits
  obtain ⟨result, each, rfl⟩ := mapM_ok_map done
  have results := fun case listed => resultOf_result prepares listed (each case listed)
  refine ⟨rfl, suiteId, fixtureDigest_digest prepares.fixture, ?_, validateBudget_ok limits.2,
    validateConcurrency_ok limits.1, ?_, ?_⟩
  · exact ⟨List.forall_mem_map.mpr fun case listed => (loadedCases case (sub.subset listed)).id,
      prepares.distinct⟩
  · exact List.forall_mem_map.mpr fun case listed =>
      (results case listed).valid (loadedCases case (sub.subset listed))
  · have ids : (p.selected.map result).map (·.caseId) = p.selected.map (·.id) := by
      rw [List.map_map]
      exact List.map_congr_left fun case listed => (results case listed).caseId
    exact ids ▸ prepares.distinct

end

/-- A run over a loaded suite comes back from its report exactly when its texts hold no surrogate
pair and its ints have at most as many digits as Python prints. -/
theorem run_roundTrips_iff {ε : Type} (files : Files) {raw : Object} {suite : EvaluationCaseSuite}
    (loaded : loadEvaluationCaseSuite raw = .ok suite) (executor : Executor ε)
    (schedule : Schedule) (o : RunOptions) {r : EvaluationRun}
    (made : (runEvaluationCases files suite executor schedule o).run = .ok r) {limit : Nat}
    (room : 5 ≤ limit) : RoundTrips ε limit r ↔ r.Portable :=
  ⟨portable_of_roundTrips room (run_valid loaded made),
    roundTrips_of_portable room (run_valid loaded made)⟩

/-! ## Two loaded suites -/

def textField (name value : String) : Object × Object := (.str (lit name), .str (lit value))

/-- A YAML document with one case. -/
def rawSuite (caseId : Str) : Object :=
  let artifact := Object.dict [textField "artifact_id" "A", textField "path" "a.md",
    (.str (lit "sha256"), .str (hexdigest 0))]
  let inputs := Object.dict [(.str (lit "artifacts"), .list [artifact]),
    (.str (lit "overlays"), .list []), textField "user_request" "u"]
  let expected := Object.dict [
    (.str (lit "required_ground_truth_ids"), .list []),
    (.str (lit "prohibited_ground_truth_ids"), .list []),
    (.str (lit "expected_source_references"), .list []),
    textField "policy_boundary" "p",
    (.str (lit "side_effects"),
      .dict (sideEffectFieldNames.map fun name => (.str (lit name), .int 0))),
    textField "scorer_version" "s",
    (.str (lit "maximum_expected_cost"), .int 1)]
  .dict [textField "schema_version" "evaluation-cases/v1", textField "suite_id" "s",
    (.str (lit "cases"), .list [.dict [
      (.str (lit "id"), .str caseId),
      (.str (lit "version"), .int 1),
      textField "split" "holdout",
      textField "category" "c",
      (.str (lit "tags"), .list [.str (lit "t")]),
      textField "criticality" "low",
      textField "run_mode" "m",
      textField "side_effect_schema" "side-effects/v1",
      (.str (lit "inputs"), inputs),
      (.str (lit "expected"), expected)]])]

/-- The run over a document that loads. -/
def loadedRun (raw : Object) : Option EvaluationRun :=
  match loadEvaluationCaseSuite raw with
  | .ok suite => (runEvaluationCases sampleFiles suite sampleExecutor .sequential
      (sampleOptions none)).run.toOption
  | .error _ => none

theorem loadedRun_some {raw : Object} {r : EvaluationRun} (made : loadedRun raw = some r) :
    ∃ suite, loadEvaluationCaseSuite raw = .ok suite ∧ (runEvaluationCases sampleFiles suite
      sampleExecutor .sequential (sampleOptions none)).run = .ok r := by
  rw [loadedRun] at made
  split at made
  · rename_i suite loaded
    refine ⟨suite, loaded, ?_⟩
    cases done : (runEvaluationCases sampleFiles suite sampleExecutor .sequential
      (sampleOptions none)).run with
    | ok r' =>
      rw [done] at made
      exact congrArg Except.ok (Option.some.inj made)
    | error e =>
      rw [done] at made
      cases made
  · cases made

instance (r : EvaluationRun) : Decidable r.Portable := inferInstanceAs (Decidable (_ ∧ _))

theorem run_roundTrips_sample : ∃ suite r, loadEvaluationCaseSuite (rawSuite (lit "a")) = .ok suite ∧
    (runEvaluationCases sampleFiles suite sampleExecutor .sequential (sampleOptions none)).run =
      .ok r ∧ RoundTrips Empty 5 r := by
  have all : (loadedRun (rawSuite (lit "a"))).any (fun r => r.Portable) = true := by decide +kernel
  obtain ⟨r, made, portable⟩ := Option.any_eq_true _ _ |>.mp all
  obtain ⟨suite, loaded, done⟩ := loadedRun_some made
  exact ⟨suite, r, loaded, done, (run_roundTrips_iff sampleFiles loaded sampleExecutor .sequential
    (sampleOptions none) done le_rfl).mpr (of_decide_eq_true portable)⟩

/-- The id that a YAML loader makes of an escaped character outside the basic plane. -/
def pairId : Str := [Fin.ofNat _ 0xD83D, Fin.ofNat _ 0xDE00]

theorem pair_lost : ∃ suite r, loadEvaluationCaseSuite (rawSuite pairId) = .ok suite ∧
    (runEvaluationCases sampleFiles suite sampleExecutor .sequential (sampleOptions none)).run =
      .ok r ∧ ¬ RoundTrips Empty 5 r := by
  have all : (loadedRun (rawSuite pairId)).any (fun r => !decide r.Portable) = true := by
    decide +kernel
  obtain ⟨r, made, lost⟩ := Option.any_eq_true _ _ |>.mp all
  obtain ⟨suite, loaded, done⟩ := loadedRun_some made
  refine ⟨suite, r, loaded, done, fun back => ?_⟩
  simp [portable_of_roundTrips le_rfl (run_valid loaded done) back] at lost

end QaCopilot.Evaluation
