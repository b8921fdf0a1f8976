import Mathlib.Data.List.Dedup
import QaCopilot.Evaluation.ScoreRoundTrip

/-!
# Reports that the scorer makes

The report of a run over a loaded suite is valid and sound, so it comes back through both decoders.
-/

namespace QaCopilot.Evaluation

open Python Results

/-! ## Loaded expectations -/

/-- What the loader has checked of the expectations of a case. -/
structure EvaluationExpected.Loaded (e : EvaluationExpected) : Prop where
  required : ∀ s ∈ e.requiredGroundTruthIds, Trimmed s
  sideEffects : ∃ counts, e.sideEffects = byFieldName counts

theorem requireDistinctTextList_trimmed {x : Object} {label : String} {nonEmpty : Bool}
    {values : List Str} (read : requireDistinctTextList x label nonEmpty = .ok values) :
    ∀ s ∈ values, Trimmed s := by
  obtain ⟨items, -, read⟩ := bind_ok.mp read
  obtain ⟨values', each, read⟩ := bind_ok.mp read
  obtain ⟨⟨⟩, -, read⟩ := bind_ok.mp read
  obtain ⟨⟨⟩, -, read⟩ := bind_ok.mp read
  obtain rfl := Except.ok.inj read
  intro s hs
  obtain ⟨item, -, made⟩ := forall₂_mem (mapM_ok.mp each) hs
  exact requireText_trimmed made

theorem expectedFromMapping_loaded {x : Object} {label : String} {e : EvaluationExpected}
    (read : expectedFromMapping x label = .ok e) : e.Loaded := by
  obtain ⟨fields, -, read⟩ := bind_ok.mp read
  obtain ⟨⟨⟩, -, read⟩ := bind_ok.mp read
  obtain ⟨required, hrequired, read⟩ := bind_ok.mp read
  obtain ⟨prohibited, -, read⟩ := bind_ok.mp read
  obtain ⟨⟨⟩, -, read⟩ := bind_ok.mp read
  obtain ⟨references, -, read⟩ := bind_ok.mp read
  obtain ⟨boundary, -, read⟩ := bind_ok.mp read
  obtain ⟨sideEffects, heffects, read⟩ := bind_ok.mp read
  obtain ⟨scorerVersion, -, read⟩ := bind_ok.mp read
  obtain ⟨cost, -, read⟩ := bind_ok.mp read
  obtain rfl := Except.ok.inj read
  obtain ⟨effects, -, heffects⟩ := bind_ok.mp heffects
  obtain ⟨⟨⟩, -, heffects⟩ := bind_ok.mp heffects
  obtain ⟨counts, -, heffects⟩ := bind_ok.mp heffects
  exact ⟨requireDistinctTextList_trimmed hrequired, counts, (Except.ok.inj heffects).symm⟩

theorem caseFromMapping_expected {x : Object} {index : Nat} {case : EvaluationCase}
    (read : caseFromMapping x index = .ok case) : case.expected.Loaded := by
  obtain ⟨record, -, read⟩ := bind_ok.mp read
  obtain ⟨⟨⟩, -, read⟩ := bind_ok.mp read
  obtain ⟨id, -, read⟩ := bind_ok.mp read
  obtain ⟨version, -, read⟩ := bind_ok.mp read
  obtain ⟨split, -, read⟩ := bind_ok.mp read
  obtain ⟨⟨⟩, -, read⟩ := bind_ok.mp read
  obtain ⟨criticality, -, read⟩ := bind_ok.mp read
  obtain ⟨⟨⟩, -, read⟩ := bind_ok.mp read
  obtain ⟨schema, -, read⟩ := bind_ok.mp read
  obtain ⟨⟨⟩, -, read⟩ := bind_ok.mp read
  obtain ⟨category, -, read⟩ := bind_ok.mp read
  obtain ⟨tags, -, read⟩ := bind_ok.mp read
  obtain ⟨runMode, -, read⟩ := bind_ok.mp read
  obtain ⟨inputs, -, read⟩ := bind_ok.mp read
  obtain ⟨expected, hexpected, read⟩ := bind_ok.mp read
  obtain rfl := Except.ok.inj read
  exact expectedFromMapping_loaded hexpected

theorem loadEvaluationCaseSuite_expected {raw : Object} {suite : EvaluationCaseSuite}
    (read : loadEvaluationCaseSuite raw = .ok suite) : ∀ case ∈ suite.cases, case.expected.Loaded := by
  obtain ⟨fields, -, read⟩ := bind_ok.mp read
  obtain ⟨⟨⟩, -, read⟩ := bind_ok.mp read
  obtain ⟨schemaVersion, -, read⟩ := bind_ok.mp read
  obtain ⟨⟨⟩, -, read⟩ := bind_ok.mp read
  obtain ⟨suiteId, -, read⟩ := bind_ok.mp read
  obtain ⟨records, -, read⟩ := bind_ok.mp read
  obtain ⟨⟨⟩, -, read⟩ := bind_ok.mp read
  obtain ⟨cases, hcases, read⟩ := bind_ok.mp read
  split at read
  · obtain rfl := Except.ok.inj read
    intro case listed
    obtain ⟨i, -, made⟩ := forall₂_mem (mapM_ok.mp hcases) listed
    exact caseFromMapping_expected made
  · cases read

/-! ## Numbers that were printed before -/

/-- The numbers of the expectations and of the observation are in texts that `json.dumps` has made. -/
structure Hashed (case : EvaluationCase) (o : EvaluationObservation) : Prop where
  effects : Json.checkItems reportDumps.accepts
    (case.expected.sideEffects.items.map fun i => (i.1, .int i.2)) = true
  maximum : case.expected.maximumExpectedCost.toJson.check reportDumps.accepts = true
  observed : Json.checkItems reportDumps.accepts
    (o.sideEffects.items.map fun i => (i.1, i.2.toJson)) = true
  cost : o.cost.toJson.check reportDumps.accepts = true

theorem accepted_case {sha256 : Bytes → BitVec 256} {case : EvaluationCase} {digest : Str}
    (made : evaluationCaseSha256 sha256 case = .ok digest) :
    Json.checkItems reportDumps.accepts
        (case.expected.sideEffects.items.map fun i => (i.1, .int i.2)) = true ∧
      case.expected.maximumExpectedCost.toJson.check reportDumps.accepts = true := by
  obtain ⟨text, printed, -⟩ := bind_ok.mp made
  have accepted := ((dumps_isOk caseDumps _ _).mp ⟨text, printed⟩).1
  rw [check_sorted (accepts_unordered _), EvaluationCase.toJson, Json.check, Bool.and_eq_true,
    checkItems_eq_true] at accepted
  simp only [List.forall_mem_cons] at accepted
  obtain ⟨-, -, -, -, -, -, -, -, -, -, expected, -⟩ := accepted
  rw [Json.check, Bool.and_eq_true, checkItems_eq_true] at expected
  simp only [List.forall_mem_cons] at expected
  obtain ⟨-, -, -, -, -, effects, -, cost, -⟩ := expected
  rw [Json.check, Bool.and_eq_true] at effects
  exact ⟨effects.2, cost⟩

theorem accepted_observation {r : EvaluationRun} {text : Str} (made : r.asJson = .ok text)
    {result : EvaluationRunCaseResult} (listed : result ∈ r.results) :
    Json.checkItems reportDumps.accepts
        (result.observation.sideEffects.items.map fun i => (i.1, i.2.toJson)) = true ∧
      result.observation.cost.toJson.check reportDumps.accepts = true := by
  obtain ⟨inner, printed, -⟩ := bind_ok.mp made
  have accepted := (dumpsIndent_isOk reportDumps 2 _ 0).mp ⟨inner, printed⟩
  rw [check_sorted (accepts_unordered _), EvaluationRun.toJson, Json.check, Bool.and_eq_true,
    checkItems_eq_true] at accepted
  simp only [EvaluationRun.toItems, List.forall_mem_cons] at accepted
  obtain ⟨-, -, -, -, -, -, -, results, -⟩ := accepted
  rw [Json.check, checkList_eq_true, List.forall_mem_map] at results
  have own := results result listed
  rw [Json.check, Bool.and_eq_true, checkItems_eq_true] at own
  simp only [EvaluationRunCaseResult.toItems, List.forall_mem_cons] at own
  obtain ⟨-, -, -, -, observation, -⟩ := own
  rw [Json.check, Bool.and_eq_true, checkItems_eq_true] at observation
  simp only [EvaluationObservation.toItems, List.forall_mem_cons] at observation
  obtain ⟨-, -, effects, -, -, cost, -⟩ := observation
  rw [Json.check, Bool.and_eq_true] at effects
  exact ⟨effects.2, cost⟩

/-! ## Scores -/

theorem Printed.number {v : IntOrFloat} (accepted : v.toJson.check reportDumps.accepts = true)
    (n : Nat) : Printed n v.toJson := by
  cases v with
  | bool b => exact .bool n b
  | int m => exact ⟨accepted, rfl, rfl, Nat.zero_le n⟩
  | float x => exact ⟨accepted, rfl, rfl, Nat.zero_le n⟩

theorem printed_effects {ν : Type} {d : Dict Str ν} {value : String → ν} (own : d = byFieldName value)
    (number : ν → IntOrFloat) (accepted : Json.checkItems reportDumps.accepts
      (d.items.map fun i => (i.1, (number i.2).toJson)) = true) :
    Printed 1 (.dict (d.items.map fun i => (i.1, (number i.2).toJson))) := by
  have keys : (d.items.map fun i => (i.1, (number i.2).toJson)).map (·.1) =
      sortedFieldNames.map lit := by
    rw [List.map_map, ← keys_byFieldName value, ← own]
    rfl
  have ascii : ∀ name ∈ sortedFieldNames, name.toList.all (·.toNat < 0xD800) = true := by
    have all : ∀ name ∈ sideEffectFieldNames, name.toList.all (·.toNat < 0xD800) = true := by
      decide +kernel
    exact fun name listed => all name (sortedFieldNames_perm.mem_iff.mp listed)
  refine .dict (keys ▸ nodup_sortedFieldNames) (keys ▸ plain_names ascii) ?_
  rw [checkItems_eq_true, List.forall_mem_map] at accepted
  exact List.forall_mem_map.mpr fun i listed => .number (accepted i listed) 0

/-- A check that the report can hold. -/
structure EvaluationScoreCheck.Sound (c : EvaluationScoreCheck) : Prop where
  code : Trimmed c.code
  values : c.expected.Sound ∧ c.actual.Sound

theorem checkSets_sound {code : Str} (trimmed : Trimmed code) (expected actual : List Str) :
    (checkSets code expected actual).Sound :=
  ⟨trimmed, trivial, trivial⟩

theorem commonChecks_sound {case : EvaluationCase} {o : EvaluationObservation}
    (loaded : case.expected.Loaded) (valid : o.Valid) (hashed : Hashed case o) (known : List Str) :
    ∀ c ∈ commonChecks case o known, c.Sound := by
  obtain ⟨counts, expected⟩ := loaded.sideEffects
  obtain ⟨counts', observed⟩ := valid.sideEffects
  have codes : ∀ name ∈ ["known_expected_ground_truth_ids", "required_ground_truth_ids",
      "prohibited_ground_truth_ids", "unexpected_ground_truth_ids",
      "known_observed_ground_truth_ids", "expected_source_references", "policy_boundary",
      "side_effects", "maximum_expected_cost"], Trimmed (lit name) := by
    unfold Trimmed
    decide +kernel
  simp only [List.forall_mem_cons] at codes
  obtain ⟨first, second, third, fourth, fifth, sixth, boundary, effects, cost, -⟩ := codes
  simp only [commonChecks, List.forall_mem_cons]
  refine ⟨checkSets_sound first _ _, checkSets_sound second _ _, checkSets_sound third _ _,
    checkSets_sound fourth _ _, checkSets_sound fifth _ _, checkSets_sound sixth _ _,
    ⟨boundary, .str 1 _, .str 1 _⟩, ⟨effects, ?_, ?_⟩,
    ⟨cost, .number hashed.maximum 1, .number hashed.cost 1⟩, nofun⟩
  · exact printed_effects expected .int hashed.effects
  · exact printed_effects observed id hashed.observed

theorem trimmed_sourceArtifactsCode {id : Str} (trimmed : Trimmed id) :
    Trimmed (sourceArtifactsCode id) := by
  refine ⟨strip_eq_self ?_ ?_, by simp [sourceArtifactsCode, lit_eq]⟩
  · intro c t same
    have first : c = CodePoint.ofChar 's' := (List.cons.inj same).1.symm
    rw [first]
    decide
  · intro c t same
    obtain ⟨u, d, rfl⟩ := List.eq_nil_or_concat id |>.resolve_left trimmed.2
    rw [sourceArtifactsCode, List.concat_eq_append, ← List.append_assoc] at same
    obtain ⟨-, last⟩ := List.append_inj' same rfl
    obtain rfl := (List.cons.inj last).1
    have ends := (strip_ends (u.concat d)).2
    rw [trimmed.1, List.concat_eq_append] at ends
    exact ends d u rfl

theorem scoreEvaluationObservation_sound {case : EvaluationCase} {o : EvaluationObservation}
    {catalog : GroundTruthCatalog} {s : EvaluationScore} (id : Trimmed case.id)
    (loaded : case.expected.Loaded) (valid : o.Valid) (hashed : Hashed case o)
    (made : scoreEvaluationObservation case o catalog = .ok s) :
    s.Valid ∧ ∀ c ∈ s.checks, c.expected.Sound ∧ c.actual.Sound := by
  obtain ⟨artifacts, each, made⟩ := bind_ok.mp made
  obtain rfl := Except.ok.inj made
  have sound : ∀ c ∈ commonChecks case o (catalog.records.map (·.id)) ++ artifacts, c.Sound := by
    refine List.forall_mem_append.mpr ⟨commonChecks_sound loaded valid hashed _, fun c listed => ?_⟩
    obtain ⟨required, member, made⟩ := forall₂_mem (mapM_ok.mp each) listed
    obtain ⟨record, -, made⟩ := bind_ok.mp made
    obtain rfl := Except.ok.inj made
    have own := mem_sortedTexts.mp (List.mem_filter.mp member).1
    exact checkSets_sound (trimmed_sourceArtifactsCode (loaded.required required
      (List.mem_dedup.mp own))) _ _
  exact ⟨⟨id, rfl, rfl, List.cons_ne_nil _ _, fun c listed => (sound c listed).code⟩,
    fun c listed => (sound c listed).values⟩

/-! ## Reports -/

/-- The results of a run hold observations that were validated, whatever suite it is over. -/
theorem run_observations {ε : Type} {files : Files} {suite : EvaluationCaseSuite}
    {executor : Executor ε} {schedule : Schedule} {o : RunOptions} {r : EvaluationRun}
    (made : (runEvaluationCases files suite executor schedule o).run = .ok r) :
    ∀ result ∈ r.results, result.observation.Valid := by
  obtain ⟨p, results, prepares, -, done, rfl⟩ := runEvaluationCases_ok.mp made
  intro result listed
  obtain ⟨case, member, own⟩ := forall₂_mem (mapM_ok.mp done) listed
  exact (resultOf_result prepares member own).observation

theorem scoreRejectedWhen_ok {c : Bool} {r : Rejection} :
    scoreRejectedWhen c r = .ok () ↔ c = false := by
  cases c <;> simp [scoreRejectedWhen]

theorem dumped_ok {α : Type} {x : Except DumpsError α} {a : α} : dumped x = .ok a ↔ x = .ok a := by
  cases x with
  | ok b => simp [dumped]
  | error e => cases e <;> exact iff_of_false nofun nofun

theorem sha256File_digest {files : ScoredFiles} {file : Option Bytes} {digest : Str}
    (made : sha256File files file = .ok digest) : Digest digest := by
  cases file with
  | none => cases made
  | some content =>
    obtain rfl := Except.ok.inj made
    exact digest_hexdigest _

theorem scoreRunResult_sound {files : ScoredFiles} {suite : EvaluationCaseSuite} {raw : Object}
    (loaded : loadEvaluationCaseSuite raw = .ok suite) {catalog : GroundTruthCatalog}
    {result : EvaluationRunCaseResult} (valid : result.observation.Valid)
    (printed : Json.checkItems reportDumps.accepts
        (result.observation.sideEffects.items.map fun i => (i.1, i.2.toJson)) = true ∧
      result.observation.cost.toJson.check reportDumps.accepts = true) {s : EvaluationScore}
    (made : scoreRunResult files suite.cases catalog result = .ok s) :
    s.Valid ∧ ∀ c ∈ s.checks, c.expected.Sound ∧ c.actual.Sound := by
  rw [scoreRunResult] at made
  split at made
  · cases made
  · rename_i case found
    have listed := List.mem_of_find?_eq_some found
    obtain ⟨⟨⟩, -, made⟩ := bind_ok.mp made
    obtain ⟨digest, hashed, made⟩ := bind_ok.mp made
    obtain ⟨⟨⟩, -, made⟩ := bind_ok.mp made
    obtain ⟨effects, maximum⟩ := accepted_case (dumped_ok.mp hashed)
    exact scoreEvaluationObservation_sound ((loadEvaluationCaseSuite_loaded loaded).2 case listed).id
      (loadEvaluationCaseSuite_expected loaded case listed) valid
      ⟨effects, maximum, printed.1, printed.2⟩ made

/-- What the scorer returns for a loaded suite and a run with results. -/
theorem scoreEvaluationRun_valid {files : ScoredFiles} {suite : EvaluationCaseSuite} {raw : Object}
    (loaded : loadEvaluationCaseSuite raw = .ok suite) {catalog : GroundTruthCatalog}
    {run : EvaluationRun} (valid : ∀ result ∈ run.results, result.observation.Valid)
    (some' : run.results ≠ []) {r : EvaluationScoreReport}
    (made : scoreEvaluationRun files suite run catalog = .ok r) :
    r.Valid ∧ r.Values ScoreValue.Sound := by
  obtain ⟨caseFixture, hfixture, made⟩ := bind_ok.mp made
  obtain ⟨groundTruth, htruth, made⟩ := bind_ok.mp made
  obtain ⟨⟨⟩, -, made⟩ := bind_ok.mp made
  obtain ⟨⟨⟩, -, made⟩ := bind_ok.mp made
  obtain ⟨⟨⟩, -, made⟩ := bind_ok.mp made
  obtain ⟨⟨⟩, -, made⟩ := bind_ok.mp made
  obtain ⟨scores, each, made⟩ := bind_ok.mp made
  obtain ⟨text, printed, made⟩ := bind_ok.mp made
  obtain rfl := Except.ok.inj made
  have sound : ∀ s ∈ scores, s.Valid ∧ ∀ c ∈ s.checks, c.expected.Sound ∧ c.actual.Sound := by
    intro s hs
    obtain ⟨result, listed, own⟩ := forall₂_mem (mapM_ok.mp each) hs
    exact scoreRunResult_sound loaded (valid result listed)
      (accepted_observation (dumped_ok.mp printed) listed) own
  have scored : scores ≠ [] := by
    rintro rfl
    exact some' (List.forall₂_nil_right_iff.mp (mapM_ok.mp each))
  exact ⟨⟨rfl, rfl, (loadEvaluationCaseSuite_loaded loaded).1, sha256File_digest hfixture,
    sha256File_digest htruth, digest_hexdigest _, rfl, scored, fun s hs => (sound s hs).1⟩,
    fun s hs => (sound s hs).2⟩

/-- The report of a scored run comes back from its text through both decoders, as a report of the
same text. -/
theorem scores_return {ε : Type} (files : Files) (suite' : EvaluationCaseSuite)
    (executor : Executor ε) (schedule : Schedule) (options : RunOptions) {run : EvaluationRun}
    (ran : (runEvaluationCases files suite' executor schedule options).run = .ok run)
    (some' : run.results ≠ []) {raw : Object} {suite : EvaluationCaseSuite}
    (loaded : loadEvaluationCaseSuite raw = .ok suite) (scored : ScoredFiles)
    (catalog : GroundTruthCatalog) {report : EvaluationScoreReport}
    (made : scoreEvaluationRun scored suite run catalog = .ok report) (o : SetOrder) {limit : Nat}
    (room : 6 ≤ limit) : ∃ text, report.asJson o = .ok text ∧
      (∃ r, evaluationScoreReportFromJson limit text = .ok r ∧ ∀ o', r.asJson o' = .ok text) ∧
      ∃ r, loadEvaluationScoreReport limit text = .ok r ∧ ∀ o', r.asJson o' = .ok text := by
  obtain ⟨valid, sound⟩ := scoreEvaluationRun_valid loaded (run_observations ran) some' made
  obtain ⟨text, printed, first, second⟩ := decoders_return o valid sound room
  have again : ∀ o', (report.joined o).asJson o' = .ok text := by
    intro o'
    rw [(report.joined_settled o).asJson_eq o' o, report.joined_asJson, printed]
  exact ⟨text, printed, ⟨_, first, again⟩, _, second, again⟩

/-! ## A scored run -/

def sampleScored : ScoredFiles := ⟨sampleFiles.sha256, sampleFiles.fixture, some []⟩

def sampleCatalog : GroundTruthCatalog := ⟨[⟨lit "g", [lit "A"]⟩]⟩

/-- The run over a document that loads, and its scores. -/
def scoredRun (raw : Object) : Option (EvaluationCaseSuite × EvaluationRun × EvaluationScoreReport) := do
  let suite ← (loadEvaluationCaseSuite raw).toOption
  let run ← (runEvaluationCases sampleFiles suite sampleExecutor .sequential
    (sampleOptions none)).run.toOption
  let report ← (scoreEvaluationRun sampleScored suite run sampleCatalog).toOption
  return (suite, run, report)

theorem toOption_some {ε α : Type} {x : Except ε α} {a : α} (h : x.toOption = some a) : x = .ok a := by
  cases x with
  | ok b => exact congrArg Except.ok (Option.some.inj h)
  | error e => cases h

theorem scoredRun_some {raw : Object} {suite : EvaluationCaseSuite} {run : EvaluationRun}
    {report : EvaluationScoreReport} (made : scoredRun raw = some (suite, run, report)) :
    loadEvaluationCaseSuite raw = .ok suite ∧
    (runEvaluationCases sampleFiles suite sampleExecutor .sequential (sampleOptions none)).run =
      .ok run ∧
    scoreEvaluationRun sampleScored suite run sampleCatalog = .ok report := by
  obtain ⟨suite', loaded, made⟩ := Option.bind_eq_some_iff.mp made
  obtain ⟨run', ran, made⟩ := Option.bind_eq_some_iff.mp made
  obtain ⟨report', scored, made⟩ := Option.bind_eq_some_iff.mp made
  obtain ⟨rfl, same⟩ := Prod.mk.inj (Option.some.inj made)
  obtain ⟨rfl, rfl⟩ := Prod.mk.inj same
  exact ⟨toOption_some loaded, toOption_some ran, toOption_some scored⟩

theorem scores_return_sample : ∃ suite run report,
    loadEvaluationCaseSuite (rawSuite (lit "a")) = .ok suite ∧
    (runEvaluationCases sampleFiles suite sampleExecutor .sequential (sampleOptions none)).run =
      .ok run ∧
    scoreEvaluationRun sampleScored suite run sampleCatalog = .ok report ∧
    ∀ o, ∃ text, report.asJson o = .ok text ∧
      (∃ r, evaluationScoreReportFromJson 1000 text = .ok r ∧ ∀ o', r.asJson o' = .ok text) ∧
      ∃ r, loadEvaluationScoreReport 1000 text = .ok r ∧ ∀ o', r.asJson o' = .ok text := by
  have all : (scoredRun (rawSuite (lit "a"))).any (fun s => !s.2.1.results.isEmpty) = true := by
    decide +kernel
  obtain ⟨⟨suite, run, report⟩, made, some'⟩ := Option.any_eq_true _ _ |>.mp all
  obtain ⟨loaded, ran, scored⟩ := scoredRun_some made
  have nonempty : run.results ≠ [] := by simpa using some'
  exact ⟨suite, run, report, loaded, ran, scored, fun o => scores_return sampleFiles suite
    sampleExecutor .sequential (sampleOptions none) ran nonempty loaded sampleScored sampleCatalog
    scored o (by decide)⟩

end QaCopilot.Evaluation
