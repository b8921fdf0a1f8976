import QaCopilot.Evaluation.RunRoundTrip
import QaCopilot.Evaluation.ScoreDecoders
import QaCopilot.Python.KeyOrder

/-!
# The round trip of a score report

* a report that the scorer made is `Valid`, and its values are `Sound`;
* `json.loads` gives the value of the joined report back from the text of such a report;
* `Baseline.decoded_report`, `Assembly.decoded_report`: both decoders take a valid report whose values are settled
  back from its value, and a joined report is one;
* `decoders_return`: so both return the joined report from the text.
-/

namespace QaCopilot.Evaluation

open Python Results

/-! ## Valid reports -/

structure EvaluationScore.Valid (s : EvaluationScore) : Prop where
  caseId : Trimmed s.caseId
  scorerVersion : s.scorerVersion = deterministicScorerVersion
  passed : s.passed = s.checks.all (·.passed)
  checked : s.checks ≠ []
  codes : ∀ c ∈ s.checks, Trimmed c.code

structure EvaluationScoreReport.Valid (r : EvaluationScoreReport) : Prop where
  schemaVersion : r.schemaVersion = evaluationScoreReportSchemaVersion
  scorerVersion : r.scorerVersion = deterministicScorerVersion
  suiteId : Trimmed r.suiteId
  caseFixtureSha256 : Digest r.caseFixtureSha256
  groundTruthSha256 : Digest r.groundTruthSha256
  runSha256 : Digest r.runSha256
  passed : r.passed = r.scores.all (·.passed)
  scored : r.scores ≠ []
  scores : ∀ s ∈ r.scores, s.Valid

/-- Every value of the report has the property. -/
def EvaluationScoreReport.Values (P : ScoreValue → Prop) (r : EvaluationScoreReport) : Prop :=
  ∀ s ∈ r.scores, ∀ c ∈ s.checks, P c.expected ∧ P c.actual

/-- A value that was decoded: JSON with sorted keys. -/
def ScoreValue.Settled : ScoreValue → Prop
  | .texts _ => False
  | .json v => v.sorted = v

/-! ## Fields of sorted objects -/

theorem jsonField_sorted {items : List (Str × Json)} (distinct : (items.map (·.1)).Nodup)
    (key : String) (v : Json) (listed : (lit key, v) ∈ items) :
    jsonField (sortItems (Json.sortedItems items)) key = v.sorted := by
  have perm := sortItems_perm (Json.sortedItems items)
  have keys : ((sortItems (Json.sortedItems items)).map (·.1)).Nodup := by
    rw [(perm.map (·.1)).nodup_iff, sortedItems_keys]
    exact distinct
  have here : (lit key, v.sorted) ∈ sortItems (Json.sortedItems items) := by
    rw [perm.mem_iff, sortedItems_eq]
    exact List.mem_map.mpr ⟨_, listed, rfl⟩
  rw [jsonField, (Table.find?_key keys).mpr ⟨here, rfl⟩]
  rfl

theorem requireFields_sorted {items : List (Str × Json)} {names : List String}
    (own : items.map (·.1) = names.map lit) (label : String) :
    requireFields (sortItems (Json.sortedItems items)) names label = .ok () := by
  have perm := (sortItems_perm (Json.sortedItems items)).map (·.1)
  rw [sortedItems_keys, own] at perm
  exact rejectWhen_ok.mpr (by simpa using ⟨perm.subset, perm.symm.subset⟩)

theorem nodup_checkItems (o : SetOrder) (c : EvaluationScoreCheck) :
    ((c.toItems o).map (·.1)).Nodup :=
  nodup_names (show checkKeys.Nodup by decide)

theorem nodup_scoreItems (o : SetOrder) (s : EvaluationScore) : ((s.toItems o).map (·.1)).Nodup :=
  nodup_names (show scoreKeys.Nodup by decide)

theorem nodup_scoreReportItems (o : SetOrder) (r : EvaluationScoreReport) :
    ((r.toItems o).map (·.1)).Nodup :=
  nodup_names (show scoreReportKeys.Nodup by decide)

theorem ScoreValue.Settled.decoded {v : ScoreValue} (settled : v.Settled) (o : SetOrder) :
    .json (v.toJson o).sorted = v := by
  cases v with
  | texts values => exact settled.elim
  | json v => exact congrArg ScoreValue.json ((sorted_sorted v).trans settled)

theorem ScoreValue.Settled.toJson_eq {v : ScoreValue} (settled : v.Settled) (o o' : SetOrder) :
    v.toJson o = v.toJson o' := by
  cases v with
  | texts values => exact settled.elim
  | json v => rfl

/-- The text of a settled report does not depend on how Python iterates over sets. -/
theorem EvaluationScoreReport.Values.asJson_eq {r : EvaluationScoreReport}
    (settled : r.Values ScoreValue.Settled) (o o' : SetOrder) : r.asJson o = r.asJson o' := by
  have checks : ∀ s ∈ r.scores, s.toItems o = s.toItems o' := by
    intro s hs
    have same : (s.checks.map fun c => Json.dict (c.toItems o)) =
        s.checks.map fun c => .dict (c.toItems o') := by
      refine List.map_congr_left fun c hc => ?_
      obtain ⟨expected, actual⟩ := settled s hs c hc
      rw [EvaluationScoreCheck.toItems, expected.toJson_eq o o', actual.toJson_eq o o']
      rfl
    rw [EvaluationScore.toItems, same]
    rfl
  have scores : (r.scores.map fun s => Json.dict (s.toItems o)) =
      r.scores.map fun s => .dict (s.toItems o') :=
    List.map_congr_left fun s hs => by rw [checks s hs]
  rw [EvaluationScoreReport.asJson, EvaluationScoreReport.toItems, scores]
  rfl

/-! ## The baseline comparison -/

namespace Baseline

theorem text_of_trimmed {s : Str} (trimmed : Trimmed s) (label : String) :
    text (.str s) label = .ok s := by
  have kept : (if strip s = [] then reject (label ++ " must be non-empty text")
      else Except.ok (strip s) : Checked Str) = .ok s := by
    rw [trimmed.1, if_neg trimmed.2]
  exact kept

theorem sha256_of_digest {s : Str} (digest : Digest s) (label : String) :
    sha256 (.str s) label = .ok s :=
  bind_ok.mpr ⟨s, text_of_trimmed digest.2 label, bind_ok.mpr
    ⟨(), rejectWhen_ok.mpr (by simp [digest.1]), rfl⟩⟩

theorem decoded_check {c : EvaluationScoreCheck} (code : Trimmed c.code)
    (settled : c.expected.Settled ∧ c.actual.Settled) (o : SetOrder) (label : String) :
    checkFromJson (Json.dict (c.toItems o)).sorted label = .ok c := by
  have field := jsonField_sorted (nodup_checkItems o c)
  refine bind_ok.mpr ⟨_, rfl, bind_ok.mpr ⟨(), requireFields_sorted rfl _, bind_ok.mpr
    ⟨c.code, ?_, bind_ok.mpr ⟨c.passed, ?_, ?_⟩⟩⟩⟩
  · rw [field "code" (.str c.code) (by simp [EvaluationScoreCheck.toItems])]
    exact text_of_trimmed code _
  · rw [field "passed" (.bool c.passed) (by simp [EvaluationScoreCheck.toItems])]
    rfl
  · rw [field "expected" (c.expected.toJson o) (by simp [EvaluationScoreCheck.toItems]),
      field "actual" (c.actual.toJson o) (by simp [EvaluationScoreCheck.toItems]),
      settled.1.decoded, settled.2.decoded]
    rfl

theorem decoded_score {s : EvaluationScore} (valid : s.Valid)
    (settled : ∀ c ∈ s.checks, c.expected.Settled ∧ c.actual.Settled) (o : SetOrder)
    (label : String) : scoreFromJson (Json.dict (s.toItems o)).sorted label = .ok s := by
  have field := jsonField_sorted (nodup_scoreItems o s)
  refine bind_ok.mpr ⟨_, rfl, bind_ok.mpr ⟨(), requireFields_sorted rfl _, bind_ok.mpr
    ⟨s.checks.map fun c => (Json.dict (c.toItems o)).sorted, ?_, bind_ok.mpr ⟨s.checks, ?_,
    bind_ok.mpr ⟨s.caseId, ?_, bind_ok.mpr ⟨s.scorerVersion, ?_, bind_ok.mpr ⟨s.passed, ?_,
    bind_ok.mpr ⟨(), rejectWhen_ok.mpr ?_, rfl⟩⟩⟩⟩⟩⟩⟩⟩
  · rw [field "checks" (.list (s.checks.map fun c => .dict (c.toItems o)))
      (by simp [EvaluationScore.toItems]), Json.sorted, sortedList_eq, List.map_map]
    rfl
  · exact mapM_zipIdx (fun c listed n => decoded_check (valid.codes c listed) (settled c listed) o _) 0
  · rw [field "case_id" (.str s.caseId) (by simp [EvaluationScore.toItems])]
    exact text_of_trimmed valid.caseId _
  · rw [field "scorer_version" (.str s.scorerVersion) (by simp [EvaluationScore.toItems]),
      valid.scorerVersion]
    exact text_of_trimmed (by unfold Trimmed; decide +kernel) _
  · rw [field "passed" (.bool s.passed) (by simp [EvaluationScore.toItems])]
    rfl
  · simp [valid.passed]

theorem decoded_report {r : EvaluationScoreReport} (valid : r.Valid) (settled : r.Values ScoreValue.Settled)
    (o : SetOrder) : reportFromJson (Json.dict (r.toItems o)).sorted = .ok r := by
  have field := jsonField_sorted (nodup_scoreReportItems o r)
  refine bind_ok.mpr ⟨_, rfl, bind_ok.mpr ⟨(), requireFields_sorted rfl _, bind_ok.mpr
    ⟨r.scores.map fun s => (Json.dict (s.toItems o)).sorted, ?_, bind_ok.mpr ⟨r.scores, ?_,
    bind_ok.mpr ⟨r.schemaVersion, ?_, bind_ok.mpr ⟨r.scorerVersion, ?_, bind_ok.mpr ⟨r.suiteId, ?_,
    bind_ok.mpr ⟨r.caseFixtureSha256, ?_, bind_ok.mpr ⟨r.groundTruthSha256, ?_, bind_ok.mpr
    ⟨r.runSha256, ?_, bind_ok.mpr ⟨r.passed, ?_, bind_ok.mpr ⟨(), rejectWhen_ok.mpr ?_,
    bind_ok.mpr ⟨(), rejectWhen_ok.mpr ?_, rfl⟩⟩⟩⟩⟩⟩⟩⟩⟩⟩⟩⟩⟩
  · rw [field "scores" (.list (r.scores.map fun s => .dict (s.toItems o)))
      (by simp [EvaluationScoreReport.toItems]), Json.sorted, sortedList_eq, List.map_map]
    rfl
  · exact mapM_zipIdx (fun s listed n => decoded_score (valid.scores s listed) (settled s listed) o _) 0
  · rw [field "schema_version" (.str r.schemaVersion) (by simp [EvaluationScoreReport.toItems]),
      valid.schemaVersion]
    exact text_of_trimmed (by unfold Trimmed; decide) _
  · rw [field "scorer_version" (.str r.scorerVersion) (by simp [EvaluationScoreReport.toItems]),
      valid.scorerVersion]
    exact text_of_trimmed (by unfold Trimmed; decide) _
  · rw [field "suite_id" (.str r.suiteId) (by simp [EvaluationScoreReport.toItems])]
    exact text_of_trimmed valid.suiteId _
  · rw [field "case_fixture_sha256" (.str r.caseFixtureSha256)
      (by simp [EvaluationScoreReport.toItems])]
    exact sha256_of_digest valid.caseFixtureSha256 _
  · rw [field "ground_truth_sha256" (.str r.groundTruthSha256)
      (by simp [EvaluationScoreReport.toItems])]
    exact sha256_of_digest valid.groundTruthSha256 _
  · rw [field "run_sha256" (.str r.runSha256) (by simp [EvaluationScoreReport.toItems])]
    exact sha256_of_digest valid.runSha256 _
  · rw [field "passed" (.bool r.passed) (by simp [EvaluationScoreReport.toItems])]
    rfl
  · simp [valid.schemaVersion]
  · simp [valid.passed]

end Baseline

/-! ## The B1 assembly -/

namespace Assembly

theorem text_of_trimmed {s : Str} (trimmed : Trimmed s) (label : String) :
    text (.str s) label = .ok s := by
  have kept : (if s = [] ∨ strip s ≠ s then reject (label ++ " must be non-empty text")
      else Except.ok s : Checked Str) = .ok s := by
    rw [if_neg (by simpa [trimmed.1] using trimmed.2)]
  exact kept

theorem sha256_of_digest {s : Str} (digest : Digest s) (label : String) :
    sha256 (.str s) label = .ok s :=
  bind_ok.mpr ⟨s, text_of_trimmed digest.2 label, bind_ok.mpr
    ⟨(), rejectWhen_ok.mpr (by simp [digest.1]), rfl⟩⟩

theorem someItems_ok {values : List Json} (some' : values ≠ []) (message : String) :
    someItems (.list values) message = .ok values := by
  cases values with
  | nil => exact absurd rfl some'
  | cons v vs => rfl

theorem decoded_check {c : EvaluationScoreCheck} (code : Trimmed c.code)
    (settled : c.expected.Settled ∧ c.actual.Settled) (o : SetOrder) :
    scoreCheck (Json.dict (c.toItems o)).sorted = .ok c := by
  have field := jsonField_sorted (nodup_checkItems o c)
  refine bind_ok.mpr ⟨_, rfl, bind_ok.mpr ⟨(), requireFields_sorted rfl _, bind_ok.mpr
    ⟨c.code, ?_, bind_ok.mpr ⟨c.passed, ?_, ?_⟩⟩⟩⟩
  · rw [field "code" (.str c.code) (by simp [EvaluationScoreCheck.toItems])]
    exact text_of_trimmed code _
  · rw [field "passed" (.bool c.passed) (by simp [EvaluationScoreCheck.toItems])]
    rfl
  · rw [field "expected" (c.expected.toJson o) (by simp [EvaluationScoreCheck.toItems]),
      field "actual" (c.actual.toJson o) (by simp [EvaluationScoreCheck.toItems]), sorted_sorted,
      sorted_sorted, settled.1.decoded, settled.2.decoded]
    rfl

theorem decoded_score {s : EvaluationScore} (valid : s.Valid)
    (settled : ∀ c ∈ s.checks, c.expected.Settled ∧ c.actual.Settled) (o : SetOrder) :
    score (Json.dict (s.toItems o)).sorted = .ok s := by
  have field := jsonField_sorted (nodup_scoreItems o s)
  have whole : s = ⟨s.caseId, deterministicScorerVersion, s.passed, s.checks⟩ := by
    rw [← valid.scorerVersion]
  refine bind_ok.mpr ⟨_, rfl, bind_ok.mpr ⟨(), requireFields_sorted rfl _, bind_ok.mpr
    ⟨deterministicScorerVersion, ?_, bind_ok.mpr ⟨(), rejectWhen_ok.mpr (by simp), bind_ok.mpr
    ⟨s.checks.map fun c => (Json.dict (c.toItems o)).sorted, ?_, bind_ok.mpr ⟨s.checks, ?_,
    bind_ok.mpr ⟨s.passed, ?_, bind_ok.mpr ⟨(), rejectWhen_ok.mpr ?_, bind_ok.mpr ⟨s.caseId, ?_,
    ?_⟩⟩⟩⟩⟩⟩⟩⟩⟩
  · rw [field "scorer_version" (.str s.scorerVersion) (by simp [EvaluationScore.toItems]),
      valid.scorerVersion]
    exact text_of_trimmed (by unfold Trimmed; decide) _
  · rw [field "checks" (.list (s.checks.map fun c => .dict (c.toItems o)))
      (by simp [EvaluationScore.toItems]), Json.sorted, sortedList_eq, List.map_map]
    exact someItems_ok (by simpa using valid.checked) _
  · rw [List.mapM_map]
    exact mapM_self fun c listed => decoded_check (valid.codes c listed) (settled c listed) o
  · rw [field "passed" (.bool s.passed) (by simp [EvaluationScore.toItems])]
    rfl
  · simp [valid.passed]
  · rw [field "case_id" (.str s.caseId) (by simp [EvaluationScore.toItems])]
    exact text_of_trimmed valid.caseId _
  · exact congrArg Except.ok whole.symm

theorem decoded_report {r : EvaluationScoreReport} (valid : r.Valid)
    (settled : r.Values ScoreValue.Settled) (o : SetOrder) :
    reportFromJson (Json.dict (r.toItems o)).sorted = .ok r := by
  have field := jsonField_sorted (nodup_scoreReportItems o r)
  have whole : r = ⟨evaluationScoreReportSchemaVersion, deterministicScorerVersion, r.suiteId,
      r.caseFixtureSha256, r.groundTruthSha256, r.runSha256, r.passed, r.scores⟩ := by
    rw [← valid.schemaVersion, ← valid.scorerVersion]
  refine bind_ok.mpr ⟨_, rfl, bind_ok.mpr ⟨(), requireFields_sorted rfl _, bind_ok.mpr
    ⟨evaluationScoreReportSchemaVersion, ?_, bind_ok.mpr ⟨(), rejectWhen_ok.mpr (by simp),
    bind_ok.mpr ⟨deterministicScorerVersion, ?_, bind_ok.mpr ⟨(), rejectWhen_ok.mpr (by simp),
    bind_ok.mpr ⟨r.scores.map fun s => (Json.dict (s.toItems o)).sorted, ?_, bind_ok.mpr
    ⟨r.scores, ?_, bind_ok.mpr ⟨r.passed, ?_, bind_ok.mpr ⟨(), rejectWhen_ok.mpr ?_, bind_ok.mpr
    ⟨r.suiteId, ?_, bind_ok.mpr ⟨r.caseFixtureSha256, ?_, bind_ok.mpr ⟨r.groundTruthSha256, ?_,
    bind_ok.mpr ⟨r.runSha256, ?_, ?_⟩⟩⟩⟩⟩⟩⟩⟩⟩⟩⟩⟩⟩⟩
  · rw [field "schema_version" (.str r.schemaVersion) (by simp [EvaluationScoreReport.toItems]),
      valid.schemaVersion]
    exact text_of_trimmed (by unfold Trimmed; decide) _
  · rw [field "scorer_version" (.str r.scorerVersion) (by simp [EvaluationScoreReport.toItems]),
      valid.scorerVersion]
    exact text_of_trimmed (by unfold Trimmed; decide) _
  · rw [field "scores" (.list (r.scores.map fun s => .dict (s.toItems o)))
      (by simp [EvaluationScoreReport.toItems]), Json.sorted, sortedList_eq, List.map_map]
    exact someItems_ok (by simpa using valid.scored) _
  · rw [List.mapM_map]
    exact mapM_self fun s listed => decoded_score (valid.scores s listed) (settled s listed) o
  · rw [field "passed" (.bool r.passed) (by simp [EvaluationScoreReport.toItems])]
    rfl
  · simp [valid.passed]
  · rw [field "suite_id" (.str r.suiteId) (by simp [EvaluationScoreReport.toItems])]
    exact text_of_trimmed valid.suiteId _
  · rw [field "case_fixture_sha256" (.str r.caseFixtureSha256)
      (by simp [EvaluationScoreReport.toItems])]
    exact sha256_of_digest valid.caseFixtureSha256 _
  · rw [field "ground_truth_sha256" (.str r.groundTruthSha256)
      (by simp [EvaluationScoreReport.toItems])]
    exact sha256_of_digest valid.groundTruthSha256 _
  · rw [field "run_sha256" (.str r.runSha256) (by simp [EvaluationScoreReport.toItems])]
    exact sha256_of_digest valid.runSha256 _
  · exact congrArg Except.ok whole.symm

end Assembly

/-! ## Joined reports -/

def ScoreValue.joined (o : SetOrder) (v : ScoreValue) : ScoreValue :=
  .json ((v.toJson o).mapStr joinPairs)

def EvaluationScoreCheck.joined (o : SetOrder) (c : EvaluationScoreCheck) : EvaluationScoreCheck :=
  ⟨joinPairs c.code, c.passed, c.expected.joined o, c.actual.joined o⟩

def EvaluationScore.joined (o : SetOrder) (s : EvaluationScore) : EvaluationScore :=
  ⟨joinPairs s.caseId, joinPairs s.scorerVersion, s.passed, s.checks.map (·.joined o)⟩

/-- The report with every surrogate pair made one character, and its values as JSON. -/
def EvaluationScoreReport.joined (o : SetOrder) (r : EvaluationScoreReport) :
    EvaluationScoreReport where
  schemaVersion := joinPairs r.schemaVersion
  scorerVersion := joinPairs r.scorerVersion
  suiteId := joinPairs r.suiteId
  caseFixtureSha256 := joinPairs r.caseFixtureSha256
  groundTruthSha256 := joinPairs r.groundTruthSha256
  runSha256 := joinPairs r.runSha256
  passed := r.passed
  scores := r.scores.map (·.joined o)

section
variable (o : SetOrder)

theorem ScoreValue.toJson_sorted (v : ScoreValue) : (v.toJson o).sorted = v.toJson o := by
  cases v with
  | texts values =>
    rw [ScoreValue.toJson, Evaluation.texts, Json.sorted, sortedList_eq, List.map_map]
    rfl
  | json v => exact sorted_sorted v

theorem ScoreValue.joined_toJson (v : ScoreValue) :
    (v.joined o).toJson o = (v.toJson o).mapStr joinPairs := by
  rw [ScoreValue.joined, ScoreValue.toJson, sorted_mapStr, v.toJson_sorted]

theorem ScoreValue.joined_settled (v : ScoreValue) : (v.joined o).Settled := by
  rw [ScoreValue.joined, ScoreValue.Settled, sorted_mapStr, v.toJson_sorted]

theorem EvaluationScoreReport.joined_settled (r : EvaluationScoreReport) :
    (r.joined o).Values ScoreValue.Settled :=
  List.forall_mem_map.mpr fun _ _ => List.forall_mem_map.mpr fun c _ =>
    ⟨c.expected.joined_settled o, c.actual.joined_settled o⟩

theorem mapStr_list {α : Type} (f : Str → Str) (g : α → Json) (l : List α) :
    (Json.list (l.map g)).mapStr f = .list (l.map fun a => (g a).mapStr f) := by
  rw [Json.mapStr, mapStrList_eq, List.map_map]
  rfl

theorem EvaluationScoreCheck.joined_toJson (c : EvaluationScoreCheck) :
    (Json.dict (c.toItems o)).mapStr joinPairs = .dict ((c.joined o).toItems o) := by
  simp only [Json.mapStr, EvaluationScoreCheck.toItems, Json.mapStrItems,
    EvaluationScoreCheck.joined, ScoreValue.joined_toJson]

theorem EvaluationScore.joined_toJson (s : EvaluationScore) :
    (Json.dict (s.toItems o)).mapStr joinPairs = .dict ((s.joined o).toItems o) := by
  have checks := mapStr_list joinPairs (fun c : EvaluationScoreCheck => Json.dict (c.toItems o))
    s.checks
  simp only [EvaluationScoreCheck.joined_toJson] at checks
  rw [Json.mapStr, mapStrItems_eq]
  simp only [EvaluationScore.toItems, List.map_cons, List.map_nil, checks, EvaluationScore.joined,
    List.map_map]
  rfl

/-- `json.loads` makes the value of the joined report from the text of a report. -/
theorem EvaluationScoreReport.joined_toJson (r : EvaluationScoreReport) :
    (Json.dict (r.toItems o)).mapStr joinPairs = .dict ((r.joined o).toItems o) := by
  have scores := mapStr_list joinPairs (fun s : EvaluationScore => Json.dict (s.toItems o)) r.scores
  simp only [EvaluationScore.joined_toJson] at scores
  rw [Json.mapStr, mapStrItems_eq]
  simp only [EvaluationScoreReport.toItems, List.map_cons, List.map_nil, scores,
    EvaluationScoreReport.joined, List.map_map]
  rfl

theorem trimmed_joinPairs {s : Str} (trimmed : Trimmed s) : Trimmed (joinPairs s) :=
  ⟨strip_joinPairs trimmed.1, joinPairs_ne_nil trimmed.2⟩

theorem joinPairs_lit {s : String} (ascii : s.toList.all (·.toNat < 0xD800) = true) :
    joinPairs (lit s) = lit s :=
  joinPairs_of_pairFree (pairFree_lit ascii)

theorem joinPairs_digest {s : Str} (digest : Digest s) : joinPairs s = s := by
  refine joinPairs_of_pairFree (pairFree_of_low fun c hc => ?_)
  have hex := digest.1
  simp only [isDigest, Bool.and_eq_true, List.all_eq_true] at hex
  have low := hex.2 c hc
  simp only [Bool.or_eq_true, Bool.and_eq_true, decide_eq_true_eq] at low
  omega

theorem EvaluationScore.Valid.joined {s : EvaluationScore} (valid : s.Valid) :
    (s.joined o).Valid where
  caseId := trimmed_joinPairs valid.caseId
  scorerVersion := by
    rw [EvaluationScore.joined, valid.scorerVersion]
    exact joinPairs_lit (by decide)
  passed := by
    rw [EvaluationScore.joined, valid.passed, List.all_map]
    rfl
  checked := by simpa [EvaluationScore.joined] using valid.checked
  codes := List.forall_mem_map.mpr fun c listed => trimmed_joinPairs (valid.codes c listed)

theorem EvaluationScoreReport.Valid.joined {r : EvaluationScoreReport} (valid : r.Valid) :
    (r.joined o).Valid where
  schemaVersion := by
    rw [EvaluationScoreReport.joined, valid.schemaVersion]
    exact joinPairs_lit (by decide)
  scorerVersion := by
    rw [EvaluationScoreReport.joined, valid.scorerVersion]
    exact joinPairs_lit (by decide)
  suiteId := trimmed_joinPairs valid.suiteId
  caseFixtureSha256 := by
    rw [EvaluationScoreReport.joined, joinPairs_digest valid.caseFixtureSha256]
    exact valid.caseFixtureSha256
  groundTruthSha256 := by
    rw [EvaluationScoreReport.joined, joinPairs_digest valid.groundTruthSha256]
    exact valid.groundTruthSha256
  runSha256 := by
    rw [EvaluationScoreReport.joined, joinPairs_digest valid.runSha256]
    exact valid.runSha256
  passed := by
    rw [EvaluationScoreReport.joined, valid.passed, List.all_map]
    rfl
  scored := by simpa [EvaluationScoreReport.joined] using valid.scored
  scores := List.forall_mem_map.mpr fun s listed => (valid.scores s listed).joined o

/-- The text of a report does not tell it from the joined one. -/
theorem EvaluationScoreReport.joined_asJson (r : EvaluationScoreReport) :
    (r.joined o).asJson o = r.asJson o := by
  rw [EvaluationScoreReport.asJson, ← r.joined_toJson, sorted_mapStr,
    dumpsIndent_joinPairs (by rfl)]
  rfl

end

/-! ## The text of a report -/

/-- A value that `json.dumps` prints, of at most this depth and with distinct keys that hold no
surrogate pair. -/
structure Printed (n : Nat) (v : Json) : Prop where
  accepted : v.check reportDumps.accepts = true
  distinct : v.check .distinctKeys = true
  plain : v.check .pairFreeKeys = true
  depth : v.depth ≤ n

theorem Printed.str (n : Nat) (s : Str) : Printed n (.str s) := ⟨rfl, rfl, rfl, Nat.zero_le n⟩

theorem Printed.bool (n : Nat) (b : Bool) : Printed n (.bool b) := ⟨rfl, rfl, rfl, Nat.zero_le n⟩

theorem Printed.list {n : Nat} {vs : List Json} (values : ∀ v ∈ vs, Printed n v) :
    Printed (n + 1) (.list vs) where
  accepted := checkList_eq_true.mpr fun v hv => (values v hv).accepted
  distinct := checkList_eq_true.mpr fun v hv => (values v hv).distinct
  plain := checkList_eq_true.mpr fun v hv => (values v hv).plain
  depth := Nat.succ_le_succ (depthList_le.mpr fun v hv => (values v hv).depth)

theorem Printed.dict {n : Nat} {items : List (Str × Json)} (keys : (items.map (·.1)).Nodup)
    (plain : ∀ k ∈ items.map (·.1), pairFree k = true) (values : ∀ i ∈ items, Printed n i.2) :
    Printed (n + 1) (.dict items) where
  accepted := checkItems_eq_true.mpr fun i hi => (values i hi).accepted
  distinct := Bool.and_eq_true_iff.mpr ⟨decide_eq_true keys,
    checkItems_eq_true.mpr fun i hi => (values i hi).distinct⟩
  plain := Bool.and_eq_true_iff.mpr ⟨List.all_eq_true.mpr plain,
    checkItems_eq_true.mpr fun i hi => (values i hi).plain⟩
  depth := Nat.succ_le_succ (depthItems_le.mpr fun i hi => (values i hi).depth)

theorem Printed.sorted {n : Nat} {v : Json} (printed : Printed n v) : Printed n v.sorted where
  accepted := by rw [check_sorted (accepts_unordered _), printed.accepted]
  distinct := by rw [check_sorted distinctKeys_unordered, printed.distinct]
  plain := by rw [check_sorted pairFreeKeys_unordered, printed.plain]
  depth := by
    rw [depth_sorted]
    exact printed.depth

/-- A set of texts, or a value that is printed. -/
def ScoreValue.Sound : ScoreValue → Prop
  | .texts _ => True
  | .json v => Printed 1 v

section
variable (o : SetOrder)

theorem ScoreValue.Sound.printed {v : ScoreValue} (sound : v.Sound) : Printed 1 (v.toJson o) := by
  cases v with
  | texts values => exact .list (List.forall_mem_map.mpr fun s _ => .str 0 s)
  | json v => exact Printed.sorted sound

theorem plain_names {names : List String} (ascii : ∀ name ∈ names,
    name.toList.all (·.toNat < 0xD800) = true) : ∀ k ∈ names.map lit, pairFree k = true :=
  List.forall_mem_map.mpr fun name listed => pairFree_lit (ascii name listed)

theorem printed_check {c : EvaluationScoreCheck} (sound : c.expected.Sound ∧ c.actual.Sound) :
    Printed 2 (.dict (c.toItems o)) := by
  refine .dict (nodup_checkItems o c) (plain_names (show ∀ name ∈ checkKeys, _ by decide)) ?_
  simp only [EvaluationScoreCheck.toItems, List.forall_mem_cons]
  exact ⟨.str 1 _, .bool 1 _, sound.1.printed o, sound.2.printed o, nofun⟩

theorem printed_score {s : EvaluationScore}
    (sound : ∀ c ∈ s.checks, c.expected.Sound ∧ c.actual.Sound) :
    Printed 4 (.dict (s.toItems o)) := by
  refine .dict (nodup_scoreItems o s) (plain_names (show ∀ name ∈ scoreKeys, _ by decide)) ?_
  simp only [EvaluationScore.toItems, List.forall_mem_cons]
  exact ⟨.str 3 _, .str 3 _, .bool 3 _, .list (List.forall_mem_map.mpr fun c listed =>
    printed_check o (sound c listed)), nofun⟩

theorem printed_report {r : EvaluationScoreReport} (sound : r.Values ScoreValue.Sound) :
    Printed 6 (.dict (r.toItems o)) := by
  refine .dict (nodup_scoreReportItems o r)
    (plain_names (show ∀ name ∈ scoreReportKeys, _ by decide)) ?_
  simp only [EvaluationScoreReport.toItems, List.forall_mem_cons]
  exact ⟨.str 5 _, .str 5 _, .str 5 _, .str 5 _, .str 5 _, .str 5 _, .bool 5 _,
    .list (List.forall_mem_map.mpr fun s listed => printed_score o (sound s listed)), nofun⟩

/-- The text of a sound report, and what `json.loads` makes of it. -/
theorem loads_scores {r : EvaluationScoreReport} (sound : r.Values ScoreValue.Sound) {limit : Nat}
    (room : 6 ≤ limit) : ∃ text, r.asJson o = .ok text ∧
      loads limit text = .ok (Json.dict ((r.joined o).toItems o)).sorted := by
  have printed := (printed_report o sound).sorted
  obtain ⟨text, made⟩ := (dumpsIndent_isOk reportDumps 2 _ 0).mpr printed.accepted
  refine ⟨text ++ lit "\n", bind_ok.mpr ⟨text, made, rfl⟩, ?_⟩
  rw [loads_dumpsIndent separates_report (by rfl) made printed.distinct printed.plain
    (printed.depth.trans room), ← sorted_mapStr, r.joined_toJson]

/-- Both decoders return the joined report from the text of a valid one. -/
theorem decoders_return {r : EvaluationScoreReport} (valid : r.Valid)
    (sound : r.Values ScoreValue.Sound) {limit : Nat} (room : 6 ≤ limit) :
    ∃ text, r.asJson o = .ok text ∧
      evaluationScoreReportFromJson limit text = .ok (r.joined o) ∧
      loadEvaluationScoreReport limit text = .ok (r.joined o) := by
  obtain ⟨text, made, read⟩ := loads_scores o sound room
  have settled := r.joined_settled o
  refine ⟨text, made, ?_, ?_⟩
  · rw [evaluationScoreReportFromJson, read]
    exact congrArg ofChecked (Baseline.decoded_report (valid.joined o) settled o)
  · rw [loadEvaluationScoreReport, read]
    exact congrArg ofChecked (Assembly.decoded_report (valid.joined o) settled o)

end

end QaCopilot.Evaluation
