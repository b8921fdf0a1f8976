import Mathlib.Data.List.Chain
import QaCopilot.Execution.StoredTests
import QaCopilot.Python.Datetime

/-!
# Test revisions

`test_revisions.py`: the history of a generated test and the user edits of it.

* `validateHistory_sound`: what a history that passes the check is like;
* `append_spec`: an accepted edit adds one revision to a history, and the longer history passes;
* `history_runs`: every run of edits from a generated history.
-/

namespace QaCopilot.Execution

open Python Results

def maxEditorIdLength : Nat := 255

/-- `TestRevisionRejected` by its message, and the `ValueError`, `RecursionError` and `TypeError`
that nothing catches. -/
inductive RevisionError where
  | rejected (message : String)
  | value
  | recursion
  | type
deriving DecidableEq

def refuseWhen (c : Bool) (message : String) : Except RevisionError Unit :=
  if c then .error (.rejected message) else .ok ()

@[simp] theorem refuseWhen_ok {c : Bool} {message : String} {u : Unit} :
    refuseWhen c message = .ok u ↔ c = false := by
  cases c <;> simp [refuseWhen]

/-- The digits of Unicode, and how deep Python calls may nest. -/
structure Host where
  decimal : CodePoint → Option Nat
  recursionLimit : Nat

inductive TestRevisionKind where
  | generated
  | userEdit
deriving DecidableEq

/-! ## Timestamps -/

/-- A `datetime` and which object its zone is. -/
structure Timestamp where
  time : Datetime
  tzinfo : Option Nat
deriving DecidableEq

/-- `datetime.__lt__`: the offsets count between different zones alone. -/
def Timestamp.lt (a b : Timestamp) : Except RevisionError Bool :=
  if a.tzinfo = b.tzinfo ∨ a.time.offset = b.time.offset then
    .ok (a.time.wall.instant .utc < b.time.wall.instant .utc)
  else
    match a.time.offset, b.time.offset with
    | some o, some o' => .ok (a.time.wall.instant o < b.time.wall.instant o')
    | _, _ => .error .type

/-- `_require_aware_timestamp` -/
def requireAwareTimestamp (t : Timestamp) : Except RevisionError Unit :=
  refuseWhen (t.tzinfo.isNone || t.time.offset.isNone) "Revision timestamps must include a timezone"

/-! ## Revisions -/

structure TestRevision where
  id : Uuid
  testCaseId : Uuid
  revisionNumber : Int
  parentRevisionId : Option Uuid
  kind : TestRevisionKind
  editorId : Option Str
  createdAt : Timestamp
  testCasePayload : Str

structure TestRevisionHistory where
  testCaseId : Uuid
  revisions : List TestRevision

variable (host : Host)

/-- `_validated_test_case` -/
def validatedTestCase (payload : List (Object × Object)) : Except RevisionError GeneratedTestCase :=
  (validateGeneratedTestCase host.decimal payload).mapError fun _ =>
    .rejected "Test revision payload violates the generated-test contract"

/-- `_canonical_snapshot` -/
def canonicalSnapshot (test : GeneratedTestCase) : Except RevisionError Str := do
  let validated ← validatedTestCase host (Json.toItems test.asPayload)
  (dumps ⟨true, true, lit ",", lit ":"⟩ host.recursionLimit (Json.dict validated.asPayload).sorted).mapError
    fun
      | .value => .value
      | .recursion => .recursion

/-- `_test_case_from_snapshot` -/
def testCaseFromSnapshot (snapshot : Str) : Except RevisionError GeneratedTestCase := do
  let payload ← (loads host.recursionLimit snapshot).mapError fun
    | .decode => .rejected "Test revision snapshot is not valid JSON"
    | .value => .value
    | .recursion => .recursion
  match payload with
  | .dict items => validatedTestCase host (Json.toItems items)
  | _ => .error (.rejected "Test revision snapshot must be a JSON object")

/-- `_normalized_editor_id` -/
def normalizedEditorId (editorId : Str) : Except RevisionError Str := do
  let normalized := strip editorId
  refuseWhen (normalized.isEmpty || maxEditorIdLength < normalized.length)
    "Editor identity must be bounded, non-empty text"
  return normalized

/-! ## The check of a history -/

/-- What `_validate_history` asks of the first revision. -/
def validateFirst (revision : TestRevision) : Except RevisionError Unit :=
  refuseWhen (revision.kind ≠ .generated || revision.parentRevisionId.isSome || revision.editorId.isSome)
    "The first revision must be unattributed generated output"

/-- What it asks of a revision after another one. -/
def validateNext (previous revision : TestRevision) : Except RevisionError Unit := do
  match revision.editorId with
  | some editorId =>
    refuseWhen (revision.kind ≠ .userEdit || revision.parentRevisionId ≠ some previous.id)
      "User revisions must directly reference their parent revision"
    let _ ← normalizedEditorId editorId
    refuseWhen (← revision.createdAt.lt previous.createdAt)
      "Revision timestamps must not precede their parent revision"
  | none => .error (.rejected "User revisions must directly reference their parent revision")

/-- One turn of the loop of `_validate_history`. -/
def validateRevision (testCaseId : Uuid) (revisionIds : List Uuid) (expectedNumber : Int)
    (previous : Option TestRevision) (revision : TestRevision) : Except RevisionError Unit := do
  refuseWhen (revisionIds.contains revision.id) "Test revision IDs must be unique"
  refuseWhen (revision.testCaseId ≠ testCaseId)
    "Every revision must retain the original generated test case ID"
  refuseWhen (revision.revisionNumber ≠ expectedNumber) "Revision numbers must be contiguous"
  let test ← testCaseFromSnapshot host revision.testCasePayload
  refuseWhen (test.id ≠ testCaseId)
    "Revision snapshots must retain the original generated test case ID"
  requireAwareTimestamp revision.createdAt
  match previous with
  | none => validateFirst revision
  | some previous => validateNext previous revision

/-- The loop of `_validate_history`. -/
def validateRevisions (testCaseId : Uuid) (revisionIds : List Uuid) (expectedNumber : Int)
    (previous : Option TestRevision) : List TestRevision → Except RevisionError Unit
  | [] => .ok ()
  | revision :: revisions => do
    validateRevision host testCaseId revisionIds expectedNumber previous revision
    validateRevisions testCaseId (revisionIds ++ [revision.id]) (expectedNumber + 1) (some revision)
      revisions

/-- `_validate_history` -/
def validateHistory (history : TestRevisionHistory) : Except RevisionError Unit := do
  refuseWhen history.revisions.isEmpty "Test revision history requires an original revision"
  validateRevisions host history.testCaseId [] 1 none history.revisions

/-! ## Operations -/

/-- `create_test_revision_history`, with the id that the factory makes. -/
def createTestRevisionHistory (test : GeneratedTestCase) (createdAt : Timestamp) (id : Uuid) :
    Except RevisionError TestRevisionHistory := do
  requireAwareTimestamp createdAt
  let snapshot ← canonicalSnapshot host test
  let history : TestRevisionHistory :=
    ⟨test.id, [⟨id, test.id, 1, none, .generated, none, createdAt, snapshot⟩]⟩
  validateHistory host history
  return history

/-- The arguments of an edit, and the id that the factory makes. -/
structure UserEdit where
  payload : List (Object × Object)
  editorId : Str
  createdAt : Timestamp
  revisionId : Uuid

/-- `append_user_test_revision` of a history that passed its check, with this last revision. -/
def appendAfter (history : TestRevisionHistory) (parent : TestRevision) (edit : UserEdit) :
    Except RevisionError TestRevisionHistory := do
  requireAwareTimestamp edit.createdAt
  let editorId ← normalizedEditorId edit.editorId
  let test ← validatedTestCase host edit.payload
  refuseWhen (test.id ≠ history.testCaseId)
    "User edits must retain the original generated test case ID"
  let snapshot ← canonicalSnapshot host test
  refuseWhen (snapshot = parent.testCasePayload) "User edits must change the prior revision"
  refuseWhen (← edit.createdAt.lt parent.createdAt)
    "User revision timestamps must not precede their parent revision"
  refuseWhen ((history.revisions.map (·.id)).contains edit.revisionId)
    "Test revision IDs must be unique"
  let updated : TestRevisionHistory := ⟨history.testCaseId, history.revisions ++
    [⟨edit.revisionId, history.testCaseId, parent.revisionNumber + 1, some parent.id, .userEdit,
      some editorId, edit.createdAt, snapshot⟩]⟩
  validateHistory host updated
  return updated

/-- `append_user_test_revision` -/
def appendUserTestRevision (history : TestRevisionHistory) (edit : UserEdit) :
    Except RevisionError TestRevisionHistory := do
  validateHistory host history
  match history.revisions.getLast? with
  | some parent => appendAfter host history parent edit
  | none => .error (.rejected "Test revision history requires an original revision")

/-! ## Histories that pass -/

variable {host}

/-- The later revision was not made before the earlier one. -/
def Follows (earlier later : TestRevision) : Prop := later.createdAt.lt earlier.createdAt = .ok false

theorem validateNext_follows {previous revision : TestRevision} {u : Unit}
    (h : validateNext previous revision = .ok u) : Follows previous revision := by
  unfold validateNext at h
  split at h
  · obtain ⟨_, -, h⟩ := bind_ok.mp h
    obtain ⟨_, -, h⟩ := bind_ok.mp h
    obtain ⟨before, compared, h⟩ := bind_ok.mp h
    obtain rfl := refuseWhen_ok.mp h
    exact compared
  · cases h

theorem validateRevision_ok {testCaseId : Uuid} {ids : List Uuid} {number : Int}
    {previous : Option TestRevision} {revision : TestRevision} {u : Unit}
    (h : validateRevision host testCaseId ids number previous revision = .ok u) :
    revision.revisionNumber = number ∧ ∀ earlier ∈ previous, Follows earlier revision := by
  obtain ⟨_, -, h⟩ := bind_ok.mp h
  obtain ⟨_, -, h⟩ := bind_ok.mp h
  obtain ⟨_, numbered, h⟩ := bind_ok.mp h
  obtain ⟨_, -, h⟩ := bind_ok.mp h
  obtain ⟨_, -, h⟩ := bind_ok.mp h
  obtain ⟨_, -, h⟩ := bind_ok.mp h
  rw [refuseWhen_ok, decide_eq_false_iff_not, not_not] at numbered
  refine ⟨numbered, ?_⟩
  rintro earlier ⟨⟩
  exact validateNext_follows h

theorem validateRevisions_ok {testCaseId : Uuid} {revisions : List TestRevision} {ids : List Uuid}
    {number : Int} {previous : Option TestRevision} {u : Unit}
    (h : validateRevisions host testCaseId ids number previous revisions = .ok u) :
    (∀ (i : Nat) (r : TestRevision), revisions[i]? = some r → r.revisionNumber = number + i) ∧
      (previous.toList ++ revisions).IsChain Follows := by
  induction revisions generalizing ids number previous with
  | nil =>
    refine ⟨nofun, ?_⟩
    cases previous with
    | none => exact .nil
    | some earlier => exact .singleton earlier
  | cons revision revisions ih =>
    obtain ⟨_, first, h⟩ := bind_ok.mp h
    obtain ⟨own, follows⟩ := validateRevision_ok first
    obtain ⟨numbers, chain⟩ := ih h
    constructor
    · intro i r found
      cases i with
      | zero =>
        obtain rfl := Option.some.inj found
        rw [own, Nat.cast_zero, add_zero]
      | succ i =>
        rw [numbers i r found, Nat.cast_succ]
        omega
    · cases previous with
      | none => exact chain
      | some earlier => exact .cons_cons (follows earlier rfl) chain

/-- What holds of a history at any time. -/
structure HistoryHolds (host : Host) (history : TestRevisionHistory) : Prop where
  valid : validateHistory host history = .ok ()
  numbers : ∀ (i : Nat) (r : TestRevision), history.revisions[i]? = some r → r.revisionNumber = i + 1
  differ : history.revisions.IsChain fun r next => r.testCasePayload ≠ next.testCasePayload
  forward : history.revisions.IsChain Follows

/-- The check finds all but that neighbours differ. -/
theorem validateHistory_sound {history : TestRevisionHistory}
    (valid : validateHistory host history = .ok ())
    (differ : history.revisions.IsChain fun r next => r.testCasePayload ≠ next.testCasePayload) :
    HistoryHolds host history := by
  obtain ⟨_, -, each⟩ := bind_ok.mp valid
  obtain ⟨numbers, chain⟩ := validateRevisions_ok each
  refine ⟨valid, fun i r found => ?_, differ, chain⟩
  rw [numbers i r found, add_comm]

/-! ## Runs -/

theorem create_holds {test : GeneratedTestCase} {createdAt : Timestamp} {id : Uuid}
    {history : TestRevisionHistory}
    (h : createTestRevisionHistory host test createdAt id = .ok history) : HistoryHolds host history := by
  obtain ⟨_, -, h⟩ := bind_ok.mp h
  obtain ⟨snapshot, -, h⟩ := bind_ok.mp h
  obtain ⟨_, valid, h⟩ := bind_ok.mp h
  obtain rfl := Except.ok.inj h
  exact validateHistory_sound valid (.singleton _)

/-- An accepted edit adds one revision, which differs from the last one, and the history passes. -/
theorem append_spec {history updated : TestRevisionHistory} {edit : UserEdit}
    (h : appendUserTestRevision host history edit = .ok updated) :
    validateHistory host updated = .ok () ∧ updated.testCaseId = history.testCaseId ∧
      ∃ revision, updated.revisions = history.revisions ++ [revision] ∧
        ∀ parent ∈ history.revisions.getLast?, parent.testCasePayload ≠ revision.testCasePayload := by
  obtain ⟨_, -, h⟩ := bind_ok.mp h
  cases last : history.revisions.getLast? with
  | none =>
    rw [last] at h
    cases h
  | some parent =>
    rw [last] at h
    obtain ⟨_, -, h⟩ := bind_ok.mp h
    obtain ⟨editorId, -, h⟩ := bind_ok.mp h
    obtain ⟨test, -, h⟩ := bind_ok.mp h
    obtain ⟨_, -, h⟩ := bind_ok.mp h
    obtain ⟨snapshot, -, h⟩ := bind_ok.mp h
    obtain ⟨_, changed, h⟩ := bind_ok.mp h
    obtain ⟨before, -, h⟩ := bind_ok.mp h
    obtain ⟨_, -, h⟩ := bind_ok.mp h
    obtain ⟨_, -, h⟩ := bind_ok.mp h
    obtain ⟨_, valid, h⟩ := bind_ok.mp h
    obtain rfl := Except.ok.inj h
    rw [refuseWhen_ok, decide_eq_false_iff_not] at changed
    refine ⟨valid, rfl, _, rfl, ?_⟩
    rintro _ ⟨⟩
    exact Ne.symm changed

/-- The history that the caller has after an edit: the longer one, or the same one when the edit
raises. -/
def edited (host : Host) (history : TestRevisionHistory) (edit : UserEdit) : TestRevisionHistory :=
  match appendUserTestRevision host history edit with
  | .ok updated => updated
  | .error _ => history

theorem edited_holds {history : TestRevisionHistory} (holds : HistoryHolds host history)
    (edit : UserEdit) : HistoryHolds host (edited host history edit) := by
  unfold edited
  cases appended : appendUserTestRevision host history edit with
  | error e => exact holds
  | ok updated =>
    obtain ⟨valid, -, revision, same, changed⟩ := append_spec appended
    refine validateHistory_sound valid ?_
    rw [same]
    refine List.isChain_append.mpr ⟨holds.differ, .singleton revision, ?_⟩
    rintro parent last _ ⟨⟩
    exact changed parent last

theorem edited_prefix (history : TestRevisionHistory) (edit : UserEdit) :
    history.revisions <+: (edited host history edit).revisions := by
  unfold edited
  cases appended : appendUserTestRevision host history edit with
  | error e => exact List.prefix_rfl
  | ok updated =>
    obtain ⟨-, -, revision, same, -⟩ := append_spec appended
    rw [same]
    exact List.prefix_append _ _

/-- After any edits of a generated history the history holds. One more edit keeps its revisions as
a prefix, and keeps the history when it is rejected. -/
theorem history_runs {test : GeneratedTestCase} {createdAt : Timestamp} {id : Uuid}
    {start : TestRevisionHistory}
    (created : createTestRevisionHistory host test createdAt id = .ok start)
    (edits : List UserEdit) (edit : UserEdit) :
    HistoryHolds host (edits.foldl (edited host) start) ∧
      (edits.foldl (edited host) start).revisions <+:
        ((edits ++ [edit]).foldl (edited host) start).revisions ∧
      ∀ e, appendUserTestRevision host (edits.foldl (edited host) start) edit = .error e →
        (edits ++ [edit]).foldl (edited host) start = edits.foldl (edited host) start := by
  rw [List.foldl_append, List.foldl_cons, List.foldl_nil]
  have holds : ∀ before, HistoryHolds host before →
      HistoryHolds host (edits.foldl (edited host) before) := by
    induction edits with
    | nil => exact fun _ h => h
    | cons first later ih => exact fun before h => ih _ (edited_holds h first)
  refine ⟨holds start (create_holds created), edited_prefix _ edit, fun e rejected => ?_⟩
  rw [edited, rejected]

/-! ## Samples -/

def sampleHost : Host := ⟨asciiDecimal, 1000⟩

/-- Noon on a day, in UTC. -/
def noon : Timestamp :=
  ⟨⟨⟨⟨2026, 9, 5, by decide, by decide, by decide⟩, ⟨12, 0, 0, 0, by decide, by decide, by decide, by decide⟩⟩,
    some .utc⟩, some 0⟩

def sampleEdit : UserEdit :=
  ⟨postingPayload (orderBody "quantity" "notes"), lit " an editor ", noon, 2#128⟩

theorem history_runs_sample : ∃ test start updated,
    validateGeneratedTestCase asciiDecimal (postingPayload (orderBody "quantity" "priority")) = .ok test ∧
      createTestRevisionHistory sampleHost test noon 1#128 = .ok start ∧
      appendUserTestRevision sampleHost start sampleEdit = .ok updated ∧
      HistoryHolds sampleHost updated := by
  have isOk : (match validateGeneratedTestCase asciiDecimal
        (postingPayload (orderBody "quantity" "priority")) with
      | .ok test =>
        match createTestRevisionHistory sampleHost test noon 1#128 with
        | .ok start => (appendUserTestRevision sampleHost start sampleEdit).toBool
        | .error _ => false
      | .error _ => false) = true := by decide +kernel
  split at isOk
  · rename_i test accepted
    split at isOk
    · rename_i start created
      cases appended : appendUserTestRevision sampleHost start sampleEdit with
      | error e =>
        rw [appended] at isOk
        cases isOk
      | ok updated =>
        obtain ⟨holds, -, -⟩ := history_runs created [sampleEdit] sampleEdit
        rw [List.foldl_cons, List.foldl_nil, edited, appended] at holds
        exact ⟨test, start, updated, accepted, created, appended, holds⟩
    · cases isOk
  · cases isOk

end QaCopilot.Execution
