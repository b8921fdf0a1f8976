import QaCopilot.Ingestion.Intake

/-!
# Quotas of quarantined uploads

The totals and the duplicate of an upload are read in their own transactions, and its intake is
written in a later one.

* `quotas_kept`: the quotas hold in every state of a run in which no receive commits its intake
  while another receive of the project is between its duplicate check and its own commit;
* `duplicates_race`: they do not hold in every run.
-/

namespace QaCopilot.Ingestion

open QaCopilot.Python QaCopilot.Program QaCopilot.Runs QaCopilot.Table

/-- The limits of a policy, and one quarantined intake for each content. -/
structure WithinQuotas (policy : UploadPolicy) (t : Tables) : Prop where
  files : ∀ P, (t.usage P).1 ≤ policy.maxFilesPerProject
  bytes : ∀ P, (t.usage P).2 ≤ policy.maxTotalBytesPerProject
  distinct : ∀ P, ((t.quarantined P).map (·.contentSha256)).Nodup

/-! ## What an operation does to the quarantined intakes -/

theorem quarantined_append (t : Tables) (rows : List DocumentIntakeRecord) (P : Uuid) :
    ({ t with documentIntakes := t.documentIntakes ++ rows } : Tables).quarantined P =
      t.quarantined P ++ rows.filter fun r => r.projectId = P ∧ r.state = .quarantined :=
  List.filter_append _ _

theorem recordRejection_quarantined (s : Session) (projectId : Uuid) (r : Rejection) (t : Tables)
    (P : Uuid) : (recordRejection s projectId r t).2.quarantined P = t.quarantined P := by
  rw [recordRejection]
  split
  · rfl
  · rw [quarantined_append]
    simp [rejectedRow]

theorem enqueue_quarantined (s : Session) (job : ParserJob) (t : Tables) (P : Uuid) :
    (enqueue s job t).2.quarantined P = t.quarantined P := by
  rw [enqueue]
  split_ifs <;> rfl

theorem createQuarantined_quarantined (s : Session) (a : Admission) (t : Tables) (P : Uuid) :
    (createQuarantined s a t).2.quarantined P = t.quarantined P ∨
    (P = a.projectId ∧ (createQuarantined s a t).2.quarantined P =
      t.quarantined P ++ [(admissionRows s a t).intake]) := by
  have rows : (t.insertRows a (admissionRows s a t)).quarantined P =
      t.quarantined P ++ [(admissionRows s a t).intake].filter fun r =>
        r.projectId = P ∧ r.state = .quarantined := List.filter_append _ _
  rw [createQuarantined]
  split
  · exact .inl rfl
  · simp only [rows]
    by_cases owner : a.projectId = P
    · exact .inr ⟨owner.symm, by simp [admissionRows, owner]⟩
    · exact .inl (by simp [admissionRows, owner])

/-- Only the commit of an intake of `P` changes the quarantined intakes of `P`. -/
theorem exec_quarantined (o : Op) (c : Call) (s : Stores) (P : Uuid)
    (other : ∀ a, o = .createQuarantined a → a.projectId ≠ P) :
    (o.exec c s).2.tables.quarantined P = s.tables.quarantined P := by
  cases o with
  | recordRejection projectId r => exact recordRejection_quarantined c.session projectId r s.tables P
  | findQuarantinedHash | projectUsage => rfl
  | put key content contentType =>
    simp only [Op.exec, Ingestion.put]
    split_ifs <;> rfl
  | createQuarantined a =>
    rcases createQuarantined_quarantined c.session a s.tables P with same | ⟨owner, -⟩
    · exact same
    · exact absurd owner.symm (other a rfl)
  | delete key =>
    simp only [Op.exec, Ingestion.delete]
    split_ifs <;> rfl
  | enqueue job => exact enqueue_quarantined c.session job s.tables P

/-! ## What a receive knows at each stage -/

/-- No quarantined intake of the project has the content. -/
def Fresh (u : Upload) (c : Candidate) (t : Tables) : Prop :=
  ∀ r ∈ t.quarantined u.projectId, r.contentSha256 ≠ some c.contentSha256

/-- One more intake of the content stays within the quotas. -/
structure Fits (policy : UploadPolicy) (u : Upload) (c : Candidate) (t : Tables) : Prop where
  fresh : Fresh u c t
  files : (t.usage u.projectId).1 < policy.maxFilesPerProject
  bytes : (t.usage u.projectId).2 + c.content.length ≤ policy.maxTotalBytesPerProject

inductive Stage (policy : UploadPolicy) (t : Tables) : Receiving → Prop
  | ended (r) : Stage policy t (.ret r)
  | rejecting (P r) : Stage policy t (reject P r)
  | queueing (intake) : Stage policy t (enqueueParserJob intake)
  | discarding (key) : Stage policy t (discard key)
  | admitting (u c) : Stage policy t (admitCandidate policy u c)
  | measuring (u c) (fresh : Fresh u c t) : Stage policy t (measure policy u c)
  | storing (u c) (fits : Fits policy u c t) : Stage policy t (store u c)
  | creating (u c) (fits : Fits policy u c t) : Stage policy t (create u c)

theorem receive_stage (r : Runtime) (policy : UploadPolicy) (u : Upload) (t : Tables) :
    Stage policy t (receive r policy u) := by
  rw [receive]
  split
  · exact .rejecting _ _
  · exact .ended _
  · exact .admitting _ _

theorem findQuarantinedHash_fresh {s : Session} {u : Upload} {c : Candidate} {t : Tables}
    (found : findQuarantinedHash s u.projectId c.contentSha256 t = .ok none) : Fresh u c t := by
  rw [findQuarantinedHash] at found
  split at found
  · cases found
  · have none' := Option.map_eq_none_iff.mp (Except.ok.inj found)
    have empty := firstBy_eq_none.mp none'
    intro r hr same
    have : r ∈ (t.quarantined u.projectId).filter fun r =>
        r.contentSha256 = some c.contentSha256 := List.mem_filter.mpr ⟨hr, by simpa using same⟩
    rw [empty] at this
    cases this

theorem WithinQuotas.congr {policy : UploadPolicy} {t t' : Tables}
    (within : WithinQuotas policy t) (same : ∀ P, t'.quarantined P = t.quarantined P) :
    WithinQuotas policy t' := by
  obtain ⟨files, bytes, distinct⟩ := within
  constructor
  · simpa only [Tables.usage, same] using files
  · simpa only [Tables.usage, same] using bytes
  · simpa only [same] using distinct

theorem Fits.congr {policy : UploadPolicy} {u : Upload} {c : Candidate} {t t' : Tables}
    (fits : Fits policy u c t)
    (same : t'.quarantined u.projectId = t.quarantined u.projectId) : Fits policy u c t' := by
  obtain ⟨fresh, files, bytes⟩ := fits
  constructor
  · simpa only [Fresh, same] using fresh
  · simpa only [Tables.usage, same] using files
  · simpa only [Tables.usage, same] using bytes

theorem WithinQuotas.create {policy : UploadPolicy} {u : Upload} {c : Candidate} {t : Tables}
    (within : WithinQuotas policy t) (fits : Fits policy u c t) (s : Session) :
    WithinQuotas policy (createQuarantined s (admission u c) t).2 := by
  have each := createQuarantined_quarantined s (admission u c) t
  constructor
  · intro P
    rcases each P with same | ⟨rfl, added⟩
    · simpa only [Tables.usage, same] using within.files P
    · simp only [Tables.usage, added, List.length_append, List.length_singleton]
      exact fits.files
  · intro P
    rcases each P with same | ⟨rfl, added⟩
    · simpa only [Tables.usage, same] using within.bytes P
    · simp only [Tables.usage, added, List.map_append, List.map_singleton, List.sum_append,
        List.sum_singleton]
      exact fits.bytes
  · intro P
    rcases each P with same | ⟨rfl, added⟩
    · simpa only [same] using within.distinct P
    · rw [added, List.map_append]
      refine List.nodup_append.mpr ⟨within.distinct _, List.nodup_singleton _, ?_⟩
      intro sha old sha' new same
      obtain ⟨r, hr, rfl⟩ := List.mem_map.mp old
      obtain rfl := List.mem_singleton.mp new
      exact fits.fresh r hr same

/-- What follows the totals of a project. -/
theorem measured_stage {policy : UploadPolicy} {u : Upload} {c : Candidate} {t : Tables}
    (s : Session) (fresh : Fresh u c t) {fileCount projectByteSize : Nat}
    (measured : projectUsage s u.projectId t = .ok (fileCount, projectByteSize)) :
    Stage policy t
      (if policy.maxFilesPerProject ≤ fileCount then
        reject u.projectId ⟨c.metadata, c.content.length, .uploadFileCountLimit⟩
      else if policy.maxTotalBytesPerProject < projectByteSize + c.content.length then
        reject u.projectId ⟨c.metadata, c.content.length, .uploadProjectSizeLimit⟩
      else store u c) := by
  have usage : t.usage u.projectId = (fileCount, projectByteSize) := by
    rw [projectUsage] at measured
    split at measured
    · cases measured
    · exact Except.ok.inj measured
  by_cases full : policy.maxFilesPerProject ≤ fileCount
  · rw [if_pos full]
    exact .rejecting _ _
  · rw [if_neg full]
    by_cases large : policy.maxTotalBytesPerProject < projectByteSize + c.content.length
    · rw [if_pos large]
      exact .rejecting _ _
    · rw [if_neg large]
      refine .storing u c ⟨fresh, ?_, ?_⟩
      · rw [usage]
        exact Nat.lt_of_not_le full
      · rw [usage]
        exact Nat.le_of_not_lt large

/-- A receive keeps the quotas, and moves to a stage that knows as much as it must. -/
theorem stage_progress {policy : UploadPolicy} (s : Stores) (o : Op) (k : o.Answer → Receiving)
    (c : Call) (within : WithinQuotas policy s.tables) (stage : Stage policy s.tables (.op o k)) :
    WithinQuotas policy (o.exec c s).2.tables ∧
      Stage policy (o.exec c s).2.tables (k (o.exec c s).1) := by
  generalize hp : Prog.op o k = p at stage
  have kept (other : ∀ a, o ≠ .createQuarantined a) :
      WithinQuotas policy (o.exec c s).2.tables :=
    within.congr fun P => exec_quarantined o c s P fun a h => absurd h (other a)
  cases stage with
  | ended r => cases hp
  | rejecting P r =>
    cases hp
    refine ⟨kept (by simp), ?_⟩
    cases ((Op.recordRejection P r).exec c s).1 <;> exact .ended _
  | queueing intake =>
    cases hp
    refine ⟨kept (by simp), ?_⟩
    cases ((Op.enqueue ⟨intake.id⟩).exec c s).1 <;> exact .ended _
  | discarding key =>
    cases hp
    refine ⟨kept (by simp), ?_⟩
    cases ((Op.delete key).exec c s).1 <;> exact .ended _
  | admitting u candidate =>
    cases hp
    refine ⟨kept (by simp), ?_⟩
    cases answer : ((Op.findQuarantinedHash u.projectId candidate.contentSha256).exec c s).1 with
    | error => exact .ended _
    | ok found =>
      cases found with
      | some existing => exact .queueing _
      | none => exact .measuring u candidate (findQuarantinedHash_fresh answer)
  | measuring u candidate fresh =>
    cases hp
    refine ⟨kept (by simp), ?_⟩
    cases answer : ((Op.projectUsage u.projectId).exec c s).1 with
    | error => exact .ended _
    | ok usage => exact measured_stage c.session fresh answer
  | storing u candidate fits =>
    cases hp
    refine ⟨kept (by simp), ?_⟩
    have same := exec_quarantined (.put (quarantineKey u) candidate.content
      candidate.metadata.contentType) c s u.projectId (by simp)
    cases ((Op.put (quarantineKey u) candidate.content candidate.metadata.contentType).exec c s).1
    · exact .discarding _
    · exact .creating u candidate (fits.congr same)
  | creating u candidate fits =>
    cases hp
    refine ⟨within.create fits c.session, ?_⟩
    cases ((Op.createQuarantined (admission u candidate)).exec c s).1
    · exact .discarding _
    · exact .queueing _

/-- The receive is between its duplicate check and the commit of its intake. -/
def deciding (P : Uuid) (p : Receiving) : Bool :=
  match p.next with
  | some (.projectUsage projectId) => projectId = P
  | some (.put key _ _) => key.projectId = P
  | some (.createQuarantined a) => a.projectId = P
  | _ => false

/-- The project of the intake that an operation commits. -/
def Op.commits : Op → Option Uuid
  | .createQuarantined a => some a.projectId
  | _ => none

/-- A receive about to commit an intake meets no other that is deciding for its project. -/
def serial (p q : Receiving) : Bool :=
  match p.next.bind Op.commits with
  | some P => !deciding P q
  | none => true

/-- The quarantined intakes of the project of a deciding receive stay. -/
theorem serial_quarantined {o : Op} {k : o.Answer → Receiving} {q : Receiving} {P : Uuid}
    (alone : serial (.op o k) q = true) (decides : deciding P q = true) (c : Call) (s : Stores) :
    (o.exec c s).2.tables.quarantined P = s.tables.quarantined P := by
  apply exec_quarantined
  rintro a rfl rfl
  simp [serial, Op.commits, decides] at alone

theorem stage_frame {policy : UploadPolicy} (s : Stores) (o : Op) (k : o.Answer → Receiving)
    (c : Call) (q : Receiving) (stage : Stage policy s.tables q)
    (alone : serial (.op o k) q = true) :
    Stage policy (o.exec c s).2.tables q := by
  cases stage with
  | ended r => exact .ended r
  | rejecting P r => exact .rejecting P r
  | queueing intake => exact .queueing intake
  | discarding key => exact .discarding key
  | admitting u candidate => exact .admitting u candidate
  | measuring u candidate fresh =>
    have same := serial_quarantined alone (P := u.projectId) (by simp [measure, deciding]) c s
    exact .measuring u candidate (by simpa only [Fresh, same] using fresh)
  | storing u candidate fits =>
    have same := serial_quarantined alone (P := u.projectId)
      (by simp [store, deciding, quarantineKey]) c s
    exact .storing u candidate (fits.congr same)
  | creating u candidate fits =>
    have same := serial_quarantined alone (P := u.projectId)
      (by simp [create, deciding, admission]) c s
    exact .creating u candidate (fits.congr same)

/-! ## Runs -/

abbrev Receives := Pool Stores Receiving

/-- No receive, no row and no object. -/
def Receives.empty : Receives := ⟨⟨.empty, []⟩, []⟩

def turn (r : Runtime) (policy : UploadPolicy) (pool : Receives) (t : Turn Upload Call) :
    Receives :=
  pool.turn Op.exec (receive r policy) t

/-- The quotas hold, and every receive knows what its stage needs. -/
abbrev Kept (policy : UploadPolicy) : Receives → Prop :=
  Held (fun s => WithinQuotas policy s.tables) (fun s => Stage policy s.tables)

theorem turn_kept {r : Runtime} {policy : UploadPolicy} {pool : Receives} (kept : Kept policy pool)
    {t : Turn Upload Call} (alone : admitted serial pool t = true) :
    Kept policy (turn r policy pool t) :=
  kept.turn (fun s u _ => receive_stage r policy u s.tables)
    (fun s o k c within stage => stage_progress s o k c within stage)
    (fun s o k c q _ _ stage alone => stage_frame s o k c q stage alone) alone

/-- The quotas hold while no intake is committed beside another receive that is deciding for the
same project. -/
theorem quotas_kept (r : Runtime) (policy : UploadPolicy) (turns : List (Turn Upload Call))
    (alone : Meets (turn r policy) (fun pool t => admitted serial pool t) .empty turns) :
    WithinQuotas policy (run (turn r policy) .empty turns).shared.tables := by
  have start : Kept policy .empty := by
    constructor
    · constructor <;> intro P <;> simp [Receives.empty, Tables.empty, Tables.usage,
        Tables.quarantined]
    · simp [Receives.empty]
  have kept : Kept policy (run (turn r policy) .empty turns) :=
    run_invariant (I := Kept policy) (fun _ _ kept may => turn_kept kept may) start alone
  exact kept.shared

/-! ## The race -/

/-- The standard library on ASCII text and on one content. -/
def sampleRuntime : Runtime where
  unicode :=
    { lower := fun s => s.map fun c => if h : 0x41 ≤ c.val ∧ c.val ≤ 0x5A then
        ⟨c.val + 0x20, by omega⟩ else c
      decimal := fun c => if 0x30 ≤ c.val ∧ c.val ≤ 0x39 then some (c.val - 0x30) else none }
  sha256 := fun content =>
    if content = [0x61] then
      lit "ca978112ca1bbdcafac231b39a23dc4da786eff8147c4f72b9807785afee48bb"
    else []

/-- A text file that holds one letter. -/
def sampleUpload (objectId : Uuid) : Upload where
  projectId := 1
  stream := [[0x61]]
  breaksOff := false
  filename := some (lit "a.txt")
  contentType := some (lit "text/plain")
  contentEncoding := none
  contentLength := some (lit "1")
  objectId := objectId

/-- A call that succeeds and draws ids from `n` on. -/
def sampleCall (n : Nat) : Call := ⟨⟨false, fun i => .ofNat 128 (n + i), n⟩, false⟩

/-- Two uploads of one content, of which the second waits until the first is committed. -/
def sampleSerial : List (Turn Upload Call) :=
  [.spawn (sampleUpload 1), .spawn (sampleUpload 2), .step 0 (sampleCall 0),
    .step 0 (sampleCall 0), .step 0 (sampleCall 0), .step 0 (sampleCall 10),
    .step 1 (sampleCall 0), .step 0 (sampleCall 20), .step 1 (sampleCall 30)]

theorem quotas_kept_sample :
    WithinQuotas {} (run (turn sampleRuntime {}) .empty sampleSerial).shared.tables :=
  quotas_kept sampleRuntime {} sampleSerial (by decide +kernel)

/-- Two uploads of one content, operation by operation. -/
def sampleRace : List (Turn Upload Call) :=
  [.spawn (sampleUpload 1), .spawn (sampleUpload 2), .step 0 (sampleCall 0),
    .step 1 (sampleCall 0), .step 0 (sampleCall 0), .step 1 (sampleCall 0),
    .step 0 (sampleCall 0), .step 1 (sampleCall 0), .step 0 (sampleCall 10),
    .step 1 (sampleCall 20)]

theorem duplicates_race :
    ¬ ∀ turns, WithinQuotas {} (run (turn sampleRuntime {}) .empty turns).shared.tables := by
  intro kept
  have distinct := (kept sampleRace).distinct 1
  revert distinct
  decide +kernel

end QaCopilot.Ingestion
