import QaCopilot.Ingestion.Quotas

/-!
# Histories of intake

One `receive` after another, each with its own faults: the quarantined intakes, the objects in
quarantine and the parser jobs stay in step.
-/

namespace QaCopilot.Ingestion

open QaCopilot.Python QaCopilot.Program QaCopilot.Table QaCopilot.Leases QaCopilot.Runs

/-! ## What is in step -/

/-- An object of a row, with the bytes that the row records. -/
def Records (sha256 : Bytes → Str) (row : DocumentIntakeRecord)
    (object : QuarantineKey × Bytes × Str) : Prop :=
  row.quarantineKey = some object.1 ∧ row.contentSha256 = some (sha256 object.2.1) ∧
    row.byteSize = object.2.1.length

/-- The three stores agree, but for the objects whose keys are `exempt`. -/
structure InStep (sha256 : Bytes → Str) (exempt : List QuarantineKey) (s : Stores) : Prop where
  held : ∀ row ∈ s.tables.documentIntakes, row.state = .quarantined →
    ∃ object ∈ s.objects, Records sha256 row object
  owned : ∀ object ∈ s.objects, object.1 ∈ exempt ∨
    ∃ row ∈ s.tables.documentIntakes, row.state = .quarantined ∧ row.quarantineKey = some object.1
  keys : (s.objects.map (·.1)).Nodup
  jobs : (s.tables.parserJobs.map (·.documentIntakeId)).Nodup

variable {sha256 : Bytes → Str} {exempt : List QuarantineKey} {s : Stores}

theorem InStep.empty : InStep sha256 exempt ⟨.empty, []⟩ := by
  constructor <;> simp [Tables.empty]

theorem InStep.widen (inStep : InStep sha256 exempt s) {more : List QuarantineKey}
    (sub : exempt ⊆ more) : InStep sha256 more s where
  held := inStep.held
  owned := by
    intro object present
    rcases inStep.owned object present with listed | row
    · exact .inl (sub listed)
    · exact .inr row
  keys := inStep.keys
  jobs := inStep.jobs

/-- No quarantined intake names the key. -/
def Unclaimed (s : Stores) (key : QuarantineKey) : Prop :=
  ∀ row ∈ s.tables.documentIntakes, row.state = .quarantined → row.quarantineKey ≠ some key

theorem InStep.unclaimed (inStep : InStep sha256 exempt s) {key : QuarantineKey}
    (fresh : key ∉ s.objects.map (·.1)) : Unclaimed s key := by
  intro row present quarantined named
  obtain ⟨object, stored, records⟩ := inStep.held row present quarantined
  rw [records.1] at named
  exact fresh (List.mem_map.mpr ⟨object, stored, Option.some.inj named⟩)

/-! ## The operations -/

theorem InStep.put (inStep : InStep sha256 exempt s) {key : QuarantineKey}
    (fresh : key ∉ s.objects.map (·.1)) (content : Bytes) (contentType : Str) :
    InStep sha256 (key :: exempt) { s with objects := s.objects ++ [(key, content, contentType)] } := by
  constructor
  · intro row present quarantined
    obtain ⟨object, stored, records⟩ := inStep.held row present quarantined
    exact ⟨object, List.mem_append_left _ stored, records⟩
  · intro object present
    rcases List.mem_append.mp present with stored | new
    · rcases inStep.owned object stored with listed | row
      · exact .inl (List.mem_cons_of_mem _ listed)
      · exact .inr row
    · rw [List.mem_singleton.mp new]
      exact .inl List.mem_cons_self
  · exact nodup_snoc inStep.keys fun object stored same =>
      fresh (List.mem_map.mpr ⟨object, stored, same⟩)
  · exact inStep.jobs

/-- A call that fails may leave the object or not. -/
theorem put_inStep (inStep : InStep sha256 exempt s) {key : QuarantineKey}
    (fresh : key ∉ s.objects.map (·.1)) (c : Call) (content : Bytes) (contentType : Str) :
    InStep sha256 (key :: exempt) (put c key content contentType s).2 := by
  have kept : InStep sha256 (key :: exempt) s := inStep.widen (List.subset_cons_self _ _)
  unfold put
  split
  · exact kept
  · split
    · split
      · exact inStep.put fresh content contentType
      · exact kept
    · exact inStep.put fresh content contentType

theorem put_stored {c : Call} {key : QuarantineKey} {content : Bytes} {contentType : Str} {u : Unit}
    (done : (put c key content contentType s).1 = .ok u) :
    (key, content, contentType) ∈ (put c key content contentType s).2.objects := by
  revert done
  unfold put
  split
  · simp
  · split
    · simp
    · simp

theorem put_keys (c : Call) (key : QuarantineKey) (content : Bytes) (contentType : Str) (s : Stores) :
    ∀ object ∈ (put c key content contentType s).2.objects, object ∈ s.objects ∨ object.1 = key := by
  unfold put
  repeat' split
  all_goals simp +contextual [or_imp]

@[simp] theorem put_tables (c : Call) (key : QuarantineKey) (content : Bytes) (contentType : Str)
    (s : Stores) : (put c key content contentType s).2.tables = s.tables := by
  unfold put
  repeat' split
  all_goals rfl

@[simp] theorem delete_tables (c : Call) (key : QuarantineKey) (s : Stores) :
    (delete c key s).2.tables = s.tables := by
  unfold delete
  split <;> rfl

theorem delete_objects (c : Call) (key : QuarantineKey) (s : Stores) :
    (delete c key s).2.objects ⊆ s.objects := by
  unfold delete
  split
  · exact List.Subset.refl _
  · exact fun object present => (List.mem_filter.mp present).1

/-- A delete that is not refused leaves no object under the key. -/
theorem delete_gone {c : Call} {key : QuarantineKey} {u : Unit}
    (done : (delete c key s).1 = .ok u) : ∀ object ∈ (delete c key s).2.objects, object.1 ≠ key := by
  revert done
  unfold delete
  split
  · simp
  · intro _ object present
    simpa using (List.mem_filter.mp present).2

theorem delete_inStep (inStep : InStep sha256 exempt s) {key : QuarantineKey}
    (unclaimed : Unclaimed s key) (c : Call) : InStep sha256 exempt (delete c key s).2 := by
  unfold delete
  split
  · exact inStep
  · constructor
    · intro row present quarantined
      obtain ⟨object, stored, records⟩ := inStep.held row present quarantined
      refine ⟨object, List.mem_filter.mpr ⟨stored, ?_⟩, records⟩
      have other : object.1 ≠ key := by
        rintro rfl
        exact unclaimed row present quarantined records.1
      simpa using other
    · intro object present
      exact inStep.owned object (List.mem_filter.mp present).1
    · exact inStep.keys.sublist (List.filter_sublist.map _)
    · exact inStep.jobs

theorem InStep.release (inStep : InStep sha256 (key :: exempt) s)
    (gone : ∀ object ∈ s.objects, object.1 ≠ key) : InStep sha256 exempt s where
  held := inStep.held
  owned := by
    intro object present
    rcases inStep.owned object present with listed | row
    · rcases List.mem_cons.mp listed with eq | listed
      · exact absurd eq (gone object present)
      · exact .inl listed
    · exact .inr row
  keys := inStep.keys
  jobs := inStep.jobs

/-- A rejected intake changes nothing that has to agree. -/
theorem recordRejection_inStep (inStep : InStep sha256 exempt s) (c : Session) (projectId : Uuid)
    (r : Rejection) :
    InStep sha256 exempt { s with tables := (recordRejection c projectId r s.tables).2 } := by
  unfold recordRejection
  split
  · exact { inStep with }
  · constructor
    · intro row present quarantined
      rcases List.mem_append.mp present with old | new
      · exact inStep.held row old quarantined
      · rw [List.mem_singleton.mp new] at quarantined
        cases quarantined
    · intro object present
      rcases inStep.owned object present with listed | ⟨row, there, claims⟩
      · exact .inl listed
      · exact .inr ⟨row, List.mem_append_left _ there, claims⟩
    · exact inStep.keys
    · exact inStep.jobs

theorem recordRejection_state {c : Session} {projectId : Uuid} {r : Rejection} {t : Tables}
    {intake : DocumentIntake} (done : (recordRejection c projectId r t).1 = .ok intake) :
    intake.state = .rejected := by
  revert done
  unfold recordRejection
  split
  · simp
  · intro done
    rw [← Except.ok.inj done]
    rfl

/-- The new intake names the object under its key. -/
theorem createQuarantined_inStep {a : Admission} {content : Bytes} {contentType : Str} {c : Session}
    {intake : DocumentIntake} (inStep : InStep sha256 (a.quarantineKey :: exempt) s)
    (stored : (a.quarantineKey, content, contentType) ∈ s.objects)
    (hash : a.contentSha256 = sha256 content) (size : a.byteSize = content.length)
    (done : (createQuarantined c a s.tables).1 = .ok intake) :
    InStep sha256 exempt { s with tables := (createQuarantined c a s.tables).2 } := by
  revert done
  unfold createQuarantined
  split
  · simp
  · intro _
    have named : (admissionRows c a s.tables).intake.quarantineKey = some a.quarantineKey := rfl
    constructor
    · intro row present quarantined
      rcases List.mem_append.mp present with old | new
      · exact inStep.held row old quarantined
      · rw [List.mem_singleton.mp new]
        exact ⟨_, stored, named, congrArg some hash, size⟩
    · intro object present
      rcases inStep.owned object present with listed | ⟨row, there, claims⟩
      · rcases List.mem_cons.mp listed with eq | listed
        · refine .inr ⟨_, List.mem_append_right _ (List.mem_singleton.mpr rfl), rfl, ?_⟩
          rw [named, eq]
        · exact .inl listed
      · exact .inr ⟨row, List.mem_append_left _ there, claims⟩
    · exact inStep.keys
    · exact inStep.jobs

theorem createQuarantined_refused {c : Session} {a : Admission} {t : Tables} {e : IntakeUnavailable}
    (failed : (createQuarantined c a t).1 = .error e) : (createQuarantined c a t).2 = t := by
  revert failed
  unfold createQuarantined
  split <;> simp

theorem enqueue_inStep (inStep : InStep sha256 exempt s) (c : Session) (job : ParserJob) :
    InStep sha256 exempt { s with tables := (enqueue c job s.tables).2 } := by
  unfold enqueue
  split
  · exact { inStep with }
  · split
    next admitted =>
      refine ⟨inStep.held, inStep.owned, inStep.keys, ?_⟩
      refine nodup_snoc inStep.jobs ?_
      intro old there
      simp only [Tables.admitsParserJob, Bool.and_eq_true, List.all_eq_true] at admitted
      have apart := admitted.1 old there
      simp only [decide_eq_true_eq] at apart
      exact apart.2
    · split
      · exact { inStep with }
      · exact { inStep with }

/-- Where the queue answers, the intake has a job. -/
theorem enqueue_queued {c : Session} {job : ParserJob} {t : Tables} {u : Unit}
    (done : (enqueue c job t).1 = .ok u) :
    job.documentIntakeId ∈ (enqueue c job t).2.parserJobs.map (·.documentIntakeId) := by
  revert done
  unfold enqueue
  split
  · simp
  · split
    · simp [newParserJob]
    · split
      next found =>
        obtain ⟨old, there, same⟩ := List.any_eq_true.mp found
        exact fun _ => List.mem_map.mpr ⟨old, there, by simpa using same⟩
      · simp

theorem enqueue_grows (c : Session) (job : ParserJob) (t : Tables) :
    t.parserJobs <+: (enqueue c job t).2.parserJobs := by
  unfold enqueue
  repeat' split
  all_goals first | exact List.prefix_append _ _ | exact List.prefix_refl _

/-! ## One receive -/

/-- The key of a compensating delete that failed. -/
def failedDelete : Stores × (o : Op) × o.Answer → Option QuarantineKey
  | (_, ⟨.delete key, .error _⟩) => some key
  | _ => none

/-- What a program that works on `key` leaves behind, when it starts in `s`. -/
structure Settles (sha256 : Bytes → Str) (key : QuarantineKey) (exempt : List QuarantineKey)
    (env : Nat → Call) (n : Nat) (p : Receiving) (s : Stores) : Prop where
  inStep : InStep sha256 (exempt ++ (events Op.exec env n p s).filterMap failedDelete)
    (eval Op.exec env n p s).2
  queued : ∀ intake, (eval Op.exec env n p s).1 = .ok intake → intake.state = .quarantined →
    intake.id ∈ (eval Op.exec env n p s).2.tables.parserJobs.map (·.documentIntakeId)
  jobs : s.tables.parserJobs <+: (eval Op.exec env n p s).2.tables.parserJobs
  objects : ∀ object ∈ (eval Op.exec env n p s).2.objects, object ∈ s.objects ∨ object.1 = key

variable {key : QuarantineKey} {env : Nat → Call} {n : Nat}

theorem settles_error (inStep : InStep sha256 exempt s) (e : ReceiveError) :
    Settles sha256 key exempt env n (.ret (.error e)) s where
  inStep := inStep.widen (List.subset_append_left _ _)
  queued := by simp
  jobs := List.prefix_refl _
  objects := fun _ present => .inl present

/-- An operation that keeps the jobs, and all objects but its own. -/
theorem Settles.op {o : Op} {k : o.Answer → Receiving} {e : List QuarantineKey}
    (rest : Settles sha256 key e env (n + 1) (k (o.exec (env n) s).1) (o.exec (env n) s).2)
    (listed : e ⊆ exempt ++ (failedDelete (s, ⟨o, (o.exec (env n) s).1⟩)).toList)
    (jobs : s.tables.parserJobs <+: (o.exec (env n) s).2.tables.parserJobs)
    (objects : ∀ object ∈ (o.exec (env n) s).2.objects, object ∈ s.objects ∨ object.1 = key) :
    Settles sha256 key exempt env n (.op o k) s where
  inStep := by
    refine rest.inStep.widen ?_
    intro k hk
    rcases List.mem_append.mp hk with hk | hk
    · have := listed hk
      simp only [List.mem_append, Option.mem_toList] at this
      rcases this with old | new
      · exact List.mem_append_left _ old
      · exact List.mem_append_right _ (List.mem_filterMap.mpr ⟨_, List.mem_cons_self, new⟩)
    · obtain ⟨x, hx, failed⟩ := List.mem_filterMap.mp hk
      exact List.mem_append_right _
        (List.mem_filterMap.mpr ⟨x, List.mem_cons_of_mem _ hx, failed⟩)
  queued := rest.queued
  jobs := jobs.trans rest.jobs
  objects := by
    intro object present
    rcases rest.objects object present with old | own
    · exact objects object old
    · exact .inr own

/-- An operation of the database. -/
theorem Settles.read {o : Op} {k : o.Answer → Receiving}
    (rest : Settles sha256 key exempt env (n + 1) (k (o.exec (env n) s).1) (o.exec (env n) s).2)
    (jobs : s.tables.parserJobs <+: (o.exec (env n) s).2.tables.parserJobs)
    (objects : (o.exec (env n) s).2.objects = s.objects) :
    Settles sha256 key exempt env n (.op o k) s :=
  rest.op (List.subset_append_left _ _) jobs fun _ present => .inl (objects ▸ present)

theorem enqueueParserJob_settles (inStep : InStep sha256 exempt s) (intake : DocumentIntake) :
    Settles sha256 key exempt env n (enqueueParserJob intake) s := by
  have kept := enqueue_inStep inStep (env n).session ⟨intake.id⟩
  have grows := enqueue_grows (env n).session ⟨intake.id⟩ s.tables
  refine Settles.read ?_ grows rfl
  simp only [Op.exec]
  cases done : (enqueue (env n).session ⟨intake.id⟩ s.tables).1 with
  | error e => exact settles_error kept _
  | ok u =>
    refine ⟨kept.widen (List.subset_append_left _ _), ?_, List.prefix_refl _, fun _ h => .inl h⟩
    rintro answered eq -
    rw [← Except.ok.inj eq]
    exact enqueue_queued done

theorem reject_settles (inStep : InStep sha256 exempt s) (projectId : Uuid) (r : Rejection) :
    Settles sha256 key exempt env n (reject projectId r) s := by
  have kept := recordRejection_inStep inStep (env n).session projectId r
  refine Settles.read ?_ ?_ rfl
  · simp only [Op.exec]
    cases done : (recordRejection (env n).session projectId r s.tables).1 with
    | error e => exact settles_error kept _
    | ok intake =>
      refine ⟨kept.widen (List.subset_append_left _ _), ?_, List.prefix_refl _, fun _ h => .inl h⟩
      rintro answered eq quarantined
      rw [← Except.ok.inj eq, recordRejection_state done] at quarantined
      cases quarantined
  · simp only [Op.exec, recordRejection]
    split <;> exact List.prefix_refl _

/-- The object goes, unless its delete fails. -/
theorem discard_settles (inStep : InStep sha256 (key :: exempt) s) (unclaimed : Unclaimed s key) :
    Settles sha256 key exempt env n (discard key) s := by
  have kept := delete_inStep inStep unclaimed (env n)
  have same : (delete (env n) key s).2.tables = s.tables := delete_tables _ _ _
  have fewer := delete_objects (env n) key s
  cases done : (delete (env n) key s).1 with
  | error e =>
    refine Settles.op (e := key :: exempt) ?_ ?_ ?_ fun object present => .inl (fewer present)
    · simp only [Op.exec, done]
      exact settles_error kept _
    · simp only [Op.exec, done, failedDelete]
      simp
    · simp only [Op.exec, same, List.prefix_refl]
  | ok u =>
    refine Settles.op (e := exempt) ?_ (List.subset_append_left _ _) ?_
      fun object present => .inl (fewer present)
    · simp only [Op.exec, done]
      exact settles_error (kept.release (delete_gone done)) _
    · simp only [Op.exec, same, List.prefix_refl]

theorem create_settles {u : Upload} {c : Candidate} {contentType : Str}
    (inStep : InStep sha256 (quarantineKey u :: exempt) s) (unclaimed : Unclaimed s (quarantineKey u))
    (stored : (quarantineKey u, c.content, contentType) ∈ s.objects)
    (hash : c.contentSha256 = sha256 c.content) :
    Settles sha256 (quarantineKey u) exempt env n (create u c) s := by
  refine Settles.read ?_ ?_ rfl
  · cases done : (createQuarantined (env n).session (admission u c) s.tables).1 with
    | ok intake =>
      simp only [Op.exec, done]
      exact enqueueParserJob_settles
        (createQuarantined_inStep (a := admission u c) inStep stored hash rfl done) intake
    | error e =>
      have same := createQuarantined_refused done
      simp only [Op.exec, done, same]
      exact discard_settles inStep unclaimed
  · simp only [Op.exec, createQuarantined]
    split <;> exact List.prefix_refl _

theorem store_settles {u : Upload} {c : Candidate} (inStep : InStep sha256 exempt s)
    (fresh : quarantineKey u ∉ s.objects.map (·.1)) (hash : c.contentSha256 = sha256 c.content) :
    Settles sha256 (quarantineKey u) exempt env n (store u c) s := by
  have kept := put_inStep inStep fresh (env n) c.content c.metadata.contentType
  have unclaimed : Unclaimed
      (put (env n) (quarantineKey u) c.content c.metadata.contentType s).2 (quarantineKey u) := by
    intro row present
    rw [put_tables] at present
    exact inStep.unclaimed fresh row present
  refine Settles.op (e := exempt) ?_ (List.subset_append_left _ _) ?_ (put_keys _ _ _ _ _)
  · simp only [Op.exec]
    cases done : (put (env n) (quarantineKey u) c.content c.metadata.contentType s).1 with
    | ok _ => exact create_settles kept unclaimed (put_stored done) hash
    | error e => exact discard_settles kept unclaimed
  · simp only [Op.exec, put_tables, List.prefix_refl]

theorem measure_settles {policy : UploadPolicy} {u : Upload} {c : Candidate}
    (inStep : InStep sha256 exempt s) (fresh : quarantineKey u ∉ s.objects.map (·.1))
    (hash : c.contentSha256 = sha256 c.content) :
    Settles sha256 (quarantineKey u) exempt env n (measure policy u c) s := by
  refine Settles.read ?_ (List.prefix_refl _) rfl
  simp only [Op.exec]
  cases projectUsage (env n).session u.projectId s.tables with
  | error e => exact settles_error inStep _
  | ok usage =>
    simp only [Prog.bind]
    split
    · exact reject_settles inStep _ _
    · split
      · exact reject_settles inStep _ _
      · exact store_settles inStep fresh hash

theorem admitCandidate_settles {policy : UploadPolicy} {u : Upload} {c : Candidate}
    (inStep : InStep sha256 exempt s) (fresh : quarantineKey u ∉ s.objects.map (·.1))
    (hash : c.contentSha256 = sha256 c.content) :
    Settles sha256 (quarantineKey u) exempt env n (admitCandidate policy u c) s := by
  refine Settles.read ?_ (List.prefix_refl _) rfl
  simp only [Op.exec]
  cases findQuarantinedHash (env n).session u.projectId c.contentSha256 s.tables with
  | error e => exact settles_error inStep _
  | ok existing =>
    cases existing with
    | some intake => exact enqueueParserJob_settles inStep intake
    | none => exact measure_settles inStep fresh hash

theorem inspect_sha256 {r : Runtime} {policy : UploadPolicy} {u : Upload} {c : Candidate}
    (passed : inspect r policy u = .ok c) : c.contentSha256 = r.sha256 c.content := by
  revert passed
  unfold inspect
  repeat' split
  all_goals simp only [reduceCtorEq, false_implies]
  intro passed
  simp only [bind, Except.bind] at passed
  repeat' split at passed
  all_goals first | cases passed; rfl | cases passed

theorem receive_settles {r : Runtime} {policy : UploadPolicy} {u : Upload}
    (inStep : InStep r.sha256 exempt s) (fresh : quarantineKey u ∉ s.objects.map (·.1)) :
    Settles r.sha256 (quarantineKey u) exempt env n (receive r policy u) s := by
  unfold receive
  split
  · exact reject_settles inStep _ _
  · exact settles_error inStep _
  next candidate passed => exact admitCandidate_settles inStep fresh (inspect_sha256 passed)

/-! ## Histories -/

/-- The stores, what each call answered, and the keys whose compensating delete failed. -/
structure History where
  stores : Stores
  answers : List (Except ReceiveError DocumentIntake)
  undeleted : List QuarantineKey

def History.empty : History := ⟨⟨.empty, []⟩, [], []⟩

/-- One call with what each of its operations meets. -/
structure Receive where
  upload : Upload
  env : Nat → Call

def History.receive (r : Runtime) (policy : UploadPolicy) (h : History) (call : Receive) : History :=
  let p := Ingestion.receive r policy call.upload
  { stores := (eval Op.exec call.env 0 p h.stores).2
    answers := h.answers ++ [(eval Op.exec call.env 0 p h.stores).1]
    undeleted := h.undeleted ++ (events Op.exec call.env 0 p h.stores).filterMap failedDelete }

/-- The quarantined intakes that were answered have a job each. -/
def Queued (h : History) : Prop :=
  ∀ intake, .ok intake ∈ h.answers → intake.state = .quarantined →
    intake.id ∈ h.stores.tables.parserJobs.map (·.documentIntakeId)

/-- What is in step after the calls with the object ids `drawn`. -/
structure Tidy (sha256 : Bytes → Str) (drawn : List Uuid) (h : History) : Prop where
  inStep : InStep sha256 h.undeleted h.stores
  queued : Queued h
  drawn : ∀ object ∈ h.stores.objects, object.1.objectId ∈ drawn

theorem Tidy.receive {r : Runtime} {policy : UploadPolicy} {drawn : List Uuid} {h : History}
    (tidy : Tidy r.sha256 drawn h) (call : Receive) (fresh : call.upload.objectId ∉ drawn) :
    Tidy r.sha256 (drawn ++ [call.upload.objectId]) (h.receive r policy call) := by
  have new : quarantineKey call.upload ∉ h.stores.objects.map (·.1) := by
    intro present
    obtain ⟨object, stored, same⟩ := List.mem_map.mp present
    have := tidy.drawn object stored
    rw [same] at this
    exact fresh this
  have settles : Settles r.sha256 (quarantineKey call.upload) h.undeleted call.env 0
      (Ingestion.receive r policy call.upload) h.stores := receive_settles tidy.inStep new
  constructor
  · exact settles.inStep
  · intro intake answered quarantined
    rcases List.mem_append.mp answered with earlier | last
    · have job := tidy.queued intake earlier quarantined
      exact (settles.jobs.map _).subset job
    · exact settles.queued intake (List.mem_singleton.mp last).symm quarantined
  · intro object present
    rcases settles.objects object present with old | own
    · exact List.mem_append_left _ (tidy.drawn object old)
    · rw [own]
      exact List.mem_append_right _ (List.mem_singleton.mpr rfl)

theorem tidy_run (r : Runtime) (policy : UploadPolicy) (calls : List Receive) {drawn : List Uuid}
    {h : History} (tidy : Tidy r.sha256 drawn h)
    (fresh : (drawn ++ calls.map (·.upload.objectId)).Nodup) :
    Tidy r.sha256 (drawn ++ calls.map (·.upload.objectId)) (run (History.receive r policy) h calls) := by
  induction calls generalizing drawn h with
  | nil => simpa [run] using tidy
  | cons call calls ih =>
    rw [List.map_cons, List.append_cons] at fresh ⊢
    have apart := (List.nodup_append.mp fresh).1
    have new : call.upload.objectId ∉ drawn := fun present =>
      (List.nodup_append.mp apart).2.2 _ present _ (List.mem_singleton.mpr rfl) rfl
    exact ih (tidy.receive call new) fresh

/-- After any calls, with any faults: a quarantined intake has the object with its bytes, an object
has its intake unless its delete failed, and an answered intake has one parser job. -/
theorem intake_in_step (r : Runtime) (policy : UploadPolicy) (calls : List Receive)
    (fresh : (calls.map (·.upload.objectId)).Nodup) :
    let h := run (History.receive r policy) .empty calls
    (∀ row ∈ h.stores.tables.documentIntakes, row.state = .quarantined →
      ∃ key content contentType, row.quarantineKey = some key ∧
        h.stores.objects.filter (·.1 = key) = [(key, content, contentType)] ∧
        row.contentSha256 = some (r.sha256 content) ∧ row.byteSize = content.length) ∧
    (∀ object ∈ h.stores.objects, object.1 ∈ h.undeleted ∨
      ∃ row ∈ h.stores.tables.documentIntakes, row.state = .quarantined ∧
        row.quarantineKey = some object.1) ∧
    ∀ intake, .ok intake ∈ h.answers → intake.state = .quarantined →
      ∃ job, h.stores.tables.parserJobs.filter (·.documentIntakeId = intake.id) = [job] := by
  have start : Tidy r.sha256 [] .empty := ⟨.empty, by simp [Queued, History.empty],
    by simp [History.empty]⟩
  obtain ⟨inStep, queued, -⟩ := tidy_run r policy calls start fresh
  refine ⟨?_, inStep.owned, ?_⟩
  · intro row present quarantined
    obtain ⟨object, stored, named, hash, size⟩ := inStep.held row present quarantined
    exact ⟨object.1, object.2.1, object.2.2, named, filter_key inStep.keys stored, hash, size⟩
  · intro intake answered quarantined
    obtain ⟨job, there, of⟩ := List.mem_map.mp (queued intake answered quarantined)
    refine ⟨job, ?_⟩
    rw [← of]
    exact filter_key inStep.jobs there

/-- Of two uploads of one content the first finds the queue down, at its fifth operation, and the
second finds its intake. -/
def sampleReceives : List Receive :=
  [⟨sampleUpload 1, fun n => { sampleCall (10 * n) with session :=
      { (sampleCall (10 * n)).session with fails := n = 4 } }⟩,
    ⟨sampleUpload 2, fun n => sampleCall (100 + 10 * n)⟩]

theorem intake_in_step_sample :
    let h := run (History.receive sampleRuntime {}) .empty sampleReceives
    (∀ row ∈ h.stores.tables.documentIntakes, row.state = .quarantined →
      ∃ key content contentType, row.quarantineKey = some key ∧
        h.stores.objects.filter (·.1 = key) = [(key, content, contentType)] ∧
        row.contentSha256 = some (sampleRuntime.sha256 content) ∧ row.byteSize = content.length) ∧
    (∀ object ∈ h.stores.objects, object.1 ∈ h.undeleted ∨
      ∃ row ∈ h.stores.tables.documentIntakes, row.state = .quarantined ∧
        row.quarantineKey = some object.1) ∧
    ∀ intake, .ok intake ∈ h.answers → intake.state = .quarantined →
      ∃ job, h.stores.tables.parserJobs.filter (·.documentIntakeId = intake.id) = [job] :=
  intake_in_step sampleRuntime {} sampleReceives (by decide +kernel)

/-- The first call of the two fails, and the second answers with an intake that has its job. -/
example :
    let h := run (History.receive sampleRuntime {}) .empty sampleReceives
    h.answers.map Except.toBool = [false, true] ∧ h.stores.objects.length = 1 ∧
      h.stores.tables.parserJobs.length = 1 := by
  decide +kernel

end QaCopilot.Ingestion
