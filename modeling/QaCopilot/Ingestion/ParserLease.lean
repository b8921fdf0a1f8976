import QaCopilot.Ingestion.ParserJobs
import QaCopilot.Lib.Results
import QaCopilot.Lib.Runs

/-!
# The parser lease

Any number of workers claim, reject, fail, promote and expire parser jobs, one transaction at a
time, while intakes are created and queued.

* `parser_lease`: each job is claimed once and ends once, its row meets the constraints of its
  table, it is accepted within its lease, and the evidence of a version is there, all of it,
  exactly when its job is accepted.
-/

namespace QaCopilot.Ingestion

open QaCopilot.Python QaCopilot.Table QaCopilot.Leases QaCopilot.Runs QaCopilot.Results

inductive Input where
  | recordRejection (s : Session) (projectId : Uuid) (r : Rejection)
  | createQuarantined (s : Session) (a : Admission)
  | enqueue (s : Session) (job : ParserJob)
  | claimNext (p : ParserClaims) (s : Session)
  | reject (p : ParserClaims) (s : Session) (c : ClaimedParserJob)
  | fail (p : ParserClaims) (s : Session) (c : ClaimedParserJob)
  | promote (s : Session) (finished : Int) (c : ClaimedParserJob) (document : ClaimedDocument)
    (requirements : List ParsedRequirement)
  | expireClaims (p : ParserClaims) (s : Session)

def step (rt : ParserRuntime) (t : Tables) : Input → Tables
  | .recordRejection s projectId r => (recordRejection s projectId r t).2
  | .createQuarantined s a => (createQuarantined s a t).2
  | .enqueue s job => (enqueue s job t).2
  | .claimNext p s => (claimNext p s t).2
  | .reject p s c => (rejectJob p s c t).2
  | .fail p s c => (failJob p s c t).2
  | .promote s finished c document requirements =>
    (promote rt s finished c document requirements t).2
  | .expireClaims p s => (expireClaims p s t).2

/-- The jobs that a step claims. -/
def claimedJobs (t : Tables) : Input → List Uuid
  | .claimNext p s =>
    match (claimNext p s t).1 with
    | .ok (some c) => [c.jobId]
    | _ => []
  | _ => []

/-- The columns that no operation changes. -/
def ParserJobRecord.columns (j : ParserJobRecord) : Uuid × Uuid := (j.id, j.documentIntakeId)

abbrev JobMove : ParserJobRecord → ParserJobRecord → Prop :=
  RowMove ParserEnds ParserJobRecord.columns ParserJobRecord.lease

/-! ## What a step does -/

/-- What a promotion has found before it writes. -/
structure Promotable (t : Tables) (c : ClaimedParserJob) (source : Source) (finished : Int)
    (requirements : List ParsedRequirement) (rows : Evidence) : Prop where
  some' : requirements ≠ []
  found : t.source c.documentIntakeId = .ok source
  noLocations : ∀ r ∈ t.sourceLocations, r.documentVersionId ≠ source.version.id
  noSections : ∀ r ∈ t.documentSections, r.documentVersionId ≠ source.version.id
  held : ∃ j ∈ t.parserJobs, j.lease.state = .claimed ∧ c.holds finished j = true
  fresh : t.admitsEvidence rows = true
  made : ∃ s, rows = evidence s t source requirements

def Tables.promoted (t : Tables) (c : ClaimedParserJob) (source : Source) (finished : Int)
    (rows : Evidence) : Tables :=
  acceptJob (fun r => r.lease.state = .claimed && c.holds finished r) finished
    (t.insertEvidence source rows)

inductive Effect (t : Tables) : Tables → Prop where
  | nothing : Effect t t
  | intakeRejected {row : DocumentIntakeRecord} (fresh : t.admitsIntake row = true)
    (none' : row.documentVersionId = none) :
    Effect t { t with documentIntakes := t.documentIntakes ++ [row] }
  | admitted {a : Admission} {rows : AdmissionRows} (fresh : t.admitsRows a rows = true)
    (version : rows.intake.documentVersionId = some rows.version.id) :
    Effect t (t.insertRows a rows)
  | enqueued {job : ParserJobRecord} {createdAt : Int} (queued : job.lease = .queuedAt createdAt)
    (fresh : t.admitsParserJob job = true) :
    Effect t { t with parserJobs := t.parserJobs ++ [job] }
  | moved {p : ParserJobRecord → Bool} {f : ParserJobRecord → ParserJobRecord}
    (move : ∀ r ∈ t.parserJobs, p r = true →
      JobMove r (f r) ∧ (f r).lease.state ≠ .finished .accepted) :
    Effect t { t with parserJobs := updateWhere p f t.parserJobs }
  | promoted {c : ClaimedParserJob} {source : Source} {finished : Int}
    {requirements : List ParsedRequirement} {rows : Evidence}
    (able : Promotable t c source finished requirements rows) :
    Effect t (t.promoted c source finished rows)

theorem claim_move {p : ParserClaims} {s : Session} {j r : ParserJobRecord}
    (created : r.lease.createdAt ≤ s.now) (queued : r.lease.state = .queued) :
    JobMove r { r with lease := r.lease.claim (p.claimOf s j).claim } := by
  refine ⟨rfl, .inr (.claim _ queued created ?_)⟩
  have := p.lasts
  simp only [ParserClaims.claimOf, ClaimedParserJob.claim]
  omega

theorem finish_move {c : ClaimedParserJob} {now : Int} {r : ParserJobRecord}
    {outcome : ParserOutcome} {code : Option ParserFailureCode}
    (claimed : r.lease.state = .claimed) (holds : c.holds now r = true)
    (ends : ParserEnds outcome code true) :
    JobMove r { r with lease := r.lease.finish outcome now code } := by
  simp only [ClaimedParserJob.holds, Bool.and_eq_true] at holds
  exact ⟨rfl, .inr (Move.ofHeld claimed holds.2 ends)⟩

theorem claimNext_effect (p : ParserClaims) (s : Session) (t : Tables)
    (unique : (t.parserJobs.map (·.id)).Nodup) : Effect t (claimNext p s t).2 := by
  rw [claimNext]
  split
  · exact .nothing
  · split
    · exact .nothing
    · rename_i j found
      have candidate := List.mem_filter.mp (firstBy_mem found)
      apply Effect.moved
      intro r hr same
      simp only [Bool.and_eq_true, decide_eq_true_eq] at same
      obtain rfl := eq_of_key unique hr candidate.1 same.1
      have created : r.lease.createdAt ≤ s.now := by
        have := candidate.2
        simp only [ParserClaims.claimable, Bool.and_eq_true, decide_eq_true_eq] at this
        exact this.1.1.2
      exact ⟨claim_move created same.2, by simp [Lease.claim]⟩

theorem finish_effect (p : ParserClaims) (s : Session) (c : ClaimedParserJob)
    {outcome : ParserOutcome} {code : ParserFailureCode} (t : Tables)
    (ends : ParserEnds outcome (some code) true) (other : outcome ≠ .accepted) :
    Effect t (finish p s c outcome code t).2 := by
  simp only [finish]
  split
  · exact .nothing
  · split
    · apply Effect.moved
      intro r _ held
      simp only [Bool.and_eq_true, decide_eq_true_eq] at held
      exact ⟨finish_move held.1.2 held.2 ends, by simpa [Lease.finish] using other⟩
    · exact .nothing

theorem expireClaims_effect (p : ParserClaims) (s : Session) (t : Tables)
    (checked : ∀ j ∈ t.parserJobs, Checked ParserEnds j.lease) :
    Effect t (expireClaims p s t).2 := by
  simp only [expireClaims]
  split
  · exact .nothing
  · apply Effect.moved
    intro r hr lapsed
    simp only [Bool.and_eq_true, decide_eq_true_eq] at lapsed
    refine ⟨⟨rfl, .inr ?_⟩, by simp [Lease.finish]⟩
    exact Move.ofLapsed (checked r hr) lapsed.1.1 lapsed.2 .expired

theorem checkRequirements_ok {rt : ParserRuntime} {document : ClaimedDocument}
    {requirements : List ParsedRequirement} (h : checkRequirements rt document requirements = .ok ()) :
    requirements ≠ [] ∧
      parseMarkdownOrText rt.upper rt.sha256 document.documentType document.raw =
        .ok requirements := by
  obtain ⟨_, _, h⟩ := bind_ok.mp h
  obtain ⟨expected, parsed, h⟩ := bind_ok.mp h
  obtain ⟨_, same, _⟩ := bind_ok.mp h
  simp only [rejectIf_ok, Bool.or_eq_false_iff, decide_eq_false_iff_not, not_not] at same
  obtain ⟨some', rfl⟩ := same
  cases result : parseMarkdownOrText rt.upper rt.sha256 document.documentType document.raw with
  | error e => simp [result, Except.mapError] at parsed
  | ok found =>
    rw [result] at parsed
    exact ⟨some', congrArg Except.ok (Except.ok.inj parsed)⟩

/-- A promotion writes all that it found, or nothing. -/
theorem promote_cases (rt : ParserRuntime) (s : Session) (finished : Int) (c : ClaimedParserJob)
    (document : ClaimedDocument) (requirements : List ParsedRequirement) (t : Tables) :
    (∃ source rows, Promotable t c source finished requirements rows ∧
      (promote rt s finished c document requirements t).2 = t.promoted c source finished rows) ∨
    (promote rt s finished c document requirements t).2 = t := by
  rw [promote]
  split
  · rename_i promoted t' made
    obtain ⟨_, checked, made⟩ := bind_ok.mp made
    simp only [promoteRows] at made
    split at made
    · cases made
    split at made
    · cases made
    obtain ⟨source, found, made⟩ := bind_ok.mp made
    obtain ⟨_, _, made⟩ := bind_ok.mp made
    obtain ⟨_, _, made⟩ := bind_ok.mp made
    obtain ⟨_, absent, made⟩ := bind_ok.mp made
    split at made
    · cases made
    rename_i admits
    split at made
    · cases made
    rename_i late
    simp only [Except.ok.injEq, Prod.mk.injEq] at made
    obtain ⟨-, rfl⟩ := made
    simp only [rejectIf_ok, Bool.or_eq_false_iff, List.any_eq_false, decide_eq_true_eq] at absent
    simp only [Bool.or_eq_true, decide_eq_true_eq, Bool.not_eq_true', not_or, Bool.not_eq_false,
      List.any_eq_true, Bool.and_eq_true] at late
    rw [Bool.not_eq_true', Bool.not_eq_false] at admits
    exact .inl ⟨_, _,
      ⟨(checkRequirements_ok checked).1, found, absent.1, absent.2, late.2, admits, s, rfl⟩, rfl⟩
  · exact .inr rfl

theorem promote_effect (rt : ParserRuntime) (s : Session) (finished : Int) (c : ClaimedParserJob)
    (document : ClaimedDocument) (requirements : List ParsedRequirement) (t : Tables) :
    Effect t (promote rt s finished c document requirements t).2 := by
  rcases promote_cases rt s finished c document requirements t with ⟨_, _, able, eq⟩ | eq
  · rw [eq]
    exact .promoted able
  · rw [eq]
    exact .nothing

/-! ## What every state keeps -/

/-- The job of the intake of the version is accepted. -/
def Accepted (t : Tables) (v : Uuid) : Prop :=
  ∃ j ∈ t.parserJobs, ∃ i ∈ t.documentIntakes, i.id = j.documentIntakeId ∧
    i.documentVersionId = some v ∧ j.lease.state = .finished .accepted

/-- The evidence of the version is that of one promotion. -/
structure Published (t : Tables) (v : Uuid) (rows : Evidence) : Prop where
  made : ∃ s t' source requirements, requirements ≠ [] ∧ source.version.id = v ∧
    rows = evidence s t' source requirements
  locations : t.sourceLocations.filter (·.documentVersionId = v) = rows.locations
  sections : t.documentSections.filter (·.documentVersionId = v) = rows.sections
  job : t.indexingJobs.filter (·.documentVersionId = v) = [rows.job]

/-- The version has no evidence. -/
structure Absent (t : Tables) (v : Uuid) : Prop where
  locations : t.sourceLocations.filter (·.documentVersionId = v) = []
  sections : t.documentSections.filter (·.documentVersionId = v) = []
  job : t.indexingJobs.filter (·.documentVersionId = v) = []

structure Consistent (t : Tables) : Prop where
  jobIds : (t.parserJobs.map (·.id)).Nodup
  jobIntakes : (t.parserJobs.map (·.documentIntakeId)).Nodup
  known : ∀ j ∈ t.parserJobs, ∃ i ∈ t.documentIntakes, i.id = j.documentIntakeId
  intakeIds : (t.documentIntakes.map (·.id)).Nodup
  intakeVersions : ∀ i ∈ t.documentIntakes, ∀ j ∈ t.documentIntakes, ∀ v,
    i.documentVersionId = some v → j.documentVersionId = some v → i = j
  checked : ∀ j ∈ t.parserJobs, Checked ParserEnds j.lease
  published : ∀ v, (Accepted t v → ∃ rows, Published t v rows) ∧ (¬ Accepted t v → Absent t v)

theorem evidence_locations {s : Session} {t : Tables} {source : Source}
    {requirements : List ParsedRequirement} :
    (∀ r ∈ (evidence s t source requirements).locations, r.documentVersionId = source.version.id) ∧
      ∀ r ∈ (evidence s t source requirements).sections,
        r.documentVersionId = source.version.id := by
  constructor
  · intro r hr
    obtain ⟨i, _, rfl⟩ := List.mem_mapIdx.mp hr
    rfl
  · intro r hr
    obtain ⟨i, _, rfl⟩ := List.mem_mapIdx.mp hr
    rfl

theorem Published.not_absent {t : Tables} {v : Uuid} {rows : Evidence} (published : Published t v rows) :
    ∃ r ∈ t.documentSections, r.documentVersionId = v := by
  obtain ⟨s, t', source, requirements, some', -, rfl⟩ := published.made
  obtain ⟨first, rest, rfl⟩ := List.exists_cons_of_ne_nil some'
  have listed : newSection source.version.id (s.newId 1) (s.newId 0) first ∈
      t.documentSections.filter (·.documentVersionId = v) := by
    rw [published.sections]
    exact List.mem_mapIdx.mpr ⟨0, by simp, rfl⟩
  have := List.mem_filter.mp listed
  exact ⟨_, this.1, by simpa using this.2⟩

theorem source_ok {t : Tables} {id : Uuid} {source : Source} (h : t.source id = .ok source) :
    (source.intake ∈ t.documentIntakes ∧ source.intake.id = id ∧
      source.intake.documentVersionId = some source.version.id) ∧
    source.document ∈ t.documents ∧ source.version ∈ t.documentVersions ∧
      source.version.documentId = source.document.id := by
  simp only [Tables.source] at h
  split at h
  · rename_i found eq
    obtain rfl := Except.ok.inj h
    have listed : found ∈ [found] := List.mem_singleton_self found
    rw [← eq] at listed
    simp only [List.mem_flatMap, List.mem_map, List.mem_filter, Bool.and_eq_true,
      decide_eq_true_eq] at listed
    obtain ⟨i, hi, d, hd, v, ⟨hv, checks⟩, rfl⟩ := listed
    exact ⟨⟨hi, checks.1.1.1.1.1, checks.1.1.2⟩, hd, hv, checks.2⟩
  · cases h
  · cases h

/-- Rows of other intakes and of jobs that are not accepted leave what is accepted as it is. -/
theorem Consistent.of_accepted {t t' : Tables} (consistent : Consistent t)
    (jobIds : (t'.parserJobs.map (·.id)).Nodup)
    (jobIntakes : (t'.parserJobs.map (·.documentIntakeId)).Nodup)
    (known : ∀ j ∈ t'.parserJobs, ∃ i ∈ t'.documentIntakes, i.id = j.documentIntakeId)
    (intakeIds : (t'.documentIntakes.map (·.id)).Nodup)
    (intakeVersions : ∀ i ∈ t'.documentIntakes, ∀ j ∈ t'.documentIntakes, ∀ v,
      i.documentVersionId = some v → j.documentVersionId = some v → i = j)
    (checked : ∀ j ∈ t'.parserJobs, Checked ParserEnds j.lease)
    (same : t'.sourceLocations = t.sourceLocations ∧ t'.documentSections = t.documentSections ∧
      t'.indexingJobs = t.indexingJobs)
    (accepted : ∀ v, Accepted t' v ↔ Accepted t v) : Consistent t' := by
  refine ⟨jobIds, jobIntakes, known, intakeIds, intakeVersions, checked, ?_⟩
  obtain ⟨locations, sections, jobs⟩ := same
  intro v
  rw [accepted v]
  constructor
  · intro h
    obtain ⟨rows, published⟩ := (consistent.published v).1 h
    exact ⟨rows, published.made, locations ▸ published.locations, sections ▸ published.sections,
      jobs ▸ published.job⟩
  · intro h
    have absent := (consistent.published v).2 h
    exact ⟨locations ▸ absent.locations, sections ▸ absent.sections, jobs ▸ absent.job⟩

theorem admitsIntake_fresh {t : Tables} {row : DocumentIntakeRecord}
    (fresh : t.admitsIntake row = true) : ∀ i ∈ t.documentIntakes, i.id ≠ row.id ∧
      (row.documentVersionId = none ∨ i.documentVersionId ≠ row.documentVersionId) := by
  intro i hi
  have := List.all_eq_true.mp fresh i hi
  simp only [Bool.and_eq_true, Bool.or_eq_true, decide_eq_true_eq, Option.isNone_iff_eq_none] at this
  exact ⟨this.1.1, this.1.2⟩

/-- A new intake belongs to no job, and its version to no other intake. -/
theorem Consistent.addIntake {t : Tables} (consistent : Consistent t) {row : DocumentIntakeRecord}
    (fresh : t.admitsIntake row = true) {t' : Tables}
    (intakes : t'.documentIntakes = t.documentIntakes ++ [row])
    (same : t'.parserJobs = t.parserJobs ∧ t'.sourceLocations = t.sourceLocations ∧
      t'.documentSections = t.documentSections ∧ t'.indexingJobs = t.indexingJobs) :
    Consistent t' := by
  have new := admitsIntake_fresh fresh
  obtain ⟨jobs, rest⟩ := same
  have accepted : ∀ v, Accepted t' v ↔ Accepted t v := by
    intro v
    rw [Accepted, Accepted, jobs, intakes]
    constructor
    · rintro ⟨j, hj, i, hi, of, version, ended⟩
      rcases List.mem_append.mp hi with hi | hi
      · exact ⟨j, hj, i, hi, of, version, ended⟩
      · obtain ⟨i', hi', of'⟩ := consistent.known j hj
        obtain rfl := List.mem_singleton.mp hi
        exact absurd (of'.trans of.symm) (new i' hi').1
    · rintro ⟨j, hj, i, hi, rest⟩
      exact ⟨j, hj, i, List.mem_append_left _ hi, rest⟩
  refine consistent.of_accepted (jobs ▸ consistent.jobIds) (jobs ▸ consistent.jobIntakes) ?_ ?_ ?_
    (jobs ▸ consistent.checked) rest accepted
  · intro j hj
    rw [jobs] at hj
    obtain ⟨i, hi, of⟩ := consistent.known j hj
    exact ⟨i, intakes ▸ List.mem_append_left _ hi, of⟩
  · rw [intakes, List.map_append]
    refine List.nodup_append.mpr ⟨consistent.intakeIds, List.nodup_singleton _, ?_⟩
    intro id hid id' hid'
    obtain ⟨i, hi, rfl⟩ := List.mem_map.mp hid
    exact List.mem_singleton.mp hid' ▸ (new i hi).1
  · intro i hi j hj v iv jv
    rw [intakes] at hi hj
    rcases List.mem_append.mp hi with old | new' <;>
      rcases List.mem_append.mp hj with old' | new''
    · exact consistent.intakeVersions i old j old' v iv jv
    · obtain rfl := List.mem_singleton.mp new''
      rcases (new i old).2 with none' | other
      · simp [none'] at jv
      · exact absurd (iv.trans jv.symm) other
    · obtain rfl := List.mem_singleton.mp new'
      rcases (new j old').2 with none' | other
      · simp [none'] at iv
      · exact absurd (jv.trans iv.symm) other
    · rw [List.mem_singleton.mp new', List.mem_singleton.mp new'']

theorem Consistent.enqueue {t : Tables} (consistent : Consistent t) {job : ParserJobRecord}
    {createdAt : Int} (queued : job.lease = .queuedAt createdAt)
    (fresh : t.admitsParserJob job = true) :
    Consistent { t with parserJobs := t.parserJobs ++ [job] } := by
  simp only [Tables.admitsParserJob, Bool.and_eq_true, List.all_eq_true, List.any_eq_true,
    decide_eq_true_eq] at fresh
  obtain ⟨new, intake⟩ := fresh
  have accepted : ∀ v, Accepted { t with parserJobs := t.parserJobs ++ [job] } v ↔
      Accepted t v := by
    intro v
    constructor
    · rintro ⟨j, hj, i, hi, of, version, ended⟩
      rcases List.mem_append.mp hj with hj | hj
      · exact ⟨j, hj, i, hi, of, version, ended⟩
      · rw [List.mem_singleton.mp hj, queued] at ended
        cases ended
    · rintro ⟨j, hj, rest⟩
      exact ⟨j, List.mem_append_left _ hj, rest⟩
  refine consistent.of_accepted ?_ ?_ ?_ consistent.intakeIds consistent.intakeVersions ?_
    ⟨rfl, rfl, rfl⟩ accepted
  · exact nodup_snoc consistent.jobIds fun j hj => (new j hj).1
  · exact nodup_snoc consistent.jobIntakes fun j hj => (new j hj).2
  · intro j hj
    rcases List.mem_append.mp hj with hj | hj
    · exact consistent.known j hj
    · exact List.mem_singleton.mp hj ▸ intake
  · intro j hj
    rcases List.mem_append.mp hj with hj | hj
    · exact consistent.checked j hj
    · exact List.mem_singleton.mp hj ▸ queued ▸ .queued

/-! ### Moves of jobs -/

section
variable {t : Tables} {p : ParserJobRecord → Bool} {f : ParserJobRecord → ParserJobRecord}

theorem moved_columns (move : ∀ r ∈ t.parserJobs, p r = true → JobMove r (f r)) :
    (updateWhere p f t.parserJobs).map (·.id) = t.parserJobs.map (·.id) ∧
      (updateWhere p f t.parserJobs).map (·.documentIntakeId) =
        t.parserJobs.map (·.documentIntakeId) := by
  constructor
  · exact map_updateWhere_of _ fun r hr h => congrArg Prod.fst (move r hr h).1
  · exact map_updateWhere_of _ fun r hr h => congrArg Prod.snd (move r hr h).1

/-- An accepted job is not moved. -/
theorem accepted_kept (move : ∀ r ∈ t.parserJobs, p r = true → JobMove r (f r))
    {j : ParserJobRecord} (hj : j ∈ t.parserJobs) {o : ParserOutcome}
    (ended : j.lease.state = .finished o) : j ∈ updateWhere p f t.parserJobs := by
  apply mem_updateWhere.mpr
  refine ⟨j, hj, ?_⟩
  split
  · rcases (move j hj ‹_›).2 with same | moved
    · exact same
    · exact absurd ended moved.not_finished
  · rfl

theorem moved_known (move : ∀ r ∈ t.parserJobs, p r = true → JobMove r (f r))
    (known : ∀ j ∈ t.parserJobs, ∃ i ∈ t.documentIntakes, i.id = j.documentIntakeId) :
    ∀ j ∈ updateWhere p f t.parserJobs, ∃ i ∈ t.documentIntakes, i.id = j.documentIntakeId := by
  intro j hj
  obtain ⟨r, hr, rfl⟩ := mem_updateWhere.mp hj
  split
  · have same : (f r).documentIntakeId = r.documentIntakeId :=
      congrArg Prod.snd (move r hr ‹_›).1
    exact same ▸ known r hr
  · exact known r hr

theorem moved_checked (move : ∀ r ∈ t.parserJobs, p r = true → JobMove r (f r))
    (checked : ∀ j ∈ t.parserJobs, Checked ParserEnds j.lease) :
    ∀ j ∈ updateWhere p f t.parserJobs, Checked ParserEnds j.lease :=
  (Advance.update move).checked checked

end

theorem Consistent.move {t : Tables} (consistent : Consistent t) {p : ParserJobRecord → Bool}
    {f : ParserJobRecord → ParserJobRecord} (move : ∀ r ∈ t.parserJobs, p r = true →
      JobMove r (f r) ∧ (f r).lease.state ≠ .finished .accepted) :
    Consistent { t with parserJobs := updateWhere p f t.parserJobs } := by
  have moves := fun r hr h => (move r hr h).1
  obtain ⟨ids, intakes⟩ := moved_columns moves
  have accepted : ∀ v, Accepted { t with parserJobs := updateWhere p f t.parserJobs } v ↔
      Accepted t v := by
    intro v
    constructor
    · rintro ⟨j, hj, i, hi, of, version, ended⟩
      obtain ⟨r, hr, rfl⟩ := mem_updateWhere.mp hj
      by_cases moved : p r = true
      · rw [if_pos moved] at ended
        exact absurd ended (move r hr moved).2
      · rw [if_neg moved] at of ended
        exact ⟨r, hr, i, hi, of, version, ended⟩
    · rintro ⟨j, hj, i, hi, of, version, ended⟩
      exact ⟨j, accepted_kept moves hj ended, i, hi, of, version, ended⟩
  exact consistent.of_accepted (ids ▸ consistent.jobIds) (intakes ▸ consistent.jobIntakes)
    (moved_known moves consistent.known) consistent.intakeIds consistent.intakeVersions
    (moved_checked moves consistent.checked) ⟨rfl, rfl, rfl⟩ accepted

/-! ### Promotion -/

section
variable {t : Tables} {c : ClaimedParserJob} {source : Source} {finished : Int}
  {requirements : List ParsedRequirement} {rows : Evidence}

theorem Promotable.moves (t : Tables) (c : ClaimedParserJob) (finished : Int) :
    ∀ r ∈ t.parserJobs, (decide (r.lease.state = .claimed) && c.holds finished r) = true →
      JobMove r { r with lease := r.lease.finish .accepted finished none } := by
  intro r _ held
  simp only [Bool.and_eq_true, decide_eq_true_eq] at held
  exact finish_move held.1 held.2 .accepted

/-- The promoted version becomes accepted, and no other. -/
theorem Promotable.accepted (consistent : Consistent t)
    (able : Promotable t c source finished requirements rows) (v : Uuid) :
    Accepted (t.promoted c source finished rows) v ↔ Accepted t v ∨ v = source.version.id := by
  obtain ⟨⟨listed, isClaims, version⟩, -⟩ := source_ok able.found
  have moves := Promotable.moves t c finished
  constructor
  · rintro ⟨j, hj, i, hi, of, ofVersion, ended⟩
    obtain ⟨r, hr, rfl⟩ := mem_updateWhere.mp hj
    by_cases held : (decide (r.lease.state = .claimed) && c.holds finished r) = true
    · rw [if_pos held] at of
      have claims : r.documentIntakeId = c.documentIntakeId := by
        simp only [ClaimedParserJob.holds, Bool.and_eq_true, decide_eq_true_eq] at held
        exact held.2.1.2
      obtain rfl := eq_of_key consistent.intakeIds hi listed
        (of.trans (claims.trans isClaims.symm))
      exact .inr (Option.some.inj (ofVersion.symm.trans version))
    · rw [if_neg held] at of ended
      exact .inl ⟨r, hr, i, hi, of, ofVersion, ended⟩
  · rintro (⟨j, hj, i, hi, of, ofVersion, ended⟩ | rfl)
    · exact ⟨j, accepted_kept moves hj ended, i, hi, of, ofVersion, ended⟩
    · obtain ⟨j, hj, claimed, holds⟩ := able.held
      have held : (decide (j.lease.state = .claimed) && c.holds finished j) = true := by
        simp [claimed, holds]
      have claims : j.documentIntakeId = c.documentIntakeId := by
        simp only [ClaimedParserJob.holds, Bool.and_eq_true, decide_eq_true_eq] at holds
        exact holds.1.2
      exact ⟨_, mem_updateWhere_of hj held, source.intake, listed, isClaims.trans claims.symm,
        version, rfl⟩

/-- A promotion adds nothing to another version. -/
theorem Promotable.other (able : Promotable t c source finished requirements rows) {v : Uuid}
    (other : v ≠ source.version.id) :
    (t.promoted c source finished rows).sourceLocations.filter (·.documentVersionId = v) =
        t.sourceLocations.filter (·.documentVersionId = v) ∧
      (t.promoted c source finished rows).documentSections.filter (·.documentVersionId = v) =
        t.documentSections.filter (·.documentVersionId = v) ∧
      (t.promoted c source finished rows).indexingJobs.filter (·.documentVersionId = v) =
        t.indexingJobs.filter (·.documentVersionId = v) := by
  obtain ⟨s, rfl⟩ := able.made
  have versions := @evidence_locations s t source requirements
  refine ⟨?_, ?_, ?_⟩
  · apply filter_append_of_not
    intro r hr
    exact decide_eq_false fun same => other (same.symm.trans (versions.1 r hr))
  · apply filter_append_of_not
    intro r hr
    exact decide_eq_false fun same => other (same.symm.trans (versions.2 r hr))
  · apply filter_append_of_not
    intro r hr
    rw [List.mem_singleton.mp hr]
    exact decide_eq_false fun same => other same.symm

/-- The promoted version had no evidence and has that of the promotion. -/
theorem Promotable.publishes (able : Promotable t c source finished requirements rows)
    (absent : Absent t source.version.id) :
    Published (t.promoted c source finished rows) source.version.id rows := by
  obtain ⟨s, rfl⟩ := able.made
  have versions := @evidence_locations s t source requirements
  refine ⟨⟨s, t, source, requirements, able.some', rfl, rfl⟩, ?_, ?_, ?_⟩
  · exact filter_append_of absent.locations fun r hr => decide_eq_true (versions.1 r hr)
  · exact filter_append_of absent.sections fun r hr => decide_eq_true (versions.2 r hr)
  · exact filter_append_of absent.job fun r hr => decide_eq_true (List.mem_singleton.mp hr ▸ rfl)

theorem Consistent.promote (consistent : Consistent t)
    (able : Promotable t c source finished requirements rows) :
    Consistent (t.promoted c source finished rows) := by
  have moves := Promotable.moves t c finished
  obtain ⟨ids, intakes⟩ := moved_columns moves
  refine ⟨ids ▸ consistent.jobIds, intakes ▸ consistent.jobIntakes,
    moved_known moves consistent.known, consistent.intakeIds, consistent.intakeVersions,
    moved_checked moves consistent.checked, ?_⟩
  intro v
  rw [able.accepted consistent v]
  by_cases same : v = source.version.id
  · subst same
    have unaccepted : ¬ Accepted t source.version.id := by
      intro accepted
      obtain ⟨rows, published⟩ := (consistent.published _).1 accepted
      obtain ⟨r, hr, of⟩ := published.not_absent
      exact able.noSections r hr of
    refine ⟨fun _ => ⟨rows, able.publishes ((consistent.published _).2 unaccepted)⟩, ?_⟩
    intro h
    exact absurd (.inr rfl) h
  · obtain ⟨locations, sections, jobs⟩ := able.other same
    simp only [same, or_false]
    constructor
    · intro accepted
      obtain ⟨rows', published⟩ := (consistent.published v).1 accepted
      exact ⟨rows', published.made, locations.trans published.locations,
        sections.trans published.sections, jobs.trans published.job⟩
    · intro unaccepted
      have absent := (consistent.published v).2 unaccepted
      exact ⟨locations.trans absent.locations, sections.trans absent.sections,
        jobs.trans absent.job⟩

end

/-! ## Runs -/

theorem recordRejection_effect (s : Session) (projectId : Uuid) (r : Rejection) (t : Tables) :
    Effect t (recordRejection s projectId r t).2 := by
  rw [recordRejection]
  split
  · exact .nothing
  · rename_i admits
    simp only [Bool.or_eq_true, Bool.not_eq_true', not_or, Bool.not_eq_false] at admits
    exact .intakeRejected admits.2 rfl

theorem createQuarantined_effect (s : Session) (a : Admission) (t : Tables) :
    Effect t (createQuarantined s a t).2 := by
  rw [createQuarantined]
  split
  · exact .nothing
  · rename_i admits
    simp only [Bool.or_eq_true, Bool.not_eq_true', not_or, Bool.not_eq_false] at admits
    exact .admitted admits.2 rfl

theorem enqueue_effect (s : Session) (job : ParserJob) (t : Tables) :
    Effect t (enqueue s job t).2 := by
  rw [enqueue]
  split_ifs with fails admits present
  · exact .nothing
  · exact .enqueued rfl admits
  · exact .nothing
  · exact .nothing

theorem step_effect {rt : ParserRuntime} {t : Tables} (unique : (t.parserJobs.map (·.id)).Nodup)
    (checked : ∀ j ∈ t.parserJobs, Checked ParserEnds j.lease) (i : Input) :
    Effect t (step rt t i) := by
  cases i with
  | recordRejection s projectId r => exact recordRejection_effect s projectId r t
  | createQuarantined s a => exact createQuarantined_effect s a t
  | enqueue s job => exact enqueue_effect s job t
  | claimNext p s => exact claimNext_effect p s t unique
  | reject p s c => exact finish_effect p s c t .rejected (by decide)
  | fail p s c => exact finish_effect p s c t .failed (by decide)
  | promote s finished c document requirements =>
    exact promote_effect rt s finished c document requirements t
  | expireClaims p s => exact expireClaims_effect p s t checked

theorem Effect.consistent {t t' : Tables} (effect : Effect t t') (consistent : Consistent t) :
    Consistent t' := by
  cases effect with
  | nothing => exact consistent
  | intakeRejected fresh none' => exact consistent.addIntake fresh rfl ⟨rfl, rfl, rfl, rfl⟩
  | admitted fresh version =>
    simp only [Tables.admitsRows, Bool.and_eq_true] at fresh
    exact consistent.addIntake fresh.2 rfl ⟨rfl, rfl, rfl, rfl⟩
  | enqueued queued fresh => exact consistent.enqueue queued fresh
  | moved move => exact consistent.move move
  | promoted able => exact consistent.promote able

/-- What an effect does to the jobs. -/
theorem Effect.advance {t t' : Tables} (effect : Effect t t') :
    Advance ParserEnds ParserJobRecord.columns ParserJobRecord.lease t.parserJobs t'.parserJobs := by
  cases effect with
  | nothing | intakeRejected | admitted => exact .refl _
  | enqueued queued => exact .append _ queued
  | moved move => exact .update fun r hr h => (move r hr h).1
  | promoted => exact .update (Promotable.moves t _ _)

theorem step_consistent {rt : ParserRuntime} {t : Tables} (i : Input) (consistent : Consistent t) :
    Consistent (step rt t i) :=
  (step_effect consistent.jobIds consistent.checked i).consistent consistent

theorem step_advance {rt : ParserRuntime} {t : Tables} (consistent : Consistent t) (i : Input) :
    Advance ParserEnds ParserJobRecord.columns ParserJobRecord.lease t.parserJobs
      (step rt t i).parserJobs :=
  (step_effect consistent.jobIds consistent.checked i).advance

theorem empty_consistent : Consistent .empty := by
  refine ⟨List.nodup_nil, List.nodup_nil, ?_, List.nodup_nil, ?_, ?_, ?_⟩
  · intro j hj
    cases hj
  · intro i hi
    cases hi
  · intro j hj
    cases hj
  · intro v
    refine ⟨?_, fun _ => ⟨rfl, rfl, rfl⟩⟩
    rintro ⟨j, hj, -⟩
    cases hj

theorem run_consistent {rt : ParserRuntime} {t : Tables} (consistent : Consistent t)
    (is : List Input) : Consistent (run (step rt) t is) :=
  run_invariant' (fun _ i h => step_consistent i h) consistent is

theorem run_later {rt : ParserRuntime} {t : Tables} (consistent : Consistent t) (is : List Input) :
    Later ParserJobRecord.columns ParserJobRecord.lease t.parserJobs
      (run (step rt) t is).parserJobs := by
  apply run_rel (I := Consistent) (R := fun a b =>
    Later ParserJobRecord.columns ParserJobRecord.lease a.parserJobs b.parserJobs)
  · intro t
    exact .refl _
  · intro a b c first second
    exact first.trans second
  · intro t i h
    exact step_consistent i h
  · intro t i h
    exact (step_advance h i).later
  · exact consistent

/-- The job has been claimed. -/
def Taken (t : Tables) (id : Uuid) : Prop := ∃ j ∈ t.parserJobs, j.id = id ∧ j.lease.state ≠ .queued

theorem Taken.later {t t' : Tables} {id : Uuid} (taken : Taken t id)
    (later : Later ParserJobRecord.columns ParserJobRecord.lease t.parserJobs t'.parserJobs) :
    Taken t' id := by
  obtain ⟨j, hj, rfl, taken⟩ := taken
  obtain ⟨j', hj', same, kept, -⟩ := later j hj
  exact ⟨j', hj', congrArg Prod.fst same, (kept taken).1⟩

theorem claimNext_takes {p : ParserClaims} {s : Session} {t : Tables} {c : ClaimedParserJob}
    (unique : (t.parserJobs.map (·.id)).Nodup) (h : (claimNext p s t).1 = .ok (some c)) :
    ¬ Taken t c.jobId ∧ Taken (claimNext p s t).2 c.jobId := by
  rw [claimNext] at h ⊢
  split at h
  · cases h
  · rename_i running
    rw [if_neg running]
    split at h
    · cases h
    · rename_i j found
      obtain rfl := Option.some.inj (Except.ok.inj h)
      have candidate := List.mem_filter.mp (firstBy_mem found)
      have queued : j.lease.state = .queued := by
        have := candidate.2
        simp only [ParserClaims.claimable, Bool.and_eq_true, decide_eq_true_eq] at this
        exact this.1.1.1
      constructor
      · rintro ⟨r, hr, same, taken⟩
        obtain rfl := eq_of_key unique hr candidate.1 same
        exact taken queued
      · refine ⟨_, mem_updateWhere_of candidate.1 (by simp [queued]), rfl, ?_⟩
        simp [Lease.claim]

theorem claimedJobs_once (rt : ParserRuntime) (is : List Input) :
    (trace (step rt) claimedJobs .empty is).Nodup := by
  have emitted : ∀ t i id, id ∈ claimedJobs t i →
      ∃ p s c, i = .claimNext p s ∧ (claimNext p s t).1 = .ok (some c) ∧ c.jobId = id ∧
        claimedJobs t i = [id] := by
    intro t i id h
    cases i with
    | claimNext p s =>
      simp only [claimedJobs] at h ⊢
      split at h
      · rename_i c claimed
        obtain rfl := List.mem_singleton.mp h
        exact ⟨p, s, c, rfl, claimed, rfl, rfl⟩
      · cases h
    | _ => cases h
  refine (@trace_nodup _ _ _ (step rt) claimedJobs Consistent Taken ?_ ?_ ?_ ?_ _
    empty_consistent is).1
  · intro t i h
    exact step_consistent i h
  · intro t i consistent
    constructor
    · cases eq : claimedJobs t i with
      | nil => exact List.nodup_nil
      | cons id ids =>
        obtain ⟨-, -, -, -, -, -, single⟩ := emitted t i id (eq ▸ List.mem_cons_self)
        rw [← eq, single]
        exact List.nodup_singleton id
    · intro id h
      obtain ⟨p, s, c, -, claimed, rfl, -⟩ := emitted t i id h
      exact (claimNext_takes consistent.jobIds claimed).1
  · intro t i consistent id h
    obtain ⟨p, s, c, rfl, claimed, rfl, -⟩ := emitted t i id h
    exact (claimNext_takes consistent.jobIds claimed).2
  · intro t i consistent id taken
    exact taken.later (step_advance consistent i).later

/-- In every run from empty tables each parser job is claimed at most once. In every state of it
the rows of the jobs meet their constraints, a finished job stays as it is, an accepted one was
accepted within its lease, and a version has its sections, locations and indexing job, those of one
promotion, if its job is accepted, and none of them if not. -/
theorem parser_lease (rt : ParserRuntime) (is : List Input) :
    (trace (step rt) claimedJobs .empty is).Nodup ∧
    (∀ j ∈ (run (step rt) .empty is).parserJobs, j.checks = true ∧
      (∀ o, j.lease.state = .finished o →
        ∀ more, j ∈ (run (step rt) .empty (is ++ more)).parserJobs) ∧
      (j.lease.state = .finished .accepted →
        ∃ start deadline now, j.lease.claimedAt = some start ∧
          j.lease.claimExpiresAt = some deadline ∧ j.lease.completedAt = some now ∧
          start ≤ now ∧ now < deadline)) ∧
    ∀ v, (Accepted (run (step rt) .empty is) v ↔
        ∃ rows, Published (run (step rt) .empty is) v rows) ∧
      (¬ Accepted (run (step rt) .empty is) v ↔ Absent (run (step rt) .empty is) v) := by
  have consistent := @run_consistent rt _ empty_consistent is
  refine ⟨claimedJobs_once rt is, ?_, ?_⟩
  · intro j hj
    have checked := consistent.checked j hj
    refine ⟨j.checks_of_checked checked, ?_, ?_⟩
    · intro o ended more
      rw [run_append]
      obtain ⟨j', hj', -, -, kept⟩ := @run_later rt _ consistent more j hj
      exact kept o ended ▸ hj'
    · intro accepted
      obtain ⟨start, deadline, now, since, until', done, started, ends⟩ := checked.ended accepted
      refine ⟨start, deadline, now, since, until', done, started, ?_⟩
      generalize early : decide (now < deadline) = b at ends
      generalize j.lease.failureCode = code at ends
      cases ends
      exact of_decide_eq_true early
  · intro v
    obtain ⟨publishes, lacks⟩ := consistent.published v
    have exclusive : ∀ rows, Published (run (step rt) .empty is) v rows →
        ¬ Absent (run (step rt) .empty is) v := by
      intro rows published absent
      obtain ⟨r, hr, of⟩ := published.not_absent
      have listed : r ∈ (run (step rt) .empty is).documentSections.filter
          (·.documentVersionId = v) := List.mem_filter.mpr ⟨hr, decide_eq_true of⟩
      rw [absent.sections] at listed
      cases listed
    constructor
    · refine ⟨publishes, ?_⟩
      rintro ⟨rows, published⟩
      by_contra unaccepted
      exact exclusive rows published (lacks unaccepted)
    · refine ⟨lacks, ?_⟩
      intro absent accepted
      obtain ⟨rows, published⟩ := publishes accepted
      exact exclusive rows published absent

end QaCopilot.Ingestion
