import QaCopilot.Ingestion.MarkdownParser
import QaCopilot.Lib.LeaseTable

/-!
# Parser jobs

`parser_job_claims.py` and `parser_evidence_promotion.py`: a job is claimed for a while, and its
holder rejects it, fails it, or promotes what the parser found. Each is one transaction.
-/

namespace QaCopilot.Ingestion

open QaCopilot.Python QaCopilot.Table QaCopilot.Leases

/-! ## Rows -/

/-- Which code an outcome leaves, and on which side of the deadline it comes. -/
inductive ParserEnds : ParserOutcome → Option ParserFailureCode → Bool → Prop where
  | accepted : ParserEnds .accepted none true
  | rejected : ParserEnds .rejected (some .documentRejected) true
  | failed : ParserEnds .failed (some .workerFailed) true
  | expired : ParserEnds .failed (some .claimExpired) false

/-- `ck_parser_jobs_lifecycle`, `ck_parser_jobs_timestamps` and `ck_parser_jobs_failure_code`. -/
def ParserJobRecord.checks (j : ParserJobRecord) : Bool :=
  j.lease.lifecycle (· ≠ .accepted) && j.lease.timestamps &&
    match j.lease.failureCode with
    | none => true
    | some .documentRejected => j.lease.state = .finished .rejected
    | some .workerFailed | some .claimExpired => j.lease.state = .finished .failed

theorem ParserJobRecord.checks_of_checked {j : ParserJobRecord}
    (checked : Checked ParserEnds j.lease) : j.checks = true := by
  have coded : ∀ o c early, ParserEnds o c early → c.isSome = decide (o ≠ .accepted) := by
    intro o c early ends
    cases ends <;> rfl
  obtain ⟨lifecycle, timestamps⟩ := checked.lifecycle coded
  rw [checks, lifecycle, timestamps]
  generalize j.lease = l at checked
  cases checked with
  | queued | claimed => rfl
  | finished c created lasts o now code started ends =>
    generalize decide (now < c.claimExpiresAt) = early at ends
    cases ends <;> rfl

structure ClaimedParserJob where
  jobId : Uuid
  documentIntakeId : Uuid
  claimToken : Uuid
  claimedAt : Int
  claimExpiresAt : Int
deriving DecidableEq

def ClaimedParserJob.claim (c : ClaimedParserJob) : Claim Uuid :=
  ⟨c.claimToken, c.claimedAt, c.claimExpiresAt⟩

/-- The arguments of `SqlAlchemyParserJobClaims`; the duration is positive. -/
structure ParserClaims where
  intakeId : Option Uuid
  documentTypes : Option (List DocumentType)
  duration : Nat
  lasts : 0 < duration

/-- `ParserJobClaimRejected` and `ParserJobQueueUnavailable`. -/
inductive ClaimError where
  | rejected
  | unavailable
deriving DecidableEq

def ParserClaims.scope (p : ParserClaims) (j : ParserJobRecord) : Bool :=
  p.intakeId.all (j.documentIntakeId = ·)

/-! ## Claims -/

/-- The join of a queued job with its quarantined intake and a document of the scope. -/
def ParserClaims.claimable (p : ParserClaims) (t : Tables) (now : Int) (j : ParserJobRecord) :
    Bool :=
  j.lease.state = .queued && j.lease.createdAt ≤ now && p.scope j &&
    t.documentIntakes.any fun i => i.id = j.documentIntakeId && i.state = .quarantined &&
      t.documents.any fun d => i.documentId = some d.id &&
        p.documentTypes.all (·.contains d.documentType)

def oldestJob (jobs : List ParserJobRecord) : Option ParserJobRecord :=
  firstBy (fun a b => inOrder (a.lease.createdAt, a.id) (b.lease.createdAt, b.id)) jobs

/-- What `claim_next` returns for a job. -/
def ParserClaims.claimOf (p : ParserClaims) (s : Session) (j : ParserJobRecord) :
    ClaimedParserJob :=
  ⟨j.id, j.documentIntakeId, s.newId 0, s.now, s.now + p.duration⟩

/-- `claim_next` -/
def claimNext (p : ParserClaims) (s : Session) (t : Tables) :
    Except ClaimError (Option ClaimedParserJob) × Tables :=
  if s.fails then (.error .unavailable, t)
  else
    match oldestJob (t.parserJobs.filter (p.claimable t s.now)) with
    | none => (.ok none, t)
    | some j =>
      (.ok (some (p.claimOf s j)),
        { t with
          parserJobs := updateWhere (fun r => r.id = j.id && r.lease.state = .queued)
            (fun r => { r with lease := r.lease.claim (p.claimOf s j).claim }) t.parserJobs })

/-- The claim is that of the row, and lasts at `now`. -/
def ClaimedParserJob.holds (c : ClaimedParserJob) (now : Int) (r : ParserJobRecord) : Bool :=
  r.id = c.jobId && r.documentIntakeId = c.documentIntakeId && r.lease.heldBy c.claim now

/-- `_finish` -/
def finish (p : ParserClaims) (s : Session) (c : ClaimedParserJob) (outcome : ParserOutcome)
    (code : ParserFailureCode) (t : Tables) : Except ClaimError Unit × Tables :=
  let held (r : ParserJobRecord) : Bool := p.scope r && r.lease.state = .claimed && c.holds s.now r
  if s.fails then (.error .unavailable, t)
  else if t.parserJobs.any held then
    (.ok (),
      { t with
        parserJobs := updateWhere held
          (fun r => { r with lease := r.lease.finish outcome s.now (some code) }) t.parserJobs })
  else (.error .rejected, t)

def rejectJob (p : ParserClaims) (s : Session) (c : ClaimedParserJob) :
    Tables → Except ClaimError Unit × Tables :=
  finish p s c .rejected .documentRejected

def failJob (p : ParserClaims) (s : Session) (c : ClaimedParserJob) :
    Tables → Except ClaimError Unit × Tables :=
  finish p s c .failed .workerFailed

/-- `expire_claims` -/
def expireClaims (p : ParserClaims) (s : Session) (t : Tables) : Except ClaimError Nat × Tables :=
  let lapsed (r : ParserJobRecord) : Bool :=
    r.lease.state = .claimed && p.scope r && r.lease.lapsed s.now
  if s.fails then (.error .unavailable, t)
  else
    (.ok (t.parserJobs.filter lapsed).length,
      { t with
        parserJobs := updateWhere lapsed
          (fun r => { r with lease := r.lease.finish .failed s.now (some .claimExpired) })
          t.parserJobs })

/-! ## Promotion -/

def maxPromotedTextBytes : Nat := 2 * 1024 * 1024

def parserName : String := "markdown-text"

def defaultChunkingVersion : Str := lit "chunking-v1"

def defaultEmbeddingModel : Str := lit "embedding-test-v1"

def defaultEmbeddingVersion : Str := lit "embedding-v1"

structure ClaimedDocument where
  documentType : DocumentType
  raw : Bytes

/-- `DocumentParseRejected` by its code, `ParserJobClaimRejected`, `ParserEvidenceUnavailable`. -/
inductive PromotionError where
  | parseRejected (code : String)
  | claimRejected
  | unavailable
deriving DecidableEq

/-- What the promotion runs on: `str.upper` beside the runtime of the intake. -/
structure ParserRuntime extends Runtime where
  upper : Str → Str

structure PromotedParserEvidence where
  documentVersionId : Uuid
  parserVersionId : Uuid
  sectionIds : List Uuid
  indexingJobId : Uuid

def rejectIf (c : Bool) (code : String) : Except PromotionError Unit :=
  if c then .error (.parseRejected code) else .ok ()

@[simp] theorem rejectIf_ok {c : Bool} {code : String} {u : Unit} :
    rejectIf c code = .ok u ↔ c = false := by
  cases c <;> simp [rejectIf]

structure Source where
  intake : DocumentIntakeRecord
  document : DocumentRecord
  version : DocumentVersionRecord

/-- `_source` -/
def Tables.source (t : Tables) (documentIntakeId : Uuid) : Except PromotionError Source :=
  let sources := t.documentIntakes.flatMap fun i => t.documents.flatMap fun d =>
    (t.documentVersions.filter fun v => i.id = documentIntakeId && i.state = .quarantined &&
      i.documentId = some d.id && i.documentVersionId = some v.id && d.projectId = i.projectId &&
      v.documentId = d.id).map fun v => Source.mk i d v
  match sources with
  | [source] => .ok source
  | [] => .error (.parseRejected "PARSER_SOURCE_PROVENANCE_INVALID")
  | _ => .error .unavailable

/-- `_validate_source` -/
def validateSource (rt : ParserRuntime) (s : Source) (document : ClaimedDocument) :
    Except PromotionError Unit := do
  rejectIf (s.document.documentType ≠ .markdown && s.document.documentType ≠ .text)
    "PARSER_DOCUMENT_TYPE_UNSUPPORTED"
  let expectedType :=
    if s.document.documentType = .markdown then lit "text/markdown" else lit "text/plain"
  rejectIf (document.documentType ≠ s.document.documentType ||
      s.intake.declaredContentType ≠ expectedType || s.version.contentType ≠ expectedType ||
      s.intake.quarantineKey.isNone ||
      !(0 < document.raw.length && document.raw.length ≤ maxPromotedTextBytes) ||
      document.raw.length ≠ s.intake.byteSize || document.raw.length ≠ s.version.byteSize ||
      some (rt.sha256 document.raw) ≠ s.intake.contentSha256 ||
      s.intake.contentSha256 ≠ some s.version.contentSha256)
    "PARSER_SOURCE_INTEGRITY_INVALID"

/-- The rows of one promotion. -/
structure Evidence where
  parserVersion : ParserVersionRecord
  newParserVersion : Bool
  locations : List SourceLocationRecord
  sections : List DocumentSectionRecord
  job : IndexingJobRecord

def newLocation (versionId : Uuid) (id : Uuid) (r : ParsedRequirement) : SourceLocationRecord :=
  ⟨id, versionId, "line_range", r.heading, some r.lineStart, some r.lineEnd⟩

def newSection (versionId : Uuid) (id locationId : Uuid) (r : ParsedRequirement) :
    DocumentSectionRecord :=
  ⟨id, versionId, locationId, r.ordinal, r.requirementId, r.normalizedText, r.contentSha256⟩

def newIndexingJob (s : Session) (n : Nat) (projectId versionId : Uuid) : IndexingJobRecord :=
  ⟨s.newId n, projectId, versionId, defaultChunkingVersion, defaultEmbeddingModel,
    defaultEmbeddingVersion, .queuedAt s.now⟩

/-- `_parser_version` -/
def Tables.parserVersion (t : Tables) (s : Session) (n : Nat) : ParserVersionRecord × Bool :=
  match t.parserVersions.find? fun p => p.parserName = parserName ∧
    p.parserVersion = Ingestion.parserVersion ∧ p.normalizationVersion = normalizationVersion with
  | some p => (p, false)
  | none => (⟨s.newId n, parserName, Ingestion.parserVersion, normalizationVersion, s.now⟩, true)

/-- The ids come in the order in which the source draws them: a location and a section for each
requirement, the job, and the parser version at last. -/
def evidence (s : Session) (t : Tables) (source : Source) (requirements : List ParsedRequirement) :
    Evidence :=
  let parser := t.parserVersion s (2 * requirements.length + 1)
  { parserVersion := parser.1
    newParserVersion := parser.2
    locations := requirements.mapIdx fun i r => newLocation source.version.id (s.newId (2 * i)) r
    sections := requirements.mapIdx fun i r =>
      newSection source.version.id (s.newId (2 * i + 1)) (s.newId (2 * i)) r
    job := newIndexingJob s (2 * requirements.length) source.document.projectId
      source.version.id }

/-- The keys and checks that the new rows meet. -/
def Tables.admitsEvidence (t : Tables) (e : Evidence) : Bool :=
  decide ((t.sourceLocations ++ e.locations).map (·.id)).Nodup &&
    decide ((t.documentSections ++ e.sections).map (·.id)).Nodup &&
    decide ((t.documentSections ++ e.sections).map fun r => (r.documentVersionId, r.ordinal)).Nodup &&
    e.sections.all (·.contentSha256.length = 64) &&
    (!e.newParserVersion || t.parserVersions.all (·.id ≠ e.parserVersion.id)) &&
    t.indexingJobs.all fun j => j.id ≠ e.job.id &&
      !(j.documentVersionId = e.job.documentVersionId &&
        j.chunkingVersion = e.job.chunkingVersion && j.embeddingModel = e.job.embeddingModel &&
        j.embeddingVersion = e.job.embeddingVersion)

def Tables.insertEvidence (t : Tables) (source : Source) (e : Evidence) : Tables :=
  { t with
    parserVersions :=
      if e.newParserVersion then t.parserVersions ++ [e.parserVersion] else t.parserVersions
    documentVersions := updateWhere (·.id = source.version.id)
      (fun v => { v with parserVersionId := e.parserVersion.id }) t.documentVersions
    sourceLocations := t.sourceLocations ++ e.locations
    documentSections := t.documentSections ++ e.sections
    indexingJobs := t.indexingJobs ++ [e.job] }

/-- The job of the claim becomes accepted at `now`. -/
def acceptJob (held : ParserJobRecord → Bool) (now : Int) (t : Tables) :
    Tables :=
  { t with
    parserJobs := updateWhere held (fun r => { r with lease := r.lease.finish .accepted now none })
      t.parserJobs }

/-- What `promote` checks before its transaction. -/
def checkRequirements (rt : ParserRuntime) (document : ClaimedDocument)
    (requirements : List ParsedRequirement) : Except PromotionError Unit := do
  rejectIf (!(0 < document.raw.length && document.raw.length ≤ maxPromotedTextBytes))
    "PARSER_SOURCE_INTEGRITY_INVALID"
  let expected ← (parseMarkdownOrText rt.upper rt.sha256 document.documentType document.raw).mapError
    PromotionError.parseRejected
  rejectIf (requirements = [] || requirements ≠ expected) "PARSER_EVIDENCE_INVALID"
  rejectIf (requirements.any fun r => r.requirementId.any (255 < ·.length))
    "PARSER_EVIDENCE_INVALID"

/-- The rest of `promote`, whose transaction reads its clock again at `finished`. The first update
of the job and the last one write the same row. -/
def promoteRows (rt : ParserRuntime) (s : Session) (finished : Int) (c : ClaimedParserJob)
    (document : ClaimedDocument) (requirements : List ParsedRequirement) (t : Tables) :
    Except PromotionError (PromotedParserEvidence × Tables) := do
  let held (now : Int) (r : ParserJobRecord) : Bool := r.lease.state = .claimed && c.holds now r
  if s.fails then .error .unavailable
  else if !t.parserJobs.any (held s.now) then .error .claimRejected
  else do
    let source ← t.source c.documentIntakeId
    validateSource rt source document
    rejectIf (!t.parserVersions.any fun p => p.id = source.version.parserVersionId &&
      p.parserName = "quarantine-pending" && p.parserVersion = "v1" &&
      p.normalizationVersion = "pending") "PARSER_VERSION_NOT_PENDING"
    rejectIf (t.sourceLocations.any (·.documentVersionId = source.version.id) ||
      t.documentSections.any (·.documentVersionId = source.version.id))
      "PARSER_EVIDENCE_ALREADY_EXISTS"
    let rows := evidence s t source requirements
    if !t.admitsEvidence rows then .error .unavailable
    else if finished < s.now || !t.parserJobs.any (held finished) then .error .claimRejected
    else
      .ok (⟨source.version.id, rows.parserVersion.id, rows.sections.map (·.id), rows.job.id⟩,
        acceptJob (held finished) finished (t.insertEvidence source rows))

/-- `promote` -/
def promote (rt : ParserRuntime) (s : Session) (finished : Int) (c : ClaimedParserJob)
    (document : ClaimedDocument) (requirements : List ParsedRequirement) (t : Tables) :
    Except PromotionError PromotedParserEvidence × Tables :=
  match (do
    checkRequirements rt document requirements
    promoteRows rt s finished c document requirements t) with
  | .ok (promoted, t') => (.ok promoted, t')
  | .error e => (.error e, t)

end QaCopilot.Ingestion
