import QaCopilot.Ingestion.Tables
import QaCopilot.Lib.Program
import QaCopilot.Python.Text

/-!
# Document intake

`ingestion.py` and `parser_queue.py`: an upload is inspected, its project's totals are read, its
bytes are put into quarantine, and its intake, document and version are written. `receive` is a
program over the intake repository, the quarantine storage and the parser queue, one operation a
transaction.
-/

namespace QaCopilot.Ingestion

open QaCopilot.Python QaCopilot.Program QaCopilot.Table QaCopilot.Leases

/-! ## Inspection -/

def maxRawUploadBytes : Nat := 10 * 1024 * 1024

def maxFilesPerProject : Nat := 20

def maxTotalRawBytesPerProject : Nat := 50 * 1024 * 1024

structure UploadPolicy where
  maxRawBytes : Nat := maxRawUploadBytes
  maxFilesPerProject : Nat := maxFilesPerProject
  maxTotalBytesPerProject : Nat := maxTotalRawBytesPerProject

/-- Tables and functions of the standard library. -/
structure Runtime where
  unicode : Unicode
  sha256 : Bytes → Str

structure UploadMetadata where
  filename : Str
  contentType : Str
  contentEncoding : Str
deriving DecidableEq

/-- The arguments of `receive`, the chunks of its stream, and whether the stream breaks off after
them; `objectId` is what its id factory draws. -/
structure Upload where
  projectId : Uuid
  stream : List Bytes
  breaksOff : Bool
  filename : Option Str
  contentType : Option Str
  contentEncoding : Option Str
  contentLength : Option Str
  objectId : Uuid

/-- `_safe_metadata`; a `PurePath` without a slash has its text as its name, unless it is `.`. -/
def safeMetadata (u : Unicode) (filename contentType contentEncoding : Option Str) :
    Except RejectionCode UploadMetadata :=
  let rawName := strip (filename.getD [])
  let mediaType := u.lower (strip ((contentType.getD []).takeWhile (· ≠ CodePoint.ofChar ';')))
  let encoding := u.lower (strip (match contentEncoding with
    | none | some [] => lit "identity"
    | some text => text))
  if rawName.isEmpty || 255 < rawName.length || rawName.contains 0 then
    .error .uploadFilenameInvalid
  else if rawName = lit "." || rawName.contains (CodePoint.ofChar '/') ||
      rawName.contains (CodePoint.ofChar '\\') then
    .error .uploadFilenameInvalid
  else if mediaType.isEmpty then .error .uploadContentTypeRequired
  else if encoding ≠ lit "identity" then .error .uploadContentEncodingUnsupported
  else .ok ⟨rawName, mediaType, encoding⟩

/-- `PurePath.suffix` of a name: from its last dot, which neither begins nor ends it. -/
def suffix (name : Str) : Str :=
  let dot := CodePoint.ofChar '.'
  let tail := (name.reverse.takeWhile (· ≠ dot)).reverse
  if tail.isEmpty || name.length ≤ tail.length + 1 then [] else dot :: tail

structure FileProfile where
  documentType : DocumentType
  contentTypes : List Str
  limit : Nat

/-- `_FILE_TYPES` -/
def fileTypes : List (Str × FileProfile) :=
  let yaml := [lit "application/yaml", lit "application/x-yaml", lit "text/yaml"]
  [(lit ".md", ⟨.markdown, [lit "text/markdown"], 2 * 1024 * 1024⟩),
    (lit ".txt", ⟨.text, [lit "text/plain"], 2 * 1024 * 1024⟩),
    (lit ".pdf", ⟨.pdf, [lit "application/pdf"], maxRawUploadBytes⟩),
    (lit ".yaml", ⟨.openapiYaml, yaml, 5 * 1024 * 1024⟩),
    (lit ".yml", ⟨.openapiYaml, yaml, 5 * 1024 * 1024⟩),
    (lit ".json", ⟨.openapiJson, [lit "application/json"], 5 * 1024 * 1024⟩)]

structure Rejection where
  metadata : UploadMetadata
  byteSize : Nat
  code : RejectionCode

/-- Why an upload ends before the repository is asked. -/
inductive Refusal where
  | rejected (r : Rejection)
  | streamBroken

/-- An upload that passed inspection. -/
structure Candidate where
  metadata : UploadMetadata
  documentType : DocumentType
  content : Bytes
  contentSha256 : Str

/-- The declared size, when it is within `limit`. -/
def checkContentLength (u : Unicode) (limit : Nat) (metadata : UploadMetadata) :
    Option Str → Except Refusal Unit
  | none => .ok ()
  | some text =>
    match parseInt u.decimal text with
    | none => .error (.rejected ⟨metadata, 0, .uploadContentLengthInvalid⟩)
    | some declared =>
      if declared < 0 then .error (.rejected ⟨metadata, 0, .uploadContentLengthInvalid⟩)
      else if (limit : Int) < declared then
        .error (.rejected ⟨metadata, declared.toNat, .uploadSizeLimit⟩)
      else .ok ()

/-- The bytes of the stream after those already `buffered`. -/
def readStream (limit : Nat) (metadata : UploadMetadata) (breaksOff : Bool) :
    Bytes → List Bytes → Except Refusal Bytes
  | buffered, [] => if breaksOff then .error .streamBroken else .ok buffered
  | buffered, chunk :: stream =>
    if limit < buffered.length + chunk.length then
      .error (.rejected ⟨metadata, buffered.length + chunk.length, .uploadSizeLimit⟩)
    else readStream limit metadata breaksOff (buffered ++ chunk) stream

def checkContent (documentType : DocumentType) (metadata : UploadMetadata) (content : Bytes) :
    Except Refusal Unit :=
  match documentType with
  | .markdown | .text =>
    if (decodeUtf8 content).isNone then
      .error (.rejected ⟨metadata, content.length, .uploadTextEncodingInvalid⟩)
    else .ok ()
  | .pdf =>
    if content.take 5 ≠ [0x25, 0x50, 0x44, 0x46, 0x2D] then
      .error (.rejected ⟨metadata, content.length, .uploadSignatureMismatch⟩)
    else .ok ()
  | .openapiYaml | .openapiJson => .ok ()

/-- The metadata under which an upload is rejected that has none of its own. -/
def rejectedUpload : UploadMetadata :=
  ⟨lit "rejected-upload", lit "application/octet-stream", lit "identity"⟩

/-- `receive` up to the first question to the repository. -/
def inspect (r : Runtime) (policy : UploadPolicy) (u : Upload) : Except Refusal Candidate :=
  match safeMetadata r.unicode u.filename u.contentType u.contentEncoding with
  | .error code => .error (.rejected ⟨rejectedUpload, 0, code⟩)
  | .ok metadata =>
    match fileTypes.lookup (r.unicode.lower (suffix metadata.filename)) with
    | none => .error (.rejected ⟨metadata, 0, .uploadTypeUnsupported⟩)
    | some profile =>
      if profile.contentTypes.contains metadata.contentType then do
        let limit := min profile.limit policy.maxRawBytes
        checkContentLength r.unicode limit metadata u.contentLength
        let content ← readStream limit metadata u.breaksOff [] u.stream
        checkContent profile.documentType metadata content
        return ⟨metadata, profile.documentType, content, r.sha256 content⟩
      else .error (.rejected ⟨metadata, 0, .uploadTypeMismatch⟩)

/-! ## The repository -/

/-- `DocumentIntake`: a row, and whether an earlier upload wrote it. -/
structure DocumentIntake extends DocumentIntakeRecord where
  deduplicated : Bool

/-- `DocumentIntakeUnavailable` -/
inductive IntakeUnavailable where
  | raised
deriving DecidableEq

def intakeFromRecord (record : DocumentIntakeRecord) (deduplicated : Bool) : DocumentIntake :=
  ⟨record, deduplicated⟩

/-- The quarantined intakes of a project. -/
def Tables.quarantined (t : Tables) (projectId : Uuid) : List DocumentIntakeRecord :=
  t.documentIntakes.filter fun r => r.projectId = projectId ∧ r.state = .quarantined

def findQuarantinedHash (s : Session) (projectId : Uuid) (contentSha256 : Str) (t : Tables) :
    Except IntakeUnavailable (Option DocumentIntake) :=
  if s.fails then .error .raised
  else
    let rows := (t.quarantined projectId).filter fun r => r.contentSha256 = some contentSha256
    .ok ((firstBy (fun a b => inOrder (a.createdAt, a.id) (b.createdAt, b.id)) rows).map fun r =>
      intakeFromRecord r true)

/-- The number of quarantined files of a project, and their bytes. -/
def Tables.usage (t : Tables) (projectId : Uuid) : Nat × Nat :=
  ((t.quarantined projectId).length, ((t.quarantined projectId).map (·.byteSize)).sum)

def projectUsage (s : Session) (projectId : Uuid) (t : Tables) :
    Except IntakeUnavailable (Nat × Nat) :=
  if s.fails then .error .raised else .ok (t.usage projectId)

def rejectedRow (s : Session) (projectId : Uuid) (r : Rejection) : DocumentIntakeRecord where
  id := s.newId 0
  projectId := projectId
  documentId := none
  documentVersionId := none
  state := .rejected
  quarantineKey := none
  originalFilename := r.metadata.filename
  declaredContentType := r.metadata.contentType
  byteSize := r.byteSize
  contentSha256 := none
  rejectionCode := some r.code
  createdAt := s.now

/-- The primary key of `document_intakes`, and its unique columns where they are not null. -/
def Tables.admitsIntake (t : Tables) (row : DocumentIntakeRecord) : Bool :=
  t.documentIntakes.all fun r => r.id ≠ row.id &&
    (row.documentVersionId.isNone || r.documentVersionId ≠ row.documentVersionId) &&
    (row.quarantineKey.isNone || r.quarantineKey ≠ row.quarantineKey)

def recordRejection (s : Session) (projectId : Uuid) (r : Rejection) (t : Tables) :
    Except IntakeUnavailable DocumentIntake × Tables :=
  if s.fails || !t.admitsIntake (rejectedRow s projectId r) then (.error .raised, t)
  else
    (.ok (intakeFromRecord (rejectedRow s projectId r) false),
      { t with documentIntakes := t.documentIntakes ++ [rejectedRow s projectId r] })

/-- The arguments of `create_quarantined`. -/
structure Admission where
  projectId : Uuid
  metadata : UploadMetadata
  documentType : DocumentType
  byteSize : Nat
  contentSha256 : Str
  quarantineKey : QuarantineKey

/-- The document that an admission adds a version to. -/
def Tables.documentOf (t : Tables) (a : Admission) : Option DocumentRecord :=
  firstBy (fun a b => inOrder (a.createdAt, a.id) (b.createdAt, b.id)) (t.documents.filter fun d =>
    d.projectId = a.projectId ∧ d.documentType = a.documentType ∧
      d.displayName = a.metadata.filename)

def Tables.nextVersionNumber (t : Tables) (documentId : Uuid) : Nat :=
  ((t.documentVersions.filter fun v => v.documentId = documentId).map (·.versionNumber)).foldl
    max 0 + 1

/-- The parser version of a document that no parser has read. -/
def Tables.pendingParser (t : Tables) : Option ParserVersionRecord :=
  t.parserVersions.find? fun p => p.parserName = "quarantine-pending" ∧ p.parserVersion = "v1" ∧
    p.normalizationVersion = "pending"

/-- The rows of one admission, found or new. -/
structure AdmissionRows where
  document : DocumentRecord
  parserVersion : ParserVersionRecord
  version : DocumentVersionRecord
  intake : DocumentIntakeRecord

def newDocument (s : Session) (a : Admission) : DocumentRecord :=
  ⟨s.newId 0, a.projectId, a.documentType, a.metadata.filename, s.now⟩

def newPendingParser (s : Session) : ParserVersionRecord :=
  ⟨s.newId 1, "quarantine-pending", "v1", "pending", s.now⟩

def admissionRows (s : Session) (a : Admission) (t : Tables) : AdmissionRows :=
  let document := (t.documentOf a).getD (newDocument s a)
  let parserVersion := t.pendingParser.getD (newPendingParser s)
  let version : DocumentVersionRecord :=
    { id := s.newId 2
      documentId := document.id
      parserVersionId := parserVersion.id
      versionNumber := if (t.documentOf a).isNone then 1 else t.nextVersionNumber document.id
      contentSha256 := a.contentSha256
      byteSize := a.byteSize
      contentType := a.metadata.contentType
      createdAt := s.now }
  { document := document
    parserVersion := parserVersion
    version := version
    intake :=
      { id := s.newId 3
        projectId := a.projectId
        documentId := some document.id
        documentVersionId := some version.id
        state := .quarantined
        quarantineKey := some a.quarantineKey
        originalFilename := a.metadata.filename
        declaredContentType := a.metadata.contentType
        byteSize := a.byteSize
        contentSha256 := some a.contentSha256
        rejectionCode := none
        createdAt := s.now } }

/-- The keys and checks that the new rows meet. -/
def Tables.admitsRows (t : Tables) (a : Admission) (rows : AdmissionRows) : Bool :=
  ((t.documentOf a).isSome || t.documents.all (·.id ≠ rows.document.id)) &&
    (t.pendingParser.isSome || t.parserVersions.all (·.id ≠ rows.parserVersion.id)) &&
    t.documentVersions.all (fun v => v.id ≠ rows.version.id &&
      !(v.documentId = rows.version.documentId && v.versionNumber = rows.version.versionNumber)) &&
    rows.version.contentSha256.length = 64 && t.admitsIntake rows.intake

def Tables.insertRows (t : Tables) (a : Admission) (rows : AdmissionRows) : Tables :=
  { t with
    documents := if (t.documentOf a).isSome then t.documents else t.documents ++ [rows.document]
    parserVersions :=
      if t.pendingParser.isSome then t.parserVersions else t.parserVersions ++ [rows.parserVersion]
    documentVersions := t.documentVersions ++ [rows.version]
    documentIntakes := t.documentIntakes ++ [rows.intake] }

def createQuarantined (s : Session) (a : Admission) (t : Tables) :
    Except IntakeUnavailable DocumentIntake × Tables :=
  if s.fails || !t.admitsRows a (admissionRows s a t) then (.error .raised, t)
  else
    (.ok (intakeFromRecord (admissionRows s a t).intake false),
      t.insertRows a (admissionRows s a t))

/-! ## The parser queue -/

/-- `ParserJobQueueUnavailable` -/
inductive QueueUnavailable where
  | raised
deriving DecidableEq

structure ParserJob where
  documentIntakeId : Uuid

def newParserJob (s : Session) (job : ParserJob) : ParserJobRecord :=
  ⟨s.newId 0, job.documentIntakeId, .queuedAt s.now⟩

/-- The primary key, the unique intake and the foreign key of `parser_jobs`. -/
def Tables.admitsParserJob (t : Tables) (row : ParserJobRecord) : Bool :=
  t.parserJobs.all (fun j => j.id ≠ row.id && j.documentIntakeId ≠ row.documentIntakeId) &&
    t.documentIntakes.any (·.id = row.documentIntakeId)

/-- A job refused by a key is there already, or the queue is unavailable. -/
def enqueue (s : Session) (job : ParserJob) (t : Tables) : Except QueueUnavailable Unit × Tables :=
  if s.fails then (.error .raised, t)
  else if t.admitsParserJob (newParserJob s job) then
    (.ok (), { t with parserJobs := t.parserJobs ++ [newParserJob s job] })
  else if t.parserJobs.any (·.documentIntakeId = job.documentIntakeId) then (.ok (), t)
  else (.error .raised, t)

/-! ## The service -/

/-- The database, and the objects in quarantine with their content types. -/
structure Stores where
  tables : Tables
  objects : List (QuarantineKey × Bytes × Str)

/-- What an operation meets. A storage call that fails may have `landed` all the same. -/
structure Call where
  session : Session
  landed : Bool

def put (c : Call) (key : QuarantineKey) (content : Bytes) (contentType : Str) (s : Stores) :
    Except IntakeUnavailable Unit × Stores :=
  if s.objects.any (·.1 = key) then (.error .raised, s)
  else if c.session.fails then
    (.error .raised,
      if c.landed then { s with objects := s.objects ++ [(key, content, contentType)] } else s)
  else (.ok (), { s with objects := s.objects ++ [(key, content, contentType)] })

def delete (c : Call) (key : QuarantineKey) (s : Stores) : Except IntakeUnavailable Unit × Stores :=
  if c.session.fails && !c.landed then (.error .raised, s)
  else
    (if c.session.fails then .error .raised else .ok (),
      { s with objects := s.objects.filter (·.1 ≠ key) })

inductive Op where
  | recordRejection (projectId : Uuid) (r : Rejection)
  | findQuarantinedHash (projectId : Uuid) (contentSha256 : Str)
  | projectUsage (projectId : Uuid)
  | put (key : QuarantineKey) (content : Bytes) (contentType : Str)
  | createQuarantined (a : Admission)
  | delete (key : QuarantineKey)
  | enqueue (job : ParserJob)

abbrev Op.Answer : Op → Type
  | .recordRejection .. | .createQuarantined _ => Except IntakeUnavailable DocumentIntake
  | .findQuarantinedHash .. => Except IntakeUnavailable (Option DocumentIntake)
  | .projectUsage _ => Except IntakeUnavailable (Nat × Nat)
  | .put .. | .delete _ => Except IntakeUnavailable Unit
  | .enqueue _ => Except QueueUnavailable Unit

def Op.exec : (o : Op) → Call → Stores → o.Answer × Stores
  | .recordRejection projectId r, c, s =>
    ((Ingestion.recordRejection c.session projectId r s.tables).1,
      { s with tables := (Ingestion.recordRejection c.session projectId r s.tables).2 })
  | .findQuarantinedHash projectId contentSha256, c, s =>
    (Ingestion.findQuarantinedHash c.session projectId contentSha256 s.tables, s)
  | .projectUsage projectId, c, s => (Ingestion.projectUsage c.session projectId s.tables, s)
  | .put key content contentType, c, s => Ingestion.put c key content contentType s
  | .createQuarantined a, c, s =>
    ((Ingestion.createQuarantined c.session a s.tables).1,
      { s with tables := (Ingestion.createQuarantined c.session a s.tables).2 })
  | .delete key, c, s => Ingestion.delete c key s
  | .enqueue job, c, s =>
    ((Ingestion.enqueue c.session job s.tables).1,
      { s with tables := (Ingestion.enqueue c.session job s.tables).2 })

/-- What `receive` raises. -/
inductive ReceiveError where
  | documentIntakeUnavailable
  | streamBroken
deriving DecidableEq

abbrev Receiving := Prog Op Op.Answer (Except ReceiveError DocumentIntake)

def unavailable : Receiving := .ret (.error .documentIntakeUnavailable)

/-- `_reject` -/
def reject (projectId : Uuid) (r : Rejection) : Receiving := do
  match ← perform (Op.recordRejection projectId r) with
  | .ok intake => pure (.ok intake)
  | .error _ => unavailable

/-- `_enqueue_parser_job`, and the return of the intake. -/
def enqueueParserJob (intake : DocumentIntake) : Receiving := do
  match ← perform (Op.enqueue ⟨intake.id⟩) with
  | .ok _ => pure (.ok intake)
  | .error _ => unavailable

/-- The compensating delete; whether it fails or not, the first failure is raised again. -/
def discard (key : QuarantineKey) : Receiving := do
  match ← perform (Op.delete key) with
  | .ok _ | .error _ => unavailable

def quarantineKey (u : Upload) : QuarantineKey := ⟨u.projectId, u.objectId⟩

def admission (u : Upload) (c : Candidate) : Admission :=
  ⟨u.projectId, c.metadata, c.documentType, c.content.length, c.contentSha256, quarantineKey u⟩

def create (u : Upload) (c : Candidate) : Receiving := do
  match ← perform (Op.createQuarantined (admission u c)) with
  | .ok intake => enqueueParserJob intake
  | .error _ => discard (quarantineKey u)

def store (u : Upload) (c : Candidate) : Receiving := do
  match ← perform (Op.put (quarantineKey u) c.content c.metadata.contentType) with
  | .ok _ => create u c
  | .error _ => discard (quarantineKey u)

def measure (policy : UploadPolicy) (u : Upload) (c : Candidate) : Receiving := do
  match ← perform (Op.projectUsage u.projectId) with
  | .error _ => unavailable
  | .ok (fileCount, projectByteSize) =>
    if policy.maxFilesPerProject ≤ fileCount then
      reject u.projectId ⟨c.metadata, c.content.length, .uploadFileCountLimit⟩
    else if policy.maxTotalBytesPerProject < projectByteSize + c.content.length then
      reject u.projectId ⟨c.metadata, c.content.length, .uploadProjectSizeLimit⟩
    else store u c

def admitCandidate (policy : UploadPolicy) (u : Upload) (c : Candidate) : Receiving := do
  match ← perform (Op.findQuarantinedHash u.projectId c.contentSha256) with
  | .error _ => unavailable
  | .ok (some existing) => enqueueParserJob existing
  | .ok none => measure policy u c

def receive (r : Runtime) (policy : UploadPolicy) (u : Upload) : Receiving :=
  match inspect r policy u with
  | .error (.rejected rejection) => reject u.projectId rejection
  | .error .streamBroken => .ret (.error .streamBroken)
  | .ok candidate => admitCandidate policy u candidate

end QaCopilot.Ingestion
