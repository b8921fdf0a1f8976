import Mathlib.Data.List.Sort
import QaCopilot.Indexing.Chunking
import QaCopilot.Ingestion.ParserLease
import QaCopilot.Lib.Program

/-!
# Indexing

`indexing.py`, `indexing_job_claims.py` and `indexing_worker.py`: sections are chunked, the hash of
each chunk is embedded once for its project, and every chunk is attached to its embedding. `index`
and `runOnce` are programs, one operation a transaction.
-/

namespace QaCopilot.Indexing

open QaCopilot.Python QaCopilot.Program QaCopilot.Table QaCopilot.Leases QaCopilot.Ingestion

structure IndexedChunk where
  id : Uuid
  contentSha256 : Str
  normalizedText : Str
deriving DecidableEq

structure CachedEmbedding where
  id : Uuid
  projectId : Uuid
  contentSha256 : Str
  configuration : EmbeddingConfiguration
  values : List PyFloat
deriving DecidableEq

structure IndexingResult where
  documentVersionId : Uuid
  chunkCount : Nat
  chunksCreated : Nat
  embeddingsCreated : Nat
  embeddingCacheHits : Nat
deriving DecidableEq

/-- `IndexingUnavailable`, `EmbeddingProtocolError`, another `ValueError`, and any exception that
the adapter raises beside these. -/
inductive IndexError where
  | unavailable
  | protocol
  | value
  | other
deriving DecidableEq

/-- `math.isfinite` -/
def isFinite : PyFloat → Bool
  | .finite _ => true
  | _ => false

/-- `CachedEmbedding.validate` -/
def validVector (values : List PyFloat) : Bool := values ≠ [] && values.all isFinite

/-! ## Store -/

/-- The version belongs to a document of the project. -/
def owns (t : Tables) (projectId documentVersionId : Uuid) : Bool :=
  t.documentVersions.any fun v => v.id = documentVersionId &&
    t.documents.any fun d => d.id = v.documentId && d.projectId = projectId

/-- The sections of a version, `ORDER BY ordinal, id`. -/
def sectionsOf (t : Tables) (documentVersionId : Uuid) : List NormalizedSection :=
  ((t.documentSections.filter (·.documentVersionId = documentVersionId)).insertionSort fun a b =>
    a.ordinal < b.ordinal || (a.ordinal == b.ordinal && a.id ≤ b.id)).map fun s =>
      ⟨s.id, s.sourceLocationId, s.ordinal, s.normalizedText⟩

def chunkRows (t : Tables) (documentVersionId : Uuid) (chunkingVersion : Str) :
    List DocumentChunkRecord :=
  t.documentChunks.filter fun c =>
    c.documentVersionId = documentVersionId && c.chunkingVersion = chunkingVersion

/-- The chunks of a version, `ORDER BY ordinal, id`. -/
def chunksOf (t : Tables) (documentVersionId : Uuid) (chunkingVersion : Str) :
    List DocumentChunkRecord :=
  (chunkRows t documentVersionId chunkingVersion).insertionSort fun a b =>
    a.ordinal < b.ordinal || (a.ordinal == b.ordinal && a.id ≤ b.id)

def indexedChunk (c : DocumentChunkRecord) : IndexedChunk := ⟨c.id, c.contentSha256, c.normalizedText⟩

/-- `sections_for_version` -/
def sectionsForVersion (s : Session) (projectId documentVersionId : Uuid) (t : Tables) :
    Except IndexError (List NormalizedSection) :=
  if s.fails then .error .unavailable
  else if owns t projectId documentVersionId then .ok (sectionsOf t documentVersionId)
  else .ok []

/-- `chunks_for_version` -/
def chunksForVersion (s : Session) (documentVersionId : Uuid) (chunkingVersion : Str) (t : Tables) :
    Except IndexError (List IndexedChunk) :=
  if s.fails then .error .unavailable
  else .ok ((chunksOf t documentVersionId chunkingVersion).map indexedChunk)

def newChunk (documentVersionId id : Uuid) (d : ChunkDraft) : DocumentChunkRecord where
  id := id
  documentVersionId := documentVersionId
  documentSectionId := d.sectionId
  sourceLocationId := d.sourceLocationId
  ordinal := d.ordinal
  normalizedText := d.normalizedText
  contentSha256 := d.contentSha256
  chunkingVersion := d.chunkingVersion

/-- The rows of the drafts, with the ids that the session draws. -/
def newChunks (s : Session) (documentVersionId : Uuid) (drafts : List ChunkDraft) :
    List DocumentChunkRecord :=
  drafts.mapIdx fun i d => newChunk documentVersionId (s.newId i) d

/-- The keys that new chunks meet. -/
def admitsChunks (t : Tables) (rows : List DocumentChunkRecord) : Bool :=
  decide ((t.documentChunks ++ rows).map (·.id)).Nodup &&
    rows.all fun r =>
      t.documentSections.any (fun s => s.id = r.documentSectionId &&
        s.documentVersionId = r.documentVersionId) &&
      t.sourceLocations.any fun l => l.id = r.sourceLocationId &&
        l.documentVersionId = r.documentVersionId

/-- `create_chunks` -/
def createChunks (s : Session) (documentVersionId : Uuid) (drafts : List ChunkDraft) (t : Tables) :
    Except IndexError (List IndexedChunk) × Tables :=
  match drafts with
  | [] => (.ok [], t)
  | first :: rest =>
    if rest.any (·.chunkingVersion ≠ first.chunkingVersion) then (.error .value, t)
    else if s.fails then (.error .unavailable, t)
    else
      match chunksOf t documentVersionId first.chunkingVersion with
      | [] =>
        let rows := newChunks s documentVersionId (first :: rest)
        if admitsChunks t rows then
          (.ok (rows.map indexedChunk), { t with documentChunks := t.documentChunks ++ rows })
        else (.error .unavailable, t)
      | existing => (.ok (existing.map indexedChunk), t)

/-- `_cached_embedding_from_record` -/
def cachedEmbeddingFromRecord (r : EmbeddingCacheRecord) : Except IndexError CachedEmbedding :=
  if validVector r.values then
    .ok ⟨r.id, r.projectId, r.contentSha256, ⟨r.embeddingModel, r.embeddingVersion⟩, r.values⟩
  else .error .protocol

def isEntry (projectId : Uuid) (contentSha256 : Str) (c : EmbeddingConfiguration)
    (r : EmbeddingCacheRecord) : Bool :=
  r.projectId = projectId && r.contentSha256 = contentSha256 && r.embeddingModel = c.model &&
    r.embeddingVersion = c.version

/-- `cached_embedding` -/
def cachedEmbedding (s : Session) (projectId : Uuid) (contentSha256 : Str)
    (c : EmbeddingConfiguration) (t : Tables) : Except IndexError (Option CachedEmbedding) :=
  if s.fails then .error .unavailable
  else
    match t.embeddingCacheEntries.find? (isEntry projectId contentSha256 c) with
    | none => .ok none
    | some r => (cachedEmbeddingFromRecord r).map some

def newEntry (s : Session) (projectId : Uuid) (contentSha256 : Str) (c : EmbeddingConfiguration)
    (values : List PyFloat) : EmbeddingCacheRecord :=
  ⟨s.newId 0, projectId, contentSha256, c.model, c.version, values.length, values, s.now⟩

/-- `create_embedding` -/
def createEmbedding (s : Session) (projectId : Uuid) (contentSha256 : Str)
    (c : EmbeddingConfiguration) (values : List PyFloat) (t : Tables) :
    Except IndexError CachedEmbedding × Tables :=
  if !validVector values then (.error .protocol, t)
  else if s.fails then (.error .unavailable, t)
  else
    match t.embeddingCacheEntries.find? (isEntry projectId contentSha256 c) with
    | some r => (cachedEmbeddingFromRecord r, t)
    | none =>
      if t.embeddingCacheEntries.any (·.id = s.newId 0) then (.error .unavailable, t)
      else
        (.ok ⟨s.newId 0, projectId, contentSha256, c, values⟩,
          { t with
            embeddingCacheEntries :=
              t.embeddingCacheEntries ++ [newEntry s projectId contentSha256 c values] })

def isAttachment (chunkId : Uuid) (c : EmbeddingConfiguration) (r : DocumentChunkEmbeddingRecord) :
    Bool :=
  r.documentChunkId = chunkId && r.embeddingModel = c.model && r.embeddingVersion = c.version

/-- `attach_embedding` -/
def attachEmbedding (s : Session) (chunkId embeddingId : Uuid) (c : EmbeddingConfiguration)
    (t : Tables) : Except IndexError Unit × Tables :=
  if s.fails then (.error .unavailable, t)
  else
    match t.documentChunkEmbeddings.find? (isAttachment chunkId c) with
    | some r => (if r.embeddingCacheId = embeddingId then .ok () else .error .unavailable, t)
    | none =>
      if t.documentChunkEmbeddings.any (·.id = s.newId 0) || !t.documentChunks.any (·.id = chunkId) ||
          !t.embeddingCacheEntries.any (·.id = embeddingId) then (.error .unavailable, t)
      else
        (.ok (),
          { t with
            documentChunkEmbeddings := t.documentChunkEmbeddings ++
              [⟨s.newId 0, chunkId, embeddingId, c.model, c.version, s.now⟩] })

/-! ## Job claims -/

structure ClaimedIndexingJob where
  jobId : Uuid
  projectId : Uuid
  documentVersionId : Uuid
  chunkingVersion : Str
  embeddingModel : Str
  embeddingVersion : Str
  claimToken : Uuid
  claimedAt : Int
  claimExpiresAt : Int
deriving DecidableEq

def ClaimedIndexingJob.claim (c : ClaimedIndexingJob) : Claim Uuid :=
  ⟨c.claimToken, c.claimedAt, c.claimExpiresAt⟩

/-- The arguments of `SqlAlchemyIndexingJobClaims`; the duration is positive. -/
structure IndexingClaims where
  documentVersionId : Option Uuid
  chunkingVersion : Str
  embedding : EmbeddingConfiguration
  duration : Nat
  lasts : 0 < duration

def IndexingClaims.scope (p : IndexingClaims) (j : IndexingJobRecord) : Bool :=
  p.documentVersionId.all (j.documentVersionId = ·) && j.chunkingVersion = p.chunkingVersion &&
    j.embeddingModel = p.embedding.model && j.embeddingVersion = p.embedding.version

/-- What `claim_next` returns for a job. -/
def IndexingClaims.claimOf (p : IndexingClaims) (s : Session) (j : IndexingJobRecord) :
    ClaimedIndexingJob where
  jobId := j.id
  projectId := j.projectId
  documentVersionId := j.documentVersionId
  chunkingVersion := j.chunkingVersion
  embeddingModel := j.embeddingModel
  embeddingVersion := j.embeddingVersion
  claimToken := s.newId 0
  claimedAt := s.now
  claimExpiresAt := s.now + p.duration

/-- `claim_next` -/
def claimNext (p : IndexingClaims) (s : Session) (t : Tables) :
    Except ClaimError (Option ClaimedIndexingJob) × Tables :=
  if s.fails then (.error .unavailable, t)
  else
    match firstBy (fun a b => inOrder (a.lease.createdAt, a.id) (b.lease.createdAt, b.id))
        (t.indexingJobs.filter fun j =>
          j.lease.state = .queued && j.lease.createdAt ≤ s.now && p.scope j) with
    | none => (.ok none, t)
    | some j =>
      (.ok (some (p.claimOf s j)),
        { t with
          indexingJobs := updateWhere (fun r => r.id = j.id && r.lease.state = .queued && p.scope r)
            (fun r => { r with lease := r.lease.claim (p.claimOf s j).claim }) t.indexingJobs })

/-- The claim is that of the row, and lasts at `now`. -/
def ClaimedIndexingJob.holds (c : ClaimedIndexingJob) (now : Int) (r : IndexingJobRecord) : Bool :=
  r.id = c.jobId && r.projectId = c.projectId && r.documentVersionId = c.documentVersionId &&
    r.chunkingVersion = c.chunkingVersion && r.embeddingModel = c.embeddingModel &&
    r.embeddingVersion = c.embeddingVersion && r.lease.state = .claimed && r.lease.heldBy c.claim now

/-- `_finish` -/
def finish (p : IndexingClaims) (s : Session) (c : ClaimedIndexingJob) (outcome : IndexingOutcome)
    (code : Option IndexingFailureCode) (t : Tables) : Except ClaimError Unit × Tables :=
  let held (r : IndexingJobRecord) : Bool := p.scope r && c.holds s.now r
  if s.fails then (.error .unavailable, t)
  else if t.indexingJobs.any held then
    (.ok (),
      { t with
        indexingJobs := updateWhere held
          (fun r => { r with lease := r.lease.finish outcome s.now code }) t.indexingJobs })
  else (.error .rejected, t)

/-- `accept` -/
def acceptIndexing (p : IndexingClaims) (s : Session) (c : ClaimedIndexingJob) :
    Tables → Except ClaimError Unit × Tables :=
  finish p s c .accepted none

/-- `fail` -/
def failIndexing (p : IndexingClaims) (s : Session) (c : ClaimedIndexingJob) :
    Tables → Except ClaimError Unit × Tables :=
  finish p s c .failed (some .workerFailed)

/-- `expire_claims` -/
def expireClaims (p : IndexingClaims) (s : Session) (t : Tables) : Except ClaimError Nat × Tables :=
  let lapsed (r : IndexingJobRecord) : Bool :=
    r.lease.state = .claimed && p.scope r && r.lease.lapsed s.now
  if s.fails then (.error .unavailable, t)
  else
    (.ok (t.indexingJobs.filter lapsed).length,
      { t with
        indexingJobs := updateWhere lapsed
          (fun r => { r with lease := r.lease.finish .failed s.now (some .claimExpired) })
          t.indexingJobs })

/-! ## Operations -/

inductive Op where
  | ingest (i : Input)
  | sectionsForVersion (projectId documentVersionId : Uuid)
  | chunksForVersion (documentVersionId : Uuid) (chunkingVersion : Str)
  | createChunks (documentVersionId : Uuid) (drafts : List ChunkDraft)
  | cachedEmbedding (projectId : Uuid) (contentSha256 : Str) (c : EmbeddingConfiguration)
  | embed (texts : List Str) (c : EmbeddingConfiguration)
  | createEmbedding (projectId : Uuid) (contentSha256 : Str) (c : EmbeddingConfiguration)
    (values : List PyFloat)
  | attachEmbedding (chunkId embeddingId : Uuid) (c : EmbeddingConfiguration)
  | claimNext (p : IndexingClaims)
  | accept (p : IndexingClaims) (c : ClaimedIndexingJob)
  | fail (p : IndexingClaims) (c : ClaimedIndexingJob)
  | expireClaims (p : IndexingClaims)

/-- An operation, and the claim on behalf of which it is performed. -/
structure Action where
  behalf : Option ClaimedIndexingJob
  op : Op

abbrev Op.Answer : Op → Type
  | .ingest _ => Unit
  | .sectionsForVersion .. => Except IndexError (List NormalizedSection)
  | .chunksForVersion .. | .createChunks .. => Except IndexError (List IndexedChunk)
  | .cachedEmbedding .. => Except IndexError (Option CachedEmbedding)
  | .embed .. => Except IndexError (List (List PyFloat))
  | .createEmbedding .. => Except IndexError CachedEmbedding
  | .attachEmbedding .. => Except IndexError Unit
  | .claimNext _ => Except ClaimError (Option ClaimedIndexingJob)
  | .accept .. | .fail .. => Except ClaimError Unit
  | .expireClaims _ => Except ClaimError Nat

abbrev Action.Answer (a : Action) : Type := a.op.Answer

/-- What an operation meets: a session, and what the adapter answers. -/
structure Env where
  session : Session
  vectors : Except IndexError (List (List PyFloat))

def Op.exec (rt : ParserRuntime) : (o : Op) → Env → Tables → o.Answer × Tables
  | .ingest i, _, t => ((), step rt t i)
  | .sectionsForVersion projectId documentVersionId, e, t =>
    (Indexing.sectionsForVersion e.session projectId documentVersionId t, t)
  | .chunksForVersion documentVersionId chunkingVersion, e, t =>
    (Indexing.chunksForVersion e.session documentVersionId chunkingVersion t, t)
  | .createChunks documentVersionId drafts, e, t =>
    Indexing.createChunks e.session documentVersionId drafts t
  | .cachedEmbedding projectId contentSha256 c, e, t =>
    (Indexing.cachedEmbedding e.session projectId contentSha256 c t, t)
  | .embed _ _, e, t => (e.vectors, t)
  | .createEmbedding projectId contentSha256 c values, e, t =>
    Indexing.createEmbedding e.session projectId contentSha256 c values t
  | .attachEmbedding chunkId embeddingId c, e, t =>
    Indexing.attachEmbedding e.session chunkId embeddingId c t
  | .claimNext p, e, t => Indexing.claimNext p e.session t
  | .accept p c, e, t => acceptIndexing p e.session c t
  | .fail p c, e, t => failIndexing p e.session c t
  | .expireClaims p, e, t => Indexing.expireClaims p e.session t

def Action.exec (rt : ParserRuntime) (a : Action) : Env → Tables → a.Answer × Tables :=
  a.op.exec rt

/-! ## The service -/

/-- The configurations of an `IndexingService`, which its constructor validates. -/
structure IndexingService where
  chunking : ChunkingConfiguration
  embedding : EmbeddingConfiguration
  valid : embedding.valid = true

abbrev Indexes (α : Type) := Prog Action Action.Answer (Except IndexError α)

def doing (behalf : Option ClaimedIndexingJob) (o : Op) : Prog Action Action.Answer o.Answer :=
  perform (Action.mk behalf o)

/-- Goes on with the value of a call that did not raise. -/
def andThen {α β : Type} (p : Indexes α) (f : α → Indexes β) : Indexes β :=
  p.bind fun
    | .ok a => f a
    | .error e => .ret (.error e)

/-- `cache`, `misses` and `hits` of `index`. -/
structure Found where
  cache : List (Str × CachedEmbedding)
  misses : List (Str × Str)
  hits : Nat

/-- `misses.setdefault(...)` -/
def Found.miss (f : Found) (c : IndexedChunk) : Found :=
  if (f.misses.lookup c.contentSha256).isSome then f
  else { f with misses := f.misses ++ [(c.contentSha256, c.normalizedText)] }

def Found.hit (f : Found) (c : IndexedChunk) (e : CachedEmbedding) : Found :=
  { f with cache := (c.contentSha256, e) :: f.cache, hits := f.hits + 1 }

/-- The chunks are looked up in the cache. -/
def lookUp (behalf : Option ClaimedIndexingJob) (v : IndexingService) (projectId : Uuid) :
    Found → List IndexedChunk → Indexes Found
  | f, [] => .ret (.ok f)
  | f, c :: chunks =>
    andThen (doing behalf (.cachedEmbedding projectId c.contentSha256 v.embedding)) fun
      | none => lookUp behalf v projectId (f.miss c) chunks
      | some cached =>
        if validVector cached.values then lookUp behalf v projectId (f.hit c cached) chunks
        else .ret (.error .protocol)

/-- The new vectors are stored. -/
def createAll (behalf : Option ClaimedIndexingJob) (v : IndexingService) (projectId : Uuid) :
    List (Str × CachedEmbedding) → List (Str × List PyFloat) → Indexes (List (Str × CachedEmbedding))
  | cache, [] => .ret (.ok cache)
  | cache, (contentSha256, values) :: rest =>
    andThen (doing behalf (.createEmbedding projectId contentSha256 v.embedding values)) fun cached =>
      if validVector cached.values then
        createAll behalf v projectId ((contentSha256, cached) :: cache) rest
      else .ret (.error .protocol)

/-- The misses are embedded in one request and stored. -/
def embedMisses (behalf : Option ClaimedIndexingJob) (v : IndexingService) (projectId : Uuid)
    (f : Found) : Indexes (List (Str × CachedEmbedding)) :=
  match f.misses with
  | [] => .ret (.ok f.cache)
  | misses =>
    andThen (doing behalf (.embed (misses.map (·.2)) v.embedding)) fun vectors =>
      if vectors.length ≠ misses.length then .ret (.error .protocol)
      else createAll behalf v projectId f.cache ((misses.map (·.1)).zip vectors)

/-- Every chunk is attached; a hash that is in no cache is a `KeyError`. -/
def attachAll (behalf : Option ClaimedIndexingJob) (v : IndexingService)
    (cache : List (Str × CachedEmbedding)) : List IndexedChunk → Indexes Unit
  | [] => .ret (.ok ())
  | c :: chunks =>
    match cache.lookup c.contentSha256 with
    | none => .ret (.error .other)
    | some cached =>
      andThen (doing behalf (.attachEmbedding c.id cached.id v.embedding)) fun _ =>
        attachAll behalf v cache chunks

/-- `index` once it has its chunks. -/
def embedAndAttach (behalf : Option ClaimedIndexingJob) (v : IndexingService)
    (projectId documentVersionId : Uuid) (created : Nat) (chunks : List IndexedChunk) :
    Indexes IndexingResult :=
  andThen (lookUp behalf v projectId ⟨[], [], 0⟩ chunks) fun f =>
    andThen (embedMisses behalf v projectId f) fun cache =>
      andThen (attachAll behalf v cache chunks) fun _ =>
        .ret (.ok ⟨documentVersionId, chunks.length, created, f.misses.length, f.hits⟩)

/-- `sorted(..., key=lambda section: section.ordinal)` -/
def byOrdinal (sections : List NormalizedSection) : List NormalizedSection :=
  sections.insertionSort fun a b => a.ordinal ≤ b.ordinal

/-- `index` once it has read the chunks of the version. -/
def indexChunks (rt : ParserRuntime) (behalf : Option ClaimedIndexingJob) (v : IndexingService)
    (projectId documentVersionId : Uuid) (sections : List NormalizedSection) :
    List IndexedChunk → Indexes IndexingResult
  | [] =>
    match chunkSections rt.sha256 v.chunking 0 sections with
    | none => .ret (.error .value)
    | some drafts =>
      andThen (doing behalf (.createChunks documentVersionId drafts))
        fun (chunks : List IndexedChunk) =>
        embedAndAttach behalf v projectId documentVersionId chunks.length chunks
  | chunks => embedAndAttach behalf v projectId documentVersionId 0 chunks

/-- `index` once it has read the sections of the version. -/
def indexSections (rt : ParserRuntime) (behalf : Option ClaimedIndexingJob) (v : IndexingService)
    (projectId documentVersionId : Uuid) (sections : List NormalizedSection) :
    Indexes IndexingResult :=
  if (byOrdinal sections).all (·.valid) then
    andThen (doing behalf (.chunksForVersion documentVersionId v.chunking.version))
      (indexChunks rt behalf v projectId documentVersionId (byOrdinal sections))
  else .ret (.error .value)

/-- `index` -/
def index (rt : ParserRuntime) (behalf : Option ClaimedIndexingJob) (v : IndexingService)
    (projectId documentVersionId : Uuid) : Indexes IndexingResult :=
  andThen (doing behalf (.sectionsForVersion projectId documentVersionId))
    (indexSections rt behalf v projectId documentVersionId)

/-! ## The worker -/

/-- A worker of `create_indexing_worker`: its claims are those of its service's configuration. -/
structure IndexingWorker where
  service : IndexingService
  claims : IndexingClaims
  chunking : claims.chunkingVersion = service.chunking.version
  embedding : claims.embedding = service.embedding

inductive IndexingRun where
  | idle
  | accepted (result : IndexingResult)
  | failed
  | notPublished
  | raised
deriving DecidableEq

abbrev Work := Prog Action Action.Answer IndexingRun

/-- `_terminalize`, after which the worker may raise again what it handles. -/
def terminalize (w : IndexingWorker) (claim : ClaimedIndexingJob) (again : Bool) : Work := do
  match ← doing (some claim) (.fail w.claims claim) with
  | .ok _ => pure (if again then .raised else .failed)
  | .error .rejected => pure (if again then .raised else .notPublished)
  | .error .unavailable => pure .raised

/-- The claim after `index` has returned. -/
def publish (w : IndexingWorker) (claim : ClaimedIndexingJob) (result : IndexingResult) : Work := do
  match ← doing (some claim) (.accept w.claims claim) with
  | .ok _ => pure (.accepted result)
  | .error .rejected => pure .notPublished
  | .error .unavailable => terminalize w claim true

/-- `run_once` with a claim. -/
def work (rt : ParserRuntime) (w : IndexingWorker) (claim : ClaimedIndexingJob) : Work := do
  match ← index rt (some claim) w.service claim.projectId claim.documentVersionId with
  | .ok result => publish w claim result
  | .error .other => terminalize w claim true
  | .error _ => terminalize w claim false

/-- `run_once` -/
def runOnce (rt : ParserRuntime) (w : IndexingWorker) : Work := do
  match ← doing none (.claimNext w.claims) with
  | .error _ => pure .raised
  | .ok none => pure .idle
  | .ok (some claim) => work rt w claim

end QaCopilot.Indexing
