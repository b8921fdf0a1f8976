import QaCopilot.Lib.Lease
import QaCopilot.Lib.Table
import QaCopilot.Python.Float

/-!
# The tables of ingestion and indexing

One row type for each record class, with its columns, and the database that they form. A
timestamp is an instant counted from an epoch.
-/

namespace QaCopilot.Ingestion

open QaCopilot.Python QaCopilot.Leases

inductive DocumentType where
  | markdown
  | text
  | pdf
  | openapiYaml
  | openapiJson
deriving DecidableEq

inductive RejectionCode where
  | uploadFilenameInvalid
  | uploadContentTypeRequired
  | uploadContentEncodingUnsupported
  | uploadTypeUnsupported
  | uploadTypeMismatch
  | uploadContentLengthInvalid
  | uploadSizeLimit
  | uploadTextEncodingInvalid
  | uploadSignatureMismatch
  | uploadFileCountLimit
  | uploadProjectSizeLimit
deriving DecidableEq

inductive DocumentIntakeState where
  | quarantined
  | rejected
deriving DecidableEq

/-- `quarantine/{project_id}/{object_id}/raw` -/
structure QuarantineKey where
  projectId : Uuid
  objectId : Uuid
deriving DecidableEq

structure DocumentIntakeRecord where
  id : Uuid
  projectId : Uuid
  documentId : Option Uuid
  documentVersionId : Option Uuid
  state : DocumentIntakeState
  quarantineKey : Option QuarantineKey
  originalFilename : Str
  declaredContentType : Str
  byteSize : Nat
  contentSha256 : Option Str
  rejectionCode : Option RejectionCode
  createdAt : Int
deriving DecidableEq

structure DocumentRecord where
  id : Uuid
  projectId : Uuid
  documentType : DocumentType
  displayName : Str
  createdAt : Int
deriving DecidableEq

structure ParserVersionRecord where
  id : Uuid
  parserName : String
  parserVersion : String
  normalizationVersion : String
  createdAt : Int
deriving DecidableEq

structure DocumentVersionRecord where
  id : Uuid
  documentId : Uuid
  parserVersionId : Uuid
  versionNumber : Nat
  contentSha256 : Str
  byteSize : Nat
  contentType : Str
  createdAt : Int
deriving DecidableEq

/-- The terminal states of a parser job. -/
inductive ParserOutcome where
  | accepted
  | rejected
  | failed
deriving DecidableEq

inductive ParserFailureCode where
  | documentRejected
  | workerFailed
  | claimExpired
deriving DecidableEq

structure ParserJobRecord where
  id : Uuid
  documentIntakeId : Uuid
  lease : Lease Uuid ParserOutcome ParserFailureCode
deriving DecidableEq

structure SourceLocationRecord where
  id : Uuid
  documentVersionId : Uuid
  locationKind : String
  heading : Option Str
  lineStart : Option Nat
  lineEnd : Option Nat
deriving DecidableEq

structure DocumentSectionRecord where
  id : Uuid
  documentVersionId : Uuid
  sourceLocationId : Uuid
  ordinal : Nat
  sectionKey : Option Str
  normalizedText : Str
  contentSha256 : Str
deriving DecidableEq

inductive IndexingOutcome where
  | accepted
  | failed
deriving DecidableEq

inductive IndexingFailureCode where
  | workerFailed
  | claimExpired
deriving DecidableEq

structure IndexingJobRecord where
  id : Uuid
  projectId : Uuid
  documentVersionId : Uuid
  chunkingVersion : Str
  embeddingModel : Str
  embeddingVersion : Str
  lease : Lease Uuid IndexingOutcome IndexingFailureCode
deriving DecidableEq

structure DocumentChunkRecord where
  id : Uuid
  documentVersionId : Uuid
  documentSectionId : Uuid
  sourceLocationId : Uuid
  ordinal : Nat
  normalizedText : Str
  contentSha256 : Str
  chunkingVersion : Str
deriving DecidableEq

structure EmbeddingCacheRecord where
  id : Uuid
  projectId : Uuid
  contentSha256 : Str
  embeddingModel : Str
  embeddingVersion : Str
  dimensions : Nat
  values : List PyFloat
  createdAt : Int
deriving DecidableEq

structure DocumentChunkEmbeddingRecord where
  id : Uuid
  documentChunkId : Uuid
  embeddingCacheId : Uuid
  embeddingModel : Str
  embeddingVersion : Str
  createdAt : Int
deriving DecidableEq

structure Tables where
  documents : List DocumentRecord
  parserVersions : List ParserVersionRecord
  documentVersions : List DocumentVersionRecord
  documentIntakes : List DocumentIntakeRecord
  parserJobs : List ParserJobRecord
  sourceLocations : List SourceLocationRecord
  documentSections : List DocumentSectionRecord
  indexingJobs : List IndexingJobRecord
  documentChunks : List DocumentChunkRecord
  embeddingCacheEntries : List EmbeddingCacheRecord
  documentChunkEmbeddings : List DocumentChunkEmbeddingRecord
deriving DecidableEq

def Tables.empty : Tables := ⟨[], [], [], [], [], [], [], [], [], [], []⟩

/-- `ORDER BY created_at, id`. -/
def inOrder (a b : Int × Uuid) : Bool := a.1 < b.1 || (a.1 == b.1 && a.2 ≤ b.2)

/-- What one transaction meets: whether the database fails it, the ids it draws, and its clock. -/
structure Session where
  fails : Bool
  newId : Nat → Uuid
  now : Int

end QaCopilot.Ingestion
