import QaCopilot.Indexing.Service

/-!
# What indexing keeps

The rows that indexing writes and what they have to do with each other, whoever writes them.

* `Sound`: every chunk set is that of the sections of its version, and every chunk is attached to an
  embedding of its own hash and configuration;
* `Grows`: chunks, embeddings and attachments are only appended, and the sections and the chunks
  of a version stay as they are once it has some.
-/

namespace QaCopilot.Indexing

open QaCopilot.Python QaCopilot.Table QaCopilot.Leases QaCopilot.Ingestion

/-! ## Rows -/

/-- Which code an outcome leaves, and on which side of the deadline it comes. -/
inductive IndexingEnds : IndexingOutcome → Option IndexingFailureCode → Bool → Prop where
  | accepted : IndexingEnds .accepted none true
  | failed : IndexingEnds .failed (some .workerFailed) true
  | expired : IndexingEnds .failed (some .claimExpired) false

/-- The columns that no operation changes. -/
def jobColumns (j : IndexingJobRecord) : Uuid × Uuid × Uuid × Str × Str × Str :=
  (j.id, j.projectId, j.documentVersionId, j.chunkingVersion, j.embeddingModel, j.embeddingVersion)

abbrev JobMove : IndexingJobRecord → IndexingJobRecord → Prop :=
  RowMove IndexingEnds jobColumns IndexingJobRecord.lease

/-- The draft that a chunk was made of. -/
def draftOf (c : DocumentChunkRecord) : ChunkDraft :=
  ⟨c.documentSectionId, c.sourceLocationId, c.ordinal, c.normalizedText, c.contentSha256,
    c.chunkingVersion⟩

/-- The chunks of the version are those that some configuration makes of its sections. -/
def Drafted (sha256 : Bytes → Str) (t : Tables) (v : Uuid) (chunkingVersion : Str) : Prop :=
  ∃ c : ChunkingConfiguration, c.version = chunkingVersion ∧
    chunkSections sha256 c 0 (byOrdinal (sectionsOf t v)) =
      some ((chunkRows t v chunkingVersion).map draftOf)

/-- The entry caches the hash of the chunk under the configuration. -/
def Caches (e : EmbeddingCacheRecord) (c : DocumentChunkRecord) (g : EmbeddingConfiguration) :
    Prop :=
  e.contentSha256 = c.contentSha256 ∧ e.embeddingModel = g.model ∧ e.embeddingVersion = g.version

/-- The chunk is attached to an embedding of the configuration. -/
def Embedded (t : Tables) (c : DocumentChunkRecord) (g : EmbeddingConfiguration) : Prop :=
  ∃ a ∈ t.documentChunkEmbeddings, isAttachment c.id g a = true ∧
    ∃ e ∈ t.embeddingCacheEntries, e.id = a.embeddingCacheId ∧ Caches e c g

/-- The version has chunks, and all of them are attached to embeddings of the configuration. -/
structure Complete (t : Tables) (v : Uuid) (chunkingVersion : Str) (g : EmbeddingConfiguration) :
    Prop where
  some' : chunkRows t v chunkingVersion ≠ []
  embedded : ∀ c ∈ chunkRows t v chunkingVersion, Embedded t c g

def entryKey (e : EmbeddingCacheRecord) : Uuid × Str × Str × Str :=
  (e.projectId, e.contentSha256, e.embeddingModel, e.embeddingVersion)

def attachmentKey (a : DocumentChunkEmbeddingRecord) : Uuid × Str × Str :=
  (a.documentChunkId, a.embeddingModel, a.embeddingVersion)

def jobConfiguration (j : IndexingJobRecord) : EmbeddingConfiguration :=
  ⟨j.embeddingModel, j.embeddingVersion⟩

/-! ## What every state keeps -/

/-- What the transactions of ingestion rely on, and the keys of the versions. -/
structure Sourced (t : Tables) : Prop where
  parserIds : (t.parserJobs.map (·.id)).Nodup
  parserChecked : ∀ j ∈ t.parserJobs, Checked ParserEnds j.lease
  documentIds : (t.documents.map (·.id)).Nodup
  versionIds : (t.documentVersions.map (·.id)).Nodup
  sectioned : ∀ v, sectionsOf t v ≠ [] → ∃ p, owns t p v = true

/-- Where every call indexes a version of its own project (`owned`), a chunk is attached within its
project only. -/
structure Cached (sha256 : Bytes → Str) (owned : Prop) (t : Tables) : Prop where
  chunkIds : (t.documentChunks.map (·.id)).Nodup
  drafted : ∀ v chunkingVersion, chunkRows t v chunkingVersion ≠ [] →
    Drafted sha256 t v chunkingVersion
  entryIds : (t.embeddingCacheEntries.map (·.id)).Nodup
  entryKeys : (t.embeddingCacheEntries.map entryKey).Nodup
  vectors : ∀ e ∈ t.embeddingCacheEntries, validVector e.values = true
  attachmentKeys : (t.documentChunkEmbeddings.map attachmentKey).Nodup
  attached : ∀ a ∈ t.documentChunkEmbeddings, ∃ c ∈ t.documentChunks,
    ∃ e ∈ t.embeddingCacheEntries, c.id = a.documentChunkId ∧ e.id = a.embeddingCacheId ∧
      Caches e c ⟨a.embeddingModel, a.embeddingVersion⟩ ∧
      (owned → owns t e.projectId c.documentVersionId = true)

structure Leased (t : Tables) : Prop where
  ids : (t.indexingJobs.map (·.id)).Nodup
  checked : ∀ j ∈ t.indexingJobs, Checked IndexingEnds j.lease
  owners : ∀ j ∈ t.indexingJobs,
    owns t j.projectId j.documentVersionId = true ∧ sectionsOf t j.documentVersionId ≠ []
  accepted : ∀ j ∈ t.indexingJobs, j.lease.state = .finished .accepted →
    Complete t j.documentVersionId j.chunkingVersion (jobConfiguration j)

structure Sound (sha256 : Bytes → Str) (owned : Prop) (t : Tables) : Prop where
  sourced : Sourced t
  cached : Cached sha256 owned t
  leased : Leased t

/-- What every step leaves as it was. -/
structure Grows (t t' : Tables) : Prop where
  chunks : t.documentChunks <+: t'.documentChunks
  chunked : ∀ v chunkingVersion, chunkRows t v chunkingVersion ≠ [] →
    chunkRows t' v chunkingVersion = chunkRows t v chunkingVersion
  entries : t.embeddingCacheEntries <+: t'.embeddingCacheEntries
  attachments : t.documentChunkEmbeddings <+: t'.documentChunkEmbeddings
  sections : ∀ v, sectionsOf t v ≠ [] → sectionsOf t' v = sectionsOf t v
  owned : ∀ p v, owns t p v = true → owns t' p v = true
  jobs : Later jobColumns IndexingJobRecord.lease t.indexingJobs t'.indexingJobs

theorem Grows.refl (t : Tables) : Grows t t :=
  ⟨List.prefix_rfl, fun _ _ _ => rfl, List.prefix_rfl, List.prefix_rfl, fun _ _ => rfl,
    fun _ _ h => h, .refl _⟩

theorem Grows.trans {a b c : Tables} (first : Grows a b) (second : Grows b c) : Grows a c := by
  refine ⟨first.chunks.trans second.chunks, ?_, first.entries.trans second.entries,
    first.attachments.trans second.attachments, ?_,
    fun p v h => second.owned p v (first.owned p v h), first.jobs.trans second.jobs⟩
  · intro v w some'
    have same := first.chunked v w some'
    rw [second.chunked v w (same ▸ some'), same]
  · intro v some'
    have same := first.sections v some'
    rw [second.sections v (same ▸ some'), same]

theorem Embedded.grows {t t' : Tables} {c : DocumentChunkRecord} {g : EmbeddingConfiguration}
    (embedded : Embedded t c g) (grows : Grows t t') : Embedded t' c g := by
  obtain ⟨a, ha, key, e, he, rest⟩ := embedded
  exact ⟨a, grows.attachments.subset ha, key, e, grows.entries.subset he, rest⟩

theorem Complete.grows {t t' : Tables} {v : Uuid} {chunkingVersion : Str}
    {g : EmbeddingConfiguration} (complete : Complete t v chunkingVersion g)
    (grows : Grows t t') : Complete t' v chunkingVersion g := by
  have same := grows.chunked v chunkingVersion complete.some'
  refine ⟨same ▸ complete.some', ?_⟩
  intro c hc
  exact (complete.embedded c (same ▸ hc)).grows grows

/-! ## Versions and sections -/

theorem owns_iff {t : Tables} {p v : Uuid} : owns t p v = true ↔
    ∃ x ∈ t.documentVersions, x.id = v ∧ ∃ d ∈ t.documents, d.id = x.documentId ∧
      d.projectId = p := by
  simp only [owns, List.any_eq_true, Bool.and_eq_true, decide_eq_true_eq]

/-- A version belongs to one project. -/
theorem owns_unique {t : Tables} (sourced : Sourced t) {p q v : Uuid} (hp : owns t p v = true)
    (hq : owns t q v = true) : p = q := by
  obtain ⟨x, hx, rfl, d, hd, of, rfl⟩ := owns_iff.mp hp
  obtain ⟨y, hy, same, c, hc, of', rfl⟩ := owns_iff.mp hq
  obtain rfl := eq_of_key sourced.versionIds hy hx same
  obtain rfl := eq_of_key sourced.documentIds hd hc (of.trans of'.symm)
  rfl

theorem sectionsOf_eq_nil {t : Tables} {v : Uuid} :
    sectionsOf t v = [] ↔ t.documentSections.filter (·.documentVersionId = v) = [] := by
  rw [sectionsOf, List.map_eq_nil_iff, ← List.length_eq_zero_iff, List.length_insertionSort,
    List.length_eq_zero_iff]

theorem mem_chunkRows {t : Tables} {v : Uuid} {chunkingVersion : Str} {c : DocumentChunkRecord} :
    c ∈ chunkRows t v chunkingVersion ↔
      c ∈ t.documentChunks ∧ c.documentVersionId = v ∧ c.chunkingVersion = chunkingVersion := by
  simp only [chunkRows, List.mem_filter, Bool.and_eq_true, decide_eq_true_eq]

theorem chunksOf_eq_nil {t : Tables} {v : Uuid} {chunkingVersion : Str} :
    chunksOf t v chunkingVersion = [] ↔ chunkRows t v chunkingVersion = [] := by
  rw [chunksOf, ← List.length_eq_zero_iff, List.length_insertionSort, List.length_eq_zero_iff]

/-- Steps that write no evidence keep it. -/
theorem Cached.of_grows {sha256 : Bytes → Str} {owned : Prop} {t t' : Tables}
    (cached : Cached sha256 owned t) (grows : Grows t t')
    (chunks : t'.documentChunks = t.documentChunks)
    (entries : t'.embeddingCacheEntries = t.embeddingCacheEntries)
    (attachments : t'.documentChunkEmbeddings = t.documentChunkEmbeddings) :
    Cached sha256 owned t' := by
  have rows : ∀ v w, chunkRows t' v w = chunkRows t v w := fun v w => by simp only [chunkRows, chunks]
  refine ⟨chunks ▸ cached.chunkIds, ?_, entries ▸ cached.entryIds, entries ▸ cached.entryKeys,
    entries ▸ cached.vectors, attachments ▸ cached.attachmentKeys, ?_⟩
  · intro v w some'
    rw [rows] at some'
    obtain ⟨c, named, drafts⟩ := cached.drafted v w some'
    refine ⟨c, named, ?_⟩
    have sections : sectionsOf t v ≠ [] := by
      intro none'
      rw [none'] at drafts
      exact some' (List.map_eq_nil_iff.mp (Option.some.inj drafts).symm)
    rw [rows, grows.sections v sections]
    exact drafts
  · intro a ha
    rw [attachments] at ha
    obtain ⟨c, hc, e, he, isChunk, isEntry, caches, own⟩ := cached.attached a ha
    exact ⟨c, chunks ▸ hc, e, entries ▸ he, isChunk, isEntry, caches,
      fun h => grows.owned _ _ (own h)⟩

/-- A row of a job stays with its version, its project and its sections. -/
theorem Leased.owners_grow {t t' : Tables} (leased : Leased t) (grows : Grows t t')
    {j : IndexingJobRecord} (hj : j ∈ t.indexingJobs) :
    owns t' j.projectId j.documentVersionId = true ∧ sectionsOf t' j.documentVersionId ≠ [] := by
  obtain ⟨own, sections⟩ := leased.owners j hj
  exact ⟨grows.owned _ _ own, grows.sections _ sections ▸ sections⟩

/-- Steps that write no job keep the jobs. -/
theorem Leased.of_grows {t t' : Tables} (leased : Leased t) (grows : Grows t t')
    (jobs : t'.indexingJobs = t.indexingJobs) : Leased t' := by
  refine ⟨jobs ▸ leased.ids, jobs ▸ leased.checked, ?_, ?_⟩
  · intro j hj
    exact leased.owners_grow grows (jobs ▸ hj)
  · intro j hj accepted
    exact (leased.accepted j (jobs ▸ hj) accepted).grows grows

/-- Moves of jobs keep the jobs, if those that they accept are complete. -/
theorem Leased.move {t : Tables} (leased : Leased t) {p : IndexingJobRecord → Bool}
    {f : IndexingJobRecord → IndexingJobRecord}
    (move : ∀ r ∈ t.indexingJobs, p r = true → JobMove r (f r))
    (complete : ∀ r ∈ t.indexingJobs, p r = true → (f r).lease.state = .finished .accepted →
      Complete t r.documentVersionId r.chunkingVersion (jobConfiguration r)) :
    Leased { t with indexingJobs := updateWhere p f t.indexingJobs } ∧
      Grows t { t with indexingJobs := updateWhere p f t.indexingJobs } := by
  have advance : Advance IndexingEnds jobColumns IndexingJobRecord.lease t.indexingJobs
      (updateWhere p f t.indexingJobs) := .update move
  have grows : Grows t { t with indexingJobs := updateWhere p f t.indexingJobs } :=
    { Grows.refl t with jobs := advance.later }
  refine ⟨⟨?_, advance.checked leased.checked, ?_, ?_⟩, grows⟩
  · have ids : (updateWhere p f t.indexingJobs).map (·.id) = t.indexingJobs.map (·.id) :=
      map_updateWhere_of _ fun r hr h => congrArg (·.1) (move r hr h).1
    exact ids ▸ leased.ids
  · intro j hj
    obtain ⟨r, hr, rfl⟩ := mem_updateWhere.mp hj
    split
    · obtain ⟨project, version⟩ : (f r).projectId = r.projectId ∧
          (f r).documentVersionId = r.documentVersionId := by
        have := (move r hr ‹_›).1
        simp only [jobColumns, Prod.mk.injEq] at this
        exact ⟨this.2.1, this.2.2.1⟩
      rw [project, version]
      exact leased.owners_grow grows hr
    · exact leased.owners_grow grows hr
  · intro j hj accepted
    obtain ⟨r, hr, rfl⟩ := mem_updateWhere.mp hj
    by_cases moved : p r = true
    · rw [if_pos moved] at accepted ⊢
      have := (move r hr moved).1
      simp only [jobColumns, Prod.mk.injEq] at this
      obtain ⟨-, -, version, chunking, model, embedding⟩ := this
      simp only [jobConfiguration, version, chunking, model, embedding]
      exact (complete r hr moved accepted).grows grows
    · rw [if_neg moved] at accepted ⊢
      exact (leased.accepted r hr accepted).grows grows

/-! ## Ingestion -/

theorem owns_of {t t' : Tables} (documents : ∀ d ∈ t.documents, d ∈ t'.documents)
    (versions : ∀ x ∈ t.documentVersions, ∃ x' ∈ t'.documentVersions, x'.id = x.id ∧
      x'.documentId = x.documentId) (p v : Uuid) (h : owns t p v = true) : owns t' p v = true := by
  obtain ⟨x, hx, rfl, d, hd, of, project⟩ := owns_iff.mp h
  obtain ⟨x', hx', id, document⟩ := versions x hx
  exact owns_iff.mpr ⟨x', hx', id, d, documents d hd, of.trans document.symm, project⟩

/-- Rows of parser jobs and intakes are no evidence. -/
theorem Sound.parser {sha256 : Bytes → Str} {owned : Prop} {t : Tables}
    (sound : Sound sha256 owned t) (jobs : List ParserJobRecord)
    (intakes : List DocumentIntakeRecord) (ids : (jobs.map (·.id)).Nodup)
    (checked : ∀ j ∈ jobs, Checked ParserEnds j.lease) :
    Sound sha256 owned { t with parserJobs := jobs, documentIntakes := intakes } ∧
      Grows t { t with parserJobs := jobs, documentIntakes := intakes } := by
  have grows : Grows t { t with parserJobs := jobs, documentIntakes := intakes } :=
    { Grows.refl t with }
  exact ⟨⟨⟨ids, checked, sound.sourced.documentIds, sound.sourced.versionIds,
    sound.sourced.sectioned⟩, sound.cached.of_grows grows rfl rfl rfl, sound.leased.of_grows grows rfl⟩, grows⟩

theorem Sound.admission {sha256 : Bytes → Str} {owned : Prop} {t : Tables}
    (sound : Sound sha256 owned t) {a : Admission} {rows : AdmissionRows}
    (fresh : t.admitsRows a rows = true) :
    Sound sha256 owned (t.insertRows a rows) ∧ Grows t (t.insertRows a rows) := by
  simp only [Tables.admitsRows, Bool.and_eq_true, Bool.or_eq_true, List.all_eq_true,
    decide_eq_true_eq] at fresh
  obtain ⟨⟨⟨⟨document, -⟩, version⟩, -⟩, -⟩ := fresh
  have documents : ∀ d ∈ t.documents, d ∈ (t.insertRows a rows).documents := by
    intro d hd
    simp only [Tables.insertRows]
    split
    · exact hd
    · exact List.mem_append_left _ hd
  have grows : Grows t (t.insertRows a rows) :=
    { Grows.refl t with
      owned := owns_of documents fun x hx => ⟨x, List.mem_append_left _ hx, rfl, rfl⟩ }
  refine ⟨⟨⟨sound.sourced.parserIds, sound.sourced.parserChecked, ?_, ?_, ?_⟩,
    sound.cached.of_grows grows rfl rfl rfl, sound.leased.of_grows grows rfl⟩, grows⟩
  · simp only [Tables.insertRows]
    split
    · exact sound.sourced.documentIds
    · rename_i new
      exact nodup_snoc sound.sourced.documentIds (document.resolve_left new)
  · exact nodup_snoc sound.sourced.versionIds fun v hv => (version v hv).1
  · intro v some'
    obtain ⟨p, own⟩ := sound.sourced.sectioned v some'
    exact ⟨p, grows.owned p v own⟩

theorem promoted_other {t : Tables} {c : ClaimedParserJob} {source : Source} {finished : Int}
    {requirements : List ParsedRequirement} {rows : Evidence}
    (able : Promotable t c source finished requirements rows) {v : Uuid}
    (other : v ≠ rows.job.documentVersionId) :
    sectionsOf (t.promoted c source finished rows) v = sectionsOf t v := by
  obtain ⟨s, rfl⟩ := able.made
  simp only [sectionsOf, (able.other other).2.1]

theorem promoted_sections {t : Tables} {c : ClaimedParserJob} {source : Source} {finished : Int}
    {requirements : List ParsedRequirement} {rows : Evidence}
    (able : Promotable t c source finished requirements rows) (v : Uuid)
    (some' : sectionsOf t v ≠ []) : sectionsOf (t.promoted c source finished rows) v =
      sectionsOf t v := by
  apply promoted_other able
  rintro rfl
  apply some'
  obtain ⟨s, rfl⟩ := able.made
  rw [sectionsOf_eq_nil, List.filter_eq_nil_iff]
  intro r hr same
  exact able.noSections r hr (of_decide_eq_true same)

/-- The new job belongs to the project of its version, which has the new sections. -/
theorem promoted_job {t : Tables} {c : ClaimedParserJob} {source : Source} {finished : Int}
    {requirements : List ParsedRequirement} {rows : Evidence}
    (able : Promotable t c source finished requirements rows) :
    (∃ createdAt, rows.job.lease = .queuedAt createdAt) ∧
      owns (t.promoted c source finished rows) rows.job.projectId rows.job.documentVersionId = true ∧
      sectionsOf (t.promoted c source finished rows) rows.job.documentVersionId ≠ [] := by
  obtain ⟨s, rfl⟩ := able.made
  obtain ⟨-, document, version, of⟩ := source_ok able.found
  refine ⟨⟨s.now, rfl⟩, ?_, ?_⟩
  · exact owns_iff.mpr ⟨_, mem_updateWhere_of version (decide_eq_true rfl), rfl, source.document,
      document, of.symm, rfl⟩
  · obtain ⟨first, rest, rfl⟩ := List.exists_cons_of_ne_nil able.some'
    intro none'
    have listed : newSection source.version.id (s.newId 1) (s.newId 0) first ∈
        (t.promoted c source finished (evidence s t source (first :: rest))).documentSections :=
      List.mem_append_right _ (List.mem_mapIdx.mpr ⟨0, by simp, rfl⟩)
    have := List.filter_eq_nil_iff.mp (sectionsOf_eq_nil.mp none') _ listed
    exact this (decide_eq_true rfl)

theorem Sound.promote {sha256 : Bytes → Str} {owned : Prop} {t : Tables}
    (sound : Sound sha256 owned t) {c : ClaimedParserJob} {source : Source} {finished : Int}
    {requirements : List ParsedRequirement} {rows : Evidence}
    (able : Promotable t c source finished requirements rows) :
    Sound sha256 owned (t.promoted c source finished rows) ∧
      Grows t (t.promoted c source finished rows) := by
  obtain ⟨⟨createdAt, queued⟩, own, sections⟩ := promoted_job able
  have advance : Advance IndexingEnds jobColumns IndexingJobRecord.lease t.indexingJobs
      (t.indexingJobs ++ [rows.job]) := .append _ queued
  have grows : Grows t (t.promoted c source finished rows) :=
    { Grows.refl t with
      sections := promoted_sections able
      owned := owns_of (fun _ hd => hd) fun x hx => by
        refine ⟨_, mem_updateWhere.mpr ⟨x, hx, rfl⟩, ?_⟩
        split
        · exact ⟨rfl, rfl⟩
        · exact ⟨rfl, rfl⟩
      jobs := advance.later }
  have moves := Promotable.moves t c finished
  refine ⟨⟨⟨?_, ?_, sound.sourced.documentIds, ?_, ?_⟩, sound.cached.of_grows grows rfl rfl rfl,
    ?_, advance.checked sound.leased.checked, ?_, ?_⟩, grows⟩
  · exact (moved_columns moves).1 ▸ sound.sourced.parserIds
  · exact moved_checked moves sound.sourced.parserChecked
  · have ids := map_updateWhere (p := (·.id = source.version.id))
      (f := fun v => { v with parserVersionId := rows.parserVersion.id })
      (fun v : DocumentVersionRecord => v.id) (fun _ => rfl) t.documentVersions
    exact ids ▸ sound.sourced.versionIds
  · intro v some'
    by_cases promoted : v = rows.job.documentVersionId
    · exact ⟨_, promoted ▸ own⟩
    · rw [promoted_other able promoted] at some'
      obtain ⟨p, own⟩ := sound.sourced.sectioned v some'
      exact ⟨p, grows.owned p v own⟩
  · have fresh := able.fresh
    simp only [Tables.admitsEvidence, Bool.and_eq_true, List.all_eq_true, decide_eq_true_eq]
      at fresh
    exact nodup_snoc sound.leased.ids fun j hj => (fresh.2 j hj).1
  · intro j hj
    rcases List.mem_append.mp hj with hj | hj
    · exact sound.leased.owners_grow grows hj
    · rw [List.mem_singleton.mp hj]
      exact ⟨own, sections⟩
  · intro j hj accepted
    rcases List.mem_append.mp hj with hj | hj
    · exact (sound.leased.accepted j hj accepted).grows grows
    · rw [List.mem_singleton.mp hj, queued] at accepted
      cases accepted

theorem Sound.ingest {rt : ParserRuntime} {owned : Prop} {t : Tables} {sha256 : Bytes → Str}
    (sound : Sound sha256 owned t) (i : Input) :
    Sound sha256 owned (step rt t i) ∧ Grows t (step rt t i) := by
  have effect := @step_effect rt t sound.sourced.parserIds sound.sourced.parserChecked i
  generalize step rt t i = t' at effect
  cases effect with
  | nothing => exact ⟨sound, .refl t⟩
  | intakeRejected fresh none' =>
    exact sound.parser t.parserJobs _ sound.sourced.parserIds sound.sourced.parserChecked
  | admitted fresh version => exact sound.admission fresh
  | @enqueued job createdAt queued fresh =>
    apply sound.parser _ t.documentIntakes
    · simp only [Tables.admitsParserJob, Bool.and_eq_true, List.all_eq_true, decide_eq_true_eq]
        at fresh
      exact nodup_snoc sound.sourced.parserIds fun j hj => (fresh.1 j hj).1
    · have advance : Advance ParserEnds ParserJobRecord.columns ParserJobRecord.lease t.parserJobs
        (t.parserJobs ++ [job]) := .append _ queued
      exact advance.checked sound.sourced.parserChecked
  | moved move =>
    have moves := fun r hr h => (move r hr h).1
    exact sound.parser _ t.documentIntakes ((moved_columns moves).1 ▸ sound.sourced.parserIds)
      (moved_checked moves sound.sourced.parserChecked)
  | promoted able => exact sound.promote able

end QaCopilot.Indexing
