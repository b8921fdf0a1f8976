import QaCopilot.Indexing.Evidence

/-!
# The operations of indexing

What each of them keeps of the evidence, and what its answer says.
-/

namespace QaCopilot.Indexing

open QaCopilot.Python QaCopilot.Program QaCopilot.Table QaCopilot.Leases QaCopilot.Ingestion

/-! ## Operations on the evidence -/

/-- The cache holds the hash for the project under the configuration, as the entry `id`. -/
def Entry (t : Tables) (projectId : Uuid) (contentSha256 : Str) (g : EmbeddingConfiguration)
    (id : Uuid) : Prop :=
  ∃ r ∈ t.embeddingCacheEntries, r.id = id ∧ isEntry projectId contentSha256 g r = true

theorem Entry.grows {t t' : Tables} {projectId id : Uuid} {contentSha256 : Str}
    {g : EmbeddingConfiguration} (entry : Entry t projectId contentSha256 g id)
    (grows : Grows t t') : Entry t' projectId contentSha256 g id := by
  obtain ⟨r, hr, rest⟩ := entry
  exact ⟨r, grows.entries.subset hr, rest⟩

theorem isEntry_iff {projectId : Uuid} {contentSha256 : Str} {g : EmbeddingConfiguration}
    {r : EmbeddingCacheRecord} : isEntry projectId contentSha256 g r = true ↔
      entryKey r = (projectId, contentSha256, g.model, g.version) := by
  simp only [isEntry, entryKey, Bool.and_eq_true, decide_eq_true_eq, Prod.mk.injEq, and_assoc]

theorem isAttachment_iff {chunkId : Uuid} {g : EmbeddingConfiguration}
    {r : DocumentChunkEmbeddingRecord} : isAttachment chunkId g r = true ↔
      attachmentKey r = (chunkId, g.model, g.version) := by
  simp only [isAttachment, attachmentKey, Bool.and_eq_true, decide_eq_true_eq, Prod.mk.injEq,
    and_assoc]

/-- What an attachment may join: a chunk of a version in `scope`, and an entry of its hash. -/
def Attachable (owned : Prop) (scope : Uuid → Prop) (t : Tables) (chunkId embeddingId : Uuid)
    (g : EmbeddingConfiguration) : Prop :=
  ∃ c ∈ t.documentChunks, c.id = chunkId ∧ scope c.documentVersionId ∧
    ∃ e ∈ t.embeddingCacheEntries, e.id = embeddingId ∧ Caches e c g ∧
      (owned → owns t e.projectId c.documentVersionId = true)

/-- What the cache may hold: the hash of a chunk of a version in `scope`. -/
def Cacheable (scope : Uuid → Prop) (t : Tables) (contentSha256 : Str) : Prop :=
  ∃ c ∈ t.documentChunks, scope c.documentVersionId ∧ c.contentSha256 = contentSha256

theorem Cacheable.grows {scope : Uuid → Prop} {t t' : Tables} {contentSha256 : Str}
    (cacheable : Cacheable scope t contentSha256) (grows : Grows t t') :
    Cacheable scope t' contentSha256 := by
  obtain ⟨c, hc, rest⟩ := cacheable
  exact ⟨c, grows.chunks.subset hc, rest⟩

/-- What chunks may be made of. -/
def Chunkable (sha256 : Bytes → Str) (t : Tables) (v : Uuid) (drafts : List ChunkDraft) : Prop :=
  drafts ≠ [] → ∃ c, chunkSections sha256 c 0 (byOrdinal (sectionsOf t v)) = some drafts

section
variable {sha256 : Bytes → Str} {owned : Prop} {t : Tables}

theorem map_draftOf {s : Session} {v : Uuid} {drafts : List ChunkDraft} :
    (newChunks s v drafts).map draftOf = drafts := by
  apply List.ext_getElem?
  intro i
  rw [newChunks, List.getElem?_map, List.getElem?_mapIdx]
  cases drafts[i]? <;> rfl

theorem addChunks {v : Uuid} {chunkingVersion : Str} {rows : List DocumentChunkRecord}
    (sound : Sound sha256 owned t) (none' : chunkRows t v chunkingVersion = [])
    (ids : ((t.documentChunks ++ rows).map (·.id)).Nodup)
    (versions : ∀ r ∈ rows, r.documentVersionId = v ∧ r.chunkingVersion = chunkingVersion)
    (drafted : Drafted sha256 { t with documentChunks := t.documentChunks ++ rows } v
      chunkingVersion) :
    Sound sha256 owned { t with documentChunks := t.documentChunks ++ rows } ∧
      Grows t { t with documentChunks := t.documentChunks ++ rows } := by
  have other : ∀ w cv, ¬ (w = v ∧ cv = chunkingVersion) →
      chunkRows { t with documentChunks := t.documentChunks ++ rows } w cv = chunkRows t w cv := by
    intro w cv other
    apply filter_append_of_not
    intro r hr
    obtain ⟨rfl, rfl⟩ := versions r hr
    by_contra same
    simp only [Bool.not_eq_false, Bool.and_eq_true, decide_eq_true_eq] at same
    exact other ⟨same.1.symm, same.2.symm⟩
  have grows : Grows t { t with documentChunks := t.documentChunks ++ rows } :=
    { Grows.refl t with
      chunks := List.prefix_append _ _
      chunked := by
        intro w cv some'
        apply other
        rintro ⟨rfl, rfl⟩
        exact some' none' }
  refine ⟨⟨{ sound.sourced with }, ⟨ids, ?_, sound.cached.entryIds, sound.cached.entryKeys,
    sound.cached.vectors, sound.cached.attachmentKeys, ?_⟩, sound.leased.of_grows grows rfl⟩, grows⟩
  · intro w cv some'
    by_cases same : w = v ∧ cv = chunkingVersion
    · obtain ⟨rfl, rfl⟩ := same
      exact drafted
    · rw [other w cv same] at some'
      obtain ⟨c, named, drafts⟩ := sound.cached.drafted w cv some'
      exact ⟨c, named, (other w cv same).symm ▸ drafts⟩
  · intro a ha
    obtain ⟨c, hc, e, he, rest⟩ := sound.cached.attached a ha
    exact ⟨c, List.mem_append_left _ hc, e, he, rest⟩

theorem createChunks_sound (s : Session) {v : Uuid} {drafts : List ChunkDraft}
    (sound : Sound sha256 owned t) (chunkable : Chunkable sha256 t v drafts) :
    Sound sha256 owned (createChunks s v drafts t).2 ∧ Grows t (createChunks s v drafts t).2 := by
  have same : Sound sha256 owned t ∧ Grows t t := ⟨sound, .refl t⟩
  unfold createChunks
  split
  · exact same
  · rename_i first rest
    split
    · exact same
    · split
      · exact same
      · split
        · rename_i none'
          dsimp only
          split
          · rename_i admits
            obtain ⟨c, chunked⟩ := chunkable (by simp)
            have named := chunkSections_version chunked
            have none'' := chunksOf_eq_nil.mp none'
            have versions : ∀ r ∈ newChunks s v (first :: rest),
                r.documentVersionId = v ∧ r.chunkingVersion = first.chunkingVersion := by
              intro r hr
              obtain ⟨i, hi, rfl⟩ := List.mem_mapIdx.mp hr
              exact ⟨rfl, (named _ (List.getElem_mem hi)).trans (named first (by simp)).symm⟩
            simp only [admitsChunks, Bool.and_eq_true, decide_eq_true_eq] at admits
            apply addChunks sound none'' admits.1 versions
            refine ⟨c, (named first (by simp)).symm, ?_⟩
            rw [chunkRows, filter_append_of none'' fun r hr => by simp [versions r hr], map_draftOf]
            exact chunked
          · exact same
        · exact same

/-- What a call may rely on once it has the chunks of a version; of a `full` one it has some. -/
structure Listed (t : Tables) (v : Uuid) (chunkingVersion : Str) (full : Prop)
    (chunks : List IndexedChunk) : Prop where
  same : chunks ≠ [] → chunks.Perm ((chunkRows t v chunkingVersion).map indexedChunk)
  some' : full → chunks ≠ []

theorem Listed.grows {t' : Tables} {v : Uuid} {chunkingVersion : Str} {full : Prop}
    {chunks : List IndexedChunk} (listed : Listed t v chunkingVersion full chunks)
    (grows : Grows t t') : Listed t' v chunkingVersion full chunks := by
  refine ⟨?_, listed.some'⟩
  intro some'
  have same := listed.same some'
  rw [grows.chunked v chunkingVersion ?_]
  · exact same
  · intro none'
    rw [none'] at same
    exact some' same.eq_nil

theorem chunksOf_listed {v : Uuid} {chunkingVersion : Str} {full : Prop}
    (some' : chunksOf t v chunkingVersion ≠ []) :
    Listed t v chunkingVersion full ((chunksOf t v chunkingVersion).map indexedChunk) :=
  ⟨fun _ => (List.perm_insertionSort _ _).map _, fun _ none' => some' (List.map_eq_nil_iff.mp none')⟩

theorem createChunks_listed {s : Session} {v : Uuid} {drafts : List ChunkDraft}
    {chunkingVersion : Str} {full : Prop} {chunks : List IndexedChunk}
    (named : ∀ d ∈ drafts, d.chunkingVersion = chunkingVersion) (some' : full → drafts ≠ [])
    (h : (createChunks s v drafts t).1 = .ok chunks) :
    Listed (createChunks s v drafts t).2 v chunkingVersion full chunks := by
  unfold createChunks at h ⊢
  split
  · obtain rfl := Except.ok.inj h
    exact ⟨fun some'' => absurd rfl some'', fun h => absurd rfl (some' h)⟩
  · rename_i first rest
    obtain rfl := named first (by simp)
    dsimp only at h ⊢
    split at h
    · cases h
    · rename_i uniform
      rw [if_neg uniform]
      split at h
      · cases h
      · rename_i running
        rw [if_neg running]
        split at h
        · rename_i none'
          split at h
          · rename_i admits
            rw [if_pos admits]
            obtain rfl := Except.ok.inj h
            have versions : ∀ r ∈ newChunks s v (first :: rest),
                r.documentVersionId = v ∧ r.chunkingVersion = first.chunkingVersion := by
              intro r hr
              obtain ⟨i, hi, rfl⟩ := List.mem_mapIdx.mp hr
              exact ⟨rfl, named _ (List.getElem_mem hi)⟩
            refine ⟨fun _ => ?_, fun _ => by simp [newChunks]⟩
            rw [chunkRows, filter_append_of (chunksOf_eq_nil.mp none') fun r hr => by
              simp [versions r hr]]
          · cases h
        · rename_i some''
          obtain rfl := Except.ok.inj h
          exact chunksOf_listed some''

/-! ### Embeddings -/

theorem createEmbedding_sound (s : Session) {p : Uuid} {contentSha256 : Str}
    {g : EmbeddingConfiguration} {values : List PyFloat} (sound : Sound sha256 owned t) :
    (Sound sha256 owned (createEmbedding s p contentSha256 g values t).2 ∧
      Grows t (createEmbedding s p contentSha256 g values t).2) ∧
    ∀ e, (createEmbedding s p contentSha256 g values t).1 = .ok e →
      Entry (createEmbedding s p contentSha256 g values t).2 p contentSha256 g e.id := by
  have same : Sound sha256 owned t ∧ Grows t t := ⟨sound, .refl t⟩
  unfold createEmbedding
  split
  · exact ⟨same, by simp⟩
  · rename_i vector
    rw [Bool.not_eq_true', Bool.not_eq_false] at vector
    split
    · exact ⟨same, by simp⟩
    · split
      · rename_i r found
        refine ⟨same, ?_⟩
        intro e he
        unfold cachedEmbeddingFromRecord at he
        split at he
        · obtain rfl := Except.ok.inj he
          exact ⟨r, List.mem_of_find?_eq_some found, rfl, List.find?_some found⟩
        · cases he
      · rename_i absent
        split
        · exact ⟨same, by simp⟩
        · rename_i fresh
          have grows : Grows t { t with
              embeddingCacheEntries :=
                t.embeddingCacheEntries ++ [newEntry s p contentSha256 g values] } :=
            { Grows.refl t with entries := List.prefix_append _ _ }
          refine ⟨⟨⟨{ sound.sourced with }, ⟨sound.cached.chunkIds, sound.cached.drafted, ?_, ?_, ?_,
            sound.cached.attachmentKeys, ?_⟩, sound.leased.of_grows grows rfl⟩, grows⟩, ?_⟩
          · apply nodup_snoc sound.cached.entryIds
            intro r hr same
            exact fresh (List.any_eq_true.mpr ⟨r, hr, decide_eq_true same⟩)
          · apply nodup_snoc sound.cached.entryKeys
            intro r hr same
            exact List.find?_eq_none.mp absent r hr (isEntry_iff.mpr same)
          · intro r hr
            rcases List.mem_append.mp hr with hr | hr
            · exact sound.cached.vectors r hr
            · exact List.mem_singleton.mp hr ▸ vector
          · intro a ha
            obtain ⟨c, hc, e, he, rest⟩ := sound.cached.attached a ha
            exact ⟨c, hc, e, List.mem_append_left _ he, rest⟩
          · intro e he
            obtain rfl := Except.ok.inj he
            exact ⟨_, List.mem_append_right _ (List.mem_singleton_self _), rfl,
              isEntry_iff.mpr rfl⟩

theorem cachedEmbedding_entry {s : Session} {p : Uuid} {contentSha256 : Str}
    {g : EmbeddingConfiguration} {e : CachedEmbedding}
    (h : cachedEmbedding s p contentSha256 g t = .ok (some e)) :
    Entry t p contentSha256 g e.id := by
  unfold cachedEmbedding at h
  split at h
  · cases h
  · split at h
    · cases h
    · rename_i r found
      unfold cachedEmbeddingFromRecord at h
      split at h
      · obtain rfl := Option.some.inj (Except.ok.inj h)
        exact ⟨r, List.mem_of_find?_eq_some found, rfl, List.find?_some found⟩
      · cases h

/-- The chunk is attached to the entry. -/
def Attached (t : Tables) (chunkId embeddingId : Uuid) (g : EmbeddingConfiguration) : Prop :=
  ∃ a ∈ t.documentChunkEmbeddings, isAttachment chunkId g a = true ∧ a.embeddingCacheId = embeddingId

theorem attachEmbedding_sound (s : Session) {chunkId embeddingId : Uuid}
    {g : EmbeddingConfiguration} {scope : Uuid → Prop} (sound : Sound sha256 owned t)
    (attachable : Attachable owned scope t chunkId embeddingId g) :
    (Sound sha256 owned (attachEmbedding s chunkId embeddingId g t).2 ∧
      Grows t (attachEmbedding s chunkId embeddingId g t).2) ∧
    ((attachEmbedding s chunkId embeddingId g t).1 = .ok () →
      Attached (attachEmbedding s chunkId embeddingId g t).2 chunkId embeddingId g) := by
  have same : Sound sha256 owned t ∧ Grows t t := ⟨sound, .refl t⟩
  unfold attachEmbedding
  split
  · exact ⟨same, by simp⟩
  · split
    · rename_i r found
      refine ⟨same, ?_⟩
      intro h
      dsimp only at h ⊢
      split at h
      · exact ⟨r, List.mem_of_find?_eq_some found, List.find?_some found, ‹_›⟩
      · cases h
    · rename_i absent
      split
      · exact ⟨same, by simp⟩
      · have grows : Grows t { t with
            documentChunkEmbeddings := t.documentChunkEmbeddings ++
              [⟨s.newId 0, chunkId, embeddingId, g.model, g.version, s.now⟩] } :=
          { Grows.refl t with attachments := List.prefix_append _ _ }
        refine ⟨⟨⟨{ sound.sourced with }, ⟨sound.cached.chunkIds, sound.cached.drafted,
          sound.cached.entryIds, sound.cached.entryKeys, sound.cached.vectors, ?_, ?_⟩,
          sound.leased.of_grows grows rfl⟩,
          grows⟩, ?_⟩
        · apply nodup_snoc sound.cached.attachmentKeys
          intro a ha same
          exact List.find?_eq_none.mp absent a ha (isAttachment_iff.mpr same)
        · intro a ha
          rcases List.mem_append.mp ha with ha | ha
          · exact sound.cached.attached a ha
          · obtain ⟨c, hc, isChunk, -, e, he, isEntry, caches, own⟩ := attachable
            rw [List.mem_singleton.mp ha]
            exact ⟨c, hc, e, he, isChunk, isEntry, caches, own⟩
        · intro _
          exact ⟨_, List.mem_append_right _ (List.mem_singleton_self _),
            isAttachment_iff.mpr rfl, rfl⟩

/-! ### Jobs -/

/-- What the holder of a fresh claim may rely on. -/
structure Granted (t : Tables) (p : IndexingClaims) (c : ClaimedIndexingJob) : Prop where
  own : owns t c.projectId c.documentVersionId = true
  sections : sectionsOf t c.documentVersionId ≠ []
  chunking : c.chunkingVersion = p.chunkingVersion
  model : c.embeddingModel = p.embedding.model
  version : c.embeddingVersion = p.embedding.version

theorem Sound.move (sound : Sound sha256 owned t) {p : IndexingJobRecord → Bool}
    {f : IndexingJobRecord → IndexingJobRecord}
    (move : ∀ r ∈ t.indexingJobs, p r = true → JobMove r (f r))
    (complete : ∀ r ∈ t.indexingJobs, p r = true → (f r).lease.state = .finished .accepted →
      Complete t r.documentVersionId r.chunkingVersion (jobConfiguration r)) :
    Sound sha256 owned { t with indexingJobs := updateWhere p f t.indexingJobs } ∧
      Grows t { t with indexingJobs := updateWhere p f t.indexingJobs } := by
  obtain ⟨leased, grows⟩ := sound.leased.move move complete
  exact ⟨⟨{ sound.sourced with }, sound.cached.of_grows grows rfl rfl rfl, leased⟩, grows⟩

theorem claimNext_candidate {p : IndexingClaims} {s : Session} {j : IndexingJobRecord}
    (found : firstBy (fun a b => inOrder (a.lease.createdAt, a.id) (b.lease.createdAt, b.id))
      (t.indexingJobs.filter fun j =>
        j.lease.state = .queued && j.lease.createdAt ≤ s.now && p.scope j) = some j) :
    j ∈ t.indexingJobs ∧ j.lease.state = .queued ∧ j.lease.createdAt ≤ s.now ∧
      p.scope j = true := by
  have candidate := List.mem_filter.mp (firstBy_mem found)
  simp only [Bool.and_eq_true, decide_eq_true_eq] at candidate
  exact ⟨candidate.1, candidate.2.1.1, candidate.2.1.2, candidate.2.2⟩

theorem claimNext_sound (p : IndexingClaims) (s : Session) (sound : Sound sha256 owned t) :
    (Sound sha256 owned (claimNext p s t).2 ∧ Grows t (claimNext p s t).2) ∧
    ∀ c, (claimNext p s t).1 = .ok (some c) → Granted (claimNext p s t).2 p c := by
  have same : Sound sha256 owned t ∧ Grows t t := ⟨sound, .refl t⟩
  unfold claimNext
  split
  · exact ⟨same, by simp⟩
  · split
    · exact ⟨same, by simp⟩
    · rename_i j found
      obtain ⟨hj, queued, created, scope⟩ := claimNext_candidate found
      have moved := sound.move (p := fun r => r.id = j.id && r.lease.state = .queued && p.scope r)
        (f := fun r => { r with lease := r.lease.claim (p.claimOf s j).claim }) ?_ ?_
      · refine ⟨moved, ?_⟩
        intro c hc
        obtain rfl := Option.some.inj (Except.ok.inj hc)
        obtain ⟨own, sections⟩ := sound.leased.owners j hj
        simp only [IndexingClaims.scope, Bool.and_eq_true, decide_eq_true_eq] at scope
        exact ⟨moved.2.owned _ _ own, moved.2.sections _ sections ▸ sections, scope.1.1.2,
          scope.1.2, scope.2⟩
      · intro r hr mine
        simp only [Bool.and_eq_true, decide_eq_true_eq] at mine
        obtain rfl := eq_of_key sound.leased.ids hr hj mine.1.1
        refine ⟨rfl, .inr (.claim _ queued created ?_)⟩
        have := p.lasts
        simp only [IndexingClaims.claimOf, ClaimedIndexingJob.claim]
        omega
      · intro r _ _ accepted
        simp [Lease.claim] at accepted

theorem finish_sound (p : IndexingClaims) (s : Session) (c : ClaimedIndexingJob)
    {outcome : IndexingOutcome} {code : Option IndexingFailureCode} (sound : Sound sha256 owned t)
    (ends : IndexingEnds outcome code true)
    (complete : outcome = .accepted → Complete t c.documentVersionId c.chunkingVersion
      ⟨c.embeddingModel, c.embeddingVersion⟩) :
    Sound sha256 owned (finish p s c outcome code t).2 ∧
      Grows t (finish p s c outcome code t).2 := by
  unfold finish
  dsimp only
  split
  · exact ⟨sound, .refl t⟩
  · split
    · apply sound.move
      · intro r _ held
        simp only [ClaimedIndexingJob.holds, Bool.and_eq_true, decide_eq_true_eq] at held
        exact ⟨rfl, .inr (Move.ofHeld held.2.1.2 held.2.2 ends)⟩
      · intro r _ held accepted
        simp only [ClaimedIndexingJob.holds, Bool.and_eq_true, decide_eq_true_eq] at held
        obtain ⟨-, ⟨⟨⟨⟨⟨-, version⟩, chunking⟩, model⟩, embedding⟩, -⟩, -⟩ := held
        simp only [jobConfiguration, version, chunking, model, embedding]
        exact complete (State.finished.inj accepted)
    · exact ⟨sound, .refl t⟩

theorem expireClaims_sound (p : IndexingClaims) (s : Session) (sound : Sound sha256 owned t) :
    Sound sha256 owned (expireClaims p s t).2 ∧ Grows t (expireClaims p s t).2 := by
  unfold expireClaims
  dsimp only
  split
  · exact ⟨sound, .refl t⟩
  · apply sound.move
    · intro r hr lapsed
      simp only [Bool.and_eq_true, decide_eq_true_eq] at lapsed
      exact ⟨rfl, .inr (Move.ofLapsed (sound.leased.checked r hr) lapsed.1.1 lapsed.2 .expired)⟩
    · intro r _ _ accepted
      cases State.finished.inj accepted

end

/-! ## All operations -/

/-- When an operation may be performed by a call that keeps to the versions in `scope`. -/
def Safe (sha256 : Bytes → Str) (owned : Prop) (scope : Uuid → Prop) (t : Tables) (a : Action) :
    Prop :=
  match a.op with
  | .chunksForVersion v _ => scope v
  | .createChunks v drafts => scope v ∧ Chunkable sha256 t v drafts
  | .createEmbedding _ contentSha256 _ _ => Cacheable scope t contentSha256
  | .attachEmbedding chunkId embeddingId g => Attachable owned scope t chunkId embeddingId g
  | .accept _ c => Complete t c.documentVersionId c.chunkingVersion
      ⟨c.embeddingModel, c.embeddingVersion⟩
  | _ => True

theorem exec_sound (rt : ParserRuntime) {owned : Prop} {scope : Uuid → Prop} {t : Tables}
    {a : Action} (e : Env) (sound : Sound rt.sha256 owned t) (safe : Safe rt.sha256 owned scope t a) :
    Sound rt.sha256 owned (a.exec rt e t).2 ∧ Grows t (a.exec rt e t).2 := by
  have same : Sound rt.sha256 owned t ∧ Grows t t := ⟨sound, .refl t⟩
  obtain ⟨behalf, op⟩ := a
  cases op with
  | ingest i => exact sound.ingest i
  | sectionsForVersion | chunksForVersion | cachedEmbedding | embed => exact same
  | createChunks v drafts => exact createChunks_sound e.session sound safe.2
  | createEmbedding p contentSha256 g values => exact (createEmbedding_sound e.session sound).1
  | attachEmbedding chunkId embeddingId g => exact (attachEmbedding_sound e.session sound safe).1
  | claimNext p => exact (claimNext_sound p e.session sound).1
  | accept p c => exact finish_sound p e.session c sound .accepted fun _ => safe
  | fail p c => exact finish_sound p e.session c sound .failed (by simp)
  | expireClaims p => exact expireClaims_sound p e.session sound

theorem guarantees (rt : ParserRuntime) (owned : Prop) (scope : Uuid → Prop) :
    Guarantees (Action.exec rt) (Sound rt.sha256 owned) Grows (Safe rt.sha256 owned scope) :=
  ⟨.refl, Grows.trans, fun _ _ e sound safe => (exec_sound rt e sound safe).1,
    fun _ _ e sound safe => (exec_sound rt e sound safe).2⟩

end QaCopilot.Indexing
