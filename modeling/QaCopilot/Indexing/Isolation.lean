import QaCopilot.Indexing.LateWorker

/-!
# Isolation of projects

A call of `index` names a project and a version. The sections are read for both, and the chunks
for the version alone.

* `isolated_iff`: a call is isolated, whatever it meets, exactly if the version belongs to the
  project or has no chunks yet.
-/

namespace QaCopilot.Indexing

open QaCopilot.Python QaCopilot.Program QaCopilot.Table QaCopilot.Leases QaCopilot.Ingestion
  QaCopilot.Runs

/-- The version belongs to another project. -/
def Foreign (t : Tables) (projectId v : Uuid) : Prop := ∃ q, q ≠ projectId ∧ owns t q v = true

/-- The attachments of the chunks of a version. -/
def attachmentsOf (t : Tables) (v : Uuid) : List DocumentChunkEmbeddingRecord :=
  t.documentChunkEmbeddings.filter fun a =>
    t.documentChunks.any fun c => c.id = a.documentChunkId && c.documentVersionId = v

/-- An operation that answered with texts of chunks of the version. -/
inductive ReadsChunks (v : Uuid) : ((a : Action) × a.Answer) → Prop where
  | found {behalf : Option ClaimedIndexingJob} {chunkingVersion : Str} {chunks : List IndexedChunk}
    (some' : chunks ≠ []) : ReadsChunks v ⟨⟨behalf, .chunksForVersion v chunkingVersion⟩, .ok chunks⟩
  | created {behalf : Option ClaimedIndexingJob} {drafts : List ChunkDraft}
    {chunks : List IndexedChunk} (some' : chunks ≠ []) :
    ReadsChunks v ⟨⟨behalf, .createChunks v drafts⟩, .ok chunks⟩

/-- The call reads no chunk of a foreign version and attaches none, caches only hashes of chunks of
the project, and changes nothing for a version that the project does not own. -/
structure Isolated (rt : ParserRuntime) (v : IndexingService) (projectId documentVersionId : Uuid)
    (env : Nat → Env) (t : Tables) : Prop where
  reads : ∀ x ∈ callEvents rt v projectId documentVersionId env t, ∀ w, Foreign t projectId w →
    ¬ ReadsChunks w x.2
  attachments : ∀ w, Foreign t projectId w →
    attachmentsOf (callResult rt v projectId documentVersionId env t).2 w = attachmentsOf t w
  entries : ∀ e ∈ (callResult rt v projectId documentVersionId env t).2.embeddingCacheEntries,
    e ∈ t.embeddingCacheEntries ∨
      Cacheable (fun w => owns t projectId w = true)
        (callResult rt v projectId documentVersionId env t).2 e.contentSha256
  unowned : owns t projectId documentVersionId = false →
    (callResult rt v projectId documentVersionId env t).2 = t

/-! ## Owned versions -/

/-- What a call does that keeps to the versions in `scope`. -/
structure Keeping (scope : Uuid → Prop) (t t' : Tables) : Prop extends Grows t t' where
  joined : ∀ a ∈ t'.documentChunkEmbeddings, a ∈ t.documentChunkEmbeddings ∨
    ∃ c ∈ t'.documentChunks, c.id = a.documentChunkId ∧ scope c.documentVersionId
  cached : ∀ e ∈ t'.embeddingCacheEntries, e ∈ t.embeddingCacheEntries ∨
    Cacheable scope t' e.contentSha256

section
variable {rt : ParserRuntime} {scope : Uuid → Prop} {t : Tables}

theorem Keeping.refl (t : Tables) : Keeping scope t t :=
  ⟨.refl t, fun _ ha => .inl ha, fun _ he => .inl he⟩

theorem Keeping.trans {a b c : Tables} (first : Keeping scope a b) (second : Keeping scope b c) :
    Keeping scope a c := by
  refine ⟨first.toGrows.trans second.toGrows, ?_, ?_⟩
  · intro x hx
    rcases second.joined x hx with hx | new
    · rcases first.joined x hx with old | ⟨d, hd, rest⟩
      · exact .inl old
      · exact .inr ⟨d, second.chunks.subset hd, rest⟩
    · exact .inr new
  · intro e he
    rcases second.cached e he with he | new
    · rcases first.cached e he with old | cacheable
      · exact .inl old
      · exact .inr (cacheable.grows second.toGrows)
    · exact .inr new

theorem attachEmbedding_joined (s : Session) {chunkId embeddingId : Uuid} {g : EmbeddingConfiguration}
    (attachable : Attachable False scope t chunkId embeddingId g) :
    ∀ a ∈ (attachEmbedding s chunkId embeddingId g t).2.documentChunkEmbeddings,
      a ∈ t.documentChunkEmbeddings ∨
        ∃ c ∈ t.documentChunks, c.id = a.documentChunkId ∧ scope c.documentVersionId := by
  unfold attachEmbedding
  split
  · exact fun a ha => .inl ha
  · split
    · exact fun a ha => .inl ha
    · split
      · exact fun a ha => .inl ha
      · intro a ha
        rcases List.mem_append.mp ha with ha | ha
        · exact .inl ha
        · obtain ⟨c, hc, id, within, -⟩ := attachable
          exact .inr ⟨c, hc, List.mem_singleton.mp ha ▸ id, within⟩

theorem createEmbedding_cached (s : Session) {p : Uuid} {contentSha256 : Str}
    {g : EmbeddingConfiguration} {values : List PyFloat}
    (cacheable : Cacheable scope t contentSha256) :
    ∀ e ∈ (createEmbedding s p contentSha256 g values t).2.embeddingCacheEntries,
      e ∈ t.embeddingCacheEntries ∨ Cacheable scope t e.contentSha256 := by
  unfold createEmbedding
  split
  · exact fun e he => .inl he
  · split
    · exact fun e he => .inl he
    · split
      · exact fun e he => .inl he
      · split
        · exact fun e he => .inl he
        · intro e he
          rcases List.mem_append.mp he with he | he
          · exact .inl he
          · exact .inr (List.mem_singleton.mp he ▸ cacheable)

/-- An operation that neither attaches nor caches. -/
theorem keeping_of_same {t' : Tables} (grows : Grows t t')
    (same : t'.documentChunkEmbeddings = t.documentChunkEmbeddings ∧
      t'.embeddingCacheEntries = t.embeddingCacheEntries) : Keeping scope t t' :=
  ⟨grows, fun _ ha => .inl (same.1 ▸ ha), fun _ he => .inl (same.2 ▸ he)⟩

theorem step_others (sourced : Sourced t) (i : Input) :
    (step rt t i).documentChunkEmbeddings = t.documentChunkEmbeddings ∧
      (step rt t i).embeddingCacheEntries = t.embeddingCacheEntries := by
  have effect := @step_effect rt t sourced.parserIds sourced.parserChecked i
  generalize step rt t i = t' at effect
  cases effect <;> exact ⟨rfl, rfl⟩

theorem exec_keeping {a : Action} (e : Env) (sound : Sound rt.sha256 False t)
    (safe : Safe rt.sha256 False scope t a) : Keeping scope t (a.exec rt e t).2 := by
  obtain ⟨-, grows⟩ := exec_sound rt e sound safe
  obtain ⟨behalf, op⟩ := a
  cases op with
  | ingest i => exact keeping_of_same grows (step_others sound.sourced i)
  | sectionsForVersion | chunksForVersion | cachedEmbedding | embed => exact .refl t
  | createChunks v drafts =>
    apply keeping_of_same grows
    simp only [Action.exec, Op.exec, Indexing.createChunks]
    repeat' split
    all_goals exact ⟨rfl, rfl⟩
  | createEmbedding p contentSha256 g values =>
    refine ⟨grows, ?_, ?_⟩
    · simp only [Action.exec, Op.exec, Indexing.createEmbedding]
      repeat' split
      all_goals exact fun a ha => .inl ha
    · intro x hx
      exact (createEmbedding_cached e.session safe x hx).imp_right (·.grows grows)
  | attachEmbedding chunkId embeddingId g =>
    refine ⟨grows, ?_, ?_⟩
    · intro a ha
      rcases attachEmbedding_joined e.session safe a ha with old | ⟨c, hc, rest⟩
      · exact .inl old
      · exact .inr ⟨c, grows.chunks.subset hc, rest⟩
    · simp only [Action.exec, Op.exec, Indexing.attachEmbedding]
      repeat' split
      all_goals exact fun e he => .inl he
  | claimNext p =>
    apply keeping_of_same grows
    simp only [Action.exec, Op.exec, Indexing.claimNext]
    repeat' split
    all_goals exact ⟨rfl, rfl⟩
  | accept p c | fail p c =>
    apply keeping_of_same grows
    simp only [Action.exec, Op.exec, acceptIndexing, failIndexing, Indexing.finish]
    repeat' split
    all_goals exact ⟨rfl, rfl⟩
  | expireClaims p =>
    apply keeping_of_same grows
    simp only [Action.exec, Op.exec, Indexing.expireClaims]
    split <;> exact ⟨rfl, rfl⟩

theorem keeping_guarantees (rt : ParserRuntime) (scope : Uuid → Prop) :
    Guarantees (Action.exec rt) (Sound rt.sha256 False) (Keeping scope)
      (Safe rt.sha256 False scope) :=
  ⟨.refl, Keeping.trans, fun _ _ e sound safe => (exec_sound rt e sound safe).1,
    fun _ _ e sound safe => exec_keeping e sound safe⟩

/-- Whether a version has the chunk that is attached. -/
theorem attached_version (unique : (t.documentChunks.map (·.id)).Nodup) {c : DocumentChunkRecord}
    (hc : c ∈ t.documentChunks) (w : Uuid) :
    (t.documentChunks.any fun d => d.id = c.id && d.documentVersionId = w) =
      decide (c.documentVersionId = w) := by
  by_cases same : c.documentVersionId = w
  · rw [decide_eq_true same, List.any_eq_true]
    exact ⟨c, hc, by simp [same]⟩
  · rw [decide_eq_false same, List.any_eq_false]
    intro d hd both
    simp only [Bool.and_eq_true, decide_eq_true_eq] at both
    obtain rfl := eq_of_key unique hd hc both.1
    exact same both.2

/-- The attachments of another version stay as they are. -/
theorem Keeping.attachmentsOf {t' : Tables} {v w : Uuid} (keeping : Keeping (· = v) t t')
    (sound : Sound rt.sha256 False t) (sound' : Sound rt.sha256 False t') (other : w ≠ v) :
    attachmentsOf t' w = attachmentsOf t w := by
  obtain ⟨new, eq⟩ := keeping.attachments
  have keys := sound'.cached.attachmentKeys
  rw [← eq, List.map_append, List.nodup_append] at keys
  simp only [Indexing.attachmentsOf, ← eq, List.filter_append]
  have none' : new.filter (fun a => t'.documentChunks.any fun c =>
      c.id = a.documentChunkId && c.documentVersionId = w) = [] := by
    rw [List.filter_eq_nil_iff]
    intro a ha
    rcases keeping.joined a (eq ▸ List.mem_append_right _ ha) with old | ⟨c, hc, id, rfl⟩
    · exact absurd rfl (keys.2.2 _ (List.mem_map_of_mem old) _ (List.mem_map_of_mem ha))
    · rw [← id, attached_version sound'.cached.chunkIds hc w]
      simpa using other.symm
  rw [none', List.append_nil]
  apply List.filter_congr
  intro a ha
  obtain ⟨c, hc, -, -, id, -⟩ := sound.cached.attached a ha
  rw [← id, attached_version sound.cached.chunkIds hc w,
    attached_version sound'.cached.chunkIds (keeping.chunks.subset hc) w]

theorem isolated_of_owned {v : IndexingService} {projectId documentVersionId : Uuid}
    (sound : Sound rt.sha256 False t) (own : owns t projectId documentVersionId = true)
    (env : Nat → Env) : Isolated rt v projectId documentVersionId env t := by
  have foreign : ∀ w, Foreign t projectId w → w ≠ documentVersionId := by
    rintro w ⟨q, other, owned⟩ rfl
    exact other (owns_unique sound.sourced owned own)
  have called := @index_keeps rt False (· = documentVersionId) none v projectId documentVersionId t
    False.elim rfl
  have guards := keeping_guarantees rt (· = documentVersionId)
  have kept := called.narrow fun s u (keeping : Keeping (· = documentVersionId) s u) => keeping.toGrows
  obtain ⟨sound', keeping, -⟩ := Always.eval guards sound kept env 0
  refine ⟨?_, ?_, ?_, ?_⟩
  · intro x hx w h read
    obtain ⟨-, safe⟩ := Always.events guards sound kept env 0 x hx
    apply foreign w h
    obtain ⟨u, a, answer⟩ := x
    cases read with
    | found => exact safe
    | created => exact safe.1
  · intro w h
    exact keeping.attachmentsOf sound sound' (foreign w h)
  · intro e he
    refine (keeping.cached e he).imp_right ?_
    rintro ⟨c, hc, rfl, hash⟩
    exact ⟨c, hc, own, hash⟩
  · intro unowned
    rw [own] at unowned
    cases unowned

/-! ## Versions of others -/

section
variable {v : IndexingService} {projectId documentVersionId : Uuid}

/-- The answer of the chunks to a call whose sections are not read. -/
def chunksAnswer (v : IndexingService) (documentVersionId : Uuid) (env : Nat → Env) (t : Tables) :
    Except IndexError (List IndexedChunk) :=
  chunksForVersion (env 1).session documentVersionId v.chunking.version t

theorem sections_unowned (unowned : owns t projectId documentVersionId = false) {s : Session}
    (running : s.fails = false) : sectionsForVersion s projectId documentVersionId t = .ok [] := by
  simp [sectionsForVersion, unowned, running]

/-- A call for a version that is not owned reads no sections, and then the chunks. -/
theorem callEvents_unowned (unowned : owns t projectId documentVersionId = false) (env : Nat → Env)
    (running : (env 0).session.fails = false) :
    ∃ k, callEvents rt v projectId documentVersionId env t =
      (t, ⟨⟨none, .sectionsForVersion projectId documentVersionId⟩, .ok []⟩) ::
        (t, ⟨⟨none, .chunksForVersion documentVersionId v.chunking.version⟩,
          chunksAnswer v documentVersionId env t⟩) :: k := by
  simp only [callEvents, call, index, andThen, doing, perform, Prog.bind, events, Action.exec, Op.exec,
    sections_unowned unowned running]
  exact ⟨_, rfl⟩

/-- Where it has no chunks either, there is nothing to read or to write. -/
theorem call_empty (unowned : owns t projectId documentVersionId = false)
    (empty : chunkRows t documentVersionId v.chunking.version = []) (env : Nat → Env) :
    (callResult rt v projectId documentVersionId env t).2 = t ∧
      ∀ x ∈ callEvents rt v projectId documentVersionId env t, ∀ w, ¬ ReadsChunks w x.2 := by
  have none' := chunksOf_eq_nil.mpr empty
  cases first : (env 0).session.fails with
  | true =>
    have failed : sectionsForVersion (env 0).session projectId documentVersionId t =
        .error .unavailable := by
      simp [sectionsForVersion, first]
    simp only [callEvents, callResult, call, index, andThen, doing, perform, Prog.bind, events, eval,
      Action.exec, Op.exec, failed]
    refine ⟨trivial, ?_⟩
    intro x hx w read
    obtain rfl := List.mem_singleton.mp hx
    cases read
  | false =>
    have sections : indexSections rt none v projectId documentVersionId [] =
        andThen (doing none (.chunksForVersion documentVersionId v.chunking.version))
          (indexChunks rt none v projectId documentVersionId []) := rfl
    simp only [callEvents, callResult, call, index, andThen, doing, perform, Prog.bind, events, eval,
      Action.exec, Op.exec, sections_unowned unowned first, sections]
    cases second : (env 1).session.fails with
    | true =>
      have failed : chunksForVersion (env 1).session documentVersionId v.chunking.version t =
          .error .unavailable := by
        simp [chunksForVersion, second]
      simp only [failed, events, eval]
      refine ⟨trivial, ?_⟩
      intro x hx w read
      simp only [List.mem_cons, List.not_mem_nil, or_false] at hx
      rcases hx with rfl | rfl <;> cases read
    | false =>
      have found : chunksForVersion (env 1).session documentVersionId v.chunking.version t =
          .ok [] := by
        simp [chunksForVersion, second, none']
      have chunks : indexChunks rt none v projectId documentVersionId [] [] =
          andThen (doing none (.createChunks documentVersionId []))
            fun (chunks : List IndexedChunk) =>
            embedAndAttach none v projectId documentVersionId chunks.length chunks := rfl
      simp only [found, chunks, andThen, doing, perform, Prog.bind, events, eval, Action.exec, Op.exec]
      refine ⟨rfl, ?_⟩
      intro x hx w read
      rcases List.mem_cons.mp hx with rfl | hx
      · cases read
      · rcases List.mem_cons.mp hx with rfl | hx
        · cases read with
          | found some' => exact some' rfl
        · rcases List.mem_cons.mp hx with rfl | hx
          · cases read with
            | created some' => exact some' rfl
          · change x ∈ [] at hx
            cases hx

theorem isolated_of_empty (unowned : owns t projectId documentVersionId = false)
    (empty : chunkRows t documentVersionId v.chunking.version = []) (env : Nat → Env) :
    Isolated rt v projectId documentVersionId env t := by
  obtain ⟨same, unread⟩ := @call_empty rt t v projectId documentVersionId unowned empty env
  refine ⟨fun x hx w _ => unread x hx w, ?_, ?_, fun _ => same⟩
  · intro w _
    rw [same]
  · intro e he
    exact .inl (same ▸ he)

/-- Sessions that succeed. -/
def calmEnv (n : Nat) : Env := ⟨⟨false, fun i => .ofNat 128 (n + i), n⟩, .error .other⟩

/-- The chunks that a version has are read for any project. -/
theorem not_isolated (sound : Sound rt.sha256 False t)
    (unowned : owns t projectId documentVersionId = false)
    (chunked : chunkRows t documentVersionId v.chunking.version ≠ []) :
    ¬ Isolated rt v projectId documentVersionId calmEnv t := by
  intro isolated
  obtain ⟨k, trace⟩ := @callEvents_unowned rt t v projectId documentVersionId unowned calmEnv rfl
  obtain ⟨c, -, drafts⟩ := sound.cached.drafted _ _ chunked
  have sections : sectionsOf t documentVersionId ≠ [] := by
    intro none'
    rw [none'] at drafts
    exact chunked (List.map_eq_nil_iff.mp (Option.some.inj drafts).symm)
  obtain ⟨q, own⟩ := sound.sourced.sectioned _ sections
  have foreign : Foreign t projectId documentVersionId := by
    refine ⟨q, ?_, own⟩
    rintro rfl
    rw [unowned] at own
    cases own
  refine isolated.reads _ (trace ▸ List.mem_cons_of_mem _ List.mem_cons_self) _ foreign (.found ?_)
  simpa [chunksOf_eq_nil] using chunked

end

end

/-- In every store that workers, calls, claims and ingestion reach, calls of `index` for a project
and a version are isolated, whatever the adapter and the database answer them, exactly if the
version belongs to the project or has no chunks of the chunking version. -/
theorem isolated_iff (rt : ParserRuntime) (turns : List (Turn Request Env)) (v : IndexingService)
    (projectId documentVersionId : Uuid) :
    let t := (run (turn rt) emptyPool turns).shared
    (∀ env, Isolated rt v projectId documentVersionId env t) ↔
      owns t projectId documentVersionId = true ∨
        chunkRows t documentVersionId v.chunking.version = [] := by
  have sound := (run_kept (empty_kept rt) turns).1.shared
  dsimp only
  generalize (run (turn rt) emptyPool turns).shared = t at sound
  cases own : owns t projectId documentVersionId with
  | true => exact ⟨fun _ => .inl rfl, fun _ => isolated_of_owned sound own⟩
  | false =>
    simp only [Bool.false_eq_true, false_or]
    constructor
    · intro all
      by_contra chunked
      exact not_isolated sound own chunked (all calmEnv)
    · exact isolated_of_empty own

/-- Project 2 indexes the version of project 1, which has been indexed. -/
theorem foreign_call_reads : ¬ ∀ (rt : ParserRuntime) (turns : List (Turn Request Env))
    (v : IndexingService) (projectId documentVersionId : Uuid) (env : Nat → Env),
      Isolated rt v projectId documentVersionId env (run (turn rt) emptyPool turns).shared := by
  intro all
  have sound := (run_kept (empty_kept sampleParserRuntime) sampleInTime).1.shared
  exact not_isolated sound (by decide +kernel) (by decide +kernel)
    (all sampleParserRuntime sampleInTime sampleService 2 12 calmEnv)

end QaCopilot.Indexing
