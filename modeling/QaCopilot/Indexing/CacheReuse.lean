import QaCopilot.Indexing.IndexCalls
import QaCopilot.Ingestion.Quotas
import QaCopilot.Lib.Runs

/-!
# Reuse of the cache

`index` is called one call after another, while documents are ingested; the adapter and the
database may fail at any point.

* `index_cache`: a chunk is attached to the entry of its own hash, project and configuration, and
  a call that is repeated after it succeeded embeds and writes nothing.
-/

namespace QaCopilot.Indexing

open QaCopilot.Python QaCopilot.Program QaCopilot.Table QaCopilot.Leases QaCopilot.Ingestion
  QaCopilot.Runs

/-! ## Repetition -/

section
variable (rt : ParserRuntime) (env : Nat → Env) (u : Tables)

/-- The sessions of the call succeed. -/
def Calm : Prop := ∀ n, (env n).session.fails = false

/-- The operation neither writes nor embeds in the state `u`. -/
def Idle (t : Tables) (a : Action) : Prop :=
  t = u → (∀ texts c, a.op ≠ .embed texts c) ∧ ∀ n, (a.exec rt (env n) u).2 = u

/-- What comes of a call: a value that satisfies `Q`, and one in any case if the sessions succeed. -/
def Gives {α : Type} (Q : α → Prop) (r : Except IndexError α) : Prop :=
  (∀ a, r = .ok a → Q a) ∧ (Calm env → ∃ a, r = .ok a)

/-- A program that does nothing in the state `u`. -/
abbrev Rests {α : Type} (Q : α → Prop) (p : Indexes α) : Prop :=
  Always (fun a n => Action.exec rt a (env n)) (· = u) Eq (Idle rt env u)
    (fun r _ => Gives env Q r) p u

variable {rt env u}

theorem idle_guarantees :
    Guarantees (fun a n => Action.exec rt a (env n)) (· = u) Eq (Idle rt env u) := by
  refine ⟨fun _ => rfl, fun first second => first.trans second, ?_, ?_⟩
  · rintro t a n rfl idle
    exact (idle rfl).2 n
  · rintro t a n rfl idle
    exact ((idle rfl).2 n).symm

/-- An operation that answers unless the database fails. -/
theorem gives_unless {α : Type} {Q : α → Prop} {n : Nat} {e : IndexError} {x : α} (h : Q x) :
    Gives env Q (if (env n).session.fails then .error e else .ok x) := by
  by_cases fails : (env n).session.fails = true
  · rw [if_pos fails]
    refine ⟨by simp, ?_⟩
    intro calm
    simp [calm n] at fails
  · rw [if_neg fails]
    refine ⟨?_, fun _ => ⟨x, rfl⟩⟩
    rintro a same
    exact Except.ok.inj same ▸ h

theorem rests_andThen {α β : Type} {Q : α → Prop} {Q' : β → Prop} {p : Indexes α}
    {f : α → Indexes β} (first : Rests rt env u Q p) (rest : ∀ a, Q a → Rests rt env u Q' (f a)) :
    Rests rt env u Q' (andThen p f) := by
  apply Always.bind idle_guarantees first
  rintro r t rfl ⟨gives, calm⟩
  cases r with
  | error e =>
    rintro w rfl -
    refine ⟨by simp, ?_⟩
    intro h
    obtain ⟨a, raised⟩ := calm h
    cases raised
  | ok a => exact rest a (gives a rfl)

theorem rests_ok {α : Type} {Q : α → Prop} {a : α} (h : Q a) : Rests rt env u Q (.ret (.ok a)) := by
  rintro t rfl -
  refine ⟨?_, fun _ => ⟨a, rfl⟩⟩
  rintro b same
  exact Except.ok.inj same ▸ h

variable {owned : Prop} {behalf : Option ClaimedIndexingJob} {v : IndexingService}
  {projectId documentVersionId : Uuid}

/-- The entry that a key has. -/
theorem find_entry (sound : Sound rt.sha256 owned u) {contentSha256 : Str} {id : Uuid}
    (entry : Entry u projectId contentSha256 v.embedding id) :
    ∃ r, u.embeddingCacheEntries.find? (isEntry projectId contentSha256 v.embedding) = some r ∧
      r.id = id ∧ validVector r.values = true := by
  obtain ⟨r, hr, rfl, key⟩ := entry
  cases found : u.embeddingCacheEntries.find? (isEntry projectId contentSha256 v.embedding) with
  | none => exact absurd key (by simpa using List.find?_eq_none.mp found r hr)
  | some q =>
    have hq := List.mem_of_find?_eq_some found
    have same := (isEntry_iff.mp (List.find?_some found)).trans (isEntry_iff.mp key).symm
    obtain rfl := eq_of_key sound.cached.entryKeys hq hr same
    exact ⟨q, rfl, rfl, sound.cached.vectors q hq⟩

theorem cachedEmbedding_rests (sound : Sound rt.sha256 owned u) {contentSha256 : Str} {id : Uuid}
    (entry : Entry u projectId contentSha256 v.embedding id) :
    Rests rt env u (fun (found : Option CachedEmbedding) => ∃ e, found = some e ∧ e.id = id ∧
        validVector e.values = true)
      (doing behalf (.cachedEmbedding projectId contentSha256 v.embedding)) := by
  obtain ⟨r, found, id, valid⟩ := find_entry sound entry
  rintro t rfl -
  refine ⟨fun _ => ⟨by simp, fun n => rfl⟩, ?_⟩
  rintro n w rfl -
  simp only [Action.exec, Op.exec, Indexing.cachedEmbedding, found, cachedEmbeddingFromRecord, valid,
    if_true, Except.map]
  exact gives_unless ⟨_, rfl, id, valid⟩

theorem sectionsForVersion_rests (own : owns u projectId documentVersionId = true) :
    Rests rt env u (· = sectionsOf u documentVersionId)
      (doing behalf (.sectionsForVersion projectId documentVersionId)) := by
  rintro t rfl -
  refine ⟨fun _ => ⟨by simp, fun n => rfl⟩, ?_⟩
  rintro n w rfl -
  simp only [Action.exec, Op.exec, Indexing.sectionsForVersion, own, if_true]
  exact gives_unless rfl

theorem chunksForVersion_rests {chunkingVersion : Str} :
    Rests rt env u (· = (chunksOf u documentVersionId chunkingVersion).map indexedChunk)
      (doing behalf (.chunksForVersion documentVersionId chunkingVersion)) := by
  rintro t rfl -
  refine ⟨fun _ => ⟨by simp, fun n => rfl⟩, ?_⟩
  rintro n w rfl -
  exact gives_unless rfl

theorem attachEmbedding_rests (sound : Sound rt.sha256 owned u) {chunkId id : Uuid}
    (attached : Attached u chunkId id v.embedding) :
    Rests rt env u (fun _ => True) (doing behalf (.attachEmbedding chunkId id v.embedding)) := by
  obtain ⟨a, ha, key, rfl⟩ := attached
  have done : ∀ s : Session, attachEmbedding s chunkId a.embeddingCacheId v.embedding u =
      (if s.fails then .error .unavailable else .ok (), u) := by
    intro s
    unfold attachEmbedding
    split
    · rfl
    · cases found : u.documentChunkEmbeddings.find? (isAttachment chunkId v.embedding) with
      | none => exact absurd key (by simpa using List.find?_eq_none.mp found a ha)
      | some q =>
        have hq := List.mem_of_find?_eq_some found
        have same := (isAttachment_iff.mp (List.find?_some found)).trans
          (isAttachment_iff.mp key).symm
        obtain rfl := eq_of_key sound.cached.attachmentKeys hq ha same
        simp
  rintro t rfl -
  refine ⟨fun _ => ⟨by simp, fun n => congrArg Prod.snd (done (env n).session)⟩, ?_⟩
  rintro n w rfl -
  have answer := congrArg Prod.fst (done (env n).session)
  simp only [Action.exec, Op.exec]
  rw [answer]
  exact gives_unless trivial

/-! ### The parts of a call -/

/-- What the look-up finds of chunks that are all in the cache. -/
structure AllFound (v : IndexingService) (projectId : Uuid) (u : Tables)
    (chunks : List IndexedChunk) (hits : Nat) (f : Found) : Prop where
  known : Known v projectId f.cache u
  found : ∀ c ∈ chunks, ∃ e, (c.contentSha256, e) ∈ f.cache
  misses : f.misses = []
  hits : f.hits = hits

theorem lookUp_rests (sound : Sound rt.sha256 owned u) (chunks : List IndexedChunk)
    {done : List IndexedChunk} {f : Found} {hits : Nat}
    (entries : ∀ c ∈ chunks, ∃ id, Entry u projectId c.contentSha256 v.embedding id)
    (found : AllFound v projectId u done hits f) :
    Rests rt env u (AllFound v projectId u (done ++ chunks) (hits + chunks.length))
      (lookUp behalf v projectId f chunks) := by
  induction chunks generalizing done f hits with
  | nil =>
    apply rests_ok
    rw [List.append_nil]
    exact found
  | cons c chunks ih =>
    obtain ⟨id, entry⟩ := entries c List.mem_cons_self
    apply rests_andThen (cachedEmbedding_rests sound entry)
    rintro _ ⟨e, rfl, rfl, valid⟩
    dsimp only
    rw [if_pos valid]
    have next : AllFound v projectId u (done ++ [c]) (hits + 1) (f.hit c e) := by
      refine ⟨found.known.cons entry, ?_, found.misses, congrArg (· + 1) found.hits⟩
      intro d hd
      rcases List.mem_append.mp hd with hd | hd
      · obtain ⟨e', he'⟩ := found.found d hd
        exact ⟨e', List.mem_cons_of_mem _ he'⟩
      · rw [List.mem_singleton.mp hd]
        exact ⟨e, List.mem_cons_self⟩
    have rest := ih (fun d hd => entries d (List.mem_cons_of_mem _ hd)) next
    have chunked : (done ++ [c]) ++ chunks = done ++ c :: chunks := by simp
    have counted : hits + 1 + chunks.length = hits + (c :: chunks).length := by
      rw [List.length_cons]
      omega
    rw [chunked, counted] at rest
    exact rest

theorem attachAll_rests (sound : Sound rt.sha256 owned u) {cache : List (Str × CachedEmbedding)}
    (known : Known v projectId cache u) (chunks : List IndexedChunk)
    (found : ∀ c ∈ chunks, ∃ e, (c.contentSha256, e) ∈ cache)
    (attached : AllAttached v projectId chunks u) :
    Rests rt env u (fun _ => True) (attachAll behalf v cache chunks) := by
  induction chunks with
  | nil => exact rests_ok trivial
  | cons c chunks ih =>
    unfold attachAll
    split
    · rename_i absent
      obtain ⟨e, he⟩ := found c List.mem_cons_self
      have := List.lookup_eq_none_iff.mp absent _ he
      simp at this
    · rename_i cached present
      obtain ⟨front, back, rfl, -⟩ := List.lookup_eq_some_iff.mp present
      obtain ⟨r, hr, isCached, key⟩ := known _ (List.mem_append_right _ List.mem_cons_self)
      obtain ⟨id, ⟨q, hq, rfl, key'⟩, join⟩ := attached c List.mem_cons_self
      obtain rfl := eq_of_key sound.cached.entryKeys hr hq
        ((isEntry_iff.mp key).trans (isEntry_iff.mp key').symm)
      rw [isCached] at join
      apply rests_andThen (attachEmbedding_rests sound join)
      rintro ⟨⟩ -
      exact ih (fun d hd => found d (List.mem_cons_of_mem _ hd))
        fun d hd => attached d (List.mem_cons_of_mem _ hd)

/-- The result of a call that finds everything done. -/
def reused (documentVersionId : Uuid) (chunks : Nat) : IndexingResult :=
  ⟨documentVersionId, chunks, 0, 0, chunks⟩

theorem embedAndAttach_rests (sound : Sound rt.sha256 owned u) {chunks : List IndexedChunk}
    (attached : AllAttached v projectId chunks u) :
    Rests rt env u (· = reused documentVersionId chunks.length)
      (embedAndAttach behalf v projectId documentVersionId 0 chunks) := by
  have entries : ∀ c ∈ chunks, ∃ id, Entry u projectId c.contentSha256 v.embedding id := by
    intro c hc
    obtain ⟨id, entry, -⟩ := attached c hc
    exact ⟨id, entry⟩
  have start : AllFound v projectId u [] 0 ⟨[], [], 0⟩ :=
    ⟨by simp [Known], by simp, rfl, rfl⟩
  apply rests_andThen (lookUp_rests sound chunks entries start)
  rintro f found
  rw [List.nil_append, Nat.zero_add] at found
  apply rests_andThen (Q := (· = f.cache))
  · unfold embedMisses
    rw [found.misses]
    exact rests_ok rfl
  · rintro _ rfl
    apply rests_andThen (attachAll_rests sound found.known chunks found.found attached)
    rintro ⟨⟩ -
    apply rests_ok
    rw [reused, found.misses, found.hits]
    rfl

theorem createChunks_rests :
    Rests rt env u (· = []) (doing behalf (.createChunks documentVersionId [])) := by
  rintro t rfl -
  refine ⟨fun _ => ⟨by simp, fun n => rfl⟩, ?_⟩
  rintro n w rfl -
  refine ⟨?_, fun _ => ⟨[], rfl⟩⟩
  rintro chunks same
  exact (Except.ok.inj same).symm

theorem index_rests (sound : Sound rt.sha256 owned u)
    (settled : Settled v projectId documentVersionId u) :
    Rests rt env u
      (· = reused documentVersionId (chunkRows u documentVersionId v.chunking.version).length)
      (index rt behalf v projectId documentVersionId) := by
  have same : ((chunksOf u documentVersionId v.chunking.version).map indexedChunk).Perm
      ((chunkRows u documentVersionId v.chunking.version).map indexedChunk) :=
    (List.perm_insertionSort _ _).map _
  apply rests_andThen (sectionsForVersion_rests settled.own)
  rintro _ rfl
  rw [indexSections, if_pos settled.valid]
  apply rests_andThen chunksForVersion_rests
  rintro _ rfl
  unfold indexChunks
  split
  · rename_i none'
    rw [none'] at same
    have rows := List.map_eq_nil_iff.mp same.symm.eq_nil
    rw [settled.empty rows, rows]
    apply rests_andThen createChunks_rests
    rintro _ rfl
    have attached : AllAttached v projectId [] u := by simp [AllAttached]
    exact embedAndAttach_rests sound attached
  · have counted : ((chunksOf u documentVersionId v.chunking.version).map indexedChunk).length =
        (chunkRows u documentVersionId v.chunking.version).length :=
      same.length_eq.trans (List.length_map _)
    rw [← counted]
    exact embedAndAttach_rests sound fun c hc => settled.attached c (same.mem_iff.mp hc)

end

/-! ## Runs -/

/-- Ingestion, and calls of `index` that meet what their environment gives them. -/
inductive Event where
  | ingest (i : Input)
  | index (v : IndexingService) (projectId documentVersionId : Uuid) (env : Nat → Env)

def call (rt : ParserRuntime) (v : IndexingService) (projectId documentVersionId : Uuid) :
    Indexes IndexingResult :=
  index rt none v projectId documentVersionId

def callResult (rt : ParserRuntime) (v : IndexingService) (projectId documentVersionId : Uuid)
    (env : Nat → Env) (t : Tables) : Except IndexError IndexingResult × Tables :=
  eval (Action.exec rt) env 0 (call rt v projectId documentVersionId) t

def happen (rt : ParserRuntime) (t : Tables) : Event → Tables
  | .ingest i => step rt t i
  | .index v projectId documentVersionId env =>
    (callResult rt v projectId documentVersionId env t).2

/-- A version is indexed for the project that owns it. -/
def Owned (t : Tables) : Event → Prop
  | .ingest _ => True
  | .index _ projectId documentVersionId _ => owns t projectId documentVersionId = true

instance (t : Tables) (e : Event) : Decidable (Owned t e) :=
  match e with
  | .ingest _ => inferInstanceAs (Decidable True)
  | .index _ projectId documentVersionId _ =>
    inferInstanceAs (Decidable (owns t projectId documentVersionId = true))

theorem empty_sound (sha256 : Bytes → Str) (owned : Prop) : Sound sha256 owned .empty := by
  refine ⟨⟨List.nodup_nil, ?_, List.nodup_nil, List.nodup_nil, fun v some' => absurd rfl some'⟩,
    ⟨List.nodup_nil, ?_, List.nodup_nil, List.nodup_nil, ?_, List.nodup_nil, ?_⟩,
    ⟨List.nodup_nil, ?_, ?_, ?_⟩⟩
  · intro j hj
    cases hj
  · intro v w some'
    exact absurd rfl some'
  · intro e he
    cases he
  · intro a ha
    cases ha
  · intro j hj
    cases hj
  · intro j hj
    cases hj
  · intro j hj
    cases hj

section
variable {rt : ParserRuntime} {t : Tables}

theorem happen_sound {e : Event} (sound : Sound rt.sha256 True t) (owned : Owned t e) :
    Sound rt.sha256 True (happen rt t e) ∧ Grows t (happen rt t e) := by
  cases e with
  | ingest i => exact sound.ingest i
  | index v projectId documentVersionId env =>
    have called := @index_keeps rt True (fun _ => True) none v projectId documentVersionId t
      (fun _ => owned) trivial
    obtain ⟨keeps, grows, -⟩ := called.eval (guarantees rt True fun _ => True) sound env 0
    exact ⟨keeps, grows⟩

theorem run_sound {es : List Event} (sound : Sound rt.sha256 True t)
    (owned : Meets (happen rt) Owned t es) :
    Sound rt.sha256 True (run (happen rt) t es) ∧ Grows t (run (happen rt) t es) := by
  induction es generalizing t with
  | nil => exact ⟨sound, .refl t⟩
  | cons e es ih =>
    obtain ⟨sound', grows⟩ := happen_sound sound owned.1
    obtain ⟨last, later⟩ := ih sound' owned.2
    exact ⟨last, grows.trans later⟩

/-- What an operation answers to a call. -/
def callEvents (rt : ParserRuntime) (v : IndexingService) (projectId documentVersionId : Uuid)
    (env : Nat → Env) (t : Tables) : List (Tables × (a : Action) × a.Answer) :=
  events (Action.exec rt) env 0 (call rt v projectId documentVersionId) t

theorem callResult_reused {v : IndexingService} {projectId documentVersionId : Uuid}
    (sound : Sound rt.sha256 True t) (settled : Settled v projectId documentVersionId t)
    (env : Nat → Env) :
    (callResult rt v projectId documentVersionId env t).2 = t ∧
      (∀ x ∈ callEvents rt v projectId documentVersionId env t, ∀ texts c,
        x.2.1.op ≠ .embed texts c) ∧
      Gives env (· = reused documentVersionId
          (chunkRows t documentVersionId v.chunking.version).length)
        (callResult rt v projectId documentVersionId env t).1 := by
  have rests : Rests rt env t _ (call rt v projectId documentVersionId) :=
    index_rests sound settled
  obtain ⟨same, -, gives⟩ := Always.eval idle_guarantees rfl rests id 0
  have all := Always.events idle_guarantees rfl rests id 0
  have alone := eval_map (Action.exec rt) env id 0 (call rt v projectId documentVersionId) t
  have trace := events_map (Action.exec rt) env id 0 (call rt v projectId documentVersionId) t
  refine ⟨?_, ?_, ?_⟩
  · exact (congrArg Prod.snd alone).trans same
  · intro x hx
    obtain ⟨here, idle⟩ := all x (trace ▸ hx)
    exact (idle here).1
  · rw [callResult]
    exact alone ▸ gives

/-- A call that succeeds leaves its version settled. -/
theorem callResult_settled {v : IndexingService} {projectId documentVersionId : Uuid}
    {env : Nat → Env} {result : IndexingResult} (sound : Sound rt.sha256 True t)
    (own : owns t projectId documentVersionId = true)
    (ok : (callResult rt v projectId documentVersionId env t).1 = .ok result) :
    Settled v projectId documentVersionId (callResult rt v projectId documentVersionId env t).2 ∧
      result.chunkCount = (chunkRows (callResult rt v projectId documentVersionId env t).2
        documentVersionId v.chunking.version).length := by
  by_cases some' : sectionsOf t documentVersionId = []
  · have rows : chunkRows t documentVersionId v.chunking.version = [] := by
      by_contra chunked
      obtain ⟨c, -, drafts⟩ := sound.cached.drafted _ _ chunked
      rw [some'] at drafts
      exact chunked (List.map_eq_nil_iff.mp (Option.some.inj drafts).symm)
    have settled : Settled v projectId documentVersionId t := by
      refine ⟨own, by simp [some', byOrdinal], ?_, fun _ => some'⟩
      rw [rows]
      simp [AllAttached]
    obtain ⟨same, -, gives⟩ := callResult_reused sound settled env
    rw [same]
    refine ⟨settled, ?_⟩
    rw [gives.1 result ok]
    rfl
  · have called := @index_keeps rt True (fun _ => True) none v projectId documentVersionId t
      (fun _ => own) trivial
    obtain ⟨-, -, post⟩ := called.eval (guarantees rt True fun _ => True) sound env 0
    obtain ⟨settled, -, count⟩ := post result ok ⟨own, some'⟩
    exact ⟨settled, count⟩

end

/-- The attachment joins a chunk to the entry of its hash and configuration, in the project of its
version. -/
def Proper (t : Tables) (a : DocumentChunkEmbeddingRecord) : Prop :=
  ∃ c ∈ t.documentChunks, ∃ e ∈ t.embeddingCacheEntries,
    c.id = a.documentChunkId ∧ e.id = a.embeddingCacheId ∧
      Caches e c ⟨a.embeddingModel, a.embeddingVersion⟩ ∧
      ∀ p, owns t p c.documentVersionId = true ↔ p = e.projectId

/-- In every sequence of calls of `index` for versions of their own projects, whatever the adapter
and the database answer, and however documents are ingested between the calls: every attachment is
proper, chunks and entries are known by their ids, and an entry by its project, hash and
configuration; the chunks of a version are those of its sections, and once it has some it keeps
them. A call that has succeeded and is repeated neither embeds nor writes, and unless the database
fails it reports as many hits as the version has chunks, the number that the first call
reported. -/
theorem index_cache (rt : ParserRuntime) (es : List Event)
    (owned : Meets (happen rt) Owned .empty es) :
    let t := run (happen rt) .empty es
    (∀ a ∈ t.documentChunkEmbeddings, Proper t a) ∧
    (t.documentChunks.map (·.id)).Nodup ∧ (t.embeddingCacheEntries.map (·.id)).Nodup ∧
    (t.embeddingCacheEntries.map entryKey).Nodup ∧
    (∀ v chunkingVersion, chunkRows t v chunkingVersion ≠ [] →
      Drafted rt.sha256 t v chunkingVersion ∧
      ∀ more, Meets (happen rt) Owned t more →
        chunkRows (run (happen rt) t more) v chunkingVersion = chunkRows t v chunkingVersion) ∧
    ∀ v projectId documentVersionId env result, owns t projectId documentVersionId = true →
      (callResult rt v projectId documentVersionId env t).1 = .ok result →
      let t' := (callResult rt v projectId documentVersionId env t).2
      ∀ env', (callResult rt v projectId documentVersionId env' t').2 = t' ∧
        (∀ x ∈ callEvents rt v projectId documentVersionId env' t', ∀ texts c,
          x.2.1.op ≠ .embed texts c) ∧
        (∀ r, (callResult rt v projectId documentVersionId env' t').1 = .ok r →
          r = reused documentVersionId result.chunkCount) ∧
        (Calm env' → (callResult rt v projectId documentVersionId env' t').1 =
          .ok (reused documentVersionId result.chunkCount)) := by
  dsimp only
  obtain ⟨sound, -⟩ := run_sound (empty_sound rt.sha256 True) owned
  generalize run (happen rt) .empty es = t at sound
  refine ⟨?_, sound.cached.chunkIds, sound.cached.entryIds, sound.cached.entryKeys, ?_, ?_⟩
  · intro a ha
    obtain ⟨c, hc, e, he, isChunk, isEntry, caches, own⟩ := sound.cached.attached a ha
    refine ⟨c, hc, e, he, isChunk, isEntry, caches, ?_⟩
    intro p
    constructor
    · intro own'
      exact owns_unique sound.sourced own' (own trivial)
    · rintro rfl
      exact own trivial
  · intro v chunkingVersion some'
    refine ⟨sound.cached.drafted v chunkingVersion some', ?_⟩
    intro more owned
    exact (run_sound sound owned).2.chunked v chunkingVersion some'
  · intro v projectId documentVersionId env result own ok env'
    obtain ⟨settled, count⟩ := callResult_settled sound own ok
    obtain ⟨sound', -⟩ := @happen_sound rt t (.index v projectId documentVersionId env) sound own
    obtain ⟨same, idle, gives, calm⟩ := callResult_reused sound' settled env'
    rw [count]
    refine ⟨same, idle, gives, ?_⟩
    intro h
    obtain ⟨r, ok'⟩ := calm h
    exact ok'.trans (congrArg Except.ok (gives r ok'))

/-! ## One letter -/

def sampleParserRuntime : ParserRuntime := { sampleRuntime with upper := id }

/-- A session that succeeds and draws ids from `n` on. -/
def sampleSession (n : Nat) : Session := (sampleCall n).session

def sampleHash : Str := sampleRuntime.sha256 [0x61]

/-- A text file that holds one letter is admitted, parsed and promoted. -/
def sampleIngestion : List Input :=
  [.createQuarantined (sampleSession 10)
    ⟨1, ⟨lit "a.txt", lit "text/plain", lit "identity"⟩, .text, 1, sampleHash, ⟨1, 7⟩⟩,
    .enqueue (sampleSession 20) ⟨13⟩,
    .claimNext ⟨none, none, 60, by decide⟩ (sampleSession 30),
    .promote (sampleSession 40) 40 ⟨20, 13, 30, 30, 90⟩ ⟨.text, [0x61]⟩
      [⟨0, none, none, 1, 1, lit "a", sampleHash⟩]]

def sampleService : IndexingService where
  chunking := ⟨defaultChunkingVersion, 1000, 100, by decide +kernel, by decide, by decide⟩
  embedding := ⟨defaultEmbeddingModel, defaultEmbeddingVersion⟩
  valid := by decide +kernel

/-- An adapter that knows one vector, in sessions that succeed. -/
def sampleEnv (n k : Nat) : Env := ⟨sampleSession (n + k), .ok [[.ofRatio false 1 1]]⟩

theorem index_cache_sample :
    (callResult sampleParserRuntime sampleService 1 12 (sampleEnv 60)
      (callResult sampleParserRuntime sampleService 1 12 (sampleEnv 50)
        (run (happen sampleParserRuntime) .empty (sampleIngestion.map .ingest))).2).1 =
      .ok (reused 12 1) := by
  have cache := index_cache sampleParserRuntime (sampleIngestion.map .ingest) (by decide +kernel)
  obtain ⟨-, -, -, -, -, repeated⟩ := cache
  exact (repeated sampleService 1 12 (sampleEnv 50) ⟨12, 1, 1, 1, 0⟩ (by decide +kernel)
    (by decide +kernel) (sampleEnv 60)).2.2.2 fun _ => rfl

end QaCopilot.Indexing
