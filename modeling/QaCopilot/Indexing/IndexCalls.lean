import QaCopilot.Indexing.Operations

/-!
# Index calls

* `index_keeps`: a call of `index` keeps the evidence sound against any interference, and leaves a
  version that has sections complete.
-/

namespace QaCopilot.Indexing

open QaCopilot.Python QaCopilot.Program QaCopilot.Table QaCopilot.Leases QaCopilot.Ingestion

section
variable {rt : ParserRuntime} {owned : Prop} {scope : Uuid → Prop}

/-- A program that keeps `Sound` against the steps of all others, and ends in `Post`. -/
abbrev Keeps {α : Type} (rt : ParserRuntime) (owned : Prop) (scope : Uuid → Prop)
    (Post : α → Tables → Prop) (p : Prog Action Action.Answer α) (t : Tables) : Prop :=
  Always (Action.exec rt) (Sound rt.sha256 owned) Grows (Safe rt.sha256 owned scope) Post p t

/-- What holds of the value of a call that did not raise. -/
def Returns {α : Type} (Post : α → Tables → Prop) (r : Except IndexError α) (t : Tables) : Prop :=
  ∀ a, r = .ok a → Post a t

theorem keeps_doing {behalf : Option ClaimedIndexingJob} {o : Op}
    {Post : o.Answer → Tables → Prop} {t : Tables}
    (safe : ∀ u, Sound rt.sha256 owned u → Grows t u → Safe rt.sha256 owned scope u ⟨behalf, o⟩)
    (post : ∀ u e, Sound rt.sha256 owned u → Grows t u →
      ∀ w, Grows (o.exec rt e u).2 w → Post (o.exec rt e u).1 w) :
    Keeps rt owned scope Post (doing behalf o) t := by
  intro u sound grows
  refine ⟨safe u sound grows, ?_⟩
  intro e w _ later
  exact post u e sound grows w later

theorem keeps_andThen {α β : Type} {M : α → Tables → Prop} {Post : β → Tables → Prop}
    {p : Indexes α} {f : α → Indexes β} {t : Tables} (first : Keeps rt owned scope (Returns M) p t)
    (rest : ∀ a u, Grows t u → M a u → Keeps rt owned scope (Returns Post) (f a) u) :
    Keeps rt owned scope (Returns Post) (andThen p f) t := by
  apply Always.bind (guarantees rt owned scope) (first.since (guarantees rt owned scope))
  rintro r u - ⟨grows, mid⟩
  cases r with
  | error e =>
    intro w _ _ b raised
    cases raised
  | ok a => exact rest a u grows (mid a rfl)

theorem keeps_ok {α : Type} {Post : α → Tables → Prop} {a : α} {t : Tables}
    (post : ∀ u, Grows t u → Post a u) : Keeps rt owned scope (Returns Post) (.ret (.ok a)) t := by
  intro u _ grows b same
  exact Except.ok.inj same ▸ post u grows

theorem keeps_error {α : Type} {Post : α → Tables → Prop} {e : IndexError} {t : Tables} :
    Keeps rt owned scope (Returns Post) (.ret (.error e)) t := by
  intro u _ _ b raised
  cases raised

/-! ### The parts of a call -/

variable {behalf : Option ClaimedIndexingJob} {v : IndexingService} {projectId : Uuid}

/-- Every hash of the cache has the entry that the cache gives. -/
def Known (v : IndexingService) (projectId : Uuid) (cache : List (Str × CachedEmbedding))
    (t : Tables) : Prop :=
  ∀ x ∈ cache, Entry t projectId x.1 v.embedding x.2.id

theorem Known.grows {cache : List (Str × CachedEmbedding)} {t t' : Tables}
    (known : Known v projectId cache t) (grows : Grows t t') : Known v projectId cache t' :=
  fun x hx => (known x hx).grows grows

theorem Known.cons {cache : List (Str × CachedEmbedding)} {t : Tables}
    (known : Known v projectId cache t) {contentSha256 : Str} {e : CachedEmbedding}
    (entry : Entry t projectId contentSha256 v.embedding e.id) :
    Known v projectId ((contentSha256, e) :: cache) t := by
  intro x hx
  rcases List.mem_cons.mp hx with rfl | hx
  · exact entry
  · exact known x hx

theorem Found.miss_of {f : Found} {c : IndexedChunk} {S : Str → Prop}
    (missed : ∀ x ∈ f.misses, S x.1) (hash : S c.contentSha256) : ∀ x ∈ (f.miss c).misses, S x.1 := by
  unfold Found.miss
  split
  · exact missed
  · intro x hx
    rcases List.mem_append.mp hx with hx | hx
    · exact missed x hx
    · exact List.mem_singleton.mp hx ▸ hash

theorem lookUp_keeps (chunks : List IndexedChunk) {f : Found} {t : Tables} {S : Str → Prop}
    (known : Known v projectId f.cache t) (hashes : ∀ c ∈ chunks, S c.contentSha256)
    (missed : ∀ x ∈ f.misses, S x.1) :
    Keeps rt owned scope (Returns fun f u => Known v projectId f.cache u ∧ ∀ x ∈ f.misses, S x.1)
      (lookUp behalf v projectId f chunks) t := by
  induction chunks generalizing f t with
  | nil => exact keeps_ok fun u grows => ⟨known.grows grows, missed⟩
  | cons c chunks ih =>
    have later := fun d hd => hashes d (List.mem_cons_of_mem c hd)
    apply keeps_andThen (M := fun (found : Option CachedEmbedding) u =>
      ∀ e, found = some e → Entry u projectId c.contentSha256 v.embedding e.id)
    · apply keeps_doing
      · intro u _ _
        trivial
      · rintro u e _ - w later found eq cached rfl
        exact (cachedEmbedding_entry eq).grows later
    · rintro (_ | cached) u grows entry
      · have known' : Known v projectId (f.miss c).cache u := by
          unfold Found.miss
          split <;> exact known.grows grows
        exact ih known' later (Found.miss_of missed (hashes c List.mem_cons_self))
      · dsimp only
        split
        · exact ih ((known.grows grows).cons (entry cached rfl)) later missed
        · exact keeps_error

theorem createAll_keeps (vectors : List (Str × List PyFloat))
    {cache : List (Str × CachedEmbedding)} {t : Tables} (known : Known v projectId cache t)
    (cacheable : ∀ x ∈ vectors, Cacheable scope t x.1) :
    Keeps rt owned scope (Returns fun cache u => Known v projectId cache u)
      (createAll behalf v projectId cache vectors) t := by
  induction vectors generalizing cache t with
  | nil => exact keeps_ok fun u grows => known.grows grows
  | cons x vectors ih =>
    obtain ⟨contentSha256, values⟩ := x
    apply keeps_andThen (M := fun (e : CachedEmbedding) u =>
      Entry u projectId contentSha256 v.embedding e.id)
    · apply keeps_doing
      · intro u _ grows
        exact (cacheable _ List.mem_cons_self).grows grows
      · intro u e sound _ w later cached eq
        exact ((createEmbedding_sound e.session sound).2 cached eq).grows later
    · intro cached u grows entry
      split
      · exact ih ((known.grows grows).cons entry)
          fun x hx => (cacheable x (List.mem_cons_of_mem _ hx)).grows grows
      · exact keeps_error

theorem embedMisses_keeps {f : Found} {t : Tables} (known : Known v projectId f.cache t)
    (cacheable : ∀ x ∈ f.misses, Cacheable scope t x.1) :
    Keeps rt owned scope (Returns fun cache u => Known v projectId cache u)
      (embedMisses behalf v projectId f) t := by
  unfold embedMisses
  split
  · exact keeps_ok fun u grows => known.grows grows
  · apply keeps_andThen (M := fun _ _ => True)
    · apply keeps_doing
      · intro u _ _
        trivial
      · intro u e _ _ w _ vectors _
        trivial
    · intro vectors u grows _
      split
      · exact keeps_error
      · apply createAll_keeps _ (known.grows grows)
        intro x hx
        obtain ⟨y, hy, same⟩ := List.mem_map.mp (List.of_mem_zip hx).1
        exact same ▸ (cacheable y hy).grows grows

variable {documentVersionId : Uuid} {chunkingVersion : Str} {full : Prop}

theorem attachable_of_listed {cache : List (Str × CachedEmbedding)} {chunks : List IndexedChunk}
    {c : IndexedChunk} {cached : CachedEmbedding} {t : Tables}
    (listed : Listed t documentVersionId chunkingVersion full chunks) (hc : c ∈ chunks)
    (known : Known v projectId cache t) (found : (c.contentSha256, cached) ∈ cache)
    (own : owned → owns t projectId documentVersionId = true) (within : scope documentVersionId) :
    Attachable owned scope t c.id cached.id v.embedding := by
  obtain ⟨r, hr, rfl⟩ := List.mem_map.mp ((listed.same (List.ne_nil_of_mem hc)).mem_iff.mp hc)
  obtain ⟨mem, rfl, -⟩ := mem_chunkRows.mp hr
  obtain ⟨e, he, id, key⟩ := known _ found
  have key := isEntry_iff.mp key
  simp only [entryKey, Prod.mk.injEq] at key
  obtain ⟨rfl, hash, model, version⟩ := key
  exact ⟨r, mem, rfl, within, e, he, id, ⟨hash, model, version⟩, own⟩

/-- Every one of the chunks is attached to an entry of its hash. -/
def AllAttached (v : IndexingService) (projectId : Uuid) (chunks : List IndexedChunk) (t : Tables) :
    Prop :=
  ∀ c ∈ chunks, ∃ id, Entry t projectId c.contentSha256 v.embedding id ∧
    Attached t c.id id v.embedding

theorem Attached.grows {t t' : Tables} {chunkId embeddingId : Uuid} {g : EmbeddingConfiguration}
    (attached : Attached t chunkId embeddingId g) (grows : Grows t t') :
    Attached t' chunkId embeddingId g := by
  obtain ⟨a, ha, rest⟩ := attached
  exact ⟨a, grows.attachments.subset ha, rest⟩

theorem AllAttached.grows {chunks : List IndexedChunk} {t t' : Tables}
    (attached : AllAttached v projectId chunks t) (grows : Grows t t') :
    AllAttached v projectId chunks t' := by
  intro c hc
  obtain ⟨id, entry, join⟩ := attached c hc
  exact ⟨id, entry.grows grows, join.grows grows⟩

theorem attachAll_keeps {cache : List (Str × CachedEmbedding)} (chunks : List IndexedChunk)
    {done all : List IndexedChunk} {t : Tables} (split' : done ++ chunks = all)
    (listed : Listed t documentVersionId chunkingVersion full all)
    (known : Known v projectId cache t) (own : owned → owns t projectId documentVersionId = true)
    (within : scope documentVersionId) (attached : AllAttached v projectId done t) :
    Keeps rt owned scope (Returns fun _ u => Listed u documentVersionId chunkingVersion full all ∧
      AllAttached v projectId all u) (attachAll behalf v cache chunks) t := by
  induction chunks generalizing done t with
  | nil =>
    rw [List.append_nil] at split'
    subst split'
    apply keeps_ok
    intro u grows
    exact ⟨listed.grows grows, attached.grows grows⟩
  | cons c chunks ih =>
    unfold attachAll
    split
    · exact keeps_error
    · rename_i cached found
      have hc : c ∈ all := split' ▸ List.mem_append_right _ List.mem_cons_self
      have found : (c.contentSha256, cached) ∈ cache := by
        obtain ⟨front, back, rfl, -⟩ := List.lookup_eq_some_iff.mp found
        exact List.mem_append_right _ List.mem_cons_self
      apply keeps_andThen (M := fun _ u => Attached u c.id cached.id v.embedding)
      · have safe : ∀ u, Grows t u → Attachable owned scope u c.id cached.id v.embedding := by
          intro u grows
          exact attachable_of_listed (listed.grows grows) hc (known.grows grows) found
            (fun h => grows.owned _ _ (own h)) within
        apply keeps_doing
        · intro u _ grows
          exact safe u grows
        · intro u e sound grows w later _ eq
          exact ((attachEmbedding_sound e.session sound (safe u grows)).2 eq).grows later
      · rintro ⟨⟩ u grows join
        refine @ih (done ++ [c]) u ?_ ?_ ?_ ?_ ?_
        · rw [List.append_assoc]
          exact split'
        · exact listed.grows grows
        · exact known.grows grows
        · exact fun h => grows.owned _ _ (own h)
        · intro d hd
          rcases List.mem_append.mp hd with hd | hd
          · exact attached.grows grows d hd
          · rw [List.mem_singleton.mp hd]
            exact ⟨cached.id, (known _ found).grows grows, join⟩

/-- Every chunk of the version is attached to an entry of its hash. -/
structure Attends (t : Tables) (v : IndexingService) (projectId documentVersionId : Uuid)
    (chunkingVersion : Str) : Prop where
  some' : chunkRows t documentVersionId chunkingVersion ≠ []
  attached : AllAttached v projectId
    ((chunkRows t documentVersionId chunkingVersion).map indexedChunk) t

theorem Attends.complete {t : Tables}
    (attends : Attends t v projectId documentVersionId chunkingVersion) :
    Complete t documentVersionId chunkingVersion v.embedding := by
  refine ⟨attends.some', ?_⟩
  intro c hc
  obtain ⟨id, ⟨e, he, rfl, key⟩, a, ha, join, same⟩ :=
    attends.attached _ (List.mem_map_of_mem hc)
  have key := isEntry_iff.mp key
  simp only [entryKey, Prod.mk.injEq] at key
  exact ⟨a, ha, join, e, he, same.symm, key.2⟩

/-- What a call leaves of a full version. -/
def Indexed (v : IndexingService) (projectId documentVersionId : Uuid) (chunkingVersion : Str)
    (full : Prop) (r : IndexingResult) (t : Tables) : Prop :=
  full → Attends t v projectId documentVersionId chunkingVersion ∧
    r.chunkCount = (chunkRows t documentVersionId chunkingVersion).length

theorem embedAndAttach_keeps {created : Nat} {chunks : List IndexedChunk} {t : Tables}
    (listed : Listed t documentVersionId chunkingVersion full chunks)
    (own : owned → owns t projectId documentVersionId = true) (within : scope documentVersionId) :
    Keeps rt owned scope (Returns (Indexed v projectId documentVersionId chunkingVersion full))
      (embedAndAttach behalf v projectId documentVersionId created chunks) t := by
  have hashes : ∀ c ∈ chunks, Cacheable scope t c.contentSha256 := by
    intro c hc
    obtain ⟨r, hr, rfl⟩ := List.mem_map.mp ((listed.same (List.ne_nil_of_mem hc)).mem_iff.mp hc)
    obtain ⟨mem, rfl, -⟩ := mem_chunkRows.mp hr
    exact ⟨r, mem, within, rfl⟩
  apply keeps_andThen (lookUp_keeps chunks (by simp [Known]) hashes (by simp))
  rintro f u grows ⟨known, missed⟩
  apply keeps_andThen (embedMisses_keeps known fun x hx => (missed x hx).grows grows)
  intro cache w grows' known
  have later := grows.trans grows'
  apply keeps_andThen (attachAll_keeps chunks (List.nil_append chunks) (listed.grows later) known
    (fun h => later.owned _ _ (own h)) within (by simp [AllAttached]))
  rintro ⟨⟩ x - ⟨listed, attached⟩
  apply keeps_ok
  intro y grows h
  have same := (listed.grows grows).same (listed.some' h)
  refine ⟨⟨?_, ?_⟩, ?_⟩
  · intro none'
    rw [none'] at same
    exact listed.some' h same.eq_nil
  · intro c hc
    exact (attached.grows grows) c (same.mem_iff.mpr hc)
  · exact same.length_eq.trans (List.length_map _)

/-- The sections that a call has read. -/
structure Read (t : Tables) (documentVersionId : Uuid) (full : Prop)
    (sections : List NormalizedSection) : Prop where
  same : sections ≠ [] → sections = sectionsOf t documentVersionId
  some' : full → sections ≠ []

theorem Read.grows {t t' : Tables} {sections : List NormalizedSection}
    (read : Read t documentVersionId full sections) (grows : Grows t t') :
    Read t' documentVersionId full sections := by
  refine ⟨?_, read.some'⟩
  intro some'
  have same := read.same some'
  exact same.trans (grows.sections _ (same ▸ some')).symm

theorem byOrdinal_eq_nil {sections : List NormalizedSection} : byOrdinal sections = [] ↔ sections = [] := by
  rw [byOrdinal, ← List.length_eq_zero_iff, List.length_insertionSort, List.length_eq_zero_iff]

theorem chunkable_of_read {t : Tables} {sections : List NormalizedSection}
    {drafts : List ChunkDraft} (read : Read t documentVersionId full sections)
    (made : chunkSections rt.sha256 v.chunking 0 (byOrdinal sections) = some drafts) :
    Chunkable rt.sha256 t documentVersionId drafts := by
  intro some'
  have sections_some : sections ≠ [] := by
    rintro rfl
    exact some' (Option.some.inj made).symm
  exact ⟨v.chunking, read.same sections_some ▸ made⟩

/-- `index` once it has its sections. -/
theorem chunks_keeps {t : Tables} {sections : List NormalizedSection}
    (read : Read t documentVersionId full sections)
    (own : owned → owns t projectId documentVersionId = true) (within : scope documentVersionId) :
    Keeps rt owned scope (Returns (Indexed v projectId documentVersionId v.chunking.version full))
      (andThen (doing behalf (.chunksForVersion documentVersionId v.chunking.version))
        (indexChunks rt behalf v projectId documentVersionId (byOrdinal sections))) t := by
  apply keeps_andThen (M := fun (chunks : List IndexedChunk) u => chunks ≠ [] →
    Listed u documentVersionId v.chunking.version full chunks)
  · apply keeps_doing
    · intro u _ _
      exact within
    · intro u e _ _ w later chunks eq some'
      simp only [Op.exec, Indexing.chunksForVersion] at eq later
      split at eq
      · cases eq
      · obtain rfl := Except.ok.inj eq
        have rows : chunksOf u documentVersionId v.chunking.version ≠ [] := by simpa using some'
        exact (chunksOf_listed rows).grows later
  · intro chunks u grows listed
    have read := read.grows grows
    have own := fun h => grows.owned _ _ (own h)
    unfold indexChunks
    split
    · split
      · exact keeps_error
      · rename_i drafts made
        apply keeps_andThen (M := fun (chunks : List IndexedChunk) u =>
          Listed u documentVersionId v.chunking.version full chunks)
        · have chunkable : ∀ w, Grows u w → Chunkable rt.sha256 w documentVersionId drafts :=
            fun w later => chunkable_of_read (read.grows later) made
          apply keeps_doing
          · intro w _ later
            exact ⟨within, chunkable w later⟩
          · intro w e sound grows x later chunks eq
            refine (createChunks_listed (chunkSections_version made) ?_ eq).grows later
            intro h
            exact chunkSections_nonempty made (fun none' => read.some' h (byOrdinal_eq_nil.mp none'))
        · intro chunks w grows listed
          exact embedAndAttach_keeps listed (fun h => grows.owned _ _ (own h)) within
    · rename_i some'
      exact embedAndAttach_keeps (listed some') own within

/-- The version is indexed, and another call finds nothing to do. -/
structure Settled (v : IndexingService) (projectId documentVersionId : Uuid) (t : Tables) : Prop where
  own : owns t projectId documentVersionId = true
  valid : (byOrdinal (sectionsOf t documentVersionId)).all (·.valid) = true
  attached : AllAttached v projectId
    ((chunkRows t documentVersionId v.chunking.version).map indexedChunk) t
  empty : chunkRows t documentVersionId v.chunking.version = [] →
    sectionsOf t documentVersionId = []

/-- What a call keeps, and what it leaves of a version that has sections. -/
theorem index_keeps {t : Tables} (own : owned → owns t projectId documentVersionId = true)
    (within : scope documentVersionId) :
    Keeps rt owned scope (Returns fun r u =>
        owns t projectId documentVersionId = true ∧ sectionsOf t documentVersionId ≠ [] →
          Settled v projectId documentVersionId u ∧
          Complete u documentVersionId v.chunking.version v.embedding ∧
          r.chunkCount = (chunkRows u documentVersionId v.chunking.version).length)
      (index rt behalf v projectId documentVersionId) t := by
  let full := owns t projectId documentVersionId = true ∧ sectionsOf t documentVersionId ≠ []
  apply keeps_andThen (M := fun (sections : List NormalizedSection) u =>
    Read u documentVersionId full sections)
  · apply keeps_doing
    · intro u _ _
      trivial
    · intro u e _ grows w later sections eq
      simp only [Op.exec, Indexing.sectionsForVersion] at eq later
      split at eq
      · cases eq
      · split at eq
        · obtain rfl := Except.ok.inj eq
          refine Read.grows ⟨fun _ => rfl, ?_⟩ later
          rintro ⟨-, some'⟩
          exact grows.sections _ some' ▸ some'
        · rename_i foreign
          obtain rfl := Except.ok.inj eq
          refine ⟨fun some' => absurd rfl some', ?_⟩
          rintro ⟨own, -⟩
          exact absurd (grows.owned _ _ own) foreign
  · intro sections u grows read
    unfold indexSections
    split
    · rename_i valid
      have called := @chunks_keeps rt owned scope behalf v projectId _ _ _ _ read
        (fun h => grows.owned _ _ (own h)) within
      refine (called.since (guarantees rt owned scope)).mono ?_
      rintro r w - ⟨later, indexed⟩ result rfl h
      obtain ⟨attends, count⟩ := indexed result rfl h
      refine ⟨⟨later.owned _ _ (grows.owned _ _ h.1), ?_, attends.attached, ?_⟩, attends.complete,
        count⟩
      · rw [← (read.grows later).same (read.some' h)]
        exact valid
      · intro none'
        exact absurd none' attends.some'
    · exact keeps_error

end

end QaCopilot.Indexing
