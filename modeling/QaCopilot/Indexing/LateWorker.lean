import QaCopilot.Indexing.IndexingLease

/-!
# Late workers

`index` writes in transactions of its own, none of which reads the claim on behalf of which it
runs.

* `late_worker_writes`: a worker writes chunks after its claim has expired and its job has failed;
* `no_late_write`: as long as no step meets a clock at or past the deadline of a claim that is
  still being indexed, no worker writes after its claim has expired or its job has failed.
-/

namespace QaCopilot.Indexing

open QaCopilot.Python QaCopilot.Program QaCopilot.Table QaCopilot.Leases QaCopilot.Ingestion
  QaCopilot.Runs

/-! ## The claim of a thread -/

/-- The operations of `index`. -/
def Op.indexes : Op → Bool
  | .sectionsForVersion .. | .chunksForVersion .. | .createChunks .. | .cachedEmbedding ..
  | .embed .. | .createEmbedding .. | .attachEmbedding .. => true
  | _ => false

/-- The claim on behalf of which a thread is about to act. -/
def holder (p : Thread) : Option ClaimedIndexingJob := p.next.bind (·.behalf)

/-- The claim on behalf of which a thread is about to index. -/
def indexedClaim (p : Thread) : Option ClaimedIndexingJob :=
  p.next.bind fun a => if a.op.indexes then a.behalf else none

/-- Chunks, cached embeddings or attachments have changed. -/
def Writes (t t' : Tables) : Prop :=
  t'.documentChunks ≠ t.documentChunks ∨ t'.embeddingCacheEntries ≠ t.embeddingCacheEntries ∨
    t'.documentChunkEmbeddings ≠ t.documentChunkEmbeddings

/-- The claim has expired, or its job has failed. -/
def Over (t : Tables) (now : Int) (c : ClaimedIndexingJob) : Prop :=
  c.claimExpiresAt ≤ now ∨ ∃ j ∈ t.indexingJobs, j.id = c.jobId ∧ j.lease.state = .finished .failed

instance (t t' : Tables) : Decidable (Writes t t') :=
  inferInstanceAs (Decidable (_ ∨ _ ∨ _))

instance (t : Tables) (now : Int) (c : ClaimedIndexingJob) : Decidable (Over t now c) :=
  inferInstanceAs (Decidable (_ ∨ _))

/-- The turn writes on behalf of a claim that is over. -/
def late (rt : ParserRuntime) (pool : Pool Tables Thread) : Turn Request Env → Bool
  | .spawn _ => false
  | .step i e =>
    (pool.threads[i]?.bind holder).any fun c =>
      Over pool.shared e.session.now c ∧ Writes pool.shared (turn rt pool (.step i e)).shared

/-- Workers, claims, expiries and ingestion; only its holder fails a job. -/
def Leasing : Turn Request Env → Bool
  | .spawn (.fail _ _) => false
  | _ => true

/-- The clock of the step is before the deadline of every claim that is being indexed. -/
def InTime (pool : Pool Tables Thread) : Turn Request Env → Bool
  | .spawn _ => true
  | .step _ e =>
    pool.threads.all fun p => (indexedClaim p).all (e.session.now < ·.claimExpiresAt)

/-! ## The threads -/

/-- Every operation indexes, on behalf of one claim. -/
def Only (behalf : Option ClaimedIndexingJob) {α : Type} : Prog Action Action.Answer α → Prop
  | .ret _ => True
  | .op a k => a.behalf = behalf ∧ a.op.indexes = true ∧ ∀ r, Only behalf (k r)

section
variable {behalf : Option ClaimedIndexingJob}

theorem only_doing {o : Op} (indexes : o.indexes = true) : Only behalf (doing behalf o) :=
  ⟨rfl, indexes, fun _ => trivial⟩

theorem only_andThen {α β : Type} {p : Indexes α} {f : α → Indexes β} (first : Only behalf p)
    (rest : ∀ a, Only behalf (f a)) : Only behalf (andThen p f) := by
  unfold andThen
  induction p with
  | ret r =>
    cases r with
    | error e => trivial
    | ok a => exact rest a
  | op a k ih => exact ⟨first.1, first.2.1, fun r => ih r (first.2.2 r)⟩

theorem lookUp_only (v : IndexingService) (projectId : Uuid) (chunks : List IndexedChunk)
    (f : Found) : Only behalf (lookUp behalf v projectId f chunks) := by
  induction chunks generalizing f with
  | nil => trivial
  | cons c chunks ih =>
    apply only_andThen (only_doing rfl)
    rintro (_ | cached)
    · exact ih _
    · dsimp only
      split
      · exact ih _
      · trivial

theorem createAll_only (v : IndexingService) (projectId : Uuid) (vectors : List (Str × List PyFloat))
    (cache : List (Str × CachedEmbedding)) :
    Only behalf (createAll behalf v projectId cache vectors) := by
  induction vectors generalizing cache with
  | nil => trivial
  | cons x vectors ih =>
    apply only_andThen (only_doing rfl)
    intro cached
    split
    · exact ih _
    · trivial

theorem attachAll_only (v : IndexingService) (cache : List (Str × CachedEmbedding))
    (chunks : List IndexedChunk) : Only behalf (attachAll behalf v cache chunks) := by
  induction chunks with
  | nil => trivial
  | cons c chunks ih =>
    unfold attachAll
    split
    · trivial
    · exact only_andThen (only_doing rfl) fun _ => ih

theorem embedAndAttach_only (v : IndexingService) (projectId documentVersionId : Uuid)
    (created : Nat) (chunks : List IndexedChunk) :
    Only behalf (embedAndAttach behalf v projectId documentVersionId created chunks) := by
  apply only_andThen (lookUp_only v projectId chunks _)
  intro f
  apply only_andThen
  · unfold embedMisses
    split
    · trivial
    · apply only_andThen (only_doing rfl)
      intro vectors
      split
      · trivial
      · exact createAll_only v projectId _ _
  · intro cache
    exact only_andThen (attachAll_only v cache chunks) fun _ => trivial

theorem index_only (rt : ParserRuntime) (v : IndexingService) (projectId documentVersionId : Uuid) :
    Only behalf (index rt behalf v projectId documentVersionId) := by
  apply only_andThen (only_doing rfl)
  intro sections
  unfold indexSections
  split
  · apply only_andThen (only_doing rfl)
    intro chunks
    unfold indexChunks
    split
    · split
      · trivial
      · exact only_andThen (only_doing rfl) fun chunks => embedAndAttach_only v _ _ _ chunks
    · exact embedAndAttach_only v _ _ _ _
  · trivial

end

/-- A thread that acts on behalf of the claim; it indexes, while it does, before it accepts or
fails. -/
def Holds (c : ClaimedIndexingJob) : Bool → Thread → Prop
  | _, .ret _ => True
  | indexing, .op a k => a.behalf = some c ∧
    match a.op with
    | .accept _ d | .fail _ d => d = c ∧ ∀ r, Holds c false (k r)
    | o => o.indexes = true ∧ indexing = true ∧ ∀ r, Holds c true (k r)

/-- A thread that has no claim; it neither accepts nor fails a job. -/
def Free : Thread → Prop
  | .ret _ => True
  | .op ⟨none, .claimNext _⟩ k => ∀ r : Except ClaimError (Option ClaimedIndexingJob),
    match r with
    | .ok (some c) => Holds c true (k (.ok (some c)))
    | r => Free (k r)
  | .op ⟨none, .accept _ _⟩ _ | .op ⟨none, .fail _ _⟩ _ => False
  | .op ⟨none, _⟩ k => ∀ r, Free (k r)
  | .op ⟨some _, _⟩ _ => False

theorem holds_only {α : Type} {c : ClaimedIndexingJob} {p : Prog Action Action.Answer α}
    {f : α → Thread} (only : Only (some c) p) (rest : ∀ a, Holds c true (f a)) :
    Holds c true (p >>= f) := by
  induction p with
  | ret a => exact rest a
  | op a k ih =>
    obtain ⟨behalf, op⟩ := a
    obtain ⟨same, indexes, next⟩ := only
    rw [op_bind, Holds]
    refine ⟨same, ?_⟩
    cases op with
    | accept | fail => cases indexes
    | _ => exact ⟨indexes, rfl, fun r => ih r (next r)⟩

theorem terminalize_holds (w : IndexingWorker) (c : ClaimedIndexingJob) (again indexing : Bool) :
    Holds c indexing (terminalize w c again >>= fun run => .ret (some run)) := by
  rw [terminalize, doing, perform_bind, op_bind, Holds]
  refine ⟨rfl, rfl, ?_⟩
  intro answer
  split <;> exact True.intro

theorem publish_holds (w : IndexingWorker) (c : ClaimedIndexingJob) (result : IndexingResult) :
    Holds c true (publish w c result >>= fun run => .ret (some run)) := by
  rw [publish, doing, perform_bind, op_bind, Holds]
  refine ⟨rfl, rfl, ?_⟩
  intro answer
  split
  · exact True.intro
  · exact True.intro
  · exact terminalize_holds w c true false

theorem work_holds (rt : ParserRuntime) (w : IndexingWorker) (c : ClaimedIndexingJob) :
    Holds c true (work rt w c >>= fun run => .ret (some run)) := by
  rw [work, bind_bind]
  apply holds_only (index_only rt w.service c.projectId c.documentVersionId)
  intro result
  split
  · exact publish_holds w c _
  · exact terminalize_holds w c true true
  · exact terminalize_holds w c false true

theorem free_only {α : Type} {p : Prog Action Action.Answer α} {f : α → Thread}
    (only : Only none p) (rest : ∀ a, Free (f a)) : Free (p >>= f) := by
  induction p with
  | ret a => exact rest a
  | op a k ih =>
    obtain ⟨behalf, op⟩ := a
    obtain ⟨rfl, indexes, next⟩ := only
    rw [op_bind]
    cases op with
    | ingest | claimNext | accept | fail | expireClaims => cases indexes
    | _ => exact fun r => ih r (next r)

theorem start_free (rt : ParserRuntime) {r : Request} (leasing : Leasing (.spawn r) = true) :
    Free (start rt r) := by
  cases r with
  | work w =>
    rintro (error | (_ | claim))
    · exact True.intro
    · exact True.intro
    · exact work_holds rt w claim
  | index v projectId documentVersionId =>
    exact free_only (index_only rt v projectId documentVersionId) fun _ => True.intro
  | claim p =>
    rintro (error | (_ | claim))
    · exact True.intro
    · exact True.intro
    · exact True.intro
  | fail p c => cases leasing
  | expire p | ingest i => exact fun _ => True.intro

/-! ## Jobs -/

/-- The job of the claim is claimed until its deadline. -/
def Claimed (t : Tables) (c : ClaimedIndexingJob) : Prop :=
  ∃ j ∈ t.indexingJobs, j.id = c.jobId ∧ j.lease.state = .claimed ∧
    j.lease.claimExpiresAt = some c.claimExpiresAt

theorem claimNext_claims {p : IndexingClaims} {s : Session} {t : Tables} {c : ClaimedIndexingJob}
    (h : (claimNext p s t).1 = .ok (some c)) : Claimed (claimNext p s t).2 c := by
  unfold claimNext at h ⊢
  split at h
  · cases h
  · rename_i running
    rw [if_neg running]
    split at h
    · cases h
    · rename_i j found
      obtain rfl := Option.some.inj (Except.ok.inj h)
      obtain ⟨hj, queued, -, scope⟩ := claimNext_candidate found
      exact ⟨_, mem_updateWhere_of hj (by simp [queued, scope]), rfl, rfl, rfl⟩

theorem ingest_jobs {rt : ParserRuntime} {t : Tables} (sourced : Sourced t) (i : Input) :
    t.indexingJobs <+: (step rt t i).indexingJobs := by
  have effect := @step_effect rt t sourced.parserIds sourced.parserChecked i
  generalize step rt t i = t' at effect
  cases effect with
  | nothing | intakeRejected | admitted | enqueued | moved => exact List.prefix_rfl
  | promoted => exact List.prefix_append _ _

theorem indexes_jobs {rt : ParserRuntime} {a : Action} (indexes : a.op.indexes = true) (e : Env)
    (t : Tables) : (a.exec rt e t).2.indexingJobs = t.indexingJobs := by
  obtain ⟨behalf, op⟩ := a
  cases op with
  | ingest | claimNext | accept | fail | expireClaims => cases indexes
  | sectionsForVersion | chunksForVersion | cachedEmbedding | embed => rfl
  | createChunks v drafts =>
    simp only [Action.exec, Op.exec, Indexing.createChunks]
    repeat' split
    all_goals rfl
  | createEmbedding p contentSha256 g values =>
    simp only [Action.exec, Op.exec, Indexing.createEmbedding]
    repeat' split
    all_goals rfl
  | attachEmbedding chunkId embeddingId g =>
    simp only [Action.exec, Op.exec, Indexing.attachEmbedding]
    repeat' split
    all_goals rfl

theorem Claimed.update {t : Tables} {c : ClaimedIndexingJob} {p : IndexingJobRecord → Bool}
    {f : IndexingJobRecord → IndexingJobRecord} (claimed : Claimed t c)
    (other : ∀ j ∈ t.indexingJobs, j.id = c.jobId → j.lease.state = .claimed →
      j.lease.claimExpiresAt = some c.claimExpiresAt → p j = false) :
    Claimed { t with indexingJobs := updateWhere p f t.indexingJobs } c := by
  obtain ⟨j, hj, id, state, deadline⟩ := claimed
  exact ⟨j, mem_updateWhere_of_not hj (other j hj id state deadline), id, state, deadline⟩

theorem finish_claimed {p : IndexingClaims} {s : Session} {c d : ClaimedIndexingJob}
    {outcome : IndexingOutcome} {code : Option IndexingFailureCode} {t : Tables}
    (claimed : Claimed t c) (other : d.jobId ≠ c.jobId) :
    Claimed (finish p s d outcome code t).2 c := by
  unfold finish
  dsimp only
  split
  · exact claimed
  · split
    · apply claimed.update
      intro j _ id _ _
      by_contra held
      simp only [ClaimedIndexingJob.holds, Bool.not_eq_false, Bool.and_eq_true,
        decide_eq_true_eq] at held
      obtain ⟨-, ⟨⟨⟨⟨⟨⟨same, -⟩, -⟩, -⟩, -⟩, -⟩, -⟩, -⟩ := held
      exact other (same.symm.trans id)
    · exact claimed

/-- An operation leaves a claim alone that does not end it. -/
theorem exec_claimed {rt : ParserRuntime} {t : Tables} (sourced : Sourced t) {a : Action} {e : Env}
    {c : ClaimedIndexingJob} (claimed : Claimed t c) (inTime : e.session.now < c.claimExpiresAt)
    (other : ∀ p d, a.op = .accept p d ∨ a.op = .fail p d → d.jobId ≠ c.jobId) :
    Claimed (a.exec rt e t).2 c := by
  by_cases indexes : a.op.indexes = true
  · rw [Claimed, indexes_jobs indexes]
    exact claimed
  · obtain ⟨behalf, op⟩ := a
    cases op with
    | ingest i =>
      obtain ⟨j, hj, rest⟩ := claimed
      exact ⟨j, (ingest_jobs sourced i).subset hj, rest⟩
    | claimNext p =>
      simp only [Action.exec, Op.exec, Indexing.claimNext]
      split
      · exact claimed
      · split
        · exact claimed
        · apply claimed.update
          intro j _ _ state _
          simp [state]
    | accept p d => exact finish_claimed claimed (other p d (.inl rfl))
    | fail p d => exact finish_claimed claimed (other p d (.inr rfl))
    | expireClaims p =>
      simp only [Action.exec, Op.exec, Indexing.expireClaims]
      split
      · exact claimed
      · apply claimed.update
        intro j _ _ _ deadline
        have : ¬ c.claimExpiresAt ≤ e.session.now := by omega
        simp [Lease.lapsed, deadline, this]
    | _ => exact absurd rfl indexes

/-! ## Runs -/

/-- What a thread relies on: the job of its claim has been taken, and is claimed while the thread
indexes. -/
def Relies (t : Tables) (p : Thread) : Prop :=
  Free p ∨ ∃ c indexing, Holds c indexing p ∧ (holder p = some c → Taken t c.jobId) ∧
    (indexedClaim p = some c → Claimed t c)

/-- Two threads do not act on behalf of claims to one job. -/
def Distinct (p q : Thread) : Prop :=
  ∀ c d, holder p = some c → holder q = some d → c.jobId ≠ d.jobId

structure Timely (rt : ParserRuntime) (pool : Pool Tables Thread) : Prop where
  kept : Kept rt pool
  threads : Apart Relies Distinct pool

theorem free_holder {p : Thread} (free : Free p) : holder p = none := by
  cases p with
  | ret a => rfl
  | op a k =>
    obtain ⟨behalf, op⟩ := a
    cases behalf with
    | none => rfl
    | some c => exact free.elim

theorem holds_holder {p : Thread} {c d : ClaimedIndexingJob} {indexing : Bool}
    (holds : Holds c indexing p) (h : holder p = some d) : d = c := by
  cases p with
  | ret a => cases h
  | op a k =>
    rw [Holds] at holds
    exact Option.some.inj (h.symm.trans holds.1)

theorem indexedClaim_holder {p : Thread} {c : ClaimedIndexingJob} (h : indexedClaim p = some c) :
    holder p = some c := by
  cases p with
  | ret a => cases h
  | op a k =>
    simp only [indexedClaim, next_op, Option.bind_some] at h
    split at h
    · exact h
    · cases h

/-- A thread that is done with indexing. -/
theorem holds_ended {p : Thread} {c d : ClaimedIndexingJob} (holds : Holds c false p) :
    indexedClaim p ≠ some d := by
  intro h
  cases p with
  | ret a => cases h
  | op a k =>
    obtain ⟨behalf, op⟩ := a
    rw [Holds] at holds
    cases op with
    | accept | fail => cases h
    | _ => cases holds.2.2.1

/-- What a step keeps of the other threads. -/
theorem Relies.frame {rt : ParserRuntime} {t : Tables} (sound : Sound rt.sha256 False t) {a : Action}
    {e : Env} {q : Thread} (relies : Relies t q) (grows : Grows t (a.exec rt e t).2)
    (inTime : ∀ c, indexedClaim q = some c → e.session.now < c.claimExpiresAt)
    (other : ∀ c, holder q = some c → ∀ p d, a.op = .accept p d ∨ a.op = .fail p d →
      d.jobId ≠ c.jobId) : Relies (a.exec rt e t).2 q := by
  rcases relies with free | ⟨c, indexing, holds, taken, claimed⟩
  · exact .inl free
  · refine .inr ⟨c, indexing, holds, fun h => (taken h).later grows, ?_⟩
    intro h
    exact exec_claimed sound.sourced (claimed h) (inTime c h) (other c (indexedClaim_holder h))

theorem Distinct.symm {p q : Thread} (distinct : Distinct p q) : Distinct q p :=
  fun c d hc hd => (distinct d c hd hc).symm

theorem free_distinct {p q : Thread} (free : Free p) : Distinct p q := by
  intro c d h
  rw [free_holder free] at h
  cases h

/-- The thread of a new claim has a job that no other thread had. -/
theorem claimed_distinct {t : Tables} {p q : Thread} {c : ClaimedIndexingJob} {indexing : Bool}
    (holds : Holds c indexing p) (fresh : ¬ Taken t c.jobId) (relies : Relies t q) :
    Distinct p q := by
  intro c' d hc hd
  obtain rfl := holds_holder holds hc
  rcases relies with free | ⟨d', _, holds', taken, -⟩
  · rw [free_holder free] at hd
    cases hd
  · obtain rfl := holds_holder holds' hd
    intro same
    exact fresh (same ▸ taken hd)

/-- A thread that goes on with its claim stays apart from the others. -/
theorem held_distinct {a : Action} {k : a.Answer → Thread} {p q : Thread} {c : ClaimedIndexingJob}
    {indexing : Bool} (behalf : a.behalf = some c) (holds : Holds c indexing p)
    (distinct : Distinct (.op a k) q) : Distinct p q := by
  intro c' d hc hd
  obtain rfl := holds_holder holds hc
  exact distinct _ d behalf hd

section
variable {rt : ParserRuntime} {pool : Pool Tables Thread} {i : Nat} {e : Env} {a : Action}
  {k : a.Answer → Thread}

/-- What a step has to show: its own thread, and which claim it ends. -/
theorem step_timely (timely : Timely rt pool) (inTime : InTime pool (.step i e) = true)
    (running : pool.threads[i]? = some (.op a k))
    (own : Relies (a.exec rt e pool.shared).2 (k (a.exec rt e pool.shared).1))
    (ends : ∀ p d, a.op = .accept p d ∨ a.op = .fail p d → a.behalf = some d)
    (distinct : ∀ (j : Nat) q, j ≠ i → pool.threads[j]? = some q →
      Distinct (k (a.exec rt e pool.shared).1) q) :
    Apart Relies Distinct (turn rt pool (.step i e)) := by
  have grows := turn_grows timely.kept (.step i e)
  rw [turn, turn_op _ _ running e] at grows
  apply timely.threads.step running e own
  intro j q ne hq
  refine ⟨?_, distinct j q ne hq, (distinct j q ne hq).symm⟩
  apply Relies.frame timely.kept.shared (timely.threads.each j q hq) grows
  · intro c indexed
    have := List.all_eq_true.mp inTime q (List.mem_of_getElem? hq)
    simpa [indexed] using this
  · intro c held p d ended
    exact timely.threads.apart i j _ q ne.symm running hq d c (ends p d ended) held

theorem free_timely (timely : Timely rt pool) (inTime : InTime pool (.step i e) = true)
    (running : pool.threads[i]? = some (.op a k)) (free : Free (.op a k)) :
    Apart Relies Distinct (turn rt pool (.step i e)) := by
  obtain ⟨behalf, op⟩ := a
  cases behalf with
  | some c => exact free.elim
  | none =>
    cases op with
    | accept | fail => exact free.elim
    | claimNext p =>
      have next := free (claimNext p e.session pool.shared).1
      split at next
      · rename_i c answer
        obtain ⟨fresh, taken⟩ := claimNext_takes timely.kept.shared.leased.ids answer
        rw [← answer] at next
        apply step_timely timely inTime running
        · exact .inr ⟨c, true, next, fun _ => taken, fun _ => claimNext_claims answer⟩
        · simp
        · intro j q _ hq
          exact claimed_distinct next fresh (timely.threads.each j q hq)
      · apply step_timely timely inTime running (.inl next) (by simp)
        intro j q _ _
        exact free_distinct next
    | _ =>
      apply step_timely timely inTime running (.inl (free _)) (by simp)
      intro j q _ _
      exact free_distinct (free _)

theorem held_timely (timely : Timely rt pool) (inTime : InTime pool (.step i e) = true)
    (running : pool.threads[i]? = some (.op a k)) {c : ClaimedIndexingJob} {indexing : Bool}
    (holds : Holds c indexing (.op a k)) (taken : Taken pool.shared c.jobId)
    (claimed : indexedClaim (.op a k : Thread) = some c → Claimed pool.shared c) :
    Apart Relies Distinct (turn rt pool (.step i e)) := by
  have grows := turn_grows timely.kept (.step i e)
  rw [turn, turn_op _ _ running e] at grows
  obtain ⟨behalf, op⟩ := a
  rw [Holds] at holds
  obtain ⟨rfl, next⟩ := holds
  have distinct : ∀ (j : Nat) q, j ≠ i → pool.threads[j]? = some q → Distinct (.op _ k) q :=
    fun j q ne hq => timely.threads.apart i j _ q ne.symm running hq
  cases op with
  | accept p d | fail p d =>
    obtain ⟨rfl, next⟩ := next
    apply step_timely timely inTime running
    · exact .inr ⟨d, false, next _, fun _ => taken.later grows,
        fun h => absurd h (holds_ended (next _))⟩
    · rintro p' d' (same | same)
      all_goals cases same
      all_goals rfl
    · intro j q ne hq
      exact held_distinct rfl (next _) (distinct j q ne hq)
  | ingest | claimNext | expireClaims => cases next.1
  | _ =>
    obtain ⟨indexes, -, next⟩ := next
    apply step_timely timely inTime running
    · refine .inr ⟨c, true, next _, fun _ => taken.later grows, ?_⟩
      intro _
      rw [Claimed, indexes_jobs indexes]
      exact claimed rfl
    · simp
    · intro j q ne hq
      exact held_distinct rfl (next _) (distinct j q ne hq)

end

theorem turn_timely {rt : ParserRuntime} {pool : Pool Tables Thread} (x : Turn Request Env)
    (timely : Timely rt pool) (leasing : Leasing x = true) (inTime : InTime pool x = true) :
    Timely rt (turn rt pool x) := by
  refine ⟨turn_kept timely.kept x, ?_⟩
  cases x with
  | spawn r =>
    have free := start_free rt leasing
    exact timely.threads.spawn (.inl free) fun q => ⟨free_distinct free, (free_distinct free).symm⟩
  | step i e =>
    cases running : pool.threads[i]? with
    | none =>
      rw [turn, turn_none _ _ running e]
      exact timely.threads
    | some p =>
      cases p with
      | ret r =>
        rw [turn, turn_ret _ _ running e]
        exact timely.threads
      | op a k =>
        rcases timely.threads.each i _ running with free | ⟨c, indexing, holds, taken, claimed⟩
        · exact free_timely timely inTime running free
        · have behalf : holder (.op a k : Thread) = some c := by
            rw [Holds] at holds
            exact holds.1
          exact held_timely timely inTime running holds (taken behalf) claimed

/-- Operations that are not those of `index` write no evidence. -/
theorem finish_writes (p : IndexingClaims) (s : Session) (c : ClaimedIndexingJob)
    (outcome : IndexingOutcome) (code : Option IndexingFailureCode) (t : Tables) :
    ¬ Writes t (finish p s c outcome code t).2 := by
  unfold finish
  dsimp only
  repeat' split
  all_goals simp [Writes]

theorem not_late {rt : ParserRuntime} {pool : Pool Tables Thread} (timely : Timely rt pool)
    {x : Turn Request Env} (inTime : InTime pool x = true) : late rt pool x = false := by
  cases x with
  | spawn r => rfl
  | step i e =>
    cases running : pool.threads[i]? with
    | none => simp [late, running]
    | some p =>
      cases p with
      | ret r => simp [late, running, holder]
      | op a k =>
        rcases timely.threads.each i _ running with free | ⟨c, indexing, holds, -, claimed⟩
        · simp [late, running, free_holder free]
        · obtain ⟨behalf, op⟩ := a
          rw [Holds] at holds
          obtain ⟨rfl, next⟩ := holds
          simp only [late, running, Option.bind_some, holder, next_op, Option.any_some,
            decide_eq_false_iff_not]
          rintro ⟨ended, writes⟩
          rw [turn, turn_op _ _ running e] at writes
          cases op with
          | accept p d | fail p d => exact finish_writes p e.session d _ _ _ writes
          | ingest | claimNext | expireClaims => cases next.1
          | _ =>
            have indexed : indexedClaim (.op ⟨some c, _⟩ k : Thread) = some c := rfl
            have early := List.all_eq_true.mp inTime _ (List.mem_of_getElem? running)
            rw [indexed] at early
            rcases ended with expired | ⟨j, hj, id, failed⟩
            · have : e.session.now < c.claimExpiresAt := by simpa using early
              omega
            · obtain ⟨j', hj', id', state, -⟩ := claimed indexed
              obtain rfl := eq_of_key timely.kept.shared.leased.ids hj hj' (id.trans id'.symm)
              rw [state] at failed
              cases failed

/-- In every run of workers, claims and expiries from an empty store, as long as no step meets a
clock at or past the deadline of a claim that is being indexed, nothing is written on behalf of a
claim that has expired or whose job has failed. -/
theorem no_late_write (rt : ParserRuntime) (turns : List (Turn Request Env))
    (leasing : ∀ x ∈ turns, Leasing x = true)
    (inTime : Meets (turn rt) (fun pool x => InTime pool x = true) emptyPool turns) :
    Meets (turn rt) (fun pool x => late rt pool x = false) emptyPool turns := by
  have start : Timely rt emptyPool :=
    ⟨empty_kept rt, ⟨fun i p h => (by cases h), fun i j p q _ h => (by cases h)⟩⟩
  exact meets_of_invariant (A := (Leasing · = true)) (fun _ x => turn_timely x)
    (fun _ _ timely => not_late timely) start leasing inTime

/-! ## A late worker -/

def sampleWorker : IndexingWorker where
  service := sampleService
  claims := ⟨none, defaultChunkingVersion, sampleService.embedding, 10, by decide⟩
  chunking := rfl
  embedding := rfl

/-- The environment of a step at the time `now`. -/
def sampleStep (now : Nat) : Env := sampleEnv now 0

/-- One letter is ingested, and a worker claims its job at 100 until 110. -/
def sampleClaim : List (Turn Request Env) :=
  sampleIngestion.map (.spawn <| .ingest ·) ++
    [.step 0 (sampleStep 10), .step 1 (sampleStep 20), .step 2 (sampleStep 30),
      .step 3 (sampleStep 40), .spawn (.work sampleWorker), .step 4 (sampleStep 100)]

/-- The worker finishes at 108. -/
def sampleInTime : List (Turn Request Env) :=
  sampleClaim ++ (List.range 8).map fun n => .step 4 (sampleStep (101 + n))

theorem no_late_write_sample :
    Meets (turn sampleParserRuntime) (fun pool x => late sampleParserRuntime pool x = false)
      emptyPool sampleInTime :=
  no_late_write sampleParserRuntime sampleInTime (by decide +kernel) (by decide +kernel)

/-- The worker goes on after its claim has expired and its job has failed. -/
def sampleLate : List (Turn Request Env) :=
  sampleClaim ++
    [.step 4 (sampleStep 101), .step 4 (sampleStep 102), .spawn (.expire sampleWorker.claims),
      .step 5 (sampleStep 200), .step 4 (sampleStep 201)]

theorem late_worker_writes : ¬ ∀ (rt : ParserRuntime) (turns : List (Turn Request Env)),
    (∀ x ∈ turns, Leasing x = true) →
      Meets (turn rt) (fun pool x => late rt pool x = false) emptyPool turns := by
  intro never
  have := never sampleParserRuntime sampleLate (by decide +kernel)
  revert this
  decide +kernel

end QaCopilot.Indexing
