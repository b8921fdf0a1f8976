import QaCopilot.Indexing.CacheReuse

/-!
# The indexing lease

Workers claim, index, accept and fail, others call `index`, and claims expire, in any
interleaving of their transactions.

* `indexing_lease`: each job is claimed once and ends once, it is accepted within its lease, and
  every chunk of the version of an accepted job is attached under the configuration of the job.
-/

namespace QaCopilot.Indexing

open QaCopilot.Python QaCopilot.Program QaCopilot.Table QaCopilot.Leases QaCopilot.Ingestion
  QaCopilot.Runs

/-! ## The system -/

/-- A worker, a call of `index`, and single transactions. -/
inductive Request where
  | work (w : IndexingWorker)
  | index (v : IndexingService) (projectId documentVersionId : Uuid)
  | claim (p : IndexingClaims)
  | fail (p : IndexingClaims) (c : ClaimedIndexingJob)
  | expire (p : IndexingClaims)
  | ingest (i : Input)

/-- What a request ends with; only a worker has a run to report. -/
abbrev Thread := Prog Action Action.Answer (Option IndexingRun)

def start (rt : ParserRuntime) : Request → Thread
  | .work w => do return some (← runOnce rt w)
  | .index v projectId documentVersionId => do
    let _ ← index rt none v projectId documentVersionId
    return none
  | .claim p => do
    let _ ← doing none (.claimNext p)
    return none
  | .fail p c => do
    let _ ← doing none (.fail p c)
    return none
  | .expire p => do
    let _ ← doing none (.expireClaims p)
    return none
  | .ingest i => do
    let _ ← doing none (.ingest i)
    return none

abbrev turn (rt : ParserRuntime) : Pool Tables Thread → Turn Request Env → Pool Tables Thread :=
  Pool.turn (Action.exec rt) (start rt)

def emptyPool : Pool Tables Thread := ⟨.empty, []⟩

/-- The jobs that a turn claims. -/
def claimedJobs (pool : Pool Tables Thread) : Turn Request Env → List Uuid
  | .spawn _ => []
  | .step i e =>
    match pool.threads[i]? with
    | some (.op ⟨_, .claimNext p⟩ _) =>
      match (claimNext p e.session pool.shared).1 with
      | .ok (some c) => [c.jobId]
      | _ => []
    | _ => []

/-! ## Workers -/

section
variable {rt : ParserRuntime}

/-- A program that keeps `Sound`, wherever it ends. -/
abbrev Runs {α : Type} (rt : ParserRuntime) (p : Prog Action Action.Answer α) (t : Tables) : Prop :=
  Keeps rt False (fun _ => True) (fun _ _ => True) p t

theorem runs_ret {α : Type} {a : α} {t : Tables} : Runs rt (.ret a) t :=
  fun _ _ _ => trivial

theorem runs_bind {α β : Type} {p : Prog Action Action.Answer α}
    {f : α → Prog Action Action.Answer β} {M : α → Tables → Prop} {t : Tables}
    (first : Keeps rt False (fun _ => True) M p t) (rest : ∀ a u, Grows t u → M a u → Runs rt (f a) u) :
    Runs rt (p >>= f) t := by
  apply Always.bind (guarantees rt False fun _ => True) (first.since (guarantees rt False fun _ => True))
  rintro a u - ⟨grows, mid⟩
  exact rest a u grows mid

theorem runs_doing {behalf : Option ClaimedIndexingJob} {o : Op} {t : Tables}
    (safe : ∀ u, Grows t u → Safe rt.sha256 False (fun _ => True) u ⟨behalf, o⟩) :
    Keeps rt False (fun _ => True) (fun _ _ => True) (doing behalf o) t :=
  keeps_doing (fun u _ grows => safe u grows) fun _ _ _ _ _ _ => trivial

theorem terminalize_runs (w : IndexingWorker) (claim : ClaimedIndexingJob) (again : Bool)
    (t : Tables) : Runs rt (terminalize w claim again) t := by
  apply runs_bind (@runs_doing rt (some claim) (.fail w.claims claim) t fun _ _ => trivial)
  intro answer u _ _
  split <;> exact runs_ret

theorem publish_runs (w : IndexingWorker) (claim : ClaimedIndexingJob) (result : IndexingResult)
    {t : Tables} (complete : Complete t claim.documentVersionId claim.chunkingVersion
      ⟨claim.embeddingModel, claim.embeddingVersion⟩) :
    Runs rt (publish w claim result) t := by
  apply runs_bind (@runs_doing rt (some claim) (.accept w.claims claim) t
    fun u grows => complete.grows grows)
  intro answer u _ _
  split
  · exact runs_ret
  · exact runs_ret
  · exact terminalize_runs w claim true u

theorem work_runs (w : IndexingWorker) (claim : ClaimedIndexingJob) {t : Tables}
    (granted : Granted t w.claims claim) : Runs rt (work rt w claim) t := by
  have called := @index_keeps rt False (fun _ => True) (some claim) w.service claim.projectId
    claim.documentVersionId t False.elim trivial
  apply runs_bind called
  intro r u _ indexed
  split
  · rename_i result
    obtain ⟨-, complete, -⟩ := indexed result rfl ⟨granted.own, granted.sections⟩
    apply publish_runs
    rw [granted.chunking, granted.model, granted.version, w.chunking, w.embedding]
    exact complete
  · exact terminalize_runs w claim true u
  · exact terminalize_runs w claim false u

theorem runOnce_runs (w : IndexingWorker) (t : Tables) : Runs rt (runOnce rt w) t := by
  have claimed : Keeps rt False (fun _ => True) (fun r u => ∀ c, r = .ok (some c) → Granted u w.claims c)
      (doing none (.claimNext w.claims)) t := by
    apply keeps_doing
    · intro u _ _
      trivial
    · intro u e sound _ x later c answer
      obtain ⟨own, sections, chunking, model, version⟩ :=
        (claimNext_sound w.claims e.session sound).2 c answer
      exact ⟨later.owned _ _ own, later.sections _ sections ▸ sections, chunking, model, version⟩
  apply runs_bind claimed
  intro r u _ granted
  split
  · exact runs_ret
  · exact runs_ret
  · exact work_runs w _ (granted _ rfl)

theorem start_runs (r : Request) (t : Tables) : Runs rt (start rt r) t := by
  cases r with
  | work w => exact runs_bind (runOnce_runs w t) fun _ _ _ _ => runs_ret
  | index v projectId documentVersionId =>
    exact runs_bind (@index_keeps rt False (fun _ => True) none v projectId documentVersionId t False.elim trivial)
      fun _ _ _ _ => runs_ret
  | claim p | fail p c | expire p | ingest i =>
    exact runs_bind (runs_doing fun _ _ => trivial) fun _ _ _ _ => runs_ret

end

/-! ## Runs -/

/-- What every turn keeps. -/
abbrev Kept (rt : ParserRuntime) (pool : Pool Tables Thread) : Prop :=
  Guarded (Action.exec rt) (Sound rt.sha256 False) Grows (Safe rt.sha256 False fun _ => True) (fun _ _ => True)
    pool

theorem turn_kept {rt : ParserRuntime} {pool : Pool Tables Thread} (kept : Kept rt pool)
    (x : Turn Request Env) : Kept rt (turn rt pool x) :=
  kept.turn (guarantees rt False fun _ => True) (fun s r _ => start_runs r s) x

theorem turn_grows {rt : ParserRuntime} {pool : Pool Tables Thread} (kept : Kept rt pool)
    (x : Turn Request Env) : Grows pool.shared (turn rt pool x).shared :=
  kept.later (guarantees rt False fun _ => True) x

theorem empty_kept (rt : ParserRuntime) : Kept rt emptyPool :=
  ⟨empty_sound rt.sha256 False, fun i p h => by cases h⟩

theorem run_kept {rt : ParserRuntime} {pool : Pool Tables Thread} (kept : Kept rt pool)
    (turns : List (Turn Request Env)) :
    Kept rt (run (turn rt) pool turns) ∧ Grows pool.shared (run (turn rt) pool turns).shared := by
  induction turns generalizing pool with
  | nil => exact ⟨kept, .refl _⟩
  | cons x turns ih =>
    obtain ⟨last, later⟩ := ih (turn_kept kept x)
    exact ⟨last, (turn_grows kept x).trans later⟩

/-- The job has been claimed. -/
def Taken (t : Tables) (id : Uuid) : Prop :=
  ∃ j ∈ t.indexingJobs, j.id = id ∧ j.lease.state ≠ .queued

theorem Taken.later {t t' : Tables} {id : Uuid} (taken : Taken t id) (grows : Grows t t') :
    Taken t' id := by
  obtain ⟨j, hj, rfl, taken⟩ := taken
  obtain ⟨j', hj', same, kept, -⟩ := grows.jobs j hj
  exact ⟨j', hj', congrArg Prod.fst same, (kept taken).1⟩

theorem claimNext_takes {p : IndexingClaims} {s : Session} {t : Tables} {c : ClaimedIndexingJob}
    (unique : (t.indexingJobs.map (·.id)).Nodup) (h : (claimNext p s t).1 = .ok (some c)) :
    ¬ Taken t c.jobId ∧ Taken (claimNext p s t).2 c.jobId := by
  unfold claimNext at h ⊢
  split at h
  · cases h
  · rename_i running
    rw [if_neg running]
    split at h
    · cases h
    · rename_i j found
      obtain rfl := Option.some.inj (Except.ok.inj h)
      obtain ⟨hj, queued, -, scope⟩ := claimNext_candidate found
      constructor
      · rintro ⟨r, hr, same, taken⟩
        obtain rfl := eq_of_key unique hr hj same
        exact taken queued
      · refine ⟨_, mem_updateWhere_of hj (by simp [queued, scope]), rfl, ?_⟩
        simp [Lease.claim]

theorem claimedJobs_of {pool : Pool Tables Thread} {x : Turn Request Env} {id : Uuid}
    (h : id ∈ claimedJobs pool x) : ∃ i e b p k c, x = .step i e ∧
      pool.threads[i]? = some (.op ⟨b, .claimNext p⟩ k) ∧
      (claimNext p e.session pool.shared).1 = .ok (some c) ∧ c.jobId = id ∧
      claimedJobs pool x = [id] := by
  cases x with
  | spawn r => cases h
  | step i e =>
    simp only [claimedJobs] at h ⊢
    split at h
    · rename_i b p k running
      split at h
      · rename_i c claimed
        obtain rfl := List.mem_singleton.mp h
        exact ⟨i, e, b, p, k, c, rfl, running, claimed, rfl, rfl⟩
      · cases h
    · cases h

theorem claimedJobs_once (rt : ParserRuntime) (turns : List (Turn Request Env)) :
    (trace (turn rt) claimedJobs emptyPool turns).Nodup := by
  refine (@trace_nodup _ _ _ (turn rt) claimedJobs (Kept rt) (fun pool => Taken pool.shared)
    ?_ ?_ ?_ ?_ _ (empty_kept rt) turns).1
  · intro pool x kept
    exact turn_kept kept x
  · intro pool x kept
    constructor
    · cases eq : claimedJobs pool x with
      | nil => exact List.nodup_nil
      | cons id ids =>
        obtain ⟨-, -, -, -, -, -, -, -, -, -, single⟩ :=
          claimedJobs_of (eq ▸ List.mem_cons_self : id ∈ claimedJobs pool x)
        rw [← eq, single]
        exact List.nodup_singleton id
    · intro id h
      obtain ⟨-, e, -, p, -, c, -, -, claimed, rfl, -⟩ := claimedJobs_of h
      exact (claimNext_takes kept.shared.leased.ids claimed).1
  · intro pool x kept id h
    obtain ⟨i, e, b, p, k, c, rfl, running, claimed, rfl, -⟩ := claimedJobs_of h
    rw [turn, turn_op _ _ running e]
    exact (claimNext_takes kept.shared.leased.ids claimed).2
  · intro pool x kept id taken
    exact taken.later (turn_grows kept x)

/-- In every interleaving from an empty store each indexing job is claimed at most once, a finished
job stays as it is, an accepted one was accepted strictly within its lease, and its version has the
chunks of its sections, each of them attached to an embedding of the configuration of the job. -/
theorem indexing_lease (rt : ParserRuntime) (turns : List (Turn Request Env)) :
    (trace (turn rt) claimedJobs emptyPool turns).Nodup ∧
    ∀ j ∈ (run (turn rt) emptyPool turns).shared.indexingJobs,
      (∀ o, j.lease.state = .finished o →
        ∀ more, j ∈ (run (turn rt) emptyPool (turns ++ more)).shared.indexingJobs) ∧
      (j.lease.state = .finished .accepted →
        (∃ start deadline now, j.lease.claimedAt = some start ∧
          j.lease.claimExpiresAt = some deadline ∧ j.lease.completedAt = some now ∧
          start ≤ now ∧ now < deadline) ∧
        Drafted rt.sha256 (run (turn rt) emptyPool turns).shared j.documentVersionId
          j.chunkingVersion ∧
        Complete (run (turn rt) emptyPool turns).shared j.documentVersionId j.chunkingVersion
          (jobConfiguration j)) := by
  obtain ⟨kept, -⟩ := run_kept (empty_kept rt) turns
  refine ⟨claimedJobs_once rt turns, ?_⟩
  intro j hj
  constructor
  · intro o ended more
    rw [run_append]
    obtain ⟨j', hj', -, -, same⟩ := (run_kept kept more).2.jobs j hj
    exact same o ended ▸ hj'
  · intro accepted
    have complete := kept.shared.leased.accepted j hj accepted
    refine ⟨?_, kept.shared.cached.drafted _ _ complete.some', complete⟩
    obtain ⟨start, deadline, now, since, until', done, started, ends⟩ :=
      (kept.shared.leased.checked j hj).ended accepted
    refine ⟨start, deadline, now, since, until', done, started, ?_⟩
    generalize early : decide (now < deadline) = b at ends
    generalize j.lease.failureCode = code at ends
    cases ends
    exact of_decide_eq_true early

end QaCopilot.Indexing
