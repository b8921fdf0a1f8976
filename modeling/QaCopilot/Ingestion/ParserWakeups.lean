import QaCopilot.Ingestion.ParserLease

/-!
# Wake-ups of the parser

`lambda_workers.py` and `parser_wakeup.py`: an upload commits its parser job and then sends a
message that names no job; a message is delivered until a worker acknowledges it, and each delivery
runs one turn. The `UPDATE` of `claim_next` reads its candidate in a snapshot and its row later.

* `wakeups_kept`: while no turn loses the candidate of its snapshot, and none reads a clock behind
  all the jobs that wait, a quiet system has no job left that waits;
* `wakeup_lost`: a turn that loses its candidate is acknowledged, and the message of the other job
  is gone.
-/

namespace QaCopilot.Ingestion

open QaCopilot.Python QaCopilot.Table QaCopilot.Leases QaCopilot.Runs

/-! ## The claim, in two steps -/

/-- The subquery of `claim_next`. -/
def candidate (p : ParserClaims) (now : Int) (t : Tables) : Option ParserJobRecord :=
  oldestJob (t.parserJobs.filter (p.claimable t now))

/-- The `UPDATE` of `claim_next`, which finds its candidate queued or finds no row. -/
def claimCandidate (p : ParserClaims) (s : Session) (candidate : Option ParserJobRecord)
    (t : Tables) : Option ClaimedParserJob × Tables :=
  match candidate with
  | none => (none, t)
  | some j =>
    let found (r : ParserJobRecord) : Bool := r.id = j.id && r.lease.state = .queued
    if t.parserJobs.any found then
      (some (p.claimOf s j),
        { t with
          parserJobs := updateWhere found
            (fun r => { r with lease := r.lease.claim (p.claimOf s j).claim }) t.parserJobs })
    else (none, t)

/-- Without another transaction in between the two steps are one. -/
theorem claimNext_eq (p : ParserClaims) (s : Session) (t : Tables) (running : s.fails = false) :
    claimNext p s t = (.ok (claimCandidate p s (candidate p s.now t) t).1,
      (claimCandidate p s (candidate p s.now t) t).2) := by
  rw [claimNext, candidate, if_neg (by simp [running])]
  cases found : oldestJob (t.parserJobs.filter (p.claimable t s.now)) with
  | none => rfl
  | some j =>
    have chosen := List.mem_filter.mp (firstBy_mem found)
    have queued : j.lease.state = .queued := by
      have := chosen.2
      simp only [ParserClaims.claimable, Bool.and_eq_true, decide_eq_true_eq] at this
      exact this.1.1.1
    have present : t.parserJobs.any
        (fun r => decide (r.id = j.id) && decide (r.lease.state = .queued)) = true :=
      List.any_eq_true.mpr ⟨j, chosen.1, by simp [queued]⟩
    simp only [claimCandidate, present, if_true]

/-! ## The system -/

/-- How far the turn of a delivery is. -/
inductive Phase where
  | delivered
  | reaped
  | looked (s : Session) (candidate : Option ParserJobRecord)
  | idle
  | working (c : ClaimedParserJob)

structure WorkerTurn where
  message : Nat
  phase : Phase

/-- The database, the stored uploads that have not sent their message yet, the number of messages
sent, those not acknowledged, and the turns that run. -/
structure Wakeups where
  tables : Tables
  unsent : Nat
  sent : Nat
  pending : List Nat
  turns : List WorkerTurn

def Wakeups.empty : Wakeups := ⟨.empty, 0, 0, [], []⟩

/-- Transactions beside the storing of uploads and the claims. -/
def Input.aside : Input → Bool
  | .enqueue .. | .claimNext .. => false
  | _ => true

inductive Event where
  | transaction (i : Input)
  | store (s : Session) (job : ParserJob)
  | send
  | deliver (message : Nat)
  | reap (i : Nat) (s : Session)
  | look (i : Nat) (s : Session)
  | claim (i : Nat)
  | acknowledge (i : Nat)
  | abandon (i : Nat)

/-- An event that is not possible changes nothing. A turn that meets an error before its claim, or
whose worker stops, leaves its message where it is. -/
def Wakeups.step (rt : ParserRuntime) (p : ParserClaims) (w : Wakeups) : Event → Wakeups
  | .transaction i => if i.aside then { w with tables := Ingestion.step rt w.tables i } else w
  | .store s job =>
    match enqueue s job w.tables with
    | (.ok _, t) => { w with tables := t, unsent := w.unsent + 1 }
    | (.error _, _) => w
  | .send =>
    if 0 < w.unsent then
      { w with unsent := w.unsent - 1, sent := w.sent + 1, pending := w.pending ++ [w.sent] }
    else w
  | .deliver message =>
    if message ∈ w.pending then { w with turns := w.turns ++ [⟨message, .delivered⟩] } else w
  | .reap i s =>
    match w.turns[i]? with
    | some ⟨message, .delivered⟩ =>
      if s.fails then w
      else
        { w with
          tables := (expireClaims p s w.tables).2
          turns := w.turns.set i ⟨message, .reaped⟩ }
    | _ => w
  | .look i s =>
    match w.turns[i]? with
    | some ⟨message, .reaped⟩ =>
      { w with turns := w.turns.set i ⟨message, .looked s (candidate p s.now w.tables)⟩ }
    | _ => w
  | .claim i =>
    match w.turns[i]? with
    | some ⟨message, .looked s c⟩ =>
      { w with
        tables := (claimCandidate p s c w.tables).2
        turns := w.turns.set i
          ⟨message, (claimCandidate p s c w.tables).1.elim .idle .working⟩ }
    | _ => w
  | .acknowledge i =>
    match w.turns[i]? with
    | some ⟨message, .idle⟩ | some ⟨message, .working _⟩ =>
      { w with pending := w.pending.filter (· ≠ message), turns := w.turns.eraseIdx i }
    | _ => w
  | .abandon i => { w with turns := w.turns.eraseIdx i }

/-- Every stored upload has sent its message, all messages are acknowledged, and no turn runs. -/
def Wakeups.quiet (w : Wakeups) : Bool := w.unsent = 0 && w.pending.isEmpty && w.turns.isEmpty

/-- No job that any clock lets a worker claim is queued. -/
def Served (p : ParserClaims) (t : Tables) : Prop :=
  ∀ j ∈ t.parserJobs, ∀ now, p.claimable t now j = false

/-! ## Waiting jobs -/

/-- `claimable` at no time in particular. -/
def ParserClaims.waiting (p : ParserClaims) (t : Tables) (j : ParserJobRecord) : Bool :=
  j.lease.state = .queued && p.scope j &&
    t.documentIntakes.any fun i => i.id = j.documentIntakeId && i.state = .quarantined &&
      t.documents.any fun d => i.documentId = some d.id &&
        p.documentTypes.all (·.contains d.documentType)

theorem claimable_iff {p : ParserClaims} {t : Tables} {now : Int} {j : ParserJobRecord} :
    p.claimable t now j = true ↔ p.waiting t j = true ∧ j.lease.createdAt ≤ now := by
  simp only [ParserClaims.claimable, ParserClaims.waiting, Bool.and_eq_true, decide_eq_true_eq]
  tauto

def ParserClaims.backlog (p : ParserClaims) (t : Tables) : Nat := t.parserJobs.countP (p.waiting t)

theorem candidate_claimable {p : ParserClaims} {now : Int} {t : Tables} {j : ParserJobRecord}
    (found : candidate p now t = some j) : j ∈ t.parserJobs ∧ p.claimable t now j = true :=
  List.mem_filter.mp (firstBy_mem found)

theorem candidate_none {p : ParserClaims} {now : Int} {t : Tables}
    (found : candidate p now t = none) : ∀ j ∈ t.parserJobs, p.claimable t now j = false := by
  have := List.filter_eq_nil_iff.mp (firstBy_eq_none.mp found)
  simpa using this

/-- Intakes and documents are only added. -/
structure Onward (t t' : Tables) : Prop where
  intakes : t.documentIntakes ⊆ t'.documentIntakes
  documents : t.documents ⊆ t'.documents

theorem Onward.refl (t : Tables) : Onward t t := ⟨fun _ h => h, fun _ h => h⟩

theorem Onward.waiting {p : ParserClaims} {t t' : Tables} (onward : Onward t t')
    {j : ParserJobRecord} (waits : p.waiting t j = true) : p.waiting t' j = true := by
  simp only [ParserClaims.waiting, Bool.and_eq_true, List.any_eq_true] at waits ⊢
  obtain ⟨queued, i, hi, of, d, hd, typed⟩ := waits
  exact ⟨queued, i, onward.intakes hi, of, d, onward.documents hd, typed⟩

/-- The document of every intake is there. -/
def Documented (t : Tables) : Prop :=
  ∀ i ∈ t.documentIntakes, ∀ d, i.documentId = some d → ∃ x ∈ t.documents, x.id = d

/-- What a transaction adds does not make an old job wait. -/
structure Aside (t t' : Tables) : Prop extends Onward t t' where
  intakeIds : ∀ i ∈ t'.documentIntakes, i ∈ t.documentIntakes ∨ ∀ r ∈ t.documentIntakes, r.id ≠ i.id
  documentIds : ∀ d ∈ t'.documents, d ∈ t.documents ∨ ∀ r ∈ t.documents, r.id ≠ d.id

theorem Aside.refl (t : Tables) : Aside t t := ⟨.refl t, fun _ h => .inl h, fun _ h => .inl h⟩

theorem Aside.waiting {p : ParserClaims} {t t' : Tables} (aside : Aside t t')
    (documented : Documented t) {j : ParserJobRecord}
    (known : ∃ i ∈ t.documentIntakes, i.id = j.documentIntakeId)
    (waits : p.waiting t' j = true) : p.waiting t j = true := by
  simp only [ParserClaims.waiting, Bool.and_eq_true, List.any_eq_true, decide_eq_true_eq] at waits ⊢
  obtain ⟨queued, i, hi, ⟨of, quarantined⟩, d, hd, linked, typed⟩ := waits
  obtain ⟨k, hk, same⟩ := known
  have hi : i ∈ t.documentIntakes :=
    (aside.intakeIds i hi).resolve_right fun new => new k hk (same.trans of.symm)
  obtain ⟨x, hx, eq⟩ := documented i hi d.id linked
  have hd : d ∈ t.documents := (aside.documentIds d hd).resolve_right fun new => new x hx eq
  exact ⟨queued, i, hi, ⟨of, quarantined⟩, d, hd, linked, typed⟩

theorem countP_le_add {ρ : Type} {a b c : ρ → Bool} (l : List ρ)
    (h : ∀ r ∈ l, a r = true → b r = true ∨ c r = true) : l.countP a ≤ l.countP b + l.countP c := by
  induction l with
  | nil => simp
  | cons r l ih =>
    have rest := ih fun x hx => h x (List.mem_cons_of_mem _ hx)
    have head := h r List.mem_cons_self
    simp only [List.countP_cons]
    by_cases ha : a r = true
    · rcases head ha with hb | hc
      · simp only [ha, hb, if_true]
        omega
      · simp only [ha, hc, if_true]
        omega
    · simp only [ha, if_false, Bool.false_eq_true]
      omega

theorem countP_updateWhere_le {ρ : Type} {q : ρ → Bool} {f : ρ → ρ} {a b : ρ → Bool} {rows : List ρ}
    (old : ∀ r ∈ rows, b r = true → a r = true)
    (moved : ∀ r ∈ rows, q r = true → b (f r) = true → a r = true) :
    (updateWhere q f rows).countP b ≤ rows.countP a := by
  rw [updateWhere, List.countP_map]
  refine List.countP_mono_left fun r hr counted => ?_
  simp only [Function.comp_apply] at counted
  split at counted
  · exact moved r hr ‹_› counted
  · exact old r hr counted

/-! ## The transactions -/

/-- What a step leaves of the jobs: no job comes to wait, and a queued row is as it was. -/
structure Settled (p : ParserClaims) (t t' : Tables) : Prop extends Onward t t' where
  backlog : p.backlog t' ≤ p.backlog t
  documented : Documented t'

theorem Settled.refl {p : ParserClaims} {t : Tables} (documented : Documented t) : Settled p t t :=
  ⟨.refl t, Nat.le_refl _, documented⟩

/-- Intakes are added, and the jobs stay. -/
theorem Aside.settled {p : ParserClaims} {t t' : Tables} (aside : Aside t t')
    (consistent : Consistent t) (documented : Documented t) (documented' : Documented t')
    (jobs : t'.parserJobs = t.parserJobs) : Settled p t t' where
  toOnward := aside.toOnward
  backlog := by
    rw [ParserClaims.backlog, ParserClaims.backlog, jobs]
    exact List.countP_mono_left fun j hj waits =>
      aside.waiting documented (consistent.known j hj) waits
  documented := documented'

/-- Jobs are moved, and the intakes stay. -/
theorem moved_settled {p : ParserClaims} {t t' : Tables} (documented : Documented t)
    {q : ParserJobRecord → Bool} {f : ParserJobRecord → ParserJobRecord}
    (move : ∀ r ∈ t.parserJobs, q r = true → JobMove r (f r))
    (jobs : t'.parserJobs = updateWhere q f t.parserJobs)
    (intakes : t'.documentIntakes = t.documentIntakes) (documents : t'.documents = t.documents) :
    Settled p t t' where
  intakes := intakes ▸ List.Subset.refl _
  documents := documents ▸ List.Subset.refl _
  documented := by rwa [Documented, intakes, documents]
  backlog := by
    have same : p.waiting t' = p.waiting t := by
      funext j
      rw [ParserClaims.waiting, ParserClaims.waiting, intakes, documents]
    rw [ParserClaims.backlog, ParserClaims.backlog, jobs, same]
    apply countP_updateWhere_le
    · exact fun _ _ waits => waits
    · intro r hr chosen waits
      have queued : (f r).lease.state = .queued := by
        simp only [ParserClaims.waiting, Bool.and_eq_true, decide_eq_true_eq] at waits
        exact waits.1.1
      rwa [(move r hr chosen).queued queued] at waits

theorem recordRejection_settled {p : ParserClaims} {t : Tables} (consistent : Consistent t)
    (documented : Documented t) (s : Session) (projectId : Uuid) (r : Rejection) :
    Settled p t (recordRejection s projectId r t).2 := by
  unfold recordRejection
  split
  · exact .refl documented
  next admits =>
    simp only [Bool.or_eq_true, Bool.not_eq_true', not_or, Bool.not_eq_false] at admits
    refine Aside.settled ⟨⟨List.subset_append_left _ _, List.Subset.refl _⟩, ?_, fun _ h => .inl h⟩
      consistent documented ?_ rfl
    · intro i hi
      rcases List.mem_append.mp hi with hi | hi
      · exact .inl hi
      · rw [List.mem_singleton.mp hi]
        exact .inr fun k hk => (admitsIntake_fresh admits.2 k hk).1
    · intro i hi d linked
      rcases List.mem_append.mp hi with hi | hi
      · exact documented i hi d linked
      · rw [List.mem_singleton.mp hi] at linked
        cases linked

theorem createQuarantined_settled {p : ParserClaims} {t : Tables} (consistent : Consistent t)
    (documented : Documented t) (s : Session) (a : Admission) :
    Settled p t (createQuarantined s a t).2 := by
  unfold createQuarantined
  split
  · exact .refl documented
  next admits =>
    simp only [Bool.or_eq_true, Bool.not_eq_true', not_or, Bool.not_eq_false, Tables.admitsRows,
      Bool.and_eq_true] at admits
    obtain ⟨-, ⟨⟨⟨document, -⟩, -⟩, -⟩, intake⟩ := admits
    generalize made : admissionRows s a t = rows at document intake
    have linked : rows.intake.documentId = some rows.document.id := by rw [← made]; rfl
    have present : ∀ x ∈ t.documents, x ∈ (t.insertRows a rows).documents := by
      intro x hx
      simp only [Tables.insertRows]
      split
      · exact hx
      · exact List.mem_append_left _ hx
    have held : ∃ x ∈ (t.insertRows a rows).documents, x.id = rows.document.id := by
      cases found : t.documentOf a with
      | some d =>
        have chosen : rows.document = d := by rw [← made]; simp [admissionRows, found]
        exact ⟨d, present d (List.mem_filter.mp (firstBy_mem found)).1, by rw [chosen]⟩
      | none =>
        refine ⟨rows.document, ?_, rfl⟩
        simp [Tables.insertRows, found]
    refine Aside.settled ⟨⟨List.subset_append_left _ _, present⟩, ?_, ?_⟩ consistent documented ?_ rfl
    · intro i hi
      rcases List.mem_append.mp hi with hi | hi
      · exact .inl hi
      · rw [List.mem_singleton.mp hi]
        exact .inr fun k hk => (admitsIntake_fresh intake k hk).1
    · intro d hd
      simp only [Tables.insertRows] at hd
      split at hd
      · exact .inl hd
      next new =>
        rcases List.mem_append.mp hd with hd | hd
        · exact .inl hd
        · rw [List.mem_singleton.mp hd]
          have fresh := document.resolve_left new
          simp only [List.all_eq_true, decide_eq_true_eq] at fresh
          exact .inr fresh
    · intro i hi d of
      rcases List.mem_append.mp hi with hi | hi
      · obtain ⟨x, hx, same⟩ := documented i hi d of
        exact ⟨x, present x hx, same⟩
      · rw [List.mem_singleton.mp hi, linked] at of
        exact Option.some.inj of ▸ held

theorem finish_settled {p : ParserClaims} {t : Tables} (documented : Documented t) (q : ParserClaims)
    (s : Session) (c : ClaimedParserJob) {outcome : ParserOutcome} {code : ParserFailureCode}
    (ends : ParserEnds outcome (some code) true) : Settled p t (finish q s c outcome code t).2 := by
  simp only [finish]
  split_ifs
  · exact .refl documented
  · refine moved_settled documented ?_ rfl rfl rfl
    intro r _ held
    simp only [Bool.and_eq_true, decide_eq_true_eq] at held
    exact finish_move held.1.2 held.2 ends
  · exact .refl documented

theorem expireClaims_settled {p : ParserClaims} {t : Tables} (consistent : Consistent t)
    (documented : Documented t) (q : ParserClaims) (s : Session) :
    Settled p t (expireClaims q s t).2 := by
  simp only [expireClaims]
  split_ifs
  · exact .refl documented
  · refine moved_settled documented ?_ rfl rfl rfl
    intro r hr lapsed
    simp only [Bool.and_eq_true, decide_eq_true_eq] at lapsed
    exact ⟨rfl, .inr (Move.ofLapsed (consistent.checked r hr) lapsed.1.1 lapsed.2 .expired)⟩

theorem promote_settled {p : ParserClaims} {t : Tables} (documented : Documented t)
    (rt : ParserRuntime) (s : Session) (finished : Int) (c : ClaimedParserJob)
    (document : ClaimedDocument) (requirements : List ParsedRequirement) :
    Settled p t (promote rt s finished c document requirements t).2 := by
  rcases promote_cases rt s finished c document requirements t with ⟨_, _, -, eq⟩ | eq
  · rw [eq]
    exact moved_settled documented (Promotable.moves t c finished) rfl rfl rfl
  · rw [eq]
    exact .refl documented

theorem transaction_settled {rt : ParserRuntime} {p : ParserClaims} {t : Tables}
    (consistent : Consistent t) (documented : Documented t) {i : Input} (aside : i.aside = true) :
    Settled p t (Ingestion.step rt t i) := by
  cases i with
  | recordRejection s projectId r => exact recordRejection_settled consistent documented s projectId r
  | createQuarantined s a => exact createQuarantined_settled consistent documented s a
  | reject q s c => exact finish_settled documented q s c .rejected
  | fail q s c => exact finish_settled documented q s c .failed
  | promote s finished c document requirements =>
    exact promote_settled documented rt s finished c document requirements
  | expireClaims q s => exact expireClaims_settled consistent documented q s
  | enqueue | claimNext => cases aside

/-- A stored upload adds one job at most. -/
theorem enqueue_backlog (p : ParserClaims) (s : Session) (job : ParserJob) (t : Tables) :
    p.backlog (enqueue s job t).2 ≤ p.backlog t + 1 := by
  unfold enqueue
  split_ifs
  · exact Nat.le_succ _
  · rw [ParserClaims.backlog, List.countP_append]
    refine Nat.add_le_add_left ?_ _
    exact List.countP_le_length
  · exact Nat.le_succ _
  · exact Nat.le_succ _

theorem enqueue_onward (s : Session) (job : ParserJob) (t : Tables) : Onward t (enqueue s job t).2 := by
  unfold enqueue
  split_ifs <;> exact ⟨List.Subset.refl _, List.Subset.refl _⟩

theorem enqueue_documented {t : Tables} (documented : Documented t) (s : Session) (job : ParserJob) :
    Documented (enqueue s job t).2 := by
  unfold enqueue
  split_ifs <;> exact documented

/-- The candidate, as far as it is still queued, is the row of the snapshot. -/
def Watched (t : Tables) (j : ParserJobRecord) : Prop :=
  ∃ r ∈ t.parserJobs, r.id = j.id ∧ (r.lease.state = .queued → r = j)

theorem Watched.advance {t t' : Tables} {j : ParserJobRecord} (watched : Watched t j)
    (advance : Advance ParserEnds ParserJobRecord.columns ParserJobRecord.lease t.parserJobs
      t'.parserJobs) : Watched t' j := by
  obtain ⟨r, hr, same, kept⟩ := watched
  obtain ⟨r', hr', move⟩ := advance.kept hr
  refine ⟨r', hr', (congrArg Prod.fst move.1).trans same, ?_⟩
  intro queued
  obtain rfl := move.queued queued
  exact kept queued

/-! ## The claim -/

section
variable {p : ParserClaims} {t : Tables} {s : Session} {j : ParserJobRecord}

/-- The rows that the `UPDATE` finds are the candidate. -/
theorem Watched.eq (watched : Watched t j) (unique : (t.parserJobs.map (·.id)).Nodup)
    {r : ParserJobRecord} (hr : r ∈ t.parserJobs)
    (found : (decide (r.id = j.id) && decide (r.lease.state = .queued)) = true) : r = j := by
  simp only [Bool.and_eq_true, decide_eq_true_eq] at found
  obtain ⟨k, hk, same, kept⟩ := watched
  obtain rfl := eq_of_key unique hr hk (found.1.trans same.symm)
  exact kept found.2

theorem claimCandidate_moves (watched : Watched t j) (unique : (t.parserJobs.map (·.id)).Nodup)
    (claimable : p.claimable t s.now j = true) :
    ∀ r ∈ t.parserJobs, (decide (r.id = j.id) && decide (r.lease.state = .queued)) = true →
      JobMove r { r with lease := r.lease.claim (p.claimOf s j).claim } := by
  intro r hr found
  obtain rfl := watched.eq unique hr found
  simp only [Bool.and_eq_true, decide_eq_true_eq] at found
  exact claim_move (claimable_iff.mp claimable).2 found.2

theorem claimCandidate_advance (watched : Watched t j) (unique : (t.parserJobs.map (·.id)).Nodup)
    (claimable : p.claimable t s.now j = true) :
    Advance ParserEnds ParserJobRecord.columns ParserJobRecord.lease t.parserJobs
      (claimCandidate p s (some j) t).2.parserJobs := by
  simp only [claimCandidate]
  split_ifs
  · exact .update (claimCandidate_moves watched unique claimable)
  · exact .refl _

theorem claimCandidate_consistent (consistent : Consistent t) (watched : Watched t j)
    (claimable : p.claimable t s.now j = true) :
    Consistent (claimCandidate p s (some j) t).2 := by
  simp only [claimCandidate]
  split_ifs
  · apply consistent.move
    intro r hr found
    refine ⟨claimCandidate_moves watched consistent.jobIds claimable r hr found, ?_⟩
    simp [Lease.claim]
  · exact consistent

theorem claimCandidate_settled (documented : Documented t) (watched : Watched t j)
    (unique : (t.parserJobs.map (·.id)).Nodup) (claimable : p.claimable t s.now j = true) :
    Settled p t (claimCandidate p s (some j) t).2 := by
  simp only [claimCandidate]
  split_ifs
  · exact moved_settled documented (claimCandidate_moves watched unique claimable) rfl rfl rfl
  · exact .refl documented

/-- The candidate does not wait any more. -/
theorem claimCandidate_backlog (present : j ∈ t.parserJobs)
    (claimable : p.claimable t s.now j = true) :
    p.backlog (claimCandidate p s (some j) t).2 + 1 ≤ p.backlog t := by
  have waits := (claimable_iff.mp claimable).1
  have queued : j.lease.state = .queued := by
    simp only [ParserClaims.waiting, Bool.and_eq_true, decide_eq_true_eq] at waits
    exact waits.1.1
  have found : t.parserJobs.any
      (fun r => decide (r.id = j.id) && decide (r.lease.state = .queued)) = true :=
    List.any_eq_true.mpr ⟨j, present, by simp [queued]⟩
  simp only [claimCandidate, found, if_true, ParserClaims.backlog]
  obtain ⟨front, back, split⟩ := List.append_of_mem present
  have others (rows : List ParserJobRecord) :
      (updateWhere (fun r => decide (r.id = j.id) && decide (r.lease.state = .queued))
        (fun r => { r with lease := r.lease.claim (p.claimOf s j).claim }) rows).countP
        (p.waiting t) ≤ rows.countP (p.waiting t) := by
    refine countP_updateWhere_le (fun _ _ h => h) ?_
    intro r _ _ still
    simp [ParserClaims.waiting, Lease.claim] at still
  have gone : p.waiting t { j with lease := j.lease.claim (p.claimOf s j).claim } = false := by
    simp [ParserClaims.waiting, Lease.claim]
  have first := others front
  have last := others back
  have sum : (updateWhere (fun r => decide (r.id = j.id) && decide (r.lease.state = .queued))
      (fun r => { r with lease := r.lease.claim (p.claimOf s j).claim }) t.parserJobs).countP
        (p.waiting t) + 1 ≤ t.parserJobs.countP (p.waiting t) := by
    rw [split]
    simp only [updateWhere, List.map_append, List.map_cons, List.countP_append, List.countP_cons]
      at first last ⊢
    simp only [queued, decide_true, Bool.and_self, if_true, gone, waits, Bool.false_eq_true, if_false]
    omega
  exact sum

end

/-! ## Messages and jobs -/

/-- The turn has used its message: it claimed a job, or found none in its snapshot. -/
def Phase.spent : Phase → Bool
  | .looked _ none | .idle | .working _ => true
  | .delivered | .reaped | .looked _ (some _) => false

/-- No turn has used the message. -/
def unspent (turns : List WorkerTurn) (message : Nat) : Bool :=
  turns.all fun turn => !(turn.message = message && turn.phase.spent)

theorem unspent_of_subset {turns turns' : List WorkerTurn} (sub : turns' ⊆ turns) {message : Nat}
    (h : unspent turns message = true) : unspent turns' message = true := by
  rw [unspent, List.all_eq_true] at h ⊢
  exact fun turn hturn => h turn (sub hturn)

theorem unspent_append {turns : List WorkerTurn} {turn : WorkerTurn} {message : Nat}
    (h : unspent turns message = true) (new : turn.message = message → turn.phase.spent = false) :
    unspent (turns ++ [turn]) message = true := by
  simp only [unspent, List.all_append, List.all_cons, List.all_nil, Bool.and_true, Bool.and_eq_true]
  refine ⟨h, ?_⟩
  by_cases own : turn.message = message
  · simp [new own]
  · simp [own]

theorem unspent_set {turns : List WorkerTurn} {i : Nat} {turn : WorkerTurn} {message : Nat}
    (h : unspent turns message = true) (new : turn.message = message → turn.phase.spent = false) :
    unspent (turns.set i turn) message = true := by
  have sub : turns.set i turn ⊆ turns ++ [turn] := by
    intro x hx
    rcases List.mem_or_eq_of_mem_set hx with hx | rfl
    · exact List.mem_append_left _ hx
    · exact List.mem_append_right _ (List.mem_singleton.mpr rfl)
  exact unspent_of_subset sub (unspent_append h new)

/-- Each job that waits has a message to itself that is still to be sent or used. -/
structure Covered (p : ParserClaims) (w : Wakeups) : Prop where
  consistent : Consistent w.tables
  documented : Documented w.tables
  pending : w.pending.Nodup
  sent : ∀ message ∈ w.pending, message < w.sent
  delivered : ∀ turn ∈ w.turns, turn.message < w.sent
  watched : ∀ turn ∈ w.turns, ∀ s j, turn.phase = .looked s (some j) →
    Watched w.tables j ∧ p.claimable w.tables s.now j = true
  covered : p.backlog w.tables ≤ w.unsent + w.pending.countP (unspent w.turns)

theorem Covered.empty (p : ParserClaims) : Covered p .empty := by
  refine ⟨empty_consistent, ?_, List.nodup_nil, ?_, ?_, ?_, ?_⟩
  · simp [Documented, Wakeups.empty, Tables.empty]
  all_goals simp [Wakeups.empty, Tables.empty, ParserClaims.backlog]

section
variable {rt : ParserRuntime} {p : ParserClaims} {w : Wakeups}

/-- A transaction that moves jobs and adds intakes. -/
theorem Covered.tables (covered : Covered p w) {t : Tables} (consistent : Consistent t)
    (settled : Settled p w.tables t)
    (advance : Advance ParserEnds ParserJobRecord.columns ParserJobRecord.lease w.tables.parserJobs
      t.parserJobs) : Covered p { w with tables := t } where
  consistent := consistent
  documented := settled.documented
  pending := covered.pending
  sent := covered.sent
  delivered := covered.delivered
  watched := by
    intro turn hturn s j looked
    obtain ⟨watched, claimable⟩ := covered.watched turn hturn s j looked
    obtain ⟨waits, created⟩ := claimable_iff.mp claimable
    exact ⟨watched.advance advance, claimable_iff.mpr ⟨settled.toOnward.waiting waits, created⟩⟩
  covered := Nat.le_trans settled.backlog covered.covered

theorem Covered.store (covered : Covered p w) (s : Session) (job : ParserJob) :
    Covered p { w with tables := (enqueue s job w.tables).2, unsent := w.unsent + 1 } where
  consistent := (enqueue_effect s job w.tables).consistent covered.consistent
  documented := enqueue_documented covered.documented s job
  pending := covered.pending
  sent := covered.sent
  delivered := covered.delivered
  watched := by
    intro turn hturn s' j looked
    obtain ⟨watched, claimable⟩ := covered.watched turn hturn s' j looked
    obtain ⟨waits, created⟩ := claimable_iff.mp claimable
    exact ⟨watched.advance (enqueue_effect s job w.tables).advance,
      claimable_iff.mpr ⟨(enqueue_onward s job w.tables).waiting waits, created⟩⟩
  covered := by
    have more := enqueue_backlog p s job w.tables
    have := covered.covered
    dsimp only
    omega

theorem Covered.send (covered : Covered p w) (some' : 0 < w.unsent) :
    Covered p { w with
      unsent := w.unsent - 1
      sent := w.sent + 1
      pending := w.pending ++ [w.sent] } where
  consistent := covered.consistent
  documented := covered.documented
  pending := by
    refine List.nodup_append.mpr ⟨covered.pending, List.nodup_singleton _, ?_⟩
    intro a ha b hb
    have := covered.sent a ha
    rw [List.mem_singleton.mp hb]
    omega
  sent := by
    intro message h
    dsimp only at h ⊢
    rcases List.mem_append.mp h with h | h
    · have := covered.sent message h
      omega
    · rw [List.mem_singleton.mp h]
      omega
  delivered := fun turn hturn => Nat.lt_succ_of_lt (covered.delivered turn hturn)
  watched := covered.watched
  covered := by
    have new : unspent w.turns w.sent = true := by
      rw [unspent, List.all_eq_true]
      intro turn hturn
      have := covered.delivered turn hturn
      have other : turn.message ≠ w.sent := by omega
      simp [other]
    have := covered.covered
    dsimp only
    rw [List.countP_append, List.countP_singleton, if_pos new]
    omega

theorem Covered.deliver (covered : Covered p w) {message : Nat} (present : message ∈ w.pending) :
    Covered p { w with turns := w.turns ++ [⟨message, .delivered⟩] } where
  consistent := covered.consistent
  documented := covered.documented
  pending := covered.pending
  sent := covered.sent
  delivered := by
    intro turn hturn
    rcases List.mem_append.mp hturn with hturn | hturn
    · exact covered.delivered turn hturn
    · rw [List.mem_singleton.mp hturn]
      exact covered.sent message present
  watched := by
    intro turn hturn s j looked
    rcases List.mem_append.mp hturn with hturn | hturn
    · exact covered.watched turn hturn s j looked
    · rw [List.mem_singleton.mp hturn] at looked
      cases looked
  covered := by
    refine Nat.le_trans covered.covered (Nat.add_le_add_left ?_ _)
    exact List.countP_mono_left fun m _ h => unspent_append h fun _ => rfl

/-- A turn goes on, and does not use its message by that. -/
theorem Covered.turn (covered : Covered p w) {i message : Nat} {before after : Phase}
    (running : w.turns[i]? = some ⟨message, before⟩)
    (keeps : before.spent = false → after.spent = false)
    (watched : ∀ s j, after = .looked s (some j) →
      Watched w.tables j ∧ p.claimable w.tables s.now j = true) :
    Covered p { w with turns := w.turns.set i ⟨message, after⟩ } where
  consistent := covered.consistent
  documented := covered.documented
  pending := covered.pending
  sent := covered.sent
  delivered := by
    have known := covered.delivered _ (List.mem_of_getElem? running)
    intro turn hturn
    rcases List.mem_or_eq_of_mem_set hturn with hturn | rfl
    · exact covered.delivered turn hturn
    · exact known
  watched := by
    intro turn hturn s j looked
    rcases List.mem_or_eq_of_mem_set hturn with hturn | rfl
    · exact covered.watched turn hturn s j looked
    · exact watched s j looked
  covered := by
    refine Nat.le_trans covered.covered (Nat.add_le_add_left ?_ _)
    refine List.countP_mono_left fun m _ h => unspent_set h ?_
    rintro rfl
    have := List.all_eq_true.mp h _ (List.mem_of_getElem? running)
    exact keeps (by simpa using this)

/-- A turn uses its message: one job less waits, or none does. -/
theorem Covered.use (covered : Covered p w) {i message : Nat} {before after : Phase}
    (running : w.turns[i]? = some ⟨message, before⟩)
    (watched : ∀ s j, after ≠ .looked s (some j))
    (used : p.backlog w.tables = 0 ∨
      p.backlog w.tables + 1 ≤ w.unsent + w.pending.countP (unspent w.turns)) :
    Covered p { w with turns := w.turns.set i ⟨message, after⟩ } where
  consistent := covered.consistent
  documented := covered.documented
  pending := covered.pending
  sent := covered.sent
  delivered := by
    have known := covered.delivered _ (List.mem_of_getElem? running)
    intro turn hturn
    rcases List.mem_or_eq_of_mem_set hturn with hturn | rfl
    · exact covered.delivered turn hturn
    · exact known
  watched := by
    intro turn hturn s j looked
    rcases List.mem_or_eq_of_mem_set hturn with hturn | rfl
    · exact covered.watched turn hturn s j looked
    · exact absurd looked (watched s j)
  covered := by
    have others : w.pending.countP (unspent w.turns) ≤
        w.pending.countP (unspent (w.turns.set i ⟨message, after⟩)) +
          w.pending.countP (· == message) := by
      refine countP_le_add _ fun m _ h => ?_
      by_cases own : message = m
      · exact .inr (beq_iff_eq.mpr own.symm)
      · exact .inl (unspent_set h fun same => absurd same own)
    have once : w.pending.countP (· == message) ≤ 1 :=
      List.nodup_iff_count_le_one.mp covered.pending message
    dsimp only
    omega

/-- A turn that has used its message acknowledges it. -/
theorem Covered.acknowledge (covered : Covered p w) {i message : Nat} {phase : Phase}
    (running : w.turns[i]? = some ⟨message, phase⟩) (spent : phase.spent = true) :
    Covered p { w with
      pending := w.pending.filter (· ≠ message)
      turns := w.turns.eraseIdx i } where
  consistent := covered.consistent
  documented := covered.documented
  pending := covered.pending.filter _
  sent := fun m h => covered.sent m (List.mem_filter.mp h).1
  delivered := fun turn hturn => covered.delivered turn (List.mem_of_mem_eraseIdx hturn)
  watched := fun turn hturn => covered.watched turn (List.mem_of_mem_eraseIdx hturn)
  covered := by
    refine Nat.le_trans covered.covered (Nat.add_le_add_left ?_ _)
    dsimp only
    rw [List.countP_filter]
    refine List.countP_mono_left fun m _ h => ?_
    have other : m ≠ message := by
      rintro rfl
      have := List.all_eq_true.mp h _ (List.mem_of_getElem? running)
      simp [spent] at this
    simpa [other] using unspent_of_subset (fun _ hx => List.mem_of_mem_eraseIdx hx) h

theorem Covered.abandon (covered : Covered p w) (i : Nat) :
    Covered p { w with turns := w.turns.eraseIdx i } where
  consistent := covered.consistent
  documented := covered.documented
  pending := covered.pending
  sent := covered.sent
  delivered := fun turn hturn => covered.delivered turn (List.mem_of_mem_eraseIdx hturn)
  watched := fun turn hturn => covered.watched turn (List.mem_of_mem_eraseIdx hturn)
  covered := by
    refine Nat.le_trans covered.covered (Nat.add_le_add_left ?_ _)
    exact List.countP_mono_left fun m _ h =>
      unspent_of_subset (fun _ hx => List.mem_of_mem_eraseIdx hx) h

end

/-! ## Runs -/

/-- A turn that looks reads a clock that is not behind all the jobs that wait, and one that claims
finds the candidate of its snapshot still queued. -/
def Wakeups.smooth (p : ParserClaims) (w : Wakeups) : Event → Bool
  | .look _ s => w.tables.parserJobs.all (!p.waiting w.tables ·) ||
      w.tables.parserJobs.any (p.claimable w.tables s.now)
  | .claim i =>
    match w.turns[i]? with
    | some ⟨_, .looked _ (some j)⟩ => w.tables.parserJobs.contains j
    | _ => true
  | _ => true

theorem Covered.look {rt : ParserRuntime} {p : ParserClaims} {w : Wakeups} (covered : Covered p w)
    (i : Nat) (s : Session) (smooth : w.smooth p (.look i s) = true) :
    Covered p (w.step rt p (.look i s)) := by
  simp only [Wakeups.step]
  split
  next message running =>
    cases found : candidate p s.now w.tables with
    | some j =>
      obtain ⟨present, claimable⟩ := candidate_claimable found
      refine covered.turn running (fun _ => rfl) ?_
      rintro s' j' ⟨⟩
      exact ⟨⟨j, present, rfl, fun _ => rfl⟩, claimable⟩
    | none =>
      refine covered.use running (by simp) (.inl ?_)
      have none' := candidate_none found
      simp only [Wakeups.smooth, Bool.or_eq_true, List.all_eq_true, List.any_eq_true] at smooth
      rcases smooth with none'' | ⟨j, hj, claimable⟩
      · exact List.countP_eq_zero.mpr fun j hj => by simpa using none'' j hj
      · rw [none' j hj] at claimable
        cases claimable
  · exact covered

theorem Covered.claim {rt : ParserRuntime} {p : ParserClaims} {w : Wakeups} (covered : Covered p w)
    (i : Nat) (smooth : w.smooth p (.claim i) = true) :
    Covered p (w.step rt p (.claim i)) := by
  simp only [Wakeups.step]
  split
  next message s c running =>
    cases c with
    | none => exact covered.turn running (fun unused => unused) (by simp [claimCandidate])
    | some j =>
      obtain ⟨watched, claimable⟩ := covered.watched _ (List.mem_of_getElem? running) s j rfl
      simp only [Wakeups.smooth, running, List.contains_iff_mem] at smooth
      have kept := covered.tables
        (claimCandidate_consistent covered.consistent watched claimable)
        (claimCandidate_settled covered.documented watched covered.consistent.jobIds claimable)
        (claimCandidate_advance watched covered.consistent.jobIds claimable)
      have fewer := claimCandidate_backlog smooth claimable
      refine kept.use running ?_ (.inr (Nat.le_trans fewer covered.covered))
      intro s' j'
      cases (claimCandidate p s (some j) w.tables).1 <;> simp
  · exact covered

/-- What one smooth event preserves. -/
theorem covered_step {rt : ParserRuntime} {p : ParserClaims} {w : Wakeups} (covered : Covered p w)
    (e : Event) (smooth : w.smooth p e = true) : Covered p (w.step rt p e) := by
  cases e with
  | transaction i =>
    simp only [Wakeups.step]
    split
    next aside =>
      exact covered.tables (step_consistent i covered.consistent)
        (transaction_settled covered.consistent covered.documented aside)
        (step_advance covered.consistent i)
    · exact covered
  | store s job =>
    have stored := covered.store s job
    simp only [Wakeups.step]
    split
    next t eq => simpa [eq] using stored
    · exact covered
  | send =>
    simp only [Wakeups.step]
    split
    · exact covered.send ‹_›
    · exact covered
  | deliver message =>
    simp only [Wakeups.step]
    split
    · exact covered.deliver ‹_›
    · exact covered
  | reap i s =>
    simp only [Wakeups.step]
    split
    next message running =>
      split
      · exact covered
      · have kept := covered.tables
          ((expireClaims_effect p s w.tables covered.consistent.checked).consistent
            covered.consistent)
          (expireClaims_settled covered.consistent covered.documented p s)
          (expireClaims_effect p s w.tables covered.consistent.checked).advance
        exact kept.turn running (fun _ => rfl) (by simp)
    · exact covered
  | look i s => exact covered.look i s smooth
  | claim i => exact covered.claim i smooth
  | acknowledge i =>
    simp only [Wakeups.step]
    split
    next message running => exact covered.acknowledge running rfl
    next message c running => exact covered.acknowledge running rfl
    · exact covered
  | abandon i => exact covered.abandon i

/-- In every run from an empty system whose events are all smooth, a quiet state leaves no job
waiting. -/
theorem wakeups_kept (rt : ParserRuntime) (p : ParserClaims) (events : List Event)
    (smooth : Meets (Wakeups.step rt p) (fun w e => w.smooth p e) .empty events)
    (quiet : (run (Wakeups.step rt p) .empty events).quiet = true) :
    Served p (run (Wakeups.step rt p) .empty events).tables := by
  have covered : Covered p (run (Wakeups.step rt p) .empty events) :=
    run_invariant (I := Covered p) (fun _ e covered smooth => covered_step covered e smooth)
      (.empty p) smooth
  generalize run (Wakeups.step rt p) .empty events = w at covered quiet
  simp only [Wakeups.quiet, Bool.and_eq_true, decide_eq_true_eq, List.isEmpty_iff] at quiet
  obtain ⟨⟨sent, acknowledged⟩, -⟩ := quiet
  have none' : p.backlog w.tables = 0 := by
    have := covered.covered
    rw [sent, acknowledged] at this
    simpa using this
  intro j hj now
  have := List.countP_eq_zero.mp none' j hj
  rw [Bool.eq_false_iff]
  exact fun claimable => this (claimable_iff.mp claimable).1

/-! ## The race -/

def sampleParserWorker : ParserRuntime where
  unicode := ⟨id, fun _ => none⟩
  sha256 := fun _ => []
  upper := id

/-- A worker of text files. -/
theorem sampleDuration_pos : 0 < 60 := by decide

def sampleParserClaims : ParserClaims := ⟨none, some [.markdown, .text], 60, sampleDuration_pos⟩

/-- A transaction at `n` that draws ids from `n` on. -/
def sampleTransaction (n : Nat) : Session := ⟨false, fun i => .ofNat 128 (n + i), n⟩

/-- A text file is stored and its message sent. -/
def sampleStored (n : Nat) : List Event :=
  [.transaction (.createQuarantined (sampleTransaction n)
      { projectId := 1
        metadata := ⟨lit "a.txt", lit "text/plain", lit "identity"⟩
        documentType := .text
        byteSize := 1
        contentSha256 := List.replicate 64 (CodePoint.ofChar '0')
        quarantineKey := ⟨1, .ofNat 128 n⟩ }),
    .store (sampleTransaction (n + 10)) ⟨.ofNat 128 (n + 3)⟩, .send]

/-- The system of that worker after some events. -/
abbrev sampleRun (events : List Event) : Wakeups :=
  run (Wakeups.step sampleParserWorker sampleParserClaims) .empty events

/-- Two files, and a turn for each message up to its reap. -/
def sampleDelivered : List Event :=
  sampleStored 0 ++ sampleStored 20 ++
    [.deliver 0, .deliver 1, .reap 0 (sampleTransaction 40), .reap 1 (sampleTransaction 40)]

/-- The second turn looks when the first has claimed. -/
def sampleTurns : List Event :=
  sampleDelivered ++ [.look 0 (sampleTransaction 50), .claim 0, .look 1 (sampleTransaction 60),
    .claim 1, .acknowledge 0, .acknowledge 0]

theorem wakeups_kept_sample :
    Served sampleParserClaims (sampleRun sampleTurns).tables :=
  wakeups_kept sampleParserWorker sampleParserClaims sampleTurns (by decide +kernel)
    (by decide +kernel)

/-- Both turns look before either claims. -/
def sampleLost : List Event :=
  sampleDelivered ++ [.look 0 (sampleTransaction 50), .look 1 (sampleTransaction 60), .claim 0,
    .claim 1, .acknowledge 0, .acknowledge 0]

theorem wakeup_lost :
    ¬ ∀ events, (sampleRun events).quiet = true →
      Served sampleParserClaims (sampleRun events).tables := by
  intro kept
  have served := kept sampleLost (by decide +kernel)
  have left : (sampleRun sampleLost).tables.parserJobs.any
      (sampleParserClaims.claimable (sampleRun sampleLost).tables 100) = true := by
    decide +kernel
  obtain ⟨j, hj, claimable⟩ := List.any_eq_true.mp left
  rw [served j hj 100] at claimable
  cases claimable

end QaCopilot.Ingestion
