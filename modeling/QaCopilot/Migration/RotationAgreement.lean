import QaCopilot.Migration.Rotation

/-!
# The secret and the password of a role

* `advance_progress`: what a step of a run does to the passwords and the secrets;
* `agrees_of_careful`: as long as no run writes a secret after the run that set the password last has
  written its own, and that run reports what it did, the secret and the password agree;
* `agrees_of_attended`: the lock gives this to runs whose sessions live until the secret is written;
* `agrees_overtaken`: a run that has lost its session overwrites the secret of the next.
-/

namespace QaCopilot.Migration

open Python Runs

variable {d : Deployment} {w : World} {i j : RunId}

namespace World

@[simp] theorem runs_setRun (w : World) (i : RunId) (r : Run) : (w.setRun i r).runs i = r :=
  Function.update_self _ _ _

theorem runs_setRun_other (w : World) (r : Run) (ne : j ≠ i) : (w.setRun i r).runs j = w.runs j :=
  Function.update_of_ne ne _ _

@[simp] theorem phase_goto (w : World) (i : RunId) (p : Phase) : ((w.goto i p).runs i).phase = p := by
  rw [goto, runs_setRun]

theorem runs_goto (w : World) (p : Phase) (ne : j ≠ i) : (w.goto i p).runs j = w.runs j :=
  runs_setRun_other w _ ne

theorem lost_goto (w : World) (i j : RunId) (p : Phase) :
    ((w.goto i p).runs j).lost = (w.runs j).lost := by
  by_cases same : j = i
  · subst same
    rw [goto, runs_setRun]
  · rw [runs_goto w p same]

@[simp] theorem changedBy_goto (w : World) (i : RunId) (p : Phase) :
    (w.goto i p).changedBy = w.changedBy := rfl

end World

/-! ## What a step does -/

/-- The run has not set a password yet. -/
def Phase.early : Phase → Bool
  | .writing .. | .releasing _ | .closing _ | .ended _ => false
  | _ => true

/-- The passwords and the secrets stay, and only one run moves. -/
structure Quiet (w w' : World) (i : RunId) : Prop where
  roles : w'.roles = w.roles
  secrets : w'.secrets = w.secrets
  changedBy : w'.changedBy = w.changedBy
  others : ∀ j ≠ i, w'.runs j = w.runs j

theorem quiet_goto {u : World} (p : Phase)
    (same : u.roles = w.roles ∧ u.secrets = w.secrets ∧ u.changedBy = w.changedBy ∧ u.runs = w.runs) :
    Quiet w (u.goto i p) i := by
  obtain ⟨roles, secrets, changedBy, runs⟩ := same
  exact ⟨roles, secrets, changedBy, fun j ne => (World.runs_goto u p ne).trans (by rw [runs])⟩

theorem quiet_setRun (r : Run) : Quiet w (w.setRun i r) i :=
  ⟨rfl, rfl, rfl, fun _ ne => World.runs_setRun_other w r ne⟩

/-- What a step of a run is. -/
inductive Progress (d : Deployment) (w : World) (i : RunId) : Reply → World → Prop where
  | stays {reply} : Progress d w i reply w
  /-- It has set no password yet, and sets none. -/
  | early {reply w'} : (w.runs i).phase.early = true → (w'.runs i).phase.isWriting = false →
      Quiet w w' i → Progress d w i reply w'
  /-- It passes its outcome on. -/
  | passes {o reply w'} : (w.runs i).phase.outcome? = some o →
      (w'.runs i).phase.outcome? = some o → Quiet w w' i → Progress d w i reply w'
  /-- The end of its session replaces its outcome. -/
  | replaced {o reply w'} : (w.runs i).phase = .closing o → reply ≠ .done →
      (w'.runs i).phase.isWriting = false → Quiet w w' i → Progress d w i reply w'
  | commits {login existed} : (w.runs i).phase = .committing login existed →
      w.accepts d login existed = true →
      Progress d w i .done ((w.commit d i login (w.runs i).password).goto i
        (.writing login existed (w.runs i).password))
  /-- It sets a password and takes that for a failure. -/
  | misses {login existed e w'} : (w.runs i).phase = .committing login existed →
      w.accepts d login existed = true → (w'.runs i).phase.isWriting = false →
      (∀ j ≠ i, w'.runs j = w.runs j) → Progress d w i (.unknown e) w'
  | writes {login existed password arn o reply} :
      (w.runs i).phase = .writing login existed password → d.secretArn login = some arn →
      reply.effective = true → o = .success ∨ o.asksForRotate = true →
      Progress d w i reply
        ((w.putSecret arn (d.url (d.role login) password)).goto i (.releasing o))
  /-- It does not write its secret, and says so. -/
  | skips {login existed password o reply} : (w.runs i).phase = .writing login existed password →
      o.asksForRotate = true → Progress d w i reply (w.goto i (.releasing o))

theorem asksForRotate_secretUnwritten (login : Login) (existed : Bool) (e : Str) :
    (Outcome.error (secretUnwritten login existed e)).asksForRotate = true :=
  List.isSuffixOf_iff_suffix.mpr ⟨_, rfl⟩

theorem advance_progress (d : Deployment) (w : World) (i : RunId) (reply : Reply) :
    Progress d w i reply (w.advance d i reply) := by
  have early : (w.runs i).phase.early = true → ∀ (u : World) (p : Phase), p.isWriting = false →
      u.roles = w.roles ∧ u.secrets = w.secrets ∧ u.changedBy = w.changedBy ∧ u.runs = w.runs →
      Progress d w i reply (u.goto i p) := fun before u p other same =>
    .early before (by rw [World.phase_goto]; exact other) (quiet_goto p same)
  cases h : (w.runs i).phase with
  | idle =>
    simp only [World.advance, h]
    exact .stays
  | preparing a =>
    specialize early (by rw [h]; rfl)
    cases reply with
    | done =>
      simp only [World.advance, h]
      split
      · exact early _ _ rfl ⟨rfl, rfl, rfl, rfl⟩
      · exact early _ _ rfl ⟨rfl, rfl, rfl, rfl⟩
    | failed | unknown =>
      simp only [World.advance, h]
      exact early _ _ rfl ⟨rfl, rfl, rfl, rfl⟩
  | connecting a =>
    cases reply with
    | done =>
      simp only [World.advance, h]
      refine .early (by rw [h]; rfl) ?_ (quiet_setRun _)
      rw [World.runs_setRun]
      split_ifs
      · rfl
      · rfl
    | failed | unknown =>
      simp only [World.advance, h]
      exact early (by rw [h]; rfl) _ _ rfl ⟨rfl, rfl, rfl, rfl⟩
  | locking a =>
    specialize early (by rw [h]; rfl)
    cases reply with
    | done =>
      simp only [World.advance, h]
      split
      · exact early _ _ (by cases a <;> rfl) ⟨rfl, rfl, rfl, rfl⟩
      · exact early _ _ rfl ⟨rfl, rfl, rfl, rfl⟩
    | failed | unknown =>
      simp only [World.advance, h]
      exact early _ _ rfl ⟨rfl, rfl, rfl, rfl⟩
  | reading | upgrading | granting =>
    cases reply <;>
      simp only [World.advance, h] <;>
      exact early (by rw [h]; rfl) _ _ rfl ⟨rfl, rfl, rfl, rfl⟩
  | readingRevision login rotate =>
    specialize early (by rw [h]; rfl)
    cases reply with
    | done =>
      simp only [World.advance, h]
      split
      · exact early _ _ rfl ⟨rfl, rfl, rfl, rfl⟩
      · exact early _ _ rfl ⟨rfl, rfl, rfl, rfl⟩
    | failed | unknown =>
      simp only [World.advance, h]
      exact early _ _ rfl ⟨rfl, rfl, rfl, rfl⟩
  | checkingRole login rotate =>
    specialize early (by rw [h]; rfl)
    cases reply with
    | done =>
      simp only [World.advance, h]
      split_ifs
      · exact early _ _ rfl ⟨rfl, rfl, rfl, rfl⟩
      · exact early _ _ rfl ⟨rfl, rfl, rfl, rfl⟩
      · exact early _ _ rfl ⟨rfl, rfl, rfl, rfl⟩
    | failed | unknown =>
      simp only [World.advance, h]
      exact early _ _ rfl ⟨rfl, rfl, rfl, rfl⟩
  | listingTables login existed =>
    specialize early (by rw [h]; rfl)
    cases reply with
    | done =>
      simp only [World.advance, h]
      split_ifs
      · exact early _ _ rfl ⟨rfl, rfl, rfl, rfl⟩
      · exact early _ _ rfl ⟨rfl, rfl, rfl, rfl⟩
    | failed | unknown =>
      simp only [World.advance, h]
      exact early _ _ rfl ⟨rfl, rfl, rfl, rfl⟩
  | committing login existed =>
    specialize early (by rw [h]; rfl)
    by_cases accepted : w.accepts d login existed = true
    · cases reply with
      | done =>
        simp only [World.advance, h, accepted, if_true]
        exact .commits h accepted
      | failed e =>
        simp only [World.advance, h]
        exact early _ _ rfl ⟨rfl, rfl, rfl, rfl⟩
      | unknown e =>
        simp only [World.advance, h, accepted, if_true]
        exact .misses h accepted (by rw [World.phase_goto]; rfl) fun j ne => World.runs_goto _ _ ne
    · cases reply <;>
        simp only [World.advance, h, accepted] <;>
        exact early _ _ rfl ⟨rfl, rfl, rfl, rfl⟩
  | writing login existed password =>
    cases named : d.secretArn login with
    | none =>
      simp only [World.advance, h, named]
      exact .stays
    | some arn =>
      have asks := asksForRotate_secretUnwritten login existed
      cases reply with
      | done =>
        simp only [World.advance, h, named]
        exact .writes h named rfl (.inl rfl)
      | failed e =>
        simp only [World.advance, h, named]
        exact .skips h (asks e)
      | unknown e =>
        simp only [World.advance, h, named]
        exact .writes h named rfl (.inr (asks e))
  | releasing o =>
    cases reply <;>
      simp only [World.advance, h] <;>
      exact .passes (by rw [h]; rfl) (by rw [World.phase_goto]; rfl) (quiet_goto _ ⟨rfl, rfl, rfl, rfl⟩)
  | closing o =>
    cases reply with
    | done =>
      simp only [World.advance, h]
      exact .passes (by rw [h]; rfl) (by rw [World.phase_goto]; rfl) (quiet_goto _ ⟨rfl, rfl, rfl, rfl⟩)
    | failed | unknown =>
      simp only [World.advance, h]
      exact .replaced h (by simp) (by rw [World.phase_goto]; rfl) (quiet_goto _ ⟨rfl, rfl, rfl, rfl⟩)
  | ended o =>
    simp only [World.advance, h]
    exact .stays

/-! ## Agreement -/

/-- What a run that set a password last has come to. -/
def Settled (d : Deployment) (w : World) (login : Login) : Phase → Prop
  | .writing login' _ password => login' = login ∧ w.roles (d.role login) = some password
  | .releasing o | .closing o | .ended o =>
    o = .success ∧ w.Current d login ∨ o.asksForRotate = true
  | _ => False

/-- What holds of the last run that set the password of each role. -/
def Kept (d : Deployment) (w : World) : Prop :=
  ∀ login i, w.changedBy login = some i → Settled d w login (w.runs i).phase

/-- Runs write their secrets where that is allowed, and the last run that set a password reports it. -/
def Orderly (d : Deployment) (mayWrite : World → RunId → Login → Prop) (w : World) : Event → Prop
  | .advance i reply =>
    match (w.runs i).phase with
    -- a password that is set is not taken for a failure
    | .committing login existed => reply.isUnknown = true → w.accepts d login existed = false
    | .writing login _ _ => reply.effective = true → mayWrite w i login
    -- the end of a session does not replace what the run reports
    | .closing _ => reply ≠ .done → ∀ login, w.changedBy login ≠ some i
    | _ => True
  | .kill i => ∀ login, w.changedBy login ≠ some i
  | _ => True

/-- No later run has written the secret of this one and is going to report success. -/
def NotOvertaken (d : Deployment) (w : World) (i : RunId) (login : Login) : Prop :=
  ∀ login' j, d.secretArn login' = d.secretArn login → w.changedBy login' = some j → j ≠ i →
    (w.runs j).phase.outcome? ≠ some .success

instance Login.decidableForall {P : Login → Prop} [∀ login, Decidable (P login)] :
    Decidable (∀ login, P login) :=
  decidable_of_iff (P .application ∧ P .parser) ⟨fun both login => by
    cases login
    · exact both.1
    · exact both.2, fun all => ⟨all _, all _⟩⟩

instance (d : Deployment) (w : World) (i : RunId) (login : Login) :
    Decidable (NotOvertaken d w i login) :=
  decidable_of_iff (∀ login', ∀ j ∈ w.changedBy login', d.secretArn login' = d.secretArn login →
    j ≠ i → (w.runs j).phase.outcome? ≠ some .success)
    ⟨fun all login' j same last => all login' j last same,
      fun all login' j last same => all login' j same last⟩

instance {mayWrite : World → RunId → Login → Prop} [∀ w i login, Decidable (mayWrite w i login)] :
    (e : Event) → Decidable (Orderly d mayWrite w e)
  | .advance i reply =>
    match phase : (w.runs i).phase with
    | .committing login existed =>
      decidable_of_iff (reply.isUnknown = true → w.accepts d login existed = false)
        (by simp only [Orderly, phase])
    | .writing login _ _ =>
      decidable_of_iff (reply.effective = true → mayWrite w i login) (by simp only [Orderly, phase])
    | .closing _ =>
      decidable_of_iff (reply ≠ .done → ∀ login, w.changedBy login ≠ some i)
        (by simp only [Orderly, phase])
    | .idle | .preparing _ | .connecting _ | .locking _ | .reading | .upgrading | .granting
    | .readingRevision _ _ | .checkingRole _ _ | .listingTables _ _ | .releasing _ | .ended _ =>
      .isTrue (by simp only [Orderly, phase])
  | .kill i => inferInstanceAs (Decidable (∀ login, w.changedBy login ≠ some i))
  | .start .. | .loseSession _ => .isTrue trivial

/-- The steps that keep the secret and the password together. -/
def Careful (d : Deployment) : World → Event → Prop := Orderly d (NotOvertaken d)

instance (d : Deployment) (w : World) (e : Event) : Decidable (Careful d w e) :=
  inferInstanceAs (Decidable (Orderly d (NotOvertaken d) w e))

theorem settled_early {login : Login} {p : Phase} (early : p.early = true) : ¬ Settled d w login p := by
  cases p with
  | writing | releasing | closing | ended => cases early
  | _ => exact id

theorem settled_outcome {login : Login} {p : Phase} {o : Outcome} (passes : p.outcome? = some o) :
    Settled d w login p ↔ o = .success ∧ w.Current d login ∨ o.asksForRotate = true := by
  cases p with
  | releasing o' | closing o' | ended o' =>
    obtain rfl := Option.some.inj passes
    exact Iff.rfl
  | _ => cases passes

/-- What a run has come to stays while the password and the secrets do. -/
theorem settled_congr {w' : World} {login : Login}
    (roles : w'.roles (d.role login) = w.roles (d.role login)) (secrets : w'.secrets = w.secrets)
    {p : Phase} : Settled d w' login p ↔ Settled d w login p := by
  have current : w'.Current d login ↔ w.Current d login := by
    rw [World.Current, World.Current, roles, secrets]
  cases p with
  | writing => simp only [Settled, roles]
  | releasing | closing | ended => simp only [Settled, current]
  | _ => exact Iff.rfl

theorem kept_quiet {w' : World} (kept : Kept d w) (quiet : Quiet w w' i)
    (own : ∀ login, w.changedBy login = some i → Settled d w login (w.runs i).phase →
      Settled d w login (w'.runs i).phase) : Kept d w' := by
  intro login j last
  rw [quiet.changedBy] at last
  refine (settled_congr (congrFun quiet.roles _) quiet.secrets).mpr ?_
  by_cases same : j = i
  · subst same
    exact own login last (kept login j last)
  · rw [quiet.others j same]
    exact kept login j last

theorem role_ne (d : Deployment) {login login' : Login} (ne : login' ≠ login) :
    d.role login' ≠ d.role login := by
  cases login <;> cases login'
  · exact absurd rfl ne
  · exact d.distinct
  · exact d.distinct.symm
  · exact absurd rfl ne

theorem changedBy_commit_self (login : Login) (password : Str) :
    (w.commit d i login password).changedBy login = some i :=
  Function.update_self _ _ _

theorem changedBy_commit_other {login login' : Login} (ne : login' ≠ login) (password : Str) :
    (w.commit d i login password).changedBy login' = w.changedBy login' :=
  Function.update_of_ne ne _ _

theorem roles_commit_other {login login' : Login} (ne : login' ≠ login) (password : Str) :
    (w.commit d i login password).roles (d.role login') = w.roles (d.role login') :=
  Function.update_of_ne (role_ne d ne) _ _

/-- A transaction that sets a password. -/
theorem kept_commit (kept : Kept d w) {login : Login} {existed : Bool}
    (phase : (w.runs i).phase = .committing login existed) (password : Str) :
    Kept d ((w.commit d i login password).goto i (.writing login existed password)) := by
  intro login' j last
  rw [World.changedBy_goto] at last
  by_cases same : login' = login
  · subst same
    rw [changedBy_commit_self] at last
    obtain rfl := Option.some.inj last
    rw [World.phase_goto]
    exact ⟨rfl, Function.update_self _ _ _⟩
  · rw [changedBy_commit_other same] at last
    have settled := kept login' j last
    have other : j ≠ i := by
      rintro rfl
      exact settled_early (by rw [phase]; rfl) settled
    rw [World.runs_goto _ _ other]
    exact (settled_congr (roles_commit_other (i := i) same password) rfl).mpr settled

/-- A run that is not going to report success keeps what it has come to whatever is written. -/
theorem settled_put {login : Login} {p : Phase} {arn url : Str}
    (other : d.secretArn login = some arn → p.outcome? ≠ some .success)
    (settled : Settled d w login p) : Settled d (w.putSecret arn url) login p := by
  by_cases named : d.secretArn login = some arn
  · cases p with
    | writing => exact settled
    | releasing o | closing o | ended o =>
      rcases settled with ⟨rfl, -⟩ | asks
      · exact absurd rfl (other named)
      · exact .inr asks
    | _ => exact settled
  · have current : w.Current d login → (w.putSecret arn url).Current d login := by
      rintro ⟨own, password, named', held, written⟩
      have ne : own ≠ arn := fun same => named (same ▸ named')
      exact ⟨own, password, named', held, (Function.update_of_ne ne _ _).trans written⟩
    cases p with
    | writing => exact settled
    | releasing o | closing o | ended o => exact settled.imp_left (And.imp_right current)
    | _ => exact settled

/-- A secret that is written when no later run has written its own. -/
theorem kept_put (kept : Kept d w) {login : Login} {existed : Bool} {password arn : Str} {o : Outcome}
    (phase : (w.runs i).phase = .writing login existed password)
    (named : d.secretArn login = some arn)
    (careful : NotOvertaken d w i login) (reports : o = .success ∨ o.asksForRotate = true) :
    Kept d ((w.putSecret arn (d.url (d.role login) password)).goto i (.releasing o)) := by
  intro login' j last
  have settled := kept login' j last
  by_cases own : j = i
  · subst own
    rw [phase] at settled
    obtain ⟨rfl, held⟩ := settled
    rw [World.phase_goto]
    rcases reports with success | asks
    · exact .inl ⟨success, arn, password, named, held, Function.update_self _ _ _⟩
    · exact .inr asks
  · rw [World.runs_goto _ _ own]
    exact settled_put (fun same => careful login' j (same.trans named.symm) last own) settled

theorem kept_advance (kept : Kept d w) {reply : Reply} (careful : Careful d w (.advance i reply)) :
    Kept d (w.advance d i reply) := by
  have progress := advance_progress d w i reply
  generalize w.advance d i reply = w' at progress ⊢
  cases progress with
  | stays => exact kept
  | early before _ quiet =>
    exact kept_quiet kept quiet fun login _ settled => absurd settled (settled_early before)
  | passes before after quiet =>
    exact kept_quiet kept quiet fun login _ settled =>
      (settled_outcome after).mpr ((settled_outcome before).mp settled)
  | replaced phase other _ quiet =>
    have idle : ∀ login, w.changedBy login ≠ some i := by
      simp only [Careful, Orderly, phase] at careful
      exact careful other
    exact kept_quiet kept quiet fun login last => absurd last (idle login)
  | commits phase _ => exact kept_commit kept phase _
  | misses phase accepted _ _ =>
    simp only [Careful, Orderly, phase] at careful
    exact absurd accepted (by rw [careful rfl]; exact Bool.false_ne_true)
  | writes phase named effective reports =>
    simp only [Careful, Orderly, phase] at careful
    exact kept_put kept phase named (careful effective) reports
  | skips phase asks =>
    refine kept_quiet kept (quiet_goto _ ⟨rfl, rfl, rfl, rfl⟩) fun login _ _ => ?_
    rw [World.phase_goto]
    exact .inr asks

theorem kept_step (kept : Kept d w) (e : Event) (careful : Careful d w e) : Kept d (w.step d e) := by
  cases e with
  | start i a password =>
    by_cases idle : (w.runs i).phase = .idle
    · rw [World.step, if_pos idle]
      exact kept_quiet kept (quiet_setRun _) fun login _ settled =>
        absurd settled (settled_early (by rw [idle]; rfl))
    · rwa [World.step, if_neg idle]
  | advance i reply =>
    rw [World.step]
    split
    · exact kept
    · exact kept_advance kept careful
  | loseSession i =>
    have quiet : Quiet w ((w.unlock i).setRun i { w.runs i with lost := true }) i :=
      ⟨rfl, rfl, rfl, fun j ne => World.runs_setRun_other (w.unlock i) _ ne⟩
    refine kept_quiet kept quiet fun login _ settled => ?_
    rw [World.step, World.runs_setRun]
    exact settled
  | kill i =>
    rw [World.step]
    split
    · exact kept
    · exact kept
    · exact kept_quiet kept (quiet_goto _ ⟨rfl, rfl, rfl, rfl⟩) fun login last =>
        absurd last (careful login)

theorem kept_initial (initial : w.Initial) : Kept d w := by
  intro login i last
  rw [initial.changedBy] at last
  cases last

theorem agrees_of_kept (kept : Kept d w) (ended : w.AllEnded) : w.Agrees d := by
  intro login i last
  have settled := kept login i last
  rcases ended i with idle | ⟨o, done⟩
  · rw [idle] at settled
    exact settled.elim
  · rw [done] at settled
    refine ⟨o, done, ?_, ?_⟩
    · rintro rfl
      rcases settled with ⟨-, current⟩ | asks
      · exact current
      · cases asks
    · intro failed
      rcases settled with ⟨success, -⟩ | asks
      · exact absurd success failed
      · exact asks

theorem kept_run (initial : w.Initial) {events : List Event}
    (careful : Meets (World.step d) (Careful d) w events) : Kept d (run (World.step d) w events) :=
  run_invariant (I := Kept d) (fun _ e kept => kept_step kept e) (kept_initial initial) careful

/-! ## The lock -/

/-- What a step of a run does to the lock. -/
structure Locks (w w' : World) (i : RunId) : Prop where
  others : ∀ j ≠ i, w.lock = some j → w'.lock = some j
  own : (w'.runs i).phase.locked = true →
    (w'.lock = some i ∨ (w.runs i).phase.locked = true ∧ w'.lock = w.lock) ∧
      (w'.runs i).lost = (w.runs i).lost

theorem locks_goto {p : Phase} {u : World} (same : u.lock = w.lock ∧ u.runs = w.runs)
    (locked : p.locked = true → (w.runs i).phase.locked = true) : Locks w (u.goto i p) i where
  others j _ held := same.1.trans held
  own inside := by
    rw [World.phase_goto] at inside
    exact ⟨.inr ⟨locked inside, same.1⟩, (World.lost_goto u i i p).trans (by rw [same.2])⟩

theorem locks_tryLock (p : Phase) (free : w.lock = none) : Locks w ((w.tryLock i).goto i p) i where
  others j _ held := by
    rw [free] at held
    cases held
  own _ := ⟨.inl (if_pos free), World.lost_goto (w.tryLock i) i i p⟩

theorem locks_outside {p : Phase} {u : World} (outside : p.locked = false)
    (others : ∀ j ≠ i, w.lock = some j → u.lock = some j) : Locks w (u.goto i p) i where
  others := others
  own inside := by
    rw [World.phase_goto, outside] at inside
    cases inside

theorem lock_unlock (w : World) (i : RunId) : ∀ j ≠ i, w.lock = some j → (w.unlock i).lock = some j := by
  intro j ne held
  have other : ¬ w.lock = some i := by
    rw [held]
    exact fun same => ne (Option.some.inj same)
  exact (if_neg other).trans held

theorem lock_tryLock (w : World) (i : RunId) : ∀ j ≠ i, w.lock = some j → (w.tryLock i).lock = some j := by
  intro j _ held
  have taken : ¬ w.lock = none := by
    rw [held]
    exact Option.some_ne_none j
  exact (if_neg taken).trans held

theorem advance_locks (d : Deployment) (w : World) (i : RunId) (reply : Reply) :
    Locks w (w.advance d i reply) i := by
  have stays : Locks w w i := ⟨fun _ _ held => held, fun inside => ⟨.inr ⟨inside, rfl⟩, rfl⟩⟩
  have outside : ∀ p : Phase, p.locked = false → Locks w (w.goto i p) i :=
    fun p out => locks_outside out fun _ _ held => held
  have inside : (w.runs i).phase.locked = true → ∀ (u : World) (p : Phase),
      u.lock = w.lock ∧ u.runs = w.runs → Locks w (u.goto i p) i :=
    fun locked u p same => locks_goto same fun _ => locked
  cases h : (w.runs i).phase with
  | idle | ended o =>
    simp only [World.advance, h]
    exact stays
  | preparing a =>
    cases reply with
    | done =>
      simp only [World.advance, h]
      split
      · exact outside _ rfl
      · exact outside _ rfl
    | failed | unknown =>
      simp only [World.advance, h]
      exact outside _ rfl
  | connecting a =>
    cases reply with
    | done =>
      simp only [World.advance, h]
      refine ⟨fun _ _ held => held, fun inside => ?_⟩
      rw [World.runs_setRun] at inside
      by_cases status : a = .status
      · simp [status, Phase.locked] at inside
      · simp [status, Phase.locked] at inside
    | failed | unknown =>
      simp only [World.advance, h]
      exact outside _ rfl
  | reading =>
    cases reply <;>
      simp only [World.advance, h] <;>
      exact outside _ rfl
  | locking a =>
    cases reply with
    | done =>
      simp only [World.advance, h]
      split
      · rename_i free
        exact locks_tryLock _ free
      · exact outside _ rfl
    | failed =>
      simp only [World.advance, h]
      exact outside _ rfl
    | unknown =>
      simp only [World.advance, h]
      exact locks_outside rfl (lock_tryLock w i)
  | upgrading | granting | readingRevision | checkingRole | listingTables | committing =>
    specialize inside (by rw [h]; rfl)
    cases reply <;>
      simp only [World.advance, h] <;>
      (try split_ifs) <;>
      exact inside _ _ ⟨rfl, rfl⟩
  | writing login existed password =>
    specialize inside (by rw [h]; rfl)
    cases named : d.secretArn login with
    | none =>
      simp only [World.advance, h, named]
      exact stays
    | some arn =>
      cases reply <;>
        simp only [World.advance, h, named] <;>
        exact inside _ _ ⟨rfl, rfl⟩
  | releasing o | closing o =>
    cases reply with
    | done | unknown =>
      simp only [World.advance, h]
      exact locks_outside rfl (lock_unlock w i)
    | failed =>
      simp only [World.advance, h]
      exact outside _ rfl

/-- A run under the lock whose session lives holds the lock, and a run that is about to write a secret
is then the last that set the password. -/
structure Exclusive (w : World) : Prop where
  holds : ∀ i, (w.runs i).phase.locked = true → (w.runs i).lost = false → w.lock = some i
  newest : ∀ i login existed password, (w.runs i).phase = .writing login existed password →
    (w.runs i).lost = false → w.changedBy login = some i

theorem holds_of_locks {w' : World} (exclusive : Exclusive w) (locks : Locks w w' i)
    (others : ∀ j ≠ i, w'.runs j = w.runs j) :
    ∀ j, (w'.runs j).phase.locked = true → (w'.runs j).lost = false → w'.lock = some j := by
  intro j locked live
  by_cases own : j = i
  · subst own
    obtain ⟨mine | ⟨before, same⟩, lost⟩ := locks.own locked
    · exact mine
    · rw [same]
      exact exclusive.holds j before (lost.symm.trans live)
  · rw [others j own] at locked live
    exact locks.others j own (exclusive.holds j locked live)

/-- Two runs under the lock whose sessions live are one. -/
theorem Exclusive.unique (exclusive : Exclusive w) (locked : (w.runs i).phase.locked = true)
    (live : (w.runs i).lost = false) (locked' : (w.runs j).phase.locked = true)
    (live' : (w.runs j).lost = false) : j = i :=
  Option.some.inj ((exclusive.holds j locked' live').symm.trans (exclusive.holds i locked live))

theorem progress_others {reply : Reply} {w' : World} (progress : Progress d w i reply w') :
    ∀ j ≠ i, w'.runs j = w.runs j := by
  intro j ne
  cases progress with
  | stays => rfl
  | early _ _ quiet | passes _ _ quiet | replaced _ _ _ quiet => exact quiet.others j ne
  | commits | writes | skips => exact World.runs_goto _ _ ne
  | misses _ _ _ others => exact others j ne

/-- Only the transaction of a run changes who set a password last. -/
theorem progress_changedBy {reply : Reply} {w' : World} (progress : Progress d w i reply w') :
    w'.changedBy = w.changedBy ∨
      (∃ login existed, (w.runs i).phase = .committing login existed) ∧ reply.effective = true := by
  cases progress with
  | stays | writes | skips => exact .inl rfl
  | early _ _ quiet | passes _ _ quiet | replaced _ _ _ quiet => exact .inl quiet.changedBy
  | commits phase | misses phase => exact .inr ⟨⟨_, _, phase⟩, rfl⟩

/-- A run that comes to write a secret has just set the password. -/
theorem progress_writing {reply : Reply} {w' : World} (progress : Progress d w i reply w')
    {login : Login} {existed : Bool} {password : Str}
    (writing : (w'.runs i).phase = .writing login existed password) :
    w' = w ∨ w'.changedBy login = some i := by
  cases progress with
  | stays => exact .inl rfl
  | early _ other | replaced _ _ other | misses _ _ other =>
    rw [writing] at other
    cases other
  | passes _ after =>
    rw [writing] at after
    cases after
  | commits =>
    rw [World.phase_goto] at writing
    obtain ⟨rfl, -, -⟩ := Phase.writing.inj writing
    exact .inr (Function.update_self _ _ _)
  | writes | skips =>
    rw [World.phase_goto] at writing
    cases writing

theorem exclusive_advance (exclusive : Exclusive w) {reply : Reply}
    (possible : ¬ ((w.runs i).phase.usesSession && (w.runs i).lost && reply.effective) = true) :
    Exclusive (w.advance d i reply) := by
  have progress := advance_progress d w i reply
  have others := progress_others progress
  have locks := advance_locks d w i reply
  refine ⟨holds_of_locks exclusive locks others, fun j login existed password writing live => ?_⟩
  by_cases own : j = i
  · subst own
    rcases progress_writing progress writing with same | newest
    · rw [same] at writing live ⊢
      exact exclusive.newest j login existed password writing live
    · exact newest
  · rw [others j own] at writing live
    rcases progress_changedBy progress with same | ⟨⟨login', existed', phase⟩, effective⟩
    · rw [same]
      exact exclusive.newest j login existed password writing live
    · -- a run that is about to write is alone under the lock
      have session : (w.runs i).lost = false := by
        by_contra lost
        rw [Bool.not_eq_false] at lost
        exact possible (by rw [phase, lost, effective]; rfl)
      exact absurd (exclusive.unique (by rw [phase]; rfl) session (by rw [writing]; rfl) live) own

/-- A step that leaves its run outside the lock, or without a session. -/
theorem exclusive_outside {w' : World} (exclusive : Exclusive w)
    (others : ∀ j ≠ i, w'.runs j = w.runs j) (changedBy : w'.changedBy = w.changedBy)
    (lock : ∀ j ≠ i, w.lock = some j → w'.lock = some j)
    (outside : (w'.runs i).phase.locked = false ∨ (w'.runs i).lost = true) : Exclusive w' := by
  have own : ∀ j, (w'.runs j).phase.locked = true → (w'.runs j).lost = false → j ≠ i := by
    rintro j locked live rfl
    rcases outside with out | lost
    · exact absurd (locked.symm.trans out) (by decide)
    · exact absurd (lost.symm.trans live) (by decide)
  constructor
  · intro j locked live
    have other := own j locked live
    rw [others j other] at locked live
    exact lock j other (exclusive.holds j locked live)
  · intro j login existed password writing live
    have other := own j (by rw [writing]; rfl) live
    rw [others j other] at writing live
    rw [changedBy]
    exact exclusive.newest j login existed password writing live

theorem exclusive_step (d : Deployment) (exclusive : Exclusive w) (e : Event) :
    Exclusive (w.step d e) := by
  cases e with
  | start i a password =>
    by_cases idle : (w.runs i).phase = .idle
    · rw [World.step, if_pos idle]
      refine exclusive_outside (i := i) exclusive (fun j ne => World.runs_setRun_other w _ ne) rfl
        (fun _ _ held => held) (.inl ?_)
      rw [World.runs_setRun]
      rfl
    · rwa [World.step, if_neg idle]
  | advance i reply =>
    rw [World.step]
    split
    · exact exclusive
    · rename_i possible
      exact exclusive_advance exclusive possible
  | loseSession i =>
    refine exclusive_outside (i := i) exclusive (fun j ne => World.runs_setRun_other _ _ ne) rfl
      (lock_unlock w i) (.inr ?_)
    rw [World.step, World.runs_setRun]
  | kill i =>
    rw [World.step]
    split
    · exact exclusive
    · exact exclusive
    · refine exclusive_outside (i := i) exclusive (fun j ne => World.runs_goto _ _ ne) rfl
        (fun _ _ held => held) (.inl ?_)
      rw [World.phase_goto]
      rfl

theorem exclusive_initial (initial : w.Initial) : Exclusive w where
  holds i locked _ := by
    rw [initial.runs] at locked
    cases locked
  newest i login existed password writing _ := by
    rw [initial.runs] at writing
    cases writing

/-- The session of a run that writes its secret is still there. -/
def Attended (d : Deployment) : World → Event → Prop := Orderly d fun w i _ => (w.runs i).lost = false

theorem secretArn_inj (separate : d.secretArn .application ≠ d.secretArn .parser) {login login' : Login}
    (same : d.secretArn login' = d.secretArn login) : login' = login := by
  cases login <;> cases login'
  · rfl
  · exact absurd same.symm separate
  · exact absurd same separate
  · rfl

theorem careful_of_attended (separate : d.secretArn .application ≠ d.secretArn .parser)
    (exclusive : Exclusive w) {e : Event} (attended : Attended d w e) : Careful d w e := by
  cases e with
  | start | loseSession | kill => exact attended
  | advance i reply =>
    cases phase : (w.runs i).phase with
    | writing login existed password =>
      have newest : (w.runs i).lost = false → NotOvertaken d w i login := by
        intro live login' j same last ne
        obtain rfl := secretArn_inj separate same
        have mine := exclusive.newest i login' existed password phase live
        exact absurd (Option.some.inj (last.symm.trans mine)) ne
      simp only [Attended, Orderly, phase] at attended
      simp only [Careful, Orderly, phase]
      exact fun effective => newest (attended effective)
    | committing | closing =>
      simp only [Attended, Orderly, phase] at attended
      simp only [Careful, Orderly, phase]
      exact attended
    | _ => simp only [Careful, Orderly, phase]

/-- With a secret for each role, sessions that live until the secret is written keep the secrets and
the passwords together: the lock keeps the others out. -/
theorem agrees_of_attended (d : Deployment) (separate : d.secretArn .application ≠ d.secretArn .parser)
    {w : World} (initial : w.Initial) (events : List Event)
    (attended : Meets (World.step d) (Attended d) w events)
    (ended : (run (World.step d) w events).AllEnded) : (run (World.step d) w events).Agrees d := by
  have careful : Meets (World.step d) (Careful d) w events :=
    meets_of_invariant (I := Exclusive) (A := fun _ => True)
      (fun _ e exclusive _ _ => exclusive_step d exclusive e)
      (fun _ _ exclusive attended => careful_of_attended separate exclusive attended)
      (exclusive_initial initial) (fun _ _ => trivial) attended
  exact agrees_of_kept (kept_run initial careful) ended

/-! ## Two rotations -/

def Event.run : Event → RunId
  | .start i _ _ | .advance i _ | .loseSession i | .kill i => i

theorem step_others (d : Deployment) (w : World) {e : Event} (ne : j ≠ e.run) :
    (w.step d e).runs j = w.runs j := by
  cases e with
  | start i a password =>
    rw [World.step]
    split
    · exact World.runs_setRun_other w _ ne
    · rfl
  | advance i reply =>
    rw [World.step]
    split
    · rfl
    · exact progress_others (advance_progress d w i reply) j ne
  | loseSession i => exact World.runs_setRun_other _ _ ne
  | kill i =>
    rw [World.step]
    split
    · rfl
    · rfl
    · exact World.runs_goto _ _ ne

/-- A run that no event names does not move. -/
theorem run_others (d : Deployment) (w : World) {events : List Event}
    (ne : ∀ e ∈ events, j ≠ e.run) : (run (World.step d) w events).runs j = w.runs j := by
  induction events generalizing w with
  | nil => rfl
  | cons e events ih =>
    rw [run_cons, ih (w.step d e) fun e he => ne e (List.mem_cons_of_mem _ he)]
    exact step_others d w (ne e List.mem_cons_self)

def demoDeployment : Deployment where
  masterUser := lit "qa_master"
  appUser := lit "ai_qa_copilot_app"
  parserUser := lit "ai_qa_copilot_parser"
  databaseUrlSecretArn := lit "arn:aws:secretsmanager:eu-north-1:123456789012:secret:database-url"
  parserDatabaseUrlSecretArn := none
  head := lit "0042"
  tables := []
  url user password :=
    lit "postgresql+psycopg://" ++ user ++ lit ":" ++ password ++ lit "@db.internal:5432/ai_qa_copilot"
  distinct := by decide

/-- A database with an application role, and no runs. -/
def demoWorld : World where
  revision := some (lit "0042")
  tables := []
  roles := fun role => if role = lit "ai_qa_copilot_app" then some (lit "initial") else none
  lock := none
  secrets := fun _ => none
  runs := fun _ => ⟨.idle, [], false⟩
  changedBy := fun _ => none

theorem demoWorld_initial : demoWorld.Initial := ⟨rfl, fun _ => rfl, fun _ => rfl⟩

/-- The steps of a run. -/
def advances (i : RunId) (n : Nat) : List Event := List.replicate n (.advance i .done)

/-- A rotation up to its transaction. -/
def rotates (i : RunId) (password : Str) : List Event :=
  .start i (.createUser .application true) password :: advances i 7

/-- A run sets the password and loses its session; the next one sets the password, writes the secret
and ends; then the first writes its own and ends. -/
def overtaken : List Event :=
  rotates 0 (lit "first") ++ [.loseSession 0] ++ rotates 1 (lit "second") ++ advances 1 3 ++
    [.advance 0 .done, .advance 0 (.failed (lit "OperationalError")), .advance 0 .done]

/-- Runs 0 and 1 alone take part and report success. -/
theorem ended_of_two {events : List Event} (two : ∀ e ∈ events, e.run = 0 ∨ e.run = 1)
    (first : ((run (World.step demoDeployment) demoWorld events).runs 0).phase = .ended .success)
    (second : ((run (World.step demoDeployment) demoWorld events).runs 1).phase = .ended .success) :
    (run (World.step demoDeployment) demoWorld events).AllEnded := by
  intro i
  by_cases zero : i = 0
  · exact .inr ⟨_, zero ▸ first⟩
  by_cases one : i = 1
  · exact .inr ⟨_, one ▸ second⟩
  · left
    rw [run_others demoDeployment demoWorld fun e he => ?_]
    · rfl
    · rcases two e he with named | named
      · rwa [named]
      · rwa [named]

/-- Both rotations report success, and the secret holds the password of the first. -/
theorem agrees_overtaken : ¬ ∀ (d : Deployment) (w : World) (events : List Event), w.Initial →
    (run (World.step d) w events).AllEnded → (run (World.step d) w events).Agrees d := by
  intro all
  have agrees := all demoDeployment demoWorld overtaken demoWorld_initial
    (ended_of_two (by decide) (by decide +kernel) (by decide +kernel))
  obtain ⟨o, ended, current, -⟩ := agrees .application 1 (by decide +kernel)
  have success : ((run (World.step demoDeployment) demoWorld overtaken).runs 1).phase =
      .ended .success := by
    decide +kernel
  obtain rfl : o = .success := Phase.ended.inj (ended.symm.trans success)
  obtain ⟨arn, password, named, held, written⟩ := current rfl
  obtain rfl := Option.some.inj named
  have second : (run (World.step demoDeployment) demoWorld overtaken).roles
      (demoDeployment.role .application) = some (lit "second") := by
    decide +kernel
  obtain rfl := Option.some.inj (held.symm.trans second)
  have stale : (run (World.step demoDeployment) demoWorld overtaken).secrets
      demoDeployment.databaseUrlSecretArn =
        some (demoDeployment.url (demoDeployment.role .application) (lit "first")) := by
    decide +kernel
  have differ : demoDeployment.url (demoDeployment.role .application) (lit "second") ≠
      demoDeployment.url (demoDeployment.role .application) (lit "first") := by
    decide +kernel
  exact differ (Option.some.inj (written.symm.trans stale))

/-- In every run whose steps are careful the secret and the password agree once all runs have ended. -/
theorem agrees_of_careful (d : Deployment) {w : World} (initial : w.Initial) (events : List Event)
    (careful : Meets (World.step d) (Careful d) w events)
    (ended : (run (World.step d) w events).AllEnded) : (run (World.step d) w events).Agrees d :=
  agrees_of_kept (kept_run initial careful) ended

/-- The same two rotations, where the first writes its secret before the second. -/
def inTurn : List Event :=
  rotates 0 (lit "first") ++ [.loseSession 0] ++ rotates 1 (lit "second") ++
    [.advance 0 .done, .advance 0 (.failed (lit "OperationalError")), .advance 0 .done] ++
    advances 1 3

theorem agrees_inTurn :
    (run (World.step demoDeployment) demoWorld inTurn).Agrees demoDeployment := by
  exact agrees_of_careful demoDeployment demoWorld_initial inTurn (by decide +kernel)
    (ended_of_two (by decide) (by decide +kernel) (by decide +kernel))

end QaCopilot.Migration
