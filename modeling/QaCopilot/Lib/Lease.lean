import Mathlib.Tactic.Common

/-!
# Claims with a deadline

A job is queued, claimed once with a token until a deadline, and then finished once. The holder
finishes it by showing the claim back while it lasts; after the deadline anyone may finish it as
lapsed. Which outcome goes with which code, and on which side of the deadline, is a parameter
`Ends`.

* `Move.checked`: every move keeps the columns of a job as its state demands;
* `Move.not_finished`: no move leaves a finished job.
-/

namespace QaCopilot.Leases

inductive State (Outcome : Type) where
  | queued
  | claimed
  | finished (o : Outcome)
deriving DecidableEq

/-- The columns of a claimable job. -/
structure Lease (Token Outcome Code : Type) where
  state : State Outcome
  createdAt : Int
  claimToken : Option Token
  claimedAt : Option Int
  claimExpiresAt : Option Int
  completedAt : Option Int
  failureCode : Option Code
deriving DecidableEq

/-- What the holder of a claim shows back. -/
structure Claim (Token : Type) where
  token : Token
  claimedAt : Int
  claimExpiresAt : Int
deriving DecidableEq

section
variable {Token Outcome Code : Type}

namespace Lease

def queuedAt (createdAt : Int) : Lease Token Outcome Code :=
  ⟨.queued, createdAt, none, none, none, none, none⟩

def claim (l : Lease Token Outcome Code) (c : Claim Token) : Lease Token Outcome Code :=
  { l with
    state := .claimed
    claimToken := some c.token
    claimedAt := some c.claimedAt
    claimExpiresAt := some c.claimExpiresAt }

def finish (l : Lease Token Outcome Code) (o : Outcome) (now : Int) (code : Option Code) :
    Lease Token Outcome Code :=
  { l with
    state := .finished o
    completedAt := some now
    failureCode := code }

/-- The job is claimed by `c`, and `c` lasts at `now`. -/
def heldBy [DecidableEq Token] (l : Lease Token Outcome Code) (c : Claim Token) (now : Int) :
    Bool :=
  l.claimToken = some c.token && l.claimedAt = some c.claimedAt &&
    l.claimExpiresAt = some c.claimExpiresAt && c.claimedAt ≤ now && now < c.claimExpiresAt

/-- The deadline of the claim has passed. -/
def lapsed (l : Lease Token Outcome Code) (now : Int) : Bool :=
  match l.claimExpiresAt with
  | some deadline => deadline ≤ now
  | none => false

end Lease

variable (Ends : Outcome → Option Code → Bool → Prop)

/-- One change of a job by one operation. -/
inductive Move : Lease Token Outcome Code → Lease Token Outcome Code → Prop where
  | claim {l} (c : Claim Token) (queued : l.state = .queued) (created : l.createdAt ≤ c.claimedAt)
    (lasts : c.claimedAt < c.claimExpiresAt) : Move l (l.claim c)
  | finish {l start deadline} (o : Outcome) (now : Int) (code : Option Code)
    (claimed : l.state = .claimed) (since : l.claimedAt = some start)
    (until' : l.claimExpiresAt = some deadline) (started : start ≤ now)
    (ends : Ends o code (now < deadline)) : Move l (l.finish o now code)

/-- The columns of a job are those that its state demands. -/
inductive Checked : Lease Token Outcome Code → Prop where
  | queued {createdAt} : Checked (.queuedAt createdAt)
  | claimed {createdAt} (c : Claim Token) (created : createdAt ≤ c.claimedAt)
    (lasts : c.claimedAt < c.claimExpiresAt) : Checked ((Lease.queuedAt createdAt).claim c)
  | finished {createdAt} (c : Claim Token) (created : createdAt ≤ c.claimedAt)
    (lasts : c.claimedAt < c.claimExpiresAt) (o : Outcome) (now : Int) (code : Option Code)
    (started : c.claimedAt ≤ now) (ends : Ends o code (now < c.claimExpiresAt)) :
    Checked (((Lease.queuedAt createdAt).claim c).finish o now code)

variable {Ends}

theorem Move.checked {l l' : Lease Token Outcome Code} (move : Move Ends l l')
    (checked : Checked Ends l) : Checked Ends l' := by
  cases move with
  | claim c queued created lasts =>
    cases checked with
    | queued => exact .claimed c created lasts
    | claimed => cases queued
    | finished => cases queued
  | finish o now code claimed since until' started ends =>
    cases checked with
    | queued => cases claimed
    | claimed c created lasts =>
      obtain rfl := Option.some.inj since
      obtain rfl := Option.some.inj until'
      exact .finished c created lasts o now code started ends
    | finished => cases claimed

theorem Move.not_finished {l l' : Lease Token Outcome Code} (move : Move Ends l l') {o : Outcome} :
    l.state ≠ .finished o := by
  intro finished
  cases move with
  | claim c queued => simp [queued] at finished
  | finish o' now code claimed => simp [claimed] at finished

/-- A held or lapsed claim has its dates. -/
theorem Checked.dates {l : Lease Token Outcome Code} (checked : Checked Ends l)
    (claimed : l.state = .claimed) :
    ∃ start deadline, l.claimedAt = some start ∧ l.claimExpiresAt = some deadline ∧
      start < deadline := by
  cases checked with
  | queued => cases claimed
  | claimed c created lasts => exact ⟨_, _, rfl, rfl, lasts⟩
  | finished => cases claimed

/-- The columns that each state demands, where `code` says whether an outcome leaves one. -/
def Lease.lifecycle (code : Outcome → Bool) (l : Lease Token Outcome Code) : Bool :=
  match l.state with
  | .queued => l.claimToken.isNone && l.claimedAt.isNone && l.claimExpiresAt.isNone &&
      l.completedAt.isNone && l.failureCode.isNone
  | .claimed => l.claimToken.isSome && l.claimedAt.isSome && l.claimExpiresAt.isSome &&
      l.completedAt.isNone && l.failureCode.isNone
  | .finished o => l.claimToken.isSome && l.claimedAt.isSome && l.claimExpiresAt.isSome &&
      l.completedAt.isSome && l.failureCode.isSome == code o

/-- The order of the dates. -/
def Lease.timestamps (l : Lease Token Outcome Code) : Bool :=
  l.claimedAt.all fun start => l.createdAt ≤ start && l.claimExpiresAt.any (start < ·) &&
    l.completedAt.all (start ≤ ·)

theorem Checked.lifecycle {code : Outcome → Bool} {l : Lease Token Outcome Code}
    (coded : ∀ o c early, Ends o c early → c.isSome = code o) (checked : Checked Ends l) :
    l.lifecycle code = true ∧ l.timestamps = true := by
  cases checked with
  | queued => exact ⟨rfl, rfl⟩
  | claimed c created lasts =>
    refine ⟨rfl, ?_⟩
    simp [Lease.timestamps, Lease.claim, Lease.queuedAt, created, lasts]
  | finished c created lasts o now code' started ends =>
    constructor
    · simp [Lease.lifecycle, Lease.finish, Lease.claim, coded o code' _ ends]
    · simp [Lease.timestamps, Lease.finish, Lease.claim, Lease.queuedAt, created, lasts, started]

/-- How a finished job ended. -/
theorem Checked.ended {l : Lease Token Outcome Code} (checked : Checked Ends l) {o : Outcome}
    (finished : l.state = .finished o) :
    ∃ start deadline now, l.claimedAt = some start ∧ l.claimExpiresAt = some deadline ∧
      l.completedAt = some now ∧ start ≤ now ∧ Ends o l.failureCode (now < deadline) := by
  cases checked with
  | queued => cases finished
  | claimed => cases finished
  | finished c created lasts o' now code started ends =>
    obtain rfl := State.finished.inj finished
    exact ⟨_, _, now, rfl, rfl, rfl, started, ends⟩

/-- What the holder may do with a job that it claimed. -/
theorem Move.ofHeld [DecidableEq Token] {l : Lease Token Outcome Code} {c : Claim Token}
    {now : Int} (claimed : l.state = .claimed) (held : l.heldBy c now = true) {o : Outcome}
    {code : Option Code} (ends : Ends o code true) : Move Ends l (l.finish o now code) := by
  simp only [Lease.heldBy, Bool.and_eq_true, decide_eq_true_eq] at held
  obtain ⟨⟨⟨⟨-, since⟩, until'⟩, started⟩, lasts⟩ := held
  refine .finish o now code claimed since until' started ?_
  simpa only [lasts, decide_true] using ends

/-- What anyone may do with a lapsed job. -/
theorem Move.ofLapsed {l : Lease Token Outcome Code} {now : Int} (checked : Checked Ends l)
    (claimed : l.state = .claimed) (lapsed : l.lapsed now = true) {o : Outcome}
    {code : Option Code} (ends : Ends o code false) : Move Ends l (l.finish o now code) := by
  obtain ⟨start, deadline, since, until', lasts⟩ := checked.dates claimed
  have late : deadline ≤ now := by simpa [Lease.lapsed, until'] using lapsed
  refine .finish o now code claimed since until' (by omega) ?_
  have : ¬ now < deadline := by omega
  simpa only [this, decide_false] using ends

end

end QaCopilot.Leases
