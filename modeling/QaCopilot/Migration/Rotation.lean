import Mathlib.Logic.Function.Basic
import QaCopilot.Lib.Runs
import QaCopilot.Python.Text

/-!
# Runs of the migration runner

`lambda_migrate.py`: what its runs do to the roles of the database, to the advisory lock and to the
secrets. Each call of the database or of the secret store is a step of its own; it may fail, and it
may take effect although it fails.
-/

namespace QaCopilot.Migration

open Python

abbrev RunId := Nat

/-- The login roles that the runner makes. -/
inductive Login where
  | application
  | parser
deriving DecidableEq

inductive Action where
  | status
  | migrate
  | applyGrants
  | createUser (login : Login) (rotate : Bool)
deriving DecidableEq

/-- The settings, the master user and the packaged migrations of a deployment. -/
structure Deployment where
  masterUser : Str
  appUser : Str
  parserUser : Str
  databaseUrlSecretArn : Str
  parserDatabaseUrlSecretArn : Option Str
  head : Str
  tables : List Str
  /-- `_postgresql_url` -/
  url : Str → Str → Str
  distinct : parserUser ≠ appUser

section
variable (d : Deployment)

def Deployment.role : Login → Str
  | .application => d.appUser
  | .parser => d.parserUser

def Deployment.secretArn : Login → Option Str
  | .application => some d.databaseUrlSecretArn
  | .parser => d.parserDatabaseUrlSecretArn

end

def Login.kind : Login → Str
  | .application => lit "application"
  | .parser => lit "parser"

def Login.secretLabel : Login → Str
  | .application => lit "database-url"
  | .parser => lit "parser-database-url"

/-- `required_tables`; the parser needs those of `PARSER_TABLE_GRANTS`. -/
def Login.requiredTables : Login → List Str
  | .application => []
  | .parser =>
    [lit "parser_jobs", lit "document_versions", lit "parser_versions", lit "source_locations",
      lit "document_sections", lit "indexing_jobs", lit "document_intakes", lit "documents"]

/-! ## Messages -/

def failedStep (step error : Str) : Str := step ++ lit " failed (" ++ error ++ lit ")"

def lockHeld : Str := lit "Another runner holds the migration lock"

def notMigrated : Str := lit "The database is not migrated; run migrate first"

def roleIsMaster (login : Login) : Str :=
  lit "The " ++ login.kind ++ lit " role name must differ from the master user"

def roleExists (login : Login) : Str :=
  lit "The " ++ login.kind ++ lit " role already exists; send rotate=true to reset its password"

def roleMissing (login : Login) : Str :=
  lit "rotate=true was sent but the " ++ login.kind ++ lit " role does not exist"

def tableMissing (login : Login) : Str :=
  lit "The database lacks a table the " ++ login.kind ++ lit " role needs; run migrate first"

/-- The name of the step that sets the password. -/
def passwordStep (login : Login) (existed : Bool) : Str :=
  if existed then lit "Rotating the " ++ login.kind ++ lit " password"
  else lit "Creating the " ++ login.kind ++ lit " role"

def rerun : Str := lit "so rerun with rotate=true"

/-- The message of a secret that was not written. -/
def secretUnwritten (login : Login) (existed : Bool) (error : Str) : Str :=
  failedStep (lit "Writing the " ++ login.secretLabel ++ lit " secret") error ++ lit "; the role was " ++
    (if existed then lit "rotated" else lit "created") ++ lit " but the secret was not written, " ++ rerun

/-- What a run reports: its payload, a `MigrationRunnerError`, another exception, or nothing. -/
inductive Outcome where
  | success
  | error (message : Str)
  | raised (error : Str)
  | killed
deriving DecidableEq

def Outcome.asksForRotate : Outcome → Bool
  | .error message => rerun.isSuffixOf message
  | _ => false

/-! ## Runs -/

inductive Phase where
  | idle
  | preparing (a : Action)
  | connecting (a : Action)
  | locking (a : Action)
  | reading
  | upgrading
  | granting
  | readingRevision (login : Login) (rotate : Bool)
  | checkingRole (login : Login) (rotate : Bool)
  | listingTables (login : Login) (existed : Bool)
  | committing (login : Login) (existed : Bool)
  | writing (login : Login) (existed : Bool) (password : Str)
  | releasing (o : Outcome)
  | closing (o : Outcome)
  | ended (o : Outcome)
deriving DecidableEq

/-- `password` is what `generate_password` gives in the run. -/
structure Run where
  phase : Phase
  password : Str
  lost : Bool

/-- The next step of the run is a statement on its own session. -/
def Phase.usesSession : Phase → Bool
  | .locking _ | .reading | .granting | .readingRevision .. | .checkingRole .. | .listingTables ..
  | .committing .. | .releasing _ => true
  | _ => false

/-- The run is between taking the lock and giving it back. -/
def Phase.locked : Phase → Bool
  | .upgrading | .granting | .readingRevision .. | .checkingRole .. | .listingTables ..
  | .committing .. | .writing .. => true
  | _ => false

/-- The run is about to write its secret. -/
def Phase.isWriting : Phase → Bool
  | .writing .. => true
  | _ => false

/-- What the run is going to report. -/
def Phase.outcome? : Phase → Option Outcome
  | .releasing o | .closing o | .ended o => some o
  | _ => none

/-- The database with the passwords of its roles and its advisory lock, the secret store, and the runs.
No code reads `changedBy`: it is the last run whose transaction set the password of a role. -/
structure World where
  revision : Option Str
  tables : List Str
  roles : Str → Option Str
  lock : Option RunId
  secrets : Str → Option Str
  runs : RunId → Run
  changedBy : Login → Option RunId

/-- How a step ends: done, not done and raised, or done and raised. -/
inductive Reply where
  | done
  | failed (error : Str)
  | unknown (error : Str)
deriving DecidableEq

def Reply.effective : Reply → Bool
  | .failed _ => false
  | _ => true

/-- The step took effect, and is taken for a failure. -/
def Reply.isUnknown : Reply → Bool
  | .unknown _ => true
  | _ => false

inductive Event where
  | start (i : RunId) (a : Action) (password : Str)
  | advance (i : RunId) (reply : Reply)
  | loseSession (i : RunId)
  | kill (i : RunId)
deriving DecidableEq

namespace World

def setRun (w : World) (i : RunId) (r : Run) : World := { w with runs := Function.update w.runs i r }

def goto (w : World) (i : RunId) (phase : Phase) : World := w.setRun i { w.runs i with phase }

/-- The lock of a session ends. -/
def unlock (w : World) (i : RunId) : World :=
  { w with lock := if w.lock = some i then none else w.lock }

/-- `pg_try_advisory_lock` -/
def tryLock (w : World) (i : RunId) : World :=
  { w with lock := if w.lock = none then some i else w.lock }

end World

/-- The checks of an action before it connects. -/
def Deployment.refused (d : Deployment) : Action → Option Str
  | .applyGrants =>
    if d.appUser = d.masterUser then some (lit "APP_DB_USER must differ from the master user") else none
  | .createUser login _ =>
    if d.secretArn login = none then some (lit "PARSER_DATABASE_URL_SECRET_ARN must be configured")
    else if d.role login = d.masterUser then some (roleIsMaster login)
    else none
  | _ => none

/-- The first step of an action under the lock. -/
def Action.body : Action → Phase
  | .createUser login rotate => .readingRevision login rotate
  | .applyGrants => .granting
  | _ => .upgrading

/-- The transaction of a run finds the role as the run has seen it. -/
def World.accepts (d : Deployment) (w : World) (login : Login) (existed : Bool) : Bool :=
  (w.roles (d.role login)).isSome = existed

/-- The role and the grants, in one transaction. -/
def World.commit (d : Deployment) (w : World) (i : RunId) (login : Login) (password : Str) : World :=
  { w with
    roles := Function.update w.roles (d.role login) (some password)
    changedBy := Function.update w.changedBy login (some i) }

/-- `put_secret_value` -/
def World.putSecret (w : World) (arn url : Str) : World :=
  { w with secrets := Function.update w.secrets arn (some url) }

/-- The next step of a run. The messages of the actions that set no password, and of what precedes a
connection, are left open. -/
def World.advance (d : Deployment) (w : World) (i : RunId) (reply : Reply) : World :=
  match (w.runs i).phase, reply with
  | .idle, _ | .ended _, _ => w
  | .preparing a, .done =>
    match d.refused a with
    | some message => w.goto i (.ended (.error message))
    | none => w.goto i (.connecting a)
  | .preparing _, .failed message | .preparing _, .unknown message =>
    w.goto i (.ended (.error message))
  | .connecting a, .done =>
    w.setRun i ⟨if a = .status then .reading else .locking a, (w.runs i).password, false⟩
  | .connecting _, .failed e | .connecting _, .unknown e =>
    w.goto i (.ended (.error (failedStep (lit "Connecting to the database") e)))
  | .reading, .done => w.goto i (.closing .success)
  | .reading, .failed message | .reading, .unknown message => w.goto i (.closing (.error message))
  | .locking a, .done =>
    if w.lock = none then (w.tryLock i).goto i a.body else w.goto i (.closing (.error lockHeld))
  | .locking _, .failed e =>
    w.goto i (.closing (.error (failedStep (lit "Taking the migration lock") e)))
  | .locking _, .unknown e =>
    (w.tryLock i).goto i (.closing (.error (failedStep (lit "Taking the migration lock") e)))
  | .upgrading, .done =>
    { w with revision := some d.head, tables := d.tables }.goto i (.releasing .success)
  | .upgrading, .unknown message =>
    { w with revision := some d.head, tables := d.tables }.goto i (.releasing (.error message))
  | .upgrading, .failed message => w.goto i (.releasing (.error message))
  | .granting, .done => w.goto i (.releasing .success)
  | .granting, .failed message | .granting, .unknown message => w.goto i (.releasing (.error message))
  | .readingRevision login rotate, .done =>
    if w.revision = none then w.goto i (.releasing (.error notMigrated))
    else w.goto i (.checkingRole login rotate)
  | .readingRevision .., .failed e | .readingRevision .., .unknown e =>
    w.goto i (.releasing (.error (failedStep (lit "Reading the revision") e)))
  | .checkingRole login rotate, .done =>
    let existed := (w.roles (d.role login)).isSome
    if existed && !rotate then w.goto i (.releasing (.error (roleExists login)))
    else if rotate && !existed then w.goto i (.releasing (.error (roleMissing login)))
    else w.goto i (.listingTables login existed)
  | .checkingRole login _, .failed e | .checkingRole login _, .unknown e =>
    w.goto i (.releasing (.error (failedStep (lit "Checking the " ++ login.kind ++ lit " role") e)))
  | .listingTables login existed, .done =>
    if login.requiredTables.all (· ∈ w.tables) then w.goto i (.committing login existed)
    else w.goto i (.releasing (.error (tableMissing login)))
  | .listingTables .., .failed e | .listingTables .., .unknown e =>
    w.goto i (.releasing (.error (failedStep (lit "Listing tables") e)))
  | .committing login existed, .done =>
    if w.accepts d login existed then
      (w.commit d i login (w.runs i).password).goto i (.writing login existed (w.runs i).password)
    else
      w.goto i (.releasing (.error (failedStep (passwordStep login existed)
        (if existed then lit "UndefinedObject" else lit "DuplicateObject"))))
  | .committing login existed, .unknown e =>
    (if w.accepts d login existed then w.commit d i login (w.runs i).password else w).goto i
      (.releasing (.error (failedStep (passwordStep login existed) e)))
  | .committing login existed, .failed e =>
    w.goto i (.releasing (.error (failedStep (passwordStep login existed) e)))
  | .writing login existed password, reply =>
    -- `refused` leaves no run without a secret
    match d.secretArn login with
    | none => w
    | some arn =>
      let written := w.putSecret arn (d.url (d.role login) password)
      match reply with
      | .done => written.goto i (.releasing .success)
      | .unknown e => written.goto i (.releasing (.error (secretUnwritten login existed e)))
      | .failed e => w.goto i (.releasing (.error (secretUnwritten login existed e)))
  | .releasing o, .failed _ => w.goto i (.closing o)
  | .releasing o, .done | .releasing o, .unknown _ => (w.unlock i).goto i (.closing o)
  | .closing o, .done => (w.unlock i).goto i (.ended o)
  | .closing _, .failed e => w.goto i (.ended (.raised e))
  | .closing _, .unknown e => (w.unlock i).goto i (.ended (.raised e))

/-- An event that is not possible changes nothing: a statement on a session that is lost has no
effect. -/
def World.step (d : Deployment) (w : World) : Event → World
  | .start i a password =>
    if (w.runs i).phase = .idle then w.setRun i ⟨.preparing a, password, false⟩ else w
  | .advance i reply =>
    if (w.runs i).phase.usesSession && (w.runs i).lost && reply.effective then w else w.advance d i reply
  | .loseSession i => (w.unlock i).setRun i { w.runs i with lost := true }
  | .kill i =>
    match (w.runs i).phase with
    | .idle | .ended _ => w
    | _ => w.goto i (.ended .killed)

/-- No run has begun. -/
structure World.Initial (w : World) : Prop where
  lock : w.lock = none
  runs : ∀ i, (w.runs i).phase = .idle
  changedBy : ∀ login, w.changedBy login = none

def World.AllEnded (w : World) : Prop :=
  ∀ i, (w.runs i).phase = .idle ∨ ∃ o, (w.runs i).phase = .ended o

/-- The secret of a role holds the URL with its password. -/
def World.Current (d : Deployment) (w : World) (login : Login) : Prop :=
  ∃ arn password, d.secretArn login = some arn ∧ w.roles (d.role login) = some password ∧
    w.secrets arn = some (d.url (d.role login) password)

/-- The last run that set the password of a role reports success and the secret is current, or it
reports an error that asks for a rotate. -/
def World.Agrees (d : Deployment) (w : World) : Prop :=
  ∀ login i, w.changedBy login = some i → ∃ o, (w.runs i).phase = .ended o ∧
    (o = .success → w.Current d login) ∧ (o ≠ .success → o.asksForRotate = true)

end QaCopilot.Migration
