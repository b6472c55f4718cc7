import KonfirmBackend.Db.FileNames
import KonfirmBackend.Lib.Program

/-!
# The migration runner

`db/migrate.ts`, statement by statement. Each statement goes to a Postgres whose answers are
the environment's: it is carried out, it fails, or it is carried out and the answer is lost.
In a transaction the statements work on a copy, which `COMMIT` puts in place of the database;
a statement that fails in it leaves nothing but a rollback. A process that is killed is one
that gets no answer any more.

## Main definitions

- `runInTransaction`, `up`, `down` — the functions of the source
- `Server` — the database as a run of the process sees it
- `World`, `Run` — the database from one run to the next

## Main results

- `ends_runInTransaction` — a script and its record are committed together or not at all
-/

namespace KonfirmBackend.Migrate

open Program

/-! ## The database -/

/-- A row of `schema_migrations`. -/
structure Row where
  name : String
  appliedAt : ℕ
deriving DecidableEq

structure Database where
  /-- `schema_migrations`, once it exists -/
  schemaMigrations : Option (List Row)
  /-- the scripts that made the schema what it is, in the order in which they ran -/
  scripts : List Script
deriving DecidableEq

def Database.rows (db : Database) : List Row := db.schemaMigrations.getD []

def Database.names (db : Database) : List String := db.rows.map Row.name

/-- `CREATE TABLE IF NOT EXISTS`. -/
def Database.createTable (db : Database) : Database :=
  { db with schemaMigrations := some db.rows }

/-- `SELECT name ... ORDER BY applied_at DESC LIMIT`. -/
def latestNames (rows : List Row) (limit : ℕ) : List String :=
  ((rows.insertionSort fun r r' => r'.appliedAt ≤ r.appliedAt).take limit).map Row.name

/-- A statement of a transaction: `none` where it violates a constraint. The number is
`NOW()`, the time of the transaction. -/
abbrev Statement := ℕ → Database → Option Database

/-- The text of a file goes as one query. Where a statement in it fails, so does the query. -/
def execScript (sql : Script) : Statement := fun _ db =>
  some { db with scripts := db.scripts ++ [sql] }

/-- `INSERT INTO schema_migrations (name)`, of a primary key. -/
def insertName (name : String) : Statement := fun now db =>
  db.schemaMigrations.bind fun rows =>
    if name ∈ rows.map Row.name then none
    else some { db with schemaMigrations := some (rows ++ [⟨name, now⟩]) }

def deleteName (name : String) : Statement := fun _ db =>
  db.schemaMigrations.map fun rows =>
    { db with schemaMigrations := some (rows.filter fun r => r.name ≠ name) }

/-! ## The server -/

inductive Outcome
  | done
  | failed
  /-- carried out, but the connection broke before the answer came -/
  | lost
deriving DecidableEq

/-- How a call to Postgres or to the file system ends, and how much time it takes beyond the
least. -/
structure Answer where
  outcome : Outcome
  elapsed : ℕ

/-- The connection of `runInTransaction`. -/
inductive Session
  | idle
  | transaction (now : ℕ) (work : Database)
  | aborted

structure Server where
  /-- what is committed -/
  database : Database
  session : Session
  clock : ℕ
  answers : ℕ → Answer
  /-- every state of the database that was committed, in order -/
  history : List Database
  /-- the database when the run threw its first exception -/
  raisedAt : Option Database

inductive MigrateError
  | environment
  | noDownMigration (message : String)
deriving DecidableEq

abbrev Process := EStateM MigrateError Server

def Server.answered (s : Server) : Server :=
  { s with
    clock := s.clock + (s.answers 0).elapsed + 1
    answers := fun i => s.answers (i + 1) }

def Server.store (db : Database) (s : Server) : Server :=
  { s with database := db, history := s.history ++ [db] }

def Server.inSession (session : Session) (s : Server) : Server := { s with session := session }

def Server.noteRaised (s : Server) : Server :=
  { s with raisedAt := s.raisedAt <|> some s.database }

def answer : Process Outcome := modifyGet fun s => ((s.answers 0).outcome, s.answered)

def raise {α : Type} (e : MigrateError) : Process α := do
  modify Server.noteRaised
  throw e

/-- A call that changes nothing, such as to read or to connect. -/
def call : Process PUnit := do
  match ← answer with
  | .done => pure ()
  | _ => raise .environment

/-- `pool.query`: a statement on its own. -/
def poolQuery (query : Database → Option Database) : Process PUnit := do
  match ← answer, query (← get).database with
  | .done, some db => modify (Server.store db)
  | .lost, some db => do
    modify (Server.store db)
    raise .environment
  | _, _ => raise .environment

/-- `client.query`: in an open transaction the statement works on its copy. -/
def clientQuery (statement : Statement) : Process PUnit := do
  match (← get).session with
  | .idle => do
    let now := (← get).clock
    poolQuery (statement now)
  | .aborted => do
    call
    raise .environment
  | .transaction now work => do
    match ← answer, statement now work with
    | .done, some work' => modify (Server.inSession (.transaction now work'))
    | _, _ => do
      modify (Server.inSession .aborted)
      raise .environment

def beginTransaction : Process PUnit := do
  match ← answer with
  | .done => modify fun s => s.inSession (.transaction s.clock s.database)
  | _ => do
    modify (Server.inSession .aborted)
    raise .environment

/-- `COMMIT`; of an aborted transaction it is a rollback, and no error. -/
def commit : Process PUnit := do
  match ← answer, (← get).session with
  | .done, .transaction _ work => do
    modify (Server.store work)
    modify (Server.inSession .idle)
  | .lost, .transaction _ work => do
    modify (Server.store work)
    modify (Server.inSession .aborted)
    raise .environment
  | .done, _ => modify (Server.inSession .idle)
  | _, _ => do
    modify (Server.inSession .aborted)
    raise .environment

def rollback : Process PUnit := do
  match ← answer with
  | .done => modify (Server.inSession .idle)
  | _ => do
    modify (Server.inSession .aborted)
    raise .environment

/-! ## The functions of the source -/

def ensureTrackingTable : Process PUnit := poolQuery fun db => some db.createTable

/-- `SELECT`, of a table that is there. -/
def selectRows : Process (List Row) := do
  call
  match (← get).database.schemaMigrations with
  | none => raise .environment
  | some rows => pure rows

def readdirSync (dir : Directory) : Process (List String) := do
  call
  pure dir.listing

def readFileSync (dir : Directory) (file : String) : Process Script := do
  call
  match dir.files.find? fun s => s.file = file with
  | none => raise .environment
  | some script => pure script

/-- The release of the client at the end has no effect on the database. -/
def runInTransaction (sql : Script) (trackingQuery : Statement) : Process PUnit := do
  call
  tryCatch
    (do
      beginTransaction
      clientQuery (execScript sql)
      clientQuery trackingQuery
      commit)
    fun err => do
      rollback
      throw err

/-- The body of the loop of `up`. -/
def applyFile (dir : Directory) (file : String) : Process PUnit := do
  let name := migrationName file
  let sql ← readFileSync dir file
  runInTransaction sql (insertName name)

def up (dir : Directory) : Process PUnit := do
  ensureTrackingTable
  let rows ← selectRows
  let listing ← readdirSync dir
  let pending := pendingUpFiles listing (rows.map Row.name)
  if pending.length = 0 then pure () else pending.forM (applyFile dir)

/-- The body of the loop of `down`. -/
def revertName (dir : Directory) (name : String) : Process PUnit := do
  let downFile := name ++ ".down.sql"
  if downFile ∉ dir.listing then
    raise (.noDownMigration ("no down-migration found for " ++ name ++ " (expected " ++ dir.path ++
      "/" ++ downFile ++ ") — refusing to leave the tracking table out of sync"))
  else do
    let sql ← readFileSync dir downFile
    runInTransaction sql (deleteName name)

/-- A number of steps that is no `LIMIT` (a negative one, a fraction, `NaN`) makes the `SELECT`
fail. -/
def down (dir : Directory) (steps : ℕ) : Process PUnit := do
  ensureTrackingTable
  let rows ← selectRows
  let names := latestNames rows steps
  if names.length = 0 then pure () else names.forM (revertName dir)

/-! ## What a part of a run does -/

/-- Every call is carried out and answered. -/
def Steady (answers : ℕ → Answer) : Prop := ∀ i, (answers i).outcome = .done

/-- Since `s₀` the states `new` have been committed, the last of them `db`; `raised` is the
database at the first exception, if there was one. -/
structure Server.Since (s₀ : Server) (db : Database) (new : List Database)
    (raised : Option Database) (s : Server) : Prop where
  database : s.database = db
  history : s.history = s₀.history ++ new
  raisedAt : s.raisedAt = raised
  clock : s₀.clock ≤ s.clock
  steady : Steady s₀.answers → Steady s.answers

theorem Server.clock_lt_answered (s : Server) : s.clock < s.answered.clock := by
  show s.clock < s.clock + (s.answers 0).elapsed + 1
  omega

namespace Server.Since

variable {s₀ s : Server} {db : Database} {new : List Database} {raised : Option Database}

theorem start (s : Server) : s.Since s.database [] s.raisedAt s :=
  ⟨rfl, (List.append_nil _).symm, rfl, le_rfl, id⟩

theorem answered (h : s₀.Since db new raised s) : s₀.Since db new raised s.answered :=
  ⟨h.database, h.history, h.raisedAt, h.clock.trans s.clock_lt_answered.le,
    fun hsteady i => h.steady hsteady (i + 1)⟩

theorem inSession (h : s₀.Since db new raised s) (session : Session) :
    s₀.Since db new raised (s.inSession session) :=
  ⟨h.database, h.history, h.raisedAt, h.clock, h.steady⟩

theorem store (h : s₀.Since db new raised s) (db' : Database) :
    s₀.Since db' (new ++ [db']) raised (s.store db') :=
  ⟨rfl, by rw [Server.store, h.history, List.append_assoc], h.raisedAt, h.clock, h.steady⟩

theorem noteRaised (h : s₀.Since db new none s) : s₀.Since db new (some db) s.noteRaised :=
  ⟨h.database, h.history, by rw [Server.noteRaised, h.raisedAt, h.database]; rfl, h.clock, h.steady⟩

/-- Only the first exception is noted. -/
theorem noteRaised_again {db' : Database} (h : s₀.Since db new (some db') s) :
    s₀.Since db new (some db') s.noteRaised :=
  ⟨h.database, h.history, by rw [Server.noteRaised, h.raisedAt]; rfl, h.clock, h.steady⟩

theorem not_steady (h : s₀.Since db new raised s) {outcome : Outcome}
    (hanswer : (s.answers 0).outcome = outcome) (hne : outcome ≠ .done) : ¬Steady s₀.answers := by
  intro hsteady
  exact hne (hanswer.symm.trans (h.steady hsteady 0))

end Server.Since

variable {s₀ s : Server}

theorem ends_raise_iff {α : Type} {e : MigrateError} {Q : α → Server → Prop}
    {E : MigrateError → Server → Prop} : Ends (raise e) s Q E ↔ E e s.noteRaised := by
  rw [raise, ends_bind_iff, ends_modify_iff, ends_throw_iff]

/-- An exception, and the state in which it leaves the session. -/
theorem ends_leave_iff {e : MigrateError} {session : Session} {Q : PUnit → Server → Prop}
    {E : MigrateError → Server → Prop} :
    Ends (modify (Server.inSession session) >>= fun _ => raise e) s Q E ↔
      E e (s.inSession session).noteRaised := by
  rw [ends_bind_iff, ends_modify_iff, ends_raise_iff]

theorem ends_answer_bind_iff {α : Type} {f : Outcome → Process α} {Q : α → Server → Prop}
    {E : MigrateError → Server → Prop} :
    Ends (answer >>= f) s Q E ↔ Ends (f (s.answers 0).outcome) s.answered Q E := by
  rw [ends_bind_iff, answer, ends_modifyGet_iff]

theorem ends_call {db : Database} {new : List Database} (h : s₀.Since db new none s) :
    Ends call s (fun _ s' => s₀.Since db new none s' ∧ s'.session = s.session)
      fun _ s' => s₀.Since db new (some db) s' ∧ ¬Steady s₀.answers := by
  rw [call, ends_answer_bind_iff]
  cases hanswer : (s.answers 0).outcome with
  | done => exact ⟨h.answered, rfl⟩
  | failed | lost =>
    exact ends_raise_iff.mpr ⟨h.answered.noteRaised, h.not_steady hanswer (by decide)⟩

theorem ends_poolQuery {db : Database} {new : List Database} (h : s₀.Since db new none s)
    (query : Database → Option Database) :
    Ends (poolQuery query) s
      (fun _ s' => ∃ db', query db = some db' ∧ s₀.Since db' (new ++ [db']) none s')
      fun _ s' => (s₀.Since db new (some db) s' ∧ (Steady s₀.answers → query db = none)) ∨
        ∃ db', query db = some db' ∧ s₀.Since db' (new ++ [db']) (some db') s' ∧
          ¬Steady s₀.answers := by
  rw [poolQuery, ends_answer_bind_iff, ends_bind_iff, ends_get_iff, h.answered.database]
  cases hquery : query db with
  | none =>
    cases (s.answers 0).outcome <;>
      exact ends_raise_iff.mpr (.inl ⟨h.answered.noteRaised, fun _ => rfl⟩)
  | some db' =>
    cases hanswer : (s.answers 0).outcome with
    | done => exact ⟨db', rfl, h.answered.store db'⟩
    | failed =>
      have hsteady := h.not_steady hanswer (by decide)
      exact ends_raise_iff.mpr (.inl ⟨h.answered.noteRaised, fun hst => absurd hst hsteady⟩)
    | lost =>
      have hsteady := h.not_steady hanswer (by decide)
      exact .inr ⟨db', rfl, (h.answered.store db').noteRaised, hsteady⟩

/-! ## Transactions -/

/-- Since `s₀` a transaction was begun and has nothing committed; it works on `work`. -/
structure Server.Open (s₀ : Server) (now : ℕ) (work : Database) (s : Server) : Prop where
  since : s₀.Since s₀.database [] none s
  session : s.session = .transaction now work
  began : s₀.clock < now
  now_le : now ≤ s.clock

theorem ends_beginTransaction (h : s₀.Since s₀.database [] none s) :
    Ends beginTransaction s (fun _ s' => ∃ now, s₀.Open now s₀.database s')
      fun _ s' => s₀.Since s₀.database [] (some s₀.database) s' ∧ ¬Steady s₀.answers := by
  rw [beginTransaction, ends_answer_bind_iff]
  cases hanswer : (s.answers 0).outcome with
  | done =>
    refine ends_modify_iff.mpr ⟨s.answered.clock, h.answered.inSession _, ?_, ?_, le_rfl⟩
    · rw [← h.answered.database]
      rfl
    · exact h.clock.trans_lt s.clock_lt_answered
  | failed | lost =>
    exact ends_leave_iff.mpr
      ⟨(h.answered.inSession _).noteRaised, h.not_steady hanswer (by decide)⟩

theorem ends_clientQuery {now : ℕ} {work : Database} (h : s₀.Open now work s)
    (statement : Statement) :
    Ends (clientQuery statement) s
      (fun _ s' => ∃ work', statement now work = some work' ∧ s₀.Open now work' s')
      fun _ s' => s₀.Since s₀.database [] (some s₀.database) s' ∧
        (Steady s₀.answers → statement now work = none) := by
  have hfail : Ends (do
      modify (Server.inSession .aborted)
      raise .environment : Process PUnit) s.answered
      (fun _ s' => ∃ work', statement now work = some work' ∧ s₀.Open now work' s')
      fun _ s' => s₀.Since s₀.database [] (some s₀.database) s' :=
    ends_leave_iff.mpr (h.since.answered.inSession _).noteRaised
  rw [clientQuery, ends_bind_iff, ends_get_iff, h.session, ends_answer_bind_iff]
  cases hstatement : statement now work with
  | none =>
    rw [hstatement] at hfail
    cases (s.answers 0).outcome <;> exact hfail.mono (fun _ _ h => h) fun _ _ h => ⟨h, fun _ => rfl⟩
  | some work' =>
    cases hanswer : (s.answers 0).outcome with
    | done =>
      exact ⟨work', rfl, h.since.answered.inSession _, rfl, h.began,
        h.now_le.trans s.clock_lt_answered.le⟩
    | failed | lost =>
      have hsteady := h.since.not_steady hanswer (by decide)
      rw [hstatement] at hfail
      exact hfail.mono (fun _ _ h => h) fun _ _ h => ⟨h, fun hst => absurd hst hsteady⟩

theorem ends_commit {now : ℕ} {work : Database} (h : s₀.Open now work s) :
    Ends commit s (fun _ s' => s₀.Since work [work] none s' ∧ now ≤ s'.clock)
      fun _ s' => ¬Steady s₀.answers ∧ (s₀.Since s₀.database [] (some s₀.database) s' ∨
        (s₀.Since work [work] (some work) s' ∧ now ≤ s'.clock)) := by
  have hnow : now ≤ s.answered.clock := h.now_le.trans s.clock_lt_answered.le
  have hsession : s.answered.session = .transaction now work := h.session
  rw [commit, ends_answer_bind_iff, ends_bind_iff, ends_get_iff, hsession]
  cases hanswer : (s.answers 0).outcome with
  | done => exact ⟨(h.since.answered.store work).inSession _, hnow⟩
  | failed =>
    refine ends_leave_iff.mpr ⟨?_, .inl ?_⟩
    · exact h.since.not_steady hanswer (by decide)
    · exact (h.since.answered.inSession _).noteRaised
  | lost =>
    refine ends_bind_iff.mpr (ends_modify_iff.mpr (ends_leave_iff.mpr ⟨?_, .inr ⟨?_, hnow⟩⟩))
    · exact h.since.not_steady hanswer (by decide)
    · exact ((h.since.answered.store work).inSession _).noteRaised

/-- What the transaction of a script makes of the database, at the time `now`. -/
def transact (sql : Script) (trackingQuery : Statement) (now : ℕ) (db : Database) :
    Option Database :=
  (execScript sql now db).bind (trackingQuery now)

/-- Since `s₀` the transaction of a script has been committed, and nothing else. -/
def Server.Committed (s₀ : Server) (sql : Script) (trackingQuery : Statement) (s : Server) : Prop :=
  ∃ now db, s₀.clock < now ∧ now ≤ s.clock ∧
    transact sql trackingQuery now s₀.database = some db ∧ s₀.Since db [db] s.raisedAt s

/-- An exception in the transaction of a script: either nothing has been committed, or both
are there and only the answer to the `COMMIT` is missing. -/
structure Server.Failed (s₀ : Server) (sql : Script) (trackingQuery : Statement) (s : Server) :
    Prop where
  raisedAt : s.raisedAt = some s.database
  refused : Steady s₀.answers → ∃ now, transact sql trackingQuery now s₀.database = none
  outcome : s₀.Since s₀.database [] s.raisedAt s ∨ s₀.Committed sql trackingQuery s

variable {sql : Script} {trackingQuery : Statement}

theorem Server.Failed.of_since (h : s₀.Since s₀.database [] (some s₀.database) s)
    (hrefused : Steady s₀.answers → ∃ now, transact sql trackingQuery now s₀.database = none) :
    s₀.Failed sql trackingQuery s :=
  ⟨h.raisedAt.trans (congrArg some h.database.symm), hrefused, .inl (h.raisedAt ▸ h)⟩

/-- A rollback changes nothing that is committed, even if it fails. -/
theorem ends_rollback (h : s₀.Failed sql trackingQuery s) :
    Ends rollback s (fun _ s' => s₀.Failed sql trackingQuery s')
      fun _ s' => s₀.Failed sql trackingQuery s' := by
  have hkept : ∀ s', s.clock ≤ s'.clock → s'.database = s.database → s'.raisedAt = s.raisedAt →
      (∀ db new raised, s₀.Since db new (some raised) s → s₀.Since db new (some raised) s') →
      s₀.Failed sql trackingQuery s' := by
    intro s' hclock hdatabase hraised hsince
    refine ⟨by rw [hraised, h.raisedAt, hdatabase], h.refused, ?_⟩
    rw [Server.Committed, hraised, h.raisedAt]
    rcases h.outcome with hnone | ⟨now, db, hbegan, hnow, htransact, hdone⟩
    · exact .inl (hsince _ _ _ (h.raisedAt ▸ hnone))
    · exact .inr ⟨now, db, hbegan, hnow.trans hclock, htransact, hsince _ _ _ (h.raisedAt ▸ hdone)⟩
  rw [rollback, ends_answer_bind_iff]
  cases (s.answers 0).outcome with
  | done =>
    exact hkept _ s.clock_lt_answered.le rfl rfl fun _ _ _ hs => hs.answered.inSession _
  | failed | lost =>
    refine ends_leave_iff.mpr ?_
    refine hkept _ s.clock_lt_answered.le rfl ?_ fun _ _ _ hs =>
      (hs.answered.inSession _).noteRaised_again
    show (s.raisedAt <|> some s.database) = s.raisedAt
    rw [h.raisedAt]
    rfl

/-- The body of the `try`. -/
theorem ends_transaction (h : s₀.Since s₀.database [] none s) :
    Ends (do
      beginTransaction
      clientQuery (execScript sql)
      clientQuery trackingQuery
      commit : Process PUnit) s
      (fun _ s' => s₀.Committed sql trackingQuery s' ∧ s'.raisedAt = none)
      fun _ s' => s₀.Failed sql trackingQuery s' := by
  refine Ends.bind ((ends_beginTransaction h).mono (fun _ _ h => h) ?_) ?_
  · rintro e s' ⟨hs, hsteady⟩
    exact .of_since hs fun h => absurd h hsteady
  rintro - s₁ ⟨now, h₁⟩
  refine Ends.bind ((ends_clientQuery h₁ _).mono (fun _ _ h => h) ?_) ?_
  · rintro e s' ⟨hs, hfailed⟩
    exact .of_since hs fun hsteady => (by cases hfailed hsteady)
  rintro - s₂ ⟨work, hwork, h₂⟩
  refine Ends.bind ((ends_clientQuery h₂ _).mono (fun _ _ h => h) ?_) ?_
  · rintro e s' ⟨hs, hfailed⟩
    refine .of_since hs fun hsteady => ⟨now, ?_⟩
    rw [transact, hwork, Option.bind_some, hfailed hsteady]
  rintro - s₃ ⟨db, hdb, h₃⟩
  have htransact : transact sql trackingQuery now s₀.database = some db := by
    rw [transact, hwork, Option.bind_some, hdb]
  refine (ends_commit h₃).mono ?_ ?_
  · rintro - s' ⟨hs, hnow⟩
    exact ⟨⟨now, db, h₁.began, hnow, htransact, hs.raisedAt ▸ hs⟩, hs.raisedAt⟩
  · rintro e s' ⟨hsteady, hs | ⟨hs, hnow⟩⟩
    · exact .of_since hs fun h => absurd h hsteady
    · exact ⟨hs.raisedAt.trans (congrArg some hs.database.symm), fun h => absurd h hsteady,
        .inr ⟨now, db, h₁.began, hnow, htransact, hs.raisedAt ▸ hs⟩⟩

/-- A script and its record are committed together or not at all. -/
theorem ends_runInTransaction (hraised : s.raisedAt = none) :
    Ends (runInTransaction sql trackingQuery) s
      (fun _ s' => s.Committed sql trackingQuery s' ∧ s'.raisedAt = none)
      fun _ s' => s.Failed sql trackingQuery s' := by
  have hstart : s.Since s.database [] none s := hraised ▸ Server.Since.start s
  rw [runInTransaction]
  refine Ends.bind ((ends_call hstart).mono (fun _ _ h => h.1) ?_) ?_
  · rintro e s' ⟨hs, hsteady⟩
    exact .of_since hs fun h => absurd h hsteady
  rintro - s₁ h₁
  rw [ends_tryCatch_iff]
  refine (ends_transaction h₁).mono (fun _ _ h => h) ?_
  intro err s₂ h₂
  exact Ends.bind (ends_rollback h₂) fun _ s' h' => ends_throw_iff.mpr h'

/-! ## Runs -/

inductive Command
  | up
  | down (steps : ℕ)

/-- A run of the process, on the directory as it is by then. -/
structure Run where
  dir : Directory
  command : Command
  answers : ℕ → Answer

/-- What is left of a run for the next one. -/
structure World where
  database : Database
  clock : ℕ
  history : List Database

def World.fresh : World := ⟨⟨none, []⟩, 0, [⟨none, []⟩]⟩

def Run.program (r : Run) : Process PUnit :=
  match r.command with
  | .up => Migrate.up r.dir
  | .down steps => Migrate.down r.dir steps

def World.connect (w : World) (answers : ℕ → Answer) : Server :=
  ⟨w.database, .idle, w.clock, answers, w.history, none⟩

/-- The connections close, and what is not committed is gone. -/
def Server.world (s : Server) : World := ⟨s.database, s.clock, s.history⟩

/-- How a run ends. -/
structure Ended where
  /-- the exception that `main` reports -/
  error : Option MigrateError
  server : Server

def World.run (w : World) (r : Run) : Ended :=
  match r.program (w.connect r.answers) with
  | .ok _ s => ⟨none, s⟩
  | .error e s => ⟨some e, s⟩

/-- One process at a time. -/
def step (w : World) (r : Run) : Option World := some (w.run r).server.world

end KonfirmBackend.Migrate
