import Boomerang.Dialect.SyncLog
import Boomerang.Foundation.Fallible
import Boomerang.Schema.DatabaseSchema

/-!
# The writers of the sync logs

The backfill of Postgres and the triggers of both databases are statements generated
for every table of a schema. A statement is kept as the values put into its text, with
what the database does when it runs. Each writer refuses a table without a primary key.
-/

namespace Boomerang

open Foundation

/-- `DatabaseError`, as far as the writers return it. -/
inductive DatabaseError where
  | setupFailed (step reason : String)
  | backfillFailed (table reason : String)
deriving DecidableEq, Repr

/-- Why a writer does not write. -/
inductive WriterStop where
  | panic (fault : Fault)
  | failed (error : DatabaseError)

/-- `format!("public.{table_name}")`. -/
def publicName (tableName : String) : String := "public." ++ tableName

theorem publicName_injective : Function.Injective publicName := fun _ _ same =>
  (String.append_right_inj "public.").mp same

theorem publicName_ne (tableName : String) : publicName tableName ≠ tableName := by
  intro same
  have lengths := congrArg String.length same
  rw [publicName, String.length_append] at lengths
  have positive : 0 < "public.".length := by decide
  omega

/-- The statement of `backfill_sync_logs` for a table. -/
structure BackfillStatement where
  tableName : String
  pk : String
  schemaName : String
  table : String
deriving DecidableEq, Repr

/-- The trigger and the function of Postgres for a table. -/
structure PgTrigger where
  func : String
  trg : String
  name : String
  table : String
  pk : String
deriving DecidableEq, Repr

/-- Which row a trigger of SQLite reads. -/
inductive RowAlias where
  | new
  | old
deriving DecidableEq, Repr

/-- A trigger of SQLite. -/
structure SqliteTrigger where
  trg : String
  event : String
  tbl : String
  name : String
  row : RowAlias
  pk : String
  op : String
deriving DecidableEq, Repr

/-- The values of the backfill of a table. -/
def BackfillStatement.of (tableName primaryCol : String) : BackfillStatement where
  tableName := publicName tableName
  pk := primaryCol
  schemaName := "public"
  table := tableName

/-- The values of the Postgres trigger of a table. -/
def PgTrigger.of (tableName primaryCol : String) : PgTrigger where
  func := "sync_log_touch_" ++ tableName
  trg := "trg_" ++ tableName ++ "_sync_log"
  name := publicName tableName
  table := tableName
  pk := primaryCol

@[simp]
theorem PgTrigger.of_pk {tableName primaryCol : String} :
    (PgTrigger.of tableName primaryCol).pk = primaryCol := rfl

/-- The values of the SQLite triggers of a table. -/
def SqliteTrigger.allOf (tableName primaryCol : String) : List SqliteTrigger :=
  [("INSERT", "I", RowAlias.new), ("UPDATE", "U", .new), ("DELETE", "D", .old)].map
    fun (event, op, row) =>
      { trg := "__trg_" ++ tableName ++ "_" ++ event ++ "_sync_log__"
        event := event
        tbl := tableName
        name := publicName tableName
        row := row
        pk := primaryCol
        op := op }

section Generation

variable {Interner : Type} [InternerOps Interner]

/-- The name and the primary column of a table, as every writer reads them. -/
def primaryColumn (table : TableRef Interner) (missing : String → DatabaseError) :
    Except WriterStop (String × String) := do
  let tableName ← table.name.mapError .panic
  match ← table.primaryKey.mapError .panic with
  | none => throw (.failed (missing tableName))
  | some column => return (tableName, ← column.name.mapError .panic)

/-- What `backfill_sync_logs` runs for a table. -/
def PostgresDatabase.backfillStatement (table : TableRef Interner) :
    Except WriterStop BackfillStatement := do
  let (tableName, primaryCol) ← primaryColumn table fun tableName =>
    .backfillFailed tableName "Table has no primary key"
  return .of tableName primaryCol

/-- What `setup_triggers` of Postgres runs for a table. -/
def PostgresDatabase.tableTrigger (table : TableRef Interner) : Except WriterStop PgTrigger := do
  let (tableName, primaryCol) ← primaryColumn table fun tableName =>
    .setupFailed "creating table trigger" ("Table " ++ tableName ++ " has no primary key")
  return .of tableName primaryCol

/-- What `setup_triggers` of SQLite runs for a table. -/
def SqliteDatabase.tableTriggers (table : TableRef Interner) :
    Except WriterStop (List SqliteTrigger) := do
  let (tableName, primaryCol) ← primaryColumn table fun tableName =>
    .setupFailed "creating sqlite triggers" ("Table " ++ tableName ++ " has no primary key")
  return SqliteTrigger.allOf tableName primaryCol

/-- The table has a name and a primary column of a name. -/
structure Keyed (table : TableRef Interner) (tableName primaryCol : String) : Prop where
  name : table.name = .ok tableName
  primaryKey : ∃ column, table.primaryKey = .ok (some column) ∧ column.name = .ok primaryCol

variable {table : TableRef Interner} {tableName primaryCol : String}

theorem primaryColumn_eq_ok {missing : String → DatabaseError} :
    primaryColumn table missing = .ok (tableName, primaryCol) ↔
      Keyed table tableName primaryCol := by
  constructor
  · intro success
    obtain ⟨name, nameEq, success⟩ := bind_eq_ok.mp success
    obtain ⟨key, keyEq, success⟩ := bind_eq_ok.mp success
    cases key with
    | none => cases success
    | some column =>
        obtain ⟨columnName, columnEq, success⟩ := bind_eq_ok.mp success
        cases success
        exact ⟨mapError_eq_ok.mp nameEq, column, mapError_eq_ok.mp keyEq,
          mapError_eq_ok.mp columnEq⟩
  · rintro ⟨name, column, key, columnName⟩
    exact bind_eq_ok.mpr ⟨_, mapError_eq_ok.mpr name, bind_eq_ok.mpr ⟨_, mapError_eq_ok.mpr key,
      bind_eq_ok.mpr ⟨_, mapError_eq_ok.mpr columnName, rfl⟩⟩⟩

/-- A writer writes for the tables that have a primary column. -/
theorem primaryColumn_bind_eq_ok {missing : String → DatabaseError} {Statement : Type}
    {statementOf : String → String → Statement} {statement : Statement} :
    (primaryColumn table missing >>= fun key => return statementOf key.1 key.2) = .ok statement ↔
      ∃ tableName primaryCol, Keyed table tableName primaryCol ∧
        statementOf tableName primaryCol = statement := by
  constructor
  · intro success
    obtain ⟨⟨tableName, primaryCol⟩, keyEq, success⟩ := bind_eq_ok.mp success
    exact ⟨tableName, primaryCol, primaryColumn_eq_ok.mp keyEq, Except.ok.inj success⟩
  · rintro ⟨tableName, primaryCol, keyed, rfl⟩
    exact bind_eq_ok.mpr ⟨_, primaryColumn_eq_ok.mpr keyed, rfl⟩

theorem PostgresDatabase.backfillStatement_eq_ok {statement : BackfillStatement} :
    backfillStatement table = .ok statement ↔ ∃ tableName primaryCol,
      Keyed table tableName primaryCol ∧ .of tableName primaryCol = statement :=
  primaryColumn_bind_eq_ok

theorem PostgresDatabase.tableTrigger_eq_ok {trigger : PgTrigger} :
    tableTrigger table = .ok trigger ↔ ∃ tableName primaryCol,
      Keyed table tableName primaryCol ∧ .of tableName primaryCol = trigger :=
  primaryColumn_bind_eq_ok

theorem SqliteDatabase.tableTriggers_eq_ok {triggers : List SqliteTrigger} :
    tableTriggers table = .ok triggers ↔ ∃ tableName primaryCol,
      Keyed table tableName primaryCol ∧ SqliteTrigger.allOf tableName primaryCol = triggers :=
  primaryColumn_bind_eq_ok

/-- A table has one name and one primary column. -/
theorem Keyed.unique (keyed : Keyed table tableName primaryCol) {name column : String}
    (other : Keyed table name column) : tableName = name ∧ primaryCol = column := by
  have same := (primaryColumn_eq_ok.mpr keyed).symm.trans
    (@primaryColumn_eq_ok _ _ _ _ _ (fun name => .backfillFailed name "") |>.mpr other)
  exact Prod.mk.injEq .. ▸ Except.ok.inj same

end Generation

section Execution

variable {Value : Type} (text : Value → String)

/-- `{pk}::text` of a row. -/
def BackfillStatement.recordId (statement : BackfillStatement) (record : Record Value) : String :=
  text (record statement.pk)

/-- The record id that a Postgres trigger writes. It is null when the row it takes is. -/
def PgTrigger.recordId (trigger : PgTrigger) (event : RowEvent Value) : Option String :=
  (if event.tgOp = "DELETE" then event.old else event.new).map fun record =>
    text (record trigger.pk)

/-- The record id that a SQLite trigger writes. -/
def SqliteTrigger.recordId (trigger : SqliteTrigger) (event : RowEvent Value) : Option String :=
  (match trigger.row with
    | .new => event.new
    | .old => event.old).map fun record : Record Value => text (record trigger.pk)

/-- The trigger function of Postgres. A null record id is refused. -/
def PgTrigger.fire (trigger : PgTrigger) (syncWrite : Option String) (now : Int)
    (event : RowEvent Value) (log : SyncLog) : Option SyncLog :=
  if syncWrite = some "true" then some log
  else (trigger.recordId text event).map fun recordId =>
    log.upsert (trigger.name, recordId) ⟨Sql.left event.tgOp 1, 1, now⟩

/-- A trigger of SQLite, which fires on its own event. -/
def SqliteTrigger.fire (trigger : SqliteTrigger) (now : Int) (event : RowEvent Value)
    (log : SyncLog) : Option SyncLog :=
  if event.tgOp = trigger.event then
    (trigger.recordId text event).map fun recordId =>
      log.upsert (trigger.name, recordId) ⟨trigger.op, 1, now⟩
  else some log

/-- The two databases. -/
inductive Dialect where
  | postgres
  | sqlite
deriving DecidableEq, Repr

/-- The triggers of a table in one of the databases. -/
inductive Triggers where
  | postgres (trigger : PgTrigger)
  | sqlite (triggers : List SqliteTrigger)

/-- The triggers that `setup_triggers` creates for a table. -/
def Dialect.tableTriggers {Interner : Type} [InternerOps Interner] (dialect : Dialect)
    (table : TableRef Interner) : Except WriterStop Triggers :=
  match dialect with
  | .postgres => return .postgres (← PostgresDatabase.tableTrigger table)
  | .sqlite => return .sqlite (← SqliteDatabase.tableTriggers table)

/-- The log after the triggers of a table, with `sync_write` not set. -/
def Triggers.fire (triggers : Triggers) (now : Int) (event : RowEvent Value) (log : SyncLog) :
    Option SyncLog :=
  match triggers with
  | .postgres trigger => trigger.fire text none now event log
  | .sqlite triggers => triggers.foldlM (fun log trigger => trigger.fire text now event log) log

/-- The letter of an event. -/
def RowEvent.letter : RowEvent Value → String
  | insert _ => "I"
  | update _ _ => "U"
  | delete _ => "D"

/-- The entry that an event leaves for its row. -/
def RowEvent.logged (event : RowEvent Value) (tableName primaryCol : String) (now : Int)
    (log : SyncLog) : SyncLog :=
  log.upsert (publicName tableName, text (event.subject primaryCol)) ⟨event.letter, 1, now⟩

/-- The operations are told apart by their first letters. -/
theorem RowEvent.left_tgOp (event : RowEvent Value) : Sql.left event.tgOp 1 = event.letter := by
  cases event with
  | insert new => exact (by decide : Sql.left "INSERT" 1 = "I")
  | update old new => exact (by decide : Sql.left "UPDATE" 1 = "U")
  | delete old => exact (by decide : Sql.left "DELETE" 1 = "D")

theorem PgTrigger.recordId_eq (trigger : PgTrigger) (event : RowEvent Value) :
    trigger.recordId text event = some (text (event.subject trigger.pk)) := by
  cases event <;> rfl

theorem PgTrigger.fire_of {syncWrite : Option String} (unset : syncWrite ≠ some "true")
    (tableName primaryCol : String) (now : Int) (event : RowEvent Value) (log : SyncLog) :
    (PgTrigger.of tableName primaryCol).fire text syncWrite now event log =
      some (event.logged text tableName primaryCol now log) := by
  rw [fire, if_neg unset, recordId_eq, RowEvent.left_tgOp]
  rfl

end Execution

end Boomerang
