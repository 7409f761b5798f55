import Boomerang.Dialect.RecordIds

/-!
# Opening a Postgres database

`new` loads the schema, fills the log from the rows that are there unless the log holds
something, and installs the triggers. It is one transaction, so what fails changes
nothing. Every table runs the trigger function generated for it.
-/

namespace Boomerang

open Foundation

/-- A table of the public schema. A Postgres table has at most 1600 columns. -/
structure PgTable (Value : Type) where
  name : String
  columns : List RawRow
  records : List (Record Value)
  trigger : Option PgTrigger
  named : ∀ row ∈ columns, row.tableName = name
  few : columns.length ≤ 1600

/-- The column that the catalogue lists last of those flagged primary. -/
def PgTable.primaryCol {Value : Type} (table : PgTable Value) : Option String :=
  (lastPrimary table.columns).bind fun offset => (table.columns[offset]?).map Row.columnName

/-- `CREATE OR REPLACE TRIGGER`, as far as it concerns a table. -/
def PgTable.createTrigger {Value : Type} (table : PgTable Value) (trigger : PgTrigger) :
    PgTable Value :=
  if table.name = trigger.table then { table with trigger := some trigger } else table

/-- The tables and the log. -/
structure PgDatabase (Value : Type) where
  tables : List (PgTable Value)
  log : SyncLog

namespace PgDatabase

variable {Value : Type}

/-- A database without tables. -/
def empty : PgDatabase Value := ⟨[], ∅⟩

/-- `SELECT ... FROM` a table. -/
def recordsOf (db : PgDatabase Value) (name : String) : List (Record Value) :=
  (db.tables.filter fun table => table.name = name).flatMap PgTable.records

/-- The statement that fills the log from a table. -/
def runBackfill (text : Value → String) (now : Int) (db : PgDatabase Value) (log : SyncLog)
    (statement : BackfillStatement) : SyncLog :=
  (db.recordsOf statement.table).foldl
    (fun log record =>
      log.insertNew (statement.tableName, statement.recordId text record) ⟨"I", 1, now⟩) log

/-- `CREATE OR REPLACE TRIGGER`. -/
def createTrigger (db : PgDatabase Value) (trigger : PgTrigger) : PgDatabase Value :=
  { db with tables := db.tables.map fun table => table.createTrigger trigger }

end PgDatabase

namespace PostgresDatabase

variable {Interner Value : Type} [InternerOps Interner]

/-- `PostgresDatabase::backfill_sync_logs`. -/
def backfillSyncLogs (text : Value → String) (schema : DatabaseSchema Interner) (now : Int)
    (db : PgDatabase Value) : Except WriterStop (PgDatabase Value) :=
  if 0 < db.log.entries.length then .ok db
  else do
    let log ← schema.tableRefs.foldlM
      (fun log table => do return db.runBackfill text now log (← backfillStatement table)) db.log
    return { db with log := log }

/-- `PostgresDatabase::setup_triggers`. -/
def setupTriggers (schema : DatabaseSchema Interner) (db : PgDatabase Value) :
    Except WriterStop (PgDatabase Value) :=
  schema.tableRefs.foldlM (fun db table => do return db.createTrigger (← tableTrigger table)) db

/-- `PostgresDatabase::new`, from the loaded schema on. -/
def new (text : Value → String) (schema : DatabaseSchema Interner) (now : Int)
    (db : PgDatabase Value) : Except WriterStop (PgDatabase Value) := do
  let db ← backfillSyncLogs text schema now db
  setupTriggers schema db

end PostgresDatabase

/-- `load_schema`: the catalogue rows of the tables, the tables in any order, are added
to a new builder. The columns of the database are fewer than the schema can number. -/
inductive Loads {Interner Value : Type} [InternerOps Interner] [LawfulInterner Interner]
    (tables : List (PgTable Value)) (schema : DatabaseSchema Interner) : Prop where
  | intro {arranged : List (PgTable Value)} {unstable profile interner hash}
      (sameTables : arranged.Perm tables) (valid : LawfulInterner.Valid interner)
      (storable : StorableAll Interner ((arranged.flatMap PgTable.columns).flatMap Row.strings))
      (few : (arranged.flatMap PgTable.columns).length ≤ u32Range)
      (built : DatabaseSchemaBuilder.buildRows unstable profile interner
        (arranged.flatMap PgTable.columns) hash = .ok schema) : Loads tables schema

section Loading

variable {Value : Type}

/-- The tables that have columns are the groups of the catalogue rows. -/
theorem tableGroups_catalogue {arranged : List (PgTable Value)}
    (distinct : (arranged.map PgTable.name).Nodup) :
    tableGroups (arranged.flatMap PgTable.columns) =
      (arranged.map PgTable.columns).filter fun columns => !columns.isEmpty := by
  rw [List.flatMap_def, ← List.flatten_filter_not_isEmpty]
  refine List.splitBy_flatten (by simp) ?_ ?_
  · intro columns member
    obtain ⟨table, _, rfl⟩ := List.mem_map.mp (List.mem_of_mem_filter member)
    refine List.Pairwise.isChain ?_
    refine List.Pairwise.imp_of_mem (R := fun _ _ => True) ?_
      (List.pairwise_of_forall fun _ _ => trivial)
    intro left right leftIn rightIn _
    exact decide_eq_true ((table.named left leftIn).trans (table.named right rightIn).symm)
  · refine List.Pairwise.isChain ?_
    rw [List.pairwise_filter, List.pairwise_map]
    refine (List.pairwise_map.mp distinct).imp ?_
    intro left right apart leftFull rightFull
    have leftNonempty : left.columns ≠ [] := by simpa using leftFull
    have rightNonempty : right.columns ≠ [] := by simpa using rightFull
    refine ⟨leftNonempty, rightNonempty, decide_eq_false ?_⟩
    rw [left.named _ (List.getLast_mem _), right.named _ (List.head_mem _)]
    exact apart

variable {Interner : Type} [InternerOps Interner] [LawfulInterner Interner]

/-- Every table of a loaded schema is a table of the database, under its name and with
its primary column. -/
theorem Loads.table {tables : List (PgTable Value)} {schema : DatabaseSchema Interner}
    (loads : Loads tables schema) (distinct : (tables.map PgTable.name).Nodup)
    {table : TableRef Interner} (listed : table ∈ schema.tableRefs) :
    ∃ stored ∈ tables, table.name = .ok stored.name ∧ ∀ tableName primaryCol,
      Keyed table tableName primaryCol → stored.primaryCol = some primaryCol := by
  obtain ⟨sameTables, valid, storable, few, success⟩ := loads
  obtain ⟨_, symbols, pools, resolved, order, ordered, built⟩ :=
    DatabaseSchemaBuilder.buildRows_ok valid storable success
  obtain ⟨index, below, rfl⟩ := DatabaseSchema.exists_of_mem_tableRefs listed
  obtain ⟨old, group, place, here⟩ := built.exists_group below
  obtain ⟨row, member, name⟩ := built.exists_name place here
  have groupIn := List.mem_of_getElem? here
  rw [tableGroups_catalogue ((sameTables.map _).nodup_iff.mpr distinct)] at groupIn
  obtain ⟨stored, storedIn, rfl⟩ := List.mem_map.mp (List.mem_of_mem_filter groupIn)
  refine ⟨stored, sameTables.mem_iff.mp storedIn, stored.named row member ▸ name, ?_⟩
  intro tableName primaryCol keyed
  rw [PgTable.primaryCol, ← primaryColumnOf_eq here few]
  exact ((built.keyed_iff place here).mp keyed).2

end Loading

section Spec

variable {Interner Value : Type} [InternerOps Interner] {schema : DatabaseSchema Interner}
variable {text : Value → String} {now : Int} {db next : PgDatabase Value}

/-- What the statement fills in. -/
theorem PgDatabase.mem_runBackfill {log : SyncLog} {statement : BackfillStatement}
    {key : String × String} :
    key ∈ db.runBackfill text now log statement ↔ key ∈ log ∨
      ∃ stored ∈ db.tables, stored.name = statement.table ∧ ∃ record ∈ stored.records,
        key = (statement.tableName, text (record statement.pk)) := by
  have fold : ∀ (records : List (Record Value)) (log : SyncLog),
      key ∈ records.foldl (fun log record => log.insertNew
          (statement.tableName, statement.recordId text record) ⟨"I", 1, now⟩) log ↔
        key ∈ log ∨ ∃ record ∈ records,
        key = (statement.tableName, text (record statement.pk)) := by
    intro records
    induction records with
    | nil => simp
    | cons record records ih =>
        intro log
        rw [List.foldl_cons, ih, SyncLog.mem_insertNew, BackfillStatement.recordId]
        simp only [List.mem_cons, exists_eq_or_imp]
        tauto
  rw [runBackfill, fold]
  simp only [recordsOf, List.mem_flatMap, List.mem_filter, decide_eq_true_eq]
  grind

/-- What the statements fill in. -/
theorem PgDatabase.mem_foldl_runBackfill {statements : List BackfillStatement} {log : SyncLog}
    {key : String × String} :
    key ∈ statements.foldl (db.runBackfill text now) log ↔ key ∈ log ∨
      ∃ statement ∈ statements, ∃ stored ∈ db.tables, stored.name = statement.table ∧
        ∃ record ∈ stored.records, key = (statement.tableName, text (record statement.pk)) := by
  induction statements generalizing log with
  | nil => simp
  | cons statement statements ih =>
      rw [List.foldl_cons, ih, mem_runBackfill, or_assoc]
      simp only [List.mem_cons, exists_eq_or_imp]

/-- The triggers created one after the other. -/
theorem PgDatabase.foldl_createTrigger (triggers : List PgTrigger) (db : PgDatabase Value) :
    triggers.foldl createTrigger db =
      { db with tables := db.tables.map fun table =>
        triggers.foldl PgTable.createTrigger table } := by
  induction triggers generalizing db with
  | nil => simp
  | cons trigger triggers ih =>
      rw [List.foldl_cons, ih]
      simp [createTrigger, Function.comp_def]

/-- A table keeps everything but its trigger, which is the one it had or one created
for its name. -/
theorem PgTable.foldl_createTrigger (triggers : List PgTrigger) (table : PgTable Value) :
    ∃ trigger, triggers.foldl createTrigger table = { table with trigger := trigger } ∧
      (trigger = table.trigger ∨ ∃ created ∈ triggers, created.table = table.name ∧
        trigger = some created) ∧
      (trigger = none → ∀ created ∈ triggers, created.table ≠ table.name) := by
  induction triggers generalizing table with
  | nil => exact ⟨table.trigger, rfl, Or.inl rfl, by simp⟩
  | cons first triggers ih =>
      rw [List.foldl_cons, createTrigger]
      split
      · rename_i same
        obtain ⟨trigger, folded, source, absent⟩ := ih { table with trigger := some first }
        refine ⟨trigger, folded, Or.inr ?_, ?_⟩
        · rcases source with rfl | ⟨created, listed, named, rfl⟩
          · exact ⟨first, List.mem_cons_self, same.symm, rfl⟩
          · exact ⟨created, List.mem_cons_of_mem _ listed, named, rfl⟩
        · rintro rfl
          rcases source with impossible | ⟨_, _, _, impossible⟩
          · cases impossible
          · cases impossible
      · rename_i apart
        obtain ⟨trigger, folded, source, absent⟩ := ih table
        refine ⟨trigger, folded, ?_, ?_⟩
        · rcases source with same | ⟨created, listed, named, rfl⟩
          · exact Or.inl same
          · exact Or.inr ⟨created, List.mem_cons_of_mem _ listed, named, rfl⟩
        · intro missing created listed
          rcases List.mem_cons.mp listed with rfl | late
          · exact fun same => apart same.symm
          · exact absent missing created late

/-- What a successful `new` has done. -/
theorem PostgresDatabase.new_eq_ok : new text schema now db = .ok next ↔
    ∃ log triggers, schema.tableRefs.mapM tableTrigger = .ok triggers ∧
      (if 0 < db.log.entries.length then log = db.log
        else ∃ statements, schema.tableRefs.mapM backfillStatement = .ok statements ∧
          statements.foldl (db.runBackfill text now) db.log = log) ∧
      triggers.foldl PgDatabase.createTrigger { db with log := log } = next := by
  unfold new backfillSyncLogs setupTriggers
  constructor
  · intro success
    obtain ⟨filled, backfilled, success⟩ := bind_eq_ok.mp success
    obtain ⟨triggers, created, installed⟩ := foldlM_eq_ok.mp success
    split at backfilled
    · cases backfilled
      exact ⟨db.log, triggers, created, by simp_all, installed⟩
    · obtain ⟨log, looped, backfilled⟩ := bind_eq_ok.mp backfilled
      cases backfilled
      exact ⟨log, triggers, created, by simpa [*] using foldlM_eq_ok.mp looped, installed⟩
  · rintro ⟨log, triggers, created, source, installed⟩
    refine bind_eq_ok.mpr
      ⟨{ db with log := log }, ?_, foldlM_eq_ok.mpr ⟨triggers, created, installed⟩⟩
    split at source
    · rename_i full
      rw [if_pos full, source]
    · rename_i empty
      rw [if_neg empty]
      exact bind_eq_ok.mpr ⟨log, foldlM_eq_ok.mpr source, rfl⟩

/-- `new` succeeds when every table of the schema has a primary column. -/
theorem PostgresDatabase.exists_new (text : Value → String) (now : Int) (db : PgDatabase Value)
    (keyed : ∀ table ∈ schema.tableRefs, ∃ tableName primaryCol,
      Keyed table tableName primaryCol) : ∃ next, new text schema now db = .ok next := by
  obtain ⟨triggers, created⟩ := exists_mapM_ok fun table listed => by
    obtain ⟨tableName, primaryCol, has⟩ := keyed table listed
    exact ⟨_, tableTrigger_eq_ok.mpr ⟨tableName, primaryCol, has, rfl⟩⟩
  obtain ⟨statements, written⟩ := exists_mapM_ok fun table listed => by
    obtain ⟨tableName, primaryCol, has⟩ := keyed table listed
    exact ⟨_, backfillStatement_eq_ok.mpr ⟨tableName, primaryCol, has, rfl⟩⟩
  by_cases full : 0 < db.log.entries.length
  · exact ⟨_, new_eq_ok.mpr ⟨db.log, triggers, created, by rw [if_pos full], rfl⟩⟩
  · exact ⟨_, new_eq_ok.mpr ⟨_, triggers, created, by
      rw [if_neg full]
      exact ⟨statements, written, rfl⟩, rfl⟩⟩

end Spec

end Boomerang
