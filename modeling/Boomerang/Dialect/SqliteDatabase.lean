import Boomerang.Dialect.SqliteFile
import Boomerang.Dialect.Writers
import Mathlib.Data.List.AList

/-!
# Opening a SQLite database

An exported file is taken as it is if the schema hash it holds is that of the schema,
it is migrated if it holds another hash, and the tables are created if it holds none.
The iteration order of a hash map is any order.
-/

namespace Boomerang

open Foundation

/-- Why there is no database. -/
inductive SqliteFailure where
  | panic (fault : Fault)
  | failed (error : DatabaseError)
  | connectionPoolFailed
  | invalidSqliteBytes
  | failedToAcquireTransaction
  | failedToCommitTransaction
deriving DecidableEq, Repr

/-- The calls of SQLite that are not statements of the DDL. -/
inductive SqliteCall where
  | acquire
  | commit
  | introspect
  | selectHash
  | listTriggers
deriving DecidableEq, Repr

/-- SQLite: how it reads a file, what it makes of a statement, and why another call
fails if it does. -/
structure Sqlite (Cells : Type) where
  openFile : List UInt8 → Except SqliteFailure (SqliteFile Cells)
  run : SqliteFile Cells → SqliteStatement → Except String (SqliteFile Cells)
  fails : SqliteFile Cells → SqliteCall → Option String

/-- A statement that is not refused does what is documented. -/
def Sqlite.Lawful {Cells : Type} (sqlite : Sqlite Cells) : Prop :=
  ∀ file statement next, sqlite.run file statement = .ok next → file.Step statement next

/-- The order in which a hash map is iterated. -/
structure HashOrder where
  order : {Item : Type} → List Item → List Item
  perm : ∀ {Item : Type} (items : List Item), (order items).Perm items

/-- The columns of a live table by name, with their types and whether they are primary. -/
abbrev LiveColumns := AList fun _ : String => String × Bool

/-- The live tables by name. -/
abbrev Existing := AList fun _ : String => LiveColumns

/-- A row of the introspection query. -/
structure IntrospectedColumn where
  table : String
  column : String
  ty : String
  pk : Bool
deriving DecidableEq, Repr

/-- `name LIKE 'sqlite_%'`: the underscore stands for any character. -/
def likeSqlite (name : String) : Bool :=
  (asciiLower name).toList.take 6 = "sqlite".toList && 6 < name.toList.length

/-- The condition of the introspection query on the name of a table. -/
def isListed (name : String) : Bool :=
  !likeSqlite name && name ≠ "__sync_log__" && name ≠ "__meta__"

section Introspection

variable {Cells : Type}

/-- The rows of a table. -/
def LiveTable.introspect (table : LiveTable Cells) : List IntrospectedColumn :=
  table.columns.items.map fun column =>
    ⟨table.name, column.name, column.declaredType, column.primaryKey⟩

/-- The rows of the introspection query. -/
def SqliteFile.introspect (file : SqliteFile Cells) : List IntrospectedColumn :=
  (file.tables.items.filter fun table => isListed table.name).flatMap LiveTable.introspect

/-- `name GLOB '__trg_*_sync_log__'`. -/
def globSyncTrigger (name : String) : Bool :=
  "__trg_".toList.isPrefixOf name.toList && "_sync_log__".toList.isSuffixOf (name.toList.drop 6)

end Introspection

namespace SqliteDatabase

/-- A row put into the maps. -/
def collectRow (existing : Existing) (row : IntrospectedColumn) : Existing :=
  existing.insert row.table
    (((existing.lookup row.table).getD ∅).insert row.column (row.ty, row.pk))

/-- The maps of the introspected rows. -/
def collect (rows : List IntrospectedColumn) : Existing := rows.foldl collectRow ∅

/-- The loop over the columns of a table: whether to rebuild the table, the columns to
add, and the live columns that were not consumed. It ends early. -/
def compareColumns (added : List TargetColumn) :
    List TargetColumn → LiveColumns → Bool × List TargetColumn × LiveColumns
  | [], live => (false, added, live)
  | column :: rest, live =>
      match live.lookup column.name with
      | some (ty, pk) =>
          if !eqIgnoreAsciiCase ty column.sqliteType || pk ≠ column.isPrimaryKey then
            (true, added, live.erase column.name)
          else compareColumns added rest (live.erase column.name)
      | none =>
          if column.isPrimaryKey then (true, added, live)
          else compareColumns (added ++ [column]) rest live

/-- Whether a table is dropped and created again. -/
def rebuilds (table : TargetTable) (live : LiveColumns) : Bool :=
  let (rebuild, _, left) := compareColumns [] table.columns live
  rebuild || left.entries.any fun entry => entry.2.2

/-- The columns to add to a table. -/
def addedColumns (table : TargetTable) (live : LiveColumns) : List TargetColumn :=
  (compareColumns [] table.columns live).2.1

/-- The columns to drop from a table. -/
def leftColumns (table : TargetTable) (live : LiveColumns) : LiveColumns :=
  (compareColumns [] table.columns live).2.2

/-- The column definition in an `ALTER TABLE`. -/
def alterColumn (column : TargetColumn) : ColumnDef where
  name := column.name
  declaredType := column.sqliteType
  primaryKey := false
  unique := false
  notNull := column.default.isSome && !column.isNullable
  default := column.default

/-- `format!("__uniq_{table_name}_{}__", column.name())`. -/
def uniqueIndexName (tableName columnName : String) : String :=
  "__uniq_" ++ tableName ++ "_" ++ columnName ++ "__"

/-- The statements that add a column. -/
def writeAddColumn (tableName : String) (column : TargetColumn) : List SqliteStatement :=
  .addColumn tableName (alterColumn column) ::
    if column.isUnique then
      [.createUniqueIndex (uniqueIndexName tableName column.name) tableName column.name]
    else []

/-- The statements for a table, by its live columns if there is such a table. -/
def writeAlterTable (hashing : HashOrder) (table : TargetTable) :
    Option LiveColumns → List SqliteStatement
  | none => [writeCreateTable table]
  | some live =>
      if rebuilds table live then [.dropTable table.name, writeCreateTable table]
      else (addedColumns table live).flatMap (writeAddColumn table.name) ++
        (hashing.order (leftColumns table live).keys).map (.dropColumn table.name)

/-- The statements for the tables, and the live tables that are not consumed. -/
def writeAlterTables (hashing : HashOrder) :
    List TargetTable → Existing → List SqliteStatement × Existing
  | [], existing => ([], existing)
  | table :: tables, existing =>
      let sql := writeAlterTable hashing table (existing.lookup table.name)
      let (rest, left) := writeAlterTables hashing tables (existing.erase table.name)
      (sql ++ rest, left)

/-- The first batch of `alter_tables`. -/
def alterDdl (hashing : HashOrder) (tables : List TargetTable) (existing : Existing)
    (hash : SchemaHash) : List SqliteStatement :=
  let (sql, left) := writeAlterTables hashing tables existing
  sql ++ (hashing.order left.keys).map .dropTable ++ writeHashUpsert hash

/-- The batch of `alter_tables` that drops the live tables. -/
def dropAllDdl (hashing : HashOrder) (existing : Existing) : List SqliteStatement :=
  (hashing.order existing.keys).map .dropTable

section Running

variable {Cells : Type} (sqlite : Sqlite Cells)

/-- `raw_sql(..).execute(..)`. -/
def execute (file : SqliteFile Cells) (sql : List SqliteStatement) :
    Except String (SqliteFile Cells) :=
  sql.foldlM sqlite.run file

/-- `pool.begin()`. -/
def acquire (file : SqliteFile Cells) : Except SqliteFailure Unit :=
  match sqlite.fails file .acquire with
  | some _ => .error .failedToAcquireTransaction
  | none => .ok ()

/-- `tx.commit()`. -/
def commit (file : SqliteFile Cells) : Except SqliteFailure (SqliteFile Cells) :=
  match sqlite.fails file .commit with
  | some _ => .error .failedToCommitTransaction
  | none => .ok file

/-- The error of a step of the setup. -/
def setupFailed (step reason : String) : SqliteFailure := .failed (.setupFailed step reason)

/-- Run statements in a transaction. -/
def transaction (step : String) (file : SqliteFile Cells)
    (sql : Except SqliteFailure (List SqliteStatement)) :
    Except SqliteFailure (SqliteFile Cells) := do
  acquire sqlite file
  let next ← (execute sqlite file (← sql)).mapError (setupFailed step)
  commit sqlite next

variable {Interner : Type} [InternerOps Interner]

/-- `create_tables`. -/
def createTables (schema : DatabaseSchema Interner) (file : SqliteFile Cells) :
    Except SqliteFailure (SqliteFile Cells) :=
  transaction sqlite "creating sqlite tables" file do
    let tables ← (readTables schema).mapError .panic
    return buildDdl tables schema.hash

/-- `alter_tables`. A batch that fails is rolled back. -/
def alterTables (hashing : HashOrder) (schema : DatabaseSchema Interner)
    (file : SqliteFile Cells) : Except SqliteFailure (SqliteFile Cells) :=
  match sqlite.fails file .introspect with
  | some reason => .error (setupFailed "introspecting sqlite schema" reason)
  | none => do
      let existing := collect file.introspect
      let tables ← (readTables schema).mapError .panic
      acquire sqlite file
      match execute sqlite file (alterDdl hashing tables existing schema.hash) with
      | .ok next => commit sqlite next
      | .error _ =>
          let emptied ← transaction sqlite "rebuilding sqlite tables" file
            (.ok (dropAllDdl hashing existing))
          createTables sqlite schema emptied

/-- `stored_schema_hash`. -/
def storedSchemaHash (file : SqliteFile Cells) : Option SchemaHash :=
  match sqlite.fails file .selectHash with
  | some _ => none
  | none => file.schemaHash.bind fun bytes =>
      if sized : bytes.length = 32 then some ⟨bytes, sized⟩ else none

/-- `drop_triggers`. -/
def dropTriggers (file : SqliteFile Cells) : Except SqliteFailure (SqliteFile Cells) :=
  match sqlite.fails file .listTriggers with
  | some reason => .error (setupFailed "listing sqlite triggers" reason)
  | none =>
      let names := (file.triggers.map LiveTrigger.name).filter globSyncTrigger
      (execute sqlite file (names.map .dropTrigger)).mapError
        (setupFailed "dropping sqlite triggers")

/-- `b"SQLite format 3\0"`. -/
def SQLITE_MAGIC : List UInt8 :=
  [83, 81, 76, 105, 116, 101, 32, 102, 111, 114, 109, 97, 116, 32, 51, 0]

/-- `SqliteDatabase::from`. -/
def «from» (hashing : HashOrder) (schema : DatabaseSchema Interner) (bytes : List UInt8) :
    Except SqliteFailure (SqliteFile Cells) :=
  if bytes.length < 100 ∨ bytes.take 16 ≠ SQLITE_MAGIC then .error .invalidSqliteBytes
  else do
    let file ← sqlite.openFile bytes
    let next ← match storedSchemaHash sqlite file with
      | some stored =>
          if stored = schema.hash then .ok file else alterTables sqlite hashing schema file
      | none => createTables sqlite schema file
    dropTriggers sqlite next

end Running

end SqliteDatabase

end Boomerang
