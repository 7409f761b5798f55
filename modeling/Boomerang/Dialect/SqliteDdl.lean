import Boomerang.Schema.DatabaseSchema

/-!
# The DDL of the SQLite databases

What the writers read of a table of the schema, and the statements they write. A
statement is kept as the values put into its text.
-/

namespace Boomerang

/-- `to_ascii_lowercase`, by which SQLite compares names. -/
def asciiLower (text : String) : String := String.ofList (text.toList.map Char.toLower)

/-- `str::eq_ignore_ascii_case`. -/
def eqIgnoreAsciiCase (left right : String) : Bool := asciiLower left = asciiLower right

/-- `char::is_whitespace`. -/
def isWhitespace (char : Char) : Bool :=
  let code := char.toNat
  (9 ≤ code && code ≤ 13) || code = 32 || code = 0x85 || code = 0xA0 || code = 0x1680 ||
    (0x2000 ≤ code && code ≤ 0x200A) || code = 0x2028 || code = 0x2029 || code = 0x202F ||
    code = 0x205F || code = 0x3000

/-- `str::trim_end`. -/
def trimEnd (text : List Char) : List Char := (text.reverse.dropWhile isWhitespace).reverse

/-- `str::trim`. -/
def trim (text : List Char) : List Char := trimEnd (text.dropWhile isWhitespace)

/-- `expr.find("::")`, as the text in front of it. -/
def beforeCast : List Char → Option (List Char)
  | ':' :: ':' :: _ => some []
  | [] => none
  | char :: rest => (beforeCast rest).map (char :: ·)

/-- The test `is_literal` of `sqlite_default`, of a text that starts with `first`. A text
that starts with a quote (39) is one. -/
def isLiteral (first : Char) (rest : List Char) : Bool :=
  let expr := String.ofList (first :: rest)
  first.toNat = 39 || first.isDigit || (first = '-' && rest.head?.any Char.isDigit) ||
    eqIgnoreAsciiCase expr "true" || eqIgnoreAsciiCase expr "false" ||
    eqIgnoreAsciiCase expr "null" || eqIgnoreAsciiCase expr "current_timestamp"

/-- A foreign key as it is written. -/
structure KeyDef where
  column : String
  refTable : String
  refColumn : String
  onUpdate : Action
  onDelete : Action
deriving DecidableEq, Repr

/-- What the writers read of a column. The default is the translated one. -/
structure TargetColumn where
  name : String
  sqliteType : String
  isPrimaryKey : Bool
  isUnique : Bool
  isNullable : Bool
  default : Option String
deriving DecidableEq, Repr

/-- What the writers read of a table. -/
structure TargetTable where
  name : String
  columns : List TargetColumn
  keys : List KeyDef
  checks : List String
deriving DecidableEq, Repr

/-- A column definition. -/
structure ColumnDef where
  name : String
  declaredType : String
  primaryKey : Bool
  unique : Bool
  notNull : Bool
  default : Option String
deriving DecidableEq, Repr

/-- The parts of a `CREATE TABLE`. -/
structure TableDef where
  name : String
  columns : List ColumnDef
  keys : List KeyDef
  checks : List String
  withoutRowid : Bool
  strict : Bool
deriving DecidableEq, Repr

/-- The statements that make and change tables. -/
inductive SqliteStatement where
  /-- `CREATE TABLE IF NOT EXISTS`. -/
  | createTable (definition : TableDef)
  /-- `DROP TABLE IF EXISTS`. -/
  | dropTable (name : String)
  /-- `ALTER TABLE ... ADD COLUMN`. -/
  | addColumn (table : String) (column : ColumnDef)
  /-- `ALTER TABLE ... DROP COLUMN`. -/
  | dropColumn (table column : String)
  /-- `CREATE UNIQUE INDEX IF NOT EXISTS ... ON` one column of a table. -/
  | createUniqueIndex (name table column : String)
  /-- `INSERT INTO __meta__ ... ON CONFLICT(key) DO UPDATE`, with the schema hash. -/
  | upsertHash (hash : SchemaHash)
  /-- `DROP TRIGGER IF EXISTS`. -/
  | dropTrigger (name : String)
deriving DecidableEq, Repr

/-- The table that holds the schema hash. -/
def metaTable : TableDef where
  name := "__meta__"
  columns := [⟨"key", "TEXT", true, false, true, none⟩, ⟨"value", "BLOB", false, false, true, none⟩]
  keys := []
  checks := []
  withoutRowid := true
  strict := false

/-- `META_DDL`. -/
def metaDdl : SqliteStatement := .createTable metaTable

/-- The table of the log. -/
def syncLogTable : TableDef where
  name := "__sync_log__"
  columns :=
    [⟨"table_name", "TEXT", true, false, true, none⟩,
      ⟨"record_id", "TEXT", true, false, true, none⟩,
      ⟨"op_type", "TEXT", false, false, true, none⟩,
      ⟨"version", "INTEGER", false, false, true, some "1"⟩,
      ⟨"updated_at", "INTEGER", false, false, true, none⟩]
  keys := []
  checks := ["CHECK (op_type IN ('I','U','D'))"]
  withoutRowid := true
  strict := true

/-- `SYNC_LOG_DDL`. -/
def syncLogDdl : SqliteStatement := .createTable syncLogTable

namespace SqliteDatabase

/-- `sqlite_type`. -/
def sqliteType : ValueType → String
  | .bool | .int => "INTEGER"
  | .float => "REAL"
  | .blob | .null => "BLOB"
  | .decimal | .text | .json | .uuid | .timestamp | .timestampTz | .date | .time | .timeTz
  | .custom _ | .boolArray | .intArray | .floatArray | .decimalArray | .textArray => "TEXT"

/-- `sqlite_default`. -/
def sqliteDefault (pgDefault : String) : Option String :=
  let expr := trim pgDefault.toList
  let expr := match beforeCast expr with
    | some before => trimEnd before
    | none => expr
  match expr with
  | [] => none
  | first :: rest => if isLiteral first rest then some (String.ofList expr) else none

section Reading

variable {Interner : Type} [InternerOps Interner]

/-- The default of a column, translated. -/
def readDefault (schema : DatabaseSchema Interner) (default : Option Symbol) :
    Except Fault (Option String) :=
  match default with
  | none => return none
  | some symbol => return (← schema.resolveSymbol symbol).bind sqliteDefault

/-- A column. -/
def readColumn (schema : DatabaseSchema Interner) (column : ColumnRef Interner) :
    Except Fault TargetColumn := do
  let name ← column.name
  let info ← column.meta
  let default ← readDefault schema info.defaultValue
  return {
    name := name
    sqliteType := sqliteType info.dataType
    isPrimaryKey := info.flags.contains .PRIMARY_KEY
    isUnique := info.flags.contains .UNIQUE
    isNullable := info.flags.contains .NULLABLE
    default := default }

/-- A foreign key of a column, unless the table or the column it references is absent. -/
def readForeignKey (schema : DatabaseSchema Interner) (column : String) (fk : ForeignKey) :
    Except Fault (Option KeyDef) :=
  match schema.tableAt fk.table with
  | none => return none
  | some refTable => do
      match (← refTable.columnNames)[fk.column]? with
      | none => return none
      | some refCol =>
          match ← schema.resolveSymbol refCol with
          | none => return none
          | some refColumn =>
              return some ⟨column, ← refTable.name, refColumn, fk.onUpdate, fk.onDelete⟩

/-- The foreign keys of a column. -/
def readForeignKeys (schema : DatabaseSchema Interner) (column : ColumnRef Interner) :
    Except Fault (List KeyDef) := do
  (← column.foreignKeys).filterMapM (readForeignKey schema (← column.name))

/-- A check, unless it is empty or holds a cast. -/
def readCheck (schema : DatabaseSchema Interner) (constraint : Symbol) :
    Except Fault (Option String) := do
  return (← schema.resolveSymbol constraint).filter fun check =>
    !check.isEmpty && !(beforeCast check.toList).isSome

/-- The checks of a column. -/
def readChecks (schema : DatabaseSchema Interner) (column : ColumnRef Interner) :
    Except Fault (List String) := do
  (← column.constraints).filterMapM (readCheck schema)

/-- A table. The source reads the foreign keys and the checks when it comes to write a
`CREATE TABLE`; only where they cannot be read does it matter that they are read here. -/
def readTable (schema : DatabaseSchema Interner) (table : TableRef Interner) :
    Except Fault TargetTable := do
  let name ← table.name
  let refs ← table.columns
  let columns ← refs.mapM (readColumn schema)
  let keys ← refs.mapM (readForeignKeys schema)
  let checks ← refs.mapM (readChecks schema)
  return ⟨name, columns, keys.flatten, checks.flatten⟩

/-- The tables of a schema. -/
def readTables (schema : DatabaseSchema Interner) : Except Fault (List TargetTable) :=
  schema.tableRefs.mapM (readTable schema)

end Reading

/-- The column definition in a `CREATE TABLE`. -/
def createColumn (column : TargetColumn) : ColumnDef where
  name := column.name
  declaredType := column.sqliteType
  primaryKey := column.isPrimaryKey
  unique := !column.isPrimaryKey && column.isUnique
  notNull := column.isPrimaryKey || !column.isNullable
  default := column.default

/-- The table definition in a `CREATE TABLE`. -/
def createDef (table : TargetTable) : TableDef where
  name := table.name
  columns := table.columns.map createColumn
  keys := table.keys
  checks := table.checks
  withoutRowid := false
  strict := false

/-- `write_create_table`. -/
def writeCreateTable (table : TargetTable) : SqliteStatement := .createTable (createDef table)

/-- `write_hash_upsert`. -/
def writeHashUpsert (hash : SchemaHash) : List SqliteStatement := [metaDdl, .upsertHash hash]

/-- `build_ddl`. -/
def buildDdl (tables : List TargetTable) (hash : SchemaHash) : List SqliteStatement :=
  tables.map writeCreateTable ++ syncLogDdl :: writeHashUpsert hash

end SqliteDatabase

end Boomerang
