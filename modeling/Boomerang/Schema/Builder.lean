import Boomerang.Foundation.Compaction
import Boomerang.Foundation.TopologicalSort
import Boomerang.Schema.DatabaseSchema

/-!
# The schema builder

`add_row` interns the strings of a row and appends its column, checks and foreign keys
to the pools; rows that follow each other under one table name form a table. `build`
resolves the foreign keys, orders the tables by them, and drops the keys that did not
resolve.
-/

namespace Boomerang

open Foundation

/-- `RawForeignKey`, with strings or their symbols as names. -/
structure RawForeignKey (Name : Type) where
  constraintName : Name
  namespaceName : Name
  referencedTable : Name
  referencedColumn : Name
  onUpdate : Action
  onDelete : Action
deriving DecidableEq, Repr

/-- The arguments of `add_row`, as they are given or interned. -/
structure Row (Name Kind : Type) where
  tableName : Name
  columnName : Name
  dataType : Kind
  nullable : Bool
  isPrimary : Bool
  isUnique : Bool
  defaultExpr : Option Name
  foreignKeys : List (RawForeignKey Name)
  checkDefs : List Name
  domainChecks : List Name
deriving DecidableEq, Repr

/-- A row as it is given. -/
abbrev RawRow := Row String String

/-- A row with its strings interned. -/
abbrev SymbolRow := Row Symbol ValueType

/-- The types `add_row` knows by name. -/
def builtinType (dataType : String) : Option ValueType :=
  match dataType with
  | "boolean" | "bool" => some .bool
  | "smallint" | "integer" | "bigint" | "int2" | "int4" | "int8" | "serial" | "bigserial"
  | "smallserial" | "oid" => some .int
  | "real" | "double precision" | "float4" | "float8" => some .float
  | "numeric" | "decimal" => some .decimal
  | "text" | "character varying" | "varchar" | "character" | "char" | "name" | "bpchar" =>
      some .text
  | "bytea" => some .blob
  | "json" | "jsonb" => some .json
  | "uuid" => some .uuid
  | "timestamp without time zone" | "timestamp" => some .timestamp
  | "timestamp with time zone" | "timestamptz" => some .timestampTz
  | "date" => some .date
  | "time without time zone" | "time" => some .time
  | "time with time zone" | "timetz" => some .timeTz
  | "_bool" => some .boolArray
  | "_int2" | "_int4" | "_int8" | "_oid" => some .intArray
  | "_float4" | "_float8" => some .floatArray
  | "_numeric" => some .decimalArray
  | "_text" | "_varchar" | "_bpchar" | "_name" => some .textArray
  | _ => none

/-- `UnresolvedFk`. -/
structure UnresolvedFk where
  poolIndex : Nat
  sourceTableIdx : Nat
  refTableSym : Symbol
  refColumnSym : Symbol

/-- The fields of `DatabaseSchemaBuilder` other than the interner. -/
structure SchemaPools where
  tables : List TableMeta
  columns : List Column
  columnNames : List Symbol
  constraintPool : List Symbol
  foreignKeyPool : List ForeignKey
  currentTable : Option Symbol
  currentTableColsStart : Nat
  currentTableFkStart : Nat
  currentTablePk : Option Nat
  unresolvedFks : List UnresolvedFk

/-- `DatabaseSchemaBuilder`. -/
structure DatabaseSchemaBuilder (Interner : Type) extends SchemaPools where
  interner : Interner

/-- `(len as u32 - start) as u16`. -/
def lenSince (profile : Profile) (len start : Nat) : Except Fault Nat :=
  if profile = .debug ∧ len % u32Range < start then .error .overflow
  else .ok ((len % u32Range + u32Range - start) % u32Range % u16Range)

namespace SchemaPools

/-- The pools of a new builder. -/
def empty : SchemaPools := ⟨[], [], [], [], [], none, 0, 0, none, []⟩

/-- `DatabaseSchemaBuilder::finish_table`. -/
def finishTable (profile : Profile) (pools : SchemaPools) : Except Fault SchemaPools :=
  match pools.currentTable with
  | none => .ok pools
  | some name => do
      let columnsLen ← lenSince profile pools.columns.length pools.currentTableColsStart
      let fkLen ← lenSince profile pools.foreignKeyPool.length pools.currentTableFkStart
      return { pools with
        tables := pools.tables ++
          [⟨name, pools.currentTableColsStart, columnsLen, pools.currentTablePk,
            pools.currentTableFkStart, fkLen⟩] }

/-- The start of a new table in `add_row`, unless the table goes on. -/
def startTable (profile : Profile) (pools : SchemaPools) (name : Symbol) :
    Except Fault SchemaPools :=
  if some name = pools.currentTable then .ok pools
  else do
    let pools ← pools.finishTable profile
    return { pools with
      currentTable := some name
      currentTableColsStart := pools.columns.length % u32Range
      currentTableFkStart := pools.foreignKeyPool.length % u32Range
      currentTablePk := none }

/-- A foreign key of a row, with the indices of what it references left open. -/
def pushForeignKey (pools : SchemaPools) (fk : RawForeignKey Symbol) : SchemaPools :=
  { pools with
    foreignKeyPool := pools.foreignKeyPool ++
      [⟨fk.constraintName, fk.namespaceName, 0, 0, fk.onUpdate, fk.onDelete⟩]
    unresolvedFks := pools.unresolvedFks ++
      [⟨pools.foreignKeyPool.length, pools.tables.length, fk.referencedTable,
        fk.referencedColumn⟩] }

/-- The column of a row, its checks and its foreign keys. -/
def pushColumn (profile : Profile) (pools : SchemaPools) (row : SymbolRow) :
    Except Fault SchemaPools := do
  let colIdxInTable := (pools.columns.length - pools.currentTableColsStart) % u16Range
  let primaryKey := if row.isPrimary then some colIdxInTable else pools.currentTablePk
  let constraintsStart := pools.constraintPool.length % u32Range
  let constraintPool := pools.constraintPool ++ (row.checkDefs ++ row.domainChecks)
  let constraintsLen ← lenSince profile constraintPool.length constraintsStart
  let fksStart := pools.foreignKeyPool.length % u32Range
  let keyed := row.foreignKeys.foldl pushForeignKey pools
  let fksLen ← lenSince profile keyed.foreignKeyPool.length fksStart
  return { keyed with
    constraintPool := constraintPool
    currentTablePk := primaryKey
    columns := keyed.columns ++
      [{ name := row.columnName
         dataType := row.dataType
         defaultValue := row.defaultExpr
         flags := .ofRow row.nullable row.isPrimary row.isUnique
         constraints := ⟨constraintsStart, constraintsLen⟩
         foreignKeys := ⟨fksStart, fksLen⟩ }]
    columnNames := keyed.columnNames ++ [row.columnName] }

end SchemaPools

section Interning

variable {Interner : Type} [InternerOps Interner]

/-- A call of `get_or_intern` that may end the build. -/
def intern (value : String) : StateT Interner (Except Fault) Symbol := fun interner =>
  match InternerOps.getOrIntern interner value with
  | .error fault _ => .error fault
  | .ok symbol next => .ok (symbol, next)

/-- Intern the names of a foreign key. -/
def RawForeignKey.intern (fk : RawForeignKey String) :
    StateT Interner (Except Fault) (RawForeignKey Symbol) := do
  let constraintName ← Boomerang.intern fk.constraintName
  let namespaceName ← Boomerang.intern fk.namespaceName
  let referencedTable ← Boomerang.intern fk.referencedTable
  let referencedColumn ← Boomerang.intern fk.referencedColumn
  return ⟨constraintName, namespaceName, referencedTable, referencedColumn, fk.onUpdate,
    fk.onDelete⟩

/-- The value type of a type name; a name that is not known is interned. -/
def internType (dataType : String) : StateT Interner (Except Fault) ValueType :=
  match builtinType dataType with
  | some kind => return kind
  | none => return .custom (← intern dataType)

/-- The calls of the interner that `add_row` makes, in their order. -/
def Row.intern (row : RawRow) : StateT Interner (Except Fault) SymbolRow := do
  let tableName ← Boomerang.intern row.tableName
  let columnName ← Boomerang.intern row.columnName
  let checkDefs ← row.checkDefs.mapM Boomerang.intern
  let domainChecks ← row.domainChecks.mapM Boomerang.intern
  let foreignKeys ← row.foreignKeys.mapM RawForeignKey.intern
  let dataType ← internType row.dataType
  let defaultExpr ← row.defaultExpr.mapM Boomerang.intern
  return ⟨tableName, columnName, dataType, row.nullable, row.isPrimary, row.isUnique,
    defaultExpr, foreignKeys, checkDefs, domainChecks⟩

namespace DatabaseSchemaBuilder

/-- `DatabaseSchema::new`, with an interner that has just been created. -/
def new (interner : Interner) : DatabaseSchemaBuilder Interner := ⟨.empty, interner⟩

/-- `DatabaseSchemaBuilder::add_row`. The interner and the pools do not depend on each
other, so the calls of the interner come first. -/
def addRow (profile : Profile) (builder : DatabaseSchemaBuilder Interner) (row : RawRow) :
    Except Fault (DatabaseSchemaBuilder Interner) := do
  let (interned, interner) ← row.intern builder.interner
  let pools ← builder.toSchemaPools.startTable profile interned.tableName
  let pools ← pools.pushColumn profile interned
  return ⟨pools, interner⟩

/-- The calls of `add_row` for some rows. -/
def addRows (profile : Profile) (builder : DatabaseSchemaBuilder Interner) (rows : List RawRow) :
    Except Fault (DatabaseSchemaBuilder Interner) :=
  rows.foldlM (addRow profile) builder

end DatabaseSchemaBuilder

end Interning

/-- A foreign key whose referenced table and column were found. -/
structure ResolvedFk where
  poolIndex : Nat
  sourceTableIdx : Nat
  refTableOldIdx : Nat
  colIdxInTable : Nat
deriving DecidableEq, Repr

/-- The indices of the tables, sorted by name. Their number is cast to a `u16`. -/
def sortedByName (unstable : UnstableSort (TableMeta × Nat) Symbol) (tables : List TableMeta) :
    List Nat :=
  (unstable.sort (fun entry => entry.1.name)
    (tables.zipIdx.take (tables.length % u16Range))).map Prod.snd

namespace SchemaPools

/-- The table of a name and the column of another in it, if there are such. -/
def findColumn (pools : SchemaPools) (byName : List Nat) (table column : Symbol) :
    Except Fault (Option (Nat × Nat)) := do
  match ← tryBinarySearch (nameAt pools.tables byName) byName.length table with
  | none => return none
  | some slot =>
      let refTable ← indexed byName slot
      let info ← indexed pools.tables refTable
      let names ← ranged pools.columnNames info.columnsStart info.columnsLen
      return (names.findIdx? fun name => name = column).map fun place =>
        (refTable, place % u16Range)

/-- The resolution of one foreign key in `build`. -/
def resolve (pools : SchemaPools) (byName : List Nat) (unresolved : UnresolvedFk) :
    Except Fault (Option ResolvedFk) := do
  let found ← pools.findColumn byName unresolved.refTableSym unresolved.refColumnSym
  return found.map fun (refTable, column) =>
    ⟨unresolved.poolIndex, unresolved.sourceTableIdx, refTable, column⟩

/-- A resolved key as it is stored, with the table renumbered by the new order. -/
def finalKey (pools : SchemaPools) (order : List Nat) (resolved : ResolvedFk) :
    Except Fault ForeignKey := do
  let old ← indexed pools.foreignKeyPool resolved.poolIndex
  return { old with
    table := order.idxOf resolved.refTableOldIdx % u16Range
    column := resolved.colIdxInTable }

end SchemaPools

/-- The dependencies between tables, from the referenced table to the referencing one. -/
def dependencies (resolved : List ResolvedFk) : List (Nat × Nat) :=
  (resolved.filter fun fk => fk.refTableOldIdx ≠ fk.sourceTableIdx).map fun fk =>
    (fk.refTableOldIdx, fk.sourceTableIdx)

/-- The new order of the tables, by their old indices. -/
def tableOrder (count : Nat) (resolved : List ResolvedFk) : Except Fault (List Nat) :=
  match topologicalOrder (List.range count) (dependencies resolved) with
  | none => .error .divergence
  | some order => .ok order

/-- `old_to_new_fk`, the place of a foreign key in the new pool. -/
def newPlace (resolved : List ResolvedFk) (poolIndex : Nat) : Option Nat :=
  (resolved.findIdx? fun fk => fk.poolIndex = poolIndex).map fun place => place % u32Range

/-- The range of the new pool for a range of the old one. -/
def remapRange (resolved : List ResolvedFk) (poolSize start len : Nat) : Except Fault (Nat × Nat) :=
  if start + len ≤ poolSize then .ok (compactRange (newPlace resolved) (u32Range - 1) start len)
  else .error .outOfBounds

/-- A column with its foreign keys in the new pool. -/
def Column.remap (resolved : List ResolvedFk) (poolSize : Nat) (column : Column) :
    Except Fault Column := do
  let (start, len) ← remapRange resolved poolSize column.foreignKeys.start column.foreignKeys.len
  return { column with foreignKeys := ⟨start, len⟩ }

/-- A table with its foreign keys in the new pool. -/
def TableMeta.remap (resolved : List ResolvedFk) (poolSize : Nat) (table : TableMeta) :
    Except Fault TableMeta := do
  let (start, len) ← remapRange resolved poolSize table.fkStart table.fkLen
  return { table with fkStart := start, fkLen := len }

namespace DatabaseSchemaBuilder

variable {Interner : Type}

/-- `DatabaseSchemaBuilder::build`. -/
def build (unstable : UnstableSort (TableMeta × Nat) Symbol) (profile : Profile)
    (builder : DatabaseSchemaBuilder Interner) (hash : SchemaHash) :
    Except Fault (DatabaseSchema Interner) := do
  let pools ← builder.toSchemaPools.finishTable profile
  let oldByName := sortedByName unstable pools.tables
  let resolved ← pools.unresolvedFks.filterMapM (pools.resolve oldByName)
  let order ← tableOrder pools.tables.length resolved
  let tables ← order.mapM (indexed pools.tables)
  let finalByName := sortedByName unstable tables
  let validFks ← resolved.mapM (pools.finalKey order)
  let columns ← pools.columns.mapM (Column.remap resolved pools.foreignKeyPool.length)
  let tables ← tables.mapM (TableMeta.remap resolved pools.foreignKeyPool.length)
  return {
    tables := tables
    byName := finalByName
    columns := columns
    columnNames := pools.columnNames
    constraintPool := pools.constraintPool
    foreignKeyPool := validFks
    hash := hash
    interner := builder.interner }

/-- Add the rows to a new builder and build. -/
def buildRows [InternerOps Interner] (unstable : UnstableSort (TableMeta × Nat) Symbol)
    (profile : Profile) (interner : Interner) (rows : List RawRow) (hash : SchemaHash) :
    Except Fault (DatabaseSchema Interner) := do
  let builder ← (new interner).addRows profile rows
  builder.build unstable profile hash

end DatabaseSchemaBuilder

end Boomerang
