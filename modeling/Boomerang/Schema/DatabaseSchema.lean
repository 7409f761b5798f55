import Boomerang.Foundation.BinarySearch
import Boomerang.Schema.Types

/-!
# A schema and its accessors

The accessors index the pools of the schema and panic outside them.
-/

namespace Boomerang

open Foundation

/-- Index a slice. -/
def indexed {α : Type} (items : List α) (index : Nat) : Except Fault α :=
  match items[index]? with
  | some item => .ok item
  | none => .error .outOfBounds

/-- Store an item in a slice. -/
def storeAt {α : Type} (items : List α) (index : Nat) (item : α) : Except Fault (List α) :=
  if index < items.length then .ok (items.set index item) else .error .outOfBounds

/-- Take the range of a slice that starts at `start` and has `len` items. -/
def ranged {α : Type} (items : List α) (start len : Nat) : Except Fault (List α) :=
  if start + len ≤ items.length then .ok ((items.drop start).take len) else .error .outOfBounds

theorem indexed_eq_ok {α : Type} {items : List α} {index : Nat} {item : α} :
    indexed items index = .ok item ↔ items[index]? = some item := by
  unfold indexed
  cases items[index]? <;> simp

theorem ranged_eq_ok {α : Type} {items : List α} {start len : Nat}
    (inside : start + len ≤ items.length) :
    ranged items start len = .ok ((items.drop start).take len) :=
  if_pos inside

/-- The range of the items between two others. -/
theorem ranged_middle {α : Type} (before slice after : List α) :
    ranged (before ++ slice ++ after) before.length slice.length = .ok slice := by
  rw [ranged_eq_ok (by simp), List.append_assoc, List.drop_left, List.take_left]

/-- `DatabaseSchema`. -/
structure DatabaseSchema (Interner : Type) where
  tables : List TableMeta
  byName : List Nat
  columns : List Column
  columnNames : List Symbol
  constraintPool : List Symbol
  foreignKeyPool : List ForeignKey
  hash : SchemaHash
  interner : Interner

/-- The name of the table at a place of an index by name. -/
def nameAt (tables : List TableMeta) (byName : List Nat) (place : Nat) : Except Fault Symbol := do
  let index ← indexed byName place
  let info ← indexed tables index
  return info.name

/-- `ColumnRef`. -/
structure ColumnRef (Interner : Type) where
  schema : DatabaseSchema Interner
  index : Nat

/-- `TableRef`. -/
structure TableRef (Interner : Type) where
  schema : DatabaseSchema Interner
  index : Nat

variable {Interner : Type}

/-- `resolve(symbol).expect(message)`. -/
def resolveExpected [InternerOps Interner] (interner : Interner) (symbol : Symbol)
    (message : String) :
    Except Fault String :=
  match InternerOps.resolve interner symbol with
  | .error fault => .error fault
  | .ok none => .error (.expectation message)
  | .ok (some text) => .ok text

theorem resolveExpected_eq_ok [InternerOps Interner] {interner : Interner} {symbol : Symbol}
    {message text : String} :
    resolveExpected interner symbol message = .ok text ↔ Names interner symbol text := by
  unfold resolveExpected Names
  cases InternerOps.resolve interner symbol with
  | error fault => simp
  | ok found => cases found <;> simp

namespace ColumnRef

/-- `ColumnRef::meta`. -/
def «meta» (column : ColumnRef Interner) : Except Fault Column :=
  indexed column.schema.columns column.index

/-- `ColumnRef::default_value`. -/
def defaultValue (column : ColumnRef Interner) : Except Fault (Option Symbol) := do
  let info ← column.meta
  return info.defaultValue

/-- `ColumnRef::is_nullable`. -/
def isNullable (column : ColumnRef Interner) : Except Fault Bool := do
  let info ← column.meta
  return info.isNullable

/-- `ColumnRef::is_primary_key`. -/
def isPrimaryKey (column : ColumnRef Interner) : Except Fault Bool := do
  let info ← column.meta
  return info.isPrimaryKey

/-- `ColumnRef::is_unique`. -/
def isUnique (column : ColumnRef Interner) : Except Fault Bool := do
  let info ← column.meta
  return info.isUnique

/-- `ColumnRef::constraints`. -/
def constraints (column : ColumnRef Interner) : Except Fault (List Symbol) := do
  let info ← column.meta
  ranged column.schema.constraintPool info.constraints.start info.constraints.len

/-- `ColumnRef::foreign_keys`. -/
def foreignKeys (column : ColumnRef Interner) : Except Fault (List ForeignKey) := do
  let info ← column.meta
  ranged column.schema.foreignKeyPool info.foreignKeys.start info.foreignKeys.len

/-- `ColumnRef::name`. -/
def name [InternerOps Interner] (column : ColumnRef Interner) : Except Fault String := do
  let info ← column.meta
  resolveExpected column.schema.interner info.name "column symbol not from the schema"

end ColumnRef

namespace TableRef

/-- `TableRef::meta`. -/
def «meta» (table : TableRef Interner) : Except Fault TableMeta :=
  indexed table.schema.tables table.index

/-- `TableRef::name`. -/
def name [InternerOps Interner] (table : TableRef Interner) : Except Fault String := do
  let info ← table.meta
  resolveExpected table.schema.interner info.name "table symbol not from the schema"

/-- `TableRef::topo_index`. -/
def topoIndex (table : TableRef Interner) : Nat := table.index

/-- `TableRef::columns`. -/
def columns (table : TableRef Interner) : Except Fault (List (ColumnRef Interner)) := do
  let info ← table.meta
  return (List.range info.columnsLen).map fun offset =>
    ⟨table.schema, info.columnsStart + offset⟩

/-- `TableRef::column_names`. -/
def columnNames (table : TableRef Interner) : Except Fault (List Symbol) := do
  let info ← table.meta
  ranged table.schema.columnNames info.columnsStart info.columnsLen

/-- `TableRef::position`. -/
def position (table : TableRef Interner) (name : Symbol) : Except Fault (Option Nat) := do
  let names ← table.columnNames
  return names.findIdx? fun other => other = name

/-- `TableRef::column_by_symbol`. -/
def columnBySymbol (table : TableRef Interner) (name : Symbol) :
    Except Fault (Option (ColumnRef Interner)) := do
  match ← table.position name with
  | none => return none
  | some localIndex =>
      let info ← table.meta
      return some ⟨table.schema, info.columnsStart + localIndex⟩

/-- `TableRef::column`. -/
def column [InternerOps Interner] (table : TableRef Interner) (name : String) :
    Except Fault (Option (ColumnRef Interner)) :=
  match InternerOps.get table.schema.interner name with
  | none => .ok none
  | some symbol => table.columnBySymbol symbol

/-- `TableRef::primary_key`. -/
def primaryKey (table : TableRef Interner) : Except Fault (Option (ColumnRef Interner)) := do
  let info ← table.meta
  return info.primaryKey.map fun offset => ⟨table.schema, info.columnsStart + offset⟩

/-- `TableRef::foreign_keys`. -/
def foreignKeys (table : TableRef Interner) : Except Fault (List ForeignKey) := do
  let info ← table.meta
  ranged table.schema.foreignKeyPool info.fkStart info.fkLen

/-- `TableRef::referenced_table`. -/
def referencedTable (table : TableRef Interner) (fk : ForeignKey) : TableRef Interner :=
  ⟨table.schema, fk.table⟩

end TableRef

namespace DatabaseSchema

/-- `DatabaseSchema::resolve_symbol`. -/
def resolveSymbol [InternerOps Interner] (schema : DatabaseSchema Interner) (symbol : Symbol) :
    Except Fault (Option String) :=
  InternerOps.resolve schema.interner symbol

/-- `DatabaseSchema::get_symbol`. -/
def getSymbol [InternerOps Interner] (schema : DatabaseSchema Interner) (value : String) :
    Option Symbol :=
  InternerOps.get schema.interner value

/-- `DatabaseSchema::tables`. The number of tables is cast to a `u16`. -/
def tableRefs (schema : DatabaseSchema Interner) : List (TableRef Interner) :=
  (List.range (schema.tables.length % u16Range)).map fun index => ⟨schema, index⟩

theorem length_tableRefs (schema : DatabaseSchema Interner) :
    schema.tableRefs.length = schema.tables.length % u16Range := by
  rw [tableRefs, List.length_map, List.length_range]

/-- What is enumerated are tables of the schema. -/
theorem exists_of_mem_tableRefs {schema : DatabaseSchema Interner} {table : TableRef Interner}
    (member : table ∈ schema.tableRefs) :
    ∃ index < schema.tables.length, table = ⟨schema, index⟩ := by
  obtain ⟨index, inRange, rfl⟩ := List.mem_map.mp member
  exact ⟨index, Nat.lt_of_lt_of_le (List.mem_range.mp inRange) (Nat.mod_le _ _), rfl⟩

/-- The table enumerated at a position is the table of that index. -/
theorem tableRefs_eq_some {schema : DatabaseSchema Interner} {index : Nat}
    {table : TableRef Interner} :
    schema.tableRefs[index]? = some table ↔
      index < schema.tableRefs.length ∧ table = ⟨schema, index⟩ := by
  rw [length_tableRefs, tableRefs, List.getElem?_map]
  constructor
  · intro here
    obtain ⟨place, placeEq, rfl⟩ := Option.map_eq_some_iff.mp here
    obtain ⟨below, same⟩ := List.getElem?_eq_some_iff.mp placeEq
    rw [List.getElem_range] at same
    rw [List.length_range] at below
    exact ⟨below, same ▸ rfl⟩
  · rintro ⟨below, rfl⟩
    rw [List.getElem?_range below]
    rfl

/-- Where their number is not cut, every table is enumerated at its position. -/
theorem tableRefs_getElem? {schema : DatabaseSchema Interner} {index : Nat}
    (below : index < schema.tables.length) (few : schema.tables.length < u16Range) :
    schema.tableRefs[index]? = some ⟨schema, index⟩ := by
  rw [tableRefs, Nat.mod_eq_of_lt few, List.getElem?_map, List.getElem?_range below]
  rfl

/-- `DatabaseSchema::table_at`. The index is cast to a `u16`. -/
def tableAt (schema : DatabaseSchema Interner) (index : Nat) : Option (TableRef Interner) :=
  if index < schema.tables.length then some ⟨schema, index % u16Range⟩ else none

/-- `DatabaseSchema::table_by_symbol`. -/
def tableBySymbol (schema : DatabaseSchema Interner) (symbol : Symbol) :
    Except Fault (Option (TableRef Interner)) := do
  match ← tryBinarySearch (nameAt schema.tables schema.byName) schema.byName.length symbol with
  | none => return none
  | some slot => return schema.tableAt (← indexed schema.byName slot)

/-- `DatabaseSchema::table`. -/
def table [InternerOps Interner] (schema : DatabaseSchema Interner) (name : String) :
    Except Fault (Option (TableRef Interner)) :=
  match schema.getSymbol name with
  | none => .ok none
  | some symbol => schema.tableBySymbol symbol

/-- `DatabaseSchema::independent_tables`. The tables that the iterator yields. -/
def independentTables (schema : DatabaseSchema Interner) :
    Except Fault (List (TableRef Interner)) :=
  schema.tableRefs.filterMapM fun table => do
    let fks ← table.foreignKeys
    return if fks.all fun fk => fk.table = table.index then some table else none

/-- Mark the tables other than `source` that the foreign keys reference. -/
def markReferenced (source : Nat) (referenced : List Bool) (fk : ForeignKey) :
    Except Fault (List Bool) :=
  if fk.table ≠ source then storeAt referenced fk.table true else .ok referenced

/-- `DatabaseSchema::leaf_tables`. -/
def leafTables (schema : DatabaseSchema Interner) : Except Fault (List (TableRef Interner)) := do
  let unmarked := List.replicate schema.tables.length false
  let referenced ← schema.tables.zipIdx.foldlM (fun referenced (info, index) => do
    let fks ← ranged schema.foreignKeyPool info.fkStart info.fkLen
    fks.foldlM (markReferenced index) referenced) unmarked
  return referenced.zipIdx.filterMap fun (marked, index) =>
    if marked then none else schema.tableAt index

end DatabaseSchema

end Boomerang
