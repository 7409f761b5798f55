import Boomerang.Dialect.Plan
import Boomerang.Dialect.UniqueIndexes

/-!
# The constraints of columns

What a column has beyond its type and whether it is primary: whether it may be null,
whether it is unique, its default and its foreign keys. A database that is created has
what the schema declares.
-/

namespace Boomerang

open Foundation SqliteDatabase

variable {Cells : Type}

/-- The constraints of a column. -/
structure ColumnConstraints where
  notNull : Bool
  unique : Bool
  default : Option String
  keys : List KeyDef
deriving DecidableEq, Repr

/-- The same constraints, with the foreign keys in any order. -/
structure ColumnConstraints.Same (left right : ColumnConstraints) : Prop where
  notNull : left.notNull = right.notNull
  unique : left.unique = right.unique
  default : left.default = right.default
  keys : ∀ key, key ∈ left.keys ↔ key ∈ right.keys

/-- The foreign keys of a column. -/
def keysOf (keys : List KeyDef) (column : String) : List KeyDef :=
  keys.filter fun key => asciiLower key.column = asciiLower column

/-- Whether there is a unique index on a column. -/
def SqliteFile.isIndexed (file : SqliteFile Cells) (table column : String) : Bool :=
  file.indexes.items.any fun index =>
    asciiLower index.table = asciiLower table ∧ asciiLower index.column = asciiLower column

/-- The constraints of a column in a file. It is unique by its definition or by an index. -/
def SqliteFile.constraints (file : SqliteFile Cells) (table column : String) :
    Option ColumnConstraints :=
  (file.table? table).bind fun found =>
    (found.columns.find? (asciiLower column)).map fun live => {
      notNull := live.notNull
      unique := live.unique || file.isIndexed table column
      default := live.default
      keys := keysOf found.keys column }

/-- The constraints that a schema declares. -/
def TargetTable.declares (target : TargetTable) (column : TargetColumn) : ColumnConstraints where
  notNull := (createColumn column).notNull
  unique := (createColumn column).unique
  default := column.default
  keys := keysOf target.keys column.name

/-- Two files have the same constraints for every column of a schema. -/
def SameConstraints (tables : List TargetTable) (left right : SqliteFile Cells) : Prop :=
  ∀ target ∈ tables, ∀ column ∈ target.columns,
    Option.Rel ColumnConstraints.Same (left.constraints target.name column.name)
      (right.constraints target.name column.name)

/-- SQLite accepts the `CREATE TABLE` statements of `build_ddl`, and none is for a table
that is there. -/
structure Creates (sqlite : Sqlite Cells) (tables : List TargetTable) (hash : SchemaHash)
    (file : SqliteFile Cells) : Prop where
  ran : execute sqlite .empty (buildDdl tables hash) = .ok file
  distinct : ((tables.map createDef ++ [syncLogTable, metaTable]).map fun definition =>
    asciiLower definition.name).Nodup

theorem ColumnConstraints.Same.refl (constraints : ColumnConstraints) :
    constraints.Same constraints := ⟨rfl, rfl, rfl, fun _ => Iff.rfl⟩

section Created

variable {sqlite : Sqlite Cells} {tables : List TargetTable} {hash : SchemaHash}
variable {file created : SqliteFile Cells} {target : TargetTable} {column : TargetColumn}

namespace Creates

theorem targets (creates : Creates sqlite tables hash created) :
    (tables.map fun target => asciiLower target.name).Nodup := by
  have distinct := creates.distinct
  rw [List.map_append, List.nodup_append, List.map_map] at distinct
  exact distinct.1

theorem eq_of_key (creates : Creates sqlite tables hash created) {other : TargetTable}
    (here : target ∈ tables) (there : other ∈ tables)
    (same : asciiLower target.name = asciiLower other.name) : target = other :=
  List.inj_on_of_nodup_map creates.targets here there same

theorem not_meta (creates : Creates sqlite tables hash created) (member : target ∈ tables) :
    asciiLower metaTable.name ≠ asciiLower target.name := by
  intro same
  have distinct := creates.distinct
  rw [List.map_append, List.nodup_append, List.map_map] at distinct
  refine distinct.2.2 _ (List.mem_map_of_mem member) (asciiLower metaTable.name) ?_ same.symm
  exact List.mem_map_of_mem (List.mem_cons_of_mem _ (List.mem_singleton_self _))

/-- Where the first table of a name is created, that is the table of the schema. -/
theorem createdFirst (creates : Creates sqlite tables hash created) (member : target ∈ tables)
    {made : Option (LiveTable Cells)}
    (first : CreatedFirst (tables.map createDef) (asciiLower target.name) made) :
    ∃ table, made = some table ∧ table.IsCreated (createDef target) := by
  have found : ((tables.map createDef).find? fun definition =>
      asciiLower definition.name = asciiLower target.name) = some (createDef target) := by
    have distinct : ((tables.map createDef).map fun definition =>
        asciiLower definition.name).Nodup := by
      rw [List.map_map]
      exact creates.targets
    have listed := Catalog.find?_of_nodup distinct (List.mem_map_of_mem member)
    exact listed
  rw [CreatedFirst, found] at first
  cases first with
  | @some _ table isCreated => exact ⟨table, rfl, isCreated⟩

/-- A table of the schema that `build_ddl` finds nothing in the place of is created. -/
theorem completed (creates : Creates sqlite tables hash created) (member : target ∈ tables)
    {after : Option (LiveTable Cells)}
    (completed : Completed (tables.map createDef ++ [syncLogTable, metaTable])
      (asciiLower target.name) none after) :
    ∃ table, after = some table ∧ table.IsCreated (createDef target) := by
  obtain ⟨middle, first, rest⟩ := completed.split
  rcases first with ⟨_, absent, _⟩ | ⟨_, first⟩
  · cases absent
  · obtain ⟨table, rfl, isCreated⟩ := creates.createdFirst member first
    rcases rest with ⟨other, same, rfl⟩ | ⟨absent, _⟩
    · exact ⟨other, rfl, Option.some.inj same ▸ isCreated⟩
    · cases absent

theorem table (creates : Creates sqlite tables hash created) (lawful : sqlite.Lawful)
    (member : target ∈ tables) : ∃ table, created.tables.find? (asciiLower target.name) =
      some table ∧ table.IsCreated (createDef target) :=
  creates.completed member (find?_buildDdl (steps_of_execute lawful creates.ran) _)

theorem column_eq (creates : Creates sqlite tables hash created) (lawful : sqlite.Lawful)
    (member : target ∈ tables) {other : TargetColumn} (here : column ∈ target.columns)
    (there : other ∈ target.columns) (same : asciiLower column.name = asciiLower other.name) :
    column = other := by
  obtain ⟨table, _, isCreated⟩ := creates.table lawful member
  have names : table.columns.items.map LiveColumn.key =
      target.columns.map fun column => asciiLower column.name := by
    have columns := congrArg (List.map fun definition : ColumnDef => asciiLower definition.name)
      isCreated.columns
    rwa [List.map_map, createDef, List.map_map] at columns
  have distinct := table.columns.distinct
  rw [names] at distinct
  exact List.inj_on_of_nodup_map distinct here there same

end Creates

/-- `build_ddl` creates no index. -/
theorem indexes_of_buildDdl (run : Steps SqliteFile.Step file (buildDdl tables hash) created)
    (none : file.indexes.items = []) : created.indexes.items = [] := by
  refine List.eq_nil_iff_forall_not_mem.mpr fun index member => ?_
  rcases SqliteFile.mem_indexes_of_run run member with before | statement
  · rw [none] at before
    cases before
  · simp [buildDdl, UniqueIndex.statement, writeCreateTable, syncLogDdl, writeHashUpsert,
      metaDdl] at statement

theorem isIndexed_eq_true {table column : String} : file.isIndexed table column = true ↔
    ∃ index ∈ file.indexes.items, asciiLower index.table = asciiLower table ∧
      asciiLower index.column = asciiLower column := by
  simp [SqliteFile.isIndexed]

theorem isIndexed_of_nil (none : file.indexes.items = []) (table column : String) :
    file.isIndexed table column = false := by
  rw [SqliteFile.isIndexed, none]
  rfl

/-- A created table has the constraints that the schema declares. -/
theorem constraints_of_created {table : LiveTable Cells}
    (found : file.tables.find? (asciiLower target.name) = some table)
    (created : table.IsCreated (createDef target)) (member : column ∈ target.columns)
    (plain : file.isIndexed target.name column.name = false) :
    file.constraints target.name column.name = some (target.declares column) := by
  obtain ⟨live, liveIn, same, key⟩ := exists_of_definitions created.columns member
  have here : table.columns.find? (asciiLower column.name) = some live :=
    Catalog.find?_eq_some.mpr ⟨liveIn, key⟩
  rw [SqliteFile.constraints, SqliteFile.table?, found, Option.bind_some, here, Option.map_some,
    plain, Bool.or_false, created.keys, same]
  rfl

end Created

end Boomerang
