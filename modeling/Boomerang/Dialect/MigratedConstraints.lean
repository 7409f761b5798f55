import Boomerang.Dialect.Constraints

/-!
# The constraints after a migration

A table that is created again has the constraints that the schema declares. One that is
altered keeps those of the columns that are there, and a column that is added may be null
unless it has a default. A table that the introspection does not list stays as it is.
-/

namespace Boomerang

open Foundation SqliteDatabase

variable {Cells : Type}

/-- A live column has the constraints of its definition in the schema. -/
structure LiveColumn.AsDeclared (live : LiveColumn Cells) (column : TargetColumn) : Prop where
  notNull : live.notNull = (createColumn column).notNull
  unique : live.unique = (createColumn column).unique
  default : live.default = column.default

/-- A live table has the foreign keys of a column in the schema. -/
def LiveTable.HasKeysOf (live : LiveTable Cells) (target : TargetTable) (column : TargetColumn) :
    Prop :=
  ∀ key, key ∈ keysOf live.keys column.name ↔ key ∈ keysOf target.keys column.name

/-- What the schema declares of a column is what a live table has, or gets when the column
is added. -/
structure LiveTable.Suits (live : LiveTable Cells) (target : TargetTable) (column : TargetColumn) :
    Prop where
  keys : live.HasKeysOf target column
  retained : ∀ before, live.columns.find? (asciiLower column.name) = some before →
    before.AsDeclared column
  added : live.columns.find? (asciiLower column.name) = none →
    column.isNullable = true ∨ column.default.isSome = true

/-- What the introspection knows of the columns of a table. -/
def knownColumns (file : SqliteFile Cells) (name : String) : LiveColumns :=
  ((collect file.introspect).lookup name).getD ∅

/-- The live table in the place of a table of the schema lets the migration give it the
constraints that the schema declares. -/
def Preserved (file : SqliteFile Cells) (refused : Prop) (live : LiveTable Cells)
    (target : TargetTable) : Prop :=
  if live.IsReported then
    refused ∨ live.name = target.name ∧
      (rebuilds target (knownColumns file live.name) = true ∨
        ∀ column ∈ target.columns, live.Suits target column)
  else
    ∀ column ∈ target.columns, live.HasKeysOf target column ∧
      ∃ before, live.columns.find? (asciiLower column.name) = some before ∧
        before.AsDeclared column

section Preserved

variable {file : SqliteFile Cells} {refused : Prop} {live : LiveTable Cells}
variable {target : TargetTable}

theorem preserved_of_reported (reported : live.IsReported) :
    Preserved file refused live target ↔ refused ∨ live.name = target.name ∧
      (rebuilds target (knownColumns file live.name) = true ∨
        ∀ column ∈ target.columns, live.Suits target column) := by
  rw [Preserved, if_pos reported]

theorem preserved_of_hidden (hidden : ¬ live.IsReported) :
    Preserved file refused live target ↔ ∀ column ∈ target.columns,
      live.HasKeysOf target column ∧
        ∃ before, live.columns.find? (asciiLower column.name) = some before ∧
          before.AsDeclared column := by
  rw [Preserved, if_neg hidden]

end Preserved

section Columns

variable {next : SqliteFile Cells} {target : TargetTable} {column : TargetColumn}
variable {table before : LiveTable Cells} {live : LiveColumns}

theorem constraints_of_column {found : LiveColumn Cells}
    (tableEq : next.tables.find? (asciiLower target.name) = some table)
    (columnEq : table.columns.find? (asciiLower column.name) = some found) :
    next.constraints target.name column.name = some
      ⟨found.notNull, found.unique || next.isIndexed target.name column.name, found.default,
        keysOf table.keys column.name⟩ := by
  rw [SqliteFile.constraints, SqliteFile.table?, tableEq, Option.bind_some, columnEq]
  rfl

/-- A column without an index has the constraints of its definition. -/
theorem same_iff_asDeclared {found : LiveColumn Cells}
    (tableEq : next.tables.find? (asciiLower target.name) = some table)
    (columnEq : table.columns.find? (asciiLower column.name) = some found)
    (plain : next.isIndexed target.name column.name = false) :
    Option.Rel ColumnConstraints.Same (next.constraints target.name column.name)
        (some (target.declares column)) ↔
      table.HasKeysOf target column ∧ found.AsDeclared column := by
  rw [constraints_of_column tableEq columnEq, plain, Bool.or_false, Option.rel_some_some]
  constructor
  · intro same
    exact ⟨same.keys, same.notNull, same.unique, same.default⟩
  · rintro ⟨keys, asDeclared⟩
    exact ⟨asDeclared.notNull, asDeclared.unique, asDeclared.default, keys⟩

/-- A table that stays as it is has the constraints that the schema declares if it had
them. -/
theorem same_iff_of_kept (tableEq : next.tables.find? (asciiLower target.name) = some table)
    (plain : next.isIndexed target.name column.name = false) :
    Option.Rel ColumnConstraints.Same (next.constraints target.name column.name)
        (some (target.declares column)) ↔
      table.HasKeysOf target column ∧
        ∃ found, table.columns.find? (asciiLower column.name) = some found ∧
          found.AsDeclared column := by
  cases columnEq : table.columns.find? (asciiLower column.name) with
  | some found =>
      rw [same_iff_asDeclared tableEq columnEq plain]
      simp
  | none =>
      have absent : next.constraints target.name column.name = none := by
        rw [SqliteFile.constraints, SqliteFile.table?, tableEq, Option.bind_some, columnEq]
        rfl
      rw [absent]
      refine iff_of_false ?_ (by simp)
      rintro ⟨⟩

namespace LiveTable.IsAltered

/-- A column that a table of the schema adds is not there. -/
theorem find?_none_of_added (altered : table.IsAltered target live before)
    (member : column ∈ addedColumns target live) :
    before.columns.find? (asciiLower column.name) = none := by
  obtain ⟨added, _, addedEq, fresh⟩ := altered.columns
  obtain ⟨other, otherIn, _, otherKey⟩ := exists_of_definitions addedEq member
  refine Catalog.find?_eq_none.mpr fun found foundIn sameKey => ?_
  exact fresh found foundIn other otherIn (sameKey.trans otherKey.symm)

/-- A column that is not there is added. -/
theorem mem_added (alters : rebuilds target live = false) (described : before.IsDescribedBy live)
    (member : column ∈ target.columns)
    (absent : before.columns.find? (asciiLower column.name) = none) :
    column ∈ addedColumns target live := by
  rcases (compared_of_not_rebuilds alters).1.matched column member with added | ⟨ty, known, _⟩
  · exact added
  · obtain ⟨found, foundIn, foundName, _⟩ := (described _ _ _).mp known
    exact absurd (congrArg asciiLower foundName) (Catalog.find?_eq_none.mp absent found foundIn)

/-- An altered table has the constraints that the schema declares if what was there had
them, if what was added may be null unless it has a default, and if there is an index for
each column that was added and is unique. -/
theorem same_iff (altered : table.IsAltered target live before)
    (alters : rebuilds target live = false) (described : before.IsDescribedBy live)
    (tableEq : next.tables.find? (asciiLower target.name) = some table)
    (member : column ∈ target.columns)
    (indexed : next.isIndexed target.name column.name = true →
      column ∈ addedColumns target live ∧ column.isUnique = true) :
    Option.Rel ColumnConstraints.Same (next.constraints target.name column.name)
        (some (target.declares column)) ↔
      before.Suits target column ∧ (column ∈ addedColumns target live → column.isUnique = true →
        next.isIndexed target.name column.name = true) := by
  have keys : table.HasKeysOf target column ↔ before.HasKeysOf target column := by
    rw [LiveTable.HasKeysOf, altered.keys, LiveTable.HasKeysOf]
  cases found : before.columns.find? (asciiLower column.name) with
  | some old =>
      have notAdded : column ∉ addedColumns target live := fun inside =>
        nomatch found.symm.trans (altered.find?_none_of_added inside)
      have plain : next.isIndexed target.name column.name = false :=
        Bool.eq_false_iff.mpr fun isIndexed => notAdded (indexed isIndexed).1
      obtain ⟨oldIn, oldKey⟩ := Catalog.find?_eq_some.mp found
      have columnEq : table.columns.find? (asciiLower column.name) = some old :=
        Catalog.find?_eq_some.mpr
          ⟨altered.mem_of_key alters described oldIn member oldKey, oldKey⟩
      rw [same_iff_asDeclared tableEq columnEq plain, keys]
      constructor
      · rintro ⟨sameKeys, asDeclared⟩
        refine ⟨⟨sameKeys, fun other same => ?_, fun none => nomatch found.symm.trans none⟩,
          fun inside => absurd inside notAdded⟩
        cases found.symm.trans same
        exact asDeclared
      · rintro ⟨suits, _⟩
        exact ⟨suits.keys, suits.retained old found⟩
  | none =>
      have inside := mem_added alters described member found
      have notPrimary := (compared_of_not_rebuilds alters).1.notPrimary column inside
      obtain ⟨added, items, addedEq, _⟩ := altered.columns
      obtain ⟨made, madeIn, madeEq, madeKey⟩ := exists_of_definitions addedEq inside
      have columnEq : table.columns.find? (asciiLower column.name) = some made :=
        Catalog.find?_eq_some.mpr ⟨items ▸ List.mem_append_right _ madeIn, madeKey⟩
      rw [constraints_of_column tableEq columnEq, madeEq, Option.rel_some_some]
      have declaredNull : (target.declares column).notNull = !column.isNullable := by
        rw [TargetTable.declares, createColumn, notPrimary, Bool.false_or]
      have declaredUnique : (target.declares column).unique = column.isUnique := by
        rw [TargetTable.declares, createColumn, notPrimary, Bool.not_false, Bool.true_and]
      constructor
      · intro same
        have sameNull := same.notNull.trans declaredNull
        have sameUnique := same.unique.trans declaredUnique
        refine ⟨⟨keys.mp same.keys, fun old here => ?_, fun _ => ?_⟩, fun _ unique => ?_⟩
        · cases found.symm.trans here
        · cases nullable : column.isNullable with
          | true => exact Or.inl rfl
          | false =>
              rw [alterColumn, nullable, Bool.not_false, Bool.and_true] at sameNull
              exact Or.inr sameNull
        · rw [alterColumn, Bool.false_or, unique] at sameUnique
          exact sameUnique
      · rintro ⟨suits, hasIndex⟩
        refine ⟨?_, ?_, rfl, keys.mpr suits.keys⟩
        · rw [declaredNull, alterColumn]
          rcases suits.added found with nullable | default
          · rw [nullable, Bool.not_true, Bool.and_false]
          · rw [default, Bool.true_and]
        · rw [declaredUnique, alterColumn, Bool.false_or]
          cases unique : column.isUnique with
          | true => exact hasIndex inside unique
          | false =>
              refine Bool.eq_false_iff.mpr fun isIndexed => ?_
              rw [(indexed isIndexed).2] at unique
              cases unique

end LiveTable.IsAltered

end Columns

/-- SQLite refuses a statement of a batch. -/
def Refused (sqlite : Sqlite Cells) (file : SqliteFile Cells) (sql : List SqliteStatement) : Prop :=
  ∃ reason, execute sqlite file sql = .error reason

section Accepted

variable {sqlite : Sqlite Cells} {hashing : HashOrder} {tables : List TargetTable}
variable {hash : SchemaHash} {file fresh next : SqliteFile Cells} {target : TargetTable}
variable {column : TargetColumn}

/-- What is not `__meta__` stays as it is when `__meta__` is created. -/
theorem eq_of_completed_meta {key : String} {before after : Option (LiveTable Cells)}
    (completed : Completed [metaTable] key before after) (apart : asciiLower metaTable.name ≠ key) :
    after = before := by
  rcases completed with ⟨table, rfl, rfl⟩ | ⟨rfl, created⟩
  · rfl
  · rw [createdFirst_cons_of_ne apart] at created
    cases created
    rfl

/-- A column that is indexed after the first batch was added, and has the index made for it. -/
theorem of_isIndexed (creates : Creates sqlite tables hash fresh) (lawful : sqlite.Lawful)
    (none : file.indexes.items = []) (run : Steps SqliteFile.Step file
      (alterDdl hashing tables (collect file.introspect) hash) next)
    (targetIn : target ∈ tables) (columnIn : column ∈ target.columns)
    (indexed : next.isIndexed target.name column.name = true) :
    uniqueIndexOf target column ∈ next.indexes.items ∧
      ∃ live, (collect file.introspect).lookup target.name = some live ∧
        rebuilds target live = false ∧ column ∈ addedColumns target live ∧
          column.isUnique = true := by
  obtain ⟨index, indexIn, sameTable, sameColumn⟩ := isIndexed_eq_true.mp indexed
  rcases SqliteFile.mem_indexes_of_run run indexIn with before | statement
  · rw [none] at before
    cases before
  obtain ⟨other, otherFirst, live, known, alters, added, addedIn, unique, rfl⟩ :=
    index_of_mem_alterDdl statement
  cases creates.eq_of_key (List.mem_of_find?_eq_some otherFirst) targetIn sameTable
  have inside := (compared_of_not_rebuilds alters).1.sublist.subset addedIn
  cases creates.column_eq lawful targetIn inside columnIn sameColumn
  exact ⟨indexIn, live, known, alters, addedIn, unique⟩

/-- A table that is not altered gets no index. -/
theorem plain_of_unaltered (creates : Creates sqlite tables hash fresh) (lawful : sqlite.Lawful)
    (none : file.indexes.items = []) (run : Steps SqliteFile.Step file
      (alterDdl hashing tables (collect file.introspect) hash) next)
    (targetIn : target ∈ tables)
    (unaltered : ∀ live, (collect file.introspect).lookup target.name = some live →
      rebuilds target live = true) :
    (∀ column ∈ target.columns, next.isIndexed target.name column.name = false) ∧
      ∀ index : UniqueIndex,
        index.statement ∈ alterDdl hashing tables (collect file.introspect) hash →
          index.table ≠ target.name := by
  constructor
  · intro column columnIn
    refine Bool.eq_false_iff.mpr fun indexed => ?_
    obtain ⟨_, live, known, alters, _⟩ :=
      of_isIndexed creates lawful none run targetIn columnIn indexed
    cases alters.symm.trans (unaltered live known)
  · intro index statement sameTable
    obtain ⟨other, otherFirst, live, known, alters, column, _, _, rfl⟩ :=
      index_of_mem_alterDdl statement
    cases creates.eq_of_key (List.mem_of_find?_eq_some otherFirst) targetIn
      (congrArg asciiLower sameTable)
    cases alters.symm.trans (unaltered live known)

/-- An altered table has the constraints that the schema declares if the live table lets
it, and its indexes are there. -/
theorem same_iff_of_altered (creates : Creates sqlite tables hash fresh)
    (lawful : sqlite.Lawful) (none : file.indexes.items = [])
    (run : Steps SqliteFile.Step file
      (alterDdl hashing tables (collect file.introspect) hash) next)
    (targetIn : target ∈ tables) {before table : LiveTable Cells} {live : LiveColumns}
    (known : (collect file.introspect).lookup target.name = some live)
    (goes : (tables.find? fun other => other.name = target.name) = some target)
    (alters : rebuilds target live = false) (described : before.IsDescribedBy live)
    (altered : table.IsAltered target live before)
    (tableEq : next.tables.find? (asciiLower target.name) = some table) :
    (∀ column ∈ target.columns, Option.Rel ColumnConstraints.Same
        (next.constraints target.name column.name) (some (target.declares column))) ↔
      (∀ column ∈ target.columns, before.Suits target column) ∧
      ∀ index : UniqueIndex,
        index.statement ∈ alterDdl hashing tables (collect file.introspect) hash →
          index.table = target.name → index ∈ next.indexes.items := by
  have indexed : ∀ column ∈ target.columns,
      next.isIndexed target.name column.name = true →
        uniqueIndexOf target column ∈ next.indexes.items ∧
          column ∈ addedColumns target live ∧ column.isUnique = true := by
    intro column columnIn isIndexed
    obtain ⟨index, other, otherKnown, _, added, isUnique⟩ :=
      of_isIndexed creates lawful none run targetIn columnIn isIndexed
    cases known.symm.trans otherKnown
    exact ⟨index, added, isUnique⟩
  have each := fun column columnIn => altered.same_iff alters described tableEq columnIn
    fun isIndexed => (indexed column columnIn isIndexed).2
  constructor
  · intro all
    refine ⟨fun column columnIn => ((each column columnIn).mp (all column columnIn)).1, ?_⟩
    intro index statement sameTable
    obtain ⟨other, otherFirst, others, othersKnown, _, column, added, isUnique, rfl⟩ :=
      index_of_mem_alterDdl statement
    cases creates.eq_of_key (List.mem_of_find?_eq_some otherFirst) targetIn
      (congrArg asciiLower sameTable)
    cases known.symm.trans othersKnown
    have columnIn := (compared_of_not_rebuilds alters).1.sublist.subset added
    have hasIndex := ((each column columnIn).mp (all column columnIn)).2 added isUnique
    exact (indexed column columnIn hasIndex).1
  · rintro ⟨suits, indexes⟩ column columnIn
    refine (each column columnIn).mpr ⟨suits column columnIn, fun added isUnique => ?_⟩
    have statement : (uniqueIndexOf target column).statement ∈
        alterDdl hashing tables (collect file.introspect) hash := by
      refine mem_alterDdl_of_mem goes ?_
      rw [known, writeAlterTable, if_neg (Bool.eq_false_iff.mp alters)]
      refine List.mem_append_left _ (List.mem_flatMap.mpr ⟨column, added, ?_⟩)
      refine List.mem_cons_of_mem _ ?_
      rw [if_pos isUnique]
      exact List.mem_singleton_self _
    exact isIndexed_eq_true.mpr ⟨_, indexes _ statement rfl, rfl, rfl⟩

/-- A table of the schema has the constraints that the schema declares after the first
batch if the live table in its place lets it, and its indexes are there. -/
theorem same_iff_of_accepted (creates : Creates sqlite tables hash fresh)
    (lawful : sqlite.Lawful) (none : file.indexes.items = [])
    (run : Steps SqliteFile.Step file
      (alterDdl hashing tables (collect file.introspect) hash) next)
    (targetIn : target ∈ tables) :
    (∀ column ∈ target.columns, Option.Rel ColumnConstraints.Same
        (next.constraints target.name column.name) (some (target.declares column))) ↔
      (∀ live ∈ file.tables.items, live.key = asciiLower target.name →
        Preserved file False live target) ∧
      ∀ index : UniqueIndex,
        index.statement ∈ alterDdl hashing tables (collect file.introspect) hash →
          index.table = target.name → index ∈ next.indexes.items := by
  obtain ⟨made, outcome, completed⟩ := find?_alterDdl run (asciiLower target.name)
  have tableEq := eq_of_completed_meta completed (creates.not_meta targetIn)
  have known_of_lookup : ∀ {columns}, (collect file.introspect).lookup target.name = some columns →
      ∃ live, file.tables.find? (asciiLower target.name) = some live ∧ live.IsReported ∧
        live.name = target.name := by
    intro columns known
    obtain ⟨live, liveIn, reported, name, _⟩ := exists_of_lookup_collect known
    exact ⟨live, Catalog.find?_eq_some.mpr ⟨liveIn, congrArg asciiLower name⟩, reported, name⟩
  cases outcome with
  | @kept before found hidden =>
      obtain ⟨plain, apart⟩ := plain_of_unaltered creates lawful none run targetIn
        fun columns known => by
          obtain ⟨live, liveFound, reported, _⟩ := known_of_lookup known
          cases found.symm.trans liveFound
          exact absurd reported hidden
      rw [and_iff_left fun index statement sameTable => absurd sameTable (apart index statement)]
      rw [Catalog.forall_key_iff found, preserved_of_hidden hidden]
      exact forall₂_congr fun column columnIn => same_iff_of_kept tableEq (plain column columnIn)
  | @migrated before live goal table found reported described known goes migrated =>
      obtain ⟨beforeIn, beforeKey⟩ := Catalog.find?_eq_some.mp found
      have goalName : goal.name = before.name := by simpa using List.find?_some goes
      cases creates.eq_of_key (List.mem_of_find?_eq_some goes) targetIn
        ((congrArg asciiLower goalName).trans beforeKey)
      have columns : knownColumns file before.name = live := by
        rw [knownColumns, known]
        rfl
      have preserved_iff : (∀ live ∈ file.tables.items, live.key = asciiLower target.name →
          Preserved file False live target) ↔ rebuilds target live = true ∨
            ∀ column ∈ target.columns, before.Suits target column := by
        rw [Catalog.forall_key_iff found, preserved_of_reported reported, false_or,
          and_iff_right goalName.symm, columns]
      rw [preserved_iff]
      rw [← goalName] at known
      rw [LiveTable.IsMigrated] at migrated
      split at migrated
      · rename_i rebuilt
        obtain ⟨plain, apart⟩ := plain_of_unaltered creates lawful none run targetIn
          fun other otherKnown => by
            cases known.symm.trans otherKnown
            exact rebuilt
        refine iff_of_true (fun column columnIn => ?_) ⟨Or.inl rebuilt, fun index statement
          sameTable => absurd sameTable (apart index statement)⟩
        rw [constraints_of_created tableEq migrated columnIn (plain column columnIn)]
        exact .some (.refl _)
      · rename_i alters
        have alters := Bool.eq_false_iff.mpr alters
        rw [alters]
        simp only [Bool.false_eq_true, false_or]
        exact same_iff_of_altered creates lawful none run targetIn known (goalName ▸ goes) alters
          described migrated tableEq
  | @dropped before found reported left =>
      rw [Catalog.forall_key_iff found, preserved_of_reported reported, false_or]
      refine iff_of_false ?_ ?_
      · intro all
        obtain ⟨table, _, isCreated⟩ := creates.table lawful targetIn
        obtain ⟨column, columnIn⟩ := List.exists_mem_of_ne_nil target.columns fun empty =>
          isCreated.nonempty (by rw [createDef, empty, List.map_nil])
        have gone : next.constraints target.name column.name = Option.none := by
          rw [SqliteFile.constraints, SqliteFile.table?, tableEq]
          rfl
        have impossible := all column columnIn
        rw [gone] at impossible
        cases impossible
      · rintro ⟨⟨sameName, _⟩, _⟩
        have apart := List.find?_eq_none.mp left target targetIn
        simp [sameName] at apart
  | created absent created =>
      obtain ⟨table, rfl, isCreated⟩ := creates.createdFirst targetIn created
      obtain ⟨plain, apart⟩ := plain_of_unaltered creates lawful none run targetIn
        fun columns known => by
          obtain ⟨live, liveFound, _⟩ := known_of_lookup known
          cases absent.symm.trans liveFound
      refine iff_of_true (fun column columnIn => ?_) ⟨Catalog.forall_key_of_none absent,
        fun index statement sameTable => absurd sameTable (apart index statement)⟩
      rw [constraints_of_created tableEq isCreated columnIn (plain column columnIn)]
      exact .some (.refl _)

end Accepted

section Migrations

variable {Interner : Type} [InternerOps Interner] {old schema : DatabaseSchema Interner}
variable {sqlite : Sqlite Cells} {hashing : HashOrder} {tables oldTables : List TargetTable}
variable {hash : SchemaHash} {file emptied fresh next : SqliteFile Cells} {target : TargetTable}

/-- After the second plan, a table of the schema has the constraints that the schema
declares if no hidden table is in its place, or one that has them. -/
theorem same_iff_of_refused (creates : Creates sqlite tables hash fresh)
    (none : file.indexes.items = [])
    (dropping : Steps SqliteFile.Step file (dropAllDdl hashing (collect file.introspect)) emptied)
    (creating : Steps SqliteFile.Step emptied (buildDdl tables hash) next)
    (targetIn : target ∈ tables) :
    (∀ column ∈ target.columns, Option.Rel ColumnConstraints.Same
        (next.constraints target.name column.name) (some (target.declares column))) ↔
      ∀ live ∈ file.tables.items, live.key = asciiLower target.name →
        Preserved file True live target := by
  have emptiedNone : emptied.indexes.items = [] := by
    refine List.eq_nil_iff_forall_not_mem.mpr fun index member => ?_
    rcases SqliteFile.mem_indexes_of_run dropping member with before | statement
    · rw [none] at before
      cases before
    · obtain ⟨_, _, drop⟩ := List.mem_map.mp statement
      cases drop
  have plain := isIndexed_of_nil (indexes_of_buildDdl creating emptiedNone)
  have completed := find?_buildDdl creating (asciiLower target.name)
  rw [find?_dropAllDdl dropping] at completed
  have created : Completed (tables.map createDef ++ [syncLogTable, metaTable])
      (asciiLower target.name) Option.none (next.tables.find? (asciiLower target.name)) →
        ∀ column ∈ target.columns, Option.Rel ColumnConstraints.Same
          (next.constraints target.name column.name) (some (target.declares column)) := by
    intro completed column columnIn
    obtain ⟨table, tableEq, isCreated⟩ := creates.completed targetIn completed
    rw [constraints_of_created tableEq isCreated columnIn (plain _ _)]
    exact .some (.refl _)
  cases found : file.tables.find? (asciiLower target.name) with
  | none =>
      rw [found] at completed
      exact iff_of_true (created completed) (Catalog.forall_key_of_none found)
  | some before =>
      rw [Catalog.forall_key_iff found]
      rw [found] at completed
      by_cases reported : before.IsReported
      · have gone : (some before).filter (fun table => ¬ table.IsReported) = Option.none :=
          Option.filter_some_neg (by simpa using reported)
        rw [gone] at completed
        rw [preserved_of_reported reported]
        exact iff_of_true (created completed) (Or.inl trivial)
      · have stays : (some before).filter (fun table => ¬ table.IsReported) = some before :=
          Option.filter_some_pos (decide_eq_true reported)
        rw [stays] at completed
        rw [preserved_of_hidden reported]
        rcases completed with ⟨table, same, tableEq⟩ | ⟨absent, _⟩
        · cases same
          exact forall₂_congr fun column _ => same_iff_of_kept tableEq (plain _ _)
        · cases absent

theorem sameConstraints_iff_declared (creates : Creates sqlite tables hash fresh)
    (lawful : sqlite.Lawful) : SameConstraints tables next fresh ↔
      ∀ target ∈ tables, ∀ column ∈ target.columns, Option.Rel ColumnConstraints.Same
        (next.constraints target.name column.name) (some (target.declares column)) := by
  have none := indexes_of_buildDdl (steps_of_execute lawful creates.ran) rfl
  refine forall₂_congr fun target targetIn => forall₂_congr fun column columnIn => ?_
  obtain ⟨table, found, isCreated⟩ := creates.table lawful targetIn
  rw [constraints_of_created found isCreated columnIn (isIndexed_of_nil none _ _)]

/-- A database that is created and migrated has the constraints of one that is created
anew exactly if the live table in the place of each table of the schema lets it, and the
indexes of the first batch have names of their own if it is accepted. -/
theorem alterTables_sameConstraints_iff (lawful : sqlite.Lawful)
    (read : readTables schema = .ok tables)
    (made : Creates sqlite oldTables old.hash file) (anew : Creates sqlite tables schema.hash fresh)
    (success : alterTables sqlite hashing schema file = .ok next) :
    SameConstraints tables next fresh ↔
      (∀ target ∈ tables, ∀ live ∈ file.tables.items, live.key = asciiLower target.name →
        Preserved file (Refused sqlite file
          (alterDdl hashing tables (collect file.introspect) schema.hash)) live target) ∧
      (Refused sqlite file (alterDdl hashing tables (collect file.introspect) schema.hash) ∨
        DistinctIndexes (alterDdl hashing tables (collect file.introspect) schema.hash)) := by
  have none := indexes_of_buildDdl (steps_of_execute lawful made.ran) rfl
  rw [sameConstraints_iff_declared anew lawful]
  rcases ((alterTables_eq_ok read).mp success).2.2 with
    ⟨ran, _⟩ | ⟨refused, emptied, dropped, _, created⟩
  · have accepted : Refused sqlite file
        (alterDdl hashing tables (collect file.introspect) schema.hash) ↔ False := by
      refine iff_of_false ?_ id
      rintro ⟨reason, refused⟩
      cases ran.symm.trans refused
    have run := steps_of_execute lawful ran
    rw [← indexes_iff_distinct run (by simp [none])]
    simp only [accepted, false_or]
    have each := fun target (targetIn : target ∈ tables) =>
      same_iff_of_accepted anew lawful none run targetIn
    rw [forall₂_congr each, forall₂_and]
    -- An index of the first batch is on a table of the schema.
    refine and_congr_right' ⟨fun all index statement => ?_, fun all _ _ index statement _ =>
      all index statement⟩
    obtain ⟨target, first, _, _, _, _, _, _, rfl⟩ := index_of_mem_alterDdl statement
    exact all target (List.mem_of_find?_eq_some first) _ statement rfl
  · have refusedIff : Refused sqlite file
        (alterDdl hashing tables (collect file.introspect) schema.hash) ↔ True :=
      iff_true_intro refused
    obtain ⟨_, built, _⟩ := (createTables_eq_ok read).mp created
    rw [refusedIff]
    simp only [true_or, and_true]
    exact forall₂_congr fun target targetIn => same_iff_of_refused anew none
      (steps_of_execute lawful dropped) (steps_of_execute lawful built) targetIn

end Migrations

section Samples

/-- Users whose id is a number, and users whose id is a text. -/
def numberedUsers : List RawRow := [plainRow "users" "id" true]

def namedUsers : List RawRow := [{ plainRow "users" "id" true with dataType := "text" }]

theorem alterTables_sameConstraints_iff_named :
    ∃ (old schema : DatabaseSchema (StringInterner ⟨.debug, fun _ => 0⟩))
      (oldTables tables : List TargetTable) (file fresh next : SqliteFile Unit),
      buildStable ⟨.debug, fun _ => 0⟩ numberedUsers = .ok old ∧
      buildStable ⟨.debug, fun _ => 0⟩ namedUsers = .ok schema ∧
      readTables schema = .ok tables ∧
      Creates (.plain .empty) oldTables old.hash file ∧
      Creates (.plain .empty) tables schema.hash fresh ∧
      alterTables (.plain .empty) .byEntry schema file = .ok next ∧
      SameConstraints tables next fresh := by
  have ran : ((buildStable ⟨.debug, fun _ => 0⟩ numberedUsers).toOption.bind fun old =>
      (buildStable ⟨.debug, fun _ => 0⟩ namedUsers).toOption.bind fun schema =>
      (readTables old).toOption.bind fun oldTables =>
      (readTables schema).toOption.bind fun tables =>
      (execute (.plain .empty) .empty (buildDdl oldTables old.hash)).toOption.bind fun file =>
      (execute (.plain .empty) .empty (buildDdl tables schema.hash)).toOption.bind fun _ =>
      (alterTables (.plain .empty) .byEntry schema file).toOption.map fun _ =>
        decide (((oldTables.map createDef ++ [syncLogTable, metaTable]).map fun definition =>
            asciiLower definition.name).Nodup ∧
          ((tables.map createDef ++ [syncLogTable, metaTable]).map fun definition =>
            asciiLower definition.name).Nodup ∧
          ∀ target ∈ tables, ∀ live ∈ file.tables.items, live.key = asciiLower target.name →
            live.IsReported ∧ live.name = target.name ∧
              rebuilds target (knownColumns file live.name) = true)) = some true := by
    decide +kernel
  obtain ⟨old, oldBuilt, ran⟩ := Option.bind_eq_some_iff.mp ran
  obtain ⟨schema, built, ran⟩ := Option.bind_eq_some_iff.mp ran
  obtain ⟨oldTables, _, ran⟩ := Option.bind_eq_some_iff.mp ran
  obtain ⟨tables, read, ran⟩ := Option.bind_eq_some_iff.mp ran
  obtain ⟨file, fileMade, ran⟩ := Option.bind_eq_some_iff.mp ran
  obtain ⟨fresh, freshMade, ran⟩ := Option.bind_eq_some_iff.mp ran
  obtain ⟨next, altered, ran⟩ := Option.map_eq_some_iff.mp ran
  obtain ⟨oldDistinct, distinct, rebuilt⟩ := of_decide_eq_true ran
  have read := toOption_eq_some.mp read
  have altered := toOption_eq_some.mp altered
  have made : Creates (.plain .empty) oldTables old.hash file :=
    ⟨toOption_eq_some.mp fileMade, oldDistinct⟩
  have anew : Creates (.plain .empty) tables schema.hash fresh :=
    ⟨toOption_eq_some.mp freshMade, distinct⟩
  refine ⟨old, schema, oldTables, tables, file, fresh, next, toOption_eq_some.mp oldBuilt,
    toOption_eq_some.mp built, read, made, anew, altered,
    (alterTables_sameConstraints_iff (Sqlite.plain_lawful .empty) read made anew altered).mpr
      ⟨?_, Or.inr ?_⟩⟩
  · intro target targetIn live liveIn sameKey
    obtain ⟨reported, sameName, rebuilds⟩ := rebuilt target targetIn live liveIn sameKey
    rw [preserved_of_reported reported]
    exact Or.inr ⟨sameName, Or.inl rebuilds⟩
  · -- No table is altered, so no index is created.
    intro index other statement
    obtain ⟨target, first, columns, known, alters, _⟩ := index_of_mem_alterDdl statement
    have targetIn := List.mem_of_find?_eq_some first
    obtain ⟨live, liveIn, _, name, _⟩ := exists_of_lookup_collect known
    obtain ⟨_, _, rebuilds⟩ := rebuilt target targetIn live liveIn (congrArg asciiLower name)
    rw [knownColumns, name, known, Option.getD_some] at rebuilds
    cases alters.symm.trans rebuilds

/-- A column that may not be null and has no default is added as one that may be null. -/
theorem not_sameConstraints_age :
    ∃ (old schema : DatabaseSchema (StringInterner ⟨.debug, fun _ => 0⟩))
      (oldTables tables : List TargetTable) (file fresh next : SqliteFile Unit),
      buildStable ⟨.debug, fun _ => 0⟩ numberedUsers = .ok old ∧
      buildStable ⟨.debug, fun _ => 0⟩ userRows = .ok schema ∧
      readTables schema = .ok tables ∧
      Creates (.plain .empty) oldTables old.hash file ∧
      Creates (.plain .empty) tables schema.hash fresh ∧
      alterTables (.plain .empty) .byEntry schema file = .ok next ∧
      ¬ SameConstraints tables next fresh := by
  have ran : ((buildStable ⟨.debug, fun _ => 0⟩ numberedUsers).toOption.bind fun old =>
      (buildStable ⟨.debug, fun _ => 0⟩ userRows).toOption.bind fun schema =>
      (readTables old).toOption.bind fun oldTables =>
      (readTables schema).toOption.bind fun tables =>
      (execute (.plain .empty) .empty (buildDdl oldTables old.hash)).toOption.bind fun file =>
      (execute (.plain .empty) .empty (buildDdl tables schema.hash)).toOption.bind fun fresh =>
      (alterTables (.plain .empty) .byEntry schema file).toOption.map fun next =>
        decide (((oldTables.map createDef ++ [syncLogTable, metaTable]).map fun definition =>
            asciiLower definition.name).Nodup ∧
          ((tables.map createDef ++ [syncLogTable, metaTable]).map fun definition =>
            asciiLower definition.name).Nodup ∧
          ∃ target ∈ tables, ∃ column ∈ target.columns,
            (next.constraints target.name column.name).map ColumnConstraints.notNull ≠
              (fresh.constraints target.name column.name).map ColumnConstraints.notNull)) =
      some true := by decide +kernel
  obtain ⟨old, oldBuilt, ran⟩ := Option.bind_eq_some_iff.mp ran
  obtain ⟨schema, built, ran⟩ := Option.bind_eq_some_iff.mp ran
  obtain ⟨oldTables, _, ran⟩ := Option.bind_eq_some_iff.mp ran
  obtain ⟨tables, read, ran⟩ := Option.bind_eq_some_iff.mp ran
  obtain ⟨file, fileMade, ran⟩ := Option.bind_eq_some_iff.mp ran
  obtain ⟨fresh, freshMade, ran⟩ := Option.bind_eq_some_iff.mp ran
  obtain ⟨next, altered, ran⟩ := Option.map_eq_some_iff.mp ran
  obtain ⟨oldDistinct, distinct, target, targetIn, column, columnIn, differs⟩ :=
    of_decide_eq_true ran
  refine ⟨old, schema, oldTables, tables, file, fresh, next, toOption_eq_some.mp oldBuilt,
    toOption_eq_some.mp built, toOption_eq_some.mp read,
    ⟨toOption_eq_some.mp fileMade, oldDistinct⟩,
    ⟨toOption_eq_some.mp freshMade, distinct⟩, toOption_eq_some.mp altered, fun same => ?_⟩
  have related := same target targetIn column columnIn
  revert differs related
  cases next.constraints target.name column.name <;>
    cases fresh.constraints target.name column.name
  · exact fun differs _ => differs rfl
  · exact fun _ => nofun
  · exact fun _ => nofun
  · rintro differs ⟨related⟩
    exact differs (congrArg some related.notNull)

end Samples

end Boomerang
