import Boomerang.Schema.ForeignKeys
import Boomerang.Schema.Lookup

/-!
# The columns that were added

The columns of a table read back in the order of the calls of `add_row`, whatever became of
the foreign keys. Only the counts of tables, columns and checks have to fit their fields.
-/

namespace Boomerang

open Foundation

/-- There are at most 65535 tables, with at most 65535 columns each. -/
structure Indexable {Name Kind : Type} (groups : List (List (Row Name Kind))) : Prop where
  tables : groups.length < u16Range
  columns : ∀ group ∈ groups, group.length < u16Range

theorem Indexable.total {Name Kind : Type} {groups : List (List (Row Name Kind))}
    (indexable : Indexable groups) : groups.flatten.length < u32Range :=
  Narrow.total indexable.tables indexable.columns

/-- The table of a group, none of the bounds of its columns being cut. -/
structure OwnsColumns (groups : List (List SymbolRow)) (old : Nat) (group : List SymbolRow)
    (info : TableMeta) : Prop where
  source : groups[old]? = some group
  nonempty : group ≠ []
  name : ∀ row ∈ group, row.tableName = info.name
  columnsStart : info.columnsStart = (groups.take old).flatten.length
  columnsLen : info.columnsLen = group.length
  primaryKey : info.primaryKey = lastPrimary group

section Steps

variable {Interner : Type} {unstable : UnstableSort (TableMeta × Nat) Symbol}
variable {pools : SchemaPools} {groups : List (List SymbolRow)} {resolved : List ResolvedFk}
variable {order : List Nat} {ordered : List TableMeta} {schema : DatabaseSchema Interner}

theorem BuildSteps.ownsColumns (steps : BuildSteps unstable pools resolved order ordered schema)
    (tables : AreTables groups pools.tables) (indexable : Indexable groups) {index old : Nat}
    {group : List SymbolRow} (place : order[index]? = some old)
    (here : groups[old]? = some group) :
    ∃ info, schema.tables[index]? = some info ∧ OwnsColumns groups old group info := by
  obtain ⟨before, after, isTable, afterHere, remapped⟩ := steps.remapped tables place here
  obtain ⟨name, columnsStart, columnsLen, primaryKey⟩ := TableMeta.remap_ok remapped
  have total := indexable.total
  rw [flatten_eq_of_getElem? here, List.length_append, List.length_append] at total
  have few := indexable.columns group (List.mem_of_getElem? here)
  refine ⟨after, afterHere, here, isTable.nonempty, ?_, ?_, ?_, ?_⟩
  · exact fun row member => (isTable.name row member).trans name.symm
  · rw [columnsStart, isTable.columnsStart, Nat.mod_eq_of_lt (by omega)]
  · rw [columnsLen, isTable.columnsLen, Nat.mod_eq_of_lt few]
  · exact primaryKey.trans isTable.primaryKey

/-- A column is that of its row but for the foreign keys. -/
theorem BuildSteps.column_rest (steps : BuildSteps unstable pools resolved order ordered schema)
    (holds : HoldsRows pools groups) {index : Nat} {row : SymbolRow}
    (here : groups.flatten[index]? = some row) :
    ∃ column, schema.columns[index]? = some column ∧
      column.name = row.columnName ∧ column.defaultValue = row.defaultExpr ∧
      column.flags = .ofRow row.nullable row.isPrimary row.isUnique ∧
      column.constraints = (columnOf (groups.flatten.take index) row).constraints := by
  have before := holds.column index row here
  rcases mapM_getElem? steps.columns index with ⟨none, _⟩ | ⟨_, column, there, columnHere, remapped⟩
  · cases none.symm.trans before
  · cases there.symm.trans before
    obtain ⟨range, _, success⟩ := bind_eq_ok.mp remapped
    cases success
    exact ⟨_, columnHere, rfl, rfl, rfl, rfl⟩

/-- The checks of a row are where its column says, when their counts are not cut. -/
theorem BuildSteps.checks_ok (steps : BuildSteps unstable pools resolved order ordered schema)
    (holds : HoldsRows pools groups) {index : Nat} {row : SymbolRow}
    (here : groups.flatten[index]? = some row)
    (few : row.checks.length < u16Range)
    (total : (groups.flatten.flatMap Row.checks).length < u32Range) :
    let range := (columnOf (groups.flatten.take index) row).constraints
    ranged schema.constraintPool range.start range.len = .ok row.checks := by
  have lists : (groups.flatten.map Row.checks)[index]? = some row.checks := by
    rw [List.getElem?_map, here]
    rfl
  have split : groups.flatten.flatMap Row.checks =
      (groups.flatten.take index).flatMap Row.checks ++ row.checks ++
        (groups.flatten.drop (index + 1)).flatMap Row.checks := by
    rw [List.flatMap_def, flatten_eq_of_getElem? lists, ← List.map_take, ← List.map_drop]
    rfl
  rw [split, List.length_append, List.length_append] at total
  dsimp only [columnOf]
  rw [Nat.mod_eq_of_lt few, Nat.mod_eq_of_lt (by omega), steps.constraintPool,
    holds.constraintPool, split]
  exact ranged_middle _ _ _

end Steps

/-- The counts of some rows fit the fields that the columns are read through. -/
structure ReadableCounts (rows : List RawRow) : Prop where
  indexable : Indexable (tableGroups rows)
  checks : ∀ row ∈ rows, row.checks.length < u16Range
  allChecks : (rows.flatMap Row.checks).length < u32Range

/-- The rows of a group are those of its table when they follow each other. -/
theorem Consecutive.filter_eq {Name Kind : Type} [DecidableEq Name]
    {groups : List (List (Row Name Kind))} (consecutive : Consecutive groups) {old : Nat}
    {group : List (Row Name Kind)} (here : groups[old]? = some group) {row : Row Name Kind}
    (rowIn : row ∈ group) (same : ∀ other ∈ group, other.tableName = row.tableName) :
    (groups.flatten.filter fun other => other.tableName = row.tableName) = group := by
  obtain ⟨below, rfl⟩ := List.getElem?_eq_some_iff.mp here
  have split : groups = groups.take old ++ groups[old] :: groups.drop (old + 1) := by
    rw [← List.drop_eq_getElem_cons below, List.take_append_drop]
  rw [Consecutive, split] at consecutive
  obtain ⟨_, later, earlier⟩ := List.pairwise_append.mp consecutive
  have before : ((groups.take old).flatten.filter fun other =>
      other.tableName = row.tableName) = [] := by
    refine List.filter_eq_nil_iff.mpr fun other member => ?_
    obtain ⟨list, listIn, otherIn⟩ := List.mem_flatten.mp member
    simpa using earlier list listIn _ List.mem_cons_self other otherIn row rowIn
  have after : ((groups.drop (old + 1)).flatten.filter fun other =>
      other.tableName = row.tableName) = [] := by
    refine List.filter_eq_nil_iff.mpr fun other member => ?_
    obtain ⟨list, listIn, otherIn⟩ := List.mem_flatten.mp member
    simpa using Ne.symm ((List.pairwise_cons.mp later).1 list listIn row rowIn other otherIn)
  have whole : (groups[old].filter fun other => other.tableName = row.tableName) = groups[old] :=
    List.filter_eq_self.mpr fun other member => by simpa using same other member
  rw [flatten_eq_of_getElem? here, List.filter_append, List.filter_append, before, whole, after,
    List.nil_append, List.append_nil]

section ReadsRows

variable {Interner : Type} [InternerOps Interner]

/-- The symbols of some strings, in their order. -/
def Spells (interner : Interner) (texts : List String) (symbols : List Symbol) : Prop :=
  List.Forall₂ (fun text symbol => Names interner symbol text) texts symbols

/-- A column reads what was given for it. -/
structure IsColumnOf (row : RawRow) (column : ColumnRef Interner) : Prop where
  name : column.name = .ok row.columnName
  isNullable : column.isNullable = .ok row.nullable
  isPrimaryKey : column.isPrimaryKey = .ok row.isPrimary
  isUnique : column.isUnique = .ok row.isUnique
  defaultValue : ∃ value, column.defaultValue = .ok value ∧
    Spells column.schema.interner row.defaultExpr.toList value.toList
  constraints : ∃ checks, column.constraints = .ok checks ∧
    Spells column.schema.interner (row.checkDefs ++ row.domainChecks) checks

/-- A table reads the rows that were added for it: one column for each, in their order. -/
structure ReadsRows (table : TableRef Interner) (added : List RawRow)
    (columns : List (ColumnRef Interner)) : Prop where
  tableColumns : table.columns = .ok columns
  each : List.Forall₂ IsColumnOf added columns
  columnNames : ∃ names, table.columnNames = .ok names ∧
    Spells table.schema.interner (added.map Row.columnName) names
  noPrimary : (∀ row ∈ added, row.isPrimary = false) → table.primaryKey = .ok none
  onePrimary : ∀ (place : Nat) (row : RawRow), added[place]? = some row → row.isPrimary = true →
    (∀ (index : Nat) (other : RawRow), added[index]? = some other → other.isPrimary = true →
      index = place) →
    ∃ column, columns[place]? = some column ∧ table.primaryKey = .ok (some column)

theorem SymbolsOf.spells {interner : Interner} {symbols : String → Symbol}
    {strings texts : List String} (names : SymbolsOf interner symbols strings)
    (inside : texts ⊆ strings) : Spells interner texts (texts.map symbols) :=
  List.forall₂_map_right_iff.mpr
    (List.forall₂_same.mpr fun text member => names text (inside member))

variable [LawfulInterner Interner] {unstable : UnstableSort (TableMeta × Nat) Symbol}
variable {rows : List RawRow} {symbols : String → Symbol} {pools : SchemaPools}
variable {resolved : List ResolvedFk} {order : List Nat} {ordered : List TableMeta}
variable {schema : DatabaseSchema Interner}

theorem Indexable.named (indexable : Indexable (tableGroups rows)) (symbols : String → Symbol) :
    Indexable (namedGroups symbols rows) := by
  refine ⟨by rw [namedGroups, List.length_map]; exact indexable.tables, fun group member => ?_⟩
  obtain ⟨raw, rawIn, rfl⟩ := List.mem_map.mp member
  rw [List.length_map]
  exact indexable.columns raw rawIn

/-- The row of a group among the named rows. -/
theorem named_getElem? (symbols : String → Symbol) {old place : Nat} {group : List RawRow}
    {row : RawRow} (here : (tableGroups rows)[old]? = some group)
    (there : group[place]? = some row) :
    row ∈ rows ∧ (namedGroups symbols rows).flatten[
      ((tableGroups rows).take old).flatten.length + place]? = some (row.named symbols) := by
  obtain ⟨below, rfl⟩ := List.getElem?_eq_some_iff.mp there
  have rowHere := getElem?_rows here below
  refine ⟨List.mem_of_getElem? rowHere, ?_⟩
  rw [flatten_namedGroups, List.getElem?_map, rowHere]
  rfl

/-- The name of the column of a row of a group. -/
theorem BuiltFrom.columnName
    (built : BuiltFrom unstable rows symbols pools resolved order ordered schema)
    {old place : Nat} {group : List RawRow} {row : RawRow}
    (here : (tableGroups rows)[old]? = some group) (there : group[place]? = some row) :
    (ColumnRef.mk schema (((tableGroups rows).take old).flatten.length + place)).name =
      .ok row.columnName := by
  obtain ⟨rowIn, namedHere⟩ := named_getElem? symbols here there
  obtain ⟨column, columnHere, name⟩ := built.steps.column_name built.holds namedHere
  refine ColumnRef.name_of_meta columnHere ?_
  rw [name]
  exact built.names.of_mem rowIn (by simp [Row.strings])

/-- The column of a row of a group. -/
theorem BuiltFrom.isColumnOf
    (built : BuiltFrom unstable rows symbols pools resolved order ordered schema)
    (counts : ReadableCounts rows) {old place : Nat} {group : List RawRow} {row : RawRow}
    (here : (tableGroups rows)[old]? = some group) (there : group[place]? = some row) :
    IsColumnOf row
      (ColumnRef.mk schema (((tableGroups rows).take old).flatten.length + place)) := by
  obtain ⟨rowIn, namedHere⟩ := named_getElem? symbols here there
  obtain ⟨column, columnHere, _, defaultValue, flags, constraints⟩ :=
    built.steps.column_rest built.holds namedHere
  have metaEq := indexed_eq_ok.mpr columnHere
  have sameChecks : (row.named symbols).checks = row.checks.map symbols := by
    simp [Row.named, Row.checks]
  have allChecks : ((namedGroups symbols rows).flatten.flatMap Row.checks).length =
      (rows.flatMap Row.checks).length := by
    rw [flatten_namedGroups]
    simp [Row.named, Row.checks, List.length_flatMap, Function.comp_def]
  have checks := built.steps.checks_ok built.holds namedHere
    (by rw [sameChecks, List.length_map]; exact counts.checks _ rowIn)
    (allChecks ▸ counts.allChecks)
  obtain ⟨nullable, isPrimary, isUnique⟩ :=
    ColumnFlags.contains_ofRow row.nullable row.isPrimary row.isUnique
  have rowNames : SymbolsOf schema.interner symbols row.strings :=
    fun text member => built.names.of_mem rowIn member
  refine ⟨built.columnName here there, ?_, ?_, ?_, ⟨column.defaultValue, ?_, ?_⟩,
    ⟨row.checks.map symbols, ?_, ?_⟩⟩
  · exact bind_eq_ok.mpr ⟨column, metaEq, congrArg Except.ok
      ((congrArg (ColumnFlags.contains · .NULLABLE) flags).trans nullable)⟩
  · exact bind_eq_ok.mpr ⟨column, metaEq, congrArg Except.ok
      ((congrArg (ColumnFlags.contains · .PRIMARY_KEY) flags).trans isPrimary)⟩
  · exact bind_eq_ok.mpr ⟨column, metaEq, congrArg Except.ok
      ((congrArg (ColumnFlags.contains · .UNIQUE) flags).trans isUnique)⟩
  · exact bind_eq_ok.mpr ⟨column, metaEq, rfl⟩
  · have spelled := rowNames.spells (show row.defaultExpr.toList ⊆ row.strings by
      intro; simp +contextual [Row.strings])
    rw [defaultValue]
    cases expr : row.defaultExpr with
    | none => simp [Row.named, expr, Spells]
    | some text => simpa [Row.named, expr, Spells] using spelled
  · refine bind_eq_ok.mpr ⟨column, metaEq, ?_⟩
    dsimp only
    rw [constraints, checks, sameChecks]
  · refine rowNames.spells fun text member => ?_
    rw [List.mem_append] at member
    simp only [Row.strings, List.mem_append]
    exact Or.inr (Or.inr (member.imp_right Or.inl))

/-- What the table of a group says about its columns. -/
structure OwnsRows (rows : List RawRow) (symbols : String → Symbol)
    (schema : DatabaseSchema Interner) (old : Nat) (group : List RawRow) (info : TableMeta) :
    Prop where
  columnsStart : info.columnsStart = ((tableGroups rows).take old).flatten.length
  columnsLen : info.columnsLen = group.length
  primaryKey : info.primaryKey = lastPrimary group
  columnNames : ranged schema.columnNames info.columnsStart info.columnsLen =
    .ok ((group.map Row.columnName).map symbols)

theorem BuiltFrom.ownsRows
    (built : BuiltFrom unstable rows symbols pools resolved order ordered schema)
    (indexable : Indexable (tableGroups rows)) {index old : Nat} {group : List RawRow}
    (place : order[index]? = some old) (here : (tableGroups rows)[old]? = some group) :
    ∃ info, schema.tables[index]? = some info ∧ OwnsRows rows symbols schema old group info := by
  have namedHere : (namedGroups symbols rows)[old]? = some (group.map (Row.named symbols)) :=
    namedGroups_getElem? here
  obtain ⟨info, infoHere, owns⟩ :=
    built.steps.ownsColumns built.tables (indexable.named symbols) place namedHere
  refine ⟨info, infoHere, ?_, owns.columnsLen.trans (List.length_map _),
    owns.primaryKey.trans (lastPrimary_named symbols group), ?_⟩
  · rw [owns.columnsStart, namedGroups, ← List.map_take, ← List.map_flatten, List.length_map]
  · have names := built.holds.columnNames_ranged namedHere
    rw [← owns.columnsStart, ← owns.columnsLen, ← built.steps.columnNames] at names
    refine names.trans ?_
    rw [List.map_map, List.map_map]
    rfl

/-- The table of a group reads its rows. -/
theorem BuiltFrom.readsRows
    (built : BuiltFrom unstable rows symbols pools resolved order ordered schema)
    (counts : ReadableCounts rows) {index old : Nat} {group : List RawRow}
    (place : order[index]? = some old) (here : (tableGroups rows)[old]? = some group) :
    ReadsRows (TableRef.mk schema index) group ((List.range group.length).map fun offset =>
      ⟨schema, ((tableGroups rows).take old).flatten.length + offset⟩) := by
  obtain ⟨info, infoHere, owns⟩ := built.ownsRows counts.indexable place here
  have metaEq := indexed_eq_ok.mpr infoHere
  refine ⟨?_, ?_, ⟨_, bind_eq_ok.mpr ⟨info, metaEq, owns.columnNames⟩, ?_⟩, ?_, ?_⟩
  · rw [TableRef.columns_of_meta infoHere, owns.columnsStart, owns.columnsLen]
  · refine List.forall₂_iff_get.mpr ⟨by simp, fun offset inGroup inColumns => ?_⟩
    have column := built.isColumnOf counts here (List.getElem?_eq_getElem inGroup)
    simpa using column
  · refine built.names.spells fun text member => ?_
    obtain ⟨row, rowIn, rfl⟩ := List.mem_map.mp member
    exact List.mem_flatMap.mpr ⟨row, mem_rows_of_group (List.mem_of_getElem? here) rowIn,
      by simp [Row.strings]⟩
  · intro noPrimary
    refine bind_eq_ok.mpr ⟨info, metaEq, ?_⟩
    rw [owns.primaryKey, lastPrimary_eq_none.mpr noPrimary]
    rfl
  · intro offset row rowHere isPrimary only
    have below := (List.getElem?_eq_some_iff.mp rowHere).1
    refine ⟨⟨schema, ((tableGroups rows).take old).flatten.length + offset⟩, ?_, ?_⟩
    · rw [List.getElem?_map, List.getElem?_range below]
      rfl
    · refine bind_eq_ok.mpr ⟨info, metaEq, ?_⟩
      rw [owns.primaryKey]
      cases last : lastPrimary group with
      | none =>
          rw [lastPrimary_eq_none.mp last row (List.mem_of_getElem? rowHere)] at isPrimary
          cases isPrimary
      | some found =>
          have few := counts.indexable.columns group (List.mem_of_getElem? here)
          obtain ⟨other, otherHere, otherPrimary⟩ :=
            lastPrimary_isPrimary (Nat.le_of_lt few) last
          rw [only found other otherHere otherPrimary, owns.columnsStart]
          rfl

/-- Every table of the schema reads the rows that were added for it, and every table that
was added is there. -/
theorem DatabaseSchemaBuilder.buildRows_readsRows {profile : Profile} {interner : Interner}
    {hash : SchemaHash} (valid : LawfulInterner.Valid interner)
    (storable : StorableAll Interner (rows.flatMap Row.strings))
    (consecutive : Consecutive (tableGroups rows)) (counts : ReadableCounts rows)
    (success : buildRows unstable profile interner rows hash = .ok schema) :
    (∀ table ∈ schema.tableRefs, ∃ row ∈ rows, table.name = .ok row.tableName ∧
        ∃ columns, ReadsRows table
          (rows.filter fun other => other.tableName = row.tableName) columns) ∧
      ∀ row ∈ rows, ∃ table ∈ schema.tableRefs, table.name = .ok row.tableName := by
  obtain ⟨_, symbols, pools, resolved, order, ordered, built⟩ := buildRows_ok valid storable success
  have whole : (tableGroups rows).flatten = rows := List.flatten_splitBy _ _
  have few : schema.tables.length < u16Range := built.tableCount ▸ counts.indexable.tables
  constructor
  · intro table member
    obtain ⟨index, inRange, rfl⟩ := DatabaseSchema.exists_of_mem_tableRefs member
    obtain ⟨old, group, place, here⟩ := built.exists_group inRange
    obtain ⟨row, rest, rfl⟩ :=
      List.exists_cons_of_ne_nil (List.ne_nil_of_mem_splitBy (List.mem_of_getElem? here))
    have rowIn := mem_rows_of_group (List.mem_of_getElem? here) List.mem_cons_self
    have names := (built.accessors place here).1
    have same : ∀ other ∈ row :: rest, other.tableName = row.tableName := fun other otherIn =>
      Except.ok.inj ((names other otherIn).symm.trans (names row List.mem_cons_self))
    have filtered := consecutive.filter_eq here List.mem_cons_self same
    rw [whole] at filtered
    have reads := built.readsRows counts place here
    rw [← filtered] at reads
    exact ⟨row, rowIn, names row List.mem_cons_self, _, reads⟩
  · intro row rowIn
    obtain ⟨index, old, group, below, place, here, inGroup⟩ := built.exists_place rowIn
    exact ⟨⟨schema, index⟩, List.mem_of_getElem? (DatabaseSchema.tableRefs_getElem? below few),
      (built.accessors place here).1 row inGroup⟩

end ReadsRows

/-- An account with a checked column and a default, and its owner. -/
def accountRows : List RawRow :=
  [plainRow "accounts" "id" true,
    { plainRow "accounts" "balance" false with
      nullable := true, defaultExpr := some "0", checkDefs := ["balance >= 0"],
      domainChecks := ["VALUE < 100"] },
    plainRow "owners" "id" true]

/-- The columns of the accounts. -/
theorem buildRows_readsRows_accounts :
    ∃ schema, buildStable ⟨.debug, fun _ => 0⟩ accountRows = .ok schema ∧
      ∃ table ∈ schema.tableRefs, ∃ columns, ReadsRows table (accountRows.take 2) columns := by
  obtain ⟨schema, success⟩ := exists_of_isSome
    (show (buildStable ⟨.debug, fun _ => 0⟩ accountRows).toOption.isSome = true by decide +kernel)
  obtain ⟨interner, valid, built⟩ := DatabaseSchema.buildNew_ok success
  have storable : StorableAll (StringInterner ⟨.debug, fun _ => 0⟩)
      (accountRows.flatMap Row.strings) := fun _ _ => Or.inl rfl
  have counts : ReadableCounts accountRows := ⟨⟨by decide, by decide⟩, by decide, by decide⟩
  obtain ⟨reads, present⟩ :=
    DatabaseSchemaBuilder.buildRows_readsRows valid storable (by decide) counts built
  obtain ⟨table, listed, name⟩ := present (plainRow "accounts" "id" true) (by decide)
  obtain ⟨row, _, named, columns, readsRows⟩ := reads table listed
  have same : row.tableName = "accounts" := Except.ok.inj (named.symm.trans name)
  rw [same] at readsRows
  exact ⟨schema, success, table, listed, columns, readsRows⟩

end Boomerang
