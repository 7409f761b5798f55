import Boomerang.Foundation.Fallible
import Boomerang.Schema.DatabaseSchema

/-!
# Well-formed schemas

The pools of a schema refer to each other by index, and to strings by symbol. In a
well-formed schema every index is in range and every symbol stands for a string; then no
accessor panics.
-/

namespace Boomerang

open Foundation

/-- What a schema has besides its hash and its interner. -/
structure Pools where
  tables : List TableMeta
  byName : List Nat
  columns : List Column
  columnNames : List Symbol
  constraintPool : List Symbol
  foreignKeyPool : List ForeignKey
deriving DecidableEq, Repr

/-- A range lies inside a pool. -/
def PoolRange.Inside {Item : Type} (range : PoolRange) (pool : List Item) : Prop :=
  range.start + range.len ≤ pool.length

instance {Item : Type} (range : PoolRange) (pool : List Item) : Decidable (range.Inside pool) :=
  inferInstanceAs (Decidable (_ ≤ _))

/-- The symbols of a column. -/
def Column.symbols (column : Column) : List Symbol :=
  column.name :: ((match column.dataType with
    | .custom name => [name]
    | _ => []) ++ column.defaultValue.toList)

/-- The symbols of a foreign key. -/
def ForeignKey.symbols (fk : ForeignKey) : List Symbol := [fk.constraintName, fk.namespaceName]

namespace Pools

/-- Every symbol that is stored. -/
def symbols (pools : Pools) : List Symbol :=
  pools.tables.map TableMeta.name ++ (pools.columns.flatMap Column.symbols ++
    (pools.columnNames ++ (pools.constraintPool ++
      pools.foreignKeyPool.flatMap ForeignKey.symbols)))

theorem mem_symbols_table {pools : Pools} {table : TableMeta} (member : table ∈ pools.tables) :
    table.name ∈ pools.symbols :=
  List.mem_append_left _ (List.mem_map_of_mem member)

theorem mem_symbols_column {pools : Pools} {column : Column} (member : column ∈ pools.columns) :
    column.name ∈ pools.symbols := by
  refine List.mem_append_right _ (List.mem_append_left _ ?_)
  exact List.mem_flatMap.mpr ⟨column, member, List.mem_cons_self⟩

/-- The names of the tables in the order of the index by name. -/
def sortedNames (pools : Pools) : List Symbol :=
  pools.byName.filterMap fun index => (pools.tables[index]?).map TableMeta.name

/-- Every index is in range of what it indexes, the names of the columns are listed in
their order, and the tables are listed by their names. -/
structure CrossReferenced (pools : Pools) : Prop where
  tableColumns : ∀ table ∈ pools.tables,
    table.columnsStart + table.columnsLen ≤ pools.columns.length
  tableKeys : ∀ table ∈ pools.tables, table.fkStart + table.fkLen ≤ pools.foreignKeyPool.length
  primaryKey : ∀ table ∈ pools.tables, ∀ offset ∈ table.primaryKey, offset < table.columnsLen
  columnChecks : ∀ column ∈ pools.columns, column.constraints.Inside pools.constraintPool
  columnKeys : ∀ column ∈ pools.columns, column.foreignKeys.Inside pools.foreignKeyPool
  columnNames : pools.columnNames = pools.columns.map Column.name
  byName : pools.byName.Perm (List.range pools.tables.length)
  sorted : pools.sortedNames.Pairwise (· ≤ ·)
  keyColumn : ∀ fk ∈ pools.foreignKeyPool,
    ∃ table ∈ pools.tables[fk.table]?, fk.column < table.columnsLen

end Pools

namespace DatabaseSchema

variable {Interner : Type}

/-- The pools of a schema. -/
def pools (schema : DatabaseSchema Interner) : Pools :=
  ⟨schema.tables, schema.byName, schema.columns, schema.columnNames, schema.constraintPool,
    schema.foreignKeyPool⟩

/-- Every index of a schema is in range, and every symbol resolves. -/
structure WellFormed [InternerOps Interner] (schema : DatabaseSchema Interner) : Prop where
  crossReferenced : schema.pools.CrossReferenced
  symbols : ∀ symbol ∈ schema.pools.symbols, ∃ text, Names schema.interner symbol text

end DatabaseSchema

section Accessors

variable {Interner : Type} [InternerOps Interner]

/-- The accessors of a column return. -/
structure ColumnRef.Sound (column : ColumnRef Interner) : Prop where
  name : ∃ text, column.name = .ok text
  constraints : ∃ checks, column.constraints = .ok checks
  foreignKeys : ∃ fks, column.foreignKeys = .ok fks

/-- The accessors of a table return, and so do those of its columns. -/
structure TableRef.Sound (table : TableRef Interner) : Prop where
  name : ∃ text, table.name = .ok text
  columnNames : ∃ names, table.columnNames = .ok names
  columns : ∃ columns, table.columns = .ok columns ∧ ∀ column ∈ columns, column.Sound
  primaryKey : ∃ key, table.primaryKey = .ok key ∧ ∀ column ∈ key, column.Sound
  foreignKeys : ∃ fks, table.foreignKeys = .ok fks

/-- The accessors of a schema return, and so do those of the tables they return. -/
structure DatabaseSchema.Sound (schema : DatabaseSchema Interner) : Prop where
  tables : ∀ table ∈ schema.tableRefs, table.Sound
  referenced : ∀ table ∈ schema.tableRefs, ∀ fks, table.foreignKeys = .ok fks →
    ∀ fk ∈ fks, (table.referencedTable fk).Sound
  table : ∀ name, ∃ found, schema.table name = .ok found ∧ ∀ table ∈ found, table.Sound
  leafTables : ∃ leaves, schema.leafTables = .ok leaves ∧ ∀ table ∈ leaves, table.Sound

end Accessors

namespace DatabaseSchema.WellFormed

variable {Interner : Type} [InternerOps Interner] {schema : DatabaseSchema Interner}

theorem resolve (wellFormed : schema.WellFormed) {symbol : Symbol}
    (member : symbol ∈ schema.pools.symbols) (message : String) :
    ∃ text, resolveExpected schema.interner symbol message = .ok text := by
  obtain ⟨text, named⟩ := wellFormed.symbols symbol member
  exact ⟨text, resolveExpected_eq_ok.mpr named⟩

/-- The accessors of a column in range return. -/
theorem column (wellFormed : schema.WellFormed) {index : Nat}
    (inRange : index < schema.columns.length) : ColumnRef.Sound ⟨schema, index⟩ := by
  have here : indexed schema.columns index = .ok schema.columns[index] :=
    indexed_eq_ok.mpr (List.getElem?_eq_getElem inRange)
  have member : schema.columns[index] ∈ schema.pools.columns := List.getElem_mem inRange
  constructor
  case name =>
    obtain ⟨text, named⟩ := wellFormed.resolve (Pools.mem_symbols_column member)
      "column symbol not from the schema"
    exact ⟨text, bind_eq_ok.mpr ⟨_, here, named⟩⟩
  case constraints =>
    exact ⟨_, bind_eq_ok.mpr
      ⟨_, here, ranged_eq_ok (wellFormed.crossReferenced.columnChecks _ member)⟩⟩
  case foreignKeys =>
    exact ⟨_, bind_eq_ok.mpr
      ⟨_, here, ranged_eq_ok (wellFormed.crossReferenced.columnKeys _ member)⟩⟩

/-- The accessors of a table in range return. -/
theorem table (wellFormed : schema.WellFormed) {index : Nat}
    (inRange : index < schema.tables.length) : TableRef.Sound ⟨schema, index⟩ := by
  have here : indexed schema.tables index = .ok schema.tables[index] :=
    indexed_eq_ok.mpr (List.getElem?_eq_getElem inRange)
  have member : schema.tables[index] ∈ schema.pools.tables := List.getElem_mem inRange
  have columns : schema.tables[index].columnsStart + schema.tables[index].columnsLen ≤
      schema.columns.length := wellFormed.crossReferenced.tableColumns _ member
  have names : schema.columnNames.length = schema.columns.length := by
    rw [show schema.columnNames = schema.columns.map Column.name from
      wellFormed.crossReferenced.columnNames, List.length_map]
  constructor
  case name =>
    obtain ⟨text, named⟩ := wellFormed.resolve (Pools.mem_symbols_table member)
      "table symbol not from the schema"
    exact ⟨text, bind_eq_ok.mpr ⟨_, here, named⟩⟩
  case columnNames =>
    exact ⟨_, bind_eq_ok.mpr ⟨_, here, ranged_eq_ok (names ▸ columns)⟩⟩
  case columns =>
    refine ⟨_, bind_eq_ok.mpr ⟨_, here, rfl⟩, ?_⟩
    intro column columnIn
    obtain ⟨offset, offsetIn, rfl⟩ := List.mem_map.mp columnIn
    have below := List.mem_range.mp offsetIn
    exact wellFormed.column (by omega)
  case primaryKey =>
    refine ⟨_, bind_eq_ok.mpr ⟨_, here, rfl⟩, ?_⟩
    intro column columnIn
    obtain ⟨offset, isKey, rfl⟩ := Option.map_eq_some_iff.mp columnIn
    have below := wellFormed.crossReferenced.primaryKey _ member offset isKey
    exact wellFormed.column (by omega)
  case foreignKeys =>
    exact ⟨_, bind_eq_ok.mpr
      ⟨_, here, ranged_eq_ok (wellFormed.crossReferenced.tableKeys _ member)⟩⟩

/-- Foreign keys reference tables. -/
theorem keyTable (wellFormed : schema.WellFormed) {fk : ForeignKey}
    (member : fk ∈ schema.foreignKeyPool) : fk.table < schema.tables.length := by
  obtain ⟨table, here, _⟩ := wellFormed.crossReferenced.keyColumn fk member
  exact (List.getElem?_eq_some_iff.mp here).1

theorem tableAt (wellFormed : schema.WellFormed) {index : Nat} {found : TableRef Interner}
    (at' : schema.tableAt index = some found) : found.Sound := by
  unfold DatabaseSchema.tableAt at at'
  split at at'
  · rename_i inRange
    cases at'
    exact wellFormed.table (Nat.lt_of_le_of_lt (Nat.mod_le _ _) inRange)
  · cases at'

/-- The search for a table by its name returns. -/
theorem tableBySymbol (wellFormed : schema.WellFormed) (symbol : Symbol) :
    ∃ found, schema.tableBySymbol symbol = .ok found ∧ ∀ table ∈ found, table.Sound := by
  have perm := wellFormed.crossReferenced.byName
  have inRange : ∀ place < schema.byName.length, ∃ index name, schema.byName[place]? = some index ∧
      nameAt schema.tables schema.byName place = .ok name := by
    intro place below
    have here := List.getElem?_eq_getElem below
    have index := List.mem_range.mp (perm.subset (List.getElem_mem below))
    refine ⟨_, schema.tables[schema.byName[place]].name, here, ?_⟩
    exact bind_eq_ok.mpr ⟨_, indexed_eq_ok.mpr here, bind_eq_ok.mpr
      ⟨_, indexed_eq_ok.mpr (List.getElem?_eq_getElem index), rfl⟩⟩
  let plain : Nat → Symbol := fun place =>
    ((nameAt schema.tables schema.byName place).toOption).getD symbol
  have searched : tryBinarySearch (nameAt schema.tables schema.byName) schema.byName.length symbol =
      .ok (binarySearch plain schema.byName.length symbol) := by
    refine tryBinarySearch_eq symbol ?_
    intro place below
    obtain ⟨index, name, _, named⟩ := inRange place below
    simp only [plain, named, Except.toOption, Option.getD_some]
  cases place : binarySearch plain schema.byName.length symbol with
  | none =>
      refine ⟨none, bind_eq_ok.mpr ⟨_, searched, ?_⟩, by simp⟩
      rw [place]
      rfl
  | some place' =>
      have below := (binarySearch_sound place).1
      obtain ⟨index, name, here, _⟩ := inRange place' below
      refine ⟨schema.tableAt index, bind_eq_ok.mpr ⟨_, searched, ?_⟩,
        fun table member => wellFormed.tableAt member⟩
      rw [place]
      exact bind_eq_ok.mpr ⟨index, indexed_eq_ok.mpr here, rfl⟩

/-- The search for the leaves returns. -/
theorem leafTables (wellFormed : schema.WellFormed) :
    ∃ leaves, schema.leafTables = .ok leaves ∧ ∀ table ∈ leaves, table.Sound := by
  have marks : ∀ source (fks : List ForeignKey), (∀ fk ∈ fks, fk ∈ schema.foreignKeyPool) →
    ∀ marked : List Bool, marked.length = schema.tables.length → ∃ after : List Bool,
        fks.foldlM (markReferenced source) marked = .ok after ∧
          after.length = schema.tables.length := by
    intro source fks inPool marked all
    refine foldlM_returns all fun fk member before same => ?_
    unfold markReferenced storeAt
    split
    · rw [if_pos (same.symm ▸ wellFormed.keyTable (inPool fk member))]
      exact ⟨_, rfl, by rw [List.length_set, same]⟩
    · exact ⟨before, rfl, same⟩
  have folded : ∃ marked : List Bool, schema.tables.zipIdx.foldlM
      (fun referenced entry => do
        let fks ← ranged schema.foreignKeyPool entry.1.fkStart entry.1.fkLen
        fks.foldlM (markReferenced entry.2) referenced)
      (List.replicate schema.tables.length false) = Except.ok (ε := Fault) marked ∧
        marked.length = schema.tables.length := by
    refine foldlM_returns (List.length_replicate) fun entry member before same => ?_
    obtain ⟨info, index⟩ := entry
    have inside := wellFormed.crossReferenced.tableKeys info (List.fst_mem_of_mem_zipIdx member)
    obtain ⟨after, marked, length⟩ := marks index _
      (fun fk fkIn => List.mem_of_mem_drop (List.mem_of_mem_take fkIn)) before same
    exact ⟨after, bind_eq_ok.mpr ⟨_, ranged_eq_ok inside, marked⟩, length⟩
  obtain ⟨marked, success, _⟩ := folded
  refine ⟨_, bind_eq_ok.mpr ⟨marked, success, rfl⟩, ?_⟩
  intro table member
  obtain ⟨⟨isMarked, index⟩, _, found⟩ := List.mem_filterMap.mp member
  cases isMarked with
  | true => cases found
  | false => exact wellFormed.tableAt found

/-- No accessor of a well-formed schema panics. -/
theorem sound (wellFormed : schema.WellFormed) : schema.Sound := by
  constructor
  case tables =>
    intro table member
    obtain ⟨index, below, rfl⟩ := exists_of_mem_tableRefs member
    exact wellFormed.table below
  case referenced =>
    intro table member fks read fk fkIn
    obtain ⟨index, below, rfl⟩ := exists_of_mem_tableRefs member
    obtain ⟨info, _, slice⟩ := bind_eq_ok.mp read
    unfold ranged at slice
    split at slice
    · cases slice
      exact wellFormed.table
        (wellFormed.keyTable (List.mem_of_mem_drop (List.mem_of_mem_take fkIn)))
    · cases slice
  case table =>
    intro name
    unfold DatabaseSchema.table
    cases schema.getSymbol name with
    | none => exact ⟨none, rfl, fun table member => nomatch member⟩
    | some symbol => exact wellFormed.tableBySymbol symbol
  case leafTables => exact wellFormed.leafTables

end DatabaseSchema.WellFormed

end Boomerang
