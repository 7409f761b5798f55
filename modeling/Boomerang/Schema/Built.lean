import Boomerang.Schema.Resolution

/-!
# The schema that is built
-/

namespace Boomerang

open Foundation

/-- The values computed in `build`, from the pools to the schema. -/
structure BuildSteps {Interner : Type} (unstable : UnstableSort (TableMeta × Nat) Symbol)
    (pools : SchemaPools) (resolved : List ResolvedFk) (order : List Nat)
    (ordered : List TableMeta) (schema : DatabaseSchema Interner) : Prop where
  resolution : pools.unresolvedFks.filterMapM
    (pools.resolve (sortedByName unstable pools.tables)) = .ok resolved
  ordering : tableOrder pools.tables.length resolved = .ok order
  reordered : order.mapM (indexed pools.tables) = .ok ordered
  byName : schema.byName = sortedByName unstable ordered
  foreignKeyPool : resolved.mapM (pools.finalKey order) = .ok schema.foreignKeyPool
  columns : pools.columns.mapM (Column.remap resolved pools.foreignKeyPool.length) =
    .ok schema.columns
  tables : ordered.mapM (TableMeta.remap resolved pools.foreignKeyPool.length) = .ok schema.tables
  columnNames : schema.columnNames = pools.columnNames
  constraintPool : schema.constraintPool = pools.constraintPool

theorem DatabaseSchemaBuilder.build_ok {Interner : Type}
    {unstable : UnstableSort (TableMeta × Nat) Symbol} {profile : Profile}
    {builder : DatabaseSchemaBuilder Interner} {hash : SchemaHash}
    {schema : DatabaseSchema Interner}
    (success : builder.build unstable profile hash = .ok schema) :
    ∃ pools, builder.toSchemaPools.finishTable profile = .ok pools ∧
      schema.interner = builder.interner ∧ schema.hash = hash ∧
      ∃ resolved order ordered, BuildSteps unstable pools resolved order ordered schema := by
  obtain ⟨pools, finished, success⟩ := bind_eq_ok.mp success
  obtain ⟨resolved, resolvedEq, success⟩ := bind_eq_ok.mp success
  obtain ⟨order, orderEq, success⟩ := bind_eq_ok.mp success
  obtain ⟨ordered, orderedEq, success⟩ := bind_eq_ok.mp success
  obtain ⟨validFks, validEq, success⟩ := bind_eq_ok.mp success
  obtain ⟨columns, columnsEq, success⟩ := bind_eq_ok.mp success
  obtain ⟨tables, tablesEq, success⟩ := bind_eq_ok.mp success
  cases success
  exact ⟨pools, finished, rfl, rfl, resolved, order, ordered, resolvedEq, orderEq, orderedEq, rfl,
    validEq, columnsEq, tablesEq, rfl, rfl⟩

/-- A foreign key with the table and the column it resolves to. -/
def keepKey (find : Symbol → Symbol → Option (Nat × Nat)) (fk : RawForeignKey Symbol) :
    Option (RawForeignKey Symbol × Nat × Nat) :=
  (find fk.referencedTable fk.referencedColumn).map fun found => (fk, found)

/-- A kept key with its table renumbered. -/
def finalOf (order : List Nat) (kept : RawForeignKey Symbol × Nat × Nat) : ForeignKey :=
  { kept.1.unresolved with table := order.idxOf kept.2.1 % u16Range, column := kept.2.2 }

/-- The foreign keys of some rows as they are stored. -/
def finalKeys (find : Symbol → Symbol → Option (Nat × Nat)) (order : List Nat)
    (fks : List (RawForeignKey Symbol)) : List ForeignKey :=
  (fks.filterMap (keepKey find)).map (finalOf order)

theorem finalKeys_append (find : Symbol → Symbol → Option (Nat × Nat)) (order : List Nat)
    (left right : List (RawForeignKey Symbol)) :
    finalKeys find order (left ++ right) =
      finalKeys find order left ++ finalKeys find order right := by
  rw [finalKeys, List.filterMap_append, List.map_append]
  rfl

/-- The places of the resolved keys are those of the keys kept. -/
def SamePlaces (resolved : List ResolvedFk) (find : Symbol → Symbol → Option (Nat × Nat))
    (fks : List (RawForeignKey Symbol)) : Prop :=
  resolved.map ResolvedFk.poolIndex = (keepPlaced (keepKey find) 0 fks).map Prod.fst

/-- A range of the pool becomes the range of the keys kept from it. -/
theorem SamePlaces.remapRange_ok {resolved : List ResolvedFk}
    {find : Symbol → Symbol → Option (Nat × Nat)} {before slice after : List (RawForeignKey Symbol)}
    (same : SamePlaces resolved find (before ++ slice ++ after))
    (few : (before ++ slice ++ after).length < u32Range) (order : List Nat) :
    ∃ start len, remapRange resolved (before ++ slice ++ after).length before.length slice.length =
        .ok (start, len) ∧ start < u32Range ∧ len ≤ slice.length ∧
      ranged (finalKeys find order (before ++ slice ++ after)) start len =
        .ok (finalKeys find order slice) := by
  have total := few
  rw [List.length_append, List.length_append] at total
  have beforeCount : keptCount (keepKey find) before ≤ before.length :=
    List.length_filterMap_le _ _
  have sliceCount : keptCount (keepKey find) slice ≤ slice.length := List.length_filterMap_le _ _
  have moves : Moves (keepKey find) (newPlace resolved) before slice := by
    rintro front item back rfl
    have frontCount : keptCount (keepKey find) (before ++ front) ≤ (before ++ front).length :=
      List.length_filterMap_le _ _
    have place := findIdx?_keepPlaced (keepKey find) (before ++ front) item (back ++ after)
    rw [List.length_append] at place frontCount
    rw [List.length_append, List.length_cons] at total
    have shape : (before ++ front) ++ item :: (back ++ after) =
        before ++ (front ++ item :: back) ++ after := by simp
    have sameFind : resolved.findIdx? (fun fk => fk.poolIndex = before.length + front.length) =
        (keepPlaced (keepKey find) 0 (before ++ (front ++ item :: back) ++ after)).findIdx?
          (fun placed => placed.1 = before.length + front.length) := by
      have both :=
        congrArg (List.findIdx? fun index => decide (index = before.length + front.length))
        same
      rw [List.findIdx?_map, List.findIdx?_map] at both
      exact both
    rw [newPlace, sameFind, ← shape, place, keptCount_append, Option.map_map]
    congr 1
    funext _
    rw [keptCount_append] at frontCount
    exact Nat.mod_eq_of_lt
      (show keptCount (keepKey find) before + keptCount (keepKey find) front < u32Range by omega)
  have range := compactRange_eq moves
    (show keptCount (keepKey find) before + keptCount (keepKey find) slice ≤ u32Range - 1 by omega)
  have whole : finalKeys find order (before ++ slice ++ after) =
      finalKeys find order before ++ finalKeys find order slice ++ finalKeys find order after := by
    rw [finalKeys_append, finalKeys_append]
  have lengths : ∀ fks, (finalKeys find order fks).length = keptCount (keepKey find) fks :=
    fun fks => List.length_map _
  refine ⟨_, _, by rw [remapRange, if_pos (by simp), range], ?_, sliceCount, ?_⟩
  · split <;> omega
  · rw [whole]
    split
    · rename_i empty
      rw [empty, List.eq_nil_of_length_eq_zero ((lengths slice).trans empty),
        ranged_eq_ok (by simp)]
      simp
    · rw [← lengths before, ← lengths slice]
      exact ranged_middle _ _ _

/-- The foreign keys of some rows. -/
def rawKeys (groups : List (List SymbolRow)) : List (RawForeignKey Symbol) :=
  groups.flatten.flatMap Row.foreignKeys

section Steps

variable {Interner : Type} {unstable : UnstableSort (TableMeta × Nat) Symbol}
variable {pools : SchemaPools} {groups : List (List SymbolRow)} {resolved : List ResolvedFk}
variable {order : List Nat} {ordered : List TableMeta} {schema : DatabaseSchema Interner}

/-- What `findColumn` answers where it answers. -/
def found (unstable : UnstableSort (TableMeta × Nat) Symbol) (pools : SchemaPools)
    (table column : Symbol) : Option (Nat × Nat) :=
  (pools.findColumn (sortedByName unstable pools.tables) table column).toOption.join

theorem found_eq_some {table column : Symbol} {place : Nat × Nat} :
    found unstable pools table column = some place ↔
      pools.findColumn (sortedByName unstable pools.tables) table column = .ok (some place) := by
  rw [found, Option.join_eq_some_iff, toOption_eq_some]

/-- The resolved keys, by the sources they come from. -/
theorem HoldsRows.resolved_eq (holds : HoldsRows pools groups)
    (resolution : pools.unresolvedFks.filterMapM
      (pools.resolve (sortedByName unstable pools.tables)) = .ok resolved) :
    resolved = (keySources groups).zipIdx.filterMap fun entry =>
      (found unstable pools entry.1.2.referencedTable entry.1.2.referencedColumn).map fun place =>
        ⟨entry.2, entry.1.1, place.1, place.2⟩ := by
  obtain ⟨_, resolvedEq⟩ := filterMapM_ok resolution
  rw [resolvedEq, holds.unresolvedFks, unresolvedFrom, List.filterMap_map]
  refine List.filterMap_congr fun entry _ => ?_
  simp only [Function.comp_apply, SchemaPools.resolve, found]
  cases pools.findColumn (sortedByName unstable pools.tables) entry.1.2.referencedTable
    entry.1.2.referencedColumn with
  | error fault => rfl
  | ok answer => rfl

theorem BuildSteps.resolved_eq (steps : BuildSteps unstable pools resolved order ordered schema)
    (holds : HoldsRows pools groups) :
    resolved = (keySources groups).zipIdx.filterMap fun entry =>
      (found unstable pools entry.1.2.referencedTable entry.1.2.referencedColumn).map fun place =>
        ⟨entry.2, entry.1.1, place.1, place.2⟩ :=
  holds.resolved_eq steps.resolution

/-- The search for the column of every foreign key has succeeded. -/
theorem BuildSteps.findColumn_ok (steps : BuildSteps unstable pools resolved order ordered schema)
    (holds : HoldsRows pools groups) {fk : RawForeignKey Symbol} (member : fk ∈ rawKeys groups) :
    ∃ answer, pools.findColumn (sortedByName unstable pools.tables) fk.referencedTable
      fk.referencedColumn = .ok answer := by
  rw [rawKeys, ← map_snd_keySources] at member
  obtain ⟨source, sourceIn, rfl⟩ := List.mem_map.mp member
  obtain ⟨place, here⟩ := List.getElem?_of_mem sourceIn
  have listed : (⟨place, source.1, source.2.referencedTable, source.2.referencedColumn⟩ :
      UnresolvedFk) ∈ pools.unresolvedFks := by
    rw [holds.unresolvedFks, unresolvedFrom]
    exact List.mem_map.mpr ⟨(source, place), List.mem_zipIdx_iff_getElem?.mpr here, rfl⟩
  obtain ⟨result, resolvedOne⟩ := (filterMapM_ok steps.resolution).1 _ listed
  obtain ⟨answer, answered, _⟩ := bind_eq_ok.mp resolvedOne
  exact ⟨answer, answered⟩

theorem BuildSteps.samePlaces (steps : BuildSteps unstable pools resolved order ordered schema)
    (holds : HoldsRows pools groups) :
    SamePlaces resolved (found unstable pools) (rawKeys groups) := by
  rw [SamePlaces, steps.resolved_eq holds, rawKeys, ← map_snd_keySources, keepPlaced,
    List.zipIdx_map, List.filterMap_map, List.map_filterMap, List.map_filterMap]
  refine List.filterMap_congr fun entry _ => ?_
  simp [keepKey, Function.comp_def]

/-- A key has the place in the pool at which it is resolved. -/
theorem HoldsRows.foreignKeyPool_getElem? (holds : HoldsRows pools groups) {position : Nat}
    {source : Nat × RawForeignKey Symbol} (here : (keySources groups)[position]? = some source) :
    pools.foreignKeyPool[position]? = some source.2.unresolved := by
  rw [holds.foreignKeyPool, ← map_snd_keySources, List.getElem?_map, List.getElem?_map, here]
  rfl

/-- The resolved keys are stored, in any order of the tables. -/
theorem HoldsRows.mapM_finalKey (holds : HoldsRows pools groups)
    (resolution : pools.unresolvedFks.filterMapM
      (pools.resolve (sortedByName unstable pools.tables)) = .ok resolved) (order : List Nat) :
    resolved.mapM (pools.finalKey order) =
      .ok (finalKeys (found unstable pools) order (rawKeys groups)) := by
  have stored : ∀ entry ∈ (keySources groups).zipIdx, ∀ fk : ResolvedFk,
      ((found unstable pools entry.1.2.referencedTable entry.1.2.referencedColumn).map fun place =>
        (⟨entry.2, entry.1.1, place.1, place.2⟩ : ResolvedFk)) = some fk →
      pools.finalKey order fk =
        .ok (finalOf order (entry.1.2, fk.refTableOldIdx, fk.colIdxInTable)) := by
    rintro entry member fk kept
    obtain ⟨place, _, rfl⟩ := Option.map_eq_some_iff.mp kept
    have old := holds.foreignKeyPool_getElem? (List.mem_zipIdx_iff_getElem?.mp member)
    exact bind_eq_ok.mpr ⟨_, indexed_eq_ok.mpr old, rfl⟩
  rw [holds.resolved_eq resolution, mapM_filterMap stored, Except.ok.injEq, finalKeys, rawKeys,
    ← map_snd_keySources, List.map_filterMap, List.filterMap_map]
  conv_rhs => rw [← List.zipIdx_map_fst 0 (keySources groups), List.filterMap_map]
  refine List.filterMap_congr fun entry _ => ?_
  simp [keepKey, Function.comp_def]

/-- The new pool holds the keys that resolve. -/
theorem BuildSteps.foreignKeyPool_eq
    (steps : BuildSteps unstable pools resolved order ordered schema)
    (holds : HoldsRows pools groups) :
    schema.foreignKeyPool = finalKeys (found unstable pools) order (rawKeys groups) :=
  Except.ok.inj (steps.foreignKeyPool.symm.trans (holds.mapM_finalKey steps.resolution order))

/-- The tables can be ordered, and the order lists every old index once. -/
theorem HoldsRows.exists_order (holds : HoldsRows pools groups)
    (resolution : pools.unresolvedFks.filterMapM
      (pools.resolve (sortedByName unstable pools.tables)) = .ok resolved) :
    ∃ order, tableOrder groups.length resolved = .ok order ∧
      order.Perm (List.range groups.length) := by
  have inside : ∀ edge ∈ dependencies resolved, edge.2 ∈ List.range groups.length := by
    intro edge member
    obtain ⟨fk, listed, rfl⟩ := List.mem_map.mp member
    have listed := (List.mem_filter.mp listed).1
    rw [holds.resolved_eq resolution] at listed
    obtain ⟨entry, entryIn, kept⟩ := List.mem_filterMap.mp listed
    obtain ⟨place, _, rfl⟩ := Option.map_eq_some_iff.mp kept
    have source := List.mem_of_getElem? (List.mem_zipIdx_iff_getElem?.mp entryIn)
    obtain ⟨group, groupIn, sourceIn⟩ := List.mem_flatMap.mp source
    obtain ⟨fk, _, sourceEq⟩ := List.mem_map.mp sourceIn
    have index := List.mem_zipIdx groupIn
    have below : group.2 < groups.length := by omega
    rw [List.mem_range]
    exact (congrArg Prod.fst sourceEq) ▸ below
  obtain ⟨sorted, sortedEq, perm⟩ := topologicalOrder_perm List.nodup_range inside
  exact ⟨sorted, by rw [tableOrder, sortedEq], perm⟩

theorem BuildSteps.order_perm (steps : BuildSteps unstable pools resolved order ordered schema)
    (holds : HoldsRows pools groups) (tables : AreTables groups pools.tables) :
    order.Perm (List.range groups.length) := by
  obtain ⟨sorted, sortedEq, perm⟩ := holds.exists_order steps.resolution
  have ordering := steps.ordering
  rw [tables.length, sortedEq] at ordering
  cases ordering
  exact perm

/-- The new range of some keys, for the range the builder gave them. -/
theorem BuildSteps.remapRange_ok (steps : BuildSteps unstable pools resolved order ordered schema)
    (holds : HoldsRows pools groups) (narrow : Narrow groups)
    {before slice after : List (RawForeignKey Symbol)}
    (split : rawKeys groups = before ++ slice ++ after) (short : slice.length < u16Range)
    {range : Nat × Nat}
    (success : remapRange resolved pools.foreignKeyPool.length (before.length % u32Range)
      (slice.length % u16Range) = .ok range) :
    ranged schema.foreignKeyPool range.1 range.2 =
      .ok (finalKeys (found unstable pools) order slice) := by
  have total := narrow.foreignKeyTotal
  have same := steps.samePlaces holds
  have poolSize : pools.foreignKeyPool.length = (rawKeys groups).length := by
    rw [holds.foreignKeyPool, List.length_map, rawKeys]
  rw [← rawKeys, split] at total
  rw [split] at same poolSize
  obtain ⟨start, len, rangeEq, _, _, kept⟩ := same.remapRange_ok total order
  rw [List.length_append, List.length_append] at total
  rw [Nat.mod_eq_of_lt (by omega), Nat.mod_eq_of_lt short, poolSize, rangeEq] at success
  cases success
  rw [steps.foreignKeyPool_eq holds, split]
  exact kept

/-- A table of the schema: the table of a group, its foreign keys being those that resolve. -/
structure IsBuiltTable (groups : List (List SymbolRow)) (schema : DatabaseSchema Interner)
    (find : Symbol → Symbol → Option (Nat × Nat)) (order : List Nat) (old : Nat)
    (group : List SymbolRow) (info : TableMeta) : Prop where
  source : groups[old]? = some group
  nonempty : group ≠ []
  name : ∀ row ∈ group, row.tableName = info.name
  columnsStart : info.columnsStart = (groups.take old).flatten.length
  columnsLen : info.columnsLen = group.length
  primaryKey : info.primaryKey = lastPrimary group
  foreignKeys : ranged schema.foreignKeyPool info.fkStart info.fkLen =
    .ok (finalKeys find order (group.flatMap Row.foreignKeys))

theorem rawKeys_split {old : Nat} {group : List SymbolRow} (here : groups[old]? = some group) :
    rawKeys groups = (groups.take old).flatten.flatMap Row.foreignKeys ++
      group.flatMap Row.foreignKeys ++ (groups.drop (old + 1)).flatten.flatMap Row.foreignKeys := by
  rw [rawKeys, flatten_eq_of_getElem? here, List.flatMap_append, List.flatMap_append]

/-- The tables of the schema are those of the groups in the new order. -/
theorem BuildSteps.table_ok (steps : BuildSteps unstable pools resolved order ordered schema)
    (holds : HoldsRows pools groups) (tables : AreTables groups pools.tables)
    (narrow : Narrow groups) (index : Nat) :
    (order[index]? = none ∧ schema.tables[index]? = none) ∨
      ∃ old group info, order[index]? = some old ∧ schema.tables[index]? = some info ∧
        IsBuiltTable groups schema (found unstable pools) order old group info := by
  rcases mapM_getElem? steps.reordered index with ⟨noOrder, noOrdered⟩ |
    ⟨old, before, here, orderedHere, stored⟩
  · rcases mapM_getElem? steps.tables index with ⟨_, none⟩ | ⟨_, _, there, _⟩
    · exact Or.inl ⟨noOrder, none⟩
    · cases noOrdered.symm.trans there
  · rcases mapM_getElem? steps.tables index with ⟨none, _⟩ | ⟨_, info, there, infoHere, remapped⟩
    · cases none.symm.trans orderedHere
    · cases there.symm.trans orderedHere
      obtain ⟨group, groupHere, isTable⟩ := tables.of_getElem? (indexed_eq_ok.mp stored)
      obtain ⟨columnsStart, columnsLen⟩ := narrow.columnRange groupHere isTable
      obtain ⟨range, remapEq, success⟩ := bind_eq_ok.mp remapped
      cases success
      rw [isTable.fkStart, isTable.fkLen] at remapEq
      exact Or.inr ⟨old, group, _, here, infoHere, groupHere, isTable.nonempty, isTable.name,
        columnsStart, columnsLen, isTable.primaryKey,
        steps.remapRange_ok holds narrow (rawKeys_split groupHere)
          (narrow.foreignKeys group (List.mem_of_getElem? groupHere)) remapEq⟩

/-- A column of the schema: the column of a row, its foreign keys being those that resolve. -/
structure IsBuiltColumn (schema : DatabaseSchema Interner)
    (find : Symbol → Symbol → Option (Nat × Nat)) (order : List Nat) (before : List SymbolRow)
    (row : SymbolRow) (column : Column) : Prop where
  rest : { column with foreignKeys := (columnOf before row).foreignKeys } = columnOf before row
  foreignKeys : ranged schema.foreignKeyPool column.foreignKeys.start column.foreignKeys.len =
    .ok (finalKeys find order row.foreignKeys)

/-- The columns of the schema are those of the rows. -/
theorem BuildSteps.column_ok (steps : BuildSteps unstable pools resolved order ordered schema)
    (holds : HoldsRows pools groups) (narrow : Narrow groups) {index : Nat} {row : SymbolRow}
    (here : groups.flatten[index]? = some row) :
    ∃ column, schema.columns[index]? = some column ∧
      IsBuiltColumn schema (found unstable pools) order (groups.flatten.take index) row column := by
  have before := holds.column index row here
  rcases mapM_getElem? steps.columns index with ⟨none, _⟩ | ⟨_, column, there, columnHere, remapped⟩
  · cases none.symm.trans before
  · cases there.symm.trans before
    have split : rawKeys groups = (groups.flatten.take index).flatMap Row.foreignKeys ++
        row.foreignKeys ++ (groups.flatten.drop (index + 1)).flatMap Row.foreignKeys := by
      have lists : (groups.flatten.map Row.foreignKeys)[index]? = some row.foreignKeys := by
        rw [List.getElem?_map, here]
        rfl
      rw [rawKeys, List.flatMap_def, flatten_eq_of_getElem? lists, ← List.map_take, ← List.map_drop]
      rfl
    have short : row.foreignKeys.length < u16Range := by
      obtain ⟨group, groupIn, rowIn⟩ := List.mem_flatten.mp (List.mem_of_getElem? here)
      refine Nat.lt_of_le_of_lt ?_ (narrow.foreignKeys group groupIn)
      exact (List.sublist_flatten_of_mem (List.mem_map_of_mem rowIn)).length_le
    obtain ⟨range, remapEq, success⟩ := bind_eq_ok.mp remapped
    cases success
    exact ⟨_, columnHere, rfl, steps.remapRange_ok holds narrow split short remapEq⟩

end Steps

/-- The groups of the rows under a naming of their strings. -/
def namedGroups (symbols : String → Symbol) (rows : List RawRow) : List (List SymbolRow) :=
  (tableGroups rows).map (List.map (Row.named symbols))

section Rows

variable {Interner : Type} [InternerOps Interner]

/-- An order of the tables lists those of the groups. -/
theorem exists_group_of_perm {rows : List RawRow} {order : List Nat}
    (perm : order.Perm (List.range (tableGroups rows).length)) {index : Nat}
    (below : index < order.length) :
    ∃ old group, order[index]? = some old ∧ (tableGroups rows)[old]? = some group := by
  have known := List.mem_range.mp (perm.mem_iff.mp (List.getElem_mem below))
  exact ⟨_, _, List.getElem?_eq_getElem below, List.getElem?_eq_getElem known⟩

/-- An order of the tables has a place for the table of every row. -/
theorem exists_place_of_perm {rows : List RawRow} {order : List Nat}
    (perm : order.Perm (List.range (tableGroups rows).length)) {row : RawRow} (rowIn : row ∈ rows) :
    ∃ (index old : Nat) (group : List RawRow), order[index]? = some old ∧
      (tableGroups rows)[old]? = some group ∧ row ∈ group := by
  have whole : (tableGroups rows).flatten = rows := List.flatten_splitBy _ _
  obtain ⟨group, groupIn, inGroup⟩ := List.mem_flatten.mp (whole ▸ rowIn)
  obtain ⟨old, here⟩ := List.getElem?_of_mem groupIn
  have known := List.mem_range.mpr (List.getElem?_eq_some_iff.mp here).1
  obtain ⟨index, place⟩ := List.getElem?_of_mem (perm.mem_iff.mpr known)
  exact ⟨index, old, group, place, here, inGroup⟩

/-- A schema built from rows, with the naming of their strings by its symbols. -/
structure BuiltFrom [LawfulInterner Interner] (unstable : UnstableSort (TableMeta × Nat) Symbol)
    (rows : List RawRow) (symbols : String → Symbol) (pools : SchemaPools)
    (resolved : List ResolvedFk) (order : List Nat) (ordered : List TableMeta)
    (schema : DatabaseSchema Interner) : Prop where
  valid : LawfulInterner.Valid schema.interner
  names : SymbolsOf schema.interner symbols (rows.flatMap Row.strings)
  holds : HoldsRows pools (namedGroups symbols rows)
  tables : AreTables (namedGroups symbols rows) pools.tables
  steps : BuildSteps unstable pools resolved order ordered schema

section BuiltFrom

variable [LawfulInterner Interner] {unstable : UnstableSort (TableMeta × Nat) Symbol}
variable {rows : List RawRow} {symbols : String → Symbol} {pools : SchemaPools}
variable {resolved : List ResolvedFk} {order : List Nat} {ordered : List TableMeta}
variable {schema : DatabaseSchema Interner}

/-- The new order lists every table once. -/
theorem BuiltFrom.order_perm
    (built : BuiltFrom unstable rows symbols pools resolved order ordered schema) :
    order.Perm (List.range (tableGroups rows).length) := by
  have perm := built.steps.order_perm built.holds built.tables
  rwa [namedGroups, List.length_map] at perm

theorem BuiltFrom.order_length
    (built : BuiltFrom unstable rows symbols pools resolved order ordered schema) :
    order.length = schema.tables.length :=
  (mapM_ok built.steps.reordered).length_eq.trans (mapM_ok built.steps.tables).length_eq

/-- There is a table for every group. -/
theorem BuiltFrom.tableCount
    (built : BuiltFrom unstable rows symbols pools resolved order ordered schema) :
    schema.tables.length = (tableGroups rows).length := by
  rw [← built.order_length, built.order_perm.length_eq, List.length_range]

/-- Every table of the schema is that of a group. -/
theorem BuiltFrom.exists_group
    (built : BuiltFrom unstable rows symbols pools resolved order ordered schema) {index : Nat}
    (below : index < schema.tables.length) :
    ∃ old group, order[index]? = some old ∧ (tableGroups rows)[old]? = some group :=
  exists_group_of_perm built.order_perm (built.order_length.symm ▸ below)

/-- Every row is one of a group whose table is in the schema. -/
theorem BuiltFrom.exists_place
    (built : BuiltFrom unstable rows symbols pools resolved order ordered schema) {row : RawRow}
    (rowIn : row ∈ rows) : ∃ index old group, index < schema.tables.length ∧
      order[index]? = some old ∧ (tableGroups rows)[old]? = some group ∧ row ∈ group := by
  obtain ⟨index, old, group, place, here, inGroup⟩ := exists_place_of_perm built.order_perm rowIn
  have below := (List.getElem?_eq_some_iff.mp place).1
  exact ⟨index, old, group, built.order_length ▸ below, place, here, inGroup⟩

/-- The position of the table of a group. -/
theorem BuiltFrom.getElem?_idxOf
    (built : BuiltFrom unstable rows symbols pools resolved order ordered schema) {old : Nat}
    {group : List RawRow} (here : (tableGroups rows)[old]? = some group) :
    order.idxOf old < schema.tables.length ∧ order[order.idxOf old]? = some old := by
  have listed : old ∈ order := by
    rw [built.order_perm.mem_iff, List.mem_range]
    exact (List.getElem?_eq_some_iff.mp here).1
  have below := List.idxOf_lt_length_of_mem listed
  refine ⟨built.order_length ▸ below, ?_⟩
  rw [List.getElem?_eq_getElem below, List.getElem_idxOf]

end BuiltFrom

theorem SymbolsOf.of_mem {interner : Interner} {symbols : String → Symbol} {rows : List RawRow}
    (names : SymbolsOf interner symbols (rows.flatMap Row.strings)) {row : RawRow}
    (here : row ∈ rows)
    {text : String} (member : text ∈ row.strings) : Names interner (symbols text) text :=
  names text (List.mem_flatMap.mpr ⟨row, here, member⟩)

theorem Row.tableName_mem_strings (row : RawRow) : row.tableName ∈ row.strings := by
  simp [strings]

/-- The groups of the named rows are the named groups. -/
theorem tableGroups_named [LawfulInterner Interner] {interner : Interner}
    (valid : LawfulInterner.Valid interner) {symbols : String → Symbol} {rows : List RawRow}
    (names : SymbolsOf interner symbols (rows.flatMap Row.strings)) :
    tableGroups (rows.map (Row.named symbols)) = namedGroups symbols rows := by
  refine splitBy_map fun left leftIn right rightIn => decide_eq_decide.mpr ?_
  exact (names.of_mem leftIn left.tableName_mem_strings).symbol_eq_iff valid
    (names.of_mem rightIn right.tableName_mem_strings)

/-- Every string interned by a run has a symbol. -/
theorem Interned.exists_symbols [LawfulInterner Interner] {Result : Type} {strings : List String}
    {value : (String → Symbol) → Result} {before after : Interner} {result : Result}
    (interned : Interned strings value before result after) :
    ∃ symbols, SymbolsOf after symbols strings := by
  have each : ∀ text, ∃ symbol, text ∈ strings → Names after symbol text := by
    intro text
    by_cases member : text ∈ strings
    · obtain ⟨symbol, named⟩ := interned.known text member
      exact ⟨symbol, fun _ => named⟩
    · exact ⟨⟨1, by decide⟩, fun here => absurd here member⟩
  choose symbols named using each
  exact ⟨symbols, named⟩

/-- The pools after some storable rows have been added and the last table is finished. -/
theorem DatabaseSchemaBuilder.addRows_holds [LawfulInterner Interner] {profile : Profile}
    {interner : Interner} {rows : List RawRow} {builder : DatabaseSchemaBuilder Interner}
    {pools : SchemaPools} (valid : LawfulInterner.Valid interner)
    (storable : StorableAll Interner (rows.flatMap Row.strings))
    (added : (new interner).addRows profile rows = .ok builder)
    (finished : builder.toSchemaPools.finishTable profile = .ok pools) :
    LawfulInterner.Valid builder.interner ∧ ∃ symbols,
      SymbolsOf builder.interner symbols (rows.flatMap Row.strings) ∧
        HoldsRows pools (namedGroups symbols rows) ∧
          AreTables (namedGroups symbols rows) pools.tables := by
  have interned := addRows_ok valid storable added
  obtain ⟨symbols, names⟩ := interned.exists_symbols
  have folded := interned.value _ symbols interned.valid (fun _ _ named => named) names
  have holds := finishTable_ok folded.symm finished
  rw [tableGroups_named interned.valid names] at holds
  exact ⟨interned.valid, symbols, names, holds⟩

/-- What is known of a schema built from storable rows. -/
theorem DatabaseSchemaBuilder.buildRows_ok [LawfulInterner Interner]
    {unstable : UnstableSort (TableMeta × Nat) Symbol} {profile : Profile} {interner : Interner}
    {rows : List RawRow} {hash : SchemaHash} {schema : DatabaseSchema Interner}
    (valid : LawfulInterner.Valid interner)
    (storable : StorableAll Interner (rows.flatMap Row.strings))
    (built : buildRows unstable profile interner rows hash = .ok schema) :
    schema.hash = hash ∧ ∃ symbols pools resolved order ordered,
      BuiltFrom unstable rows symbols pools resolved order ordered schema := by
  obtain ⟨builder, added, success⟩ := bind_eq_ok.mp built
  obtain ⟨pools, finished, internerEq, hashEq, resolved, order, ordered, steps⟩ := build_ok success
  obtain ⟨after, symbols, names, holds, tables⟩ := addRows_holds valid storable added finished
  exact ⟨hashEq, symbols, pools, resolved, order, ordered,
    ⟨internerEq ▸ after, internerEq ▸ names, holds, tables, steps⟩⟩

end Rows

section New

variable {build : Build}

/-- `DatabaseSchema::new`, the calls of `add_row`, and `build`. -/
def DatabaseSchema.buildNew (unstable : UnstableSort (TableMeta × Nat) Symbol) (build : Build)
    (uninitialised : Foundation.Memory) (internerId : Nat) (rows : List RawRow)
    (hash : SchemaHash) : Except Fault (DatabaseSchema (StringInterner build)) := do
  let interner ←
    StringInterner.withCapacityAndShards build uninitialised internerId DEFAULT_SHARD_COUNT
  DatabaseSchemaBuilder.buildRows unstable build.profile interner rows hash

/-- The interner of a new schema is valid. -/
theorem DatabaseSchema.buildNew_ok {unstable : UnstableSort (TableMeta × Nat) Symbol}
    {uninitialised : Foundation.Memory} {internerId : Nat} {rows : List RawRow}
    {hash : SchemaHash} {schema : DatabaseSchema (StringInterner build)}
    (success : buildNew unstable build uninitialised internerId rows hash = .ok schema) :
    ∃ interner : StringInterner build, LawfulInterner.Valid interner ∧
      DatabaseSchemaBuilder.buildRows unstable build.profile interner rows hash = .ok schema := by
  obtain ⟨interner, created, success⟩ := bind_eq_ok.mp success
  obtain ⟨other, otherEq, facts⟩ :=
    StringInterner.withCapacityAndShards_ok build uninitialised internerId DEFAULT_SHARD_COUNT
  cases otherEq.symm.trans created
  exact ⟨interner, ⟨_, facts.holds⟩, success⟩

/-- A schema with the hash of no bytes, built with a stable sort. -/
def buildStable (build : Build) (rows : List RawRow) :
    Except Fault (DatabaseSchema (StringInterner build)) :=
  DatabaseSchema.buildNew (.stable _ _) build (fun _ => 0) 1 rows ⟨List.replicate 32 0, rfl⟩

/-- A row of an integer column without a default, a check or a foreign key. -/
def plainRow (table column : String) (isPrimary : Bool) : RawRow :=
  ⟨table, column, "int4", false, isPrimary, false, none, [], [], []⟩

theorem exists_of_isSome {Result : Type} {run : Except Fault Result}
    (success : run.toOption.isSome = true) : ∃ result, run = .ok result := by
  cases run with
  | error fault => cases success
  | ok result => exact ⟨result, rfl⟩

end New

end Boomerang
