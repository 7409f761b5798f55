import Boomerang.Schema.AddedColumns
import Boomerang.Schema.ForeignKeys
import Boomerang.Schema.Lookup

/-!
# The order of the tables

A table that no cycle of foreign keys is behind comes after the tables it references
and before the tables that have a cycle behind them.
-/

namespace Boomerang

open Foundation

section References

variable {Name Kind : Type}

/-- The names of a table's columns as `build` searches them: the start of the table is
cut to 32 bits and its length to 16. -/
def storedNames (groups : List (List (Row Name Kind))) (index : Nat) : List Name :=
  ((groups.flatten.drop ((groups.take index).flatten.length % u32Range)).take
    (((groups[index]?).getD []).length % u16Range)).map Row.columnName

/-- The rows of the columns that a table keeps, its counts cut to their fields. -/
def storedRows (groups : List (List (Row Name Kind))) (index : Nat) : List (Row Name Kind) :=
  (groups.flatten.drop ((groups.take index).flatten.length % u32Range)).take
    (((groups[index]?).getD []).length % u16Range)

/-- A foreign key resolves to a table: the table has the name and its columns the
column that the key references. -/
def RawForeignKey.ResolvesTo (groups : List (List (Row Name Kind))) (fk : RawForeignKey Name)
    (index : Nat) : Prop :=
  (∃ group, groups[index]? = some group ∧ ∃ row ∈ group, row.tableName = fk.referencedTable) ∧
    fk.referencedColumn ∈ storedNames groups index

/-- A table references another one by a foreign key that resolves. -/
def References (groups : List (List (Row Name Kind))) (source target : Nat) : Prop :=
  source ≠ target ∧ ∃ group, groups[source]? = some group ∧
    ∃ fk ∈ group.flatMap Row.foreignKeys, fk.ResolvesTo groups target

/-- Where the counts fit their fields, a table keeps all of its rows. -/
theorem storedRows_eq {groups : List (List (Row Name Kind))} {index : Nat}
    {group : List (Row Name Kind)} (here : groups[index]? = some group)
    (short : group.length < u16Range) (start : (groups.take index).flatten.length < u32Range) :
    storedRows groups index = group := by
  rw [storedRows, here, Option.getD_some, Nat.mod_eq_of_lt start, Nat.mod_eq_of_lt short,
    flatten_eq_of_getElem? here, List.append_assoc, List.drop_left, List.take_left]

/-- Where the counts fit their fields, the columns searched are those of the table. -/
theorem storedNames_eq {groups : List (List (Row Name Kind))} (narrow : Narrow groups) {index : Nat}
    {group : List (Row Name Kind)} (here : groups[index]? = some group) :
    storedNames groups index = group.map Row.columnName := by
  have total := narrow.columnTotal
  rw [flatten_eq_of_getElem? here, List.length_append, List.length_append] at total
  have short := narrow.columns group (List.mem_of_getElem? here)
  exact congrArg _ (storedRows_eq here short (by omega))

theorem RawForeignKey.resolvesTo_iff {groups : List (List (Row Name Kind))}
    (narrow : Narrow groups) {fk : RawForeignKey Name} {index : Nat} :
    fk.ResolvesTo groups index ↔ ∃ group, groups[index]? = some group ∧
      (∃ row ∈ group, row.tableName = fk.referencedTable) ∧
      ∃ row ∈ group, row.columnName = fk.referencedColumn := by
  constructor
  · rintro ⟨⟨group, here, named⟩, column⟩
    rw [storedNames_eq narrow here] at column
    exact ⟨group, here, named, List.mem_map.mp column⟩
  · rintro ⟨group, here, named, column⟩
    refine ⟨⟨group, here, named⟩, ?_⟩
    rw [storedNames_eq narrow here]
    exact List.mem_map.mpr column

theorem References.lt_length {groups : List (List (Row Name Kind))} {source target : Nat}
    (references : References groups source target) :
    source < groups.length ∧ target < groups.length := by
  obtain ⟨_, _, here, _, _, ⟨_, there, _⟩, _⟩ := references
  exact ⟨(List.getElem?_eq_some_iff.mp here).1, (List.getElem?_eq_some_iff.mp there).1⟩

end References

section Steps

variable {Interner : Type} {unstable : UnstableSort (TableMeta × Nat) Symbol}
variable {pools : SchemaPools} {groups : List (List SymbolRow)} {resolved : List ResolvedFk}
variable {order : List Nat} {ordered : List TableMeta} {schema : DatabaseSchema Interner}

/-- The names that the search of a table's columns reads. -/
theorem HoldsRows.ranged_columnNames (holds : HoldsRows pools groups) {index : Nat}
    {group : List SymbolRow} {info : TableMeta} (here : groups[index]? = some group)
    (isTable : IsTable (groups.take index).flatten group info) :
    ranged pools.columnNames info.columnsStart info.columnsLen =
      .ok (storedNames groups index) := by
  have inside : info.columnsStart + info.columnsLen ≤ pools.columnNames.length := by
    have start := Nat.mod_le (groups.take index).flatten.length u32Range
    have len := Nat.mod_le group.length u16Range
    rw [isTable.columnsStart, isTable.columnsLen, holds.columnNames, List.length_map,
      flatten_eq_of_getElem? here, List.length_append, List.length_append]
    omega
  rw [ranged_eq_ok inside, holds.columnNames, isTable.columnsStart, isTable.columnsLen, storedNames,
    here, Option.getD_some, List.map_take, List.map_drop]

/-- The search for a column, at the table where the search of the index by name ends. -/
theorem HoldsRows.findColumn_of_slot (holds : HoldsRows pools groups)
    (tables : AreTables groups pools.tables) {table : Symbol} (column : Symbol) {slot index : Nat}
    {group : List SymbolRow}
    (searched : tryBinarySearch (nameAt pools.tables (sortedByName unstable pools.tables))
      (sortedByName unstable pools.tables).length table = .ok (some slot))
    (slotEq : (sortedByName unstable pools.tables)[slot]? = some index)
    (here : groups[index]? = some group) :
    pools.findColumn (sortedByName unstable pools.tables) table column =
      .ok (((storedNames groups index).findIdx? fun name => name = column).map fun place =>
        (index, place % u16Range)) := by
  obtain ⟨info, stored, isTable⟩ := tables.table index group here
  refine bind_eq_ok.mpr ⟨some slot, searched, ?_⟩
  refine bind_eq_ok.mpr ⟨index, indexed_eq_ok.mpr slotEq, ?_⟩
  refine bind_eq_ok.mpr ⟨info, indexed_eq_ok.mpr stored, ?_⟩
  exact bind_eq_ok.mpr ⟨_, holds.ranged_columnNames here isTable, rfl⟩

/-- The column is found exactly in the tables that keep it. -/
theorem findIdx?_storedNames {column : Symbol} {index : Nat} :
    (∃ place, ((storedNames groups index).findIdx? fun name => name = column).map
        (fun place => (index, place % u16Range)) = some (index, place)) ↔
      column ∈ storedNames groups index := by
  constructor
  · rintro ⟨place, answerEq⟩
    obtain ⟨at', placed, _⟩ := Option.map_eq_some_iff.mp answerEq
    obtain ⟨below, same, _⟩ := List.findIdx?_eq_some_iff_getElem.mp placed
    rw [← of_decide_eq_true same]
    exact List.getElem_mem below
  · intro member
    cases placed : (storedNames groups index).findIdx? fun name => name = column with
    | none =>
        have absent := List.findIdx?_eq_none_iff.mp placed _ member
        simp at absent
    | some place => exact ⟨place % u16Range, rfl⟩

/-- The search for a column looks into one table of the name, if one of the first
tables has it. -/
theorem HoldsRows.findColumn_cases (holds : HoldsRows pools groups)
    (tables : AreTables groups pools.tables) {table column : Symbol} {answer : Option (Nat × Nat)}
    (success : pools.findColumn (sortedByName unstable pools.tables) table column = .ok answer) :
    (answer = none ∧ ∀ index group, index < groups.length % u16Range →
        groups[index]? = some group → ∀ row ∈ group, row.tableName ≠ table) ∨
      ∃ index group, index < groups.length % u16Range ∧ groups[index]? = some group ∧
        (∃ row ∈ group, row.tableName = table) ∧
        answer = ((storedNames groups index).findIdx? fun name => name = column).map fun place =>
          (index, place % u16Range) := by
  obtain ⟨slot, searched, hit, miss⟩ := search_sortedByName unstable pools.tables table
  rw [tables.length] at hit miss
  cases slot with
  | none =>
      have missed : pools.findColumn (sortedByName unstable pools.tables) table column = .ok none :=
        bind_eq_ok.mpr ⟨none, searched, rfl⟩
      refine Or.inl
        ⟨Except.ok.inj (success.symm.trans missed), fun index group below here row rowIn => ?_⟩
      obtain ⟨info, stored, isTable⟩ := tables.table index group here
      rw [isTable.name row rowIn]
      exact miss rfl index info below stored
  | some slot =>
      obtain ⟨index, info, slotEq, stored, below, name⟩ := hit slot rfl
      obtain ⟨group, here, isTable⟩ := tables.of_getElem? stored
      have answered := holds.findColumn_of_slot tables column searched slotEq here
      obtain ⟨first, rest, rfl⟩ := List.exists_cons_of_ne_nil isTable.nonempty
      exact Or.inr ⟨index, _, below, here,
        ⟨first, List.mem_cons_self, (isTable.name first List.mem_cons_self).trans name⟩,
        Except.ok.inj (success.symm.trans answered)⟩

/-- A key resolves only to one of the first tables that has its names. -/
theorem HoldsRows.findColumn_resolves (holds : HoldsRows pools groups)
    (tables : AreTables groups pools.tables) {fk : RawForeignKey Symbol} {index place : Nat}
    (success : pools.findColumn (sortedByName unstable pools.tables) fk.referencedTable
      fk.referencedColumn = .ok (some (index, place))) :
    index < groups.length % u16Range ∧ fk.ResolvesTo groups index := by
  rcases holds.findColumn_cases tables success with
    ⟨missing, _⟩ | ⟨found, group, below, here, named, answer⟩
  · cases missing
  · have same : found = index := by
      obtain ⟨_, _, pairEq⟩ := Option.map_eq_some_iff.mp answer.symm
      exact congrArg Prod.fst pairEq
    subst same
    exact ⟨below, ⟨group, here, named⟩, findIdx?_storedNames.mp ⟨place, answer.symm⟩⟩

/-- What the search for a referenced column finds. -/
theorem HoldsRows.findColumn_iff (holds : HoldsRows pools groups)
    (tables : AreTables groups pools.tables) (few : groups.length < u16Range)
    (consecutive : Consecutive groups) {fk : RawForeignKey Symbol} {answer : Option (Nat × Nat)}
    (success : pools.findColumn (sortedByName unstable pools.tables) fk.referencedTable
      fk.referencedColumn = .ok answer) (index : Nat) :
    (∃ place, answer = some (index, place)) ↔ fk.ResolvesTo groups index := by
  constructor
  · rintro ⟨place, rfl⟩
    exact (holds.findColumn_resolves tables success).2
  · rintro ⟨⟨group, here, row, rowIn, sameName⟩, column⟩
    have below := (List.getElem?_eq_some_iff.mp here).1
    rcases holds.findColumn_cases tables success with
      ⟨_, miss⟩ | ⟨found, other, _, there, ⟨first, firstIn, firstName⟩, answerEq⟩
    · rw [Nat.mod_eq_of_lt few] at miss
      exact absurd sameName (miss index group below here row rowIn)
    · have sameIndex :=
        consecutive.index_eq here there rowIn firstIn (sameName.trans firstName.symm)
      subst sameIndex
      rw [answerEq]
      exact findIdx?_storedNames.mpr column

/-- The edges that order the tables are the references between them. -/
theorem BuildSteps.dependsOn_iff (steps : BuildSteps unstable pools resolved order ordered schema)
    (holds : HoldsRows pools groups) (tables : AreTables groups pools.tables)
    (few : groups.length < u16Range) (consecutive : Consecutive groups) (source target : Nat) :
    DependsOn (dependencies resolved) source target ↔ References groups source target := by
  have answers : ∀ fk ∈ rawKeys groups, ∀ index,
      (∃ place, found unstable pools fk.referencedTable fk.referencedColumn = some (index, place)) ↔
        fk.ResolvesTo groups index := by
    intro fk member index
    obtain ⟨answer, answered⟩ := steps.findColumn_ok holds member
    rw [← holds.findColumn_iff tables few consecutive answered, found, answered]
    rfl
  have listed : ∀ fk, (source, fk) ∈ keySources groups ↔
      ∃ group, groups[source]? = some group ∧ fk ∈ group.flatMap Row.foreignKeys := by
    intro fk
    rw [keySources, List.mem_flatMap]
    constructor
    · rintro ⟨⟨group, index⟩, indexed, member⟩
      obtain ⟨_, fkIn, pairEq⟩ := List.mem_map.mp member
      cases pairEq
      exact ⟨group, List.mem_zipIdx_iff_getElem?.mp indexed, fkIn⟩
    · rintro ⟨group, here, fkIn⟩
      exact ⟨(group, source), List.mem_zipIdx_iff_getElem?.mpr here,
        List.mem_map.mpr ⟨fk, fkIn, rfl⟩⟩
  have known : ∀ fk, (source, fk) ∈ keySources groups → fk ∈ rawKeys groups := by
    intro fk member
    rw [rawKeys, ← map_snd_keySources]
    exact List.mem_map_of_mem member
  rw [Foundation.DependsOn, dependencies, steps.resolved_eq holds]
  constructor
  · intro edge
    obtain ⟨key, keyIn, pairEq⟩ := List.mem_map.mp edge
    obtain ⟨keyIn, different⟩ := List.mem_filter.mp keyIn
    obtain ⟨entry, entryIn, kept⟩ := List.mem_filterMap.mp keyIn
    obtain ⟨place, placeEq, rfl⟩ := Option.map_eq_some_iff.mp kept
    cases pairEq
    have member := List.mem_of_getElem? (List.mem_zipIdx_iff_getElem?.mp entryIn)
    obtain ⟨group, here, fkIn⟩ := (listed entry.1.2).mp member
    refine ⟨fun same => of_decide_eq_true different same.symm, group, here, entry.1.2, fkIn, ?_⟩
    exact (answers _ (known _ member) place.1).mp ⟨place.2, placeEq⟩
  · rintro ⟨different, group, here, fk, fkIn, resolves⟩
    have member := (listed fk).mpr ⟨group, here, fkIn⟩
    obtain ⟨place, placeEq⟩ := (answers fk (known fk member) target).mpr resolves
    obtain ⟨position, positionEq⟩ := List.getElem?_of_mem member
    refine List.mem_map.mpr ⟨⟨position, source, target, place⟩, List.mem_filter.mpr ⟨?_, ?_⟩, rfl⟩
    · exact List.mem_filterMap.mpr ⟨((source, fk), position),
        List.mem_zipIdx_iff_getElem?.mpr positionEq, by rw [placeEq]; rfl⟩
    · exact decide_eq_true (Ne.symm different)

end Steps

section Rows

variable {Interner : Type} [InternerOps Interner]

/-- The tables of a schema are those of the rows, in an order by their old indices. A
table that no cycle of references is behind comes after the tables it references and
before the tables that have a cycle behind them. -/
structure DependencyOrdered (rows : List RawRow) (schema : DatabaseSchema Interner)
    (order : List Nat) : Prop where
  perm : order.Perm (List.range (tableGroups rows).length)
  count : order.length = schema.tables.length
  name : ∀ index old group, order[index]? = some old → (tableGroups rows)[old]? = some group →
    ∀ row ∈ group, (TableRef.mk schema index).name = .ok row.tableName
  columns : ∀ index old, order[index]? = some old →
    ∃ columns, (TableRef.mk schema index).columns = .ok columns ∧
      columns.mapM ColumnRef.name = .ok (storedNames (tableGroups rows) old)
  referenced : ∀ index old place other, order[index]? = some old → order[place]? = some other →
    ¬ ReachesCycle (References (tableGroups rows)) old → References (tableGroups rows) old other →
    (TableRef.mk schema place).topoIndex < (TableRef.mk schema index).topoIndex
  cyclic : ∀ index old place other, order[index]? = some old → order[place]? = some other →
    ¬ ReachesCycle (References (tableGroups rows)) old →
    ReachesCycle (References (tableGroups rows)) other →
    (TableRef.mk schema index).topoIndex < (TableRef.mk schema place).topoIndex
  acyclic : (∀ old, ¬ Relation.TransGen (References (tableGroups rows)) old old) →
    ∀ index old place other, order[index]? = some old → order[place]? = some other →
      References (tableGroups rows) old other →
      (TableRef.mk schema place).topoIndex < (TableRef.mk schema index).topoIndex

variable [LawfulInterner Interner]
variable {unstable : UnstableSort (TableMeta × Nat) Symbol} {rows : List RawRow}
variable {symbols : String → Symbol} {pools : SchemaPools} {resolved : List ResolvedFk}
variable {order : List Nat} {ordered : List TableMeta} {schema : DatabaseSchema Interner}

theorem storedNames_named (symbols : String → Symbol) (rows : List RawRow) (index : Nat) :
    storedNames (namedGroups symbols rows) index =
      (storedNames (tableGroups rows) index).map symbols := by
  have count : (((namedGroups symbols rows)[index]?).getD []).length =
      (((tableGroups rows)[index]?).getD []).length := by
    rw [namedGroups, List.getElem?_map]
    cases (tableGroups rows)[index]? <;> simp
  rw [storedNames, storedNames, count, namedGroups, ← List.map_take, ← List.map_flatten,
    ← List.map_flatten, List.length_map, ← List.map_drop, ← List.map_take, List.map_map,
    List.map_map]
  rfl

theorem mem_storedNames {index : Nat} {text : String}
    (member : text ∈ storedNames (tableGroups rows) index) :
    ∃ row ∈ rows, row.columnName = text := by
  have whole : (tableGroups rows).flatten = rows := List.flatten_splitBy _ _
  obtain ⟨row, rowIn, rfl⟩ := List.mem_map.mp member
  exact ⟨row, whole ▸ List.mem_of_mem_drop (List.mem_of_mem_take rowIn), rfl⟩

theorem BuiltFrom.resolvesTo_named
    (built : BuiltFrom unstable rows symbols pools resolved order ordered schema) {row : RawRow}
    (rowIn : row ∈ rows) {fk : RawForeignKey String} (fkIn : fk ∈ row.foreignKeys) (index : Nat) :
    (fk.named symbols).ResolvesTo (namedGroups symbols rows) index ↔
      fk.ResolvesTo (tableGroups rows) index := by
  refine and_congr ⟨?_, ?_⟩ ?_
  · rintro ⟨group, here, named, namedIn, sameName⟩
    rw [namedGroups, List.getElem?_map] at here
    obtain ⟨raw, rawHere, rfl⟩ := Option.map_eq_some_iff.mp here
    obtain ⟨other, otherIn, rfl⟩ := List.mem_map.mp namedIn
    have inRows := mem_rows_of_group (List.mem_of_getElem? rawHere) otherIn
    exact ⟨raw, rawHere, other, otherIn, (built.references_iff rowIn inRows fkIn).1.mp sameName⟩
  · rintro ⟨raw, rawHere, other, otherIn, sameName⟩
    exact ⟨_, namedGroups_getElem? rawHere, _, List.mem_map_of_mem otherIn,
      congrArg symbols sameName⟩
  · rw [storedNames_named]
    constructor
    · intro member
      obtain ⟨text, textIn, same⟩ := List.mem_map.mp member
      obtain ⟨other, otherIn, rfl⟩ := mem_storedNames textIn
      rwa [← (built.references_iff rowIn otherIn fkIn).2.mp same]
    · exact fun member => List.mem_map_of_mem member

/-- The references between the tables do not depend on the naming of the strings. -/
theorem BuiltFrom.references_named
    (built : BuiltFrom unstable rows symbols pools resolved order ordered schema)
    (source target : Nat) :
    References (namedGroups symbols rows) source target ↔
      References (tableGroups rows) source target := by
  refine and_congr_right fun _ => ⟨?_, ?_⟩
  · rintro ⟨group, here, fk, fkIn, resolves⟩
    rw [namedGroups, List.getElem?_map] at here
    obtain ⟨raw, rawHere, rfl⟩ := Option.map_eq_some_iff.mp here
    obtain ⟨named, namedIn, fkIn⟩ := List.mem_flatMap.mp fkIn
    obtain ⟨row, rowIn, rfl⟩ := List.mem_map.mp namedIn
    obtain ⟨key, keyIn, rfl⟩ := List.mem_map.mp fkIn
    have inRows := mem_rows_of_group (List.mem_of_getElem? rawHere) rowIn
    exact ⟨raw, rawHere, key, List.mem_flatMap.mpr ⟨row, rowIn, keyIn⟩,
      (built.resolvesTo_named inRows keyIn target).mp resolves⟩
  · rintro ⟨raw, rawHere, key, fkIn, resolves⟩
    obtain ⟨row, rowIn, keyIn⟩ := List.mem_flatMap.mp fkIn
    have inRows := mem_rows_of_group (List.mem_of_getElem? rawHere) rowIn
    exact ⟨_, namedGroups_getElem? rawHere, key.named symbols,
      List.mem_flatMap.mpr ⟨_, List.mem_map_of_mem rowIn, List.mem_map_of_mem keyIn⟩,
      (built.resolvesTo_named inRows keyIn target).mpr resolves⟩

/-- A column reads the name and the flags of a row. -/
structure ReadsFlags (row : RawRow) (column : ColumnRef Interner) : Prop where
  name : column.name = .ok row.columnName
  flags : ∃ info, column.meta = .ok info ∧
    info.flags = .ofRow row.nullable row.isPrimary row.isUnique

/-- The columns of a table read the rows that the table keeps. -/
theorem BuiltFrom.columns_stored
    (built : BuiltFrom unstable rows symbols pools resolved order ordered schema) {index old : Nat}
    (place : order[index]? = some old) :
    ∃ columns, (TableRef.mk schema index).columns = .ok columns ∧
      List.Forall₂ ReadsFlags (storedRows (tableGroups rows) old) columns := by
  have whole : (tableGroups rows).flatten = rows := List.flatten_splitBy _ _
  have known : old < (tableGroups rows).length :=
    List.mem_range.mp (built.order_perm.mem_iff.mp (List.mem_of_getElem? place))
  have here := List.getElem?_eq_getElem known
  have namedHere : (namedGroups symbols rows)[old]? =
      some ((tableGroups rows)[old].map (Row.named symbols)) := namedGroups_getElem? here
  obtain ⟨before, info, isTable, infoHere, remapped⟩ :=
    built.steps.remapped built.tables place namedHere
  obtain ⟨_, columnsStart, columnsLen, _⟩ := TableMeta.remap_ok remapped
  refine ⟨_, TableRef.columns_of_meta infoHere, ?_⟩
  rw [isTable.columnsStart] at columnsStart
  rw [isTable.columnsLen, List.length_map] at columnsLen
  rw [namedGroups, ← List.map_take, ← List.map_flatten, List.length_map] at columnsStart
  have stored : storedRows (tableGroups rows) old =
      (rows.drop info.columnsStart).take info.columnsLen := by
    rw [storedRows, whole, here, Option.getD_some, ← columnsStart, ← columnsLen]
  have inside : info.columnsStart + info.columnsLen ≤ rows.length := by
    have start := Nat.mod_le ((tableGroups rows).take old).flatten.length u32Range
    have len := Nat.mod_le (tableGroups rows)[old].length u16Range
    rw [← whole, flatten_eq_of_getElem? here, List.length_append, List.length_append]
    omega
  rw [stored]
  refine List.forall₂_iff_get.mpr ⟨by simp; omega, fun offset inRows inColumns => ?_⟩
  have below : offset < info.columnsLen := by simpa using inColumns
  have rowHere := List.getElem?_eq_getElem (show info.columnsStart + offset < rows.length by omega)
  have namedRow : (namedGroups symbols rows).flatten[info.columnsStart + offset]? =
      some (rows[info.columnsStart + offset].named symbols) := by
    rw [flatten_namedGroups, List.getElem?_map, rowHere]
    rfl
  obtain ⟨column, columnHere, name, _, flags, _⟩ := built.steps.column_rest built.holds namedRow
  have reads : ReadsFlags rows[info.columnsStart + offset]
      (⟨schema, info.columnsStart + offset⟩ : ColumnRef Interner) := by
    refine ⟨ColumnRef.name_of_meta columnHere ?_, column, indexed_eq_ok.mpr columnHere, flags⟩
    rw [name]
    exact built.names.of_mem (List.mem_of_getElem? rowHere) (by simp [Row.strings])
  simpa using reads

/-- The columns of a table carry the names that were given. -/
theorem BuiltFrom.columns_named
    (built : BuiltFrom unstable rows symbols pools resolved order ordered schema) {index old : Nat}
    (place : order[index]? = some old) :
    ∃ columns, (TableRef.mk schema index).columns = .ok columns ∧
      columns.mapM ColumnRef.name = .ok (storedNames (tableGroups rows) old) := by
  obtain ⟨columns, read, each⟩ := built.columns_stored place
  refine ⟨columns, read, mapM_of_forall₂ ?_⟩
  exact List.forall₂_map_right_iff.mpr (each.flip.imp fun _ _ reads => reads.name)

/-- The new order of the tables is an order by their references. -/
theorem BuiltFrom.idxOf_lt
    (built : BuiltFrom unstable rows symbols pools resolved order ordered schema)
    (few : (tableGroups rows).length < u16Range) (consecutive : Consecutive (tableGroups rows))
    {old : Nat} (known : old < (tableGroups rows).length)
    (noCycle : ¬ ReachesCycle (References (tableGroups rows)) old) :
    (∀ other, References (tableGroups rows) old other → order.idxOf other < order.idxOf old) ∧
      ∀ other, ReachesCycle (References (tableGroups rows)) other →
        order.idxOf old < order.idxOf other := by
  have namedCount : (namedGroups symbols rows).length = (tableGroups rows).length :=
    List.length_map _
  have depends : DependsOn (dependencies resolved) = References (tableGroups rows) := by
    ext source target
    rw [built.steps.dependsOn_iff built.holds built.tables (namedCount ▸ few)
      (built.consecutive consecutive), built.references_named]
  have inside : ∀ edge ∈ dependencies resolved,
      edge.1 ∈ List.range (tableGroups rows).length ∧
        edge.2 ∈ List.range (tableGroups rows).length := by
    intro edge member
    have references : References (tableGroups rows) edge.2 edge.1 := depends ▸ member
    rw [List.mem_range, List.mem_range]
    exact references.lt_length.symm
  have ordering := built.steps.ordering
  rw [tableOrder, built.tables.length, namedCount] at ordering
  cases sortedEq : topologicalOrder (List.range (tableGroups rows).length)
      (dependencies resolved) with
  | none => rw [sortedEq] at ordering; cases ordering
  | some sorted =>
      rw [sortedEq] at ordering
      cases ordering
      have sorts := topologicalOrder_sorted List.nodup_range inside sortedEq
        (List.mem_range.mpr known) (depends ▸ noCycle)
      rwa [depends] at sorts

/-- The tables of the schema are ordered by the foreign keys that resolve. -/
theorem DatabaseSchemaBuilder.buildRows_dependencyOrdered {profile : Profile} {interner : Interner}
    {hash : SchemaHash} (valid : LawfulInterner.Valid interner)
    (storable : StorableAll Interner (rows.flatMap Row.strings))
    (consecutive : Consecutive (tableGroups rows)) (few : (tableGroups rows).length < u16Range)
    (success : buildRows unstable profile interner rows hash = .ok schema) :
    ∃ order, DependencyOrdered rows schema order := by
  obtain ⟨_, symbols, pools, resolved, order, ordered, built⟩ := buildRows_ok valid storable success
  have perm := built.order_perm
  have nodup : order.Nodup := perm.nodup_iff.mpr List.nodup_range
  have position : ∀ (index old : Nat), order[index]? = some old →
      order.idxOf old = index ∧ old < (tableGroups rows).length := by
    intro index old here
    obtain ⟨below, rfl⟩ := List.getElem?_eq_some_iff.mp here
    exact ⟨nodup.idxOf_getElem _ _, List.mem_range.mp (perm.mem_iff.mp (List.getElem_mem below))⟩
  have referenced : ∀ (index old place other : Nat), order[index]? = some old →
      order[place]? = some other → ¬ ReachesCycle (References (tableGroups rows)) old →
      References (tableGroups rows) old other → place < index := by
    intro index old place other here there noCycle references
    obtain ⟨rfl, known⟩ := position index old here
    obtain ⟨rfl, _⟩ := position place other there
    exact (built.idxOf_lt few consecutive known noCycle).1 other references
  refine ⟨order, perm, built.order_length, ?_, ?_, referenced, ?_, ?_⟩
  · intro index old group place here
    exact (built.accessors place here).1
  · intro index old place
    exact built.columns_named place
  · intro index old place other here there noCycle cyclic
    obtain ⟨rfl, known⟩ := position index old here
    obtain ⟨rfl, _⟩ := position place other there
    exact (built.idxOf_lt few consecutive known noCycle).2 other cyclic
  · intro acyclic index old place other here there references
    refine referenced index old place other here there ?_ references
    rintro ⟨vertex, _, cycle⟩
    exact acyclic vertex cycle

end Rows

/-- The order of the posts and their authors. -/
theorem buildRows_dependencyOrdered_posts :
    ∃ schema, buildStable ⟨.debug, fun _ => 0⟩ postRows = .ok schema ∧
      ∃ order, DependencyOrdered postRows schema order := by
  obtain ⟨schema, success⟩ := exists_of_isSome
    (show (buildStable ⟨.debug, fun _ => 0⟩ postRows).toOption.isSome = true by decide +kernel)
  obtain ⟨interner, valid, built⟩ := DatabaseSchema.buildNew_ok success
  have storable : StorableAll (StringInterner ⟨.debug, fun _ => 0⟩)
      (postRows.flatMap Row.strings) := fun _ _ => Or.inl rfl
  exact ⟨schema, success, DatabaseSchemaBuilder.buildRows_dependencyOrdered valid storable
    (by decide) (by decide) built⟩

end Boomerang
