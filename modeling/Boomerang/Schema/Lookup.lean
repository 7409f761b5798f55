import Boomerang.Schema.Built

/-!
# The tables of a built schema, whatever their counts

The names of the tables and of their primary columns, and the search for a table. None
of it needs the counts to fit their fields: a start or an offset that is cut still lies
inside the columns.
-/

namespace Boomerang

open Foundation

variable {Interner : Type}

theorem TableMeta.remap_ok {resolved : List ResolvedFk} {poolSize : Nat} {before after : TableMeta}
    (success : before.remap resolved poolSize = .ok after) :
    after.name = before.name ∧ after.columnsStart = before.columnsStart ∧
      after.columnsLen = before.columnsLen ∧ after.primaryKey = before.primaryKey := by
  obtain ⟨range, _, success⟩ := bind_eq_ok.mp success
  cases success
  exact ⟨rfl, rfl, rfl, rfl⟩

theorem Column.remap_ok {resolved : List ResolvedFk} {poolSize : Nat} {before after : Column}
    (success : before.remap resolved poolSize = .ok after) : after.name = before.name := by
  obtain ⟨range, _, success⟩ := bind_eq_ok.mp success
  cases success
  rfl

section Steps

variable {unstable : UnstableSort (TableMeta × Nat) Symbol} {pools : SchemaPools}
variable {groups : List (List SymbolRow)} {resolved : List ResolvedFk} {order : List Nat}
variable {ordered : List TableMeta} {schema : DatabaseSchema Interner}

/-- The renumbering of the foreign keys keeps the names of the tables. -/
theorem BuildSteps.sameNames (steps : BuildSteps unstable pools resolved order ordered schema)
    (index : Nat) :
    (schema.tables[index]?).map TableMeta.name = (ordered[index]?).map TableMeta.name := by
  rcases mapM_getElem? steps.tables index with
    ⟨none, none'⟩ | ⟨before, after, here, there, remapped⟩
  · rw [none, none']
  · rw [here, there, Option.map_some, Option.map_some, (TableMeta.remap_ok remapped).1]

theorem nameAt_congr {tables others : List TableMeta} (byName : List Nat)
    (same : ∀ index : Nat,
      (tables[index]?).map TableMeta.name = (others[index]?).map TableMeta.name) :
    nameAt tables byName = nameAt others byName := by
  funext place
  unfold nameAt
  cases indexed byName place with
  | error fault => rfl
  | ok index =>
      have names := same index
      simp only [indexed, bind, Except.bind]
      cases here : tables[index]? <;> cases there : others[index]? <;>
        simp_all [pure, Except.pure]

/-- The table of a group, without its foreign keys. -/
structure HasTable (groups : List (List SymbolRow)) (old : Nat) (group : List SymbolRow)
    (info : TableMeta) : Prop where
  nonempty : group ≠ []
  name : ∀ row ∈ group, row.tableName = info.name
  columnsStart : info.columnsStart = (groups.take old).flatten.length % u32Range
  primaryKey : info.primaryKey = lastPrimary group

/-- The table of the schema that a table of the builder became. -/
theorem BuildSteps.remapped (steps : BuildSteps unstable pools resolved order ordered schema)
    (tables : AreTables groups pools.tables) {index old : Nat} {group : List SymbolRow}
    (place : order[index]? = some old) (here : groups[old]? = some group) :
    ∃ before after, IsTable (groups.take old).flatten group before ∧
      schema.tables[index]? = some after ∧
      before.remap resolved pools.foreignKeyPool.length = .ok after := by
  obtain ⟨first, stored, isTable⟩ := tables.table old group here
  rcases mapM_getElem? steps.reordered index with ⟨none, _⟩ | ⟨_, before, there, orderedHere, taken⟩
  · cases none.symm.trans place
  cases there.symm.trans place
  cases (indexed_eq_ok.mp taken).symm.trans stored
  rcases mapM_getElem? steps.tables index with ⟨none, _⟩ | ⟨_, after, there, afterHere, remapped⟩
  · cases none.symm.trans orderedHere
  cases there.symm.trans orderedHere
  exact ⟨_, after, isTable, afterHere, remapped⟩

theorem BuildSteps.hasTable (steps : BuildSteps unstable pools resolved order ordered schema)
    (tables : AreTables groups pools.tables) {index old : Nat} {group : List SymbolRow}
    (place : order[index]? = some old) (here : groups[old]? = some group) :
    ∃ info, schema.tables[index]? = some info ∧ HasTable groups old group info := by
  obtain ⟨before, after, isTable, afterHere, remapped⟩ := steps.remapped tables place here
  obtain ⟨name, columnsStart, _, primaryKey⟩ := TableMeta.remap_ok remapped
  exact ⟨after, afterHere, isTable.nonempty, fun row member =>
    (isTable.name row member).trans name.symm, columnsStart.trans isTable.columnsStart,
    primaryKey.trans isTable.primaryKey⟩

theorem BuildSteps.column_name (steps : BuildSteps unstable pools resolved order ordered schema)
    (holds : HoldsRows pools groups) {index : Nat} {row : SymbolRow}
    (here : groups.flatten[index]? = some row) :
    ∃ column, schema.columns[index]? = some column ∧ column.name = row.columnName := by
  have before := holds.column index row here
  rcases mapM_getElem? steps.columns index with ⟨none, _⟩ | ⟨_, column, there, columnHere, remapped⟩
  · cases none.symm.trans before
  · cases there.symm.trans before
    exact ⟨column, columnHere, Column.remap_ok remapped⟩

/-- The search for a table, from that of the index by name. -/
theorem DatabaseSchema.tableBySymbol_of_search {wanted : Symbol} {slot : Option Nat}
    (searched : tryBinarySearch (nameAt schema.tables schema.byName) schema.byName.length wanted =
      .ok slot)
    (hit : ∀ place, slot = some place → ∃ index info, schema.byName[place]? = some index ∧
      index < schema.tables.length % u16Range ∧ schema.tables[index]? = some info ∧
        info.name = wanted)
    (miss : slot = none → ∀ index info, index < schema.tables.length % u16Range →
      schema.tables[index]? = some info → info.name ≠ wanted) :
    ∃ answer, schema.tableBySymbol wanted = .ok answer ∧
      (∀ table, answer = some table → ∃ index info, table = ⟨schema, index⟩ ∧
        schema.tables[index]? = some info ∧ info.name = wanted) ∧
      (answer = none → ∀ index info, index < schema.tables.length % u16Range →
        schema.tables[index]? = some info → info.name ≠ wanted) := by
  cases slot with
  | none =>
      exact ⟨none, bind_eq_ok.mpr ⟨none, searched, rfl⟩, by simp, fun _ => miss rfl⟩
  | some place =>
      obtain ⟨index, info, byNameHere, below, here, name⟩ := hit place rfl
      have small : index < u16Range := Nat.lt_trans below (Nat.mod_lt _ (by decide))
      have inside : index < schema.tables.length := Nat.lt_of_lt_of_le below (Nat.mod_le _ _)
      refine ⟨some ⟨schema, index⟩, bind_eq_ok.mpr ⟨some place, searched, ?_⟩, ?_, by simp⟩
      · refine bind_eq_ok.mpr ⟨index, indexed_eq_ok.mpr byNameHere, ?_⟩
        rw [DatabaseSchema.tableAt, if_pos inside, Nat.mod_eq_of_lt small]
        rfl
      · rintro _ ⟨rfl⟩
        exact ⟨index, info, rfl, here, name⟩

/-- The search of the index by name: what it finds has the name, and it finds a table
unless none of the first tables has the name. -/
theorem BuildSteps.search_byName
    (steps : BuildSteps unstable pools resolved order ordered schema) (wanted : Symbol) :
    ∃ slot, tryBinarySearch (nameAt schema.tables schema.byName) schema.byName.length wanted =
        .ok slot ∧
      (∀ place, slot = some place → ∃ index info, schema.byName[place]? = some index ∧
        index < schema.tables.length % u16Range ∧ schema.tables[index]? = some info ∧
          info.name = wanted) ∧
      (slot = none → ∀ index info, index < schema.tables.length % u16Range →
        schema.tables[index]? = some info → info.name ≠ wanted) := by
  have count : ordered.length = schema.tables.length := (mapM_ok steps.tables).length_eq
  obtain ⟨slot, searched, hit, miss⟩ := search_sortedByName unstable ordered wanted
  rw [← nameAt_congr (sortedByName unstable ordered) steps.sameNames, ← steps.byName] at searched
  refine ⟨slot, searched, ?_, ?_⟩
  · intro place slotEq
    obtain ⟨index, before, byNameHere, there, below, name⟩ := hit place slotEq
    have names := steps.sameNames index
    rw [there, Option.map_some] at names
    obtain ⟨info, here, nameEq⟩ := Option.map_eq_some_iff.mp names
    exact ⟨index, info, steps.byName ▸ byNameHere, count ▸ below, here, nameEq.trans name⟩
  · intro missing index info below here same
    have names := steps.sameNames index
    rw [here, Option.map_some] at names
    obtain ⟨before, there, nameEq⟩ := Option.map_eq_some_iff.mp names.symm
    exact miss missing index before (count ▸ below) there (nameEq.trans same)

/-- The search for a table by its symbol. -/
theorem BuildSteps.tableBySymbol_ok
    (steps : BuildSteps unstable pools resolved order ordered schema) (wanted : Symbol) :
    ∃ answer, schema.tableBySymbol wanted = .ok answer ∧
      (∀ table, answer = some table → ∃ index info, table = ⟨schema, index⟩ ∧
        schema.tables[index]? = some info ∧ info.name = wanted) ∧
      (answer = none → ∀ index info, index < schema.tables.length % u16Range →
        schema.tables[index]? = some info → info.name ≠ wanted) := by
  obtain ⟨slot, searched, hit, miss⟩ := steps.search_byName wanted
  exact DatabaseSchema.tableBySymbol_of_search searched hit miss

end Steps

/-- The name of the column that `primary_key` takes for a table: the column at the
table's start, cut to 32 bits, plus the offset of its last primary column, cut to 16. -/
def primaryColumnOf (rows : List RawRow) (old : Nat) : Option String :=
  ((tableGroups rows)[old]?).bind fun group => (lastPrimary group).bind fun offset =>
    (rows[((tableGroups rows).take old).flatten.length % u32Range + offset]?).map Row.columnName

theorem lastPrimary_named (symbols : String → Symbol) (group : List RawRow) :
    lastPrimary (group.map (Row.named symbols)) = lastPrimary group := by
  rw [lastPrimary, lastPrimary, ← List.map_reverse, List.findIdx?_map, List.length_map]
  rfl

/-- An item of one of the lists among all items. -/
theorem getElem?_flatten {Item : Type} {lists : List (List Item)} {old offset : Nat}
    {list : List Item} (here : lists[old]? = some list) (below : offset < list.length) :
    lists.flatten[(lists.take old).flatten.length + offset]? = list[offset]? := by
  conv_lhs => rw [flatten_eq_of_getElem? here]
  rw [List.append_assoc, List.getElem?_append_right (Nat.le_add_right _ _),
    Nat.add_sub_cancel_left, List.getElem?_append_left below]

section PrimaryColumn

variable {rows : List RawRow} {old offset : Nat} {group : List RawRow}

theorem primaryColumnOf_of_group (here : (tableGroups rows)[old]? = some group) :
    primaryColumnOf rows old = (lastPrimary group).bind fun offset =>
      (rows[((tableGroups rows).take old).flatten.length % u32Range + offset]?).map
        Row.columnName := by
  rw [primaryColumnOf, here]
  rfl

theorem getElem?_rows (here : (tableGroups rows)[old]? = some group)
    (below : offset < group.length) :
    rows[((tableGroups rows).take old).flatten.length + offset]? = some group[offset] := by
  have whole : (tableGroups rows).flatten = rows := List.flatten_splitBy _ _
  rw [← List.getElem?_eq_getElem below, ← getElem?_flatten here below, whole]

/-- The place that is read lies inside the columns. -/
theorem exists_primaryRow (here : (tableGroups rows)[old]? = some group)
    (primary : lastPrimary group = some offset) :
    ∃ row, rows[((tableGroups rows).take old).flatten.length % u32Range + offset]? = some row := by
  have bound := (List.getElem?_eq_some_iff.mp (getElem?_rows here (lastPrimary_lt primary))).1
  have cut := Nat.mod_le ((tableGroups rows).take old).flatten.length u32Range
  exact ⟨_, List.getElem?_eq_getElem (Nat.lt_of_le_of_lt (Nat.add_le_add_right cut offset) bound)⟩

theorem primaryColumnOf_eq_none (here : (tableGroups rows)[old]? = some group) :
    primaryColumnOf rows old = none ↔ ∀ row ∈ group, row.isPrimary = false := by
  rw [← lastPrimary_eq_none, primaryColumnOf_of_group here]
  cases primary : lastPrimary group with
  | none => simp
  | some offset =>
      obtain ⟨row, rowHere⟩ := exists_primaryRow here primary
      rw [Option.bind_some, rowHere]
      simp

/-- Where no start is cut, it is the last primary column. -/
theorem primaryColumnOf_eq (here : (tableGroups rows)[old]? = some group)
    (few : rows.length ≤ u32Range) :
    primaryColumnOf rows old =
      (lastPrimary group).bind fun offset => (group[offset]?).map Row.columnName := by
  rw [primaryColumnOf_of_group here]
  cases primary : lastPrimary group with
  | none => rfl
  | some offset =>
      have below := lastPrimary_lt primary
      have inside := getElem?_rows here below
      have bound := (List.getElem?_eq_some_iff.mp inside).1
      rw [Option.bind_some, Option.bind_some, Nat.mod_eq_of_lt (by omega), inside,
        List.getElem?_eq_getElem below]

end PrimaryColumn

section Accessors

variable [InternerOps Interner] [LawfulInterner Interner]
variable {unstable : UnstableSort (TableMeta × Nat) Symbol} {rows : List RawRow}
variable {symbols : String → Symbol} {pools : SchemaPools} {resolved : List ResolvedFk}
variable {order : List Nat} {ordered : List TableMeta} {schema : DatabaseSchema Interner}
variable {index old : Nat} {group : List RawRow}

/-- What the name and the primary key of a table read. -/
theorem BuiltFrom.accessors
    (built : BuiltFrom unstable rows symbols pools resolved order ordered schema)
    (place : order[index]? = some old) (here : (tableGroups rows)[old]? = some group) :
    (∀ row ∈ group, (TableRef.mk schema index).name = .ok row.tableName) ∧
      (lastPrimary group = none → (TableRef.mk schema index).primaryKey = .ok none) ∧
      ∀ primaryCol, primaryColumnOf rows old = some primaryCol → ∃ column,
        (TableRef.mk schema index).primaryKey = .ok (some column) ∧
          column.name = .ok primaryCol := by
  have whole : (tableGroups rows).flatten = rows := List.flatten_splitBy _ _
  have namedHere : (namedGroups symbols rows)[old]? = some (group.map (Row.named symbols)) := by
    rw [namedGroups, List.getElem?_map, here]
    rfl
  obtain ⟨info, infoHere, hasTable⟩ := built.steps.hasTable built.tables place namedHere
  have metaEq : (TableRef.mk schema index).meta = .ok info := indexed_eq_ok.mpr infoHere
  have primaryKey : info.primaryKey = lastPrimary group :=
    hasTable.primaryKey.trans (lastPrimary_named symbols group)
  refine ⟨?_, ?_, ?_⟩
  · intro row member
    refine bind_eq_ok.mpr ⟨info, metaEq, resolveExpected_eq_ok.mpr ?_⟩
    rw [← hasTable.name _ (List.mem_map_of_mem member)]
    have rowIn : row ∈ rows := whole ▸ List.mem_flatten_of_mem (List.mem_of_getElem? here) member
    exact built.names.of_mem rowIn row.tableName_mem_strings
  · intro noPrimary
    refine bind_eq_ok.mpr ⟨info, metaEq, ?_⟩
    rw [primaryKey, noPrimary]
    rfl
  · intro primaryCol primaryColEq
    rw [primaryColumnOf_of_group here] at primaryColEq
    obtain ⟨offset, primary, rowEq⟩ := Option.bind_eq_some_iff.mp primaryColEq
    obtain ⟨row, rowHere, rfl⟩ := Option.map_eq_some_iff.mp rowEq
    refine ⟨_, bind_eq_ok.mpr ⟨info, metaEq, by rw [primaryKey, primary]; rfl⟩, ?_⟩
    have start : info.columnsStart =
        ((tableGroups rows).take old).flatten.length % u32Range := by
      rw [hasTable.columnsStart, namedGroups, ← List.map_take, ← List.map_flatten, List.length_map]
    have namedRow : (namedGroups symbols rows).flatten[info.columnsStart + offset]? =
        some (row.named symbols) := by
      rw [namedGroups, ← List.map_flatten, whole, List.getElem?_map, start, rowHere]
      rfl
    obtain ⟨column, columnHere, nameEq⟩ := built.steps.column_name built.holds namedRow
    refine bind_eq_ok.mpr ⟨column, indexed_eq_ok.mpr columnHere, resolveExpected_eq_ok.mpr ?_⟩
    rw [nameEq]
    exact built.names.of_mem (List.mem_of_getElem? rowHere) (by simp [Row.strings])

/-- A table has a name. -/
theorem BuiltFrom.exists_name
    (built : BuiltFrom unstable rows symbols pools resolved order ordered schema)
    (place : order[index]? = some old) (here : (tableGroups rows)[old]? = some group) :
    ∃ row ∈ group, (TableRef.mk schema index).name = .ok row.tableName := by
  have nonempty : group ≠ [] := List.ne_nil_of_mem_splitBy (List.mem_of_getElem? here)
  obtain ⟨row, rest, rfl⟩ := List.exists_cons_of_ne_nil nonempty
  exact ⟨row, List.mem_cons_self, (built.accessors place here).1 row List.mem_cons_self⟩

end Accessors

end Boomerang
