import Boomerang.Schema.TableGroups

/-!
# Resolution of foreign keys

A foreign key resolves when the table it names was added and has the column it names.
The keys that resolve are kept in their order, and every range of keys becomes the
range of those kept from it.
-/

namespace Boomerang

open Foundation

section ByName

variable {unstable : UnstableSort (TableMeta × Nat) Symbol} {tables : List TableMeta}

/-- The entries sorted by name are the first tables with their indices. -/
theorem mem_sortedByName {entry : TableMeta × Nat} :
    entry ∈ unstable.sort (fun entry => entry.1.name)
        (tables.zipIdx.take (tables.length % u16Range)) ↔
      tables[entry.2]? = some entry.1 ∧ entry.2 < tables.length % u16Range := by
  rw [(unstable.perm _ _).mem_iff, List.mem_iff_getElem?]
  constructor
  · rintro ⟨place, here⟩
    rw [List.getElem?_take] at here
    split at here
    · rename_i below
      rw [List.getElem?_zipIdx] at here
      obtain ⟨info, there, rfl⟩ := Option.map_eq_some_iff.mp here
      rw [Nat.zero_add]
      exact ⟨there, below⟩
    · cases here
  · rintro ⟨here, below⟩
    refine ⟨entry.2, ?_⟩
    rw [List.getElem?_take, if_pos below, List.getElem?_zipIdx, here, Nat.zero_add]
    rfl

/-- What the index by name reads of a sorted entry. -/
theorem nameAt_sortedByName {place : Nat} {entry : TableMeta × Nat}
    (here : (unstable.sort (fun entry => entry.1.name)
      (tables.zipIdx.take (tables.length % u16Range)))[place]? = some entry) :
    (sortedByName unstable tables)[place]? = some entry.2 ∧
      nameAt tables (sortedByName unstable tables) place = .ok entry.1.name := by
  have stored := (mem_sortedByName.mp (List.mem_of_getElem? here)).1
  have index : (sortedByName unstable tables)[place]? = some entry.2 := by
    rw [sortedByName, List.getElem?_map, here]
    rfl
  exact ⟨index, bind_eq_ok.mpr ⟨entry.2, indexed_eq_ok.mpr index,
    bind_eq_ok.mpr ⟨entry.1, indexed_eq_ok.mpr stored, rfl⟩⟩⟩

/-- The index by name finds a table of a name, if one of the first tables has it. -/
theorem search_sortedByName (unstable : UnstableSort (TableMeta × Nat) Symbol)
    (tables : List TableMeta) (wanted : Symbol) :
    ∃ found, tryBinarySearch (nameAt tables (sortedByName unstable tables))
        (sortedByName unstable tables).length wanted = .ok found ∧
      (∀ slot, found = some slot →
        ∃ index info, (sortedByName unstable tables)[slot]? = some index ∧
        tables[index]? = some info ∧ index < tables.length % u16Range ∧ info.name = wanted) ∧
      (found = none → ∀ index info, index < tables.length % u16Range →
        tables[index]? = some info → info.name ≠ wanted) := by
  let sorted := unstable.sort (fun entry => entry.1.name)
    (tables.zipIdx.take (tables.length % u16Range))
  have names : ∀ place entry, sorted[place]? = some entry →
      nameAt tables (sortedByName unstable tables) place = .ok entry.1.name :=
    fun place entry here => (nameAt_sortedByName here).2
  obtain ⟨found, searched, hit, miss⟩ :=
    tryBinarySearch_sorted names (unstable.ascends _ _) wanted
  refine ⟨found, by rw [sortedByName, List.length_map]; exact searched, ?_, ?_⟩
  · intro slot foundEq
    obtain ⟨entry, here, same⟩ := hit slot foundEq
    obtain ⟨stored, below⟩ := mem_sortedByName.mp (List.mem_of_getElem? here)
    exact ⟨entry.2, entry.1, (nameAt_sortedByName here).1, stored, below, same⟩
  · intro missing index info below stored
    exact miss missing (info, index) (mem_sortedByName.mpr ⟨stored, below⟩)

end ByName

/-- All counts of some tables fit a `u16`. -/
structure Narrow {Name Kind : Type} (groups : List (List (Row Name Kind))) : Prop where
  tables : groups.length < u16Range
  columns : ∀ group ∈ groups, group.length < u16Range
  foreignKeys : ∀ group ∈ groups, (group.flatMap Row.foreignKeys).length < u16Range

theorem length_flatten_le {Item : Type} {lists : List (List Item)} {bound : Nat}
    (each : ∀ list ∈ lists, list.length ≤ bound) : lists.flatten.length ≤ lists.length * bound := by
  induction lists with
  | nil => exact Nat.zero_le _
  | cons list lists ih =>
      have first := each list List.mem_cons_self
      have rest := ih fun other member => each other (List.mem_cons_of_mem _ member)
      rw [List.flatten_cons, List.length_append, List.length_cons, Nat.succ_mul]
      omega

namespace Narrow

variable {Name Kind : Type} {groups : List (List (Row Name Kind))}

/-- Counts that fit a `u16` for each of fewer than 2^16 tables fit a `u32` in all. -/
theorem total {Item : Type} {lists : List (List Item)} (few : lists.length < u16Range)
    (each : ∀ list ∈ lists, list.length < u16Range) : lists.flatten.length < u32Range := by
  have bound := length_flatten_le fun list member => Nat.le_pred_of_lt (each list member)
  have product : lists.length * (u16Range - 1) ≤ (u16Range - 1) * (u16Range - 1) :=
    Nat.mul_le_mul_right _ (Nat.le_pred_of_lt few)
  have wide : (u16Range - 1) * (u16Range - 1) < u32Range := by decide
  exact Nat.lt_of_le_of_lt (Nat.le_trans bound product) wide

theorem columnTotal (narrow : Narrow groups) : groups.flatten.length < u32Range :=
  total narrow.tables narrow.columns

theorem foreignKeyTotal (narrow : Narrow groups) :
    (groups.flatten.flatMap Row.foreignKeys).length < u32Range := by
  have same : groups.flatten.flatMap Row.foreignKeys =
      (groups.map fun group => group.flatMap Row.foreignKeys).flatten := by
    rw [List.flatMap_def, List.map_flatten, List.flatten_flatten, List.map_map]
    rfl
  rw [same]
  refine total (by rw [List.length_map]; exact narrow.tables) ?_
  intro list member
  obtain ⟨group, listed, rfl⟩ := List.mem_map.mp member
  exact narrow.foreignKeys group listed

end Narrow

/-- No two tables have one name: the rows of every table follow each other. -/
def Consecutive {Name Kind : Type} (groups : List (List (Row Name Kind))) : Prop :=
  groups.Pairwise fun left right => ∀ row ∈ left, ∀ other ∈ right, row.tableName ≠ other.tableName

instance {Name Kind : Type} [DecidableEq Name] (groups : List (List (Row Name Kind))) :
    Decidable (Consecutive groups) :=
  inferInstanceAs (Decidable (List.Pairwise _ groups))

theorem Consecutive.index_eq {Name Kind : Type} {groups : List (List (Row Name Kind))}
    (consecutive : Consecutive groups) {first second : Nat} {left right : List (Row Name Kind)}
    {row other : Row Name Kind} (here : groups[first]? = some left)
    (there : groups[second]? = some right) (rowIn : row ∈ left) (otherIn : other ∈ right)
    (same : row.tableName = other.tableName) : first = second := by
  obtain ⟨firstBelow, rfl⟩ := List.getElem?_eq_some_iff.mp here
  obtain ⟨secondBelow, rfl⟩ := List.getElem?_eq_some_iff.mp there
  rcases Nat.lt_trichotomy first second with less | equal | more
  · exact absurd same
      (List.pairwise_iff_getElem.mp consecutive first second _ _ less row rowIn other otherIn)
  · exact equal
  · exact absurd same.symm
      (List.pairwise_iff_getElem.mp consecutive second first _ _ more other otherIn row rowIn)

/-- The rows before a group, the group, and the rows after it. -/
theorem flatten_eq_of_getElem? {Item : Type} {lists : List (List Item)} {index : Nat}
    {list : List Item} (here : lists[index]? = some list) :
    lists.flatten = (lists.take index).flatten ++ list ++ (lists.drop (index + 1)).flatten := by
  obtain ⟨below, rfl⟩ := List.getElem?_eq_some_iff.mp here
  rw [List.append_assoc, ← List.flatten_cons, ← List.drop_eq_getElem_cons below,
    ← List.flatten_append, List.take_append_drop]

section Tables

variable {pools : SchemaPools} {groups : List (List SymbolRow)}

theorem AreTables.of_getElem? {tables : List TableMeta} (are : AreTables groups tables)
    {index : Nat} {info : TableMeta} (here : tables[index]? = some info) :
    ∃ group, groups[index]? = some group ∧ IsTable (groups.take index).flatten group info := by
  obtain ⟨below, _⟩ := List.getElem?_eq_some_iff.mp here
  have there := List.getElem?_eq_getElem (are.length ▸ below)
  obtain ⟨other, otherEq, isTable⟩ := are.table index _ there
  cases here.symm.trans otherEq
  exact ⟨_, there, isTable⟩

/-- The range of a table's columns, none of its bounds being cut. -/
theorem Narrow.columnRange (narrow : Narrow groups) {index : Nat} {group : List SymbolRow}
    {info : TableMeta} (here : groups[index]? = some group)
    (isTable : IsTable (groups.take index).flatten group info) :
    info.columnsStart = (groups.take index).flatten.length ∧ info.columnsLen = group.length := by
  have total := narrow.columnTotal
  rw [flatten_eq_of_getElem? here, List.length_append, List.length_append] at total
  rw [isTable.columnsStart, isTable.columnsLen]
  exact ⟨Nat.mod_eq_of_lt (by omega),
    Nat.mod_eq_of_lt (narrow.columns group (List.mem_of_getElem? here))⟩

/-- The names of the columns of a group. -/
theorem HoldsRows.columnNames_ranged (holds : HoldsRows pools groups) {index : Nat}
    {group : List SymbolRow} (here : groups[index]? = some group) :
    ranged pools.columnNames (groups.take index).flatten.length group.length =
      .ok (group.map Row.columnName) := by
  rw [holds.columnNames, flatten_eq_of_getElem? here, List.map_append, List.map_append,
    ← List.length_map Row.columnName, ← List.length_map Row.columnName]
  exact ranged_middle _ _ _

/-- The names of a table's columns. -/
theorem HoldsRows.columnNames_slice (holds : HoldsRows pools groups) (narrow : Narrow groups)
    {index : Nat} {group : List SymbolRow} {info : TableMeta} (here : groups[index]? = some group)
    (isTable : IsTable (groups.take index).flatten group info) :
    ranged pools.columnNames info.columnsStart info.columnsLen =
      .ok (group.map Row.columnName) := by
  obtain ⟨start, len⟩ := narrow.columnRange here isTable
  rw [start, len]
  exact holds.columnNames_ranged here

/-- What is found is a row with the two names; under consecutive rows whatever there is
is found. -/
theorem HoldsRows.findColumn_ok (holds : HoldsRows pools groups)
    (tables : AreTables groups pools.tables) (narrow : Narrow groups)
    {unstable : UnstableSort (TableMeta × Nat) Symbol} {table column : Symbol}
    {found : Option (Nat × Nat)}
    (success : pools.findColumn (sortedByName unstable pools.tables) table column = .ok found) :
    (∀ index place, found = some (index, place) → ∃ group row, groups[index]? = some group ∧
        group[place]? = some row ∧ row.tableName = table ∧ row.columnName = column) ∧
      (found = none → Consecutive groups → ∀ group ∈ groups, ∀ row ∈ group,
        row.tableName = table → row.columnName ≠ column) := by
  obtain ⟨slot, searched, hit, miss⟩ := search_sortedByName unstable pools.tables table
  unfold SchemaPools.findColumn at success
  obtain ⟨_, slotEq, success⟩ := bind_eq_ok.mp success
  cases slotEq.symm.trans searched
  have small : pools.tables.length % u16Range = pools.tables.length :=
    Nat.mod_eq_of_lt (by rw [tables.length]; exact narrow.tables)
  cases slot with
  | none =>
      cases success
      refine ⟨by simp, fun _ _ group groupIn row rowIn sameTable _ => ?_⟩
      obtain ⟨index, here⟩ := List.getElem?_of_mem groupIn
      obtain ⟨info, stored, isTable⟩ := tables.table index group here
      have below := (List.getElem?_eq_some_iff.mp stored).1
      exact miss rfl index info (by rw [small]; exact below) stored
        ((isTable.name row rowIn).symm.trans sameTable)
  | some slot =>
      obtain ⟨index, info, slotEq, stored, _, name⟩ := hit slot rfl
      obtain ⟨group, here, isTable⟩ := tables.of_getElem? stored
      obtain ⟨_, indexEq, success⟩ := bind_eq_ok.mp success
      cases (indexed_eq_ok.mp indexEq).symm.trans slotEq
      obtain ⟨_, infoEq, success⟩ := bind_eq_ok.mp success
      cases (indexed_eq_ok.mp infoEq).symm.trans stored
      obtain ⟨_, namesEq, success⟩ := bind_eq_ok.mp success
      cases namesEq.symm.trans (holds.columnNames_slice narrow here isTable)
      cases success
      have short := narrow.columns group (List.mem_of_getElem? here)
      refine ⟨?_, ?_⟩
      · intro foundIndex place foundEq
        obtain ⟨at', placed, pairEq⟩ := Option.map_eq_some_iff.mp foundEq
        cases pairEq
        obtain ⟨below, same, _⟩ := List.findIdx?_eq_some_iff_getElem.mp placed
        rw [List.length_map] at below
        rw [Nat.mod_eq_of_lt (Nat.lt_trans below short)]
        refine ⟨group, group[at'], here, List.getElem?_eq_getElem below, ?_, ?_⟩
        · exact (isTable.name _ (List.getElem_mem below)).trans name
        · simpa using same
      · intro foundEq consecutive other otherIn row rowIn sameTable sameColumn
        have absent := List.findIdx?_eq_none_iff.mp (Option.map_eq_none_iff.mp foundEq)
        obtain ⟨otherIndex, there⟩ := List.getElem?_of_mem otherIn
        obtain ⟨first, rest, rfl⟩ := List.exists_cons_of_ne_nil isTable.nonempty
        have sameIndex := consecutive.index_eq here there List.mem_cons_self rowIn
          ((isTable.name first List.mem_cons_self).trans (name.trans sameTable.symm))
        subst sameIndex
        cases here.symm.trans there
        exact absurd (absent row.columnName (List.mem_map_of_mem rowIn)) (by simp [sameColumn])

end Tables

end Boomerang
