import Boomerang.Foundation.Runs
import Boomerang.Schema.Naming

/-!
# The pools after the rows

The tables are the runs of rows with one table name. Every range of a table or column
starts where the pool ended before its first row. Starts and lengths are cast.
-/

namespace Boomerang

open Foundation

/-- Rows that follow each other in one table. -/
def sameTable {Name Kind : Type} [DecidableEq Name] (left right : Row Name Kind) : Bool :=
  decide (left.tableName = right.tableName)

/-- The rows of the tables, in the order the tables are added. -/
def tableGroups {Name Kind : Type} [DecidableEq Name] (rows : List (Row Name Kind)) :
    List (List (Row Name Kind)) :=
  rows.splitBy sameTable

/-- The checks of a row. -/
def Row.checks {Name Kind : Type} (row : Row Name Kind) : List Name :=
  row.checkDefs ++ row.domainChecks

/-- The offset of the last column of a table that is flagged primary. -/
def lastPrimary {Name Kind : Type} (group : List (Row Name Kind)) : Option Nat :=
  (group.reverse.findIdx? Row.isPrimary).map fun back => (group.length - 1 - back) % u16Range

/-- The column of a row that follows some others. -/
def columnOf (before : List SymbolRow) (row : SymbolRow) : Column where
  name := row.columnName
  dataType := row.dataType
  defaultValue := row.defaultExpr
  flags := .ofRow row.nullable row.isPrimary row.isUnique
  constraints := ⟨(before.flatMap Row.checks).length % u32Range, row.checks.length % u16Range⟩
  foreignKeys :=
    ⟨(before.flatMap Row.foreignKeys).length % u32Range, row.foreignKeys.length % u16Range⟩

/-- The table of a group that follows some rows. -/
structure IsTable (before group : List SymbolRow) (info : TableMeta) : Prop where
  nonempty : group ≠ []
  name : ∀ row ∈ group, row.tableName = info.name
  columnsStart : info.columnsStart = before.length % u32Range
  columnsLen : info.columnsLen = group.length % u16Range
  primaryKey : info.primaryKey = lastPrimary group
  fkStart : info.fkStart = (before.flatMap Row.foreignKeys).length % u32Range
  fkLen : info.fkLen = (group.flatMap Row.foreignKeys).length % u16Range

/-- The tables of some groups. -/
structure AreTables (groups : List (List SymbolRow)) (tables : List TableMeta) : Prop where
  length : tables.length = groups.length
  table : ∀ index group, groups[index]? = some group →
    ∃ info, tables[index]? = some info ∧ IsTable (groups.take index).flatten group info

/-- A foreign key before it is resolved. -/
def RawForeignKey.unresolved (fk : RawForeignKey Symbol) : ForeignKey :=
  ⟨fk.constraintName, fk.namespaceName, 0, 0, fk.onUpdate, fk.onDelete⟩

/-- The foreign keys of some groups, each with the index of its table. -/
def keySources (groups : List (List SymbolRow)) : List (Nat × RawForeignKey Symbol) :=
  groups.zipIdx.flatMap fun entry =>
    (entry.1.flatMap Row.foreignKeys).map fun fk => (entry.2, fk)

/-- What is left to resolve of the foreign keys, from a place of the pool on. -/
def unresolvedFrom (start : Nat) (sources : List (Nat × RawForeignKey Symbol)) :
    List UnresolvedFk :=
  (sources.zipIdx start).map fun entry =>
    ⟨entry.2, entry.1.1, entry.1.2.referencedTable, entry.1.2.referencedColumn⟩

/-- The pools hold the columns, checks and foreign keys of some rows. -/
structure HoldsRows (pools : SchemaPools) (groups : List (List SymbolRow)) : Prop where
  columnCount : pools.columns.length = groups.flatten.length
  column : ∀ index row, groups.flatten[index]? = some row →
    pools.columns[index]? = some (columnOf (groups.flatten.take index) row)
  columnNames : pools.columnNames = groups.flatten.map Row.columnName
  constraintPool : pools.constraintPool = groups.flatten.flatMap Row.checks
  foreignKeyPool : pools.foreignKeyPool =
    (groups.flatten.flatMap Row.foreignKeys).map RawForeignKey.unresolved
  unresolvedFks : pools.unresolvedFks = unresolvedFrom 0 (keySources groups)

/-- The pools while the rows of a table are added. -/
structure Adding (pools : SchemaPools) (groups : List (List SymbolRow))
    (current : List SymbolRow) : Prop where
  holds : HoldsRows pools (groups ++ [current])
  tables : AreTables groups pools.tables
  colsStart : pools.currentTableColsStart = groups.flatten.length % u32Range
  fkStart : pools.currentTableFkStart = (groups.flatten.flatMap Row.foreignKeys).length % u32Range
  primaryKey : pools.currentTablePk = lastPrimary current

/-- The state between two rows: the last table is not finished. -/
structure Between (pools : SchemaPools) (groups : List (List SymbolRow))
    (current : List SymbolRow) : Prop extends Adding pools groups current where
  nonempty : current ≠ []
  split : tableGroups (groups.flatten ++ current) = groups ++ [current]
  currentTable : ∀ row ∈ current, pools.currentTable = some row.tableName

theorem lenSince_ok {profile : Profile} {len start result : Nat} (order : start ≤ len)
    (success : lenSince profile len (start % u32Range) = .ok result) :
    result = (len - start) % u16Range := by
  unfold lenSince at success
  split at success
  · cases success
  · cases success
    simp only [u32Range, u16Range]
    omega

theorem lastPrimary_concat {Name Kind : Type} (group : List (Row Name Kind))
    (row : Row Name Kind) :
    lastPrimary (group ++ [row]) =
      if row.isPrimary then some (group.length % u16Range) else lastPrimary group := by
  unfold lastPrimary
  rw [List.reverse_concat, List.findIdx?_cons, List.length_append, List.length_singleton]
  split
  · simp
  · cases group.reverse.findIdx? Row.isPrimary with
    | none => rfl
    | some back =>
        simp only [Option.map_some, Option.some.injEq]
        congr 1
        omega

theorem lastPrimary_lt {Name Kind : Type} {group : List (Row Name Kind)} {offset : Nat}
    (primary : lastPrimary group = some offset) : offset < group.length := by
  obtain ⟨back, found, rfl⟩ := Option.map_eq_some_iff.mp primary
  have below := (List.findIdx?_eq_some_iff_getElem.mp found).1
  rw [List.length_reverse] at below
  exact Nat.lt_of_le_of_lt (Nat.mod_le _ _) (by omega)

theorem lastPrimary_isPrimary {Name Kind : Type} {group : List (Row Name Kind)} {offset : Nat}
    (few : group.length ≤ u16Range) (primary : lastPrimary group = some offset) :
    ∃ row, group[offset]? = some row ∧ row.isPrimary = true := by
  obtain ⟨back, found, rfl⟩ := Option.map_eq_some_iff.mp primary
  obtain ⟨below, flagged, _⟩ := List.findIdx?_eq_some_iff_getElem.mp found
  rw [List.length_reverse] at below
  rw [List.getElem_reverse] at flagged
  rw [Nat.mod_eq_of_lt (by omega)]
  exact ⟨_, List.getElem?_eq_getElem (by omega), flagged⟩

theorem lastPrimary_eq_none {Name Kind : Type} {group : List (Row Name Kind)} :
    lastPrimary group = none ↔ ∀ row ∈ group, row.isPrimary = false := by
  rw [lastPrimary, Option.map_eq_none_iff, List.findIdx?_eq_none_iff]
  simp

theorem keySources_concat (groups : List (List SymbolRow)) (group : List SymbolRow) :
    keySources (groups ++ [group]) = keySources groups ++
      (group.flatMap Row.foreignKeys).map fun fk => (groups.length, fk) := by
  simp [keySources, List.zipIdx_append]

theorem map_snd_keySources (groups : List (List SymbolRow)) :
    (keySources groups).map Prod.snd = groups.flatten.flatMap Row.foreignKeys := by
  induction groups using List.reverseRecOn with
  | nil => rfl
  | append_singleton groups group ih =>
      rw [keySources_concat, List.map_append, ih, List.flatten_concat, List.flatMap_append,
        List.map_map]
      simp [Function.comp_def]

theorem length_keySources (groups : List (List SymbolRow)) :
    (keySources groups).length = (groups.flatten.flatMap Row.foreignKeys).length := by
  rw [← map_snd_keySources, List.length_map]

theorem unresolvedFrom_append (start : Nat) (left right : List (Nat × RawForeignKey Symbol)) :
    unresolvedFrom start (left ++ right) =
      unresolvedFrom start left ++ unresolvedFrom (start + left.length) right := by
  simp [unresolvedFrom, List.zipIdx_append]

/-- The foreign keys of a row. -/
theorem foldl_pushForeignKey (fks : List (RawForeignKey Symbol)) (pools : SchemaPools) :
    fks.foldl SchemaPools.pushForeignKey pools =
      { pools with
        foreignKeyPool := pools.foreignKeyPool ++ fks.map RawForeignKey.unresolved
        unresolvedFks := pools.unresolvedFks ++
          unresolvedFrom pools.foreignKeyPool.length
          (fks.map fun fk => (pools.tables.length, fk)) } := by
  induction fks generalizing pools with
  | nil => simp [unresolvedFrom]
  | cons fk fks ih =>
      rw [List.foldl_cons, ih]
      simp [SchemaPools.pushForeignKey, RawForeignKey.unresolved, unresolvedFrom]

/-- An empty group holds no rows. -/
theorem HoldsRows.concat_nil {pools : SchemaPools} {groups : List (List SymbolRow)}
    (holds : HoldsRows pools groups) : HoldsRows pools (groups ++ [[]]) := by
  obtain ⟨columnCount, column, columnNames, constraintPool, foreignKeyPool, unresolvedFks⟩ := holds
  have same : (groups ++ [[]]).flatten = groups.flatten := by simp
  constructor <;> (try rw [same]) <;> try assumption
  rw [keySources_concat, unresolvedFks]
  simp

theorem AreTables.concat {groups : List (List SymbolRow)} {tables : List TableMeta}
    {group : List SymbolRow} {info : TableMeta} (are : AreTables groups tables)
    (last : IsTable groups.flatten group info) :
    AreTables (groups ++ [group]) (tables ++ [info]) := by
  refine ⟨by simp [are.length], ?_⟩
  intro index found here
  rcases Nat.lt_trichotomy index groups.length with below | rfl | above
  · rw [List.getElem?_append_left below] at here
    obtain ⟨meta', there, isTable⟩ := are.table index found here
    refine ⟨meta', ?_, ?_⟩
    · rw [List.getElem?_append_left (by rw [are.length]; exact below)]
      exact there
    · rw [List.take_append_of_le_length (Nat.le_of_lt below)]
      exact isTable
  · rw [List.getElem?_concat_length] at here
    cases here
    refine ⟨info, ?_, ?_⟩
    · rw [← are.length, List.getElem?_concat_length]
    · rw [List.take_left]
      exact last
  · rw [List.getElem?_eq_none (by simp; omega)] at here
    cases here

theorem keySources_concat_row (groups : List (List SymbolRow)) (current : List SymbolRow)
    (row : SymbolRow) :
    keySources (groups ++ [current ++ [row]]) = keySources (groups ++ [current]) ++
      row.foreignKeys.map fun fk => (groups.length, fk) := by
  simp [keySources_concat]

/-- A row is added to the columns, the checks and the foreign keys. -/
theorem HoldsRows.concat {pools : SchemaPools} {groups : List (List SymbolRow)}
    {current : List SymbolRow} {row : SymbolRow} (holds : HoldsRows pools (groups ++ [current]))
    (count : pools.tables.length = groups.length) (next : SchemaPools)
    (columns : next.columns =
      pools.columns ++ [columnOf (groups ++ [current]).flatten row])
    (columnNames : next.columnNames = pools.columnNames ++ [row.columnName])
    (constraintPool : next.constraintPool = pools.constraintPool ++ row.checks)
    (foreignKeyPool : next.foreignKeyPool =
      pools.foreignKeyPool ++ row.foreignKeys.map RawForeignKey.unresolved)
    (unresolvedFks : next.unresolvedFks = pools.unresolvedFks ++
      unresolvedFrom pools.foreignKeyPool.length
        (row.foreignKeys.map fun fk => (pools.tables.length, fk))) :
    HoldsRows next (groups ++ [current ++ [row]]) := by
  have whole : (groups ++ [current ++ [row]]).flatten = (groups ++ [current]).flatten ++ [row] := by
    simp
  constructor
  · rw [whole, columns, List.length_append, List.length_append, holds.columnCount]
    rfl
  · intro index found here
    rw [whole] at here ⊢
    rw [columns]
    rcases Nat.lt_trichotomy index (groups ++ [current]).flatten.length with below | rfl | above
    · rw [List.getElem?_append_left below] at here
      rw [List.getElem?_append_left (by rw [holds.columnCount]; exact below),
        List.take_append_of_le_length (Nat.le_of_lt below)]
      exact holds.column index found here
    · rw [List.getElem?_concat_length] at here
      cases here
      rw [← holds.columnCount, List.getElem?_concat_length, holds.columnCount, List.take_left]
    · rw [List.getElem?_eq_none (by simp at above ⊢; omega)] at here
      cases here
  · rw [whole, columnNames, holds.columnNames, List.map_append]
    rfl
  · rw [whole, constraintPool, holds.constraintPool, List.flatMap_append]
    simp
  · rw [whole, foreignKeyPool, holds.foreignKeyPool, List.flatMap_append, List.map_append]
    simp
  · rw [keySources_concat_row, unresolvedFrom_append, unresolvedFks, holds.unresolvedFks, count,
      holds.foreignKeyPool, List.length_map, Nat.zero_add, length_keySources]

/-- The column of a row is added to the current table. -/
theorem Adding.pushColumn {profile : Profile} {pools next : SchemaPools}
    {groups : List (List SymbolRow)} {current : List SymbolRow} {row : SymbolRow}
    (adding : Adding pools groups current) (success : pools.pushColumn profile row = .ok next) :
    Adding next groups (current ++ [row]) ∧ next.currentTable = pools.currentTable := by
  obtain ⟨holds, tables, colsStart, fkStart, primaryKey⟩ := adding
  obtain ⟨constraintsLen, constraintsEq, success⟩ := bind_eq_ok.mp success
  obtain ⟨fksLen, fksEq, success⟩ := bind_eq_ok.mp success
  rw [foldl_pushForeignKey] at fksEq success
  cases success
  have checksEq := lenSince_ok (by simp) constraintsEq
  have keysEq := lenSince_ok (by simp) fksEq
  have offset : (pools.columns.length - pools.currentTableColsStart) % u16Range =
      current.length % u16Range := by
    rw [holds.columnCount, colsStart, List.flatten_concat, List.length_append]
    simp only [u32Range, u16Range]
    omega
  refine ⟨⟨?_, tables, colsStart, fkStart, ?_⟩, rfl⟩
  · refine holds.concat tables.length _ ?_ rfl rfl rfl rfl
    dsimp only at keysEq ⊢
    rw [List.length_append, Nat.add_sub_cancel_left] at checksEq keysEq
    rw [checksEq, keysEq, holds.constraintPool, holds.foreignKeyPool, List.length_map,
      List.length_map]
    rfl
  · rw [lastPrimary_concat, ← primaryKey, ← offset]

/-- The current table is finished. -/
theorem Between.finishTable {profile : Profile} {pools next : SchemaPools}
    {groups : List (List SymbolRow)} {current : List SymbolRow}
    (between : Between pools groups current) (success : pools.finishTable profile = .ok next) :
    HoldsRows next (groups ++ [current]) ∧ AreTables (groups ++ [current]) next.tables := by
  obtain ⟨⟨holds, tables, colsStart, fkStart, primaryKey⟩, nonempty, split, currentTable⟩ := between
  obtain ⟨first, rest, rfl⟩ := List.exists_cons_of_ne_nil nonempty
  unfold SchemaPools.finishTable at success
  rw [currentTable first List.mem_cons_self] at success
  dsimp only at success
  obtain ⟨columnsLen, columnsEq, success⟩ := bind_eq_ok.mp success
  obtain ⟨fkLen, fkEq, success⟩ := bind_eq_ok.mp success
  cases success
  refine ⟨⟨holds.columnCount, holds.column, holds.columnNames, holds.constraintPool,
    holds.foreignKeyPool, holds.unresolvedFks⟩, tables.concat ?_⟩
  rw [colsStart] at columnsEq
  rw [fkStart] at fkEq
  have columnsEq := lenSince_ok (by rw [holds.columnCount]; simp) columnsEq
  have fkEq := lenSince_ok (by rw [holds.foreignKeyPool]; simp) fkEq
  refine ⟨nonempty, ?_, ?_, ?_, ?_, ?_, ?_⟩
  · intro row member
    have first := currentTable first List.mem_cons_self
    rw [currentTable row member] at first
    exact Option.some.inj first
  · exact colsStart
  · rw [columnsEq, holds.columnCount]
    simp
  · exact primaryKey
  · exact fkStart
  · rw [fkEq, holds.foreignKeyPool]
    simp

/-- The first row of a table, when the tables before it are finished. -/
theorem HoldsRows.startTable {pools : SchemaPools} {groups : List (List SymbolRow)}
    (holds : HoldsRows pools groups) (tables : AreTables groups pools.tables) (name : Symbol) :
    Adding { pools with
      currentTable := some name
      currentTableColsStart := pools.columns.length % u32Range
      currentTableFkStart := pools.foreignKeyPool.length % u32Range
      currentTablePk := none } groups [] := by
  refine ⟨?_, tables, by rw [← holds.columnCount], ?_, rfl⟩
  · obtain ⟨columnCount, column, columnNames, constraintPool, foreignKeyPool, unresolvedFks⟩ :=
      holds.concat_nil
    exact ⟨columnCount, column, columnNames, constraintPool, foreignKeyPool, unresolvedFks⟩
  · rw [holds.foreignKeyPool, List.length_map]

/-- A row is added to a builder that holds some. -/
theorem Between.addRow {profile : Profile} {pools next : SchemaPools}
    {groups : List (List SymbolRow)} {current : List SymbolRow} {row : SymbolRow}
    (between : Between pools groups current) (success : pools.addRow profile row = .ok next) :
    ∃ later last, Between next later last ∧
      later.flatten ++ last = (groups.flatten ++ current) ++ [row] := by
  obtain ⟨started, startEq, success⟩ := bind_eq_ok.mp success
  unfold SchemaPools.startTable at startEq
  have lastTable : ∀ final ∈ current.getLast?, pools.currentTable = some final.tableName :=
    fun final member => between.currentTable final (List.mem_of_mem_getLast? member)
  split at startEq
  · rename_i goesOn
    cases startEq
    obtain ⟨adding, sameCurrent⟩ := between.toAdding.pushColumn success
    refine ⟨groups, current ++ [row], ⟨adding, by simp, ?_, ?_⟩, (List.append_assoc _ _ _).symm⟩
    · rw [← List.append_assoc]
      refine splitBy_concat_of_same between.split fun final member => decide_eq_true ?_
      exact Option.some.inj ((lastTable final member).symm.trans goesOn.symm)
    · intro other member
      rw [sameCurrent]
      rcases List.mem_append.mp member with early | late
      · exact between.currentTable other early
      · rw [List.mem_singleton.mp late, goesOn]
  · rename_i starts
    obtain ⟨finished, finishEq, startEq⟩ := bind_eq_ok.mp startEq
    cases startEq
    obtain ⟨holds, tables⟩ := between.finishTable finishEq
    obtain ⟨adding, sameCurrent⟩ := (holds.startTable tables row.tableName).pushColumn success
    refine ⟨groups ++ [current], [row], ⟨adding, by simp, ?_, ?_⟩, by simp⟩
    · rw [List.flatten_concat]
      refine splitBy_concat_of_different between.split fun final member => decide_eq_false ?_
      intro same
      exact starts (by rw [lastTable final member, same])
    · intro other member
      rw [List.mem_singleton.mp member, sameCurrent]

/-- A new builder. -/
theorem holdsRows_empty : HoldsRows .empty [] ∧ AreTables [] [] :=
  ⟨⟨rfl, fun _ _ none => (nomatch none), rfl, rfl, rfl, rfl⟩, rfl, fun _ _ none => (nomatch none)⟩

/-- The first row. -/
theorem addRow_empty {profile : Profile} {next : SchemaPools} {row : SymbolRow}
    (success : SchemaPools.empty.addRow profile row = .ok next) : Between next [] [row] := by
  obtain ⟨started, startEq, success⟩ := bind_eq_ok.mp success
  cases startEq
  obtain ⟨holds, tables⟩ := holdsRows_empty
  obtain ⟨adding, sameCurrent⟩ := (holds.startTable tables row.tableName).pushColumn success
  refine ⟨adding, by simp, ?_, ?_⟩
  · exact List.splitBy_of_isChain (List.cons_ne_nil _ _) (List.isChain_singleton row)
  · intro other member
    rw [List.mem_singleton.mp member, sameCurrent]

theorem Between.addRows {profile : Profile} {pools final : SchemaPools}
    {groups : List (List SymbolRow)} {current rows : List SymbolRow}
    (between : Between pools groups current)
    (success : rows.foldlM (SchemaPools.addRow profile) pools = .ok final) :
    ∃ later last, Between final later last ∧
      later.flatten ++ last = (groups.flatten ++ current) ++ rows := by
  induction rows generalizing pools groups current with
  | nil =>
      cases success
      exact ⟨groups, current, between, (List.append_nil _).symm⟩
  | cons row rows ih =>
      obtain ⟨next, added, success⟩ := bind_eq_ok.mp success
      obtain ⟨later, last, after, same⟩ := between.addRow added
      obtain ⟨latest, final, end', whole⟩ := ih after success
      exact ⟨latest, final, end', by rw [whole, same, List.append_assoc]; rfl⟩

/-- The pools that `build` starts from: those of the rows, with every table finished. -/
theorem finishTable_ok {profile : Profile} {pools final : SchemaPools} {rows : List SymbolRow}
    (added : rows.foldlM (SchemaPools.addRow profile) .empty = .ok pools)
    (finished : pools.finishTable profile = .ok final) :
    HoldsRows final (tableGroups rows) ∧ AreTables (tableGroups rows) final.tables := by
  cases rows with
  | nil =>
      cases added
      cases finished
      exact holdsRows_empty
  | cons row rows =>
      obtain ⟨next, first, added⟩ := bind_eq_ok.mp added
      obtain ⟨later, last, between, whole⟩ := (addRow_empty first).addRows added
      have split := between.split
      rw [whole] at split
      rw [show row :: rows = ([].flatten ++ [row]) ++ rows from rfl, split]
      exact between.finishTable finished

end Boomerang
