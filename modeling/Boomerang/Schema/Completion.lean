import Boomerang.Interner.Room
import Boomerang.Schema.DependencyOrder
import Boomerang.Schema.InternerCalls

/-!
# Builds that return

`build` indexes only what `add_row` stored: it never panics on the pools of added rows.
`add_row` panics in a release build only when the interner does, so rows whose strings
fit one region are built.
-/

namespace Boomerang

open Foundation

section Building

variable {unstable : UnstableSort (TableMeta × Nat) Symbol} {pools : SchemaPools}
variable {groups : List (List SymbolRow)}

/-- The search for a referenced column returns. -/
theorem HoldsRows.findColumn_returns (holds : HoldsRows pools groups)
    (tables : AreTables groups pools.tables) (table column : Symbol) :
    ∃ answer, pools.findColumn (sortedByName unstable pools.tables) table column = .ok answer := by
  obtain ⟨slot, searched, hit, _⟩ := search_sortedByName unstable pools.tables table
  refine bind_returns searched ?_
  cases slot with
  | none => exact ⟨none, rfl⟩
  | some slot =>
      obtain ⟨index, info, slotEq, stored, _⟩ := hit slot rfl
      obtain ⟨group, here, isTable⟩ := tables.of_getElem? stored
      refine bind_returns (indexed_eq_ok.mpr slotEq) ?_
      refine bind_returns (indexed_eq_ok.mpr stored) ?_
      exact bind_returns (holds.ranged_columnNames here isTable) ⟨_, rfl⟩

theorem HoldsRows.resolution_returns (holds : HoldsRows pools groups)
    (tables : AreTables groups pools.tables)
    (unstable : UnstableSort (TableMeta × Nat) Symbol) :
    ∃ resolved, pools.unresolvedFks.filterMapM
      (pools.resolve (sortedByName unstable pools.tables)) = .ok resolved := by
  refine exists_filterMapM_ok fun unresolved _ => ?_
  obtain ⟨answer, answered⟩ :=
    holds.findColumn_returns tables unresolved.refTableSym unresolved.refColumnSym
  exact bind_returns answered ⟨_, rfl⟩

/-- The tables are there to be put into the new order. -/
theorem AreTables.reorder_returns (tables : AreTables groups pools.tables) {order : List Nat}
    (perm : order.Perm (List.range groups.length)) :
    ∃ ordered, order.mapM (indexed pools.tables) = .ok ordered ∧
      ∀ info ∈ ordered, info ∈ pools.tables := by
  have each : ∀ old ∈ order, ∃ info, indexed pools.tables old = .ok info := by
    intro old member
    have below := List.mem_range.mp (perm.mem_iff.mp member)
    rw [← tables.length] at below
    exact ⟨_, indexed_eq_ok.mpr (List.getElem?_eq_getElem below)⟩
  obtain ⟨ordered, success⟩ := exists_mapM_ok each
  refine ⟨ordered, success, fun info member => ?_⟩
  obtain ⟨old, _, taken⟩ := (mem_mapM_ok success).mp member
  exact List.mem_of_getElem? (indexed_eq_ok.mp taken)

/-- The keys of some rows lie inside the pool, also where their range is cut. -/
theorem remapRange_returns (resolved : List ResolvedFk)
    (before slice after : List (RawForeignKey Symbol)) :
    ∃ range, remapRange resolved (before ++ slice ++ after).length (before.length % u32Range)
      (slice.length % u16Range) = .ok range := by
  have start := Nat.mod_le before.length u32Range
  have len := Nat.mod_le slice.length u16Range
  refine ⟨_, if_pos ?_⟩
  rw [List.length_append, List.length_append]
  omega

theorem HoldsRows.foreignKeyPool_length (holds : HoldsRows pools groups) :
    pools.foreignKeyPool.length = (groups.flatten.flatMap Row.foreignKeys).length := by
  rw [holds.foreignKeyPool, List.length_map]

/-- The columns are renumbered. -/
theorem HoldsRows.columns_return (holds : HoldsRows pools groups) (resolved : List ResolvedFk) :
    ∃ columns, pools.columns.mapM (Column.remap resolved pools.foreignKeyPool.length) =
      .ok columns := by
  refine exists_mapM_ok fun column member => ?_
  obtain ⟨index, here⟩ := List.getElem?_of_mem member
  have below := (List.getElem?_eq_some_iff.mp here).1
  rw [holds.columnCount] at below
  have stored := holds.column index _ (List.getElem?_eq_getElem below)
  cases here.symm.trans stored
  have whole : groups.flatten.flatMap Row.foreignKeys =
      (groups.flatten.take index).flatMap Row.foreignKeys ++ groups.flatten[index].foreignKeys ++
        (groups.flatten.drop (index + 1)).flatMap Row.foreignKeys := by
    conv_lhs => rw [← List.take_append_drop index groups.flatten, List.drop_eq_getElem_cons below]
    rw [List.flatMap_append, List.flatMap_cons, List.append_assoc]
  obtain ⟨range, success⟩ := remapRange_returns resolved
    ((groups.flatten.take index).flatMap Row.foreignKeys) groups.flatten[index].foreignKeys
    ((groups.flatten.drop (index + 1)).flatMap Row.foreignKeys)
  rw [← whole, ← holds.foreignKeyPool_length] at success
  exact bind_returns success ⟨_, rfl⟩

/-- The tables are renumbered. -/
theorem HoldsRows.tables_return (holds : HoldsRows pools groups)
    (tables : AreTables groups pools.tables) (resolved : List ResolvedFk)
    {ordered : List TableMeta} (inside : ∀ info ∈ ordered, info ∈ pools.tables) :
    ∃ renumbered, ordered.mapM (TableMeta.remap resolved pools.foreignKeyPool.length) =
      .ok renumbered := by
  refine exists_mapM_ok fun info member => ?_
  obtain ⟨index, here⟩ := List.getElem?_of_mem (inside info member)
  obtain ⟨group, groupHere, isTable⟩ := tables.of_getElem? here
  obtain ⟨range, success⟩ := remapRange_returns resolved
    ((groups.take index).flatten.flatMap Row.foreignKeys) (group.flatMap Row.foreignKeys)
    ((groups.drop (index + 1)).flatten.flatMap Row.foreignKeys)
  rw [← rawKeys_split groupHere, rawKeys, ← holds.foreignKeyPool_length, ← isTable.fkStart,
    ← isTable.fkLen] at success
  exact bind_returns success ⟨_, rfl⟩

/-- No step of `build` panics on the pools of some rows. -/
theorem DatabaseSchemaBuilder.build_returns {Interner : Type} {profile : Profile}
    {builder : DatabaseSchemaBuilder Interner}
    (finished : builder.toSchemaPools.finishTable profile = .ok pools)
    (holds : HoldsRows pools groups) (tables : AreTables groups pools.tables) (hash : SchemaHash) :
    ∃ schema, builder.build unstable profile hash = .ok schema := by
  obtain ⟨resolved, resolution⟩ := holds.resolution_returns tables unstable
  obtain ⟨order, ordering, perm⟩ := holds.exists_order resolution
  obtain ⟨ordered, reordered, inside⟩ := tables.reorder_returns perm
  obtain ⟨columns, columnsEq⟩ := holds.columns_return resolved
  obtain ⟨renumbered, tablesEq⟩ := holds.tables_return tables resolved inside
  rw [← tables.length] at ordering
  refine bind_returns finished ?_
  refine bind_returns resolution ?_
  refine bind_returns ordering ?_
  refine bind_returns reordered ?_
  refine bind_returns (holds.mapM_finalKey resolution order) ?_
  refine bind_returns columnsEq ?_
  exact bind_returns tablesEq ⟨_, rfl⟩

end Building

section Adding

theorem lenSince_release (len start : Nat) : ∃ count, lenSince .release len start = .ok count :=
  ⟨_, if_neg (by simp)⟩

theorem SchemaPools.finishTable_returns (pools : SchemaPools) :
    ∃ next, pools.finishTable .release = .ok next := by
  unfold finishTable
  cases pools.currentTable with
  | none => exact ⟨pools, rfl⟩
  | some name =>
      obtain ⟨columnsLen, columnsEq⟩ :=
        lenSince_release pools.columns.length pools.currentTableColsStart
      obtain ⟨fkLen, fkEq⟩ :=
        lenSince_release pools.foreignKeyPool.length pools.currentTableFkStart
      refine bind_returns columnsEq ?_
      exact bind_returns fkEq ⟨_, rfl⟩

theorem SchemaPools.startTable_returns (pools : SchemaPools) (name : Symbol) :
    ∃ next, pools.startTable .release name = .ok next := by
  unfold startTable
  split
  · exact ⟨pools, rfl⟩
  · obtain ⟨next, finished⟩ := pools.finishTable_returns
    exact bind_returns finished ⟨_, rfl⟩

theorem SchemaPools.pushColumn_returns (pools : SchemaPools) (row : SymbolRow) :
    ∃ next, pools.pushColumn .release row = .ok next := by
  obtain ⟨constraintsLen, constraintsEq⟩ := lenSince_release
    (pools.constraintPool ++ (row.checkDefs ++ row.domainChecks)).length
    (pools.constraintPool.length % u32Range)
  obtain ⟨fksLen, fksEq⟩ := lenSince_release
    (row.foreignKeys.foldl pushForeignKey pools).foreignKeyPool.length
    (pools.foreignKeyPool.length % u32Range)
  refine bind_returns constraintsEq ?_
  exact bind_returns fksEq ⟨_, rfl⟩

end Adding

section Interning

variable {build : Build} {Result More : Type}

/-- A run that returns if there is room for the records of some strings. -/
def Affords (run : StateT (StringInterner build) (Except Fault) Result) (strings : List String) :
    Prop :=
  ∀ interner used, interner.UsesAtMost used → used + recordsSize strings ≤ 2 ^ 20 →
    ∃ result next, run interner = .ok (result, next) ∧ next.UsesAtMost (used + recordsSize strings)

namespace Affords

theorem pure (result : Result) :
    Affords (Pure.pure result : StateT (StringInterner build) (Except Fault) Result) [] :=
  fun interner _ uses _ => ⟨result, interner, rfl, uses⟩

theorem bind {run : StateT (StringInterner build) (Except Fault) Result}
    {next : Result → StateT (StringInterner build) (Except Fault) More} {strings more : List String}
    (head : Affords run strings) (tail : ∀ result, Affords (next result) more) :
    Affords (run >>= next) (strings ++ more) := by
  intro interner used uses fits
  rw [recordsSize_append] at fits ⊢
  obtain ⟨result, middle, ran, middleUses⟩ := head interner used uses (by omega)
  obtain ⟨final, after, finished, afterUses⟩ := tail result middle _ middleUses (by omega)
  refine ⟨final, after, bind_eq_ok.mpr ⟨(result, middle), ran, finished⟩, ?_⟩
  rwa [← Nat.add_assoc]

theorem intern (text : String) : @Affords build _ (Boomerang.intern text) [text] := by
  intro interner used uses fits
  rw [recordsSize_singleton] at fits ⊢
  obtain ⟨symbol, next, success, nextUses⟩ := uses.getOrIntern fits
  refine ⟨symbol, next, ?_, nextUses⟩
  have called : InternerOps.getOrIntern interner text = .ok symbol next := success
  rw [Boomerang.intern, called]

/-- Room is left call by call. -/
theorem callByCall : CallByCall (@Affords build) where
  pure := pure
  bind := bind
  intern := intern

end Affords

theorem DatabaseSchemaBuilder.addRow_returns
    {builder : DatabaseSchemaBuilder (StringInterner build)} {used : Nat}
    (uses : builder.interner.UsesAtMost used) {row : RawRow}
    (fits : used + recordsSize row.strings ≤ 2 ^ 20) :
    ∃ next, builder.addRow .release row = .ok next ∧
      next.interner.UsesAtMost (used + recordsSize row.strings) := by
  obtain ⟨interned, interner, ran, after⟩ :=
    Affords.callByCall.row row builder.interner used uses fits
  obtain ⟨started, startEq⟩ := builder.toSchemaPools.startTable_returns interned.tableName
  obtain ⟨pushed, pushEq⟩ := started.pushColumn_returns interned
  refine ⟨⟨pushed, interner⟩, bind_eq_ok.mpr ⟨(interned, interner), ran, ?_⟩, after⟩
  exact bind_eq_ok.mpr ⟨started, startEq, bind_eq_ok.mpr ⟨pushed, pushEq, rfl⟩⟩

theorem DatabaseSchemaBuilder.addRows_returns
    {builder : DatabaseSchemaBuilder (StringInterner build)} {used : Nat}
    (uses : builder.interner.UsesAtMost used) {rows : List RawRow}
    (fits : used + recordsSize (rows.flatMap Row.strings) ≤ 2 ^ 20) :
    ∃ final, builder.addRows .release rows = .ok final := by
  induction rows generalizing builder used with
  | nil => exact ⟨builder, rfl⟩
  | cons row rows ih =>
      rw [List.flatMap_cons, recordsSize_append, ← Nat.add_assoc] at fits
      obtain ⟨next, added, nextUses⟩ :=
        addRow_returns uses (Nat.le_trans (Nat.le_add_right _ _) fits)
      exact bind_returns added (ih nextUses fits)

/-- Strings whose records fit a megabyte are stored whole. -/
theorem storableAll_of_fits {strings : List String} (fits : recordsSize strings ≤ 2 ^ 20) :
    StorableAll (StringInterner build) strings := by
  intro text member
  obtain ⟨front, back, rfl⟩ := List.append_of_mem member
  have size := le_paddedSize (byteLength text)
  rw [← List.singleton_append, recordsSize_append, recordsSize_append,
    recordsSize_singleton] at fits
  refine Or.inr ?_
  simp only [u32Range]
  omega

/-- In a release build, rows whose strings fit a megabyte are built. -/
theorem DatabaseSchema.buildNew_returns (unstable : UnstableSort (TableMeta × Nat) Symbol)
    (release : build.profile = .release) (uninitialised : Foundation.Memory) (internerId : Nat)
    {rows : List RawRow} (fits : recordsSize (rows.flatMap Row.strings) ≤ 2 ^ 20)
    (hash : SchemaHash) :
    ∃ schema, buildNew unstable build uninitialised internerId rows hash = .ok schema := by
  obtain ⟨interner, success, created⟩ :=
    StringInterner.withCapacityAndShards_ok build uninitialised internerId DEFAULT_SHARD_COUNT
  have uses : (DatabaseSchemaBuilder.new interner).interner.UsesAtMost 0 := created.usesNothing
  obtain ⟨builder, added⟩ := DatabaseSchemaBuilder.addRows_returns uses (by rwa [Nat.zero_add])
  obtain ⟨pools, finished⟩ := builder.toSchemaPools.finishTable_returns
  obtain ⟨_, symbols, _, holds, tables⟩ := DatabaseSchemaBuilder.addRows_holds
    (show LawfulInterner.Valid interner from ⟨_, created.holds⟩) (storableAll_of_fits fits) added
    finished
  rw [buildNew, release]
  refine bind_returns success ?_
  refine bind_returns added ?_
  exact DatabaseSchemaBuilder.build_returns finished holds tables hash

end Interning

end Boomerang
