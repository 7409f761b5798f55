import Boomerang.Schema.Codec
import Boomerang.Schema.ForeignKeys

/-!
# The binary form is read back

Every part is read exactly when its numbers fit their widths, and the builder casts
every number it stores to its width. The interner is rebuilt with the symbols it had.
-/

namespace Boomerang

open Foundation

/-- The fields of a table fit their widths, and the primary key is not the sentinel. -/
structure TableMeta.Fits (table : TableMeta) : Prop where
  columnsStart : table.columnsStart < u32Range
  columnsLen : table.columnsLen < u16Range
  primaryKey : ∀ offset, table.primaryKey = some offset → offset < u16Range - 1
  fkStart : table.fkStart < u32Range
  fkLen : table.fkLen < u16Range

/-- A range fits its widths. -/
structure PoolRange.Fits (range : PoolRange) : Prop where
  start : range.start < u32Range
  len : range.len < u16Range

/-- The ranges of a column fit their widths. -/
structure Column.Fits (column : Column) : Prop where
  constraints : column.constraints.Fits
  foreignKeys : column.foreignKeys.Fits

/-- The indices of a foreign key fit their widths. -/
structure ForeignKey.Fits (fk : ForeignKey) : Prop where
  table : fk.table < u16Range
  column : fk.column < u16Range

/-- Every number of a schema fits the width it is written with. -/
structure Encodable {Interner : Type} (schema : DatabaseSchema Interner) : Prop where
  tableCount : schema.tables.length < u32Range
  byNameCount : schema.byName.length < u32Range
  columnCount : schema.columns.length < u32Range
  columnNameCount : schema.columnNames.length < u32Range
  constraintCount : schema.constraintPool.length < u32Range
  foreignKeyCount : schema.foreignKeyPool.length < u32Range
  tables : ∀ table ∈ schema.tables, table.Fits
  byName : ∀ index ∈ schema.byName, index < u16Range
  columns : ∀ column ∈ schema.columns, column.Fits
  foreignKeys : ∀ fk ∈ schema.foreignKeyPool, fk.Fits

/-- The numbers of the tables and columns fit, whatever the numbers of checks and keys. -/
structure TablesEncodable {Interner : Type} (schema : DatabaseSchema Interner) : Prop where
  tableCount : schema.tables.length < u32Range
  byNameCount : schema.byName.length < u32Range
  columnCount : schema.columns.length < u32Range
  columnNameCount : schema.columnNames.length < u32Range
  tables : ∀ table ∈ schema.tables, table.Fits
  byName : ∀ index ∈ schema.byName, index < u16Range
  columns : ∀ column ∈ schema.columns, column.Fits

theorem u16Range_eq : u16Range = 256 ^ 2 := by decide

theorem u32Range_eq : u32Range = 256 ^ 4 := by decide

theorem reads_symbol (symbol : Symbol) : Reads readSymbol symbol.encode symbol := by
  have raw : Reads readSymbol (symbol.encode ++ []) symbol := by
    refine (Reads.number symbol.raw.toNat_lt).bind ?_
    rw [UInt32.ofNat_toNat, Symbol.fromRaw_raw]
    exact .ofOption symbol
  rwa [List.append_nil] at raw

theorem reads_default (value : Option Symbol) : Reads readDefault (encodeDefault value) value := by
  cases value with
  | none => exact (Reads.number (by decide)).map _
  | some symbol =>
      have number : @Reads Fault _ (Reader.number 4) symbol.encode symbol.raw.toNat :=
        .number symbol.raw.toNat_lt
      have read := number.map fun raw =>
        if raw = 0 then none else Symbol.fromRaw (UInt32.ofNat raw)
      have nonzero : symbol.raw.toNat ≠ 0 := fun zero =>
        symbol.nonzero (UInt32.toNat_inj.mp zero)
      rwa [if_neg nonzero, UInt32.ofNat_toNat, Symbol.fromRaw_raw] at read

theorem reads_type (kind : ValueType) : Reads readType kind.encode kind := by
  cases kind with
  | custom name =>
      have named := (reads_symbol name).map ValueType.custom
      exact (Reads.byte _).bind named
  | _ => exact (Reads.byte _).bind (Reads.pure _)

theorem reads_table {table : TableMeta} (fits : table.Fits) :
    Reads readTable table.encode table := by
  have u32 : ∀ {value}, value < u32Range → value < 256 ^ 4 := fun small => u32Range_eq ▸ small
  have u16 : ∀ {value}, value < u16Range → value < 256 ^ 2 := fun small => u16Range_eq ▸ small
  have key : table.primaryKey.getD (u16Range - 1) < u16Range ∧
      (if table.primaryKey.getD (u16Range - 1) = u16Range - 1 then none
        else some (table.primaryKey.getD (u16Range - 1))) = table.primaryKey := by
    cases keyEq : table.primaryKey with
    | none => exact ⟨by decide, if_pos rfl⟩
    | some offset =>
        have small := fits.primaryKey offset keyEq
        exact ⟨Nat.lt_of_lt_of_le small (Nat.sub_le _ _), if_neg (Nat.ne_of_lt small)⟩
  obtain ⟨keySmall, keyEq⟩ := key
  refine (reads_symbol table.name).bind ((Reads.number (u32 fits.columnsStart)).bind
    ((Reads.number (u16 fits.columnsLen)).bind ((Reads.number (u16 keySmall)).bind
      ((Reads.number (u32 fits.fkStart)).bind ?_))))
  rw [keyEq]
  exact (Reads.number (u16 fits.fkLen)).map _

theorem reads_range {range : PoolRange} (fits : range.Fits) :
    Reads readRange range.encode range :=
  (Reads.number (u32Range_eq ▸ fits.start)).bind
    ((Reads.number (u16Range_eq ▸ fits.len)).map _)

theorem reads_column {column : Column} (fits : column.Fits) :
    Reads readColumn column.encode column :=
  (reads_symbol column.name).bind ((reads_type column.dataType).bind
    ((reads_default column.defaultValue).bind ((Reads.byte column.flags.bits).bind
      ((reads_range fits.constraints).bind ((reads_range fits.foreignKeys).map _)))))

theorem reads_action (action : Action) : Reads readAction [action.toU8] action := by
  have read : Reads readAction ([action.toU8] ++ []) action := by
    refine (Reads.byte action.toU8).bind ?_
    rw [Action.fromU8_toU8]
    exact .ofExcept action
  rwa [List.append_nil] at read

theorem reads_foreignKey {fk : ForeignKey} (fits : fk.Fits) :
    Reads readForeignKey fk.encode fk :=
  (reads_symbol fk.constraintName).bind ((reads_symbol fk.namespaceName).bind
    ((Reads.number (u16Range_eq ▸ fits.table)).bind
      ((Reads.number (u16Range_eq ▸ fits.column)).bind
        ((reads_action fk.onUpdate).bind ((reads_action fk.onDelete).map _)))))

theorem reads_hash (hash : SchemaHash) : Reads readHash hash.val hash := by
  have read : Reads readHash (hash.val ++ []) hash := by
    have bytes := @Reads.take Fault hash.val
    rw [hash.property] at bytes
    refine bytes.bind ?_
    rw [dif_pos hash.property]
    exact .ofOption hash
  rwa [List.append_nil] at read

theorem remapRange_fits {resolved : List ResolvedFk} {poolSize start len : Nat}
    {range : Nat × Nat} (small : len < u16Range)
    (success : remapRange resolved poolSize start len = .ok range) :
    (PoolRange.mk range.1 range.2).Fits := by
  have places : ∀ place new, newPlace resolved place = some new → new < u32Range := by
    intro place new moved
    obtain ⟨found, _, rfl⟩ := Option.map_eq_some_iff.mp moved
    exact Nat.mod_lt _ (by decide)
  unfold remapRange at success
  split at success
  · cases success
    have bounds := compactRange_bounds (show u32Range - 1 < u32Range by decide) places start len
    exact ⟨bounds.1, Nat.lt_of_le_of_lt bounds.2 small⟩
  · cases success

/-- The counts of some rows fit the fields they are written to. -/
structure WithinWidths (rows : List RawRow) : Prop where
  count : rows.length < u32Range
  columns : ∀ group ∈ tableGroups rows, group.length < u16Range
  checks : (rows.flatMap Row.checks).length < u32Range
  foreignKeys : (rows.flatMap Row.foreignKeys).length < u32Range

theorem length_le_flatten {Item : Type} {lists : List (List Item)} (nonempty : [] ∉ lists) :
    lists.length ≤ lists.flatten.length := by
  induction lists with
  | nil => exact Nat.le_refl _
  | cons list lists ih =>
      have first : list.length ≠ 0 := fun zero =>
        nonempty (List.eq_nil_of_length_eq_zero zero ▸ List.mem_cons_self)
      have rest := ih fun member => nonempty (List.mem_cons_of_mem _ member)
      rw [List.length_cons, List.flatten_cons, List.length_append]
      omega

section Encodable

variable {Interner : Type} [InternerOps Interner] [LawfulInterner Interner]
variable {unstable : UnstableSort (TableMeta × Nat) Symbol} {rows : List RawRow}
variable {symbols : String → Symbol} {pools : SchemaPools} {resolved : List ResolvedFk}
variable {order : List Nat} {ordered : List TableMeta} {schema : DatabaseSchema Interner}

theorem BuiltFrom.tables_fit
    (built : BuiltFrom unstable rows symbols pools resolved order ordered schema)
    (columns : ∀ group ∈ tableGroups rows, group.length < u16Range) {table : TableMeta}
    (member : table ∈ schema.tables) : table.Fits := by
  obtain ⟨index, here⟩ := List.getElem?_of_mem member
  rcases mapM_getElem? built.steps.tables index with ⟨_, none⟩ |
    ⟨before, after, beforeHere, afterHere, remapped⟩
  · cases none.symm.trans here
  · cases afterHere.symm.trans here
    rcases mapM_getElem? built.steps.reordered index with ⟨_, none⟩ | ⟨_, _, _, orderedHere, stored⟩
    · cases none.symm.trans beforeHere
    · cases orderedHere.symm.trans beforeHere
      obtain ⟨group, groupHere, isTable⟩ := built.tables.of_getElem? (indexed_eq_ok.mp stored)
      obtain ⟨raw, rawIn, rfl⟩ := List.mem_map.mp (List.mem_of_getElem? groupHere)
      obtain ⟨range, rangeEq, success⟩ := bind_eq_ok.mp remapped
      cases success
      have fits := remapRange_fits (by rw [isTable.fkLen]; exact Nat.mod_lt _ (by decide)) rangeEq
      refine ⟨?_, ?_, ?_, fits.start, fits.len⟩
      · rw [isTable.columnsStart]
        exact Nat.mod_lt _ (by decide)
      · rw [isTable.columnsLen]
        exact Nat.mod_lt _ (by decide)
      · intro offset key
        rw [isTable.primaryKey] at key
        have below := lastPrimary_lt key
        have few := columns raw rawIn
        rw [List.length_map] at below
        omega

theorem BuiltFrom.columns_fit
    (built : BuiltFrom unstable rows symbols pools resolved order ordered schema)
    {column : Column} (member : column ∈ schema.columns) : column.Fits := by
  obtain ⟨index, here⟩ := List.getElem?_of_mem member
  rcases mapM_getElem? built.steps.columns index with ⟨_, none⟩ |
    ⟨before, after, beforeHere, afterHere, remapped⟩
  · cases none.symm.trans here
  · cases afterHere.symm.trans here
    have below := (List.getElem?_eq_some_iff.mp beforeHere).1
    rw [built.holds.columnCount] at below
    have stored := built.holds.column index _ (List.getElem?_eq_getElem below)
    cases stored.symm.trans beforeHere
    obtain ⟨range, rangeEq, success⟩ := bind_eq_ok.mp remapped
    cases success
    exact ⟨⟨Nat.mod_lt _ (by decide), Nat.mod_lt _ (by decide)⟩,
      remapRange_fits (Nat.mod_lt _ (by decide)) rangeEq⟩

/-- A column that is found is a `u16`. -/
theorem SchemaPools.findColumn_lt {byName : List Nat} {index place : Nat}
    {name key : Symbol} (success : pools.findColumn byName name key = .ok (some (index, place))) :
    place < u16Range := by
  obtain ⟨slot, _, success⟩ := bind_eq_ok.mp success
  cases slot with
  | none => cases success
  | some slot =>
      obtain ⟨refTable, _, success⟩ := bind_eq_ok.mp success
      obtain ⟨info, _, success⟩ := bind_eq_ok.mp success
      obtain ⟨names, _, success⟩ := bind_eq_ok.mp success
      obtain ⟨found, _, pair⟩ := Option.map_eq_some_iff.mp (Except.ok.inj success)
      cases pair
      exact Nat.mod_lt _ (by decide)

theorem BuiltFrom.foreignKeys_fit
    (built : BuiltFrom unstable rows symbols pools resolved order ordered schema)
    {fk : ForeignKey} (member : fk ∈ schema.foreignKeyPool) : fk.Fits := by
  rw [built.steps.foreignKeyPool_eq built.holds] at member
  obtain ⟨kept, keptIn, rfl⟩ := List.mem_map.mp member
  obtain ⟨raw, rawIn, keptEq⟩ := List.mem_filterMap.mp keptIn
  obtain ⟨⟨index, place⟩, foundEq, rfl⟩ := Option.map_eq_some_iff.mp keptEq
  obtain ⟨answer, answered⟩ := built.steps.findColumn_ok built.holds rawIn
  rw [found, answered] at foundEq
  cases foundEq
  exact ⟨Nat.mod_lt _ (by decide), SchemaPools.findColumn_lt answered⟩

/-- The tables of a schema built from rows of fitting counts can be written exactly. -/
theorem BuiltFrom.tablesEncodable
    (built : BuiltFrom unstable rows symbols pools resolved order ordered schema)
    (count : rows.length < u32Range)
    (columns : ∀ group ∈ tableGroups rows, group.length < u16Range) : TablesEncodable schema := by
  have flat := flatten_namedGroups symbols rows
  have whole : (tableGroups rows).flatten = rows := List.flatten_splitBy _ _
  have fewTables := length_le_flatten (List.nil_notMem_splitBy sameTable rows)
  rw [← tableGroups, whole] at fewTables
  have byNameCount : schema.byName.length < u16Range := by
    rw [built.steps.byName, sortedByName, List.length_map, (unstable.perm _ _).length_eq]
    exact Nat.lt_of_le_of_lt (List.length_take_le _ _) (Nat.mod_lt _ (by decide))
  constructor
  · rw [built.tableCount]
    exact Nat.lt_of_le_of_lt fewTables count
  · exact Nat.lt_trans byNameCount (by decide)
  · rw [← (mapM_ok built.steps.columns).length_eq, built.holds.columnCount, flat, List.length_map]
    exact count
  · rw [built.steps.columnNames, built.holds.columnNames, List.length_map, flat, List.length_map]
    exact count
  · exact fun table member => built.tables_fit columns member
  · intro index member
    rw [built.steps.byName, sortedByName] at member
    obtain ⟨entry, entryIn, rfl⟩ := List.mem_map.mp member
    exact Nat.lt_trans (mem_sortedByName.mp entryIn).2 (Nat.mod_lt _ (by decide))
  · exact fun column member => built.columns_fit member

/-- A schema built from rows within the widths can be written exactly. -/
theorem BuiltFrom.encodable
    (built : BuiltFrom unstable rows symbols pools resolved order ordered schema)
    (widths : WithinWidths rows) : Encodable schema := by
  have flat := flatten_namedGroups symbols rows
  have tables := built.tablesEncodable widths.count widths.columns
  have keys :
      (rawKeys (namedGroups symbols rows)).length = (rows.flatMap Row.foreignKeys).length := by
    rw [rawKeys, flat]
    simp [Row.named, List.length_flatMap, Function.comp_def]
  have checks : ((rows.map (Row.named symbols)).flatMap Row.checks).length =
      (rows.flatMap Row.checks).length := by
    simp [Row.named, Row.checks, List.length_flatMap, Function.comp_def]
  refine ⟨tables.tableCount, tables.byNameCount, tables.columnCount, tables.columnNameCount, ?_,
    ?_, tables.tables, tables.byName, tables.columns, fun fk member => built.foreignKeys_fit member⟩
  · rw [built.steps.constraintPool, built.holds.constraintPool, flat, checks]
    exact widths.checks
  · rw [built.steps.foreignKeyPool_eq built.holds, finalKeys, List.length_map]
    exact Nat.lt_of_le_of_lt (List.length_filterMap_le _ _) (keys ▸ widths.foreignKeys)

end Encodable

namespace DatabaseSchema

variable {build : Build} {schema : DatabaseSchema (StringInterner build)}

/-- The bytes of a schema whose numbers fit are read, and the interner is rebuilt from its own. -/
theorem reads_encode {uninitialised : Memory} {internerId : Nat}
    {rebuilt : StringInterner build} (encodable : Encodable schema)
    (small : schema.interner.exportBytes.length < u32Range)
    (rebuiltEq : StringInterner.fromBytes build uninitialised internerId
      schema.interner.exportBytes = .ok rebuilt) :
    Reads (readSchema build uninitialised internerId) schema.encode
      { schema with interner := rebuilt } := by
  have few : ∀ {count}, count < u32Range → count < 256 ^ 4 := fun small => u32Range_eq ▸ small
  refine (reads_hash schema.hash).bind ((Reads.number (few small)).bind
    ((Reads.take schema.interner.exportBytes).bind ?_))
  rw [rebuiltEq]
  refine (Reads.ofExcept rebuilt).bind
    ((Reads.counted (few encodable.tableCount) fun table member =>
      reads_table (encodable.tables table member)).bind
    ((Reads.counted (few encodable.byNameCount) fun index member =>
      .number (u16Range_eq ▸ encodable.byName index member)).bind
    ((Reads.counted (few encodable.columnCount) fun column member =>
      reads_column (encodable.columns column member)).bind
    ((Reads.counted (few encodable.columnNameCount) fun name _ => reads_symbol name).bind
    ((Reads.counted (few encodable.constraintCount) fun check _ => reads_symbol check).bind
    ((Reads.counted (few encodable.foreignKeyCount) fun fk member =>
      reads_foreignKey (encodable.foreignKeys fk member)).map _))))))

/-- What is decoded in front of the checks is what was encoded, whatever their number. -/
theorem tables_of_decode_encode {uninitialised : Memory} {internerId : Nat}
    {rebuilt : StringInterner build} {decoded : DatabaseSchema (StringInterner build)}
    (encodable : TablesEncodable schema) (small : schema.interner.exportBytes.length < u32Range)
    (rebuiltEq : StringInterner.fromBytes build uninitialised internerId
      schema.interner.exportBytes = .ok rebuilt)
    (success : decode build uninitialised internerId schema.encode = .ok (some decoded)) :
    decoded.interner = rebuilt ∧ decoded.tables = schema.tables ∧
      decoded.byName = schema.byName ∧ decoded.columns = schema.columns ∧
      decoded.columnNames = schema.columnNames := by
  have few : ∀ {count}, count < u32Range → count < 256 ^ 4 := fun small => u32Range_eq ▸ small
  obtain ⟨rest, front⟩ := Reader.decode_eq_some.mp success
  have front := (reads_hash schema.hash).of_front_bind front
  have front := (Reads.number (few small)).of_front_bind front
  have front := (Reads.take schema.interner.exportBytes).of_front_bind front
  rw [rebuiltEq] at front
  have front := (Reads.ofExcept rebuilt).of_front_bind front
  have front := (Reads.counted (few encodable.tableCount) fun table member =>
    reads_table (encodable.tables table member)).of_front_bind front
  have front := (Reads.counted (few encodable.byNameCount) fun index member =>
    Reads.number (u16Range_eq ▸ encodable.byName index member)).of_front_bind front
  have front := (Reads.counted (few encodable.columnCount) fun column member =>
    reads_column (encodable.columns column member)).of_front_bind front
  have front := (Reads.counted (few encodable.columnNameCount) fun name _ =>
    reads_symbol name).of_front_bind front
  obtain ⟨_, _, _, front⟩ := Reader.front_bind.mp front
  obtain ⟨_, _, _, front⟩ := Reader.front_bind.mp front
  obtain ⟨rfl, _⟩ := Reader.front_pure.mp front
  exact ⟨rfl, rfl, rfl, rfl, rfl⟩

/-- The interner is rebuilt from its bytes, and answers alike. -/
theorem exists_rebuilt {contents : Contents} (holds : schema.interner.Holds contents)
    (uninitialised : Memory) (internerId : Nat) :
    ∃ rebuilt : StringInterner build,
      StringInterner.fromBytes build uninitialised internerId schema.interner.exportBytes =
          .ok rebuilt ∧
        (∀ value, rebuilt.get value = schema.interner.get value) ∧
        ∀ symbol, rebuilt.resolve symbol = schema.interner.resolve symbol := by
  obtain ⟨body, exported, records⟩ := holds.layout.exportBytes_records
  obtain ⟨rebuilt, rebuiltEq, _, count, home, rebuiltHolds⟩ :=
    holds.rebuild (fun _ => List.prefix_rfl) records uninitialised internerId
  have answers := holds.same_answers rebuiltHolds count home
    fun shardId inRange => if_pos inRange
  rw [← exported] at rebuiltEq
  exact ⟨rebuilt, rebuiltEq, answers.2⟩

/-- The bytes of a schema whose numbers fit are read, and the rebuilt interner answers alike. -/
theorem exists_reads {contents : Contents} (holds : schema.interner.Holds contents)
    (encodable : Encodable schema) (uninitialised : Memory) (internerId : Nat) :
    ∃ rebuilt : StringInterner build,
      Reads (readSchema build uninitialised internerId) schema.encode
          { schema with interner := rebuilt } ∧
        (∀ value, rebuilt.get value = schema.interner.get value) ∧
        ∀ symbol, rebuilt.resolve symbol = schema.interner.resolve symbol := by
  obtain ⟨rebuilt, rebuiltEq, answers⟩ := exists_rebuilt holds uninitialised internerId
  exact ⟨rebuilt, reads_encode encodable holds.layout.sized.length_committedBytes rebuiltEq,
    answers⟩

/-- A schema whose numbers fit is read back, with an interner that answers alike. -/
theorem decode_encode {contents : Contents} (holds : schema.interner.Holds contents)
    (encodable : Encodable schema) (uninitialised : Memory) (internerId : Nat) :
    ∃ rebuilt : StringInterner build,
      decode build uninitialised internerId schema.encode =
          .ok (some { schema with interner := rebuilt }) ∧
        (∀ value, rebuilt.get value = schema.interner.get value) ∧
        ∀ symbol, rebuilt.resolve symbol = schema.interner.resolve symbol := by
  obtain ⟨rebuilt, reads, answers⟩ := exists_reads holds encodable uninitialised internerId
  exact ⟨rebuilt, reads.decode, answers⟩

/-- Every schema built from rows within the widths is read back. -/
theorem decode_encode_of_buildNew {unstable : UnstableSort (TableMeta × Nat) Symbol}
    {uninitialised : Memory} {internerId : Nat} {rows : List RawRow} {hash : SchemaHash}
    (storable : ∀ text ∈ rows.flatMap Row.strings, MemoryPool.Storable build.profile text)
    (widths : WithinWidths rows)
    (success : buildNew unstable build uninitialised internerId rows hash = .ok schema)
    (otherMemory : Memory) (otherId : Nat) :
    ∃ decoded, decode build otherMemory otherId schema.encode = .ok (some decoded) ∧
      decoded.hash = schema.hash ∧ decoded.tables = schema.tables ∧
      decoded.byName = schema.byName ∧ decoded.columns = schema.columns ∧
      decoded.columnNames = schema.columnNames ∧
      decoded.constraintPool = schema.constraintPool ∧
      decoded.foreignKeyPool = schema.foreignKeyPool ∧
      (∀ symbol, decoded.resolveSymbol symbol = schema.resolveSymbol symbol) ∧
      ∀ value, decoded.getSymbol value = schema.getSymbol value := by
  obtain ⟨interner, valid, success⟩ := buildNew_ok success
  obtain ⟨_, symbols, pools, resolved, order, ordered, built⟩ :=
    DatabaseSchemaBuilder.buildRows_ok valid storable success
  obtain ⟨contents, holds⟩ := built.valid
  obtain ⟨rebuilt, decoded, get, resolve⟩ :=
    decode_encode holds (built.encodable widths) otherMemory otherId
  exact ⟨_, decoded, rfl, rfl, rfl, rfl, rfl, rfl, rfl, resolve, get⟩

/-- The schema of the posts is read back in a release build. -/
theorem decode_encode_posts :
    ∃ schema decoded, buildStable ⟨.release, fun _ => 0⟩ postRows = .ok schema ∧
      decode ⟨.release, fun _ => 0⟩ (fun _ => 1) 2 schema.encode = .ok (some decoded) ∧
      decoded.tables = schema.tables ∧ decoded.columns = schema.columns := by
  obtain ⟨schema, success⟩ := exists_of_isSome
    (show (buildStable ⟨.release, fun _ => 0⟩ postRows).toOption.isSome = true by decide +kernel)
  have widths : WithinWidths postRows := ⟨by decide, by decide, by decide, by decide⟩
  obtain ⟨decoded, decodedEq, _, tables, _, columns, _⟩ :=
    decode_encode_of_buildNew (by decide) widths success (fun _ => 1) 2
  exact ⟨schema, decoded, success, decodedEq, tables, columns⟩

end DatabaseSchema

end Boomerang
