import Boomerang.Schema.Built

/-!
# The foreign keys of a built schema

Read through the accessors, every column has exactly the foreign keys given for it that
resolve, in their order, and they name the tables and columns they were given with.
-/

namespace Boomerang

open Foundation

/-- The referenced table was added, with the referenced column. -/
def RawForeignKey.Resolvable (rows : List RawRow) (fk : RawForeignKey String) : Prop :=
  ∃ row ∈ rows, row.tableName = fk.referencedTable ∧ row.columnName = fk.referencedColumn

instance (rows : List RawRow) : DecidablePred (RawForeignKey.Resolvable rows) := fun fk =>
  inferInstanceAs (Decidable (∃ row ∈ rows, row.tableName = fk.referencedTable ∧
    row.columnName = fk.referencedColumn))

variable {Interner : Type} [InternerOps Interner]

/-- A stored foreign key says what was given: its indices are the position of the
referenced table and the position of the referenced column in it. -/
structure IsKeyOf (schema : DatabaseSchema Interner) (raw : RawForeignKey String)
    (key : ForeignKey) : Prop where
  constraintName : Names schema.interner key.constraintName raw.constraintName
  namespaceName : Names schema.interner key.namespaceName raw.namespaceName
  onUpdate : key.onUpdate = raw.onUpdate
  onDelete : key.onDelete = raw.onDelete
  table : (TableRef.mk schema key.table).name = .ok raw.referencedTable
  column : ∃ columns column, (TableRef.mk schema key.table).columns = .ok columns ∧
    columns[key.column]? = some column ∧ column.name = .ok raw.referencedColumn

/-- The table at an index is that of a group of rows: its columns are those of the
rows, each with the foreign keys of its row that resolve, and its foreign keys are
those of its columns in order. -/
structure ReadsBack (rows : List RawRow) (schema : DatabaseSchema Interner) (index : Nat)
    (group : List RawRow) (columns : List (ColumnRef Interner)) : Prop where
  tableColumns : (TableRef.mk schema index).columns = .ok columns
  name : ∀ row ∈ group, (TableRef.mk schema index).name = .ok row.tableName
  count : columns.length = group.length
  column : ∀ (place : Nat) (column : ColumnRef Interner) (row : RawRow),
    columns[place]? = some column → group[place]? = some row →
    column.name = .ok row.columnName ∧ ∃ keys, column.foreignKeys = .ok keys ∧
      List.Forall₂ (IsKeyOf schema) (row.foreignKeys.filter fun fk => fk.Resolvable rows) keys
  foreignKeys : ∃ keys, columns.mapM ColumnRef.foreignKeys = .ok keys ∧
    (TableRef.mk schema index).foreignKeys = .ok keys.flatten

section Accessors

variable {schema : DatabaseSchema Interner} {index : Nat}

omit [InternerOps Interner] in
theorem TableRef.columns_of_meta {info : TableMeta} (here : schema.tables[index]? = some info) :
    (TableRef.mk schema index).columns =
      .ok ((List.range info.columnsLen).map fun offset => ⟨schema, info.columnsStart + offset⟩) :=
  bind_eq_ok.mpr ⟨info, indexed_eq_ok.mpr here, rfl⟩

theorem TableRef.name_of_meta {info : TableMeta} {text : String}
    (here : schema.tables[index]? = some info) (named : Names schema.interner info.name text) :
    (TableRef.mk schema index).name = .ok text :=
  bind_eq_ok.mpr ⟨info, indexed_eq_ok.mpr here, resolveExpected_eq_ok.mpr named⟩

theorem ColumnRef.name_of_meta {column : Column} {text : String}
    (here : schema.columns[index]? = some column)
    (named : Names schema.interner column.name text) :
    (ColumnRef.mk schema index).name = .ok text :=
  bind_eq_ok.mpr ⟨column, indexed_eq_ok.mpr here, resolveExpected_eq_ok.mpr named⟩

end Accessors

variable [LawfulInterner Interner]
variable {unstable : UnstableSort (TableMeta × Nat) Symbol} {rows : List RawRow}
variable {symbols : String → Symbol} {pools : SchemaPools} {resolved : List ResolvedFk}
variable {order : List Nat} {ordered : List TableMeta} {schema : DatabaseSchema Interner}

theorem namedGroups_getElem? {index : Nat} {group : List RawRow} :
    (tableGroups rows)[index]? = some group →
      (namedGroups symbols rows)[index]? = some (group.map (Row.named symbols)) := by
  intro here
  rw [namedGroups, List.getElem?_map, here]
  rfl

theorem mem_rows_of_group {group : List RawRow} (groupIn : group ∈ tableGroups rows) {row : RawRow}
    (rowIn : row ∈ group) : row ∈ rows := by
  have whole : (tableGroups rows).flatten = rows := List.flatten_splitBy _ _
  rw [← whole]
  exact List.mem_flatten.mpr ⟨group, groupIn, rowIn⟩

theorem Narrow.named (narrow : Narrow (tableGroups rows)) (symbols : String → Symbol) :
    Narrow (namedGroups symbols rows) := by
  refine ⟨by rw [namedGroups, List.length_map]; exact narrow.tables, ?_, ?_⟩
  · intro group member
    obtain ⟨raw, rawIn, rfl⟩ := List.mem_map.mp member
    rw [List.length_map]
    exact narrow.columns raw rawIn
  · intro group member
    obtain ⟨raw, rawIn, rfl⟩ := List.mem_map.mp member
    have same : ((raw.map (Row.named symbols)).flatMap Row.foreignKeys).length =
        (raw.flatMap Row.foreignKeys).length := by
      simp [Row.named, List.length_flatMap, Function.comp_def]
    rw [same]
    exact narrow.foreignKeys raw rawIn

theorem BuiltFrom.consecutive
    (built : BuiltFrom unstable rows symbols pools resolved order ordered schema)
    (consecutive : Consecutive (tableGroups rows)) : Consecutive (namedGroups symbols rows) := by
  refine List.pairwise_map.mpr (consecutive.imp_of_mem ?_)
  intro left right leftIn rightIn apart row rowIn other otherIn same
  obtain ⟨first, firstIn, rfl⟩ := List.mem_map.mp rowIn
  obtain ⟨second, secondIn, rfl⟩ := List.mem_map.mp otherIn
  have leftName := built.names.of_mem (mem_rows_of_group leftIn firstIn) first.tableName_mem_strings
  have rightName :=
    built.names.of_mem (mem_rows_of_group rightIn secondIn) second.tableName_mem_strings
  exact apart first firstIn second secondIn ((leftName.symbol_eq_iff built.valid rightName).mp same)

/-- The column at a place of a table. -/
theorem BuiltFrom.column
    (built : BuiltFrom unstable rows symbols pools resolved order ordered schema)
    (narrow : Narrow (tableGroups rows)) {old place : Nat} {group : List RawRow} {row : RawRow}
    (here : (tableGroups rows)[old]? = some group) (there : group[place]? = some row) :
    (ColumnRef.mk schema (((namedGroups symbols rows).take old).flatten.length + place)).name =
        .ok row.columnName ∧
      (ColumnRef.mk schema
        (((namedGroups symbols rows).take old).flatten.length + place)).foreignKeys
        = .ok (finalKeys (found unstable pools) order (row.named symbols).foreignKeys) := by
  have groupIn := List.mem_of_getElem? here
  have rowIn := mem_rows_of_group groupIn (List.mem_of_getElem? there)
  have row' : (namedGroups symbols rows).flatten[
      ((namedGroups symbols rows).take old).flatten.length + place]? =
        some (row.named symbols) := by
    have below := (List.getElem?_eq_some_iff.mp there).1
    rw [flatten_eq_of_getElem? (namedGroups_getElem? here), List.append_assoc,
      List.getElem?_append_right (Nat.le_add_right _ _), Nat.add_sub_cancel_left,
      List.getElem?_append_left (by rw [List.length_map]; exact below), List.getElem?_map, there]
    rfl
  obtain ⟨column, columnHere, isColumn⟩ :=
    built.steps.column_ok built.holds (narrow.named symbols) row'
  have columnName : column.name = symbols row.columnName := congrArg Column.name isColumn.rest
  refine ⟨ColumnRef.name_of_meta columnHere ?_, ?_⟩
  · rw [columnName]
    exact built.names.of_mem rowIn (by simp [Row.strings])
  · exact bind_eq_ok.mpr ⟨column, indexed_eq_ok.mpr columnHere, isColumn.foreignKeys⟩

/-- The table of a group. -/
theorem BuiltFrom.table
    (built : BuiltFrom unstable rows symbols pools resolved order ordered schema)
    (narrow : Narrow (tableGroups rows)) {index old : Nat} {group : List RawRow}
    (place : order[index]? = some old) (here : (tableGroups rows)[old]? = some group) :
    (TableRef.mk schema index).columns = .ok ((List.range group.length).map fun offset =>
        ⟨schema, ((namedGroups symbols rows).take old).flatten.length + offset⟩) ∧
      (∀ row ∈ group, (TableRef.mk schema index).name = .ok row.tableName) ∧
      (TableRef.mk schema index).foreignKeys = .ok (finalKeys (found unstable pools) order
        ((group.map (Row.named symbols)).flatMap Row.foreignKeys)) := by
  rcases built.steps.table_ok built.holds built.tables (narrow.named symbols) index with
    ⟨none, _⟩ | ⟨_, named, info, placeHere, infoHere, isTable⟩
  · cases none.symm.trans place
  · cases placeHere.symm.trans place
    cases isTable.source.symm.trans (namedGroups_getElem? here)
    refine ⟨?_, ?_, ?_⟩
    · rw [TableRef.columns_of_meta infoHere, isTable.columnsStart, isTable.columnsLen,
        List.length_map]
    · intro row member
      refine TableRef.name_of_meta infoHere ?_
      rw [← isTable.name _ (List.mem_map_of_mem member)]
      exact built.names.of_mem (mem_rows_of_group (List.mem_of_getElem? here) member)
        row.tableName_mem_strings
    · exact bind_eq_ok.mpr ⟨info, indexed_eq_ok.mpr infoHere, isTable.foreignKeys⟩

/-- A key that is found names a row that was added, and a key that is not found none. -/
theorem BuiltFrom.found_spec
    (built : BuiltFrom unstable rows symbols pools resolved order ordered schema)
    (narrow : Narrow (tableGroups rows)) {fk : RawForeignKey Symbol}
    (member : fk ∈ rawKeys (namedGroups symbols rows)) :
    (∀ index place, found unstable pools fk.referencedTable fk.referencedColumn =
          some (index, place) →
        ∃ group row, (tableGroups rows)[index]? = some group ∧ group[place]? = some row ∧
          symbols row.tableName = fk.referencedTable ∧
          symbols row.columnName = fk.referencedColumn) ∧
      (found unstable pools fk.referencedTable fk.referencedColumn = none →
        Consecutive (tableGroups rows) → ∀ row ∈ rows,
          symbols row.tableName = fk.referencedTable →
            symbols row.columnName ≠ fk.referencedColumn) := by
  obtain ⟨answer, answered⟩ := built.steps.findColumn_ok built.holds member
  obtain ⟨hit, miss⟩ := built.holds.findColumn_ok built.tables (narrow.named symbols) answered
  have foundEq : found unstable pools fk.referencedTable fk.referencedColumn = answer := by
    rw [found, answered]
    rfl
  rw [foundEq]
  refine ⟨?_, ?_⟩
  · intro index place answerEq
    obtain ⟨group, row, here, there, sameTable, sameColumn⟩ := hit index place answerEq
    rw [namedGroups, List.getElem?_map] at here
    obtain ⟨rawGroup, rawHere, rfl⟩ := Option.map_eq_some_iff.mp here
    rw [List.getElem?_map] at there
    obtain ⟨rawRow, rawThere, rfl⟩ := Option.map_eq_some_iff.mp there
    exact ⟨rawGroup, rawRow, rawHere, rawThere, sameTable, sameColumn⟩
  · intro answerEq consecutive row rowIn sameTable
    have whole : (tableGroups rows).flatten = rows := List.flatten_splitBy _ _
    obtain ⟨group, groupIn, inGroup⟩ := List.mem_flatten.mp (whole ▸ rowIn)
    exact miss answerEq (built.consecutive consecutive) _ (List.mem_map_of_mem groupIn) _
      (List.mem_map_of_mem inGroup) sameTable

theorem flatten_namedGroups (symbols : String → Symbol) (rows : List RawRow) :
    (namedGroups symbols rows).flatten = rows.map (Row.named symbols) := by
  have whole : (tableGroups rows).flatten = rows := List.flatten_splitBy _ _
  rw [namedGroups, ← List.map_flatten, whole]

theorem named_mem_rawKeys {row : RawRow} (rowIn : row ∈ rows) {fk : RawForeignKey String}
    (fkIn : fk ∈ row.foreignKeys) : fk.named symbols ∈ rawKeys (namedGroups symbols rows) := by
  rw [rawKeys, flatten_namedGroups]
  exact List.mem_flatMap.mpr ⟨_, List.mem_map_of_mem rowIn, List.mem_map_of_mem fkIn⟩

theorem RawForeignKey.strings_subset {row : RawRow} {fk : RawForeignKey String}
    (fkIn : fk ∈ row.foreignKeys) : fk.strings ⊆ row.strings := by
  intro text member
  simp only [Row.strings, List.mem_append, List.mem_flatMap]
  exact Or.inr (Or.inr (Or.inr (Or.inr (Or.inl ⟨fk, fkIn, member⟩))))

/-- The names of a key and of a row agree when their symbols do. -/
theorem BuiltFrom.references_iff
    (built : BuiltFrom unstable rows symbols pools resolved order ordered schema)
    {row other : RawRow} (rowIn : row ∈ rows) (otherIn : other ∈ rows)
    {fk : RawForeignKey String} (fkIn : fk ∈ row.foreignKeys) :
    (symbols other.tableName = symbols fk.referencedTable ↔
        other.tableName = fk.referencedTable) ∧
      (symbols other.columnName = symbols fk.referencedColumn ↔
        other.columnName = fk.referencedColumn) := by
  have ofKey : ∀ text ∈ fk.strings, Names schema.interner (symbols text) text := fun text member =>
    built.names.of_mem rowIn (RawForeignKey.strings_subset fkIn member)
  have ofRow : ∀ text ∈ other.strings, Names schema.interner (symbols text) text :=
    fun text member => built.names.of_mem otherIn member
  exact ⟨(ofRow _ other.tableName_mem_strings).symbol_eq_iff built.valid
      (ofKey _ (by simp [RawForeignKey.strings])),
    (ofRow _ (by simp [Row.strings])).symbol_eq_iff built.valid
      (ofKey _ (by simp [RawForeignKey.strings]))⟩

/-- The stored key of a key that resolves. -/
theorem BuiltFrom.isKeyOf
    (built : BuiltFrom unstable rows symbols pools resolved order ordered schema)
    (narrow : Narrow (tableGroups rows)) {row : RawRow} (rowIn : row ∈ rows)
    {fk : RawForeignKey String} (fkIn : fk ∈ row.foreignKeys) {index place : Nat}
    (foundEq : found unstable pools (symbols fk.referencedTable) (symbols fk.referencedColumn) =
      some (index, place)) :
    fk.Resolvable rows ∧ IsKeyOf schema fk (finalOf order (fk.named symbols, index, place)) := by
  obtain ⟨group, other, here, there, sameTable, sameColumn⟩ :=
    (built.found_spec narrow (named_mem_rawKeys rowIn fkIn)).1 index place foundEq
  have otherIn := mem_rows_of_group (List.mem_of_getElem? here) (List.mem_of_getElem? there)
  obtain ⟨tableIff, columnIff⟩ := built.references_iff rowIn otherIn fkIn
  have tableEq := tableIff.mp sameTable
  have columnEq := columnIff.mp sameColumn
  obtain ⟨below, place'⟩ := built.getElem?_idxOf here
  have fits : order.idxOf index % u16Range = order.idxOf index :=
    Nat.mod_eq_of_lt (Nat.lt_trans below (built.tableCount ▸ narrow.tables))
  have position : order[order.idxOf index % u16Range]? = some index := fits.symm ▸ place'
  have named : ∀ text ∈ fk.strings, Names schema.interner (symbols text) text := fun text member =>
    built.names.of_mem rowIn (RawForeignKey.strings_subset fkIn member)
  obtain ⟨columns, name, _⟩ := built.table narrow position here
  refine ⟨⟨other, otherIn, tableEq, columnEq⟩, named _ (by simp [RawForeignKey.strings]),
    named _ (by simp [RawForeignKey.strings]), rfl, rfl, ?_, ?_⟩
  · rw [← tableEq]
    exact name other (List.mem_of_getElem? there)
  · refine ⟨_, _, columns, ?_, columnEq ▸ (built.column narrow here there).1⟩
    dsimp only [finalOf]
    rw [List.getElem?_map, List.getElem?_range (List.getElem?_eq_some_iff.mp there).1]
    rfl

/-- The stored keys of a row are those of its keys that resolve. -/
theorem BuiltFrom.keys_ok
    (built : BuiltFrom unstable rows symbols pools resolved order ordered schema)
    (narrow : Narrow (tableGroups rows)) (consecutive : Consecutive (tableGroups rows))
    {row : RawRow} (rowIn : row ∈ rows) :
    List.Forall₂ (IsKeyOf schema) (row.foreignKeys.filter fun fk => fk.Resolvable rows)
      (finalKeys (found unstable pools) order (row.named symbols).foreignKeys) := by
  have each : ∀ fks ⊆ row.foreignKeys, List.Forall₂ (IsKeyOf schema)
      (fks.filter fun fk => fk.Resolvable rows)
      (finalKeys (found unstable pools) order (fks.map (RawForeignKey.named symbols))) := by
    intro fks inside
    induction fks with
    | nil => exact .nil
    | cons fk fks ih =>
        have fkIn := inside List.mem_cons_self
        have rest := ih fun other member => inside (List.mem_cons_of_mem _ member)
        rw [List.map_cons, finalKeys, List.filterMap_cons, keepKey]
        cases foundEq : found unstable pools (fk.named symbols).referencedTable
          (fk.named symbols).referencedColumn with
        | none =>
            have open' : ¬ fk.Resolvable rows := by
              rintro ⟨other, otherIn, sameTable, sameColumn⟩
              obtain ⟨tableIff, columnIff⟩ := built.references_iff rowIn otherIn fkIn
              exact (built.found_spec narrow (named_mem_rawKeys rowIn fkIn)).2 foundEq consecutive
                other otherIn (tableIff.mpr sameTable) (columnIff.mpr sameColumn)
            rw [List.filter_cons_of_neg (by simpa using open')]
            exact rest
        | some position =>
            obtain ⟨resolvable, isKey⟩ := built.isKeyOf narrow rowIn fkIn foundEq
            rw [List.filter_cons_of_pos (by simpa using resolvable)]
            exact .cons isKey rest
  exact each row.foreignKeys (List.Subset.refl _)

theorem map_range_getD {Item : Type} (items : List Item) (default : Item) :
    ((List.range items.length).map fun place => (items[place]?).getD default) = items := by
  refine List.ext_getElem (by simp) fun place below inside => ?_
  simp [List.getElem?_eq_getElem inside]

theorem finalKeys_flatMap (find : Symbol → Symbol → Option (Nat × Nat)) (order : List Nat)
    {Item : Type} (items : List Item) (fks : Item → List (RawForeignKey Symbol)) :
    finalKeys find order (items.flatMap fks) =
      (items.map fun item => finalKeys find order (fks item)).flatten := by
  induction items with
  | nil => rfl
  | cons item items ih =>
      rw [List.flatMap_cons, finalKeys_append, ih, List.map_cons, List.flatten_cons]

/-- The table of a group reads back. -/
theorem BuiltFrom.readsBack
    (built : BuiltFrom unstable rows symbols pools resolved order ordered schema)
    (narrow : Narrow (tableGroups rows)) (consecutive : Consecutive (tableGroups rows))
    {index old : Nat} {group : List RawRow} (place : order[index]? = some old)
    (here : (tableGroups rows)[old]? = some group) :
    ∃ columns, ReadsBack rows schema index group columns := by
  obtain ⟨tableColumns, name, tableKeys⟩ := built.table narrow place here
  have groupIn := List.mem_of_getElem? here
  refine ⟨_, tableColumns, name, by simp, ?_, ?_⟩
  · intro place column row columnHere there
    rw [List.getElem?_map, List.getElem?_range (List.getElem?_eq_some_iff.mp there).1] at columnHere
    cases columnHere
    obtain ⟨columnName, columnKeys⟩ := built.column narrow here there
    exact ⟨columnName, _, columnKeys,
      built.keys_ok narrow consecutive (mem_rows_of_group groupIn (List.mem_of_getElem? there))⟩
  · let keys := group.map fun row =>
      finalKeys (found unstable pools) order (row.named symbols).foreignKeys
    refine ⟨keys, ?_, ?_⟩
    · have each : ∀ offset ∈ List.range group.length, ColumnRef.foreignKeys
          (⟨schema, ((namedGroups symbols rows).take old).flatten.length + offset⟩ :
            ColumnRef Interner) = .ok ((keys[offset]?).getD []) := by
        intro offset member
        have there := List.getElem?_eq_getElem (List.mem_range.mp member)
        rw [(built.column narrow here there).2, List.getElem?_map, there]
        rfl
      have count : group.length = keys.length := (List.length_map _).symm
      rw [List.mapM_map]
      refine (mapM_of_forall each).trans ?_
      rw [count, map_range_getD]
    · rw [tableKeys, List.flatMap_map, finalKeys_flatMap]

/-- The tables of the schema are those of the groups, in an order of their own, and
every column has the foreign keys of its row that resolve. -/
theorem DatabaseSchemaBuilder.buildRows_foreignKeys {profile : Profile} {interner : Interner}
    {hash : SchemaHash} (valid : LawfulInterner.Valid interner)
    (storable : StorableAll Interner (rows.flatMap Row.strings))
    (consecutive : Consecutive (tableGroups rows)) (narrow : Narrow (tableGroups rows))
    (success : buildRows unstable profile interner rows hash = .ok schema) :
    ∃ placed : List (List RawRow), placed.Perm (tableGroups rows) ∧
      placed.length = schema.tables.length ∧ ∀ index group, placed[index]? = some group →
        ∃ columns, ReadsBack rows schema index group columns := by
  obtain ⟨_, symbols, pools, resolved, order, ordered, built⟩ := buildRows_ok valid storable success
  have perm := built.order_perm
  refine ⟨order.map fun old => ((tableGroups rows)[old]?).getD [], ?_, ?_, ?_⟩
  · exact (perm.map _).trans (List.Perm.of_eq (map_range_getD _ _))
  · rw [List.length_map, built.order_length]
  · intro index group here
    rw [List.getElem?_map] at here
    obtain ⟨old, place, groupEq⟩ := Option.map_eq_some_iff.mp here
    have below : old < (tableGroups rows).length :=
      List.mem_range.mp (perm.mem_iff.mp (List.mem_of_getElem? place))
    rw [List.getElem?_eq_getElem below] at groupEq
    cases groupEq
    exact built.readsBack narrow consecutive place (List.getElem?_eq_getElem below)

/-- Posts with an author, a parent, and a reference to a table that is not there. -/
def postRows : List RawRow :=
  [plainRow "posts" "id" true,
    { plainRow "posts" "author" false with
      foreignKeys := [⟨"fk_a", "public", "absent", "id", .noAction, .noAction⟩,
        ⟨"fk_b", "public", "users", "name", .noAction, .cascade⟩,
        ⟨"fk_c", "public", "posts", "id", .noAction, .setNull⟩] },
    plainRow "users" "id" true, plainRow "users" "name" false]

/-- The foreign keys of the posts. -/
theorem buildRows_foreignKeys_posts :
    ∃ schema, buildStable ⟨.debug, fun _ => 0⟩ postRows = .ok schema ∧
      ∃ index columns, ReadsBack postRows schema index (postRows.take 2) columns := by
  obtain ⟨schema, success⟩ := exists_of_isSome
    (show (buildStable ⟨.debug, fun _ => 0⟩ postRows).toOption.isSome = true by decide +kernel)
  obtain ⟨interner, valid, built⟩ := DatabaseSchema.buildNew_ok success
  have storable : StorableAll (StringInterner ⟨.debug, fun _ => 0⟩)
      (postRows.flatMap Row.strings) := fun _ _ => Or.inl rfl
  have narrow : Narrow (tableGroups postRows) := ⟨by decide, by decide, by decide⟩
  obtain ⟨placed, perm, _, reads⟩ := DatabaseSchemaBuilder.buildRows_foreignKeys valid storable
    (by decide) narrow built
  have posts : postRows.take 2 ∈ tableGroups postRows := by decide
  obtain ⟨index, here⟩ := List.getElem?_of_mem (perm.mem_iff.mpr posts)
  obtain ⟨columns, readsBack⟩ := reads index _ here
  exact ⟨schema, success, index, columns, readsBack⟩

end Boomerang
