import Boomerang.Schema.AddedColumns
import Boomerang.Schema.RoundTrip

/-!
# The search for tables and columns by their names

A name is found exactly when it was added as such: a string that is interned for another
reason has a symbol, but no table has that symbol for its name. Decoding keeps the parts
that are searched.
-/

namespace Boomerang

open Foundation

/-- A search that returns, answers exactly when there is something, and answers with it. -/
def Finds {Answer : Type} (search : Except Fault (Option Answer)) (present : Prop)
    (isAnswer : Answer → Prop) : Prop :=
  ∃ answer, search = .ok answer ∧ (answer.isSome ↔ present) ∧
    ∀ found, answer = some found → isAnswer found

section Searches

variable {Interner : Type} [InternerOps Interner] {schema : DatabaseSchema Interner}

omit [InternerOps Interner] in
/-- The position of a symbol among the columns of a table. -/
theorem TableRef.columnBySymbol_of_meta {index : Nat} {info : TableMeta} {names : List Symbol}
    (here : schema.tables[index]? = some info)
    (columnNames : ranged schema.columnNames info.columnsStart info.columnsLen = .ok names)
    (wanted : Symbol) :
    (TableRef.mk schema index).columnBySymbol wanted =
      .ok ((names.findIdx? fun other => other = wanted).map fun place =>
        ⟨schema, info.columnsStart + place⟩) := by
  have metaEq : (TableRef.mk schema index).meta = .ok info := indexed_eq_ok.mpr here
  refine bind_eq_ok.mpr ⟨names.findIdx? fun other => other = wanted, ?_, ?_⟩
  · exact bind_eq_ok.mpr ⟨names, bind_eq_ok.mpr ⟨info, metaEq, columnNames⟩, rfl⟩
  · cases names.findIdx? fun other => other = wanted with
    | none => rfl
    | some place => exact bind_eq_ok.mpr ⟨info, metaEq, rfl⟩

theorem TableRef.column_of_symbol {index : Nat} {name : String} {symbol : Symbol}
    (known : schema.getSymbol name = some symbol) :
    (TableRef.mk schema index).column name = (TableRef.mk schema index).columnBySymbol symbol := by
  rw [DatabaseSchema.getSymbol] at known
  rw [TableRef.column, known]

theorem TableRef.column_of_none {index : Nat} {name : String}
    (unknown : schema.getSymbol name = none) :
    (TableRef.mk schema index).column name = .ok none := by
  rw [DatabaseSchema.getSymbol] at unknown
  rw [TableRef.column, unknown]

/-- The columns of a table are those of some rows, and are found by their names. -/
structure FindsColumns (group : List RawRow) (table : TableRef Interner)
    (columns : List (ColumnRef Interner)) : Prop where
  tableColumns : table.columns = .ok columns
  names : List.Forall₂ (fun row column => column.name = .ok row.columnName) group columns
  column : ∀ name, Finds (table.column name) (∃ row ∈ group, row.columnName = name)
    fun column => column.name = .ok name ∧ column ∈ columns

/-- A table is found by a name exactly when rows were added under it, and its columns are
those of rows that follow each other under the name. -/
def FindsTables (rows : List RawRow) (schema : DatabaseSchema Interner) : Prop :=
  ∀ name, Finds (schema.table name) (∃ row ∈ rows, row.tableName = name) fun table =>
    table.name = .ok name ∧ ∃ group ∈ tableGroups rows, (∀ row ∈ group, row.tableName = name) ∧
      ∃ columns, FindsColumns group table columns

/-- What the searches use of a schema: the symbols of the strings of the rows, the tables in
their order, the columns, and the index by name. -/
structure Searchable (rows : List RawRow) (symbols : String → Symbol) (order : List Nat)
    (schema : DatabaseSchema Interner) : Prop where
  getSymbol : ∀ text symbol,
    schema.getSymbol text = some symbol ↔ Names schema.interner symbol text
  names : SymbolsOf schema.interner symbols (rows.flatMap Row.strings)
  order_perm : order.Perm (List.range (tableGroups rows).length)
  order_length : order.length = schema.tables.length
  table : ∀ (index old : Nat) (group : List RawRow), order[index]? = some old →
    (tableGroups rows)[old]? = some group → ∃ info, schema.tables[index]? = some info ∧
      (∀ row ∈ group, symbols row.tableName = info.name) ∧
        OwnsRows rows symbols schema old group info
  column : ∀ (index : Nat) (row : RawRow), rows[index]? = some row →
    ∃ column, schema.columns[index]? = some column ∧ column.name = symbols row.columnName
  search : ∀ wanted, ∃ slot,
    tryBinarySearch (nameAt schema.tables schema.byName) schema.byName.length wanted = .ok slot ∧
      (∀ place, slot = some place → ∃ index info, schema.byName[place]? = some index ∧
        index < schema.tables.length % u16Range ∧ schema.tables[index]? = some info ∧
          info.name = wanted) ∧
      (slot = none → ∀ index info, index < schema.tables.length % u16Range →
        schema.tables[index]? = some info → info.name ≠ wanted)

theorem BuiltFrom.searchable [LawfulInterner Interner]
    {unstable : UnstableSort (TableMeta × Nat) Symbol} {rows : List RawRow}
    {symbols : String → Symbol} {pools : SchemaPools} {resolved : List ResolvedFk}
    {order : List Nat} {ordered : List TableMeta}
    (built : BuiltFrom unstable rows symbols pools resolved order ordered schema)
    (indexable : Indexable (tableGroups rows)) : Searchable rows symbols order schema := by
  refine ⟨fun text symbol => LawfulInterner.get_eq_some built.valid, built.names, built.order_perm,
    built.order_length, ?_, ?_, built.steps.search_byName⟩
  · intro index old group place here
    have namedHere : (namedGroups symbols rows)[old]? = some (group.map (Row.named symbols)) :=
      namedGroups_getElem? here
    obtain ⟨info, infoHere, hasTable⟩ := built.steps.hasTable built.tables place namedHere
    obtain ⟨other, otherHere, owns⟩ := built.ownsRows indexable place here
    cases infoHere.symm.trans otherHere
    exact ⟨info, infoHere, fun row member => hasTable.name _ (List.mem_map_of_mem member), owns⟩
  · intro index row here
    have namedHere : (namedGroups symbols rows).flatten[index]? = some (row.named symbols) := by
      rw [flatten_namedGroups, List.getElem?_map, here]
      rfl
    exact built.steps.column_name built.holds namedHere

namespace Searchable

variable {rows : List RawRow} {symbols : String → Symbol} {order : List Nat}

/-- A schema with the same tables, columns, index by name and symbols. -/
theorem of_same {other : DatabaseSchema Interner}
    (searchable : Searchable rows symbols order schema)
    (tables : other.tables = schema.tables) (byName : other.byName = schema.byName)
    (columns : other.columns = schema.columns)
    (columnNames : other.columnNames = schema.columnNames)
    (get : ∀ value, other.getSymbol value = schema.getSymbol value)
    (resolve : ∀ symbol, other.resolveSymbol symbol = schema.resolveSymbol symbol) :
    Searchable rows symbols order other := by
  have named : ∀ symbol text,
      Names other.interner symbol text ↔ Names schema.interner symbol text := by
    intro symbol text
    rw [Names, Names, ← DatabaseSchema.resolveSymbol, ← DatabaseSchema.resolveSymbol, resolve]
  constructor
  · intro text symbol
    rw [get, named]
    exact searchable.getSymbol text symbol
  · exact fun text member => (named _ _).mpr (searchable.names text member)
  · exact searchable.order_perm
  · rw [tables]
    exact searchable.order_length
  · intro index old group place here
    obtain ⟨info, infoHere, name, owns⟩ := searchable.table index old group place here
    exact ⟨info, tables ▸ infoHere, name, owns.columnsStart, owns.columnsLen, owns.primaryKey,
      columnNames ▸ owns.columnNames⟩
  · rw [columns]
    exact searchable.column
  · rw [tables, byName]
    exact searchable.search

/-- A string that was added has the symbol that names it. -/
theorem getSymbol_eq (searchable : Searchable rows symbols order schema) {text : String}
    (added : text ∈ rows.flatMap Row.strings) : schema.getSymbol text = some (symbols text) :=
  (searchable.getSymbol _ _).mpr (searchable.names text added)

/-- The symbol of a string that was added is that of a name exactly when they are equal. -/
theorem symbol_eq_iff (searchable : Searchable rows symbols order schema) {text name : String}
    {symbol : Symbol} (added : text ∈ rows.flatMap Row.strings)
    (known : schema.getSymbol name = some symbol) : symbols text = symbol ↔ text = name := by
  constructor
  · rintro rfl
    exact (searchable.names text added).functional ((searchable.getSymbol _ _).mp known)
  · rintro rfl
    exact Option.some.inj ((searchable.getSymbol_eq added).symm.trans known)

theorem columnName_mem {group : List RawRow} (groupIn : group ∈ tableGroups rows) {row : RawRow}
    (rowIn : row ∈ group) : row.columnName ∈ rows.flatMap Row.strings :=
  List.mem_flatMap.mpr ⟨row, mem_rows_of_group groupIn rowIn, by simp [Row.strings]⟩

theorem tableName_mem {row : RawRow} (rowIn : row ∈ rows) :
    row.tableName ∈ rows.flatMap Row.strings :=
  List.mem_flatMap.mpr ⟨row, rowIn, row.tableName_mem_strings⟩

/-- The name of the column of a row of a group. -/
theorem columnName (searchable : Searchable rows symbols order schema) {old place : Nat}
    {group : List RawRow} (here : (tableGroups rows)[old]? = some group)
    (below : place < group.length) :
    (ColumnRef.mk schema (((tableGroups rows).take old).flatten.length + place)).name =
      .ok group[place].columnName := by
  obtain ⟨column, columnHere, name⟩ := searchable.column _ _ (getElem?_rows here below)
  refine ColumnRef.name_of_meta columnHere ?_
  rw [name]
  exact searchable.names _ (columnName_mem (List.mem_of_getElem? here) (List.getElem_mem below))

/-- The columns of the table of a group are found by their names. -/
theorem finds_column (searchable : Searchable rows symbols order schema) {index old : Nat}
    {group : List RawRow}
    (place : order[index]? = some old) (here : (tableGroups rows)[old]? = some group)
    (name : String) :
    Finds ((TableRef.mk schema index).column name) (∃ row ∈ group, row.columnName = name)
      fun column => column.name = .ok name ∧ column ∈ (List.range group.length).map fun offset =>
        ⟨schema, ((tableGroups rows).take old).flatten.length + offset⟩ := by
  obtain ⟨info, infoHere, _, owns⟩ := searchable.table index old group place here
  have added : ∀ row ∈ group, row.columnName ∈ rows.flatMap Row.strings := fun row member =>
    columnName_mem (List.mem_of_getElem? here) member
  cases known : schema.getSymbol name with
  | none =>
      refine ⟨none, TableRef.column_of_none known, iff_of_false (by simp) ?_, by simp⟩
      rintro ⟨row, member, rfl⟩
      rw [searchable.getSymbol_eq (added row member)] at known
      cases known
  | some symbol =>
      have searched := TableRef.columnBySymbol_of_meta infoHere owns.columnNames symbol
      refine ⟨_, (TableRef.column_of_symbol known).trans searched, ?_, ?_⟩
      · rw [Option.isSome_map, List.findIdx?_isSome, List.any_eq_true]
        constructor
        · rintro ⟨_, listed, same⟩
          rw [List.map_map, List.mem_map] at listed
          obtain ⟨row, member, rfl⟩ := listed
          exact ⟨row, member,
            (searchable.symbol_eq_iff (added row member) known).mp (of_decide_eq_true same)⟩
        · rintro ⟨row, member, same⟩
          refine ⟨symbols row.columnName, ?_, ?_⟩
          · exact List.mem_map_of_mem (List.mem_map_of_mem member)
          · exact decide_eq_true ((searchable.symbol_eq_iff (added row member) known).mpr same)
      · intro column answered
        obtain ⟨offset, foundAt, rfl⟩ := Option.map_eq_some_iff.mp answered
        obtain ⟨below, same, _⟩ := List.findIdx?_eq_some_iff_getElem.mp foundAt
        rw [List.length_map, List.length_map] at below
        rw [List.getElem_map, List.getElem_map] at same
        have member := List.getElem_mem below
        have equal := (searchable.symbol_eq_iff (added _ member) known).mp (of_decide_eq_true same)
        rw [owns.columnsStart]
        refine ⟨?_, List.mem_map.mpr ⟨offset, List.mem_range.mpr below, rfl⟩⟩
        rw [← equal]
        exact searchable.columnName here below

theorem findsColumns (searchable : Searchable rows symbols order schema) {index old : Nat}
    {group : List RawRow}
    (place : order[index]? = some old) (here : (tableGroups rows)[old]? = some group) :
    FindsColumns group (TableRef.mk schema index) ((List.range group.length).map fun offset =>
      ⟨schema, ((tableGroups rows).take old).flatten.length + offset⟩) := by
  obtain ⟨info, infoHere, _, owns⟩ := searchable.table index old group place here
  refine ⟨?_, ?_, searchable.finds_column place here⟩
  · rw [TableRef.columns_of_meta infoHere, owns.columnsStart, owns.columnsLen]
  · refine List.forall₂_iff_get.mpr ⟨by simp, fun offset inGroup inColumns => ?_⟩
    have name := searchable.columnName here inGroup
    simpa using name

/-- The tables are those of the groups. -/
theorem exists_group (searchable : Searchable rows symbols order schema) {index : Nat}
    (below : index < schema.tables.length) :
    ∃ old group, order[index]? = some old ∧ (tableGroups rows)[old]? = some group := by
  rw [← searchable.order_length] at below
  exact exists_group_of_perm searchable.order_perm below

/-- A row that was added is in a table. -/
theorem exists_table (searchable : Searchable rows symbols order schema) {row : RawRow}
    (rowIn : row ∈ rows) :
    ∃ (index : Nat) (info : TableMeta), schema.tables[index]? = some info ∧
      info.name = symbols row.tableName := by
  obtain ⟨index, old, group, place, here, inGroup⟩ :=
    exists_place_of_perm searchable.order_perm rowIn
  obtain ⟨info, infoHere, name, _⟩ := searchable.table index old group place here
  exact ⟨index, info, infoHere, (name row inGroup).symm⟩

/-- A table with the symbol of a name is one that was added under it. -/
theorem isTable (searchable : Searchable rows symbols order schema) {name : String}
    {index : Nat} {info : TableMeta} (infoHere : schema.tables[index]? = some info)
    (known : schema.getSymbol name = some info.name) :
    (TableRef.mk schema index).name = .ok name ∧
      ∃ group ∈ tableGroups rows, (∀ row ∈ group, row.tableName = name) ∧
        ∃ columns, FindsColumns group (TableRef.mk schema index) columns := by
  obtain ⟨old, group, place, here⟩ :=
    searchable.exists_group (List.getElem?_eq_some_iff.mp infoHere).1
  have groupIn := List.mem_of_getElem? here
  obtain ⟨other, otherHere, names, _⟩ := searchable.table index old group place here
  cases infoHere.symm.trans otherHere
  refine ⟨TableRef.name_of_meta infoHere ((searchable.getSymbol _ _).mp known), group, groupIn,
    ?_, _, searchable.findsColumns place here⟩
  intro row member
  exact (searchable.symbol_eq_iff (tableName_mem (mem_rows_of_group groupIn member)) known).mp
    (names row member)

/-- The tables are found by their names. -/
theorem findsTables (searchable : Searchable rows symbols order schema)
    (few : schema.tables.length < u16Range) : FindsTables rows schema := by
  intro name
  cases known : schema.getSymbol name with
  | none =>
      refine ⟨none, ?_, iff_of_false (by simp) ?_, by simp⟩
      · rw [DatabaseSchema.table, known]
      · rintro ⟨row, member, rfl⟩
        rw [searchable.getSymbol_eq (tableName_mem member)] at known
        cases known
  | some symbol =>
      obtain ⟨slot, searched, hit, miss⟩ := searchable.search symbol
      obtain ⟨answer, answered, found, absent⟩ :=
        DatabaseSchema.tableBySymbol_of_search searched hit miss
      refine ⟨answer, by rw [DatabaseSchema.table, known]; exact answered, ⟨?_, ?_⟩, ?_⟩
      · intro present
        obtain ⟨table, tableEq⟩ := Option.isSome_iff_exists.mp present
        obtain ⟨index, info, rfl, infoHere, rfl⟩ := found table tableEq
        obtain ⟨_, group, groupIn, names, _⟩ := searchable.isTable infoHere known
        obtain ⟨row, rest, rfl⟩ := List.exists_cons_of_ne_nil (List.ne_nil_of_mem_splitBy groupIn)
        exact ⟨row, mem_rows_of_group groupIn List.mem_cons_self, names row List.mem_cons_self⟩
      · rintro ⟨row, rowIn, same⟩
        by_contra unanswered
        obtain ⟨index, info, infoHere, nameEq⟩ := searchable.exists_table rowIn
        have below := (List.getElem?_eq_some_iff.mp infoHere).1
        refine absent (Option.not_isSome_iff_eq_none.mp unanswered) index info
          (by rwa [Nat.mod_eq_of_lt few]) infoHere ?_
        rw [nameEq]
        exact (searchable.symbol_eq_iff (tableName_mem rowIn) known).mpr same
      · intro table tableEq
        obtain ⟨index, info, rfl, infoHere, rfl⟩ := found table tableEq
        exact searchable.isTable infoHere known

end Searchable

end Searches

namespace DatabaseSchema

variable {build : Build} {schema : DatabaseSchema (StringInterner build)}

/-- In a schema that was built, and in one that is decoded from its bytes, names are found
exactly when they were added. -/
theorem findsTables_of_buildNew {unstable : UnstableSort (TableMeta × Nat) Symbol}
    {uninitialised : Memory} {internerId : Nat} {rows : List RawRow} {hash : SchemaHash}
    (storable : ∀ text ∈ rows.flatMap Row.strings, MemoryPool.Storable build.profile text)
    (indexable : Indexable (tableGroups rows))
    (success : buildNew unstable build uninitialised internerId rows hash = .ok schema) :
    FindsTables rows schema ∧
      ∀ otherMemory otherId decoded,
        decode build otherMemory otherId schema.encode = .ok (some decoded) →
          FindsTables rows decoded := by
  obtain ⟨interner, valid, success⟩ := buildNew_ok success
  obtain ⟨_, symbols, pools, resolved, order, ordered, built⟩ :=
    DatabaseSchemaBuilder.buildRows_ok valid storable success
  obtain ⟨contents, holds⟩ := built.valid
  have whole : (tableGroups rows).flatten = rows := List.flatten_splitBy _ _
  have searchable := built.searchable indexable
  have few : schema.tables.length < u16Range := built.tableCount ▸ indexable.tables
  refine ⟨searchable.findsTables few, fun otherMemory otherId decoded decodedEq => ?_⟩
  obtain ⟨rebuilt, rebuiltEq, get, resolve⟩ := exists_rebuilt holds otherMemory otherId
  obtain ⟨rfl, tables, byName, columns, columnNames⟩ := tables_of_decode_encode
    (built.tablesEncodable (whole ▸ indexable.total) indexable.columns)
    holds.layout.sized.length_committedBytes rebuiltEq decodedEq
  exact (searchable.of_same tables byName columns columnNames get resolve).findsTables
    (tables ▸ few)

/-- A table whose rows do not follow each other. -/
def apartRows : List RawRow :=
  [plainRow "users" "id" true, plainRow "posts" "users" false, plainRow "users" "name" false]

/-- The tables of the rows, before and after decoding. -/
theorem findsTables_apart :
    ∃ schema decoded, buildStable ⟨.release, fun _ => 0⟩ apartRows = .ok schema ∧
      decode ⟨.release, fun _ => 0⟩ (fun _ => 1) 2 schema.encode = .ok (some decoded) ∧
      FindsTables apartRows schema ∧ FindsTables apartRows decoded := by
  have present : ((buildStable ⟨.release, fun _ => 0⟩ apartRows).toOption.bind fun schema =>
      (decode ⟨.release, fun _ => 0⟩ (fun _ => 1) 2 schema.encode).toOption.join).isSome =
        true := by
    decide +kernel
  obtain ⟨decoded, both⟩ := Option.isSome_iff_exists.mp present
  obtain ⟨schema, built, decodedEq⟩ := Option.bind_eq_some_iff.mp both
  have success := toOption_eq_some.mp built
  have decodes := toOption_eq_some.mp (Option.join_eq_some_iff.mp decodedEq)
  have indexable : Indexable (tableGroups apartRows) := ⟨by decide, by decide⟩
  obtain ⟨finds, findsDecoded⟩ := findsTables_of_buildNew (by decide) indexable success
  exact ⟨schema, decoded, success, decodes, finds, findsDecoded _ _ _ decodes⟩

end DatabaseSchema

end Boomerang
