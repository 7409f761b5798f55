import Boomerang.Dialect.RecordIds
import Boomerang.Sync.TruthTable

/-!
# The table names in the logs

The writers qualify the name of a table, and the reader looks up what it reads among
the symbols of the schema, where tables stand under their bare names.
-/

namespace Boomerang

open Foundation

section Property

variable {Interner : Type} [InternerOps Interner]

/-- The table names that the writers put into the log for the table at an index. A writer
writes for every table of the schema, or for none: SQLite reads the tables before its
transaction begins, and the one transaction of Postgres is rolled back. -/
inductive LogKey (schema : DatabaseSchema Interner) (index : Nat) : String → Prop where
  | backfill {statements statement}
      (written : schema.tableRefs.mapM PostgresDatabase.backfillStatement = .ok statements)
      (own : statements[index]? = some statement) : LogKey schema index statement.tableName
  | postgres {triggers trigger}
      (written : schema.tableRefs.mapM PostgresDatabase.tableTrigger = .ok triggers)
      (own : triggers[index]? = some trigger) : LogKey schema index trigger.name
  | sqlite {tables triggers trigger}
      (written : schema.tableRefs.mapM SqliteDatabase.tableTriggers = .ok tables)
      (own : tables[index]? = some triggers) (listed : trigger ∈ triggers) :
      LogKey schema index trigger.name

/-- The memo of a stream after some calls of `symbol_for`. -/
inductive TableCache.Reached (Driver : Type) (schema : DatabaseSchema Interner) :
    TableCache → Prop where
  | default : Reached Driver schema .default
  | call {cache next table symbol} (prior : Reached Driver schema cache)
      (success : (cache.symbolFor schema table : Except (TruthTableError Driver) _) =
        .ok (symbol, next)) : Reached Driver schema next

/-- Whatever the writers put into the log for a table of the schema is accepted by
`symbol_for`, and its symbol leads back to that table. -/
def DatabaseSchema.ReadsOwnKeys (Driver : Type) (schema : DatabaseSchema Interner) : Prop :=
  ∀ index key, LogKey schema index key →
    ∀ cache, TableCache.Reached Driver schema cache → ∃ symbol next,
      (cache.symbolFor schema key : Except (TruthTableError Driver) _) = .ok (symbol, next) ∧
        schema.tableBySymbol symbol = .ok (some ⟨schema, index⟩)

/-- The tables that the writers go through all have a primary column. -/
def DatabaseSchema.AllKeyed (schema : DatabaseSchema Interner) : Prop :=
  ∀ table ∈ schema.tableRefs, ∃ tableName primaryCol, Keyed table tableName primaryCol

variable {schema : DatabaseSchema Interner} {index : Nat}

/-- A writer writes for the table at an index when it does not refuse another table. -/
theorem written_iff {Statement : Type} {write : TableRef Interner → Except WriterStop Statement}
    {statementOf : String → String → Statement}
    (writes : ∀ {table statement}, write table = .ok statement ↔ ∃ tableName primaryCol,
      Keyed table tableName primaryCol ∧ statementOf tableName primaryCol = statement)
    {statement : Statement} :
    (∃ statements, schema.tableRefs.mapM write = .ok statements ∧
        statements[index]? = some statement) ↔
      schema.AllKeyed ∧ index < schema.tableRefs.length ∧ ∃ tableName primaryCol,
        Keyed (TableRef.mk schema index) tableName primaryCol ∧
          statementOf tableName primaryCol = statement := by
  constructor
  · rintro ⟨statements, written, own⟩
    refine ⟨?_, ?_⟩
    · intro table listed
      obtain ⟨other, _, wrote⟩ := exists_of_mapM_ok written listed
      obtain ⟨tableName, primaryCol, keyed, _⟩ := writes.mp wrote
      exact ⟨tableName, primaryCol, keyed⟩
    · rcases mapM_getElem? written index with ⟨_, missing⟩ | ⟨table, _, here, there, wrote⟩
      · cases missing.symm.trans own
      · cases there.symm.trans own
        obtain ⟨below, rfl⟩ := DatabaseSchema.tableRefs_eq_some.mp here
        exact ⟨below, writes.mp wrote⟩
  · rintro ⟨allKeyed, below, written⟩
    have each : ∀ table ∈ schema.tableRefs, ∃ statement, write table = .ok statement := by
      intro table listed
      obtain ⟨tableName, primaryCol, keyed⟩ := allKeyed table listed
      exact ⟨_, writes.mpr ⟨tableName, primaryCol, keyed, rfl⟩⟩
    obtain ⟨statements, success⟩ := exists_mapM_ok each
    refine ⟨statements, success, ?_⟩
    rcases mapM_getElem? success index with ⟨missing, _⟩ | ⟨table, _, here, there, wrote⟩
    · exact absurd below (Nat.not_lt.mpr (List.getElem?_eq_none_iff.mp missing))
    · obtain ⟨_, rfl⟩ := DatabaseSchema.tableRefs_eq_some.mp here
      rw [there]
      exact congrArg some (Except.ok.inj (wrote.symm.trans (writes.mpr written)))

/-- All writers use the qualified name, and write for the enumerated tables when all of
them have a primary column. -/
theorem logKey_iff {key : String} :
    LogKey schema index key ↔ schema.AllKeyed ∧ index < schema.tableRefs.length ∧
      ∃ tableName primaryCol, Keyed (TableRef.mk schema index) tableName primaryCol ∧
        publicName tableName = key := by
  constructor
  · intro written
    cases written with
    | backfill written own =>
        obtain ⟨allKeyed, below, tableName, primaryCol, keyed, rfl⟩ :=
          (written_iff PostgresDatabase.backfillStatement_eq_ok).mp ⟨_, written, own⟩
        exact ⟨allKeyed, below, tableName, primaryCol, keyed, rfl⟩
    | postgres written own =>
        obtain ⟨allKeyed, below, tableName, primaryCol, keyed, rfl⟩ :=
          (written_iff PostgresDatabase.tableTrigger_eq_ok).mp ⟨_, written, own⟩
        exact ⟨allKeyed, below, tableName, primaryCol, keyed, rfl⟩
    | sqlite written own listed =>
        obtain ⟨allKeyed, below, tableName, primaryCol, keyed, rfl⟩ :=
          (written_iff SqliteDatabase.tableTriggers_eq_ok).mp ⟨_, written, own⟩
        obtain ⟨_, _, rfl⟩ := List.mem_map.mp listed
        exact ⟨allKeyed, below, tableName, primaryCol, keyed, rfl⟩
  · rintro ⟨allKeyed, below, tableName, primaryCol, keyed, rfl⟩
    obtain ⟨_, written, own⟩ := (written_iff PostgresDatabase.backfillStatement_eq_ok).mpr
      ⟨allKeyed, below, tableName, primaryCol, keyed, rfl⟩
    exact .backfill written own

end Property

variable {Interner : Type} [InternerOps Interner] [LawfulInterner Interner] {Driver : Type}
variable {unstable : UnstableSort (TableMeta × Nat) Symbol} {rows : List RawRow}
variable {symbols : String → Symbol} {pools : SchemaPools} {resolved : List ResolvedFk}
variable {order : List Nat} {ordered : List TableMeta} {schema : DatabaseSchema Interner}

/-- A symbol leads to a table of its name only. -/
theorem BuiltFrom.name_of_tableBySymbol
    (built : BuiltFrom unstable rows symbols pools resolved order ordered schema)
    {symbol : Symbol} {table : TableRef Interner} {text : String}
    (found : schema.tableBySymbol symbol = .ok (some table))
    (named : Names schema.interner symbol text) : table.name = .ok text := by
  obtain ⟨answer, searched, hit, _⟩ := built.steps.tableBySymbol_ok symbol
  cases searched.symm.trans found
  obtain ⟨index, info, rfl, here, rfl⟩ := hit table rfl
  exact bind_eq_ok.mpr ⟨info, indexed_eq_ok.mpr here, resolveExpected_eq_ok.mpr named⟩

/-- A table has no primary column when none of its rows is flagged primary. -/
theorem BuiltFrom.primaryKey_eq_none
    (built : BuiltFrom unstable rows symbols pools resolved order ordered schema)
    {index old : Nat} {group : List RawRow} (place : order[index]? = some old)
    (here : (tableGroups rows)[old]? = some group) :
    (TableRef.mk schema index).primaryKey = .ok none ↔ ∀ row ∈ group, row.isPrimary = false := by
  obtain ⟨_, absent, present⟩ := built.accessors place here
  rw [← primaryColumnOf_eq_none here]
  constructor
  · intro noKey
    by_contra some'
    obtain ⟨primaryCol, primaryColEq⟩ := Option.ne_none_iff_exists'.mp some'
    obtain ⟨_, keyEq, _⟩ := present primaryCol primaryColEq
    cases noKey.symm.trans keyEq
  · intro noColumn
    exact absent (lastPrimary_eq_none.mpr ((primaryColumnOf_eq_none here).mp noColumn))

/-- The tables without a primary column are those that the writers refuse. -/
theorem BuiltFrom.not_allKeyed_iff
    (built : BuiltFrom unstable rows symbols pools resolved order ordered schema) :
    ¬ schema.AllKeyed ↔ ∃ table ∈ schema.tableRefs, table.primaryKey = .ok none := by
  constructor
  · intro refused
    by_contra allPresent
    refine refused fun table listed => ?_
    obtain ⟨index, below, rfl⟩ := DatabaseSchema.exists_of_mem_tableRefs listed
    obtain ⟨old, group, place, here⟩ := built.exists_group below
    obtain ⟨row, _, name⟩ := built.exists_name place here
    cases primaryColEq : primaryColumnOf rows old with
    | none =>
        exact (allPresent ⟨_, listed, (built.primaryKey_eq_none place here).mpr
          ((primaryColumnOf_eq_none here).mp primaryColEq)⟩).elim
    | some primaryCol =>
        exact ⟨row.tableName, primaryCol, (built.keyed_iff place here).mpr ⟨name, primaryColEq⟩⟩
  · rintro ⟨table, listed, noKey⟩ allKeyed
    obtain ⟨_, _, _, column, keyEq, _⟩ := allKeyed table listed
    cases noKey.symm.trans keyEq

/-- The reader refuses what is written for a table. -/
theorem BuiltFrom.readsOwnKeys_iff (Driver : Type)
    (built : BuiltFrom unstable rows symbols pools resolved order ordered schema) :
    schema.ReadsOwnKeys Driver ↔ schema.tableRefs = [] ∨ ¬ schema.AllKeyed := by
  constructor
  · intro reads
    by_contra written
    obtain ⟨listed, allKeyed⟩ := not_or.mp written
    have allKeyed := not_not.mp allKeyed
    have below : 0 < schema.tableRefs.length := List.length_pos_iff.mpr listed
    obtain ⟨tableName, primaryCol, keyed⟩ := allKeyed _
      (List.mem_of_getElem? (DatabaseSchema.tableRefs_eq_some.mpr ⟨below, rfl⟩))
    obtain ⟨symbol, next, accepted, found⟩ :=
      reads 0 _ (logKey_iff.mpr ⟨allKeyed, below, _, _, keyed, rfl⟩) _ .default
    have named : Names schema.interner symbol (publicName tableName) := by
      unfold TableCache.symbolFor at accepted
      dsimp only [TableCache.default] at accepted
      cases known : schema.getSymbol (publicName tableName) with
      | none =>
          rw [known] at accepted
          cases accepted
      | some other =>
          rw [known] at accepted
          cases accepted
          exact (LawfulInterner.get_eq_some built.valid).mp known
    have bare := keyed.name.symm.trans (built.name_of_tableBySymbol found named)
    exact publicName_ne _ (Except.ok.inj bare).symm
  · rintro (noTable | refused) index key written
    · obtain ⟨_, below, _⟩ := logKey_iff.mp written
      rw [noTable] at below
      cases below
    · exact (refused (logKey_iff.mp written).1).elim

/-- Where the number of tables is not cut, every table of the rows is enumerated. -/
theorem BuiltFrom.exists_primaryKey_none_iff
    (built : BuiltFrom unstable rows symbols pools resolved order ordered schema)
    (few : (tableGroups rows).length < u16Range) :
    (∃ table ∈ schema.tableRefs, table.primaryKey = .ok none) ↔
      ∃ group ∈ tableGroups rows, ∀ row ∈ group, row.isPrimary = false := by
  constructor
  · rintro ⟨table, listed, noKey⟩
    obtain ⟨index, below, rfl⟩ := DatabaseSchema.exists_of_mem_tableRefs listed
    obtain ⟨old, group, place, here⟩ := built.exists_group below
    exact ⟨group, List.mem_of_getElem? here, (built.primaryKey_eq_none place here).mp noKey⟩
  · rintro ⟨group, member, unflagged⟩
    obtain ⟨old, here⟩ := List.getElem?_of_mem member
    have oldIn : old ∈ order := built.order_perm.mem_iff.mpr
      (List.mem_range.mpr (List.getElem?_eq_some_iff.mp here).1)
    obtain ⟨index, place⟩ := List.getElem?_of_mem oldIn
    have below : index < schema.tables.length :=
      built.order_length ▸ (List.getElem?_eq_some_iff.mp place).1
    exact ⟨_, List.mem_of_getElem?
      (DatabaseSchema.tableRefs_getElem? below (built.tableCount ▸ few)),
      (built.primaryKey_eq_none place here).mpr unflagged⟩

/-- The reader takes what the writers write when they write nothing: the schema has no
table, or one of its tables has no primary column, and every writer refuses them all. -/
theorem DatabaseSchemaBuilder.buildRows_readsOwnKeys (Driver : Type) {profile : Profile}
    {interner : Interner} {hash : SchemaHash} (valid : LawfulInterner.Valid interner)
    (storable : StorableAll Interner (rows.flatMap Row.strings))
    (success : buildRows unstable profile interner rows hash = .ok schema) :
    (schema.ReadsOwnKeys Driver ↔
        schema.tableRefs = [] ∨ ∃ table ∈ schema.tableRefs, table.primaryKey = .ok none) ∧
      ((tableGroups rows).length < u16Range →
        (schema.ReadsOwnKeys Driver ↔
          rows = [] ∨ ∃ group ∈ tableGroups rows, ∀ row ∈ group, row.isPrimary = false)) := by
  obtain ⟨_, symbols, pools, resolved, order, ordered, built⟩ := buildRows_ok valid storable success
  have reads := built.readsOwnKeys_iff Driver
  rw [built.not_allKeyed_iff] at reads
  refine ⟨reads, fun few => ?_⟩
  have noTable : schema.tableRefs = [] ↔ rows = [] := by
    rw [← List.length_eq_zero_iff, DatabaseSchema.length_tableRefs, built.tableCount,
      Nat.mod_eq_of_lt few, List.length_eq_zero_iff]
    exact List.splitBy_eq_nil
  rw [reads, noTable, built.exists_primaryKey_none_iff few]

/-- Nothing is written for users where another table has no primary column. -/
theorem buildRows_readsOwnKeys_plain :
    ∃ schema, buildStable ⟨.debug, fun _ => 0⟩
        [plainRow "notes" "body" false, plainRow "users" "id" true] = .ok schema ∧
      schema.ReadsOwnKeys Unit := by
  obtain ⟨schema, success⟩ := exists_of_isSome (show (buildStable ⟨.debug, fun _ => 0⟩
    [plainRow "notes" "body" false, plainRow "users" "id" true]).toOption.isSome = true by
      decide +kernel)
  obtain ⟨interner, valid, built⟩ := DatabaseSchema.buildNew_ok success
  obtain ⟨_, reads⟩ := DatabaseSchemaBuilder.buildRows_readsOwnKeys Unit valid
    (fun _ _ => Or.inl rfl) built
  exact ⟨schema, success, (reads (by decide)).mpr (Or.inr (by decide))⟩

/-- What is written for a table of users is an unknown table to the reader. -/
theorem not_readsOwnKeys_users :
    ∃ schema, buildStable ⟨.debug, fun _ => 0⟩ [plainRow "users" "id" true] = .ok schema ∧
      LogKey schema 0 "public.users" ∧
      (TableCache.default.symbolFor schema "public.users" : Except (TruthTableError Unit) _) =
        .error (.unknownTable "public.users") ∧ ¬ schema.ReadsOwnKeys Unit := by
  have facts : ((buildStable ⟨.debug, fun _ => 0⟩ [plainRow "users" "id" true]).toOption.bind
      fun schema => if schema.getSymbol "public.users" = none then
        (schema.tableRefs.mapM PostgresDatabase.tableTrigger).toOption else none) =
      some [.of "users" "id"] := by decide +kernel
  obtain ⟨schema, built, facts⟩ := Option.bind_eq_some_iff.mp facts
  obtain ⟨unknown, written⟩ := Option.ite_none_right_eq_some.mp facts
  have refused : (TableCache.default.symbolFor schema "public.users" :
      Except (TruthTableError Unit) _) = .error (.unknownTable "public.users") := by
    simp only [TableCache.symbolFor, TableCache.default, unknown]
  have sameName : (PgTrigger.of "users" "id").name = "public.users" := by decide
  have logged : LogKey schema 0 "public.users" :=
    sameName ▸ .postgres (toOption_eq_some.mp written) rfl
  refine ⟨schema, toOption_eq_some.mp built, logged, refused, fun reads => ?_⟩
  obtain ⟨symbol, next, accepted, _⟩ := reads 0 _ logged _ .default
  cases refused.symm.trans accepted

end Boomerang
