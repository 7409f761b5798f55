import Boomerang.Dialect.SqliteDatabase

/-!
# Runs of statements

What a statement that SQLite accepts has done, and to which table it did nothing.
-/

namespace Boomerang

open Foundation

variable {Cells : Type}

/-- The table as the `CREATE TABLE` of a definition makes it. -/
structure LiveTable.IsCreated (table : LiveTable Cells) (definition : TableDef) : Prop where
  name : table.name = definition.name
  columns : table.columns.items.map LiveColumn.toColumnDef = definition.columns
  keys : table.keys = definition.keys
  nonempty : definition.columns ≠ []

theorem LiveTable.create_eq_some {definition : TableDef} {cells : Cells} {table : LiveTable Cells}
    (success : create definition cells = some table) (nonempty : definition.columns ≠ []) :
    table.IsCreated definition := by
  obtain ⟨columns, columnsEq, rfl⟩ := Option.map_eq_some_iff.mp success
  refine ⟨rfl, ?_, rfl, nonempty⟩
  rw [Catalog.find?_ofList? columnsEq, List.map_map]
  exact List.map_id _

namespace SqliteFile

variable {file next : SqliteFile Cells} {name column : String}

theorem step_createTable {definition : TableDef}
    (step : file.Step (.createTable definition) next) :
    (next = file ∧ ∃ table, file.table? definition.name = some table) ∨
      ∃ table : LiveTable Cells, table.IsCreated definition ∧
        file.table? definition.name = none ∧
        next = { file with tables := file.tables.add table } := by
  obtain ⟨cells, success⟩ := step
  unfold after at success
  cases found : file.table? definition.name with
  | some table =>
      simp only [found] at success
      cases success
      exact Or.inl ⟨rfl, table, rfl⟩
  | none =>
      simp only [found] at success
      split at success
      · cases success
      · rename_i nonempty
        obtain ⟨table, created, rfl⟩ := Option.map_eq_some_iff.mp success
        exact Or.inr ⟨table, LiveTable.create_eq_some created nonempty, rfl, rfl⟩

theorem step_dropTable (step : file.Step (.dropTable name) next) : next = file.dropTable name := by
  obtain ⟨cells, success⟩ := step
  cases success
  rfl

theorem step_addColumn {definition : ColumnDef}
    (step : file.Step (.addColumn name definition) next) :
    ∃ table cells, file.table? name = some table ∧
      table.columns.find? (asciiLower definition.name) = none ∧
      next = { file with
        tables := file.tables.modify (asciiLower name) (.addColumn definition cells)
          (LiveTable.key_addColumn definition cells) } := by
  obtain ⟨cells, success⟩ := step
  unfold after at success
  cases found : file.table? name with
  | none =>
      simp only [found] at success
      cases success
  | some table =>
      simp only [found] at success
      cases taken : table.columns.find? (asciiLower definition.name) with
      | some other =>
          simp only [taken] at success
          cases success
      | none =>
          simp only [taken] at success
          cases success
          exact ⟨table, cells, rfl, taken, rfl⟩

theorem step_dropColumn (step : file.Step (.dropColumn name column) next) :
    ∃ table, file.table? name = some table ∧
      next = { file with
        tables := file.tables.modify (asciiLower name) (.dropColumn column)
          (LiveTable.key_dropColumn column) } := by
  obtain ⟨cells, success⟩ := step
  unfold after at success
  cases found : file.table? name with
  | none =>
      simp only [found] at success
      cases success
  | some table =>
      simp only [found] at success
      split at success
      · cases success
      · cases success
        exact ⟨table, rfl, rfl⟩

theorem step_createUniqueIndex {table : String}
    (step : file.Step (.createUniqueIndex name table column) next) :
    (next = file ∧ ∃ index, file.indexes.find? (asciiLower name) = some index) ∨
      file.indexes.find? (asciiLower name) = none ∧
        next = { file with indexes := file.indexes.add ⟨name, table, column⟩ } := by
  obtain ⟨cells, success⟩ := step
  unfold after at success
  cases found : file.indexes.find? (asciiLower name) with
  | some index =>
      simp only [found] at success
      cases success
      exact Or.inl ⟨rfl, index, rfl⟩
  | none =>
      simp only [found] at success
      split at success
      · cases success
      · cases success
        exact Or.inr ⟨rfl, rfl⟩

theorem step_upsertHash {hash : SchemaHash} (step : file.Step (.upsertHash hash) next) :
    next = { file with schemaHash := some hash.1 } := by
  obtain ⟨cells, success⟩ := step
  unfold after at success
  cases found : file.table? "__meta__" with
  | none =>
      simp only [found] at success
      cases success
  | some table =>
      simp only [found] at success
      cases success
      rfl

theorem step_dropTrigger (step : file.Step (.dropTrigger name) next) :
    next.tables = file.tables := by
  obtain ⟨cells, success⟩ := step
  cases success
  rfl

/-- A created table is there, unless there was one of that name. -/
theorem find?_createTable {definition : TableDef}
    (step : file.Step (.createTable definition) next) :
    ∃ table, next.tables.find? (asciiLower definition.name) = some table ∧
      (file.tables.find? (asciiLower definition.name) = some table ∨
        file.tables.find? (asciiLower definition.name) = none ∧ table.IsCreated definition) := by
  rcases step_createTable step with ⟨rfl, table, found⟩ | ⟨table, created, absent, rfl⟩
  · exact ⟨table, found, Or.inl found⟩
  · have key : table.key = asciiLower definition.name := congrArg asciiLower created.name
    refine ⟨table, ?_, Or.inr ⟨absent, created⟩⟩
    rw [table?, ← key] at absent
    rw [← key]
    exact Catalog.find?_add_self absent

end SqliteFile

/-- The table that a statement is about, if it changes tables. -/
def SqliteStatement.tableKey : SqliteStatement → Option String
  | .createTable definition => some (asciiLower definition.name)
  | .dropTable name => some (asciiLower name)
  | .addColumn table _ => some (asciiLower table)
  | .dropColumn table _ => some (asciiLower table)
  | .createUniqueIndex _ _ _ => none
  | .upsertHash _ => none
  | .dropTrigger _ => none

namespace SqliteFile

variable {file next : SqliteFile Cells} {key : String}

/-- A statement leaves the tables that it is not about. -/
theorem Step.find?_of_ne {statement : SqliteStatement} (step : file.Step statement next)
    (apart : statement.tableKey ≠ some key) : next.tables.find? key = file.tables.find? key := by
  cases statement with
  | createTable definition =>
      rcases step_createTable step with ⟨rfl, _⟩ | ⟨table, created, _, rfl⟩
      · rfl
      · refine Catalog.find?_add_of_ne fun same => apart ?_
        rw [same, LiveTable.key, created.name]
        rfl
  | dropTable name =>
      rw [step_dropTable step]
      exact Catalog.find?_erase_of_ne fun same => apart (congrArg some same.symm)
  | addColumn table column =>
      obtain ⟨_, cells, _, _, rfl⟩ := step_addColumn step
      exact Catalog.find?_modify_of_ne (LiveTable.key_addColumn column cells) fun same =>
        apart (congrArg some same.symm)
  | dropColumn table column =>
      obtain ⟨_, _, rfl⟩ := step_dropColumn step
      exact Catalog.find?_modify_of_ne (LiveTable.key_dropColumn column) fun same =>
        apart (congrArg some same.symm)
  | createUniqueIndex name table column =>
      rcases step_createUniqueIndex step with ⟨rfl, _⟩ | ⟨_, rfl⟩ <;> rfl
  | upsertHash hash => rw [step_upsertHash step]
  | dropTrigger name => rw [step_dropTrigger step]

/-- A run leaves the tables that none of its statements is about. -/
theorem find?_of_run {sql : List SqliteStatement} (run : Steps Step file sql next)
    (apart : ∀ statement ∈ sql, statement.tableKey ≠ some key) :
    next.tables.find? key = file.tables.find? key := by
  let Inv : SqliteFile Cells → Prop := fun reached =>
    reached.tables.find? key = file.tables.find? key
  have start : Inv file := rfl
  refine run.invariant_of_labels start apart ?_
  intro before statement reached same allowed step
  exact (step.find?_of_ne allowed).trans same

end SqliteFile

namespace SqliteDatabase

variable {sqlite : Sqlite Cells} {file next : SqliteFile Cells}

/-- A batch that is run to its end is a run of its statements. -/
theorem steps_of_execute (lawful : sqlite.Lawful) {sql : List SqliteStatement}
    (success : execute sqlite file sql = .ok next) : Steps SqliteFile.Step file sql next := by
  induction sql generalizing file with
  | nil =>
      cases success
      exact .refl
  | cons statement sql ih =>
      rw [execute, List.foldlM_cons] at success
      obtain ⟨middle, head, tail⟩ := bind_eq_ok.mp success
      exact .cons (lawful _ _ _ head) (ih tail)

theorem acquire_eq_ok : acquire sqlite file = .ok () ↔ sqlite.fails file .acquire = none := by
  unfold acquire
  split <;> simp [*]

theorem commit_eq_ok :
    commit sqlite file = .ok next ↔ file = next ∧ sqlite.fails next .commit = none := by
  unfold commit
  split
  · rename_i reason failed
    refine ⟨nofun, ?_⟩
    rintro ⟨rfl, allowed⟩
    cases failed.symm.trans allowed
  · rename_i allowed
    rw [Except.ok.injEq]
    refine ⟨?_, And.left⟩
    rintro rfl
    exact ⟨rfl, allowed⟩

theorem transaction_eq_ok {step : String} {sql : Except SqliteFailure (List SqliteStatement)} :
    transaction sqlite step file sql = .ok next ↔ sqlite.fails file .acquire = none ∧
      ∃ statements, sql = .ok statements ∧ execute sqlite file statements = .ok next ∧
        sqlite.fails next .commit = none := by
  rw [transaction, bind_eq_ok]
  simp only [bind_eq_ok, mapError_eq_ok, commit_eq_ok]
  constructor
  · rintro ⟨⟨⟩, acquired, statements, made, last, ran, rfl, committed⟩
    exact ⟨acquire_eq_ok.mp acquired, statements, made, ran, committed⟩
  · rintro ⟨acquired, statements, made, ran, committed⟩
    exact ⟨(), acquire_eq_ok.mpr acquired, statements, made, next, ran, rfl, committed⟩

section Schemas

variable {Interner : Type} [InternerOps Interner] {schema : DatabaseSchema Interner}
variable {tables : List TargetTable} {hashing : HashOrder}

theorem createTables_eq_ok (read : readTables schema = .ok tables) :
    createTables sqlite schema file = .ok next ↔ sqlite.fails file .acquire = none ∧
      execute sqlite file (buildDdl tables schema.hash) = .ok next ∧
        sqlite.fails next .commit = none := by
  rw [createTables, transaction_eq_ok, read]
  refine and_congr_right fun _ => ?_
  constructor
  · rintro ⟨statements, ⟨⟩, ran⟩
    exact ran
  · exact fun ran => ⟨_, rfl, ran⟩

/-- `alter_tables` ends with its first batch, or with the tables created after a second
one has dropped those that were introspected. -/
theorem alterTables_eq_ok (read : readTables schema = .ok tables) :
    alterTables sqlite hashing schema file = .ok next ↔
      sqlite.fails file .introspect = none ∧ sqlite.fails file .acquire = none ∧
        ((execute sqlite file (alterDdl hashing tables (collect file.introspect) schema.hash) =
            .ok next ∧ sqlite.fails next .commit = none) ∨
          (∃ reason, execute sqlite file
            (alterDdl hashing tables (collect file.introspect) schema.hash) = .error reason) ∧
          ∃ emptied, execute sqlite file (dropAllDdl hashing (collect file.introspect)) =
              .ok emptied ∧ sqlite.fails emptied .commit = none ∧
            createTables sqlite schema emptied = .ok next) := by
  unfold alterTables
  cases sqlite.fails file .introspect with
  | some reason => exact ⟨nofun, fun ⟨impossible, _⟩ => nomatch impossible⟩
  | none =>
      rw [read]
      dsimp only
      simp only [bind_eq_ok, mapError_eq_ok, Except.ok.injEq, exists_eq_left', true_and]
      constructor
      · rintro ⟨⟨⟩, acquired, rest⟩
        refine ⟨acquire_eq_ok.mp acquired, ?_⟩
        split at rest
        · rename_i ran
          obtain ⟨rfl, committed⟩ := commit_eq_ok.mp rest
          exact Or.inl ⟨ran, committed⟩
        · rename_i reason refused
          obtain ⟨emptied, emptying, created⟩ := bind_eq_ok.mp rest
          obtain ⟨_, _, ⟨⟩, dropped, committed⟩ := transaction_eq_ok.mp emptying
          exact Or.inr ⟨⟨reason, refused⟩, emptied, dropped, committed, created⟩
      · rintro ⟨acquired, rest⟩
        refine ⟨(), acquire_eq_ok.mpr acquired, ?_⟩
        rcases rest with
          ⟨ran, committed⟩ | ⟨⟨reason, refused⟩, emptied, dropped, committed, created⟩
        · rw [ran]
          exact commit_eq_ok.mpr ⟨rfl, committed⟩
        · rw [refused]
          exact bind_eq_ok.mpr ⟨emptied,
            transaction_eq_ok.mpr ⟨acquired, _, rfl, dropped, committed⟩, created⟩

end Schemas

end SqliteDatabase

/-- A SQLite that has opened a file and refuses only what cannot be done. -/
def Sqlite.plain (file : SqliteFile Unit) : Sqlite Unit where
  openFile _ := .ok file
  run before statement :=
    match before.after () statement with
    | some next => .ok next
    | none => .error "refused"
  fails _ _ := none

theorem Sqlite.plain_lawful (file : SqliteFile Unit) : (plain file).Lawful := by
  intro before statement next success
  dsimp only [plain] at success
  split at success
  · rename_i reached
    cases success
    exact ⟨(), reached⟩
  · cases success

/-- A hash map that is iterated in the order in which its entries were put in. -/
def HashOrder.byEntry : HashOrder := ⟨id, .refl⟩

/-- A file with tables that have just been created. -/
def SqliteFile.ofTables (definitions : List TableDef) : SqliteFile Unit :=
  definitions.foldl (fun file definition =>
    (file.after () (.createTable definition)).getD file) .empty

end Boomerang
