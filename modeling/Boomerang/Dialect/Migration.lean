import Boomerang.Dialect.Introspection

/-!
# What the first batch of a migration leaves

Tables are told apart by their names in lower case. A live table that is reported goes
to the first table of the schema with exactly its name, and is dropped if there is none;
what the introspection hides stays; where nothing is live, the first table of the schema
is created.
-/

namespace Boomerang

open Foundation SqliteDatabase

variable {Cells : Type}

/-- The first definition of a name is created. -/
def CreatedFirst (definitions : List TableDef) (key : String) : Option (LiveTable Cells) → Prop :=
  Option.Rel (fun definition table => table.IsCreated definition)
    (definitions.find? fun definition => asciiLower definition.name = key)

theorem createdFirst_cons_of_eq {definition : TableDef} {definitions : List TableDef} {key : String}
    {table : LiveTable Cells} (same : asciiLower definition.name = key) :
    CreatedFirst (definition :: definitions) key (some table) ↔ table.IsCreated definition := by
  rw [CreatedFirst, List.find?_cons_of_pos (by simpa using same), Option.rel_some_some]

theorem createdFirst_cons_of_ne {definition : TableDef} {definitions : List TableDef} {key : String}
    {made : Option (LiveTable Cells)} (apart : asciiLower definition.name ≠ key) :
    CreatedFirst (definition :: definitions) key made ↔ CreatedFirst definitions key made := by
  rw [CreatedFirst, List.find?_cons_of_neg (by simpa using apart), CreatedFirst]

/-- `CREATE TABLE` statements keep what is there, and create the first table of a name
where nothing is. -/
theorem SqliteFile.find?_createTables {file next : SqliteFile Cells} {definitions : List TableDef}
    (run : Steps Step file (definitions.map .createTable) next) (key : String) :
    (∃ table, file.tables.find? key = some table ∧ next.tables.find? key = some table) ∨
      file.tables.find? key = none ∧ CreatedFirst definitions key (next.tables.find? key) := by
  induction definitions generalizing file with
  | nil =>
      rw [run.eq_of_nil]
      cases found : file.tables.find? key with
      | some table => exact Or.inl ⟨table, rfl, rfl⟩
      | none => exact Or.inr ⟨rfl, .none⟩
  | cons definition definitions ih =>
      obtain ⟨middle, step, rest⟩ := run.uncons
      by_cases same : asciiLower definition.name = key
      · obtain ⟨table, here, before⟩ := find?_createTable step
        rw [same] at here before
        rcases ih rest with ⟨other, otherEq, last⟩ | ⟨absent, _⟩
        · cases here.symm.trans otherEq
          refine before.imp (fun found => ⟨table, found, last⟩) fun ⟨absent, created⟩ => ?_
          rw [last, createdFirst_cons_of_eq same]
          exact ⟨absent, created⟩
        · cases here.symm.trans absent
      · have kept := step.find?_of_ne fun equal => same (Option.some.inj equal)
        rw [createdFirst_cons_of_ne same, ← kept]
        exact ih rest

/-- Columns with the definitions of some columns of the schema hold one for each of them. -/
theorem exists_of_definitions {columns : List (LiveColumn Cells)} {wanted : List TargetColumn}
    {definition : TargetColumn → ColumnDef}
    (same : columns.map LiveColumn.toColumnDef = wanted.map definition) {column : TargetColumn}
    (member : column ∈ wanted) : ∃ other ∈ columns, other.toColumnDef = definition column ∧
      other.key = asciiLower (definition column).name := by
  have listed := List.mem_map_of_mem (f := definition) member
  rw [← same] at listed
  obtain ⟨other, otherIn, otherEq⟩ := List.mem_map.mp listed
  refine ⟨other, otherIn, otherEq, ?_⟩
  rw [← otherEq]
  rfl

/-- A table after the `ALTER TABLE` statements for a table of the schema. -/
structure LiveTable.IsAltered (table : LiveTable Cells) (target : TargetTable)
    (live : LiveColumns) (before : LiveTable Cells) : Prop where
  name : table.name = before.name
  keys : table.keys = before.keys
  columns : ∃ added, table.columns.items =
      (before.columns.items.filter fun column =>
        column.name ∈ target.columns.map TargetColumn.name) ++ added ∧
    added.map LiveColumn.toColumnDef = (addedColumns target live).map alterColumn ∧
    ∀ column ∈ before.columns.items, ∀ other ∈ added, column.key ≠ other.key

namespace SqliteFile

variable {file next : SqliteFile Cells} {name : String} {before : LiveTable Cells}

/-- The columns that are added follow those that are there. -/
theorem find?_addColumns {columns : List TargetColumn}
    (run : Steps Step file (columns.flatMap (writeAddColumn name)) next)
    (found : file.tables.find? (asciiLower name) = some before) :
    ∃ table, next.tables.find? (asciiLower name) = some table ∧ table.name = before.name ∧
      table.keys = before.keys ∧ ∃ added, table.columns.items = before.columns.items ++ added ∧
        added.map LiveColumn.toColumnDef = columns.map alterColumn := by
  induction columns generalizing file before with
  | nil =>
      cases run.eq_of_nil
      exact ⟨before, found, rfl, rfl, [], (List.append_nil _).symm, rfl⟩
  | cons column columns ih =>
      rw [List.flatMap_cons] at run
      obtain ⟨middle, head, tail⟩ := run.split
      obtain ⟨grown, step, indexed⟩ := head.uncons
      obtain ⟨table, cells, tableEq, fresh, rfl⟩ := step_addColumn step
      cases found.symm.trans tableEq
      have here :=
        Catalog.find?_modify_self (LiveTable.key_addColumn (alterColumn column) cells) found
      rw [← find?_of_run indexed fun statement member => ?_] at here
      · obtain ⟨last, lastEq, lastName, lastKeys, added, items, addedEq⟩ := ih tail here
        refine ⟨last, lastEq, lastName, lastKeys, ⟨alterColumn column, cells⟩ :: added, ?_, ?_⟩
        · have fresh' : before.columns.find?
              (LiveColumn.key ⟨alterColumn column, cells⟩) = none := fresh
          rw [items, LiveTable.addColumn, Catalog.items_add fresh', List.append_assoc]
          rfl
        · rw [List.map_cons, List.map_cons, addedEq]
      · split at member
        · cases List.mem_singleton.mp member
          simp [SqliteStatement.tableKey]
        · cases member

/-- The columns that are dropped are gone. -/
theorem find?_dropColumns {columns : List String}
    (run : Steps Step file (columns.map (.dropColumn name)) next)
    (found : file.tables.find? (asciiLower name) = some before) :
    ∃ table, next.tables.find? (asciiLower name) = some table ∧ table.name = before.name ∧
      table.keys = before.keys ∧ table.columns.items =
        before.columns.items.filter fun column => column.key ∉ columns.map asciiLower := by
  induction columns generalizing file before with
  | nil =>
      cases run.eq_of_nil
      exact ⟨before, found, rfl, rfl, by simp⟩
  | cons column columns ih =>
      obtain ⟨shrunk, step, tail⟩ := run.uncons
      obtain ⟨table, tableEq, rfl⟩ := step_dropColumn step
      cases found.symm.trans tableEq
      obtain ⟨last, lastEq, lastName, lastKeys, items⟩ :=
        ih tail (Catalog.find?_modify_self (LiveTable.key_dropColumn column) found)
      refine ⟨last, lastEq, lastName, lastKeys, ?_⟩
      rw [items, LiveTable.dropColumn, Catalog.erase, Catalog.filter, List.filter_filter]
      refine List.filter_congr fun other _ => ?_
      rw [Bool.eq_iff_iff]
      simp only [Bool.and_eq_true, decide_eq_true_iff, List.map_cons, List.mem_cons, not_or]
      exact and_comm

end SqliteFile

/-- A live table after the statements for the table of the schema that it goes to. -/
def LiveTable.IsMigrated (table : LiveTable Cells) (target : TargetTable) (live : LiveColumns)
    (before : LiveTable Cells) : Prop :=
  if rebuilds target live then table.IsCreated (createDef target)
  else table.IsAltered target live before

theorem mem_leftColumns {target : TargetTable} {live : LiveColumns}
    (alters : rebuilds target live = false) {name : String} :
    name ∈ (leftColumns target live).keys ↔
      name ∉ target.columns.map TargetColumn.name ∧ ∃ value, live.lookup name = some value := by
  rw [← AList.mem_keys, ← AList.lookup_isSome, (compared_of_not_rebuilds alters).1.lookup_left,
    ← Option.isSome_iff_exists]
  split
  · rename_i inside
    simp [inside]
  · rename_i outside
    simp [outside]

section OneTable

variable {file next : SqliteFile Cells} {hashing : HashOrder} {target : TargetTable}
variable {live : LiveColumns} {before : LiveTable Cells}

/-- Dropping the columns that are left keeps those of the schema. -/
theorem filter_leftColumns (alters : rebuilds target live = false)
    (described : before.IsDescribedBy live) {grown : LiveTable Cells}
    {added : List (LiveColumn Cells)}
    (items : grown.columns.items = before.columns.items ++ added) :
    (grown.columns.items.filter fun column =>
        column.key ∉ (hashing.order (leftColumns target live).keys).map asciiLower) =
      (before.columns.items.filter fun column =>
        column.name ∈ target.columns.map TargetColumn.name) ++ added := by
  have dropped : ∀ key, key ∈ (hashing.order (leftColumns target live).keys).map asciiLower ↔
      ∃ column ∈ before.columns.items, column.key = key ∧
        column.name ∉ target.columns.map TargetColumn.name := by
    intro key
    rw [List.mem_map]
    constructor
    · rintro ⟨name, listed, rfl⟩
      obtain ⟨outside, ⟨ty, pk⟩, known⟩ :=
        (mem_leftColumns alters).mp ((hashing.perm _).mem_iff.mp listed)
      obtain ⟨column, member, rfl, _⟩ := (described name ty pk).mp known
      exact ⟨column, member, rfl, outside⟩
    · rintro ⟨column, member, rfl, outside⟩
      have known := (described column.name column.declaredType column.primaryKey).mpr
        ⟨column, member, rfl, rfl, rfl⟩
      exact ⟨column.name, (hashing.perm _).mem_iff.mpr
        ((mem_leftColumns alters).mpr ⟨outside, _, known⟩), rfl⟩
  rw [items, List.filter_append]
  congr 1
  · refine List.filter_congr fun column member => decide_eq_decide.mpr ?_
    rw [dropped]
    constructor
    · intro kept
      by_contra outside
      exact kept ⟨column, member, rfl, outside⟩
    · rintro inside ⟨other, otherIn, sameKey, outside⟩
      rw [Catalog.eq_of_mem otherIn member sameKey] at outside
      exact outside inside
  · refine List.filter_eq_self.mpr fun column member => decide_eq_true ?_
    rw [dropped]
    rintro ⟨other, otherIn, sameKey, _⟩
    have distinct := grown.columns.distinct
    rw [items, List.map_append, List.nodup_append] at distinct
    exact distinct.2.2 _ (List.mem_map_of_mem otherIn) _ (List.mem_map_of_mem member) sameKey

/-- The statements for a table of the schema migrate the live table of its name. -/
theorem find?_writeAlterTable
    (run : Steps SqliteFile.Step file (writeAlterTable hashing target (some live)) next)
    (found : file.tables.find? (asciiLower target.name) = some before)
    (described : before.IsDescribedBy live) :
    ∃ table, next.tables.find? (asciiLower target.name) = some table ∧
      table.IsMigrated target live before := by
  rw [writeAlterTable] at run
  split at run
  · rename_i rebuilt
    obtain ⟨emptied, dropping, rest⟩ := run.uncons
    obtain ⟨last, creating, rest⟩ := rest.uncons
    cases rest.eq_of_nil
    have gone : emptied.tables.find? (asciiLower target.name) = none := by
      rw [SqliteFile.step_dropTable dropping]
      exact Catalog.find?_erase_self
    obtain ⟨table, here, there | ⟨_, created⟩⟩ := SqliteFile.find?_createTable creating
    · cases gone.symm.trans there
    · refine ⟨table, here, ?_⟩
      rw [LiveTable.IsMigrated, if_pos rebuilt]
      exact created
  · rename_i alters
    obtain ⟨middle, adding, dropping⟩ := run.split
    obtain ⟨grown, grownEq, grownName, grownKeys, added, items, addedEq⟩ :=
      SqliteFile.find?_addColumns adding found
    obtain ⟨table, tableEq, tableName, tableKeys, tableItems⟩ :=
      SqliteFile.find?_dropColumns dropping grownEq
    refine ⟨table, tableEq, ?_⟩
    rw [LiveTable.IsMigrated, if_neg alters]
    refine ⟨tableName.trans grownName, tableKeys.trans grownKeys, added, ?_, addedEq, ?_⟩
    · rw [tableItems, filter_leftColumns (Bool.eq_false_iff.mpr alters) described items]
    · intro column member other otherIn
      have distinct := grown.columns.distinct
      rw [items, List.map_append, List.nodup_append] at distinct
      exact distinct.2.2 _ (List.mem_map_of_mem member) _ (List.mem_map_of_mem otherIn)

/-- The statements for a table are about no other table. -/
theorem tableKey_writeAlterTable {known : Option LiveColumns} {statement : SqliteStatement}
    (member : statement ∈ writeAlterTable hashing target known) {key : String}
    (apart : asciiLower target.name ≠ key) : statement.tableKey ≠ some key := by
  have about : statement.tableKey = some (asciiLower target.name) ∨ statement.tableKey = none := by
    unfold writeAlterTable at member
    split at member
    · cases List.mem_singleton.mp member
      exact Or.inl rfl
    · split at member
      · simp only [List.mem_cons, List.not_mem_nil, or_false] at member
        rcases member with rfl | rfl <;> exact Or.inl rfl
      · rcases List.mem_append.mp member with adds | drops
        · obtain ⟨column, _, inColumn⟩ := List.mem_flatMap.mp adds
          rcases List.mem_cons.mp inColumn with rfl | indexed
          · exact Or.inl rfl
          · split at indexed
            · cases List.mem_singleton.mp indexed
              exact Or.inr rfl
            · cases indexed
        · obtain ⟨column, _, rfl⟩ := List.mem_map.mp drops
          exact Or.inl rfl
  rcases about with same | none
  · rw [same]
    exact fun equal => apart (Option.some.inj equal)
  · rw [none]
    exact nofun

end OneTable

/-- No live table of a name in lower case is left to consume. -/
def Consumed (existing : Existing) (key : String) : Prop :=
  ∀ name, asciiLower name = key → existing.lookup name = none

/-- A reported table that has not been consumed. -/
structure Pending (file : SqliteFile Cells) (existing : Existing) (before : LiveTable Cells)
    (live : LiveColumns) : Prop where
  found : file.tables.find? before.key = some before
  known : existing.lookup before.name = some live
  described : before.IsDescribedBy live
  only : ∀ name, asciiLower name = before.key → name ≠ before.name → existing.lookup name = none

theorem Consumed.erase {existing : Existing} {key : String} (consumed : Consumed existing key)
    (name : String) : Consumed (existing.erase name) key := by
  intro other sameKey
  by_cases same : other = name
  · rw [same, AList.lookup_erase]
  · rw [AList.lookup_erase_ne same]
    exact consumed other sameKey

section ManyTables

variable {file next : SqliteFile Cells} {hashing : HashOrder} {tables : List TargetTable}
variable {existing : Existing} {key : String} {before : LiveTable Cells} {live : LiveColumns}

theorem find?_writeCreateTable {target : TargetTable}
    (run : Steps SqliteFile.Step file [writeCreateTable target] next) :
    ∃ table, next.tables.find? (asciiLower (createDef target).name) = some table ∧
      (file.tables.find? (asciiLower (createDef target).name) = some table ∨
        file.tables.find? (asciiLower (createDef target).name) = none ∧
          table.IsCreated (createDef target)) := by
  obtain ⟨last, step, rest⟩ := run.uncons
  rw [rest.eq_of_nil]
  exact SqliteFile.find?_createTable step

theorem writeAlterTables_cons (target : TargetTable) :
    writeAlterTables hashing (target :: tables) existing =
      (writeAlterTable hashing target (existing.lookup target.name) ++
        (writeAlterTables hashing tables (existing.erase target.name)).1,
        (writeAlterTables hashing tables (existing.erase target.name)).2) := rfl

/-- What is left of the live tables are those without a table of the schema. -/
theorem lookup_writeAlterTables (name : String) :
    (writeAlterTables hashing tables existing).2.lookup name =
      if name ∈ tables.map TargetTable.name then none else existing.lookup name := by
  induction tables generalizing existing with
  | nil => simp [writeAlterTables]
  | cons target tables ih =>
      rw [writeAlterTables_cons, ih, List.map_cons]
      by_cases same : name = target.name
      · subst same
        rw [AList.lookup_erase, ite_self, if_pos List.mem_cons_self]
      · rw [AList.lookup_erase_ne same]
        simp only [List.mem_cons, same, false_or]

/-- The statements for the first table of a name are written for the live table. -/
theorem mem_writeAlterTables {name : String} {target : TargetTable}
    (first : (tables.find? fun target => target.name = name) = some target)
    {statement : SqliteStatement}
    (member : statement ∈ writeAlterTable hashing target (existing.lookup name)) :
    statement ∈ (writeAlterTables hashing tables existing).1 := by
  induction tables generalizing existing with
  | nil => cases first
  | cons other tables ih =>
      rw [writeAlterTables_cons]
      by_cases same : other.name = name
      · rw [List.find?_cons_of_pos (by simpa using same)] at first
        cases first
        exact List.mem_append_left _ (same ▸ member)
      · rw [List.find?_cons_of_neg (by simpa using same)] at first
        refine List.mem_append_right _ (ih first ?_)
        rwa [AList.lookup_erase_ne (Ne.symm same)]

/-- Where no live table is left to consume, what is there is kept, and the first table of
the schema is created where nothing is. -/
theorem find?_writeAlterTables (run : Steps SqliteFile.Step file
      (writeAlterTables hashing tables existing).1 next) (consumed : Consumed existing key) :
    Consumed (writeAlterTables hashing tables existing).2 key ∧
      ((∃ table, file.tables.find? key = some table ∧ next.tables.find? key = some table) ∨
        file.tables.find? key = none ∧
          CreatedFirst (tables.map createDef) key (next.tables.find? key)) := by
  induction tables generalizing file existing with
  | nil =>
      rw [run.eq_of_nil]
      refine ⟨consumed, ?_⟩
      cases file.tables.find? key with
      | some table => exact Or.inl ⟨table, rfl, rfl⟩
      | none => exact Or.inr ⟨rfl, .none⟩
  | cons target tables ih =>
      rw [writeAlterTables_cons] at run ⊢
      obtain ⟨middle, head, rest⟩ := run.split
      obtain ⟨left, outcome⟩ := ih rest (consumed.erase target.name)
      refine ⟨left, ?_⟩
      by_cases same : asciiLower (createDef target).name = key
      · rw [consumed target.name same, writeAlterTable] at head
        obtain ⟨table, here, before⟩ := find?_writeCreateTable head
        rw [same] at here before
        rcases outcome with ⟨other, otherEq, last⟩ | ⟨absent, _⟩
        · cases here.symm.trans otherEq
          refine before.imp (fun found => ⟨table, found, last⟩) fun ⟨absent, created⟩ => ?_
          rw [last, List.map_cons, createdFirst_cons_of_eq same]
          exact ⟨absent, created⟩
        · cases here.symm.trans absent
      · have kept := SqliteFile.find?_of_run head fun statement member =>
          tableKey_writeAlterTable member same
        rw [List.map_cons, createdFirst_cons_of_ne same, ← kept]
        exact outcome

/-- A reported table goes to the first table of the schema with exactly its name. -/
theorem find?_writeAlterTables_of_pending (run : Steps SqliteFile.Step file
      (writeAlterTables hashing tables existing).1 next)
    (pending : Pending file existing before live) :
    (∃ target table, (tables.find? fun target => target.name = before.name) = some target ∧
        Consumed (writeAlterTables hashing tables existing).2 before.key ∧
        next.tables.find? before.key = some table ∧ table.IsMigrated target live before) ∨
      (tables.find? fun target => target.name = before.name) = none ∧
        Pending next (writeAlterTables hashing tables existing).2 before live := by
  induction tables generalizing file existing with
  | nil =>
      rw [run.eq_of_nil]
      exact Or.inr ⟨rfl, pending⟩
  | cons target tables ih =>
      rw [writeAlterTables_cons] at run ⊢
      obtain ⟨middle, head, rest⟩ := run.split
      by_cases sameName : target.name = before.name
      · have sameKey : asciiLower target.name = before.key := congrArg asciiLower sameName
        rw [sameName, pending.known] at head
        obtain ⟨table, here, migrated⟩ := find?_writeAlterTable head
          (sameKey ▸ pending.found) pending.described
        have consumed : Consumed (existing.erase target.name) before.key := by
          intro name inClass
          by_cases same : name = target.name
          · rw [same, AList.lookup_erase]
          · rw [AList.lookup_erase_ne same]
            exact pending.only name inClass (sameName ▸ same)
        obtain ⟨left, outcome⟩ := find?_writeAlterTables rest consumed
        refine Or.inl ⟨target, table, List.find?_cons_of_pos (by simpa using sameName), left, ?_,
          migrated⟩
        rw [sameKey] at here
        rcases outcome with ⟨other, otherEq, last⟩ | ⟨absent, _⟩
        · cases here.symm.trans otherEq
          exact last
        · cases here.symm.trans absent
      · rw [List.find?_cons_of_neg (by simpa using sameName)]
        refine ih rest ⟨?_, ?_, pending.described, ?_⟩
        · by_cases inClass : asciiLower (createDef target).name = before.key
          · rw [pending.only target.name inClass sameName, writeAlterTable] at head
            obtain ⟨table, here, there⟩ := find?_writeCreateTable head
            rw [inClass] at here there
            rcases there with there | ⟨absent, _⟩
            · cases there.symm.trans pending.found
              exact here
            · cases absent.symm.trans pending.found
          · rw [SqliteFile.find?_of_run head fun statement member =>
              tableKey_writeAlterTable member inClass]
            exact pending.found
        · rw [AList.lookup_erase_ne (Ne.symm sameName)]
          exact pending.known
        · intro name inClass different
          by_cases same : name = target.name
          · rw [same, AList.lookup_erase]
          · rw [AList.lookup_erase_ne same]
            exact pending.only name inClass different

end ManyTables

section Batches

variable {file next : SqliteFile Cells} {hashing : HashOrder} {tables : List TargetTable}
variable {hash : SchemaHash}

/-- The maps of the introspection at the name of a live table in lower case. -/
theorem pending_or_consumed (file : SqliteFile Cells) (key : String) :
    (∃ before live, before.key = key ∧ before.IsReported ∧
        Pending file (collect file.introspect) before live) ∨
      Consumed (collect file.introspect) key ∧
        ∀ before, file.tables.find? key = some before → ¬ before.IsReported := by
  by_cases reported : ∃ before, file.tables.find? key = some before ∧ before.IsReported
  · obtain ⟨before, found, reported⟩ := reported
    obtain ⟨member, rfl⟩ := Catalog.find?_eq_some.mp found
    obtain ⟨live, known, described⟩ := lookup_collect_of_mem member reported
    refine Or.inl ⟨before, live, rfl, reported, found, known, described, ?_⟩
    intro name sameKey different
    cases other : (collect file.introspect).lookup name with
    | none => rfl
    | some columns =>
        obtain ⟨table, tableIn, _, rfl, _⟩ := exists_of_lookup_collect other
        exact absurd (congrArg LiveTable.name (Catalog.eq_of_mem tableIn member sameKey)) different
  · refine Or.inr ⟨?_, fun before found isReported => reported ⟨before, found, isReported⟩⟩
    intro name sameKey
    cases known : (collect file.introspect).lookup name with
    | none => rfl
    | some columns =>
        obtain ⟨table, tableIn, isReported, rfl, _⟩ := exists_of_lookup_collect known
        exact absurd ⟨table, Catalog.find?_eq_some.mpr ⟨tableIn, sameKey⟩, isReported⟩ reported

theorem SqliteFile.find?_dropTables {names : List String}
    (run : Steps Step file (names.map .dropTable) next) (key : String) :
    next.tables.find? key =
      if key ∈ names.map asciiLower then none else file.tables.find? key := by
  induction names generalizing file with
  | nil =>
      rw [run.eq_of_nil]
      simp
  | cons name names ih =>
      obtain ⟨middle, step, rest⟩ := run.uncons
      rw [ih rest, step_dropTable step, List.map_cons]
      by_cases same : key = asciiLower name
      · subst same
        rw [if_pos List.mem_cons_self]
        exact ite_eq_left_iff.mpr fun _ => Catalog.find?_erase_self
      · simp only [List.mem_cons, same, false_or, SqliteFile.dropTable]
        rw [Catalog.find?_erase_of_ne same]

/-- What the first batch makes of the table of a key, before it creates `__meta__`. -/
inductive AlterOutcome (file : SqliteFile Cells) (tables : List TargetTable) (key : String) :
    Option (LiveTable Cells) → Prop where
  | kept {table} (found : file.tables.find? key = some table) (hidden : ¬ table.IsReported) :
      AlterOutcome file tables key (some table)
  | migrated {before live target table} (found : file.tables.find? key = some before)
      (reported : before.IsReported) (described : before.IsDescribedBy live)
      (known : (collect file.introspect).lookup before.name = some live)
      (goes : (tables.find? fun target => target.name = before.name) = some target)
      (migrated : table.IsMigrated target live before) : AlterOutcome file tables key (some table)
  | dropped {before} (found : file.tables.find? key = some before) (reported : before.IsReported)
      (left : (tables.find? fun target => target.name = before.name) = none) :
      AlterOutcome file tables key none
  | created {made} (absent : file.tables.find? key = none)
      (created : CreatedFirst (tables.map createDef) key made) : AlterOutcome file tables key made

/-- The table of a key is what it was, unless nothing was there and the first definition
of the key has been created. -/
def Completed (definitions : List TableDef) (key : String)
    (before after : Option (LiveTable Cells)) :
    Prop :=
  (∃ table, before = some table ∧ after = some table) ∨
    before = none ∧ CreatedFirst definitions key after

/-- The definitions of a list are created before those of the next. -/
theorem Completed.split {first second : List TableDef} {key : String}
    {before after : Option (LiveTable Cells)}
    (completed : Completed (first ++ second) key before after) :
    ∃ middle, Completed first key before middle ∧ Completed second key middle after := by
  rcases completed with ⟨table, rfl, rfl⟩ | ⟨rfl, created⟩
  · exact ⟨some table, Or.inl ⟨table, rfl, rfl⟩, Or.inl ⟨table, rfl, rfl⟩⟩
  · rw [CreatedFirst, List.find?_append] at created
    cases found : first.find? fun definition => asciiLower definition.name = key with
    | none =>
        rw [found, Option.none_or] at created
        refine ⟨none, Or.inr ⟨rfl, ?_⟩, Or.inr ⟨rfl, created⟩⟩
        rw [CreatedFirst, found]
        exact .none
    | some definition =>
        rw [found, Option.some_or] at created
        cases created with
        | @some _ made created =>
            refine ⟨some made, Or.inr ⟨rfl, ?_⟩, Or.inl ⟨made, rfl, rfl⟩⟩
            rw [CreatedFirst, found]
            exact .some created

/-- Definitions are created, and then the hash is written. -/
theorem SqliteFile.completed {definitions : List TableDef}
    (run : Steps Step file (definitions.map .createTable ++ [.upsertHash hash]) next)
    (key : String) : Completed definitions key (file.tables.find? key) (next.tables.find? key) := by
  obtain ⟨middle, creating, writing⟩ := run.split
  rw [find?_of_run writing fun statement member => ?_]
  · exact find?_createTables creating key
  · cases List.mem_singleton.mp member
    exact nofun

/-- The tables after the first batch. -/
theorem find?_alterDdl (run : Steps SqliteFile.Step file
      (alterDdl hashing tables (collect file.introspect) hash) next) (key : String) :
    ∃ made, AlterOutcome file tables key made ∧
      Completed [metaTable] key made (next.tables.find? key) := by
  obtain ⟨middle, changing, ending⟩ := run.split
  obtain ⟨altered, altering, dropping⟩ := changing.split
  have ending : Steps SqliteFile.Step middle
    ([metaTable].map SqliteStatement.createTable ++ [.upsertHash hash]) next := ending
  refine ⟨middle.tables.find? key, ?_, SqliteFile.completed ending key⟩
  rw [SqliteFile.find?_dropTables dropping]
  have inClass : ∀ {existing : Existing}, Consumed existing key →
      key ∉ (hashing.order existing.keys).map asciiLower := by
    intro existing consumed member
    obtain ⟨name, listed, sameKey⟩ := List.mem_map.mp member
    have known := AList.lookup_isSome.mpr
      (AList.mem_keys.mpr ((hashing.perm _).mem_iff.mp listed))
    rw [consumed name sameKey] at known
    cases known
  rcases pending_or_consumed file key with
    ⟨before, live, rfl, reported, pending⟩ | ⟨consumed, hidden⟩
  · rcases find?_writeAlterTables_of_pending altering pending with
      ⟨target, table, goes, left, here, migrated⟩ | ⟨none, left⟩
    · rw [if_neg (inClass left), here]
      exact .migrated pending.found reported pending.described pending.known goes migrated
    · rw [if_pos ?_]
      · exact .dropped pending.found reported none
      · have known := AList.mem_keys.mp (AList.lookup_isSome.mp (by rw [left.known]; rfl))
        exact List.mem_map.mpr ⟨before.name, (hashing.perm _).mem_iff.mpr known, rfl⟩
  · obtain ⟨left, outcome⟩ := find?_writeAlterTables altering consumed
    rw [if_neg (inClass left)]
    rcases outcome with ⟨table, found, last⟩ | ⟨absent, created⟩
    · rw [last]
      exact .kept found (hidden table found)
    · exact .created absent created

/-- The tables after `create_tables`. -/
theorem find?_buildDdl (run : Steps SqliteFile.Step file (buildDdl tables hash) next)
    (key : String) :
    Completed (tables.map createDef ++ [syncLogTable, metaTable]) key (file.tables.find? key)
      (next.tables.find? key) := by
  have same : buildDdl tables hash =
      (tables.map createDef ++ [syncLogTable, metaTable]).map SqliteStatement.createTable ++
        [.upsertHash hash] := by
    rw [List.map_append, List.map_map, List.append_assoc]
    rfl
  rw [same] at run
  exact SqliteFile.completed run key

end Batches

end Boomerang
