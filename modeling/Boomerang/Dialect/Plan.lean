import Boomerang.Dialect.Opening

/-!
# What a migration reaches

Of two names that differ only in case, a hash map makes two and SQLite one. Where no
table of the schema has a name that differs from that of a live table only in case, a
migration reaches the tables of the schema, and the columns that are on both sides keep
their cells, unless their table is dropped or the first batch is refused.
-/

namespace Boomerang

open Foundation SqliteDatabase

variable {Cells : Type}

/-- The names of a schema and of a file: the introspection would list all tables of the
schema, and has a row for every live table that it lists, and no two tables of the schema
have names that differ only in case. -/
structure ProperlyNamed (tables : List TargetTable) (file : SqliteFile Cells) : Prop where
  reported : ∀ table ∈ file.tables.items, isListed table.name = true → table.IsReported
  listed : ∀ target ∈ tables, isListed target.name = true
  distinct : (tables.map fun target => asciiLower target.name).Nodup

/-- The columns that are on both sides of a table, and that no statement drops with it,
are there with their cells. -/
def KeepsCells (tables : List TargetTable) (sql : List SqliteStatement)
    (file next : SqliteFile Cells) : Prop :=
  ∀ before ∈ file.tables.items, ∀ target ∈ tables, before.key = asciiLower target.name →
    (∀ name, asciiLower name = before.key → .dropTable name ∉ sql) →
      ∀ column ∈ before.columns.items, ∀ wanted ∈ target.columns,
        column.key = asciiLower wanted.name →
          ∃ table, next.tables.find? before.key = some table ∧ column ∈ table.columns.items

/-- The tables of the schema are there with their columns, no other listed table is, and
what the first batch has not dropped is kept if it is accepted. -/
structure Reached (sqlite : Sqlite Cells) (tables : List TargetTable) (sql : List SqliteStatement)
    (file next : SqliteFile Cells) : Prop where
  every : Truthful tables next
  only : ∀ table ∈ next.tables.items, isListed table.name = true →
    ∃ target ∈ tables, target.name = table.name
  cells : execute sqlite file sql = .ok next → KeepsCells tables sql file next

section Names

variable {file next : SqliteFile Cells} {tables : List TargetTable} {claims : List TableShape}

theorem not_internal_of_listed {name : String} (listed : isListed name = true) :
    name ∉ internalNames := by
  intro member
  simp only [internalNames, List.mem_cons, List.not_mem_nil, or_false] at member
  rcases member with rfl | rfl <;> exact absurd listed (by decide)

theorem ProperlyNamed.eq_of_key (named : ProperlyNamed tables file) {left right : TargetTable}
    (here : left ∈ tables) (there : right ∈ tables)
    (same : asciiLower left.name = asciiLower right.name) : left = right :=
  List.inj_on_of_nodup_map named.distinct here there same

theorem ProperlyNamed.find?_key (named : ProperlyNamed tables file) {target : TargetTable}
    (member : target ∈ tables) :
    (tables.find? fun other => asciiLower other.name = asciiLower target.name) = some target :=
  Catalog.find?_of_nodup named.distinct member

theorem ProperlyNamed.find?_name (named : ProperlyNamed tables file) {target : TargetTable}
    (member : target ∈ tables) :
    (tables.find? fun other => other.name = target.name) = some target := by
  have distinct : (tables.map TargetTable.name).Nodup := by
    refine List.Nodup.of_map asciiLower ?_
    rw [List.map_map]
    exact named.distinct
  exact Catalog.find?_of_nodup distinct member

/-- A table of the schema has its name unless a hidden live table has it. -/
theorem ProperlyNamed.claimed_iff (named : ProperlyNamed tables file) {target : TargetTable}
    (member : target ∈ tables) {before : Option (LiveTable Cells)}
    (hidden : ∀ live, before = some live → isListed live.name = false)
    (first : claimant claims (asciiLower target.name) = (before.map LiveTable.shape).or
      (claimant (tables.map TargetTable.shape) (asciiLower target.name))) :
    (∃ shape, claimant claims (asciiLower target.name) = some shape ∧ shape.Same target.shape) ↔
      before = none := by
  rw [first]
  cases before with
  | none =>
      refine iff_of_true ⟨target.shape, ?_, .refl _⟩ rfl
      rw [claimant_target, named.find?_key member]
      rfl
  | some live =>
      refine iff_of_false ?_ nofun
      rintro ⟨shape, ⟨⟩, same⟩
      have sameName : live.name = target.name := same.1
      have unlisted := hidden live rfl
      rw [sameName, named.listed target member] at unlisted
      cases unlisted

/-- After the first batch, a table of the schema has its name unless there is a live table
whose name differs from it only in case, or a hidden one. -/
theorem claimed_alterClaims_iff (named : ProperlyNamed tables file) :
    Claimed tables (alterClaims tables file) ↔ ∀ target ∈ tables, ∀ live ∈ file.tables.items,
      live.key = asciiLower target.name → live.IsReported ∧ live.name = target.name := by
  refine forall₂_congr fun target member => ?_
  rw [and_iff_right (not_internal_of_listed (named.listed target member))]
  by_cases reported : ∃ before, file.tables.find? (asciiLower target.name) = some before ∧
      before.IsReported
  · obtain ⟨before, found, reported⟩ := reported
    obtain ⟨beforeIn, sameKey⟩ := Catalog.find?_eq_some.mp found
    rw [claimant_alterClaims_of_reported found reported]
    constructor
    · rintro ⟨shape, goes, same⟩ live liveIn liveKey
      cases Catalog.eq_of_mem liveIn beforeIn (liveKey.trans sameKey.symm)
      obtain ⟨other, otherFound, rfl⟩ := Option.map_eq_some_iff.mp goes
      have otherName : other.name = before.name := by simpa using List.find?_some otherFound
      have sameName : other.name = target.name := same.1
      exact ⟨reported, otherName.symm.trans sameName⟩
    · intro only
      obtain ⟨_, sameName⟩ := only before beforeIn sameKey
      refine ⟨target.shape, ?_, .refl _⟩
      rw [sameName, named.find?_name member]
      rfl
  · push Not at reported
    have hidden : ∀ live, file.tables.find? (asciiLower target.name) = some live →
        isListed live.name = false := by
      intro live found
      by_contra listed
      exact reported live found (named.reported live (Catalog.find?_eq_some.mp found).1
        (Bool.not_eq_false _ ▸ listed))
    rw [named.claimed_iff member hidden (claimant_alterClaims_of_not_reported reported),
      Catalog.find?_eq_none]
    constructor
    · exact fun absent live liveIn liveKey => absurd liveKey (absent live liveIn)
    · intro only live liveIn liveKey
      exact reported live (Catalog.find?_eq_some.mpr ⟨liveIn, liveKey⟩)
        (only live liveIn liveKey).1

/-- After the second plan, a table of the schema has its name unless a hidden table has
it, up to case. -/
theorem claimed_recreateClaims_iff (named : ProperlyNamed tables file) :
    Claimed tables (recreateClaims tables file) ↔ ∀ target ∈ tables, ∀ live ∈ file.tables.items,
      live.key = asciiLower target.name → live.IsReported := by
  refine forall₂_congr fun target member => ?_
  rw [and_iff_right (not_internal_of_listed (named.listed target member))]
  have hidden : ∀ live, (file.tables.find? (asciiLower target.name)).filter
      (fun table => ¬ table.IsReported) = some live → isListed live.name = false := by
    intro live found
    obtain ⟨found, unreported⟩ := Option.filter_eq_some_iff.mp found
    by_contra listed
    exact of_decide_eq_true unreported (named.reported live (Catalog.find?_eq_some.mp found).1
      (Bool.not_eq_false _ ▸ listed))
  have first : claimant (recreateClaims tables file) (asciiLower target.name) =
      (((file.tables.find? (asciiLower target.name)).filter fun table =>
        ¬ table.IsReported).map LiveTable.shape).or
          (claimant (tables.map TargetTable.shape) (asciiLower target.name)) := by
    rw [recreateClaims, claimant_append, claimant_hidden]
  rw [named.claimed_iff member hidden first, Option.filter_eq_none_iff]
  constructor
  · intro none live liveIn liveKey
    have reported := none live (Catalog.find?_eq_some.mpr ⟨liveIn, liveKey⟩)
    simpa using reported
  · intro all live found
    obtain ⟨liveIn, liveKey⟩ := Catalog.find?_eq_some.mp found
    simpa using all live liveIn liveKey

/-- Claims that are of tables of the schema where they are listed leave no other table. -/
theorem only_of_settled (settled : ∀ key, SettledBy claims key (next.tables.find? key))
    (listedClaims : ∀ shape ∈ claims, isListed shape.name = true →
      ∃ target ∈ tables, target.name = shape.name)
    {table : LiveTable Cells} (member : table ∈ next.tables.items)
    (listed : isListed table.name = true) : ∃ target ∈ tables, target.name = table.name := by
  have found : next.tables.find? table.key = some table :=
    Catalog.find?_eq_some.mpr ⟨member, rfl⟩
  rcases settled table.key with ⟨made, shape, here, first, same⟩ | ⟨_, internal⟩
  · cases found.symm.trans here
    have sameName : table.name = shape.name := same.1
    obtain ⟨target, targetIn, targetName⟩ :=
      listedClaims shape (List.mem_of_find?_eq_some first) (sameName ▸ listed)
    exact ⟨target, targetIn, targetName.trans sameName.symm⟩
  · exact absurd (internal table found) (not_internal_of_listed listed)

/-- A claim of a hidden table is not listed, and the others are of tables of the schema. -/
theorem ProperlyNamed.listed_hidden (named : ProperlyNamed tables file) {others : List TargetTable}
    (inside : ∀ target ∈ others, target ∈ tables) {shape : TableShape}
    (claim : shape ∈ (file.tables.items.filter fun table => ¬ table.IsReported).map
      LiveTable.shape ++ others.map TargetTable.shape) (listed : isListed shape.name = true) :
    ∃ target ∈ tables, target.name = shape.name := by
  rcases List.mem_append.mp claim with live | wanted
  · obtain ⟨table, tableIn, rfl⟩ := List.mem_map.mp live
    obtain ⟨tableIn, hidden⟩ := List.mem_filter.mp tableIn
    exact absurd (named.reported table tableIn listed) (of_decide_eq_true hidden)
  · obtain ⟨target, targetIn, rfl⟩ := List.mem_map.mp wanted
    exact ⟨target, inside target targetIn, rfl⟩

end Names

section Cells

variable {file next : SqliteFile Cells} {tables : List TargetTable} {hashing : HashOrder}
variable {hash : SchemaHash}

/-- The statements of the first batch for the first table of a name. -/
theorem mem_alterDdl_of_mem {existing : Existing} {name : String} {target : TargetTable}
    (first : (tables.find? fun target => target.name = name) = some target)
    {statement : SqliteStatement}
    (member : statement ∈ writeAlterTable hashing target (existing.lookup name)) :
    statement ∈ alterDdl hashing tables existing hash :=
  List.mem_append_left _ (List.mem_append_left _ (mem_writeAlterTables first member))

/-- A live table without a table of the schema of its name is dropped. -/
theorem dropTable_mem_alterDdl {existing : Existing} {name : String} {live : LiveColumns}
    (known : existing.lookup name = some live)
    (left : (tables.find? fun target => target.name = name) = none) :
    .dropTable name ∈ alterDdl hashing tables existing hash := by
  have outside : name ∉ tables.map TargetTable.name := by
    intro member
    obtain ⟨target, targetIn, rfl⟩ := List.mem_map.mp member
    have apart := List.find?_eq_none.mp left target targetIn
    simp at apart
  refine List.mem_append_left _ (List.mem_append_right _ (List.mem_map_of_mem ?_))
  refine (hashing.perm _).mem_iff.mpr (AList.mem_keys.mp (AList.lookup_isSome.mp ?_))
  rw [lookup_writeAlterTables, if_neg outside, known]
  rfl

/-- The columns of an altered table that the table of the schema has are kept. -/
theorem LiveTable.IsAltered.mem_of_key {table before : LiveTable Cells} {target : TargetTable}
    {live : LiveColumns} (altered : table.IsAltered target live before)
    (alters : rebuilds target live = false) (described : before.IsDescribedBy live)
    {column : LiveColumn Cells} (member : column ∈ before.columns.items) {wanted : TargetColumn}
    (wantedIn : wanted ∈ target.columns) (same : column.key = asciiLower wanted.name) :
    column ∈ table.columns.items := by
  obtain ⟨added, items, addedEq, fresh⟩ := altered.columns
  rw [items]
  refine List.mem_append_left _ (List.mem_filter.mpr ⟨member, decide_eq_true ?_⟩)
  rcases (compared_of_not_rebuilds alters).1.matched wanted wantedIn with inExtra | ⟨ty, known, _⟩
  · -- It would not have been accepted as a column to add.
    obtain ⟨other, otherIn, _, otherKey⟩ := exists_of_definitions addedEq inExtra
    exact absurd (same.trans otherKey.symm) (fresh column member other otherIn)
  · obtain ⟨found, foundIn, foundName, _⟩ := (described _ _ _).mp known
    have sameColumn := Catalog.eq_of_mem foundIn member
      ((congrArg asciiLower foundName).trans same.symm)
    rw [← sameColumn, foundName]
    exact List.mem_map_of_mem wantedIn

/-- The first batch keeps the columns of the tables that it does not drop. -/
theorem keepsCells_alterDdl (named : ProperlyNamed tables file)
    (run : Steps SqliteFile.Step file
      (alterDdl hashing tables (collect file.introspect) hash) next) :
    KeepsCells tables (alterDdl hashing tables (collect file.introspect) hash) file next := by
  intro before beforeIn target targetIn sameKey undropped column columnIn wanted wantedIn sameColumn
  have there : file.tables.find? before.key = some before :=
    Catalog.find?_eq_some.mpr ⟨beforeIn, rfl⟩
  obtain ⟨made, outcome, completed⟩ := find?_alterDdl run before.key
  have reaches : ∀ table, made = some table → next.tables.find? before.key = some table := by
    rintro table rfl
    rcases completed with ⟨other, otherEq, last⟩ | ⟨absent, _⟩
    · rw [last, otherEq]
    · cases absent
  cases outcome with
  | @kept table found hidden =>
      cases there.symm.trans found
      exact ⟨before, reaches before rfl, columnIn⟩
  | @migrated _ live goal table found reported described known goes migrated =>
      cases there.symm.trans found
      refine ⟨table, reaches table rfl, ?_⟩
      have goalName : goal.name = before.name := by simpa using List.find?_some goes
      have sameTarget : goal = target := named.eq_of_key (List.mem_of_find?_eq_some goes) targetIn
        ((congrArg asciiLower goalName).trans sameKey)
      subst sameTarget
      rw [LiveTable.IsMigrated] at migrated
      split at migrated
      · rename_i rebuilt
        refine absurd (mem_alterDdl_of_mem goes ?_) (undropped goal.name sameKey.symm)
        rw [known, writeAlterTable, if_pos rebuilt]
        exact List.mem_cons_self
      · rename_i alters
        exact migrated.mem_of_key (Bool.eq_false_iff.mpr alters) described columnIn wantedIn
          sameColumn
  | dropped found reported left =>
      cases there.symm.trans found
      obtain ⟨live, known, _⟩ := lookup_collect_of_mem beforeIn reported
      exact absurd (dropTable_mem_alterDdl known left) (undropped _ rfl)
  | created absent _ => cases there.symm.trans absent

end Cells

section Migrated

variable {Interner : Type} [InternerOps Interner] {schema : DatabaseSchema Interner}
variable {tables : List TargetTable} {sqlite : Sqlite Cells} {hashing : HashOrder}
variable {file next : SqliteFile Cells}

theorem reached_iff_of_accepted (lawful : sqlite.Lawful) (named : ProperlyNamed tables file)
    {hash : SchemaHash} (ran : execute sqlite file
      (alterDdl hashing tables (collect file.introspect) hash) = .ok next) :
    Reached sqlite tables (alterDdl hashing tables (collect file.introspect) hash) file next ↔
      ∀ target ∈ tables, ∀ live ∈ file.tables.items, live.key = asciiLower target.name →
        live.IsReported ∧ live.name = target.name := by
  have run := steps_of_execute lawful ran
  have settled : ∀ key, SettledBy (alterClaims tables file) key (next.tables.find? key) :=
    fun key => settledBy_alterDdl run
  rw [← claimed_alterClaims_iff named, ← truthful_iff_claimed settled]
  refine ⟨Reached.every, fun every => ⟨every, ?_, fun _ => keepsCells_alterDdl named run⟩⟩
  intro table member listed
  refine only_of_settled settled (fun shape claim shapeListed => ?_) member listed
  refine named.listed_hidden (fun target inside => ?_) claim shapeListed
  rcases List.mem_append.mp inside with first | second
  · exact (List.mem_filter.mp first).1
  · exact (List.mem_filter.mp second).1

theorem reached_iff_of_refused (lawful : sqlite.Lawful) (named : ProperlyNamed tables file)
    {hash : SchemaHash} {reason : String} {emptied : SqliteFile Cells}
    (refused : execute sqlite file
      (alterDdl hashing tables (collect file.introspect) hash) = .error reason)
    (dropped : execute sqlite file (dropAllDdl hashing (collect file.introspect)) = .ok emptied)
    (built : execute sqlite emptied (buildDdl tables hash) = .ok next) :
    Reached sqlite tables (alterDdl hashing tables (collect file.introspect) hash) file next ↔
      ∀ target ∈ tables, ∀ live ∈ file.tables.items, live.key = asciiLower target.name →
        live.IsReported := by
  have settled : ∀ key, SettledBy (recreateClaims tables file) key (next.tables.find? key) :=
    fun key => settledBy_recreated (steps_of_execute lawful dropped) (steps_of_execute lawful built)
  rw [← claimed_recreateClaims_iff named, ← truthful_iff_claimed settled]
  refine ⟨Reached.every, fun every => ⟨every, ?_, fun ran => nomatch refused.symm.trans ran⟩⟩
  intro table member listed
  refine only_of_settled settled (fun shape claim shapeListed => ?_) member listed
  exact named.listed_hidden (fun target inside => inside) claim shapeListed

/-- A migration reaches the tables of the schema exactly if every live table that has the
name of one of them up to case is listed, and has the very name unless the first batch is
refused. -/
theorem alterTables_reached_iff (lawful : sqlite.Lawful)
    (available : ∀ reached call, sqlite.fails reached call = none)
    (read : readTables schema = .ok tables) (named : ProperlyNamed tables file)
    (valid : ∃ emptied last,
      execute sqlite file (dropAllDdl hashing (collect file.introspect)) = .ok emptied ∧
        execute sqlite emptied (buildDdl tables schema.hash) = .ok last) :
    (∃ next, alterTables sqlite hashing schema file = .ok next ∧ Reached sqlite tables
        (alterDdl hashing tables (collect file.introspect) schema.hash) file next) ↔
      ∀ target ∈ tables, ∀ live ∈ file.tables.items, live.key = asciiLower target.name →
        live.IsReported ∧ (live.name = target.name ∨ ∃ reason, execute sqlite file
          (alterDdl hashing tables (collect file.introspect) schema.hash) = .error reason) := by
  obtain ⟨emptied, last, dropped, built⟩ := valid
  cases ran : execute sqlite file
      (alterDdl hashing tables (collect file.introspect) schema.hash) with
  | ok next =>
      have success : alterTables sqlite hashing schema file = .ok next :=
        (alterTables_eq_ok read).mpr ⟨available _ _, available _ _, Or.inl ⟨ran, available _ _⟩⟩
      rw [success]
      simp only [Except.ok.injEq, exists_eq_left', reduceCtorEq, exists_false, or_false]
      exact reached_iff_of_accepted lawful named ran
  | error reason =>
      have success : alterTables sqlite hashing schema file = .ok last :=
        (alterTables_eq_ok read).mpr ⟨available _ _, available _ _, Or.inr ⟨⟨reason, ran⟩, emptied,
          dropped, available _ _,
          (createTables_eq_ok read).mpr ⟨available _ _, built, available _ _⟩⟩⟩
      rw [success]
      simp only [Except.ok.injEq, exists_eq_left', Except.error.injEq, exists_eq', or_true,
        and_true]
      exact reached_iff_of_refused lawful named ran dropped built

end Migrated

section Samples

/-- Users of another name. -/
def capitalUsers : TableDef := { agelessUsers with name := "Users" }

theorem properlyNamed_of_users {tables : List TargetTable} {file : SqliteFile Cells}
    (names : tables.map TargetTable.name = ["users"])
    (reported : ∀ table ∈ file.tables.items, isListed table.name = true → table.IsReported) :
    ProperlyNamed tables file where
  reported := reported
  listed := by
    intro target member
    have inside := List.mem_map_of_mem (f := TargetTable.name) member
    rw [names] at inside
    rw [List.mem_singleton.mp inside]
    decide
  distinct := by
    have keys : (tables.map TargetTable.name).map asciiLower = ["users"] := by
      rw [names]
      rfl
    rw [List.map_map] at keys
    exact keys ▸ List.nodup_singleton _

theorem alterTables_reached_iff_ageless :
    ∃ (schema : DatabaseSchema (StringInterner ⟨.debug, fun _ => 0⟩)) (tables : List TargetTable)
      (next : SqliteFile Unit), buildStable ⟨.debug, fun _ => 0⟩ userRows = .ok schema ∧
      readTables schema = .ok tables ∧
      alterTables (.plain .empty) .byEntry schema (.ofTables [agelessUsers]) = .ok next ∧
      Reached (.plain .empty) tables (alterDdl .byEntry tables
        (collect (SqliteFile.ofTables [agelessUsers]).introspect) schema.hash)
        (.ofTables [agelessUsers]) next := by
  have ran : ((buildStable ⟨.debug, fun _ => 0⟩ userRows).toOption.bind fun schema =>
      (readTables schema).toOption.bind fun tables =>
        (execute (.plain .empty) (.ofTables [agelessUsers]) (dropAllDdl .byEntry
          (collect (SqliteFile.ofTables [agelessUsers]).introspect))).toOption.bind fun emptied =>
            (execute (.plain .empty) emptied (buildDdl tables schema.hash)).toOption.map fun _ =>
              tables.map TargetTable.name) = some ["users"] := by decide +kernel
  obtain ⟨schema, built, ran⟩ := Option.bind_eq_some_iff.mp ran
  obtain ⟨tables, read, ran⟩ := Option.bind_eq_some_iff.mp ran
  obtain ⟨emptied, dropped, ran⟩ := Option.bind_eq_some_iff.mp ran
  obtain ⟨last, created, names⟩ := Option.map_eq_some_iff.mp ran
  have read := toOption_eq_some.mp read
  have live : ∀ table ∈ (SqliteFile.ofTables [agelessUsers]).tables.items,
      table.IsReported ∧ table.name = "users" := by decide
  obtain ⟨next, altered, reached⟩ := (alterTables_reached_iff (Sqlite.plain_lawful .empty)
    (fun _ _ => rfl) read (properlyNamed_of_users names fun table member _ => (live table member).1)
    ⟨emptied, last, toOption_eq_some.mp dropped, toOption_eq_some.mp created⟩).mpr (by
      intro target member table tableIn _
      have inside := List.mem_map_of_mem (f := TargetTable.name) member
      rw [names] at inside
      obtain ⟨reported, name⟩ := live table tableIn
      exact ⟨reported, Or.inl (name.trans (List.mem_singleton.mp inside).symm)⟩)
  exact ⟨schema, tables, next, toOption_eq_some.mp built, read, altered, reached⟩

/-- Users that are there under a name in capitals are taken for another table, and are
dropped after the statement that would create users. -/
theorem not_reached_capitalUsers :
    ∃ (schema : DatabaseSchema (StringInterner ⟨.debug, fun _ => 0⟩)) (tables : List TargetTable)
      (emptied last next : SqliteFile Unit),
      buildStable ⟨.debug, fun _ => 0⟩ userRows = .ok schema ∧ readTables schema = .ok tables ∧
      ProperlyNamed tables (SqliteFile.ofTables [capitalUsers]) ∧
      execute (.plain .empty) (.ofTables [capitalUsers]) (dropAllDdl .byEntry
        (collect (SqliteFile.ofTables [capitalUsers]).introspect)) = .ok emptied ∧
      execute (.plain .empty) emptied (buildDdl tables schema.hash) = .ok last ∧
      alterTables (.plain .empty) .byEntry schema (.ofTables [capitalUsers]) = .ok next ∧
      ¬ Reached (.plain .empty) tables (alterDdl .byEntry tables
        (collect (SqliteFile.ofTables [capitalUsers]).introspect) schema.hash)
        (.ofTables [capitalUsers]) next := by
  have ran : ((buildStable ⟨.debug, fun _ => 0⟩ userRows).toOption.bind fun schema =>
      (readTables schema).toOption.bind fun tables =>
        (execute (.plain .empty) (.ofTables [capitalUsers]) (dropAllDdl .byEntry
          (collect (SqliteFile.ofTables [capitalUsers]).introspect))).toOption.bind fun emptied =>
            (execute (.plain .empty) emptied (buildDdl tables schema.hash)).toOption.bind fun _ =>
              (alterTables (.plain .empty) .byEntry schema
                (.ofTables [capitalUsers])).toOption.map fun next =>
                  (tables.map TargetTable.name, decide (Truthful tables next))) =
      some (["users"], false) := by decide +kernel
  obtain ⟨schema, built, ran⟩ := Option.bind_eq_some_iff.mp ran
  obtain ⟨tables, read, ran⟩ := Option.bind_eq_some_iff.mp ran
  obtain ⟨emptied, dropped, ran⟩ := Option.bind_eq_some_iff.mp ran
  obtain ⟨last, created, ran⟩ := Option.bind_eq_some_iff.mp ran
  obtain ⟨next, altered, ran⟩ := Option.map_eq_some_iff.mp ran
  obtain ⟨names, untrue⟩ := Prod.mk.inj ran
  refine ⟨schema, tables, emptied, last, next, toOption_eq_some.mp built, toOption_eq_some.mp read,
    properlyNamed_of_users names (by decide), toOption_eq_some.mp dropped,
    toOption_eq_some.mp created, toOption_eq_some.mp altered, fun reached => ?_⟩
  exact of_decide_eq_false untrue reached.every

end Samples

end Boomerang
