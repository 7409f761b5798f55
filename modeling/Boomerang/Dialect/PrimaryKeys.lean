import Boomerang.Dialect.RecordIds
import Boomerang.Dialect.SqliteDatabase
import Boomerang.Schema.DependencyOrder

/-!
# The primary keys of the created tables

The catalogue flags every column of a composite key, and `write_create_table` writes a
`PRIMARY KEY` behind each flagged column. The table of the log has one such clause, behind
its columns.
-/

namespace Boomerang

open Foundation SqliteDatabase

/-- The `PRIMARY KEY` constraints in the `CREATE TABLE` of a table, each by the columns that
it covers. They are clauses of columns. -/
def primaryKeyClauses (target : TargetTable) : List (List String) :=
  (createDef target).columns.filterMap fun column =>
    if column.primaryKey then some [column.name] else none

/-- There is at most one `PRIMARY KEY`, and it covers the given columns. -/
structure OnePrimaryKey (target : TargetTable) (flagged : List String) : Prop where
  single : (primaryKeyClauses target).length ≤ 1
  covers : ∀ clause ∈ primaryKeyClauses target, clause = flagged
  present : flagged ≠ [] → primaryKeyClauses target ≠ []

/-- The table has one column for each row, with its name and its flag. -/
def HoldsFlags (target : TargetTable) (rows : List RawRow) : Prop :=
  List.Forall₂ (fun row column => column.name = row.columnName ∧
    column.isPrimaryKey = row.isPrimary) rows target.columns

section Clauses

variable {target : TargetTable} {rows : List RawRow}

/-- Every flagged column has a clause of its own. -/
theorem primaryKeyClauses_eq (holds : HoldsFlags target rows) :
    primaryKeyClauses target = (primaryColumns rows).map fun column => [column] := by
  rw [primaryKeyClauses, createDef, List.filterMap_map, primaryColumns]
  rw [HoldsFlags] at holds
  generalize target.columns = columns at holds ⊢
  induction holds with
  | nil => rfl
  | @cons row column rows columns same _ ih =>
      rw [List.filterMap_cons, ih, List.filter_cons, Function.comp_apply, createColumn]
      dsimp only
      rw [same.1, same.2]
      cases row.isPrimary <;> rfl

/-- There is one primary key exactly if at most one column is flagged. -/
theorem onePrimaryKey_iff (holds : HoldsFlags target rows) :
    OnePrimaryKey target (primaryColumns rows) ↔ (primaryColumns rows).length ≤ 1 := by
  have clauses := primaryKeyClauses_eq holds
  constructor
  · intro one
    have single := one.single
    rwa [clauses, List.length_map] at single
  · intro few
    refine ⟨by rwa [clauses, List.length_map], ?_, ?_⟩
    · intro clause member
      rw [clauses] at member
      obtain ⟨column, columnIn, rfl⟩ := List.mem_map.mp member
      obtain ⟨only, flagged⟩ := List.length_eq_one_iff.mp
        (Nat.le_antisymm few (List.length_pos_of_mem columnIn))
      rw [flagged] at columnIn ⊢
      rw [List.mem_singleton.mp columnIn]
    · rw [clauses]
      exact fun some none => some (List.map_eq_nil_iff.mp none)

end Clauses

section Built

variable {Interner : Type} [InternerOps Interner]

/-- A column is read with its name and its flag. -/
theorem readColumn_flag {schema : DatabaseSchema Interner} {row : RawRow}
    {ref : ColumnRef Interner} (reads : ReadsFlags row ref) {column : TargetColumn}
    (read : SqliteDatabase.readColumn schema ref = .ok column) :
    column.name = row.columnName ∧ column.isPrimaryKey = row.isPrimary := by
  obtain ⟨info, metaEq, flags⟩ := reads.flags
  obtain ⟨name, nameEq, read⟩ := bind_eq_ok.mp read
  obtain ⟨other, otherEq, read⟩ := bind_eq_ok.mp read
  obtain ⟨default, _, read⟩ := bind_eq_ok.mp read
  cases read
  cases metaEq.symm.trans otherEq
  refine ⟨Except.ok.inj (nameEq.symm.trans reads.name), ?_⟩
  exact (congrArg (ColumnFlags.contains · .PRIMARY_KEY) flags).trans
    (ColumnFlags.contains_ofRow _ _ _).2.1

theorem flags_of_mapM {schema : DatabaseSchema Interner} {rows : List RawRow}
    {refs : List (ColumnRef Interner)} (each : List.Forall₂ ReadsFlags rows refs)
    {columns : List TargetColumn}
    (read : refs.mapM (SqliteDatabase.readColumn schema) = .ok columns) :
    List.Forall₂ (fun row column => column.name = row.columnName ∧
      column.isPrimaryKey = row.isPrimary) rows columns := by
  have readEach := mapM_ok read
  clear read
  induction each generalizing columns with
  | nil =>
      cases readEach
      exact .nil
  | cons reads _ ih =>
      cases readEach with
      | cons head tail => exact .cons (readColumn_flag reads head) (ih tail)

variable [LawfulInterner Interner] {unstable : UnstableSort (TableMeta × Nat) Symbol}
variable {rows : List RawRow} {symbols : String → Symbol} {pools : SchemaPools}
variable {resolved : List ResolvedFk} {order : List Nat} {ordered : List TableMeta}
variable {schema : DatabaseSchema Interner} {index old : Nat} {target : TargetTable}

/-- A table that is read has the rows that it keeps. -/
theorem BuiltFrom.holdsFlags
    (built : BuiltFrom unstable rows symbols pools resolved order ordered schema)
    (place : order[index]? = some old)
    (read : SqliteDatabase.readTable schema (TableRef.mk schema index) = .ok target) :
    HoldsFlags target (storedRows (tableGroups rows) old) := by
  obtain ⟨refs, refsEq, each⟩ := built.columns_stored place
  obtain ⟨_, _, read⟩ := bind_eq_ok.mp read
  obtain ⟨other, otherEq, read⟩ := bind_eq_ok.mp read
  obtain ⟨columns, columnsEq, read⟩ := bind_eq_ok.mp read
  obtain ⟨_, _, read⟩ := bind_eq_ok.mp read
  obtain ⟨_, _, read⟩ := bind_eq_ok.mp read
  cases read
  cases refsEq.symm.trans otherEq
  exact flags_of_mapM each columnsEq

/-- A `CREATE TABLE` has one primary key over the columns of its table that are flagged
exactly if at most one is. -/
theorem DatabaseSchemaBuilder.buildRows_onePrimaryKey {profile : Profile} {interner : Interner}
    {hash : SchemaHash} (valid : LawfulInterner.Valid interner)
    (storable : StorableAll Interner (rows.flatMap Row.strings))
    (success : buildRows unstable profile interner rows hash = .ok schema) :
    ∃ order : List Nat, order.Perm (List.range (tableGroups rows).length) ∧
      order.length = schema.tables.length ∧ ∀ index old, order[index]? = some old →
        ∀ target, SqliteDatabase.readTable schema (TableRef.mk schema index) = .ok target →
          (OnePrimaryKey target (primaryColumns (storedRows (tableGroups rows) old)) ↔
            (primaryColumns (storedRows (tableGroups rows) old)).length ≤ 1) := by
  obtain ⟨_, symbols, pools, resolved, order, ordered, built⟩ := buildRows_ok valid storable success
  exact ⟨order, built.order_perm, built.order_length, fun index old place target read =>
    onePrimaryKey_iff (built.holdsFlags place read)⟩

/-- Users have one primary key. -/
theorem buildRows_onePrimaryKey_users :
    ∃ schema target, buildStable ⟨.debug, fun _ => 0⟩
        [plainRow "users" "id" true, plainRow "users" "name" false] = .ok schema ∧
      SqliteDatabase.readTable schema (TableRef.mk schema 0) = .ok target ∧
      OnePrimaryKey target ["id"] := by
  have ran : ((buildStable ⟨.debug, fun _ => 0⟩
      [plainRow "users" "id" true, plainRow "users" "name" false]).toOption.bind fun schema =>
        (SqliteDatabase.readTable schema (TableRef.mk schema 0)).toOption).isSome = true := by
    decide +kernel
  obtain ⟨target, ran⟩ := Option.isSome_iff_exists.mp ran
  obtain ⟨schema, success, read⟩ := Option.bind_eq_some_iff.mp ran
  have success := toOption_eq_some.mp success
  have read := toOption_eq_some.mp read
  obtain ⟨interner, valid, built⟩ := DatabaseSchema.buildNew_ok success
  obtain ⟨order, perm, _, one⟩ :=
    DatabaseSchemaBuilder.buildRows_onePrimaryKey valid (fun _ _ => Or.inl rfl) built
  have single : order = [0] := List.perm_singleton.mp perm
  subst single
  exact ⟨schema, target, success, read, (one 0 0 rfl target read).mpr (by decide)⟩

/-- Members have two primary keys, of a column each. -/
theorem not_onePrimaryKey_members :
    ∃ schema target, buildStable ⟨.debug, fun _ => 0⟩ memberRows = .ok schema ∧
      SqliteDatabase.readTable schema (TableRef.mk schema 0) = .ok target ∧
      primaryKeyClauses target = [["team"], ["user"]] ∧
      ¬ OnePrimaryKey target (primaryColumns memberRows) := by
  have ran : ((buildStable ⟨.debug, fun _ => 0⟩ memberRows).toOption.bind fun schema =>
      (SqliteDatabase.readTable schema (TableRef.mk schema 0)).toOption.map primaryKeyClauses) =
        some [["team"], ["user"]] := by
    decide +kernel
  obtain ⟨schema, success, ran⟩ := Option.bind_eq_some_iff.mp ran
  obtain ⟨target, read, clauses⟩ := Option.map_eq_some_iff.mp ran
  refine ⟨schema, target, toOption_eq_some.mp success, toOption_eq_some.mp read, clauses, ?_⟩
  intro one
  have single := one.single
  rw [clauses] at single
  exact absurd single (by decide)

end Built

end Boomerang
