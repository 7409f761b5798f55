import Boomerang.Dialect.Migration

/-!
# The unique indexes of a migration

A column that is added cannot be unique by its definition, so the first batch creates an
index for it, whose name is made of those of the table and the column. Indexes of one
name are one index.
-/

namespace Boomerang

open Foundation SqliteDatabase

variable {Cells : Type}

/-- The statement that creates an index. -/
def UniqueIndex.statement (index : UniqueIndex) : SqliteStatement :=
  .createUniqueIndex index.name index.table index.column

/-- The index for a column that is added. -/
def uniqueIndexOf (target : TargetTable) (column : TargetColumn) : UniqueIndex :=
  ⟨uniqueIndexName target.name column.name, target.name, column.name⟩

/-- Two indexes that are created have two names. -/
def DistinctIndexes (sql : List SqliteStatement) : Prop :=
  ∀ index other : UniqueIndex, index.statement ∈ sql → other.statement ∈ sql →
    index.key = other.key → index = other

namespace SqliteFile

variable {file next : SqliteFile Cells} {sql : List SqliteStatement}

/-- A statement makes no index but the one that it creates. -/
theorem Step.mem_indexes {statement : SqliteStatement} (step : file.Step statement next)
    {index : UniqueIndex} (member : index ∈ next.indexes.items) :
    index ∈ file.indexes.items ∨ statement = index.statement := by
  cases statement with
  | createTable definition =>
      rcases step_createTable step with ⟨rfl, _⟩ | ⟨table, _, _, rfl⟩
      · exact Or.inl member
      · exact Or.inl member
  | dropTable name =>
      rw [step_dropTable step] at member
      exact Or.inl (List.mem_filter.mp member).1
  | addColumn table column =>
      obtain ⟨_, _, _, _, rfl⟩ := step_addColumn step
      exact Or.inl member
  | dropColumn table column =>
      obtain ⟨_, _, rfl⟩ := step_dropColumn step
      exact Or.inl member
  | createUniqueIndex name table column =>
      rcases step_createUniqueIndex step with ⟨rfl, _⟩ | ⟨absent, rfl⟩
      · exact Or.inl member
      · have absent : file.indexes.find? (UniqueIndex.key ⟨name, table, column⟩) = none := absent
        rw [Catalog.items_add absent] at member
        refine (List.mem_append.mp member).imp id fun single => ?_
        rw [List.mem_singleton.mp single]
        rfl
  | upsertHash hash =>
      rw [step_upsertHash step] at member
      exact Or.inl member
  | dropTrigger name =>
      obtain ⟨_, success⟩ := step
      cases success
      exact Or.inl member

/-- A statement keeps the indexes of the tables that it does not drop. -/
theorem Step.indexes_kept {statement : SqliteStatement} (step : file.Step statement next)
    {index : UniqueIndex} (member : index ∈ file.indexes.items)
    (undropped : ∀ name, statement = .dropTable name → asciiLower name ≠ asciiLower index.table) :
    index ∈ next.indexes.items := by
  cases statement with
  | createTable definition =>
      rcases step_createTable step with ⟨rfl, _⟩ | ⟨table, _, _, rfl⟩
      · exact member
      · exact member
  | dropTable name =>
      rw [step_dropTable step]
      exact List.mem_filter.mpr ⟨member, decide_eq_true (undropped name rfl).symm⟩
  | addColumn table column =>
      obtain ⟨_, _, _, _, rfl⟩ := step_addColumn step
      exact member
  | dropColumn table column =>
      obtain ⟨_, _, rfl⟩ := step_dropColumn step
      exact member
  | createUniqueIndex name table column =>
      rcases step_createUniqueIndex step with ⟨rfl, _⟩ | ⟨absent, rfl⟩
      · exact member
      · have absent : file.indexes.find? (UniqueIndex.key ⟨name, table, column⟩) = none := absent
        rw [Catalog.items_add absent]
        exact List.mem_append_left _ member
  | upsertHash hash =>
      rw [step_upsertHash step]
      exact member
  | dropTrigger name =>
      obtain ⟨_, success⟩ := step
      cases success
      exact member

/-- The indexes after a run were there or are of its statements. -/
theorem mem_indexes_of_run (run : Steps Step file sql next) {index : UniqueIndex}
    (member : index ∈ next.indexes.items) :
    index ∈ file.indexes.items ∨ index.statement ∈ sql := by
  induction run with
  | refl => exact Or.inl member
  | step prior transition ih =>
      rcases transition.mem_indexes member with before | created
      · exact (ih before).imp id (List.mem_append_left _)
      · exact Or.inr (List.mem_append_right _ (List.mem_singleton.mpr created.symm))

/-- Where every index has a name of its own, each that is created stays, unless its table
is dropped. -/
theorem mem_indexes_of_statement (run : Steps Step file sql next) (distinct : DistinctIndexes sql)
    {index : UniqueIndex} (fresh : ∀ other ∈ file.indexes.items, other.key ≠ index.key)
    (member : index.statement ∈ sql)
    (undropped : ∀ name, .dropTable name ∈ sql → asciiLower name ≠ asciiLower index.table) :
    index ∈ next.indexes.items := by
  induction run with
  | refl => cases member
  | @step labels middle label last prior transition ih =>
      have inside : ∀ {statement}, statement ∈ labels → statement ∈ labels ++ [label] :=
        List.mem_append_left _
      rcases List.mem_append.mp member with early | late
      · have here := ih (fun left right leftIn rightIn =>
          distinct left right (inside leftIn) (inside rightIn)) early
          fun name dropped => undropped name (inside dropped)
        refine transition.indexes_kept here fun name same => undropped name ?_
        exact List.mem_append_right _ (List.mem_singleton.mpr same.symm)
      · cases List.mem_singleton.mp late
        rcases step_createUniqueIndex transition with ⟨rfl, other, taken⟩ | ⟨absent, rfl⟩
        · obtain ⟨otherIn, sameKey⟩ := Catalog.find?_eq_some.mp taken
          rcases mem_indexes_of_run prior otherIn with before | created
          · exact absurd sameKey (fresh other before)
          · rw [distinct index other member (inside created) sameKey.symm]
            exact otherIn
        · have absent : middle.indexes.find? index.key = Option.none := absent
          exact Catalog.items_add absent ▸ List.mem_append_right _ (List.mem_singleton_self _)

end SqliteFile

section Batches

variable {hashing : HashOrder} {tables : List TargetTable} {existing : Existing}
variable {hash : SchemaHash}

/-- The statements for the tables are written for their live columns, which the first table
of a name takes. -/
theorem exists_of_mem_writeAlterTables {statement : SqliteStatement}
    (member : statement ∈ (writeAlterTables hashing tables existing).1) :
    ∃ target ∈ tables, statement = writeCreateTable target ∨
      (tables.find? fun other => other.name = target.name) = some target ∧
        ∃ live, existing.lookup target.name = some live ∧
          statement ∈ writeAlterTable hashing target (some live) := by
  induction tables generalizing existing with
  | nil => cases member
  | cons target tables ih =>
      rw [writeAlterTables_cons] at member
      rcases List.mem_append.mp member with here | later
      · refine ⟨target, List.mem_cons_self, ?_⟩
        cases known : existing.lookup target.name with
        | none =>
            rw [known] at here
            exact Or.inl (List.mem_singleton.mp here)
        | some live =>
            rw [known] at here
            exact Or.inr ⟨List.find?_cons_of_pos (decide_eq_true rfl), live, rfl, here⟩
      · obtain ⟨other, otherIn, wanted⟩ := ih later
        refine ⟨other, List.mem_cons_of_mem _ otherIn, wanted.imp id ?_⟩
        rintro ⟨first, live, known, written⟩
        by_cases same : other.name = target.name
        · rw [same, AList.lookup_erase] at known
          cases known
        · rw [AList.lookup_erase_ne same] at known
          exact ⟨(List.find?_cons_of_neg (by simpa using Ne.symm same)).trans first, live, known,
            written⟩

/-- A statement of the batch that creates an index is for a column that is added. -/
theorem index_of_mem_alterDdl {index : UniqueIndex}
    (member : index.statement ∈ alterDdl hashing tables existing hash) :
    ∃ target, (tables.find? fun other => other.name = target.name) = some target ∧
      ∃ live, existing.lookup target.name = some live ∧ rebuilds target live = false ∧
        ∃ column ∈ addedColumns target live,
          column.isUnique = true ∧ index = uniqueIndexOf target column := by
  rcases List.mem_append.mp member with front | upsert
  · rcases List.mem_append.mp front with written | drops
    · obtain ⟨target, _, create | ⟨first, live, known, written⟩⟩ :=
        exists_of_mem_writeAlterTables written
      · cases create
      · refine ⟨target, first, live, known, ?_⟩
        rw [writeAlterTable] at written
        split at written
        · simp [UniqueIndex.statement, writeCreateTable] at written
        · rename_i alters
          refine ⟨Bool.eq_false_iff.mpr alters, ?_⟩
          rcases List.mem_append.mp written with adds | drops
          · obtain ⟨column, columnIn, ofColumn⟩ := List.mem_flatMap.mp adds
            refine ⟨column, columnIn, ?_⟩
            rcases List.mem_cons.mp ofColumn with add | create
            · cases add
            · split at create
              · rename_i unique
                obtain ⟨name, table, column⟩ := index
                cases List.mem_singleton.mp create
                exact ⟨unique, rfl⟩
              · cases create
          · obtain ⟨_, _, drop⟩ := List.mem_map.mp drops
            cases drop
    · obtain ⟨_, _, drop⟩ := List.mem_map.mp drops
      cases drop
  · simp [UniqueIndex.statement, writeHashUpsert, metaDdl] at upsert

/-- A statement of the batch that drops a table is for a table that is rebuilt, or for a
live table that is not in the schema. -/
theorem drop_of_mem_alterDdl {name : String}
    (member : .dropTable name ∈ alterDdl hashing tables existing hash) :
    ∃ live, existing.lookup name = some live ∧
      ((∃ target, (tables.find? fun other => other.name = name) = some target ∧
          rebuilds target live = true) ∨
        name ∉ tables.map TargetTable.name) := by
  rcases List.mem_append.mp member with front | upsert
  · rcases List.mem_append.mp front with written | drops
    · obtain ⟨target, _, create | ⟨first, live, known, written⟩⟩ :=
        exists_of_mem_writeAlterTables written
      · cases create
      · rw [writeAlterTable] at written
        split at written
        · rename_i rebuilt
          have sameName : name = target.name := by simpa [writeCreateTable] using written
          exact ⟨live, sameName ▸ known, Or.inl ⟨target, sameName ▸ first, rebuilt⟩⟩
        · rcases List.mem_append.mp written with adds | drops
          · obtain ⟨column, _, ofColumn⟩ := List.mem_flatMap.mp adds
            rcases List.mem_cons.mp ofColumn with add | create
            · cases add
            · split at create <;> simp at create
          · obtain ⟨_, _, drop⟩ := List.mem_map.mp drops
            cases drop
    · obtain ⟨left, listed, drop⟩ := List.mem_map.mp drops
      cases drop
      have known := AList.lookup_isSome.mpr
        (AList.mem_keys.mpr ((hashing.perm _).mem_iff.mp listed))
      rw [lookup_writeAlterTables] at known
      split at known
      · cases known
      · rename_i outside
        obtain ⟨live, knownEq⟩ := Option.isSome_iff_exists.mp known
        exact ⟨live, knownEq, Or.inr outside⟩
  · simp [writeHashUpsert, metaDdl] at upsert

/-- The indexes that the first batch creates are all there exactly if each has a name of
its own. -/
theorem indexes_iff_distinct {file next : SqliteFile Cells}
    (run : Steps SqliteFile.Step file
      (alterDdl hashing tables (collect file.introspect) hash) next)
    (fresh : ∀ index : UniqueIndex,
      index.statement ∈ alterDdl hashing tables (collect file.introspect) hash →
        ∀ other ∈ file.indexes.items, other.key ≠ index.key) :
    (∀ index : UniqueIndex,
        index.statement ∈ alterDdl hashing tables (collect file.introspect) hash →
          index ∈ next.indexes.items) ↔
      DistinctIndexes (alterDdl hashing tables (collect file.introspect) hash) := by
  constructor
  · intro all index other here there sameKey
    exact Catalog.eq_of_mem (all index here) (all other there) sameKey
  · intro distinct index statement
    refine SqliteFile.mem_indexes_of_statement run distinct (fresh index statement) statement ?_
    obtain ⟨target, first, live, known, alters, column, _, _, rfl⟩ :=
      index_of_mem_alterDdl statement
    intro name dropped sameKey
    obtain ⟨other, otherKnown, why⟩ := drop_of_mem_alterDdl dropped
    obtain ⟨left, leftIn, _, rfl, _⟩ := exists_of_lookup_collect otherKnown
    obtain ⟨right, rightIn, _, rightName, _⟩ := exists_of_lookup_collect known
    have sameName : left.name = target.name := by
      rw [Catalog.eq_of_mem leftIn rightIn
        (sameKey.trans (congrArg asciiLower rightName.symm)), rightName]
    rw [sameName] at otherKnown why
    rcases why with ⟨rebuilt, rebuiltFirst, rebuilds⟩ | outside
    · cases first.symm.trans rebuiltFirst
      cases known.symm.trans otherKnown
      cases alters.symm.trans rebuilds
    · exact outside (List.mem_map_of_mem (List.mem_of_find?_eq_some first))

end Batches

end Boomerang
