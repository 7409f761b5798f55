import Boomerang.Dialect.Migration

/-!
# The shape of a table

The shape of a table is its name and its columns with their types, up to case, and
whether they are primary. A created table and a migrated one have the shape that the
schema gives.
-/

namespace Boomerang

open Foundation SqliteDatabase

variable {Cells : Type}

/-- The names of the tables that the database keeps for itself. -/
def internalNames : List String := ["__meta__", "__sync_log__"]

/-- What the shape keeps of a column. -/
def ColumnDef.signature (column : ColumnDef) : String × String × Bool :=
  (column.name, asciiLower column.declaredType, column.primaryKey)

/-- A name and columns. -/
structure TableShape where
  name : String
  columns : List ColumnDef
deriving DecidableEq, Repr

/-- The same name, and the same columns with the same types and primary flags. -/
def TableShape.Same (left right : TableShape) : Prop :=
  left.name = right.name ∧
    left.columns.map ColumnDef.signature ⊆ right.columns.map ColumnDef.signature ∧
    right.columns.map ColumnDef.signature ⊆ left.columns.map ColumnDef.signature

instance (left right : TableShape) : Decidable (left.Same right) :=
  inferInstanceAs (Decidable (_ ∧ _ ∧ _))

namespace TableShape

theorem Same.refl (shape : TableShape) : shape.Same shape :=
  ⟨rfl, List.Subset.refl _, List.Subset.refl _⟩

theorem Same.symm {left right : TableShape} (same : left.Same right) : right.Same left :=
  ⟨same.1.symm, same.2.2, same.2.1⟩

theorem Same.trans {first second third : TableShape} (left : first.Same second)
    (right : second.Same third) : first.Same third :=
  ⟨left.1.trans right.1, List.Subset.trans left.2.1 right.2.1,
    List.Subset.trans right.2.2 left.2.2⟩

end TableShape

/-- The shape of a live table. -/
def LiveTable.shape (table : LiveTable Cells) : TableShape :=
  ⟨table.name, table.columns.items.map LiveColumn.toColumnDef⟩

/-- The shape of a definition. -/
def TableDef.shape (definition : TableDef) : TableShape := ⟨definition.name, definition.columns⟩

/-- The shape of a table of the schema. -/
def TargetTable.shape (target : TargetTable) : TableShape := (createDef target).shape

theorem LiveTable.IsCreated.shape_eq {table : LiveTable Cells} {definition : TableDef}
    (created : table.IsCreated definition) : table.shape = definition.shape := by
  rw [LiveTable.shape, created.name, created.columns]
  rfl

section Migrated

variable {table before : LiveTable Cells} {target : TargetTable} {live : LiveColumns}

theorem mem_signatures_live {signature : String × String × Bool} :
    signature ∈ table.shape.columns.map ColumnDef.signature ↔
      ∃ column ∈ table.columns.items, column.toColumnDef.signature = signature := by
  rw [LiveTable.shape, List.map_map, List.mem_map]
  rfl

theorem mem_signatures_target {signature : String × String × Bool} :
    signature ∈ target.shape.columns.map ColumnDef.signature ↔
      ∃ column ∈ target.columns,
        (column.name, asciiLower column.sqliteType, column.isPrimaryKey) = signature := by
  rw [TargetTable.shape, TableDef.shape, createDef, List.map_map, List.mem_map]
  rfl

/-- The columns of an altered table are those of the table of the schema. -/
theorem LiveTable.IsAltered.same (altered : table.IsAltered target live before)
    (alters : rebuilds target live = false) (described : before.IsDescribedBy live)
    (sameName : before.name = target.name) : table.shape.Same target.shape := by
  obtain ⟨compared, _⟩ := compared_of_not_rebuilds alters
  obtain ⟨added, items, addedEq, _⟩ := altered.columns
  have kept : ∀ column ∈ before.columns.items, column.name ∈ target.columns.map TargetColumn.name →
      column ∈ table.columns.items := fun column member named => by
    rw [items]
    exact List.mem_append_left _ (List.mem_filter.mpr ⟨member, decide_eq_true named⟩)
  have new : ∀ wanted ∈ addedColumns target live, ∃ column ∈ table.columns.items,
      column ∈ added ∧ column.toColumnDef = alterColumn wanted := fun wanted member => by
    obtain ⟨column, columnIn, same, _⟩ := exists_of_definitions addedEq member
    exact ⟨column, items ▸ List.mem_append_right _ columnIn, columnIn, same⟩
  have signature_new : ∀ wanted ∈ addedColumns target live,
      (alterColumn wanted).signature =
        (wanted.name, asciiLower wanted.sqliteType, wanted.isPrimaryKey) := fun wanted member => by
    rw [compared.notPrimary wanted member]
    rfl
  refine ⟨altered.name.trans sameName, ?_, ?_⟩
  · intro signature member
    obtain ⟨column, columnIn, rfl⟩ := mem_signatures_live.mp member
    rw [items] at columnIn
    rcases List.mem_append.mp columnIn with inBefore | inAdded
    · obtain ⟨beforeIn, named⟩ := List.mem_filter.mp inBefore
      obtain ⟨wanted, wantedIn, wantedName⟩ := List.mem_map.mp (of_decide_eq_true named)
      rcases compared.matched wanted wantedIn with inExtra | ⟨ty, known, sameType⟩
      · -- The column would be there twice.
        obtain ⟨other, otherIn, otherAdded, otherEq⟩ := new wanted inExtra
        have otherName : other.name = column.name := by
          rw [← wantedName, otherEq]
          rfl
        have distinct := table.columns.distinct
        rw [items, List.map_append, List.nodup_append] at distinct
        exact absurd (congrArg asciiLower otherName.symm)
          (distinct.2.2 _ (List.mem_map_of_mem inBefore) _ (List.mem_map_of_mem otherAdded))
      · obtain ⟨found, foundIn, foundName, rfl, foundKey⟩ := (described _ _ _).mp known
        have same := Catalog.eq_of_mem foundIn beforeIn
          (LiveColumn.key_eq_of_name (foundName.trans wantedName))
        subst same
        refine mem_signatures_target.mpr ⟨wanted, wantedIn, ?_⟩
        rw [ColumnDef.signature, ← foundName, ← foundKey, of_decide_eq_true sameType]
    · have listed := List.mem_map_of_mem (f := LiveColumn.toColumnDef) inAdded
      rw [addedEq] at listed
      obtain ⟨wanted, wantedIn, same⟩ := List.mem_map.mp listed
      refine mem_signatures_target.mpr ⟨wanted, compared.sublist.subset wantedIn, ?_⟩
      rw [← same, signature_new wanted wantedIn]
  · intro signature member
    obtain ⟨wanted, wantedIn, rfl⟩ := mem_signatures_target.mp member
    refine mem_signatures_live.mpr ?_
    rcases compared.matched wanted wantedIn with inExtra | ⟨ty, known, sameType⟩
    · obtain ⟨column, columnIn, _, same⟩ := new wanted inExtra
      exact ⟨column, columnIn, by rw [same, signature_new wanted inExtra]⟩
    · obtain ⟨column, columnIn, name, rfl, primary⟩ := (described _ _ _).mp known
      refine ⟨column, kept column columnIn (name ▸ List.mem_map_of_mem wantedIn), ?_⟩
      rw [ColumnDef.signature, name, primary, of_decide_eq_true sameType]

theorem LiveTable.IsMigrated.same (migrated : table.IsMigrated target live before)
    (described : before.IsDescribedBy live) (sameName : before.name = target.name) :
    table.shape.Same target.shape := by
  unfold LiveTable.IsMigrated at migrated
  split at migrated
  · rw [migrated.shape_eq]
    exact .refl _
  · rename_i alters
    exact migrated.same (Bool.eq_false_iff.mpr alters) described sameName

end Migrated

end Boomerang
