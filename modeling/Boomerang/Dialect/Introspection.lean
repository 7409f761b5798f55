import Boomerang.Dialect.SqliteRuns

/-!
# What the migration knows of the live tables

The maps of the introspection describe the tables that it lists. The comparison of a
table with its live columns consumes those that the table has, and what it finds decides
between the two ways to change a table.
-/

namespace Boomerang

open Foundation

variable {Cells : Type}

/-- A table that the introspection reports. -/
def LiveTable.IsReported (table : LiveTable Cells) : Prop :=
  isListed table.name = true ∧ table.columns.items ≠ []

instance (table : LiveTable Cells) : Decidable table.IsReported :=
  inferInstanceAs (Decidable (_ ∧ ¬ table.columns.items = []))

/-- The live columns are those of the table. -/
def LiveTable.IsDescribedBy (table : LiveTable Cells) (live : LiveColumns) : Prop :=
  ∀ name ty pk, live.lookup name = some (ty, pk) ↔
    ∃ column ∈ table.columns.items, column.name = name ∧ column.declaredType = ty ∧
      column.primaryKey = pk

theorem LiveTable.mem_introspect {table : LiveTable Cells} {row : IntrospectedColumn} :
    row ∈ table.introspect ↔ row.table = table.name ∧
      ∃ column ∈ table.columns.items, column.name = row.column ∧ column.declaredType = row.ty ∧
        column.primaryKey = row.pk := by
  rw [introspect, List.mem_map]
  constructor
  · rintro ⟨column, member, rfl⟩
    exact ⟨rfl, column, member, rfl, rfl, rfl⟩
  · rintro ⟨sameTable, column, member, name, ty, pk⟩
    obtain ⟨table', column', ty', pk'⟩ := row
    cases sameTable
    cases name
    cases ty
    cases pk
    exact ⟨column, member, rfl⟩

theorem LiveTable.key_eq_of_name {left right : LiveTable Cells} (same : left.name = right.name) :
    left.key = right.key := congrArg asciiLower same

theorem LiveColumn.key_eq_of_name {left right : LiveColumn Cells} (same : left.name = right.name) :
    left.key = right.key := congrArg asciiLower same

namespace SqliteDatabase

/-- A row put into the map of a table. -/
def collectColumn (live : Option LiveColumns) (row : IntrospectedColumn) : Option LiveColumns :=
  some ((live.getD ∅).insert row.column (row.ty, row.pk))

/-- The map of a table is made of its own rows. -/
theorem lookup_foldl_collectRow (rows : List IntrospectedColumn) (existing : Existing)
    (name : String) : (rows.foldl collectRow existing).lookup name =
      (rows.filter fun row => row.table = name).foldl collectColumn (existing.lookup name) := by
  induction rows generalizing existing with
  | nil => rfl
  | cons row rows ih =>
      rw [List.foldl_cons, ih]
      by_cases same : row.table = name
      · subst same
        rw [List.filter_cons_of_pos (by simp), List.foldl_cons, collectRow, AList.lookup_insert]
        rfl
      · rw [List.filter_cons_of_neg (by simpa using same), collectRow,
          AList.lookup_insert_ne (Ne.symm same)]

theorem foldl_collectColumn_eq_none {rows : List IntrospectedColumn} {live : Option LiveColumns} :
    rows.foldl collectColumn live = none ↔ live = none ∧ rows = [] := by
  induction rows generalizing live with
  | nil => simp
  | cons row rows ih => simp [ih, collectColumn]

/-- A column is known by its row, if a column has one row. -/
theorem lookup_foldl_collectColumn {rows : List IntrospectedColumn}
    (single : ∀ row ∈ rows, ∀ other ∈ rows, row.column = other.column → row = other)
    {live : Option LiveColumns} {result : LiveColumns}
    (success : rows.foldl collectColumn live = some result) (name : String)
    (value : String × Bool) :
    result.lookup name = some value ↔
      (∃ row ∈ rows, row.column = name ∧ (row.ty, row.pk) = value) ∨
        (∀ row ∈ rows, row.column ≠ name) ∧ (live.getD ∅).lookup name = some value := by
  induction rows generalizing live with
  | nil =>
      cases success
      simp
  | cons row rows ih =>
      have rest := ih (fun left leftIn right rightIn =>
        single left (List.mem_cons_of_mem _ leftIn) right (List.mem_cons_of_mem _ rightIn)) success
      rw [rest, collectColumn, Option.getD_some]
      by_cases same : row.column = name
      · subst same
        rw [AList.lookup_insert, Option.some.injEq]
        constructor
        · rintro (⟨other, otherIn, sameName, valueEq⟩ | ⟨_, valueEq⟩)
          · exact Or.inl ⟨other, List.mem_cons_of_mem _ otherIn, sameName, valueEq⟩
          · exact Or.inl ⟨row, List.mem_cons_self, rfl, valueEq⟩
        · rintro (⟨other, otherIn, sameName, valueEq⟩ | ⟨absent, _⟩)
          · have sameRow := single other otherIn row List.mem_cons_self sameName
            subst sameRow
            by_cases listed : ∃ later ∈ rows, later.column = other.column
            · obtain ⟨later, laterIn, laterName⟩ := listed
              have sameLater :=
                single later (List.mem_cons_of_mem _ laterIn) other otherIn laterName
              exact Or.inl ⟨later, laterIn, laterName, sameLater ▸ valueEq⟩
            · push Not at listed
              exact Or.inr ⟨listed, valueEq⟩
          · exact absurd rfl (absent row List.mem_cons_self)
      · rw [AList.lookup_insert_ne (Ne.symm same)]
        simp [same]

/-- The maps describe reported tables. -/
theorem exists_of_lookup_collect {file : SqliteFile Cells} {name : String} {live : LiveColumns}
    (known : (collect file.introspect).lookup name = some live) :
    ∃ table ∈ file.tables.items, table.IsReported ∧ table.name = name ∧
      table.IsDescribedBy live := by
  rw [collect, lookup_foldl_collectRow, AList.lookup_empty] at known
  have rowIff : ∀ row, row ∈ file.introspect.filter (fun row => row.table = name) ↔
      ∃ table ∈ file.tables.items, isListed table.name = true ∧ table.name = name ∧
        row ∈ table.introspect := by
    intro row
    rw [List.mem_filter, SqliteFile.introspect, List.mem_flatMap, decide_eq_true_iff]
    constructor
    · rintro ⟨⟨table, tableIn, rowIn⟩, rfl⟩
      obtain ⟨member, listed⟩ := List.mem_filter.mp tableIn
      exact ⟨table, member, listed, (LiveTable.mem_introspect.mp rowIn).1.symm, rowIn⟩
    · rintro ⟨table, member, listed, rfl, rowIn⟩
      exact ⟨⟨table, List.mem_filter.mpr ⟨member, listed⟩, rowIn⟩,
        (LiveTable.mem_introspect.mp rowIn).1⟩
  generalize file.introspect.filter (fun row => row.table = name) = rows at known rowIff
  have nonempty : rows ≠ [] := by
    rintro rfl
    cases known
  obtain ⟨first, firstIn⟩ := List.exists_mem_of_ne_nil rows nonempty
  obtain ⟨table, member, listed, rfl, inTable⟩ := (rowIff first).mp firstIn
  have rowIff' : ∀ row, row ∈ rows ↔ row ∈ table.introspect := by
    intro row
    rw [rowIff]
    constructor
    · rintro ⟨other, otherIn, _, sameName, rowIn⟩
      rwa [← Catalog.eq_of_mem otherIn member (LiveTable.key_eq_of_name sameName)]
    · exact fun rowIn => ⟨table, member, listed, rfl, rowIn⟩
  have single : ∀ row ∈ rows, ∀ other ∈ rows, row.column = other.column → row = other := by
    intro row rowIn other otherIn same
    obtain ⟨left, leftIn, rfl⟩ := List.mem_map.mp ((rowIff' row).mp rowIn)
    obtain ⟨right, rightIn, rfl⟩ := List.mem_map.mp ((rowIff' other).mp otherIn)
    rw [Catalog.eq_of_mem leftIn rightIn (LiveColumn.key_eq_of_name same)]
  refine ⟨table, member, ⟨listed, ?_⟩, rfl, ?_⟩
  · obtain ⟨_, column, columnIn, _⟩ := LiveTable.mem_introspect.mp inTable
    exact List.ne_nil_of_mem columnIn
  · intro column ty pk
    rw [lookup_foldl_collectColumn single known]
    simp only [rowIff', LiveTable.mem_introspect, Option.getD_none, AList.lookup_empty,
      reduceCtorEq, and_false, or_false, Prod.mk.injEq]
    constructor
    · rintro ⟨row, ⟨_, found, foundIn, sameName, sameType, sameKey⟩, rfl, rfl, rfl⟩
      exact ⟨found, foundIn, sameName, sameType, sameKey⟩
    · rintro ⟨found, foundIn, rfl, rfl, rfl⟩
      exact ⟨⟨table.name, found.name, found.declaredType, found.primaryKey⟩,
        ⟨rfl, found, foundIn, rfl, rfl, rfl⟩, rfl, rfl, rfl⟩

/-- Every reported table is in the maps. -/
theorem lookup_collect_of_mem {file : SqliteFile Cells} {table : LiveTable Cells}
    (member : table ∈ file.tables.items) (reported : table.IsReported) :
    ∃ live, (collect file.introspect).lookup table.name = some live ∧ table.IsDescribedBy live := by
  obtain ⟨column, columnIn⟩ := List.exists_mem_of_ne_nil _ reported.2
  cases known : (collect file.introspect).lookup table.name with
  | none =>
      rw [collect, lookup_foldl_collectRow, foldl_collectColumn_eq_none] at known
      have rowIn : (⟨table.name, column.name, column.declaredType, column.primaryKey⟩ :
          IntrospectedColumn) ∈ file.introspect :=
        List.mem_flatMap.mpr ⟨table, List.mem_filter.mpr ⟨member, reported.1⟩,
          List.mem_map_of_mem columnIn⟩
      have absent := List.filter_eq_nil_iff.mp known.2 _ rowIn
      simp at absent
  | some live =>
      obtain ⟨other, otherIn, _, sameName, described⟩ := exists_of_lookup_collect known
      rw [Catalog.eq_of_mem otherIn member (LiveTable.key_eq_of_name sameName)] at described
      exact ⟨live, rfl, described⟩

/-- What a comparison that does not end early has found. -/
structure Compared (columns : List TargetColumn) (live : LiveColumns)
    (extra : List TargetColumn) (left : LiveColumns) : Prop where
  lookup_left : ∀ name, left.lookup name =
    if name ∈ columns.map TargetColumn.name then none else live.lookup name
  sublist : extra.Sublist columns
  notPrimary : ∀ column ∈ extra, column.isPrimaryKey = false
  matched : ∀ column ∈ columns, column ∈ extra ∨ ∃ ty, live.lookup column.name =
    some (ty, column.isPrimaryKey) ∧ eqIgnoreAsciiCase ty column.sqliteType = true

theorem compareColumns_ok {columns added more : List TargetColumn} {live left : LiveColumns}
    (ends : compareColumns added columns live = (false, more, left)) :
    ∃ extra, more = added ++ extra ∧ Compared columns live extra left := by
  induction columns generalizing added live with
  | nil =>
      cases ends
      exact ⟨[], (List.append_nil _).symm, ⟨by simp, .slnil, by simp, by simp⟩⟩
  | cons column columns ih =>
      rw [compareColumns] at ends
      cases known : live.lookup column.name with
      | some found =>
          obtain ⟨ty, pk⟩ := found
          simp only [known] at ends
          split at ends
          · cases ends
          · rename_i agrees
            obtain ⟨sameType, samePk⟩ : eqIgnoreAsciiCase ty column.sqliteType = true ∧
                pk = column.isPrimaryKey := by simpa using agrees
            obtain ⟨extra, moreEq, compared⟩ := ih ends
            refine ⟨extra, moreEq, ⟨?_, compared.sublist.cons _, compared.notPrimary, ?_⟩⟩
            · intro name
              rw [compared.lookup_left, List.map_cons]
              by_cases same : name = column.name
              · subst same
                rw [AList.lookup_erase, if_pos List.mem_cons_self, ite_self]
              · rw [AList.lookup_erase_ne same]
                simp only [List.mem_cons, same, false_or]
            · intro other member
              rcases List.mem_cons.mp member with rfl | member
              · exact Or.inr ⟨ty, samePk ▸ known, sameType⟩
              · rcases compared.matched other member with inExtra | ⟨otherType, otherKnown, same⟩
                · exact Or.inl inExtra
                · refine Or.inr ⟨otherType, ?_, same⟩
                  by_cases sameName : other.name = column.name
                  · rw [sameName, AList.lookup_erase] at otherKnown
                    cases otherKnown
                  · rwa [AList.lookup_erase_ne sameName] at otherKnown
      | none =>
          simp only [known] at ends
          split at ends
          · cases ends
          · rename_i notPrimary
            obtain ⟨extra, moreEq, compared⟩ := ih ends
            refine ⟨column :: extra, by rw [moreEq]; simp,
              ⟨?_, compared.sublist.cons_cons _, ?_, ?_⟩⟩
            · intro name
              rw [compared.lookup_left, List.map_cons]
              by_cases same : name = column.name
              · subst same
                rw [if_pos List.mem_cons_self, known, ite_self]
              · simp only [List.mem_cons, same, false_or]
            · intro other member
              rcases List.mem_cons.mp member with rfl | member
              · exact Bool.eq_false_iff.mpr notPrimary
              · exact compared.notPrimary other member
            · intro other member
              rcases List.mem_cons.mp member with rfl | member
              · exact Or.inl List.mem_cons_self
              · exact (compared.matched other member).imp (List.mem_cons_of_mem _) id

/-- The comparison of a table that is not rebuilt. -/
theorem compared_of_not_rebuilds {table : TargetTable} {live : LiveColumns}
    (alters : rebuilds table live = false) :
    Compared table.columns live (addedColumns table live) (leftColumns table live) ∧
      ∀ name ty pk, (leftColumns table live).lookup name = some (ty, pk) → pk = false := by
  rw [rebuilds, Bool.or_eq_false_iff] at alters
  obtain ⟨ends, noKey⟩ := alters
  obtain ⟨extra, extraEq, compared⟩ := compareColumns_ok (Prod.ext ends rfl)
  rw [List.nil_append] at extraEq
  refine ⟨?_, ?_⟩
  · rw [addedColumns, extraEq]
    exact compared
  · intro name ty pk known
    have entry := AList.mem_lookup_iff.mp (Option.mem_def.mpr known)
    have none := List.any_eq_false.mp noKey _ entry
    exact Bool.eq_false_iff.mpr none

end SqliteDatabase

end Boomerang
