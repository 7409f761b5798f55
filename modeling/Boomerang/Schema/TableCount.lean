import Boomerang.Interner.Failures
import Boomerang.Schema.Completion

/-!
# The number of tables

The number of tables is cast to a `u16` where the tables are enumerated and where they
are indexed by name. Below 2^16 tables nothing is lost by it. From 2^16 on there are more
tables than the enumeration lists.
-/

namespace Boomerang

open Foundation

/-- A stored foreign key leads to the table that it was given with: its table index is the
position of the table of that name. -/
structure LeadsTo {Interner : Type} [InternerOps Interner] (schema : DatabaseSchema Interner)
    (raw : RawForeignKey String) (key : ForeignKey) : Prop where
  constraintName : Names schema.interner key.constraintName raw.constraintName
  namespaceName : Names schema.interner key.namespaceName raw.namespaceName
  table : ∃ table, schema.tableRefs[key.tableIndex]? = some table ∧
    table.name = .ok raw.referencedTable

/-- Every added table is enumerated once and found by its name, and every foreign key
stores the position of the table that it names. -/
structure LosesNoTable {Interner : Type} [InternerOps Interner] (rows : List RawRow)
    (schema : DatabaseSchema Interner) : Prop where
  enumerated : ∃ names, schema.tableRefs.mapM TableRef.name = .ok names ∧ names.Nodup ∧
    ∀ name, name ∈ names ↔ ∃ row ∈ rows, row.tableName = name
  found : ∀ row ∈ rows, ∃ table, schema.table row.tableName = .ok (some table) ∧
    table.name = .ok row.tableName
  foreignKeys : ∃ kept, kept.Sublist (rows.flatMap Row.foreignKeys) ∧
    List.Forall₂ (LeadsTo schema) kept schema.foreignKeyPool

section Groups

variable {rows : List RawRow}

/-- The names of the tables, in the order they are added. -/
def groupNames (rows : List RawRow) : List String :=
  (tableGroups rows).map fun group => (group.head?.map Row.tableName).getD ""

theorem length_groupNames (rows : List RawRow) :
    (groupNames rows).length = (tableGroups rows).length :=
  List.length_map _

theorem mem_groupNames {name : String} (member : name ∈ groupNames rows) :
    ∃ row ∈ rows, row.tableName = name := by
  obtain ⟨group, groupIn, rfl⟩ := List.mem_map.mp member
  obtain ⟨first, rest, rfl⟩ := List.exists_cons_of_ne_nil
    (List.ne_nil_of_mem_splitBy groupIn)
  exact ⟨first, mem_rows_of_group groupIn List.mem_cons_self, rfl⟩

/-- Consecutive rows form tables with different names. -/
theorem Consecutive.nodup_groupNames (consecutive : Consecutive (tableGroups rows)) :
    (groupNames rows).Nodup := by
  refine List.pairwise_map.mpr (consecutive.imp_of_mem ?_)
  intro left right leftIn rightIn apart same
  obtain ⟨row, left', rfl⟩ := List.exists_cons_of_ne_nil (List.ne_nil_of_mem_splitBy leftIn)
  obtain ⟨other, right', rfl⟩ := List.exists_cons_of_ne_nil (List.ne_nil_of_mem_splitBy rightIn)
  exact apart row List.mem_cons_self other List.mem_cons_self same

end Groups

section Enumeration

variable {Interner : Type} {schema : DatabaseSchema Interner}

/-- Where every table is enumerated, there are fewer tables than a `u16` counts. -/
theorem LosesNoTable.few [InternerOps Interner] {rows : List RawRow}
    (loses : LosesNoTable rows schema)
    (consecutive : Consecutive (tableGroups rows))
    (count : schema.tables.length = (tableGroups rows).length) :
    (tableGroups rows).length < u16Range := by
  obtain ⟨names, named, _, listed⟩ := loses.enumerated
  have inside : groupNames rows ⊆ names := fun name member =>
    (listed name).mpr (mem_groupNames member)
  have all := (List.subperm_of_subset consecutive.nodup_groupNames inside).length_le
  have same := (mapM_ok named).length_eq
  rw [length_groupNames] at all
  rw [DatabaseSchema.length_tableRefs, count] at same
  have cut := Nat.mod_lt (tableGroups rows).length (show 0 < u16Range by decide)
  omega

end Enumeration

section Rows

variable {Interner : Type} [InternerOps Interner] [LawfulInterner Interner]
variable {unstable : UnstableSort (TableMeta × Nat) Symbol} {rows : List RawRow}
variable {symbols : String → Symbol} {pools : SchemaPools} {resolved : List ResolvedFk}
variable {order : List Nat} {ordered : List TableMeta} {schema : DatabaseSchema Interner}

namespace BuiltFrom

/-- The table at a position has the name of a row of its group. -/
theorem exists_tableRow
    (built : BuiltFrom unstable rows symbols pools resolved order ordered schema) {index : Nat}
    (below : index < schema.tables.length) :
    ∃ old group row, order[index]? = some old ∧ (tableGroups rows)[old]? = some group ∧
      row ∈ group ∧ (TableRef.mk schema index).name = .ok row.tableName := by
  obtain ⟨old, group, place, here⟩ := built.exists_group below
  obtain ⟨row, member, named⟩ := built.exists_name place here
  exact ⟨old, group, row, place, here, member, named⟩

/-- Different positions have different names. -/
theorem index_eq (built : BuiltFrom unstable rows symbols pools resolved order ordered schema)
    (consecutive : Consecutive (tableGroups rows)) {index other : Nat} {name : String}
    (below : index < schema.tables.length) (otherBelow : other < schema.tables.length)
    (named : (TableRef.mk schema index).name = .ok name)
    (otherNamed : (TableRef.mk schema other).name = .ok name) : index = other := by
  obtain ⟨old, group, row, place, here, member, rowName⟩ := built.exists_tableRow below
  obtain ⟨later, more, last, there, moreHere, lastIn, lastName⟩ := built.exists_tableRow otherBelow
  have same : row.tableName = last.tableName :=
    Except.ok.inj ((rowName.symm.trans named).trans (otherNamed.symm.trans lastName))
  obtain rfl := consecutive.index_eq here moreHere member lastIn same
  have nodup : order.Nodup := built.order_perm.nodup_iff.mpr List.nodup_range
  obtain ⟨inside, first⟩ := List.getElem?_eq_some_iff.mp place
  obtain ⟨otherInside, second⟩ := List.getElem?_eq_some_iff.mp there
  exact (nodup.getElem_inj_iff).mp (first.trans second.symm)

/-- Every added table is enumerated once. -/
theorem enumerated (built : BuiltFrom unstable rows symbols pools resolved order ordered schema)
    (consecutive : Consecutive (tableGroups rows)) (few : (tableGroups rows).length < u16Range) :
    ∃ names, schema.tableRefs.mapM TableRef.name = .ok names ∧ names.Nodup ∧
      ∀ name, name ∈ names ↔ ∃ row ∈ rows, row.tableName = name := by
  have small : schema.tables.length < u16Range := built.tableCount ▸ few
  have each : ∀ table ∈ schema.tableRefs, ∃ name, table.name = .ok name := by
    intro table member
    obtain ⟨index, below, rfl⟩ := DatabaseSchema.exists_of_mem_tableRefs member
    obtain ⟨_, _, row, _, _, _, named⟩ := built.exists_tableRow below
    exact ⟨row.tableName, named⟩
  obtain ⟨names, success⟩ := exists_mapM_ok each
  refine ⟨names, success, ?_, ?_⟩
  · refine List.nodup_iff_getElem?_ne_getElem?.mpr ?_
    intro first second less inNames same
    have count := (mapM_ok success).length_eq
    rw [DatabaseSchema.length_tableRefs, Nat.mod_eq_of_lt small] at count
    have nameOf : ∀ (index : Nat) (name : String), names[index]? = some name →
        index < schema.tables.length ∧ (TableRef.mk schema index).name = .ok name := by
      intro index name here
      have below : index < schema.tables.length := by
        rw [count]
        exact (List.getElem?_eq_some_iff.mp here).1
      rcases mapM_getElem? success index with ⟨_, none⟩ | ⟨table, _, there, nameHere, named⟩
      · cases none.symm.trans here
      · cases (DatabaseSchema.tableRefs_getElem? below small).symm.trans there
        cases nameHere.symm.trans here
        exact ⟨below, named⟩
    have secondHere := List.getElem?_eq_getElem inNames
    obtain ⟨below, named⟩ := nameOf first _ (same.trans secondHere)
    obtain ⟨otherBelow, otherNamed⟩ := nameOf second _ secondHere
    exact absurd (built.index_eq consecutive below otherBelow named otherNamed) (Nat.ne_of_lt less)
  · intro name
    rw [mem_mapM_ok success]
    constructor
    · rintro ⟨table, member, named⟩
      obtain ⟨index, below, rfl⟩ := DatabaseSchema.exists_of_mem_tableRefs member
      obtain ⟨_, group, row, _, here, inGroup, rowName⟩ := built.exists_tableRow below
      exact ⟨row, mem_rows_of_group (List.mem_of_getElem? here) inGroup,
        Except.ok.inj (rowName.symm.trans named)⟩
    · rintro ⟨row, rowIn, rfl⟩
      obtain ⟨index, old, group, below, place, here, inGroup⟩ := built.exists_place rowIn
      exact ⟨⟨schema, index⟩,
        List.mem_of_getElem? (DatabaseSchema.tableRefs_getElem? below small),
        (built.accessors place here).1 row inGroup⟩

/-- Every added table is found by its name. -/
theorem found_table (built : BuiltFrom unstable rows symbols pools resolved order ordered schema)
    (few : (tableGroups rows).length < u16Range) {row : RawRow} (rowIn : row ∈ rows) :
    ∃ table, schema.table row.tableName = .ok (some table) ∧ table.name = .ok row.tableName := by
  have named := built.names.of_mem rowIn row.tableName_mem_strings
  have known : schema.getSymbol row.tableName = some (symbols row.tableName) :=
    (LawfulInterner.get_eq_some built.valid).mpr named
  have searchEq : schema.table row.tableName = schema.tableBySymbol (symbols row.tableName) := by
    rw [DatabaseSchema.table, known]
  obtain ⟨answer, answered, hit, miss⟩ := built.steps.tableBySymbol_ok (symbols row.tableName)
  cases answer with
  | some table =>
      obtain ⟨index, info, rfl, here, sameName⟩ := hit table rfl
      exact ⟨_, searchEq.trans answered, TableRef.name_of_meta here (sameName ▸ named)⟩
  | none =>
      obtain ⟨index, old, group, below, place, here, inGroup⟩ := built.exists_place rowIn
      obtain ⟨info, infoHere, hasTable⟩ :=
        built.steps.hasTable built.tables place (namedGroups_getElem? here)
      have small : schema.tables.length % u16Range = schema.tables.length :=
        Nat.mod_eq_of_lt (built.tableCount ▸ few)
      exact absurd (hasTable.name _ (List.mem_map_of_mem inGroup)).symm
        (miss rfl index info (by rw [small]; exact below) infoHere)

/-- The stored key of a key that resolves. -/
theorem leadsTo (built : BuiltFrom unstable rows symbols pools resolved order ordered schema)
    (consecutive : Consecutive (tableGroups rows)) (few : (tableGroups rows).length < u16Range)
    {row : RawRow} (rowIn : row ∈ rows) {fk : RawForeignKey String} (fkIn : fk ∈ row.foreignKeys)
    {old place : Nat} (foundEq : found unstable pools (symbols fk.referencedTable)
      (symbols fk.referencedColumn) = some (old, place)) :
    LeadsTo schema fk (finalOf order (fk.named symbols, old, place)) := by
  have named : ∀ text ∈ fk.strings, Names schema.interner (symbols text) text := fun text member =>
    built.names.of_mem rowIn (RawForeignKey.strings_subset fkIn member)
  obtain ⟨answer, answered⟩ :=
    built.steps.findColumn_ok built.holds (named_mem_rawKeys rowIn fkIn)
  have answerEq : answer = some (old, place) := by
    rw [← foundEq, found]
    exact (congrArg (fun run => run.toOption.join) answered).symm
  have resolves := (built.holds.findColumn_iff built.tables
    (by rw [namedGroups, List.length_map]; exact few) (built.consecutive consecutive) answered
    old).mp ⟨place, answerEq⟩
  obtain ⟨⟨group, here, other, otherIn, sameName⟩, _⟩ :=
    (built.resolvesTo_named rowIn fkIn old).mp resolves
  obtain ⟨below, position⟩ := built.getElem?_idxOf here
  have small : schema.tables.length < u16Range := built.tableCount ▸ few
  have fits : (finalOf order (fk.named symbols, old, place)).tableIndex = order.idxOf old :=
    Nat.mod_eq_of_lt (Nat.lt_trans below small)
  refine ⟨named _ (by simp [RawForeignKey.strings]), named _ (by simp [RawForeignKey.strings]),
    ⟨schema, order.idxOf old⟩, ?_, ?_⟩
  · rw [fits]
    exact DatabaseSchema.tableRefs_getElem? below small
  · rw [← sameName]
    exact (built.accessors position here).1 other otherIn

/-- Every stored key leads to the table that it was given with. -/
theorem keys_leadTo (built : BuiltFrom unstable rows symbols pools resolved order ordered schema)
    (consecutive : Consecutive (tableGroups rows)) (few : (tableGroups rows).length < u16Range) :
    ∃ kept, kept.Sublist (rows.flatMap Row.foreignKeys) ∧
      List.Forall₂ (LeadsTo schema) kept schema.foreignKeyPool := by
  have each : ∀ fks ⊆ rows.flatMap Row.foreignKeys, ∃ kept, kept.Sublist fks ∧
      List.Forall₂ (LeadsTo schema) kept
        (finalKeys (found unstable pools) order (fks.map (RawForeignKey.named symbols))) := by
    intro fks inside
    induction fks with
    | nil => exact ⟨[], .refl _, .nil⟩
    | cons fk fks ih =>
        obtain ⟨kept, sublist, leads⟩ := ih fun other member =>
          inside (List.mem_cons_of_mem _ member)
        obtain ⟨row, rowIn, fkIn⟩ := List.mem_flatMap.mp (inside List.mem_cons_self)
        rw [List.map_cons, finalKeys, List.filterMap_cons, keepKey]
        cases foundEq : found unstable pools (fk.named symbols).referencedTable
          (fk.named symbols).referencedColumn with
        | none => exact ⟨kept, sublist.cons _, leads⟩
        | some place =>
            exact ⟨fk :: kept, sublist.cons_cons _,
              .cons (built.leadsTo consecutive few rowIn fkIn foundEq) leads⟩
  have raw : rawKeys (namedGroups symbols rows) =
      (rows.flatMap Row.foreignKeys).map (RawForeignKey.named symbols) := by
    rw [rawKeys, flatten_namedGroups, List.flatMap_map, List.map_flatMap]
    rfl
  rw [built.steps.foreignKeyPool_eq built.holds, raw]
  exact each _ (List.Subset.refl _)

end BuiltFrom

/-- A build loses no table exactly when there are fewer than 2^16 of them. -/
theorem DatabaseSchemaBuilder.losesNoTable_iff {profile : Profile} {interner : Interner}
    {hash : SchemaHash} (valid : LawfulInterner.Valid interner)
    (storable : StorableAll Interner (rows.flatMap Row.strings))
    (consecutive : Consecutive (tableGroups rows))
    (success : buildRows unstable profile interner rows hash = .ok schema) :
    LosesNoTable rows schema ↔ (tableGroups rows).length < u16Range := by
  obtain ⟨_, symbols, pools, resolved, order, ordered, built⟩ := buildRows_ok valid storable success
  constructor
  · intro loses
    exact loses.few consecutive built.tableCount
  · intro few
    exact ⟨built.enumerated consecutive few, fun row rowIn => built.found_table few rowIn,
      built.keys_leadTo consecutive few⟩

end Rows

/-- No table of the posts is lost. -/
theorem losesNoTable_iff_posts : ∃ schema, buildStable ⟨.debug, fun _ => 0⟩ postRows = .ok schema ∧
    LosesNoTable postRows schema := by
  obtain ⟨schema, success⟩ := exists_of_isSome
    (show (buildStable ⟨.debug, fun _ => 0⟩ postRows).toOption.isSome = true by decide +kernel)
  obtain ⟨interner, valid, built⟩ := DatabaseSchema.buildNew_ok success
  exact ⟨schema, success, (DatabaseSchemaBuilder.losesNoTable_iff valid (fun _ _ => Or.inl rfl)
    (by decide) built).mpr (by decide)⟩

section Words

open StringInterner

/-- Tables of one column each, named by the first words. -/
def wordTables (count : Nat) : List RawRow :=
  (List.range count).map fun number => plainRow (word number) "a" false

theorem recordsSize_wordTables (count : Nat) :
    recordsSize ((wordTables count).flatMap Row.strings) = 16 * count := by
  induction count with
  | zero => rfl
  | succ count ih =>
      have strings : (plainRow (word count) "a" false).strings = [word count] ++ ["a"] := rfl
      have named : recordsSize [word count] = 8 := by
        rw [recordsSize_singleton, byteLength_word]
        rfl
      have column : recordsSize ["a"] = 8 := by decide
      rw [wordTables] at ih ⊢
      rw [List.range_succ, List.map_append, List.flatMap_append, recordsSize_append, ih,
        List.map_singleton, List.flatMap_singleton, strings, recordsSize_append, named, column]
      omega

theorem wordTables_distinct {count : Nat} (few : count ≤ 2 ^ 28) :
    (wordTables count).Pairwise fun row other => row.tableName ≠ other.tableName := by
  refine List.pairwise_map.mpr (List.nodup_range.imp_of_mem ?_)
  intro number other member otherMember different same
  have small := List.mem_range.mp member
  have otherSmall := List.mem_range.mp otherMember
  exact different (word_injective (by omega) (by omega) same)

/-- Rows with names of their own are tables of their own. -/
theorem tableGroups_of_distinct {rows : List RawRow}
    (distinct : rows.Pairwise fun row other => row.tableName ≠ other.tableName) :
    tableGroups rows = rows.map fun row => [row] := by
  have whole : rows = (rows.map fun row => [row]).flatten := by
    rw [← List.flatMap_def, List.flatMap_singleton']
  refine List.splitBy_eq_iff.mpr ⟨whole, by simp, by simp, ?_⟩
  refine List.Pairwise.isChain (List.pairwise_map.mpr (distinct.imp ?_))
  intro row other different
  exact ⟨List.cons_ne_nil _ _, List.cons_ne_nil _ _, decide_eq_false different⟩

/-- With 2^16 tables none is enumerated. -/
theorem not_losesNoTable_words : ∃ schema,
    buildStable ⟨.release, fun _ => 0⟩ (wordTables u16Range) = .ok schema ∧
      Consecutive (tableGroups (wordTables u16Range)) ∧ schema.tableRefs = [] ∧
        ¬ LosesNoTable (wordTables u16Range) schema := by
  have fits : recordsSize ((wordTables u16Range).flatMap Row.strings) ≤ 2 ^ 20 := by
    rw [recordsSize_wordTables]
    decide
  have distinct : (wordTables u16Range).Pairwise fun row other => row.tableName ≠ other.tableName :=
    wordTables_distinct (by decide)
  have groups := tableGroups_of_distinct distinct
  have consecutive : Consecutive (tableGroups (wordTables u16Range)) := by
    rw [groups]
    refine List.pairwise_map.mpr (distinct.imp ?_)
    intro row other different first firstIn second secondIn
    rwa [List.mem_singleton.mp firstIn, List.mem_singleton.mp secondIn]
  have many : (tableGroups (wordTables u16Range)).length = u16Range := by
    rw [groups, List.length_map, wordTables, List.length_map, List.length_range]
  obtain ⟨schema, success⟩ := DatabaseSchema.buildNew_returns (.stable _ _)
    (show (Build.mk .release fun _ => 0).profile = .release from rfl) (fun _ => 0) 1 fits
    ⟨List.replicate 32 0, rfl⟩
  obtain ⟨interner, valid, built⟩ := DatabaseSchema.buildNew_ok success
  obtain ⟨_, symbols, pools, resolved, order, ordered, from'⟩ :=
    DatabaseSchemaBuilder.buildRows_ok valid (storableAll_of_fits fits) built
  have count := from'.tableCount
  refine ⟨schema, success, consecutive, ?_, fun loses => ?_⟩
  · refine List.length_eq_zero_iff.mp ?_
    rw [DatabaseSchema.length_tableRefs, count, many, Nat.mod_self]
  · have few := loses.few consecutive count
    rw [many] at few
    exact Nat.lt_irrefl _ few

end Words

end Boomerang
