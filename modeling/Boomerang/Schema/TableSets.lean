import Boomerang.Foundation.Marking
import Boomerang.Schema.ForeignKeys
import Boomerang.Schema.TableCount

/-!
# The independent tables and the leaves of a built schema

A table is independent when its foreign keys lead nowhere but to itself, and a leaf when
no other table references it. Both lists are read from the stored indices; on a built
schema they say the same of the rows that were added.
-/

namespace Boomerang

open Foundation

variable {Interner : Type}

namespace DatabaseSchema

/-- The foreign keys of a table can be read, and they lead to tables. -/
structure KeysLead (schema : DatabaseSchema Interner) (keys : Nat → List ForeignKey) : Prop where
  few : schema.tables.length < u16Range
  read : ∀ index < schema.tables.length, (TableRef.mk schema index).foreignKeys = .ok (keys index)
  inside : ∀ index < schema.tables.length, ∀ fk ∈ keys index, fk.table < schema.tables.length

variable {schema : DatabaseSchema Interner} {keys : Nat → List ForeignKey}

/-- The tables that are enumerated. -/
theorem KeysLead.mem_tableRefs (lead : KeysLead schema keys) {table : TableRef Interner} :
    table ∈ schema.tableRefs ↔ ∃ index < schema.tables.length, table = ⟨schema, index⟩ := by
  refine ⟨exists_of_mem_tableRefs, ?_⟩
  rintro ⟨index, below, rfl⟩
  exact List.mem_of_getElem? (tableRefs_getElem? below lead.few)

/-- The independent tables, from the keys of each. -/
theorem KeysLead.independentTables_ok (lead : KeysLead schema keys) :
    schema.independentTables = .ok (schema.tableRefs.filter fun table =>
      (keys table.index).all fun fk => fk.table = table.index) := by
  have each : ∀ table ∈ schema.tableRefs, (do
      let fks ← table.foreignKeys
      return if fks.all fun fk => fk.table = table.index then some table else none) =
        (Except.ok (Option.guard
          (fun table => (keys table.index).all fun fk => fk.table = table.index) table) :
            Except Fault _) := by
    intro table member
    obtain ⟨index, below, rfl⟩ := lead.mem_tableRefs.mp member
    exact bind_eq_ok.mpr ⟨_, lead.read index below, rfl⟩
  rw [independentTables, filterMapM_of_forall each, List.filterMap_eq_filter]

/-- A foreign key to another table marks it. -/
theorem markReferenced_adds {source count : Nat} {fk : ForeignKey} (inside : fk.table < count) :
    AddsMarks count (fun before => markReferenced source before fk)
      fun place => fk.table ≠ source ∧ fk.table = place := by
  intro before length
  by_cases own : fk.table = source
  · obtain ⟨after, success, kept, marks⟩ := AddsMarks.keep Fault before length
    refine ⟨after, (if_neg (not_not.mpr own)).trans success, kept, fun place => ?_⟩
    exact (marks place).trans (or_congr_right (by simp [own]))
  · obtain ⟨after, success, kept, marks⟩ := AddsMarks.set Fault inside before length
    have stored : storeAt before fk.table true = .ok (before.set fk.table true) :=
      if_pos (length ▸ inside)
    refine ⟨after, (if_pos own).trans (stored.trans success), kept, fun place => ?_⟩
    exact (marks place).trans (or_congr_right (by simp [own]))

/-- The leaves, from the keys of every table. -/
theorem KeysLead.leafTables_ok (lead : KeysLead schema keys) :
    ∃ leaves : List (TableRef Interner), schema.leafTables = .ok leaves ∧
      leaves.Sublist schema.tableRefs ∧ ∀ index < schema.tables.length,
        (TableRef.mk schema index ∈ leaves ↔ ∀ source < schema.tables.length,
          ∀ fk ∈ keys source, fk.table = index → source = index) := by
  have adds : AddsMarks schema.tables.length (fun before => schema.tables.zipIdx.foldlM
      (fun referenced entry => do
        let fks ← ranged schema.foreignKeyPool entry.1.fkStart entry.1.fkLen
        fks.foldlM (markReferenced entry.2) referenced) before)
      fun place => ∃ entry ∈ schema.tables.zipIdx,
        ∃ fk ∈ keys entry.2, fk.table ≠ entry.2 ∧ fk.table = place := by
    refine AddsMarks.foldlM ?_
    rintro ⟨info, index⟩ member before length
    have here := List.mem_zipIdx_iff_getElem?.mp member
    have below := (List.getElem?_eq_some_iff.mp here).1
    obtain ⟨_, read, ranged⟩ := bind_eq_ok.mp (lead.read index below)
    cases (indexed_eq_ok.mp read).symm.trans here
    have each : ∀ fk ∈ keys index, AddsMarks schema.tables.length
        (fun before => markReferenced index before fk)
        fun place => fk.table ≠ index ∧ fk.table = place := fun fk fkIn =>
      markReferenced_adds (lead.inside index below fk fkIn)
    obtain ⟨after, marked, kept, marks⟩ := AddsMarks.foldlM each before length
    exact ⟨after, bind_eq_ok.mpr ⟨_, ranged, marked⟩, kept, marks⟩
  obtain ⟨marks, success, length, marked⟩ := adds.ofNone
  have tables : ∀ place < marks.length, schema.tableAt place = some (TableRef.mk schema place) := by
    intro place inside
    have below : place < schema.tables.length := length ▸ inside
    rw [tableAt, if_pos below, Nat.mod_eq_of_lt (Nat.lt_trans below lead.few)]
  refine ⟨((List.range marks.length).filter (isUnmarked marks)).map (TableRef.mk schema),
    bind_eq_ok.mpr ⟨marks, success, congrArg Except.ok (filterMap_unmarked tables)⟩, ?_, ?_⟩
  · rw [tableRefs, Nat.mod_eq_of_lt lead.few, length]
    exact List.filter_sublist.map _
  · intro index below
    have kept : TableRef.mk schema index ∈
        ((List.range marks.length).filter (isUnmarked marks)).map (TableRef.mk schema) ↔
          ¬ marks[index]? = some true := by
      rw [← isUnmarked_iff, List.mem_map]
      constructor
      · rintro ⟨place, placeIn, same⟩
        cases same
        exact (List.mem_filter.mp placeIn).2
      · exact fun free => ⟨index,
          List.mem_filter.mpr ⟨List.mem_range.mpr (length.symm ▸ below), free⟩, rfl⟩
    rw [kept, marked]
    constructor
    · rintro free source inside fk member rfl
      by_contra apart
      refine free ⟨(schema.tables[source], source), ?_, fk, member,
        fun same => apart same.symm, rfl⟩
      exact List.mem_zipIdx_iff_getElem?.mpr (List.getElem?_eq_getElem inside)
    · rintro alone ⟨⟨info, source⟩, entryIn, fk, member, apart, rfl⟩
      have here := List.mem_zipIdx_iff_getElem?.mp entryIn
      exact apart (alone source (List.getElem?_eq_some_iff.mp here).1 fk member rfl).symm

end DatabaseSchema

section References

/-- A row of the table `source` has a foreign key to the table `target` that resolves. -/
def ReferencesName (rows : List RawRow) (source target : String) : Prop :=
  ∃ row ∈ rows, row.tableName = source ∧
    ∃ fk ∈ row.foreignKeys, fk.Resolvable rows ∧ fk.referencedTable = target

theorem ReferencesName.added {rows : List RawRow} {source target : String}
    (references : ReferencesName rows source target) :
    (∃ row ∈ rows, row.tableName = source) ∧ ∃ row ∈ rows, row.tableName = target := by
  obtain ⟨row, rowIn, named, fk, _, ⟨other, otherIn, sameTable, _⟩, rfl⟩ := references
  exact ⟨⟨row, rowIn, named⟩, other, otherIn, sameTable⟩

theorem exists_of_forall₂ {First Second : Type} {Related : First → Second → Prop}
    {items : List First} {others : List Second} (each : List.Forall₂ Related items others) :
    (∀ other ∈ others, ∃ item ∈ items, Related item other) ∧
      ∀ item ∈ items, ∃ other ∈ others, Related item other := by
  induction each with
  | nil => simp
  | cons head _ ih =>
      refine ⟨fun other member => ?_, fun item member => ?_⟩
      · rcases List.mem_cons.mp member with rfl | later
        · exact ⟨_, List.mem_cons_self, head⟩
        · obtain ⟨item, itemIn, related⟩ := ih.1 other later
          exact ⟨item, List.mem_cons_of_mem _ itemIn, related⟩
      · rcases List.mem_cons.mp member with rfl | later
        · exact ⟨_, List.mem_cons_self, head⟩
        · obtain ⟨other, otherIn, related⟩ := ih.2 item later
          exact ⟨other, List.mem_cons_of_mem _ otherIn, related⟩

end References

section Rows

variable [InternerOps Interner]

/-- The tables are the added ones. Those listed as independent reference no other table,
and those listed as leaves are referenced by no other table. -/
structure ListsTables (rows : List RawRow) (schema : DatabaseSchema Interner) : Prop where
  enumerated : ∃ names, schema.tableRefs.mapM TableRef.name = .ok names ∧ names.Nodup ∧
    ∀ name, name ∈ names ↔ ∃ row ∈ rows, row.tableName = name
  independent : ∃ tables, schema.independentTables = .ok tables ∧
    tables.Sublist schema.tableRefs ∧
    ∀ table ∈ schema.tableRefs, ∀ name, table.name = .ok name →
      (table ∈ tables ↔ ∀ target, ReferencesName rows name target → target = name)
  leaves : ∃ tables, schema.leafTables = .ok tables ∧
    tables.Sublist schema.tableRefs ∧
    ∀ table ∈ schema.tableRefs, ∀ name, table.name = .ok name →
      (table ∈ tables ↔ ∀ source, ReferencesName rows source name → source = name)

/-- The stored keys of a table lead to tables, to those that the rows of its name
reference. -/
structure KeysOfTable (rows : List RawRow) (schema : DatabaseSchema Interner) (index : Nat)
    (fks : List ForeignKey) : Prop where
  read : (TableRef.mk schema index).foreignKeys = .ok fks
  inside : ∀ fk ∈ fks, fk.table < schema.tables.length
  leads : ∀ name other target, (TableRef.mk schema index).name = .ok name →
    (TableRef.mk schema other).name = .ok target →
      ((∃ fk ∈ fks, fk.table = other) ↔ ReferencesName rows name target)

theorem TableRef.lt_of_name {schema : DatabaseSchema Interner} {index : Nat} {name : String}
    (named : (TableRef.mk schema index).name = .ok name) : index < schema.tables.length := by
  obtain ⟨info, here, _⟩ := bind_eq_ok.mp named
  exact (List.getElem?_eq_some_iff.mp (indexed_eq_ok.mp here)).1

variable [LawfulInterner Interner]
variable {unstable : UnstableSort (TableMeta × Nat) Symbol} {rows : List RawRow}
variable {symbols : String → Symbol} {pools : SchemaPools} {resolved : List ResolvedFk}
variable {order : List Nat} {ordered : List TableMeta} {schema : DatabaseSchema Interner}

namespace BuiltFrom

/-- An added table has a position. -/
theorem exists_index (built : BuiltFrom unstable rows symbols pools resolved order ordered schema)
    {name : String} (added : ∃ row ∈ rows, row.tableName = name) :
    ∃ index < schema.tables.length, (TableRef.mk schema index).name = .ok name := by
  obtain ⟨row, rowIn, rfl⟩ := added
  obtain ⟨index, old, group, below, place, here, inGroup⟩ := built.exists_place rowIn
  exact ⟨index, below, (built.accessors place here).1 row inGroup⟩

/-- The rows of the group of a table are those of its name. -/
theorem mem_group_iff (built : BuiltFrom unstable rows symbols pools resolved order ordered schema)
    (consecutive : Consecutive (tableGroups rows)) {index old : Nat} {group : List RawRow}
    (place : order[index]? = some old) (here : (tableGroups rows)[old]? = some group)
    {name : String} (named : (TableRef.mk schema index).name = .ok name) (row : RawRow) :
    row ∈ group ↔ row ∈ rows ∧ row.tableName = name := by
  have ofGroup : ∀ other ∈ group, other.tableName = name := fun other member =>
    Except.ok.inj (((built.accessors place here).1 other member).symm.trans named)
  constructor
  · exact fun member => ⟨mem_rows_of_group (List.mem_of_getElem? here) member, ofGroup row member⟩
  · rintro ⟨rowIn, sameName⟩
    obtain ⟨first, firstIn, _⟩ := built.exists_name place here
    obtain ⟨_, _, other, _, _, there, inOther⟩ := built.exists_place rowIn
    obtain rfl := consecutive.index_eq there here inOther firstIn
      (sameName.trans (ofGroup first firstIn).symm)
    cases there.symm.trans here
    exact inOther

/-- The stored keys of a table lead to the tables that its rows reference. -/
theorem exists_keysOf (built : BuiltFrom unstable rows symbols pools resolved order ordered schema)
    (narrow : Narrow (tableGroups rows)) (consecutive : Consecutive (tableGroups rows))
    {index : Nat} (below : index < schema.tables.length) :
    ∃ fks, KeysOfTable rows schema index fks := by
  obtain ⟨old, group, place, here⟩ := built.exists_group below
  obtain ⟨_, _, read⟩ := built.table narrow place here
  have stored : ∀ fk, fk ∈ finalKeys (found unstable pools) order
      ((group.map (Row.named symbols)).flatMap Row.foreignKeys) ↔ ∃ row ∈ group,
        fk ∈ finalKeys (found unstable pools) order (row.named symbols).foreignKeys := by
    intro fk
    rw [List.flatMap_map, finalKeys_flatMap, List.mem_flatten]
    simp
  have rowKeys : ∀ row ∈ group, List.Forall₂ (IsKeyOf schema)
      (row.foreignKeys.filter fun fk => fk.Resolvable rows)
      (finalKeys (found unstable pools) order (row.named symbols).foreignKeys) := fun row member =>
    built.keys_ok narrow consecutive (mem_rows_of_group (List.mem_of_getElem? here) member)
  refine ⟨_, read, ?_, ?_⟩
  · intro fk member
    obtain ⟨row, rowIn, fkIn⟩ := (stored fk).mp member
    obtain ⟨raw, _, isKey⟩ := (exists_of_forall₂ (rowKeys row rowIn)).1 fk fkIn
    exact TableRef.lt_of_name isKey.table
  · intro name other target named otherNamed
    have ofName := built.mem_group_iff consecutive place here named
    constructor
    · rintro ⟨fk, member, rfl⟩
      obtain ⟨row, rowIn, fkIn⟩ := (stored fk).mp member
      obtain ⟨raw, rawIn, isKey⟩ := (exists_of_forall₂ (rowKeys row rowIn)).1 fk fkIn
      obtain ⟨rawIn, resolvable⟩ := List.mem_filter.mp rawIn
      obtain ⟨inRows, sameName⟩ := (ofName row).mp rowIn
      exact ⟨row, inRows, sameName, raw, rawIn, of_decide_eq_true resolvable,
        Except.ok.inj (isKey.table.symm.trans otherNamed)⟩
    · rintro ⟨row, inRows, sameName, raw, rawIn, resolvable, rfl⟩
      have rowIn := (ofName row).mpr ⟨inRows, sameName⟩
      obtain ⟨fk, fkIn, isKey⟩ := (exists_of_forall₂ (rowKeys row rowIn)).2 raw
        (List.mem_filter.mpr ⟨rawIn, decide_eq_true resolvable⟩)
      exact ⟨fk, (stored fk).mpr ⟨row, rowIn, fkIn⟩, built.index_eq consecutive
        (TableRef.lt_of_name isKey.table) (TableRef.lt_of_name otherNamed) isKey.table otherNamed⟩

/-- The stored keys of every table are those of the rows of its name. -/
theorem exists_keys (built : BuiltFrom unstable rows symbols pools resolved order ordered schema)
    (narrow : Narrow (tableGroups rows)) (consecutive : Consecutive (tableGroups rows)) :
    ∃ keys : Nat → List ForeignKey, ∀ index < schema.tables.length,
      KeysOfTable rows schema index (keys index) := by
  have each : ∀ index, ∃ fks, index < schema.tables.length → KeysOfTable rows schema index fks := by
    intro index
    by_cases below : index < schema.tables.length
    · obtain ⟨fks, ofTable⟩ := built.exists_keysOf narrow consecutive below
      exact ⟨fks, fun _ => ofTable⟩
    · exact ⟨[], fun impossible => absurd impossible below⟩
  choose keys ofTable using each
  exact ⟨keys, ofTable⟩

theorem keysLead (built : BuiltFrom unstable rows symbols pools resolved order ordered schema)
    (few : (tableGroups rows).length < u16Range) {keys : Nat → List ForeignKey}
    (ofTable : ∀ index < schema.tables.length, KeysOfTable rows schema index (keys index)) :
    DatabaseSchema.KeysLead schema keys :=
  ⟨built.tableCount ▸ few, fun index below => (ofTable index below).read,
    fun index below => (ofTable index below).inside⟩

/-- A table's own keys lead nowhere else exactly if its rows reference no other table. -/
theorem independent_iff
    (built : BuiltFrom unstable rows symbols pools resolved order ordered schema)
    (consecutive : Consecutive (tableGroups rows)) {index : Nat} {fks : List ForeignKey}
    (ofTable : KeysOfTable rows schema index fks) {name : String}
    (named : (TableRef.mk schema index).name = .ok name) :
    (∀ fk ∈ fks, fk.table = index) ↔
      ∀ target, ReferencesName rows name target → target = name := by
  constructor
  · intro own target references
    obtain ⟨other, _, otherNamed⟩ := built.exists_index references.added.2
    obtain ⟨fk, fkIn, rfl⟩ := (ofTable.leads name other target named otherNamed).mpr references
    rw [own fk fkIn] at otherNamed
    exact Except.ok.inj (otherNamed.symm.trans named)
  · intro own fk fkIn
    have inside := ofTable.inside fk fkIn
    obtain ⟨_, _, row, _, _, _, otherNamed⟩ := built.exists_tableRow inside
    have references := (ofTable.leads name fk.table _ named otherNamed).mp ⟨fk, fkIn, rfl⟩
    rw [own _ references] at otherNamed
    exact built.index_eq consecutive inside (TableRef.lt_of_name named) otherNamed named

/-- The keys of no other table lead to a table exactly if no other rows reference it. -/
theorem leaf_iff (built : BuiltFrom unstable rows symbols pools resolved order ordered schema)
    (consecutive : Consecutive (tableGroups rows)) {keys : Nat → List ForeignKey}
    (ofTable : ∀ index < schema.tables.length, KeysOfTable rows schema index (keys index))
    {index : Nat} {name : String} (named : (TableRef.mk schema index).name = .ok name) :
    (∀ source < schema.tables.length, ∀ fk ∈ keys source, fk.table = index → source = index) ↔
      ∀ source, ReferencesName rows source name → source = name := by
  constructor
  · intro alone source references
    obtain ⟨other, below, otherNamed⟩ := built.exists_index references.added.1
    obtain ⟨fk, fkIn, leads⟩ :=
      ((ofTable other below).leads source index name otherNamed named).mpr references
    rw [alone other below fk fkIn leads] at otherNamed
    exact Except.ok.inj (otherNamed.symm.trans named)
  · intro alone source below fk fkIn leads
    obtain ⟨_, _, row, _, _, _, otherNamed⟩ := built.exists_tableRow below
    have references :=
      ((ofTable source below).leads _ index name otherNamed named).mp ⟨fk, fkIn, leads⟩
    rw [alone _ references] at otherNamed
    exact built.index_eq consecutive below (TableRef.lt_of_name named) otherNamed named

end BuiltFrom

/-- The lists of independent tables and of leaves are those of the added rows. -/
theorem DatabaseSchemaBuilder.buildRows_listsTables {profile : Profile} {interner : Interner}
    {hash : SchemaHash} (valid : LawfulInterner.Valid interner)
    (storable : StorableAll Interner (rows.flatMap Row.strings))
    (consecutive : Consecutive (tableGroups rows)) (narrow : Narrow (tableGroups rows))
    (success : buildRows unstable profile interner rows hash = .ok schema) :
    ListsTables rows schema := by
  obtain ⟨_, symbols, pools, resolved, order, ordered, built⟩ := buildRows_ok valid storable success
  obtain ⟨keys, ofTable⟩ := built.exists_keys narrow consecutive
  have lead := built.keysLead narrow.tables ofTable
  refine ⟨built.enumerated consecutive narrow.tables, ?_, ?_⟩
  · refine ⟨_, lead.independentTables_ok, List.filter_sublist, ?_⟩
    intro table member name named
    obtain ⟨index, below, rfl⟩ := lead.mem_tableRefs.mp member
    rw [List.mem_filter, and_iff_right member, List.all_eq_true,
      ← built.independent_iff consecutive (ofTable index below) named]
    simp only [decide_eq_true_eq]
  · obtain ⟨leaves, success, sublist, listed⟩ := lead.leafTables_ok
    refine ⟨leaves, success, sublist, ?_⟩
    intro table member name named
    obtain ⟨index, below, rfl⟩ := lead.mem_tableRefs.mp member
    exact (listed index below).trans (built.leaf_iff consecutive ofTable named)

/-- The independent tables and the leaves of the posts. -/
theorem buildRows_listsTables_posts :
    ∃ schema, buildStable ⟨.debug, fun _ => 0⟩ postRows = .ok schema ∧
      ListsTables postRows schema := by
  obtain ⟨schema, success⟩ := exists_of_isSome
    (show (buildStable ⟨.debug, fun _ => 0⟩ postRows).toOption.isSome = true by decide +kernel)
  obtain ⟨interner, valid, built⟩ := DatabaseSchema.buildNew_ok success
  have storable : StorableAll (StringInterner ⟨.debug, fun _ => 0⟩)
      (postRows.flatMap Row.strings) := fun _ _ => Or.inl rfl
  have narrow : Narrow (tableGroups postRows) := ⟨by decide, by decide, by decide⟩
  exact ⟨schema, success, DatabaseSchemaBuilder.buildRows_listsTables valid storable (by decide)
    narrow built⟩

end Rows

end Boomerang
