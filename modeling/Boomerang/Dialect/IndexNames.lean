import Boomerang.Dialect.Constraints
import Boomerang.Dialect.Plan
import Boomerang.Dialect.UniqueIndexes

/-!
# The names of the unique indexes

The name of an index joins those of the table and the column by an underscore, which both
of them may hold. Where a table is called like another with an underscore and a word, the
word can belong to either name.
-/

namespace Boomerang

open Foundation SqliteDatabase

section Joining

variable {Letter : Type} {sep : Letter} {front back otherFront otherBack : List Letter}

/-- Two texts joined by a separator are two others joined by it where they are the same, or
where a word can be cut off on either side. -/
theorem append_sep_eq_append_sep : front ++ sep :: back = otherFront ++ sep :: otherBack ↔
    (front = otherFront ∧ back = otherBack) ∨
      (∃ word, otherFront = front ++ sep :: word ∧ back = word ++ sep :: otherBack) ∨
        ∃ word, front = otherFront ++ sep :: word ∧ otherBack = word ++ sep :: back := by
  have longer : ∀ {back rest behind : List Letter}, sep :: back = rest ++ sep :: behind →
      (rest = [] ∧ back = behind) ∨ ∃ word, rest = sep :: word ∧ back = word ++ sep :: behind := by
    intro back rest behind same
    cases rest with
    | nil => exact Or.inl ⟨rfl, (List.cons.inj same).2⟩
    | cons first word =>
        obtain ⟨rfl, tails⟩ := List.cons.inj same
        exact Or.inr ⟨word, rfl, tails⟩
  constructor
  · intro same
    rcases List.append_eq_append_iff.mp same with ⟨rest, fronts, backs⟩ | ⟨rest, fronts, backs⟩
    · rcases longer backs with ⟨rfl, sameBack⟩ | ⟨word, rfl, behind⟩
      · exact Or.inl ⟨by rw [fronts, List.append_nil], sameBack⟩
      · exact Or.inr (Or.inl ⟨word, fronts, behind⟩)
    · rcases longer backs with ⟨rfl, sameBack⟩ | ⟨word, rfl, behind⟩
      · exact Or.inl ⟨by rw [fronts, List.append_nil], sameBack.symm⟩
      · exact Or.inr (Or.inr ⟨word, fronts, behind⟩)
  · rintro (⟨rfl, rfl⟩ | ⟨word, rfl, rfl⟩ | ⟨word, rfl, rfl⟩) <;> simp

end Joining

section Names

/-- The letters of a name as SQLite compares it. -/
def lowered (name : String) : List Char := (asciiLower name).toList

/-- The table of the second pair is called like that of the first with an underscore and a
word, and the column of the first like that of the second behind the word. -/
def Overlap (left right : String × String) : Prop :=
  ∃ word, lowered right.1 = lowered left.1 ++ '_' :: word ∧
    lowered left.2 = word ++ '_' :: lowered right.2

theorem lowered_append (front back : String) :
    lowered (front ++ back) = lowered front ++ lowered back := by
  rw [lowered, asciiLower, String.toList_ofList, String.toList_append, List.map_append, lowered,
    lowered, asciiLower, asciiLower, String.toList_ofList, String.toList_ofList]

/-- The index for a table and a column. -/
def pairIndex (pair : String × String) : UniqueIndex :=
  ⟨uniqueIndexName pair.1 pair.2, pair.1, pair.2⟩

/-- Two indexes have one name where their pairs are the same or overlap. -/
theorem pairIndex_key_eq {left right : String × String} :
    (pairIndex left).key = (pairIndex right).key ↔
      (lowered left.1 = lowered right.1 ∧ lowered left.2 = lowered right.2) ∨
        Overlap left right ∨ Overlap right left := by
  have letters : ∀ pair, (pairIndex pair).key.toList =
      lowered "__uniq_" ++ (lowered pair.1 ++ '_' :: lowered pair.2 ++ lowered "__") := by
    intro pair
    have underscore : lowered "_" = ['_'] := by decide
    change lowered (uniqueIndexName pair.1 pair.2) = _
    simp only [uniqueIndexName, lowered_append, List.append_assoc, underscore,
      List.cons_append, List.nil_append]
  rw [← String.toList_inj, letters, letters, List.append_cancel_left_eq,
    List.append_cancel_right_eq, append_sep_eq_append_sep]
  rfl

end Names

section Emission

variable {hashing : HashOrder} {tables : List TargetTable} {existing : Existing}
variable {hash : SchemaHash}

/-- A unique column that is added to a live table: the table and the column by name. -/
def AddsUnique (tables : List TargetTable) (existing : Existing) (pair : String × String) : Prop :=
  ∃ target, (tables.find? fun other => other.name = pair.1) = some target ∧
    ∃ live, existing.lookup pair.1 = some live ∧ rebuilds target live = false ∧
      ∃ column ∈ addedColumns target live, column.isUnique = true ∧ column.name = pair.2

/-- The batch creates an index for every unique column that is added, and for no other. -/
theorem statement_mem_alterDdl {index : UniqueIndex} :
    index.statement ∈ alterDdl hashing tables existing hash ↔
      ∃ pair, AddsUnique tables existing pair ∧ index = pairIndex pair := by
  constructor
  · intro member
    obtain ⟨target, first, live, known, alters, column, added, unique, same⟩ :=
      index_of_mem_alterDdl member
    exact ⟨(target.name, column.name), ⟨target, first, live, known, alters, column, added, unique,
      rfl⟩, same⟩
  · rintro ⟨pair, ⟨target, first, live, known, alters, column, added, unique, sameColumn⟩, rfl⟩
    refine mem_alterDdl_of_mem first ?_
    have sameTable : target.name = pair.1 := by simpa using List.find?_some first
    rw [known, writeAlterTable, if_neg (Bool.eq_false_iff.mp alters)]
    refine List.mem_append_left _ (List.mem_flatMap.mpr ⟨column, added, ?_⟩)
    rw [writeAddColumn, if_pos unique, sameTable, sameColumn]
    exact List.mem_cons_of_mem _ (List.mem_singleton_self _)

/-- The indexes for two columns have two names, and after the batch has run on a file
without indexes of these names every unique column that was added has its index. -/
structure GetsIndexes (hashing : HashOrder) (tables : List TargetTable) (existing : Existing)
    (hash : SchemaHash) : Prop where
  differ : ∀ {left right : String × String},
    (pairIndex left).statement ∈ alterDdl hashing tables existing hash →
    (pairIndex right).statement ∈ alterDdl hashing tables existing hash → left ≠ right →
      (pairIndex left).key ≠ (pairIndex right).key
  indexed : ∀ {Cells : Type} {file next : SqliteFile Cells},
    collect file.introspect = existing →
    (∀ index : UniqueIndex, index.statement ∈ alterDdl hashing tables existing hash →
      ∀ other ∈ file.indexes.items, other.key ≠ index.key) →
    Steps SqliteFile.Step file (alterDdl hashing tables existing hash) next →
    ∀ {pair}, (pairIndex pair).statement ∈ alterDdl hashing tables existing hash →
      pairIndex pair ∈ next.indexes.items

theorem pairIndex_injective : Function.Injective pairIndex := by
  intro left right same
  obtain ⟨_, sameTable, sameColumn⟩ := UniqueIndex.mk.inj same
  exact Prod.ext sameTable sameColumn

/-- The unique columns that are added get their indexes exactly if no two of them are the
same up to case or overlap. -/
theorem getsIndexes_iff : GetsIndexes hashing tables existing hash ↔
    ∀ left right, AddsUnique tables existing left → AddsUnique tables existing right →
      left ≠ right → ¬ Overlap left right ∧
        ¬ (lowered left.1 = lowered right.1 ∧ lowered left.2 = lowered right.2) := by
  have emits : ∀ {pair}, AddsUnique tables existing pair →
      (pairIndex pair).statement ∈ alterDdl hashing tables existing hash :=
    fun adds => statement_mem_alterDdl.mpr ⟨_, adds, rfl⟩
  constructor
  · intro gets left right leftAdds rightAdds unequal
    have names := gets.differ (emits leftAdds) (emits rightAdds) unequal
    rw [ne_eq, pairIndex_key_eq] at names
    exact ⟨fun overlap => names (Or.inr (Or.inl overlap)), fun same => names (Or.inl same)⟩
  · intro apart
    have distinct : DistinctIndexes (alterDdl hashing tables existing hash) := by
      intro index other here there sameKey
      obtain ⟨left, leftAdds, rfl⟩ := statement_mem_alterDdl.mp here
      obtain ⟨right, rightAdds, rfl⟩ := statement_mem_alterDdl.mp there
      by_contra unequal
      have unequal : left ≠ right := fun same => unequal (congrArg pairIndex same)
      rcases pairIndex_key_eq.mp sameKey with same | overlap | overlap
      · exact (apart left right leftAdds rightAdds unequal).2 same
      · exact (apart left right leftAdds rightAdds unequal).1 overlap
      · exact (apart right left rightAdds leftAdds unequal.symm).1 overlap
    refine ⟨?_, ?_⟩
    · intro left right here there unequal sameKey
      exact unequal (pairIndex_injective (distinct _ _ here there sameKey))
    · rintro _ file next rfl fresh run pair member
      exact (indexes_iff_distinct run fresh).mpr distinct _ member

end Emission

section Samples

/-- Two tables, and the same with a unique column each. -/
def keyedRows : List RawRow := [plainRow "a" "id" true, plainRow "a_b" "id" true]

def uniqueRows : List RawRow :=
  [plainRow "a" "id" true, { plainRow "a" "b_c" false with isUnique := true },
    plainRow "a_b" "id" true, { plainRow "a_b" "c" false with isUnique := true }]

/-- Two columns are added, and one of them gets an index. -/
theorem not_getsIndexes_underscores :
    ∃ (old schema : DatabaseSchema (StringInterner ⟨.debug, fun _ => 0⟩))
      (oldTables tables : List TargetTable) (file next : SqliteFile Unit),
      buildStable ⟨.debug, fun _ => 0⟩ keyedRows = .ok old ∧
      buildStable ⟨.debug, fun _ => 0⟩ uniqueRows = .ok schema ∧
      readTables old = .ok oldTables ∧ readTables schema = .ok tables ∧
      Creates (.plain .empty) oldTables old.hash file ∧
      alterTables (.plain .empty) .byEntry schema file = .ok next ∧
      next.indexes.items = [pairIndex ("a", "b_c")] ∧
      ¬ GetsIndexes .byEntry tables (collect file.introspect) schema.hash := by
  have ran : ((buildStable ⟨.debug, fun _ => 0⟩ keyedRows).toOption.bind fun old =>
      (buildStable ⟨.debug, fun _ => 0⟩ uniqueRows).toOption.bind fun schema =>
      (readTables old).toOption.bind fun oldTables =>
      (readTables schema).toOption.bind fun tables =>
      (execute (.plain .empty) .empty (buildDdl oldTables old.hash)).toOption.bind fun file =>
      (alterTables (.plain .empty) .byEntry schema file).toOption.map fun next =>
        decide (((oldTables.map createDef ++ [syncLogTable, metaTable]).map fun definition =>
            asciiLower definition.name).Nodup ∧
          next.indexes.items = [pairIndex ("a", "b_c")] ∧
          ∀ pair ∈ [("a", "b_c"), ("a_b", "c")], (pairIndex pair).statement ∈
            alterDdl .byEntry tables (collect file.introspect) schema.hash)) = some true := by
    decide +kernel
  obtain ⟨old, oldBuilt, ran⟩ := Option.bind_eq_some_iff.mp ran
  obtain ⟨schema, built, ran⟩ := Option.bind_eq_some_iff.mp ran
  obtain ⟨oldTables, oldRead, ran⟩ := Option.bind_eq_some_iff.mp ran
  obtain ⟨tables, read, ran⟩ := Option.bind_eq_some_iff.mp ran
  obtain ⟨file, made, ran⟩ := Option.bind_eq_some_iff.mp ran
  obtain ⟨next, altered, ran⟩ := Option.map_eq_some_iff.mp ran
  obtain ⟨distinct, indexes, emits⟩ := of_decide_eq_true ran
  refine ⟨old, schema, oldTables, tables, file, next, toOption_eq_some.mp oldBuilt,
    toOption_eq_some.mp built, toOption_eq_some.mp oldRead, toOption_eq_some.mp read,
    ⟨toOption_eq_some.mp made, distinct⟩, toOption_eq_some.mp altered, indexes, fun gets => ?_⟩
  exact gets.differ (emits ("a", "b_c") (by decide)) (emits ("a_b", "c") (by decide)) (by decide)
    (by decide)

end Samples

end Boomerang
