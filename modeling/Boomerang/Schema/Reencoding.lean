import Boomerang.Interner.TwoRuns
import Boomerang.Schema.RoundTrip

/-!
# Encoding again

The bytes of a schema hold those of its interner, so they too show the padding that was
never written. A schema that is decoded has a new arena, and is encoded again with the
padding of that arena.
-/

namespace Boomerang

open Foundation

/-- A table with the primary key that is read back: the last `u16` stands for none. -/
def TableMeta.normal (table : TableMeta) : TableMeta :=
  { table with primaryKey := table.primaryKey.filter fun offset => offset ≠ u16Range - 1 }

theorem TableMeta.encode_normal (table : TableMeta) : table.normal.encode = table.encode := by
  rw [encode, encode]
  cases keyEq : table.primaryKey with
  | none => simp [normal, keyEq]
  | some offset =>
      by_cases last : offset = u16Range - 1
      · simp [normal, keyEq, last, Option.filter]
      · simp [normal, keyEq, last, Option.filter]

/-- The numbers of a table are of their types. -/
structure TableMeta.Typed (table : TableMeta) : Prop where
  columnsStart : table.columnsStart < u32Range
  columnsLen : table.columnsLen < u16Range
  primaryKey : ∀ offset, table.primaryKey = some offset → offset < u16Range
  fkStart : table.fkStart < u32Range
  fkLen : table.fkLen < u16Range

theorem TableMeta.Typed.fits {table : TableMeta} (typed : table.Typed) : table.normal.Fits := by
  refine ⟨typed.columnsStart, typed.columnsLen, ?_, typed.fkStart, typed.fkLen⟩
  intro offset key
  obtain ⟨isKey, notLast⟩ := Option.filter_eq_some_iff.mp key
  have small := typed.primaryKey offset isKey
  have other : offset ≠ u16Range - 1 := of_decide_eq_true notLast
  omega

namespace DatabaseSchema

variable {build : Build}

/-- The counts of a schema fit the `u32` they are written as, and its numbers are of their
types. -/
structure Typed {Interner : Type} (schema : DatabaseSchema Interner) : Prop where
  tableCount : schema.tables.length < u32Range
  byNameCount : schema.byName.length < u32Range
  columnCount : schema.columns.length < u32Range
  columnNameCount : schema.columnNames.length < u32Range
  constraintCount : schema.constraintPool.length < u32Range
  foreignKeyCount : schema.foreignKeyPool.length < u32Range
  tables : ∀ table ∈ schema.tables, table.Typed
  byName : ∀ index ∈ schema.byName, index < u16Range
  columns : ∀ column ∈ schema.columns, column.Fits
  foreignKeys : ∀ fk ∈ schema.foreignKeyPool, fk.Fits

/-- A schema with the primary keys that are read back. -/
def normal {Interner : Type} (schema : DatabaseSchema Interner) : DatabaseSchema Interner :=
  { schema with tables := schema.tables.map TableMeta.normal }

theorem Typed.encodable {Interner : Type} {schema : DatabaseSchema Interner}
    (typed : schema.Typed) : Encodable schema.normal := by
  refine ⟨?_, typed.byNameCount, typed.columnCount, typed.columnNameCount, typed.constraintCount,
    typed.foreignKeyCount, ?_, typed.byName, typed.columns, typed.foreignKeys⟩
  · rw [normal, List.length_map]
    exact typed.tableCount
  · intro table member
    obtain ⟨original, originalIn, rfl⟩ := List.mem_map.mp member
    exact (typed.tables original originalIn).fits

theorem encode_normal (schema : DatabaseSchema (StringInterner build)) :
    schema.normal.encode = schema.encode := by
  have tables : counted TableMeta.encode schema.normal.tables =
      counted TableMeta.encode schema.tables := by
    simp [counted, normal, List.flatMap_map, TableMeta.encode_normal]
  rw [encode, encode, tables]
  rfl

/-- Schemas that differ in their interners are written alike exactly when the interners
are. -/
theorem encode_eq_iff {schema : DatabaseSchema (StringInterner build)}
    {other : StringInterner build} (small : schema.interner.exportBytes.length < u32Range)
    (otherSmall : other.exportBytes.length < u32Range) :
    { schema with interner := other }.encode = schema.encode ↔
      other.exportBytes = schema.interner.exportBytes := by
  constructor
  · intro same
    have behind := List.append_cancel_left same
    obtain ⟨lengths, rest⟩ := List.append_inj behind
      ((length_toLE _ _).trans (length_toLE _ _).symm)
    have sameLength := congrArg ofLE lengths
    rw [ofLE_toLE (u32Range_eq ▸ otherSmall), ofLE_toLE (u32Range_eq ▸ small)] at sameLength
    exact (List.append_inj rest sameLength).1
  · intro same
    simp only [encode, same]

end DatabaseSchema

namespace StringInterner

variable {build : Build}

/-- The bytes of an interner, and of every schema with it, are the same for all arenas
exactly when no string stored is padded; and exactly then a schema is encoded to the same
bytes after it was decoded. -/
theorem serialized_same_iff_of_run {initial : Memory} {internerId count : Nat}
    {interner last : StringInterner build} {values : List String}
    (new : withCapacityAndShards build initial internerId count = .ok interner)
    (run : Steps Interns interner values last)
    (storable : ∀ value ∈ values, MemoryPool.Storable build.profile value) :
    ((∀ (other : Memory) (otherId : Nat) (second secondLast : StringInterner build),
        withCapacityAndShards build other otherId count = .ok second →
          Steps Interns second values secondLast → secondLast.exportBytes = last.exportBytes) ↔
      Unpadded values) ∧
    ∀ schema : DatabaseSchema (StringInterner build), schema.interner = last → schema.Typed →
      ((∀ (other : Memory) (otherId : Nat) (second secondLast : StringInterner build),
          withCapacityAndShards build other otherId count = .ok second →
            Steps Interns second values secondLast →
              { schema with interner := secondLast }.encode = schema.encode) ↔ Unpadded values) ∧
      ((∀ (other : Memory) (otherId : Nat), ∃ decoded,
          DatabaseSchema.decode build other otherId schema.encode = .ok (some decoded) ∧
            decoded.encode = schema.encode) ↔ Unpadded values) := by
  have after := (after_created new).1.run run storable
  rw [List.nil_append] at after
  have same := bytes_same_iff new run storable
  refine ⟨same, ?_⟩
  rintro schema rfl typed
  have small := after.holds.layout.sized.length_committedBytes
  constructor
  · rw [← same]
    have each : ∀ {other otherId} {second secondLast : StringInterner build},
        withCapacityAndShards build other otherId count = .ok second →
          Steps Interns second values secondLast →
            ({ schema with interner := secondLast }.encode = schema.encode ↔
              secondLast.exportBytes = schema.interner.exportBytes) := by
      intro other otherId second secondLast secondNew secondRun
      have secondAfter := (after_created secondNew).1.run secondRun storable
      exact DatabaseSchema.encode_eq_iff small
        secondAfter.holds.layout.sized.length_committedBytes
    constructor
    · intro encoded other otherId second secondLast secondNew secondRun
      exact (each secondNew secondRun).mp (encoded _ _ _ _ secondNew secondRun)
    · intro exported other otherId second secondLast secondNew secondRun
      exact (each secondNew secondRun).mpr (exported _ _ _ _ secondNew secondRun)
  · -- A decoded schema is the normal form with the interner that is rebuilt.
    have decodes : ∀ (other : Memory) (otherId : Nat), ∃ rebuilt : StringInterner build,
        DatabaseSchema.decode build other otherId schema.encode =
            .ok (some { schema.normal with interner := rebuilt }) ∧
          ({ schema.normal with interner := rebuilt }.encode = schema.encode ↔
            bytesAfter other interner values = bytesAfter initial interner values) := by
      intro other otherId
      obtain ⟨rebuilt, rebuiltEq, exported⟩ := after.rebuild other otherId
      have rebuiltSmall : rebuilt.exportBytes.length < u32Range := by
        rcases fromBytes_cases build other otherId small with
          ⟨_, made, madeEq, facts⟩ | ⟨_, fault, failed⟩
        · cases madeEq.symm.trans rebuiltEq
          exact facts.ready.layout.sized.length_committedBytes
        · cases failed.symm.trans rebuiltEq
      refine ⟨rebuilt, ?_, ?_⟩
      · rw [← schema.encode_normal]
        exact (DatabaseSchema.reads_encode typed.encodable small rebuiltEq).decode
      · rw [← schema.encode_normal]
        rw [← exported, ← after.exportBytes_eq]
        have normalSmall : schema.normal.interner.exportBytes.length < u32Range := small
        exact DatabaseSchema.encode_eq_iff normalSmall rebuiltSmall
    constructor
    · intro again
      obtain ⟨rebuilt, decodedEq, iff⟩ := decodes (changed initial) internerId
      obtain ⟨decoded, sameDecoded, encoded⟩ := again (changed initial) internerId
      cases sameDecoded.symm.trans decodedEq
      exact unpadded_of_bytesAfter after.shardOf_lt (iff.mp encoded)
    · intro unpadded other otherId
      obtain ⟨rebuilt, decodedEq, iff⟩ := decodes other otherId
      exact ⟨_, decodedEq, iff.mpr (bytesAfter_of_unpadded unpadded _ _ _)⟩

theorem noHash_length : (List.replicate 32 (0 : UInt8)).length = 32 := rfl

/-- A schema without tables. -/
def emptySchema (interner : StringInterner build) : DatabaseSchema (StringInterner build) :=
  ⟨[], [], [], [], [], [], ⟨List.replicate 32 0, noHash_length⟩, interner⟩

theorem emptySchema_typed (interner : StringInterner build) : (emptySchema interner).Typed := by
  have zero : 0 < u32Range := by decide
  refine ⟨zero, zero, zero, zero, zero, zero, ?_, ?_, ?_, ?_⟩
  all_goals
    intro item member
    cases member

/-- Strings of four and eight letters, in two shards, leave nothing of the arena in the
bytes. -/
theorem serialized_same_iff_of_run_aligned :
    ∃ interner last : StringInterner ⟨.release, fun _ => 0⟩,
    withCapacityAndShards _ (fun _ => 0) 1 2 = .ok interner ∧
      interner.shardOf "role" = 0 ∧ interner.shardOf "user" = 1 ∧
      Steps Interns interner ["role", "user", "password"] last ∧
      ∃ decoded, DatabaseSchema.decode ⟨.release, fun _ => 0⟩ (fun _ => 1) 2
          (emptySchema last).encode = .ok (some decoded) ∧
        decoded.encode = (emptySchema last).encode := by
  obtain ⟨interner, new, created⟩ :=
    withCapacityAndShards_ok ⟨.release, fun _ => 0⟩ (fun _ => 0) 1 2
  obtain ⟨last, answers, _⟩ :=
    created.exists_calls (show recordsSize ["role", "user", "password"] ≤ 2 ^ 20 by decide)
  have run := interns_of_answers answers
  have aligned : Unpadded ["role", "user", "password"] := by
    have all : ∀ value ∈ ["role", "user", "password"], byteLength value % 4 = 0 := by decide
    exact fun value listed _ => all value listed
  obtain ⟨_, schemas⟩ := serialized_same_iff_of_run new run (by decide)
  exact ⟨interner, last, new, (created.shardOf_eq "role").trans (by decide),
    (created.shardOf_eq "user").trans (by decide), run,
    (schemas (emptySchema last) rfl (emptySchema_typed last)).2.mpr aligned _ _⟩

/-- Five letters are exported with three bytes of the arena. -/
theorem not_serialized_same_users :
    ∃ interner last second secondLast : StringInterner ⟨.release, fun _ => 0⟩,
      withCapacityAndShards _ (fun _ => 0) 1 1 = .ok interner ∧
        Steps Interns interner ["users"] last ∧
        withCapacityAndShards _ (fun _ => 1) 1 1 = .ok second ∧
        Steps Interns second ["users"] secondLast ∧
        secondLast.exportBytes ≠ last.exportBytes := by
  obtain ⟨interner, new, created⟩ :=
    withCapacityAndShards_ok ⟨.release, fun _ => 0⟩ (fun _ => 0) 1 1
  obtain ⟨last, answers, _⟩ :=
    created.exists_calls (show recordsSize ["users"] ≤ 2 ^ 20 by decide)
  have run := interns_of_answers answers
  have storable : ∀ value ∈ ["users"], MemoryPool.Storable .release value := by decide
  obtain ⟨second, secondNew, _⟩ :=
    withCapacityAndShards_ok ⟨.release, fun _ => 0⟩ (changed fun _ => 0) 1 1
  obtain ⟨secondLast, secondRun⟩ := exists_run new secondNew run storable
  refine ⟨interner, last, second, secondLast, new, run, secondNew, secondRun, fun same => ?_⟩
  have after := (after_created new).1.run run storable
  have secondAfter := (after_created secondNew).1.run secondRun storable
  rw [after.exportBytes_eq, secondAfter.exportBytes_eq,
    (twins_of_created new secondNew).bytesAfter] at same
  have aligned :=
    unpadded_of_bytesAfter after.shardOf_lt same "users" List.mem_cons_self (by decide)
  exact absurd aligned (by decide)

end StringInterner

end Boomerang
