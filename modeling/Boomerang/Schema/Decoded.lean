import Boomerang.Schema.Decoding
import Boomerang.Schema.WellFormed

/-!
# Decoded schemas

What `decode` accepts holds the numbers as they are written: it checks lengths, tags and
that symbols are not zero, and never an index against the pool it indexes or a symbol
against the interner. So a decoded schema is well-formed exactly when its bytes are.
-/

namespace Boomerang

open Foundation

/-- What is written in the bytes of a schema. -/
structure Written where
  hash : SchemaHash
  internerBytes : List UInt8
  pools : Pools

/-- The schema that is written, with an interner. -/
def Written.schema {Interner : Type} (written : Written) (interner : Interner) :
    DatabaseSchema Interner where
  tables := written.pools.tables
  byName := written.pools.byName
  columns := written.pools.columns
  columnNames := written.pools.columnNames
  constraintPool := written.pools.constraintPool
  foreignKeyPool := written.pools.foreignKeyPool
  hash := written.hash
  interner := interner

/-- The steps of `decode` without the interner. -/
def readWritten : Reader Fault Written := do
  let head ← readInterner
  let sections ← readSections
  let foreignKeyPool ← readForeignKey.counted
  return ⟨head.1, head.2, ⟨sections.tables, sections.byName, sections.columns,
    sections.columnNames, sections.constraintPool, foreignKeyPool⟩⟩

/-- `from_bytes` gives a string to the symbol: it is static, or the records of its shard
reach to its index. -/
def Symbol.Issued (build : Build) (internerBytes : List UInt8) (symbol : Symbol) : Prop :=
  if symbol.shardId = staticShardId.toNat then 1 ≤ symbol.lowBits ∧ symbol.lowBits ≤ 129
  else symbol.shardId < shardCountOf internerBytes ∧ 1 ≤ symbol.lowBits ∧
    symbol.lowBits ≤ ((storedTexts internerBytes).filter fun value =>
      homeOf build (shardCountOf internerBytes) value = symbol.shardId).length

/-- The indices that are written are in range of what they index, and the symbols that are
written have strings among the records. -/
structure Written.Consistent (build : Build) (written : Written) : Prop where
  crossReferenced : written.pools.CrossReferenced
  symbols : ∀ symbol ∈ written.pools.symbols, symbol.Issued build written.internerBytes

/-- The bytes are rejected, or what they hold is consistent. -/
def ConsistentBytes (build : Build) (bytes : List UInt8) : Prop :=
  ∀ written rest, readWritten.front bytes = some (written, rest) →
    RecordsFit build written.internerBytes → written.Consistent build

/-- The symbols that a rebuilt interner resolves. -/
theorem StringInterner.Rebuilt.exists_names {build : Build} {initial : Memory}
    {raw : List UInt8} {interner : StringInterner build} (rebuilt : Rebuilt initial raw interner)
    (symbol : Symbol) : (∃ text, Names interner symbol text) ↔ symbol.Issued build raw := by
  have layout := rebuilt.ready.layout
  have count := rebuilt.shardCount
  have contents : ∀ shardId,
      Contents.empty.append interner.shardOf (storedTexts raw) shardId =
        (storedTexts raw).filter fun value => homeOf build (shardCountOf raw) value = shardId := by
    intro shardId
    rw [Contents.append, rebuilt.shardOf]
    rfl
  show (∃ text, interner.resolve symbol = .ok (some text)) ↔ _
  rw [Symbol.Issued]
  by_cases zero : symbol.lowBits = 0
  · have absent : ¬ ∃ text, interner.resolve symbol = .ok (some text) := by
      rintro ⟨text, resolved⟩
      rcases layout.resolve_eq_some.mp resolved with isStatic | ⟨_, index, here, made⟩
      · obtain ⟨index, made, _⟩ := staticSymbol?_eq_some.mp isStatic
        have low := Symbol.lowBits_of_new made
        omega
      · have low := Symbol.lowBits_of_new made
        omega
    rw [zero]
    refine iff_of_false absent ?_
    split <;> omega
  · have index : symbol.index build.profile = .ok (symbol.lowBits - 1) := by
      unfold Symbol.index
      rw [if_neg zero]
    simp only [StringInterner.resolve, index]
    split
    · split
      · exact iff_of_true ⟨_, rfl⟩ (by omega)
      · split
        · exact iff_of_true ⟨_, rfl⟩ (by omega)
        · exact iff_of_false (by rintro ⟨text, impossible⟩; cases impossible) (by omega)
    · split
      · exact iff_of_false (by rintro ⟨text, impossible⟩; cases impossible) (by omega)
      · rename_i below
        rw [layout.get_eq (Nat.lt_of_not_le below), contents]
        simp only [Except.ok.injEq, ← Option.isSome_iff_exists, isSome_getElem?]
        omega

namespace DatabaseSchema

variable {build : Build}

/-- A schema that is decoded is the one that is written, with the interner rebuilt. -/
theorem decode_eq_some {uninitialised : Memory} {internerId : Nat} {bytes : List UInt8}
    {schema : DatabaseSchema (StringInterner build)} :
    decode build uninitialised internerId bytes = .ok (some schema) ↔
      ∃ written rest interner, readWritten.front bytes = some (written, rest) ∧
        StringInterner.fromBytes build uninitialised internerId written.internerBytes =
          .ok interner ∧ schema = written.schema interner := by
  rw [decode, Reader.decode_eq_some, readSchema_eq]
  simp only [readWritten, Reader.front_bind, Reader.front_ofExcept, Reader.front_pure]
  constructor
  · rintro ⟨_, head, middle, headRead, interner, _, ⟨rebuilt, rfl⟩, sections, more, sectionsRead,
      fks, last, fksRead, rfl, rfl⟩
    exact ⟨_, last, interner, ⟨head, middle, headRead, sections, more, sectionsRead, fks, last,
      fksRead, rfl, rfl⟩, rebuilt, rfl⟩
  · rintro ⟨_, _, interner, ⟨head, middle, headRead, sections, more, sectionsRead, fks, last,
      fksRead, rfl, rfl⟩, rebuilt, rfl⟩
    exact ⟨last, head, middle, headRead, interner, _, ⟨rebuilt, rfl⟩, sections, more, sectionsRead,
      fks, last, fksRead, rfl, rfl⟩

theorem readWritten_small {bytes rest : List UInt8} {written : Written}
    (taken : readWritten.front bytes = some (written, rest)) :
    written.internerBytes.length < u32Range := by
  obtain ⟨head, middle, headRead, taken⟩ := Reader.front_bind.mp taken
  obtain ⟨sections, more, _, taken⟩ := Reader.front_bind.mp taken
  obtain ⟨fks, last, _, taken⟩ := Reader.front_bind.mp taken
  obtain ⟨rfl, rfl⟩ := Reader.front_pure.mp taken
  exact readInterner_small headRead

/-- A written schema is well-formed exactly when it is consistent. -/
theorem wellFormed_schema {initial : Memory} {written : Written} {interner : StringInterner build}
    (rebuilt : StringInterner.Rebuilt initial written.internerBytes interner) :
    (written.schema interner).WellFormed ↔ written.Consistent build := by
  constructor
  · intro wellFormed
    exact ⟨wellFormed.crossReferenced, fun symbol member =>
      (rebuilt.exists_names symbol).mp (wellFormed.symbols symbol member)⟩
  · intro consistent
    exact ⟨consistent.crossReferenced, fun symbol member =>
      (rebuilt.exists_names symbol).mpr (consistent.symbols symbol member)⟩

/-- What `decode` accepts is well-formed, and none of its accessors panics, exactly when
the bytes are consistent. -/
theorem decoded_wellFormed_iff (build : Build) (uninitialised : Memory) (internerId : Nat)
    (bytes : List UInt8) :
    (∀ schema : DatabaseSchema (StringInterner build),
      decode build uninitialised internerId bytes = .ok (some schema) →
        schema.WellFormed ∧ schema.Sound) ↔ ConsistentBytes build bytes := by
  constructor
  · intro accepted written rest read fits
    rcases StringInterner.fromBytes_cases build uninitialised internerId
      (readWritten_small read) with ⟨_, interner, rebuiltEq, rebuilt⟩ | ⟨full, _⟩
    · have decoded := decode_eq_some.mpr ⟨written, rest, interner, read, rebuiltEq, rfl⟩
      exact (wellFormed_schema rebuilt).mp (accepted _ decoded).1
    · exact absurd fits full
  · intro consistent schema decoded
    obtain ⟨written, rest, interner, read, rebuiltEq, rfl⟩ := decode_eq_some.mp decoded
    rcases StringInterner.fromBytes_cases build uninitialised internerId
      (readWritten_small read) with ⟨fits, same, sameEq, rebuilt⟩ | ⟨_, fault, failed⟩
    · cases sameEq.symm.trans rebuiltEq
      have wellFormed := (wellFormed_schema rebuilt).mpr (consistent written rest read fits)
      exact ⟨wellFormed, wellFormed.sound⟩
    · cases failed.symm.trans rebuiltEq

/-- One table, named by the empty string, that claims two columns where there is none. -/
def twoColumns : List UInt8 :=
  List.replicate 32 0 ++ toLE 4 0 ++ toLE 4 1 ++
    (toLE 4 (255 * 2 ^ 24 + 1) ++ toLE 4 0 ++ toLE 2 2 ++ toLE 2 65535 ++ toLE 4 0 ++ toLE 2 0) ++
    (toLE 4 1 ++ toLE 2 0) ++ List.replicate 16 0

/-- The columns that are missing make `column_names` panic. -/
theorem not_decoded_wellFormed_twoColumns :
    ∃ schema, decode ⟨.release, fun _ => 0⟩ (fun _ => 0) 1 twoColumns = .ok (some schema) ∧
      ¬ (schema.WellFormed ∧ schema.Sound) := by
  refine ⟨_, rfl, ?_⟩
  rintro ⟨wellFormed, _⟩
  have inside := wellFormed.crossReferenced.tableColumns _ List.mem_cons_self
  exact absurd inside (by decide)

end DatabaseSchema

end Boomerang
