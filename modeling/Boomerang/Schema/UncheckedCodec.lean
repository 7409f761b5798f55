import Boomerang.Foundation.PointerWalk
import Boomerang.Interner.UncheckedDecoding
import Boomerang.Schema.Codec

/-!
# Reading a schema without checks

`decode_unchecked` moves a pointer over the bytes with macros of its own, and with a table
of type tags of its own. It follows `decode`: where that returns a schema, the pointer stays
within the bytes and every promise holds.
-/

namespace Boomerang

open Foundation

/-- `read_sym!` in `decode_unchecked`. -/
def walkSymbol : Walk Fault Symbol := do
  let raw ← Walk.number 4
  Walk.promised (Symbol.fromRaw (UInt32.ofNat raw))

/-- `read_sym_opt!` in `decode_unchecked`. -/
def walkDefault : Walk Fault (Option Symbol) := do
  let raw ← Walk.number 4
  if raw = 0 then return none
  else
    let symbol ← Walk.promised (Symbol.fromRaw (UInt32.ofNat raw))
    return some symbol

/-- The value type of a tag in `decode_unchecked`. Another tag is `unreachable_unchecked`. -/
def walkType : Walk Fault ValueType := do
  let tag ← Walk.byte
  match tag.toNat with
  | 0 => return .null
  | 1 => return .bool
  | 2 => return .int
  | 3 => return .float
  | 4 => return .decimal
  | 5 => return .text
  | 6 => return .blob
  | 7 => return .json
  | 8 => return .uuid
  | 9 => return .timestamp
  | 10 => return .timestampTz
  | 11 => return .date
  | 12 => return .time
  | 13 => return .timeTz
  | 14 => do return .custom (← walkSymbol)
  | 15 => return .boolArray
  | 16 => return .intArray
  | 17 => return .floatArray
  | 18 => return .decimalArray
  | 19 => return .textArray
  | _ => Walk.promised none

/-- A table in `decode_unchecked`. -/
def walkTable : Walk Fault TableMeta := do
  let name ← walkSymbol
  let columnsStart ← Walk.number 4
  let columnsLen ← Walk.number 2
  let primaryKey ← Walk.number 2
  let fkStart ← Walk.number 4
  let fkLen ← Walk.number 2
  return ⟨name, columnsStart, columnsLen,
    if primaryKey = u16Range - 1 then none else some primaryKey, fkStart, fkLen⟩

/-- A range in `decode_unchecked`. -/
def walkRange : Walk Fault PoolRange := do
  let start ← Walk.number 4
  let len ← Walk.number 2
  return ⟨start, len⟩

/-- A column in `decode_unchecked`. -/
def walkColumn : Walk Fault Column := do
  let name ← walkSymbol
  let dataType ← walkType
  let defaultValue ← walkDefault
  let flags ← Walk.byte
  let constraints ← walkRange
  let foreignKeys ← walkRange
  return ⟨name, dataType, defaultValue, ⟨flags⟩, constraints, foreignKeys⟩

/-- `Action::from(read_u8!())` in `decode_unchecked`. -/
def walkAction : Walk Fault Action := do
  let value ← Walk.byte
  Walk.ofExcept (Action.fromU8 value)

/-- A foreign key in `decode_unchecked`. -/
def walkForeignKey : Walk Fault ForeignKey := do
  let constraintName ← walkSymbol
  let namespaceName ← walkSymbol
  let table ← Walk.number 2
  let column ← Walk.number 2
  let onUpdate ← walkAction
  let onDelete ← walkAction
  return ⟨constraintName, namespaceName, table, column, onUpdate, onDelete⟩

/-- The hash in `decode_unchecked`, copied from the first bytes. -/
def walkHash : Walk Fault SchemaHash := do
  let raw ← Walk.span 32
  Walk.promised (if size : raw.length = 32 then some ⟨raw, size⟩ else none)

/-- The steps of `decode_unchecked`. -/
def walkSchema (build : Build) (uninitialised : Memory) (internerId : Nat) :
    Walk Fault (DatabaseSchema (StringInterner build)) := do
  let hash ← walkHash
  let internerLen ← Walk.number 4
  let internerBytes ← Walk.span internerLen
  let rebuilt ← Walk.ofExcept
    (StringInterner.fromBytesUnchecked build uninitialised internerId internerBytes)
  let interner ← Walk.promised rebuilt
  let tables ← walkTable.vector
  let byName ← (Walk.number 2).vector
  let columns ← walkColumn.vector
  let columnNames ← walkSymbol.vector
  let constraintPool ← walkSymbol.vector
  let foreignKeyPool ← walkForeignKey.vector
  return ⟨tables, byName, columns, columnNames, constraintPool, foreignKeyPool, hash, interner⟩

/-- `DatabaseSchema::decode_unchecked`, with the next interner id. There is no schema when
the behaviour is undefined. -/
def DatabaseSchema.decodeUnchecked (build : Build) (uninitialised : Memory) (internerId : Nat)
    (bytes : List UInt8) : Except Fault (Option (DatabaseSchema (StringInterner build))) :=
  (walkSchema build uninitialised internerId).start bytes

section Mirrors

theorem walkSymbol_mirrors : Mirrors walkSymbol readSymbol :=
  (Mirrors.number 4).bind fun _ => .promised _

/-- A number that is not zero keeps the promise. -/
theorem walkDefault_mirrors : Mirrors walkDefault readDefault := by
  intro slice place inside
  refine (Mirrors.number 4).followed inside fun raw middle middleInside taken => ?_
  have fits := Reader.front_number taken
  by_cases zero : raw = 0
  · rw [if_pos zero, if_pos zero]
    exact .pure middleInside rfl
  · rw [if_neg zero, if_neg zero]
    have nonzero : UInt32.ofNat raw ≠ 0 := by
      intro wrapped
      have same := congrArg UInt32.toNat wrapped
      rw [UInt32.toNat_ofNat_of_lt' fits] at same
      exact zero same
    rw [Symbol.fromRaw, dif_pos nonzero]
    exact .pure middleInside rfl

theorem walkType_mirrors : Mirrors walkType readType := by
  refine Mirrors.byte.bind fun tag => ?_
  match tag.toNat with
  | 14 => exact walkSymbol_mirrors.bind fun name => .pure (ValueType.custom name)
  | 0 | 1 | 2 | 3 | 4 | 5 | 6 | 7 | 8 | 9 | 10 | 11 | 12 | 13 | 15 | 16 | 17 | 18 | 19 =>
    exact .pure _
  | _ + 20 => exact .promised none

theorem walkTable_mirrors : Mirrors walkTable readTable :=
  walkSymbol_mirrors.bind fun _ => (Mirrors.number 4).bind fun _ =>
    (Mirrors.number 2).bind fun _ => (Mirrors.number 2).bind fun _ =>
      (Mirrors.number 4).bind fun _ => (Mirrors.number 2).bind fun _ => .pure _

theorem walkRange_mirrors : Mirrors walkRange readRange :=
  (Mirrors.number 4).bind fun _ => (Mirrors.number 2).bind fun _ => .pure _

theorem walkColumn_mirrors : Mirrors walkColumn readColumn :=
  walkSymbol_mirrors.bind fun _ => walkType_mirrors.bind fun _ =>
    walkDefault_mirrors.bind fun _ => Mirrors.byte.bind fun _ =>
      walkRange_mirrors.bind fun _ => walkRange_mirrors.bind fun _ => .pure _

theorem walkAction_mirrors : Mirrors walkAction readAction :=
  Mirrors.byte.bind fun _ => .ofExcept _

theorem walkForeignKey_mirrors : Mirrors walkForeignKey readForeignKey :=
  walkSymbol_mirrors.bind fun _ => walkSymbol_mirrors.bind fun _ =>
    (Mirrors.number 2).bind fun _ => (Mirrors.number 2).bind fun _ =>
      walkAction_mirrors.bind fun _ => walkAction_mirrors.bind fun _ => .pure _

theorem walkHash_mirrors : Mirrors walkHash readHash :=
  (Mirrors.span 32).bind fun _ => .promised _

end Mirrors

/-- The bytes of the interner among those of a schema. -/
def internerSection (bytes : List UInt8) : List UInt8 :=
  (bytes.drop 36).take (ofLE ((bytes.drop 32).take 4))

/-- What is read behind the hash and the length is the section. -/
theorem internerSection_eq {bytes afterHash afterLen taken rest : List UInt8} {hash : SchemaHash}
    {len : Nat} (hashTaken : readHash.front bytes = some (hash, afterHash))
    (lenTaken : (Reader.number 4 : Reader Fault Nat).front afterHash = some (len, afterLen))
    (sectionTaken : (Reader.take len : Reader Fault _).front afterLen = some (taken, rest)) :
    taken = internerSection bytes ∧ taken.length < u32Range := by
  have fits := Reader.front_number lenTaken
  obtain ⟨_, _, rawHash, hashEq⟩ := Reader.front_bind.mp hashTaken
  obtain ⟨_, rfl⟩ := Reader.front_ofOption.mp hashEq
  obtain ⟨_, _, rfl⟩ := Reader.front_take.mp rawHash
  obtain ⟨_, _, rawLen, lenEq⟩ := Reader.front_bind.mp lenTaken
  obtain ⟨rfl, rfl⟩ := Reader.front_pure.mp lenEq
  obtain ⟨_, rfl, rfl⟩ := Reader.front_take.mp rawLen
  obtain ⟨_, rfl, _⟩ := Reader.front_take.mp sectionTaken
  refine ⟨by rw [internerSection, List.drop_drop], ?_⟩
  have wide : u32Range = 256 ^ 4 := by decide
  rw [wide]
  exact Nat.lt_of_le_of_lt (List.length_take_le _ _) fits

namespace DatabaseSchema

variable {build : Build}

/-- Two schemas with the same parts and interners that resolve symbols alike. -/
structure SameAs (left right : DatabaseSchema (StringInterner build)) : Prop where
  hash : left.hash = right.hash
  tables : left.tables = right.tables
  byName : left.byName = right.byName
  columns : left.columns = right.columns
  columnNames : left.columnNames = right.columnNames
  constraintPool : left.constraintPool = right.constraintPool
  foreignKeyPool : left.foreignKeyPool = right.foreignKeyPool
  resolve : ∀ symbol, left.interner.resolve symbol = right.interner.resolve symbol

/-- Where the texts are valid, the unchecked walk follows the checked reader. -/
theorem walkSchema_follows {bytes : List UInt8} (valid : ValidTexts (internerSection bytes))
    (uninitialised otherMemory : Memory) (internerId otherId : Nat) :
    Follows (fun schema other => SameAs other schema) bytes 0
      (walkSchema build otherMemory otherId) (readSchema build uninitialised internerId) := by
  refine walkHash_mirrors.followed (Nat.zero_le _) fun hash _ inside hashTaken => ?_
  refine (Mirrors.number 4).followed inside fun len _ inside lenTaken => ?_
  refine (Mirrors.span len).followed inside fun taken _ inside sectionTaken => ?_
  rw [List.drop_zero] at hashTaken
  obtain ⟨rfl, small⟩ := internerSection_eq hashTaken lenTaken sectionTaken
  have rebuilt : ∀ interner, StringInterner.fromBytes build uninitialised internerId
        (internerSection bytes) = .ok interner →
      ∃ found : Option (StringInterner build), StringInterner.fromBytesUnchecked build
          otherMemory otherId (internerSection bytes) = .ok found ∧
        ∃ other, found = some other ∧
          ∀ symbol, other.resolve symbol = interner.resolve symbol := by
    intro interner success
    obtain ⟨other, otherEq, resolve⟩ :=
      StringInterner.fromBytes_same_resolve small success otherMemory otherId
    refine ⟨some other, ?_, other, rfl, resolve⟩
    rw [StringInterner.fromBytesUnchecked_eq small valid, otherEq]
    rfl
  refine (Follows.ofExcept inside rebuilt).bind fun interner _ _ inside _ related => ?_
  obtain ⟨other, rfl, resolve⟩ := related
  refine walkTable_mirrors.vector.followed inside fun tables _ inside _ => ?_
  refine (Mirrors.number 2).vector.followed inside fun byName _ inside _ => ?_
  refine walkColumn_mirrors.vector.followed inside fun columns _ inside _ => ?_
  refine walkSymbol_mirrors.vector.followed inside fun columnNames _ inside _ => ?_
  refine walkSymbol_mirrors.vector.followed inside fun constraintPool _ inside _ => ?_
  refine walkForeignKey_mirrors.vector.followed inside fun foreignKeyPool _ inside _ => ?_
  exact .pure inside ⟨rfl, rfl, rfl, rfl, rfl, rfl, rfl, resolve⟩

/-- A schema that is decoded from bytes with valid texts is decoded without checks. -/
theorem decodeUnchecked_of_decode {uninitialised : Memory} {internerId : Nat}
    {bytes : List UInt8} {schema : DatabaseSchema (StringInterner build)}
    (success : decode build uninitialised internerId bytes = .ok (some schema))
    (valid : ValidTexts (internerSection bytes)) (otherMemory : Memory) (otherId : Nat) :
    ∃ other, decodeUnchecked build otherMemory otherId bytes = .ok (some other) ∧
      other.SameAs schema :=
  (walkSchema_follows valid uninitialised otherMemory internerId otherId).start success

/-- One table without columns, named by the only string of the interner. -/
def oneTable : List UInt8 :=
  List.replicate 32 0 ++ toLE 4 12 ++ (toLE 4 1 ++ (toLE 4 2 ++ [97, 98, 0, 0])) ++ toLE 4 1 ++
    (toLE 4 1 ++ toLE 4 0 ++ toLE 2 0 ++ toLE 2 65535 ++ toLE 4 0 ++ toLE 2 0) ++
    (toLE 4 1 ++ toLE 2 0) ++ List.replicate 16 0

theorem decodeUnchecked_oneTable :
    ∃ schema other, decode ⟨.debug, fun _ => 0⟩ (fun _ => 0) 1 oneTable = .ok (some schema) ∧
      decodeUnchecked ⟨.debug, fun _ => 0⟩ (fun _ => 1) 2 oneTable = .ok (some other) ∧
      other.SameAs schema := by
  obtain ⟨schema, success⟩ : ∃ schema,
      decode ⟨.debug, fun _ => 0⟩ (fun _ => 0) 1 oneTable = .ok (some schema) := ⟨_, rfl⟩
  obtain ⟨other, otherEq, same⟩ :=
    decodeUnchecked_of_decode success (by decide +kernel) (fun _ => 1) 2
  exact ⟨schema, other, success, otherEq, same⟩

end DatabaseSchema

end Boomerang
