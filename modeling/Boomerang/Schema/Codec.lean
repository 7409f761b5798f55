import Boomerang.Foundation.Reader
import Boomerang.Interner.Serialization
import Boomerang.Schema.DatabaseSchema

/-!
# The binary form of a schema

The hash, the bytes of the interner, and the tables, the index by name, the columns,
the column names, the checks and the foreign keys, each behind their number. Symbols
are written as their raw numbers. Two values stand for none: the last `u16` for a
primary key and zero for a default.
-/

namespace Boomerang

open Foundation

/-- `write_sym!`. -/
def Symbol.encode (symbol : Symbol) : List UInt8 := toLE 4 symbol.raw.toNat

/-- `write_sym_opt!`. -/
def encodeDefault : Option Symbol → List UInt8
  | some symbol => symbol.encode
  | none => toLE 4 0

/-- The tag of a value type, and the name of a custom one. -/
def ValueType.encode (kind : ValueType) : List UInt8 :=
  [kind.toU8] ++ match kind with
    | .custom name => name.encode
    | _ => []

/-- A table in `encode`. -/
def TableMeta.encode (table : TableMeta) : List UInt8 :=
  table.name.encode ++ (toLE 4 table.columnsStart ++ (toLE 2 table.columnsLen ++
    (toLE 2 (table.primaryKey.getD (u16Range - 1)) ++ (toLE 4 table.fkStart ++
      toLE 2 table.fkLen))))

/-- A range in `encode`. -/
def PoolRange.encode (range : PoolRange) : List UInt8 := toLE 4 range.start ++ toLE 2 range.len

/-- A column in `encode`. -/
def Column.encode (column : Column) : List UInt8 :=
  column.name.encode ++ (column.dataType.encode ++ (encodeDefault column.defaultValue ++
    ([column.flags.bits] ++ (column.constraints.encode ++ column.foreignKeys.encode))))

/-- A foreign key in `encode`. -/
def ForeignKey.encode (fk : ForeignKey) : List UInt8 :=
  fk.constraintName.encode ++ (fk.namespaceName.encode ++ (toLE 2 fk.table ++
    (toLE 2 fk.column ++ ([fk.onUpdate.toU8] ++ [fk.onDelete.toU8]))))

/-- `DatabaseSchema::encode`. -/
def DatabaseSchema.encode {build : Build} (schema : DatabaseSchema (StringInterner build)) :
    List UInt8 :=
  let internerBytes := schema.interner.exportBytes
  schema.hash.val ++ (toLE 4 internerBytes.length ++ (internerBytes ++
    (counted TableMeta.encode schema.tables ++ (counted (toLE 2) schema.byName ++
      (counted Column.encode schema.columns ++ (counted Symbol.encode schema.columnNames ++
        (counted Symbol.encode schema.constraintPool ++
          counted ForeignKey.encode schema.foreignKeyPool)))))))

/-- `read_sym!`. -/
def readSymbol : Reader Fault Symbol := do
  let raw ← Reader.number 4
  Reader.ofOption (Symbol.fromRaw (UInt32.ofNat raw))

/-- `read_sym_opt!`. -/
def readDefault : Reader Fault (Option Symbol) := do
  let raw ← Reader.number 4
  return if raw = 0 then none else Symbol.fromRaw (UInt32.ofNat raw)

/-- The value type of a tag. -/
def readType : Reader Fault ValueType := do
  let tag ← Reader.byte
  match tag.toNat with
  | 0 => return .null
  | 1 => return .bool
  | 2 => return .int
  | 3 => return .float
  | 4 => return .decimal
  | 5 => return .text
  | 6 => return .blob
  | 7 => return .json
  | 8 => return .uuid
  | 9 => return .timestamp
  | 10 => return .timestampTz
  | 11 => return .date
  | 12 => return .time
  | 13 => return .timeTz
  | 14 => do return .custom (← readSymbol)
  | 15 => return .boolArray
  | 16 => return .intArray
  | 17 => return .floatArray
  | 18 => return .decimalArray
  | 19 => return .textArray
  | _ => Reader.ofOption none

/-- A table in `decode`. -/
def readTable : Reader Fault TableMeta := do
  let name ← readSymbol
  let columnsStart ← Reader.number 4
  let columnsLen ← Reader.number 2
  let primaryKey ← Reader.number 2
  let fkStart ← Reader.number 4
  let fkLen ← Reader.number 2
  return ⟨name, columnsStart, columnsLen,
    if primaryKey = u16Range - 1 then none else some primaryKey, fkStart, fkLen⟩

/-- A range in `decode`. -/
def readRange : Reader Fault PoolRange := do
  let start ← Reader.number 4
  let len ← Reader.number 2
  return ⟨start, len⟩

/-- A column in `decode`. -/
def readColumn : Reader Fault Column := do
  let name ← readSymbol
  let dataType ← readType
  let defaultValue ← readDefault
  let flags ← Reader.byte
  let constraints ← readRange
  let foreignKeys ← readRange
  return ⟨name, dataType, defaultValue, ⟨flags⟩, constraints, foreignKeys⟩

/-- `Action::from(read_u8!())`. -/
def readAction : Reader Fault Action := do
  let value ← Reader.byte
  Reader.ofExcept (Action.fromU8 value)

/-- A foreign key in `decode`. -/
def readForeignKey : Reader Fault ForeignKey := do
  let constraintName ← readSymbol
  let namespaceName ← readSymbol
  let table ← Reader.number 2
  let column ← Reader.number 2
  let onUpdate ← readAction
  let onDelete ← readAction
  return ⟨constraintName, namespaceName, table, column, onUpdate, onDelete⟩

/-- The hash in `decode`. -/
def readHash : Reader Fault SchemaHash := do
  let raw ← Reader.take 32
  Reader.ofOption (if size : raw.length = 32 then some ⟨raw, size⟩ else none)

/-- The steps of `decode`. -/
def readSchema (build : Build) (uninitialised : Memory) (internerId : Nat) :
    Reader Fault (DatabaseSchema (StringInterner build)) := do
  let hash ← readHash
  let internerLen ← Reader.number 4
  let internerBytes ← Reader.take internerLen
  let interner ←
    Reader.ofExcept (StringInterner.fromBytes build uninitialised internerId internerBytes)
  let tables ← readTable.counted
  let byName ← (Reader.number 2).counted
  let columns ← readColumn.counted
  let columnNames ← readSymbol.counted
  let constraintPool ← readSymbol.counted
  let foreignKeyPool ← readForeignKey.counted
  return ⟨tables, byName, columns, columnNames, constraintPool, foreignKeyPool, hash, interner⟩

/-- `DatabaseSchema::decode`, with the next interner id. -/
def DatabaseSchema.decode (build : Build) (uninitialised : Memory) (internerId : Nat)
    (bytes : List UInt8) : Except Fault (Option (DatabaseSchema (StringInterner build))) :=
  (readSchema build uninitialised internerId).decode bytes

end Boomerang
