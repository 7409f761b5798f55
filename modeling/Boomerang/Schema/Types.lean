import Boomerang.Interner.Interface

/-!
# The parts of a schema

Tables, columns and foreign keys refer to each other by index and to strings by
symbol. Indices and lengths are natural numbers here; where the source casts one to a
`u16` or `u32`, the model reduces it explicitly.
-/

namespace Boomerang

/-- `Action`, of a foreign key on update or delete. -/
inductive Action where
  | noAction
  | cascade
  | setNull
  | setDefault
  | restrict
deriving DecidableEq, Repr

namespace Action

/-- `From<Action> for u8`. -/
def toU8 : Action → UInt8
  | .noAction => 0
  | .cascade => 1
  | .setNull => 2
  | .setDefault => 3
  | .restrict => 4

/-- `From<u8> for Action`. -/
def fromU8 (value : UInt8) : Except Fault Action :=
  match value.toNat with
  | 0 => .ok .noAction
  | 1 => .ok .cascade
  | 2 => .ok .setNull
  | 3 => .ok .setDefault
  | 4 => .ok .restrict
  | _ => .error .unreachable

theorem fromU8_toU8 (action : Action) : fromU8 action.toU8 = .ok action := by
  cases action <;> rfl

end Action

/-- `ForeignKey`, by the indices of the referenced table and of the column in it. -/
structure ForeignKey where
  constraintName : Symbol
  namespaceName : Symbol
  table : Nat
  column : Nat
  onUpdate : Action
  onDelete : Action
deriving DecidableEq, Repr

/-- `ForeignKey::table_index`. -/
def ForeignKey.tableIndex (key : ForeignKey) : Nat := key.table

/-- `ColumnFlags`. -/
structure ColumnFlags where
  bits : UInt8
deriving DecidableEq, Repr

namespace ColumnFlags

def NULLABLE : ColumnFlags := ⟨1⟩

def PRIMARY_KEY : ColumnFlags := ⟨(1 : UInt8) <<< 1⟩

def UNIQUE : ColumnFlags := ⟨(1 : UInt8) <<< 2⟩

/-- `ColumnFlags::default`. -/
def empty : ColumnFlags := ⟨0⟩

def contains (flags other : ColumnFlags) : Bool := flags.bits &&& other.bits = other.bits

def set (flags other : ColumnFlags) (enabled : Bool) : ColumnFlags :=
  if enabled then ⟨flags.bits ||| other.bits⟩ else ⟨flags.bits &&& ~~~other.bits⟩

/-- The flags `add_row` sets. -/
def ofRow (nullable isPrimary isUnique : Bool) : ColumnFlags :=
  ((empty.set NULLABLE nullable).set PRIMARY_KEY isPrimary).set UNIQUE isUnique

/-- Each flag is read back as it was set. -/
theorem contains_ofRow (nullable isPrimary isUnique : Bool) :
    (ofRow nullable isPrimary isUnique).contains NULLABLE = nullable ∧
      (ofRow nullable isPrimary isUnique).contains PRIMARY_KEY = isPrimary ∧
      (ofRow nullable isPrimary isUnique).contains UNIQUE = isUnique := by
  cases nullable <;> cases isPrimary <;> cases isUnique <;> decide

end ColumnFlags

/-- `PoolRange`. -/
structure PoolRange where
  start : Nat
  len : Nat
deriving DecidableEq, Repr

/-- `ValueType`. -/
inductive ValueType where
  | null
  | bool
  | int
  | float
  | decimal
  | text
  | blob
  | json
  | uuid
  | timestamp
  | timestampTz
  | date
  | time
  | timeTz
  | custom (name : Symbol)
  | boolArray
  | intArray
  | floatArray
  | decimalArray
  | textArray
deriving DecidableEq, Repr

/-- `ValueType::to_u8`, the discriminant. -/
def ValueType.toU8 : ValueType → UInt8
  | .null => 0
  | .bool => 1
  | .int => 2
  | .float => 3
  | .decimal => 4
  | .text => 5
  | .blob => 6
  | .json => 7
  | .uuid => 8
  | .timestamp => 9
  | .timestampTz => 10
  | .date => 11
  | .time => 12
  | .timeTz => 13
  | .custom _ => 14
  | .boolArray => 15
  | .intArray => 16
  | .floatArray => 17
  | .decimalArray => 18
  | .textArray => 19

/-- `Column`. -/
structure Column where
  name : Symbol
  dataType : ValueType
  defaultValue : Option Symbol
  flags : ColumnFlags
  constraints : PoolRange
  foreignKeys : PoolRange
deriving DecidableEq, Repr

namespace Column

/-- `Column::is_nullable`. -/
def isNullable (column : Column) : Bool := column.flags.contains .NULLABLE

/-- `Column::is_primary_key`. -/
def isPrimaryKey (column : Column) : Bool := column.flags.contains .PRIMARY_KEY

/-- `Column::is_unique`. -/
def isUnique (column : Column) : Bool := column.flags.contains .UNIQUE

end Column

/-- `TableMeta`. -/
structure TableMeta where
  name : Symbol
  columnsStart : Nat
  columnsLen : Nat
  primaryKey : Option Nat
  fkStart : Nat
  fkLen : Nat
deriving DecidableEq, Repr

/-- The 32 bytes of a schema hash. -/
abbrev SchemaHash := { raw : List UInt8 // raw.length = 32 }

end Boomerang
