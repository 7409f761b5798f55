import Boomerang.Interner.StringArray
import Boomerang.Interner.Symbol

/-!
# The sharded string interner

A string is hashed to a shard. The shard's table holds one entry for each string:
its hash, its first bytes, and its symbol, whose text is found through the shard's
offset array and the arena. `getOrIntern` looks under the read lock, and on a miss
looks again under the write lock before it inserts; each of the two sections is
one function here, so that threads can interleave between them. The thread-local
cache in front of them is a layer of its own.
-/

namespace Boomerang

open Foundation

/-- What is fixed when the program is built: the profile, and the hash the
interner's `FxBuildHasher` gives to long strings. -/
structure Build where
  profile : Profile
  hashOne : String → UInt64

/-- An element of a shard's hash table. -/
structure Entry where
  hash : UInt64
  prefix8 : UInt64
  symbol : Symbol
deriving DecidableEq, Repr

/-- `Shard`, with the table's elements in the order they were inserted. -/
structure Shard where
  entries : List Entry
  strings : LockFreeStringArray

/-- `StringInterner`. -/
structure StringInterner (build : Build) where
  internerId : Nat
  pool : MemoryPool
  shards : Nat → Shard
  shardCount : Nat
  shardMask : UInt64

/-- `DEFAULT_SHARD_COUNT`. -/
def DEFAULT_SHARD_COUNT : Nat := 16

/-- `ARENA_CAPACITY`, 512 MB. -/
def ARENA_CAPACITY : Nat := 512 * 1024 * 1024

/-- `usize::next_power_of_two`. -/
def nextPowerOfTwo (count : Nat) : Nat :=
  if count ≤ 1 then 1 else 2 ^ (Nat.log2 (count - 1) + 1)

/-- The number of shards for a requested number. -/
def clampShardCount (count : Nat) : Nat := nextPowerOfTwo (min (max count 1) 128)

/-- `ShardInner::prefix8`: up to eight bytes, the parts read overlapping for
lengths in between. -/
def prefix8 (raw : List UInt8) : UInt64 :=
  let len := raw.length
  if 8 ≤ len then UInt64.ofNat (ofLE (raw.take 8))
  else if 4 ≤ len then
    let a := UInt64.ofNat (ofLE (raw.take 4))
    let b := UInt64.ofNat (ofLE (raw.drop (len - 4)))
    (b <<< 32) ||| a
  else if 2 ≤ len then
    let a := UInt64.ofNat (ofLE (raw.take 2))
    let b := UInt64.ofNat (ofLE (raw.drop (len - 1)))
    (b <<< 16) ||| a
  else 0

/-- The hash of a string: of its prefix when that is the whole string. -/
def hashOf (build : Build) (value : String) : UInt64 :=
  if byteLength value ≤ 8 then
    let h := prefix8 (bytes value) * 0x517cc1b727220a95
    h ^^^ (h >>> 32)
  else build.hashOne value

/-- The symbol of a string no interner stores: empty, or one ASCII character. The
assertion in `Symbol::new` holds for all 129 of them. -/
def staticSymbol? (value : String) : Option Symbol :=
  match bytes value with
  | [] => (Symbol.new staticShardId 0).toOption
  | [byte] => if byte < 128 then (Symbol.new staticShardId (byte.toNat + 1)).toOption else none
  | _ => none

/-- An element of `ASCII_STRINGS`. -/
def asciiString (code : Nat) : String := String.singleton (Char.ofNat code)

namespace StringInterner

variable {build : Build}

/-- `StringInterner::with_capacity_and_shards`, with the next interner id. The
capacity hint only sizes the hash tables. -/
def withCapacityAndShards (build : Build) (uninitialised : Memory) (internerId count : Nat) :
    Except Fault (StringInterner build) :=
  let count := clampShardCount count
  match MemoryPool.new uninitialised ARENA_CAPACITY count with
  | .error fault => .error fault
  | .ok pool => .ok {
      internerId := internerId
      pool := pool
      shards := fun _ => ⟨[], LockFreeStringArray.new internerId⟩
      shardCount := count
      shardMask := UInt64.ofNat (count - 1) }

/-- The shard a string is kept in. -/
def shardOf (interner : StringInterner build) (value : String) : Nat :=
  (hashOf build value &&& interner.shardMask).toNat

/-- Replace one shard. -/
def setShard (interner : StringInterner build) (shardId : Nat) (shard : Shard) :
    StringInterner build :=
  { interner with
    shards := fun other => if other = shardId then shard else interner.shards other }

/-- The table lookup of the read-locked section of `get_or_intern`, which compares
texts through `get_unchecked`. -/
def findUnchecked (interner : StringInterner build) (value : String) : Option Symbol :=
  let shard := interner.shards (interner.shardOf value)
  (shard.entries.find? fun entry =>
    entry.hash = hashOf build value ∧ entry.prefix8 = prefix8 (bytes value) ∧
      shard.strings.getUnchecked interner.pool.memory entry.symbol.issuedIndex = value).map
    Entry.symbol

/-- The table lookup of `get` and of the write-locked section, which compares texts
through the checked `get`. -/
def findChecked (interner : StringInterner build) (value : String) : Option Symbol :=
  let shard := interner.shards (interner.shardOf value)
  (shard.entries.find? fun entry =>
    entry.hash = hashOf build value ∧ entry.prefix8 = prefix8 (bytes value) ∧
      (shard.strings.get interner.pool.memory entry.symbol.issuedIndex).toOption =
        some (some value)).map
    Entry.symbol

/-- The arena offset of the text of a stored symbol, past its length header. -/
def textOffset (interner : StringInterner build) (shardId : Nat) (symbol : Symbol) : Nat :=
  (interner.shards shardId).strings.offsetAt symbol.issuedIndex + 4

/-- The read-locked section of `get_or_intern`: the symbol and the offset of its text. -/
def readSection (interner : StringInterner build) (value : String) :
    Except Fault (Option (Symbol × Nat)) :=
  let shardId := interner.shardOf value
  match interner.findUnchecked value with
  | none => .ok none
  | some symbol =>
      match (interner.shards shardId).strings.get interner.pool.memory symbol.issuedIndex with
      | .error fault => .error fault
      | .ok none => .error (.expectation "called `Option::unwrap()` on a `None` value")
      | .ok (some _) => .ok (some (symbol, interner.textOffset shardId symbol))

/-- Store a string the table lacks: allocate its record, push its offset, number
its symbol, and insert its entry. Each step is visible when a later one panics. -/
def insertVacant (interner : StringInterner build) (value : String) :
    Outcome (StringInterner build) (Symbol × Nat) :=
  let shardId := interner.shardOf value
  let shard := interner.shards shardId
  match interner.pool.alloc build.profile shardId value with
  | .error fault pool => .error fault { interner with pool := pool }
  | .ok offset pool =>
      let allocated : StringInterner build := { interner with pool := pool }
      match shard.strings.push offset with
      | .error fault strings =>
          .error fault (allocated.setShard shardId { shard with strings := strings })
      | .ok index strings =>
          match Symbol.new (UInt8.ofNat shardId) index with
          | .error fault =>
              .error fault (allocated.setShard shardId { shard with strings := strings })
          | .ok symbol =>
              let entry := ⟨hashOf build value, prefix8 (bytes value), symbol⟩
              .ok (symbol, offset + 4)
                (allocated.setShard shardId ⟨shard.entries ++ [entry], strings⟩)

/-- The write-locked section of `get_or_intern`. -/
def writeSection (interner : StringInterner build) (value : String) :
    Outcome (StringInterner build) (Symbol × Nat) :=
  match interner.findChecked value with
  | some symbol => .ok (symbol, interner.textOffset (interner.shardOf value) symbol) interner
  | none => interner.insertVacant value

/-- `get_or_intern` past the cache, for a string that is not static. -/
def internShared (interner : StringInterner build) (value : String) :
    Outcome (StringInterner build) (Symbol × Nat) :=
  match interner.readSection value with
  | .error fault => .error fault interner
  | .ok (some found) => .ok found interner
  | .ok none => interner.writeSection value

/-- `StringInterner::get_or_intern` with the cache probe removed. -/
def getOrIntern (interner : StringInterner build) (value : String) :
    Outcome (StringInterner build) Symbol :=
  match staticSymbol? value with
  | some symbol => .ok symbol interner
  | none =>
      match interner.internShared value with
      | .error fault next => .error fault next
      | .ok (symbol, _) next => .ok symbol next

/-- `get` past the cache, for a string that is not static. -/
def getShared (interner : StringInterner build) (value : String) : Option (Symbol × Nat) :=
  let shardId := interner.shardOf value
  match interner.findChecked value with
  | none => none
  | some symbol =>
      match (interner.shards shardId).strings.get interner.pool.memory symbol.issuedIndex with
      | .ok (some _) => some (symbol, interner.textOffset shardId symbol)
      | _ => none

/-- `StringInterner::get` with the cache probe removed. -/
def get (interner : StringInterner build) (value : String) : Option Symbol :=
  match staticSymbol? value with
  | some symbol => some symbol
  | none => (interner.getShared value).map Prod.fst

/-- `StringInterner::insert_unique`. -/
def insertUnique (interner : StringInterner build) (value : String) :
    Outcome (StringInterner build) Symbol :=
  match staticSymbol? value with
  | some symbol => .ok symbol interner
  | none =>
      match interner.insertVacant value with
      | .error fault next => .error fault next
      | .ok (symbol, _) next => .ok symbol next

/-- `StringInterner::resolve`. -/
def resolve (interner : StringInterner build) (symbol : Symbol) :
    Except Fault (Option String) :=
  match symbol.index build.profile with
  | .error fault => .error fault
  | .ok index =>
      if symbol.shardId = staticShardId.toNat then
        if index = 0 then .ok (some "")
        else if index ≤ 128 then .ok (some (asciiString (index - 1)))
        else .ok none
      else if interner.shardCount ≤ symbol.shardId then .ok none
      else (interner.shards symbol.shardId).strings.get interner.pool.memory index

/-- `StringInterner::resolve_unchecked`, for a symbol the interner issued. -/
def resolveUnchecked (interner : StringInterner build) (symbol : Symbol) : String :=
  if symbol.shardId = staticShardId.toNat then
    if symbol.issuedIndex = 0 then "" else asciiString (symbol.issuedIndex - 1)
  else
    (interner.shards symbol.shardId).strings.getUnchecked interner.pool.memory symbol.issuedIndex

/-- `StringInterner::contains`. -/
def contains (interner : StringInterner build) (value : String) : Bool :=
  (interner.get value).isSome

/-- `StringInterner::len`. -/
def len (interner : StringInterner build) : Nat :=
  ((List.range interner.shardCount).map fun shardId =>
    (interner.shards shardId).strings.len).sum

/-- `StringInterner::bytes`, with no other thread running. -/
def exportBytes (interner : StringInterner build) : List UInt8 := interner.pool.committedBytes

end StringInterner

end Boomerang
