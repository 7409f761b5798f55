import Boomerang.Foundation.ByteMemory
import Boomerang.Foundation.LittleEndian
import Boomerang.Foundation.Utf8
import Boomerang.Machine

/-!
# The string arena

One allocation holds a four-byte header with the shard count and then one
fixed-size region for each shard. A shard's region fills from its start: each
record is a four-byte length, the text, and padding to a multiple of four. What
the allocator returned is never cleared, so the arena starts with arbitrary
bytes.
-/

namespace Boomerang

open Foundation

/-- The result of a call that changes shared state whether or not it panics. -/
abbrev Outcome (State Value : Type) := EStateM.Result Fault State Value

/-- `padded_record_size`: the length header, the text, and padding to four bytes. -/
def paddedRecordSize (profile : Profile) (len : Nat) : Except Fault Nat :=
  if profile = .debug ∧ u32Range ≤ len + 4 + 3 then .error .overflow
  else .ok ((len + 4 + 3) % u32Range / 4 * 4)

/-- The padded size of a record, for lengths whose computation does not overflow. -/
def paddedSize (len : Nat) : Nat := (len + 4 + 3) / 4 * 4

theorem paddedRecordSize_eq_ok {profile : Profile} {len : Nat} (small : len + 7 < u32Range) :
    paddedRecordSize profile len = .ok (paddedSize len) := by
  rw [paddedRecordSize, if_neg (by omega), Nat.mod_eq_of_lt (by omega), paddedSize]

/-- A record has room for its header and its text. -/
theorem le_paddedSize (len : Nat) : len + 4 ≤ paddedSize len := by
  rw [paddedSize]
  omega

theorem paddedSize_lt (len : Nat) : paddedSize len < len + 8 := by
  rw [paddedSize]
  omega

theorem paddedSize_pos (len : Nat) : 0 < paddedSize len := by
  have room := le_paddedSize len
  omega

theorem paddedSize_aligned (len : Nat) : paddedSize len % 4 = 0 := by
  rw [paddedSize]
  omega

/-- `ShardCursor`: how much of a shard's region is used, and whether it ever ran out. -/
structure ShardCursor where
  value : Nat
  poisoned : Bool
deriving DecidableEq, Repr

/-- `MemoryPool`. Addresses are offsets from the start of the allocation. -/
structure MemoryPool where
  memory : Memory
  cursors : Nat → ShardCursor
  shardCount : Nat
  regionSize : Nat
  headerSize : Nat
  capacity : Nat

namespace MemoryPool

/-- `MemoryPool::HEADER_SIZE`. -/
def HEADER_SIZE : Nat := 4

/-- `MemoryPool::new`, over the bytes the allocator happened to return. -/
def new (uninitialised : Memory) (capacity shardCount : Nat) : Except Fault MemoryPool :=
  if shardCount = 0 then .error (.assertion "shard_count must be nonzero")
  else if capacity ≤ HEADER_SIZE then
    .error (.assertion "capacity must be larger than the header")
  else
    let regionSize := (capacity - HEADER_SIZE) / shardCount / 4 * 4
    if regionSize = 0 then .error (.assertion "capacity too small for shard_count")
    else .ok {
      memory := uninitialised.write 0 (toLE 4 shardCount)
      cursors := fun _ => ⟨0, false⟩
      shardCount := shardCount
      regionSize := regionSize
      headerSize := HEADER_SIZE
      capacity := capacity }

/-- Mark a shard as exhausted. -/
def poison (pool : MemoryPool) (shardId : Nat) : MemoryPool :=
  { pool with
    cursors := fun other =>
      if other = shardId then { pool.cursors other with poisoned := true }
      else pool.cursors other }

/-- The first address of a shard's region. -/
def regionStart (pool : MemoryPool) (shardId : Nat) : Nat :=
  pool.headerSize + shardId * pool.regionSize

/-- Store one record and move the shard's cursor past it. -/
def store (pool : MemoryPool) (shardId offset len size : Nat) (text : List UInt8) : MemoryPool :=
  { pool with
    memory := (pool.memory.write offset (toLE 4 len)).write (offset + 4) text
    cursors := fun other =>
      if other = shardId then
        { pool.cursors other with value := (pool.cursors other).value + size }
      else pool.cursors other }

/-- `MemoryPool::alloc`. The length is cut to a `u32` before it is padded and
compared with the space that is left. -/
def alloc (profile : Profile) (pool : MemoryPool) (shardId : Nat) (value : String) :
    Outcome MemoryPool Nat :=
  if pool.shardCount ≤ shardId then .error .outOfBounds pool
  else if (pool.cursors shardId).poisoned then .error (.poolExhausted shardId) pool
  else if profile = .debug ∧ u32Range - 8 ≤ byteLength value then
    .error (.assertion "string too large to intern") pool
  else
    let len := byteLength value % u32Range
    match paddedRecordSize profile len with
    | .error reason => .error reason pool
    | .ok size =>
        let current := (pool.cursors shardId).value
        -- `checked_sub` and the comparison with the space left fail alike.
        if pool.regionSize < current ∨ pool.regionSize - current < size then
          .error (.poolExhausted shardId) (pool.poison shardId)
        else
          let offset := (pool.regionStart shardId + current) % u32Range
          if profile = .debug ∧ pool.capacity < offset + size then
            .error (.assertion "global_offset + size <= self.capacity") pool
          else .ok offset (pool.store shardId offset len size ((bytes value).take len))

/-- The part of a shard's region that `committed_bytes` copies. -/
def used (pool : MemoryPool) (shardId : Nat) : Nat :=
  min (pool.cursors shardId).value pool.regionSize

/-- The header of the exported bytes. -/
def headerBytes (pool : MemoryPool) : List UInt8 := pool.memory.read 0 pool.headerSize

/-- The first `length` bytes of a shard's region. -/
def regionBytes (pool : MemoryPool) (shardId length : Nat) : List UInt8 :=
  pool.memory.read (pool.regionStart shardId) length

/-- `MemoryPool::committed_bytes`, with no other thread running. -/
def committedBytes (pool : MemoryPool) : List UInt8 :=
  pool.headerBytes ++
    (List.range pool.shardCount).flatMap fun shardId =>
      pool.regionBytes shardId (pool.used shardId)

/-- `MemoryPool::read_shard_count_header`. -/
def readShardCountHeader (raw : List UInt8) : Option Nat :=
  if raw.length < 4 then none else some (ofLE (raw.take 4))

/-- The regions follow the header and each other inside the capacity. -/
structure Sized (pool : MemoryPool) : Prop where
  header : pool.headerSize = 4
  regions : 4 + pool.shardCount * pool.regionSize ≤ pool.capacity
  capacity : pool.capacity < u32Range

/-- The region of a shard lies inside the capacity. -/
theorem Sized.regionEnd {pool : MemoryPool} (sized : pool.Sized) {shardId : Nat}
    (bounded : shardId < pool.shardCount) :
    pool.regionStart shardId + pool.regionSize ≤ pool.capacity := by
  have next : (shardId + 1) * pool.regionSize ≤ pool.shardCount * pool.regionSize :=
    Nat.mul_le_mul_right _ bounded
  have regions := sized.regions
  rw [regionStart, sized.header]
  rw [Nat.succ_mul] at next
  omega

/-- The exported bytes fit the capacity. -/
theorem Sized.length_committedBytes {pool : MemoryPool} (sized : pool.Sized) :
    pool.committedBytes.length < u32Range := by
  have parts : ∀ count, ((List.range count).flatMap fun shardId =>
      pool.regionBytes shardId (pool.used shardId)).length ≤ count * pool.regionSize := by
    intro count
    induction count with
    | zero => exact Nat.zero_le _
    | succ count ih =>
        rw [List.range_succ, List.flatMap_append, List.length_append, List.flatMap_singleton,
          regionBytes, Memory.length_read, Nat.succ_mul]
        exact Nat.add_le_add ih (Nat.min_le_right _ _)
  have all := parts pool.shardCount
  have regions := sized.regions
  have capacity := sized.capacity
  rw [committedBytes, List.length_append, headerBytes, Memory.length_read, sized.header]
  omega

/-- Regions of different shards do not meet. -/
theorem regionStart_apart (pool : MemoryPool) {first second : Nat} (different : first ≠ second) :
    pool.regionStart first + pool.regionSize ≤ pool.regionStart second ∨
      pool.regionStart second + pool.regionSize ≤ pool.regionStart first := by
  rcases Nat.lt_or_gt_of_ne different with lower | higher
  · have ordered := Nat.mul_le_mul_right pool.regionSize lower
    rw [Nat.succ_mul] at ordered
    exact Or.inl (by simp only [regionStart]; omega)
  · have ordered := Nat.mul_le_mul_right pool.regionSize higher
    rw [Nat.succ_mul] at ordered
    exact Or.inr (by simp only [regionStart]; omega)

/-- A string the arena stores exactly: with debug assertions `alloc` refuses longer
ones, without them it cuts their length. -/
def Storable (profile : Profile) (value : String) : Prop :=
  profile = .debug ∨ byteLength value + 7 < u32Range

instance (profile : Profile) (value : String) : Decidable (Storable profile value) :=
  inferInstanceAs (Decidable (_ ∨ _))

/-- Everything a successful allocation of a storable string says about the state
before it and does to the pool. -/
theorem alloc_ok {profile : Profile} {pool after : MemoryPool} {shardId offset : Nat}
    {value : String} (sized : pool.Sized) (storable : Storable profile value)
    (success : pool.alloc profile shardId value = .ok offset after) :
    shardId < pool.shardCount ∧ byteLength value + 7 < u32Range ∧
      (pool.cursors shardId).value + paddedSize (byteLength value) ≤ pool.regionSize ∧
      offset = pool.regionStart shardId + (pool.cursors shardId).value ∧
      after = pool.store shardId offset (byteLength value) (paddedSize (byteLength value))
        (bytes value) := by
  unfold alloc at success
  split at success
  · cases success
  rename_i bounded
  split at success
  · cases success
  split at success
  · cases success
  rename_i assertion
  have short : byteLength value + 7 < u32Range := by
    rcases storable with debug | short
    · simp only [debug, true_and] at assertion
      omega
    · exact short
  have exact' : byteLength value % u32Range = byteLength value := Nat.mod_eq_of_lt (by omega)
  simp only [exact', paddedRecordSize_eq_ok short] at success
  split at success
  · cases success
  rename_i space
  have inside := sized.regionEnd (Nat.lt_of_not_le bounded)
  have capacity := sized.capacity
  have offsetExact : (pool.regionStart shardId + (pool.cursors shardId).value) % u32Range =
      pool.regionStart shardId + (pool.cursors shardId).value := by
    have room := paddedSize_pos (byteLength value)
    exact Nat.mod_eq_of_lt (by omega)
  split at success
  · cases success
  rw [offsetExact, take_byteLength] at success
  cases success
  exact ⟨by omega, short, by omega, rfl, rfl⟩

/-- Without debug assertions only the length modulo 2^32 and that much of the text
reach the arena. -/
theorem alloc_cut {pool : MemoryPool} {shardId : Nat} {long short : String}
    (len : byteLength long % u32Range = byteLength short % u32Range)
    (text : (bytes long).take (byteLength short % u32Range) =
      (bytes short).take (byteLength short % u32Range)) :
    pool.alloc .release shardId long = pool.alloc .release shardId short := by
  simp only [alloc, len, text, reduceCtorEq, false_and, if_false]

/-- A string that fits the rest of an intact region is allocated in both profiles. -/
theorem alloc_of_room {pool : MemoryPool} {shardId : Nat} {value : String}
    (profile : Profile) (sized : pool.Sized) (bounded : shardId < pool.shardCount)
    (intact : (pool.cursors shardId).poisoned = false)
    (short : byteLength value + 8 < u32Range)
    (room : (pool.cursors shardId).value + paddedSize (byteLength value) ≤ pool.regionSize) :
    pool.alloc profile shardId value =
      .ok (pool.regionStart shardId + (pool.cursors shardId).value)
        (pool.store shardId (pool.regionStart shardId + (pool.cursors shardId).value)
          (byteLength value) (paddedSize (byteLength value)) (bytes value)) := by
  have inside := sized.regionEnd bounded
  have capacity := sized.capacity
  have positive := paddedSize_pos (byteLength value)
  have exact' : byteLength value % u32Range = byteLength value := Nat.mod_eq_of_lt (by omega)
  have offsetExact : (pool.regionStart shardId + (pool.cursors shardId).value) % u32Range =
      pool.regionStart shardId + (pool.cursors shardId).value :=
    Nat.mod_eq_of_lt (by omega)
  unfold alloc
  rw [if_neg (by omega), if_neg (by simp [intact]), if_neg (by omega)]
  simp only [exact', paddedRecordSize_eq_ok (show byteLength value + 7 < u32Range by omega),
    offsetExact]
  rw [if_neg (by omega), if_neg (by omega), take_byteLength]

end MemoryPool

end Boomerang
