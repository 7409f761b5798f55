import Boomerang.Interner.Arena
import Boomerang.Interner.Interning

/-!
# Lengths near the range of a `u32`

Without debug assertions `alloc` cuts the length of a string to a `u32` and pads it with
wrapping additions, and compares only the result with the room that is left. From
2^32 - 7 on the padded size is smaller than the text.
-/

namespace Boomerang

open Foundation

/-- `padded_record_size` with wrapping additions. -/
def wrappedSize (len : Nat) : Nat := (len + 4 + 3) % u32Range / 4 * 4

@[simp] theorem paddedRecordSize_release (len : Nat) :
    paddedRecordSize .release len = .ok (wrappedSize len) := by
  rw [paddedRecordSize, if_neg (by simp), wrappedSize]

theorem wrappedSize_of_small {len : Nat} (small : len + 7 < u32Range) :
    wrappedSize len = paddedSize len := by
  rw [wrappedSize, paddedSize, Nat.mod_eq_of_lt (by omega)]

/-- The size wraps to zero at four lengths of a `u32`. -/
theorem wrappedSize_eq_zero {len : Nat} (fits : len < u32Range) :
    wrappedSize len = 0 ↔ u32Range ≤ len + 7 ∧ len + 3 < u32Range := by
  rw [u32Range] at *
  rw [wrappedSize, u32Range]
  omega

namespace MemoryPool

variable {profile : Profile} {pool after : MemoryPool} {shardId offset : Nat} {value : String}

/-- Everything a successful allocation says, of a string of any length. -/
theorem alloc_inv (sized : pool.Sized)
    (success : pool.alloc profile shardId value = .ok offset after) :
    shardId < pool.shardCount ∧ (pool.cursors shardId).poisoned = false ∧
      ∃ size, paddedRecordSize profile (byteLength value % u32Range) = .ok size ∧
        (pool.cursors shardId).value + size ≤ pool.regionSize ∧
        offset = pool.regionStart shardId + (pool.cursors shardId).value ∧
        after = pool.store shardId offset (byteLength value % u32Range) size
          ((bytes value).take (byteLength value % u32Range)) := by
  unfold alloc at success
  split at success
  · cases success
  rename_i bounded
  split at success
  · cases success
  rename_i intact
  split at success
  · cases success
  dsimp only at success
  split at success
  · cases success
  rename_i size sizeEq
  split at success
  · cases success
  rename_i space
  split at success
  · cases success
  cases success
  have inside := sized.regionEnd (Nat.lt_of_not_le bounded)
  have capacity := sized.capacity
  have exact' : (pool.regionStart shardId + (pool.cursors shardId).value) % u32Range =
      pool.regionStart shardId + (pool.cursors shardId).value := Nat.mod_eq_of_lt (by omega)
  exact ⟨Nat.lt_of_not_le bounded, Bool.eq_false_of_not_eq_true intact, size, sizeEq, by omega,
    exact', rfl⟩

/-- Nothing that `alloc` does loops. -/
theorem alloc_error_real {fault : Fault}
    (failed : pool.alloc profile shardId value = .error fault after) : fault ≠ .divergence := by
  unfold alloc paddedRecordSize at failed
  rintro rfl
  split at failed
  · cases failed
  split at failed
  · cases failed
  split at failed
  · cases failed
  dsimp only at failed
  split at failed
  · rename_i overflow
    cases failed
    split at overflow
    · cases overflow
    · cases overflow
  split at failed
  · cases failed
  split at failed
  · cases failed
  · cases failed

/-- The bytes of a string that `alloc` copies. -/
def copied (value : String) : Nat := ((bytes value).take (byteLength value % u32Range)).length

theorem copied_eq (value : String) : copied value = byteLength value % u32Range := by
  rw [copied, List.length_take]
  exact Nat.min_eq_left (Nat.mod_le _ _)

/-- The length of the string is in the header of the record, and the bytes that were
copied lie in the region of the shard. -/
structure StoredInside (pool : MemoryPool) (shardId : Nat) (value : String) (offset : Nat)
    (after : MemoryPool) : Prop where
  header : ofLE (after.memory.read offset 4) = byteLength value
  regionStart : pool.regionStart shardId ≤ offset
  regionEnd : offset + 4 + copied value ≤ pool.regionStart shardId + pool.regionSize

/-- A shard that does not exist, has run out, or has less room left than the wrapped size
of a string. -/
def Refuses (pool : MemoryPool) (shardId : Nat) (value : String) : Prop :=
  pool.shardCount ≤ shardId ∨ (pool.cursors shardId).poisoned = true ∨
    pool.regionSize < (pool.cursors shardId).value + wrappedSize (byteLength value % u32Range)

/-- A release build allocates what its shard does not refuse. -/
theorem alloc_release_of_room (room : ¬ pool.Refuses shardId value) :
    ∃ offset after, pool.alloc .release shardId value = .ok offset after := by
  rw [Refuses] at room
  push Not at room
  obtain ⟨bounded, intact, fits⟩ := room
  unfold alloc
  rw [if_neg (by omega), if_neg intact, if_neg (by simp)]
  simp only [paddedRecordSize_release]
  rw [if_neg (by omega), if_neg (by simp)]
  exact ⟨_, _, rfl⟩

/-- The header that `store` writes. -/
theorem header_store (pool : MemoryPool) (shardId offset size : Nat) (text : List UInt8)
    {len : Nat} (fits : len < u32Range) :
    ofLE ((pool.store shardId offset len size text).memory.read offset 4) = len := by
  have written := Memory.read_write_same pool.memory offset (toLE 4 len)
  rw [length_toLE] at written
  rw [store, Memory.read_write_disjoint _ (Or.inl (Nat.le_refl _)), written]
  exact ofLE_toLE fits

/-- A short string is stored whole and inside its region. -/
theorem storedInside_of_short (sized : pool.Sized) (short : byteLength value + 7 < u32Range)
    (success : pool.alloc .release shardId value = .ok offset after) :
    pool.StoredInside shardId value offset after := by
  obtain ⟨bounded, _, room, rfl, rfl⟩ := alloc_ok sized (Or.inr short) success
  have size := le_paddedSize (byteLength value)
  refine ⟨header_store _ _ _ _ _ (by omega), Nat.le_add_right _ _, ?_⟩
  rw [copied_eq, Nat.mod_eq_of_lt (by omega)]
  omega

/-- A long string is cut, or copied past the end of its region. -/
theorem not_storedInside_of_long (sized : pool.Sized) (long : u32Range ≤ byteLength value + 7)
    (success : pool.alloc .release shardId value = .ok offset after) :
    ¬ pool.StoredInside shardId value offset after := by
  intro stored
  obtain ⟨bounded, _, size, _, _, rfl, rfl⟩ := alloc_inv sized success
  have cut : byteLength value % u32Range < u32Range := Nat.mod_lt _ (by decide)
  have header := stored.header
  have inside := stored.regionEnd
  have region := sized.regionEnd bounded
  have capacity := sized.capacity
  rw [header_store _ _ _ _ _ cut] at header
  rw [copied_eq, header] at inside
  rw [regionStart, sized.header] at region
  omega

/-- From any state of the cursors of a pool that was created, a release build panics or
stores a string whole inside its region, exactly when the string is shorter than
2^32 - 7 bytes or is refused. -/
theorem alloc_storedInside_iff {uninitialised : Memory} {capacity shardCount : Nat}
    {created : MemoryPool} (capacityFits : capacity < u32Range)
    (new : MemoryPool.new uninitialised capacity shardCount = .ok created)
    (memory : Memory) (cursors : Nat → ShardCursor) (shardId : Nat) (value : String) :
    let pool := { created with memory := memory, cursors := cursors }
    (∀ offset after, pool.alloc .release shardId value = .ok offset after →
        pool.StoredInside shardId value offset after) ↔
      byteLength value + 7 < u32Range ∨ pool.Refuses shardId value := by
  intro pool
  obtain ⟨old, _, _⟩ := new_ok capacityFits new
  have sized : pool.Sized := ⟨old.header, old.regions, old.capacity⟩
  constructor
  · intro inside
    by_contra both
    push Not at both
    obtain ⟨long, room⟩ := both
    obtain ⟨offset, after, success⟩ := alloc_release_of_room room
    exact not_storedInside_of_long sized long success (inside offset after success)
  · rintro (short | refuses) offset after success
    · exact storedInside_of_short sized short success
    · obtain ⟨bounded, intact, size, sizeEq, room, _⟩ := alloc_inv sized success
      rw [paddedRecordSize_release] at sizeEq
      cases sizeEq
      rcases refuses with outside | poisoned | full
      · omega
      · rw [intact] at poisoned
        cases poisoned
      · omega

/-- A string of two letters next to a full region. -/
theorem alloc_storedInside_iff_ab : ∃ pool offset after,
    MemoryPool.new (fun _ => 255) 36 2 = .ok pool ∧
      { pool with cursors := fun _ => ⟨8, false⟩ }.alloc .release 0 "ab" = .ok offset after ∧
      { pool with cursors := fun _ => ⟨8, false⟩ }.StoredInside 0 "ab" offset after := by
  obtain ⟨pool, new, success⟩ : ∃ pool, MemoryPool.new (fun _ => 255) 36 2 = .ok pool ∧
      { pool with cursors := fun _ => ⟨8, false⟩ }.alloc .release 0 "ab" =
        .ok 12 ({ pool with cursors := fun _ => ⟨8, false⟩ }.store 0 12 2 8 (bytes "ab")) :=
    ⟨_, rfl, rfl⟩
  exact ⟨pool, 12, _, new, success,
    (alloc_storedInside_iff (by decide) new pool.memory (fun _ => ⟨8, false⟩) 0 "ab").mpr
      (Or.inl (by decide)) 12 _ success⟩

/-- Of 2^32 + 2 letters a release build stores two, under the length two. -/
theorem not_storedInside_longText : ∃ pool offset after,
    MemoryPool.new (fun _ => 0) ARENA_CAPACITY 1 = .ok pool ∧
      pool.alloc .release 0 StringInterner.longText = .ok offset after ∧
      ¬ pool.StoredInside 0 StringInterner.longText offset after := by
  obtain ⟨pool, new, sized, bounded, intact, room⟩ : ∃ pool,
      MemoryPool.new (fun _ => 0) ARENA_CAPACITY 1 = .ok pool ∧ pool.Sized ∧
        0 < pool.shardCount ∧ (pool.cursors 0).poisoned = false ∧
        (pool.cursors 0).value + 8 ≤ pool.regionSize :=
    ⟨_, rfl, ⟨rfl, by decide, by decide⟩, by decide, rfl, by decide⟩
  have cut : byteLength StringInterner.longText % u32Range = 2 := by
    rw [StringInterner.byteLength_longText]
    decide
  have accepts : ¬ pool.Refuses 0 StringInterner.longText := by
    have size : wrappedSize 2 = 8 := by decide
    rw [Refuses, cut, size, intact]
    push Not
    exact ⟨bounded, Bool.false_ne_true, room⟩
  obtain ⟨offset, after, success⟩ := alloc_release_of_room accepts
  refine ⟨pool, offset, after, new, success, not_storedInside_of_long sized ?_ success⟩
  rw [StringInterner.byteLength_longText]
  omega

end MemoryPool

end Boomerang
