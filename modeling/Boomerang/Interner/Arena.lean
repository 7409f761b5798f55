import Boomerang.Foundation.Transition
import Boomerang.Interner.Layout

/-!
# Records in the arena

Any number of strings are allocated in any shards. Their records are aligned, lie in
the regions of their shards and apart from each other, and keep their texts.
-/

namespace Boomerang

open Foundation

/-- A call of `alloc` that returned: the shard, the string, and the offset. -/
structure Allocation where
  shardId : Nat
  value : String
  offset : Nat
deriving DecidableEq, Repr

namespace Allocation

/-- The first address past the padded record. -/
def finish (record : Allocation) : Nat := record.offset + paddedSize (byteLength record.value)

/-- Two records share no byte. -/
def Apart (left right : Allocation) : Prop :=
  left.finish ≤ right.offset ∨ right.finish ≤ left.offset

theorem Apart.offset_ne {left right : Allocation} (apart : Apart left right) :
    left.offset ≠ right.offset := by
  have leftSize := paddedSize_pos (byteLength left.value)
  have rightSize := paddedSize_pos (byteLength right.value)
  simp only [Apart, finish] at apart
  omega

end Allocation

namespace MemoryPool

variable {profile : Profile} {pool next : MemoryPool}

/-- A call of `alloc` that returns. -/
def Allocates (profile : Profile) (pool : MemoryPool) (record : Allocation) (next : MemoryPool) :
    Prop :=
  pool.alloc profile record.shardId record.value = .ok record.offset next

/-- The `u32` casts, sums and products of a call of `alloc`, in their order, are exact. -/
structure Exact (profile : Profile) (pool : MemoryPool) (record : Allocation) : Prop where
  len : byteLength record.value < u32Range
  padding : byteLength record.value + 4 + 3 < u32Range
  size : paddedRecordSize profile (byteLength record.value) =
    .ok (paddedSize (byteLength record.value))
  shardId : record.shardId < u32Range
  product : record.shardId * pool.regionSize < u32Range
  regionStart : pool.headerSize + record.shardId * pool.regionSize < u32Range
  offset : pool.headerSize + record.shardId * pool.regionSize +
    (pool.cursors record.shardId).value < u32Range
  finish : record.offset + paddedSize (byteLength record.value) < u32Range
  cursor : (pool.cursors record.shardId).value + paddedSize (byteLength record.value) < u32Range

/-- A record at its place: aligned, in the region of its shard, with its text. -/
structure Placed (pool : MemoryPool) (record : Allocation) : Prop where
  aligned : record.offset % 4 = 0
  pastHeader : 4 ≤ record.offset
  shardId : record.shardId < pool.shardCount
  regionStart : pool.regionStart record.shardId ≤ record.offset
  regionEnd : record.finish ≤ pool.regionStart record.shardId + pool.regionSize
  capacity : record.finish ≤ pool.capacity
  stored : StoredAt pool.memory record.offset record.value
  text : LockFreeStringArray.textAt pool.memory record.offset = record.value

/-- The regions of the pool hold the records, up to the cursors. -/
structure Packed (pool : MemoryPool) (records : List Allocation) : Prop where
  sized : pool.Sized
  regionAligned : pool.regionSize % 4 = 0
  cursorAligned : ∀ shardId, (pool.cursors shardId).value % 4 = 0
  cursorInside : ∀ shardId, (pool.cursors shardId).value ≤ pool.regionSize
  placed : ∀ record ∈ records, pool.Placed record
  below : ∀ record ∈ records,
    record.finish ≤ pool.regionStart record.shardId + (pool.cursors record.shardId).value
  apart : records.Pairwise Allocation.Apart

/-- What `MemoryPool::new` makes of a capacity and a number of shards. -/
theorem new_ok {uninitialised : Memory} {capacity shardCount : Nat}
    (capacityFits : capacity < u32Range)
    (created : new uninitialised capacity shardCount = .ok pool) :
    pool.Sized ∧ pool.regionSize % 4 = 0 ∧ ∀ shardId, pool.cursors shardId = ⟨0, false⟩ := by
  unfold new at created
  split at created
  · cases created
  split at created
  · cases created
  rename_i notEmpty large
  dsimp only at created
  split at created
  · cases created
  cases created
  have header : HEADER_SIZE = 4 := rfl
  have used : shardCount * ((capacity - 4) / shardCount / 4 * 4) ≤ capacity - 4 :=
    calc shardCount * ((capacity - 4) / shardCount / 4 * 4)
        ≤ shardCount * ((capacity - 4) / shardCount) :=
          Nat.mul_le_mul_left _ (Nat.div_mul_le_self _ _)
      _ ≤ capacity - 4 := Nat.mul_div_le _ _
  refine ⟨⟨rfl, ?_, capacityFits⟩, Nat.mul_mod_left _ _, fun _ => rfl⟩
  have room : 4 + shardCount * ((capacity - 4) / shardCount / 4 * 4) ≤ capacity := by omega
  exact room

/-- A new pool holds no records. -/
theorem packed_new {uninitialised : Memory} {capacity shardCount : Nat}
    (capacityFits : capacity < u32Range)
    (created : new uninitialised capacity shardCount = .ok pool) :
    pool.Packed [] := by
  obtain ⟨sized, aligned, cursors⟩ := new_ok capacityFits created
  refine ⟨sized, aligned, ?_, ?_, ?_, ?_, List.Pairwise.nil⟩
  · intro shardId
    simp only [cursors]
  · intro shardId
    simp only [cursors, Nat.zero_le]
  · intro record member
    cases member
  · intro record member
    cases member

namespace Packed

variable {records : List Allocation} {record : Allocation}

/-- The region of a shard starts at a multiple of four. -/
theorem regionStart_aligned (packed : pool.Packed records) (shardId : Nat) :
    pool.regionStart shardId % 4 = 0 := by
  rw [regionStart, packed.sized.header, Nat.add_mod, Nat.mul_mod, packed.regionAligned]
  simp

/-- The numbers `alloc` computes stay below the capacity. -/
theorem exact_of_allocates (packed : pool.Packed records)
    (short : byteLength record.value + 8 < u32Range)
    (allocates : Allocates profile pool record next) : pool.Exact profile record := by
  obtain ⟨bounded, _, room, offset, _⟩ :=
    alloc_ok packed.sized (Or.inr (Nat.lt_trans (Nat.lt_succ_self _) short)) allocates
  have inside := packed.sized.regionEnd bounded
  have capacity := packed.sized.capacity
  have positive := paddedSize_pos (byteLength record.value)
  have regionPositive : 0 < pool.regionSize := by omega
  have count : record.shardId ≤ record.shardId * pool.regionSize :=
    Nat.le_mul_of_pos_right _ regionPositive
  rw [regionStart] at inside offset
  refine ⟨by omega, by omega, paddedRecordSize_eq_ok (by omega), by omega, by omega, by omega,
    by omega, ?_, by omega⟩
  rw [offset]
  omega

/-- A record that is apart from a new one stays at its place. -/
theorem placed_store {place : Nat} {value : String} (placed : pool.Placed record)
    (short : byteLength record.value + 7 < u32Range) (shardId size : Nat)
    (apart : record.finish ≤ place ∨ place + paddedSize (byteLength value) ≤ record.offset) :
    (pool.store shardId place (byteLength value) size (bytes value)).Placed record := by
  have stored := @StoredAt.store pool _ _ placed.stored shardId place size value apart
  exact ⟨placed.aligned, placed.pastHeader, placed.shardId, placed.regionStart, placed.regionEnd,
    placed.capacity, stored, stored.textAt short⟩

/-- One more allocation. -/
theorem allocates (packed : pool.Packed records) (short : ∀ old ∈ records,
      byteLength old.value + 8 < u32Range) (newShort : byteLength record.value + 8 < u32Range)
    (allocates : Allocates profile pool record next) : next.Packed (records ++ [record]) := by
  obtain ⟨bounded, small, room, offset, rfl⟩ :=
    alloc_ok packed.sized (Or.inr (Nat.lt_trans (Nat.lt_succ_self _) newShort)) allocates
  have size := paddedSize_aligned (byteLength record.value)
  have inside := packed.sized.regionEnd bounded
  have header := packed.sized.header
  have start := packed.regionStart_aligned record.shardId
  have cursor := packed.cursorAligned record.shardId
  -- Older records of the shard end at the cursor, those of other shards with their region.
  have apart : ∀ old ∈ records, old.Apart record := by
    intro old member
    have oldBelow := packed.below old member
    have oldPlaced := packed.placed old member
    have oldStart := oldPlaced.regionStart
    have oldEnd := oldPlaced.regionEnd
    rw [Allocation.Apart]
    by_cases same : old.shardId = record.shardId
    · rw [same] at oldBelow
      exact Or.inl (by omega)
    · rcases pool.regionStart_apart same with before | after
      · exact Or.inl (by omega)
      · refine Or.inr ?_
        rw [Allocation.finish]
        omega
  constructor
  case sized => exact ⟨packed.sized.header, packed.sized.regions, packed.sized.capacity⟩
  case regionAligned => exact packed.regionAligned
  case cursorAligned =>
    intro shardId
    have old := packed.cursorAligned shardId
    simp only [store]
    split
    · rw [Nat.add_mod, old, size]
    · exact old
  case cursorInside =>
    intro shardId
    have old := packed.cursorInside shardId
    simp only [store]
    split
    · rename_i same
      rw [same]
      exact room
    · exact old
  case placed =>
    intro old member
    rcases List.mem_append.mp member with older | new
    · refine placed_store (packed.placed old older)
        (Nat.lt_trans (Nat.lt_succ_self _) (short old older)) _ _ ?_
      exact apart old older
    · cases List.mem_singleton.mp new
      have stored := StoredAt.of_store pool record.shardId record.offset
        (paddedSize (byteLength record.value)) record.value
      refine ⟨?_, ?_, bounded, ?_, ?_, ?_, stored, stored.textAt small⟩
      · rw [offset, Nat.add_mod, start, cursor]
      · rw [offset, regionStart, header]
        omega
      · show pool.regionStart record.shardId ≤ record.offset
        omega
      · show record.finish ≤ pool.regionStart record.shardId + pool.regionSize
        rw [Allocation.finish]
        omega
      · show record.finish ≤ pool.capacity
        rw [Allocation.finish]
        omega
  case below =>
    intro old member
    have grown : (pool.cursors old.shardId).value +
          (if old.shardId = record.shardId then paddedSize (byteLength record.value) else 0) =
        ((pool.store record.shardId record.offset (byteLength record.value)
          (paddedSize (byteLength record.value)) (bytes record.value)).cursors
            old.shardId).value := by
      simp only [store]
      split <;> rfl
    rw [← grown]
    show old.finish ≤ pool.regionStart old.shardId + _
    rcases List.mem_append.mp member with older | new
    · have oldBelow := packed.below old older
      omega
    · cases List.mem_singleton.mp new
      rw [if_pos rfl, Allocation.finish]
      omega
  case apart =>
    refine List.pairwise_append.mpr ⟨packed.apart, List.pairwise_singleton _ _, ?_⟩
    intro old older new member
    rw [List.mem_singleton.mp member]
    exact apart old older

/-- A run of allocations. -/
theorem run {first last : MemoryPool} {taken : List Allocation} (packed : first.Packed records)
    (run : Steps (Allocates profile) first taken last)
    (short : ∀ old ∈ records ++ taken, byteLength old.value + 8 < u32Range) :
    last.Packed (records ++ taken) := by
  induction run with
  | refl =>
      rw [List.append_nil]
      exact packed
  | @step labels middle label next prior transition ih =>
      rw [← List.append_assoc] at short ⊢
      have before := ih fun old member => short old (List.mem_append_left _ member)
      exact before.allocates (fun old member => short old (List.mem_append_left _ member))
        (short label (List.mem_append_right _ List.mem_cons_self)) transition

end Packed

/-- In every run of allocations of short strings from a new pool the records are at
their places and apart, and the numbers of every call are exact. -/
theorem placed_of_run {uninitialised : Memory} {capacity shardCount : Nat}
    {last : MemoryPool} {records : List Allocation} (capacityFits : capacity < u32Range)
    (created : new uninitialised capacity shardCount = .ok pool)
    (short : ∀ record ∈ records, byteLength record.value < u32Range - 8)
    (run : Steps (Allocates profile) pool records last) :
    (∀ record ∈ records, last.Placed record) ∧
      records.Pairwise (fun left right => left.offset ≠ right.offset ∧ left.Apart right) ∧
      Along (Allocates profile) pool records last
        fun before record _ => before.Exact profile record := by
  have room : ∀ record ∈ records, byteLength record.value + 8 < u32Range := by
    intro record member
    have bound := short record member
    omega
  have packed := (packed_new capacityFits created).run run room
  rw [List.nil_append] at packed
  refine ⟨packed.placed, packed.apart.imp fun apart => ⟨apart.offset_ne, apart⟩, ?_⟩
  rintro before record after middle next rfl prior transition _
  have reached := (packed_new capacityFits created).run prior fun old member =>
    room old (List.mem_append_left _ member)
  exact reached.exact_of_allocates (room record (by simp)) transition

/-- Two records in two regions of sixteen bytes. -/
theorem placed_of_run_two : ∃ pool last,
    new (fun _ => 255) 36 2 = .ok pool ∧
      Steps (Allocates .release) pool [⟨1, "ab", 20⟩, ⟨0, "abcde", 4⟩] last ∧
      ∀ record ∈ [(⟨1, "ab", 20⟩ : Allocation), ⟨0, "abcde", 4⟩], last.Placed record := by
  obtain ⟨pool, created, first, second⟩ : ∃ pool, new (fun _ => 255) 36 2 = .ok pool ∧
      Allocates .release pool ⟨1, "ab", 20⟩ (pool.store 1 20 2 8 (bytes "ab")) ∧
      Allocates .release (pool.store 1 20 2 8 (bytes "ab")) ⟨0, "abcde", 4⟩
        ((pool.store 1 20 2 8 (bytes "ab")).store 0 4 5 12 (bytes "abcde")) :=
    ⟨_, rfl, rfl, rfl⟩
  have run := Steps.cons first (Steps.single second)
  exact ⟨pool, _, created, run, (placed_of_run (by decide) created (by decide) run).1⟩

end MemoryPool

end Boomerang
