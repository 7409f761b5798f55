import Boomerang.Interner.MemoryPool

/-!
# The chunked offset array of a shard

`LockFreeStringArray` maps an index to the arena offset of its record through up to
4096 chunks of 4096 slots. Chunks are allocated zero-filled when first needed; a
slot that holds zero has never been stored.
-/

namespace Boomerang

open Foundation

/-- `CHUNK_SIZE`, the slots of one chunk. -/
def CHUNK_SIZE : Nat := 4096

/-- `NUM_CHUNKS`, the chunks of one array. -/
def NUM_CHUNKS : Nat := 4096

/-- `StringChunk`: the offsets stored in one chunk. -/
abbrev StringChunk := Nat → Nat

/-- `LockFreeStringArray`. An absent chunk is a null pointer. -/
structure LockFreeStringArray where
  internerId : Nat
  chunks : Nat → Option StringChunk
  len : Nat

namespace LockFreeStringArray

/-- `LockFreeStringArray::new`. -/
def new (internerId : Nat) : LockFreeStringArray where
  internerId := internerId
  chunks := fun _ => none
  len := 0

/-- The chunk pointer `load_chunk` reads from the array; its thread-local memo holds
pointers of live chunks only, which never change. -/
def loadChunk (array : LockFreeStringArray) (chunkIdx : Nat) : Except Fault (Option StringChunk) :=
  if chunkIdx < NUM_CHUNKS then .ok (array.chunks chunkIdx) else .error .outOfBounds

/-- The text of the record at an offset of the arena. -/
def textAt (memory : Memory) (offset : Nat) : String :=
  let len := ofLE (memory.read offset 4)
  fromUtf8Unchecked (memory.read (offset + 4) len)

/-- `LockFreeStringArray::get_from_chunk`. -/
def getFromChunk (memory : Memory) (chunk : StringChunk) (slotIdx : Nat) : Option String :=
  let offset := chunk slotIdx
  if offset = 0 then none else some (textAt memory offset)

/-- `LockFreeStringArray::get`. -/
def get (array : LockFreeStringArray) (memory : Memory) (index : Nat) :
    Except Fault (Option String) :=
  if array.len ≤ index then .ok none
  else
    match array.loadChunk (index / CHUNK_SIZE) with
    | .error reason => .error reason
    | .ok none => .ok none
    | .ok (some chunk) => .ok (getFromChunk memory chunk (index % CHUNK_SIZE))

/-- The offset stored for an index, zero where no chunk or no offset is stored. -/
def offsetAt (array : LockFreeStringArray) (index : Nat) : Nat :=
  match array.chunks (index / CHUNK_SIZE) with
  | none => 0
  | some chunk => chunk (index % CHUNK_SIZE)

/-- `LockFreeStringArray::get_unchecked`, for an index that has been pushed. -/
def getUnchecked (array : LockFreeStringArray) (memory : Memory) (index : Nat) : String :=
  textAt memory (array.offsetAt index)

/-- `LockFreeStringArray::push`. The length moves before the slot is written, so it
stays moved when the chunk index is out of range. -/
def push (array : LockFreeStringArray) (offset : Nat) : Outcome LockFreeStringArray Nat :=
  let index := array.len
  let chunkIdx := index / CHUNK_SIZE
  if NUM_CHUNKS ≤ chunkIdx then .error .outOfBounds { array with len := index + 1 }
  else
    let chunk := (array.chunks chunkIdx).getD fun _ => 0
    .ok index { array with
      len := index + 1
      chunks := fun other =>
        if other = chunkIdx then
          some fun slot => if slot = index % CHUNK_SIZE then offset else chunk slot
        else array.chunks other }

theorem NUM_CHUNKS_mul_CHUNK_SIZE : NUM_CHUNKS * CHUNK_SIZE = 2 ^ 24 := by decide

/-- The indices that have been pushed are those with a stored offset. -/
structure Dense (array : LockFreeStringArray) : Prop where
  bounded : array.len ≤ NUM_CHUNKS * CHUNK_SIZE
  stored : ∀ index < array.len, array.offsetAt index ≠ 0
  free : ∀ index, array.len ≤ index → array.offsetAt index = 0

theorem dense_new (internerId : Nat) : (new internerId).Dense where
  bounded := Nat.zero_le _
  stored := fun _ below => absurd below (Nat.not_lt_zero _)
  free := fun _ _ => rfl

/-- Everything a successful push does. -/
theorem push_ok {array after : LockFreeStringArray} {offset index : Nat}
    (success : array.push offset = .ok index after) :
    index = array.len ∧ after.len = array.len + 1 ∧ after.internerId = array.internerId ∧
      array.len < NUM_CHUNKS * CHUNK_SIZE ∧
      ∀ other,
      after.offsetAt other = if other = array.len then offset else array.offsetAt other := by
  unfold push at success
  dsimp only at success
  split at success
  · cases success
  rename_i inRange
  cases success
  refine ⟨rfl, rfl, rfl, ?_, ?_⟩
  · simp only [NUM_CHUNKS, CHUNK_SIZE] at *
    omega
  · intro other
    simp only [offsetAt]
    by_cases sameChunk : other / CHUNK_SIZE = array.len / CHUNK_SIZE
    · simp only [sameChunk, ↓reduceIte]
      by_cases sameSlot : other % CHUNK_SIZE = array.len % CHUNK_SIZE
      · have same : other = array.len := by
          rw [← Nat.div_add_mod other CHUNK_SIZE, sameChunk, sameSlot, Nat.div_add_mod]
        simp [same]
      · have different : other ≠ array.len := by
          rintro rfl
          exact sameSlot rfl
        rw [if_neg sameSlot, if_neg different]
        cases array.chunks (array.len / CHUNK_SIZE) <;> rfl
    · have different : other ≠ array.len := by
        rintro rfl
        exact sameChunk rfl
      simp only [sameChunk, different, ↓reduceIte]

/-- A push fails past the last chunk only, and counts the offset it did not store. -/
theorem push_error {array after : LockFreeStringArray} {offset : Nat} {fault : Fault}
    (failed : array.push offset = .error fault after) :
    fault = .outOfBounds ∧ NUM_CHUNKS * CHUNK_SIZE ≤ array.len ∧
      after = { array with len := array.len + 1 } := by
  unfold push at failed
  dsimp only at failed
  split at failed
  · rename_i outside
    cases failed
    refine ⟨rfl, ?_, rfl⟩
    simp only [NUM_CHUNKS, CHUNK_SIZE] at *
    omega
  · cases failed

/-- A push of a real offset keeps the array dense. -/
theorem Dense.push {array after : LockFreeStringArray} {offset index : Nat}
    (dense : array.Dense) (real : offset ≠ 0)
    (success : array.push offset = .ok index after) : after.Dense := by
  obtain ⟨_, len, _, room, offsets⟩ := push_ok success
  refine ⟨by omega, ?_, ?_⟩
  · intro other below
    rw [offsets]
    split
    · exact real
    · exact dense.stored other (by omega)
  · intro other above
    rw [offsets, if_neg (by omega)]
    exact dense.free other (by omega)

/-- A push below the limit succeeds. -/
theorem push_of_room {array : LockFreeStringArray} (offset : Nat)
    (room : array.len < NUM_CHUNKS * CHUNK_SIZE) :
    ∃ after, array.push offset = .ok array.len after := by
  have inRange : ¬ NUM_CHUNKS ≤ array.len / CHUNK_SIZE := by
    simp only [NUM_CHUNKS, CHUNK_SIZE] at *
    omega
  exact ⟨_, by simp only [LockFreeStringArray.push, if_neg inRange]; rfl⟩

/-- A dense array answers `get` from the offset of the index. -/
theorem Dense.get_eq {array : LockFreeStringArray} (dense : array.Dense) (memory : Memory)
    (index : Nat) :
    array.get memory index =
      .ok (if index < array.len then some (textAt memory (array.offsetAt index)) else none) := by
  unfold LockFreeStringArray.get
  by_cases below : index < array.len
  · have inRange : index / CHUNK_SIZE < NUM_CHUNKS := by
      have bounded := dense.bounded
      simp only [NUM_CHUNKS, CHUNK_SIZE] at *
      omega
    have stored := dense.stored index below
    rw [if_neg (by omega), if_pos below, loadChunk, if_pos inRange]
    simp only [offsetAt] at stored ⊢
    cases found : array.chunks (index / CHUNK_SIZE) with
    | none => simp [found] at stored
    | some chunk =>
        simp only [found] at stored
        simp [getFromChunk, stored]
  · rw [if_pos (by omega), if_neg below]

end LockFreeStringArray

end Boomerang
