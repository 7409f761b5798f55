import Boomerang.Interner.CachedCalls

/-!
# The chunks of an array on the heap

The array of a shard lies at an address and points at its chunks, which are allocated when
they are first needed. A thread reads a pointer through a memo of its last load.
-/

namespace Boomerang

open Foundation

/-- A heap address. -/
abbrev Address := Nat

/-- The chunks that are allocated. -/
abbrev ChunkHeap := Address → Option StringChunk

namespace ChunkHeap

/-- `StringChunk::alloc_new_chunk`, at the address the allocator returned. -/
def allocNewChunk (heap : ChunkHeap) (fresh : Address) : ChunkHeap :=
  Function.update heap fresh (some fun _ => 0)

/-- Store an offset in a slot of the chunk at an address. -/
def store (heap : ChunkHeap) (ptr : Address) (slotIdx offset : Nat) : ChunkHeap :=
  Function.update heap ptr
    ((heap ptr).map fun chunk slot => if slot = slotIdx then offset else chunk slot)

variable {heap : ChunkHeap} {place ptr slotIdx offset : Nat}

@[simp] theorem store_self : heap.store ptr slotIdx offset ptr =
    (heap ptr).map fun chunk slot => if slot = slotIdx then offset else chunk slot :=
  Function.update_self _ _ _

theorem store_of_ne (different : place ≠ ptr) :
    heap.store ptr slotIdx offset place = heap place :=
  Function.update_of_ne different _ _

@[simp] theorem store_eq_none : heap.store ptr slotIdx offset place = none ↔ heap place = none := by
  by_cases same : place = ptr
  · subst same
    rw [store_self, Option.map_eq_none_iff]
  · rw [store_of_ne same]

@[simp] theorem allocNewChunk_self : heap.allocNewChunk ptr ptr = some fun _ => 0 :=
  Function.update_self _ _ _

theorem allocNewChunk_of_ne (different : place ≠ ptr) : heap.allocNewChunk ptr place = heap place :=
  Function.update_of_ne different _ _

end ChunkHeap

/-- `LockFreeStringArray` at its address, with the pointers to its chunks. -/
structure PlacedArray where
  internerId : Nat
  address : Address
  chunks : Nat → Option Address
  len : Nat

/-- What `LAST_CHUNK` holds after a load. -/
structure LastChunk where
  cachedId : Nat
  cachedAddr : Address
  cachedIdx : Nat
  ptr : Address
deriving DecidableEq, Repr

/-- The array that a push leaves, also when it panics. -/
def LockFreeStringArray.afterPush (array : LockFreeStringArray) (offset : Nat) :
    LockFreeStringArray :=
  match array.push offset with
  | .ok _ after | .error _ after => after

namespace PlacedArray

/-- `LockFreeStringArray::new`, at the address the array is moved to. -/
def new (internerId : Nat) (address : Address) : PlacedArray where
  internerId := internerId
  address := address
  chunks := fun _ => none
  len := 0

/-- The pointer that the memo holds for a chunk of an array. -/
def remembered (memo : Option LastChunk) (array : PlacedArray) (chunkIdx : Nat) :
    Option Address :=
  match memo with
  | none => none
  | some last =>
      if last.cachedId = array.internerId ∧ last.cachedAddr = array.address ∧
          last.cachedIdx = chunkIdx then some last.ptr
      else none

/-- The pointer in the slot of an array, `self.chunks[chunk_idx]`. -/
def storedChunk (array : PlacedArray) (chunkIdx : Nat) : Except Fault (Option Address) :=
  if chunkIdx < NUM_CHUNKS then .ok (array.chunks chunkIdx) else .error .outOfBounds

/-- `LockFreeStringArray::load_chunk`, with the memo it leaves. Null is not remembered. -/
def loadChunk (memo : Option LastChunk) (array : PlacedArray) (chunkIdx : Nat) :
    Except Fault (Option Address × Option LastChunk) :=
  match array.remembered memo chunkIdx with
  | some ptr => .ok (some ptr, memo)
  | none =>
      match array.storedChunk chunkIdx with
      | .error fault => .error fault
      | .ok none => .ok (none, memo)
      | .ok (some ptr) =>
          .ok (some ptr, some ⟨array.internerId, array.address, chunkIdx, ptr⟩)

/-- `LockFreeStringArray::push`, with the address a new chunk would get. -/
def push (heap : ChunkHeap) (array : PlacedArray) (offset : Nat) (fresh : Address) :
    Outcome (ChunkHeap × PlacedArray) Nat :=
  let index := array.len
  let chunkIdx := index / CHUNK_SIZE
  let slotIdx := index % CHUNK_SIZE
  if NUM_CHUNKS ≤ chunkIdx then .error .outOfBounds (heap, { array with len := index + 1 })
  else
    match array.chunks chunkIdx with
    | some ptr => .ok index (heap.store ptr slotIdx offset, { array with len := index + 1 })
    | none => .ok index ((heap.allocNewChunk fresh).store fresh slotIdx offset,
        { array with
          len := index + 1
          chunks := Function.update array.chunks chunkIdx (some fresh) })

/-- The chunks and the array that a push leaves, also when it panics. -/
def afterPush (heap : ChunkHeap) (array : PlacedArray) (offset : Nat) (fresh : Address) :
    ChunkHeap × PlacedArray :=
  match array.push heap offset fresh with
  | .ok _ after | .error _ after => after

/-- The array that an array at an address stands for. -/
def toArray (heap : ChunkHeap) (array : PlacedArray) : LockFreeStringArray where
  internerId := array.internerId
  chunks := fun chunkIdx => (array.chunks chunkIdx).bind heap
  len := array.len

/-- The pointers that the drop of an array frees. -/
def holds (array : PlacedArray) (ptr : Address) : Bool :=
  (List.range NUM_CHUNKS).any fun chunkIdx => array.chunks chunkIdx = some ptr

end PlacedArray

namespace PlacedArray

variable {heap : ChunkHeap} {array : PlacedArray} {offset : Nat} {fresh : Address}

/-- What a push does to an array and to the chunks, whether or not it fails: chunks stay
where they are, and the one that the array may get lies at the fresh address. -/
structure Pushed (heap : ChunkHeap) (array : PlacedArray) (fresh : Address)
    (after : ChunkHeap × PlacedArray) : Prop where
  internerId : after.2.internerId = array.internerId
  address : after.2.address = array.address
  kept : ∀ {chunkIdx ptr}, array.chunks chunkIdx = some ptr → after.2.chunks chunkIdx = some ptr
  gained : ∀ {chunkIdx ptr}, after.2.chunks chunkIdx = some ptr →
    array.chunks chunkIdx = some ptr ∨
      ptr = fresh ∧ chunkIdx = array.len / CHUNK_SIZE ∧ heap fresh = none
  allocated : ∀ {ptr}, heap ptr ≠ none → after.1 ptr ≠ none
  present : ∀ {chunkIdx ptr}, after.2.chunks chunkIdx = some ptr →
    array.chunks chunkIdx = none → after.1 ptr ≠ none
  others : ∀ {ptr}, (∀ chunkIdx, array.chunks chunkIdx ≠ some ptr) → heap ptr ≠ none →
    after.1 ptr = heap ptr

private theorem pushed_of_error {fault : Fault} {after : ChunkHeap × PlacedArray}
    (failed : array.push heap offset fresh = .error fault after) :
    array.Pushed heap fresh after := by
  unfold push at failed
  dsimp only at failed
  split at failed
  · cases failed
    exact ⟨rfl, rfl, id, Or.inl, id, fun here absent => by simp_all, fun _ _ => rfl⟩
  · split at failed <;> cases failed

private theorem pushed_of_ok {index : Nat} {after : ChunkHeap × PlacedArray}
    (unused : heap fresh = none)
    (success : array.push heap offset fresh = .ok index after) :
    array.Pushed heap fresh after := by
  unfold push at success
  dsimp only at success
  split at success
  · cases success
  split at success
  · rename_i ptr stored
    cases success
    refine ⟨rfl, rfl, id, Or.inl, ?_, fun here absent => by simp_all, ?_⟩
    · intro place allocated freed
      exact allocated (ChunkHeap.store_eq_none.mp freed)
    · intro place apart _
      exact ChunkHeap.store_of_ne fun same => apart _ (same ▸ stored)
  · rename_i absent
    cases success
    refine ⟨rfl, rfl, ?_, ?_, ?_, ?_, ?_⟩
    · intro chunkIdx ptr here
      have different : chunkIdx ≠ array.len / CHUNK_SIZE := by
        rintro rfl
        cases absent.symm.trans here
      exact (Function.update_of_ne different _ _).trans here
    · intro chunkIdx ptr here
      dsimp only at here
      by_cases same : chunkIdx = array.len / CHUNK_SIZE
      · subst same
        rw [Function.update_self] at here
        exact Or.inr ⟨(Option.some.inj here).symm, rfl, unused⟩
      · rw [Function.update_of_ne same] at here
        exact Or.inl here
    · intro ptr allocated
      have different : ptr ≠ fresh := by
        rintro rfl
        exact allocated unused
      dsimp only
      rwa [ChunkHeap.store_of_ne different, ChunkHeap.allocNewChunk_of_ne different]
    · intro chunkIdx ptr here missing
      dsimp only at here
      by_cases same : chunkIdx = array.len / CHUNK_SIZE
      · subst same
        rw [Function.update_self] at here
        cases here
        simp
      · rw [Function.update_of_ne same, missing] at here
        cases here
    · intro ptr _ allocated
      have different : ptr ≠ fresh := by
        rintro rfl
        exact allocated unused
      dsimp only
      rw [ChunkHeap.store_of_ne different, ChunkHeap.allocNewChunk_of_ne different]

theorem pushed_afterPush (array : PlacedArray) (offset : Nat) (unused : heap fresh = none) :
    array.Pushed heap fresh (array.afterPush heap offset fresh) := by
  unfold afterPush
  cases pushed : array.push heap offset fresh with
  | ok index after => exact pushed_of_ok unused pushed
  | error fault after => exact pushed_of_error pushed

/-- A push to an array whose chunks lie apart is a push to the array that it stands for. -/
theorem toArray_push
    (present : ∀ {chunkIdx ptr}, array.chunks chunkIdx = some ptr → heap ptr ≠ none)
    (apart : ∀ {left right ptr}, array.chunks left = some ptr → array.chunks right = some ptr →
      left = right) (unused : heap fresh = none) :
    (array.push heap offset fresh).mapState (fun after => after.2.toArray after.1) =
      (array.toArray heap).push offset := by
  change _ = LockFreeStringArray.push
    ⟨array.internerId, fun chunkIdx => (array.chunks chunkIdx).bind heap, array.len⟩ offset
  unfold push LockFreeStringArray.push
  dsimp only
  by_cases outside : NUM_CHUNKS ≤ array.len / CHUNK_SIZE
  · rw [if_pos outside, if_pos outside]
    rfl
  rw [if_neg outside, if_neg outside]
  cases stored : array.chunks (array.len / CHUNK_SIZE) with
  | some ptr =>
      obtain ⟨chunk, held⟩ := Option.ne_none_iff_exists'.mp (present stored)
      refine congrArg (fun chunks => EStateM.Result.ok array.len
        (LockFreeStringArray.mk array.internerId chunks (array.len + 1)))
          (funext fun chunkIdx => ?_)
      by_cases same : chunkIdx = array.len / CHUNK_SIZE
      · subst same
        simp [stored, held]
      · rw [if_neg same]
        cases other : array.chunks chunkIdx with
        | none => rfl
        | some place =>
            have different : place ≠ ptr := fun equal => same (apart other (equal ▸ stored))
            simp [ChunkHeap.store_of_ne different]
  | none =>
      refine congrArg (fun chunks => EStateM.Result.ok array.len
        (LockFreeStringArray.mk array.internerId chunks (array.len + 1)))
          (funext fun chunkIdx => ?_)
      by_cases same : chunkIdx = array.len / CHUNK_SIZE
      · subst same
        simp
      · dsimp only
        rw [if_neg same, Function.update_of_ne same]
        cases other : array.chunks chunkIdx with
        | none => rfl
        | some place =>
            have different : place ≠ fresh := by
              rintro rfl
              exact present other unused
            simp [ChunkHeap.store_of_ne different, ChunkHeap.allocNewChunk_of_ne different]

theorem toArray_afterPush
    (present : ∀ {chunkIdx ptr}, array.chunks chunkIdx = some ptr → heap ptr ≠ none)
    (apart : ∀ {left right ptr}, array.chunks left = some ptr → array.chunks right = some ptr →
      left = right) (unused : heap fresh = none) :
    (array.afterPush heap offset fresh).2.toArray (array.afterPush heap offset fresh).1 =
      (array.toArray heap).afterPush offset := by
  rw [LockFreeStringArray.afterPush, ← toArray_push present apart unused]
  unfold afterPush
  cases array.push heap offset fresh <;> rfl

end PlacedArray

end Boomerang
