import Boomerang.Foundation.Transition
import Boomerang.Interner.PlacedArray

/-!
# The memo of the last chunk

A thread keeps one memo for all arrays: the interner id, the address of the array and the
chunk index of the last load, and the pointer that it read. An interner that is dropped
frees its chunks and its arrays, and later ones may lie at the same addresses; ids are
never given out twice. So the memo answers for no array but the one that it was read from,
and the arrays at their addresses do what the arrays that they stand for do.
-/

namespace Boomerang

open Foundation

/-- What a call of a thread does to the arrays. -/
inductive ArrayCall where
  /-- `StringInterner::with_capacity_and_shards`, with the addresses of the arrays. -/
  | create (count : Nat) (place : Nat → Address)
  /-- The interner is dropped. -/
  | drop (handle : Nat)
  /-- `push` on the array of a shard, with the address a new chunk would get. -/
  | push (handle shardId offset : Nat) (fresh : Address)
  /-- `load_chunk` on the array of a shard. -/
  | lookup (handle shardId chunkIdx : Nat)

/-- `NEXT_INTERNER_ID`, the boxed shards of the live interners by the order of their
creation, the chunks, and the memo of the thread. -/
structure Process where
  nextInternerId : Nat
  created : Nat
  interners : Nat → Option (List PlacedArray)
  heap : ChunkHeap
  lastChunk : Option LastChunk

namespace Process

/-- Before any interner is created. -/
def start : Process := ⟨1, 0, fun _ => none, fun _ => none, none⟩

/-- The array of a shard of a live interner. -/
def At (process : Process) (handle shardId : Nat) (array : PlacedArray) : Prop :=
  ∃ shards, process.interners handle = some shards ∧ shards[shardId]? = some array

/-- The arrays of a new interner. -/
def newShards (process : Process) (count : Nat) (place : Nat → Address) : List PlacedArray :=
  (List.range (clampShardCount count)).map fun shardId =>
    .new process.nextInternerId (place shardId)

/-- `StringInterner::with_capacity_and_shards`. -/
def create (process : Process) (count : Nat) (place : Nat → Address) : Process :=
  { process with
    nextInternerId := (process.nextInternerId + 1) % u32Range
    created := process.created + 1
    interners := Function.update process.interners process.created
      (some (process.newShards count place)) }

/-- `LockFreeStringArray::drop` of every shard. -/
def dropShards (process : Process) (handle : Nat) (shards : List PlacedArray) : Process :=
  { process with
    interners := Function.update process.interners handle none
    heap := fun ptr => if shards.any fun array => array.holds ptr then none else process.heap ptr }

/-- Replace the array of a shard, and the chunks. -/
def replace (process : Process) (handle shardId : Nat) (shards : List PlacedArray)
    (after : ChunkHeap × PlacedArray) : Process :=
  { process with
    interners := Function.update process.interners handle (some (shards.set shardId after.2))
    heap := after.1 }

/-- One call. The allocator gives the arrays of one interner different addresses, and a
new chunk an address where no chunk is. -/
inductive Step : Process → ArrayCall → Process → Prop where
  | create {process count place}
      (apart : ∀ left < clampShardCount count, ∀ right < clampShardCount count,
        place left = place right → left = right) :
      Step process (.create count place) (process.create count place)
  | drop {process handle shards} (live : process.interners handle = some shards) :
      Step process (.drop handle) (process.dropShards handle shards)
  | push {process handle shardId offset fresh shards array}
      (live : process.interners handle = some shards) (inside : shards[shardId]? = some array)
      (unused : process.heap fresh = none) :
      Step process (.push handle shardId offset fresh)
        (process.replace handle shardId shards (array.afterPush process.heap offset fresh))
  | lookup {process handle shardId chunkIdx array loaded memo}
      (here : process.At handle shardId array)
      (success : array.loadChunk process.lastChunk chunkIdx = .ok (loaded, memo)) :
      Step process (.lookup handle shardId chunkIdx) { process with lastChunk := memo }

end Process

namespace Process

variable {process next : Process} {handle shardId other otherShard : Nat}
variable {array found : PlacedArray}

theorem At.unique (here : process.At handle shardId array)
    (there : process.At handle shardId found) : array = found := by
  obtain ⟨shards, live, listed⟩ := here
  obtain ⟨others, alive, member⟩ := there
  cases live.symm.trans alive
  exact Option.some.inj (listed.symm.trans member)

theorem at_create {count : Nat} {place : Nat → Address} :
    (process.create count place).At handle shardId array ↔
      if handle = process.created then
        shardId < clampShardCount count ∧ array = .new process.nextInternerId (place shardId)
      else process.At handle shardId array := by
  by_cases same : handle = process.created
  · subst same
    have listed : (process.newShards count place)[shardId]? = some array ↔
        shardId < clampShardCount count ∧
          array = .new process.nextInternerId (place shardId) := by
      rw [newShards, List.getElem?_map, Option.map_eq_some_iff]
      simp only [List.getElem?_eq_some_iff, List.getElem_range, List.length_range]
      constructor
      · rintro ⟨_, ⟨bound, rfl⟩, rfl⟩
        exact ⟨bound, rfl⟩
      · rintro ⟨bound, rfl⟩
        exact ⟨_, ⟨bound, rfl⟩, rfl⟩
    simp [At, create, listed]
  · simp [At, create, same]

theorem heap_create {count : Nat} {place : Nat → Address} :
    (process.create count place).heap = process.heap := rfl

theorem at_dropShards {shards : List PlacedArray} :
    (process.dropShards other shards).At handle shardId array ↔
      handle ≠ other ∧ process.At handle shardId array := by
  by_cases same : handle = other
  · subst same
    simp [At, dropShards]
  · simp [At, dropShards, same]

theorem at_replace {shards : List PlacedArray} {after : ChunkHeap × PlacedArray}
    (live : process.interners other = some shards) (inside : shards[otherShard]? = some found) :
    (process.replace other otherShard shards after).At handle shardId array ↔
      if handle = other ∧ shardId = otherShard then array = after.2
      else process.At handle shardId array := by
  have bound := (List.getElem?_eq_some_iff.mp inside).1
  by_cases same : handle = other
  · subst same
    by_cases shard : shardId = otherShard
    · subst shard
      simp [At, replace, List.getElem?_set_self bound, eq_comm]
    · simp [At, replace, List.getElem?_set_ne (Ne.symm shard), shard, live]
  · simp [At, replace, same]

/-- The drop of an interner frees its chunks. -/
theorem freed_dropShards {shards : List PlacedArray} (member : array ∈ shards) {chunkIdx : Nat}
    (inRange : chunkIdx < NUM_CHUNKS) {ptr : Address} (stored : array.chunks chunkIdx = some ptr) :
    (process.dropShards other shards).heap ptr = none := by
  refine if_pos (List.any_eq_true.mpr ⟨array, member, List.any_eq_true.mpr ⟨chunkIdx, ?_, ?_⟩⟩)
  · exact List.mem_range.mpr inRange
  · exact decide_eq_true stored

/-- What holds of the arrays, the chunks and the memo. The id of an interner tells when it
was created. A chunk belongs to one slot of one array. The memo names an interner that was
created, and if the array that it names is there, its pointer is in the slot. -/
structure Sound (process : Process) : Prop where
  nextId : process.nextInternerId = (process.created + 1) % u32Range
  unborn : ∀ {handle}, process.created ≤ handle → process.interners handle = none
  ids : ∀ {handle shardId array}, process.At handle shardId array →
    array.internerId = handle + 1
  apart : ∀ {handle left right array found}, process.At handle left array →
    process.At handle right found → array.address = found.address → left = right
  owned : ∀ {handle shardId array chunkIdx other otherShard found otherIdx ptr},
    process.At handle shardId array → array.chunks chunkIdx = some ptr →
      process.At other otherShard found → found.chunks otherIdx = some ptr →
        other = handle ∧ otherShard = shardId ∧ otherIdx = chunkIdx
  allocated : ∀ {handle shardId array chunkIdx ptr}, process.At handle shardId array →
    array.chunks chunkIdx = some ptr → process.heap ptr ≠ none
  inRange : ∀ {last}, process.lastChunk = some last → last.cachedIdx < NUM_CHUNKS
  known : ∀ {last}, process.lastChunk = some last → last.cachedId ≤ process.created
  remembers : ∀ {last handle shardId array}, process.lastChunk = some last →
    process.At handle shardId array → last.cachedId = array.internerId →
      last.cachedAddr = array.address → array.chunks last.cachedIdx = some last.ptr

theorem sound_start : Sound start where
  nextId := rfl
  unborn := fun _ => rfl
  ids := by simp [At, start]
  apart := by simp [At, start]
  owned := by simp [At, start]
  allocated := by simp [At, start]
  inRange := by simp [start]
  known := by simp [start]
  remembers := by simp [start]

namespace Sound

variable (sound : process.Sound)
include sound

theorem lt_created (here : process.At handle shardId array) : handle < process.created := by
  obtain ⟨shards, live, _⟩ := here
  by_contra late
  cases live.symm.trans (sound.unborn (Nat.le_of_not_lt late))

/-- With fewer than 2^32 ids given out, the next one is new. -/
theorem nextInternerId_eq (few : process.created + 1 < u32Range) :
    process.nextInternerId = process.created + 1 := by
  rw [sound.nextId, Nat.mod_eq_of_lt few]

/-- A new interner has an id that the memo does not name. -/
theorem create {count : Nat} {place : Nat → Address} (few : process.created + 1 < u32Range)
    (apart : ∀ left < clampShardCount count, ∀ right < clampShardCount count,
      place left = place right → left = right) : (process.create count place).Sound := by
  have nextId := sound.nextInternerId_eq few
  constructor
  case nextId =>
    simp only [Process.create, nextId]
  case unborn =>
    intro handle late
    have later : handle ≠ process.created := Nat.ne_of_gt late
    simp only [Process.create, Function.update_of_ne later]
    exact sound.unborn (Nat.le_of_succ_le late)
  case ids =>
    intro handle shardId array here
    rw [at_create] at here
    split at here
    · rename_i same
      rw [here.2, PlacedArray.new, nextId, same]
    · exact sound.ids here
  case apart =>
    intro handle left right array found here there same
    rw [at_create] at here there
    split at here
    · rename_i new
      rw [if_pos new] at there
      rw [here.2, there.2] at same
      exact apart left here.1 right there.1 same
    · rename_i old
      rw [if_neg old] at there
      exact sound.apart here there same
  case owned =>
    intro handle shardId array chunkIdx other otherShard found otherIdx ptr here stored there same
    rw [at_create] at here there
    split at here
    · rw [here.2] at stored
      cases stored
    · split at there
      · rw [there.2] at same
        cases same
      · exact sound.owned here stored there same
  case allocated =>
    intro handle shardId array chunkIdx ptr here stored
    rw [at_create] at here
    split at here
    · rw [here.2] at stored
      cases stored
    · exact sound.allocated here stored
  case inRange => exact sound.inRange
  case known => exact fun remembered => Nat.le_succ_of_le (sound.known remembered)
  case remembers =>
    intro last handle shardId array remembered here sameId sameAddress
    rw [at_create] at here
    split at here
    · have old := sound.known remembered
      rw [sameId, here.2] at old
      exact absurd (nextId ▸ old) (Nat.not_succ_le_self _)
    · exact sound.remembers remembered here sameId sameAddress

/-- The drop of an interner frees no chunk of another one. -/
theorem kept_dropShards {shards : List PlacedArray} (live : process.interners other = some shards)
    (here : process.At handle shardId array) (different : handle ≠ other) {chunkIdx : Nat}
    {ptr : Address} (stored : array.chunks chunkIdx = some ptr) :
    (process.dropShards other shards).heap ptr = process.heap ptr := by
  have kept : shards.any (fun array => array.holds ptr) = false := by
    refine List.any_eq_false.mpr fun dropped member holds => different ?_
    obtain ⟨idx, _, held⟩ := List.any_eq_true.mp holds
    obtain ⟨place, bound, rfl⟩ := List.getElem_of_mem member
    have there : process.At other place shards[place] :=
      ⟨shards, live, List.getElem?_eq_getElem bound⟩
    exact (sound.owned there (of_decide_eq_true held) here stored).1
  simp only [Process.dropShards, kept, Bool.false_eq_true, if_false]

theorem dropShards {shards : List PlacedArray} (live : process.interners handle = some shards) :
    (process.dropShards handle shards).Sound := by
  constructor
  case nextId => exact sound.nextId
  case unborn =>
    intro other late
    by_cases same : other = handle
    · simp [Process.dropShards, same]
    · simp only [Process.dropShards, Function.update_of_ne same]
      exact sound.unborn late
  case ids => exact fun here => sound.ids (at_dropShards.mp here).2
  case apart =>
    exact fun here there => sound.apart (at_dropShards.mp here).2 (at_dropShards.mp there).2
  case owned =>
    exact fun here stored there =>
      sound.owned (at_dropShards.mp here).2 stored (at_dropShards.mp there).2
  case allocated =>
    intro other otherShard array chunkIdx ptr here stored
    obtain ⟨different, here⟩ := at_dropShards.mp here
    rw [sound.kept_dropShards live here different stored]
    exact sound.allocated here stored
  case inRange => exact sound.inRange
  case known => exact sound.known
  case remembers =>
    exact fun remembered here => sound.remembers remembered (at_dropShards.mp here).2

/-- A push to an array leaves the other arrays and the chunks that are there. -/
theorem replace {shards : List PlacedArray} {fresh : Address} {after : ChunkHeap × PlacedArray}
    (live : process.interners handle = some shards) (inside : shards[shardId]? = some array)
    (pushed : array.Pushed process.heap fresh after) :
    (process.replace handle shardId shards after).Sound := by
  have here : process.At handle shardId array := ⟨shards, live, inside⟩
  -- Every array afterwards comes from one with the same id, the same address and its chunks.
  have origin : ∀ {other otherShard found},
      (process.replace handle shardId shards after).At other otherShard found →
        ∃ before, process.At other otherShard before ∧ found.internerId = before.internerId ∧
          found.address = before.address ∧
          (∀ {idx ptr}, before.chunks idx = some ptr → found.chunks idx = some ptr) ∧
          ∀ {idx ptr}, found.chunks idx = some ptr → before.chunks idx = some ptr ∨
            ptr = fresh ∧ process.heap fresh = none ∧
              other = handle ∧ otherShard = shardId ∧ idx = array.len / CHUNK_SIZE := by
    intro other otherShard found there
    rw [at_replace live inside] at there
    split at there
    · rename_i same
      obtain ⟨rfl, rfl⟩ := same
      subst there
      refine ⟨array, here, pushed.internerId, pushed.address, pushed.kept, fun stored => ?_⟩
      rcases pushed.gained stored with old | ⟨new, place, unused⟩
      · exact Or.inl old
      · exact Or.inr ⟨new, unused, rfl, rfl, place⟩
    · exact ⟨found, there, rfl, rfl, id, Or.inl⟩
  constructor
  case nextId => exact sound.nextId
  case unborn =>
    intro other late
    have different : other ≠ handle :=
      Nat.ne_of_gt (Nat.lt_of_lt_of_le (sound.lt_created here) late)
    simp only [Process.replace, Function.update_of_ne different]
    exact sound.unborn late
  case ids =>
    intro other otherShard found there
    obtain ⟨before, was, id, _⟩ := origin there
    rw [id, sound.ids was]
  case apart =>
    intro other left right leftArray rightArray leftHere rightHere same
    obtain ⟨leftBefore, leftWas, _, leftAddress, _⟩ := origin leftHere
    obtain ⟨rightBefore, rightWas, _, rightAddress, _⟩ := origin rightHere
    exact sound.apart leftWas rightWas (leftAddress.symm.trans (same.trans rightAddress))
  case owned =>
    intro left leftShard leftArray leftIdx right rightShard rightArray rightIdx ptr
      leftHere leftStored rightHere rightStored
    obtain ⟨leftBefore, leftWas, _, _, _, leftGained⟩ := origin leftHere
    obtain ⟨rightBefore, rightWas, _, _, _, rightGained⟩ := origin rightHere
    rcases leftGained leftStored with leftOld | ⟨leftNew, unused, rfl, rfl, rfl⟩
    · rcases rightGained rightStored with rightOld | ⟨rfl, unused, _⟩
      · exact sound.owned leftWas leftOld rightWas rightOld
      · exact absurd unused (sound.allocated leftWas leftOld)
    · rcases rightGained rightStored with rightOld | ⟨_, _, rfl, rfl, rfl⟩
      · exact absurd unused (leftNew ▸ sound.allocated rightWas rightOld)
      · exact ⟨rfl, rfl, rfl⟩
  case allocated =>
    intro other otherShard found chunkIdx ptr there stored
    rw [at_replace live inside] at there
    split at there
    · subst there
      cases old : array.chunks chunkIdx with
      | none => exact pushed.present stored old
      | some before =>
          cases stored.symm.trans (pushed.kept old)
          exact pushed.allocated (sound.allocated here old)
    · exact pushed.allocated (sound.allocated there stored)
  case inRange => exact sound.inRange
  case known => exact sound.known
  case remembers =>
    intro last other otherShard found remembered there sameId sameAddress
    obtain ⟨before, was, id, address, kept, _⟩ := origin there
    exact kept (sound.remembers remembered was (sameId.trans id) (sameAddress.trans address))

/-- What the memo holds for a chunk of an array that is there is in the slot. -/
theorem remembered_eq_some (here : process.At handle shardId array) {chunkIdx : Nat}
    {ptr : Address} (hit : array.remembered process.lastChunk chunkIdx = some ptr) :
    array.storedChunk chunkIdx = .ok (some ptr) := by
  cases remembered : process.lastChunk with
  | none =>
      rw [remembered] at hit
      cases hit
  | some last =>
      rw [remembered, PlacedArray.remembered] at hit
      split at hit
      · rename_i same
        obtain ⟨sameId, sameAddress, rfl⟩ := same
        cases hit
        rw [PlacedArray.storedChunk, if_pos (sound.inRange remembered),
          sound.remembers remembered here sameId sameAddress]
      · cases hit

/-- A load returns the pointer in the slot. -/
theorem loadChunk_eq (here : process.At handle shardId array) (chunkIdx : Nat) :
    (array.loadChunk process.lastChunk chunkIdx).map Prod.fst = array.storedChunk chunkIdx := by
  rw [PlacedArray.loadChunk]
  cases hit : array.remembered process.lastChunk chunkIdx with
  | some ptr => exact (sound.remembered_eq_some here hit).symm
  | none =>
      cases array.storedChunk chunkIdx with
      | error fault => rfl
      | ok stored => cases stored <;> rfl

/-- The chunk behind the pointer is the one that the array without addresses loads. -/
theorem toArray_loadChunk (here : process.At handle shardId array) (chunkIdx : Nat) :
    (array.loadChunk process.lastChunk chunkIdx).map (fun loaded => loaded.1.bind process.heap) =
      (array.toArray process.heap).loadChunk chunkIdx := by
  have same := congrArg (Except.map fun ptr => ptr.bind process.heap)
    (sound.loadChunk_eq here chunkIdx)
  have stored : (array.storedChunk chunkIdx).map (fun ptr => ptr.bind process.heap) =
      (array.toArray process.heap).loadChunk chunkIdx := by
    unfold PlacedArray.storedChunk LockFreeStringArray.loadChunk
    split <;> rfl
  rw [← stored, ← same]
  cases array.loadChunk process.lastChunk chunkIdx <;> rfl

/-- A load leaves a memo that tells the truth. -/
theorem lookup (here : process.At handle shardId array) {chunkIdx : Nat}
    {loaded : Option Address} {memo : Option LastChunk}
    (success : array.loadChunk process.lastChunk chunkIdx = .ok (loaded, memo)) :
    { process with lastChunk := memo }.Sound := by
  have cases : memo = process.lastChunk ∨ ∃ ptr, array.storedChunk chunkIdx = .ok (some ptr) ∧
      memo = some ⟨array.internerId, array.address, chunkIdx, ptr⟩ := by
    rw [PlacedArray.loadChunk] at success
    split at success
    · cases success
      exact Or.inl rfl
    · split at success
      · cases success
      · cases success
        exact Or.inl rfl
      · rename_i ptr stored
        cases success
        exact Or.inr ⟨ptr, stored, rfl⟩
  rcases cases with rfl | ⟨ptr, stored, rfl⟩
  · exact sound
  · rw [PlacedArray.storedChunk] at stored
    split at stored
    · rename_i inRange
      refine ⟨sound.nextId, sound.unborn, sound.ids, sound.apart, sound.owned, sound.allocated,
        ?_, ?_, ?_⟩
      · rintro _ ⟨⟩
        exact inRange
      · rintro _ ⟨⟩
        have created := sound.lt_created here
        rw [sound.ids here]
        exact created
      · rintro _ other otherShard found ⟨⟩ there sameId sameAddress
        -- The id tells the interner, and the address its array.
        have sameHandle : other = handle := by
          rw [sound.ids here, sound.ids there] at sameId
          exact (Nat.succ.inj sameId).symm
        subst sameHandle
        cases sound.apart here there sameAddress
        cases here.unique there
        exact Except.ok.inj stored
    · cases stored

end Sound

/-- A push leaves what the other arrays stand for. -/
theorem Sound.toArray_replace (sound : process.Sound) {shards : List PlacedArray} {fresh : Address}
    {after : ChunkHeap × PlacedArray} (live : process.interners handle = some shards)
    (inside : shards[shardId]? = some array) (pushed : array.Pushed process.heap fresh after)
    (there : process.At other otherShard found)
    (different : ¬ (other = handle ∧ otherShard = shardId)) :
    found.toArray after.1 = found.toArray process.heap := by
  refine congrArg (LockFreeStringArray.mk found.internerId · found.len) (funext fun chunkIdx => ?_)
  cases stored : found.chunks chunkIdx with
  | none => rfl
  | some ptr =>
      refine pushed.others (fun idx same => different ?_) (sound.allocated there stored)
      obtain ⟨sameHandle, sameShard, _⟩ := sound.owned ⟨shards, live, inside⟩ same there stored
      exact ⟨sameHandle, sameShard⟩

/-- The drop of an interner leaves what the arrays of the others stand for. -/
theorem Sound.toArray_dropShards (sound : process.Sound) {shards : List PlacedArray}
    (live : process.interners other = some shards) (here : process.At handle shardId array)
    (different : handle ≠ other) :
    array.toArray (process.dropShards other shards).heap = array.toArray process.heap := by
  refine congrArg (LockFreeStringArray.mk array.internerId · array.len) (funext fun chunkIdx => ?_)
  cases stored : array.chunks chunkIdx with
  | none => rfl
  | some ptr => exact sound.kept_dropShards live here different stored

/-- What an array stands for after a call is what it stood for before, or what `push` makes
of that, or a new array. -/
theorem Step.refines {call : ArrayCall} (sound : process.Sound) (step : Step process call next)
    (there : next.At handle shardId array) :
    handle = process.created ∧
        array.toArray next.heap = LockFreeStringArray.new process.nextInternerId ∨
      ∃ before, process.At handle shardId before ∧
        (array.toArray next.heap = before.toArray process.heap ∨
          ∃ offset fresh, call = .push handle shardId offset fresh ∧
            array.toArray next.heap = (before.toArray process.heap).afterPush offset) := by
  cases step with
  | create apart =>
      rw [at_create] at there
      split at there
      · rename_i new
        rw [there.2]
        exact Or.inl ⟨new, rfl⟩
      · exact Or.inr ⟨array, there, Or.inl rfl⟩
  | drop live =>
      obtain ⟨different, here⟩ := at_dropShards.mp there
      exact Or.inr ⟨array, here, Or.inl (sound.toArray_dropShards live here different)⟩
  | @push _ _ offset fresh shards before live inside unused =>
      have here : process.At _ _ before := ⟨shards, live, inside⟩
      rw [at_replace live inside] at there
      split at there
      · rename_i same
        obtain ⟨rfl, rfl⟩ := same
        subst there
        refine Or.inr ⟨before, here, Or.inr ⟨offset, fresh, rfl, ?_⟩⟩
        exact PlacedArray.toArray_afterPush (sound.allocated here)
          (fun left right => (sound.owned here right here left).2.2) unused
      · rename_i different
        exact Or.inr ⟨array, there, Or.inl (sound.toArray_replace live inside
          (PlacedArray.pushed_afterPush before offset unused) there different)⟩
  | lookup here success => exact Or.inr ⟨array, there, Or.inl rfl⟩

/-- The number of interners that a sequence of calls creates. -/
def creations (calls : List ArrayCall) : Nat :=
  (calls.filter fun call => match call with
    | .create _ _ => true
    | _ => false).length

/-- The invariant after every run that creates fewer than 2^32 interners. -/
theorem sound_of_run {calls : List ArrayCall} (run : Steps Step start calls process)
    (few : creations calls < u32Range) : process.Sound ∧ process.created = creations calls := by
  induction run with
  | refl => exact ⟨sound_start, rfl⟩
  | @step calls middle call next prior transition ih =>
      have counted : creations (calls ++ [call]) = creations calls + creations [call] := by
        rw [creations, List.filter_append, List.length_append]
        rfl
      rw [counted] at few ⊢
      obtain ⟨sound, created⟩ := ih (Nat.lt_of_le_of_lt (Nat.le_add_right _ _) few)
      rw [← created] at few ⊢
      cases transition with
      | create apart => exact ⟨sound.create few apart, rfl⟩
      | drop live => exact ⟨sound.dropShards live, rfl⟩
      | push live inside unused =>
          exact ⟨sound.replace live inside (PlacedArray.pushed_afterPush _ _ unused), rfl⟩
      | lookup here success => exact ⟨sound.lookup here success, rfl⟩

/-- After every run of a thread that creates fewer than 2^32 interners, `load_chunk` on an
array of a live interner returns the pointer in its own slot, and this pointer is to a
chunk that is allocated and in no other slot of a live array. -/
theorem loadChunk_of_run {calls : List ArrayCall} (run : Steps Step start calls process)
    (few : creations calls < u32Range) (here : process.At handle shardId array) (chunkIdx : Nat) :
    (array.loadChunk process.lastChunk chunkIdx).map Prod.fst = array.storedChunk chunkIdx ∧
      ∀ ptr memo, array.loadChunk process.lastChunk chunkIdx = .ok (some ptr, memo) →
        process.heap ptr ≠ none ∧ ∀ other otherShard found otherIdx,
          process.At other otherShard found → found.chunks otherIdx = some ptr →
            other = handle ∧ otherShard = shardId ∧ otherIdx = chunkIdx := by
  obtain ⟨sound, _⟩ := sound_of_run run few
  have same := sound.loadChunk_eq here chunkIdx
  refine ⟨same, fun ptr memo success => ?_⟩
  rw [success, Except.map, PlacedArray.storedChunk] at same
  split at same
  · have stored : array.chunks chunkIdx = some ptr := (Except.ok.inj same).symm
    exact ⟨sound.allocated here stored, fun other otherShard found otherIdx there =>
      sound.owned here stored there⟩
  · cases same

/-- A second interner gets the addresses of the first one, whose chunk is in the memo. -/
theorem loadChunk_of_run_reused : ∃ (process : Process) (array : PlacedArray),
    process.At 1 0 array ∧ process.lastChunk = some ⟨1, 64, 0, 4096⟩ ∧ array.address = 64 ∧
      array.chunks 0 = some 4096 ∧
        (array.loadChunk process.lastChunk 0).map Prod.fst = array.storedChunk 0 := by
  let place : Nat → Address := fun _ => 64
  let first := start.create 1 place
  let pushed := (PlacedArray.new 1 64).afterPush first.heap 4 4096
  let stored := first.replace 0 0 [.new 1 64] pushed
  let loaded : Process := { stored with lastChunk := some ⟨1, 64, 0, 4096⟩ }
  let dropped := loaded.dropShards 0 [pushed.2]
  let second := dropped.create 1 place
  let again := (PlacedArray.new 2 64).afterPush second.heap 4 4096
  let last := second.replace 1 0 [.new 2 64] again
  have apart : ∀ left < clampShardCount 1, ∀ right < clampShardCount 1,
      place left = place right → left = right := by decide
  have held : pushed.2.chunks 0 = some 4096 := rfl
  have freed : dropped.heap 4096 = none :=
    freed_dropShards (List.mem_singleton_self _) (by decide) held
  have stores : Step first (.push 0 0 4 4096) stored := .push rfl rfl rfl
  have loads : Step stored (.lookup 0 0 0) loaded :=
    .lookup (show stored.At 0 0 pushed.2 from ⟨[pushed.2], rfl, rfl⟩) rfl
  have drops : Step loaded (.drop 0) dropped := .drop rfl
  have storesAgain : Step second (.push 1 0 4 4096) last :=
    .push rfl rfl ((congrFun heap_create 4096).trans freed)
  have run : Steps Step start [.create 1 place, .push 0 0 4 4096, .lookup 0 0 0, .drop 0,
      .create 1 place, .push 1 0 4 4096] last :=
    .cons (.create apart) <| .cons stores <| .cons loads <| .cons drops <|
      .cons (.create apart) (.single storesAgain)
  have here : last.At 1 0 again.2 := ⟨[again.2], rfl, rfl⟩
  exact ⟨last, again.2, here, rfl, rfl, rfl, (loadChunk_of_run run (by decide) here 0).1⟩

end Process

end Boomerang
