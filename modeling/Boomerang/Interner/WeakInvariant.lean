import Boomerang.Interner.WeakMemory
import Boomerang.Interner.Interning

/-!
# What holds between the accesses

A log says how far the strings of a shard have come: written to the arena, committed by
the cursor, counted by the length, stored in a slot and numbered in the table. Between two
inserting sections the five agree, up to the last index there is a slot or a symbol for.
The invariant ties every write in the shared memory to the log and to the view it
releases, so that who acquires it has seen the record it leads to.
-/

namespace Boomerang.WeakMemory

open Foundation

/-- How far the strings of a shard have come. -/
structure Log where
  written : List String
  committed : Nat
  counted : Nat
  stored : Nat
  numbered : Nat

namespace Log

/-- Nothing was inserted. -/
def empty : Log := ⟨[], 0, 0, 0, 0⟩

/-- The arena bytes of the first strings. -/
def sizeTo (log : Log) (count : Nat) : Nat := recordsSize (log.written.take count)

/-- No insertion is under way. -/
structure Settled (log : Log) : Prop where
  committed : log.committed = log.written.length
  counted : log.counted = log.written.length
  stored : log.stored = min log.written.length (NUM_CHUNKS * CHUNK_SIZE)
  numbered : log.numbered = min log.written.length Symbol.indexMask.toNat

/-- A later log of the same shard. -/
structure Grows (log grown : Log) : Prop where
  written : log.written <+: grown.written
  committed : log.committed ≤ grown.committed
  stored : log.stored ≤ grown.stored
  numbered : log.numbered ≤ grown.numbered

namespace Grows

variable {log grown : Log}

theorem refl (log : Log) : Grows log log :=
  ⟨List.prefix_rfl, Nat.le_refl _, Nat.le_refl _, Nat.le_refl _⟩

theorem getElem? (grows : Grows log grown) {index : Nat} {value : String}
    (here : log.written[index]? = some value) : grown.written[index]? = some value := by
  obtain ⟨more, grownEq⟩ := grows.written
  rw [← grownEq, List.getElem?_append_left (List.getElem?_eq_some_iff.mp here).1, here]

theorem take_eq (grows : Grows log grown) {count : Nat} (within : count ≤ log.written.length) :
    grown.written.take count = log.written.take count := by
  obtain ⟨more, grownEq⟩ := grows.written
  rw [← grownEq, List.take_append_of_le_length within]

theorem sizeTo_eq (grows : Grows log grown) {count : Nat} (within : count ≤ log.written.length) :
    grown.sizeTo count = log.sizeTo count := by
  rw [sizeTo, sizeTo, grows.take_eq within]

end Grows

theorem sizeTo_mono (log : Log) {first second : Nat} (ordered : first ≤ second) :
    log.sizeTo first ≤ log.sizeTo second := by
  obtain ⟨more, rfl⟩ := Nat.exists_eq_add_of_le ordered
  rw [sizeTo, sizeTo, List.take_add, recordsSize_append]
  omega

theorem sizeTo_succ (log : Log) {index : Nat} {value : String}
    (here : log.written[index]? = some value) :
    log.sizeTo (index + 1) = log.sizeTo index + paddedSize (byteLength value) := by
  rw [sizeTo, sizeTo, List.take_add_one, here, recordsSize_append]
  exact congrArg _ (recordsSize_singleton value)

/-- Fewer strings take strictly fewer bytes. -/
theorem lt_of_sizeTo_le (log : Log) {index count : Nat} {value : String}
    (here : log.written[index]? = some value) (le : log.sizeTo (index + 1) ≤ log.sizeTo count) :
    index < count := by
  by_contra notBelow
  have size := log.sizeTo_succ here
  have positive := paddedSize_pos (byteLength value)
  have fewer := log.sizeTo_mono (Nat.le_of_not_lt notBelow)
  omega

theorem sizeTo_length (log : Log) : log.sizeTo log.written.length = recordsSize log.written := by
  rw [sizeTo, List.take_length]

end Log

/-- A string a call may carry to the locked sections. -/
structure Proper (profile : Profile) (value : String) : Prop where
  notStatic : staticSymbol? value = none
  storable : MemoryPool.Storable profile value

/-- The view is past the writes to a stretch of the arena. -/
def Covers (histories : Histories Cell) (view : View Cell) (address length : Nat) : Prop :=
  ∀ place, address ≤ place → place < address + length → histories.Seen view (.byte place)

/-- The chunk of a shard points to this address. -/
def Installed (histories : Histories Cell) (shardId chunkIdx ptr : Nat) : Prop :=
  ptr ≠ 0 ∧ ∃ stamp message, histories (.chunk shardId chunkIdx) stamp = some message ∧
    message.value = ptr

/-- The view is past the zeros the chunk was filled with. -/
def Zeroed (histories : Histories Cell) (view : View Cell) (ptr : Nat) : Prop :=
  ∀ slotIdx < CHUNK_SIZE, 0 < view (.slot ptr slotIdx) ∧
    ∀ stamp message, histories (.slot ptr slotIdx) stamp = some message → message.plain = true →
      stamp ≤ view (.slot ptr slotIdx)

/-- A pointer a thread may follow. -/
structure Pointed (histories : Histories Cell) (view : View Cell) (shardId chunkIdx ptr : Nat) :
    Prop where
  installed : Installed histories shardId chunkIdx ptr
  zeroed : Zeroed histories view ptr

/-- The view is past everything that the number of a string depends on. -/
structure Knows (histories : Histories Cell) (log : Log) (view : View Cell)
    (shardId index : Nat) : Prop where
  numbered : index < log.numbered
  len : histories.AtLeast 0 view (.len shardId) (index + 1)
  chunk : histories.AtLeast 0 view (.chunk shardId (index / CHUNK_SIZE)) 1
  slot : ∃ ptr, Installed histories shardId (index / CHUNK_SIZE) ptr ∧
    histories.AtLeast 1 view (.slot ptr (index % CHUNK_SIZE)) 1
  cursor : histories.AtLeast 0 view (.cursor shardId) (log.sizeTo (index + 1))

/-- The lock a thread holds, and whether to write. -/
def Task.lock (home : String → Nat) : Task → Option (Nat × Bool)
  | .looking lookup => some (home lookup.value, decide (lookup.mode = .insert))
  | .reading call =>
      match call.reason with
      | .resolve _ => none
      | .probe lookup | .confirm lookup _ =>
          some (home lookup.value, decide (lookup.mode = .insert))
  | .inserting value _ => some (home value, true)
  | .leaving mode value _ => some (home value, decide (mode = .insert))
  | .idle | .missed _ | .exporting _ | .crashed => none

/-- A chunk a thread has allocated and not installed yet. -/
def Task.pending : Task → Option (String × Nat × Nat)
  | .inserting value (.install _ index ptr) => some (value, index / CHUNK_SIZE, ptr)
  | _ => none

namespace State

variable {build : Build}

/-- The shard a string is kept in. -/
abbrev home (state : State build) (value : String) : Nat := state.made.shardOf value

/-- The first address of a shard's region. -/
abbrev base (state : State build) (shardId : Nat) : Nat := state.made.pool.regionStart shardId

/-- The chunk of a shard points to this address, or is about to. -/
def Owned (state : State build) (shardId chunkIdx ptr : Nat) : Prop :=
  Installed state.histories shardId chunkIdx ptr ∨
    ∃ thread value, (state.locals thread).task.pending = some (value, chunkIdx, ptr) ∧
      state.home value = shardId

/-- The cells that only the writer of a shard writes. -/
def Belongs (state : State build) (shardId : Nat) : Cell → Prop
  | .byte address => state.base shardId ≤ address ∧
      address < state.base shardId + state.made.pool.regionSize
  | .cursor other | .poisoned other | .len other | .chunk other _ => other = shardId
  | .slot ptr _ => ∃ chunkIdx, state.Owned shardId chunkIdx ptr

/-- The view is past every write to the cells of a shard. -/
def UpToDate (state : State build) (shardId : Nat) (view : View Cell) : Prop :=
  ∀ cell, state.Belongs shardId cell → state.histories.Seen view cell

/-- What a slot holds. The index is the one it stands for. -/
structure SlotHolds (state : State build) (shardId : Nat) (log : Log) (index ptr slotIdx : Nat) :
    Prop where
  writes : ∀ stamp message, 0 < stamp →
    state.histories (.slot ptr slotIdx) stamp = some message →
      message.value = 0 ∨ index < log.stored ∧
        message.value = state.base shardId + log.sizeTo index ∧
        Covers state.histories message.view (state.base shardId) (log.sizeTo (index + 1))
  ends : state.histories.Ends (.slot ptr slotIdx)
    (if index < log.stored then state.base shardId + log.sizeTo index else 0)
  filled : ∃ stamp message, 0 < stamp ∧ state.histories (.slot ptr slotIdx) stamp = some message
  ascends : state.histories.Ascends 1 (.slot ptr slotIdx)

/-- A log that a shard can have. -/
structure LogSound (state : State build) (shardId : Nat) (log : Log) : Prop where
  proper : ∀ value ∈ log.written, state.home value = shardId ∧ staticSymbol? value = none ∧
    byteLength value + 7 < u32Range
  room : recordsSize log.written ≤ state.made.pool.regionSize
  committed_le : log.committed ≤ log.written.length
  counted_le : log.counted ≤ log.committed
  stored_le : log.stored ≤ log.counted
  stored_fits : log.stored ≤ NUM_CHUNKS * CHUNK_SIZE
  numbered_le : log.numbered ≤ log.stored
  distinct : (log.written.take log.numbered).Nodup

/-- The arena holds the records. -/
structure RecordsSound (state : State build) (shardId : Nat) (log : Log) : Prop where
  record : ∀ index value, log.written[index]? = some value → ∀ position byte,
    (recordBytes value)[position]? = some byte →
      state.histories.Ends (.byte (state.base shardId + log.sizeTo index + position)) byte.toNat

/-- A cursor releases the records below it. -/
structure CursorSound (state : State build) (shardId : Nat) (log : Log) : Prop where
  cursor : ∀ stamp message, state.histories (.cursor shardId) stamp = some message →
    ∃ count ≤ log.committed, message.value = log.sizeTo count ∧
      Covers state.histories message.view (state.base shardId) message.value
  cursorEnds : state.histories.Ends (.cursor shardId) (log.sizeTo log.committed)
  cursorAscends : state.histories.Ascends 0 (.cursor shardId)

/-- The length counts its own writes. -/
structure LenSound (state : State build) (shardId : Nat) (log : Log) : Prop where
  len : ∀ stamp message, state.histories (.len shardId) stamp = some message →
    message.value = stamp
  lenEnds : state.histories.Ends (.len shardId) log.counted

/-- A chunk pointer is null or releases the zeros of its chunk. -/
structure ChunksSound (state : State build) (shardId : Nat) (log : Log) : Prop where
  chunk : ∀ chunkIdx stamp message,
    state.histories (.chunk shardId chunkIdx) stamp = some message →
      stamp = 0 ∧ message.value = 0 ∨
        stamp = 1 ∧ message.value ≠ 0 ∧ Zeroed state.histories message.view message.value
  reach : ∀ index < log.stored, ∃ ptr, Installed state.histories shardId (index / CHUNK_SIZE) ptr

/-- The slots hold the offsets of the stored strings. -/
structure SlotsSound (state : State build) (shardId : Nat) (log : Log) : Prop where
  slots : ∀ chunkIdx ptr, state.Owned shardId chunkIdx ptr → ∀ slotIdx < CHUNK_SIZE,
    state.SlotHolds shardId log (chunkIdx * CHUNK_SIZE + slotIdx) ptr slotIdx

/-- The table holds the entries of the numbered strings. -/
structure TableSound (state : State build) (shardId : Nat) (log : Log) : Prop where
  count : (state.tables shardId).length = log.numbered
  entry : ∀ index value, index < log.numbered → log.written[index]? = some value →
    ∃ symbol, Symbol.new (UInt8.ofNat shardId) index = .ok symbol ∧
      (state.tables shardId)[index]? = some ⟨hashOf build value, prefix8 (bytes value), symbol⟩

/-- The shared memory and the table of a shard agree with its log. -/
structure Shelf (state : State build) (shardId : Nat) (log : Log) : Prop extends
  LogSound state shardId log, RecordsSound state shardId log, CursorSound state shardId log,
  LenSound state shardId log, ChunksSound state shardId log, SlotsSound state shardId log,
  TableSound state shardId log

/-- Who holds the lock of a shard. -/
structure LockHeld (state : State build) (shardId : Nat) : Prop where
  writer : ∀ thread, (state.locks shardId).writer = some thread ↔
    (state.locals thread).task.lock state.home = some (shardId, true)
  readers : ∀ thread, thread ∈ (state.locks shardId).readers ↔
    (state.locals thread).task.lock state.home = some (shardId, false)
  nodup : (state.locks shardId).readers.Nodup
  exclusive : (state.locks shardId).writer ≠ none → (state.locks shardId).readers = []

end State

section Locals

variable {build : Build} (made : StringInterner build) (histories : Histories Cell)
  (logs : Nat → Log)

/-- A symbol that was issued for a string, known to the view. -/
def Held (view : View Cell) (symbol : Symbol) (value : String) : Prop :=
  ∃ shardId index, shardId < made.shardCount ∧
    Symbol.new (UInt8.ofNat shardId) index = .ok symbol ∧
    (logs shardId).written[index]? = some value ∧
    Knows histories (logs shardId) view shardId index

/-- A lookup has read the texts of the entries. -/
structure LookupSound (lookup : Lookup) : Prop where
  proper : Proper build.profile lookup.value
  settled : lookup.mode = .insert → (logs (made.shardOf lookup.value)).Settled
  seen : ∀ index text, (index, text) ∈ lookup.seen →
    index < (logs (made.shardOf lookup.value)).numbered ∧
      text = (logs (made.shardOf lookup.value)).written[index]?

/-- A text is read for a reason. -/
def ReasonSound (reading : Reading) : Prop :=
  match reading.reason with
  | .resolve symbol => reading.shardId = symbol.shardId ∧
      symbol.index build.profile = .ok reading.index
  | .probe lookup => LookupSound made logs lookup ∧
      reading.shardId = made.shardOf lookup.value ∧
      reading.index < (logs reading.shardId).numbered
  | .confirm lookup symbol => LookupSound made logs lookup ∧
      reading.shardId = made.shardOf lookup.value ∧
      reading.index < (logs reading.shardId).numbered ∧
      Symbol.new (UInt8.ofNat reading.shardId) reading.index = .ok symbol ∧
      (logs reading.shardId).written[reading.index]? = some lookup.value

/-- A text is read as far as this stage. -/
def StageSound (view : View Cell) (reading : Reading) : Prop :=
  match reading.stage with
  | .entered => reading.checked = true
  | .bounded => True
  | .pointed ptr => Pointed histories view reading.shardId (reading.index / CHUNK_SIZE) ptr
  | .placed offset => reading.index < (logs reading.shardId).stored ∧
      offset = made.pool.regionStart reading.shardId +
        (logs reading.shardId).sizeTo reading.index ∧
      Covers histories view (made.pool.regionStart reading.shardId)
        ((logs reading.shardId).sizeTo (reading.index + 1))

structure ReadingSound (view : View Cell) (reading : Reading) : Prop where
  shardId : reading.shardId < made.shardCount
  reason : ReasonSound made logs reading
  unchecked : reading.checked = false →
    Knows histories (logs reading.shardId) view reading.shardId reading.index
  stage : StageSound made histories logs view reading

/-- The string was written at this index and the counters are this far. -/
structure Underway (value : String) (index committed counted stored : Nat) : Prop where
  written : ∃ before, (logs (made.shardOf value)).written = before ++ [value] ∧
    before.length = index
  fresh : value ∉ (logs (made.shardOf value)).written.take (logs (made.shardOf value)).numbered
  committed : (logs (made.shardOf value)).committed = committed
  counted : (logs (made.shardOf value)).counted = counted
  stored : (logs (made.shardOf value)).stored = stored
  numbered : (logs (made.shardOf value)).numbered = min index Symbol.indexMask.toNat

/-- An insertion has come this far. -/
def InsertionSound (view : View Cell) (value : String) : Insertion → Prop
  | .poisoned | .space | .refuse => (logs (made.shardOf value)).Settled ∧
      value ∉ (logs (made.shardOf value)).written.take (logs (made.shardOf value)).numbered
  | .copy current => (logs (made.shardOf value)).Settled ∧
      value ∉ (logs (made.shardOf value)).written.take (logs (made.shardOf value)).numbered ∧
      current = recordsSize (logs (made.shardOf value)).written ∧
      current + paddedSize (byteLength value) ≤ made.pool.regionSize
  | .commit current => ∃ index,
      Underway made logs value index index index (min index (NUM_CHUNKS * CHUNK_SIZE)) ∧
        current = (logs (made.shardOf value)).sizeTo index
  | .count offset => ∃ index,
      Underway made logs value index (index + 1) index (min index (NUM_CHUNKS * CHUNK_SIZE)) ∧
        offset = made.pool.regionStart (made.shardOf value) +
          (logs (made.shardOf value)).sizeTo index
  | .locate offset index =>
      Underway made logs value index (index + 1) (index + 1)
          (min index (NUM_CHUNKS * CHUNK_SIZE)) ∧
        offset = made.pool.regionStart (made.shardOf value) +
          (logs (made.shardOf value)).sizeTo index
  | .install offset index _ =>
      Underway made logs value index (index + 1) (index + 1) index ∧
        index < NUM_CHUNKS * CHUNK_SIZE ∧
        offset = made.pool.regionStart (made.shardOf value) +
          (logs (made.shardOf value)).sizeTo index ∧
        histories.Ends (.chunk (made.shardOf value) (index / CHUNK_SIZE)) 0
  | .point offset index ptr =>
      Underway made logs value index (index + 1) (index + 1) index ∧
        index < NUM_CHUNKS * CHUNK_SIZE ∧
        offset = made.pool.regionStart (made.shardOf value) +
          (logs (made.shardOf value)).sizeTo index ∧
        Installed histories (made.shardOf value) (index / CHUNK_SIZE) ptr ∧
        Zeroed histories view ptr
  | .number index =>
      Underway made logs value index (index + 1) (index + 1) (index + 1) ∧
        index < NUM_CHUNKS * CHUNK_SIZE

/-- The cursors an export has loaded, and how much of each shard they cover. -/
structure ExportSound (view : View Cell) (held : List (Symbol × String)) (used : List Nat) :
    Prop where
  length : used.length ≤ made.shardCount
  loaded : ∀ shardId size, used[shardId]? = some size → ∃ count ≤ (logs shardId).committed,
    size = (logs shardId).sizeTo count ∧
      Covers histories view (made.pool.regionStart shardId) size ∧
      ∀ symbol value index, (symbol, value) ∈ held →
        Symbol.new (UInt8.ofNat shardId) index = .ok symbol → index < count

/-- A task has come as far as it says. -/
def TaskSound (view : View Cell) (held : List (Symbol × String)) : Task → Prop
  | .idle => True
  | .reading reading => ReadingSound made histories logs view reading
  | .looking lookup => LookupSound made logs lookup
  | .missed value => Proper build.profile value
  | .inserting value stage => Proper build.profile value ∧
      (stage ≠ .poisoned → byteLength value + 7 < u32Range) ∧
      InsertionSound made histories logs view value stage
  | .leaving mode value verdict => Proper build.profile value ∧
      (mode = .insert → (logs (made.shardOf value)).Settled) ∧
      (verdict = .miss →
        value ∉ (logs (made.shardOf value)).written.take (logs (made.shardOf value)).numbered) ∧
      ∀ symbol, verdict = .issue symbol → Held made histories logs view symbol value
  | .exporting used => ExportSound made histories logs view held used
  | .crashed => False

structure LocalSound (loc : Local) : Prop where
  memo : ∀ shardId chunkIdx ptr, loc.memo = some (shardId, chunkIdx, ptr) →
    Pointed histories loc.view shardId chunkIdx ptr
  held : ∀ symbol value, (symbol, value) ∈ loc.held →
    Held made histories logs loc.view symbol value
  task : TaskSound made histories logs loc.view loc.held loc.task

end Locals

namespace State

variable {build : Build}

/-- The invariant. -/
structure Sound (state : State build) (logs : Nat → Log) : Prop where
  made : state.made.Layout Contents.empty
  shelf : ∀ shardId < state.made.shardCount, state.Shelf shardId (logs shardId)
  kept : ∀ shardId < state.made.shardCount, (state.locks shardId).writer = none →
    state.UpToDate shardId (state.locks shardId).view ∧ (logs shardId).Settled
  fresh : ∀ thread shardId writes,
    (state.locals thread).task.lock state.home = some (shardId, writes) →
      state.UpToDate shardId (state.locals thread).view
  locks : ∀ shardId, state.LockHeld shardId
  threads : ∀ thread, LocalSound state.made state.histories logs (state.locals thread)
  owners : ∀ shardId chunkIdx ptr other otherIdx, state.Owned shardId chunkIdx ptr →
    state.Owned other otherIdx ptr → other = shardId ∧ otherIdx = chunkIdx
  bounded : ∀ shardId chunkIdx ptr, state.Owned shardId chunkIdx ptr →
    ptr ≠ 0 ∧ ptr ≤ state.lastPtr
  plain : ∀ cell stamp message, state.histories cell stamp = some message →
    message.plain = true →
      stamp = 0 ∨ (∃ address, cell = .byte address) ∨ ∃ ptr slotIdx, cell = .slot ptr slotIdx
  blank : ∀ ptr slotIdx, state.lastPtr < ptr → ∀ stamp message,
    state.histories (.slot ptr slotIdx) stamp = some message → stamp = 0
  header : ∀ address < 4, ∀ stamp message,
    state.histories (.byte address) stamp = some message →
      stamp = 0 ∧ message.value = (state.made.pool.memory address).toNat

end State

end Boomerang.WeakMemory
