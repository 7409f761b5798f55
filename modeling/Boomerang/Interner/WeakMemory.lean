import Boomerang.Foundation.ReleaseAcquire
import Boomerang.Interner.StringInterner
import Mathlib.Logic.Function.Basic

/-!
# An interner shared under release and acquire

Threads run `get_or_intern`, `get`, `resolve`, `resolve_unchecked` and `bytes` access by
access, each against its own view of the atomics and of the arena. The table of a shard
sits behind its reader-writer lock; the arena, the cursors and the offset arrays sit
behind none. `from_bytes` fills an interner that no other thread has.

`get_or_intern` and `get` are here the calls that find no candidate in the calling thread's
cache of symbols. A call that the cache answers, or a call with a static string, takes no
step; nor does the comparison with the text of a cached candidate of more than eight bytes,
a plain read of the arena under no lock that may run past the record. What is proved about
runs says nothing about such a comparison.
-/

namespace Boomerang.WeakMemory

open Foundation

/-- What threads access without the protection of a type. A slot belongs to the chunk at a
heap address. -/
inductive Cell where
  | byte (address : Nat)
  | cursor (shardId : Nat)
  | poisoned (shardId : Nat)
  | len (shardId : Nat)
  | chunk (shardId chunkIdx : Nat)
  | slot (ptr slotIdx : Nat)
deriving DecidableEq

/-- The cells of a stretch of the arena. -/
def stretch (address length : Nat) : List Cell :=
  (List.range length).map fun index => .byte (address + index)

/-- Which locked section a thread is in. -/
inductive Mode where
  /-- The read-locked section of `get_or_intern`. -/
  | find
  /-- `get`, read-locked. -/
  | get
  /-- The write-locked section of `get_or_intern`. -/
  | insert
deriving DecidableEq

/-- A lookup in a locked table, with the texts read so far by index. -/
structure Lookup where
  mode : Mode
  value : String
  seen : List (Nat × Option String)

/-- Who asked for the text of an index. -/
inductive Reason where
  /-- `resolve` or `resolve_unchecked`, which hold no lock. -/
  | resolve (symbol : Symbol)
  /-- The comparison of a table entry. -/
  | probe (lookup : Lookup)
  /-- The text of the entry that was found. -/
  | confirm (lookup : Lookup) (symbol : Symbol)

/-- How far `LockFreeStringArray::get` has come. -/
inductive Stage where
  | entered
  | bounded
  | pointed (ptr : Nat)
  | placed (offset : Nat)

/-- A call of `get`, or of `get_unchecked`, which starts past the length. -/
structure Reading where
  shardId : Nat
  index : Nat
  checked : Bool
  stage : Stage
  reason : Reason

/-- How far `alloc`, `push` and the numbering of a missing string have come. -/
inductive Insertion where
  | poisoned
  | space
  | refuse
  | copy (current : Nat)
  | commit (current : Nat)
  | count (offset : Nat)
  | locate (offset index : Nat)
  | install (offset index ptr : Nat)
  | point (offset index ptr : Nat)
  | number (index : Nat)

/-- What a locked section found out. -/
inductive Verdict where
  | issue (symbol : Symbol)
  | miss
  | panic

/-- What a thread's step tells the outside. -/
inductive Event where
  | silent
  | called (value : String)
  | resolved (symbol : Symbol) (text : Option String)
  | issued (value : String) (symbol : Symbol)
  | absent (value : String)
  | exported (out : List UInt8)
  | panicked

/-- What a thread is doing. -/
inductive Task where
  | idle
  | reading (reading : Reading)
  | looking (lookup : Lookup)
  /-- Between the two sections of `get_or_intern`. -/
  | missed (value : String)
  | inserting (value : String) (stage : Insertion)
  | leaving (mode : Mode) (value : String) (verdict : Verdict)
  /-- `committed_bytes`, with the cursors loaded so far. -/
  | exporting (used : List Nat)
  /-- A null pointer was followed. -/
  | crashed

/-- A thread: its view, its `LAST_CHUNK`, and the symbols it was given for strings. -/
structure Local where
  view : View Cell
  memo : Option (Nat × Nat × Nat)
  held : List (Symbol × String)
  task : Task

namespace Verdict

/-- What the caller of a locked section is told. -/
def event (verdict : Verdict) (mode : Mode) (value : String) : Event :=
  match verdict with
  | .issue symbol => .issued value symbol
  | .miss => if mode = .get then .absent value else .silent
  | .panic => .panicked

/-- What follows a locked section. -/
def next (verdict : Verdict) (mode : Mode) (value : String) : Task :=
  match verdict with
  | .miss => if mode = .find then .missed value else .idle
  | .issue _ | .panic => .idle

/-- The symbol a locked section gives its caller. -/
def given (verdict : Verdict) (value : String) : List (Symbol × String) :=
  match verdict with
  | .issue symbol => [(symbol, value)]
  | .miss | .panic => []

/-- A locked section tells of a symbol, of a missing string, of a panic, or nothing. -/
theorem event_ne {verdict : Verdict} {mode : Mode} {value : String} {other : Event}
    (notSilent : other ≠ .silent) (notPanicked : other ≠ .panicked)
    (notAbsent : other ≠ .absent value) (notIssued : ∀ symbol, other ≠ .issued value symbol) :
    verdict.event mode value ≠ other := by
  cases verdict with
  | issue symbol => exact (notIssued symbol).symm
  | miss =>
      simp only [event]
      split
      · exact notAbsent.symm
      · exact notSilent.symm
  | panic => exact notPanicked.symm

end Verdict

/-- Go on with another view and task. -/
def Local.go (loc : Local) (view : View Cell) (task : Task) : Local :=
  { loc with view := view, task := task }

/-- Go on with another task. -/
def Local.turn (loc : Local) (task : Task) : Local := loc.go loc.view task

/-- Happen after everything another thread has done, and take the symbols it was given. -/
def Local.join (loc other : Local) : Local :=
  { loc with view := loc.view ⊔ other.view, held := other.held ++ loc.held }

/-- Go on after a locked section. -/
def Local.leave (loc : Local) (mode : Mode) (value : String) (verdict : Verdict) : Local :=
  { loc with held := verdict.given value ++ loc.held, task := verdict.next mode value }

/-- A step: who took it, what it tells, and what it accesses. -/
structure Label where
  thread : Nat
  event : Event
  accesses : Accesses Cell

/-- The shared interner. `made` is the interner as it was created: its shape, its hash
mask and the bytes of its arena. -/
structure State (build : Build) where
  made : StringInterner build
  histories : Histories Cell
  /-- The last heap address handed out for a chunk; zero is the null pointer. -/
  lastPtr : Nat
  locks : Nat → RwLock Nat Cell
  tables : Nat → List Entry
  locals : Nat → Local

namespace Reading

/-- What a thread does with the text it was reading. -/
def finish (reading : Reading) (text : Option String) : Task × Event :=
  match reading.reason with
  | .resolve symbol => (.idle, .resolved symbol text)
  | .probe lookup =>
    (.looking { lookup with seen := (reading.index, text) :: lookup.seen }, .silent)
  | .confirm lookup symbol =>
      match text, lookup.mode with
      | some _, _ => (.leaving lookup.mode lookup.value (.issue symbol), .silent)
      | none, .get => (.leaving lookup.mode lookup.value .miss, .silent)
      -- `unwrap` on `None`.
      | none, _ => (.leaving lookup.mode lookup.value .panic, .silent)

/-- What a thread does after an index past the chunk table. -/
def fail (reading : Reading) : Task × Event :=
  match reading.reason with
  | .resolve _ => (.idle, .panicked)
  | .probe lookup | .confirm lookup _ => (.leaving lookup.mode lookup.value .panic, .silent)

/-- A call that read a text tells the answer or nothing. -/
theorem finish_ne {reading : Reading} {text : Option String} {event : Event}
    (notSilent : event ≠ .silent) (notResolved : ∀ symbol answer, event ≠ .resolved symbol answer) :
    (reading.finish text).2 ≠ event := by
  unfold finish
  cases reading.reason with
  | resolve symbol => exact (notResolved symbol text).symm
  | probe lookup => exact notSilent.symm
  | confirm lookup symbol =>
      cases text with
      | some found => exact notSilent.symm
      | none => cases modeEq : lookup.mode <;> simpa [modeEq] using notSilent.symm

end Reading

namespace State

variable {build : Build}

/-- What memory holds before any call. Heap memory holds `garbage` until it is written. -/
def initial (made : StringInterner build) (garbage : Nat → Nat → Nat) : Cell → Nat
  | .byte address => (made.pool.memory address).toNat
  | .slot ptr slotIdx => garbage ptr slotIdx
  | .cursor _ | .poisoned _ | .len _ | .chunk _ _ => 0

/-- A new interner, before any call. -/
def start (made : StringInterner build) (garbage : Nat → Nat → Nat) : State build where
  made := made
  histories := fun cell stamp =>
    if stamp = 0 then some ⟨initial made garbage cell, fun _ => 0, true⟩ else none
  lastPtr := 0
  locks := fun _ => .unlocked fun _ => 0
  tables := fun _ => []
  locals := fun _ => ⟨fun _ => 0, none, [], .idle⟩

/-- Set one thread. -/
def setLocal (state : State build) (thread : Nat) (next : Local) : State build :=
  { state with locals := Function.update state.locals thread next }

/-- Set the lock of one shard. -/
def setLock (state : State build) (shardId : Nat) (lock : RwLock Nat Cell) : State build :=
  { state with locks := Function.update state.locks shardId lock }

/-- Add an entry to the table of one shard. -/
def enter (state : State build) (shardId : Nat) (entry : Entry) : State build :=
  { state with
    tables := Function.update state.tables shardId (state.tables shardId ++ [entry]) }

/-- Write atomically, releasing the view that the thread goes on with. -/
def publish (state : State build) (thread : Nat) (cell : Cell) (stamp value : Nat)
    (view : View Cell) (task : Task) : State build :=
  { state with
    histories := state.histories.put cell stamp ⟨value, view.observe cell stamp, false⟩
    locals := Function.update state.locals thread
      ((state.locals thread).go (view.observe cell stamp) task) }

/-- Write many cells plainly. -/
def scribble (state : State build) (thread : Nat) (stamps : View Cell) (values : Cell → Option Nat)
    (view : View Cell) (task : Task) : State build :=
  { state with
    histories := state.histories.fill stamps values
    locals := Function.update state.locals thread
      ((state.locals thread).go (view.wrote stamps values) task) }

/-- The entry may be the value's: the comparisons before the text's. -/
def Candidate (state : State build) (value : String) (entry : Entry) : Prop :=
  entry ∈ state.tables (state.made.shardOf value) ∧ entry.hash = hashOf build value ∧
    entry.prefix8 = prefix8 (bytes value)

/-- Plain reads of a byte string, each byte any write the view allows. -/
def ReadsBytes (state : State build) (view : View Cell) (address : Nat) (raw : List UInt8) :
    Prop :=
  ∀ index byte, raw[index]? = some byte → ∃ stamp message,
    state.histories.Loads view (.byte (address + index)) stamp message ∧
      message.value = byte.toNat

/-- The arena offset of a new record, in the `u32` arithmetic of `alloc`. -/
def offsetOf (state : State build) (value : String) (current : Nat) : Nat :=
  (state.made.pool.regionStart (state.made.shardOf value) + current) % u32Range

/-- The length `alloc` stores for a string. -/
def storedLength (value : String) : Nat := byteLength value % u32Range

/-- The bytes `alloc` writes for a string. -/
def recordBytes (value : String) : List UInt8 :=
  toLE 4 (storedLength value) ++ (bytes value).take (storedLength value)

/-- The plain writes of a record. -/
def recordValues (offset : Nat) (raw : List UInt8) : Cell → Option Nat
  | .byte address => if offset ≤ address then raw[address - offset]?.map UInt8.toNat else none
  | _ => none

/-- The plain writes of `StringChunk::new_boxed`. -/
def zeroSlots (ptr : Nat) : Cell → Option Nat
  | .slot other slotIdx => if other = ptr ∧ slotIdx < CHUNK_SIZE then some 0 else none
  | _ => none

/-- The space left in a shard's region is too small. -/
def Exhausted (state : State build) (current size : Nat) : Prop :=
  state.made.pool.regionSize < current ∨ state.made.pool.regionSize - current < size

/-- The steps of a thread that change nothing but the thread: calls that take no lock,
loads, and decisions. -/
inductive Moves (state : State build) : Local → Event → Accesses Cell → Local → Prop where
  /-- `resolve` of a symbol of one of the shards. -/
  | resolve {loc : Local} {symbol index} (idle : loc.task = .idle)
      (index_ok : symbol.index build.profile = .ok index)
      (inRange : symbol.shardId < state.made.shardCount) :
      Moves state loc .silent {}
        (loc.turn (.reading ⟨symbol.shardId, index, true, .entered, .resolve symbol⟩))
  /-- `resolve_unchecked`, which asks its caller for a symbol of this interner. -/
  | resolveUnchecked {loc : Local} {symbol value} (idle : loc.task = .idle)
      (held : (symbol, value) ∈ loc.held) :
      Moves state loc .silent {}
        (loc.turn (.reading
          ⟨symbol.shardId, symbol.issuedIndex, false, .bounded, .resolve symbol⟩))
  | lenShort {loc : Local} {reading cell stamp message} (task : loc.task = .reading reading)
      (stage : reading.stage = .entered) (cellEq : cell = .len reading.shardId)
      (load : state.histories.Loads loc.view cell stamp message)
      (short : message.value ≤ reading.index) :
      Moves state loc (reading.finish none).2 { atomics := [cell] }
        (loc.go (loc.view.acquire cell stamp message) (reading.finish none).1)
  | lenPassed {loc : Local} {reading cell stamp message} (task : loc.task = .reading reading)
      (stage : reading.stage = .entered) (cellEq : cell = .len reading.shardId)
      (load : state.histories.Loads loc.view cell stamp message)
      (passed : reading.index < message.value) :
      Moves state loc .silent { atomics := [cell] }
        (loc.go (loc.view.acquire cell stamp message)
          (.reading { reading with stage := .bounded }))
  /-- `load_chunk` answers from `LAST_CHUNK`. -/
  | chunkMemo {loc : Local} {reading ptr} (task : loc.task = .reading reading)
      (stage : reading.stage = .bounded)
      (memo : loc.memo = some (reading.shardId, reading.index / CHUNK_SIZE, ptr)) :
      Moves state loc .silent {}
        (loc.turn (.reading { reading with stage := .pointed ptr }))
  | chunkOutside {loc : Local} {reading} (task : loc.task = .reading reading)
      (stage : reading.stage = .bounded) (outside : NUM_CHUNKS ≤ reading.index / CHUNK_SIZE) :
      Moves state loc reading.fail.2 {} (loc.turn reading.fail.1)
  | chunkLoad {loc : Local} {reading cell stamp message} (task : loc.task = .reading reading)
      (stage : reading.stage = .bounded) (inside : reading.index / CHUNK_SIZE < NUM_CHUNKS)
      (cellEq : cell = .chunk reading.shardId (reading.index / CHUNK_SIZE))
      (load : state.histories.Loads loc.view cell stamp message) (real : message.value ≠ 0) :
      Moves state loc .silent { atomics := [cell] }
        { loc.go (loc.view.acquire cell stamp message)
            (.reading { reading with stage := .pointed message.value }) with
          memo := some (reading.shardId, reading.index / CHUNK_SIZE, message.value) }
  | chunkNull {loc : Local} {reading cell stamp message} (task : loc.task = .reading reading)
      (stage : reading.stage = .bounded) (inside : reading.index / CHUNK_SIZE < NUM_CHUNKS)
      (cellEq : cell = .chunk reading.shardId (reading.index / CHUNK_SIZE))
      (load : state.histories.Loads loc.view cell stamp message) (null : message.value = 0) :
      Moves state loc (if reading.checked then (reading.finish none).2 else .silent)
        { atomics := [cell] }
        (loc.go (loc.view.acquire cell stamp message)
          (if reading.checked then (reading.finish none).1 else .crashed))
  | slotEmpty {loc : Local} {reading ptr cell stamp message} (task : loc.task = .reading reading)
      (stage : reading.stage = .pointed ptr) (checked : reading.checked = true)
      (cellEq : cell = .slot ptr (reading.index % CHUNK_SIZE))
      (load : state.histories.Loads loc.view cell stamp message) (zero : message.value = 0) :
      Moves state loc (reading.finish none).2 { atomics := [cell] }
        (loc.go (loc.view.acquire cell stamp message) (reading.finish none).1)
  | slotLoad {loc : Local} {reading ptr cell stamp message} (task : loc.task = .reading reading)
      (stage : reading.stage = .pointed ptr)
      (cellEq : cell = .slot ptr (reading.index % CHUNK_SIZE))
      (load : state.histories.Loads loc.view cell stamp message)
      (stored : reading.checked = false ∨ message.value ≠ 0) :
      Moves state loc .silent { atomics := [cell] }
        (loc.go (loc.view.acquire cell stamp message)
          (.reading { reading with stage := .placed message.value }))
  /-- The header and the text of a record, read plainly. -/
  | record {loc : Local} {reading offset header text} (task : loc.task = .reading reading)
      (stage : reading.stage = .placed offset) (headerLength : header.length = 4)
      (textLength : text.length = ofLE header)
      (readHeader : state.ReadsBytes loc.view offset header)
      (readText : state.ReadsBytes loc.view (offset + 4) text) :
      Moves state loc (reading.finish (some (fromUtf8Unchecked text))).2
        { reads := stretch offset (4 + text.length) }
        (loc.turn (reading.finish (some (fromUtf8Unchecked text))).1)
  /-- Another interner's load replaces the memo. -/
  | forget {loc : Local} : Moves state loc .silent {} { loc with memo := none }
  /-- Compare the next entry of the locked table; `find` reads its text unchecked. -/
  | probe {loc : Local} {lookup entry} (task : loc.task = .looking lookup)
      (candidate : state.Candidate lookup.value entry)
      (unread : ∀ text, (entry.symbol.issuedIndex, text) ∉ lookup.seen) :
      Moves state loc .silent {}
        (loc.turn (.reading ⟨state.made.shardOf lookup.value, entry.symbol.issuedIndex,
          decide (lookup.mode ≠ .find), if lookup.mode = .find then .bounded else .entered,
          .probe lookup⟩))
  /-- An entry had the value's text; the write-locked section reads it again unchecked. -/
  | found {loc : Local} {lookup entry} (task : loc.task = .looking lookup)
      (candidate : state.Candidate lookup.value entry)
      (equal : (entry.symbol.issuedIndex, some lookup.value) ∈ lookup.seen) :
      Moves state loc .silent {}
        (loc.turn (.reading ⟨state.made.shardOf lookup.value, entry.symbol.issuedIndex,
          decide (lookup.mode ≠ .insert), if lookup.mode = .insert then .bounded else .entered,
          .confirm lookup entry.symbol⟩))
  /-- Every candidate had another text. -/
  | notFound {loc : Local} {lookup} (task : loc.task = .looking lookup)
      (different : ∀ entry, state.Candidate lookup.value entry → ∃ text,
        (entry.symbol.issuedIndex, text) ∈ lookup.seen ∧ text ≠ some lookup.value) :
      Moves state loc .silent {}
        (loc.turn (if lookup.mode = .insert then .inserting lookup.value .poisoned
          else .leaving lookup.mode lookup.value .miss))
  | poisonedLoad {loc : Local} {value cell stamp message}
      (task : loc.task = .inserting value .poisoned)
      (cellEq : cell = .poisoned (state.made.shardOf value))
      (load : state.histories.Loads loc.view cell stamp message) :
      Moves state loc .silent { atomics := [cell] }
        (loc.go (loc.view.observe cell stamp)
          (if message.value ≠ 0 ∨ build.profile = .debug ∧ u32Range - 8 ≤ byteLength value then
            .leaving .insert value .panic
          else .inserting value .space))
  | sizeOverflow {loc : Local} {value fault} (task : loc.task = .inserting value .space)
      (size : paddedRecordSize build.profile (storedLength value) = .error fault) :
      Moves state loc .silent {} (loc.turn (.leaving .insert value .panic))
  | cursorFull {loc : Local} {value size cell stamp message}
      (task : loc.task = .inserting value .space)
      (size_ok : paddedRecordSize build.profile (storedLength value) = .ok size)
      (cellEq : cell = .cursor (state.made.shardOf value))
      (load : state.histories.Loads loc.view cell stamp message)
      (full : state.Exhausted message.value size) :
      Moves state loc .silent { atomics := [cell] }
        (loc.go (loc.view.observe cell stamp) (.inserting value .refuse))
  | cursorLoad {loc : Local} {value size cell stamp message}
      (task : loc.task = .inserting value .space)
      (size_ok : paddedRecordSize build.profile (storedLength value) = .ok size)
      (cellEq : cell = .cursor (state.made.shardOf value))
      (load : state.histories.Loads loc.view cell stamp message)
      (room : ¬ state.Exhausted message.value size) :
      Moves state loc .silent { atomics := [cell] }
        (loc.go (loc.view.observe cell stamp)
          (if build.profile = .debug ∧
              state.made.pool.capacity < state.offsetOf value message.value + size then
            .leaving .insert value .panic
          else .inserting value (.copy message.value)))
  | locateOutside {loc : Local} {value offset index}
      (task : loc.task = .inserting value (.locate offset index))
      (outside : NUM_CHUNKS ≤ index / CHUNK_SIZE) :
      Moves state loc .silent {} (loc.turn (.leaving .insert value .panic))
  /-- The chunk of a new index is there already. -/
  | located {loc : Local} {value offset index cell stamp message}
      (task : loc.task = .inserting value (.locate offset index))
      (inside : index / CHUNK_SIZE < NUM_CHUNKS)
      (cellEq : cell = .chunk (state.made.shardOf value) (index / CHUNK_SIZE))
      (load : state.histories.Loads loc.view cell stamp message) (real : message.value ≠ 0) :
      Moves state loc .silent { atomics := [cell] }
        (loc.go (loc.view.acquire cell stamp message)
          (.inserting value (.point offset index message.value)))
  /-- Another thread installed the chunk first. -/
  | installLost {loc : Local} {value offset index ptr cell stamp message}
      (task : loc.task = .inserting value (.install offset index ptr))
      (cellEq : cell = .chunk (state.made.shardOf value) (index / CHUNK_SIZE))
      (load : state.histories.Loads loc.view cell stamp message) (real : message.value ≠ 0) :
      Moves state loc .silent { atomics := [cell] }
        (loc.go (loc.view.acquire cell stamp message)
          (.inserting value (.point offset index message.value)))
  /-- The assertion in `Symbol::new` fails. -/
  | numberOverflow {loc : Local} {value index fault}
    (task : loc.task = .inserting value (.number index))
      (numbered : Symbol.new (UInt8.ofNat (state.made.shardOf value)) index = .error fault) :
      Moves state loc .silent {} (loc.turn (.leaving .insert value .panic))
  | exportCall {loc : Local} (idle : loc.task = .idle) :
      Moves state loc .silent {} (loc.turn (.exporting []))
  | exportCursor {loc : Local} {used cell stamp message} (task : loc.task = .exporting used)
      (more : used.length < state.made.shardCount) (cellEq : cell = .cursor used.length)
      (load : state.histories.Loads loc.view cell stamp message) :
      Moves state loc .silent { atomics := [cell] }
        (loc.go (loc.view.acquire cell stamp message)
          (.exporting (used ++ [min message.value state.made.pool.regionSize])))
  /-- The header and the used part of every region, read plainly. -/
  | exportCopy {loc : Local} {used} {header : List UInt8} {parts : List (List UInt8)}
      (task : loc.task = .exporting used)
      (all : used.length = state.made.shardCount)
      (headerLength : header.length = state.made.pool.headerSize)
      (readHeader : state.ReadsBytes loc.view 0 header)
      (lengths : parts.map List.length = used)
      (readParts : ∀ (shardId : Nat) (raw : List UInt8), parts[shardId]? = some raw →
        state.ReadsBytes loc.view (state.made.pool.regionStart shardId) raw) :
      Moves state loc (.exported (header ++ parts.flatten))
        { reads := stretch 0 state.made.pool.headerSize ++
            (used.zipIdx.flatMap fun part => stretch (state.made.pool.regionStart part.2) part.1) }
        (loc.turn .idle)

/-- One step of one thread. -/
inductive Step : State build → Label → State build → Prop where
  | move {state : State build} {thread event accesses next}
      (moves : state.Moves (state.locals thread) event accesses next) :
      Step state ⟨thread, event, accesses⟩ (state.setLocal thread next)
  /-- The client orders one thread after another, and passes symbols along. -/
  | sync {state : State build} {thread other : Nat}
      (idle : (state.locals thread).task = .idle) :
      Step state ⟨thread, .silent, {}⟩
        (state.setLocal thread ((state.locals thread).join (state.locals other)))
  /-- `get_or_intern` or `get` of a string that is not static takes the read lock. -/
  | share {state : State build} {thread mode value} (idle : (state.locals thread).task = .idle)
      (shared : mode ≠ .insert) (notStatic : staticSymbol? value = none)
      (free : (state.locks (state.made.shardOf value)).writer = none) :
      Step state ⟨thread, .called value, {}⟩
        ((state.setLock (state.made.shardOf value)
            ((state.locks (state.made.shardOf value)).share thread)).setLocal thread
          ((state.locals thread).go
            ((state.locals thread).view ⊔ (state.locks (state.made.shardOf value)).view)
            (.looking ⟨mode, value, []⟩)))
  | lock {state : State build} {thread value}
      (missed : (state.locals thread).task = .missed value)
      (free : (state.locks (state.made.shardOf value)).writer = none)
      (unshared : (state.locks (state.made.shardOf value)).readers = []) :
      Step state ⟨thread, .silent, {}⟩
        ((state.setLock (state.made.shardOf value)
            ((state.locks (state.made.shardOf value)).lockFor thread)).setLocal thread
          ((state.locals thread).go
            ((state.locals thread).view ⊔ (state.locks (state.made.shardOf value)).view)
            (.looking ⟨.insert, value, []⟩)))
  | unshare {state : State build} {thread mode value verdict}
      (task : (state.locals thread).task = .leaving mode value verdict) (shared : mode ≠ .insert) :
      Step state ⟨thread, verdict.event mode value, {}⟩
        ((state.setLock (state.made.shardOf value)
            ((state.locks (state.made.shardOf value)).unshare thread
              (state.locals thread).view)).setLocal thread
          ((state.locals thread).leave mode value verdict))
  | unlock {state : State build} {thread value verdict}
      (task : (state.locals thread).task = .leaving .insert value verdict) :
      Step state ⟨thread, verdict.event .insert value, {}⟩
        ((state.setLock (state.made.shardOf value)
            ((state.locks (state.made.shardOf value)).unlock (state.locals thread).view)).setLocal
          thread ((state.locals thread).leave .insert value verdict))
  /-- `shard.poisoned.store(true, Release)`. -/
  | poison {state : State build} {thread value cell stamp}
      (task : (state.locals thread).task = .inserting value .refuse)
      (cellEq : cell = .poisoned (state.made.shardOf value))
      (vacant : state.histories.Vacant (state.locals thread).view cell stamp) :
      Step state ⟨thread, .silent, { atomics := [cell] }⟩
        (state.publish thread cell stamp 1 (state.locals thread).view
          (.leaving .insert value .panic))
  /-- The header and the text of a new record, written plainly. -/
  | copy {state : State build} {thread value current values} {stamps : View Cell}
      (task : (state.locals thread).task = .inserting value (.copy current))
      (valuesEq : values = recordValues (state.offsetOf value current) (recordBytes value))
      (vacant : ∀ cell, (values cell).isSome →
        state.histories.Vacant (state.locals thread).view cell (stamps cell)) :
      Step state
        ⟨thread, .silent,
          { writes := stretch (state.offsetOf value current) (recordBytes value).length }⟩
        (state.scribble thread stamps values (state.locals thread).view
          (.inserting value (.commit current)))
  /-- `shard.value.store(current + size, Release)`. -/
  | commit {state : State build} {thread value current size cell stamp}
      (task : (state.locals thread).task = .inserting value (.commit current))
      (size_ok : paddedRecordSize build.profile (storedLength value) = .ok size)
      (cellEq : cell = .cursor (state.made.shardOf value))
      (vacant : state.histories.Vacant (state.locals thread).view cell stamp) :
      Step state ⟨thread, .silent, { atomics := [cell] }⟩
        (state.publish thread cell stamp (current + size) (state.locals thread).view
          (.inserting value (.count (state.offsetOf value current))))
  /-- `self.len.fetch_add(1, AcqRel)`, right after the write it reads. -/
  | count {state : State build} {thread value offset cell stamp message}
      (task : (state.locals thread).task = .inserting value (.count offset))
      (cellEq : cell = .len (state.made.shardOf value))
      (load : state.histories.Loads (state.locals thread).view cell stamp message)
      (free : state.histories cell (stamp + 1) = none) :
      Step state ⟨thread, .silent, { atomics := [cell] }⟩
        (state.publish thread cell (stamp + 1) (message.value + 1)
          ((state.locals thread).view.acquire cell stamp message)
          (.inserting value (.locate offset message.value)))
  /-- The chunk of a new index is missing: allocate one and write zeros plainly. -/
  | allocate {state : State build} {thread value offset index cell stamp message values}
      {stamps : View Cell}
      (task : (state.locals thread).task = .inserting value (.locate offset index))
      (inside : index / CHUNK_SIZE < NUM_CHUNKS)
      (cellEq : cell = .chunk (state.made.shardOf value) (index / CHUNK_SIZE))
      (load : state.histories.Loads (state.locals thread).view cell stamp message)
      (null : message.value = 0)
      (valuesEq : values = zeroSlots (state.lastPtr + 1))
      (vacant : ∀ cell, (values cell).isSome →
        state.histories.Vacant (state.locals thread).view cell (stamps cell)) :
      Step state
        ⟨thread, .silent,
          { writes := (List.range CHUNK_SIZE).map (.slot (state.lastPtr + 1))
            atomics := [cell] }⟩
        ({ state with lastPtr := state.lastPtr + 1 }.scribble thread stamps values
          ((state.locals thread).view.acquire cell stamp message)
          (.inserting value (.install offset index (state.lastPtr + 1))))
  /-- `compare_exchange(null, new_chunk, AcqRel, Acquire)` succeeds. -/
  | install {state : State build} {thread value offset index ptr cell stamp message}
      (task : (state.locals thread).task = .inserting value (.install offset index ptr))
      (cellEq : cell = .chunk (state.made.shardOf value) (index / CHUNK_SIZE))
      (load : state.histories.Loads (state.locals thread).view cell stamp message)
      (null : message.value = 0) (free : state.histories cell (stamp + 1) = none) :
      Step state ⟨thread, .silent, { atomics := [cell] }⟩
        (state.publish thread cell (stamp + 1) ptr
          ((state.locals thread).view.acquire cell stamp message)
          (.inserting value (.point offset index ptr)))
  /-- `chunk.offsets[slot_idx].store(offset, Release)`. -/
  | point {state : State build} {thread value offset index ptr cell stamp}
      (task : (state.locals thread).task = .inserting value (.point offset index ptr))
      (cellEq : cell = .slot ptr (index % CHUNK_SIZE))
      (vacant : state.histories.Vacant (state.locals thread).view cell stamp) :
      Step state ⟨thread, .silent, { atomics := [cell] }⟩
        (state.publish thread cell stamp offset (state.locals thread).view
          (.inserting value (.number index)))
  /-- `entry.insert((hash, prefix, symbol))`. -/
  | number {state : State build} {thread value index symbol}
      (task : (state.locals thread).task = .inserting value (.number index))
      (numbered : Symbol.new (UInt8.ofNat (state.made.shardOf value)) index = .ok symbol) :
      Step state ⟨thread, .silent, {}⟩
        ((state.enter (state.made.shardOf value)
            ⟨hashOf build value, prefix8 (bytes value), symbol⟩).setLocal thread
          ((state.locals thread).turn (.leaving .insert value (.issue symbol))))

end State

end Boomerang.WeakMemory
