import Boomerang.Interner.WeakWrites

/-!
# The writes of an insertion

In the order of the source: the poison flag, or the record, the cursor, the length, a new
chunk and its installation, the slot, and the entry of the table.
-/

namespace Boomerang.WeakMemory

open Foundation

/-- A log with a string that is on its way. -/
theorem Underway.last {build : Build} {made : StringInterner build} {logs : Nat → Log}
    {value : String} {index committed counted stored : Nat}
    (underway : Underway made logs value index committed counted stored) :
    (logs (made.shardOf value)).written[index]? = some value ∧
      (logs (made.shardOf value)).written.length = index + 1 := by
  obtain ⟨before, written, rfl⟩ := underway.written
  rw [written]
  simp

/-- The counters move and the string stays on its way. -/
theorem Underway.counters {build : Build} {made : StringInterner build} {logs grown : Nat → Log}
    {value : String} {index committed counted stored : Nat}
    (underway : Underway made logs value index committed counted stored)
    {laterCommitted laterCounted laterStored : Nat}
    (grownEq : grown (made.shardOf value) = ⟨(logs (made.shardOf value)).written, laterCommitted,
      laterCounted, laterStored, (logs (made.shardOf value)).numbered⟩) :
    Underway made grown value index laterCommitted laterCounted laterStored := by
  constructor
  case written =>
    rw [grownEq]
    exact underway.written
  case fresh =>
    rw [grownEq]
    exact underway.fresh
  case committed => rw [grownEq]
  case counted => rw [grownEq]
  case stored => rw [grownEq]
  case numbered =>
    rw [grownEq]
    exact underway.numbered

/-- The chunk and the slot of an index. -/
theorem slot_position (chunkIdx : Nat) {slotIdx : Nat} (within : slotIdx < CHUNK_SIZE) :
    (chunkIdx * CHUNK_SIZE + slotIdx) / CHUNK_SIZE = chunkIdx ∧
      (chunkIdx * CHUNK_SIZE + slotIdx) % CHUNK_SIZE = slotIdx := by
  refine ⟨?_, Nat.mul_add_mod_of_lt within⟩
  rw [Nat.mul_comm, Nat.mul_add_div (by decide), Nat.div_eq_of_lt within, Nat.add_zero]

namespace State

variable {build : Build} {state next : State build} {logs : Nat → Log} {thread : Nat}
variable {value : String} {stage : Insertion}

/-- A thread that inserts holds the lock of the string's shard. -/
theorem lock_inserting (task : (state.locals thread).task = .inserting value stage) :
    (state.locals thread).task.lock state.home = some (state.home value, true) := by
  rw [task]
  rfl

/-- A thread that inserts has seen every write to the shard. -/
theorem Sound.seen (sound : state.Sound logs)
    (task : (state.locals thread).task = .inserting value stage) :
    state.UpToDate (state.home value) (state.locals thread).view :=
  sound.fresh thread _ _ (lock_inserting task)

theorem Sound.home_lt (sound : state.Sound logs) (value : String) :
    state.home value < state.made.shardCount :=
  sound.made.shardOf_lt value

/-- A thread that writes and installs no chunk finds every chunk of the shard installed. -/
theorem Sound.installed_of_owned (sound : state.Sound logs) {shardId chunkIdx ptr : Nat}
    (lock : (state.locals thread).task.lock state.home = some (shardId, true))
    (notPending : (state.locals thread).task.pending = none)
    (owned : state.Owned shardId chunkIdx ptr) :
    Installed state.histories shardId chunkIdx ptr := by
  rcases owned with installed | ⟨other, text, pending, homeEq⟩
  · exact installed
  · have otherLock := @Task.lock_of_pending state.home _ _ _ _ pending
    rw [homeEq] at otherLock
    rw [sound.alone lock otherLock, notPending] at pending
    cases pending

/-- The offsets of records need no wrapping. -/
theorem Sound.offset_eq (sound : state.Sound logs) {index : Nat}
    (here : (logs (state.home value)).written[index]? = some value) :
    state.offsetOf value ((logs (state.home value)).sizeTo index) =
      state.base (state.home value) + (logs (state.home value)).sizeTo index := by
  have logSound := (sound.shelf _ (sound.home_lt value)).toLogSound
  have inside := sound.made.sized.regionEnd (sound.made.poolShards ▸ sound.home_lt value)
  have capacity := sound.made.sized.capacity
  have room := logSound.sizeTo_le (index + 1)
  have size := (logs (state.home value)).sizeTo_succ here
  have positive := paddedSize_pos (byteLength value)
  have below :
      state.base (state.home value) + (logs (state.home value)).sizeTo index < u32Range := by
    rw [base]
    omega
  exact Nat.mod_eq_of_lt below

/-- A thread that wrote goes on, having seen more. -/
theorem Later.goes {grown : Nat → Log} {view : View Cell} {task : Task}
    (later : Later state next logs grown) (sound : state.Sound logs)
    (le : (state.locals thread).view ≤ view)
    (taskSound : TaskSound next.made next.histories grown view (state.locals thread).held task) :
    LocalSound next.made next.histories grown ((state.locals thread).go view task) :=
  ⟨fun _ _ _ memo => (later.pointed ((sound.threads thread).memo _ _ _ memo)).mono le,
    fun _ _ held => (later.held sound.shelf ((sound.threads thread).held _ _ held)).mono le,
    taskSound⟩

/-- What a write under the lock does to the cells of a shard. -/
structure Stored (state next : State build) (thread : Nat) (touched : Cell → Prop)
    (value : String) (logs : Nat → Log) (log : Log) : Prop where
  writes : Writes state next thread (state.home value) logs
    (Function.update logs (state.home value) log)
  cells : ∀ other, ¬ touched other → next.histories other = state.histories other

namespace Stored

variable {touched : Cell → Prop} {log : Log}

theorem log_eq (_ : Stored state next thread touched value logs log) :
    Function.update logs (state.home value) log (state.home value) = log :=
  Function.update_self _ _ _

/-- What is left to show after a write under the lock. -/
theorem kept (stored : Stored state next thread touched value logs log)
    (sound : state.Sound logs) (shelf : next.Shelf (state.home value) log)
    (local' : LocalSound next.made next.histories (Function.update logs (state.home value) log)
      (next.locals thread)) : state.Kept next logs := by
  refine ⟨_, stored.writes.later, sound.writes stored.writes ?_ local'⟩
  rwa [stored.log_eq]

section

variable (stored : Stored state next thread touched value logs log) (sound : state.Sound logs)
include stored sound

theorem records (notByte : ∀ address, ¬ touched (.byte address))
    (same : log.written = (logs (state.home value)).written) :
    next.RecordsSound (state.home value) log := by
  have shelf := sound.shelf _ (sound.home_lt value)
  have records := shelf.toRecordsSound.later stored.writes.later shelf.toLogSound
    (fun address _ _ => stored.cells _ (notByte address)) (by rw [stored.log_eq, same])
  rwa [stored.log_eq] at records

theorem cursor (notCursor : ¬ touched (.cursor (state.home value)))
    (same : log.committed = (logs (state.home value)).committed) :
    next.CursorSound (state.home value) log := by
  have shelf := sound.shelf _ (sound.home_lt value)
  have cursor := shelf.toCursorSound.later stored.writes.later (sound.home_lt value)
    shelf.toLogSound (stored.cells _ notCursor) (by rw [stored.log_eq, same])
  rwa [stored.log_eq] at cursor

theorem len (notLen : ¬ touched (.len (state.home value)))
    (same : log.counted = (logs (state.home value)).counted) :
    next.LenSound (state.home value) log := by
  have shelf := sound.shelf _ (sound.home_lt value)
  have len := @LenSound.later _ _ _ _ (Function.update logs (state.home value) log) _
    shelf.toLenSound (stored.cells _ notLen) (by rw [stored.log_eq, same])
  rwa [stored.log_eq] at len

theorem chunks (notChunk : ∀ chunkIdx, ¬ touched (.chunk (state.home value) chunkIdx))
    (same : log.stored = (logs (state.home value)).stored) :
    next.ChunksSound (state.home value) log := by
  have shelf := sound.shelf _ (sound.home_lt value)
  have chunks := shelf.toChunksSound.later stored.writes.later
    (fun chunkIdx => stored.cells _ (notChunk chunkIdx)) (by rw [stored.log_eq, same])
  rwa [stored.log_eq] at chunks

theorem slots (notSlot : ∀ ptr slotIdx, ¬ touched (.slot ptr slotIdx))
    (owned : ∀ chunkIdx ptr, next.Owned (state.home value) chunkIdx ptr →
      state.Owned (state.home value) chunkIdx ptr)
    (same : log.stored = (logs (state.home value)).stored) :
    next.SlotsSound (state.home value) log := by
  have shelf := sound.shelf _ (sound.home_lt value)
  have slots := shelf.toSlotsSound.later stored.writes.later (sound.home_lt value)
    shelf.toLogSound owned (fun _ ptr slotIdx _ => stored.cells _ (notSlot ptr slotIdx))
    (by rw [stored.log_eq, same])
  rwa [stored.log_eq] at slots

theorem entries (table : next.tables (state.home value) = state.tables (state.home value))
    (same : log.numbered = (logs (state.home value)).numbered) :
    next.TableSound (state.home value) log := by
  have shelf := sound.shelf _ (sound.home_lt value)
  have entries := shelf.toTableSound.later stored.writes.later (sound.home_lt value)
    shelf.toLogSound table (by rw [stored.log_eq, same])
  rwa [stored.log_eq] at entries

end

end Stored

/-- An atomic write under the lock that makes no new chunk. -/
theorem Sound.stores (sound : state.Sound logs) {cell : Cell} {stamp written : Nat}
    {view : View Cell} {after : Task} {log : Log}
    (task : (state.locals thread).task = .inserting value stage)
    (nextEq : next = state.publish thread cell stamp written view after)
    (belongs : state.Belongs (state.home value) cell)
    (notByte : ∀ address, cell ≠ .byte address)
    (owned : ∀ first chunkIdx ptr, next.Owned first chunkIdx ptr → state.Owned first chunkIdx ptr)
    (past : state.histories.Past cell stamp) (le : (state.locals thread).view ≤ view)
    (lockAfter : after.lock state.home = some (state.home value, true))
    (grows : Log.Grows (logs (state.home value)) log)
    (same : log.written = (logs (state.home value)).written) :
    Stored state next thread (· = cell) value logs log := by
  subst nextEq
  refine ⟨?_, fun _ => publish_other state⟩
  refine sound.publishes (lock_inserting task) belongs notByte past le lockAfter owned ?_ ?_
    fun other different => Function.update_of_ne different _ _
  · rw [Function.update_self]
    exact grows
  · rw [Function.update_self]
    exact same

/-- A thread that wrote atomically goes on. -/
theorem Sound.stored_local (sound : state.Sound logs) {cell : Cell} {stamp written : Nat}
    {view : View Cell} {after : Task} {log : Log}
    (stored : Stored state next thread (· = cell) value logs log)
    (nextEq : next = state.publish thread cell stamp written view after)
    (le : (state.locals thread).view ≤ view)
    (taskSound : TaskSound next.made next.histories (Function.update logs (state.home value) log)
      (view.observe cell stamp) (state.locals thread).held after) :
    LocalSound next.made next.histories (Function.update logs (state.home value) log)
      (next.locals thread) := by
  have locals := stored.writes.later.goes sound (le_trans le (View.le_observe view cell stamp))
    taskSound
  subst nextEq
  rw [publish_locals]
  exact locals

/-- The shard is marked as exhausted. -/
theorem Sound.poisons (sound : state.Sound logs) {stamp : Nat}
    (task : (state.locals thread).task = .inserting value .refuse)
    (vacant : state.histories.Vacant (state.locals thread).view
      (.poisoned (state.home value)) stamp)
    (nextEq : next = state.publish thread (.poisoned (state.home value)) stamp 1
      (state.locals thread).view (.leaving .insert value .panic)) : state.Kept next logs := by
  have owned : ∀ first chunkIdx ptr, next.Owned first chunkIdx ptr →
      state.Owned first chunkIdx ptr :=
    nextEq ▸ fun _ _ _ => publish_owned (fun _ _ impossible => (by cases impossible)) rfl
  have stored : Stored state next thread _ value logs (logs (state.home value)) :=
    sound.stores task nextEq rfl (fun _ impossible => (by cases impossible)) owned
      ((sound.seen task (.poisoned (state.home value)) rfl).past vacant.later) le_rfl rfl
      (.refl _) rfl
  have taskSound := (sound.threads thread).task
  rw [task] at taskSound
  obtain ⟨proper, _, settled, _⟩ := taskSound
  have logSound := (sound.shelf _ (sound.home_lt value)).toLogSound
  refine stored.kept sound ⟨logSound.of_made stored.writes.later.made,
    stored.records sound (by simp) rfl, stored.cursor sound (by simp) rfl,
    stored.len sound (by simp) rfl, stored.chunks sound (by simp) rfl,
    stored.slots sound (by simp) (owned _) rfl, stored.entries sound (by rw [nextEq]; rfl) rfl⟩
    (sound.stored_local stored nextEq le_rfl ⟨proper, fun _ => ?_,
      fun impossible => (by cases impossible), ?_⟩)
  · rw [stored.writes.later.made]
    exact (congrArg Log.Settled stored.log_eq).mpr settled
  · exact fun _ impossible => (by cases impossible)

/-- The cursor moves past the record and releases it. -/
theorem Sound.commits (sound : state.Sound logs) {stamp current size : Nat}
    (task : (state.locals thread).task = .inserting value (.commit current))
    (size_ok : paddedRecordSize build.profile (storedLength value) = .ok size)
    (vacant : state.histories.Vacant (state.locals thread).view (.cursor (state.home value)) stamp)
    (nextEq : next = state.publish thread (.cursor (state.home value)) stamp (current + size)
      (state.locals thread).view (.inserting value (.count (state.offsetOf value current)))) :
    state.Kept next logs := by
  have inRange := sound.home_lt value
  have shelf := sound.shelf _ inRange
  have logSound := shelf.toLogSound
  have taskSound := (sound.threads thread).task
  rw [task] at taskSound
  obtain ⟨proper, short, index, underway, currentEq⟩ := taskSound
  have fits := short fun impossible => (by cases impossible)
  obtain ⟨here, length⟩ := underway.last
  have sizeEq := paddedRecordSize_stored fits size_ok
  have whole : current + size = (logs (state.home value)).sizeTo (index + 1) := by
    rw [(logs (state.home value)).sizeTo_succ here, currentEq, sizeEq]
  have committed : (logs (state.home value)).committed = index := underway.committed
  have counted : (logs (state.home value)).counted = index := underway.counted
  have past := (sound.seen task (.cursor (state.home value)) rfl).past vacant.later
  have owned : ∀ first chunkIdx ptr, next.Owned first chunkIdx ptr →
      state.Owned first chunkIdx ptr :=
    nextEq ▸ fun _ _ _ => publish_owned (fun _ _ impossible => (by cases impossible)) rfl
  have stored : Stored state next thread _ value logs
      ⟨(logs (state.home value)).written, index + 1, (logs (state.home value)).counted,
        (logs (state.home value)).stored, (logs (state.home value)).numbered⟩ :=
    sound.stores task nextEq rfl (fun _ impossible => (by cases impossible)) owned past le_rfl rfl
      ⟨List.prefix_rfl, by rw [committed]; exact Nat.le_succ _, Nat.le_refl _, Nat.le_refl _⟩ rfl
  have later := stored.writes.later
  refine stored.kept sound ⟨?_, stored.records sound (by simp) rfl, ?_,
    stored.len sound (by simp) rfl, stored.chunks sound (by simp) rfl,
    stored.slots sound (by simp) (owned _) rfl, stored.entries sound (by rw [nextEq]; rfl) rfl⟩ ?_
  · refine ⟨(logSound.of_made later.made).proper, (logSound.of_made later.made).room, ?_, ?_,
      logSound.stored_le, logSound.stored_fits, logSound.numbered_le, logSound.distinct⟩
    · exact length.ge
    · exact Nat.le_trans counted.le (Nat.le_succ _)
  · -- The new write covers the records up to and with the new one.
    have released : Covers next.histories ((state.locals thread).view.observe
        (.cursor (state.home value)) stamp) (next.base (state.home value)) (current + size) := by
      have upToDate := stored.writes.upToDate
      rw [nextEq, publish_locals] at upToDate
      rw [nextEq]
      refine upToDate.covers ?_
      rw [whole]
      exact logSound.sizeTo_le _
    refine ⟨?_, ?_, ?_⟩
    · intro place message found
      rw [nextEq] at found
      rcases Histories.put_eq_some.mp found with ⟨_, _, rfl⟩ | ⟨_, older⟩
      · exact ⟨index + 1, Nat.le_refl _, whole, released⟩
      · obtain ⟨count, within, valueEq, covers⟩ := shelf.cursor place message older
        refine ⟨count, by simp only; omega, valueEq, ?_⟩
        rw [base, later.made]
        exact later.covers inRange (valueEq ▸ (logs (state.home value)).sizeTo_mono within) covers
    · rw [nextEq]
      exact whole ▸ past.ends_put _
    · rw [nextEq]
      refine shelf.cursorAscends.put past fun place message _ found => ?_
      obtain ⟨count, within, valueEq, _⟩ := shelf.cursor place message found
      rw [valueEq]
      show _ ≤ current + size
      rw [whole]
      exact (logs (state.home value)).sizeTo_mono (by omega)
  · refine sound.stored_local stored nextEq le_rfl ⟨proper, fun _ => fits, index, ?_, ?_⟩
    · rw [later.made]
      exact underway.counters (stored.log_eq.trans (by rw [counted, underway.stored]))
    · rw [later.made, currentEq, sound.offset_eq here]
      exact congrArg (state.base (state.home value) + ·)
        (congrArg (Log.sizeTo · index) stored.log_eq).symm

/-- The length is counted up, right after the write it was read from. -/
theorem Sound.counts (sound : state.Sound logs) {offset stamp : Nat} {message : Message Cell}
    (task : (state.locals thread).task = .inserting value (.count offset))
    (load : state.histories.Loads (state.locals thread).view
      (.len (state.home value)) stamp message)
    (nextEq : next = state.publish thread (.len (state.home value)) (stamp + 1) (message.value + 1)
      ((state.locals thread).view.acquire (.len (state.home value)) stamp message)
      (.inserting value (.locate offset message.value))) : state.Kept next logs := by
  have inRange := sound.home_lt value
  have shelf := sound.shelf _ inRange
  have logSound := shelf.toLogSound
  have taskSound := (sound.threads thread).task
  rw [task] at taskSound
  obtain ⟨proper, short, index, underway, offsetEq⟩ := taskSound
  obtain ⟨here, length⟩ := underway.last
  have committed : (logs (state.home value)).committed = index + 1 := underway.committed
  have counted : (logs (state.home value)).counted = index := underway.counted
  have seen := sound.seen task (.len (state.home value)) rfl
  have indexEq : message.value = index := counted ▸ load.value_eq seen shelf.lenEnds
  have past := load.past_succ seen
  have le := View.le_acquire (state.locals thread).view (.len (state.home value)) stamp message
  have owned : ∀ first chunkIdx ptr, next.Owned first chunkIdx ptr →
      state.Owned first chunkIdx ptr :=
    nextEq ▸ fun _ _ _ => publish_owned (fun _ _ impossible => (by cases impossible)) rfl
  have stored : Stored state next thread _ value logs
      ⟨(logs (state.home value)).written, (logs (state.home value)).committed, index + 1,
        (logs (state.home value)).stored, (logs (state.home value)).numbered⟩ :=
    sound.stores task nextEq rfl (fun _ impossible => (by cases impossible)) owned past le rfl
      ⟨List.prefix_rfl, Nat.le_refl _, Nat.le_refl _, Nat.le_refl _⟩ rfl
  have later := stored.writes.later
  refine stored.kept sound ⟨?_, stored.records sound (by simp) rfl,
    stored.cursor sound (by simp) rfl, ?_, stored.chunks sound (by simp) rfl,
    stored.slots sound (by simp) (owned _) rfl, stored.entries sound (by rw [nextEq]; rfl) rfl⟩ ?_
  · refine ⟨(logSound.of_made later.made).proper, (logSound.of_made later.made).room,
      logSound.committed_le, ?_, ?_, logSound.stored_fits, logSound.numbered_le, logSound.distinct⟩
    · exact committed.ge
    · exact Nat.le_trans logSound.stored_le (counted.le.trans (Nat.le_succ _))
  · have value_stamp := shelf.len _ _ load.found
    refine ⟨?_, ?_⟩
    · intro place found here
      rw [nextEq] at here
      rcases Histories.put_eq_some.mp here with ⟨_, rfl, rfl⟩ | ⟨_, older⟩
      · exact congrArg (· + 1) value_stamp
      · exact shelf.len _ _ older
    · rw [nextEq]
      exact indexEq ▸ past.ends_put _
  · refine sound.stored_local stored nextEq le
      ⟨proper, fun _ => short fun impossible => (by cases impossible), ?_, ?_⟩
    · rw [later.made, indexEq]
      exact underway.counters (stored.log_eq.trans (by rw [committed, underway.stored]))
    · rw [later.made, offsetEq, indexEq]
      exact congrArg (state.base (state.home value) + ·)
        (congrArg (Log.sizeTo · index) stored.log_eq).symm

/-- The slot of the new string is stored and releases its record. -/
theorem Sound.points (sound : state.Sound logs) {offset index ptr stamp : Nat}
    (task : (state.locals thread).task = .inserting value (.point offset index ptr))
    (vacant : state.histories.Vacant (state.locals thread).view
      (.slot ptr (index % CHUNK_SIZE)) stamp)
    (nextEq : next = state.publish thread (.slot ptr (index % CHUNK_SIZE)) stamp offset
      (state.locals thread).view (.inserting value (.number index))) : state.Kept next logs := by
  have inRange := sound.home_lt value
  have shelf := sound.shelf _ inRange
  have logSound := shelf.toLogSound
  have taskSound := (sound.threads thread).task
  rw [task] at taskSound
  obtain ⟨proper, short, underway, inside, offsetEq, installed, zeroed⟩ := taskSound
  obtain ⟨here, length⟩ := underway.last
  have belongs : state.Belongs (state.home value) (.slot ptr (index % CHUNK_SIZE)) :=
    ⟨_, Or.inl installed⟩
  have past := (sound.seen task _ belongs).past vacant.later
  have counted : (logs (state.home value)).counted = index + 1 := underway.counted
  have notYet : (logs (state.home value)).stored = index := underway.stored
  have owned : ∀ first chunkIdx ptr, next.Owned first chunkIdx ptr →
      state.Owned first chunkIdx ptr :=
    nextEq ▸ fun _ _ _ => publish_owned (fun _ _ impossible => (by cases impossible)) rfl
  have stored : Stored state next thread _ value logs
      ⟨(logs (state.home value)).written, (logs (state.home value)).committed,
        (logs (state.home value)).counted, index + 1, (logs (state.home value)).numbered⟩ :=
    sound.stores task nextEq belongs (fun _ impossible => (by cases impossible)) owned past le_rfl
      rfl
      ⟨List.prefix_rfl, Nat.le_refl _, notYet.le.trans (Nat.le_succ _), Nat.le_refl _⟩ rfl
  have later := stored.writes.later
  refine stored.kept sound ⟨?_, stored.records sound (by simp) rfl,
    stored.cursor sound (by simp) rfl, stored.len sound (by simp) rfl, ?_, ?_,
    stored.entries sound (by rw [nextEq]; rfl) rfl⟩ ?_
  · refine ⟨(logSound.of_made later.made).proper, (logSound.of_made later.made).room,
      logSound.committed_le, logSound.counted_le, counted.ge, inside, ?_, logSound.distinct⟩
    exact Nat.le_trans logSound.numbered_le (notYet.le.trans (Nat.le_succ _))
  · refine ⟨fun chunkIdx _ _ found => ?_, ?_⟩
    · exact shelf.toChunksSound.chunk_later later
        (stored.cells (.chunk _ chunkIdx) (by simp) ▸ found)
    intro other below
    rcases Nat.lt_succ_iff_lt_or_eq.mp below with older | rfl
    · obtain ⟨found, isInstalled⟩ := shelf.reach other (notYet.symm ▸ older)
      exact ⟨found, isInstalled.later later.extends'⟩
    · exact ⟨ptr, installed.later later.extends'⟩
  · refine ⟨fun chunkIdx other isOwned slotIdx within => ?_⟩
    have before := owned _ _ _ isOwned
    have holds := shelf.slots chunkIdx other before slotIdx within
    by_cases isSlot : other = ptr ∧ slotIdx = index % CHUNK_SIZE
    · obtain ⟨rfl, rfl⟩ := isSlot
      obtain ⟨_, rfl⟩ := sound.owners _ _ _ _ _ (Or.inl installed) before
      rw [index_eq] at holds ⊢
      have older : ∀ place message, 0 < place →
          state.histories (.slot other (index % CHUNK_SIZE)) place = some message →
            message.value = 0 := by
        intro place message positive found
        rcases holds.writes place message positive found with zero | ⟨below, _⟩
        · exact zero
        · exact absurd below (by omega)
      refine ⟨?_, ?_, ?_, ?_⟩
      · intro place message positive found
        rw [nextEq] at found
        rcases Histories.put_eq_some.mp found with ⟨_, _, rfl⟩ | ⟨_, found⟩
        · refine Or.inr ⟨Nat.lt_succ_self _, by rw [base, later.made]; exact offsetEq, ?_⟩
          have upToDate := stored.writes.upToDate
          rw [nextEq, publish_locals] at upToDate
          rw [nextEq]
          exact upToDate.covers (logSound.sizeTo_le _)
        · exact Or.inl (older place message positive found)
      · rw [if_pos (Nat.lt_succ_self index), nextEq]
        exact offsetEq ▸ past.ends_put _
      · obtain ⟨place, message, positive, found⟩ := holds.filled
        exact ⟨place, message, positive, later.extends' _ _ _ found⟩
      · rw [nextEq]
        refine holds.ascends.put past fun place found positive here => ?_
        rw [older place found positive here]
        exact Nat.zero_le _
    · -- The index of another slot is not the new one.
      have different : chunkIdx * CHUNK_SIZE + slotIdx ≠ index := by
        rintro rfl
        have position := slot_position chunkIdx within
        rw [position.1] at installed
        have again := sound.installed_of_owned (lock_inserting task) (by rw [task]; rfl) before
        exact isSlot ⟨shelf.installed_unique installed again, position.2.symm⟩
      have kept := holds.later later inRange logSound
        (stored.cells _ fun same => isSlot (by cases same; exact ⟨rfl, rfl⟩)) (by
          rw [stored.log_eq, notYet]
          show _ < index + 1 ↔ _
          omega)
      rwa [stored.log_eq] at kept
  · refine sound.stored_local stored nextEq le_rfl
      ⟨proper, fun _ => short fun impossible => (by cases impossible), ?_, inside⟩
    rw [later.made]
    exact underway.counters (stored.log_eq.trans (by rw [counted, underway.committed]))

end State

end Boomerang.WeakMemory
