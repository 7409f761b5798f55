import Boomerang.Interner.WeakReads

/-!
# Steps that change only their thread

Loads, comparisons and decisions keep the invariant of the thread that takes them. A
reader that knows its string, and every reader under a lock does, is never told that
there is none.
-/

namespace Boomerang.WeakMemory

open Foundation

namespace Reading

/-- What a thread does next does not change what it has locked. -/
theorem lock_finish (home : String → Nat) (reading : Reading) (text : Option String) :
    (reading.finish text).1.lock home = (Task.reading reading).lock home := by
  unfold finish
  cases reasonEq : reading.reason with
  | resolve symbol => simp [Task.lock, reasonEq]
  | probe lookup => simp [Task.lock, reasonEq]
  | confirm lookup symbol =>
      cases text <;> cases modeEq : lookup.mode <;> simp [Task.lock, reasonEq, modeEq]

theorem lock_fail (home : String → Nat) (reading : Reading) :
    reading.fail.1.lock home = (Task.reading reading).lock home := by
  unfold fail
  cases reasonEq : reading.reason <;> simp [Task.lock, reasonEq]

theorem pending_finish (reading : Reading) (text : Option String) :
    (reading.finish text).1.pending = none := by
  unfold finish
  cases reading.reason with
  | resolve symbol => rfl
  | probe lookup => rfl
  | confirm lookup symbol =>
      cases text <;> cases modeEq : lookup.mode <;> simp [Task.pending, modeEq]

theorem pending_fail (reading : Reading) : reading.fail.1.pending = none := by
  unfold fail
  cases reading.reason <;> rfl

/-- Moving on to another stage keeps the lock. -/
theorem lock_stage (home : String → Nat) (reading : Reading) (stage : Stage) :
    (Task.reading { reading with stage := stage }).lock home =
      (Task.reading reading).lock home := rfl

end Reading

section Local

variable {build : Build} {made : StringInterner build} {histories : Histories Cell}
variable {logs : Nat → Log} {loc : Local} {view : View Cell}

/-- A thread that has seen more goes on with a task that has come as far as it says. -/
theorem LocalSound.go (sound : LocalSound made histories logs loc) (le : loc.view ≤ view)
    {task : Task} (taskSound : TaskSound made histories logs view loc.held task) :
    LocalSound made histories logs (loc.go view task) :=
  ⟨fun _ _ _ memo => (sound.memo _ _ _ memo).mono le,
    fun _ _ held => (sound.held _ _ held).mono le, taskSound⟩

/-- A reading keeps what it had found when it moves to another stage. -/
theorem ReadingSound.go {reading : Reading}
    (sound : ReadingSound made histories logs loc.view reading)
    (le : loc.view ≤ view) {stage : Stage}
    (stageSound : StageSound made histories logs view { reading with stage := stage }) :
    ReadingSound made histories logs view { reading with stage := stage } :=
  ⟨sound.shardId, sound.reason, fun unchecked => (sound.unchecked unchecked).mono le, stageSound⟩

/-- The text a reader was told is the one written, or the reader asked for itself. -/
theorem ReadingSound.finish {reading : Reading} {text : Option String}
    {held : List (Symbol × String)}
    (sound : ReadingSound made histories logs loc.view reading)
    (answer : (∃ symbol, reading.reason = .resolve symbol) ∨
      text = (logs reading.shardId).written[reading.index]? ∧
        Knows histories (logs reading.shardId) view reading.shardId reading.index) :
    TaskSound made histories logs view held (reading.finish text).1 := by
  have reason := sound.reason
  unfold ReasonSound at reason
  unfold Reading.finish
  cases reasonEq : reading.reason with
  | resolve symbol => trivial
  | probe lookup =>
      rw [reasonEq] at reason answer
      obtain ⟨⟨proper, settled, seen⟩, shardEq, below⟩ := reason
      rcases answer with ⟨symbol, impossible⟩ | ⟨textEq, _⟩
      · cases impossible
      refine ⟨proper, settled, ?_⟩
      intro index found member
      rcases List.mem_cons.mp member with same | older
      · cases same
        exact ⟨shardEq ▸ below, shardEq ▸ textEq⟩
      · exact seen index found older
  | confirm lookup symbol =>
      rw [reasonEq] at reason answer
      obtain ⟨⟨proper, settled, seen⟩, shardEq, below, numbered, here⟩ := reason
      rcases answer with ⟨other, impossible⟩ | ⟨textEq, knows⟩
      · cases impossible
      rw [here] at textEq
      subst textEq
      refine ⟨proper, settled, fun impossible => (by cases impossible), ?_⟩
      rintro _ ⟨⟩
      exact ⟨reading.shardId, reading.index, sound.shardId, numbered, here, knows⟩

end Local

section Logs

variable {build : Build} {made : StringInterner build} {logs : Nat → Log} {value : String}
    {index : Nat}

/-- A string past the last slot is written and counted, and nothing more. -/
theorem Underway.settled_of_outside
    (underway : Underway made logs value index (index + 1) (index + 1)
      (min index (NUM_CHUNKS * CHUNK_SIZE)))
    (outside : NUM_CHUNKS * CHUNK_SIZE ≤ index) : (logs (made.shardOf value)).Settled := by
  obtain ⟨before, written, rfl⟩ := underway.written
  have mask := Symbol.toNat_indexMask
  have slots := LockFreeStringArray.NUM_CHUNKS_mul_CHUNK_SIZE
  have numbered := underway.numbered
  have stored := underway.stored
  constructor
  · rw [underway.committed, written, List.length_append, List.length_singleton]
  · rw [underway.counted, written, List.length_append, List.length_singleton]
  · rw [stored, written, List.length_append, List.length_singleton]
    omega
  · rw [numbered, written, List.length_append, List.length_singleton]
    omega

/-- A string with a slot and no symbol is written, counted and stored, and nothing more. -/
theorem Underway.settled
    (underway : Underway made logs value index (index + 1) (index + 1) (index + 1))
    (inside : index < NUM_CHUNKS * CHUNK_SIZE) (last : Symbol.indexMask.toNat ≤ index) :
    (logs (made.shardOf value)).Settled := by
  obtain ⟨before, written, rfl⟩ := underway.written
  constructor
  · rw [underway.committed, written, List.length_append, List.length_singleton]
  · rw [underway.counted, written, List.length_append, List.length_singleton]
  · rw [underway.stored, written, List.length_append, List.length_singleton]
    omega
  · rw [underway.numbered, written, List.length_append, List.length_singleton]
    omega

/-- `alloc` gets past its assertion with a string whose length the header holds. -/
theorem Proper.short {profile : Profile} (proper : Proper profile value)
    (notLong : ¬(profile = .debug ∧ u32Range - 8 ≤ byteLength value)) :
    byteLength value + 7 < u32Range := by
  rcases proper.storable with debug | short
  · by_contra long
    exact notLong ⟨debug, by omega⟩
  · exact short

end Logs

namespace State

variable {build : Build} {state : State build} {logs : Nat → Log} {thread : Nat}

/-- What a step that changes only its thread does to it. -/
structure Moved (state : State build) (logs : Nat → Log) (loc next : Local) : Prop where
  view : loc.view ≤ next.view
  lock : next.task.lock state.home = loc.task.lock state.home
  pending : ∀ chunk, next.task.pending = some chunk → loc.task.pending = some chunk
  sound : LocalSound state.made state.histories logs next

/-- A reader under a lock, or without the length check, knows its string. -/
theorem Sound.certain (sound : state.Sound logs) {reading : Reading}
    (task : (state.locals thread).task = .reading reading) :
    (reading.checked = true ∧ ∃ symbol, reading.reason = .resolve symbol) ∨
      Knows state.histories (logs reading.shardId) (state.locals thread).view reading.shardId
        reading.index := by
  have taskSound := (sound.threads thread).task
  rw [task] at taskSound
  have reading_ok : ReadingSound _ _ _ _ reading := taskSound
  cases checked : reading.checked with
  | false => exact Or.inr (reading_ok.unchecked checked)
  | true =>
      have reason := reading_ok.reason
      unfold ReasonSound at reason
      have locked : ∀ lookup : Lookup, reading.shardId = state.made.shardOf lookup.value →
          reading.index < (logs reading.shardId).numbered →
          (Task.reading reading).lock state.home =
            some (state.home lookup.value, decide (lookup.mode = .insert)) →
          Knows state.histories (logs reading.shardId) (state.locals thread).view reading.shardId
            reading.index := by
        intro lookup shardEq below lock
        rw [← task, show state.home lookup.value = reading.shardId from shardEq.symm] at lock
        exact (sound.fresh thread _ _ lock).knows (sound.shelf _ reading_ok.shardId)
          (sound.base_pos _) below
      cases reasonEq : reading.reason with
      | resolve symbol => exact Or.inl ⟨rfl, symbol, rfl⟩
      | probe lookup =>
          rw [reasonEq] at reason
          exact Or.inr (locked lookup reason.2.1 reason.2.2 (by rw [Task.lock, reasonEq]))
      | confirm lookup symbol =>
          rw [reasonEq] at reason
          exact Or.inr (locked lookup reason.2.1 reason.2.2.1 (by rw [Task.lock, reasonEq]))

/-- An index with a slot needs a chunk that there is, and the other way round. -/
theorem chunk_lt_iff (index : Nat) :
    index / CHUNK_SIZE < NUM_CHUNKS ↔ index < NUM_CHUNKS * CHUNK_SIZE :=
  Nat.div_lt_iff_lt_mul (by decide)

section Unknown

variable {reading : Reading} {stamp : Nat} {message : Message Cell}

/-- A length that is too short is not loaded for a known string. -/
theorem Sound.unknown_len (sound : state.Sound logs)
    (task : (state.locals thread).task = .reading reading)
    (load : state.histories.Loads (state.locals thread).view (.len reading.shardId) stamp message)
    (short : message.value ≤ reading.index) :
    ¬ Knows state.histories (logs reading.shardId) (state.locals thread).view reading.shardId
      reading.index := by
  intro knows
  have taskSound := (sound.threads thread).task
  rw [task] at taskSound
  have below := knows.lt_len (sound.shelf _ taskSound.shardId) load
  omega

theorem Sound.unknown_chunk (sound : state.Sound logs)
    (task : (state.locals thread).task = .reading reading)
    (load : state.histories.Loads (state.locals thread).view
      (.chunk reading.shardId (reading.index / CHUNK_SIZE)) stamp message)
    (null : message.value = 0) :
    ¬ Knows state.histories (logs reading.shardId) (state.locals thread).view reading.shardId
      reading.index := by
  intro knows
  have taskSound := (sound.threads thread).task
  rw [task] at taskSound
  exact knows.chunk_ne_zero (sound.shelf _ taskSound.shardId) load null

theorem Sound.unknown_slot (sound : state.Sound logs) {ptr : Nat}
    (task : (state.locals thread).task = .reading reading) (stage : reading.stage = .pointed ptr)
    (load : state.histories.Loads (state.locals thread).view
      (.slot ptr (reading.index % CHUNK_SIZE))
      stamp message) (zero : message.value = 0) :
    ¬ Knows state.histories (logs reading.shardId) (state.locals thread).view reading.shardId
      reading.index := by
  intro knows
  have taskSound := (sound.threads thread).task
  rw [task] at taskSound
  have reading_ok : ReadingSound _ _ _ _ reading := taskSound
  have pointed := reading_ok.stage
  rw [StageSound, stage] at pointed
  exact knows.slot_ne_zero (sound.shelf _ reading_ok.shardId) pointed.installed load zero

/-- An index past the chunks is not that of a known string. -/
theorem Sound.unknown_outside (sound : state.Sound logs)
    (task : (state.locals thread).task = .reading reading)
    (outside : NUM_CHUNKS ≤ reading.index / CHUNK_SIZE) :
    ¬ Knows state.histories (logs reading.shardId) (state.locals thread).view reading.shardId
      reading.index := by
  intro knows
  have taskSound := (sound.threads thread).task
  rw [task] at taskSound
  have shelf := sound.shelf _ taskSound.shardId
  have below := (chunk_lt_iff reading.index).mpr (Nat.lt_of_lt_of_le
    (Nat.lt_of_lt_of_le knows.numbered shelf.numbered_le) shelf.stored_fits)
  omega

end Unknown

/-- A thread that is told there is no text does not know its string. -/
theorem Sound.finish_none (sound : state.Sound logs) {reading : Reading} {view : View Cell}
    (task : (state.locals thread).task = .reading reading)
    (unknown : ¬ Knows state.histories (logs reading.shardId) (state.locals thread).view
      reading.shardId reading.index) (le : (state.locals thread).view ≤ view) :
    Moved state logs (state.locals thread)
      ((state.locals thread).go view (reading.finish none).1) := by
  have taskSound := (sound.threads thread).task
  rw [task] at taskSound
  refine ⟨le, ?_, ?_, (sound.threads thread).go le ?_⟩
  · rw [task]
    exact reading.lock_finish _ _
  · intro chunk pending
    rw [Local.go, reading.pending_finish] at pending
    cases pending
  · refine ReadingSound.finish taskSound (Or.inl ?_)
    rcases sound.certain task with ⟨_, resolves⟩ | knows
    · exact resolves
    · exact absurd knows unknown

/-- A reader goes on to its next stage. -/
theorem Sound.next_stage (sound : state.Sound logs) {reading : Reading} {view : View Cell}
    {stage : Stage} (task : (state.locals thread).task = .reading reading)
    (le : (state.locals thread).view ≤ view)
    (stageSound : StageSound state.made state.histories logs view { reading with stage := stage }) :
    Moved state logs (state.locals thread)
      ((state.locals thread).go view (.reading { reading with stage := stage })) := by
  have taskSound := (sound.threads thread).task
  rw [task] at taskSound
  refine ⟨le, ?_, fun _ pending => (by cases pending), (sound.threads thread).go le ?_⟩
  · rw [task]
    exact reading.lock_stage _ _
  · exact ReadingSound.go taskSound le stageSound

/-- The cell of a chunk pointer, acquired, leads to a zeroed chunk. -/
theorem Shelf.pointed {shardId chunkIdx stamp : Nat} {log : Log} {message : Message Cell}
    {view : View Cell} (shelf : state.Shelf shardId log)
    (load : state.histories.Loads view (.chunk shardId chunkIdx) stamp message)
    (real : message.value ≠ 0) :
    Pointed state.histories (view.acquire (.chunk shardId chunkIdx) stamp message) shardId chunkIdx
      message.value := by
  rcases shelf.chunk _ _ _ load.found with ⟨_, null⟩ | ⟨_, _, zeroed⟩
  · exact absurd null real
  · exact ⟨⟨real, stamp, message, load.found, rfl⟩, zeroed.mono (View.message_le_acquire _ _ _ _)⟩

/-- The bytes of a record are read as the string written there. -/
theorem Sound.record_text (sound : state.Sound logs) {reading : Reading} {offset : Nat}
    {header text : List UInt8} (task : (state.locals thread).task = .reading reading)
    (stage : reading.stage = .placed offset) (headerLength : header.length = 4)
    (textLength : text.length = ofLE header)
    (readHeader : state.ReadsBytes (state.locals thread).view offset header)
    (readText : state.ReadsBytes (state.locals thread).view (offset + 4) text) :
    (logs reading.shardId).written[reading.index]? = some (fromUtf8Unchecked text) ∧
      offset = state.base reading.shardId + (logs reading.shardId).sizeTo reading.index ∧
      4 + text.length ≤ paddedSize (byteLength (fromUtf8Unchecked text)) ∧
      Covers state.histories (state.locals thread).view (state.base reading.shardId)
        ((logs reading.shardId).sizeTo (reading.index + 1)) := by
  have taskSound := (sound.threads thread).task
  rw [task] at taskSound
  have reading_ok : ReadingSound _ _ _ _ reading := taskSound
  have stageSound := reading_ok.stage
  unfold StageSound at stageSound
  rw [stage] at stageSound
  obtain ⟨stored, rfl, covers⟩ := stageSound
  have shelf := sound.shelf _ reading_ok.shardId
  have inside : reading.index < (logs reading.shardId).written.length := by
    have := shelf.stored_le
    have := shelf.counted_le
    have := shelf.committed_le
    omega
  have here := List.getElem?_eq_getElem inside
  obtain ⟨textEq, lengthEq⟩ :=
    shelf.read_record here covers headerLength textLength readHeader readText
  rw [textEq]
  refine ⟨here, rfl, ?_, covers⟩
  have room := le_paddedSize (byteLength (logs reading.shardId).written[reading.index])
  omega

/-- A candidate is the entry of a numbered string. -/
theorem Sound.candidate (sound : state.Sound logs) {value : String} {entry : Entry}
    (candidate : state.Candidate value entry) :
    entry.symbol.issuedIndex < (logs (state.home value)).numbered ∧
      Symbol.new (UInt8.ofNat (state.home value)) entry.symbol.issuedIndex = .ok entry.symbol := by
  obtain ⟨index, _, below, _, rfl, _, _, numbered⟩ :=
    (sound.shelf _ (sound.made.shardOf_lt value)).entry_of_mem candidate.1
  exact ⟨below, numbered⟩

/-- A thread under a lock starts to read the text of a numbered string. -/
theorem Sound.start_reading (sound : state.Sound logs) {lookup : Lookup} {reading : Reading}
    (task : (state.locals thread).task = .looking lookup)
    (shardEq : reading.shardId = state.home lookup.value)
    (below : reading.index < (logs (state.home lookup.value)).numbered)
    (lock : (Task.reading reading).lock state.home =
      some (state.home lookup.value, decide (lookup.mode = .insert)))
    (reason : ReasonSound state.made logs reading)
    (stage : reading.stage = if reading.checked then .entered else .bounded) :
    Moved state logs (state.locals thread) ((state.locals thread).turn (.reading reading)) := by
  have inRange := sound.made.shardOf_lt lookup.value
  have locked : (state.locals thread).task.lock state.home =
      some (state.home lookup.value, decide (lookup.mode = .insert)) := by
    rw [task, Task.lock]
  refine ⟨le_rfl, lock.trans locked.symm, fun _ pending => (by cases pending),
    (sound.threads thread).go le_rfl ⟨?_, reason, ?_, ?_⟩⟩
  · rw [shardEq]
    exact inRange
  · intro _
    rw [shardEq]
    exact (sound.fresh thread _ _ locked).knows (sound.shelf _ inRange) (sound.base_pos _) below
  · unfold StageSound
    rw [stage]
    cases reading.checked <;> simp

theorem Sound.probe (sound : state.Sound logs) {lookup : Lookup} {entry : Entry}
    (task : (state.locals thread).task = .looking lookup)
    (candidate : state.Candidate lookup.value entry) :
    Moved state logs (state.locals thread) ((state.locals thread).turn
      (.reading ⟨state.made.shardOf lookup.value, entry.symbol.issuedIndex,
        decide (lookup.mode ≠ .find), if lookup.mode = .find then .bounded else .entered,
        .probe lookup⟩)) := by
  have taskSound := (sound.threads thread).task
  rw [task] at taskSound
  have below := (sound.candidate candidate).1
  refine sound.start_reading task rfl below rfl ⟨taskSound, rfl, below⟩ ?_
  by_cases find : lookup.mode = .find <;> simp [find]

theorem Sound.found (sound : state.Sound logs) {lookup : Lookup} {entry : Entry}
    (task : (state.locals thread).task = .looking lookup)
    (candidate : state.Candidate lookup.value entry)
    (equal : (entry.symbol.issuedIndex, some lookup.value) ∈ lookup.seen) :
    Moved state logs (state.locals thread) ((state.locals thread).turn
      (.reading ⟨state.made.shardOf lookup.value, entry.symbol.issuedIndex,
        decide (lookup.mode ≠ .insert), if lookup.mode = .insert then .bounded else .entered,
        .confirm lookup entry.symbol⟩)) := by
  have taskSound := (sound.threads thread).task
  rw [task] at taskSound
  have lookupSound : LookupSound _ _ lookup := taskSound
  obtain ⟨below, numbered⟩ := sound.candidate candidate
  refine sound.start_reading task rfl below rfl
    ⟨lookupSound, rfl, below, numbered, (lookupSound.seen _ _ equal).2.symm⟩ ?_
  by_cases insert : lookup.mode = .insert <;> simp [insert]

theorem Sound.notFound (sound : state.Sound logs) {lookup : Lookup}
    (task : (state.locals thread).task = .looking lookup)
    (different : ∀ entry, state.Candidate lookup.value entry → ∃ text,
      (entry.symbol.issuedIndex, text) ∈ lookup.seen ∧ text ≠ some lookup.value) :
    Moved state logs (state.locals thread) ((state.locals thread).turn
      (if lookup.mode = .insert then .inserting lookup.value .poisoned
        else .leaving lookup.mode lookup.value .miss)) := by
  have taskSound := (sound.threads thread).task
  rw [task] at taskSound
  have lookupSound : LookupSound _ _ lookup := taskSound
  have absent := (sound.shelf _ (sound.made.shardOf_lt lookup.value)).not_mem_of_different rfl
    lookupSound different
  by_cases insert : lookup.mode = .insert
  · rw [if_pos insert]
    refine ⟨le_rfl, ?_, fun _ pending => (by cases pending), (sound.threads thread).go le_rfl ?_⟩
    · simp [Local.turn, Local.go, task, Task.lock, insert]
    · exact ⟨lookupSound.proper, fun other => absurd rfl other, lookupSound.settled insert, absent⟩
  · rw [if_neg insert]
    refine ⟨le_rfl, ?_, fun _ pending => (by cases pending), (sound.threads thread).go le_rfl ?_⟩
    · simp [Local.turn, Local.go, task, Task.lock]
    · exact ⟨lookupSound.proper, fun isInsert => absurd isInsert insert, fun _ => absent,
        fun _ impossible => (by cases impossible)⟩

/-- An insertion panics: nothing of it is left half done. -/
theorem Sound.insert_panics (sound : state.Sound logs) {value : String} {stage : Insertion}
    {view : View Cell} (task : (state.locals thread).task = .inserting value stage)
    (le : (state.locals thread).view ≤ view) (settled : (logs (state.home value)).Settled) :
    Moved state logs (state.locals thread)
      ((state.locals thread).go view (.leaving .insert value .panic)) := by
  have taskSound := (sound.threads thread).task
  rw [task] at taskSound
  refine ⟨le, ?_, fun _ pending => (by cases pending), (sound.threads thread).go le ?_⟩
  · rw [task]
    rfl
  · exact ⟨taskSound.1, fun _ => settled, fun impossible => (by cases impossible),
      fun _ impossible => (by cases impossible)⟩

/-- An insertion comes further. -/
theorem Sound.insert_goes (sound : state.Sound logs) {value : String} {stage further : Insertion}
    {view : View Cell} (task : (state.locals thread).task = .inserting value stage)
    (le : (state.locals thread).view ≤ view)
    (notPending : (Task.inserting value further).pending = none)
    (short : byteLength value + 7 < u32Range)
    (insertion : InsertionSound state.made state.histories logs view value further) :
    Moved state logs (state.locals thread)
      ((state.locals thread).go view (.inserting value further)) := by
  have taskSound := (sound.threads thread).task
  rw [task] at taskSound
  refine ⟨le, ?_, ?_, (sound.threads thread).go le ⟨taskSound.1, fun _ => short, insertion⟩⟩
  · rw [task]
    rfl
  · intro chunk pending
    rw [Local.go, notPending] at pending
    cases pending

/-- What `alloc` reads when it holds the lock: the padded size, and the end of the records. -/
theorem Sound.cursor_loaded (sound : state.Sound logs) {value : String} {stage : Insertion}
    {stamp : Nat} {message : Message Cell}
    (task : (state.locals thread).task = .inserting value stage)
    (settled : (logs (state.home value)).Settled)
    (load : state.histories.Loads (state.locals thread).view (.cursor (state.home value)) stamp
      message) : message.value = recordsSize (logs (state.home value)).written := by
  have upToDate := sound.fresh thread (state.home value) true (by rw [task]; rfl)
  have shelf := sound.shelf _ (sound.made.shardOf_lt value)
  rw [load.value_eq (upToDate _ rfl) shelf.cursorEnds, settled.committed, Log.sizeTo_length]

theorem paddedRecordSize_stored {profile : Profile} {value : String} {size : Nat}
    (short : byteLength value + 7 < u32Range)
    (size_ok : paddedRecordSize profile (storedLength value) = .ok size) :
    size = paddedSize (byteLength value) := by
  rw [storedLength, Nat.mod_eq_of_lt (by omega), paddedRecordSize_eq_ok short] at size_ok
  cases size_ok
  rfl

/-- A chunk that is found is the one to store the offset in. -/
theorem Sound.located (sound : state.Sound logs) {value : String} {offset index stamp : Nat}
    {message : Message Cell}
    (task : (state.locals thread).task = .inserting value (.locate offset index))
    (inside : index / CHUNK_SIZE < NUM_CHUNKS)
    (load : state.histories.Loads (state.locals thread).view
      (.chunk (state.home value) (index / CHUNK_SIZE)) stamp message) (real : message.value ≠ 0) :
    Moved state logs (state.locals thread) ((state.locals thread).go
      ((state.locals thread).view.acquire (.chunk (state.home value) (index / CHUNK_SIZE)) stamp
        message) (.inserting value (.point offset index message.value))) := by
  have taskSound := (sound.threads thread).task
  rw [task] at taskSound
  obtain ⟨_, short, underway, offsetEq⟩ := taskSound
  have below := (chunk_lt_iff index).mp inside
  have pointed := (sound.shelf _ (sound.made.shardOf_lt value)).pointed load real
  refine sound.insert_goes task (View.le_acquire _ _ _ _) rfl
    (short (fun other => by cases other)) ?_
  refine ⟨⟨underway.written, underway.fresh, underway.committed, underway.counted, ?_,
    underway.numbered⟩, below, offsetEq, pointed.installed, pointed.zeroed⟩
  rw [underway.stored, Nat.min_eq_left (Nat.le_of_lt below)]

/-- A symbol is of one shard and one index. -/
theorem Sound.same_place (sound : state.Sound logs) {shardId other index otherIndex : Nat}
    {symbol : Symbol} (inRange : shardId < state.made.shardCount)
    (otherInRange : other < state.made.shardCount)
    (numbered : Symbol.new (UInt8.ofNat shardId) index = .ok symbol)
    (otherNumbered : Symbol.new (UInt8.ofNat other) otherIndex = .ok symbol) :
    shardId = other ∧ index = otherIndex := by
  obtain ⟨sameByte, sameIndex⟩ := Symbol.new_injective numbered otherNumbered
  refine ⟨?_, sameIndex⟩
  rw [← sound.made.toNat_shardId inRange, ← sound.made.toNat_shardId otherInRange, sameByte]

/-- An export loads one more cursor. -/
theorem Sound.export_cursor (sound : state.Sound logs) {used : List Nat} {stamp : Nat}
    {message : Message Cell} (task : (state.locals thread).task = .exporting used)
    (more : used.length < state.made.shardCount)
    (load : state.histories.Loads (state.locals thread).view (.cursor used.length) stamp message) :
    Moved state logs (state.locals thread) ((state.locals thread).go
      ((state.locals thread).view.acquire (.cursor used.length) stamp message)
      (.exporting (used ++ [min message.value state.made.pool.regionSize]))) := by
  have local' := sound.threads thread
  have taskSound := local'.task
  rw [task] at taskSound
  have exporting : ExportSound _ _ _ _ _ used := taskSound
  have shelf := sound.shelf _ more
  have le := View.le_acquire (state.locals thread).view (.cursor used.length) stamp message
  refine ⟨le, ?_, fun _ pending => (by cases pending), local'.go le ⟨?_, ?_⟩⟩
  · rw [task]
    rfl
  · rw [List.length_append, List.length_singleton]
    exact more
  · intro shardId size loaded
    rcases Nat.lt_or_ge shardId used.length with older | newer
    · rw [List.getElem?_append_left older] at loaded
      obtain ⟨count, within, sizeEq, covers, includes⟩ := exporting.loaded shardId size loaded
      exact ⟨count, within, sizeEq, covers.mono le, includes⟩
    · have last : shardId = used.length := by
        have inside := (List.getElem?_eq_some_iff.mp loaded).1
        rw [List.length_append, List.length_singleton] at inside
        omega
      subst last
      rw [List.getElem?_concat_length] at loaded
      cases loaded
      obtain ⟨count, within, valueEq, covers⟩ := shelf.cursor stamp message load.found
      have fits : min message.value state.made.pool.regionSize = message.value := by
        rw [valueEq]
        exact Nat.min_eq_left (shelf.sizeTo_le count)
      rw [fits]
      refine ⟨count, within, valueEq, covers.mono (View.message_le_acquire _ _ _ _), ?_⟩
      intro symbol value index held numbered
      obtain ⟨heldShard, heldIndex, inRange, heldNumbered, here, knows⟩ := local'.held _ _ held
      obtain ⟨sameShard, sameIndex⟩ := sound.same_place more inRange numbered heldNumbered
      subst sameShard sameIndex
      refine (logs used.length).lt_of_sizeTo_le here ?_
      rw [← valueEq]
      exact knows.sizeTo_le_cursor shelf load

/-- A symbol that is held tells the reader its shard and its index. -/
theorem Sound.held_place (sound : state.Sound logs) {symbol : Symbol} {value : String}
    {view : View Cell} (held : Held state.made state.histories logs view symbol value) :
    symbol.shardId < state.made.shardCount ∧
      symbol.index build.profile = .ok symbol.issuedIndex ∧
      (logs symbol.shardId).written[symbol.issuedIndex]? = some value ∧
      Knows state.histories (logs symbol.shardId) view symbol.shardId symbol.issuedIndex := by
  obtain ⟨shardId, index, inRange, numbered, here, knows⟩ := held
  have shardEq : symbol.shardId = shardId := by
    rw [Symbol.shardId_of_new numbered, sound.made.toNat_shardId inRange]
  have indexEq := Symbol.issuedIndex_of_new numbered
  subst shardEq indexEq
  exact ⟨inRange, Symbol.index_of_new _ numbered, here, knows⟩

/-- An index past the chunks is no known string's. -/
theorem Sound.chunk_outside (sound : state.Sound logs) {reading : Reading}
    (task : (state.locals thread).task = .reading reading)
    (outside : NUM_CHUNKS ≤ reading.index / CHUNK_SIZE) :
    Moved state logs (state.locals thread) ((state.locals thread).turn reading.fail.1) := by
  refine ⟨le_rfl, ?_, ?_, (sound.threads thread).go le_rfl ?_⟩
  · rw [task]
    exact reading.lock_fail _
  · intro chunk pending
    rw [Local.turn, Local.go, reading.pending_fail] at pending
    cases pending
  · rcases sound.certain task with ⟨_, symbol, resolves⟩ | knows
    · simp [Reading.fail, resolves, TaskSound]
    · exact absurd knows (sound.unknown_outside task outside)

/-- A chunk pointer is remembered once it is loaded. -/
theorem Sound.chunk_load (sound : state.Sound logs) {reading : Reading} {stamp : Nat}
    {message : Message Cell} (task : (state.locals thread).task = .reading reading)
    (load : state.histories.Loads (state.locals thread).view
      (.chunk reading.shardId (reading.index / CHUNK_SIZE)) stamp message)
    (real : message.value ≠ 0) :
    Moved state logs (state.locals thread)
      { (state.locals thread).go
          ((state.locals thread).view.acquire (.chunk reading.shardId (reading.index / CHUNK_SIZE))
            stamp message) (.reading { reading with stage := .pointed message.value }) with
        memo := some (reading.shardId, reading.index / CHUNK_SIZE, message.value) } := by
  have taskSound := (sound.threads thread).task
  rw [task] at taskSound
  have pointed := (sound.shelf _ taskSound.shardId).pointed load real
  have stageSound : StageSound state.made state.histories logs _
      { reading with stage := .pointed message.value } := pointed
  obtain ⟨le, lock, pending, moved⟩ := sound.next_stage task (View.le_acquire _ _ _ _) stageSound
  refine ⟨le, lock, pending, ⟨?_, moved.held, moved.task⟩⟩
  rintro shardId chunkIdx ptr ⟨⟩
  exact pointed

/-- A null chunk pointer is loaded by a reader with the length check only. -/
theorem Sound.chunk_null (sound : state.Sound logs) {reading : Reading} {stamp : Nat}
    {message : Message Cell} (task : (state.locals thread).task = .reading reading)
    (load : state.histories.Loads (state.locals thread).view
      (.chunk reading.shardId (reading.index / CHUNK_SIZE)) stamp message)
    (null : message.value = 0) :
    Moved state logs (state.locals thread) ((state.locals thread).go
      ((state.locals thread).view.acquire (.chunk reading.shardId (reading.index / CHUNK_SIZE))
        stamp message) (if reading.checked then (reading.finish none).1 else .crashed)) := by
  have unknown := sound.unknown_chunk task load null
  rcases sound.certain task with ⟨checked, _⟩ | knows
  · rw [if_pos checked]
    exact sound.finish_none task unknown (View.le_acquire _ _ _ _)
  · exact absurd knows unknown

/-- A step that changes only its thread keeps the invariant of the thread. -/
theorem Sound.moved (sound : state.Sound logs) {event : Event} {accesses : Accesses Cell}
    {next : Local} (moves : state.Moves (state.locals thread) event accesses next) :
    Moved state logs (state.locals thread) next := by
  have local' := sound.threads thread
  have taskSound := local'.task
  have acquired := View.le_acquire (state.locals thread).view
  cases moves with
  | resolve idle index_ok inRange =>
      refine ⟨le_rfl, ?_, fun _ pending => (by cases pending), local'.go le_rfl
        ⟨inRange, ⟨rfl, index_ok⟩, fun impossible => (by cases impossible), rfl⟩⟩
      rw [idle]
      rfl
  | resolveUnchecked idle held =>
      obtain ⟨inRange, index_ok, _, knows⟩ := sound.held_place (local'.held _ _ held)
      refine ⟨le_rfl, ?_, fun _ pending => (by cases pending), local'.go le_rfl
        ⟨inRange, ⟨rfl, index_ok⟩, fun _ => knows, trivial⟩⟩
      rw [idle]
      rfl
  | lenShort task stage cellEq load short =>
      subst cellEq
      exact sound.finish_none task (sound.unknown_len task load short) (acquired _ _ _)
  | lenPassed task stage cellEq load passed =>
      exact sound.next_stage task (acquired _ _ _) trivial
  | chunkMemo task stage memo => exact sound.next_stage task le_rfl (local'.memo _ _ _ memo)
  | chunkOutside task stage outside => exact sound.chunk_outside task outside
  | chunkLoad task stage inside cellEq load real =>
      subst cellEq
      exact sound.chunk_load task load real
  | chunkNull task stage inside cellEq load null =>
      subst cellEq
      exact sound.chunk_null task load null
  | slotEmpty task stage checked cellEq load zero =>
      subst cellEq
      exact sound.finish_none task (sound.unknown_slot task stage load zero) (acquired _ _ _)
  | slotLoad task stage cellEq load stored =>
      subst cellEq
      rw [task] at taskSound
      have reading_ok : ReadingSound _ _ _ _ _ := taskSound
      have pointed := reading_ok.stage
      rw [StageSound, stage] at pointed
      have shelf := sound.shelf _ reading_ok.shardId
      have real : _ ≠ 0 := stored.elim (fun unchecked =>
        (reading_ok.unchecked unchecked).slot_ne_zero shelf pointed.installed load) id
      obtain ⟨below, valueEq, covers⟩ := shelf.loaded pointed load real
      exact sound.next_stage task (acquired _ _ _)
        ⟨below, valueEq, covers.mono (View.message_le_acquire _ _ _ _)⟩
  | record task stage headerLength textLength readHeader readText =>
      rw [task] at taskSound
      have here := (sound.record_text task stage headerLength textLength readHeader readText).1
      refine ⟨le_rfl, ?_, ?_, local'.go le_rfl (ReadingSound.finish taskSound ?_)⟩
      · rw [task]
        exact Reading.lock_finish _ _ _
      · intro chunk pending
        rw [Local.turn, Local.go, Reading.pending_finish] at pending
        cases pending
      · rcases sound.certain task with ⟨_, resolves⟩ | knows
        · exact Or.inl resolves
        · exact Or.inr ⟨here.symm, knows⟩
  | forget =>
      exact ⟨le_rfl, rfl, fun _ pending => pending,
        ⟨fun _ _ _ impossible => (by cases impossible), local'.held, local'.task⟩⟩
  | probe task candidate unread => exact sound.probe task candidate
  | found task candidate equal => exact sound.found task candidate equal
  | notFound task different => exact sound.notFound task different
  | poisonedLoad task cellEq load =>
      rw [task] at taskSound
      obtain ⟨proper, _, settled, absent⟩ := taskSound
      split
      · exact sound.insert_panics task (View.le_observe _ _ _) settled
      · rename_i goesOn
        exact sound.insert_goes task (View.le_observe _ _ _) rfl
          (proper.short fun long => goesOn (Or.inr long)) ⟨settled, absent⟩
  | sizeOverflow task size =>
      rw [task] at taskSound
      exact sound.insert_panics task le_rfl taskSound.2.2.1
  | cursorFull task size_ok cellEq load full =>
      rw [task] at taskSound
      obtain ⟨_, short, settled, absent⟩ := taskSound
      exact sound.insert_goes task (View.le_observe _ _ _) rfl
        (short fun other => by cases other) ⟨settled, absent⟩
  | cursorLoad task size_ok cellEq load room =>
      subst cellEq
      rw [task] at taskSound
      obtain ⟨_, short, settled, absent⟩ := taskSound
      have fits := short fun other => by cases other
      split
      · exact sound.insert_panics task (View.le_observe _ _ _) settled
      · have sizeEq := paddedRecordSize_stored fits size_ok
        have current := sound.cursor_loaded task settled load
        subst sizeEq
        refine sound.insert_goes task (View.le_observe _ _ _) rfl fits
          ⟨settled, absent, current, ?_⟩
        rw [Exhausted] at room
        omega
  | locateOutside task outside =>
      rw [task] at taskSound
      obtain ⟨_, _, underway, _⟩ := taskSound
      have above : NUM_CHUNKS * CHUNK_SIZE ≤ _ :=
        Nat.le_of_not_lt fun below => absurd ((chunk_lt_iff _).mpr below) (Nat.not_lt_of_le outside)
      exact sound.insert_panics task le_rfl (underway.settled_of_outside above)
  | located task inside cellEq load real =>
      subst cellEq
      exact sound.located task inside load real
  | installLost task cellEq load real =>
      subst cellEq
      rw [task] at taskSound
      obtain ⟨_, _, _, _, _, null⟩ := taskSound
      have upToDate := sound.fresh thread (state.home _) true (by rw [task]; rfl)
      exact absurd (load.value_eq (upToDate _ rfl) null) real
  | numberOverflow task numbered =>
      rw [task] at taskSound
      obtain ⟨_, _, underway, inside⟩ := taskSound
      exact sound.insert_panics task le_rfl
        (underway.settled inside (Symbol.new_eq_error.mp numbered).1)
  | exportCall idle =>
      refine ⟨le_rfl, ?_, fun _ pending => (by cases pending), local'.go le_rfl
        ⟨Nat.zero_le _, fun _ _ impossible => (by cases impossible)⟩⟩
      rw [idle]
      rfl
  | exportCursor task more cellEq load =>
      subst cellEq
      exact sound.export_cursor task more load
  | exportCopy task all headerLength readHeader lengths readParts =>
      refine ⟨le_rfl, ?_, fun _ pending => (by cases pending), local'.go le_rfl trivial⟩
      rw [task]
      rfl

end State

end Boomerang.WeakMemory
