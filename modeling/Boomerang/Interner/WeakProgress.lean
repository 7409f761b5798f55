import Boomerang.Interner.WeakViews

/-!
# No thread is stuck

Every load finds a write and every store of a lock's holder a free place. A thread in the
middle of a call takes its next step whatever the others do, and one that holds a lock
comes to drop it.
-/

namespace Boomerang.WeakMemory

open Foundation

/-- How many stages of a reading are ahead. -/
def Stage.ahead : Stage → Nat
  | .entered => 3
  | .bounded => 2
  | .pointed _ => 1
  | .placed _ => 0

namespace State

variable {build : Build} {state next : State build} {logs : Nat → Log} {label : Label}
variable {thread : Nat} {value : String}

/-- The table a string is looked up in. -/
def tableOf (state : State build) (value : String) : List Entry := state.tables (state.home value)

/-- A thread takes a step that tells this. -/
def Takes (state : State build) (thread : Nat) (event : Event) (next : State build) : Prop :=
  ∃ accesses, Step state ⟨thread, event, accesses⟩ next

section Reads

variable {view : View Cell} {shardId index : Nat} {log : Log}

/-- Some bytes can be read anywhere. -/
theorem Timely.reads (timely : state.Timely) (reached : state.histories.Reached view)
    (address length : Nat) : ∃ raw, raw.length = length ∧ state.ReadsBytes view address raw := by
  have each : ∀ place, ∃ byte : UInt8, ∃ stamp message,
      state.histories.Loads view (.byte place) stamp message ∧ message.value = byte.toNat := by
    intro place
    obtain ⟨stamp, message, load⟩ := reached.loads (.byte place)
    refine ⟨UInt8.ofNat message.value, stamp, message, load, ?_⟩
    rw [UInt8.toNat_ofNat', Nat.mod_eq_of_lt (timely.octets _ _ _ load.found)]
  choose byte found using each
  refine ⟨(List.range length).map fun position => byte (address + position), by simp, ?_⟩
  intro position here isHere
  rw [List.getElem?_map] at isHere
  obtain ⟨place, isPlace, rfl⟩ := Option.map_eq_some_iff.mp isHere
  obtain ⟨_, rfl⟩ := List.getElem?_eq_some_iff.mp isPlace
  rw [List.getElem_range]
  exact found _

/-- A record that was seen can be read. -/
theorem Shelf.reads_record (shelf : state.Shelf shardId log) {skip : Nat}
    (reached : state.histories.Reached view) (here : log.written[index]? = some value)
    (covers : Covers state.histories view (state.base shardId) (log.sizeTo (index + 1))) :
    state.ReadsBytes view (state.base shardId + log.sizeTo index + skip)
      ((recordBytes value).drop skip) := by
  intro position byte byteAt
  rw [List.getElem?_drop] at byteAt
  have within := (shelf.record_inside here byteAt).1
  have ends := shelf.record index value here _ _ byteAt
  rw [← Nat.add_assoc] at ends
  obtain ⟨stamp, message, load⟩ :=
    reached.loads (.byte (state.base shardId + log.sizeTo index + skip + position))
  exact ⟨stamp, message, load, load.value_eq (covers _ (by omega) (by omega)) ends⟩

end Reads

section Stages

variable {offset index current : Nat}

/-- Where a thread is after a step that changes only it. -/
theorem takes_move {event : Event} {accesses : Accesses Cell} {loc : Local}
    (moves : state.Moves (state.locals thread) event accesses loc) :
    ∃ next, state.Takes thread event next ∧ next.locals thread = loc ∧
      next.tableOf = state.tableOf ∧ next.histories = state.histories :=
  ⟨_, ⟨_, .move moves⟩, setLocal_locals _ _ _, rfl, rfl⟩

theorem takes_publish {cell : Cell} {stamp written : Nat} {view : View Cell} {task : Task}
    (step : ∃ accesses, Step state ⟨thread, .silent, accesses⟩
      (state.publish thread cell stamp written view task)) :
    ∃ next, state.Takes thread .silent next ∧ (next.locals thread).task = task ∧
      ∀ other, other ≠ cell → next.histories other = state.histories other :=
  ⟨_, step, by rw [publish_locals]; rfl, fun _ => publish_other state⟩

/-- The record is written. -/
theorem Sound.step_copy (sound : state.Sound logs)
    (task : (state.locals thread).task = .inserting value (.copy current)) :
    ∃ next, Step state ⟨thread, .silent,
        { writes := stretch (state.offsetOf value current) (recordBytes value).length }⟩ next ∧
      (next.locals thread).task = .inserting value (.commit current) ∧
      ∀ shardId, next.histories (.len shardId) = state.histories (.len shardId) := by
  have fits := sound.fits task
  refine ⟨_, @Step.copy _ _ _ _ _ _ (fun cell => (state.locals thread).view cell + 1) task rfl ?_,
    by rw [scribble_locals]; rfl, fun shardId => scribble_other state rfl⟩
  intro cell written
  have length := length_recordBytes value
  have room := fits.room
  rw [fits.offsetEq] at written
  obtain ⟨position, inside, rfl⟩ := recordValues_isSome written
  exact (sound.seen task (.byte _) ⟨by omega, by omega⟩).vacant

theorem Sound.takes_copy (sound : state.Sound logs)
    (task : (state.locals thread).task = .inserting value (.copy current)) :
    ∃ next, state.Takes thread .silent next ∧
      (next.locals thread).task = .inserting value (.commit current) ∧
      ∀ shardId, next.histories (.len shardId) = state.histories (.len shardId) := by
  obtain ⟨next, step, after, same⟩ := sound.step_copy task
  exact ⟨next, ⟨_, step⟩, after, same⟩

/-- The cursor is moved. -/
theorem Sound.takes_commit (sound : state.Sound logs)
    (task : (state.locals thread).task = .inserting value (.commit current)) :
    ∃ next, state.Takes thread .silent next ∧
      (next.locals thread).task = .inserting value (.count (state.offsetOf value current)) ∧
      ∀ shardId, next.histories (.len shardId) = state.histories (.len shardId) := by
  have taskSound := (sound.threads thread).task
  rw [task] at taskSound
  have short := taskSound.2.1 fun impossible => (by cases impossible)
  have size_ok : paddedRecordSize build.profile (storedLength value) =
      .ok (paddedSize (byteLength value)) := by
    rw [storedLength, Nat.mod_eq_of_lt (by omega), paddedRecordSize_eq_ok short]
  obtain ⟨next, takes, after, others⟩ := takes_publish ⟨_, .commit task size_ok rfl
    (sound.seen task (.cursor (state.home value)) rfl).vacant⟩
  exact ⟨next, takes, after, fun shardId => others (.len shardId) (by simp)⟩

/-- The length is counted up. -/
theorem Sound.takes_count (sound : state.Sound logs) (timely : state.Timely)
    (task : (state.locals thread).task = .inserting value (.count offset)) :
    ∃ next stamp message, state.Takes thread .silent next ∧
      state.histories (.len (state.home value)) stamp = some message ∧
      (next.locals thread).task = .inserting value (.locate offset message.value) := by
  obtain ⟨stamp, message, load⟩ := (timely.locals thread).loads (.len (state.home value))
  obtain ⟨next, takes, after, _⟩ := takes_publish ⟨_, .count task rfl load
    (load.free_succ (sound.seen task (.len (state.home value)) rfl))⟩
  exact ⟨next, stamp, message, takes, load.found, after⟩

/-- A chunk is found or allocated. -/
theorem Sound.takes_locate (sound : state.Sound logs) (timely : state.Timely)
    (task : (state.locals thread).task = .inserting value (.locate offset index))
    (inside : index / CHUNK_SIZE < NUM_CHUNKS) :
    ∃ next ptr, state.Takes thread .silent next ∧
      ((next.locals thread).task = .inserting value (.point offset index ptr) ∨
        (next.locals thread).task = .inserting value (.install offset index ptr)) := by
  obtain ⟨stamp, message, load⟩ :=
    (timely.locals thread).loads (.chunk (state.home value) (index / CHUNK_SIZE))
  by_cases null : message.value = 0
  · refine ⟨_, state.lastPtr + 1, ⟨_, @Step.allocate _ _ _ _ _ _ _ _ _ _
      (fun cell => (state.locals thread).view cell + 1) task inside rfl load null rfl ?_⟩,
      Or.inr (by rw [scribble_locals]; rfl)⟩
    intro cell written
    obtain ⟨slotIdx, _, rfl⟩ := zeroSlots_isSome written
    refine Histories.Seen.vacant fun stamp message found => ?_
    rw [sound.blank _ _ (Nat.lt_succ_self _) _ _ found]
    exact Nat.zero_le _
  · obtain ⟨next, takes, after, _⟩ := takes_move (.located task inside rfl load null)
    exact ⟨next, _, takes, Or.inl (congrArg Local.task after)⟩

/-- The chunk is installed. -/
theorem Sound.takes_install (sound : state.Sound logs) (timely : state.Timely) {ptr : Nat}
    (task : (state.locals thread).task = .inserting value (.install offset index ptr)) :
    ∃ next other, state.Takes thread .silent next ∧
      (next.locals thread).task = .inserting value (.point offset index other) := by
  obtain ⟨stamp, message, load⟩ :=
    (timely.locals thread).loads (.chunk (state.home value) (index / CHUNK_SIZE))
  by_cases null : message.value = 0
  · obtain ⟨next, takes, after, _⟩ := takes_publish ⟨_, .install task rfl load null
      (load.free_succ (sound.seen task (.chunk (state.home value) (index / CHUNK_SIZE)) rfl))⟩
    exact ⟨next, ptr, takes, after⟩
  · obtain ⟨next, takes, after, _⟩ := takes_move (.installLost task rfl load null)
    exact ⟨next, _, takes, congrArg Local.task after⟩

/-- The slot is stored. -/
theorem Sound.takes_point (sound : state.Sound logs) {ptr : Nat}
    (task : (state.locals thread).task = .inserting value (.point offset index ptr)) :
    ∃ next, state.Takes thread .silent next ∧
      (next.locals thread).task = .inserting value (.number index) := by
  have taskSound := (sound.threads thread).task
  rw [task] at taskSound
  obtain ⟨_, _, _, _, _, installed, _⟩ := taskSound
  obtain ⟨next, takes, after, _⟩ := takes_publish ⟨_, .point task rfl
    (sound.seen task (.slot ptr (index % CHUNK_SIZE)) ⟨_, Or.inl installed⟩).vacant⟩
  exact ⟨next, takes, after⟩

/-- The string is numbered. -/
theorem takes_number {symbol : Symbol}
    (task : (state.locals thread).task = .inserting value (.number index))
    (numbered : Symbol.new (UInt8.ofNat (state.home value)) index = .ok symbol) :
    ∃ next, state.Takes thread .silent next ∧
      (next.locals thread).task = .leaving .insert value (.issue symbol) :=
  ⟨_, ⟨_, .number task numbered⟩, by rw [setLocal_locals]; rfl⟩

/-- A locked section ends. -/
theorem takes_leave {mode : Mode} {verdict : Verdict}
    (task : (state.locals thread).task = .leaving mode value verdict) :
    ∃ next, state.Takes thread (verdict.event mode value) next ∧
      next.locals thread = (state.locals thread).leave mode value verdict := by
  by_cases insert : mode = .insert
  · subst insert
    exact ⟨_, ⟨_, .unlock task⟩, setLocal_locals _ _ _⟩
  · exact ⟨_, ⟨_, .unshare task insert⟩, setLocal_locals _ _ _⟩

/-- What becomes of a reading: it gets further, ends with an answer, or fails. -/
def Onward (reading : Reading) (event : Event) (task : Task) : Prop :=
  (∃ stage, stage.ahead < reading.stage.ahead ∧ event = .silent ∧
      task = .reading { reading with stage := stage }) ∨
    (∃ text, event = (reading.finish text).2 ∧ task = (reading.finish text).1) ∨
    NUM_CHUNKS ≤ reading.index / CHUNK_SIZE ∧ event = reading.fail.2 ∧ task = reading.fail.1

theorem Onward.ne_called {reading : Reading} {event : Event} {task : Task}
    (onward : Onward reading event task) : ∀ text, event ≠ .called text := by
  intro text
  rcases onward with ⟨_, _, rfl, _⟩ | ⟨_, rfl, _⟩ | ⟨_, rfl, _⟩
  · exact fun impossible => by cases impossible
  · exact Reading.finish_ne (by simp) (by simp)
  · unfold Reading.fail
    split <;> simp

/-- A reading gets further. -/
theorem Sound.takes_reading (sound : state.Sound logs) (timely : state.Timely) {reading : Reading}
    (task : (state.locals thread).task = .reading reading) :
    ∃ event next, state.Takes thread event next ∧
      Onward reading event (next.locals thread).task ∧
      (next.locals thread).held = (state.locals thread).held ∧ next.tableOf = state.tableOf := by
  have reached := timely.locals thread
  have taskSound := (sound.threads thread).task
  rw [task] at taskSound
  have reading_ok : ReadingSound _ _ _ _ reading := taskSound
  -- Every stage is one move, chosen by the value there is to load.
  suffices moves : ∃ event accesses loc, state.Moves (state.locals thread) event accesses loc ∧
      Onward reading event loc.task ∧ loc.held = (state.locals thread).held by
    obtain ⟨event, accesses, loc, moves, onward, held⟩ := moves
    obtain ⟨next, takes, after, tables, _⟩ := takes_move moves
    exact ⟨event, next, takes, after ▸ onward, after ▸ held, tables⟩
  cases stage : reading.stage with
  | entered =>
      obtain ⟨stamp, message, load⟩ := reached.loads (.len reading.shardId)
      rcases Nat.lt_or_ge reading.index message.value with passed | short
      · exact ⟨_, _, _, .lenPassed task stage rfl load passed,
          Or.inl ⟨.bounded, by simp [stage, Stage.ahead], rfl, rfl⟩, rfl⟩
      · exact ⟨_, _, _, .lenShort task stage rfl load short, Or.inr (Or.inl ⟨none, rfl, rfl⟩), rfl⟩
  | bounded =>
      rcases Nat.lt_or_ge (reading.index / CHUNK_SIZE) NUM_CHUNKS with inside | outside
      · obtain ⟨stamp, message, load⟩ :=
          reached.loads (.chunk reading.shardId (reading.index / CHUNK_SIZE))
        by_cases null : message.value = 0
        · have checked : reading.checked = true := by
            rcases sound.certain task with ⟨checked, _⟩ | knows
            · exact checked
            · exact absurd knows (sound.unknown_chunk task load null)
          exact ⟨_, _, _, .chunkNull task stage inside rfl load null,
            Or.inr (Or.inl ⟨none, if_pos checked, if_pos checked⟩), rfl⟩
        · exact ⟨_, _, _, .chunkLoad task stage inside rfl load null,
            Or.inl ⟨.pointed message.value, by simp [stage, Stage.ahead], rfl, rfl⟩, rfl⟩
      · exact ⟨_, _, _, .chunkOutside task stage outside,
          Or.inr (Or.inr ⟨outside, rfl, rfl⟩), rfl⟩
  | pointed ptr =>
      obtain ⟨stamp, message, load⟩ := reached.loads (.slot ptr (reading.index % CHUNK_SIZE))
      by_cases stored : reading.checked = false ∨ message.value ≠ 0
      · exact ⟨_, _, _, .slotLoad task stage rfl load stored,
          Or.inl ⟨.placed message.value, by simp [stage, Stage.ahead], rfl, rfl⟩, rfl⟩
      · rw [not_or, Bool.not_eq_false, not_not] at stored
        exact ⟨_, _, _, .slotEmpty task stage stored.1 rfl load stored.2,
          Or.inr (Or.inl ⟨none, rfl, rfl⟩), rfl⟩
  | placed offset =>
      have stageSound := reading_ok.stage
      rw [StageSound, stage] at stageSound
      obtain ⟨below, rfl, covers⟩ := stageSound
      have shelf := sound.shelf _ reading_ok.shardId
      have here := List.getElem?_eq_getElem
        (Nat.lt_of_lt_of_le below shelf.toLogSound.stored_written)
      have short := (shelf.proper _ (List.mem_of_getElem? here)).2.2
      have parts := recordBytes_eq short
      have header := (@Shelf.reads_record _ _ _ _ _ _ _ shelf 0 reached here covers).take 4
      have text := @Shelf.reads_record _ _ _ _ _ _ _ shelf 4 reached here covers
      rw [List.drop_zero, parts, List.take_left' (length_toLE _ _)] at header
      rw [parts, List.drop_left' (length_toLE _ _)] at text
      have wide : u32Range = 256 ^ 4 := by decide
      exact ⟨_, _, _, .record task stage (length_toLE _ _)
        (by rw [ofLE_toLE (by omega)]; rfl) header text, Or.inr (Or.inl ⟨_, rfl, rfl⟩), rfl⟩

/-- A lookup reads a text that was not read yet, reads that of the entry found, or ends. -/
theorem takes_looking {lookup : Lookup} (task : (state.locals thread).task = .looking lookup) :
    ∃ next, state.Takes thread .silent next ∧ next.tableOf = state.tableOf ∧
      ((next.locals thread).task = .inserting lookup.value .poisoned ∨
        (next.locals thread).task = .leaving lookup.mode lookup.value .miss ∨
        (∃ reading symbol, (next.locals thread).task = .reading reading ∧
          reading.reason = .confirm lookup symbol) ∨
        ∃ reading entry, (next.locals thread).task = .reading reading ∧
          reading.reason = .probe lookup ∧ reading.index = entry.symbol.issuedIndex ∧
          entry ∈ state.tableOf lookup.value ∧
          ∀ text, (entry.symbol.issuedIndex, text) ∉ lookup.seen) := by
  by_cases different : ∀ entry, state.Candidate lookup.value entry → ∃ text,
      (entry.symbol.issuedIndex, text) ∈ lookup.seen ∧ text ≠ some lookup.value
  · obtain ⟨next, takes, after, tables, _⟩ := takes_move (.notFound task different)
    refine ⟨next, takes, tables, ?_⟩
    by_cases insert : lookup.mode = .insert
    · rw [if_pos insert] at after
      exact Or.inl (congrArg Local.task after)
    · rw [if_neg insert] at after
      exact Or.inr (Or.inl (congrArg Local.task after))
  · simp only [not_forall, not_exists, not_and, ne_eq, not_not] at different
    obtain ⟨entry, candidate, only⟩ := different
    by_cases equal : (entry.symbol.issuedIndex, some lookup.value) ∈ lookup.seen
    · obtain ⟨next, takes, after, tables, _⟩ := takes_move (.found task candidate equal)
      exact ⟨next, takes, tables, Or.inr (Or.inr (Or.inl ⟨_, _, congrArg Local.task after, rfl⟩))⟩
    · have unread : ∀ text, (entry.symbol.issuedIndex, text) ∉ lookup.seen :=
        fun text seen => equal (only text seen ▸ seen)
      obtain ⟨next, takes, after, tables, _⟩ := takes_move (.probe task candidate unread)
      exact ⟨next, takes, tables, Or.inr (Or.inr (Or.inr
        ⟨_, entry, congrArg Local.task after, rfl, rfl, candidate.1, unread⟩))⟩

/-- An export loads the next cursor or copies. -/
theorem Timely.takes_export (timely : state.Timely) {used : List Nat}
    (task : (state.locals thread).task = .exporting used)
    (bounded : used.length ≤ state.made.shardCount) :
    (∃ next size, state.Takes thread .silent next ∧
      (next.locals thread).task = .exporting (used ++ [size]) ∧
        used.length < state.made.shardCount ∧
        (next.locals thread).held = (state.locals thread).held) ∨
      ∃ next out, state.Takes thread (.exported out) next ∧ (next.locals thread).task = .idle := by
  rcases Nat.lt_or_eq_of_le bounded with more | all
  · obtain ⟨stamp, message, load⟩ := (timely.locals thread).loads (.cursor used.length)
    obtain ⟨next, takes, after, _⟩ := takes_move (.exportCursor task more rfl load)
    exact Or.inl ⟨next, _, takes, congrArg Local.task after, more, by rw [after]; rfl⟩
  · have reached := timely.locals thread
    obtain ⟨header, headerLength, readHeader⟩ :=
      timely.reads reached 0 state.made.pool.headerSize
    have each : ∀ shardId, ∃ raw, raw.length = used.getD shardId 0 ∧
        state.ReadsBytes (state.locals thread).view (state.made.pool.regionStart shardId) raw :=
      fun shardId => timely.reads reached _ _
    choose raw lengths readRaw using each
    have parts : ((List.range used.length).map raw).map List.length = used := by
      refine List.ext_getElem (by simp) fun shardId inside other => ?_
      simp [lengths, other]
    have readParts : ∀ (shardId : Nat) (part : List UInt8),
        ((List.range used.length).map raw)[shardId]? = some part →
          state.ReadsBytes (state.locals thread).view
          (state.made.pool.regionStart shardId) part := by
      intro shardId part here
      rw [List.getElem?_map] at here
      obtain ⟨place, isPlace, rfl⟩ := Option.map_eq_some_iff.mp here
      obtain ⟨_, rfl⟩ := List.getElem?_eq_some_iff.mp isPlace
      rw [List.getElem_range]
      exact readRaw shardId
    obtain ⟨next, takes, after, _⟩ :=
      takes_move (.exportCopy task all headerLength readHeader parts readParts)
    exact Or.inr ⟨next, _, takes, congrArg Local.task after⟩

end Stages

end State

end Boomerang.WeakMemory
