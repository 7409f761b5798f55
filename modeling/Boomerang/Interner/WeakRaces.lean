import Boomerang.Interner.WeakMeetings

/-!
# No data race

Every plain read, and every atomic access to memory that was written plainly, happens
after the writes there; and every plain write goes where nobody has looked before.
-/

namespace Boomerang.WeakMemory

open Foundation

namespace State

variable {build : Build} {state next : State build} {logs grown : Nat → Log} {thread : Nat}

/-- What may have been accessed so far. -/
def Touchable (state : State build) (logs : Nat → Log) : Cell → Prop
  | .byte address => address < 4 ∨ ∃ shardId < state.made.shardCount,
      state.base shardId ≤ address ∧
        address < state.base shardId + (logs shardId).sizeTo (logs shardId).written.length
  | .slot ptr _ => ptr ≤ state.lastPtr
  | .cursor _ | .poisoned _ | .len _ | .chunk _ _ => True

theorem Touchable.later {cell : Cell} (touchable : state.Touchable logs cell)
    (later : Later state next logs grown) : next.Touchable grown cell := by
  cases cell with
  | byte address =>
      rcases touchable with header | ⟨shardId, inRange, low, high⟩
      · exact Or.inl header
      · have grows := later.grows shardId inRange
        have same := grows.sizeTo_eq (Nat.le_refl _)
        have more := (grown shardId).sizeTo_mono grows.written.length_le
        rw [← same] at high
        simp only [Touchable, base, later.made]
        exact Or.inr ⟨shardId, inRange, low, Nat.lt_of_lt_of_le high (Nat.add_le_add_left more _)⟩
  | slot ptr slotIdx => exact Nat.le_trans touchable later.lastPtr
  | cursor | poisoned | len | chunk => trivial

/-- The accesses of a step race with none before it. -/
structure Safe (state : State build) (logs : Nat → Log) (view : View Cell)
    (accesses : Accesses Cell) : Prop where
  ordered : accesses.Ordered state.histories view
  known : ∀ cell, cell ∈ accesses.reads ∨ cell ∈ accesses.atomics → state.Touchable logs cell
  fresh : ∀ cell ∈ accesses.writes, ¬ state.Touchable logs cell

section

variable {view : View Cell}

theorem safe_none (state : State build) (logs : Nat → Log) (view : View Cell) :
    state.Safe logs view {} :=
  ⟨⟨fun _ member => absurd member List.not_mem_nil, fun _ member => absurd member List.not_mem_nil,
    fun _ member => absurd member List.not_mem_nil⟩,
    fun _ member => absurd member (by simp), fun _ member => absurd member List.not_mem_nil⟩

/-- An atomic access to a location without plain writes past the view. -/
theorem safe_atomic {cell : Cell} (touchable : state.Touchable logs cell)
    (seen : ∀ stamp message, state.histories cell stamp = some message → message.plain = true →
      stamp ≤ view cell) : state.Safe logs view { atomics := [cell] } := by
  refine ⟨⟨fun _ member => absurd member List.not_mem_nil,
    fun _ member => absurd member List.not_mem_nil, ?_⟩, ?_,
    fun _ member => absurd member List.not_mem_nil⟩
  · intro loc member
    rw [List.mem_singleton.mp member]
    exact seen
  · rintro loc (reads | member)
    · exact absurd reads List.not_mem_nil
    · rwa [List.mem_singleton.mp member]

/-- Cursors, lengths and chunk pointers are not written plainly. -/
theorem Sound.safe_word (sound : state.Sound logs) (view : View Cell) {cell : Cell}
    (notByte : ∀ address, cell ≠ .byte address)
    (notSlot : ∀ ptr slotIdx, cell ≠ .slot ptr slotIdx) :
    state.Safe logs view { atomics := [cell] } := by
  refine safe_atomic ?_ ?_
  · cases cell with
    | byte address => exact absurd rfl (notByte address)
    | slot ptr slotIdx => exact absurd rfl (notSlot ptr slotIdx)
    | cursor | poisoned | len | chunk => trivial
  · intro stamp message found isPlain
    rcases sound.plain _ _ _ found isPlain with rfl | ⟨address, isByte⟩ | ⟨ptr, slotIdx, isSlot⟩
    · exact Nat.zero_le _
    · exact absurd isByte (notByte address)
    · exact absurd isSlot (notSlot ptr slotIdx)

/-- A thread that may follow a pointer has seen the zeros behind it. -/
theorem Sound.safe_slot (sound : state.Sound logs) {shardId chunkIdx ptr : Nat} (index : Nat)
    (installed : Installed state.histories shardId chunkIdx ptr)
    (zeroed : Zeroed state.histories view ptr) :
    state.Safe logs view { atomics := [.slot ptr (index % CHUNK_SIZE)] } :=
  safe_atomic (sound.bounded _ _ _ (Or.inl installed)).2 (zeroed _ (slotIdx_lt index)).2

theorem mem_stretch {cell : Cell} {address length : Nat} :
    cell ∈ stretch address length ↔ ∃ position < length, cell = .byte (address + position) := by
  simp only [stretch, List.mem_map, List.mem_range]
  exact ⟨fun ⟨position, inside, same⟩ => ⟨position, inside, same.symm⟩,
    fun ⟨position, inside, same⟩ => ⟨position, inside, same.symm⟩⟩

theorem mem_slots {cell : Cell} {ptr count : Nat}
    (member : cell ∈ (List.range count).map (.slot ptr)) : ∃ slotIdx, cell = .slot ptr slotIdx := by
  obtain ⟨slotIdx, _, same⟩ := List.mem_map.mp member
  exact ⟨slotIdx, same.symm⟩

/-- Plain reads of written bytes that the view is past. -/
theorem safe_reads {reads : List Cell}
    (each : ∀ cell ∈ reads, state.Touchable logs cell ∧ state.histories.Seen view cell) :
    state.Safe logs view { reads := reads } := by
  refine ⟨⟨fun loc member => (each loc member).2, fun _ member => absurd member List.not_mem_nil,
    fun _ member => absurd member List.not_mem_nil⟩, ?_,
    fun _ member => absurd member List.not_mem_nil⟩
  rintro cell (member | atomics)
  · exact (each cell member).1
  · exact absurd atomics List.not_mem_nil

/-- Bytes of the first strings of a shard. -/
theorem touchable_byte {shardId count address : Nat}
    (inRange : shardId < state.made.shardCount) (within : count ≤ (logs shardId).written.length)
    (low : state.base shardId ≤ address)
    (high : address < state.base shardId + (logs shardId).sizeTo count) :
    state.Touchable logs (.byte address) := by
  have more := (logs shardId).sizeTo_mono within
  exact Or.inr ⟨shardId, inRange, low, by omega⟩

end

/-- A step that changes only its thread races with none. -/
theorem Sound.safe_moves (sound : state.Sound logs) {event : Event} {accesses : Accesses Cell}
    {loc : Local} (moves : state.Moves (state.locals thread) event accesses loc) :
    state.Safe logs (state.locals thread).view accesses := by
  have local' := sound.threads thread
  have taskSound := local'.task
  cases moves with
  | resolve | resolveUnchecked | chunkMemo | chunkOutside | forget | probe | found | notFound
  | sizeOverflow | locateOutside | numberOverflow | exportCall => exact safe_none _ _ _
  | lenShort _ _ cellEq | lenPassed _ _ cellEq | chunkLoad _ _ _ cellEq | chunkNull _ _ _ cellEq
  | poisonedLoad _ cellEq | cursorFull _ _ cellEq | cursorLoad _ _ cellEq | located _ _ cellEq
  | installLost _ cellEq | exportCursor _ _ cellEq =>
      subst cellEq
      exact sound.safe_word _ (by simp) (by simp)
  | slotEmpty task stage checked cellEq load zero =>
      subst cellEq
      rw [task] at taskSound
      have pointed := (show ReadingSound _ _ _ _ _ from taskSound).stage
      rw [StageSound, stage] at pointed
      exact sound.safe_slot _ pointed.installed pointed.zeroed
  | slotLoad task stage cellEq load stored =>
      subst cellEq
      rw [task] at taskSound
      have pointed := (show ReadingSound _ _ _ _ _ from taskSound).stage
      rw [StageSound, stage] at pointed
      exact sound.safe_slot _ pointed.installed pointed.zeroed
  | record task stage headerLength textLength readHeader readText =>
      obtain ⟨here, rfl, fits, covers⟩ :=
        sound.record_text task stage headerLength textLength readHeader readText
      rw [task] at taskSound
      have inRange := (show ReadingSound _ _ _ _ _ from taskSound).shardId
      have size := Log.sizeTo_succ _ here
      refine safe_reads fun cell member => ?_
      obtain ⟨position, inside, rfl⟩ := mem_stretch.mp member
      have below := (List.getElem?_eq_some_iff.mp here).1
      exact ⟨touchable_byte inRange (Nat.succ_le_of_lt below) (by omega)
          (by simp only [Nat.succ_eq_add_one]; omega),
        covers _ (by omega) (by omega)⟩
  | exportCopy task all headerLength readHeader lengths readParts =>
      rw [task] at taskSound
      have exporting := (show ExportSound _ _ _ _ _ _ from taskSound)
      refine safe_reads fun cell member => ?_
      rcases List.mem_append.mp member with header | part
      · obtain ⟨position, inside, rfl⟩ := mem_stretch.mp header
        rw [sound.made.sized.header] at inside
        refine ⟨Or.inl (by omega), fun stamp message found => ?_⟩
        rw [(sound.header _ (by omega) _ _ found).1]
        exact Nat.zero_le _
      · obtain ⟨⟨size, shardId⟩, listed, inside⟩ := List.mem_flatMap.mp part
        obtain ⟨position, within, rfl⟩ := mem_stretch.mp inside
        have loaded := List.mem_zipIdx_iff_getElem?.mp listed
        have inRange : shardId < state.made.shardCount :=
          all ▸ (List.getElem?_eq_some_iff.mp loaded).1
        obtain ⟨count, committed, sizeEq, covers, _⟩ := exporting.loaded shardId size loaded
        have written := Nat.le_trans committed (sound.shelf _ inRange).committed_le
        have reached : state.base shardId + position < state.base shardId + size :=
          Nat.add_lt_add_left within _
        exact ⟨touchable_byte inRange written (Nat.le_add_right _ _) (sizeEq ▸ reached),
          covers _ (Nat.le_add_right _ _) reached⟩

/-- The bytes of a new record were not accessed before. -/
theorem Sound.untouched_record (sound : state.Sound logs) {value : String} {current position : Nat}
    (task : (state.locals thread).task = .inserting value (.copy current))
    (inside : position < (recordBytes value).length) :
    ¬ state.Touchable logs (.byte (state.base (state.home value) + current + position)) := by
  have fits := sound.fits task
  have length := length_recordBytes value
  have room := fits.room
  have currentEq := fits.currentEq
  have past := sound.base_pos (state.home value)
  rintro (header | ⟨shardId, inRange, low, high⟩)
  · omega
  · have whole := (sound.shelf _ inRange).toLogSound.sizeTo_le (logs shardId).written.length
    by_cases same : shardId = state.home value
    · subst same
      omega
    · have apart := state.made.pool.regionStart_apart same
      simp only [base] at low high
      omega

/-- Every step races with none. -/
theorem Sound.safe {label : Label} (sound : state.Sound logs) (step : Step state label next) :
    state.Safe logs (state.locals label.thread).view label.accesses := by
  cases step with
  | move moves => exact sound.safe_moves moves
  | sync | share | lock | unshare | unlock | number => exact safe_none _ _ _
  | poison _ cellEq | commit _ _ cellEq | count _ cellEq | install _ cellEq =>
      subst cellEq
      exact sound.safe_word _ (by simp) (by simp)
  | @point thread value _ index ptr _ _ task cellEq vacant =>
      subst cellEq
      have taskSound := (sound.threads thread).task
      rw [task] at taskSound
      obtain ⟨_, _, _, _, _, installed, zeroed⟩ := taskSound
      exact sound.safe_slot index installed zeroed
  | @copy thread value current _ stamps task valuesEq vacant =>
      have fits := sound.fits task
      rw [fits.offsetEq]
      have length := length_recordBytes value
      have room := fits.room
      refine ⟨⟨fun _ member => absurd member List.not_mem_nil, fun cell member => ?_,
        fun _ member => absurd member List.not_mem_nil⟩, ?_, fun cell member => ?_⟩
      · obtain ⟨position, inside, rfl⟩ := mem_stretch.mp member
        exact sound.seen task _ ⟨by omega, by omega⟩
      · rintro cell (reads | atomics)
        · exact absurd reads List.not_mem_nil
        · exact absurd atomics List.not_mem_nil
      · obtain ⟨position, inside, rfl⟩ := mem_stretch.mp member
        exact sound.untouched_record task inside
  | @allocate thread value _ index _ _ _ _ stamps task inside cellEq load null valuesEq vacant =>
      subst cellEq
      have word : state.Safe logs (state.locals thread).view
          { atomics := [.chunk (state.home value) (index / CHUNK_SIZE)] } :=
        sound.safe_word _ (by simp) (by simp)
      refine ⟨⟨fun _ member => absurd member List.not_mem_nil, fun cell member => ?_,
        word.ordered.atomics⟩, word.known, fun cell member => ?_⟩
      · dsimp only at member
        obtain ⟨slotIdx, rfl⟩ := mem_slots member
        intro stamp message found
        rw [sound.blank _ _ (Nat.lt_succ_self _) _ _ found]
        exact Nat.zero_le _
      · dsimp only at member
        obtain ⟨slotIdx, rfl⟩ := mem_slots member
        exact Nat.not_succ_le_self _

/-- What a step wrote plainly counts as accessed from then on. -/
theorem Sound.written_touchable {label : Label} (sound : state.Sound logs)
    (step : Step state label next) (nextSound : next.Sound grown) (made : next.made = state.made) :
    ∀ cell ∈ label.accesses.writes, next.Touchable grown cell := by
  intro cell member
  cases step with
  | move moves =>
      cases moves <;> exact absurd member List.not_mem_nil
  | sync | share | lock | unshare | unlock | number | poison | commit | count | install | point =>
      exact absurd member List.not_mem_nil
  | @copy thread value current _ stamps task valuesEq vacant =>
      have fits := sound.fits task
      rw [fits.offsetEq] at member
      obtain ⟨position, inside, rfl⟩ := mem_stretch.mp member
      have taskSound := (nextSound.threads thread).task
      rw [scribble_locals] at taskSound
      obtain ⟨_, _, index, underway, currentEq⟩ := taskSound
      obtain ⟨here, length⟩ := underway.last
      have size := (grown (state.home value)).sizeTo_succ here
      have bound := length_recordBytes value
      refine Or.inr ⟨state.home value, made ▸ sound.home_lt value, ?_, ?_⟩
      · show state.base (state.home value) ≤ _
        omega
      · have whole : current + paddedSize (byteLength value) =
            (grown (state.home value)).sizeTo (grown (state.home value)).written.length := by
          rw [show (grown (state.home value)).written.length = index + 1 from length, size]
          exact congrArg (· + _) currentEq
        show _ < state.base (state.home value) + _
        omega
  | allocate =>
      dsimp only at member
      obtain ⟨slotIdx, rfl⟩ := mem_slots member
      exact Nat.le_refl _

/-- No data race, in any run: a step's plain reads and its accesses to memory written
plainly come after the writes there, its plain writes go where no step has accessed
anything, and no null pointer is followed. -/
theorem no_race {uninitialised : Memory} {internerId count : Nat} {made : StringInterner build}
    {garbage : Nat → Nat → Nat} {labels : List Label}
    (created : StringInterner.withCapacityAndShards build uninitialised internerId count = .ok made)
    (run : Steps Step (start made garbage) labels state)
    (fits : ∀ label ∈ labels, label.Fits build.profile) :
    (∀ thread, (state.locals thread).task ≠ .crashed) ∧
      ∀ label next, Step state label next →
        label.accesses.Ordered state.histories (state.locals label.thread).view ∧
          ∀ cell ∈ label.accesses.writes, ∀ earlier ∈ labels, ¬ earlier.accesses.Touches cell := by
  obtain ⟨interner, new, facts⟩ :=
    StringInterner.withCapacityAndShards_ok build uninitialised internerId count
  cases new.symm.trans created
  obtain ⟨logs, sound, touched⟩ := @Sound.run _ _ _
    (fun state logs label => ∀ cell, label.accesses.Touches cell → state.Touchable logs cell) _ _
    (sound_start facts.layout garbage) run fits
    (fun sound step later nextSound cell touches => by
      rcases touches with reads | writes | atomics
      · exact ((sound.safe step).known cell (Or.inl reads)).later later
      · exact sound.written_touchable step nextSound later.made cell writes
      · exact ((sound.safe step).known cell (Or.inr atomics)).later later)
    (fun _ later fact cell touches => (fact cell touches).later later)
  refine ⟨fun thread crashed => ?_, fun label next step => ?_⟩
  · have taskSound := (sound.threads thread).task
    rw [crashed] at taskSound
    exact taskSound
  · have safe := sound.safe step
    exact ⟨safe.ordered, fun cell writes earlier member touches =>
      safe.fresh cell writes (touched earlier member cell touches)⟩

/-- A thread is about to write a record while another has interned a string and a third was
given its symbol: what any of them does next has no race. -/
theorem no_race_interned :
    ∃ (made : StringInterner ⟨.debug, fun _ => 0⟩) (labels : List Label)
      (state : State ⟨.debug, fun _ => 0⟩) (symbol : Symbol),
      Meeting made (fun _ _ => 7) "cd" "ab" labels state symbol ∧
      (∃ label next, Step state label next ∧ label.thread = 0 ∧ label.accesses.writes ≠ []) ∧
      ∀ label next, Step state label next →
        label.accesses.Ordered state.histories (state.locals label.thread).view ∧
          ∀ cell ∈ label.accesses.writes, ∀ earlier ∈ labels, ¬ earlier.accesses.Touches cell := by
  obtain ⟨made, created, _, labels, state, symbol, meeting⟩ := exists_meeting_letters
  obtain ⟨logs, sound, _⟩ := Reaches.invariants ⟨labels, meeting.run, meeting.fits⟩ created
  obtain ⟨next, step, _⟩ := sound.step_copy meeting.standing
  refine ⟨made, labels, state, symbol, meeting, ⟨_, next, step, rfl, ?_⟩,
    (no_race created meeting.run meeting.fits).2⟩
  refine List.ne_nil_of_length_pos ?_
  rw [stretch, List.length_map, List.length_range]
  decide

end State

end Boomerang.WeakMemory
