import Boomerang.Interner.WeakInvariant

/-!
# What a step leaves alone

Views and logs only grow, and a thread writes only the cells of a shard whose lock it
holds. What the invariant says of other shards and of other threads is carried over
here, once for all steps.
-/

namespace Boomerang.WeakMemory

open Foundation

section Views

variable {histories : Histories Cell} {view larger : View Cell}

theorem Covers.mono {address length : Nat} (covers : Covers histories view address length)
    (le : view ≤ larger) : Covers histories larger address length :=
  fun place low high => (covers place low high).mono le

theorem Covers.shrink {address length shorter : Nat}
    (covers : Covers histories view address length) (le : shorter ≤ length) :
    Covers histories view address shorter :=
  fun place low high => covers place low (by omega)

theorem Zeroed.mono {ptr : Nat} (zeroed : Zeroed histories view ptr) (le : view ≤ larger) :
    Zeroed histories larger ptr := by
  intro slotIdx inside
  obtain ⟨positive, plain⟩ := zeroed slotIdx inside
  exact ⟨Nat.lt_of_lt_of_le positive (le _), fun stamp message found isPlain =>
    Nat.le_trans (plain stamp message found isPlain) (le _)⟩

theorem Pointed.mono {shardId chunkIdx ptr : Nat}
    (pointed : Pointed histories view shardId chunkIdx ptr) (le : view ≤ larger) :
    Pointed histories larger shardId chunkIdx ptr :=
  ⟨pointed.installed, pointed.zeroed.mono le⟩

theorem Knows.mono {log : Log} {shardId index : Nat}
    (knows : Knows histories log view shardId index) (le : view ≤ larger) :
    Knows histories log larger shardId index := by
  have same := Histories.Extends.refl histories
  obtain ⟨ptr, installed, slot⟩ := knows.slot
  exact ⟨knows.numbered, knows.len.mono same le, knows.chunk.mono same le,
    ⟨ptr, installed, slot.mono same le⟩, knows.cursor.mono same le⟩

theorem Held.mono {build : Build} {made : StringInterner build} {logs : Nat → Log}
    {symbol : Symbol} {value : String} (held : Held made histories logs view symbol value)
    (le : view ≤ larger) : Held made histories logs larger symbol value := by
  obtain ⟨shardId, index, inRange, numbered, here, knows⟩ := held
  exact ⟨shardId, index, inRange, numbered, here, knows.mono le⟩

theorem Installed.later {next : Histories Cell} {shardId chunkIdx ptr : Nat}
    (installed : Installed histories shardId chunkIdx ptr) (later : histories.Extends next) :
    Installed next shardId chunkIdx ptr := by
  obtain ⟨real, stamp, message, found, valueEq⟩ := installed
  exact ⟨real, stamp, message, later _ _ _ found, valueEq⟩

end Views

section Logs

variable {build : Build} {made : StringInterner build} {logs grown : Nat → Log}

theorem LookupSound.same {lookup : Lookup}
    (sound : LookupSound made logs lookup)
    (same : grown (made.shardOf lookup.value) = logs (made.shardOf lookup.value)) :
    LookupSound made grown lookup := by
  refine ⟨sound.proper, ?_, ?_⟩
  · rw [same]
    exact sound.settled
  · rw [same]
    exact sound.seen

theorem Underway.same {value : String}
    {index committed counted stored : Nat}
    (underway : Underway made logs value index committed counted stored)
    (same : grown (made.shardOf value) = logs (made.shardOf value)) :
    Underway made grown value index committed counted stored := by
  obtain ⟨written, fresh, committedEq, countedEq, storedEq, numbered⟩ := underway
  constructor <;> rw [same] <;> assumption

end Logs

namespace State

variable {build : Build} {state next : State build} {logs grown : Nat → Log}

theorem UpToDate.mono {shardId : Nat} {view larger : View Cell}
    (upToDate : state.UpToDate shardId view) (le : view ≤ larger) :
    state.UpToDate shardId larger :=
  fun cell belongs => (upToDate cell belongs).mono le

/-- A cell of a shard is one of its cells before when no chunk is new. -/
theorem Belongs.before {shardId : Nat} {cell : Cell} (belongs : next.Belongs shardId cell)
    (made : next.made = state.made)
    (owned : ∀ chunkIdx ptr, next.Owned shardId chunkIdx ptr → state.Owned shardId chunkIdx ptr) :
    state.Belongs shardId cell := by
  cases cell with
  | byte address =>
      simp only [Belongs, base, made] at belongs
      exact belongs
  | slot ptr slotIdx =>
      obtain ⟨chunkIdx, isOwned⟩ := belongs
      exact ⟨chunkIdx, owned _ _ isOwned⟩
  | cursor | poisoned | len | chunk => exact belongs

/-- A thread is about to write the string. -/
def Writing (state : State build) (value : String) : Prop :=
  ∃ thread current, (state.locals thread).task = .inserting value (.copy current)

/-- A step adds writes and the string of a thread that is about to write it, and nothing to
what was committed or zeroed before. -/
structure Later (state next : State build) (logs grown : Nat → Log) : Prop where
  made : next.made = state.made
  lastPtr : state.lastPtr ≤ next.lastPtr
  extends' : state.histories.Extends next.histories
  grows : ∀ shardId < state.made.shardCount, Log.Grows (logs shardId) (grown shardId)
  covered : ∀ shardId < state.made.shardCount, ∀ address, state.base shardId ≤ address →
    address < state.base shardId + (logs shardId).sizeTo (logs shardId).committed →
      next.histories (.byte address) = state.histories (.byte address)
  zeros : ∀ shardId chunkIdx ptr, Installed state.histories shardId chunkIdx ptr →
    ∀ slotIdx stamp message, next.histories (.slot ptr slotIdx) stamp = some message →
      message.plain = true → state.histories (.slot ptr slotIdx) stamp = some message
  brought : ∀ shardId, ∀ value ∈ (grown shardId).written,
    value ∈ (logs shardId).written ∨ state.Writing value

/-- Nothing of a shard is changed. -/
structure Untouched (state next : State build) (shardId : Nat) : Prop where
  made : next.made = state.made
  table : next.tables shardId = state.tables shardId
  cells : ∀ cell, state.Belongs shardId cell → next.histories cell = state.histories cell
  owned : ∀ chunkIdx ptr, next.Owned shardId chunkIdx ptr → state.Owned shardId chunkIdx ptr

/-- The view is still past the writes to what was committed. -/
theorem Later.covers (later : Later state next logs grown) {shardId length : Nat}
    {view : View Cell} (inRange : shardId < state.made.shardCount)
    (within : length ≤ (logs shardId).sizeTo (logs shardId).committed)
    (covers : Covers state.histories view (state.base shardId) length) :
    Covers next.histories view (state.base shardId) length := by
  intro place low high
  exact (covers place low high).congr (later.covered shardId inRange place low (by omega))

theorem Later.zeroed (later : Later state next logs grown) {shardId chunkIdx ptr : Nat}
    {view : View Cell} (installed : Installed state.histories shardId chunkIdx ptr)
    (zeroed : Zeroed state.histories view ptr) : Zeroed next.histories view ptr := by
  intro slotIdx inside
  obtain ⟨positive, plain⟩ := zeroed slotIdx inside
  refine ⟨positive, fun stamp message found isPlain => ?_⟩
  exact plain stamp message
    (later.zeros _ _ _ installed slotIdx stamp message found isPlain) isPlain

theorem Later.pointed (later : Later state next logs grown) {shardId chunkIdx ptr : Nat}
    {view : View Cell} (pointed : Pointed state.histories view shardId chunkIdx ptr) :
    Pointed next.histories view shardId chunkIdx ptr :=
  ⟨pointed.installed.later later.extends', later.zeroed pointed.installed pointed.zeroed⟩

theorem Later.knows (later : Later state next logs grown) {shardId index : Nat}
    {view : View Cell} (inRange : shardId < state.made.shardCount)
    (shelf : state.Shelf shardId (logs shardId))
    (knows : Knows state.histories (logs shardId) view shardId index) :
    Knows next.histories (grown shardId) view shardId index := by
  have grows := later.grows shardId inRange
  obtain ⟨ptr, installed, slot⟩ := knows.slot
  have below := knows.numbered
  have sizeEq : (grown shardId).sizeTo (index + 1) = (logs shardId).sizeTo (index + 1) := by
    refine grows.sizeTo_eq ?_
    have := shelf.numbered_le
    have := shelf.stored_le
    have := shelf.counted_le
    have := shelf.committed_le
    omega
  refine ⟨Nat.lt_of_lt_of_le knows.numbered grows.numbered, knows.len.mono later.extends' le_rfl,
    knows.chunk.mono later.extends' le_rfl,
    ⟨ptr, installed.later later.extends', slot.mono later.extends' le_rfl⟩, ?_⟩
  rw [sizeEq]
  exact knows.cursor.mono later.extends' le_rfl

theorem Later.held (later : Later state next logs grown) {symbol : Symbol} {value : String}
    {view : View Cell}
    (shelf : ∀ shardId < state.made.shardCount, state.Shelf shardId (logs shardId))
    (held : Held state.made state.histories logs view symbol value) :
    Held next.made next.histories grown view symbol value := by
  obtain ⟨shardId, index, inRange, numbered, here, knows⟩ := held
  rw [later.made]
  exact ⟨shardId, index, inRange, numbered, (later.grows shardId inRange).getElem? here,
    later.knows inRange (shelf shardId inRange) knows⟩

theorem Later.exportSound (later : Later state next logs grown) {view : View Cell}
    {held : List (Symbol × String)} {used : List Nat}
    (shelf : ∀ shardId < state.made.shardCount, state.Shelf shardId (logs shardId))
    (sound : ExportSound state.made state.histories logs view held used) :
    ExportSound next.made next.histories grown view held used := by
  rw [later.made]
  refine ⟨sound.length, ?_⟩
  intro shardId size loaded
  have inRange : shardId < state.made.shardCount :=
    Nat.lt_of_lt_of_le (List.getElem?_eq_some_iff.mp loaded).1 sound.length
  obtain ⟨count, within, sizeEq, covers, includes⟩ := sound.loaded shardId size loaded
  have grows := later.grows shardId inRange
  have bound := (shelf shardId inRange).committed_le
  refine ⟨count, Nat.le_trans within grows.committed, ?_, ?_, includes⟩
  · rw [sizeEq, grows.sizeTo_eq (Nat.le_trans within bound)]
  · refine later.covers inRange ?_ covers
    rw [sizeEq]
    exact (logs shardId).sizeTo_mono within

theorem Later.stageSound (later : Later state next logs grown) {view : View Cell}
    {reading : Reading} (inRange : reading.shardId < state.made.shardCount)
    (shelf : state.Shelf reading.shardId (logs reading.shardId))
    (sound : StageSound state.made state.histories logs view reading) :
    StageSound next.made next.histories grown view reading := by
  have grows := later.grows _ inRange
  rw [later.made]
  unfold StageSound at sound ⊢
  split at sound
  · exact sound
  · trivial
  · exact later.pointed sound
  · obtain ⟨stored, offsetEq, covers⟩ := sound
    have bounds : reading.index + 1 ≤ (logs reading.shardId).committed := by
      have := shelf.stored_le
      have := shelf.counted_le
      omega
    have fits := Nat.le_trans bounds shelf.committed_le
    refine ⟨Nat.lt_of_lt_of_le stored grows.stored, ?_, ?_⟩
    · rw [offsetEq, grows.sizeTo_eq (by omega)]
    · rw [grows.sizeTo_eq fits]
      exact later.covers inRange ((logs reading.shardId).sizeTo_mono bounds) covers

/-- What is said of an insertion is about its own shard. -/
theorem Later.insertionSound (later : Later state next logs grown) {view : View Cell}
    {value : String} {stage : Insertion}
    (untouched : state.Untouched next (state.home value))
    (same : grown (state.home value) = logs (state.home value))
    (sound : InsertionSound state.made state.histories logs view value stage) :
    InsertionSound next.made next.histories grown view value stage := by
  rw [later.made]
  cases stage with
  | poisoned | space | refuse | copy =>
      simp only [InsertionSound] at sound ⊢
      rw [same]
      exact sound
  | commit | count =>
      obtain ⟨index, underway, rest⟩ := sound
      exact ⟨index, underway.same same, by rw [same]; exact rest⟩
  | locate =>
      obtain ⟨underway, rest⟩ := sound
      exact ⟨underway.same same, by rw [same]; exact rest⟩
  | install =>
      obtain ⟨underway, inside, offsetEq, null⟩ := sound
      exact ⟨underway.same same, inside, by rw [same]; exact offsetEq,
        null.congr (untouched.cells _ rfl)⟩
  | point =>
      obtain ⟨underway, inside, offsetEq, installed, zeroed⟩ := sound
      exact ⟨underway.same same, inside, by rw [same]; exact offsetEq,
        installed.later later.extends', later.zeroed installed zeroed⟩
  | number =>
      obtain ⟨underway, inside⟩ := sound
      exact ⟨underway.same same, inside⟩

/-- A thread is where it was when no other wrote to the shard it has locked. -/
theorem Later.localSound (later : Later state next logs grown) {loc : Local}
    (shelf : ∀ shardId < state.made.shardCount, state.Shelf shardId (logs shardId))
    (alone : ∀ shardId writes, loc.task.lock state.home = some (shardId, writes) →
      state.Untouched next shardId ∧ grown shardId = logs shardId)
    (sound : LocalSound state.made state.histories logs loc) :
    LocalSound next.made next.histories grown loc := by
  refine ⟨fun shardId chunkIdx ptr memo => later.pointed (sound.memo _ _ _ memo),
    fun symbol value held => later.held shelf (sound.held _ _ held), ?_⟩
  have task := sound.task
  cases taskEq : loc.task with
  | idle => trivial
  | crashed =>
      rw [taskEq] at task
      exact task
  | missed value =>
      rw [taskEq] at task
      exact task
  | exporting used =>
      rw [taskEq] at task
      exact later.exportSound shelf task
  | looking lookup =>
      rw [taskEq] at task
      have same := (alone _ _ (by rw [taskEq]; rfl)).2
      simp only [TaskSound, later.made] at task ⊢
      exact LookupSound.same task same
  | leaving mode value verdict =>
      rw [taskEq] at task
      obtain ⟨proper, settled, missing, issued⟩ := task
      have same := (alone _ _ (by rw [taskEq]; rfl)).2
      refine ⟨proper, ?_, ?_, fun symbol verdictEq => later.held shelf (issued symbol verdictEq)⟩
      · rw [later.made, same]
        exact settled
      · rw [later.made, same]
        exact missing
  | inserting value stage =>
      rw [taskEq] at task
      obtain ⟨proper, short, stageSound⟩ := task
      obtain ⟨untouched, same⟩ := alone _ _ (by rw [taskEq]; rfl)
      exact ⟨proper, short, later.insertionSound untouched same stageSound⟩
  | reading call =>
      rw [taskEq] at task
      have inRange := task.shardId
      refine ⟨by rw [later.made]; exact inRange, ?_, ?_,
        later.stageSound inRange (shelf _ inRange) task.stage⟩
      · have reason := task.reason
        rw [later.made]
        unfold ReasonSound at reason ⊢
        cases reasonEq : call.reason with
        | resolve symbol =>
            rw [reasonEq] at reason
            exact reason
        | probe lookup =>
            rw [reasonEq] at reason
            obtain ⟨lookupSound, shardEq, below⟩ := reason
            have same := (alone (state.home lookup.value) _
              (by rw [taskEq, Task.lock, reasonEq])).2
            have sameHere : grown call.shardId = logs call.shardId := by rw [shardEq, same]
            exact ⟨lookupSound.same same, shardEq, by rw [sameHere]; exact below⟩
        | confirm lookup symbol =>
            rw [reasonEq] at reason
            obtain ⟨lookupSound, shardEq, below, numbered, here⟩ := reason
            have same := (alone (state.home lookup.value) _
              (by rw [taskEq, Task.lock, reasonEq])).2
            have sameHere : grown call.shardId = logs call.shardId := by rw [shardEq, same]
            refine ⟨lookupSound.same same, shardEq, ?_, numbered, ?_⟩
            · rw [sameHere]
              exact below
            · rw [sameHere]
              exact here
      · intro unchecked
        exact later.knows inRange (shelf _ inRange) (task.unchecked unchecked)

/-- A record ends inside the padded size of its string. -/
theorem length_recordBytes (value : String) :
    (recordBytes value).length ≤ paddedSize (byteLength value) := by
  have room := le_paddedSize (byteLength value)
  have textLength : ((bytes value).take (storedLength value)).length ≤ byteLength value :=
    List.length_take_le' _ _
  rw [recordBytes, List.length_append, length_toLE]
  omega

namespace LogSound

variable {shardId : Nat} {log : Log}

/-- The bytes of a record are in the region of its shard. -/
theorem record_inside (logSound : state.LogSound shardId log)
    {index position : Nat} {value : String} {byte : UInt8}
    (here : log.written[index]? = some value)
    (byteAt : (recordBytes value)[position]? = some byte) :
    log.sizeTo index + position < log.sizeTo (index + 1) ∧
      log.sizeTo (index + 1) ≤ state.made.pool.regionSize := by
  have inside := (List.getElem?_eq_some_iff.mp byteAt).1
  have length := length_recordBytes value
  have size := log.sizeTo_succ here
  have below := (List.getElem?_eq_some_iff.mp here).1
  have whole := log.sizeTo_mono (show index + 1 ≤ log.written.length from below)
  rw [log.sizeTo_length] at whole
  have room := logSound.room
  omega

/-- The committed bytes are in the region of the shard. -/
theorem sizeTo_le (logSound : state.LogSound shardId log) (count : Nat) :
    log.sizeTo count ≤ state.made.pool.regionSize := by
  refine Nat.le_trans ?_ logSound.room
  rw [← log.sizeTo_length]
  rcases Nat.le_total count log.written.length with below | above
  · exact log.sizeTo_mono below
  · rw [Log.sizeTo, List.take_of_length_le above, Log.sizeTo_length]

theorem stored_committed (logSound : state.LogSound shardId log) : log.stored ≤ log.committed :=
  Nat.le_trans logSound.stored_le logSound.counted_le

theorem stored_written (logSound : state.LogSound shardId log) :
    log.stored ≤ log.written.length :=
  Nat.le_trans logSound.stored_committed logSound.committed_le

theorem numbered_written (logSound : state.LogSound shardId log) :
    log.numbered ≤ log.written.length :=
  Nat.le_trans logSound.numbered_le logSound.stored_written

theorem of_made (logSound : state.LogSound shardId log) (made : next.made = state.made) :
    next.LogSound shardId log := by
  refine ⟨?_, ?_, logSound.committed_le, logSound.counted_le, logSound.stored_le,
    logSound.stored_fits, logSound.numbered_le, logSound.distinct⟩
  · intro value member
    rw [home, made]
    exact logSound.proper value member
  · rw [made]
    exact logSound.room

end LogSound

section Parts

variable {shardId : Nat}

/-- Records stay where no byte of them is written. -/
theorem RecordsSound.later (sound : state.RecordsSound shardId (logs shardId))
    (later : Later state next logs grown) (logSound : state.LogSound shardId (logs shardId))
    (cells : ∀ address, state.base shardId ≤ address →
      address < state.base shardId + (logs shardId).sizeTo (logs shardId).written.length →
        next.histories (.byte address) = state.histories (.byte address))
    (same : (grown shardId).written = (logs shardId).written) :
    next.RecordsSound shardId (grown shardId) := by
  refine ⟨fun index value here position byte byteAt => ?_⟩
  rw [same] at here
  have inside := (logSound.record_inside here byteAt).1
  have below := (List.getElem?_eq_some_iff.mp here).1
  have within := (logs shardId).sizeTo_mono (show index + 1 ≤ _ from below)
  have sizeEq : (grown shardId).sizeTo index = (logs shardId).sizeTo index := by
    rw [Log.sizeTo, Log.sizeTo, same]
  rw [base, later.made, sizeEq]
  exact (sound.record index value here position byte byteAt).congr
    (cells _ (by omega) (by omega))

theorem CursorSound.later (sound : state.CursorSound shardId (logs shardId))
    (later : Later state next logs grown) (inRange : shardId < state.made.shardCount)
    (logSound : state.LogSound shardId (logs shardId))
    (cell : next.histories (.cursor shardId) = state.histories (.cursor shardId))
    (same : (grown shardId).committed = (logs shardId).committed) :
    next.CursorSound shardId (grown shardId) := by
  have grows := later.grows shardId inRange
  have bound := logSound.committed_le
  refine ⟨?_, ?_, sound.cursorAscends.congr cell⟩
  · intro stamp message found
    rw [cell] at found
    obtain ⟨count, within, valueEq, covers⟩ := sound.cursor stamp message found
    refine ⟨count, by rw [same]; exact within, ?_, ?_⟩
    · rw [valueEq, grows.sizeTo_eq (Nat.le_trans within bound)]
    · rw [base, later.made]
      exact later.covers inRange (valueEq ▸ (logs shardId).sizeTo_mono within) covers
  · rw [same, grows.sizeTo_eq bound]
    exact sound.cursorEnds.congr cell

theorem LenSound.later (sound : state.LenSound shardId (logs shardId))
    (cell : next.histories (.len shardId) = state.histories (.len shardId))
    (same : (grown shardId).counted = (logs shardId).counted) :
    next.LenSound shardId (grown shardId) := by
  refine ⟨?_, ?_⟩
  · rw [cell]
    exact sound.len
  · rw [same]
    exact sound.lenEnds.congr cell

/-- What a chunk pointer releases stays zeroed. -/
theorem ChunksSound.chunk_later {log : Log} (sound : state.ChunksSound shardId log)
    (later : Later state next logs grown) {chunkIdx stamp : Nat} {message : Message Cell}
    (found : state.histories (.chunk shardId chunkIdx) stamp = some message) :
    stamp = 0 ∧ message.value = 0 ∨
      stamp = 1 ∧ message.value ≠ 0 ∧ Zeroed next.histories message.view message.value := by
  rcases sound.chunk chunkIdx stamp message found with null | ⟨stampEq, real, zeroed⟩
  · exact Or.inl null
  · exact Or.inr ⟨stampEq, real, later.zeroed ⟨real, stamp, message, found, rfl⟩ zeroed⟩

theorem ChunksSound.later (sound : state.ChunksSound shardId (logs shardId))
    (later : Later state next logs grown)
    (cells : ∀ chunkIdx, next.histories (.chunk shardId chunkIdx) =
      state.histories (.chunk shardId chunkIdx))
    (same : (grown shardId).stored = (logs shardId).stored) :
    next.ChunksSound shardId (grown shardId) := by
  refine ⟨fun chunkIdx _ _ found => sound.chunk_later later (cells chunkIdx ▸ found), ?_⟩
  intro index below
  rw [same] at below
  obtain ⟨ptr, installed⟩ := sound.reach index below
  exact ⟨ptr, installed.later later.extends'⟩

/-- What a slot holds stays where the slot is not written. -/
theorem SlotHolds.later {index ptr slotIdx : Nat}
    (holds : state.SlotHolds shardId (logs shardId) index ptr slotIdx)
    (later : Later state next logs grown) (inRange : shardId < state.made.shardCount)
    (logSound : state.LogSound shardId (logs shardId))
    (cell : next.histories (.slot ptr slotIdx) = state.histories (.slot ptr slotIdx))
    (same : index < (grown shardId).stored ↔ index < (logs shardId).stored) :
    next.SlotHolds shardId (grown shardId) index ptr slotIdx := by
  have grows := later.grows shardId inRange
  have committed := logSound.stored_committed
  have written := logSound.stored_written
  refine ⟨?_, ?_, ?_, holds.ascends.congr cell⟩
  · intro stamp message positive found
    rw [cell] at found
    rcases holds.writes stamp message positive found with zero | ⟨below, valueEq, covers⟩
    · exact Or.inl zero
    · refine Or.inr ⟨same.mpr below, ?_, ?_⟩
      · rw [base, later.made, valueEq, grows.sizeTo_eq (by omega)]
      · rw [base, later.made, grows.sizeTo_eq (by omega)]
        exact later.covers inRange ((logs shardId).sizeTo_mono (by omega)) covers
  · have ends := holds.ends.congr cell
    by_cases below : index < (logs shardId).stored
    · rw [if_pos below] at ends
      rw [if_pos (same.mpr below), base, later.made, grows.sizeTo_eq (by omega)]
      exact ends
    · rw [if_neg below] at ends
      rw [if_neg fun grownBelow => below (same.mp grownBelow)]
      exact ends
  · rw [cell]
    exact holds.filled

theorem SlotsSound.later (sound : state.SlotsSound shardId (logs shardId))
    (later : Later state next logs grown) (inRange : shardId < state.made.shardCount)
    (logSound : state.LogSound shardId (logs shardId))
    (owned : ∀ chunkIdx ptr, next.Owned shardId chunkIdx ptr → state.Owned shardId chunkIdx ptr)
    (cells : ∀ chunkIdx ptr slotIdx, state.Owned shardId chunkIdx ptr →
      next.histories (.slot ptr slotIdx) = state.histories (.slot ptr slotIdx))
    (same : (grown shardId).stored = (logs shardId).stored) :
    next.SlotsSound shardId (grown shardId) := by
  refine ⟨fun chunkIdx ptr isOwned slotIdx inside => ?_⟩
  have before := owned _ _ isOwned
  exact (sound.slots chunkIdx ptr before slotIdx inside).later later inRange logSound
    (cells _ _ _ before) (by rw [same])

theorem TableSound.later (sound : state.TableSound shardId (logs shardId))
    (later : Later state next logs grown) (inRange : shardId < state.made.shardCount)
    (logSound : state.LogSound shardId (logs shardId))
    (table : next.tables shardId = state.tables shardId)
    (same : (grown shardId).numbered = (logs shardId).numbered) :
    next.TableSound shardId (grown shardId) := by
  refine ⟨?_, ?_⟩
  · rw [table, same]
    exact sound.count
  · intro index value below here
    rw [same] at below
    have written := Nat.lt_of_lt_of_le below logSound.numbered_written
    have older := (later.grows shardId inRange).getElem? (List.getElem?_eq_getElem written)
    rw [here] at older
    cases older
    rw [table]
    exact sound.entry index _ below (List.getElem?_eq_getElem written)

end Parts

namespace Untouched

variable {shardId : Nat}

theorem belongs (untouched : state.Untouched next shardId) {cell : Cell}
    (belongs : next.Belongs shardId cell) : state.Belongs shardId cell :=
  belongs.before untouched.made untouched.owned

theorem upToDate (untouched : state.Untouched next shardId) {view : View Cell}
    (upToDate : state.UpToDate shardId view) : next.UpToDate shardId view := by
  intro cell belongs
  have before := untouched.belongs belongs
  exact (upToDate cell before).congr (untouched.cells cell before)

/-- The shard agrees with its log as before. -/
theorem shelf (untouched : state.Untouched next shardId) (later : Later state next logs grown)
    (inRange : shardId < state.made.shardCount) (same : grown shardId = logs shardId)
    (shelf : state.Shelf shardId (logs shardId)) : next.Shelf shardId (grown shardId) := by
  have logSound := shelf.toLogSound
  refine ⟨?_, ?_, ?_, ?_, ?_, ?_, ?_⟩
  · rw [same]
    exact logSound.of_made later.made
  · refine shelf.toRecordsSound.later later logSound (fun address low high => ?_) (by rw [same])
    have fits := logSound.sizeTo_le (logs shardId).written.length
    exact untouched.cells _ ⟨low, by omega⟩
  · exact shelf.toCursorSound.later later inRange logSound (untouched.cells _ rfl) (by rw [same])
  · exact shelf.toLenSound.later (untouched.cells _ rfl) (by rw [same])
  · exact shelf.toChunksSound.later later (fun _ => untouched.cells _ rfl) (by rw [same])
  · exact shelf.toSlotsSound.later later inRange logSound untouched.owned
      (fun chunkIdx _ _ owned => untouched.cells _ ⟨chunkIdx, owned⟩) (by rw [same])
  · exact shelf.toTableSound.later later inRange logSound untouched.table (by rw [same])

end Untouched

end State

end Boomerang.WeakMemory
