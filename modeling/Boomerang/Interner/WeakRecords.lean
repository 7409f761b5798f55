import Boomerang.Interner.WeakChunks

/-!
# The record and the number of an insertion

A record is written plainly past the cursor, where no other thread reads or writes; the
string it holds is numbered in the locked table once its slot is stored.
-/

namespace Boomerang.WeakMemory

open Foundation

namespace State

variable {build : Build} {state next : State build} {logs : Nat → Log} {thread : Nat}
variable {value : String} {stage : Insertion} {offset : Nat} {raw : List UInt8}

/-- Only the bytes of the record are written. -/
theorem recordValues_isSome {cell : Cell} (written : (recordValues offset raw cell).isSome) :
    ∃ position < raw.length, cell = .byte (offset + position) := by
  cases cell with
  | byte address =>
      simp only [recordValues] at written
      split at written
      · rename_i reached
        exact ⟨address - offset, by simpa using written, by rw [Nat.add_sub_cancel' reached]⟩
      · cases written
  | slot | cursor | poisoned | len | chunk => cases written

theorem recordValues_self {position : Nat} {byte : UInt8} (here : raw[position]? = some byte) :
    recordValues offset raw (.byte (offset + position)) = some byte.toNat := by
  simp [recordValues, here]

theorem recordValues_eq_none {cell : Cell}
    (other : ∀ position < raw.length, cell ≠ .byte (offset + position)) :
    recordValues offset raw cell = none := by
  rw [← Option.not_isSome_iff_eq_none]
  intro written
  obtain ⟨position, inside, same⟩ := recordValues_isSome written
  exact other position inside same

/-- The record of a copy fits between the cursor and the end of the region. -/
structure Fits (state : State build) (logs : Nat → Log) (value : String)
    (current : Nat) : Prop where
  currentEq : current = (logs (state.home value)).sizeTo (logs (state.home value)).written.length
  room : current + paddedSize (byteLength value) ≤ state.made.pool.regionSize
  offsetEq : state.offsetOf value current = state.base (state.home value) + current

theorem Sound.fits (sound : state.Sound logs) {current : Nat}
    (task : (state.locals thread).task = .inserting value (.copy current)) :
    Fits state logs value current := by
  have taskSound := (sound.threads thread).task
  rw [task] at taskSound
  obtain ⟨_, _, _, _, currentEq, room⟩ := taskSound
  refine ⟨currentEq.trans (Log.sizeTo_length _).symm, room, ?_⟩
  have inside := sound.made.sized.regionEnd (sound.made.poolShards ▸ sound.home_lt value)
  have capacity := sound.made.sized.capacity
  have positive := paddedSize_pos (byteLength value)
  have below : state.base (state.home value) + current < u32Range := by
    rw [base]
    omega
  exact Nat.mod_eq_of_lt below

/-- A record is written where its shard keeps no committed record. -/
theorem Sound.copied_writes (sound : state.Sound logs) {current : Nat} {stamps : View Cell}
    (task : (state.locals thread).task = .inserting value (.copy current))
    (vacant : ∀ cell,
      (recordValues (state.offsetOf value current) (recordBytes value) cell).isSome →
      state.histories.Vacant (state.locals thread).view cell (stamps cell))
    (nextEq : next = state.scribble thread stamps
      (recordValues (state.offsetOf value current) (recordBytes value)) (state.locals thread).view
      (.inserting value (.commit current))) :
    Stored state next thread (fun cell => ∃ position < (recordBytes value).length,
        cell = .byte (state.base (state.home value) + current + position)) value logs
      { logs (state.home value) with written := (logs (state.home value)).written ++ [value] } := by
  subst nextEq
  have fits := sound.fits task
  have logSound := (sound.shelf _ (sound.home_lt value)).toLogSound
  have length := length_recordBytes value
  have room := fits.room
  have currentEq := fits.currentEq
  rw [fits.offsetEq] at vacant ⊢
  have seen := sound.seen task
  have region : ∀ position < (recordBytes value).length, state.Belongs (state.home value)
      (.byte (state.base (state.home value) + current + position)) :=
    fun position inside => ⟨by omega, by omega⟩
  have apart : ∀ cell, (∀ position < (recordBytes value).length,
      cell ≠ .byte (state.base (state.home value) + current + position)) →
        (state.scribble thread stamps
          (recordValues (state.base (state.home value) + current) (recordBytes value))
          (state.locals thread).view (.inserting value (.commit current))).histories cell =
            state.histories cell :=
    fun cell other => scribble_other state (recordValues_eq_none other)
  have owned : ∀ first chunkIdx ptr, (state.scribble thread stamps
      (recordValues (state.base (state.home value) + current) (recordBytes value))
      (state.locals thread).view (.inserting value (.commit current))).Owned first chunkIdx ptr →
        state.Owned first chunkIdx ptr :=
    fun _ _ _ => scribble_owned (fun _ _ => rfl) rfl
  refine ⟨?_, fun cell untouched =>
    apart cell fun position inside same => untouched ⟨position, inside, same⟩⟩
  constructor
  case lock => exact lock_inserting task
  case lockAfter =>
    rw [scribble_locals]
    rfl
  case locks => rfl
  case others => exact fun other different => scribble_locals_other _ different
  case tables => exact fun _ _ => rfl
  case later =>
    refine ⟨rfl, Nat.le_refl _, Histories.extends_fill ?_, ?_, ?_, ?_, ?_⟩
    · intro cell written
      obtain ⟨position, inside, rfl⟩ := recordValues_isSome written
      exact (seen _ (region position inside)).past (vacant _ written).later
    · intro shardId _
      by_cases isHome : shardId = state.home value
      · subst isHome
        rw [Function.update_self]
        exact ⟨List.prefix_append _ _, Nat.le_refl _, Nat.le_refl _, Nat.le_refl _⟩
      · rw [Function.update_of_ne isHome]
        exact .refl _
    · intro shardId inRange address low high
      refine apart _ ?_
      rintro position inside ⟨⟩
      have belongs := region position inside
      have shelf := sound.shelf shardId inRange
      have committed := shelf.toLogSound.sizeTo_le (logs shardId).committed
      have same :=
        sound.belongs_apart belongs (show state.Belongs shardId (.byte _) from ⟨low, by omega⟩)
      subst same
      have within := (logs (state.home value)).sizeTo_mono shelf.committed_le
      omega
    · intro shardId chunkIdx ptr _ slotIdx place message found _
      rwa [apart _ fun _ _ impossible => (by cases impossible)] at found
    · intro shardId text member
      by_cases isHome : shardId = state.home value
      · subst isHome
        rw [Function.update_self] at member
        rcases List.mem_append.mp member with older | new
        · exact Or.inl older
        · rw [List.mem_singleton.mp new]
          exact Or.inr ⟨thread, current, task⟩
      · rw [Function.update_of_ne isHome] at member
        exact Or.inl member
  case same => exact fun other different => Function.update_of_ne different _ _
  case cells =>
    intro other different cell belongs
    refine apart cell ?_
    rintro position inside rfl
    exact different (sound.belongs_apart (region position inside) belongs)
  case owned => exact fun other _ chunkIdx ptr isOwned => owned other chunkIdx ptr isOwned
  case upToDate =>
    rw [scribble_locals]
    intro cell belongs
    have before : state.Belongs (state.home value) cell := belongs.before rfl (owned _)
    exact (seen cell before).fill _ _
  case owners =>
    intro first chunkIdx ptr other otherIdx isOwned otherOwned
    exact sound.owners _ _ _ _ _ (owned _ _ _ isOwned) (owned _ _ _ otherOwned)
  case bounded => exact fun other chunkIdx ptr isOwned => sound.bounded _ _ _ (owned _ _ _ isOwned)
  case plain =>
    intro cell place message found isPlain
    by_cases isByte : ∃ address, cell = .byte address
    · exact Or.inr (Or.inl isByte)
    · rw [apart cell fun position _ same => isByte ⟨_, same⟩] at found
      exact sound.plain _ _ _ found isPlain
  case blank =>
    intro ptr slotIdx fresh place message found
    rw [apart _ fun _ _ impossible => (by cases impossible)] at found
    exact sound.blank ptr slotIdx fresh place message found
  case header =>
    intro address below
    refine apart _ ?_
    rintro position inside ⟨⟩
    exact sound.header_apart below (region position inside)

/-- The record is written past the cursor. -/
theorem Sound.copies (sound : state.Sound logs) {current : Nat} {stamps : View Cell}
    (task : (state.locals thread).task = .inserting value (.copy current))
    (vacant : ∀ cell,
      (recordValues (state.offsetOf value current) (recordBytes value) cell).isSome →
      state.histories.Vacant (state.locals thread).view cell (stamps cell))
    (nextEq : next = state.scribble thread stamps
      (recordValues (state.offsetOf value current) (recordBytes value)) (state.locals thread).view
      (.inserting value (.commit current))) : state.Kept next logs := by
  have inRange := sound.home_lt value
  have shelf := sound.shelf _ inRange
  have logSound := shelf.toLogSound
  have fits := sound.fits task
  have stored := sound.copied_writes task vacant nextEq
  have later := stored.writes.later
  have taskSound := (sound.threads thread).task
  rw [task] at taskSound
  obtain ⟨proper, short, settled, fresh, _, _⟩ := taskSound
  have brief := short fun impossible => (by cases impossible)
  have grows := later.grows _ inRange
  rw [stored.log_eq] at grows
  have kept :
      ((logs (state.home value)).written ++ [value]).take (logs (state.home value)).numbered =
      (logs (state.home value)).written.take (logs (state.home value)).numbered :=
    grows.take_eq logSound.numbered_written
  refine stored.kept sound
    ⟨?_, ?_, stored.cursor sound (by simp) rfl, stored.len sound (by simp) rfl,
    stored.chunks sound (by simp) rfl, stored.slots sound (by simp) ?_ rfl,
    stored.entries sound (by rw [nextEq]; rfl) rfl⟩ ?_
  · refine ⟨?_, ?_, ?_, logSound.counted_le, logSound.stored_le, logSound.stored_fits,
      logSound.numbered_le, ?_⟩
    · intro other member
      rw [home_eq later.made]
      rcases List.mem_append.mp member with older | new
      · exact logSound.proper other older
      · rw [List.mem_singleton.mp new]
        exact ⟨rfl, proper.notStatic, brief⟩
    · have room := fits.room
      have currentEq := fits.currentEq
      rw [Log.sizeTo_length] at currentEq
      rw [recordsSize_append, recordsSize_singleton, later.made]
      omega
    · rw [List.length_append]
      exact Nat.le_add_right_of_le logSound.committed_le
    · simp only [kept]
      exact logSound.distinct
  · refine ⟨fun index text here position byte byteAt => ?_⟩
    rw [base, later.made]
    have below := (List.getElem?_eq_some_iff.mp here).1
    rw [List.length_append, List.length_singleton] at below
    rcases Nat.lt_succ_iff_lt_or_eq.mp below with older | rfl
    · rw [List.getElem?_append_left older] at here
      rw [grows.sizeTo_eq (Nat.le_of_lt older)]
      have inside := (logSound.record_inside here byteAt).1
      have within := (logs (state.home value)).sizeTo_mono (show index + 1 ≤ _ from older)
      refine (shelf.record index text here position byte byteAt).congr (stored.cells _ ?_)
      rintro ⟨other, _, same⟩
      have currentEq := fits.currentEq
      injection same with sameAddress
      omega
    · rw [List.getElem?_concat_length] at here
      cases here
      rw [grows.sizeTo_eq (Nat.le_refl _), ← fits.currentEq, ← fits.offsetEq, nextEq]
      have written := @recordValues_self (state.offsetOf value current) _ _ _ byteAt
      have vacantHere := vacant _ (by rw [written]; rfl)
      have length := length_recordBytes value
      have inside := (List.getElem?_eq_some_iff.mp byteAt).1
      have room := fits.room
      have seen := sound.seen task (.byte (state.offsetOf value current + position))
        (by rw [fits.offsetEq]; exact ⟨by omega, by omega⟩)
      exact (seen.past vacantHere.later).ends_fill written
  · rw [nextEq]
    exact fun _ _ => scribble_owned (fun _ _ => rfl) rfl
  · have locals : next.locals thread = _ :=
      (congrArg (State.locals · thread) nextEq).trans (scribble_locals state thread)
    rw [locals]
    refine later.goes sound (View.le_wrote _ _ _)
      ⟨proper, fun _ => brief, (logs (state.home value)).written.length, ?_, ?_⟩
    · rw [later.made]
      have home : Function.update logs (state.home value) _ (state.made.shardOf value) = _ :=
        stored.log_eq
      constructor
      case written => exact ⟨_, by rw [home], rfl⟩
      case fresh =>
        rw [home]
        simp only [kept]
        exact fresh
      case committed => rw [home]; exact settled.committed
      case counted => rw [home]; exact settled.counted
      case stored => rw [home]; exact settled.stored
      case numbered => rw [home]; exact settled.numbered
    · rw [later.made, fits.currentEq, ← grows.sizeTo_eq (Nat.le_refl _)]
      exact congrArg (Log.sizeTo · _) stored.log_eq.symm

/-- The entry of a string in the table installs no chunk. -/
theorem numbered_owned {symbol : Symbol}
    (nextEq : next = (state.enter (state.home value)
      ⟨hashOf build value, prefix8 (bytes value), symbol⟩).setLocal thread
        ((state.locals thread).turn (.leaving .insert value (.issue symbol))))
    {first chunkIdx ptr : Nat}
    (isOwned : next.Owned first chunkIdx ptr) : state.Owned first chunkIdx ptr := by
  have self :
      next.locals thread = (state.locals thread).turn (.leaving .insert value (.issue symbol)) := by
    rw [nextEq]
    exact Function.update_self _ _ _
  have others : ∀ other ≠ thread, next.locals other = state.locals other := by
    rw [nextEq]
    exact fun other different => Function.update_of_ne different _ _
  have made : next.made = state.made := by rw [nextEq]; rfl
  have histories : next.histories = state.histories := by rw [nextEq]; rfl
  rcases isOwned with installed | ⟨user, text, isPending, homeEq⟩
  · rw [histories] at installed
    exact Or.inl installed
  · rw [home_eq made] at homeEq
    by_cases isThread : user = thread
    · subst isThread
      rw [self] at isPending
      cases isPending
    · rw [others user isThread] at isPending
      exact Or.inr ⟨user, text, isPending, homeEq⟩

/-- A string is entered in the table of its shard. -/
theorem Sound.numbered_writes (sound : state.Sound logs) {index : Nat} {symbol : Symbol}
    (task : (state.locals thread).task = .inserting value (.number index))
    (nextEq : next = (state.enter (state.home value)
      ⟨hashOf build value, prefix8 (bytes value), symbol⟩).setLocal thread
        ((state.locals thread).turn (.leaving .insert value (.issue symbol))))
    (notYet : (logs (state.home value)).numbered = index) :
    Stored state next thread (fun _ => False) value logs
      ⟨(logs (state.home value)).written, (logs (state.home value)).committed,
        (logs (state.home value)).counted, (logs (state.home value)).stored, index + 1⟩ := by
  have self :
      next.locals thread = (state.locals thread).turn (.leaving .insert value (.issue symbol)) := by
    rw [nextEq]
    exact Function.update_self _ _ _
  have others : ∀ other ≠ thread, next.locals other = state.locals other := by
    rw [nextEq]
    exact fun other different => Function.update_of_ne different _ _
  have made : next.made = state.made := by rw [nextEq]; rfl
  have histories : next.histories = state.histories := by rw [nextEq]; rfl
  let log : Log := ⟨(logs (state.home value)).written, (logs (state.home value)).committed,
    (logs (state.home value)).counted, (logs (state.home value)).stored, index + 1⟩
  have later : Later state next logs (Function.update logs (state.home value) log) := by
    refine ⟨made, by rw [nextEq]; exact Nat.le_refl _, by rw [histories]; exact .refl _,
      fun other _ => ?_, ?_, ?_, fun other text member => Or.inl ?_⟩
    · by_cases isHome : other = state.home value
      · subst isHome
        rw [Function.update_self]
        exact ⟨List.prefix_rfl, Nat.le_refl _, Nat.le_refl _, notYet.le.trans (Nat.le_succ _)⟩
      · rw [Function.update_of_ne isHome]
        exact .refl _
    · exact fun _ _ _ _ _ => by rw [histories]
    · exact fun _ _ _ _ _ _ _ found _ => by rwa [histories] at found
    · by_cases isHome : other = state.home value
      · subst isHome
        rwa [Function.update_self] at member
      · rwa [Function.update_of_ne isHome] at member
  have writes : Writes state next thread (state.home value) logs
      (Function.update logs (state.home value) log) := by
    constructor
    case lock => exact lock_inserting task
    case lockAfter =>
      rw [self]
      rfl
    case locks => rw [nextEq]; rfl
    case others => exact others
    case tables =>
      rw [nextEq]
      exact fun other different => Function.update_of_ne different _ _
    case later => exact later
    case same => exact fun other different => Function.update_of_ne different _ _
    case cells => exact fun _ _ _ _ => by rw [histories]
    case owned => exact fun _ _ _ _ isOwned => numbered_owned nextEq isOwned
    case upToDate =>
      rw [self]
      intro cell belongs
      have before := belongs.before made fun _ _ isOwned => numbered_owned nextEq isOwned
      exact (sound.seen task cell before).congr (by rw [histories])
    case owners =>
      intro first chunkIdx ptr other otherIdx isOwned otherOwned
      exact sound.owners _ _ _ _ _ (numbered_owned nextEq isOwned)
        (numbered_owned nextEq otherOwned)
    case bounded =>
      intro other chunkIdx ptr isOwned
      rw [show next.lastPtr = state.lastPtr by rw [nextEq]; rfl]
      exact sound.bounded _ _ _ (numbered_owned nextEq isOwned)
    case plain =>
      rw [histories]
      exact sound.plain
    case blank =>
      rw [histories, show next.lastPtr = state.lastPtr by rw [nextEq]; rfl]
      exact sound.blank
    case header => exact fun _ _ => by rw [histories]
  exact ⟨writes, fun _ _ => by rw [histories]⟩

/-- The string is numbered in the table. -/
theorem Sound.numbers (sound : state.Sound logs) {index : Nat} {symbol : Symbol}
    (task : (state.locals thread).task = .inserting value (.number index))
    (numbered : Symbol.new (UInt8.ofNat (state.home value)) index = .ok symbol)
    (nextEq : next = (state.enter (state.home value)
      ⟨hashOf build value, prefix8 (bytes value), symbol⟩).setLocal thread
        ((state.locals thread).turn (.leaving .insert value (.issue symbol)))) :
    state.Kept next logs := by
  have inRange := sound.home_lt value
  have shelf := sound.shelf _ inRange
  have logSound := shelf.toLogSound
  have taskSound := (sound.threads thread).task
  rw [task] at taskSound
  obtain ⟨proper, short, underway, inside⟩ := taskSound
  obtain ⟨here, length⟩ := underway.last
  have bounded := (Symbol.new_eq_ok.mp numbered).1
  have notYet : (logs (state.home value)).numbered = index := by
    rw [show (logs (state.home value)).numbered = _ from underway.numbered]
    exact Nat.min_eq_left (Nat.le_of_lt bounded)
  have self :
      next.locals thread = (state.locals thread).turn (.leaving .insert value (.issue symbol)) := by
    rw [nextEq]
    exact Function.update_self _ _ _
  have made : next.made = state.made := by rw [nextEq]; rfl
  have entered : next.tables (state.home value) = state.tables (state.home value) ++
      [⟨hashOf build value, prefix8 (bytes value), symbol⟩] := by
    rw [nextEq]
    exact Function.update_self _ _ _
  let log : Log := ⟨(logs (state.home value)).written, (logs (state.home value)).committed,
    (logs (state.home value)).counted, (logs (state.home value)).stored, index + 1⟩
  have stored : Stored state next thread (fun _ => False) value logs log :=
    sound.numbered_writes task nextEq notYet
  have shelf' : next.Shelf (state.home value) log := by
    refine ⟨?_, stored.records sound (by simp) rfl, stored.cursor sound (by simp) rfl,
      stored.len sound (by simp) rfl, stored.chunks sound (by simp) rfl,
      stored.slots sound (by simp) (fun _ _ isOwned => numbered_owned nextEq isOwned) rfl, ?_, ?_⟩
    · refine ⟨(logSound.of_made made).proper, (logSound.of_made made).room, logSound.committed_le,
        logSound.counted_le, logSound.stored_le, logSound.stored_fits, underway.stored.ge, ?_⟩
      have older := logSound.distinct
      have fresh := underway.fresh
      rw [show (logs (state.made.shardOf value)).numbered = index from notYet] at fresh
      rw [notYet] at older
      show ((logs (state.home value)).written.take (index + 1)).Nodup
      rw [List.take_add_one, here]
      exact older.append (List.nodup_singleton value) (List.disjoint_singleton.mpr fresh)
    · rw [entered, List.length_append, shelf.count, notYet]
      rfl
    · intro other text below textAt
      rw [entered]
      rcases Nat.lt_succ_iff_lt_or_eq.mp below with older | rfl
      · rw [List.getElem?_append_left (by rw [shelf.count, notYet]; exact older)]
        exact shelf.entry other text (notYet.symm ▸ older) textAt
      · rw [show log.written[other]? = some value from here] at textAt
        cases textAt
        refine ⟨symbol, numbered, ?_⟩
        rw [← notYet, ← shelf.count, List.getElem?_concat_length]
  refine stored.kept sound shelf' ?_
  rw [self]
  refine stored.writes.later.goes sound le_rfl
    ⟨proper, fun _ => ?_, fun impossible => (by cases impossible), ?_⟩
  · rw [made, show Function.update logs (state.home value) log (state.made.shardOf value) = log
      from stored.log_eq]
    refine ⟨?_, ?_, ?_, ?_⟩
    · exact underway.committed.trans length.symm
    · exact underway.counted.trans length.symm
    · refine underway.stored.trans ?_
      rw [show log.written.length = index + 1 from length, Nat.min_eq_left inside]
    · show index + 1 = _
      rw [show log.written.length = index + 1 from length, Nat.min_eq_left bounded]
  · rintro _ ⟨⟩
    refine ⟨state.home value, index, made ▸ inRange, numbered, ?_, ?_⟩
    · rw [stored.log_eq]
      exact here
    · rw [stored.log_eq]
      have knows := stored.writes.upToDate.knows shelf' ?_ (Nat.lt_succ_self index)
      · rw [self] at knows
        exact knows
      · rw [base, made]
        exact sound.base_pos _

end State

end Boomerang.WeakMemory
