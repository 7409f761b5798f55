import Boomerang.Interner.WeakInsertions

/-!
# The chunks of an insertion

A new chunk is zeroed by plain writes while no other thread has its address; its
installation releases them.
-/

namespace Boomerang.WeakMemory

open Foundation

namespace State

variable {build : Build} {state next : State build} {logs : Nat → Log} {thread : Nat}
variable {value : String} {stage : Insertion}

/-- The chunk's pointer is installed and releases its zeros. -/
theorem Sound.installs (sound : state.Sound logs) {offset index ptr stamp : Nat}
    {message : Message Cell}
    (task : (state.locals thread).task = .inserting value (.install offset index ptr))
    (load : state.histories.Loads (state.locals thread).view
      (.chunk (state.home value) (index / CHUNK_SIZE)) stamp message) (null : message.value = 0)
    (nextEq : next = state.publish thread (.chunk (state.home value) (index / CHUNK_SIZE))
      (stamp + 1)
      ptr ((state.locals thread).view.acquire (.chunk (state.home value) (index / CHUNK_SIZE)) stamp
        message) (.inserting value (.point offset index ptr))) : state.Kept next logs := by
  have inRange := sound.home_lt value
  have shelf := sound.shelf _ inRange
  have logSound := shelf.toLogSound
  have taskSound := (sound.threads thread).task
  rw [task] at taskSound
  obtain ⟨proper, short, underway, inside, offsetEq, _⟩ := taskSound
  have pending : state.Owned (state.home value) (index / CHUNK_SIZE) ptr :=
    Or.inr ⟨thread, value, by rw [task]; rfl, rfl⟩
  have real := (sound.bounded _ _ _ pending).1
  have first : stamp = 0 := by
    rcases shelf.chunk _ _ _ load.found with ⟨isZero, _⟩ | ⟨_, notNull, _⟩
    · exact isZero
    · exact absurd null notNull
  have past := load.past_succ
    (sound.seen task (.chunk (state.home value) (index / CHUNK_SIZE)) rfl)
  have le := View.le_acquire (state.locals thread).view
    (.chunk (state.home value) (index / CHUNK_SIZE)) stamp message
  -- The chunk was the thread's before it was installed.
  have owned : ∀ first chunkIdx other, next.Owned first chunkIdx other →
      state.Owned first chunkIdx other := by
    subst nextEq
    rintro shardId chunkIdx other
      (⟨otherReal, place, found, here, valueEq⟩ | ⟨user, text, isPending, homeEq⟩)
    · rcases Histories.put_eq_some.mp here with ⟨same, _, rfl⟩ | ⟨_, older⟩
      · cases same
        exact valueEq ▸ pending
      · exact Or.inl ⟨otherReal, place, found, older, valueEq⟩
    · by_cases isThread : user = thread
      · subst isThread
        rw [publish_locals] at isPending
        cases isPending
      · rw [publish_locals_other state isThread] at isPending
        exact Or.inr ⟨user, text, isPending, homeEq⟩
  have stored : Stored state next thread _ value logs (logs (state.home value)) :=
    sound.stores task nextEq rfl (fun _ impossible => (by cases impossible)) owned past le rfl
      (.refl _) rfl
  have later := stored.writes.later
  have slots := stored.slots sound (by simp) (owned _) rfl
  have installed : Installed next.histories (state.home value) (index / CHUNK_SIZE) ptr := by
    rw [nextEq]
    exact ⟨real, _, _, Histories.put_self _ _ _ _, rfl⟩
  have zeroed := stored.writes.upToDate.zeroed slots (Or.inl installed)
  refine stored.kept sound ⟨logSound.of_made later.made, stored.records sound (by simp) rfl,
    stored.cursor sound (by simp) rfl, stored.len sound (by simp) rfl, ⟨?_, ?_⟩, slots,
    stored.entries sound (by rw [nextEq]; rfl) rfl⟩ ?_
  · intro chunkIdx place found here
    have older : state.histories (.chunk (state.home value) chunkIdx) place = some found ∨
        place = 1 ∧ found.value = ptr ∧ found.view = (next.locals thread).view := by
      rw [nextEq] at here ⊢
      rcases Histories.put_eq_some.mp here with ⟨_, rfl, rfl⟩ | ⟨_, older⟩
      · exact Or.inr ⟨by rw [first], rfl, by rw [publish_locals]; rfl⟩
      · exact Or.inl older
    rcases older with older | ⟨placeEq, valueEq, viewEq⟩
    · exact shelf.toChunksSound.chunk_later later older
    · refine Or.inr ⟨placeEq, valueEq ▸ real, ?_⟩
      rw [valueEq, viewEq]
      exact zeroed
  · intro other below
    obtain ⟨found, isInstalled⟩ := shelf.reach other below
    exact ⟨found, isInstalled.later later.extends'⟩
  · refine sound.stored_local stored nextEq le
      ⟨proper, fun _ => short fun impossible => (by cases impossible), ?_, inside, ?_, ?_, ?_⟩
    · rw [later.made]
      exact underway.same stored.log_eq
    · rw [later.made, offsetEq]
      exact congrArg (state.base (state.home value) + ·)
        (congrArg (Log.sizeTo · index) stored.log_eq).symm
    · rw [later.made]
      exact installed
    · rw [nextEq, publish_locals] at zeroed
      rw [nextEq]
      exact zeroed

section Scribble

variable {stamps view : View Cell} {values : Cell → Option Nat} {task : Task}

theorem scribble_locals (state : State build) (thread : Nat) :
    (state.scribble thread stamps values view task).locals thread =
      (state.locals thread).go (view.wrote stamps values) task :=
  Function.update_self _ _ _

theorem scribble_locals_other (state : State build) {other : Nat} (different : other ≠ thread) :
    (state.scribble thread stamps values view task).locals other = state.locals other :=
  Function.update_of_ne different _ _

theorem scribble_other (state : State build) {cell : Cell} (unwritten : values cell = none) :
    (state.scribble thread stamps values view task).histories cell = state.histories cell :=
  Histories.fill_other unwritten

/-- The chunks are those there were, when none is installed. -/
theorem scribble_owned (notChunk : ∀ first chunkIdx, values (.chunk first chunkIdx) = none)
    (notPending : task.pending = none) {first chunkIdx ptr : Nat}
    (owned : (state.scribble thread stamps values view task).Owned first chunkIdx ptr) :
    state.Owned first chunkIdx ptr := by
  rcases owned with ⟨real, place, found, here, valueEq⟩ | ⟨user, text, isPending, homeEq⟩
  · rw [scribble_other state (notChunk first chunkIdx)] at here
    exact Or.inl ⟨real, place, found, here, valueEq⟩
  · by_cases isThread : user = thread
    · subst isThread
      rw [scribble_locals, Local.go, notPending] at isPending
      cases isPending
    · rw [scribble_locals_other state isThread] at isPending
      exact Or.inr ⟨user, text, isPending, homeEq⟩

end Scribble

/-- The slots of another chunk are not zeroed. -/
theorem zeroSlots_other {ptr : Nat} {cell : Cell} (other : ∀ slotIdx, cell ≠ .slot ptr slotIdx) :
    zeroSlots ptr cell = none := by
  cases cell with
  | slot address slotIdx =>
      simp only [zeroSlots, ite_eq_right_iff, reduceCtorEq, imp_false, not_and]
      rintro rfl
      exact absurd rfl (other slotIdx)
  | byte | cursor | poisoned | len | chunk => rfl

theorem zeroSlots_self (ptr : Nat) {slotIdx : Nat} (within : slotIdx < CHUNK_SIZE) :
    zeroSlots ptr (.slot ptr slotIdx) = some 0 := by
  simp [zeroSlots, within]

/-- Only slots of the chunk are zeroed. -/
theorem zeroSlots_isSome {ptr : Nat} {cell : Cell} (written : (zeroSlots ptr cell).isSome) :
    ∃ slotIdx < CHUNK_SIZE, cell = .slot ptr slotIdx := by
  cases cell with
  | slot address slotIdx =>
      simp only [zeroSlots, Option.isSome_ite] at written
      exact ⟨slotIdx, written.2, by rw [written.1]⟩
  | byte | cursor | poisoned | len | chunk => cases written

/-- What a thread that allocates leaves. -/
def allocated (state : State build) (thread : Nat) (stamps view : View Cell) (value : String)
    (offset index : Nat) : State build :=
  { state with lastPtr := state.lastPtr + 1 }.scribble thread stamps
    (zeroSlots (state.lastPtr + 1)) view
    (.inserting value (.install offset index (state.lastPtr + 1)))

section Allocated

variable {stamps view : View Cell} {offset index : Nat}

theorem allocated_locals (state : State build) :
    (state.allocated thread stamps view value offset index).locals thread =
      (state.locals thread).go (view.wrote stamps (zeroSlots (state.lastPtr + 1)))
        (.inserting value (.install offset index (state.lastPtr + 1))) :=
  Function.update_self _ _ _

theorem allocated_other (state : State build) {cell : Cell}
    (other : ∀ slotIdx, cell ≠ .slot (state.lastPtr + 1) slotIdx) :
    (state.allocated thread stamps view value offset index).histories cell =
      state.histories cell :=
  Histories.fill_other (zeroSlots_other other)

/-- The chunks are those there were and the new one. -/
theorem allocated_owned {first chunkIdx ptr : Nat}
    (owned : (state.allocated thread stamps view value offset index).Owned first chunkIdx ptr) :
    state.Owned first chunkIdx ptr ∨
      first = state.home value ∧ chunkIdx = index / CHUNK_SIZE ∧ ptr = state.lastPtr + 1 := by
  rcases owned with ⟨real, place, found, here, valueEq⟩ | ⟨user, text, isPending, homeEq⟩
  · rw [allocated_other state fun _ impossible => (by cases impossible)] at here
    exact Or.inl (Or.inl ⟨real, place, found, here, valueEq⟩)
  · by_cases isThread : user = thread
    · subst isThread
      rw [allocated_locals] at isPending
      cases isPending
      exact Or.inr ⟨homeEq.symm, rfl, rfl⟩
    · rw [allocated, scribble_locals_other _ isThread] at isPending
      exact Or.inl (Or.inr ⟨user, text, isPending, homeEq⟩)

/-- The writes to a slot of a new chunk, once it is zeroed. -/
theorem Sound.allocated_slot (sound : state.Sound logs) {slotIdx place : Nat}
    {message : Message Cell}
    (found : (state.allocated thread stamps view value offset index).histories
      (.slot (state.lastPtr + 1) slotIdx) place = some message) :
    place = 0 ∨ slotIdx < CHUNK_SIZE ∧ place = stamps (.slot (state.lastPtr + 1) slotIdx) ∧
      message.value = 0 := by
  by_cases within : slotIdx < CHUNK_SIZE
  · rcases Histories.fill_eq_some (zeroSlots_self _ within) found with ⟨placeEq, rfl⟩ | older
    · exact Or.inr ⟨within, placeEq, rfl⟩
    · exact Or.inl (sound.blank _ _ (Nat.lt_succ_self _) _ _ older)
  · rw [allocated, scribble_other] at found
    · exact Or.inl (sound.blank _ _ (Nat.lt_succ_self _) _ _ found)
    · simp [zeroSlots, within]

end Allocated

/-- No chunk of a shard is at the next heap address. -/
theorem Sound.ptr_old (sound : state.Sound logs) {first chunkIdx ptr : Nat}
    (owned : state.Owned first chunkIdx ptr) : ptr ≠ state.lastPtr + 1 := by
  have bounded := (sound.bounded _ _ _ owned).2
  omega

/-- A new chunk lies where no shard has a cell. -/
theorem Sound.allocated_writes (sound : state.Sound logs) {offset index : Nat}
    {stamps view : View Cell} (task : (state.locals thread).task = .inserting value stage)
    (le : (state.locals thread).view ≤ view)
    (vacant : ∀ cell, (zeroSlots (state.lastPtr + 1) cell).isSome →
      state.histories.Vacant (state.locals thread).view cell (stamps cell))
    (nextEq : next = state.allocated thread stamps view value offset index) :
    Stored state next thread (fun cell => ∃ slotIdx, cell = .slot (state.lastPtr + 1) slotIdx)
      value logs (logs (state.home value)) := by
  subst nextEq
  have past : ∀ cell, (zeroSlots (state.lastPtr + 1) cell).isSome →
      state.histories.Past cell (stamps cell) := by
    intro cell written other message found
    have later := (vacant cell written).later
    obtain ⟨slotIdx, _, rfl⟩ := zeroSlots_isSome written
    have first := sound.blank _ _ (Nat.lt_succ_self _) _ _ found
    omega
  have apart : ∀ other cell, state.Belongs other cell →
      ∀ slotIdx, cell ≠ .slot (state.lastPtr + 1) slotIdx := by
    rintro other cell belongs slotIdx rfl
    obtain ⟨_, owned⟩ := belongs
    exact sound.ptr_old owned rfl
  refine ⟨?_, fun cell untouched => allocated_other state fun slotIdx same =>
    untouched ⟨slotIdx, same⟩⟩
  rw [Function.update_eq_self]
  constructor
  case lock => exact lock_inserting task
  case lockAfter =>
    rw [allocated_locals]
    rfl
  case locks => rfl
  case others => exact fun other different => scribble_locals_other _ different
  case tables => exact fun _ _ => rfl
  case later =>
    refine ⟨rfl, Nat.le_succ _, Histories.extends_fill past, fun _ _ => .refl _, ?_, ?_,
      fun _ _ => Or.inl⟩
    · exact fun _ _ _ _ _ => allocated_other state fun _ impossible => (by cases impossible)
    · intro shardId chunkIdx ptr installed slotIdx place message found _
      rwa [allocated_other state] at found
      rintro other ⟨⟩
      exact sound.ptr_old (Or.inl installed) rfl
  case same => exact fun _ _ => rfl
  case cells => exact fun other _ cell belongs => allocated_other state (apart other cell belongs)
  case owned =>
    intro other different chunkIdx ptr owned
    rcases allocated_owned owned with before | ⟨rfl, _⟩
    · exact before
    · exact absurd rfl different
  case upToDate =>
    have fresh := (sound.seen task).mono le
    have older : ∀ cell, state.Belongs (state.home value) cell →
        ((state.allocated thread stamps view value offset index).histories).Seen
          (view.wrote stamps (zeroSlots (state.lastPtr + 1))) cell :=
      fun cell belongs => (fresh cell belongs).fill _ _
    rw [allocated_locals]
    intro cell belongs
    cases cell with
    | slot ptr slotIdx =>
        obtain ⟨chunkIdx, owned⟩ := belongs
        rcases allocated_owned owned with before | ⟨_, _, rfl⟩
        · exact older _ ⟨chunkIdx, before⟩
        · intro place message found
          rcases sound.allocated_slot found with rfl | ⟨within, rfl, _⟩
          · exact Nat.zero_le _
          · exact View.le_wrote_self _ _ (by rw [zeroSlots_self _ within]; rfl)
    | byte | cursor | poisoned | len | chunk => exact older _ belongs
  case owners =>
    intro first chunkIdx ptr other otherIdx owned otherOwned
    rcases allocated_owned owned with before | ⟨rfl, rfl, rfl⟩
    · rcases allocated_owned otherOwned with otherBefore | ⟨_, _, rfl⟩
      · exact sound.owners _ _ _ _ _ before otherBefore
      · exact absurd rfl (sound.ptr_old before)
    · rcases allocated_owned otherOwned with otherBefore | ⟨rfl, rfl, _⟩
      · exact absurd rfl (sound.ptr_old otherBefore)
      · exact ⟨rfl, rfl⟩
  case bounded =>
    intro first chunkIdx ptr owned
    rcases allocated_owned owned with before | ⟨_, _, rfl⟩
    · obtain ⟨real, bound⟩ := sound.bounded _ _ _ before
      exact ⟨real, Nat.le_succ_of_le bound⟩
    · exact ⟨Nat.succ_ne_zero _, Nat.le_refl _⟩
  case plain =>
    intro cell place message found isPlain
    by_cases isNew : ∃ slotIdx, cell = .slot (state.lastPtr + 1) slotIdx
    · obtain ⟨slotIdx, rfl⟩ := isNew
      exact Or.inr (Or.inr ⟨_, _, rfl⟩)
    · rw [allocated_other state fun slotIdx same => isNew ⟨slotIdx, same⟩] at found
      exact sound.plain _ _ _ found isPlain
  case blank =>
    intro ptr slotIdx fresh place message found
    have beyond : state.lastPtr + 1 < ptr := fresh
    rw [allocated_other state] at found
    · exact sound.blank ptr slotIdx (by omega) place message found
    · rintro other ⟨⟩
      omega
  case header =>
    exact fun _ _ => allocated_other state fun _ impossible => (by cases impossible)

/-- A new chunk is filled with zeros. -/
theorem Sound.allocates (sound : state.Sound logs) {offset index stamp : Nat}
    {message : Message Cell} {stamps : View Cell}
    (task : (state.locals thread).task = .inserting value (.locate offset index))
    (inside : index / CHUNK_SIZE < NUM_CHUNKS)
    (load : state.histories.Loads (state.locals thread).view
      (.chunk (state.home value) (index / CHUNK_SIZE)) stamp message) (null : message.value = 0)
    (vacant : ∀ cell, (zeroSlots (state.lastPtr + 1) cell).isSome →
      state.histories.Vacant (state.locals thread).view cell (stamps cell))
    (nextEq : next = state.allocated thread stamps ((state.locals thread).view.acquire
      (.chunk (state.home value) (index / CHUNK_SIZE)) stamp message) value offset index) :
    state.Kept next logs := by
  have inRange := sound.home_lt value
  have shelf := sound.shelf _ inRange
  have logSound := shelf.toLogSound
  have taskSound := (sound.threads thread).task
  rw [task] at taskSound
  obtain ⟨proper, short, underway, offsetEq⟩ := taskSound
  have below : index < NUM_CHUNKS * CHUNK_SIZE := (chunk_lt_iff index).mp inside
  rw [Nat.min_eq_left (Nat.le_of_lt below)] at underway
  have notYet : (logs (state.home value)).stored = index := underway.stored
  have seen := sound.seen task (.chunk (state.home value) (index / CHUNK_SIZE)) rfl
  have le := View.le_acquire (state.locals thread).view
    (.chunk (state.home value) (index / CHUNK_SIZE)) stamp message
  have stored := sound.allocated_writes task le vacant nextEq
  have later := stored.writes.later
  have notInstalled :
      ∀ ptr, ¬ Installed state.histories (state.home value) (index / CHUNK_SIZE) ptr := by
    rintro ptr ⟨real, place, found, here, rfl⟩
    rcases shelf.chunk _ _ _ here with ⟨_, isNull⟩ | ⟨rfl, _⟩
    · exact real isNull
    · rcases shelf.chunk _ _ _ load.found with ⟨rfl, _⟩ | ⟨_, notNull, _⟩
      · have past := seen _ _ here
        have recent := load.recent
        omega
      · exact notNull null
  refine stored.kept sound ⟨logSound.of_made later.made, stored.records sound (by simp) rfl,
    stored.cursor sound (by simp) rfl, stored.len sound (by simp) rfl,
    stored.chunks sound (by simp) rfl, ⟨?_⟩, stored.entries sound (by rw [nextEq]; rfl) rfl⟩ ?_
  · intro chunkIdx ptr isOwned slotIdx within
    rw [nextEq] at isOwned
    rcases allocated_owned isOwned with before | ⟨_, rfl, rfl⟩
    · have kept := (shelf.slots chunkIdx ptr before slotIdx within).later later inRange logSound
        (stored.cells _ ?_) (by rw [stored.log_eq])
      · rwa [stored.log_eq] at kept
      · rintro ⟨other, ⟨⟩⟩
        exact sound.ptr_old before rfl
    · have positive := (vacant (.slot (state.lastPtr + 1) slotIdx)
        (by rw [zeroSlots_self _ within]; rfl)).later
      have zero : ∀ place found, 0 < place →
          next.histories (.slot (state.lastPtr + 1) slotIdx) place = some found →
            found.value = 0 := by
        intro place found past here
        rw [nextEq] at here
        rcases sound.allocated_slot here with rfl | ⟨_, _, valueEq⟩
        · exact absurd past (Nat.lt_irrefl _)
        · exact valueEq
      have past : state.histories.Past (.slot (state.lastPtr + 1) slotIdx)
          (stamps (.slot (state.lastPtr + 1) slotIdx)) := by
        intro place found here
        have first := sound.blank _ _ (Nat.lt_succ_self _) _ _ here
        omega
      refine ⟨fun place found past here => Or.inl (zero place found past here), ?_, ?_, ?_⟩
      · -- No string of a chunk that is not installed was stored.
        rw [if_neg, nextEq]
        · exact past.ends_fill (zeroSlots_self _ within)
        · intro isStored
          obtain ⟨ptr, installed⟩ := shelf.reach _ isStored
          rw [(slot_position (index / CHUNK_SIZE) within).1] at installed
          exact notInstalled ptr installed
      · have here : next.histories (.slot (state.lastPtr + 1) slotIdx)
            (stamps (.slot (state.lastPtr + 1) slotIdx)) = some ⟨0, fun _ => 0, true⟩ := by
          rw [nextEq]
          exact Histories.fill_self (zeroSlots_self _ within)
        exact ⟨_, _, Nat.lt_of_le_of_lt (Nat.zero_le _) positive, here⟩
      · intro place found after following first ordered here there
        rw [zero _ _ first here]
        exact Nat.zero_le _
  · have null' : next.histories.Ends (.chunk (state.home value) (index / CHUNK_SIZE)) 0 :=
      (load.ends seen null).congr (stored.cells _ (by simp))
    have locals : next.locals thread = _ :=
      (congrArg (State.locals · thread) nextEq).trans (allocated_locals state)
    rw [locals]
    refine later.goes sound (le_trans le (View.le_wrote _ _ _))
      ⟨proper, fun _ => short fun impossible => (by cases impossible), ?_, below, ?_, ?_⟩
    · rw [later.made]
      exact underway.same stored.log_eq
    · rw [later.made, offsetEq]
      exact congrArg (state.base (state.home value) + ·)
        (congrArg (Log.sizeTo · index) stored.log_eq).symm
    · rw [later.made]
      exact null'

end State

end Boomerang.WeakMemory
