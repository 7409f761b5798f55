import Boomerang.Interner.WeakSteps

/-!
# Writes under the lock

A thread that inserts a string holds the lock of its shard, has seen every write to the
shard's cells, and writes past all of them. Each write moves one counter of the log.
-/

namespace Boomerang.WeakMemory

open Foundation

/-- A thread that installs a chunk holds the lock to write. -/
theorem Task.lock_of_pending {home : String → Nat} {task : Task} {value : String}
    {chunkIdx ptr : Nat} (pending : task.pending = some (value, chunkIdx, ptr)) :
    task.lock home = some (home value, true) := by
  unfold Task.pending at pending
  split at pending
  · cases pending
    rfl
  · cases pending

namespace State

variable {build : Build} {state next : State build} {logs grown : Nat → Log} {thread : Nat}
variable {shardId : Nat}

/-- Shards share no cell. -/
theorem Sound.belongs_apart (sound : state.Sound logs) {other : Nat} {cell : Cell}
    (belongs : state.Belongs shardId cell) (otherBelongs : state.Belongs other cell) :
    other = shardId := by
  cases cell with
  | byte address =>
      by_contra different
      have apart := state.made.pool.regionStart_apart different
      simp only [Belongs, base] at belongs otherBelongs
      omega
  | slot ptr slotIdx =>
      obtain ⟨chunkIdx, owned⟩ := belongs
      obtain ⟨otherIdx, otherOwned⟩ := otherBelongs
      exact (sound.owners _ _ _ _ _ owned otherOwned).1
  | cursor | poisoned | len | chunk => exact otherBelongs.symm.trans belongs

/-- The cells of a shard exist past the header only. -/
theorem Sound.header_apart (sound : state.Sound logs) {address : Nat} (inside : address < 4) :
    ¬ state.Belongs shardId (.byte address) := by
  intro belongs
  have past := sound.base_pos shardId
  simp only [Belongs] at belongs
  omega

/-- What a writing thread does to the shared memory. -/
structure Writes (state next : State build) (thread shardId : Nat) (logs grown : Nat → Log) :
    Prop where
  lock : (state.locals thread).task.lock state.home = some (shardId, true)
  lockAfter : (next.locals thread).task.lock state.home = some (shardId, true)
  locks : next.locks = state.locks
  others : ∀ other ≠ thread, next.locals other = state.locals other
  tables : ∀ other ≠ shardId, next.tables other = state.tables other
  later : Later state next logs grown
  same : ∀ other ≠ shardId, grown other = logs other
  cells : ∀ other ≠ shardId, ∀ cell, state.Belongs other cell →
    next.histories cell = state.histories cell
  owned : ∀ other ≠ shardId, ∀ chunkIdx ptr, next.Owned other chunkIdx ptr →
    state.Owned other chunkIdx ptr
  upToDate : next.UpToDate shardId (next.locals thread).view
  owners : ∀ first chunkIdx ptr other otherIdx, next.Owned first chunkIdx ptr →
    next.Owned other otherIdx ptr → other = first ∧ otherIdx = chunkIdx
  bounded : ∀ other chunkIdx ptr, next.Owned other chunkIdx ptr → ptr ≠ 0 ∧ ptr ≤ next.lastPtr
  plain : ∀ cell stamp message, next.histories cell stamp = some message →
    message.plain = true →
      stamp = 0 ∨ (∃ address, cell = .byte address) ∨ ∃ ptr slotIdx, cell = .slot ptr slotIdx
  blank : ∀ ptr slotIdx, next.lastPtr < ptr → ∀ stamp message,
    next.histories (.slot ptr slotIdx) stamp = some message → stamp = 0
  header : ∀ address < 4, next.histories (.byte address) = state.histories (.byte address)

/-- A write keeps the invariant when the shard and the thread do. -/
theorem Sound.writes (sound : state.Sound logs)
    (writes : Writes state next thread shardId logs grown)
    (shelf : next.Shelf shardId (grown shardId))
    (local' : LocalSound next.made next.histories grown (next.locals thread)) :
    next.Sound grown := by
  have made := writes.later.made
  have untouched : ∀ other ≠ shardId, Untouched state next other := fun other different =>
    ⟨made, writes.tables other different, writes.cells other different,
      writes.owned other different⟩
  -- A thread that holds a lock holds that of another shard.
  have elsewhere : ∀ other ≠ thread, ∀ held reads,
      (state.locals other).task.lock state.home = some (held, reads) → held ≠ shardId := by
    rintro other different held reads lock rfl
    exact different (sound.alone writes.lock lock)
  constructor
  case made =>
    rw [made]
    exact sound.made
  case shelf =>
    rw [made]
    intro other inRange
    by_cases same : other = shardId
    · subst same
      exact shelf
    · exact (untouched other same).shelf writes.later inRange (writes.same other same)
        (sound.shelf other inRange)
  case kept =>
    rw [made, writes.locks]
    intro other inRange free
    have different : other ≠ shardId := by
      rintro rfl
      have writer := ((sound.locks other).writer thread).mpr writes.lock
      rw [free] at writer
      cases writer
    obtain ⟨upToDate, settled⟩ := sound.kept other inRange free
    exact ⟨(untouched other different).upToDate upToDate, by rwa [writes.same other different]⟩
  case fresh =>
    intro other held reads lock
    rw [home_eq made] at lock
    by_cases isThread : other = thread
    · subst isThread
      rw [writes.lockAfter] at lock
      cases lock
      exact writes.upToDate
    · rw [writes.others other isThread] at lock ⊢
      exact (untouched held (elsewhere other isThread held reads lock)).upToDate
        (sound.fresh other held reads lock)
  case locks =>
    intro other
    refine (sound.locks other).same made (by rw [writes.locks]) fun user reads => ?_
    by_cases isThread : user = thread
    · subst isThread
      rw [writes.lockAfter, writes.lock]
    · rw [writes.others user isThread]
  case threads =>
    intro other
    by_cases isThread : other = thread
    · subst isThread
      exact local'
    · rw [writes.others other isThread]
      refine writes.later.localSound sound.shelf (fun held reads lock => ?_) (sound.threads other)
      have different := elsewhere other isThread held reads lock
      exact ⟨untouched held different, writes.same held different⟩
  case owners => exact writes.owners
  case bounded => exact writes.bounded
  case plain => exact writes.plain
  case blank => exact writes.blank
  case header =>
    intro address inside
    rw [writes.header address inside, made]
    exact sound.header address inside

section Publish

variable {cell : Cell} {stamp value : Nat} {view : View Cell} {task : Task}

theorem publish_locals (state : State build) (thread : Nat) :
    (state.publish thread cell stamp value view task).locals thread =
      (state.locals thread).go (view.observe cell stamp) task :=
  Function.update_self _ _ _

theorem publish_locals_other (state : State build) {other : Nat} (different : other ≠ thread) :
    (state.publish thread cell stamp value view task).locals other = state.locals other :=
  Function.update_of_ne different _ _

theorem publish_other (state : State build) {other : Cell} (different : other ≠ cell) :
    (state.publish thread cell stamp value view task).histories other = state.histories other :=
  Histories.put_other _ _ _ different

/-- The chunks are those there were, when none is installed. -/
theorem publish_owned (notChunk : ∀ first chunkIdx, cell ≠ .chunk first chunkIdx)
    (notPending : task.pending = none) {first chunkIdx ptr : Nat}
    (owned : (state.publish thread cell stamp value view task).Owned first chunkIdx ptr) :
    state.Owned first chunkIdx ptr := by
  rcases owned with installed | ⟨other, text, pending, homeEq⟩
  · rw [Installed, publish_other state (notChunk first chunkIdx).symm] at installed
    exact Or.inl installed
  · by_cases isThread : other = thread
    · subst isThread
      rw [publish_locals, Local.go, notPending] at pending
      cases pending
    · rw [publish_locals_other state isThread] at pending
      exact Or.inr ⟨other, text, pending, homeEq⟩

/-- An atomic write past all others to a cell of the locked shard. -/
theorem Sound.publishes (sound : state.Sound logs)
    (lock : (state.locals thread).task.lock state.home = some (shardId, true))
    (belongs : state.Belongs shardId cell) (notByte : ∀ address, cell ≠ .byte address)
    (past : state.histories.Past cell stamp) (le : (state.locals thread).view ≤ view)
    (lockAfter : task.lock state.home = some (shardId, true))
    (owned : ∀ first chunkIdx ptr,
      (state.publish thread cell stamp value view task).Owned first chunkIdx ptr →
        state.Owned first chunkIdx ptr)
    (grows : Log.Grows (logs shardId) (grown shardId))
    (written : (grown shardId).written = (logs shardId).written)
    (same : ∀ other ≠ shardId, grown other = logs other) :
    Writes state (state.publish thread cell stamp value view task) thread shardId logs grown := by
  have byteSame : ∀ address, (state.publish thread cell stamp value view task).histories
      (.byte address) = state.histories (.byte address) :=
    fun address => publish_other state (notByte address).symm
  have older : ∀ other place message,
      (state.publish thread cell stamp value view task).histories other place = some message →
        message.plain = true → state.histories other place = some message := by
    intro other place message found isPlain
    rcases Histories.put_eq_some.mp found with ⟨_, _, rfl⟩ | ⟨_, before⟩
    · cases isPlain
    · exact before
  constructor
  case lock => exact lock
  case lockAfter =>
    rw [publish_locals]
    exact lockAfter
  case locks => rfl
  case others => exact fun other different => publish_locals_other state different
  case tables => exact fun _ _ => rfl
  case later =>
    refine ⟨rfl, Nat.le_refl _, past.extends _, ?_, fun _ _ address _ _ => byteSame address,
      fun _ _ _ _ _ _ _ found isPlain => older _ _ _ found isPlain, fun other text => ?_⟩
    · intro other _
      by_cases isShard : other = shardId
      · subst isShard
        exact grows
      · rw [same other isShard]
        exact .refl _
    · by_cases isShard : other = shardId
      · subst isShard
        rw [written]
        exact Or.inl
      · rw [same other isShard]
        exact Or.inl
  case same => exact same
  case cells =>
    intro other different otherCell otherBelongs
    refine publish_other state ?_
    rintro rfl
    exact different (sound.belongs_apart belongs otherBelongs)
  case owned => exact fun other _ chunkIdx ptr isOwned => owned other chunkIdx ptr isOwned
  case upToDate =>
    intro other otherBelongs
    have before : state.Belongs shardId other := otherBelongs.before rfl (owned _)
    rw [publish_locals]
    exact ((sound.fresh thread shardId true lock other before).mono le).put _ _ _
  case owners =>
    intro first chunkIdx ptr other otherIdx isOwned otherOwned
    exact sound.owners _ _ _ _ _ (owned _ _ _ isOwned) (owned _ _ _ otherOwned)
  case bounded => exact fun other chunkIdx ptr isOwned => sound.bounded _ _ _ (owned _ _ _ isOwned)
  case plain =>
    intro other place message found isPlain
    exact sound.plain _ _ _ (older _ _ _ found isPlain) isPlain
  case blank =>
    intro ptr slotIdx fresh place message found
    rw [publish_other state ?_] at found
    · exact sound.blank ptr slotIdx fresh place message found
    · rintro rfl
      obtain ⟨chunkIdx, isOwned⟩ := belongs
      have bounded := (sound.bounded _ _ _ isOwned).2
      have fresh' : state.lastPtr < ptr := fresh
      omega
  case header => exact fun address _ => byteSame address

end Publish

/-- Who has seen everything of a shard has seen the zeros of its chunks. -/
theorem UpToDate.zeroed {view : View Cell} {log : Log} (upToDate : state.UpToDate shardId view)
    (slots : state.SlotsSound shardId log) {chunkIdx ptr : Nat}
    (owned : state.Owned shardId chunkIdx ptr) : Zeroed state.histories view ptr := by
  intro slotIdx inside
  have seen := upToDate (.slot ptr slotIdx) ⟨chunkIdx, owned⟩
  obtain ⟨stamp, message, positive, found⟩ := (slots.slots chunkIdx ptr owned slotIdx inside).filled
  exact ⟨Nat.lt_of_lt_of_le positive (seen _ _ found), fun place message found _ => seen _ _ found⟩

/-- Who has seen everything of a shard has seen the bytes of its region. -/
theorem UpToDate.covers {view : View Cell} (upToDate : state.UpToDate shardId view) {length : Nat}
    (fits : length ≤ state.made.pool.regionSize) :
    Covers state.histories view (state.base shardId) length :=
  fun place low high => upToDate (.byte place) ⟨low, by omega⟩

end State

end Boomerang.WeakMemory
