import Boomerang.Interner.WeakMoves

/-!
# Every step keeps the invariant

A step changes one thread and at most one other thing: a lock, one or more cells of the
shard whose lock the thread holds, or that shard's table. The two assembly lemmas say what
is left to show for each kind.
-/

namespace Boomerang.WeakMemory

open Foundation

namespace State

variable {build : Build} {state next : State build} {logs grown : Nat → Log} {thread : Nat}

theorem home_eq (made : next.made = state.made) : next.home = state.home := by
  funext value
  rw [home, made]

/-- The invariant holds again, of a later log. -/
def Kept (state next : State build) (logs : Nat → Log) : Prop :=
  ∃ grown, Later state next logs grown ∧ next.Sound grown

/-- The shared memory and the tables are as before. -/
structure SameMemory (state next : State build) : Prop where
  made : next.made = state.made
  histories : next.histories = state.histories
  tables : next.tables = state.tables
  lastPtr : next.lastPtr = state.lastPtr
  others : ∀ other chunk, (next.locals other).task.pending = some chunk →
    (state.locals other).task.pending = some chunk

namespace SameMemory

theorem owned (same : SameMemory state next) {shardId chunkIdx ptr : Nat}
    (owned : next.Owned shardId chunkIdx ptr) : state.Owned shardId chunkIdx ptr := by
  rcases owned with installed | ⟨other, value, pending, homeEq⟩
  · rw [same.histories] at installed
    exact Or.inl installed
  · rw [home, same.made] at homeEq
    exact Or.inr ⟨other, value, same.others _ _ pending, homeEq⟩

theorem untouched (same : SameMemory state next) (shardId : Nat) : Untouched state next shardId :=
  ⟨same.made, by rw [same.tables], fun _ _ => by rw [same.histories], fun _ _ => same.owned⟩

theorem later (same : SameMemory state next) (logs : Nat → Log) : Later state next logs logs where
  made := same.made
  lastPtr := same.lastPtr.ge
  extends' := by
    rw [same.histories]
    exact .refl _
  grows := fun _ _ => .refl _
  covered := fun _ _ _ _ _ => by rw [same.histories]
  zeros := fun _ _ _ _ _ _ _ found _ => by rwa [same.histories] at found
  brought := fun _ _ => Or.inl

end SameMemory

/-- A step that leaves the shared memory as it is keeps the invariant when the locks and
the thread do. -/
theorem Sound.quiet (sound : state.Sound logs) (same : SameMemory state next)
    (others : ∀ other ≠ thread, next.locals other = state.locals other)
    (kept : ∀ shardId < state.made.shardCount, (next.locks shardId).writer = none →
      state.UpToDate shardId (next.locks shardId).view ∧ (logs shardId).Settled)
    (fresh : ∀ shardId writes, (next.locals thread).task.lock state.home = some (shardId, writes) →
      state.UpToDate shardId (next.locals thread).view)
    (locks : ∀ shardId, next.LockHeld shardId)
    (local' : LocalSound state.made state.histories logs (next.locals thread)) :
    state.Kept next logs := by
  have later := same.later logs
  refine ⟨logs, later, ?_⟩
  constructor
  case made => rw [same.made]; exact sound.made
  case shelf =>
    rw [same.made]
    intro shardId inRange
    exact (same.untouched shardId).shelf later inRange rfl (sound.shelf shardId inRange)
  case kept =>
    rw [same.made]
    intro shardId inRange free
    obtain ⟨upToDate, settled⟩ := kept shardId inRange free
    exact ⟨(same.untouched shardId).upToDate upToDate, settled⟩
  case fresh =>
    intro other shardId writes lock
    rw [home_eq same.made] at lock
    refine (same.untouched shardId).upToDate ?_
    by_cases isThread : other = thread
    · subst isThread
      exact fresh shardId writes lock
    · rw [others other isThread] at lock ⊢
      exact sound.fresh other shardId writes lock
  case locks => exact locks
  case threads =>
    intro other
    rw [same.made, same.histories]
    by_cases isThread : other = thread
    · subst isThread
      exact local'
    · rw [others other isThread]
      exact sound.threads other
  case owners =>
    intro shardId chunkIdx ptr other otherIdx owned otherOwned
    exact sound.owners _ _ _ _ _ (same.owned owned) (same.owned otherOwned)
  case bounded =>
    intro shardId chunkIdx ptr owned
    rw [same.lastPtr]
    exact sound.bounded _ _ _ (same.owned owned)
  case plain =>
    rw [same.histories]
    exact sound.plain
  case blank =>
    rw [same.histories, same.lastPtr]
    exact sound.blank
  case header =>
    rw [same.histories, same.made]
    exact sound.header

/-- A shard's lock is held as before when no thread took or dropped it. -/
theorem LockHeld.same {shardId : Nat} (held : state.LockHeld shardId)
    (made : next.made = state.made) (lock : next.locks shardId = state.locks shardId)
    (tasks : ∀ other writes,
      (next.locals other).task.lock state.home = some (shardId, writes) ↔
        (state.locals other).task.lock state.home = some (shardId, writes)) :
    next.LockHeld shardId := by
  refine ⟨fun other => ?_, fun other => ?_, ?_, ?_⟩
  · rw [lock, held.writer, home_eq made]
    exact (tasks other true).symm
  · rw [lock, held.readers, home_eq made]
    exact (tasks other false).symm
  · rw [lock]
    exact held.nodup
  · rw [lock]
    exact held.exclusive

/-- A thread with the lock to write is alone with it. -/
theorem Sound.alone (sound : state.Sound logs) {shardId : Nat} {writes : Bool} {other : Nat}
    (lock : (state.locals thread).task.lock state.home = some (shardId, true))
    (otherLock : (state.locals other).task.lock state.home = some (shardId, writes)) :
    other = thread := by
  have held := sound.locks shardId
  have writer := (held.writer thread).mpr lock
  cases writes with
  | true =>
      have again := (held.writer other).mpr otherLock
      rw [writer] at again
      exact (Option.some.inj again).symm
  | false =>
      have reads := (held.readers other).mpr otherLock
      rw [held.exclusive (by simp [writer])] at reads
      cases reads

/-- A thread that changes only itself, and keeps what it has locked. -/
theorem Sound.turned (sound : state.Sound logs) {loc : Local}
    (view : (state.locals thread).view ≤ loc.view)
    (lock : loc.task.lock state.home = (state.locals thread).task.lock state.home)
    (pending : ∀ chunk, loc.task.pending = some chunk →
      (state.locals thread).task.pending = some chunk)
    (local' : LocalSound state.made state.histories logs loc) :
    state.Kept (state.setLocal thread loc) logs := by
  have self : (state.setLocal thread loc).locals thread = loc := Function.update_self _ _ _
  have others : ∀ other ≠ thread, (state.setLocal thread loc).locals other = state.locals other :=
    fun other different => Function.update_of_ne different _ _
  refine sound.quiet ⟨rfl, rfl, rfl, rfl, ?_⟩ others sound.kept ?_ ?_ (by rwa [self])
  · intro other chunk isPending
    by_cases isThread : other = thread
    · subst isThread
      rw [self] at isPending
      exact pending chunk isPending
    · rwa [others other isThread] at isPending
  · intro shardId writes isLocked
    rw [self] at isLocked ⊢
    rw [lock] at isLocked
    exact (sound.fresh thread shardId writes isLocked).mono view
  · intro shardId
    refine (sound.locks shardId).same rfl rfl fun other writes => ?_
    by_cases isThread : other = thread
    · subst isThread
      rw [self, lock]
    · rw [others other isThread]

/-- The client orders a thread after another. -/
theorem Sound.joined (sound : state.Sound logs) {other : Nat}
    (idle : (state.locals thread).task = .idle) :
    state.Kept (state.setLocal thread ((state.locals thread).join (state.locals other))) logs := by
  have mine := sound.threads thread
  have theirs := sound.threads other
  refine sound.turned le_sup_left rfl (fun _ pending => pending) ⟨?_, ?_, ?_⟩
  · intro shardId chunkIdx ptr memo
    exact (mine.memo _ _ _ memo).mono le_sup_left
  · intro symbol value held
    rcases List.mem_append.mp held with given | own
    · exact (theirs.held _ _ given).mono le_sup_right
    · exact (mine.held _ _ own).mono le_sup_left
  · show TaskSound _ _ _ _ _ (state.locals thread).task
    rw [idle]
    trivial

section Locks

variable {shardId : Nat} {lock : RwLock Nat Cell} {loc : Local}

theorem setLocal_locals (state : State build) (thread : Nat) (loc : Local) :
    (state.setLocal thread loc).locals thread = loc :=
  Function.update_self _ _ _

theorem setLocal_locals_other (state : State build) {other : Nat} (loc : Local)
    (different : other ≠ thread) : (state.setLocal thread loc).locals other = state.locals other :=
  Function.update_of_ne different _ _

theorem setLock_locals (state : State build) (shardId : Nat) (lock : RwLock Nat Cell)
    (thread : Nat) (loc : Local) :
    ((state.setLock shardId lock).setLocal thread loc).locals thread = loc :=
  Function.update_self _ _ _

theorem setLock_locals_other (state : State build) (shardId : Nat) (lock : RwLock Nat Cell)
    (loc : Local) {other : Nat} (different : other ≠ thread) :
    ((state.setLock shardId lock).setLocal thread loc).locals other = state.locals other :=
  Function.update_of_ne different _ _

theorem setLock_locks (state : State build) (shardId : Nat) (lock : RwLock Nat Cell) (loc : Local) :
    ((state.setLock shardId lock).setLocal thread loc).locks shardId = lock :=
  Function.update_self _ _ _

theorem setLock_locks_other (state : State build) (lock : RwLock Nat Cell) (loc : Local)
    {other : Nat} (different : other ≠ shardId) :
    ((state.setLock shardId lock).setLocal thread loc).locks other = state.locks other :=
  Function.update_of_ne different _ _

/-- A thread takes or drops the lock of one shard. -/
theorem Sound.relocked (sound : state.Sound logs)
    (elsewhere : ∀ other writes, other ≠ shardId →
      loc.task.lock state.home ≠ some (other, writes) ∧
        (state.locals thread).task.lock state.home ≠ some (other, writes))
    (pending : loc.task.pending = none)
    (kept : shardId < state.made.shardCount → lock.writer = none →
      state.UpToDate shardId lock.view ∧ (logs shardId).Settled)
    (fresh : ∀ writes, loc.task.lock state.home = some (shardId, writes) →
      state.UpToDate shardId loc.view)
    (held : ((state.setLock shardId lock).setLocal thread loc).LockHeld shardId)
    (local' : LocalSound state.made state.histories logs loc) :
    state.Kept ((state.setLock shardId lock).setLocal thread loc) logs := by
  have self := setLock_locals state shardId lock thread loc
  have others := fun other (different : other ≠ thread) =>
    setLock_locals_other state shardId lock loc different
  refine sound.quiet ⟨rfl, rfl, rfl, rfl, ?_⟩ others ?_ ?_ ?_ (by rwa [self])
  · intro other chunk isPending
    by_cases isThread : other = thread
    · subst isThread
      rw [self, pending] at isPending
      cases isPending
    · rwa [others other isThread] at isPending
  · intro other inRange free
    by_cases same : other = shardId
    · subst same
      rw [setLock_locks] at free ⊢
      exact kept inRange free
    · rw [setLock_locks_other state lock loc same] at free ⊢
      exact sound.kept other inRange free
  · intro other writes isLocked
    rw [self] at isLocked ⊢
    by_cases same : other = shardId
    · subst same
      exact fresh writes isLocked
    · exact absurd isLocked (elsewhere other writes same).1
  · intro other
    by_cases same : other = shardId
    · subst same
      exact held
    · refine (sound.locks other).same rfl (setLock_locks_other state lock loc same) ?_
      intro some' writes
      by_cases isThread : some' = thread
      · subst isThread
        rw [self]
        exact iff_of_false (elsewhere other writes same).1 (elsewhere other writes same).2
      · rw [others some' isThread]

/-- A thread joins those that read. -/
theorem LockHeld.share (held : state.LockHeld shardId)
    (free : (state.locks shardId).writer = none)
    (before : (state.locals thread).task.lock state.home = none)
    (after : loc.task.lock state.home = some (shardId, false)) :
    ((state.setLock shardId ((state.locks shardId).share thread)).setLocal thread loc).LockHeld
      shardId := by
  refine ⟨fun other => ?_, fun other => ?_, ?_, ?_⟩ <;>
    simp only [setLock_locks, RwLock.share, free, List.nodup_cons, List.mem_cons, ne_eq,
      not_true_eq_false, false_implies, reduceCtorEq, false_iff]
  · by_cases isThread : other = thread
    · subst isThread
      rw [setLock_locals]
      show ¬ loc.task.lock state.home = _
      simp [after]
    · rw [setLock_locals_other _ _ _ _ isThread]
      intro writes
      have writer := (held.writer other).mpr writes
      rw [free] at writer
      cases writer
  · by_cases isThread : other = thread
    · subst isThread
      rw [setLock_locals]
      exact iff_of_true (Or.inl rfl) after
    · rw [setLock_locals_other _ _ _ _ isThread]
      exact ⟨fun reads => (held.readers other).mp (reads.resolve_left isThread),
        fun reads => Or.inr ((held.readers other).mpr reads)⟩
  · refine ⟨fun reads => ?_, held.nodup⟩
    have locked := (held.readers thread).mp reads
    rw [before] at locked
    cases locked

/-- A thread stops reading. -/
theorem LockHeld.unshare (held : state.LockHeld shardId) {view : View Cell}
    (before : (state.locals thread).task.lock state.home = some (shardId, false))
    (after : loc.task.lock state.home = none) :
    ((state.setLock shardId ((state.locks shardId).unshare thread view)).setLocal thread
      loc).LockHeld shardId := by
  have reading := (held.readers thread).mpr before
  have free : (state.locks shardId).writer = none := by
    by_contra writes
    rw [held.exclusive writes] at reading
    cases reading
  refine ⟨fun other => ?_, fun other => ?_, ?_, ?_⟩ <;>
    simp only [setLock_locks, RwLock.unshare, free, ne_eq, not_true_eq_false, false_implies,
      reduceCtorEq, false_iff, held.nodup.mem_erase_iff]
  · by_cases isThread : other = thread
    · subst isThread
      rw [setLock_locals]
      show ¬ loc.task.lock state.home = _
      simp [after]
    · rw [setLock_locals_other _ _ _ _ isThread]
      intro writes
      have writer := (held.writer other).mpr writes
      rw [free] at writer
      cases writer
  · by_cases isThread : other = thread
    · subst isThread
      rw [setLock_locals]
      refine iff_of_false (fun reads => reads.1 rfl) ?_
      show ¬ loc.task.lock state.home = _
      simp [after]
    · rw [setLock_locals_other _ _ _ _ isThread]
      exact ⟨fun reads => (held.readers other).mp reads.2,
        fun reads => ⟨isThread, (held.readers other).mpr reads⟩⟩
  · exact held.nodup.erase _

/-- A thread locks to write. -/
theorem LockHeld.lockFor (held : state.LockHeld shardId)
    (free : (state.locks shardId).writer = none) (unshared : (state.locks shardId).readers = [])
    (after : loc.task.lock state.home = some (shardId, true)) :
    ((state.setLock shardId ((state.locks shardId).lockFor thread)).setLocal thread loc).LockHeld
      shardId := by
  refine ⟨fun other => ?_, fun other => ?_, ?_, ?_⟩ <;>
    simp only [setLock_locks, RwLock.lockFor, unshared, List.nodup_nil, List.not_mem_nil,
      false_iff, implies_true, Option.some.injEq]
  · by_cases isThread : other = thread
    · subst isThread
      rw [setLock_locals]
      exact iff_of_true rfl after
    · rw [setLock_locals_other _ _ _ _ isThread]
      refine iff_of_false (Ne.symm isThread) fun writes => ?_
      have writer := (held.writer other).mpr writes
      rw [free] at writer
      cases writer
  · by_cases isThread : other = thread
    · subst isThread
      rw [setLock_locals]
      show ¬ loc.task.lock state.home = _
      simp [after]
    · rw [setLock_locals_other _ _ _ _ isThread]
      intro reads
      have reader := (held.readers other).mpr reads
      rw [unshared] at reader
      cases reader

/-- A thread that wrote drops the lock. -/
theorem LockHeld.unlock (held : state.LockHeld shardId) {view : View Cell}
    (before : (state.locals thread).task.lock state.home = some (shardId, true))
    (after : loc.task.lock state.home = none) :
    ((state.setLock shardId ((state.locks shardId).unlock view)).setLocal thread loc).LockHeld
      shardId := by
  have writing := (held.writer thread).mpr before
  have unshared := held.exclusive (by simp [writing])
  refine ⟨fun other => ?_, fun other => ?_, ?_, ?_⟩ <;>
    simp only [setLock_locks, RwLock.unlock, unshared, List.nodup_nil, List.not_mem_nil,
      false_iff, implies_true, reduceCtorEq]
  · by_cases isThread : other = thread
    · subst isThread
      rw [setLock_locals]
      show ¬ loc.task.lock state.home = _
      simp [after]
    · rw [setLock_locals_other _ _ _ _ isThread]
      intro writes
      have again := (held.writer other).mpr writes
      rw [writing] at again
      exact isThread (Option.some.inj again).symm
  · by_cases isThread : other = thread
    · subst isThread
      rw [setLock_locals]
      show ¬ loc.task.lock state.home = _
      simp [after]
    · rw [setLock_locals_other _ _ _ _ isThread]
      intro reads
      have reader := (held.readers other).mpr reads
      rw [unshared] at reader
      cases reader

end Locks

/-- A call takes the read lock. -/
theorem Sound.shared (sound : state.Sound logs) {mode : Mode} {value : String}
    (idle : (state.locals thread).task = .idle) (shared : mode ≠ .insert)
    (proper : Proper build.profile value)
    (free : (state.locks (state.home value)).writer = none) :
    state.Kept
      ((state.setLock (state.home value) ((state.locks (state.home value)).share thread)).setLocal
        thread ((state.locals thread).go
          ((state.locals thread).view ⊔ (state.locks (state.home value)).view)
          (.looking ⟨mode, value, []⟩))) logs := by
  have before : (state.locals thread).task.lock state.home = none := by
    rw [idle]
    rfl
  have after :
      (Task.looking ⟨mode, value, []⟩).lock state.home = some (state.home value, false) := by
    simp [Task.lock, shared]
  obtain ⟨upToDate, settled⟩ := sound.kept _ (sound.made.shardOf_lt value) free
  refine sound.relocked ?_ rfl ?_ ?_ ((sound.locks (state.home value)).share free before ?_) ?_
  · intro other writes different
    refine ⟨?_, by simp [before]⟩
    simp only [Local.go, after, ne_eq, Option.some.injEq, Prod.mk.injEq, not_and]
    exact fun same => absurd same.symm different
  · exact fun _ _ => ⟨upToDate, settled⟩
  · exact fun _ _ => upToDate.mono le_sup_right
  · exact after
  · exact (sound.threads thread).go le_sup_left ⟨proper, fun insert => absurd insert shared,
      fun _ _ member => absurd member List.not_mem_nil⟩

/-- A call that missed takes the write lock. -/
theorem Sound.locked (sound : state.Sound logs) {value : String}
    (missed : (state.locals thread).task = .missed value)
    (free : (state.locks (state.home value)).writer = none)
    (unshared : (state.locks (state.home value)).readers = []) :
    state.Kept
      ((state.setLock (state.home value) ((state.locks (state.home value)).lockFor thread)).setLocal
        thread ((state.locals thread).go
          ((state.locals thread).view ⊔ (state.locks (state.home value)).view)
          (.looking ⟨.insert, value, []⟩))) logs := by
  have taskSound := (sound.threads thread).task
  rw [missed] at taskSound
  have before : (state.locals thread).task.lock state.home = none := by
    rw [missed]
    rfl
  have after :
      (Task.looking ⟨.insert, value, []⟩).lock state.home = some (state.home value, true) := rfl
  obtain ⟨upToDate, settled⟩ := sound.kept _ (sound.made.shardOf_lt value) free
  refine sound.relocked ?_ rfl ?_ ?_
    ((sound.locks (state.home value)).lockFor free unshared ?_) ?_
  · intro other writes different
    refine ⟨?_, by simp [before]⟩
    simp only [Local.go, after, ne_eq, Option.some.injEq, Prod.mk.injEq, not_and]
    exact fun same => absurd same.symm different
  · intro _ impossible
    cases impossible
  · exact fun _ _ => upToDate.mono le_sup_right
  · exact after
  · exact (sound.threads thread).go le_sup_left ⟨taskSound, fun _ => settled,
      fun _ _ member => absurd member List.not_mem_nil⟩

/-- What a call was given is held, and what is left to do is right. -/
theorem Sound.left (sound : state.Sound logs) {mode : Mode} {value : String} {verdict : Verdict}
    (task : (state.locals thread).task = .leaving mode value verdict) :
    LocalSound state.made state.histories logs
      ((state.locals thread).leave mode value verdict) := by
  have local' := sound.threads thread
  have taskSound := local'.task
  rw [task] at taskSound
  obtain ⟨proper, _, _, issued⟩ := taskSound
  refine ⟨local'.memo, ?_, ?_⟩
  · intro symbol other held
    rcases List.mem_append.mp held with given | older
    · cases verdict with
      | issue found =>
          cases List.mem_singleton.mp given
          exact issued _ rfl
      | miss | panic => cases given
    · exact local'.held _ _ older
  · cases verdict with
    | issue | panic => trivial
    | miss =>
        simp only [Local.leave, Verdict.next]
        split
        · exact proper
        · trivial

theorem lock_leave (loc : Local) (mode : Mode) (value : String) (verdict : Verdict)
    (home : String → Nat) :
    (loc.leave mode value verdict).task.lock home = none ∧
      (loc.leave mode value verdict).task.pending = none := by
  cases verdict with
  | issue | panic => exact ⟨rfl, rfl⟩
  | miss =>
      simp only [Local.leave, Verdict.next]
      split <;> exact ⟨rfl, rfl⟩

/-- A call drops the read lock. -/
theorem Sound.unshared (sound : state.Sound logs) {mode : Mode} {value : String}
    {verdict : Verdict} (task : (state.locals thread).task = .leaving mode value verdict)
    (shared : mode ≠ .insert) :
    state.Kept ((state.setLock (state.home value) ((state.locks (state.home value)).unshare thread
      (state.locals thread).view)).setLocal thread
        ((state.locals thread).leave mode value verdict)) logs := by
  have before : (state.locals thread).task.lock state.home = some (state.home value, false) := by
    rw [task]
    simp [Task.lock, shared]
  obtain ⟨after, pending⟩ := lock_leave (state.locals thread) mode value verdict state.home
  refine sound.relocked ?_ pending ?_ (fun _ isLocked => ?_)
    ((sound.locks _).unshare before after) (sound.left task)
  · intro other writes different
    refine ⟨by simp [after], ?_⟩
    simp only [before, ne_eq, Option.some.injEq, Prod.mk.injEq, not_and]
    exact fun same => absurd same.symm different
  · intro inRange free
    obtain ⟨upToDate, settled⟩ := sound.kept _ inRange free
    exact ⟨upToDate.mono le_sup_left, settled⟩
  · rw [after] at isLocked
    cases isLocked

/-- A call drops the write lock. -/
theorem Sound.unlocked (sound : state.Sound logs) {value : String} {verdict : Verdict}
    (task : (state.locals thread).task = .leaving .insert value verdict) :
    state.Kept ((state.setLock (state.home value) ((state.locks (state.home value)).unlock
      (state.locals thread).view)).setLocal thread
        ((state.locals thread).leave .insert value verdict)) logs := by
  have taskSound := (sound.threads thread).task
  rw [task] at taskSound
  have before : (state.locals thread).task.lock state.home = some (state.home value, true) := by
    rw [task]
    rfl
  obtain ⟨after, pending⟩ := lock_leave (state.locals thread) .insert value verdict state.home
  refine sound.relocked ?_ pending ?_ (fun _ isLocked => ?_)
    ((sound.locks _).unlock before after) (sound.left task)
  · intro other writes different
    refine ⟨by simp [after], ?_⟩
    simp only [before, ne_eq, Option.some.injEq, Prod.mk.injEq, not_and]
    exact fun same => absurd same.symm different
  · intro _ _
    exact ⟨(sound.fresh thread _ _ before).mono le_sup_right, taskSound.2.1 rfl⟩
  · rw [after] at isLocked
    cases isLocked

end State

end Boomerang.WeakMemory
