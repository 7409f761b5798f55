import Boomerang.Interner.WeakRuns

/-!
# Views behind the memory

No view gets ahead of the writes there are, so every load finds a write to load. A step
that writes lets the view it releases be acquired.
-/

namespace Boomerang.WeakMemory

open Foundation

namespace State

variable {build : Build} {state next : State build} {logs : Nat → Log} {label : Label}
variable {thread : Nat} {value : String}

/-- No view is ahead of the memory, and bytes are bytes. -/
structure Timely (state : State build) : Prop where
  locals : ∀ thread, state.histories.Reached (state.locals thread).view
  locks : ∀ shardId, state.histories.Reached (state.locks shardId).view
  messages : ∀ cell stamp message, state.histories cell stamp = some message →
    state.histories.Reached message.view
  octets : ∀ address stamp message, state.histories (.byte address) stamp = some message →
    message.value < 256

/-- A new interner's views are at its first writes. -/
theorem timely_start (made : StringInterner build) (garbage : Nat → Nat → Nat) :
    (start made garbage).Timely := by
  have zero : (start made garbage).histories.Reached fun _ => 0 :=
    fun cell => ⟨0, ⟨initial made garbage cell, fun _ => 0, true⟩, rfl, Nat.le_refl _⟩
  refine ⟨fun _ => zero, fun _ => zero, fun cell stamp message found => ?_,
    fun address stamp message found => ?_⟩
  · simp only [start] at found
    split at found
    · cases found
      exact zero
    · cases found
  · rw [(start_eq_some found).2]
    exact UInt8.toNat_lt _

/-- What a step leaves to show. -/
theorem Timely.of_later (timely : state.Timely) (later : state.histories.Extends next.histories)
    (locals : ∀ other, next.locals other = state.locals other ∨
      next.histories.Reached (next.locals other).view)
    (locks : ∀ shardId, next.locks shardId = state.locks shardId ∨
      next.histories.Reached (next.locks shardId).view)
    (messages : ∀ cell stamp message, next.histories cell stamp = some message →
      state.histories cell stamp = some message ∨
        next.histories.Reached message.view ∧ ∀ address, cell = .byte address →
        message.value < 256) :
    next.Timely := by
  constructor
  case locals =>
    intro other
    rcases locals other with same | reached
    · rw [same]
      exact (timely.locals other).mono later le_rfl
    · exact reached
  case locks =>
    intro shardId
    rcases locks shardId with same | reached
    · rw [same]
      exact (timely.locks shardId).mono later le_rfl
    · exact reached
  case messages =>
    intro cell stamp message found
    rcases messages cell stamp message found with older | ⟨reached, _⟩
    · exact (timely.messages _ _ _ older).mono later le_rfl
    · exact reached
  case octets =>
    intro address stamp message found
    rcases messages _ stamp message found with older | ⟨_, small⟩
    · exact timely.octets _ _ _ older
    · exact small address rfl

/-- What a thread has seen after a step that changes only it was there to see. -/
theorem Timely.moves (timely : state.Timely) {loc after : Local} {event : Event}
    {accesses : Accesses Cell} (reached : state.histories.Reached loc.view)
    (moves : state.Moves loc event accesses after) : state.histories.Reached after.view := by
  cases moves with
  | resolve | resolveUnchecked | chunkMemo | chunkOutside | record | forget | probe | found |
    notFound
  | sizeOverflow | locateOutside | numberOverflow | exportCall | exportCopy => exact reached
  | lenShort _ _ _ load | lenPassed _ _ _ load | chunkLoad _ _ _ _ load | chunkNull _ _ _ _ load
  | slotEmpty _ _ _ _ load | slotLoad _ _ _ load | located _ _ _ load | installLost _ _ load
  | exportCursor _ _ _ load =>
      exact reached.acquire (timely.messages _ _ _ load.found) load.found
  | poisonedLoad _ _ load | cursorFull _ _ _ load | cursorLoad _ _ _ load =>
      exact reached.observe load.found

section

variable {cell : Cell} {stamp written : Nat} {view stamps : View Cell} {task : Task}
variable {values : Cell → Option Nat}

/-- An atomic write leaves its own view to acquire. -/
theorem Timely.publish (timely : state.Timely) (reached : state.histories.Reached view)
    (notByte : ∀ address, cell ≠ .byte address)
    (later : state.histories.Extends
      (state.publish thread cell stamp written view task).histories) :
    (state.publish thread cell stamp written view task).Timely := by
  have own : (state.publish thread cell stamp written view task).histories.Reached
      (view.observe cell stamp) :=
    (reached.mono later le_rfl).observe (Histories.put_self _ _ _ _)
  refine timely.of_later later (fun other => ?_)
    (fun _ => Or.inl rfl) fun other place message found => ?_
  · by_cases isThread : other = thread
    · subst isThread
      rw [publish_locals]
      exact Or.inr own
    · exact Or.inl (publish_locals_other state isThread)
  · rcases Histories.put_eq_some.mp found with ⟨rfl, rfl, rfl⟩ | ⟨_, older⟩
    · exact Or.inr ⟨own, fun address isByte => absurd isByte (notByte address)⟩
    · exact Or.inl older

/-- Plain writes leave nothing to acquire. -/
theorem Timely.scribble (timely : state.Timely) (reached : state.histories.Reached view)
    (bytes : ∀ address value, values (.byte address) = some value → value < 256)
    (later : state.histories.Extends (state.scribble thread stamps values view task).histories) :
    (state.scribble thread stamps values view task).Timely := by
  refine timely.of_later later (fun other => ?_)
    (fun _ => Or.inl rfl) fun other place message found => ?_
  · by_cases isThread : other = thread
    · subst isThread
      rw [scribble_locals]
      refine Or.inr ((reached.mono later le_rfl).wrote fun cell isWritten => ?_)
      obtain ⟨value, valueEq⟩ := Option.isSome_iff_exists.mp isWritten
      exact ⟨_, Histories.fill_self valueEq⟩
    · exact Or.inl (scribble_locals_other state isThread)
  · cases valueEq : values other with
    | none =>
        rw [scribble_other state valueEq] at found
        exact Or.inl found
    | some value =>
        rcases Histories.fill_eq_some valueEq found with ⟨_, rfl⟩ | older
        · refine Or.inr ⟨reached.mono later fun _ => Nat.zero_le _, ?_⟩
          rintro address rfl
          exact bytes address value valueEq
        · exact Or.inl older

end

/-- A step that changes one thread and one lock. -/
theorem Timely.relocked (timely : state.Timely) {shardId : Nat} {lock : RwLock Nat Cell}
    {loc : Local}
    (lockReached : state.histories.Reached lock.view)
    (reached : state.histories.Reached loc.view) :
    ((state.setLock shardId lock).setLocal thread loc).Timely := by
  refine timely.of_later (.refl _) (fun other => ?_)
    (fun other => ?_) fun _ _ _ found => Or.inl found
  · by_cases isThread : other = thread
    · subst isThread
      rw [setLock_locals]
      exact Or.inr reached
    · exact Or.inl (setLock_locals_other state shardId lock loc isThread)
  · by_cases isShard : other = shardId
    · subst isShard
      rw [setLock_locks]
      exact Or.inr lockReached
    · exact Or.inl (setLock_locks_other state lock loc isShard)

/-- A step that changes one thread. -/
theorem Timely.turned (timely : state.Timely) {loc : Local}
    (reached : state.histories.Reached loc.view) : (state.setLocal thread loc).Timely := by
  refine timely.of_later (.refl _) (fun other => ?_)
    (fun _ => Or.inl rfl) fun _ _ _ found => Or.inl found
  by_cases isThread : other = thread
  · subst isThread
    exact Or.inr (by simpa [setLocal] using reached)
  · exact Or.inl (Function.update_of_ne isThread _ _)

/-- Every step keeps the views behind the memory. -/
theorem Timely.step (timely : state.Timely) (step : Step state label next)
    (later : state.histories.Extends next.histories) : next.Timely := by
  cases step with
  | @move thread event accesses loc moves =>
      exact timely.turned (timely.moves (timely.locals thread) moves)
  | @sync thread other idle =>
    exact timely.turned ((timely.locals thread).sup (timely.locals other))
  | @share thread mode value idle shared notStatic free =>
      exact timely.relocked (timely.locks _) ((timely.locals thread).sup (timely.locks _))
  | @lock thread value missed free unshared =>
      exact timely.relocked (timely.locks _) ((timely.locals thread).sup (timely.locks _))
  | @unshare thread mode value verdict task shared =>
      exact timely.relocked ((timely.locks _).sup (timely.locals thread)) (timely.locals thread)
  | @unlock thread value verdict task =>
      exact timely.relocked ((timely.locks _).sup (timely.locals thread)) (timely.locals thread)
  | @poison thread value cell stamp task cellEq vacant =>
      exact timely.publish (timely.locals thread) (by simp [cellEq]) later
  | @commit thread value current size cell stamp task size_ok cellEq vacant =>
      exact timely.publish (timely.locals thread) (by simp [cellEq]) later
  | @point thread value offset index ptr cell stamp task cellEq vacant =>
      exact timely.publish (timely.locals thread) (by simp [cellEq]) later
  | @count thread value offset cell stamp message task cellEq load free =>
      exact timely.publish
        ((timely.locals thread).acquire (timely.messages _ _ _ load.found) load.found)
        (by simp [cellEq]) later
  | @install thread value offset index ptr cell stamp message task cellEq load null free =>
      exact timely.publish
        ((timely.locals thread).acquire (timely.messages _ _ _ load.found) load.found)
        (by simp [cellEq]) later
  | @copy thread value current values stamps task valuesEq vacant =>
      subst valuesEq
      refine timely.scribble (timely.locals thread) (fun address byte here => ?_) later
      simp only [recordValues] at here
      split at here
      · obtain ⟨raw, _, rfl⟩ := Option.map_eq_some_iff.mp here
        exact UInt8.toNat_lt _
      · cases here
  | @allocate thread value offset index cell stamp message values stamps task inside cellEq
    load null
      valuesEq vacant =>
      subst valuesEq
      have fresh : ({ state with lastPtr := state.lastPtr + 1 } : State build).Timely :=
        ⟨timely.locals, timely.locks, timely.messages, timely.octets⟩
      exact fresh.scribble
        ((timely.locals thread).acquire (timely.messages _ _ _ load.found) load.found)
        (fun _ _ impossible => (by cases impossible)) later
  | @number thread value index symbol task numbered =>
      have fresh : (state.enter (state.made.shardOf value)
          ⟨hashOf build value, prefix8 (bytes value), symbol⟩).Timely :=
        ⟨timely.locals, timely.locks, timely.messages, timely.octets⟩
      exact fresh.turned (timely.locals thread)

/-- Views are behind the memory at the end of every run. -/
theorem Sound.timely_run {labels : List Label} {last : State build} (sound : state.Sound logs)
    (timely : state.Timely) (run : Steps Step state labels last)
    (fits : ∀ label ∈ labels, label.Fits build.profile) : last.Timely := by
  refine (@Steps.invariant_of_labels _ _ _ (fun state => (∃ logs, state.Sound logs) ∧ state.Timely)
    (fun label => label.Fits build.profile) _ _ _ run ⟨⟨logs, sound⟩, timely⟩ fits ?_).2
  rintro state label next ⟨⟨logs, here⟩, timely⟩ fit step
  obtain ⟨grown, later, there⟩ := here.step fit step
  exact ⟨⟨grown, there⟩, timely.step step later.extends'⟩

end State

end Boomerang.WeakMemory
