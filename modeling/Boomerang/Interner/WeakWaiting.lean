import Boomerang.Interner.WeakMeetings

/-!
# No call waits

What a thread still has to do in its call is bounded by a number. Every step of its own
makes the number smaller, unless it is the loss of the chunk memo, and no step of another
thread changes it; while it is not zero the thread has a step to take. So a call comes to
its end, or to the lock between the two sections of `get_or_intern`, whatever the others
do or have stopped doing.
-/

namespace Boomerang.WeakMemory

open Foundation

namespace State

variable {build : Build} {state next : State build} {logs : Nat → Log} {label : Label}
variable {thread : Nat} {value : String}

section Stages

/-- How many entries of the table a lookup has not read the text of. -/
def unseen (table : List Entry) (seen : List (Nat × Option String)) : Nat :=
  table.countP fun entry => decide (∀ text ∈ seen, text.1 ≠ entry.symbol.issuedIndex)

/-- Reading a text leaves one entry less. -/
theorem unseen_cons {table : List Entry} {seen : List (Nat × Option String)} {entry : Entry}
    {text : Option String} (member : entry ∈ table)
    (new : ∀ text, (entry.symbol.issuedIndex, text) ∉ seen) :
    unseen table ((entry.symbol.issuedIndex, text) :: seen) < unseen table seen := by
  have fewer : ∀ part : List Entry,
      unseen part ((entry.symbol.issuedIndex, text) :: seen) ≤ unseen part seen := by
    intro part
    refine List.countP_mono_left fun other _ isUnseen => ?_
    rw [decide_eq_true_eq] at isUnseen ⊢
    exact fun text listed => isUnseen text (List.mem_cons_of_mem _ listed)
  obtain ⟨before, after, rfl⟩ := List.append_of_mem member
  have left := fewer before
  have right := fewer after
  have here : ∀ text ∈ seen, text.1 ≠ entry.symbol.issuedIndex := by
    rintro ⟨index, text⟩ listed rfl
    exact new text listed
  unfold unseen at left right ⊢
  rw [List.countP_append, List.countP_append, List.countP_cons_of_neg (by simp),
    List.countP_cons_of_pos (by simpa using here)]
  omega

theorem unseen_text (table : List Entry) (seen : List (Nat × Option String)) (index : Nat)
    (text other : Option String) :
    unseen table ((index, text) :: seen) = unseen table ((index, other) :: seen) := by
  simp only [unseen, List.forall_mem_cons]

/-- An upper bound on the steps a thread needs before it is idle or waits for a lock. -/
def remaining (table : String → List Entry) (shardCount : Nat) : Task → Nat
  | .looking lookup => 20 + 5 * unseen (table lookup.value) lookup.seen
  | .reading call =>
      match call.reason with
      | .probe lookup =>
          21 + 5 * unseen (table lookup.value)
            ((call.index, none) :: lookup.seen) + call.stage.ahead
      | .confirm _ _ => 2 + call.stage.ahead
      | .resolve _ => 1 + call.stage.ahead
  | .inserting _ .poisoned => 12
  | .inserting _ .space => 11
  | .inserting _ .refuse => 2
  | .inserting _ (.copy _) => 10
  | .inserting _ (.commit _) => 9
  | .inserting _ (.count _) => 8
  | .inserting _ (.locate _ _) => 7
  | .inserting _ (.install _ _ _) => 6
  | .inserting _ (.point _ _ _) => 5
  | .inserting _ (.number _) => 4
  | .leaving _ _ _ => 1
  | .exporting used => 1 + (shardCount - used.length)
  | .crashed => 1
  | .idle | .missed _ => 0

theorem of_remaining_zero {table : String → List Entry} {shardCount : Nat} {task : Task}
    (zero : remaining table shardCount task = 0) :
    task = .idle ∨ ∃ value, task = .missed value := by
  cases task with
  | idle => exact Or.inl rfl
  | missed value => exact Or.inr ⟨value, rfl⟩
  | reading call => cases reasonEq : call.reason <;> simp [remaining, reasonEq] at zero
  | inserting value stage => cases stage <;> cases zero
  | looking | leaving | exporting | crashed =>
      simp only [remaining] at zero
      omega

/-- A reading comes closer to its end. -/
theorem remaining_onward {table : String → List Entry} {shardCount : Nat} {reading : Reading}
    {event : Event} {task : Task} (onward : Onward reading event task) :
    remaining table shardCount task < remaining table shardCount (.reading reading) := by
  rcases onward with ⟨stage, ahead, -, rfl⟩ | ⟨text, -, rfl⟩ | ⟨-, -, rfl⟩
  · cases reasonEq : reading.reason with
    | resolve symbol | probe lookup | confirm lookup symbol =>
        simp only [remaining, reasonEq]
        omega
  · unfold Reading.finish
    cases reasonEq : reading.reason with
    | resolve symbol =>
        simp only [remaining, reasonEq]
        omega
    | probe lookup =>
        simp only [remaining, reasonEq]
        rw [unseen_text (table lookup.value) lookup.seen reading.index text none]
        omega
    | confirm lookup symbol =>
        cases text <;> cases modeEq : lookup.mode <;> simp [remaining, reasonEq, modeEq] <;> omega
  · unfold Reading.fail
    cases reasonEq : reading.reason with
    | resolve symbol | probe lookup | confirm lookup symbol =>
        simp only [remaining, reasonEq]
        omega

/-- How far a thread is from being idle or waiting for a lock. -/
def distance (state : State build) (thread : Nat) : Nat :=
  remaining state.tableOf state.made.shardCount (state.locals thread).task

theorem distance_eq_zero (zero : state.distance thread = 0) :
    (state.locals thread).task = .idle ∨ ∃ value, (state.locals thread).task = .missed value :=
  of_remaining_zero zero

/-- What is left to do depends on the table of the shard that is locked. -/
theorem remaining_congr {home : String → Nat} {table other : String → List Entry} {shardCount : Nat}
    {task : Task} (same : ∀ value writes, task.lock home = some (home value, writes) →
      table value = other value) :
          remaining table shardCount task = remaining other shardCount task := by
  cases task with
  | looking lookup => simp only [remaining, same lookup.value _ rfl]
  | reading call =>
      cases reasonEq : call.reason with
      | probe lookup =>
        simp only [remaining, reasonEq, same lookup.value _ (by simp [Task.lock, reasonEq]; rfl)]
      | resolve symbol | confirm lookup symbol => simp only [remaining, reasonEq]
  | inserting value stage => cases stage <;> rfl
  | idle | missed | leaving | exporting | crashed => rfl

/-- A thread that goes on by itself comes nearer to the end, or loses its memo. -/
theorem Moves.nears {loc after : Local} {event : Event} {accesses : Accesses Cell}
    (moves : state.Moves loc event accesses after)
    (busy : remaining state.tableOf state.made.shardCount loc.task ≠ 0) :
    remaining state.tableOf state.made.shardCount after.task <
        remaining state.tableOf state.made.shardCount loc.task ∨
      after = { loc with memo := none } := by
  cases moves with
  | resolve idle | resolveUnchecked idle | exportCall idle =>
      rw [idle] at busy
      exact absurd rfl busy
  | forget => exact Or.inr rfl
  | lenShort task | slotEmpty task | record task =>
      rw [task]
      exact Or.inl (remaining_onward (Or.inr (Or.inl ⟨_, rfl, rfl⟩)))
  | chunkOutside task stage outside =>
      rw [task]
      exact Or.inl (remaining_onward (Or.inr (Or.inr ⟨outside, rfl, rfl⟩)))
  | lenPassed task stage | chunkMemo task stage | chunkLoad task stage | slotLoad task stage =>
      rw [task]
      exact Or.inl (remaining_onward (Or.inl ⟨_, by simp [stage, Stage.ahead], rfl, rfl⟩))
  | @chunkNull reading _ _ _ task stage =>
      rw [task]
      simp only [Local.go]
      split
      · exact Or.inl (remaining_onward (Or.inr (Or.inl ⟨none, rfl, rfl⟩)))
      · left
        cases reasonEq : reading.reason <;> simp [remaining, reasonEq, stage, Stage.ahead]
  | @probe lookup entry task candidate unread =>
      rw [task]
      have less :
          unseen (state.tableOf lookup.value) ((entry.symbol.issuedIndex, none) :: lookup.seen) <
        unseen (state.tableOf lookup.value) lookup.seen := unseen_cons candidate.1 unread
      left
      simp only [Local.turn, Local.go, remaining]
      split <;> simp only [Stage.ahead] <;> omega
  | found task =>
      rw [task]
      left
      simp only [Local.turn, Local.go, remaining]
      split <;> simp only [Stage.ahead] <;> omega
  | notFound task =>
      rw [task]
      left
      simp only [Local.turn, Local.go]
      split <;> simp only [remaining] <;> omega
  | poisonedLoad task | cursorLoad task =>
      rw [task]
      left
      simp only [Local.go]
      split <;> simp [remaining]
  | sizeOverflow task | cursorFull task | locateOutside task | located task | installLost task
  | numberOverflow task =>
      rw [task]
      left
      simp [Local.turn, Local.go, remaining]
  | exportCopy task =>
      rw [task]
      left
      simp only [Local.turn, Local.go, remaining]
      omega
  | exportCursor task more =>
      rw [task]
      left
      simp only [Local.go, remaining, List.length_append, List.length_singleton]
      omega

/-- A thread in the middle of a call comes nearer to the end by every step of its own,
unless the step is the loss of its memo. -/
theorem Step.nears (step : Step state label next) (busy : state.distance label.thread ≠ 0) :
    next.distance label.thread < state.distance label.thread ∨
      next = state.setLocal label.thread { state.locals label.thread with memo := none } := by
  unfold distance at busy ⊢
  cases step with
  | move moves =>
      rw [setLocal_locals]
      rcases moves.nears busy with nearer | rfl
      · exact Or.inl nearer
      · exact Or.inr rfl
  | sync idle | share idle =>
      rw [idle] at busy
      exact absurd rfl busy
  | lock missed =>
      rw [missed] at busy
      exact absurd rfl busy
  | @unshare _ mode _ verdict task =>
      rw [setLocal_locals, task]
      cases verdict with
      | issue | panic => simp [Local.leave, Verdict.next, remaining]
      | miss => cases mode <;> simp [Local.leave, Verdict.next, remaining]
  | @unlock _ _ verdict task =>
      rw [setLocal_locals, task]
      cases verdict <;> simp [Local.leave, Verdict.next, remaining]
  | poison task | commit task | count task | install task | point task =>
      rw [publish_locals, task]
      exact Or.inl (by simp [Local.go, remaining])
  | copy task | allocate task =>
      rw [scribble_locals, task]
      exact Or.inl (by simp [Local.go, remaining])
  | number task =>
      rw [setLocal_locals, task]
      exact Or.inl (by simp [Local.turn, Local.go, remaining])

/-- A step of another thread takes a thread no further and no further back. -/
theorem Sound.distance_other (sound : state.Sound logs) (step : Step state label next)
    (different : thread ≠ label.thread) : next.distance thread = state.distance thread := by
  have made : next.made = state.made := made_of_run (.single step)
  unfold distance
  rw [step.locals_other different, made]
  refine @remaining_congr state.home _ _ _ _ fun value writes lock => ?_
  cases step with
  | @number other text index symbol task numbered =>
      -- Who enters a string holds the lock of its shard alone.
      refine Function.update_of_ne (fun same => ?_) _ _
      rw [show state.home value = state.home text from same] at lock
      exact different (sound.alone (lock_inserting task) lock)
  | move | sync | share | lock | unshare | unlock | poison | copy | commit | count | allocate
  | install | point => rfl

/-- An insertion goes on. -/
theorem Sound.goes_on (sound : state.Sound logs) (timely : state.Timely) {stage : Insertion}
    (task : (state.locals thread).task = .inserting value stage) :
    ∃ next, state.Takes thread .silent next ∧
      (next.locals thread).task ≠ .inserting value stage := by
  have reached := timely.locals thread
  cases stage with
  | poisoned =>
      obtain ⟨stamp, message, load⟩ := reached.loads (.poisoned (state.home value))
      obtain ⟨next, takes, after, _⟩ := takes_move (.poisonedLoad task rfl load)
      refine ⟨next, takes, ?_⟩
      rw [after]
      simp only [Local.go]
      split <;> simp
  | space =>
      cases size : paddedRecordSize build.profile (storedLength value) with
      | error fault =>
          obtain ⟨next, takes, after, _⟩ := takes_move (.sizeOverflow task size)
          exact ⟨next, takes, by simp [after, Local.turn, Local.go]⟩
      | ok size' =>
          obtain ⟨stamp, message, load⟩ := reached.loads (.cursor (state.home value))
          by_cases full : state.Exhausted message.value size'
          · obtain ⟨next, takes, after, _⟩ := takes_move (.cursorFull task size rfl load full)
            exact ⟨next, takes, by simp [after, Local.go]⟩
          · obtain ⟨next, takes, after, _⟩ := takes_move (.cursorLoad task size rfl load full)
            refine ⟨next, takes, ?_⟩
            rw [after]
            simp only [Local.go]
            split <;> simp
  | refuse =>
      obtain ⟨next, takes, after, _⟩ := takes_publish ⟨_, .poison task rfl
        (sound.seen task (.poisoned (state.home value)) rfl).vacant⟩
      exact ⟨next, takes, by simp [after]⟩
  | copy current =>
      obtain ⟨next, takes, after, _⟩ := sound.takes_copy task
      exact ⟨next, takes, by simp [after]⟩
  | commit current =>
      obtain ⟨next, takes, after, _⟩ := sound.takes_commit task
      exact ⟨next, takes, by simp [after]⟩
  | count offset =>
      obtain ⟨next, _, _, takes, _, after⟩ := sound.takes_count timely task
      exact ⟨next, takes, by simp [after]⟩
  | locate offset index =>
      rcases Nat.lt_or_ge (index / CHUNK_SIZE) NUM_CHUNKS with inside | outside
      · obtain ⟨next, ptr, takes, after | after⟩ := sound.takes_locate timely task inside
        · exact ⟨next, takes, by simp [after]⟩
        · exact ⟨next, takes, by simp [after]⟩
      · obtain ⟨next, takes, after, _⟩ := takes_move (.locateOutside task outside)
        exact ⟨next, takes, by simp [after, Local.turn, Local.go]⟩
  | install offset index ptr =>
      obtain ⟨next, other, takes, after⟩ := sound.takes_install timely task
      exact ⟨next, takes, by simp [after]⟩
  | point offset index ptr =>
      obtain ⟨next, takes, after⟩ := sound.takes_point task
      exact ⟨next, takes, by simp [after]⟩
  | number index =>
      cases numbered : Symbol.new (UInt8.ofNat (state.home value)) index with
      | error fault =>
          obtain ⟨next, takes, after, _⟩ := takes_move (.numberOverflow task numbered)
          exact ⟨next, takes, by simp [after, Local.turn, Local.go]⟩
      | ok symbol =>
          obtain ⟨next, takes, after⟩ := takes_number task numbered
          exact ⟨next, takes, by simp [after]⟩

/-- A thread in the middle of a call has a step to take that goes on with the call. -/
theorem Sound.advances (sound : state.Sound logs) (timely : state.Timely)
    (busy : state.distance thread ≠ 0) :
    ∃ event next, state.Takes thread event next ∧ (∀ text, event ≠ .called text) ∧
      (next.locals thread).task ≠ (state.locals thread).task := by
  have silent : ∀ text, Event.silent ≠ .called text := fun _ impossible => (by cases impossible)
  have taskSound := (sound.threads thread).task
  unfold distance at busy
  cases task : (state.locals thread).task with
  | idle | missed =>
      rw [task] at busy
      exact absurd rfl busy
  | crashed =>
      rw [task] at taskSound
      exact taskSound.elim
  | exporting used =>
      rw [task] at taskSound
      have bounded := (show ExportSound _ _ _ _ _ _ from taskSound).length
      rcases timely.takes_export task bounded with
        ⟨next, size, takes, after, _⟩ | ⟨next, out, takes, after⟩
      · exact ⟨_, next, takes, silent, by simp [after]⟩
      · exact ⟨_, next, takes, fun _ impossible => (by cases impossible), by simp [after]⟩
  | leaving mode value verdict =>
      obtain ⟨next, takes, after⟩ := takes_leave task
      refine ⟨_, next, takes, fun _ => Verdict.event_ne (by simp) (by simp) (by simp) (by simp), ?_⟩
      rw [after]
      cases verdict with
      | issue | panic => simp [Local.leave, Verdict.next]
      | miss => cases mode <;> simp [Local.leave, Verdict.next]
  | reading reading =>
      obtain ⟨event, next, takes, onward, _⟩ := sound.takes_reading timely task
      refine ⟨event, next, takes, onward.ne_called, fun same => ?_⟩
      have nearer := @remaining_onward state.tableOf state.made.shardCount _ _ _ onward
      rw [same] at nearer
      exact Nat.lt_irrefl _ nearer
  | looking lookup =>
      obtain ⟨next, takes, _, after⟩ := takes_looking task
      refine ⟨_, next, takes, silent, ?_⟩
      rcases after with after | after | ⟨reading, symbol, after, _⟩ | ⟨reading, entry, after, _⟩ <;>
        simp [after]
  | inserting value stage =>
      obtain ⟨next, takes, after⟩ := sound.goes_on timely task
      exact ⟨_, next, takes, silent, after⟩

/-- A thread becomes idle or waits for a lock by steps of its own. -/
theorem Sound.finishes (sound : state.Sound logs) (timely : state.Timely) (thread : Nat) :
    ∃ labels last, Steps Step state labels last ∧
      (∀ label ∈ labels, label.thread = thread ∧ ∀ value, label.event ≠ .called value) ∧
      ((last.locals thread).task = .idle ∨ ∃ value, (last.locals thread).task = .missed value) := by
  generalize boundEq : state.distance thread = bound
  induction bound using Nat.strong_induction_on generalizing state logs with
  | _ bound ih =>
      by_cases busy : state.distance thread = 0
      · exact ⟨[], state, .refl, fun _ member => absurd member List.not_mem_nil,
          distance_eq_zero busy⟩
      · obtain ⟨event, next, ⟨accesses, step⟩, quiet, onward⟩ := sound.advances timely busy
        obtain ⟨grown, later, nextSound⟩ :=
          sound.step (fun value called => absurd called (quiet value)) step
        have nearer : next.distance thread < state.distance thread := by
          rcases step.nears busy with nearer | lost
          · exact nearer
          · rw [lost, setLocal_locals] at onward
            exact absurd rfl onward
        obtain ⟨labels, last, run, others, finished⟩ :=
          ih _ (boundEq ▸ nearer) nextSound (timely.step step later.extends') rfl
        refine ⟨_, last, .cons step run, ?_, finished⟩
        intro label member
        rcases List.mem_cons.mp member with rfl | rest
        · exact ⟨rfl, quiet⟩
        · exact others label rest

end Stages

/-- Wherever the other threads have stopped, a thread finishes its call, or the part of it
before the write lock, by steps of its own. It then holds no lock: the holder of a lock
never waits for anyone. Whichever steps it takes on the way, each brings it nearer to that,
the loss of its memo apart, and the steps of others take it no further back. -/
theorem call_finishes {uninitialised : Memory} {internerId count : Nat}
    {made : StringInterner build} {garbage : Nat → Nat → Nat} {labels : List Label}
    (created : StringInterner.withCapacityAndShards build uninitialised internerId count = .ok made)
    (run : Steps Step (start made garbage) labels state)
    (fits : ∀ label ∈ labels, label.Fits build.profile) (thread : Nat) :
    ∃ more last, Steps Step state more last ∧
      (∀ label ∈ more, label.thread = thread ∧ ∀ value, label.event ≠ .called value) ∧
      ((last.locals thread).task = .idle ∨ ∃ value, (last.locals thread).task = .missed value) ∧
      (∀ shardId, (last.locks shardId).writer ≠ some thread ∧
        thread ∉ (last.locks shardId).readers) ∧
      ∀ label next, Step state label next →
        (label.thread = thread → state.distance thread ≠ 0 →
          next.distance thread < state.distance thread ∨
          next = state.setLocal thread { state.locals thread with memo := none }) ∧
        (label.thread ≠ thread → next.distance thread = state.distance thread) := by
  obtain ⟨logs, sound, timely⟩ := Reaches.invariants ⟨labels, run, fits⟩ created
  obtain ⟨more, last, rest, alone, finished⟩ := sound.finishes timely thread
  obtain ⟨grown, lastSound⟩ := sound.run_quiet rest fun label member => (alone label member).2
  refine ⟨more, last, rest, alone, finished, fun shardId => ?_, fun label next step =>
    ⟨fun own busy => ?_, fun other => sound.distance_other step other.symm⟩⟩
  case refine_2 =>
    subst own
    exact step.nears busy
  have unlocked : (last.locals thread).task.lock last.home = none := by
    rcases finished with idle | ⟨value, missed⟩
    · rw [idle]
      rfl
    · rw [missed]
      rfl
  have held := lastSound.locks shardId
  constructor
  · intro writes
    have lock := (held.writer thread).mp writes
    rw [unlocked] at lock
    cases lock
  · intro reads
    have lock := (held.readers thread).mp reads
    rw [unlocked] at lock
    cases lock

/-- A thread in a read-locked section finishes its call while another one stands still inside
a write-locked section. -/
theorem call_finishes_locked :
    ∃ (made : StringInterner ⟨.debug, fun _ => 0⟩) (labels : List Label)
      (state asking : State ⟨.debug, fun _ => 0⟩) (symbol : Symbol) (label : Label),
      Meeting made (fun _ _ => 7) "cd" "ab" labels state symbol ∧ Step state label asking ∧
      2 ∈ (asking.locks 3).readers ∧
      ∃ more last, Steps Step asking more last ∧ (∀ label ∈ more, label.thread = 2) ∧
        2 ∉ (last.locks 3).readers ∧ (last.locks 2).writer = some 0 := by
  obtain ⟨made, created, ⟨first, second, third⟩, labels, state, symbol, meeting⟩ :=
    exists_meeting_letters
  have reached : Reaches made (fun _ _ => 7) state := ⟨labels, meeting.run, meeting.fits⟩
  have untaken : state.Untaken 2 "ef" := meeting.untaken created
    (by rw [second, third]; decide) (by rw [first, third]; decide)
  have free := untaken.lock_free created reached ⟨by decide, Or.inl rfl⟩ (.refl state)
    (by rw [untaken.idle]; rfl)
  have asked := @Step.share _ state 2 .find "ef" untaken.idle (by simp) (by decide) free.1
  have fits : ∀ label ∈ labels ++ [⟨2, .called "ef", {}⟩], label.Fits .debug :=
    fun _ _ _ _ => Or.inl rfl
  have run := meeting.run.step asked
  obtain ⟨more, last, rest, alone, _, dropped, _⟩ := call_finishes created run fits 2
  refine ⟨made, labels, state, _, symbol, _, meeting, asked, ?_, more, last, rest,
    fun label member => (alone label member).1, (dropped 3).2, ?_⟩
  · have place : state.made.shardOf "ef" = 3 := by rw [reached.made_eq, third]
    rw [← place, setLock_locks]
    exact List.mem_cons_self
  · have quiet : ∀ label ∈ more, ∀ text, label.event ≠ .called text :=
      fun label member => (alone label member).2
    have whole : Reaches made (fun _ _ => 7) last := ⟨_, run.trans rest, fits_append fits quiet⟩
    obtain ⟨logs, sound, _⟩ := whole.invariants created
    have standing := locals_of_run rest (fun label member => (alone label member).1)
      (show 0 ≠ 2 by decide)
    rw [asked.locals_other (show 0 ≠ 2 by decide)] at standing
    refine ((sound.locks 2).writer 0).mpr ?_
    rw [standing, meeting.standing, ← second, ← whole.made_eq]
    rfl

end State

end Boomerang.WeakMemory
