import Boomerang.Interner.WeakRuns

/-!
# Where the strings come from

A thread is busy with the string that was passed to its call and with no other, and the
arena gets the strings that threads are busy with: what was written had been called.
-/

namespace Boomerang.WeakMemory

open Foundation

/-- The string that was passed to the call a thread is in. -/
def Task.carries : Task → Option String
  | .reading call =>
      match call.reason with
      | .resolve _ => none
      | .probe lookup | .confirm lookup _ => some lookup.value
  | .looking lookup => some lookup.value
  | .missed value | .inserting value _ | .leaving _ value _ => some value
  | .idle | .exporting _ | .crashed => none

/-- The text that was read changes nothing about the call. -/
theorem Reading.carries_finish {reading : Reading} {text : Option String} {value : String}
    (carries : (reading.finish text).1.carries = some value) :
    Task.carries (.reading reading) = some value := by
  unfold Reading.finish at carries
  cases reasonEq : reading.reason with
  | resolve symbol =>
      rw [reasonEq] at carries
      cases carries
  | probe lookup =>
      rw [reasonEq] at carries
      simpa [Task.carries, reasonEq] using carries
  | confirm lookup symbol =>
      rw [reasonEq] at carries
      cases text <;> cases modeEq : lookup.mode <;>
        simpa [Task.carries, reasonEq, modeEq] using carries

theorem Reading.carries_fail {reading : Reading} {value : String}
    (carries : reading.fail.1.carries = some value) :
    Task.carries (.reading reading) = some value := by
  unfold Reading.fail at carries
  cases reasonEq : reading.reason with
  | resolve symbol =>
      rw [reasonEq] at carries
      cases carries
  | probe lookup | confirm lookup symbol =>
      rw [reasonEq] at carries
      simpa [Task.carries, reasonEq] using carries

/-- A call that goes on after a locked section goes on with its string. -/
theorem Verdict.carries_next {verdict : Verdict} {mode : Mode} {text value : String}
    (carries : (verdict.next mode text).carries = some value) : text = value := by
  cases verdict with
  | issue | panic => cases carries
  | miss =>
      simp only [Verdict.next] at carries
      split at carries
      · exact Option.some.inj carries
      · cases carries

namespace State

variable {build : Build} {state next : State build} {logs grown : Nat → Log} {label : Label}
variable {labels : List Label} {thread : Nat} {value : String}

/-- A thread that goes on by itself is busy with the string it was busy with. -/
theorem Moves.carries {loc after : Local} {event : Event} {accesses : Accesses Cell}
    (moves : state.Moves loc event accesses after) (carries : after.task.carries = some value) :
    loc.task.carries = some value := by
  cases moves with
  | resolve | resolveUnchecked | exportCall | exportCursor | exportCopy => cases carries
  | lenShort task | slotEmpty task | record task =>
      rw [task]
      exact Reading.carries_finish carries
  | chunkOutside task =>
      rw [task]
      exact Reading.carries_fail carries
  | chunkNull task =>
      rw [task]
      simp only [Local.go] at carries
      split at carries
      · exact Reading.carries_finish carries
      · cases carries
  | lenPassed task | chunkMemo task | chunkLoad task | slotLoad task =>
      rw [task]
      exact carries
  | forget => exact carries
  | probe task | found task =>
      rw [task]
      exact carries
  | notFound task =>
      rw [task]
      simp only [Local.turn, Local.go] at carries
      split at carries <;> exact carries
  | poisonedLoad task | cursorLoad task =>
      rw [task]
      simp only [Local.go] at carries
      split at carries <;> exact carries
  | sizeOverflow task | cursorFull task | locateOutside task | located task | installLost task
  | numberOverflow task =>
      rw [task]
      exact carries

/-- A step leaves every other thread where it was. -/
theorem Step.locals_other (step : Step state label next) {other : Nat}
    (different : other ≠ label.thread) : next.locals other = state.locals other := by
  cases step with
  | move | sync | share | lock | unshare | unlock | number =>
      exact Function.update_of_ne different _ _
  | poison | commit | count | install | point => exact publish_locals_other _ different
  | copy | allocate => exact scribble_locals_other _ different

/-- A thread comes to be busy with a string by a call with it. -/
theorem Step.carries (step : Step state label next)
    (carries : (next.locals thread).task.carries = some value) :
    (state.locals thread).task.carries = some value ∨ label.event = .called value := by
  by_cases other : thread ≠ label.thread
  · rw [step.locals_other other] at carries
    exact Or.inl carries
  rw [not_not] at other
  subst other
  cases step with
  | move moves =>
      rw [setLocal_locals] at carries
      exact Or.inl (moves.carries carries)
  | sync idle =>
      rw [setLocal_locals] at carries
      exact Or.inl carries
  | share =>
      rw [setLocal_locals] at carries
      exact Or.inr (congrArg Event.called (Option.some.inj carries))
  | lock missed =>
      rw [setLocal_locals] at carries
      rw [missed]
      exact Or.inl carries
  | unshare task | unlock task =>
      rw [setLocal_locals] at carries
      rw [task]
      exact Or.inl (congrArg some (Verdict.carries_next carries))
  | poison task | commit task | count task | install task | point task =>
      rw [publish_locals] at carries
      rw [task]
      exact Or.inl carries
  | copy task | allocate task =>
      rw [scribble_locals] at carries
      rw [task]
      exact Or.inl carries
  | number task =>
      rw [setLocal_locals] at carries
      rw [task]
      exact Or.inl carries

/-- Every string that was written, and every string a thread is busy with, was called. -/
structure AllCalled (state : State build) (logs : Nat → Log) (labels : List Label) : Prop where
  busy : ∀ thread value, (state.locals thread).task.carries = some value →
    .called value ∈ labels.map Label.event
  written : ∀ shardId, ∀ value ∈ (logs shardId).written, .called value ∈ labels.map Label.event

theorem AllCalled.step (all : state.AllCalled logs labels) (step : Step state label next)
    (later : Later state next logs grown) : next.AllCalled grown (labels ++ [label]) := by
  have earlier : ∀ value, .called value ∈ labels.map Label.event →
      .called value ∈ (labels ++ [label]).map Label.event := by
    intro value called
    rw [List.map_append]
    exact List.mem_append_left _ called
  constructor
  case busy =>
    intro thread value carries
    rcases step.carries carries with before | called
    · exact earlier value (all.busy thread value before)
    · simp [called]
  case written =>
    intro shardId value member
    rcases later.brought shardId value member with before | ⟨thread, current, task⟩
    · exact earlier value (all.written shardId value before)
    · exact earlier value (all.busy thread value (by rw [task]; rfl))

theorem allCalled_start (made : StringInterner build) (garbage : Nat → Nat → Nat) :
    (start made garbage).AllCalled (fun _ => Log.empty) [] :=
  ⟨fun _ _ carries => (by cases carries), fun _ _ member => absurd member List.not_mem_nil⟩

/-- What was written in a run was called in it. -/
theorem allCalled_of_run {uninitialised : Memory} {internerId count : Nat}
    {made : StringInterner build} {garbage : Nat → Nat → Nat}
    (created : StringInterner.withCapacityAndShards build uninitialised internerId count = .ok made)
    (run : Steps Step (start made garbage) labels state)
    (fits : ∀ label ∈ labels, label.Fits build.profile) :
    ∃ logs, state.Sound logs ∧ state.AllCalled logs labels := by
  obtain ⟨interner, new, facts⟩ :=
    StringInterner.withCapacityAndShards_ok build uninitialised internerId count
  cases new.symm.trans created
  exact @Sound.run_along _ _ _ (fun state logs labels => state.AllCalled logs labels) _ _
    (sound_start facts.layout garbage) run fits (allCalled_start _ garbage)
    (fun _ step later _ all => all.step step later)

end State

end Boomerang.WeakMemory
