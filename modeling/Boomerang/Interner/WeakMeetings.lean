import Boomerang.Interner.WeakCalls
import Boomerang.Interner.WeakProgress

/-!
# First calls

What a thread comes to by steps of its own leaves the other threads where they were. A
new interner issues a symbol for any string of less than a megabyte, also while another
thread stands still inside the locked section of another shard, and the thread that was
given the symbol passes it on.
-/

namespace Boomerang.WeakMemory

open Foundation

namespace State

variable {build : Build} {state next first : State build} {logs : Nat → Log} {label : Label}
variable {thread other : Nat} {value : String} {labels : List Label}

/-- Steps of one thread leave the others where they were. -/
theorem locals_of_run (run : Steps Step state labels next)
    (own : ∀ label ∈ labels, label.thread = thread) (different : other ≠ thread) :
    next.locals other = state.locals other := by
  refine @Steps.invariant_of_labels _ _ _ (fun next => next.locals other = state.locals other)
    (fun label => label.thread = thread) _ _ _ run rfl own ?_
  rintro before label after same rfl step
  exact (step.locals_other different).trans same

/-- Steps that call nothing fit. -/
theorem fits_append {profile : Profile} {more : List Label}
    (fits : ∀ label ∈ labels, label.Fits profile)
    (quiet : ∀ label ∈ more, ∀ text, label.event ≠ .called text) :
    ∀ label ∈ labels ++ more, label.Fits profile := by
  intro label member text called
  rcases List.mem_append.mp member with earlier | later
  · exact fits label earlier text called
  · exact absurd called (quiet label later text)

theorem quiet_concat (quiet : ∀ label ∈ labels, ∀ text, label.event ≠ .called text)
    (last : ∀ text, label.event ≠ .called text) :
    ∀ other ∈ labels ++ [label], ∀ text, other.event ≠ .called text := by
  intro other member
  rcases List.mem_append.mp member with earlier | isLast
  · exact quiet other earlier
  · rwa [List.mem_singleton.mp isLast]

/-- Nobody holds a lock that no thread's task says it holds. -/
theorem Sound.lock_free (sound : state.Sound logs) {shardId : Nat}
    (alone : ∀ thread writes, (state.locals thread).task.lock state.home ≠ some (shardId, writes)) :
    (state.locks shardId).writer = none ∧ (state.locks shardId).readers = [] := by
  have held := sound.locks shardId
  constructor
  · cases writerEq : (state.locks shardId).writer with
    | none => rfl
    | some thread => exact absurd ((held.writer thread).mp writerEq) (alone thread true)
  · rw [List.eq_nil_iff_forall_not_mem]
    intro thread reads
    exact alone thread false ((held.readers thread).mp reads)

/-- A thread comes from one state to another by steps of its own, calling with no other
string. -/
def Comes (thread : Nat) (value : String) (state next : State build) : Prop :=
  ∃ labels, Steps Step state labels next ∧
    ∀ label ∈ labels, label.thread = thread ∧ ∀ text, label.event = .called text → text = value

namespace Comes

theorem refl (state : State build) : Comes thread value state state :=
  ⟨[], .refl, fun _ member => absurd member List.not_mem_nil⟩

theorem step (comes : Comes thread value first state) (step : Step state label next)
    (own : label.thread = thread) (called : ∀ text, label.event = .called text → text = value) :
    Comes thread value first next := by
  obtain ⟨labels, run, before⟩ := comes
  refine ⟨_, .step run step, fun other member => ?_⟩
  rcases List.mem_append.mp member with earlier | last
  · exact before other earlier
  · rw [List.mem_singleton.mp last]
    exact ⟨own, called⟩

theorem silently (comes : Comes thread value first state)
    (takes : state.Takes thread .silent next) : Comes thread value first next := by
  obtain ⟨_, step⟩ := takes
  exact comes.step step rfl fun _ called => by cases called

theorem made_eq (comes : Comes thread value first state) : state.made = first.made := by
  obtain ⟨_, run, _⟩ := comes
  exact made_of_run run

theorem locals_other (comes : Comes thread value first state) (different : other ≠ thread) :
    state.locals other = first.locals other := by
  obtain ⟨_, run, own⟩ := comes
  exact locals_of_run run (fun label member => (own label member).1) different

/-- A lookup in an empty table finds nothing. -/
theorem missing (comes : Comes thread value first state) {mode : Mode}
    (task : (state.locals thread).task = .looking ⟨mode, value, []⟩)
    (empty : state.tableOf value = []) :
    ∃ next, Comes thread value first next ∧ (next.locals thread).task =
        (if mode = .insert then .inserting value .poisoned else .leaving mode value .miss) ∧
      next.histories = state.histories ∧ next.tableOf = state.tableOf := by
  have different : ∀ entry, state.Candidate value entry → ∃ text,
      (entry.symbol.issuedIndex, text) ∈ ([] : List (Nat × Option String)) ∧ text ≠ some value := by
    intro entry candidate
    have listed : entry ∈ state.tableOf value := candidate.1
    rw [empty] at listed
    exact absurd listed List.not_mem_nil
  obtain ⟨next, takes, after, tables, histories⟩ := takes_move (.notFound task different)
  exact ⟨next, comes.silently takes, congrArg Local.task after, histories, tables⟩

end Comes

/-- A state that a run from a new interner leads to. -/
def Reaches (made : StringInterner build) (garbage : Nat → Nat → Nat)
    (state : State build) : Prop :=
  ∃ labels, Steps Step (start made garbage) labels state ∧ ∀ label ∈ labels,
    label.Fits build.profile

variable {made : StringInterner build} {garbage : Nat → Nat → Nat}

theorem Reaches.start (made : StringInterner build) (garbage : Nat → Nat → Nat) :
    Reaches made garbage (start made garbage) :=
  ⟨[], .refl, fun _ member => absurd member List.not_mem_nil⟩

theorem Reaches.trans (reaches : Reaches made garbage state) (run : Steps Step state labels next)
    (fits : ∀ label ∈ labels, label.Fits build.profile) : Reaches made garbage next := by
  obtain ⟨before, prior, fit⟩ := reaches
  refine ⟨_, prior.trans run, fun label member => ?_⟩
  rcases List.mem_append.mp member with earlier | later
  · exact fit label earlier
  · exact fits label later

theorem Reaches.comes (reaches : Reaches made garbage state) (comes : Comes thread value state next)
    (proper : Proper build.profile value) : Reaches made garbage next := by
  obtain ⟨labels, run, own⟩ := comes
  refine reaches.trans run fun label member text called => ?_
  rw [(own label member).2 text called]
  exact proper.storable

theorem Reaches.made_eq (reaches : Reaches made garbage state) : state.made = made :=
  made_of_run reaches.choose_spec.1

/-- A thread may call with a string, and no other thread is at the string's shard, which
has no entries. -/
structure Untaken (state : State build) (thread : Nat) (value : String) : Prop where
  idle : (state.locals thread).task = .idle
  alone : ∀ other ≠ thread, ∀ writes,
    (state.locals other).task.lock state.home ≠ some (state.home value, writes)
  empty : state.tableOf value = []

theorem Untaken.start (made : StringInterner build) (garbage : Nat → Nat → Nat) (thread : Nat)
    (value : String) : (start made garbage).Untaken thread value :=
  ⟨rfl, fun _ _ _ lock => (by cases lock), rfl⟩

section Created

variable {uninitialised : Memory} {internerId count : Nat}

theorem Reaches.invariants (reaches : Reaches made garbage state)
    (created : StringInterner.withCapacityAndShards build uninitialised internerId count =
      .ok made) :
    ∃ logs, state.Sound logs ∧ state.Timely := by
  obtain ⟨labels, run, fits⟩ := reaches
  obtain ⟨interner, new, facts⟩ :=
    StringInterner.withCapacityAndShards_ok build uninitialised internerId count
  cases new.symm.trans created
  obtain ⟨logs, sound⟩ := sound_of_run created run fits
  exact ⟨logs, sound,
    (sound_start facts.layout garbage).timely_run (timely_start made garbage) run fits⟩

variable (created :
    StringInterner.withCapacityAndShards build uninitialised internerId count = .ok made)
  (reached : Reaches made garbage first) (proper : Proper build.profile value)
include created reached proper

/-- A thread that is outside the locked sections finds the lock of its string free. -/
theorem Untaken.lock_free (untaken : first.Untaken thread value)
    (comes : Comes thread value first state)
    (outside : (state.locals thread).task.lock state.home = none) :
    (state.locks (state.home value)).writer = none ∧
      (state.locks (state.home value)).readers = [] := by
  obtain ⟨logs, sound, _⟩ := (reached.comes comes proper).invariants created
  refine sound.lock_free fun other writes lock => ?_
  by_cases isThread : other = thread
  · rw [isThread, outside] at lock
    cases lock
  · rw [comes.locals_other isThread, home_eq comes.made_eq] at lock
    exact untaken.alone other isThread writes lock

/-- A call of `get_or_intern` comes to the write-locked section with nothing written. -/
theorem Untaken.comes_insert (untaken : first.Untaken thread value) :
    ∃ state, Comes thread value first state ∧
      (state.locals thread).task = .inserting value .poisoned ∧
      state.histories = first.histories ∧ state.tableOf = first.tableOf := by
  have free := untaken.lock_free created reached proper (.refl first) (by rw [untaken.idle]; rfl)
  obtain ⟨calling, called, looking, histories, tables⟩ : ∃ next, Comes thread value first next ∧
      (next.locals thread).task = .looking ⟨.find, value, []⟩ ∧
      next.histories = first.histories ∧ next.tableOf = first.tableOf :=
    ⟨_, (Comes.refl first).step (@Step.share _ _ _ .find value untaken.idle (by simp)
      proper.notStatic free.1) rfl fun _ called => (Event.called.inj called).symm,
      by rw [setLock_locals]; rfl, rfl, rfl⟩
  obtain ⟨left, comes, task, leftHistories, leftTables⟩ :=
    called.missing looking (by rw [tables, untaken.empty])
  obtain ⟨apart, between, missed, apartHistories, apartTables⟩ : ∃ next,
      Comes thread value first next ∧ (next.locals thread).task = .missed value ∧
      next.histories = left.histories ∧ next.tableOf = left.tableOf :=
    ⟨_, comes.step (.unshare task (by simp)) rfl fun _ called => (by cases called),
      by rw [setLock_locals]; rfl, rfl, rfl⟩
  have unlocked := untaken.lock_free created reached proper between (by rw [missed]; rfl)
  obtain ⟨held, within, again, heldHistories, heldTables⟩ : ∃ next,
      Comes thread value first next ∧ (next.locals thread).task = .looking ⟨.insert, value, []⟩ ∧
      next.histories = apart.histories ∧ next.tableOf = apart.tableOf :=
    ⟨_, between.step (.lock missed unlocked.1 unlocked.2) rfl fun _ called => (by cases called),
      by rw [setLock_locals]; rfl, rfl, rfl⟩
  have same : held.tableOf = first.tableOf := by
    rw [heldTables, apartTables, leftTables, tables]
  obtain ⟨last, final, inserting, lastHistories, lastTables⟩ :=
    within.missing again (by rw [same, untaken.empty])
  refine ⟨last, final, inserting, ?_, lastTables.trans same⟩
  rw [lastHistories, heldHistories, apartHistories, leftHistories, histories]

/-- A shard that was never written to is not poisoned and has room for any string of less
than a megabyte. -/
theorem Untaken.comes_copy (untaken : first.Untaken thread value)
    (blank : first.histories = (State.start made garbage).histories)
    (short : byteLength value + 8 ≤ 2 ^ 20) :
    ∃ state, Comes thread value first state ∧
      (state.locals thread).task = .inserting value (.copy 0) ∧
      state.histories = first.histories ∧ state.tableOf = first.tableOf := by
  obtain ⟨interner, new, facts⟩ :=
    StringInterner.withCapacityAndShards_ok build uninitialised internerId count
  cases new.symm.trans created
  have wide := facts.regionSize_ge
  have size := paddedSize_lt (byteLength value)
  have range : u32Range = 2 ^ 32 := rfl
  obtain ⟨state, comes, task, histories, tables⟩ := untaken.comes_insert created reached proper
  obtain ⟨logs, sound, timely⟩ := (reached.comes comes proper).invariants created
  obtain ⟨stamp, message, load⟩ := (timely.locals thread).loads (.poisoned (state.home value))
  have intact : message.value = 0 :=
    (start_eq_some (histories.trans blank ▸ load.found)).2
  obtain ⟨spaced, takes, after, sameTables, same⟩ := takes_move (.poisonedLoad task rfl load)
  have spacing : (spaced.locals thread).task = .inserting value .space := by
    rw [after, intact]
    exact if_neg (by simp only [ne_eq, not_true_eq_false, false_or, not_and]; omega)
  replace comes := comes.silently takes
  have reaches := reached.comes comes proper
  rw [← same] at histories
  obtain ⟨logs, sound, timely⟩ := reaches.invariants created
  obtain ⟨stamp, message, load⟩ := (timely.locals thread).loads (.cursor (spaced.home value))
  have empty : message.value = 0 :=
    (start_eq_some (histories.trans blank ▸ load.found)).2
  have inside : spaced.base (spaced.home value) + spaced.made.pool.regionSize ≤
      spaced.made.pool.capacity :=
    sound.made.sized.regionEnd (sound.made.poolShards ▸ sound.home_lt value)
  have capacity := sound.made.sized.capacity
  have regionSize : spaced.made.pool.regionSize = made.pool.regionSize := by rw [reaches.made_eq]
  have fits : spaced.offsetOf value 0 = spaced.base (spaced.home value) :=
    Nat.mod_eq_of_lt (show spaced.base (spaced.home value) < _ by omega)
  obtain ⟨copying, takes, after, lastTables, last⟩ := takes_move (.cursorLoad spacing
    (by rw [storedLength, Nat.mod_eq_of_lt (by omega), paddedRecordSize_eq_ok (by omega)]) rfl load
    (by rw [empty, Exhausted]; omega))
  refine ⟨copying, comes.silently takes, ?_, last.trans histories,
    lastTables.trans (sameTables.trans tables)⟩
  rw [after, empty]
  exact if_neg (by rw [fits]; omega)

/-- The first string of a shard gets a chunk, a slot and a number. -/
theorem Comes.places (comes : Comes thread value first state) {offset : Nat}
    (task : (state.locals thread).task = .inserting value (.locate offset 0)) :
    ∃ next symbol, Comes thread value first next ∧
      (next.locals thread).task = .leaving .insert value (.issue symbol) := by
  obtain ⟨logs, sound, timely⟩ := (reached.comes comes proper).invariants created
  have found : ∃ next ptr, Comes thread value first next ∧
      (next.locals thread).task = .inserting value (.point offset 0 ptr) := by
    obtain ⟨next, ptr, takes, point | install⟩ := sound.takes_locate timely task (by decide)
    · exact ⟨next, ptr, comes.silently takes, point⟩
    · have allocated := comes.silently takes
      obtain ⟨logs, sound, timely⟩ := (reached.comes allocated proper).invariants created
      obtain ⟨last, other, takes, point⟩ := sound.takes_install timely install
      exact ⟨last, other, allocated.silently takes, point⟩
  obtain ⟨pointing, ptr, pointed, task⟩ := found
  obtain ⟨logs, sound, _⟩ := (reached.comes pointed proper).invariants created
  obtain ⟨stored, takes, task⟩ := sound.takes_point task
  have storing := pointed.silently takes
  obtain ⟨symbol, numbered⟩ := @Symbol.exists_new (UInt8.ofNat (stored.home value)) 0
    (Symbol.toNat_indexMask ▸ (by decide : 0 < 16777215))
  obtain ⟨next, takes, task⟩ := takes_number task numbered
  exact ⟨next, symbol, storing.silently takes, task⟩

/-- Where nothing was written yet, any string of less than a megabyte is issued a symbol. -/
theorem Untaken.issued (untaken : first.Untaken thread value)
    (blank : first.histories = (State.start made garbage).histories)
    (short : byteLength value + 8 ≤ 2 ^ 20) :
    ∃ labels state symbol, Steps Step first labels state ∧
      (∀ label ∈ labels, label.thread = thread ∧ ∀ text, label.event = .called text →
        text = value) ∧
      .issued value symbol ∈ labels.map Label.event ∧ (state.locals thread).task = .idle ∧
      (symbol, value) ∈ (state.locals thread).held := by
  obtain ⟨copying, comes, task, histories, _⟩ :=
    untaken.comes_copy created reached proper blank short
  obtain ⟨logs, sound, _⟩ := (reached.comes comes proper).invariants created
  obtain ⟨written, takes, task, copied⟩ := sound.takes_copy task
  replace comes := comes.silently takes
  obtain ⟨logs, sound, _⟩ := (reached.comes comes proper).invariants created
  obtain ⟨committed, takes, task, moved⟩ := sound.takes_commit task
  replace comes := comes.silently takes
  obtain ⟨logs, sound, timely⟩ := (reached.comes comes proper).invariants created
  obtain ⟨counted, stamp, message, takes, found, task⟩ := sound.takes_count timely task
  rw [moved, copied, histories, blank] at found
  rw [(start_eq_some found).2] at task
  obtain ⟨leaving, symbol, ⟨labels, run, own⟩, task⟩ :=
    (comes.silently takes).places created reached proper task
  obtain ⟨last, ⟨accesses, step⟩, after⟩ := takes_leave task
  refine ⟨_, last, symbol, .step run step, fun label member => ?_, by simp [Verdict.event], ?_, ?_⟩
  · rcases List.mem_append.mp member with earlier | final
    · exact own label earlier
    · rw [List.mem_singleton.mp final]
      exact ⟨rfl, fun _ called => (by cases called)⟩
  · rw [after]
    rfl
  · rw [after]
    exact List.mem_append_left _ (List.mem_singleton_self _)

end Created

/-- One thread stands still before it writes its string, another one has interned a string
of another shard and passed the symbol on to a third. -/
structure Meeting (made : StringInterner build) (garbage : Nat → Nat → Nat) (stopped value : String)
    (labels : List Label) (state : State build) (symbol : Symbol) : Prop where
  run : Steps Step (State.start made garbage) labels state
  called : ∀ label ∈ labels, ∀ text, label.event = .called text → text = stopped ∨ text = value
  fits : ∀ label ∈ labels, label.Fits build.profile
  issued : .issued value symbol ∈ labels.map Label.event
  standing : (state.locals 0).task = .inserting stopped (.copy 0)
  idle : ∀ other ≠ 0, (state.locals other).task = .idle
  held : (symbol, value) ∈ (state.locals 2).held

/-- Threads meet in this way on any two short strings of different shards. -/
theorem exists_meeting {uninitialised : Memory} {internerId count : Nat} {stopped value : String}
    (created : StringInterner.withCapacityAndShards build uninitialised internerId count = .ok made)
    (stoppedProper : Proper build.profile stopped) (proper : Proper build.profile value)
    (stoppedShort : byteLength stopped + 8 ≤ 2 ^ 20) (short : byteLength value + 8 ≤ 2 ^ 20)
    (apart : made.shardOf stopped ≠ made.shardOf value) (garbage : Nat → Nat → Nat) :
    ∃ labels state symbol, Meeting made garbage stopped value labels state symbol := by
  have new := Reaches.start made garbage
  obtain ⟨copying, comes, standing, histories, tables⟩ :=
    (Untaken.start made garbage 0 stopped).comes_copy created new stoppedProper rfl stoppedShort
  have reached := new.comes comes stoppedProper
  have elsewhere : ∀ other ≠ 0, copying.locals other = (State.start made garbage).locals other :=
    fun other different => comes.locals_other different
  have untaken : copying.Untaken 1 value := by
    refine ⟨by rw [elsewhere 1 (by decide)]; rfl, fun other _ writes lock => ?_,
      by rw [tables]; rfl⟩
    by_cases isFirst : other = 0
    · rw [isFirst, standing] at lock
      have same : copying.home stopped = copying.home value :=
        congrArg Prod.fst (Option.some.inj lock)
      rw [home, home, reached.made_eq] at same
      exact apart same
    · rw [elsewhere other isFirst] at lock
      cases lock
  obtain ⟨later, state, symbol, run, own, issued, idle, held⟩ :=
    untaken.issued created reached proper histories short
  obtain ⟨earlier, prior, before⟩ := comes
  have others : ∀ other ≠ 1, state.locals other = copying.locals other :=
    fun other => locals_of_run run fun label member => (own label member).1
  have waiting : (state.locals 2).task = .idle := by
    rw [others 2 (by decide), elsewhere 2 (by decide)]
    rfl
  have joined := (prior.trans run).step (@Step.sync _ _ 2 1 waiting)
  have called : ∀ label ∈ earlier ++ later ++ [⟨2, .silent, {}⟩], ∀ text,
      label.event = .called text → text = stopped ∨ text = value := by
    intro label member text isCalled
    rcases List.mem_append.mp member with front | last
    · rcases List.mem_append.mp front with first | second
      · exact Or.inl ((before label first).2 text isCalled)
      · exact Or.inr ((own label second).2 text isCalled)
    · rw [List.mem_singleton.mp last] at isCalled
      cases isCalled
  refine ⟨_, _, symbol, joined, called, fun label member text isCalled => ?_, by simp [issued], ?_,
    fun other different => ?_, ?_⟩
  · rcases called label member text isCalled with rfl | rfl
    · exact stoppedProper.storable
    · exact proper.storable
  · rw [setLocal_locals_other _ _ (by decide), others 0 (by decide)]
    exact standing
  · by_cases isThird : other = 2
    · rw [isThird, setLocal_locals]
      exact waiting
    · rw [setLocal_locals_other _ _ isThird]
      by_cases isSecond : other = 1
      · rw [isSecond, idle]
      · rw [others other isSecond, elsewhere other different]
        rfl
  · rw [setLocal_locals]
    exact List.mem_append_left _ held

/-- In the shard of another string than the two there is nobody and no entry. -/
theorem Meeting.untaken {uninitialised : Memory} {internerId count : Nat}
    {stopped value other : String} {symbol : Symbol}
    (meeting : Meeting made garbage stopped value labels state symbol)
    (created : StringInterner.withCapacityAndShards build uninitialised internerId count = .ok made)
    (fromStopped : made.shardOf stopped ≠ made.shardOf other)
    (fromValue : made.shardOf value ≠ made.shardOf other) : state.Untaken 2 other := by
  obtain ⟨logs, sound, all⟩ := allCalled_of_run created meeting.run meeting.fits
  have homeEq : state.home = made.shardOf :=
    congrArg StringInterner.shardOf (made_of_run meeting.run)
  constructor
  case idle => exact meeting.idle 2 (by decide)
  case alone =>
    intro thread _ writes lock
    by_cases isFirst : thread = 0
    · rw [isFirst, meeting.standing, homeEq] at lock
      exact fromStopped (congrArg Prod.fst (Option.some.inj lock))
    · rw [meeting.idle thread isFirst] at lock
      cases lock
  case empty =>
    have shelf := sound.shelf _ (sound.home_lt other)
    -- The shard only has strings that were called, and the two belong elsewhere.
    have none : (logs (state.home other)).written = [] := by
      rw [List.eq_nil_iff_forall_not_mem]
      intro text member
      have home := (shelf.proper text member).1
      rw [homeEq] at home
      obtain ⟨label, listed, called⟩ := List.mem_map.mp (all.written _ text member)
      rcases meeting.called label listed text called with rfl | rfl
      · exact fromStopped home
      · exact fromValue home
    have few := shelf.toLogSound.numbered_written
    rw [none, List.length_nil, ← shelf.count] at few
    exact List.length_eq_zero_iff.mp (Nat.le_zero.mp few)

/-- Two letters meet two others in an interner of four shards. -/
theorem exists_meeting_letters :
    ∃ made : StringInterner ⟨.debug, fun _ => 0⟩,
      StringInterner.withCapacityAndShards _ (fun _ => 0) 1 4 = .ok made ∧
      (made.shardOf "ab" = 1 ∧ made.shardOf "cd" = 2 ∧ made.shardOf "ef" = 3) ∧
      ∃ labels state symbol, Meeting made (fun _ _ => 7) "cd" "ab" labels state symbol := by
  obtain ⟨made, created, facts⟩ :=
    StringInterner.withCapacityAndShards_ok ⟨.debug, fun _ => 0⟩ (fun _ => 0) 1 4
  have first : made.shardOf "ab" = 1 := (facts.shardOf_eq "ab").trans (by decide)
  have second : made.shardOf "cd" = 2 := (facts.shardOf_eq "cd").trans (by decide)
  have third : made.shardOf "ef" = 3 := (facts.shardOf_eq "ef").trans (by decide)
  refine ⟨made, created, ⟨first, second, third⟩, exists_meeting created ⟨by decide, Or.inl rfl⟩
    ⟨by decide, Or.inl rfl⟩ (by decide) (by decide) ?_ (fun _ _ => 7)⟩
  rw [first, second]
  decide

end State

end Boomerang.WeakMemory
