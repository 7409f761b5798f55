import Boomerang.Interner.WeakRecords

/-!
# The invariant over whole runs

Every step keeps the invariant, of a log that only grows. What a step told is true of
the log it was taken at, and stays true; what it accessed was written before it, and no
later plain write goes there.
-/

namespace Boomerang.WeakMemory

open Foundation

/-- The strings a call carries fit their length field. -/
def Label.Fits (profile : Profile) (label : Label) : Prop :=
  ∀ value, label.event = .called value → MemoryPool.Storable profile value

namespace State

variable {build : Build} {state next : State build} {logs grown : Nat → Log} {label : Label}

/-- A step that changes only its thread. -/
theorem Sound.moves (sound : state.Sound logs) {thread : Nat} {event : Event}
    {accesses : Accesses Cell} {loc : Local}
    (moves : state.Moves (state.locals thread) event accesses loc) :
    state.Kept (state.setLocal thread loc) logs :=
  have moved := sound.moved moves
  sound.turned moved.view moved.lock moved.pending moved.sound

/-- Every step keeps the invariant. -/
theorem Sound.step (sound : state.Sound logs) (fits : label.Fits build.profile)
    (step : Step state label next) : state.Kept next logs := by
  cases step with
  | move moves => exact sound.moves moves
  | sync idle => exact sound.joined idle
  | share idle shared notStatic free =>
      exact sound.shared idle shared ⟨notStatic, fits _ rfl⟩ free
  | lock missed free unshared => exact sound.locked missed free unshared
  | unshare task shared => exact sound.unshared task shared
  | unlock task => exact sound.unlocked task
  | poison task cellEq vacant =>
      subst cellEq
      exact sound.poisons task vacant rfl
  | copy task valuesEq vacant =>
      subst valuesEq
      exact sound.copies task vacant rfl
  | commit task size_ok cellEq vacant =>
      subst cellEq
      exact sound.commits task size_ok vacant rfl
  | count task cellEq load free =>
      subst cellEq
      exact sound.counts task load rfl
  | allocate task inside cellEq load null valuesEq vacant =>
      subst cellEq valuesEq
      exact sound.allocates task inside load null vacant rfl
  | install task cellEq load null free =>
      subst cellEq
      exact sound.installs task load null rfl
  | point task cellEq vacant =>
      subst cellEq
      exact sound.points task vacant rfl
  | number task numbered => exact sound.numbers task numbered rfl

/-- The invariant holds at the end of every run, and with it what every step keeps of the
log and the labels taken so far. -/
theorem Sound.run_along {Facts : State build → (Nat → Log) → List Label → Prop}
    {labels : List Label} {last : State build} (sound : state.Sound logs)
    (run : Steps Step state labels last) (fits : ∀ label ∈ labels, label.Fits build.profile)
    (first : Facts state logs [])
    (kept : ∀ {state next : State build} {logs grown : Nat → Log} {labels : List Label}
      {label : Label}, state.Sound logs → Step state label next → Later state next logs grown →
        next.Sound grown → Facts state logs labels → Facts next grown (labels ++ [label])) :
    ∃ grown, last.Sound grown ∧ Facts last grown labels := by
  induction run with
  | refl => exact ⟨logs, sound, first⟩
  | @step labels middle label next prior step ih =>
      obtain ⟨grown, here, facts⟩ := ih fun earlier member =>
        fits earlier (List.mem_append_left _ member)
      obtain ⟨more, later, there⟩ := here.step (fits label (by simp)) step
      exact ⟨more, there, kept here step later there facts⟩

/-- The invariant holds at the end of every run, and with it whatever each step leaves
true and later steps keep true. -/
theorem Sound.run {Fact : State build → (Nat → Log) → Label → Prop} {labels : List Label}
    {last : State build} (sound : state.Sound logs) (run : Steps Step state labels last)
    (fits : ∀ label ∈ labels, label.Fits build.profile)
    (told : ∀ {state next : State build} {logs grown : Nat → Log} {label : Label},
      state.Sound logs → Step state label next → Later state next logs grown → next.Sound grown →
        Fact next grown label)
    (kept : ∀ {state next : State build} {logs grown : Nat → Log} {label : Label},
      state.Sound logs → Later state next logs grown → Fact state logs label →
        Fact next grown label) :
    ∃ grown, last.Sound grown ∧ ∀ label ∈ labels, Fact last grown label := by
  refine @Sound.run_along _ _ _ (fun state logs labels => ∀ label ∈ labels, Fact state logs label)
    _ _ sound run fits (fun _ member => absurd member List.not_mem_nil) ?_
  intro state next logs grown labels label here step later there facts other member
  rcases List.mem_append.mp member with earlier | last
  · exact kept here later (facts other earlier)
  · rw [List.mem_singleton.mp last]
    exact told here step later there

/-- A new interner's memory has the writes it was created with. -/
theorem start_eq_some {made : StringInterner build} {garbage : Nat → Nat → Nat} {cell : Cell}
    {stamp : Nat} {message : Message Cell}
    (found : (start made garbage).histories cell stamp = some message) :
    stamp = 0 ∧ message.value = initial made garbage cell := by
  simp only [start] at found
  split at found
  · rename_i first
    cases found
    exact ⟨first, rfl⟩
  · cases found

/-- Cursors, lengths and chunk pointers start at zero. -/
theorem initial_eq_zero (made : StringInterner build) (garbage : Nat → Nat → Nat) {cell : Cell}
    (notByte : ∀ address, cell ≠ .byte address)
    (notSlot : ∀ ptr slotIdx, cell ≠ .slot ptr slotIdx) :
    initial made garbage cell = 0 := by
  cases cell with
  | byte address => exact absurd rfl (notByte address)
  | slot ptr slotIdx => exact absurd rfl (notSlot ptr slotIdx)
  | cursor | poisoned | len | chunk => rfl

theorem start_ends (made : StringInterner build) (garbage : Nat → Nat → Nat) (cell : Cell) :
    (start made garbage).histories.Ends cell (initial made garbage cell) :=
  ⟨0, ⟨initial made garbage cell, fun _ => 0, true⟩, rfl, rfl,
    fun _ _ found => (start_eq_some found).1.le⟩

/-- No chunk belongs to a new interner. -/
theorem start_owned (made : StringInterner build) (garbage : Nat → Nat → Nat)
    {shardId chunkIdx ptr : Nat} : ¬ (start made garbage).Owned shardId chunkIdx ptr := by
  rintro (⟨real, stamp, message, found, rfl⟩ | ⟨thread, value, pending, _⟩)
  · exact real (start_eq_some found).2
  · cases pending

/-- Everything of a new interner has been seen. -/
theorem start_seen (made : StringInterner build) (garbage : Nat → Nat → Nat) (view : View Cell)
    (cell : Cell) : (start made garbage).histories.Seen view cell := by
  intro stamp message found
  rw [(start_eq_some found).1]
  exact Nat.zero_le _

/-- A new interner agrees with empty logs. -/
theorem sound_start {made : StringInterner build} (layout : made.Layout Contents.empty)
    (garbage : Nat → Nat → Nat) : (start made garbage).Sound fun _ => Log.empty := by
  constructor
  case made => exact layout
  case shelf =>
    intro shardId inRange
    have other : ∀ cell, (∀ address, cell ≠ .byte address) →
      (∀ ptr slotIdx, cell ≠ .slot ptr slotIdx) →
        ∀ stamp message, (start made garbage).histories cell stamp = some message →
          message.value = 0 := by
      intro cell notByte notSlot stamp message found
      rw [(start_eq_some found).2, initial_eq_zero made garbage notByte notSlot]
    refine ⟨⟨fun _ member => absurd member List.not_mem_nil, Nat.zero_le _, Nat.le_refl _,
      Nat.le_refl _, Nat.le_refl _, Nat.zero_le _, Nat.le_refl _, List.nodup_nil⟩,
      ⟨fun _ _ here => (by cases here)⟩, ⟨?_, start_ends made garbage _, ?_⟩,
      ⟨?_, start_ends made garbage _⟩, ⟨?_, fun _ below => absurd below (Nat.not_lt_zero _)⟩,
      ⟨fun _ _ owned => absurd owned (start_owned made garbage)⟩,
      ⟨rfl, fun _ _ below => absurd below (Nat.not_lt_zero _)⟩⟩
    · intro stamp message found
      refine ⟨0, Nat.le_refl _, other _ (by simp) (by simp) _ _ found, ?_⟩
      exact fun place _ _ => start_seen made garbage _ _
    · intro stamp message later next _ _ here _
      rw [other _ (by simp) (by simp) _ _ here]
      exact Nat.zero_le _
    · intro stamp message found
      rw [other _ (by simp) (by simp) _ _ found, (start_eq_some found).1]
    · intro chunkIdx stamp message found
      exact Or.inl ⟨(start_eq_some found).1, other _ (by simp) (by simp) _ _ found⟩
  case kept =>
    refine fun shardId _ _ => ⟨fun cell _ => start_seen made garbage _ _, rfl, rfl, ?_, ?_⟩
    · exact (Nat.zero_min _).symm
    · exact (Nat.zero_min _).symm
  case fresh => exact fun _ _ _ lock => (by cases lock)
  case locks =>
    refine fun shardId => ⟨fun thread => ?_, fun thread => ?_, List.nodup_nil, fun _ => rfl⟩
    · exact iff_of_false (fun writer => by cases writer) fun lock => by cases lock
    · exact iff_of_false List.not_mem_nil fun lock => by cases lock
  case threads =>
    exact fun thread => ⟨fun _ _ _ memo => (by cases memo),
      fun _ _ held => absurd held List.not_mem_nil, trivial⟩
  case owners => exact fun _ _ _ _ _ owned => absurd owned (start_owned made garbage)
  case bounded => exact fun _ _ _ owned => absurd owned (start_owned made garbage)
  case plain => exact fun _ _ _ found _ => Or.inl (start_eq_some found).1
  case blank => exact fun _ _ _ _ _ found => (start_eq_some found).1
  case header => exact fun address _ stamp message found =>
    ⟨(start_eq_some found).1, (start_eq_some found).2⟩

/-- A run without calls keeps the invariant. -/
theorem Sound.run_quiet {labels : List Label} {last : State build} (sound : state.Sound logs)
    (run : Steps Step state labels last)
    (quiet : ∀ label ∈ labels, ∀ text, label.event ≠ .called text) :
    ∃ grown, last.Sound grown := by
  obtain ⟨grown, lastSound, _⟩ := @Sound.run _ _ _ (fun _ _ _ => True) _ _ sound run
    (fun label member text called => absurd called (quiet label member text))
    (fun _ _ _ _ => trivial) (fun _ _ _ => trivial)
  exact ⟨grown, lastSound⟩

theorem made_of_run {first : State build} {labels : List Label}
    (run : Steps Step first labels state) : state.made = first.made :=
  @Steps.invariant _ _ _ (fun state => state.made = first.made) _ _ _ run rfl
    fun _ _ _ same step => by cases step <;> exact same

/-- Every run from a new interner keeps the invariant. -/
theorem sound_of_run {uninitialised : Memory} {internerId count : Nat}
    {made : StringInterner build} {garbage : Nat → Nat → Nat} {labels : List Label}
    (created : StringInterner.withCapacityAndShards build uninitialised internerId count = .ok made)
    (run : Steps Step (start made garbage) labels state)
    (fits : ∀ label ∈ labels, label.Fits build.profile) : ∃ logs, state.Sound logs := by
  obtain ⟨interner, new, facts⟩ :=
    StringInterner.withCapacityAndShards_ok build uninitialised internerId count
  cases new.symm.trans created
  obtain ⟨logs, sound, _⟩ := @Sound.run _ _ _ (fun _ _ _ => True) _ _
    (sound_start facts.layout garbage) run fits (fun _ _ _ _ => trivial) (fun _ _ _ => trivial)
  exact ⟨logs, sound⟩

end State

end Boomerang.WeakMemory
