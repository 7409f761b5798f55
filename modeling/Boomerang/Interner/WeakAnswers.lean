import Boomerang.Interner.WeakRaces

/-!
# What threads are told

The answers of all threads agree: a string has one symbol and a symbol one string, and no
call is told that a string is missing once another was given its symbol. A reader may be
told that there is no such symbol as long as it has not heard of it, and never when it was
given the symbol itself or by a thread that had it.
-/

namespace Boomerang.WeakMemory

open Foundation

/-- What a step told is true of the logs. -/
def Told {build : Build} (made : StringInterner build) (logs : Nat → Log) : Event → Prop
  | .issued value symbol => ∃ index, Symbol.new (UInt8.ofNat (made.shardOf value)) index =
    .ok symbol ∧
      index < (logs (made.shardOf value)).numbered ∧
      (logs (made.shardOf value)).written[index]? = some value
  | .resolved symbol (some text) => symbol.shardId < made.shardCount ∧
      ∃ index, symbol.index build.profile = .ok index ∧
        (logs symbol.shardId).written[index]? = some text
  | .silent | .called _ | .resolved _ none | .absent _ | .exported _ | .panicked => True

namespace State

variable {build : Build} {state next : State build} {logs grown : Nat → Log} {label : Label}
variable {value : String}

theorem Told.later {event : Event} (told : Told state.made logs event)
    (later : Later state next logs grown) (sound : state.Sound logs) :
    Told next.made grown event := by
  rw [later.made]
  cases event with
  | issued value symbol =>
      obtain ⟨index, numbered, below, here⟩ := told
      have grows := later.grows _ (sound.home_lt value)
      exact ⟨index, numbered, Nat.lt_of_lt_of_le below grows.numbered, grows.getElem? here⟩
  | resolved symbol text =>
      cases text with
      | none => trivial
      | some text =>
          obtain ⟨inRange, index, indexEq, here⟩ := told
          exact ⟨inRange, index, indexEq, (later.grows _ inRange).getElem? here⟩
  | silent | called | absent | exported | panicked => trivial

/-- A symbol that is held is of the string's own shard. -/
theorem Sound.held_home (sound : state.Sound logs) {symbol : Symbol} {view : View Cell}
    (held : Held state.made state.histories logs view symbol value) :
    Told state.made logs (.issued value symbol) := by
  obtain ⟨shardId, index, inRange, numbered, here, knows⟩ := held
  have home := ((sound.shelf shardId inRange).proper value (List.mem_of_getElem? here)).1
  have homeEq : state.made.shardOf value = shardId := home
  exact ⟨index, by rwa [homeEq], by rw [homeEq]; exact knows.numbered, by rwa [homeEq]⟩

/-- A call that read a text tells what is written. -/
theorem Sound.told_finish (sound : state.Sound logs) {thread : Nat} {reading : Reading}
    {text : Option String} (task : (state.locals thread).task = .reading reading)
    (written : ∀ found, text = some found →
      (logs reading.shardId).written[reading.index]? = some found) :
    Told state.made logs (reading.finish text).2 := by
  have taskSound := (sound.threads thread).task
  rw [task] at taskSound
  have reading_ok : ReadingSound _ _ _ _ reading := taskSound
  have reason := reading_ok.reason
  unfold ReasonSound at reason
  unfold Reading.finish
  cases reasonEq : reading.reason with
  | resolve symbol =>
      rw [reasonEq] at reason
      obtain ⟨shardEq, indexEq⟩ := reason
      cases text with
      | none => trivial
      | some found =>
          refine ⟨shardEq ▸ reading_ok.shardId, reading.index, indexEq, ?_⟩
          rw [← shardEq]
          exact written found rfl
  | probe lookup => trivial
  | confirm lookup symbol =>
      cases text with
      | some found => trivial
      | none => cases modeEq : lookup.mode <;> simp [Told, modeEq]

/-- A call that leaves a locked section tells what it found there. -/
theorem Sound.told_leave (sound : state.Sound logs) {thread : Nat} {mode : Mode} {verdict : Verdict}
    (task : (state.locals thread).task = .leaving mode value verdict) :
    Told state.made logs (verdict.event mode value) := by
  have taskSound := (sound.threads thread).task
  rw [task] at taskSound
  obtain ⟨_, _, _, issued⟩ := taskSound
  cases verdict with
  | issue symbol => exact sound.held_home (issued symbol rfl)
  | miss => cases mode <;> trivial
  | panic => trivial

/-- What a step tells is true. -/
theorem Sound.told (sound : state.Sound logs) (step : Step state label next) :
    Told state.made logs label.event := by
  cases step with
  | move moves =>
      cases moves with
      | lenShort task | slotEmpty task => exact sound.told_finish task (fun _ none => by cases none)
      | chunkNull task =>
          dsimp only
          split
          · exact sound.told_finish task (fun _ none => by cases none)
          · trivial
      | chunkOutside task =>
          unfold Reading.fail
          split <;> trivial
      | record task stage headerLength textLength readHeader readText =>
          refine sound.told_finish task ?_
          rintro _ ⟨⟩
          exact (sound.record_text task stage headerLength textLength readHeader readText).1
      | resolve | resolveUnchecked | lenPassed | chunkMemo | chunkLoad | slotLoad | forget | probe
      | found | notFound | poisonedLoad | sizeOverflow | cursorFull | cursorLoad | locateOutside
      | located | installLost | numberOverflow | exportCall | exportCursor | exportCopy => trivial
  | unshare task shared => exact sound.told_leave task
  | unlock task => exact sound.told_leave task
  | sync | share | lock | poison | copy | commit | count | allocate | install | point | number =>
      trivial

/-- A call is told that a string is missing while its shard is locked without it. -/
theorem Sound.absent (sound : state.Sound logs) (step : Step state label next)
    (event : label.event = .absent value) :
    value ∉ (logs (state.home value)).written.take (logs (state.home value)).numbered := by
  cases step with
  | move moves =>
      cases moves with
      | lenShort task | slotEmpty task => exact absurd event (Reading.finish_ne (by simp) (by simp))
      | chunkNull task =>
          dsimp only at event
          split at event
          · exact absurd event (Reading.finish_ne (by simp) (by simp))
          · cases event
      | chunkOutside task =>
          unfold Reading.fail at event
          split at event <;> cases event
      | record task => exact absurd event (Reading.finish_ne (by simp) (by simp))
      | resolve | resolveUnchecked | lenPassed | chunkMemo | chunkLoad | slotLoad | forget | probe
      | found | notFound | poisonedLoad | sizeOverflow | cursorFull | cursorLoad | locateOutside
      | located | installLost | numberOverflow | exportCall | exportCursor | exportCopy =>
          cases event
  | @unshare thread mode text verdict task shared =>
      have taskSound := (sound.threads thread).task
      rw [task] at taskSound
      obtain ⟨_, _, missing, _⟩ := taskSound
      cases verdict with
      | issue | panic => cases event
      | miss =>
          dsimp only [Verdict.event] at event
          split at event
          · cases event
            exact missing rfl
          · cases event
  | @unlock thread text verdict task =>
      cases verdict with
      | issue | panic => cases event
      | miss => cases event
  | sync | share | lock | poison | copy | commit | count | allocate | install | point | number =>
      cases event

/-- A thread that was given a symbol knows what it reads with it. -/
theorem Sound.reader_knows (sound : state.Sound logs) {thread : Nat} {reading : Reading}
    {symbol : Symbol} (task : (state.locals thread).task = .reading reading)
    (reasonEq : reading.reason = .resolve symbol)
    (held : (symbol, value) ∈ (state.locals thread).held) :
    (logs reading.shardId).written[reading.index]? = some value ∧
      Knows state.histories (logs reading.shardId) (state.locals thread).view reading.shardId
        reading.index := by
  obtain ⟨_, indexEq, here, knows⟩ := sound.held_place ((sound.threads thread).held _ _ held)
  have taskSound := (sound.threads thread).task
  rw [task] at taskSound
  have reason := (show ReadingSound _ _ _ _ reading from taskSound).reason
  unfold ReasonSound at reason
  rw [reasonEq] at reason
  obtain ⟨shardEq, found⟩ := reason
  rw [indexEq] at found
  rw [shardEq, ← Except.ok.inj found]
  exact ⟨here, knows⟩

theorem Reading.of_finish {reading : Reading} {text answer : Option String} {symbol : Symbol}
    (told : (reading.finish text).2 = .resolved symbol answer) :
    reading.reason = .resolve symbol ∧ text = answer := by
  unfold Reading.finish at told
  cases reasonEq : reading.reason with
  | resolve other =>
      rw [reasonEq] at told
      cases told
      exact ⟨rfl, rfl⟩
  | probe lookup =>
      rw [reasonEq] at told
      cases told
  | confirm lookup other =>
      rw [reasonEq] at told
      cases text with
      | some found => cases told
      | none => cases modeEq : lookup.mode <;> simp [modeEq] at told

/-- A thread that was given a symbol is told its string. -/
theorem Sound.told_holder (sound : state.Sound logs) (step : Step state label next)
    {symbol : Symbol}
    {text : Option String} (event : label.event = .resolved symbol text)
    (held : (symbol, value) ∈ (state.locals label.thread).held) : text = some value := by
  cases step with
  | move moves =>
      cases moves with
      | lenShort task stage cellEq load short =>
          subst cellEq
          obtain ⟨reasonEq, rfl⟩ := Reading.of_finish event
          exact absurd (sound.reader_knows task reasonEq held).2 (sound.unknown_len task load short)
      | chunkNull task stage inside cellEq load null =>
          subst cellEq
          dsimp only at event
          split at event
          · obtain ⟨reasonEq, rfl⟩ := Reading.of_finish event
            exact absurd (sound.reader_knows task reasonEq held).2
              (sound.unknown_chunk task load null)
          · cases event
      | slotEmpty task stage checked cellEq load zero =>
          subst cellEq
          obtain ⟨reasonEq, rfl⟩ := Reading.of_finish event
          exact absurd (sound.reader_knows task reasonEq held).2
            (sound.unknown_slot task stage load zero)
      | chunkOutside task =>
          unfold Reading.fail at event
          split at event <;> cases event
      | record task stage headerLength textLength readHeader readText =>
          obtain ⟨reasonEq, rfl⟩ := Reading.of_finish event
          have here := (sound.record_text task stage headerLength textLength readHeader readText).1
          exact here.symm.trans (sound.reader_knows task reasonEq held).1
      | resolve | resolveUnchecked | lenPassed | chunkMemo | chunkLoad | slotLoad | forget | probe
      | found | notFound | poisonedLoad | sizeOverflow | cursorFull | cursorLoad | locateOutside
      | located | installLost | numberOverflow | exportCall | exportCursor | exportCopy =>
          cases event
  | unshare task shared =>
    exact absurd event (Verdict.event_ne (by simp) (by simp) (by simp) (by simp))
  | unlock task => exact absurd event (Verdict.event_ne (by simp) (by simp) (by simp) (by simp))
  | sync | share | lock | poison | copy | commit | count | allocate | install | point | number =>
      cases event

/-- A reading for a symbol the thread was given ends with an answer. -/
theorem Sound.answers (sound : state.Sound logs) (timely : state.Timely) {thread : Nat}
    {reading : Reading} {symbol : Symbol} (task : (state.locals thread).task = .reading reading)
    (reasonEq : reading.reason = .resolve symbol)
    (held : (symbol, value) ∈ (state.locals thread).held) :
    ∃ labels before label last, Steps Step state labels before ∧
      labels.length ≤ reading.stage.ahead ∧
      (∀ earlier ∈ labels, earlier.thread = thread ∧ ∀ text, earlier.event ≠ .called text) ∧
      Step before label last ∧ label.thread = thread ∧
      (symbol, value) ∈ (before.locals thread).held ∧
      ∃ text, label.event = .resolved symbol text := by
  generalize aheadEq : reading.stage.ahead = ahead
  induction ahead using Nat.strong_induction_on generalizing state logs reading with
  | _ ahead ih =>
      obtain ⟨event, next, ⟨accesses, step⟩, onward, heldEq, _⟩ := sound.takes_reading timely task
      rcases onward with ⟨stage, closer, rfl, after⟩ | ⟨text, rfl, after⟩ | ⟨outside, _⟩
      · have quiet : ∀ text, Event.silent ≠ .called text := fun _ called => (by cases called)
        obtain ⟨grown, later, nextSound⟩ :=
          sound.step (fun _ called => absurd called (quiet _)) step
        obtain ⟨labels, before, label, last, run, few, alone, final, answer⟩ :=
          ih _ (aheadEq ▸ closer) nextSound (timely.step step later.extends') after reasonEq
            (heldEq ▸ held) rfl
        refine ⟨_, before, label, last, .cons step run, ?_, fun earlier member => ?_, final, answer⟩
        · rw [List.length_cons]
          exact Nat.lt_of_le_of_lt few (aheadEq ▸ closer)
        rcases List.mem_cons.mp member with rfl | rest
        · exact ⟨rfl, quiet⟩
        · exact alone earlier rest
      · refine ⟨[], state, _, next, .refl, Nat.zero_le _,
          fun _ member => absurd member List.not_mem_nil, step, rfl, held, text, ?_⟩
        dsimp only [Reading.finish]
        rw [reasonEq]
      · exact absurd (sound.reader_knows task reasonEq held).2 (sound.unknown_outside task outside)

/-- A thread that calls `resolve` with a symbol it was given comes to an answer. -/
theorem Sound.asks (sound : state.Sound logs) (timely : state.Timely) {thread : Nat}
    {symbol : Symbol} (idle : (state.locals thread).task = .idle)
    (held : (symbol, value) ∈ (state.locals thread).held) :
    ∃ labels before label last, Steps Step state labels before ∧ labels.length ≤ 4 ∧
      (∀ earlier ∈ labels, earlier.thread = thread ∧ ∀ text, earlier.event ≠ .called text) ∧
      Step before label last ∧ label.thread = thread ∧
      (symbol, value) ∈ (before.locals thread).held ∧
      ∃ text, label.event = .resolved symbol text := by
  have quiet : ∀ text, Event.silent ≠ .called text := fun _ called => (by cases called)
  obtain ⟨inRange, indexEq, _, _⟩ := sound.held_place ((sound.threads thread).held _ _ held)
  have asked := Step.move (.resolve idle indexEq inRange)
  obtain ⟨grown, later, nextSound⟩ := sound.step (fun _ called => absurd called (quiet _)) asked
  obtain ⟨labels, before, label, last, run, few, alone, answer⟩ :=
    nextSound.answers (timely.step asked later.extends')
      (congrArg Local.task (setLocal_locals _ _ _)) rfl
      (show (symbol, value) ∈ Local.held _ by rw [setLocal_locals]; exact held)
  refine ⟨_, before, label, last, .cons asked run, Nat.succ_le_succ few, fun earlier member => ?_,
    answer⟩
  rcases List.mem_cons.mp member with rfl | rest
  · exact ⟨rfl, quiet⟩
  · exact alone earlier rest

section Runs

variable {uninitialised : Memory} {internerId count : Nat} {made : StringInterner build}
variable {garbage : Nat → Nat → Nat} {labels : List Label}

/-- What the steps of a run told is true of the log, and what the log has was called. -/
structure Accounts (state : State build) (logs : Nat → Log) (labels : List Label) : Prop extends
    state.AllCalled logs labels where
  told : ∀ event ∈ labels.map Label.event, Told state.made logs event

theorem Accounts.step (accounts : state.Accounts logs labels) (sound : state.Sound logs)
    (step : Step state label next) (later : Later state next logs grown) :
    next.Accounts grown (labels ++ [label]) := by
  refine ⟨accounts.toAllCalled.step step later, fun event member => ?_⟩
  rw [List.map_append] at member
  rcases List.mem_append.mp member with earlier | last
  · exact Told.later (accounts.told event earlier) later sound
  · rw [List.map_singleton, List.mem_singleton] at last
    exact last ▸ Told.later (sound.told step) later sound

/-- A run that goes on keeps the strings the shards have. -/
theorem Accounts.run (accounts : state.Accounts logs labels) (sound : state.Sound logs)
    {more : List Label} (run : Steps Step state more next)
    (fits : ∀ label ∈ more, label.Fits build.profile) :
    ∃ grown, next.Sound grown ∧ next.Accounts grown (labels ++ more) ∧
      ∀ shardId < state.made.shardCount, (logs shardId).written <+: (grown shardId).written := by
  obtain ⟨grown, nextSound, _, all, growth⟩ := @Sound.run_along _ _ _
    (fun later grown more => later.made = state.made ∧ later.Accounts grown (labels ++ more) ∧
      ∀ shardId < state.made.shardCount, (logs shardId).written <+: (grown shardId).written)
    _ _ sound run fits ⟨rfl, by rwa [List.append_nil], fun _ _ => List.prefix_rfl⟩
    (fun before step later _ ⟨made, all, growth⟩ => by
      refine ⟨later.made.trans made, ?_, fun shardId inRange => ?_⟩
      · rw [← List.append_assoc]
        exact all.step before step later
      · exact (growth shardId inRange).trans (later.grows shardId (made ▸ inRange)).written)
  exact ⟨grown, nextSound, all, growth⟩

/-- A run from a new interner has a log that its labels account for. -/
theorem accounts_of_run
    (created : StringInterner.withCapacityAndShards build uninitialised internerId count = .ok made)
    (run : Steps Step (start made garbage) labels state)
    (fits : ∀ label ∈ labels, label.Fits build.profile) :
    ∃ logs, state.Sound logs ∧ state.Accounts logs labels := by
  obtain ⟨interner, new, facts⟩ :=
    StringInterner.withCapacityAndShards_ok build uninitialised internerId count
  cases new.symm.trans created
  have first : (start made garbage).Accounts (fun _ => Log.empty) [] :=
    ⟨allCalled_start made garbage, fun _ member => absurd member List.not_mem_nil⟩
  obtain ⟨logs, sound, accounts, _⟩ := first.run (sound_start facts.layout garbage) run fits
  exact ⟨logs, sound, accounts⟩

/-- What the steps of a run told is true at its end. -/
theorem told_of_run
    (created : StringInterner.withCapacityAndShards build uninitialised internerId count = .ok made)
    (run : Steps Step (start made garbage) labels state)
    (fits : ∀ label ∈ labels, label.Fits build.profile) :
    ∃ logs, state.Sound logs ∧ ∀ event ∈ labels.map Label.event, Told state.made logs event := by
  obtain ⟨logs, sound, accounts⟩ := accounts_of_run created run fits
  exact ⟨logs, sound, accounts.told⟩

/-- A symbol that was issued leads to the place of its string. -/
theorem Sound.issued_place (sound : state.Sound logs) {symbol : Symbol}
    (told : Told state.made logs (.issued value symbol)) :
    symbol.index build.profile = .ok symbol.issuedIndex ∧
      (logs symbol.shardId).written[symbol.issuedIndex]? = some value := by
  obtain ⟨index, numbered, _, here⟩ := told
  have shardEq : symbol.shardId = state.home value := by
    rw [Symbol.shardId_of_new numbered, sound.made.toNat_shardId (sound.home_lt value)]
  rw [shardEq, Symbol.issuedIndex_of_new numbered]
  exact ⟨Symbol.index_of_new _ numbered, here⟩

/-- A string is issued one symbol. -/
theorem Sound.issued_once (sound : state.Sound logs) {symbol other : Symbol}
    (told : Told state.made logs (.issued value symbol))
    (otherTold : Told state.made logs (.issued value other)) : symbol = other := by
  obtain ⟨index, numbered, below, here⟩ := told
  obtain ⟨otherIndex, otherNumbered, otherBelow, otherHere⟩ := otherTold
  have distinct := (sound.shelf _ (sound.home_lt value)).distinct
  have taken := (List.getElem?_take_of_lt below).trans here
  have otherTaken := (List.getElem?_take_of_lt otherBelow).trans otherHere
  have same : index = otherIndex :=
    (List.getElem?_inj (List.getElem?_eq_some_iff.mp taken).1 distinct).mp
      (taken.trans otherTaken.symm)
  subst same
  exact Except.ok.inj (numbered.symm.trans otherNumbered)

/-- All answers of a run agree: strings and symbols are issued one to one, and a symbol
that resolves to a string resolves to the one it was or will be issued for, and to no
other. -/
theorem answers_agree
    (created : StringInterner.withCapacityAndShards build uninitialised internerId count = .ok made)
    (run : Steps Step (start made garbage) labels state)
    (fits : ∀ label ∈ labels, label.Fits build.profile) :
    (∀ value symbol other otherSymbol, .issued value symbol ∈ labels.map Label.event →
      .issued other otherSymbol ∈ labels.map Label.event → (value = other ↔ symbol = otherSymbol)) ∧
      ∀ symbol text, .resolved symbol (some text) ∈ labels.map Label.event →
        (∀ value, .issued value symbol ∈ labels.map Label.event → text = value) ∧
          ∀ other, .resolved symbol (some other) ∈ labels.map Label.event → text = other := by
  obtain ⟨logs, sound, told⟩ := told_of_run created run fits
  refine ⟨fun value symbol other otherSymbol issued otherIssued => ⟨?_, ?_⟩, ?_⟩
  · rintro rfl
    exact sound.issued_once (told _ issued) (told _ otherIssued)
  · rintro rfl
    have here := (sound.issued_place (told _ issued)).2
    have otherHere := (sound.issued_place (told _ otherIssued)).2
    exact Option.some.inj (here.symm.trans otherHere)
  · intro symbol text resolved
    obtain ⟨_, index, indexEq, here⟩ := told _ resolved
    refine ⟨fun value issued => ?_, fun other otherResolved => ?_⟩
    · obtain ⟨issuedEq, written⟩ := sound.issued_place (told _ issued)
      rw [← Except.ok.inj (indexEq.symm.trans issuedEq)] at written
      exact Option.some.inj (here.symm.trans written)
    · obtain ⟨_, otherIndex, otherEq, otherHere⟩ := told _ otherResolved
      rw [← Except.ok.inj (indexEq.symm.trans otherEq)] at otherHere
      exact Option.some.inj (here.symm.trans otherHere)

/-- A thread that was handed the symbol of a string resolves it, and no answer gives it
another string. -/
theorem answers_agree_interned :
    ∃ (made : StringInterner ⟨.debug, fun _ => 0⟩) (labels more : List Label)
      (state last : State ⟨.debug, fun _ => 0⟩) (symbol : Symbol),
      Meeting made (fun _ _ => 7) "cd" "ab" labels state symbol ∧ Steps Step state more last ∧
      (∃ label ∈ more, label.thread = 2 ∧ ∃ text, label.event = .resolved symbol text) ∧
      (∀ other, .issued "ab" other ∈ (labels ++ more).map Label.event → other = symbol) ∧
      ∀ text, .resolved symbol (some text) ∈ (labels ++ more).map Label.event → text = "ab" := by
  obtain ⟨made, created, _, labels, state, symbol, meeting⟩ := exists_meeting_letters
  obtain ⟨logs, sound, timely⟩ := Reaches.invariants ⟨labels, meeting.run, meeting.fits⟩ created
  obtain ⟨more, before, label, last, rest, _, alone, answer, isThread, _, text, told⟩ :=
    sound.asks timely (meeting.idle 2 (by decide)) meeting.held
  have quiet := quiet_concat (fun other listed => (alone other listed).2) (by rw [told]; simp)
  have agree := answers_agree created (meeting.run.trans (rest.step answer))
    (fits_append meeting.fits quiet)
  have issued : .issued "ab" symbol ∈ (labels ++ (more ++ [label])).map Label.event := by
    rw [List.map_append]
    exact List.mem_append_left _ meeting.issued
  exact ⟨made, labels, more ++ [label], state, last, symbol, meeting, rest.step answer,
    ⟨label, by simp, isThread, text, told⟩,
    fun other otherIssued => ((agree.1 _ _ _ _ otherIssued issued).mp rfl),
    fun text resolved => (agree.2 symbol text resolved).1 "ab" issued⟩

/-- No call is told that a string is missing once its symbol was issued. -/
theorem absent_before_issued
    (created : StringInterner.withCapacityAndShards build uninitialised internerId count = .ok made)
    (run : Steps Step (start made garbage) labels state)
    (fits : ∀ label ∈ labels, label.Fits build.profile) (step : Step state label next)
    (event : label.event = .absent value) (symbol : Symbol) :
    .issued value symbol ∉ labels.map Label.event := by
  obtain ⟨logs, sound, told⟩ := told_of_run created run fits
  intro issued
  obtain ⟨index, _, below, here⟩ := told _ issued
  exact sound.absent step event
    (List.mem_of_getElem? ((List.getElem?_take_of_lt below).trans here))

/-- A thread that was handed the symbol of one string asks for another one, which is
missing. -/
theorem absent_before_issued_new :
    ∃ (made : StringInterner ⟨.debug, fun _ => 0⟩) (labels more : List Label)
      (state left next : State ⟨.debug, fun _ => 0⟩) (symbol : Symbol) (label : Label),
      Meeting made (fun _ _ => 7) "cd" "ab" labels state symbol ∧ Steps Step state more left ∧
      Step left label next ∧ label.thread = 2 ∧ label.event = .absent "ef" ∧
      ∀ other, .issued "ef" other ∉ (labels ++ more).map Label.event := by
  obtain ⟨made, created, ⟨first, second, third⟩, labels, state, symbol, meeting⟩ :=
    exists_meeting_letters
  have reached : Reaches made (fun _ _ => 7) state := ⟨labels, meeting.run, meeting.fits⟩
  have proper : Proper .debug "ef" := ⟨by decide, Or.inl rfl⟩
  have untaken : state.Untaken 2 "ef" := meeting.untaken created
    (by rw [second, third]; decide) (by rw [first, third]; decide)
  have free := untaken.lock_free created reached proper (.refl state) (by rw [untaken.idle]; rfl)
  have asking := (Comes.refl state).step (@Step.share _ _ _ .get "ef" untaken.idle (by simp)
    proper.notStatic free.1) rfl fun _ called => (Event.called.inj called).symm
  obtain ⟨left, comes, task, _⟩ :=
    asking.missing (by rw [setLock_locals]; rfl) (show State.tableOf _ "ef" = [] from untaken.empty)
  obtain ⟨more, run, own⟩ := comes
  have told := @Step.unshare _ left 2 .get "ef" .miss task (by simp)
  have fits : ∀ label ∈ labels ++ more, label.Fits .debug := by
    intro label member text called
    exact Or.inl rfl
  exact ⟨made, labels, more, state, left, _, symbol, _, meeting, run, told, rfl, rfl,
    absent_before_issued created (meeting.run.trans run) fits told rfl⟩

/-- A thread that was given a symbol, by a call of its own or by a thread it waited for,
resolves it to its string: `resolve` does not answer that there is none. -/
theorem holder_resolves
    (created : StringInterner.withCapacityAndShards build uninitialised internerId count = .ok made)
    (run : Steps Step (start made garbage) labels state)
    (fits : ∀ label ∈ labels, label.Fits build.profile) (step : Step state label next)
    {symbol : Symbol} {text : Option String} (event : label.event = .resolved symbol text)
    (held : (symbol, value) ∈ (state.locals label.thread).held) : text = some value := by
  obtain ⟨logs, sound, _⟩ := told_of_run created run fits
  exact sound.told_holder step event held

/-- The thread that was handed the symbol resolves it. -/
theorem holder_resolves_interned :
    ∃ (made : StringInterner ⟨.debug, fun _ => 0⟩) (labels more : List Label)
      (state before last : State ⟨.debug, fun _ => 0⟩) (symbol : Symbol) (label : Label),
      Meeting made (fun _ _ => 7) "cd" "ab" labels state symbol ∧ Steps Step state more before ∧
      Step before label last ∧ label.thread = 2 ∧ label.event = .resolved symbol (some "ab") := by
  obtain ⟨made, created, _, labels, state, symbol, meeting⟩ := exists_meeting_letters
  obtain ⟨logs, sound, timely⟩ := Reaches.invariants ⟨labels, meeting.run, meeting.fits⟩ created
  obtain ⟨more, before, label, last, rest, _, alone, answer, isThread, stillHeld, text, told⟩ :=
    sound.asks timely (meeting.idle 2 (by decide)) meeting.held
  have fits := fits_append meeting.fits fun other listed => (alone other listed).2
  refine ⟨made, labels, more, state, before, last, symbol, label, meeting, rest, answer,
    isThread, ?_⟩
  rw [told,
    holder_resolves created (meeting.run.trans rest) fits answer told (isThread ▸ stillHeld)]

/-- `resolve` of a symbol a thread was given waits for no other thread: wherever they have
stopped, the thread is told the string after at most five steps of its own. -/
theorem holder_answered
    (created : StringInterner.withCapacityAndShards build uninitialised internerId count = .ok made)
    (run : Steps Step (start made garbage) labels state)
    (fits : ∀ label ∈ labels, label.Fits build.profile) {thread : Nat} {symbol : Symbol}
    (idle : (state.locals thread).task = .idle)
    (held : (symbol, value) ∈ (state.locals thread).held) :
    ∃ more last, Steps Step state more last ∧ more.length ≤ 5 ∧
      (∀ label ∈ more, label.thread = thread) ∧
      .resolved symbol (some value) ∈ more.map Label.event := by
  obtain ⟨logs, sound, timely⟩ := Reaches.invariants ⟨labels, run, fits⟩ created
  obtain ⟨more, before, label, last, rest, few, alone, answer, isThread, stillHeld, text, told⟩ :=
    sound.asks timely idle held
  obtain ⟨grown, beforeSound⟩ := sound.run_quiet rest fun label member => (alone label member).2
  rw [beforeSound.told_holder answer told (isThread ▸ stillHeld)] at told
  refine ⟨_, last, .step rest answer, ?_, fun other member => ?_, by simp [told]⟩
  · rw [List.length_append, List.length_singleton]
    exact Nat.succ_le_succ few
  rcases List.mem_append.mp member with earlier | final
  · exact (alone other earlier).1
  · rw [List.mem_singleton.mp final, isThread]

/-- A thread that was handed a symbol is told its string while another one stands still
inside a write-locked section. -/
theorem holder_answered_interned :
    ∃ (made : StringInterner ⟨.debug, fun _ => 0⟩) (labels : List Label)
      (state : State ⟨.debug, fun _ => 0⟩) (symbol : Symbol),
      Meeting made (fun _ _ => 7) "cd" "ab" labels state symbol ∧
      ∃ more last, Steps Step state more last ∧ more.length ≤ 5 ∧
        (∀ label ∈ more, label.thread = 2) ∧
        .resolved symbol (some "ab") ∈ more.map Label.event := by
  obtain ⟨made, created, _, labels, state, symbol, meeting⟩ := exists_meeting_letters
  exact ⟨made, labels, state, symbol, meeting,
    holder_answered created meeting.run meeting.fits (meeting.idle 2 (by decide)) meeting.held⟩

end Runs

end State

end Boomerang.WeakMemory
