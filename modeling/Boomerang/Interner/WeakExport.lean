import Boomerang.Interner.WeakAnswers
import Boomerang.Interner.Serialization

/-!
# Exports while other threads insert

`committed_bytes` takes no lock. The cursors it acquires release the records below them,
so the bytes it copies are whole records: the first strings of every shard, and among them
every string whose symbol the exporting thread had.
-/

namespace Boomerang

open Foundation

/-- The records of several parts, one after the other. -/
theorem Records.flatten {parts : List (List UInt8)} {values : Nat → List String}
    (each : ∀ part raw, parts[part]? = some raw → Records raw (values part)) :
    Records parts.flatten ((List.range parts.length).flatMap values) := by
  induction parts using List.reverseRecOn with
  | nil => exact .nil
  | append_singleton parts last ih =>
      rw [List.flatten_append, List.flatten_singleton, List.length_append, List.length_singleton,
        List.range_succ, List.flatMap_append, List.flatMap_singleton]
      refine (ih fun part raw here => each part raw ?_).append (each parts.length last ?_)
      · rw [List.getElem?_append_left (List.getElem?_eq_some_iff.mp here).1, here]
      · exact List.getElem?_concat_length

namespace WeakMemory.State

variable {build : Build} {state next : State build} {logs : Nat → Log} {label : Label}
variable {shardId count : Nat} {view : View Cell} {log : Log} {raw : List UInt8}

/-- Plain reads of a shard's first records, all of them seen, are those records. -/
theorem Shelf.records_read (shelf : state.Shelf shardId log)
    (within : count ≤ log.written.length) (length : raw.length = log.sizeTo count)
    (covers : Covers state.histories view (state.base shardId) (log.sizeTo count))
    (reads : state.ReadsBytes view (state.base shardId) raw) :
    Records raw (log.written.take count) := by
  induction count generalizing raw with
  | zero =>
      rw [List.eq_nil_of_length_eq_zero (length.trans (by rfl))]
      exact .nil
  | succ count ih =>
      have here := List.getElem?_eq_getElem within
      have size := log.sizeTo_succ here
      have short := (shelf.proper _ (List.mem_of_getElem? here)).2.2
      have bound := length_recordBytes log.written[count]
      rw [List.take_add_one, here, ← List.take_append_drop (log.sizeTo count) raw]
      refine (ih (Nat.le_of_lt within) ?_ (covers.shrink (by omega)) (reads.take _)).append
        (.single
          ⟨?_, (raw.drop (log.sizeTo count)).drop (recordBytes log.written[count]).length, ?_⟩)
      · rw [List.length_take]
        omega
      · rw [List.length_drop]
        omega
      · have drop := reads.drop (log.sizeTo count)
        have record := @Shelf.reads_eq _ _ _ _ _ _ shelf _ 0
          ((raw.drop (log.sizeTo count)).take (recordBytes log.written[count]).length) here covers
          (drop.take _) (by rw [List.length_take]; omega)
        rw [List.drop_zero, List.length_take, List.length_drop,
          Nat.min_eq_left (by omega), List.take_length] at record
        rw [← List.append_assoc, ← recordBytes_eq short]
        exact (List.take_append_drop _ _).symm.trans (congrArg (· ++ _) record)

/-- The first bytes of the arena are read as the shard count. -/
theorem Sound.header_read (sound : state.Sound logs) {header : List UInt8}
    (length : header.length = state.made.pool.headerSize)
    (reads : state.ReadsBytes view 0 header) : header = toLE 4 state.made.shardCount := by
  have four := sound.made.sized.header
  rw [← sound.made.header]
  refine List.ext_getElem (by rw [length, MemoryPool.headerBytes, Memory.length_read]) ?_
  intro position inside other
  obtain ⟨stamp, message, load, valueEq⟩ := reads position _ (List.getElem?_eq_getElem inside)
  have same := (sound.header (0 + position) (by omega) stamp message load.found).2
  have byteEq := UInt8.toNat_inj.mp (valueEq.symm.trans same)
  simpa [MemoryPool.headerBytes, Memory.read] using byteEq

/-- An export is the shard count and the records of the first strings of every shard. -/
theorem Sound.exported (sound : state.Sound logs) (step : Step state label next)
    {out : List UInt8} (event : label.event = .exported out) :
    ∃ (contents : Contents) (body : List UInt8), out = toLE 4 state.made.shardCount ++ body ∧
      Records body ((List.range state.made.shardCount).flatMap contents) ∧
      (∀ shardId < state.made.shardCount, contents shardId <+: (logs shardId).written) ∧
      ∀ symbol value, (symbol, value) ∈ (state.locals label.thread).held →
        (contents symbol.shardId)[symbol.issuedIndex]? = some value := by
  cases step with
  | @move thread _ _ _ moves =>
      cases moves with
      | lenShort task | slotEmpty task | record task =>
          exact absurd event (Reading.finish_ne (by simp) (by simp))
      | chunkNull task =>
          dsimp only at event
          split at event
          · exact absurd event (Reading.finish_ne (by simp) (by simp))
          · cases event
      | chunkOutside task =>
          unfold Reading.fail at event
          split at event <;> cases event
      | @exportCopy used header parts task all headerLength readHeader lengths readParts =>
          cases event
          have taskSound := (sound.threads thread).task
          rw [task] at taskSound
          have exporting : ExportSound _ _ _ _ _ used := taskSound
          have partsLength : parts.length = state.made.shardCount := by
            rw [← all, ← lengths, List.length_map]
          have each : ∀ shardId < state.made.shardCount, ∃ count ≤ (logs shardId).committed,
              ∃ raw, parts[shardId]? = some raw ∧
                Records raw ((logs shardId).written.take count) ∧
                ∀ symbol value index, (symbol, value) ∈ (state.locals thread).held →
                  Symbol.new (UInt8.ofNat shardId) index = .ok symbol → index < count := by
            intro shardId inRange
            have here :=
              List.getElem?_eq_getElem (partsLength.symm ▸ inRange : shardId < parts.length)
            have loaded : used[shardId]? = some parts[shardId].length := by
              rw [← lengths, List.getElem?_map, here]
              rfl
            obtain ⟨count, committed, sizeEq, covers, includes⟩ := exporting.loaded _ _ loaded
            have shelf := sound.shelf _ inRange
            rw [sizeEq] at covers
            exact ⟨count, committed, _, here, shelf.records_read
              (Nat.le_trans committed shelf.committed_le) sizeEq covers (readParts _ _ here),
                includes⟩
          choose! counts committed raw here records includes using each
          refine ⟨fun shardId => (logs shardId).written.take (counts shardId), parts.flatten,
            by rw [sound.header_read headerLength readHeader], ?_,
            fun shardId _ => List.take_prefix _ _, ?_⟩
          · rw [← partsLength]
            refine Records.flatten fun shardId found isPart => ?_
            have inRange := partsLength ▸ (List.getElem?_eq_some_iff.mp isPart).1
            rw [here shardId inRange] at isPart
            cases isPart
            exact records shardId inRange
          · intro symbol value held
            obtain ⟨shardId, index, inRange, numbered, written, _⟩ :=
              (sound.threads thread).held _ _ held
            rw [Symbol.shardId_of_new numbered, sound.made.toNat_shardId inRange,
              Symbol.issuedIndex_of_new numbered,
              List.getElem?_take_of_lt (includes shardId inRange _ _ _ held numbered)]
            exact written
      | resolve | resolveUnchecked | lenPassed | chunkMemo | chunkLoad | slotLoad | forget | probe
      | found | notFound | poisonedLoad | sizeOverflow | cursorFull | cursorLoad | locateOutside
      | located | installLost | numberOverflow | exportCall | exportCursor =>
          cases event
  | unshare task shared =>
    exact absurd event (Verdict.event_ne (by simp) (by simp) (by simp) (by simp))
  | unlock task => exact absurd event (Verdict.event_ne (by simp) (by simp) (by simp) (by simp))
  | sync | share | lock | poison | copy | commit | count | allocate | install | point | number =>
      cases event

/-- A thread that may write to a shard inserts a string, or has left it settled. -/
theorem settled_or_underway {made : StringInterner build} {histories : Histories Cell}
    {held : List (Symbol × String)} {task : Task}
    (taskSound : TaskSound made histories logs view held task)
    (lock : task.lock made.shardOf = some (shardId, true)) :
    (logs shardId).Settled ∨ ∃ value index committed counted stored,
      made.shardOf value = shardId ∧ Underway made logs value index committed counted stored := by
  cases task with
  | idle | missed | exporting | crashed => cases lock
  | looking lookup =>
      simp only [Task.lock, Option.some.injEq, Prod.mk.injEq, decide_eq_true_eq] at lock
      exact Or.inl (lock.1 ▸ LookupSound.settled taskSound lock.2)
  | leaving mode value verdict =>
      simp only [Task.lock, Option.some.injEq, Prod.mk.injEq, decide_eq_true_eq] at lock
      exact Or.inl (lock.1 ▸ taskSound.2.1 lock.2)
  | reading call =>
      have reason := (show ReadingSound _ _ _ _ call from taskSound).reason
      unfold ReasonSound at reason
      cases reasonEq : call.reason with
      | resolve symbol =>
          simp only [Task.lock, reasonEq] at lock
          cases lock
      | probe lookup | confirm lookup symbol =>
          rw [reasonEq] at reason
          simp only [Task.lock, reasonEq, Option.some.injEq, Prod.mk.injEq,
            decide_eq_true_eq] at lock
          exact Or.inl (lock.1 ▸ reason.1.settled lock.2)
  | inserting value stage =>
      cases lock
      obtain ⟨_, _, insertion⟩ := taskSound
      cases stage with
      | poisoned | space | refuse | copy => exact Or.inl insertion.1
      | commit | count =>
          obtain ⟨index, underway, _⟩ := insertion
          exact Or.inr ⟨value, index, _, _, _, rfl, underway⟩
      | locate | install | point | number =>
          exact Or.inr ⟨value, _, _, _, _, rfl, insertion.1⟩

/-- A string is written once, as long as its shard has symbols left. -/
theorem Sound.distinct (sound : state.Sound logs) (inRange : shardId < state.made.shardCount) :
    ((logs shardId).written.take Symbol.indexMask.toNat).Nodup := by
  have distinct := (sound.shelf shardId inRange).distinct
  have whole : (logs shardId).Settled ∨ ∃ value index committed counted stored,
      state.made.shardOf value = shardId ∧
        Underway state.made logs value index committed counted stored := by
    cases writer : (state.locks shardId).writer with
    | none => exact Or.inl (sound.kept shardId inRange writer).2
    | some thread =>
        exact settled_or_underway (sound.threads thread).task
          (((sound.locks shardId).writer thread).mp writer)
  rcases whole with settled | ⟨value, index, _, _, _, rfl, underway⟩
  · rw [settled.numbered, Nat.min_comm, ← List.take_eq_take_min] at distinct
    exact distinct
  · have fresh := underway.fresh
    obtain ⟨before, written, rfl⟩ := underway.written
    rw [underway.numbered, written] at distinct fresh
    rw [written]
    rcases Nat.lt_or_ge before.length Symbol.indexMask.toNat with below | above
    · rw [Nat.min_eq_left (Nat.le_of_lt below), List.take_left] at distinct fresh
      rw [List.take_of_length_le (by rw [List.length_append, List.length_singleton]; exact below)]
      exact distinct.append (List.nodup_singleton value) (List.disjoint_singleton.mpr fresh)
    · rwa [Nat.min_eq_right above] at distinct

/-- Fronts of what the shards were written can be stored again, unless they are longer
than a shard has symbols. -/
theorem Sound.parts (sound : state.Sound logs) {contents : Contents}
    (start : ∀ shardId < state.made.shardCount, contents shardId <+: (logs shardId).written)
    (indexRoom : ∀ shardId < state.made.shardCount,
      (contents shardId).length ≤ Symbol.indexMask.toNat) : state.made.Parts contents := by
  constructor
  case home =>
    intro shardId inRange value here
    exact ((sound.shelf shardId inRange).proper value ((start shardId inRange).subset here)).1
  case proper =>
    intro shardId inRange value here
    exact ((sound.shelf shardId inRange).proper value ((start shardId inRange).subset here)).2
  case room =>
    intro shardId inRange
    obtain ⟨rest, whole⟩ := start shardId inRange
    have room := (sound.shelf shardId inRange).room
    rw [← whole, recordsSize_append] at room
    omega
  case indexRoom => exact indexRoom
  case distinct =>
    intro shardId inRange
    refine List.Sublist.nodup ?_ (sound.distinct inRange)
    have part := (start shardId inRange).take Symbol.indexMask.toNat
    rw [List.take_of_length_le (indexRoom shardId inRange)] at part
    exact part.sublist

/-- An export that has begun comes to an end. -/
theorem Sound.exports (sound : state.Sound logs) (timely : state.Timely) {thread : Nat}
    {used : List Nat} (task : (state.locals thread).task = .exporting used) :
    ∃ labels before label last out, Steps Step state labels before ∧
      (∀ earlier ∈ labels, ∀ text, earlier.event ≠ .called text) ∧
      Step before label last ∧ label.thread = thread ∧ label.event = .exported out ∧
      (before.locals thread).held = (state.locals thread).held := by
  generalize leftEq : state.made.shardCount - used.length = left
  induction left using Nat.strong_induction_on generalizing state logs used with
  | _ left ih =>
      have taskSound := (sound.threads thread).task
      rw [task] at taskSound
      have bounded := (show ExportSound _ _ _ _ _ _ from taskSound).length
      rcases timely.takes_export task bounded with
        ⟨next, size, ⟨accesses, step⟩, after, more, heldEq⟩ | ⟨next, out, ⟨accesses, step⟩, _⟩
      · have quiet : ∀ text, Event.silent ≠ .called text := fun _ called => (by cases called)
        obtain ⟨grown, later, nextSound⟩ :=
          sound.step (fun _ called => absurd called (quiet _)) step
        obtain ⟨labels, before, label, last, out, run, alone, final, own, told, same⟩ :=
          ih _ (by rw [later.made, List.length_append, List.length_singleton]; omega) nextSound
            (timely.step step later.extends') after rfl
        refine ⟨_, before, label, last, out, .cons step run, fun earlier member => ?_, final,
          own, told, same.trans heldEq⟩
        rcases List.mem_cons.mp member with rfl | rest
        · exact quiet
        · exact alone earlier rest
      · exact ⟨[], state, _, next, out, .refl, fun _ member => absurd member List.not_mem_nil,
          step, rfl, rfl, rfl⟩

/-- What an export holds: whole records of strings that were called, each in its own shard
and once, and the string of every symbol that the exporting thread had at its place. -/
structure Snapshot (made : StringInterner build) (labels : List Label)
    (held : List (Symbol × String)) (contents : Contents) (out : List UInt8) : Prop where
  records : ∃ body, out = toLE 4 made.shardCount ++ body ∧
    Records body ((List.range made.shardCount).flatMap contents)
  called : ∀ shardId < made.shardCount, ∀ value ∈ contents shardId,
    made.shardOf value = shardId ∧ .called value ∈ labels.map Label.event
  once : ∀ shardId < made.shardCount, ((contents shardId).take Symbol.indexMask.toNat).Nodup
  held : ∀ symbol value, (symbol, value) ∈ held →
    (contents symbol.shardId)[symbol.issuedIndex]? = some value

/-- When fewer strings were called than a shard has symbols, no shard has more of them. -/
theorem Snapshot.indexRoom {made : StringInterner build} {labels : List Label}
    {held : List (Symbol × String)} {contents : Contents} {out : List UInt8} {calls : List String}
    (snapshot : Snapshot made labels held contents out)
    (called : ∀ text, .called text ∈ labels.map Label.event → text ∈ calls)
    (few : calls.length < Symbol.indexMask.toNat) :
    ∀ shardId < made.shardCount, (contents shardId).length ≤ Symbol.indexMask.toNat := by
  intro shardId inRange
  by_contra more
  have among : (contents shardId).take Symbol.indexMask.toNat ⊆ calls := fun value member =>
    called value (snapshot.called shardId inRange value (List.mem_of_mem_take member)).2
  have bound := ((snapshot.once shardId inRange).subperm among).length_le
  rw [List.length_take] at bound
  omega

/-- First strings of the shards are at the places of the symbols they were issued. -/
theorem Sound.issued_prefix (sound : state.Sound logs) {contents : Contents} {symbol : Symbol}
    {value : String} (told : Told state.made logs (.issued value symbol))
    (start : ∀ shardId < state.made.shardCount, contents shardId <+: (logs shardId).written) :
    (contents symbol.shardId).length ≤ symbol.issuedIndex ∨
      (contents symbol.shardId)[symbol.issuedIndex]? = some value := by
  have here := (sound.issued_place told).2
  obtain ⟨index, numbered, _⟩ := told
  have inRange : symbol.shardId < state.made.shardCount := by
    rw [Symbol.shardId_of_new numbered, sound.made.toNat_shardId (sound.home_lt value)]
    exact sound.home_lt value
  rcases Nat.lt_or_ge symbol.issuedIndex (contents symbol.shardId).length with inside | past
  · obtain ⟨rest, whole⟩ := start _ inRange
    rw [← whole, List.getElem?_append_left inside] at here
    exact Or.inr here
  · exact Or.inl past

/-- Whatever other threads insert meanwhile, and without a lock: the bytes a thread exports
are the shard count and the records of first strings of every shard. A symbol that any call
is issued, before the export or after it, is past them or its string is at its place. Unless
a shard has more of them than symbols, `from_bytes` makes of them an interner that resolves
every symbol the thread was given to its string. -/
theorem exported_rebuilds {uninitialised memory : Memory} {internerId rebuiltId count : Nat}
    {made : StringInterner build} {garbage : Nat → Nat → Nat} {labels : List Label}
    (created : StringInterner.withCapacityAndShards build uninitialised internerId count = .ok made)
    (run : Steps Step (start made garbage) labels state)
    (fits : ∀ label ∈ labels, label.Fits build.profile) (step : Step state label next)
    {out : List UInt8} (event : label.event = .exported out) :
    ∃ contents : Contents,
      Snapshot made labels (state.locals label.thread).held contents out ∧
      (∀ more last, Steps Step next more last → (∀ other ∈ more, other.Fits build.profile) →
        ∀ value symbol, .issued value symbol ∈ (labels ++ more).map Label.event →
          (contents symbol.shardId).length ≤ symbol.issuedIndex ∨
            (contents symbol.shardId)[symbol.issuedIndex]? = some value) ∧
      ((∀ shardId < made.shardCount, (contents shardId).length ≤ Symbol.indexMask.toNat) →
        ∃ rebuilt, StringInterner.fromBytes build memory rebuiltId out = .ok rebuilt ∧
          ∀ symbol value, (symbol, value) ∈ (state.locals label.thread).held →
            rebuilt.resolve symbol = .ok (some value)) := by
  obtain ⟨logs, sound, accounts⟩ := accounts_of_run created run fits
  have sameMade : state.made = made := made_of_run run
  obtain ⟨contents, body, outEq, records, start, held⟩ := sound.exported step event
  obtain ⟨interner, new, facts⟩ :=
    StringInterner.withCapacityAndShards_ok build uninitialised internerId count
  cases new.symm.trans created
  refine ⟨contents, ⟨⟨body, sameMade ▸ outEq, sameMade ▸ records⟩, ?_, ?_, held⟩, ?_, ?_⟩
  · intro shardId inRange value member
    rw [← sameMade] at inRange
    have written := (start shardId inRange).subset member
    have home := ((sound.shelf shardId inRange).proper value written).1
    rw [State.home, sameMade] at home
    exact ⟨home, accounts.written shardId value written⟩
  · intro shardId inRange
    rw [← sameMade] at inRange
    exact ((start shardId inRange).take _).sublist.nodup (sound.distinct inRange)
  · intro more last onward fit value symbol issued
    have fitsOn : ∀ other ∈ label :: more, other.Fits build.profile := by
      intro other member text called
      rcases List.mem_cons.mp member with rfl | later
      · rw [event] at called
        cases called
      · exact fit other later text called
    obtain ⟨grown, lastSound, told, growth⟩ := accounts.run sound (.cons step onward) fitsOn
    have lastMade : last.made = state.made := made_of_run (.cons step onward)
    refine lastSound.issued_prefix (told.told _ ?_) fun shardId inRange => ?_
    · rw [List.map_append] at issued ⊢
      exact List.mem_append.mpr ((List.mem_append.mp issued).imp_right (List.mem_cons_of_mem _))
    · rw [lastMade] at inRange
      exact (start shardId inRange).trans (growth shardId inRange)
  · intro indexRoom
    rw [sameMade] at outEq records start
    have homeEq : state.home = made.shardOf := congrArg StringInterner.shardOf sameMade
    have fit : made.Parts contents :=
      sameMade ▸ sound.parts (sameMade ▸ start) (sameMade ▸ indexRoom)
    obtain ⟨rebuilt, rebuiltEq, _, sameCount, home, rebuiltHolds⟩ :=
      facts.holds.rebuild_parts fit records memory rebuiltId
    refine ⟨rebuilt, outEq ▸ rebuiltEq, fun symbol value isHeld => ?_⟩
    obtain ⟨index, numbered, _, written⟩ :=
      sound.held_home ((sound.threads label.thread).held _ _ isHeld)
    have here := held symbol value isHeld
    rw [Symbol.shardId_of_new numbered, sound.made.toNat_shardId (sound.home_lt value),
      Symbol.issuedIndex_of_new numbered, homeEq] at here
    rw [sameMade] at numbered written
    have inRange : made.shardOf value < made.shardCount := facts.layout.shardOf_lt value
    refine rebuiltHolds.layout.resolve_eq_some.mpr (Or.inr ⟨?_, index, ?_, ?_⟩)
    · have shelf := sound.shelf _ (sound.home_lt value)
      rw [homeEq] at shelf
      exact (shelf.proper value (List.mem_of_getElem? written)).2.1
    · rw [home, Contents.within, if_pos inRange]
      exact here
    · rw [home]
      exact numbered

/-- While one thread stands still before it writes its string, another one exports a string
that a third had interned: the bytes rebuild an interner that resolves its symbol. -/
theorem exported_rebuilds_interned :
    ∃ (made : StringInterner ⟨.debug, fun _ => 0⟩) (labels more : List Label)
      (state before last : State ⟨.debug, fun _ => 0⟩) (symbol : Symbol) (label : Label)
      (out : List UInt8),
      Meeting made (fun _ _ => 7) "cd" "ab" labels state symbol ∧ Steps Step state more before ∧
      Step before label last ∧ label.thread = 2 ∧ label.event = .exported out ∧
      ∃ rebuilt, StringInterner.fromBytes ⟨.debug, fun _ => 0⟩ (fun _ => 0) 2 out = .ok rebuilt ∧
        rebuilt.resolve symbol = .ok (some "ab") := by
  obtain ⟨made, created, _, labels, state, symbol, meeting⟩ := exists_meeting_letters
  have asked := Step.move (.exportCall (meeting.idle 2 (by decide)))
  have asking : ∀ other ∈ labels ++ [⟨2, .silent, {}⟩], other.Fits .debug :=
    fits_append meeting.fits fun label member text called => by
      rw [List.mem_singleton.mp member] at called
      cases called
  obtain ⟨logs, sound, timely⟩ := Reaches.invariants ⟨_, meeting.run.step asked, asking⟩ created
  obtain ⟨more, before, label, last, out, rest, quiet, final, own, told, same⟩ :=
    sound.exports timely (congrArg Local.task (setLocal_locals _ _ _))
  have held : (symbol, "ab") ∈ (before.locals label.thread).held := by
    rw [own, same, setLocal_locals]
    exact meeting.held
  have run := (meeting.run.step asked).trans rest
  obtain ⟨contents, snapshot, _, rebuilds⟩ := @exported_rebuilds _ _ _ _ _ (fun _ => 0) _ 2 _ _ _ _
    created run (fits_append asking quiet) final out told
  have calls : ∀ text, Event.called text ∈
      (labels ++ [(⟨2, .silent, {}⟩ : Label)] ++ more).map Label.event → text ∈ ["cd", "ab"] := by
    intro text isCalled
    obtain ⟨other, member, event⟩ := List.mem_map.mp isCalled
    rcases List.mem_append.mp member with earlier | later
    · rcases List.mem_append.mp earlier with first | asked
      · rcases meeting.called other first text event with rfl | rfl <;> simp
      · rw [List.mem_singleton.mp asked] at event
        cases event
    · exact absurd event (quiet other later text)
  obtain ⟨rebuilt, rebuiltEq, resolves⟩ := rebuilds (snapshot.indexRoom calls (by decide))
  exact ⟨made, _, _, state, before, last, symbol, label, out, meeting,
    (Steps.single asked).trans rest,
    final, own, told, rebuilt, rebuiltEq, resolves symbol "ab" held⟩

end WeakMemory.State

end Boomerang
