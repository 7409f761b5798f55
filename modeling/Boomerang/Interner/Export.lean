import Boomerang.Interner.Concurrency
import Boomerang.Interner.Serialization

/-!
# Exporting while other threads intern

`bytes` takes no lock. It reads the cursors of the shards one after the other, then
copies the header and the regions up to the cursors it read. Other threads take
their sections in between. What is below a cursor never changes again, so the copy
is the records of some first strings of every shard: at least those stored when the
call began, at most those stored when it returns.
-/

namespace Boomerang

open Foundation StringInterner

/-- How far a call of `bytes` has come. -/
inductive Export where
  /-- The cursors read so far, of the first shards. -/
  | reading (used : List Nat)
  /-- All cursors, the number of regions copied, and the bytes copied so far. -/
  | copying (used : List Nat) (copied : Nat) (out : List UInt8)
  | returned (raw : List UInt8)

/-- A thread inside `bytes` and everything else. -/
structure Exporting (build : Build) where
  world : World build
  call : Export

/-- Whose turn it is. -/
inductive Move where
  | thread (label : Section)
  | exporter

namespace Exporting

variable {build : Build}

/-- A section of another thread, or the next read or copy of `bytes`. -/
inductive Step : Exporting build → Move → Exporting build → Prop where
  | thread {world next : World build} {call label} (transition : World.Step world label next) :
      Step ⟨world, call⟩ (.thread label) ⟨next, call⟩
  | readCursor {world : World build} {used}
      (more : used.length < world.interner.pool.shardCount) :
      Step ⟨world, .reading used⟩ .exporter
        ⟨world, .reading (used ++ [world.interner.pool.used used.length])⟩
  | copyHeader {world : World build} {used}
      (all : used.length = world.interner.pool.shardCount) :
      Step ⟨world, .reading used⟩ .exporter
        ⟨world, .copying used 0 world.interner.pool.headerBytes⟩
  | copyRegion {world : World build} {used copied out length}
      (next : used[copied]? = some length) :
      Step ⟨world, .copying used copied out⟩ .exporter
        ⟨world, .copying used (copied + 1) (out ++ world.interner.pool.regionBytes copied length)⟩
  | finish {world : World build} {used copied out} (all : copied = used.length) :
      Step ⟨world, .copying used copied out⟩ .exporter ⟨world, .returned out⟩

/-- Cursors read so far belong to first strings of the first shards, and to no fewer
than were stored when the call began. -/
structure Snapshot (first contents : Contents) (used : List Nat) (parts : Contents) : Prop where
  grows : Contents.Grows parts contents
  keeps : ∀ shardId < used.length, first shardId <+: parts shardId
  sizes : ∀ shardId < used.length, used[shardId]? = some (recordsSize (parts shardId))

/-- What the call of `bytes` has read and copied. -/
def Progress (first contents : Contents) (count : Nat) : Export → Prop
  | .reading used => used.length ≤ count ∧ ∃ parts, Snapshot first contents used parts
  | .copying used copied out => used.length = count ∧ copied ≤ count ∧
      ∃ parts body, Snapshot first contents used parts ∧
        out = toLE 4 count ++ body ∧ Records body ((List.range copied).flatMap parts)
  | .returned raw => ∃ parts body, Contents.Grows parts contents ∧
      (∀ shardId < count, first shardId <+: parts shardId) ∧
      raw = toLE 4 count ++ body ∧ Records body ((List.range count).flatMap parts)

theorem Snapshot.mono {first contents grown parts : Contents} {used : List Nat}
    (snapshot : Snapshot first contents used parts) (grows : Contents.Grows contents grown) :
    Snapshot first grown used parts :=
  ⟨snapshot.grows.trans grows, snapshot.keeps, snapshot.sizes⟩

/-- Strings stored later leave what has been read as it is. -/
theorem Progress.mono {first contents grown : Contents} {count : Nat} {call : Export}
    (progress : Progress first contents count call) (grows : Contents.Grows contents grown) :
    Progress first grown count call := by
  cases call with
  | reading used =>
      obtain ⟨bounded, parts, snapshot⟩ := progress
      exact ⟨bounded, parts, snapshot.mono grows⟩
  | copying used copied out =>
      obtain ⟨all, bounded, parts, body, snapshot, copiedEq, records⟩ := progress
      exact ⟨all, bounded, parts, body, snapshot.mono grows, copiedEq, records⟩
  | returned raw =>
      obtain ⟨parts, body, below, keeps, rawEq, records⟩ := progress
      exact ⟨parts, body, below.trans grows, keeps, rawEq, records⟩

/-- The invariant of a call of `bytes` that began with the contents `first`. -/
structure Invariant (first : Contents) (shape : StringInterner build) (state : Exporting build)
    (contents : Contents) : Prop where
  represents : state.world.Represents contents
  grows : Contents.Grows first contents
  sameShape : SameShape shape state.world.interner
  progress : Progress first contents shape.shardCount state.call

/-- One more cursor is read. -/
theorem Snapshot.read {first contents parts : Contents} {used : List Nat}
    (snapshot : Snapshot first contents used parts) (grows : Contents.Grows first contents) :
    Snapshot first contents (used ++ [recordsSize (contents used.length)])
      fun shardId => if shardId = used.length then contents shardId else parts shardId := by
  constructor
  case grows =>
    intro shardId
    dsimp only
    split
    · exact List.prefix_rfl
    · exact snapshot.grows shardId
  case keeps =>
    intro shardId below
    split
    · exact grows shardId
    · rw [List.length_append, List.length_singleton] at below
      exact snapshot.keeps shardId (by omega)
  case sizes =>
    intro shardId below
    rw [List.length_append, List.length_singleton] at below
    split
    · rename_i last
      rw [last, List.getElem?_concat_length]
    · rw [List.getElem?_append_left (by omega)]
      exact snapshot.sizes shardId (by omega)

/-- Every move keeps the invariant, and a move of the exporter keeps the contents. -/
theorem Invariant.step {first contents : Contents} {shape : StringInterner build}
    {state next : Exporting build} {move : Move}
    (here : Invariant first shape state contents)
    (allowed : ∀ label, move = .thread label → World.Allowed build label)
    (transition : Step state move next) :
    ∃ grown, Invariant first shape next grown ∧ (move = .exporter → grown = contents) := by
  obtain ⟨represents, grows, sameShape, progress⟩ := here
  have layout := represents.layout
  have shards := layout.poolShards.trans sameShape.shardCount
  cases transition with
  | thread transition =>
      obtain ⟨grown, after, more, moreShape⟩ := represents.step (allowed _ rfl) transition
      exact ⟨grown, ⟨after, grows.trans more, sameShape.trans moreShape, progress.mono more⟩,
        fun impossible => nomatch impossible⟩
  | @readCursor world used more =>
      obtain ⟨bounded, parts, snapshot⟩ := progress
      have inRange : used.length < world.interner.shardCount := layout.poolShards ▸ more
      have read : world.interner.pool.used used.length = recordsSize (contents used.length) := by
        rw [MemoryPool.used, layout.cursor _ inRange, Nat.min_eq_left (layout.room _ inRange)]
      have longer := snapshot.read grows
      rw [← read] at longer
      refine ⟨contents, ⟨represents, grows, sameShape, ?_, _, longer⟩, fun _ => rfl⟩
      rw [List.length_append, List.length_singleton]
      exact shards ▸ more
  | @copyHeader world used all =>
      obtain ⟨bounded, parts, snapshot⟩ := progress
      refine ⟨contents, ⟨represents, grows, sameShape, all.trans shards, Nat.zero_le _, parts, [],
        snapshot, ?_, .nil⟩, fun _ => rfl⟩
      rw [layout.header, sameShape.shardCount, List.append_nil]
  | @copyRegion world used copied out length found =>
      obtain ⟨all, bounded, parts, body, snapshot, copiedEq, records⟩ := progress
      have below : copied < used.length := (List.getElem?_eq_some_iff.mp found).1
      have inRange : copied < world.interner.shardCount := by
        rw [sameShape.shardCount, ← all]
        exact below
      have lengthEq : recordsSize (parts copied) = length :=
        Option.some.inj ((snapshot.sizes copied below).symm.trans found)
      refine ⟨contents, ⟨represents, grows, sameShape, all, all ▸ below, parts, _, snapshot,
        by rw [copiedEq, List.append_assoc], ?_⟩, fun _ => rfl⟩
      rw [List.range_succ, List.flatMap_append, List.flatMap_singleton, ← lengthEq]
      exact records.append (layout.regionBytes_records inRange (snapshot.grows copied))
  | finish finished =>
      obtain ⟨all, bounded, parts, body, snapshot, copiedEq, records⟩ := progress
      rw [finished, all] at records
      exact ⟨contents, ⟨represents, grows, sameShape, parts, body, snapshot.grows,
        fun shardId below => snapshot.keeps shardId (all ▸ below), copiedEq, records⟩,
        fun _ => rfl⟩

/-- Every run keeps the invariant, and a run of the exporter alone keeps the contents. -/
theorem Invariant.run {first contents : Contents} {shape : StringInterner build}
    {state later : Exporting build} {moves : List Move}
    (here : Invariant first shape state contents) (run : Steps Step state moves later)
    (allowed : ∀ label, Move.thread label ∈ moves → World.Allowed build label) :
    ∃ grown, Invariant first shape later grown ∧
      ((∀ move ∈ moves, move = .exporter) → grown = contents) := by
  induction run with
  | refl => exact ⟨contents, here, fun _ => rfl⟩
  | @step moves middle move next before transition ih =>
      obtain ⟨between, there, same⟩ :=
        ih fun label member => allowed label (List.mem_append_left _ member)
      obtain ⟨grown, after, stepSame⟩ := there.step
        (fun label moveEq => allowed label (moveEq ▸ List.mem_append_right _ List.mem_cons_self))
        transition
      refine ⟨grown, after, fun alone => ?_⟩
      rw [stepSame (alone _ (List.mem_append_right _ List.mem_cons_self)),
        same fun other member => alone other (List.mem_append_left _ member)]

/-- With no other thread, the next cursors are read one after the other. -/
theorem reads_alone (world : World build) (used : List Nat) (count : Nat)
    (bounded : used.length + count ≤ world.interner.pool.shardCount) :
    Steps Step ⟨world, .reading used⟩ (List.replicate count .exporter)
      ⟨world, .reading (used ++ (List.range' used.length count).map world.interner.pool.used)⟩ := by
  induction count with
  | zero =>
      rw [List.range'_zero, List.map_nil, List.append_nil]
      exact .refl
  | succ count ih =>
      have next := (ih (by omega)).step (.readCursor (by
        rw [List.length_append, List.length_map, List.length_range']
        exact bounded))
      rw [List.length_append, List.length_map, List.length_range', List.append_assoc] at next
      rwa [List.replicate_succ', List.range'_concat, Nat.one_mul, List.map_append,
        List.map_singleton]

/-- The regions copied first. -/
def regionsBytes (pool : MemoryPool) (used : List Nat) (count : Nat) : List UInt8 :=
  (List.range count).flatMap fun shardId => pool.regionBytes shardId (used.getD shardId 0)

/-- With no other thread, the regions are copied one after the other. -/
theorem copies_alone (world : World build) (used : List Nat) (out : List UInt8) (count : Nat)
    (bounded : count ≤ used.length) :
    Steps Step ⟨world, .copying used 0 out⟩ (List.replicate count .exporter)
      ⟨world, .copying used count (out ++ regionsBytes world.interner.pool used count)⟩ := by
  induction count with
  | zero =>
      rw [regionsBytes, List.range_zero, List.flatMap_nil, List.append_nil]
      exact .refl
  | succ count ih =>
      have found : used[count]? = some (used.getD count 0) := by
        rw [List.getD_eq_getElem?_getD, List.getElem?_eq_getElem bounded]
        rfl
      have next := (ih (by omega)).step (.copyRegion found)
      rw [List.append_assoc] at next
      rwa [List.replicate_succ', regionsBytes, List.range_succ, List.flatMap_append,
        List.flatMap_singleton]

/-- The cursors read so far and those that the other shards have now. -/
def allCursors (pool : MemoryPool) (used : List Nat) : List Nat :=
  used ++ (List.range' used.length (pool.shardCount - used.length)).map pool.used

/-- With no other thread, a call of `bytes` that has read some cursors returns. -/
theorem finishes_alone (world : World build) (used : List Nat)
    (bounded : used.length ≤ world.interner.pool.shardCount) :
    Steps Step ⟨world, .reading used⟩
      (List.replicate (2 * world.interner.pool.shardCount - used.length + 2) .exporter)
      ⟨world, .returned (world.interner.pool.headerBytes ++ regionsBytes world.interner.pool
        (allCursors world.interner.pool used) world.interner.pool.shardCount)⟩ := by
  generalize poolEq : world.interner.pool = pool at bounded ⊢
  have length : (allCursors pool used).length = pool.shardCount := by
    rw [allCursors, List.length_append, List.length_map, List.length_range']
    omega
  have read := reads_alone world used (pool.shardCount - used.length) (by rw [poolEq]; omega)
  rw [poolEq] at read
  have copied := (read.step (.copyHeader (poolEq ▸ length))).trans
    (copies_alone world (allCursors pool used) _ pool.shardCount (Nat.le_of_eq length.symm))
  rw [poolEq] at copied
  have returned := copied.step (.finish length.symm)
  have moves : List.replicate (pool.shardCount - used.length) Move.exporter ++ [.exporter] ++
      List.replicate pool.shardCount .exporter ++ [.exporter] =
        List.replicate (2 * pool.shardCount - used.length + 2) .exporter := by
    simp only [← List.replicate_succ', List.replicate_append_replicate]
    congr 1
    omega
  rwa [moves] at returned

/-- With no other thread, `bytes` returns what `exportBytes` computes. -/
theorem run_alone (world : World build) :
    Steps Step ⟨world, .reading []⟩
      (List.replicate (2 * world.interner.pool.shardCount + 2) .exporter)
      ⟨world, .returned world.interner.exportBytes⟩ := by
  have regions (pool : MemoryPool) : regionsBytes pool (allCursors pool []) pool.shardCount =
      (List.range pool.shardCount).flatMap fun shardId =>
        pool.regionBytes shardId (pool.used shardId) := by
    refine List.flatMap_congr fun shardId member => ?_
    rw [allCursors, List.nil_append, List.length_nil, Nat.sub_zero, ← List.range_eq_range',
      List.getD_eq_getElem?_getD, List.getElem?_map, List.getElem?_range (List.mem_range.mp member)]
    rfl
  have run := finishes_alone world [] (Nat.zero_le _)
  rwa [regions, List.length_nil, Nat.sub_zero] at run

/-- The rebuilt interner agrees with the exported one on symbols issued before the
call, and with the one at its return on every string it contains. With no other
thread the three answer alike. -/
theorem rebuilt_of_run {uninitialised rebuiltMemory : Memory} {internerId rebuiltId count : Nat}
    {interner : StringInterner build} {labels : List Section} {moves : List Move}
    {world later : World build} {raw : List UInt8}
    (created : withCapacityAndShards build uninitialised internerId count = .ok interner)
    (before : Steps World.Step (World.start interner) labels world)
    (allowed : ∀ label ∈ labels, World.Allowed build label)
    (run : Steps Step ⟨world, .reading []⟩ moves ⟨later, .returned raw⟩)
    (moreAllowed : ∀ label, Move.thread label ∈ moves → World.Allowed build label) :
    ∃ rebuilt : StringInterner build, fromBytes build rebuiltMemory rebuiltId raw = .ok rebuilt ∧
      (∀ symbol value, world.interner.resolve symbol = .ok (some value) →
        rebuilt.resolve symbol = .ok (some value)) ∧
      (∀ value symbol, rebuilt.get value = some symbol →
        later.interner.get value = some symbol) ∧
      (∀ symbol value, rebuilt.resolve symbol = .ok (some value) →
        later.interner.resolve symbol = .ok (some value)) ∧
      ((∀ move ∈ moves, move = .exporter) → rebuilt.len = world.interner.len ∧
        (∀ value, rebuilt.get value = world.interner.get value) ∧
        ∀ symbol, rebuilt.resolve symbol = world.interner.resolve symbol) := by
  obtain ⟨made, madeEq, facts⟩ := withCapacityAndShards_ok build uninitialised internerId count
  cases madeEq.symm.trans created
  obtain ⟨first, represents, _, shape⟩ := (World.represents_start facts).run before allowed
  have holds : world.interner.Holds first :=
    facts.holds.of_sameShape shape represents.layout represents.distinct
  have start : Invariant first world.interner ⟨world, .reading []⟩ first :=
    ⟨represents, Contents.Grows.refl _, SameShape.refl _, Nat.zero_le _, Contents.empty,
      fun _ => List.nil_prefix, fun _ below => absurd below (Nat.not_lt_zero _),
      fun _ below => absurd below (Nat.not_lt_zero _)⟩
  obtain ⟨contents, ⟨laterRepresents, grows, sameShape, parts, body, partsGrow, keeps, rawEq,
    records⟩, alone⟩ := start.run run moreAllowed
  have laterHolds : later.interner.Holds contents :=
    holds.of_sameShape sameShape laterRepresents.layout laterRepresents.distinct
  rw [← sameShape.shardCount] at records
  obtain ⟨rebuilt, rebuiltEq, _, sameCount, home, rebuiltHolds⟩ :=
    laterHolds.rebuild partsGrow records rebuiltMemory rebuiltId
  rw [sameShape.shardCount] at rebuiltEq sameCount
  refine ⟨rebuilt, rawEq ▸ rebuiltEq, ?_, ?_, ?_, ?_⟩
  · intro symbol value resolved
    have inRange := represents.layout.shardOf_lt value
    refine rebuiltHolds.layout.resolve_eq_some.mpr
      ((represents.layout.resolve_eq_some.mp resolved).mono ?_ ?_)
    · rw [home, sameShape.shardOf]
    · rw [sameShape.shardCount, Contents.within, if_pos inRange]
      exact keeps _ inRange
  · intro value symbol found
    exact (laterHolds.layout.get_eq_some laterHolds.distinct).mpr
      (((rebuiltHolds.layout.get_eq_some rebuiltHolds.distinct).mp found).mono (home value).symm
        ((parts.within_prefix _ _).trans (partsGrow _)))
  · intro symbol value resolved
    exact laterHolds.layout.resolve_eq_some.mpr
      ((rebuiltHolds.layout.resolve_eq_some.mp resolved).mono (home value).symm
        ((parts.within_prefix _ _).trans (partsGrow _)))
  · intro onlyExporter
    cases alone onlyExporter
    refine holds.same_answers rebuiltHolds sameCount ?_ ?_
    · intro value
      rw [home, sameShape.shardOf]
    · intro shardId inRange
      rw [sameShape.shardCount, Contents.within, if_pos inRange]
      exact (partsGrow shardId).eq_of_length_le (keeps shardId inRange).length_le

/-- Other threads run while a call of `bytes` waits. -/
theorem steps_of_others {world next : World build} {labels : List Section} (call : Export)
    (run : Steps World.Step world labels next) :
    Steps Step ⟨world, call⟩ (labels.map .thread) ⟨next, call⟩ := by
  induction run with
  | refl => exact .refl
  | step _ transition ih =>
      rw [List.map_append, List.map_singleton]
      exact ih.step (.thread transition)

/-- Another thread interns two strings between two reads of cursors, one in a shard that
has been read and one in a shard that has not. -/
theorem rebuilt_of_run_between :
    ∃ (interner : StringInterner ⟨.debug, fun _ => 0⟩) (world later : World _)
      (raw : List UInt8) (rebuilt : StringInterner ⟨.debug, fun _ => 0⟩) (first second : Symbol),
      withCapacityAndShards _ (fun _ => 0) 1 4 = .ok interner ∧
        Steps World.Step (World.start interner)
          [.lookup 0 "ab", .write 0, .lookup 0 "cd", .write 0] world ∧
        interner.shardOf "gh" = 1 ∧ interner.shardOf "ef" = 3 ∧
        Steps Step ⟨world, .reading []⟩
          ([.exporter, .exporter, .thread (.lookup 1 "gh"), .thread (.write 1),
            .thread (.lookup 1 "ef"), .thread (.write 1)] ++ List.replicate 8 .exporter)
          ⟨later, .returned raw⟩ ∧
        fromBytes _ (fun _ => 1) 2 raw = .ok rebuilt ∧
        world.interner.get "ab" = some first ∧ rebuilt.resolve first = .ok (some "ab") ∧
        world.interner.get "cd" = some second ∧ rebuilt.resolve second = .ok (some "cd") ∧
        ∀ value symbol, rebuilt.get value = some symbol →
          later.interner.get value = some symbol := by
  obtain ⟨interner, new, created⟩ :=
    withCapacityAndShards_ok ⟨.debug, fun _ => 0⟩ (fun _ => 0) 1 4
  have wide := created.regionSize_ge
  have shardCount : interner.shardCount = 4 := created.shardCount
  obtain ⟨one, oneRun, oneCalled, oneThreads, _⟩ :=
    World.exists_call (World.start interner) 0 "ab" created.called wide rfl (by decide)
      List.not_mem_nil (by decide)
  obtain ⟨world, worldRun, worldCalled, worldThreads, _⟩ :=
    World.exists_call one 0 "cd" oneCalled wide (by rw [oneThreads]; rfl) (by decide) (by decide)
      (by decide)
  obtain ⟨between, betweenRun, betweenCalled, betweenThreads, _⟩ :=
    World.exists_call world 1 "gh" worldCalled wide (by rw [worldThreads, oneThreads]; rfl)
      (by decide) (by decide) (by decide)
  obtain ⟨later, laterRun, laterCalled, _⟩ :=
    World.exists_call between 1 "ef" betweenCalled wide
      (by rw [betweenThreads, worldThreads, oneThreads]; rfl) (by decide) (by decide) (by decide)
  have shards : ∀ {values last}, Called interner values last → last.pool.shardCount = 4 :=
    fun called => called.holds.layout.poolShards.trans
      (called.shape.shardCount.trans shardCount)
  have before := oneRun.trans worldRun
  have started := reads_alone world [] 2 (by rw [shards worldCalled]; decide)
  have others := steps_of_others (.reading ([] ++ (List.range' 0 2).map world.interner.pool.used))
    (betweenRun.trans laterRun)
  have finished := finishes_alone later ([] ++ (List.range' 0 2).map world.interner.pool.used)
    (by rw [shards laterCalled]; exact (by decide : 2 ≤ 4))
  rw [shards laterCalled] at finished
  have run := (started.trans others).trans finished
  have allowed : ∀ label ∈ [Section.lookup 0 "ab", .write 0, .lookup 0 "cd", .write 0],
      World.Allowed ⟨.debug, fun _ => 0⟩ label := by
    simp [World.Allowed, MemoryPool.Storable]
  obtain ⟨rebuilt, rebuiltEq, kept, found, _⟩ := rebuilt_of_run new before allowed run
    (fun label _ => by cases label <;> simp [World.Allowed, MemoryPool.Storable])
  obtain ⟨first, firstFound, firstText⟩ :=
    worldCalled.exists_symbol (show "ab" ∈ ["ab", "cd"] by decide)
  obtain ⟨second, secondFound, secondText⟩ :=
    worldCalled.exists_symbol (show "cd" ∈ ["ab", "cd"] by decide)
  exact ⟨interner, world, later, _, rebuilt, first, second, new, before,
    by rw [created.shardOf_eq]; decide, by rw [created.shardOf_eq]; decide, run, rebuiltEq,
    firstFound, kept _ _ firstText, secondFound, kept _ _ secondText, found⟩

/-- A release build exports `longText` as two letters, which the rebuilt interner
finds and the exported one does not. -/
theorem rebuilt_differs_of_long :
    ∃ (interner : StringInterner ⟨.release, fun _ => 0⟩) (world : World _)
      (rebuilt : StringInterner ⟨.release, fun _ => 0⟩),
      withCapacityAndShards _ (fun _ => 0) 1 1 = .ok interner ∧
        Steps World.Step (World.start interner) [.lookup 0 longText, .write 0] world ∧
        fromBytes _ (fun _ => 0) 2 world.interner.exportBytes = .ok rebuilt ∧
        rebuilt.get "aa" ≠ none ∧ world.interner.get "aa" = none := by
  obtain ⟨interner, new, created⟩ :=
    withCapacityAndShards_ok ⟨.release, fun _ => 0⟩ (fun _ => 0) 1 1
  obtain ⟨notStatic, symbol, offset, short, after, cut, stored⟩ := created.insertVacant_long rfl
  obtain ⟨world, run, internerEq, writtenEq⟩ := World.first_call created notStatic stored
  have oneShard := cut.oneShard
  have onlyShard : short.shardOf "aa" = 0 := by
    have bounded := cut.holds.layout.shardOf_lt "aa"
    omega
  obtain ⟨body, raw, records⟩ := cut.holds.layout.exportBytes_records
  obtain ⟨rebuilt, rebuiltEq, _, count, home, holds⟩ :=
    cut.holds.rebuild (Contents.Grows.refl _) records (fun _ => 0) 2
  have sameRaw : world.interner.exportBytes = short.exportBytes := by
    rw [internerEq, cut.after]
    rfl
  refine ⟨interner, world, rebuilt, new, run, by rw [sameRaw, raw, rebuiltEq], ?_, ?_⟩
  · have numbered : Numbered rebuilt
        ((Contents.empty.push 0 "aa").within short.shardCount) "aa" symbol := by
      refine Or.inr ⟨by decide, 0, ?_, ?_⟩
      · rw [home, onlyShard, oneShard]
        rfl
      · rw [home, onlyShard]
        exact cut.made
    rw [(holds.layout.get_eq_some holds.distinct).mpr numbered]
    exact Option.some_ne_none _
  · have longHash : hashOf ⟨.release, fun _ => 0⟩ longText = 0 := by
      rw [hashOf, if_neg (by rw [byteLength_longText, u32Range]; omega)]
    have shortHash : hashOf ⟨.release, fun _ => 0⟩ "aa" ≠ 0 := by decide
    have missing : after.findChecked "aa" = none := by
      rw [findChecked, Option.map_eq_none_iff, List.find?_eq_none]
      intro entry member
      have shard : after.shardOf "aa" = 0 := by rw [cut.after, ← onlyShard]; rfl
      rw [shard, cut.after] at member
      rw [List.mem_singleton.mp member, longHash]
      simp [Ne.symm shortHash]
    rw [internerEq, StringInterner.get, getShared, missing]
    rfl

end Exporting

end Boomerang
