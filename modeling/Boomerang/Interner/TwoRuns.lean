import Boomerang.Interner.CallRuns
import Boomerang.Interner.Decoding

/-!
# The same calls on two interners

What an interner holds after some calls is a function of the strings alone, and so is
whether another call for a string returns. Two interners with the same number of shards
therefore hold the same strings in the same shards after the same calls, whatever was in
their arenas before, and their bytes differ only in the padding.
-/

namespace Boomerang

open Foundation

namespace StringInterner

variable {build : Build}

/-- A call of `get_or_intern` that returns, by a thread with any cache that answers for no
string the interner lacks. -/
def Interns (interner : StringInterner build) (value : String) (next : StringInterner build) :
    Prop :=
  ∃ cache symbol after, (interner.get value = none → cache.probe interner value = .ok none) ∧
    getOrInternCached true cache interner value = .ok symbol (next, after)

theorem Interns.of_getOrIntern {interner next : StringInterner build} {value : String}
    {symbol : Symbol} (success : interner.getOrIntern value = .ok symbol next) :
    interner.Interns value next := by
  obtain ⟨cache, after, missed, cached⟩ := exists_cached_of_getOrIntern success
  exact ⟨cache, symbol, after, fun _ => missed, cached⟩

theorem interns_of_answers {interner last : StringInterner build} {values : List String}
    (run : Steps Answers interner values last) : Steps Interns interner values last :=
  run.mono fun _ _ _ ⟨_, success⟩ => .of_getOrIntern success

/-- Such a call is one of `getOrIntern`. -/
theorem Holds.getOrIntern_of_interns {interner next : StringInterner build} {contents : Contents}
    {value : String} (holds : interner.Holds contents) (interns : interner.Interns value next) :
    ∃ symbol, interner.getOrIntern value = .ok symbol next := by
  obtain ⟨cache, symbol, after, honest, success⟩ := interns
  cases known : interner.get value with
  | none =>
      rw [getOrInternCached_of_missed (honest known)] at success
      exact ⟨symbol, getOrIntern_of_cached success⟩
  | some stored =>
      have numbered := (holds.layout.get_eq_some holds.distinct).mp known
      have returns : interner.Returns value next := ⟨cache, symbol, after, success⟩
      rcases returns.eq_or with rfl | called
      · exact ⟨stored, holds.layout.getOrIntern_of_numbered holds.distinct numbered⟩
      · exact called

/-- An interner after calls for some strings, in an arena that held the bytes of
`initial` when the first of them was made. -/
structure After (initial : Memory) (first : StringInterner build) (values : List String)
    (last : StringInterner build) : Prop extends Called first values last where
  unwritten : last.Unwritten initial (Contents.ofCalls first.shardOf values)

theorem after_created {initial : Memory} {internerId count : Nat} {interner : StringInterner build}
    (new : withCapacityAndShards build initial internerId count = .ok interner) :
    After initial interner [] interner ∧ interner.shardCount = clampShardCount count ∧
      interner.pool.regionSize = (ARENA_CAPACITY - 4) / clampShardCount count / 4 * 4 := by
  obtain ⟨made, madeEq, created⟩ := withCapacityAndShards_ok build initial internerId count
  cases madeEq.symm.trans new
  exact ⟨⟨created.called, unwritten_of_created new⟩, created.shardCount, created.regionSize⟩

namespace After

variable {initial : Memory} {first last next : StringInterner build} {values : List String}
variable {value : String}

/-- One more call. -/
theorem interns (after : After initial first values last)
    (storable : MemoryPool.Storable build.profile value) (call : last.Interns value next) :
    After initial first (values ++ [value]) next := by
  obtain ⟨symbol, success⟩ := after.holds.getOrIntern_of_interns call
  refine ⟨after.toCalled.step storable success, ?_⟩
  have layout := after.holds.layout
  rcases after.toCalled.cases success with
    ⟨rfl, same⟩ | ⟨notStatic, absent, offset, inserted, grown⟩
  · rw [same]
    exact after.unwritten
  · have done := insertVacant_ok layout.sized storable inserted
    have unwritten := layout.unwritten_inserted after.unwritten storable done
    rwa [after.toCalled.home, ← grown] at unwritten

/-- A run of calls. -/
theorem run {taken : List String} (after : After initial first values last)
    (run : Steps Interns last taken next)
    (storable : ∀ value ∈ taken, MemoryPool.Storable build.profile value) :
    After initial first (values ++ taken) next := by
  induction run with
  | refl =>
      rw [List.append_nil]
      exact after
  | @step labels middle label next prior transition ih =>
      rw [← List.append_assoc]
      exact (ih fun value member => storable value (List.mem_append_left _ member)).interns
        (storable label (List.mem_append_right _ List.mem_cons_self)) transition

/-- A call returns if the strings stored then fit. -/
theorem exists_interns (after : After initial first values last)
    (room : ∀ shardId < first.shardCount,
      recordsSize (Contents.ofCalls first.shardOf (values ++ [value]) shardId) ≤
        first.pool.regionSize)
    (indexRoom : ∀ shardId < first.shardCount,
      (Contents.ofCalls first.shardOf (values ++ [value]) shardId).length ≤
        Symbol.indexMask.toNat) : ∃ next, last.Interns value next := by
  obtain ⟨symbol, next, success⟩ := after.toCalled.returns room indexRoom
  exact ⟨next, .of_getOrIntern success⟩

end After

/-- The strings that an interner stores need no padding. -/
def Unpadded (values : List String) : Prop :=
  ∀ value ∈ values, staticSymbol? value = none → byteLength value % 4 = 0

/-- Two interners that were created with the same number of shards. -/
structure Twins (first second : StringInterner build) : Prop where
  shardCount : second.shardCount = first.shardCount
  regionSize : second.pool.regionSize = first.pool.regionSize
  headerSize : second.pool.headerSize = first.pool.headerSize
  shardOf : second.shardOf = first.shardOf

theorem twins_of_created {initial other : Memory} {internerId otherId count : Nat}
    {interner second : StringInterner build}
    (new : withCapacityAndShards build initial internerId count = .ok interner)
    (secondNew : withCapacityAndShards build other otherId count = .ok second) :
    Twins interner second := by
  obtain ⟨start, shards, region⟩ := after_created new
  obtain ⟨secondStart, secondShards, secondRegion⟩ := after_created secondNew
  have sameShards := secondShards.trans shards.symm
  refine ⟨sameShards, secondRegion.trans region.symm,
    secondStart.holds.layout.sized.header.trans start.holds.layout.sized.header.symm, ?_⟩
  funext value
  rw [StringInterner.shardOf, StringInterner.shardOf, start.holds.layout.mask,
    secondStart.holds.layout.mask, sameShards]

theorem Twins.regionStart {first second : StringInterner build} (twins : Twins first second)
    (shardId : Nat) : second.pool.regionStart shardId = first.pool.regionStart shardId := by
  rw [MemoryPool.regionStart, MemoryPool.regionStart, twins.headerSize, twins.regionSize]

/-- The calls that returned on one new interner return on every new interner with as many
shards. -/
theorem exists_run {initial other : Memory} {internerId otherId count : Nat}
    {interner last second : StringInterner build} {values : List String}
    (new : withCapacityAndShards build initial internerId count = .ok interner)
    (secondNew : withCapacityAndShards build other otherId count = .ok second)
    (run : Steps Interns interner values last)
    (storable : ∀ value ∈ values, MemoryPool.Storable build.profile value) :
    ∃ secondLast, Steps Interns second values secondLast := by
  have start := (after_created new).1
  have secondStart := (after_created secondNew).1
  have twins := twins_of_created new secondNew
  induction run with
  | refl => exact ⟨second, .refl⟩
  | @step labels middle label next prior transition ih =>
      have before := fun value member => storable value (List.mem_append_left [label] member)
      obtain ⟨secondMiddle, secondPrior⟩ := ih before
      have here := start.run (.step prior transition) storable
      have there := secondStart.run secondPrior before
      rw [List.nil_append] at here there
      have returns : ∃ secondNext, secondMiddle.Interns label secondNext := by
        refine there.exists_interns (fun shardId inRange => ?_) fun shardId inRange => ?_
        · rw [twins.shardCount, ← here.shape.shardCount] at inRange
          rw [twins.shardOf, twins.regionSize, ← here.shape.regionSize]
          exact here.holds.layout.room shardId inRange
        · rw [twins.shardCount, ← here.shape.shardCount] at inRange
          rw [twins.shardOf]
          exact here.holds.layout.length_le inRange
      obtain ⟨secondNext, secondTransition⟩ := returns
      exact ⟨secondNext, .step secondPrior secondTransition⟩

/-- The bytes exported after calls for some strings, by an interner whose arena held the
bytes of `initial`. -/
def bytesAfter (initial : Memory) (first : StringInterner build) (values : List String) :
    List UInt8 :=
  toLE 4 first.shardCount ++ (List.range first.shardCount).flatMap fun shardId =>
    recordsBytes initial (first.pool.regionStart shardId)
      (Contents.ofCalls first.shardOf values shardId)

/-- Without padding the bytes are a function of the strings. -/
theorem bytesAfter_of_unpadded {values : List String} (unpadded : Unpadded values)
    (initial other : Memory) (first : StringInterner build) :
    bytesAfter other first values = bytesAfter initial first values := by
  rw [bytesAfter, bytesAfter]
  congr 1
  refine List.flatMap_congr fun shardId _ => ?_
  refine recordsBytes_of_aligned (fun value member => ?_) _ _ _
  obtain ⟨called, notStatic, _⟩ := Contents.mem_ofCalls.mp member
  exact unpadded value called notStatic

/-- Padding shows the bytes the arena held before. -/
theorem unpadded_of_bytesAfter {initial : Memory} {first : StringInterner build}
    {values : List String} (home : ∀ value, first.shardOf value < first.shardCount)
    (same : bytesAfter (changed initial) first values = bytesAfter initial first values) :
    Unpadded values := by
  rw [bytesAfter, bytesAfter] at same
  have regions := eq_of_flatMap_eq
    (fun shardId _ => (length_recordsBytes _ _ _).trans (length_recordsBytes _ _ _).symm)
    (List.append_cancel_left same)
  intro value called notStatic
  have member := Contents.mem_ofCalls.mpr ⟨called, notStatic, @rfl _ (first.shardOf value)⟩
  have region := regions _ (List.mem_range.mpr (home value))
  exact aligned_of_recordsBytes_changed region.symm value member

theorem Twins.bytesAfter {first second : StringInterner build} (twins : Twins first second)
    (initial : Memory) (values : List String) :
    bytesAfter initial second values = bytesAfter initial first values := by
  simp only [StringInterner.bytesAfter, twins.shardCount, twins.shardOf, twins.regionStart]

namespace After

variable {initial : Memory} {first last : StringInterner build} {values : List String}

theorem exportBytes_eq (after : After initial first values last) :
    last.exportBytes = bytesAfter initial first values := by
  rw [after.holds.layout.exportBytes_unwritten after.unwritten, after.shape.shardCount]
  simp only [after.shape.regionStart]
  rfl

theorem shardOf_lt (after : After initial first values last) (value : String) :
    first.shardOf value < first.shardCount := by
  rw [← after.shape.shardCount, ← after.shape.shardOf]
  exact after.holds.layout.shardOf_lt value

/-- The interner that is rebuilt from the bytes exports the same records, with the padding
of its own arena. -/
theorem rebuild (after : After initial first values last) (other : Memory) (otherId : Nat) :
    ∃ rebuilt : StringInterner build, fromBytes build other otherId last.exportBytes = .ok rebuilt ∧
      rebuilt.exportBytes = bytesAfter other first values := by
  have layout := after.holds.layout
  obtain ⟨body, exported, records⟩ := layout.exportBytes_records
  obtain ⟨rebuilt, rebuiltEq, _, count, home, holds⟩ :=
    after.holds.rebuild (fun _ => List.prefix_rfl) records other otherId
  rw [← exported] at rebuiltEq
  refine ⟨rebuilt, rebuiltEq, ?_⟩
  rcases fromBytes_cases build other otherId layout.sized.length_committedBytes with
    ⟨_, same, sameEq, made⟩ | ⟨_, fault, failed⟩
  · cases sameEq.symm.trans rebuiltEq
    have start : ∀ shardId, rebuilt.pool.regionStart shardId = first.pool.regionStart shardId := by
      intro shardId
      rw [← after.shape.regionStart, MemoryPool.regionStart, MemoryPool.regionStart,
        holds.layout.sized.header, layout.sized.header, holds.regionSize, after.holds.regionSize,
        count]
    rw [made.ready.layout.exportBytes_unwritten made.ready.unwritten, bytesAfter, count,
      after.shape.shardCount]
    congr 1
    refine List.flatMap_congr fun shardId member => ?_
    have inRange := List.mem_range.mp member
    have within : shardId < rebuilt.shardCount := by
      rw [count, after.shape.shardCount]
      exact inRange
    rw [start, made.ready.layout.contents_unique holds.layout within, Contents.within,
      if_pos (count ▸ within)]
  · cases failed.symm.trans rebuiltEq

end After

/-- The bytes after some calls are the same for all arenas exactly when no string stored
is padded. -/
theorem bytes_same_iff {initial : Memory} {internerId count : Nat}
    {interner last : StringInterner build} {values : List String}
    (new : withCapacityAndShards build initial internerId count = .ok interner)
    (run : Steps Interns interner values last)
    (storable : ∀ value ∈ values, MemoryPool.Storable build.profile value) :
    (∀ (other : Memory) (otherId : Nat) (second secondLast : StringInterner build),
      withCapacityAndShards build other otherId count = .ok second →
        Steps Interns second values secondLast → secondLast.exportBytes = last.exportBytes) ↔
      Unpadded values := by
  have after := (after_created new).1.run run storable
  rw [List.nil_append] at after
  have exported : ∀ {other otherId} {second secondLast : StringInterner build},
      withCapacityAndShards build other otherId count = .ok second →
        Steps Interns second values secondLast →
          secondLast.exportBytes = bytesAfter other interner values := by
    intro other otherId second secondLast secondNew secondRun
    have secondAfter := (after_created secondNew).1.run secondRun storable
    rw [List.nil_append] at secondAfter
    rw [secondAfter.exportBytes_eq, (twins_of_created new secondNew).bytesAfter]
  rw [after.exportBytes_eq]
  constructor
  · intro same
    obtain ⟨second, secondNew, _⟩ :=
      withCapacityAndShards_ok build (changed initial) internerId count
    obtain ⟨secondLast, secondRun⟩ := exists_run new secondNew run storable
    have shown := same _ _ _ _ secondNew secondRun
    rw [exported secondNew secondRun] at shown
    exact unpadded_of_bytesAfter after.shardOf_lt shown
  · intro unpadded other otherId second secondLast secondNew secondRun
    rw [exported secondNew secondRun]
    exact bytesAfter_of_unpadded unpadded _ _ _

end StringInterner

end Boomerang
