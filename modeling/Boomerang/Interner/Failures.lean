import Boomerang.Interner.CallRuns
import Mathlib.Algebra.Order.BigOperators.Group.List
import Mathlib.Algebra.Order.Group.Nat

/-!
# Calls that panic

A call of `get_or_intern` stores a record, an offset, a symbol and an entry, and may panic
before any of them. A shard without room for the record panics first, and nothing but its
poison flag has changed. A shard with room but without a symbol left panics after the
record and the offset are stored.
-/

namespace Boomerang

open Foundation

/-- A failed allocation at most poisons the shard. -/
theorem MemoryPool.alloc_error {profile : Profile} {pool after : MemoryPool} {shardId : Nat}
    {value : String} {fault : Fault}
    (failed : pool.alloc profile shardId value = .error fault after) :
    after = pool ∨ after = pool.poison shardId := by
  unfold alloc at failed
  split at failed
  · cases failed
    exact Or.inl rfl
  split at failed
  · cases failed
    exact Or.inl rfl
  split at failed
  · cases failed
    exact Or.inl rfl
  dsimp only at failed
  split at failed
  · cases failed
    exact Or.inl rfl
  split at failed
  · cases failed
    exact Or.inr rfl
  split at failed
  · cases failed
    exact Or.inl rfl
  · cases failed

/-- A shard that has run out allocates nothing. -/
theorem MemoryPool.intact_of_alloc_ok {profile : Profile} {pool after : MemoryPool}
    {shardId offset : Nat} {value : String}
    (success : pool.alloc profile shardId value = .ok offset after) :
    (pool.cursors shardId).poisoned = false := by
  unfold alloc at success
  split at success
  · cases success
  split at success
  · cases success
  · rename_i intact
    exact Bool.eq_false_of_not_eq_true intact

namespace StringInterner

variable {build : Build}

/-- The interner with a shard marked as exhausted. -/
def poison (interner : StringInterner build) (shardId : Nat) : StringInterner build :=
  { interner with pool := interner.pool.poison shardId }

/-- A new string that its shard has room for, but no symbol. -/
structure HitsIndexLimit (interner : StringInterner build) (value : String) : Prop where
  notStatic : staticSymbol? value = none
  absent : interner.findChecked value = none
  intact : (interner.pool.cursors (interner.shardOf value)).poisoned = false
  room : (interner.pool.cursors (interner.shardOf value)).value + paddedSize (byteLength value) ≤
    interner.pool.regionSize
  full : Symbol.indexMask.toNat ≤ (interner.shards (interner.shardOf value)).strings.len

/-- Two interners answer alike, also through the cache of a thread. -/
structure Unchanged (before after : StringInterner build) : Prop where
  len : after.len = before.len
  bytes : after.exportBytes = before.exportBytes
  resolve : ∀ symbol, after.resolve symbol = before.resolve symbol
  get : ∀ value, after.get value = before.get value
  getCached : ∀ cache value, getCached true cache after value = getCached true cache before value

theorem Unchanged.refl (interner : StringInterner build) : Unchanged interner interner :=
  ⟨rfl, rfl, fun _ => rfl, fun _ => rfl, fun _ _ => rfl⟩

theorem value_poison (pool : MemoryPool) (shardId other : Nat) :
    ((pool.poison shardId).cursors other).value = (pool.cursors other).value := by
  simp only [MemoryPool.poison]
  split <;> rfl

/-- The poison flag is not seen. -/
theorem unchanged_poison (interner : StringInterner build) (shardId : Nat) :
    Unchanged interner (interner.poison shardId) := by
  refine ⟨rfl, ?_, fun _ => rfl, fun _ => rfl, fun _ _ => rfl⟩
  have used : (interner.pool.poison shardId).used = interner.pool.used := by
    funext other
    rw [MemoryPool.used, MemoryPool.used, value_poison]
    rfl
  show (interner.pool.poison shardId).committedBytes = interner.pool.committedBytes
  rw [MemoryPool.committedBytes, used]
  rfl

theorem Layout.poison {interner : StringInterner build} {contents : Contents}
    (layout : interner.Layout contents) (shardId : Nat) :
    (interner.poison shardId).Layout contents where
  sized := ⟨layout.sized.header, layout.sized.regions, layout.sized.capacity⟩
  poolShards := layout.poolShards
  powerOfTwo := layout.powerOfTwo
  mask := layout.mask
  header := layout.header
  cursor := fun other inRange => (value_poison _ _ _).trans (layout.cursor other inRange)
  room := layout.room
  dense := layout.dense
  len := layout.len
  offset := layout.offset
  stored := layout.stored
  entryCount := layout.entryCount
  entry := layout.entry
  home := layout.home
  proper := layout.proper

theorem Holds.poison {interner : StringInterner build} {contents : Contents}
    (holds : interner.Holds contents) (shardId : Nat) : (interner.poison shardId).Holds contents :=
  ⟨holds.layout.poison shardId, holds.distinct, holds.regionSize⟩

namespace Layout

variable {interner next : StringInterner build} {contents : Contents} {value : String}

/-- At the index limit the call panics with one more offset stored. -/
theorem panics_of_hitsIndexLimit (layout : interner.Layout contents)
    (limit : interner.HitsIndexLimit value) :
    ∃ fault next, interner.getOrIntern value = .error fault next ∧ interner.len < next.len := by
  have bounded := layout.shardOf_lt value
  have regionEnd := layout.sized.regionEnd (layout.poolShards.symm ▸ bounded)
  have capacity := layout.sized.capacity
  have size := le_paddedSize (byteLength value)
  have room := limit.room
  have header := layout.sized.header
  rw [MemoryPool.regionStart, header] at regionEnd
  have allocated := MemoryPool.alloc_of_room build.profile layout.sized
    (layout.poolShards.symm ▸ bounded) limit.intact (by omega) room
  have few := layout.length_le bounded
  rw [← layout.len _ bounded, Symbol.toNat_indexMask] at few
  obtain ⟨strings, pushed⟩ := LockFreeStringArray.push_of_room
    (interner.pool.regionStart (interner.shardOf value) +
      (interner.pool.cursors (interner.shardOf value)).value)
    (show (interner.shards (interner.shardOf value)).strings.len < NUM_CHUNKS * CHUNK_SIZE by
      rw [LockFreeStringArray.NUM_CHUNKS_mul_CHUNK_SIZE]
      omega)
  obtain ⟨_, longer, _⟩ := LockFreeStringArray.push_ok pushed
  have failed : Symbol.new (UInt8.ofNat (interner.shardOf value))
      (interner.shards (interner.shardOf value)).strings.len =
        .error (.assertion "Symbol index overflow") := by
    rw [Symbol.new, dif_neg (Nat.not_lt.mpr limit.full)]
  refine ⟨_, _, by rw [layout.getOrIntern_absent limit.notStatic limit.absent, insertVacant]
                   simp only [allocated, pushed, failed]; rfl, ?_⟩
  apply List.sum_lt_sum
  · intro shardId _
    simp only [setShard]
    split
    · rename_i same
      rw [same, longer]
      exact Nat.le_succ _
    · exact Nat.le_refl _
  · refine ⟨interner.shardOf value, List.mem_range.mpr bounded, ?_⟩
    simp only [setShard, if_pos, longer]
    exact Nat.lt_succ_self _

/-- Any other panic leaves the interner as it was or poisons a shard. -/
theorem eq_or_poison_of_panics (layout : interner.Layout contents)
    (storable : MemoryPool.Storable build.profile value) (below : ¬ interner.HitsIndexLimit value)
    (panics : interner.Panics value next) :
    next = interner ∨ next = interner.poison (interner.shardOf value) := by
  obtain ⟨fault, failed⟩ := panics
  cases isStatic : staticSymbol? value with
  | some symbol =>
      rw [getOrIntern, isStatic] at failed
      cases failed
  | none =>
  cases found : interner.findChecked value with
  | some symbol =>
      rw [layout.findChecked_eq_findUnchecked] at found
      rw [getOrIntern, isStatic] at failed
      simp only [internShared, layout.readSection_eq, found, Option.map_some] at failed
      cases failed
  | none =>
  rw [layout.getOrIntern_absent isStatic found] at failed
  unfold insertVacant at failed
  cases allocated : interner.pool.alloc build.profile (interner.shardOf value) value with
  | error reason pool =>
      simp only [allocated] at failed
      cases failed
      rcases MemoryPool.alloc_error allocated with rfl | rfl
      · exact Or.inl rfl
      · exact Or.inr rfl
  | ok place pool =>
  have bounded := layout.shardOf_lt value
  obtain ⟨_, _, room, _, _⟩ := MemoryPool.alloc_ok layout.sized storable allocated
  have notFull :
      (interner.shards (interner.shardOf value)).strings.len < Symbol.indexMask.toNat := by
    by_contra full
    exact below ⟨isStatic, found, MemoryPool.intact_of_alloc_ok allocated, room,
      Nat.le_of_not_lt full⟩
  have limit := Symbol.toNat_indexMask ▸ notFull
  obtain ⟨strings, pushed⟩ := LockFreeStringArray.push_of_room place
    (show (interner.shards (interner.shardOf value)).strings.len < NUM_CHUNKS * CHUNK_SIZE by
      rw [LockFreeStringArray.NUM_CHUNKS_mul_CHUNK_SIZE]
      omega)
  obtain ⟨symbol, made⟩ := Symbol.exists_new (UInt8.ofNat (interner.shardOf value)) notFull
  simp only [allocated, pushed, made] at failed
  cases failed

end Layout

/-- A call below the index limit keeps what the interner holds, however it ends. -/
theorem Holds.calls {interner next : StringInterner build} {contents : Contents} {value : String}
    (holds : interner.Holds contents) (storable : MemoryPool.Storable build.profile value)
    (below : ¬ interner.HitsIndexLimit value) (calls : interner.Calls value next) :
    ∃ grown, next.Holds grown := by
  rcases calls with returns | panics
  · obtain ⟨grown, after, _⟩ := holds.returns storable returns
    exact ⟨grown, after⟩
  · rcases holds.layout.eq_or_poison_of_panics storable below panics with rfl | rfl
    · exact ⟨contents, holds⟩
    · exact ⟨contents, holds.poison _⟩

/-- A shard with a symbol left is below the index limit. -/
theorem Holds.not_hitsIndexLimit {interner : StringInterner build} {contents : Contents}
    (holds : interner.Holds contents)
    (few : ∀ shardId, (contents shardId).length < Symbol.indexMask.toNat) (value : String) :
    ¬ interner.HitsIndexLimit value := by
  intro limit
  have full := limit.full
  rw [holds.layout.len _ (holds.layout.shardOf_lt value)] at full
  exact Nat.not_lt.mpr full (few _)

/-- A call that returns stores one string at most. -/
theorem Holds.returns_length {interner next : StringInterner build} {contents : Contents}
    {value : String} (holds : interner.Holds contents)
    (storable : MemoryPool.Storable build.profile value) (returns : interner.Returns value next) :
    ∃ grown, next.Holds grown ∧
      ∀ shardId, (grown shardId).length ≤ (contents shardId).length + 1 := by
  rcases returns.eq_or with rfl | ⟨symbol, success⟩
  · exact ⟨contents, holds, fun _ => Nat.le_succ _⟩
  · obtain ⟨grown, interned⟩ := holds.layout.getOrIntern_ok holds.distinct storable success
    refine ⟨grown, interned.holds holds, fun shardId => ?_⟩
    rcases interned.contents with ⟨_, _, rfl⟩ | ⟨_, rfl⟩
    · exact Nat.le_succ _
    · rw [Contents.push]
      split
      · rw [List.length_append, List.length_singleton]
      · exact Nat.le_succ _

/-- A shard holds no more strings than there were calls. -/
theorem Created.calls_length {interner last : StringInterner build} {internerId count : Nat}
    {values : List String} (created : Created interner internerId count)
    (run : Steps Calls interner values last)
    (whole : ∀ value ∈ values, MemoryPool.Storable build.profile value)
    (few : values.length ≤ Symbol.indexMask.toNat) :
    ∃ contents, last.Holds contents ∧ ∀ shardId, (contents shardId).length ≤ values.length := by
  induction run with
  | refl => exact ⟨_, created.holds, fun _ => Nat.le_refl _⟩
  | @step before middle value after prior transition ih =>
      rw [List.length_append, List.length_singleton] at few ⊢
      obtain ⟨contents, holds, bound⟩ := ih
        (fun other member => whole other (List.mem_append_left _ member)) (Nat.le_of_succ_le few)
      have storable := whole value (List.mem_append_right _ List.mem_cons_self)
      have below : ¬ middle.HitsIndexLimit value :=
        holds.not_hitsIndexLimit (fun shardId => Nat.lt_of_le_of_lt (bound shardId) few) value
      rcases transition with returns | panics
      · obtain ⟨grown, after, longer⟩ := holds.returns_length storable returns
        exact ⟨grown, after,
          fun shardId => Nat.le_trans (longer shardId) (Nat.succ_le_succ (bound shardId))⟩
      · rcases holds.layout.eq_or_poison_of_panics storable below panics with rfl | rfl
        · exact ⟨contents, holds, fun shardId => Nat.le_succ_of_le (bound shardId)⟩
        · exact ⟨contents, holds.poison _, fun shardId => Nat.le_succ_of_le (bound shardId)⟩

/-- As many calls as a shard has symbols stay below the index limit. -/
theorem Created.below_of_few {interner last : StringInterner build} {internerId count : Nat}
    {values : List String} (created : Created interner internerId count)
    (whole : ∀ value ∈ values, MemoryPool.Storable build.profile value)
    (few : values.length ≤ Symbol.indexMask.toNat) :
    Along Calls interner values last fun state value _ => ¬ state.HitsIndexLimit value := by
  rintro before value after state next rfl prior _ _
  rw [List.length_append, List.length_cons] at few
  obtain ⟨contents, holds, bound⟩ := created.calls_length prior
    (fun other member => whole other (List.mem_append_left _ member)) (by omega)
  refine holds.not_hitsIndexLimit (fun shardId => ?_) value
  have shard := bound shardId
  omega

theorem Holds.calls_run {interner last : StringInterner build} {contents : Contents}
    {values : List String} (holds : interner.Holds contents)
    (run : Steps Calls interner values last)
    (whole : ∀ value ∈ values, MemoryPool.Storable build.profile value)
    (below : Along Calls interner values last fun state value _ => ¬ state.HitsIndexLimit value) :
    ∃ grown, last.Holds grown := by
  induction run with
  | refl => exact ⟨contents, holds⟩
  | @step before middle value after prior transition ih =>
      obtain ⟨grown, middleHolds⟩ := ih
        (fun other member => whole other (List.mem_append_left _ member))
        (below.initial (.single transition))
      exact middleHolds.calls (whole value (List.mem_append_right _ List.mem_cons_self))
        (below before value [] middle after rfl prior transition .refl) transition

/-- After any calls below the index limit, some of which may have panicked, a call that
panics changes nothing exactly when it is below the index limit too. -/
theorem unchanged_iff_of_run {uninitialised : Memory} {internerId count : Nat}
    {interner last next : StringInterner build} {values : List String} {value : String}
    (created : withCapacityAndShards build uninitialised internerId count = .ok interner)
    (run : Steps Calls interner values last)
    (whole : ∀ stored ∈ value :: values, MemoryPool.Storable build.profile stored)
    (below : Along Calls interner values last fun state stored _ => ¬ state.HitsIndexLimit stored)
    (panics : last.Panics value next) :
    Unchanged last next ↔ ¬ last.HitsIndexLimit value := by
  obtain ⟨other, otherEq, facts⟩ :=
    withCapacityAndShards_ok build uninitialised internerId count
  cases otherEq.symm.trans created
  have whole' : ∀ stored ∈ values, MemoryPool.Storable build.profile stored :=
    fun stored member => whole stored (List.mem_cons_of_mem _ member)
  obtain ⟨contents, holds⟩ := facts.holds.calls_run run whole' below
  constructor
  · intro unchanged limit
    obtain ⟨fault, after, failed, longer⟩ := holds.layout.panics_of_hitsIndexLimit limit
    obtain ⟨reason, panicked⟩ := panics
    cases failed.symm.trans panicked
    exact absurd unchanged.len (Nat.ne_of_gt longer)
  · intro limit
    rcases holds.layout.eq_or_poison_of_panics (whole value List.mem_cons_self) limit panics with
      rfl | rfl
    · exact Unchanged.refl _
    · exact unchanged_poison _ _

/-- There is no room for a string longer than a region. -/
theorem Holds.panics_of_large {interner : StringInterner build} {contents : Contents}
    (holds : interner.Holds contents) {value : String} (notStatic : staticSymbol? value = none)
    (storable : MemoryPool.Storable build.profile value)
    (large : interner.pool.regionSize < paddedSize (byteLength value)) :
    ∃ next, interner.Panics value next := by
  cases called : interner.getOrIntern value with
  | error fault next => exact ⟨next, fault, called⟩
  | ok symbol next =>
      obtain ⟨grown, interned⟩ := holds.layout.getOrIntern_ok holds.distinct storable called
      rcases interned.numbered with isStatic | ⟨_, index, here, _⟩
      · rw [notStatic] at isStatic
        cases isStatic
      · have room := interned.layout.room _ (interned.layout.shardOf_lt value)
        have record := recordsSize_take_lt here (List.getElem?_eq_some_iff.mp here).1
        rw [List.take_length] at record
        rw [interned.shape.regionSize] at room
        omega

section Full

/-- The strings of four ASCII characters, in an order of their own. -/
def word (number : Nat) : String :=
  asciiString (number % 128) ++ asciiString (number / 128 % 128) ++
    asciiString (number / 16384 % 128) ++ asciiString (number / 2097152 % 128)

theorem bytes_word (number : Nat) : bytes (word number) =
    [UInt8.ofNat (number % 128), UInt8.ofNat (number / 128 % 128),
      UInt8.ofNat (number / 16384 % 128), UInt8.ofNat (number / 2097152 % 128)] := by
  have ascii : ∀ digit, bytes (asciiString (digit % 128)) = [UInt8.ofNat (digit % 128)] :=
    fun digit => bytes_asciiString (Nat.mod_lt _ (by decide))
  simp only [word, bytes_append, ascii]
  rfl

theorem byteLength_word (number : Nat) : byteLength (word number) = 4 := by
  rw [byteLength, bytes_word]
  rfl

/-- There are 2^28 of them. -/
theorem word_injective {left right : Nat} (leftSmall : left < 2 ^ 28) (rightSmall : right < 2 ^ 28)
    (same : word left = word right) : left = right := by
  have digits := congrArg bytes same
  simp only [bytes_word, List.cons.injEq, ← UInt8.toNat_inj, UInt8.toNat_ofNat', and_true] at digits
  obtain ⟨first, second, third, fourth⟩ := digits
  omega

theorem recordsSize_words (count : Nat) :
    recordsSize ((List.range count).map word) = 8 * count := by
  induction count with
  | zero => rfl
  | succ count ih =>
      rw [List.range_succ, List.map_append, recordsSize_append, ih, List.map_singleton,
        recordsSize_singleton, byteLength_word]
      rfl

/-- An interner with one shard that holds the first words. -/
structure HoldsWords (interner : StringInterner build) (number : Nat) : Prop where
  holds : ∃ contents, interner.Holds contents ∧ contents 0 = (List.range number).map word
  internerId : interner.internerId = 1
  oneShard : interner.shardCount = 1
  intact : (interner.pool.cursors 0).poisoned = false

/-- There is room for one more word. -/
theorem HoldsWords.room {interner : StringInterner build} {number : Nat}
    (words : interner.HoldsWords number) (few : number ≤ 16777215) {contents : Contents}
    (holds : interner.Holds contents) (listed : contents 0 = (List.range number).map word) :
    interner.shardOf (word number) = 0 ∧ interner.findChecked (word number) = none ∧
      recordsSize (contents 0) + paddedSize (byteLength (word number)) ≤
        interner.pool.regionSize := by
  have bounded := holds.layout.shardOf_lt (word number)
  rw [words.oneShard] at bounded
  have home : interner.shardOf (word number) = 0 := by omega
  refine ⟨home, ?_, ?_⟩
  · refine holds.layout.findChecked_eq_none.mpr fun member => ?_
    rw [home, listed] at member
    obtain ⟨other, below, same⟩ := List.mem_map.mp member
    have small := List.mem_range.mp below
    have equal := word_injective (by omega) (by omega) same
    omega
  · rw [listed, recordsSize_words, holds.regionSize, words.oneShard, byteLength_word]
    have region : (ARENA_CAPACITY - 4) / 1 / 4 * 4 = 536870908 := by decide
    have size : paddedSize 4 = 8 := by decide
    omega

/-- One more word is stored. -/
theorem HoldsWords.step {interner : StringInterner build} {number : Nat}
    (words : interner.HoldsWords number) (few : number < 16777215) :
    ∃ next, interner.Returns (word number) next ∧ next.HoldsWords (number + 1) := by
  obtain ⟨contents, holds, listed⟩ := words.holds
  obtain ⟨home, absent, room⟩ := words.room (Nat.le_of_lt few) holds listed
  have notStatic : staticSymbol? (word number) = none :=
    not_static_of_long (by rw [byteLength_word]; decide)
  have storable : MemoryPool.Storable build.profile (word number) :=
    Or.inr (by rw [byteLength_word]; decide)
  obtain ⟨symbol, offset, next, inserted, kept⟩ := holds.layout.insertVacant_of_room (word number)
    (by rw [home]; exact words.intact) (by rw [home]; exact room)
    (by rw [home, listed, List.length_map, List.length_range, Symbol.toNat_indexMask]; exact few)
  have success : interner.getOrIntern (word number) = .ok symbol next := by
    rw [holds.layout.getOrIntern_absent notStatic absent]
    simp only [inserted]
  obtain ⟨grown, interned⟩ := holds.layout.getOrIntern_ok holds.distinct storable success
  refine ⟨next, .of_getOrIntern success,
    ⟨grown, interned.holds holds, ?_⟩, interned.shape.internerId.trans words.internerId,
    interned.shape.shardCount.trans words.oneShard, (kept 0).trans words.intact⟩
  rcases interned.contents with ⟨numbered, _, _⟩ | ⟨_, rfl⟩
  · have found := (holds.layout.findChecked_eq_some.mpr
      ((Layout.firstIndex_iff holds.distinct notStatic).mpr numbered))
    rw [absent] at found
    cases found
  · rw [home, Contents.push_self, listed, List.range_succ, List.map_append, List.map_singleton]

/-- An interner with one shard can be filled up to the index limit. -/
theorem Created.holdsWords {interner : StringInterner build} (created : Created interner 1 1)
    {number : Nat} (few : number ≤ 16777215) :
    ∃ last, Steps Returns interner ((List.range number).map word) last ∧
      last.HoldsWords number := by
  induction number with
  | zero =>
      exact ⟨interner, .refl, ⟨_, created.holds, rfl⟩, created.internerId, created.shardCount,
        created.intact 0⟩
  | succ number ih =>
      obtain ⟨middle, run, words⟩ := ih (Nat.le_of_lt few)
      obtain ⟨next, returns, more⟩ := words.step few
      refine ⟨next, ?_, more⟩
      rw [List.range_succ, List.map_append]
      exact .step run returns

end Full

/-- More letters than the region of a single shard holds. -/
def largeText : String := String.ofList (List.replicate (2 ^ 29) 'a')

theorem byteLength_largeText : byteLength largeText = 2 ^ 29 :=
  have letters : ∀ count, byteLength (String.ofList (List.replicate count 'a')) = count := by
    intro count
    rw [byteLength, bytes_replicate rfl, List.length_replicate]
  letters (2 ^ 29)

/-- After three words a string longer than the region panics and changes nothing. -/
theorem unchanged_iff_of_run_large : ∃ interner last next : StringInterner ⟨.debug, fun _ => 0⟩,
    withCapacityAndShards ⟨.debug, fun _ => 0⟩ (fun _ => 0) 1 1 = .ok interner ∧
      Steps Returns interner ((List.range 3).map word) last ∧
      last.Panics largeText next ∧ Unchanged last next := by
  obtain ⟨interner, new, created⟩ :=
    withCapacityAndShards_ok ⟨.debug, fun _ => 0⟩ (fun _ => 0) 1 1
  obtain ⟨last, run, words⟩ := (created.holdsWords (by decide) : ∃ last, Steps Returns interner
    ((List.range 3).map word) last ∧ last.HoldsWords 3)
  obtain ⟨contents, holds, _⟩ := words.holds
  have whole : ∀ value : String, MemoryPool.Storable .debug value := fun _ => Or.inl rfl
  have notStatic : staticSymbol? largeText = none :=
    not_static_of_long (by rw [byteLength_largeText]; decide)
  have large : last.pool.regionSize < paddedSize (byteLength largeText) := by
    rw [holds.regionSize, words.oneShard, byteLength_largeText]
    decide
  obtain ⟨next, panics⟩ := holds.panics_of_large notStatic (whole _) large
  have below : ¬ last.HitsIndexLimit largeText := by
    intro limit
    have room := limit.room
    omega
  exact ⟨interner, last, next, new, run, panics, (unchanged_iff_of_run new
    (run.mono fun _ _ _ => Or.inl) (fun _ _ => whole _)
    (created.below_of_few (fun _ _ => whole _) (by decide)) panics).mpr below⟩

/-- With one shard the call after 2^24 - 1 words panics and is counted. A build with debug
assertions unwinds, so the count is seen afterwards. -/
theorem not_unchanged_words : ∃ interner last next : StringInterner ⟨.debug, fun _ => 0⟩,
    withCapacityAndShards ⟨.debug, fun _ => 0⟩ (fun _ => 0) 1 1 = .ok interner ∧
      Steps Returns interner ((List.range 16777215).map word) last ∧
      last.Panics (word 16777215) next ∧ ¬ Unchanged last next := by
  obtain ⟨interner, new, created⟩ :=
    withCapacityAndShards_ok ⟨.debug, fun _ => 0⟩ (fun _ => 0) 1 1
  obtain ⟨last, run, words⟩ := created.holdsWords (Nat.le_refl _)
  obtain ⟨contents, holds, listed⟩ := words.holds
  obtain ⟨home, absent, room⟩ := words.room (Nat.le_refl _) holds listed
  have bounded : 0 < last.shardCount := by rw [words.oneShard]; decide
  have limit : last.HitsIndexLimit (word 16777215) := by
    refine ⟨not_static_of_long (by rw [byteLength_word]; decide), absent, ?_, ?_, ?_⟩
    · rw [home]
      exact words.intact
    · rw [home, holds.layout.cursor 0 bounded]
      exact room
    · rw [home, holds.layout.len 0 bounded, listed, List.length_map, List.length_range,
        Symbol.toNat_indexMask]
  obtain ⟨fault, next, failed, longer⟩ := holds.layout.panics_of_hitsIndexLimit limit
  exact ⟨interner, last, next, new, run, ⟨fault, failed⟩,
    fun unchanged => absurd unchanged.len (Nat.ne_of_gt longer)⟩

end StringInterner

end Boomerang
