import Boomerang.Interner.DecodingTurns
import Boomerang.Interner.Failures
import Boomerang.Interner.Offsets

/-!
# Symbols from anywhere

`Symbol::from_raw` accepts any number but zero. `resolve` and `offset_of` have to reject
what the interner did not issue, whatever calls it has seen, panics among them. They do,
unless the low 24 bits are zero, from which `index` subtracts one.
-/

namespace Boomerang

open Foundation

theorem staticSymbol?_shardId {value : String} {symbol : Symbol}
    (isStatic : staticSymbol? value = some symbol) : symbol.shardId = staticShardId.toNat := by
  obtain ⟨index, made, _⟩ := staticSymbol?_eq_some.mp isStatic
  exact Symbol.shardId_of_new made

/-- The first 129 symbols of the static shard are those of the static strings. -/
theorem staticSymbol?_of_parts {symbol : Symbol} {index : Nat}
    (shardId : symbol.shardId = staticShardId.toNat) (lowBits : symbol.lowBits = index + 1)
    (small : index ≤ 128) : ∃ value, staticSymbol? value = some symbol := by
  have made := Symbol.new_of_parts shardId lowBits
  by_cases zero : index = 0
  · exact ⟨"", staticSymbol?_eq_some.mpr ⟨index, made, Or.inl ⟨zero, rfl⟩⟩⟩
  · exact ⟨_, staticSymbol?_eq_some.mpr ⟨index, made, Or.inr ⟨by omega, small, rfl⟩⟩⟩

namespace StringInterner

variable {build : Build}

/-- What changes an interner: a call of `get_or_intern` that returns a symbol or panics,
and the insertion of a text by `from_bytes`. -/
inductive Stores (interner : StringInterner build) : Option Symbol → StringInterner build → Prop
    where
  | interned {value symbol next} (success : interner.getOrIntern value = .ok symbol next) :
      Stores interner (some symbol) next
  | inserted {value symbol next} (success : interner.insertUnique value = .ok symbol next) :
      Stores interner (some symbol) next
  | panicked {value next} (panics : interner.Panics value next) : Stores interner none next

/-- A call through the cache of any thread changes nothing or is one of these. -/
theorem Calls.stores {interner next : StringInterner build} {value : String}
    (calls : interner.Calls value next) :
    next = interner ∨ ∃ label, interner.Stores label next := by
  rcases calls with returns | panics
  · rcases returns.eq_or with same | ⟨symbol, success⟩
    · exact Or.inl same
    · exact Or.inr ⟨some symbol, .interned success⟩
  · exact Or.inr ⟨none, .panicked panics⟩

/-- A rebuilt interner is reached by the insertions of its texts. -/
theorem fromBytesLoop_stores {raw : List UInt8} {fuel cursor : Nat}
    {interner rebuilt : StringInterner build}
    (decoded : fromBytesLoop raw fuel cursor interner = .ok rebuilt) :
    ∃ labels, Steps Stores interner labels rebuilt := by
  induction fuel generalizing cursor interner with
  | zero => cases decoded
  | succ fuel ih =>
      cases RecordLoop.outcome raw ⟨cursor, interner⟩ with
      | @turn len state turn =>
          obtain ⟨labels, rest⟩ := ih ((turn.run_succ fuel).symm.trans decoded)
          obtain ⟨text, _, inserted⟩ := turn.record
          rcases insertText_eq_ok.mp inserted with ⟨_, same⟩ | ⟨value, symbol, _, stored⟩
          · have unchanged : state.interner = interner := same
            rw [unchanged] at rest
            exact ⟨labels, rest⟩
          · exact ⟨some symbol :: labels, .cons (.inserted stored) rest⟩
      | done finished ended =>
          cases (ended fuel).symm.trans decoded
          exact ⟨[], .refl⟩
      | panicked fault real failed =>
          have same := (failed fuel).symm.trans decoded
          cases same

theorem fromBytes_stores {uninitialised : Memory} {internerId : Nat} {raw : List UInt8}
    {rebuilt : StringInterner build}
    (decoded : fromBytes build uninitialised internerId raw = .ok rebuilt) :
    ∃ count interner labels,
      withCapacityAndShards build uninitialised internerId count = .ok interner ∧
        Steps Stores interner labels rebuilt := by
  unfold fromBytes at decoded
  dsimp only at decoded
  split at decoded
  · cases decoded
  rename_i interner created
  split at decoded
  · cases decoded
    exact ⟨_, rebuilt, [], created, .refl⟩
  · obtain ⟨labels, run⟩ := fromBytesLoop_stores decoded
    exact ⟨_, interner, labels, created, run⟩

/-- A call that returns finds its string or inserts it. -/
theorem getOrIntern_eq_ok_or {interner next : StringInterner build} {value : String}
    {symbol : Symbol} (success : interner.getOrIntern value = .ok symbol next) :
    next = interner ∨ ∃ offset, interner.insertVacant value = .ok (symbol, offset) next := by
  unfold getOrIntern at success
  split at success
  · cases success
    exact Or.inl rfl
  split at success
  · cases success
  rename_i numbered offset after shared
  cases success
  unfold internShared at shared
  split at shared
  · cases shared
  · cases shared
    exact Or.inl rfl
  unfold writeSection at shared
  split at shared
  · cases shared
    exact Or.inl rfl
  · exact Or.inr ⟨offset, shared⟩

/-- A call that panics does so before it inserts its string or while it does. -/
theorem Panics.eq_or {interner next : StringInterner build} {value : String}
    (panics : interner.Panics value next) :
    next = interner ∨ ∃ fault, interner.insertVacant value = .error fault next := by
  obtain ⟨fault, failed⟩ := panics
  unfold getOrIntern at failed
  split at failed
  · cases failed
  split at failed
  · rename_i after shared
    cases failed
    unfold internShared at shared
    split at shared
    · cases shared
      exact Or.inl rfl
    · cases shared
    unfold writeSection at shared
    split at shared
    · cases shared
    · exact Or.inr ⟨fault, shared⟩
  · cases failed

/-- The slots below the length of an array are those in use, as far as there are slots. -/
def Slotted (array : LockFreeStringArray) : Prop :=
  ∀ index < NUM_CHUNKS * CHUNK_SIZE, array.offsetAt index ≠ 0 ↔ index < array.len

/-- An interner all of whose numbers were issued. -/
structure Grounded (interner : StringInterner build) (labels : List (Option Symbol)) : Prop where
  framed : interner.Framed
  slotted : ∀ shardId < interner.shardCount, Slotted (interner.shards shardId).strings
  issued : ∀ shardId < interner.shardCount, ∀ index < Symbol.indexMask.toNat,
    index < (interner.shards shardId).strings.len →
      ∃ symbol, Symbol.new (UInt8.ofNat shardId) index = .ok symbol ∧ some symbol ∈ labels

theorem Created.grounded {interner : StringInterner build} {internerId count : Nat}
    (created : Created interner internerId count) : interner.Grounded [] := by
  have layout := created.layout
  have empty : ∀ shardId < interner.shardCount, (interner.shards shardId).strings.len = 0 :=
    fun shardId inRange => layout.len shardId inRange
  refine ⟨layout.framed, fun shardId inRange index _ => ?_, fun shardId inRange index _ below => ?_⟩
  · have dense := layout.dense shardId inRange
    have free := dense.free index (by rw [empty shardId inRange]; exact Nat.zero_le _)
    rw [empty shardId inRange, free]
    exact ⟨fun impossible => absurd rfl impossible, fun impossible => absurd impossible (by omega)⟩
  · rw [empty shardId inRange] at below
    cases below

namespace Grounded

variable {interner next : StringInterner build} {labels : List (Option Symbol)} {value : String}

theorem mono (grounded : interner.Grounded labels) (label : Option Symbol) :
    interner.Grounded (labels ++ [label]) := by
  refine ⟨grounded.framed, grounded.slotted, fun shardId inRange index small below => ?_⟩
  obtain ⟨symbol, made, listed⟩ := grounded.issued shardId inRange index small below
  exact ⟨symbol, made, List.mem_append_left _ listed⟩

/-- The pool of an interner after an allocation that failed. -/
theorem pool (grounded : interner.Grounded labels) {pool : MemoryPool} (sized : pool.Sized)
    (poolShards : pool.shardCount = interner.pool.shardCount) :
    ({ interner with pool := pool } : StringInterner build).Grounded labels :=
  ⟨⟨sized, poolShards.trans grounded.framed.poolShards, grounded.framed.powerOfTwo,
    grounded.framed.mask⟩, grounded.slotted, grounded.issued⟩

/-- A shard whose numbers were issued too. -/
theorem setShard (grounded : interner.Grounded labels) {shardId : Nat} {shard : Shard}
    (slotted : Slotted shard.strings)
    (issued : ∀ index < Symbol.indexMask.toNat, index < shard.strings.len →
      ∃ symbol, Symbol.new (UInt8.ofNat shardId) index = .ok symbol ∧ some symbol ∈ labels) :
    (interner.setShard shardId shard).Grounded labels := by
  have framed := grounded.framed
  refine ⟨⟨framed.sized, framed.poolShards, framed.powerOfTwo, framed.mask⟩, ?_, ?_⟩
  · intro other inRange
    simp only [StringInterner.setShard]
    split
    · exact slotted
    · exact grounded.slotted other inRange
  · intro other inRange
    simp only [StringInterner.setShard]
    split
    · rename_i same
      rw [same]
      exact issued
    · exact grounded.issued other inRange

/-- A push of a real offset fills the next slot. -/
theorem slotted_push {array after : LockFreeStringArray} {offset index : Nat}
    (slotted : Slotted array) (real : offset ≠ 0) (pushed : array.push offset = .ok index after) :
    Slotted after := by
  obtain ⟨_, len, _, _, offsets⟩ := LockFreeStringArray.push_ok pushed
  intro other small
  have before := slotted other small
  rw [offsets, len]
  split
  · exact ⟨fun _ => by omega, fun _ => real⟩
  · rw [before]
    omega

/-- The record of a string never lies at the start of the arena. -/
theorem place_ne_zero {profile : Profile} {pool after : MemoryPool} {shardId place : Nat}
    (sized : pool.Sized) (allocated : pool.alloc profile shardId value = .ok place after) :
    place ≠ 0 ∧ after.Sized ∧ after.shardCount = pool.shardCount := by
  obtain ⟨_, _, size, _, _, placeEq, rfl⟩ := MemoryPool.alloc_inv sized allocated
  refine ⟨?_, ⟨sized.header, sized.regions, sized.capacity⟩, rfl⟩
  rw [placeEq, MemoryPool.regionStart, sized.header]
  omega

theorem insertVacant_ok (grounded : interner.Grounded labels) {symbol : Symbol} {offset : Nat}
    (success : interner.insertVacant value = .ok (symbol, offset) next) :
    next.Grounded (labels ++ [some symbol]) := by
  have bounded := grounded.framed.shardOf_lt value
  obtain ⟨place, pool, index, strings, allocated, pushed, made, _, rfl⟩ :=
    insertVacant_eq_ok.mp success
  obtain ⟨real, sized, poolShards⟩ := place_ne_zero grounded.framed.sized allocated
  refine ((grounded.mono (some symbol)).pool sized poolShards).setShard
    (slotted_push (grounded.slotted _ bounded) real pushed) ?_
  obtain ⟨rfl, len, _⟩ := LockFreeStringArray.push_ok pushed
  intro other small below
  dsimp only at below
  rw [len] at below
  rcases Nat.lt_succ_iff_lt_or_eq.mp below with older | rfl
  · exact (grounded.mono (some symbol)).issued _ bounded other small older
  · exact ⟨symbol, made, by simp⟩

theorem insertVacant_error (grounded : interner.Grounded labels) {fault : Fault}
    (failed : interner.insertVacant value = .error fault next) : next.Grounded labels := by
  have bounded := grounded.framed.shardOf_lt value
  have sized := grounded.framed.sized
  have slotted := grounded.slotted _ bounded
  have issued := grounded.issued _ bounded
  rcases StringInterner.insertVacant_error failed with
    ⟨pool, refused, rfl⟩ | ⟨place, pool, strings, allocated, rfl, refused⟩
  · rcases MemoryPool.alloc_error refused with rfl | rfl
    · exact grounded
    · exact grounded.pool ⟨sized.header, sized.regions, sized.capacity⟩ rfl
  obtain ⟨real, afterSized, poolShards⟩ := place_ne_zero sized allocated
  rcases refused with refused | ⟨index, pushed, unnumbered⟩
  · -- The array is past its last chunk; only its length has moved.
    obtain ⟨_, full, rfl⟩ := LockFreeStringArray.push_error refused
    have limit := LockFreeStringArray.NUM_CHUNKS_mul_CHUNK_SIZE
    refine (grounded.pool afterSized poolShards).setShard ?_ ?_
    · intro other small
      have before := slotted other small
      constructor
      · exact fun used => Nat.lt_succ_of_lt (before.mp used)
      · exact fun _ => before.mpr (by omega)
    · intro other small _
      rw [Symbol.toNat_indexMask] at small
      exact issued other (by rw [Symbol.toNat_indexMask]; exact small) (by omega)
  · refine (grounded.pool afterSized poolShards).setShard (slotted_push slotted real pushed) ?_
    obtain ⟨rfl, len, _⟩ := LockFreeStringArray.push_ok pushed
    have full := (Symbol.new_eq_error.mp unnumbered).1
    intro other small below
    dsimp only at below
    rw [len] at below
    exact issued other small (by omega)

/-- One step keeps every number issued. -/
theorem step (grounded : interner.Grounded labels) {label : Option Symbol}
    (stores : interner.Stores label next) : next.Grounded (labels ++ [label]) := by
  cases stores with
  | interned success =>
      rcases getOrIntern_eq_ok_or success with rfl | ⟨offset, inserted⟩
      · exact grounded.mono _
      · exact grounded.insertVacant_ok inserted
  | @inserted value symbol _ success =>
      cases isStatic : staticSymbol? value with
      | some static =>
          rw [insertUnique, isStatic] at success
          cases success
          exact grounded.mono _
      | none =>
          obtain ⟨offset, inserted⟩ := (insertUnique_eq_ok isStatic).mp success
          exact grounded.insertVacant_ok inserted
  | panicked panics =>
      rcases panics.eq_or with rfl | ⟨fault, failed⟩
      · exact grounded.mono _
      · exact (grounded.insertVacant_error failed).mono _

theorem run {last : StringInterner build} {more : List (Option Symbol)}
    (grounded : interner.Grounded labels) (run : Steps Stores interner more last) :
    last.Grounded (labels ++ more) := by
  induction run with
  | refl =>
      rw [List.append_nil]
      exact grounded
  | step _ transition ih =>
      rw [← List.append_assoc]
      exact ih.step transition

end Grounded

/-- `resolve` and `offset_of` return, and answer for no symbol but the static ones and those
that were issued, `offset_of` for none that is static. -/
structure Rejects (interner : StringInterner build) (labels : List (Option Symbol))
    (symbol : Symbol) : Prop where
  resolve : ∃ answer, interner.resolve symbol = .ok answer ∧ (answer.isSome →
    (∃ value, staticSymbol? value = some symbol) ∨ some symbol ∈ labels)
  offsetOf : ∃ answer, interner.offsetOf symbol = .ok answer ∧ (answer.isSome →
    some symbol ∈ labels ∧ ∀ value, staticSymbol? value ≠ some symbol)

namespace Grounded

variable {interner : StringInterner build} {labels : List (Option Symbol)} {symbol : Symbol}

theorem lowBits_le (symbol : Symbol) : symbol.lowBits ≤ Symbol.indexMask.toNat := by
  rw [Symbol.lowBits, UInt32.toNat_and]
  exact Nat.and_le_right

/-- A number in use below the limit belongs to the symbol that was issued for it. -/
theorem issued_of_lt (grounded : interner.Grounded labels)
    (inRange : symbol.shardId < interner.shardCount) {index : Nat}
    (lowBits : symbol.lowBits = index + 1)
    (below : index < (interner.shards symbol.shardId).strings.len) : some symbol ∈ labels := by
  have limit := lowBits_le symbol
  obtain ⟨other, made, listed⟩ := grounded.issued _ inRange index (by omega) below
  have same := Symbol.new_of_parts (grounded.framed.toNat_shardId inRange).symm lowBits
  cases made.symm.trans same
  exact listed

/-- With an index `resolve` returns. -/
theorem resolve_ok (grounded : interner.Grounded labels) (nonzero : symbol.lowBits ≠ 0) :
    ∃ answer, interner.resolve symbol = .ok answer ∧ (answer.isSome →
      (∃ value, staticSymbol? value = some symbol) ∨ some symbol ∈ labels) := by
  obtain ⟨index, lowBits⟩ := Nat.exists_eq_succ_of_ne_zero nonzero
  have limit := lowBits_le symbol
  rw [Symbol.toNat_indexMask] at limit
  have indexEq : symbol.index build.profile = .ok index := by
    rw [Symbol.index_of_ne_zero _ nonzero, lowBits]
    rfl
  unfold resolve
  rw [indexEq]
  dsimp only
  by_cases isStatic : symbol.shardId = staticShardId.toNat
  · rw [if_pos isStatic]
    by_cases zero : index = 0
    · rw [if_pos zero]
      exact ⟨_, rfl, fun _ => Or.inl (staticSymbol?_of_parts isStatic lowBits (by omega))⟩
    rw [if_neg zero]
    by_cases small : index ≤ 128
    · rw [if_pos small]
      exact ⟨_, rfl, fun _ => Or.inl (staticSymbol?_of_parts isStatic lowBits small)⟩
    · rw [if_neg small]
      exact ⟨none, rfl, nofun⟩
  rw [if_neg isStatic]
  by_cases outside : interner.shardCount ≤ symbol.shardId
  · rw [if_pos outside]
    exact ⟨none, rfl, nofun⟩
  rw [if_neg outside, LockFreeStringArray.get]
  by_cases unused : (interner.shards symbol.shardId).strings.len ≤ index
  · rw [if_pos unused]
    exact ⟨none, rfl, nofun⟩
  have chunkIdx : index / CHUNK_SIZE < NUM_CHUNKS := by
    simp only [NUM_CHUNKS, CHUNK_SIZE]
    omega
  have listed := grounded.issued_of_lt (Nat.lt_of_not_le outside) lowBits (Nat.lt_of_not_le unused)
  rw [if_neg unused, LockFreeStringArray.loadChunk, if_pos chunkIdx]
  cases (interner.shards symbol.shardId).strings.chunks (index / CHUNK_SIZE) with
  | none => exact ⟨none, rfl, nofun⟩
  | some chunk => exact ⟨_, rfl, fun _ => Or.inr listed⟩

/-- With an index `offset_of` returns. -/
theorem offsetOf_ok (grounded : interner.Grounded labels) (nonzero : symbol.lowBits ≠ 0) :
    ∃ answer, interner.offsetOf symbol = .ok answer ∧ (answer.isSome →
      some symbol ∈ labels ∧ ∀ value, staticSymbol? value ≠ some symbol) := by
  obtain ⟨index, lowBits⟩ := Nat.exists_eq_succ_of_ne_zero nonzero
  have limit := lowBits_le symbol
  rw [Symbol.toNat_indexMask] at limit
  have indexEq : symbol.index build.profile = .ok index := by
    rw [Symbol.index_of_ne_zero _ nonzero, lowBits]
    rfl
  have chunkIdx : index / CHUNK_SIZE < NUM_CHUNKS := by
    simp only [NUM_CHUNKS, CHUNK_SIZE]
    omega
  unfold offsetOf
  by_cases outside : interner.shardCount ≤ symbol.shardId
  · rw [if_pos outside]
    exact ⟨none, rfl, by simp⟩
  have inRange := Nat.lt_of_not_le outside
  rw [if_neg outside, indexEq]
  dsimp only
  rw [LockFreeStringArray.loadChunk, if_pos chunkIdx]
  cases found : (interner.shards symbol.shardId).strings.chunks (index / CHUNK_SIZE) with
  | none => exact ⟨none, rfl, by simp⟩
  | some chunk =>
      refine ⟨_, rfl, fun answered => ?_⟩
      by_cases empty : chunk (index % CHUNK_SIZE) = 0
      · rw [if_pos empty] at answered
        cases answered
      have stored : (interner.shards symbol.shardId).strings.offsetAt index ≠ 0 := by
        rw [LockFreeStringArray.offsetAt, found]
        exact empty
      have below := (grounded.slotted _ inRange index (by
        rw [LockFreeStringArray.NUM_CHUNKS_mul_CHUNK_SIZE]
        omega)).mp stored
      refine ⟨grounded.issued_of_lt inRange lowBits below, fun value isStatic => ?_⟩
      have few := grounded.framed.shardCount_bounds.2
      rw [staticSymbol?_shardId isStatic] at inRange
      have staticId : staticShardId.toNat = 255 := by decide
      omega

/-- Without an index both return only in a release build, for a shard that does not exist. -/
theorem rejects_of_zero (zero : symbol.lowBits = 0)
    (rejects : interner.Rejects labels symbol) :
    build.profile = .release ∧ interner.shardCount ≤ symbol.shardId := by
  obtain ⟨answer, resolved, _⟩ := rejects.resolve
  obtain ⟨offset, answered, _⟩ := rejects.offsetOf
  cases profile : build.profile with
  | debug =>
      rw [StringInterner.resolve, profile, (Symbol.index_of_zero zero).1] at resolved
      cases resolved
  | release =>
      refine ⟨rfl, ?_⟩
      by_contra inside
      rw [StringInterner.offsetOf, if_neg inside, profile,
        (Symbol.index_of_zero zero).2] at answered
      have past : ¬ (usizeRange - 1) / CHUNK_SIZE < NUM_CHUNKS := by decide
      simp only [LockFreeStringArray.loadChunk, if_neg past] at answered
      cases answered

/-- A release build rejects a symbol without an index whose shard does not exist. -/
theorem rejects_of_release (release : build.profile = .release) (zero : symbol.lowBits = 0)
    (outside : interner.shardCount ≤ symbol.shardId) :
    interner.Rejects labels symbol := by
  constructor
  · refine ⟨none, ?_, nofun⟩
    have notFirst : ¬ usizeRange - 1 = 0 := by decide
    have notAscii : ¬ usizeRange - 1 ≤ 128 := by decide
    rw [StringInterner.resolve, release, (Symbol.index_of_zero zero).2]
    dsimp only
    rw [if_neg notFirst, if_neg notAscii, if_pos outside]
    split
    · rfl
    · rfl
  · exact ⟨none, by rw [StringInterner.offsetOf, if_pos outside], nofun⟩

end Grounded

/-- After any calls, some of which may have panicked, a symbol made from any raw number is
rejected unless it was issued, exactly when its low 24 bits are not zero or, in a release
build, its shard does not exist. -/
theorem rejects_iff_of_run {uninitialised : Memory} {internerId count : Nat}
    {interner last : StringInterner build} {labels : List (Option Symbol)} {raw : UInt32}
    {symbol : Symbol}
    (created : withCapacityAndShards build uninitialised internerId count = .ok interner)
    (run : Steps Stores interner labels last) (made : Symbol.fromRaw raw = some symbol) :
    last.Rejects labels symbol ↔
      raw &&& Symbol.indexMask ≠ 0 ∨
        build.profile = .release ∧ last.shardCount ≤ symbol.shardId := by
  obtain ⟨other, otherEq, facts⟩ := withCapacityAndShards_ok build uninitialised internerId count
  cases otherEq.symm.trans created
  have grounded := facts.grounded.run run
  rw [List.nil_append] at grounded
  have lowBits : raw &&& Symbol.indexMask ≠ 0 ↔ symbol.lowBits ≠ 0 := by
    rw [Symbol.lowBits, Symbol.fromRaw_eq_some.mp made, ne_eq, ne_eq, ← UInt32.toNat_inj]
    rfl
  rw [lowBits]
  constructor
  · intro rejects
    by_cases zero : symbol.lowBits = 0
    · exact Or.inr (Grounded.rejects_of_zero zero rejects)
    · exact Or.inl zero
  · rintro (nonzero | ⟨release, outside⟩)
    · exact ⟨grounded.resolve_ok nonzero, grounded.offsetOf_ok nonzero⟩
    · by_cases zero : symbol.lowBits = 0
      · exact Grounded.rejects_of_release release zero outside
      · exact ⟨grounded.resolve_ok zero, grounded.offsetOf_ok zero⟩

/-- The symbol of a string that is not static names the string's shard and an index. -/
theorem Numbered.parts {interner : StringInterner build} {contents : Contents} {value : String}
    {symbol : Symbol} (numbered : interner.Numbered contents value symbol)
    (notStatic : staticSymbol? value = none) (small : interner.shardOf value < 2 ^ 8) :
    symbol.shardId = interner.shardOf value ∧ symbol.raw &&& Symbol.indexMask ≠ 0 := by
  rcases numbered with isStatic | ⟨_, index, _, made⟩
  · rw [notStatic] at isStatic
    cases isStatic
  · constructor
    · rw [Symbol.shardId_of_new made]
      exact UInt8.toNat_ofNat_of_lt' small
    · intro zero
      have lowBits := Symbol.lowBits_of_new made
      rw [Symbol.lowBits, zero] at lowBits
      exact absurd lowBits (Nat.succ_ne_zero index).symm

/-- After two calls the symbol of the first is answered, and the number 7, which neither
call gave, is not. -/
theorem rejects_iff_of_run_two :
    ∃ (interner last : StringInterner ⟨.debug, fun _ => 0⟩) (first second foreign : Symbol),
      withCapacityAndShards _ (fun _ => 0) 1 16 = .ok interner ∧
        Steps Stores interner [some first, some second] last ∧
        last.resolve first = .ok (some "ab") ∧ last.Rejects [some first, some second] first ∧
        Symbol.fromRaw 7 = some foreign ∧ foreign ≠ first ∧ foreign ≠ second ∧
        last.Rejects [some first, some second] foreign := by
  obtain ⟨interner, new, created⟩ :=
    withCapacityAndShards_ok ⟨.debug, fun _ => 0⟩ (fun _ => 0) 1 16
  have wide := created.regionSize_ge
  obtain ⟨first, one, oneMade, called⟩ :=
    created.called.exists_next (show 2 ^ 20 ≤ interner.pool.regionSize from wide)
      (show recordsSize ([] ++ ["ab"]) ≤ 2 ^ 20 by decide)
  obtain ⟨second, last, lastMade, _⟩ :=
    called.exists_next wide (show recordsSize (["ab"] ++ ["cd"]) ≤ 2 ^ 20 by decide)
  have run : Steps Stores interner [some first, some second] last :=
    (Steps.single (.interned oneMade)).step (.interned lastMade)
  obtain ⟨stored, interned⟩ :=
    created.layout.getOrIntern_ok Contents.distinct_empty (Or.inl rfl) oneMade
  obtain ⟨grown, moreInterned⟩ :=
    interned.layout.getOrIntern_ok interned.distinct (Or.inl rfl) lastMade
  have numbered := interned.numbered.mono (moreInterned.shape.shardOf "ab")
    (moreInterned.grows _)
  have home : ∀ value, last.shardOf value =
      (hashOf ⟨.debug, fun _ => 0⟩ value &&& UInt64.ofNat (clampShardCount 16 - 1)).toNat :=
    fun value => ((interned.shape.trans moreInterned.shape).shardOf value).trans
      (created.shardOf_eq value)
  obtain ⟨firstShard, firstIndex⟩ := numbered.parts (by decide) (by rw [home]; decide)
  obtain ⟨secondShard, _⟩ := moreInterned.numbered.parts (by decide) (by rw [home]; decide)
  rw [home] at firstShard secondShard
  have made : Symbol.fromRaw 7 = some ⟨7, by decide⟩ := rfl
  refine ⟨interner, last, first, second, _, new, run,
    moreInterned.layout.resolve_eq_some.mpr numbered,
    (rejects_iff_of_run new run (Symbol.fromRaw_raw first)).mpr (Or.inl firstIndex), made, ?_, ?_,
    (rejects_iff_of_run new run made).mpr (Or.inl (by decide))⟩
  · rintro rfl
    exact absurd firstShard (by decide)
  · rintro rfl
    exact absurd secondShard (by decide)

/-- The number 2^24, shard one without an index, is not rejected. -/
theorem not_rejects_shardOne : ∃ interner : StringInterner ⟨.release, fun _ => 0⟩,
    withCapacityAndShards ⟨.release, fun _ => 0⟩ (fun _ => 0) 1 16 = .ok interner ∧
      ∃ symbol, Symbol.fromRaw 0x01000000 = some symbol ∧ ¬ interner.Rejects [] symbol := by
  obtain ⟨interner, created, facts⟩ :=
    withCapacityAndShards_ok ⟨.release, fun _ => 0⟩ (fun _ => 0) 1 16
  have made : Symbol.fromRaw 0x01000000 = some ⟨0x01000000, by decide⟩ := rfl
  refine ⟨interner, created, _, made, fun rejects => ?_⟩
  have outside := (Grounded.rejects_of_zero (by decide) rejects).2
  rw [facts.shardCount] at outside
  exact absurd outside (by decide)

end StringInterner

end Boomerang
