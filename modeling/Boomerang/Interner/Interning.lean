import Boomerang.Interner.Lookup

/-!
# Interning

An empty interner has empty contents. A call of `get_or_intern` either finds the
string, and changes nothing, or appends it to its shard; in both cases the symbol
it returns numbers the string. Contents only grow, so symbols keep their strings.
-/

namespace Boomerang

open Foundation

namespace Contents

/-- Every shard of the first contents is a prefix of the same shard of the second. -/
def Grows (before after : Contents) : Prop := ∀ shardId, before shardId <+: after shardId

theorem Grows.refl (contents : Contents) : Grows contents contents :=
  fun _ => List.prefix_rfl

theorem Grows.trans {first middle last : Contents} (left : Grows first middle)
    (right : Grows middle last) : Grows first last :=
  fun shardId => (left shardId).trans (right shardId)

theorem grows_push (contents : Contents) (shardId : Nat) (value : String) :
    Grows contents (contents.push shardId value) := by
  intro other
  by_cases same : other = shardId
  · subst same
    rw [push_self]
    exact List.prefix_append _ _
  · rw [push_other contents value same]

/-- No strings in any shard. -/
def empty : Contents := fun _ => []

theorem distinct_empty : empty.Distinct := fun _ => List.nodup_nil

end Contents

/-- The number of shards is a power of two of at most 128. -/
theorem clampShardCount_eq (count : Nat) :
    ∃ exponent ≤ 7, clampShardCount count = 2 ^ exponent := by
  unfold clampShardCount nextPowerOfTwo
  split
  · exact ⟨0, by decide, rfl⟩
  · rename_i large
    refine ⟨_, ?_, rfl⟩
    have nonzero : min (max count 1) 128 - 1 ≠ 0 := by omega
    have small := (Nat.log2_lt nonzero (k := 7)).mpr (by omega)
    omega

/-- A power of two of at most 128 is kept. -/
theorem clampShardCount_two_pow {exponent : Nat} (small : exponent ≤ 7) :
    clampShardCount (2 ^ exponent) = 2 ^ exponent := by
  have all : ∀ exponent : Fin 8, clampShardCount (2 ^ exponent.val) = 2 ^ exponent.val := by decide
  exact all ⟨exponent, by omega⟩

namespace StringInterner

variable {build : Build}

/-- What is fixed when an interner is created with a number of shards. -/
structure Created (interner : StringInterner build) (internerId count : Nat) : Prop where
  layout : interner.Layout Contents.empty
  internerId : interner.internerId = internerId
  shardCount : interner.shardCount = clampShardCount count
  regionSize : interner.pool.regionSize = (ARENA_CAPACITY - 4) / clampShardCount count / 4 * 4
  intact : ∀ shardId, (interner.pool.cursors shardId).poisoned = false

/-- An interner can be created with any number of shards, and is empty. -/
theorem withCapacityAndShards_ok (build : Build) (uninitialised : Memory)
    (internerId count : Nat) :
    ∃ interner : StringInterner build,
      withCapacityAndShards build uninitialised internerId count = .ok interner ∧
        Created interner internerId count := by
  obtain ⟨exponent, small, countEq⟩ := clampShardCount_eq count
  have limit : 2 ^ exponent ≤ 2 ^ 7 := Nat.pow_le_pow_right (by decide) small
  have positive : 0 < 2 ^ exponent := Nat.two_pow_pos exponent
  have capacity : ARENA_CAPACITY = 2 ^ 29 := by decide
  have header : MemoryPool.HEADER_SIZE = 4 := rfl
  have wide : 2 ^ 22 - 1 ≤ (ARENA_CAPACITY - 4) / 2 ^ exponent := by
    rw [Nat.le_div_iff_mul_le positive, capacity]
    calc (2 ^ 22 - 1) * 2 ^ exponent ≤ (2 ^ 22 - 1) * 2 ^ 7 := Nat.mul_le_mul_left _ limit
      _ ≤ 2 ^ 29 - 4 := by decide
  have used : 2 ^ exponent * ((ARENA_CAPACITY - 4) / 2 ^ exponent / 4 * 4) ≤
      ARENA_CAPACITY - 4 :=
    calc 2 ^ exponent * ((ARENA_CAPACITY - 4) / 2 ^ exponent / 4 * 4)
        ≤ 2 ^ exponent * ((ARENA_CAPACITY - 4) / 2 ^ exponent) :=
          Nat.mul_le_mul_left _ (Nat.div_mul_le_self _ _)
      _ ≤ ARENA_CAPACITY - 4 := Nat.mul_div_le _ _
  unfold withCapacityAndShards MemoryPool.new
  dsimp only
  rw [countEq, header, if_neg (by omega), if_neg (by omega), if_neg (by omega)]
  refine ⟨_, rfl, ⟨?_, rfl, countEq.symm, by rw [countEq], fun _ => rfl⟩⟩
  refine ⟨⟨rfl, ?_, ?_⟩, rfl, ⟨exponent, small, rfl⟩, rfl, ?_, fun _ _ => rfl,
    fun _ _ => Nat.zero_le _,
    fun _ _ => LockFreeStringArray.dense_new _, fun _ _ => rfl, ?_, ?_, fun _ _ => rfl, ?_, ?_, ?_⟩
  · have total : 4 + 2 ^ exponent * ((ARENA_CAPACITY - 4) / 2 ^ exponent / 4 * 4) ≤
        ARENA_CAPACITY := by omega
    exact total
  · show ARENA_CAPACITY < u32Range
    decide
  · have written := Memory.read_write_same uninitialised 0 (toLE 4 (2 ^ exponent))
    rwa [length_toLE] at written
  · intro _ _ index below
    cases below
  · intro _ _ index value here
    cases here
  · intro _ _ index value here
    cases here
  · intro _ _ value member
    cases member
  · intro _ _ value member
    cases member

/-- A symbol keeps its string while the contents grow. -/
theorem Numbered.mono {before after : StringInterner build} {contents grown : Contents}
    {value : String} {symbol : Symbol} (home : after.shardOf value = before.shardOf value)
    (grows : contents (before.shardOf value) <+: grown (before.shardOf value))
    (numbered : Numbered before contents value symbol) : Numbered after grown value symbol := by
  rcases numbered with isStatic | ⟨notStatic, index, here, made⟩
  · exact Or.inl isStatic
  · refine Or.inr ⟨notStatic, index, ?_, home ▸ made⟩
    obtain ⟨rest, same⟩ := grows
    rw [home, ← same, List.getElem?_append_left (List.getElem?_eq_some_iff.mp here).1]
    exact here

/-- What a section of `get_or_intern` on one string does to the contents. -/
structure Interned (before : StringInterner build) (contents : Contents) (value : String)
    (symbol : Symbol) (after : StringInterner build) (grown : Contents) : Prop where
  shape : SameShape before after
  layout : after.Layout grown
  distinct : grown.Distinct
  contents : before.Numbered contents value symbol ∧ after = before ∧ grown = contents ∨
    value ∉ contents (before.shardOf value) ∧
      grown = contents.push (before.shardOf value) value
  numbered : after.Numbered grown value symbol

theorem Interned.grows {before after : StringInterner build} {contents grown : Contents}
    {value : String} {symbol : Symbol}
    (interned : Interned before contents value symbol after grown) :
    Contents.Grows contents grown := by
  rcases interned.contents with ⟨_, _, rfl⟩ | ⟨_, rfl⟩
  · exact Contents.Grows.refl _
  · exact Contents.grows_push _ _ _

/-- An interner in use: it holds the contents, without repetition, in regions of the
size it was created with. -/
structure Holds (interner : StringInterner build) (contents : Contents) : Prop where
  layout : interner.Layout contents
  distinct : contents.Distinct
  regionSize : interner.pool.regionSize = (ARENA_CAPACITY - 4) / interner.shardCount / 4 * 4

theorem Created.holds {interner : StringInterner build} {internerId count : Nat}
    (created : Created interner internerId count) : interner.Holds Contents.empty where
  layout := created.layout
  distinct := Contents.distinct_empty
  regionSize := by rw [created.regionSize, created.shardCount]

theorem Holds.of_sameShape {before after : StringInterner build} {contents grown : Contents}
    (holds : before.Holds contents) (shape : SameShape before after)
    (layout : after.Layout grown) (distinct : grown.Distinct) : after.Holds grown :=
  ⟨layout, distinct, by rw [shape.regionSize, shape.shardCount, holds.regionSize]⟩

theorem Interned.holds {before after : StringInterner build} {contents grown : Contents}
    {value : String} {symbol : Symbol} (holds : before.Holds contents)
    (interned : Interned before contents value symbol after grown) : after.Holds grown :=
  holds.of_sameShape interned.shape interned.layout interned.distinct

namespace Layout

variable {interner next : StringInterner build} {contents : Contents}

/-- A string that is already numbered is left as it is. -/
theorem interned_of_numbered (layout : interner.Layout contents) (distinct : contents.Distinct)
    {value : String} {symbol : Symbol} (numbered : interner.Numbered contents value symbol) :
    Interned interner contents value symbol interner contents :=
  ⟨SameShape.refl _, layout, distinct, Or.inl ⟨numbered, rfl, rfl⟩, numbered⟩

/-- The read-locked section finds a string with the offset of its text, and misses
exactly the strings that are not stored. -/
theorem readSection_eq (layout : interner.Layout contents) (value : String) :
    interner.readSection value = .ok ((interner.findUnchecked value).map fun symbol =>
      (symbol, interner.textOffset (interner.shardOf value) symbol)) := by
  unfold readSection
  dsimp only
  cases found : interner.findUnchecked value with
  | none => rfl
  | some symbol =>
      obtain ⟨index, here, _, made⟩ := layout.findUnchecked_eq_some.mp found
      have text := layout.get_eq (layout.shardOf_lt value) index
      rw [here] at text
      simp only [Symbol.issuedIndex_of_new made, text, Option.map_some]

/-- The write-locked section finds the string or appends it. -/
theorem writeSection_ok (layout : interner.Layout contents) (distinct : contents.Distinct)
    {value : String} {symbol : Symbol} {offset : Nat} (notStatic : staticSymbol? value = none)
    (storable : MemoryPool.Storable build.profile value)
    (success : interner.writeSection value = .ok (symbol, offset) next) :
    ∃ grown, Interned interner contents value symbol next grown ∧
      offset = next.textOffset (interner.shardOf value) symbol := by
  unfold writeSection at success
  split at success
  · rename_i found foundEq
    cases success
    have numbered := (firstIndex_iff distinct notStatic).mp (layout.findChecked_eq_some.mp foundEq)
    exact ⟨contents, layout.interned_of_numbered distinct numbered, rfl⟩
  · rename_i missing
    have absent := layout.findChecked_eq_none.mp missing
    have done := insertVacant_ok layout.sized storable success
    obtain ⟨nextLayout, made, offsetEq⟩ := layout.inserted notStatic storable done
    refine ⟨contents.push (interner.shardOf value) value, ⟨done.shape, nextLayout,
      distinct.push absent, Or.inr ⟨absent, rfl⟩, ?_⟩, offsetEq⟩
    refine Or.inr ⟨notStatic, (contents (interner.shardOf value)).length, ?_, ?_⟩
    · rw [done.shape.shardOf, Contents.push_self, List.getElem?_concat_length]
    · rw [done.shape.shardOf]
      exact made

/-- `get_or_intern` past the cache finds the string or appends it. -/
theorem internShared_ok (layout : interner.Layout contents) (distinct : contents.Distinct)
    {value : String} {symbol : Symbol} {offset : Nat} (notStatic : staticSymbol? value = none)
    (storable : MemoryPool.Storable build.profile value)
    (success : interner.internShared value = .ok (symbol, offset) next) :
    ∃ grown, Interned interner contents value symbol next grown ∧
      offset = next.textOffset (interner.shardOf value) symbol := by
  unfold internShared at success
  rw [layout.readSection_eq] at success
  cases found : interner.findUnchecked value with
  | some foundSymbol =>
      rw [found] at success
      cases success
      have numbered :=
        (firstIndex_iff distinct notStatic).mp (layout.findUnchecked_eq_some.mp found)
      exact ⟨contents, layout.interned_of_numbered distinct numbered, rfl⟩
  | none =>
      rw [found] at success
      exact layout.writeSection_ok distinct notStatic storable success

/-- `get_or_intern` finds the string or appends it. -/
theorem getOrIntern_ok (layout : interner.Layout contents) (distinct : contents.Distinct)
    {value : String} {symbol : Symbol} (storable : MemoryPool.Storable build.profile value)
    (success : interner.getOrIntern value = .ok symbol next) :
    ∃ grown, Interned interner contents value symbol next grown := by
  unfold getOrIntern at success
  cases isStatic : staticSymbol? value with
  | some static =>
      rw [isStatic] at success
      cases success
      exact ⟨contents, layout.interned_of_numbered distinct (Or.inl isStatic)⟩
  | none =>
      rw [isStatic] at success
      cases shared : interner.internShared value with
      | error fault after =>
          rw [shared] at success
          cases success
      | ok found after =>
          rw [shared] at success
          cases success
          obtain ⟨grown, interned, _⟩ := layout.internShared_ok distinct isStatic storable shared
          exact ⟨grown, interned⟩

/-- A call for a string that is not there inserts it. -/
theorem getOrIntern_absent (layout : interner.Layout contents)
    {value : String} (notStatic : staticSymbol? value = none)
    (absent : interner.findChecked value = none) :
    interner.getOrIntern value = match interner.insertVacant value with
      | .error fault next => .error fault next
      | .ok (symbol, _) next => .ok symbol next := by
  have missed : interner.findUnchecked value = none :=
    (layout.findChecked_eq_findUnchecked value) ▸ absent
  have read : interner.readSection value = .ok none := by
    rw [layout.readSection_eq, missed, Option.map_none]
  have shared : interner.internShared value = interner.insertVacant value := by
    simp only [internShared, read, writeSection, absent]
  cases inserted : interner.insertVacant value with
  | error fault next => simp only [getOrIntern, notStatic, shared, inserted]
  | ok found next => simp only [getOrIntern, notStatic, shared, inserted]

/-- A call finds the string or inserts it. -/
theorem getOrIntern_cases (layout : interner.Layout contents) (distinct : contents.Distinct)
    {value : String} {symbol : Symbol} (success : interner.getOrIntern value = .ok symbol next) :
    interner.Numbered contents value symbol ∧ next = interner ∨
      staticSymbol? value = none ∧ value ∉ contents (interner.shardOf value) ∧
        ∃ offset, interner.insertVacant value = .ok (symbol, offset) next := by
  cases isStatic : staticSymbol? value with
  | some static =>
      rw [getOrIntern, isStatic] at success
      cases success
      exact Or.inl ⟨Or.inl isStatic, rfl⟩
  | none =>
      cases found : interner.findChecked value with
      | some first =>
          have numbered :=
            (firstIndex_iff distinct isStatic).mp (layout.findChecked_eq_some.mp found)
          rw [layout.findChecked_eq_findUnchecked] at found
          rw [getOrIntern, isStatic] at success
          simp only [internShared, layout.readSection_eq, found, Option.map_some] at success
          cases success
          exact Or.inl ⟨numbered, rfl⟩
      | none =>
          rw [layout.getOrIntern_absent isStatic found] at success
          refine Or.inr ⟨rfl, layout.findChecked_eq_none.mp found, ?_⟩
          cases inserted : interner.insertVacant value with
          | error fault after =>
              simp only [inserted] at success
              cases success
          | ok pair after =>
              simp only [inserted] at success
              cases success
              exact ⟨pair.2, rfl⟩

/-- The number of interned strings. -/
theorem len_eq (layout : interner.Layout contents) :
    interner.len =
      ((List.range interner.shardCount).map fun shardId => (contents shardId).length).sum := by
  unfold StringInterner.len
  congr 1
  apply List.map_congr_left
  intro shardId member
  exact layout.len shardId (List.mem_range.mp member)

/-- A string that fits the rest of its region is inserted in both profiles. -/
theorem insertVacant_of_room (layout : interner.Layout contents) (value : String)
    (intact : (interner.pool.cursors (interner.shardOf value)).poisoned = false)
    (room : recordsSize (contents (interner.shardOf value)) + paddedSize (byteLength value) ≤
      interner.pool.regionSize)
    (indexRoom : (contents (interner.shardOf value)).length < Symbol.indexMask.toNat) :
    ∃ symbol offset next, interner.insertVacant value = .ok (symbol, offset) next ∧
      ∀ shardId, (next.pool.cursors shardId).poisoned =
        (interner.pool.cursors shardId).poisoned := by
  have bounded := layout.shardOf_lt value
  have regionEnd := layout.sized.regionEnd (layout.poolShards.symm ▸ bounded)
  have capacity := layout.sized.capacity
  have header := layout.sized.header
  have size := le_paddedSize (byteLength value)
  have short : byteLength value + 8 < u32Range := by
    rw [MemoryPool.regionStart, header] at regionEnd
    omega
  have allocated := MemoryPool.alloc_of_room build.profile layout.sized
    (layout.poolShards.symm ▸ bounded) intact short
    (by rw [layout.cursor _ bounded]; exact room)
  have limit := Symbol.toNat_indexMask ▸ indexRoom
  have arrayRoom : (interner.shards (interner.shardOf value)).strings.len <
      NUM_CHUNKS * CHUNK_SIZE := by
    rw [layout.len _ bounded, LockFreeStringArray.NUM_CHUNKS_mul_CHUNK_SIZE]
    omega
  obtain ⟨strings, pushed⟩ := LockFreeStringArray.push_of_room
    (interner.pool.regionStart (interner.shardOf value) +
      (interner.pool.cursors (interner.shardOf value)).value) arrayRoom
  obtain ⟨symbol, made⟩ := Symbol.exists_new (UInt8.ofNat (interner.shardOf value)) indexRoom
  rw [layout.len _ bounded] at pushed
  refine ⟨symbol, _, _, by unfold insertVacant; simp only [allocated, pushed, made]; rfl, ?_⟩
  intro shardId
  simp only [setShard, MemoryPool.store]
  split <;> rfl

end Layout

/-- The shard of a string, from its hash and the number of shards asked for. -/
theorem Created.shardOf_eq {interner : StringInterner build} {internerId count : Nat}
    (created : Created interner internerId count) (value : String) :
    interner.shardOf value =
      (hashOf build value &&& UInt64.ofNat (clampShardCount count - 1)).toNat := by
  rw [shardOf, created.layout.mask, created.shardCount]

/-- Every region of a new interner holds a megabyte. -/
theorem Created.regionSize_ge {interner : StringInterner build} {internerId count : Nat}
    (created : Created interner internerId count) : 2 ^ 20 ≤ interner.pool.regionSize := by
  obtain ⟨exponent, small, countEq⟩ := clampShardCount_eq count
  have limit : 2 ^ exponent ≤ 2 ^ 7 := Nat.pow_le_pow_right (by decide) small
  have wide : 2 ^ 21 ≤ (ARENA_CAPACITY - 4) / 2 ^ exponent := by
    rw [Nat.le_div_iff_mul_le (Nat.two_pow_pos exponent)]
    calc 2 ^ 21 * 2 ^ exponent ≤ 2 ^ 21 * 2 ^ 7 := Nat.mul_le_mul_left _ limit
      _ ≤ ARENA_CAPACITY - 4 := by decide
  rw [created.regionSize, countEq]
  omega

/-- A new interner stores any string of less than a megabyte. -/
theorem Created.insertVacant_of_short {interner : StringInterner build} {internerId count : Nat}
    (created : Created interner internerId count) (value : String)
    (short : byteLength value + 8 ≤ 2 ^ 20) :
    ∃ symbol offset next, interner.insertVacant value = .ok (symbol, offset) next := by
  have wide := created.regionSize_ge
  have size := paddedSize_lt (byteLength value)
  obtain ⟨symbol, offset, next, inserted, _⟩ := created.layout.insertVacant_of_room value
    (created.intact (interner.shardOf value))
    (show 0 + paddedSize (byteLength value) ≤ interner.pool.regionSize by omega)
    (Symbol.toNat_indexMask ▸ (by decide : 0 < 16777215))
  exact ⟨symbol, offset, next, inserted⟩

/-- A release build stores a string in a new interner of one shard cut to the length that
its header counts. Only the entry tells it from the short string. -/
theorem Created.insertVacant_cut {interner : StringInterner build} {internerId : Nat}
    (created : Created interner internerId 1) (release : build.profile = .release)
    {long short : String} (notStatic : staticSymbol? short = none)
    (fits : byteLength short + 8 ≤ 2 ^ 20) (len : byteLength long % u32Range = byteLength short)
    (text : (bytes long).take (byteLength short) = bytes short) :
    ∃ symbol offset, ∃ stored : StringInterner build,
      stored.Holds (Contents.empty.push 0 short) ∧ stored.shardCount = 1 ∧
      Symbol.new 0 0 = .ok symbol ∧
      interner.insertVacant long = .ok (symbol, offset) (stored.setShard 0
        ⟨[⟨hashOf build long, prefix8 (bytes long), symbol⟩], (stored.shards 0).strings⟩) := by
  have oneShard : interner.shardCount = 1 := created.shardCount
  have onlyShard : ∀ value, interner.shardOf value = 0 := fun value => by
    have bounded := created.layout.shardOf_lt value
    omega
  have small : byteLength short + 7 < u32Range := by
    have range : u32Range = 2 ^ 32 := rfl
    omega
  have whole : byteLength short % u32Range = byteLength short := Nat.mod_eq_of_lt (by omega)
  have storable : MemoryPool.Storable build.profile short := Or.inr small
  obtain ⟨symbol, offset, stored, inserted⟩ := created.insertVacant_of_short short fits
  have done := insertVacant_ok created.layout.sized storable inserted
  obtain ⟨layout, made, _⟩ := created.layout.inserted notStatic storable done
  have cut := StringInterner.insertVacant_cut release (len.trans whole.symm)
    (by rw [whole, text, take_byteLength]) ((onlyShard long).trans (onlyShard short).symm) inserted
  rw [onlyShard] at layout made cut
  have noEntries : (interner.shards 0).entries = [] :=
    List.length_eq_zero_iff.mp (created.layout.entryCount 0 (by omega))
  rw [noEntries, List.nil_append] at cut
  exact ⟨symbol, offset, stored,
    created.holds.of_sameShape done.shape layout (Contents.distinct_empty.push List.not_mem_nil),
    done.shape.shardCount.trans oneShard, made, cut⟩

/-- More letters than a length header counts, by two. -/
def longText : String := String.ofList (List.replicate (2 ^ 32 + 2) 'a')

theorem bytes_longText : bytes longText = 97 :: 97 :: List.replicate (2 ^ 32) 97 :=
  have letters : ∀ count, bytes (String.ofList (List.replicate (count + 2) 'a')) =
      97 :: 97 :: List.replicate count 97 := fun _ => bytes_replicate rfl _
  letters (2 ^ 32)

theorem byteLength_longText : byteLength longText = u32Range + 2 := by
  rw [byteLength, bytes_longText, List.length_cons, List.length_cons, List.length_replicate,
    u32Range]

/-- The interner after a release build stored `longText` in its one shard: the arena
and the offsets are those of the first two letters. -/
structure CutToTwo (short : StringInterner build) (symbol : Symbol)
    (after : StringInterner build) : Prop where
  holds : short.Holds (Contents.empty.push 0 "aa")
  oneShard : short.shardCount = 1
  made : Symbol.new 0 0 = .ok symbol
  after : after = short.setShard 0
    ⟨[⟨hashOf build longText, prefix8 (bytes longText), symbol⟩], (short.shards 0).strings⟩

/-- A release build stores `longText` cut to two letters. -/
theorem Created.insertVacant_long {interner : StringInterner build} {internerId : Nat}
    (created : Created interner internerId 1) (release : build.profile = .release) :
    staticSymbol? longText = none ∧ ∃ symbol offset short after, CutToTwo short symbol after ∧
      interner.insertVacant longText = .ok (symbol, offset) after := by
  obtain ⟨symbol, offset, short, holds, oneShard, made, stored⟩ :=
    created.insertVacant_cut release (show staticSymbol? "aa" = none by decide) (by decide)
      (by
        rw [byteLength_longText, Nat.add_mod_left]
        rfl)
      (by
        rw [bytes_longText, show byteLength "aa" = 2 by decide]
        generalize List.replicate (2 ^ 32) (97 : UInt8) = rest
        rfl)
  exact ⟨by rw [staticSymbol?, bytes_longText], symbol, offset, short, _,
    ⟨holds, oneShard, made, rfl⟩, stored⟩

end StringInterner

end Boomerang
