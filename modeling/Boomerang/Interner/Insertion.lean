import Boomerang.Interner.Layout

/-!
# Inserting keeps the layout

`insertVacant` appends one string to the contents of its shard and numbers it with
the old length of the shard. From this follow the specifications of the sections
of `get_or_intern`, of `get` and of `resolve`.
-/

namespace Boomerang

open Foundation

namespace StringInterner

variable {build : Build}

/-- What no operation changes after an interner is created. -/
structure SameShape (before after : StringInterner build) : Prop where
  internerId : after.internerId = before.internerId
  shardCount : after.shardCount = before.shardCount
  shardMask : after.shardMask = before.shardMask
  poolShards : after.pool.shardCount = before.pool.shardCount
  regionSize : after.pool.regionSize = before.pool.regionSize
  headerSize : after.pool.headerSize = before.pool.headerSize

namespace SameShape

variable {before middle after : StringInterner build}

theorem refl (interner : StringInterner build) : SameShape interner interner :=
  ⟨rfl, rfl, rfl, rfl, rfl, rfl⟩

theorem trans (first : SameShape before middle) (second : SameShape middle after) :
    SameShape before after :=
  ⟨second.internerId.trans first.internerId, second.shardCount.trans first.shardCount,
    second.shardMask.trans first.shardMask, second.poolShards.trans first.poolShards,
    second.regionSize.trans first.regionSize, second.headerSize.trans first.headerSize⟩

theorem shardOf (shape : SameShape before after) (value : String) :
    after.shardOf value = before.shardOf value := by
  rw [StringInterner.shardOf, StringInterner.shardOf, shape.shardMask]

theorem regionStart (shape : SameShape before after) (shardId : Nat) :
    after.pool.regionStart shardId = before.pool.regionStart shardId := by
  rw [MemoryPool.regionStart, MemoryPool.regionStart, shape.headerSize, shape.regionSize]

end SameShape

/-- The parts of a successful insertion. -/
structure Inserted (before : StringInterner build) (value : String) (symbol : Symbol)
    (offset : Nat) (after : StringInterner build) : Prop where
  shape : SameShape before after
  pool : ∃ place, offset = place + 4 ∧
    before.pool.alloc build.profile (before.shardOf value) value = .ok place after.pool
  strings : ∃ index, Symbol.new (UInt8.ofNat (before.shardOf value)) index = .ok symbol ∧
    (before.shards (before.shardOf value)).strings.push (offset - 4) =
      .ok index (after.shards (before.shardOf value)).strings
  entries : (after.shards (before.shardOf value)).entries =
    (before.shards (before.shardOf value)).entries ++
      [⟨hashOf build value, prefix8 (bytes value), symbol⟩]
  others : ∀ shardId ≠ before.shardOf value, after.shards shardId = before.shards shardId

/-- A string is stored when its record is allocated, its offset pushed and its symbol
numbered. -/
theorem insertVacant_eq_ok {interner next : StringInterner build} {value : String}
    {symbol : Symbol} {offset : Nat} :
    interner.insertVacant value = .ok (symbol, offset) next ↔
      ∃ place pool index strings,
        interner.pool.alloc build.profile (interner.shardOf value) value = .ok place pool ∧
        (interner.shards (interner.shardOf value)).strings.push place = .ok index strings ∧
        Symbol.new (UInt8.ofNat (interner.shardOf value)) index = .ok symbol ∧
        offset = place + 4 ∧
        next = ({ interner with pool := pool } : StringInterner build).setShard
          (interner.shardOf value) ⟨(interner.shards (interner.shardOf value)).entries ++
            [⟨hashOf build value, prefix8 (bytes value), symbol⟩], strings⟩ := by
  unfold insertVacant
  dsimp only
  constructor
  · intro success
    split at success
    · cases success
    rename_i place pool allocated
    split at success
    · cases success
    rename_i index strings pushed
    split at success
    · cases success
    rename_i numbered made
    cases success
    exact ⟨place, pool, index, strings, allocated, pushed, made, rfl, rfl⟩
  · rintro ⟨place, pool, index, strings, allocated, pushed, made, rfl, rfl⟩
    simp only [allocated, pushed, made]

/-- A string is not stored when its record, its offset or its symbol is refused. What was
done before stays done. -/
theorem insertVacant_error {interner next : StringInterner build} {value : String}
    {fault : Fault} (failed : interner.insertVacant value = .error fault next) :
    (∃ pool, interner.pool.alloc build.profile (interner.shardOf value) value =
        .error fault pool ∧ next = { interner with pool := pool }) ∨
      ∃ place pool strings,
        interner.pool.alloc build.profile (interner.shardOf value) value = .ok place pool ∧
        next = ({ interner with pool := pool } : StringInterner build).setShard
          (interner.shardOf value) { interner.shards (interner.shardOf value) with
            strings := strings } ∧
        ((interner.shards (interner.shardOf value)).strings.push place = .error fault strings ∨
          ∃ index,
            (interner.shards (interner.shardOf value)).strings.push place = .ok index strings ∧
            Symbol.new (UInt8.ofNat (interner.shardOf value)) index = .error fault) := by
  unfold insertVacant at failed
  dsimp only at failed
  split at failed
  · rename_i pool refused
    cases failed
    exact Or.inl ⟨pool, refused, rfl⟩
  rename_i place pool allocated
  split at failed
  · rename_i strings refused
    cases failed
    exact Or.inr ⟨place, pool, strings, allocated, rfl, Or.inl refused⟩
  rename_i index strings pushed
  split at failed
  · rename_i refused
    cases failed
    exact Or.inr ⟨place, pool, strings, allocated, rfl, Or.inr ⟨index, pushed, refused⟩⟩
  · cases failed

/-- What a successful `insertVacant` did, whatever the state it started from. -/
theorem insertVacant_ok {interner next : StringInterner build} {value : String}
    {symbol : Symbol} {offset : Nat} (sized : interner.pool.Sized)
    (storable : MemoryPool.Storable build.profile value)
    (success : interner.insertVacant value = .ok (symbol, offset) next) :
    Inserted interner value symbol offset next := by
  obtain ⟨place, pool, index, strings, allocated, pushed, made, rfl, rfl⟩ :=
    insertVacant_eq_ok.mp success
  obtain ⟨_, _, _, _, rfl⟩ := MemoryPool.alloc_ok sized storable allocated
  refine ⟨⟨rfl, rfl, rfl, rfl, rfl, rfl⟩, ⟨place, rfl, allocated⟩, ⟨index, made, ?_⟩, ?_, ?_⟩
  · simpa [setShard] using pushed
  · simp [setShard]
  · intro other different
    simp [setShard, different]

/-- Without debug assertions a string is stored like any other of the same shard that
its length and text are cut to; only the entry tells them apart. -/
theorem insertVacant_cut {interner next : StringInterner build} {long short : String}
    {symbol : Symbol} {offset : Nat} (release : build.profile = .release)
    (len : byteLength long % u32Range = byteLength short % u32Range)
    (text : (bytes long).take (byteLength short % u32Range) =
      (bytes short).take (byteLength short % u32Range))
    (shard : interner.shardOf long = interner.shardOf short)
    (success : interner.insertVacant short = .ok (symbol, offset) next) :
    interner.insertVacant long = .ok (symbol, offset) (next.setShard (interner.shardOf short)
      ⟨(interner.shards (interner.shardOf short)).entries ++
          [⟨hashOf build long, prefix8 (bytes long), symbol⟩],
        (next.shards (interner.shardOf short)).strings⟩) := by
  unfold insertVacant at success ⊢
  rw [release] at success ⊢
  dsimp only at success ⊢
  rw [shard, MemoryPool.alloc_cut len text]
  cases allocated : interner.pool.alloc .release (interner.shardOf short) short with
  | error fault pool => simp [allocated] at success
  | ok place pool =>
  simp only [allocated] at success ⊢
  cases pushed : (interner.shards (interner.shardOf short)).strings.push place with
  | error fault strings => simp [pushed] at success
  | ok index strings =>
  simp only [pushed] at success ⊢
  cases made : Symbol.new (UInt8.ofNat (interner.shardOf short)) index with
  | error fault => simp [made] at success
  | ok numbered =>
  simp only [made] at success ⊢
  cases success
  simp only [setShard, if_pos]
  congr 2
  funext other
  by_cases same : other = interner.shardOf short <;> simp [same]

namespace Layout

variable {interner next : StringInterner build} {contents : Contents}

/-- An insertion appends the string to its shard and numbers it with the shard's
old length. -/
theorem inserted (layout : interner.Layout contents) {value : String} {symbol : Symbol}
    {offset : Nat} (notStatic : staticSymbol? value = none)
    (storable : MemoryPool.Storable build.profile value)
    (done : Inserted interner value symbol offset next) :
    next.Layout (contents.push (interner.shardOf value) value) ∧
      Symbol.new (UInt8.ofNat (interner.shardOf value))
        (contents (interner.shardOf value)).length = .ok symbol ∧
      offset = next.textOffset (interner.shardOf value) symbol := by
  have shape := done.shape
  have bounded := layout.shardOf_lt value
  obtain ⟨place, rfl, allocated⟩ := done.pool
  obtain ⟨index, made, pushed⟩ := done.strings
  rw [Nat.add_sub_cancel] at pushed
  obtain ⟨_, short, room, placeEq, pool⟩ := MemoryPool.alloc_ok layout.sized storable allocated
  obtain ⟨indexEq, len, _, _, offsets⟩ := LockFreeStringArray.push_ok pushed
  have oldLen := layout.len _ bounded
  rw [oldLen] at indexEq offsets len
  rw [layout.cursor _ bounded] at room placeEq
  subst indexEq
  have memory : next.pool.memory = (interner.pool.store (interner.shardOf value) place
      (byteLength value) (paddedSize (byteLength value)) (bytes value)).memory :=
    congrArg MemoryPool.memory pool
  have real : place ≠ 0 := by
    have header := layout.sized.header
    rw [placeEq, MemoryPool.regionStart, header]
    omega
  -- Records of other positions lie before the new one or in another region.
  have kept : ∀ shardId < interner.shardCount, ∀ position stored,
      (contents shardId)[position]? = some stored →
      StoredAt next.pool.memory (interner.pool.regionStart shardId +
        recordsSize ((contents shardId).take position)) stored := by
    intro shardId inRange position stored here
    rw [memory]
    refine (layout.stored shardId inRange position stored here).store ?_
    have end' := recordsSize_take_lt here (List.getElem?_eq_some_iff.mp here).1
    rw [List.take_length] at end'
    have inside := layout.room shardId inRange
    by_cases same : shardId = interner.shardOf value
    · subst same
      omega
    · rcases interner.pool.regionStart_apart same with before | after <;> omega
  refine ⟨?_, made, ?_⟩
  · constructor
    case sized =>
      refine ⟨shape.headerSize.trans layout.sized.header, ?_, ?_⟩
      · rw [shape.poolShards, shape.regionSize, congrArg MemoryPool.capacity pool]
        exact layout.sized.regions
      · rw [congrArg MemoryPool.capacity pool]
        exact layout.sized.capacity
    case poolShards => rw [shape.poolShards, shape.shardCount, layout.poolShards]
    case powerOfTwo => exact shape.shardCount ▸ layout.powerOfTwo
    case mask => rw [shape.shardMask, shape.shardCount, layout.mask]
    case header =>
      rw [MemoryPool.headerBytes, shape.headerSize, shape.shardCount, ← layout.header, memory]
      have header := layout.sized.header
      rw [MemoryPool.headerBytes, header, MemoryPool.store, Memory.read_write_disjoint,
        Memory.read_write_disjoint]
      · rw [placeEq, MemoryPool.regionStart, header]
        omega
      · rw [placeEq, MemoryPool.regionStart, header]
        omega
    case cursor =>
      intro shardId inRange
      have old := layout.cursor shardId (shape.shardCount ▸ inRange)
      rw [congrArg MemoryPool.cursors pool]
      by_cases same : shardId = interner.shardOf value
      · subst same
        simp [MemoryPool.store, old]
      · simp [MemoryPool.store, old, same, Contents.push_other]
    case room =>
      intro shardId inRange
      rw [shape.regionSize]
      by_cases same : shardId = interner.shardOf value
      · subst same
        simpa using room
      · rw [Contents.push_other _ _ same]
        exact layout.room shardId (shape.shardCount ▸ inRange)
    case dense =>
      intro shardId inRange
      by_cases same : shardId = interner.shardOf value
      · subst same
        exact (layout.dense _ bounded).push real pushed
      · rw [done.others shardId same]
        exact layout.dense shardId (shape.shardCount ▸ inRange)
    case len =>
      intro shardId inRange
      rw [Contents.length_push, ← layout.len shardId (shape.shardCount ▸ inRange)]
      by_cases same : shardId = interner.shardOf value
      · subst same
        rw [len, oldLen, if_pos rfl]
      · rw [done.others shardId same, if_neg same, Nat.add_zero]
    case offset =>
      intro shardId inRange position below
      rw [shape.regionStart]
      obtain ⟨old, prefix'⟩ | ⟨rfl, rfl, _, prefix'⟩ :=
        Contents.getElem?_push (List.getElem?_eq_getElem below)
      · have oldBelow := (List.getElem?_eq_some_iff.mp old).1
        rw [prefix', ← layout.offset shardId (shape.shardCount ▸ inRange) position oldBelow]
        by_cases same : shardId = interner.shardOf value
        · subst same
          rw [offsets, if_neg (Nat.ne_of_lt oldBelow)]
        · rw [done.others shardId same]
      · rw [offsets, if_pos rfl, prefix', placeEq]
    case stored =>
      intro shardId inRange position stored here
      rw [shape.regionStart]
      obtain ⟨old, prefix'⟩ | ⟨rfl, rfl, rfl, prefix'⟩ := Contents.getElem?_push here
      · rw [prefix']
        exact kept shardId (shape.shardCount ▸ inRange) position stored old
      · rw [prefix', ← placeEq, memory]
        exact StoredAt.of_store _ _ _ _ _
    case entryCount =>
      intro shardId inRange
      rw [Contents.length_push, ← layout.entryCount shardId (shape.shardCount ▸ inRange)]
      by_cases same : shardId = interner.shardOf value
      · subst same
        rw [done.entries, List.length_append, List.length_singleton, if_pos rfl]
      · rw [done.others shardId same, if_neg same, Nat.add_zero]
    case entry =>
      intro shardId inRange position stored here
      obtain ⟨old, _⟩ | ⟨rfl, rfl, rfl, _⟩ := Contents.getElem?_push here
      · obtain ⟨numbered, numberedMade, entryAt⟩ :=
          layout.entry shardId (shape.shardCount ▸ inRange) position stored old
        refine ⟨numbered, numberedMade, ?_⟩
        by_cases same : shardId = interner.shardOf value
        · subst same
          rw [done.entries, List.getElem?_append_left (List.getElem?_eq_some_iff.mp entryAt).1]
          exact entryAt
        · rw [done.others shardId same]
          exact entryAt
      · refine ⟨symbol, made, ?_⟩
        rw [done.entries, ← layout.entryCount _ bounded, List.getElem?_concat_length]
    case home =>
      intro shardId inRange stored member
      rw [shape.shardOf]
      obtain old | ⟨rfl, rfl⟩ := Contents.mem_push.mp member
      · exact layout.home shardId (shape.shardCount ▸ inRange) stored old
      · rfl
    case proper =>
      intro shardId inRange stored member
      obtain old | ⟨_, rfl⟩ := Contents.mem_push.mp member
      · exact layout.proper shardId (shape.shardCount ▸ inRange) stored old
      · exact ⟨notStatic, short⟩
  · rw [textOffset, Symbol.issuedIndex_of_new made, offsets, if_pos rfl]

end Layout

end StringInterner

end Boomerang
