import Boomerang.Interner.StringInterner

/-!
# What an interner holds

The abstract contents of an interner are, for each shard, the strings stored in it
in order. `Layout` says that the four structures of the interner agree with them:
the arena holds the records one after the other, the cursor is past the last one,
the offset array points at them, and the hash table has one entry for each. Every
operation is specified once here against the contents; later modules use these
specifications and not the operations.
-/

namespace Boomerang

open Foundation

/-- The strings of each shard, in the order they were stored. -/
abbrev Contents := Nat → List String

namespace Contents

/-- Store one more string in a shard. -/
def push (contents : Contents) (shardId : Nat) (value : String) : Contents := fun other =>
  if other = shardId then contents other ++ [value] else contents other

@[simp] theorem push_self (contents : Contents) (shardId : Nat) (value : String) :
    contents.push shardId value shardId = contents shardId ++ [value] := by
  simp [push]

theorem push_other (contents : Contents) {shardId other : Nat} (value : String)
    (different : other ≠ shardId) : contents.push shardId value other = contents other := by
  simp [push, different]

/-- A string of the pushed contents is an old one at its old place, or the new one at
the end of its shard. -/
theorem getElem?_push {contents : Contents} {shardId other position : Nat}
    {value stored : String}
    (here : (contents.push shardId value other)[position]? = some stored) :
    ((contents other)[position]? = some stored ∧
        (contents.push shardId value other).take position = (contents other).take position) ∨
      (other = shardId ∧ position = (contents shardId).length ∧ stored = value ∧
        (contents.push shardId value other).take position = contents shardId) := by
  by_cases same : other = shardId
  · subst same
    rw [push_self] at here ⊢
    by_cases last : position < (contents other).length
    · rw [List.getElem?_append_left last] at here
      exact Or.inl ⟨here, List.take_append_of_le_length (Nat.le_of_lt last)⟩
    · have inside := (List.getElem?_eq_some_iff.mp here).1
      rw [List.length_append, List.length_singleton] at inside
      have atEnd : position = (contents other).length := by omega
      subst atEnd
      rw [List.getElem?_concat_length] at here
      cases here
      exact Or.inr ⟨rfl, rfl, rfl, List.take_left⟩
  · rw [push_other contents value same] at here ⊢
    exact Or.inl ⟨here, rfl⟩

theorem mem_push {contents : Contents} {shardId other : Nat} {value stored : String} :
    stored ∈ contents.push shardId value other ↔
      stored ∈ contents other ∨ other = shardId ∧ stored = value := by
  by_cases same : other = shardId
  · subst same
    simp
  · simp [push_other contents value same, same]

theorem length_push (contents : Contents) (shardId other : Nat) (value : String) :
    (contents.push shardId value other).length =
      (contents other).length + if other = shardId then 1 else 0 := by
  by_cases same : other = shardId
  · subst same
    simp
  · simp [push_other contents value same, same]

/-- No shard holds a string twice. -/
def Distinct (contents : Contents) : Prop := ∀ shardId, (contents shardId).Nodup

theorem Distinct.push {contents : Contents} (distinct : contents.Distinct) {shardId : Nat}
    {value : String} (fresh : value ∉ contents shardId) :
    (contents.push shardId value).Distinct := by
  intro other
  by_cases same : other = shardId
  · subst same
    rw [push_self]
    exact List.nodup_append.mpr ⟨distinct other, by simp, by
      intro left member right rightMember
      rw [List.mem_singleton.mp rightMember]
      rintro rfl
      exact fresh member⟩
  · rw [push_other contents value same]
    exact distinct other

end Contents

/-- The arena bytes taken by a list of records. -/
def recordsSize (strings : List String) : Nat :=
  (strings.map fun value => paddedSize (byteLength value)).sum

@[simp] theorem recordsSize_nil : recordsSize [] = 0 := rfl

@[simp] theorem recordsSize_append (left right : List String) :
    recordsSize (left ++ right) = recordsSize left + recordsSize right := by
  simp [recordsSize]

@[simp] theorem recordsSize_singleton (value : String) :
    recordsSize [value] = paddedSize (byteLength value) := by
  simp [recordsSize]

/-- The record at a position ends before the records up to a later position do. -/
theorem recordsSize_take_lt {strings : List String} {index later : Nat} {value : String}
    (here : strings[index]? = some value) (ordered : index < later) :
    recordsSize (strings.take index) + paddedSize (byteLength value) ≤
      recordsSize (strings.take later) := by
  have next : strings.take (index + 1) = strings.take index ++ [value] := by
    rw [List.take_add_one, here]
    rfl
  have split : strings.take later = strings.take (index + 1) ++
      (strings.drop (index + 1)).take (later - (index + 1)) := by
    rw [← List.take_add, Nat.add_sub_cancel' ordered]
  rw [split, next]
  simp only [recordsSize_append, recordsSize_singleton]
  omega

theorem recordsSize_aligned (strings : List String) : recordsSize strings % 4 = 0 := by
  induction strings with
  | nil => rfl
  | cons value strings ih =>
      have size := paddedSize_aligned (byteLength value)
      have split := recordsSize_append [value] strings
      rw [recordsSize_singleton] at split
      rw [← List.singleton_append, split]
      omega

/-- A record with its length header and text at an offset of the arena. -/
structure StoredAt (memory : Memory) (offset : Nat) (value : String) : Prop where
  header : memory.read offset 4 = toLE 4 (byteLength value)
  text : memory.read (offset + 4) (byteLength value) = bytes value

namespace StoredAt

/-- The text of a stored record. -/
theorem textAt {memory : Memory} {offset : Nat} {value : String}
    (stored : StoredAt memory offset value) (short : byteLength value + 7 < u32Range) :
    LockFreeStringArray.textAt memory offset = value := by
  have fits : byteLength value < 256 ^ 4 := by
    have : u32Range = 256 ^ 4 := by decide
    omega
  simp only [LockFreeStringArray.textAt, stored.header, ofLE_toLE fits, stored.text,
    fromUtf8Unchecked_bytes]

/-- A store elsewhere keeps a record. -/
theorem store {pool : MemoryPool} {offset : Nat} {value : String}
    (stored : StoredAt pool.memory offset value)
    {shardId place size : Nat} {other : String}
    (apart : offset + paddedSize (byteLength value) ≤ place ∨
      place + paddedSize (byteLength other) ≤ offset) :
    StoredAt (pool.store shardId place (byteLength other) size (bytes other)).memory
      offset value := by
  have room := le_paddedSize (byteLength value)
  have otherRoom := le_paddedSize (byteLength other)
  have otherLength : (bytes other).length = byteLength other := rfl
  constructor
  · rw [MemoryPool.store, Memory.read_write_disjoint, Memory.read_write_disjoint, stored.header]
    · rw [length_toLE]
      omega
    · omega
  · rw [MemoryPool.store, Memory.read_write_disjoint, Memory.read_write_disjoint, stored.text]
    · rw [length_toLE]
      omega
    · omega

/-- What `store` writes is a record. -/
theorem of_store (pool : MemoryPool) (shardId place size : Nat) (value : String) :
    StoredAt (pool.store shardId place (byteLength value) size (bytes value)).memory
      place value := by
  constructor
  · rw [MemoryPool.store, Memory.read_write_disjoint _ (Or.inl (Nat.le_refl _))]
    have written := Memory.read_write_same pool.memory place (toLE 4 (byteLength value))
    rwa [length_toLE] at written
  · exact Memory.read_write_same _ _ _

end StoredAt

namespace StringInterner

variable {build : Build}

/-- What is fixed when an interner is created: a power of two of shards, each with a region
of the arena, and the mask that selects one by its hash. -/
structure Framed (interner : StringInterner build) : Prop where
  sized : interner.pool.Sized
  poolShards : interner.pool.shardCount = interner.shardCount
  powerOfTwo : ∃ exponent ≤ 7, interner.shardCount = 2 ^ exponent
  mask : interner.shardMask = UInt64.ofNat (interner.shardCount - 1)

namespace Framed

variable {interner : StringInterner build}

/-- There are at most 128 shards, and at least one. -/
theorem shardCount_bounds (framed : interner.Framed) :
    0 < interner.shardCount ∧ interner.shardCount ≤ 128 := by
  obtain ⟨exponent, small, count⟩ := framed.powerOfTwo
  have limit : 2 ^ exponent ≤ 2 ^ 7 := Nat.pow_le_pow_right (by decide) small
  have positive : 0 < 2 ^ exponent := Nat.two_pow_pos exponent
  omega

/-- A hash selects a shard that exists. -/
theorem shardOf_lt (framed : interner.Framed) (value : String) :
    interner.shardOf value < interner.shardCount := by
  obtain ⟨exponent, small, count⟩ := framed.powerOfTwo
  have limit : 2 ^ exponent ≤ 2 ^ 7 := Nat.pow_le_pow_right (by decide) small
  have maskValue : interner.shardMask.toNat = 2 ^ exponent - 1 := by
    rw [framed.mask, count, UInt64.toNat_ofNat']
    omega
  rw [shardOf, UInt64.toNat_and, maskValue, Nat.and_two_pow_sub_one_eq_mod, count]
  exact Nat.mod_lt _ (Nat.two_pow_pos exponent)

/-- Shard numbers survive the cast to a byte. -/
theorem toNat_shardId (framed : interner.Framed) {shardId : Nat}
    (bounded : shardId < interner.shardCount) : (UInt8.ofNat shardId).toNat = shardId := by
  have limit := framed.shardCount_bounds.2
  rw [UInt8.toNat_ofNat']
  omega

end Framed

/-- The structures of an interner agree with its contents. -/
structure Layout (interner : StringInterner build) (contents : Contents) : Prop where
  sized : interner.pool.Sized
  poolShards : interner.pool.shardCount = interner.shardCount
  powerOfTwo : ∃ exponent ≤ 7, interner.shardCount = 2 ^ exponent
  mask : interner.shardMask = UInt64.ofNat (interner.shardCount - 1)
  header : interner.pool.headerBytes = toLE 4 interner.shardCount
  cursor : ∀ shardId < interner.shardCount,
    (interner.pool.cursors shardId).value = recordsSize (contents shardId)
  room : ∀ shardId < interner.shardCount,
    recordsSize (contents shardId) ≤ interner.pool.regionSize
  dense : ∀ shardId < interner.shardCount, (interner.shards shardId).strings.Dense
  len : ∀ shardId < interner.shardCount,
    (interner.shards shardId).strings.len = (contents shardId).length
  offset : ∀ shardId < interner.shardCount, ∀ index < (contents shardId).length,
    (interner.shards shardId).strings.offsetAt index =
      interner.pool.regionStart shardId + recordsSize ((contents shardId).take index)
  stored : ∀ shardId < interner.shardCount, ∀ index value,
    (contents shardId)[index]? = some value →
      StoredAt interner.pool.memory
        (interner.pool.regionStart shardId + recordsSize ((contents shardId).take index)) value
  entryCount : ∀ shardId < interner.shardCount,
    (interner.shards shardId).entries.length = (contents shardId).length
  entry : ∀ shardId < interner.shardCount, ∀ index value,
    (contents shardId)[index]? = some value →
      ∃ symbol, Symbol.new (UInt8.ofNat shardId) index = .ok symbol ∧
        (interner.shards shardId).entries[index]? =
          some ⟨hashOf build value, prefix8 (bytes value), symbol⟩
  home : ∀ shardId < interner.shardCount, ∀ value ∈ contents shardId,
    interner.shardOf value = shardId
  proper : ∀ shardId < interner.shardCount, ∀ value ∈ contents shardId,
    staticSymbol? value = none ∧ byteLength value + 7 < u32Range

namespace Layout

variable {interner : StringInterner build} {contents : Contents}

theorem framed (layout : interner.Layout contents) : interner.Framed :=
  ⟨layout.sized, layout.poolShards, layout.powerOfTwo, layout.mask⟩

/-- There are at most 128 shards, and at least one. -/
theorem shardCount_bounds (layout : interner.Layout contents) :
    0 < interner.shardCount ∧ interner.shardCount ≤ 128 :=
  layout.framed.shardCount_bounds

/-- A hash selects a shard that exists. -/
theorem shardOf_lt (layout : interner.Layout contents) (value : String) :
    interner.shardOf value < interner.shardCount :=
  layout.framed.shardOf_lt value

/-- Shard numbers of stored strings survive the cast to a byte. -/
theorem toNat_shardId (layout : interner.Layout contents) {shardId : Nat}
    (bounded : shardId < interner.shardCount) : (UInt8.ofNat shardId).toNat = shardId :=
  layout.framed.toNat_shardId bounded

/-- A shard holds no more strings than there are symbols for. -/
theorem length_le (layout : interner.Layout contents) {shardId : Nat}
    (bounded : shardId < interner.shardCount) :
    (contents shardId).length ≤ Symbol.indexMask.toNat := by
  by_contra more
  obtain ⟨symbol, made, _⟩ := layout.entry shardId bounded Symbol.indexMask.toNat _
    (List.getElem?_eq_getElem (Nat.lt_of_not_le more))
  exact absurd (Symbol.new_eq_ok.mp made).1 (Nat.lt_irrefl _)

/-- The text of a stored index, as `get_unchecked` reads it. -/
theorem getUnchecked_eq (layout : interner.Layout contents) {shardId index : Nat}
    {value : String} (bounded : shardId < interner.shardCount)
    (here : (contents shardId)[index]? = some value) :
    (interner.shards shardId).strings.getUnchecked interner.pool.memory index = value := by
  have below : index < (contents shardId).length := (List.getElem?_eq_some_iff.mp here).1
  have member : value ∈ contents shardId := List.mem_of_getElem? here
  rw [LockFreeStringArray.getUnchecked, layout.offset shardId bounded index below]
  exact (layout.stored shardId bounded index value here).textAt
    (layout.proper shardId bounded value member).2

/-- `get` of an index answers with the stored string, or nothing past the end. -/
theorem get_eq (layout : interner.Layout contents) {shardId : Nat}
    (bounded : shardId < interner.shardCount) (index : Nat) :
    (interner.shards shardId).strings.get interner.pool.memory index =
      .ok (contents shardId)[index]? := by
  rw [(layout.dense shardId bounded).get_eq, layout.len shardId bounded]
  cases here : (contents shardId)[index]? with
  | none => rw [if_neg (by simpa using here)]
  | some value =>
      rw [if_pos (List.getElem?_eq_some_iff.mp here).1]
      exact congrArg (fun text => Except.ok (some text)) (layout.getUnchecked_eq bounded here)

/-- An interner has one contents. -/
theorem contents_unique {others : Contents} (layout : interner.Layout contents)
    (second : interner.Layout others) {shardId : Nat} (bounded : shardId < interner.shardCount) :
    contents shardId = others shardId := by
  apply List.ext_getElem?
  intro index
  have read := layout.get_eq bounded index
  rw [second.get_eq bounded index] at read
  exact (Except.ok.inj read).symm

/-- A lookup in the table of a shard whose predicate accepts exactly the entries of
one string finds that string's first index. -/
private theorem find_eq_some (layout : interner.Layout contents) {shardId : Nat}
    (bounded : shardId < interner.shardCount) {value : String} {accepts : Entry → Bool}
    (exact' : ∀ (index : Nat) (stored : String) (symbol : Symbol),
      (contents shardId)[index]? = some stored →
      Symbol.new (UInt8.ofNat shardId) index = .ok symbol →
      (accepts ⟨hashOf build stored, prefix8 (bytes stored), symbol⟩ = true ↔ stored = value))
    {symbol : Symbol} :
    ((interner.shards shardId).entries.find? accepts).map Entry.symbol = some symbol ↔
      ∃ index, (contents shardId)[index]? = some value ∧
        (∀ earlier < index, (contents shardId)[earlier]? ≠ some value) ∧
        Symbol.new (UInt8.ofNat shardId) index = .ok symbol := by
  have count := layout.entryCount shardId bounded
  have entryAt := layout.entry shardId bounded
  constructor
  · intro found
    obtain ⟨entry, foundEntry, rfl⟩ := Option.map_eq_some_iff.mp found
    obtain ⟨accepted, index, inRange, here, before⟩ :=
      List.find?_eq_some_iff_getElem.mp foundEntry
    have below : index < (contents shardId).length := count ▸ inRange
    obtain ⟨numbered, made, entryEq⟩ :=
      entryAt index _ (List.getElem?_eq_getElem below)
    have same : entry = _ := here.symm.trans (List.getElem?_eq_some_iff.mp entryEq).2
    rw [same] at accepted
    have isValue := (exact' index _ numbered (List.getElem?_eq_getElem below) made).mp accepted
    refine ⟨index, by rw [List.getElem?_eq_getElem below, isValue], ?_, by rw [same]; exact made⟩
    intro earlier ordered earlierHere
    obtain ⟨other, otherMade, otherEq⟩ := entryAt earlier value earlierHere
    obtain ⟨otherRange, otherSame⟩ := List.getElem?_eq_some_iff.mp otherEq
    have rejected := before earlier ordered
    rw [otherSame, (exact' earlier value other earlierHere otherMade).mpr rfl] at rejected
    simp at rejected
  · rintro ⟨index, here, first, made⟩
    obtain ⟨numbered, numberedMade, entryEq⟩ := entryAt index value here
    cases made.symm.trans numberedMade
    obtain ⟨inRange, entrySame⟩ := List.getElem?_eq_some_iff.mp entryEq
    refine Option.map_eq_some_iff.mpr ⟨_, List.find?_eq_some_iff_getElem.mpr
      ⟨?_, index, inRange, entrySame, ?_⟩, rfl⟩
    · exact (exact' index value symbol here made).mpr rfl
    · intro earlier ordered
      have below : earlier < (contents shardId).length := by omega
      obtain ⟨other, otherMade, otherEq⟩ :=
        entryAt earlier _ (List.getElem?_eq_getElem below)
      rw [(List.getElem?_eq_some_iff.mp otherEq).2, Bool.not_eq_true', ← Bool.not_eq_true]
      intro accepted
      have isValue :=
        (exact' earlier _ other (List.getElem?_eq_getElem below) otherMade).mp accepted
      exact first earlier ordered (by rw [List.getElem?_eq_getElem below, isValue])

/-- The first index of a string in its shard. -/
def FirstIndex (interner : StringInterner build) (contents : Contents) (value : String)
    (symbol : Symbol) : Prop :=
  ∃ index, (contents (interner.shardOf value))[index]? = some value ∧
    (∀ earlier < index, (contents (interner.shardOf value))[earlier]? ≠ some value) ∧
    Symbol.new (UInt8.ofNat (interner.shardOf value)) index = .ok symbol

/-- The unchecked lookup finds the first index of the string. -/
theorem findUnchecked_eq_some (layout : interner.Layout contents) {value : String}
    {symbol : Symbol} :
    interner.findUnchecked value = some symbol ↔ FirstIndex interner contents value symbol := by
  have bounded := layout.shardOf_lt value
  refine layout.find_eq_some bounded ?_
  intro index stored numbered here made
  have text := layout.getUnchecked_eq bounded here
  rw [← Symbol.issuedIndex_of_new made] at text
  simp only [text, decide_eq_true_eq]
  constructor
  · exact fun accepted => accepted.2.2
  · rintro rfl
    exact ⟨rfl, rfl, rfl⟩

/-- The checked lookup finds the first index of the string. -/
theorem findChecked_eq_some (layout : interner.Layout contents) {value : String}
    {symbol : Symbol} :
    interner.findChecked value = some symbol ↔ FirstIndex interner contents value symbol := by
  have bounded := layout.shardOf_lt value
  refine layout.find_eq_some bounded ?_
  intro index stored numbered here made
  have text := layout.get_eq bounded index
  rw [← Symbol.issuedIndex_of_new made, Symbol.issuedIndex_of_new made, here] at text
  simp only [Symbol.issuedIndex_of_new made, text, Except.toOption, decide_eq_true_eq,
    Option.some.injEq]
  constructor
  · exact fun accepted => accepted.2.2
  · rintro rfl
    exact ⟨rfl, rfl, rfl⟩

/-- The two lookups agree. -/
theorem findChecked_eq_findUnchecked (layout : interner.Layout contents) (value : String) :
    interner.findChecked value = interner.findUnchecked value := by
  apply Option.ext
  intro symbol
  rw [layout.findChecked_eq_some, layout.findUnchecked_eq_some]

/-- A string is looked up with success exactly when its shard holds it. -/
theorem findChecked_eq_none (layout : interner.Layout contents) {value : String} :
    interner.findChecked value = none ↔ value ∉ contents (interner.shardOf value) := by
  constructor
  · intro missing member
    obtain ⟨index, below, here⟩ := List.mem_iff_getElem.mp member
    have exists' : ∃ index, (contents (interner.shardOf value))[index]? = some value :=
      ⟨index, by rw [List.getElem?_eq_getElem below, here]⟩
    classical
    have firstHere := Nat.find_spec exists'
    obtain ⟨symbol, made, _⟩ :=
      layout.entry _ (layout.shardOf_lt value) (Nat.find exists') value firstHere
    have found := layout.findChecked_eq_some.mpr
      ⟨Nat.find exists', firstHere, fun _ => Nat.find_min exists', made⟩
    rw [missing] at found
    cases found
  · intro absent
    rw [Option.eq_none_iff_forall_ne_some]
    intro symbol found
    obtain ⟨index, here, _⟩ := layout.findChecked_eq_some.mp found
    exact absent (List.mem_of_getElem? here)

end Layout

end StringInterner

end Boomerang
