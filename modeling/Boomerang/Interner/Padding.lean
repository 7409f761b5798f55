import Boomerang.Interner.Offsets

/-!
# Bytes that nobody wrote

A record is written up to the end of its text. The padding behind the text, and the part
of a region past the cursor, keep what the arena held when it was allocated. The padding
is exported, so the exported bytes are a function of the contents and of those bytes.
-/

namespace Boomerang

open Foundation

/-- The bytes between the end of a text and the next record. -/
def paddingLength (len : Nat) : Nat := paddedSize len - (len + 4)

theorem add_paddingLength (len : Nat) : len + 4 + paddingLength len = paddedSize len :=
  Nat.add_sub_cancel' (le_paddedSize len)

theorem paddingLength_eq_zero {len : Nat} : paddingLength len = 0 ↔ len % 4 = 0 := by
  rw [paddingLength, paddedSize]
  omega

/-- A record in an arena that held the bytes of `initial`. -/
def recordBytes (initial : Memory) (offset : Nat) (value : String) : List UInt8 :=
  toLE 4 (byteLength value) ++ (bytes value ++
    initial.read (offset + (byteLength value + 4)) (paddingLength (byteLength value)))

/-- Records that follow each other in an arena that held the bytes of `initial`. -/
def recordsBytes (initial : Memory) (offset : Nat) : List String → List UInt8
  | [] => []
  | value :: values => recordBytes initial offset value ++
      recordsBytes initial (offset + paddedSize (byteLength value)) values

theorem length_recordBytes (initial : Memory) (offset : Nat) (value : String) :
    (recordBytes initial offset value).length = paddedSize (byteLength value) := by
  have size := add_paddingLength (byteLength value)
  rw [recordBytes, List.length_append, List.length_append, length_toLE, Memory.length_read]
  show 4 + (byteLength value + paddingLength (byteLength value)) = paddedSize (byteLength value)
  omega

theorem length_recordsBytes (initial : Memory) (offset : Nat) (values : List String) :
    (recordsBytes initial offset values).length = recordsSize values := by
  induction values generalizing offset with
  | nil => rfl
  | cons value values ih =>
      rw [recordsBytes, List.length_append, length_recordBytes, ih, ← List.singleton_append,
        recordsSize_append, recordsSize_singleton]

theorem recordsBytes_concat (initial : Memory) (offset : Nat) (values : List String)
    (value : String) :
    recordsBytes initial offset (values ++ [value]) = recordsBytes initial offset values ++
      recordBytes initial (offset + recordsSize values) value := by
  induction values generalizing offset with
  | nil => simp [recordsBytes]
  | cons first values ih =>
      rw [List.cons_append, recordsBytes, recordsBytes, ih, List.append_assoc, Nat.add_assoc,
        ← recordsSize_singleton, ← recordsSize_append, List.singleton_append]

/-- Without padding the bytes of the arena do not matter. -/
theorem recordsBytes_of_aligned {values : List String}
    (aligned : ∀ value ∈ values, byteLength value % 4 = 0) (left right : Memory) (offset : Nat) :
    recordsBytes left offset values = recordsBytes right offset values := by
  induction values generalizing offset with
  | nil => rfl
  | cons value values ih =>
      have padding := paddingLength_eq_zero.mpr (aligned value List.mem_cons_self)
      rw [recordsBytes, recordsBytes, recordBytes, recordBytes, padding, Memory.read_zero,
        Memory.read_zero, ih fun other member => aligned other (List.mem_cons_of_mem _ member)]

/-- Another byte at every address. -/
def changed (memory : Memory) : Memory := fun place => memory place + 1

theorem read_changed_ne {memory : Memory} {address length : Nat} (some : length ≠ 0) :
    memory.read address length ≠ (changed memory).read address length := by
  intro same
  obtain ⟨length, rfl⟩ := Nat.exists_eq_succ_of_ne_zero some
  have first := congrArg List.head? same
  rw [Memory.read, Memory.read, List.range_succ_eq_map, List.map_cons,
    List.map_cons, List.head?_cons, List.head?_cons] at first
  have values := congrArg UInt8.toNat (Option.some.inj first)
  rw [changed, UInt8.toNat_add, UInt8.toNat_one] at values
  omega

/-- With padding they do. -/
theorem aligned_of_recordsBytes_changed {initial : Memory} {offset : Nat} {values : List String}
    (same : recordsBytes initial offset values =
      recordsBytes (changed initial) offset values) :
    ∀ value ∈ values, byteLength value % 4 = 0 := by
  induction values generalizing offset with
  | nil =>
      intro value member
      cases member
  | cons first values ih =>
      obtain ⟨record, rest⟩ := List.append_inj same
        ((length_recordBytes _ _ _).trans (length_recordBytes _ _ _).symm)
      have padding := List.append_cancel_left (List.append_cancel_left record)
      intro value member
      rcases List.mem_cons.mp member with rfl | later
      · by_contra unaligned
        exact read_changed_ne (mt paddingLength_eq_zero.mp unaligned) padding
      · exact ih rest value later

/-- Parts of the same lengths that are equal when joined are equal. -/
theorem eq_of_flatMap_eq {ids : List Nat} {left right : Nat → List UInt8}
    (lengths : ∀ id ∈ ids, (left id).length = (right id).length)
    (same : ids.flatMap left = ids.flatMap right) : ∀ id ∈ ids, left id = right id := by
  induction ids with
  | nil =>
      intro id member
      cases member
  | cons first ids ih =>
      obtain ⟨head, tail⟩ := List.append_inj same (lengths first List.mem_cons_self)
      intro id member
      rcases List.mem_cons.mp member with rfl | later
      · exact head
      · exact ih (fun other inside => lengths other (List.mem_cons_of_mem _ inside)) tail id later

/-- A store writes the header and the text only. -/
theorem MemoryPool.memory_store_apart (pool : MemoryPool) {shardId offset len size place : Nat}
    {text : List UInt8} (apart : place < offset ∨ offset + (text.length + 4) ≤ place) :
    (pool.store shardId offset len size text).memory place = pool.memory place := by
  simp only [store, Memory.write, length_toLE]
  rw [if_neg (by omega), if_neg (by omega)]

namespace StringInterner

variable {build : Build}

/-- The padding of the records and the free parts of the regions hold the bytes of
`initial`. -/
structure Unwritten (initial : Memory) (interner : StringInterner build) (contents : Contents) :
    Prop where
  padding : ∀ shardId < interner.shardCount, ∀ index value,
    (contents shardId)[index]? = some value → ∀ place,
      interner.pool.regionStart shardId + recordsSize ((contents shardId).take index) +
        (byteLength value + 4) ≤ place →
      place < interner.pool.regionStart shardId + recordsSize ((contents shardId).take index) +
        paddedSize (byteLength value) → interner.pool.memory place = initial place
  free : ∀ shardId < interner.shardCount, ∀ place,
    interner.pool.regionStart shardId + recordsSize (contents shardId) ≤ place →
    place < interner.pool.regionStart shardId + interner.pool.regionSize →
      interner.pool.memory place = initial place

/-- A new interner has written its header only. -/
theorem unwritten_of_created {initial : Memory} {internerId count : Nat}
    {interner : StringInterner build}
    (new : withCapacityAndShards build initial internerId count = .ok interner) :
    interner.Unwritten initial Contents.empty := by
  unfold withCapacityAndShards at new
  dsimp only at new
  split at new
  · cases new
  rename_i pool made
  cases new
  unfold MemoryPool.new at made
  split at made
  · cases made
  split at made
  · cases made
  dsimp only at made
  split at made
  · cases made
  cases made
  refine ⟨fun _ _ index value here => (by cases here), fun shardId _ place past _ => ?_⟩
  have start : 4 ≤ place := by
    have header : MemoryPool.HEADER_SIZE = 4 := rfl
    simp only [MemoryPool.regionStart] at past
    omega
  simp only [Memory.write, length_toLE]
  rw [if_neg (by omega)]

namespace Layout

variable {interner next : StringInterner build} {contents : Contents} {initial : Memory}

/-- An insertion writes the header and the text of its record. -/
theorem unwritten_inserted (layout : interner.Layout contents)
    (unwritten : interner.Unwritten initial contents) {value : String} {symbol : Symbol}
    {offset : Nat} (storable : MemoryPool.Storable build.profile value)
    (done : Inserted interner value symbol offset next) :
    next.Unwritten initial (contents.push (interner.shardOf value) value) := by
  have shape := done.shape
  have bounded := layout.shardOf_lt value
  obtain ⟨place, _, allocated⟩ := done.pool
  obtain ⟨_, _, room, placeEq, poolEq⟩ := MemoryPool.alloc_ok layout.sized storable allocated
  rw [layout.cursor _ bounded] at room placeEq
  have size := le_paddedSize (byteLength value)
  have kept : ∀ other, other < place ∨ place + (byteLength value + 4) ≤ other →
      next.pool.memory other = interner.pool.memory other := by
    intro other apart
    rw [poolEq]
    exact interner.pool.memory_store_apart apart
  constructor
  case padding =>
    intro shardId inRange index stored here other low high
    have within : shardId < interner.shardCount := shape.shardCount ▸ inRange
    rw [shape.regionStart] at low high
    obtain ⟨old, same⟩ | ⟨rfl, rfl, rfl, same⟩ := Contents.getElem?_push here
    · rw [same] at low high
      have last := recordsSize_take_lt old (List.getElem?_eq_some_iff.mp old).1
      rw [List.take_length] at last
      have inside := layout.room shardId within
      rw [kept other ?_]
      · exact unwritten.padding shardId within index stored old other low high
      · by_cases home : shardId = interner.shardOf value
        · subst home
          omega
        · rcases interner.pool.regionStart_apart home with before | after <;> omega
    · rw [same] at low high
      rw [kept other (by omega)]
      exact unwritten.free _ within other (by omega) (by omega)
  case free =>
    intro shardId inRange other low high
    have within : shardId < interner.shardCount := shape.shardCount ▸ inRange
    rw [shape.regionStart] at low high
    rw [shape.regionSize] at high
    by_cases home : shardId = interner.shardOf value
    · subst home
      rw [Contents.push_self, recordsSize_append, recordsSize_singleton] at low
      rw [kept other (by omega)]
      exact unwritten.free _ within other (by omega) high
    · rw [Contents.push_other contents value home] at low
      rw [kept other ?_]
      · exact unwritten.free shardId within other low high
      · rcases interner.pool.regionStart_apart home with before | after <;> omega

/-- The records of a shard and the padding the arena held before. -/
theorem regionBytes_eq (layout : interner.Layout contents)
    (unwritten : interner.Unwritten initial contents) {shardId : Nat}
    (inRange : shardId < interner.shardCount) {part : List String}
    (start : part <+: contents shardId) :
    interner.pool.regionBytes shardId (recordsSize part) =
      recordsBytes initial (interner.pool.regionStart shardId) part := by
  induction part using List.reverseRecOn with
  | nil => rfl
  | append_singleton part value ih =>
      obtain ⟨rest, whole⟩ := start
      have here : (contents shardId)[part.length]? = some value := by
        rw [← whole, List.append_assoc, List.getElem?_append_right (Nat.le_refl _), Nat.sub_self]
        rfl
      have before : (contents shardId).take part.length = part := by
        rw [← whole, List.append_assoc, List.take_left]
      have stored := layout.stored shardId inRange part.length value here
      have padding := unwritten.padding shardId inRange part.length value here
      rw [before] at stored padding
      have size := add_paddingLength (byteLength value)
      rw [MemoryPool.regionBytes] at ih ⊢
      rw [recordsSize_append, recordsSize_singleton, Memory.read_add,
        ih ⟨[value] ++ rest, by rw [← whole, List.append_assoc]⟩, recordsBytes_concat]
      congr 1
      have parts : paddedSize (byteLength value) =
          4 + (byteLength value + paddingLength (byteLength value)) := by omega
      rw [recordBytes, parts, Memory.read_add, Memory.read_add, stored.header,
        stored.text]
      congr 2
      have place : interner.pool.regionStart shardId + recordsSize part + 4 + byteLength value =
          interner.pool.regionStart shardId + recordsSize part + (byteLength value + 4) := by omega
      rw [place]
      refine Memory.read_congr fun other low high => ?_
      exact padding other low (by omega)

/-- The exported bytes are the shard count, the records, and padding that was never
written. -/
theorem exportBytes_unwritten (layout : interner.Layout contents)
    (unwritten : interner.Unwritten initial contents) :
    interner.exportBytes = toLE 4 interner.shardCount ++
      (List.range interner.shardCount).flatMap fun shardId =>
        recordsBytes initial (interner.pool.regionStart shardId) (contents shardId) := by
  rw [layout.exportBytes_eq]
  congr 1
  refine List.flatMap_congr fun shardId member => ?_
  exact layout.regionBytes_eq unwritten (List.mem_range.mp member) List.prefix_rfl

end Layout

end StringInterner

end Boomerang
