import Boomerang.Interner.CallRuns
import Boomerang.Interner.Serialization

/-!
# Offsets and exported bytes

`offset_of` answers the place of a record in the arena, where every shard has a region of
its own. In the exported bytes the records of a shard follow those of the shards before
it. The two places are the same for all records exactly when no shard is used while an
earlier region has room.
-/

namespace Boomerang

open Foundation

namespace StringInterner

variable {build : Build}

/-- `StringInterner::offset_of`. -/
def offsetOf (interner : StringInterner build) (symbol : Symbol) : Except Fault (Option Nat) :=
  if interner.shardCount ≤ symbol.shardId then .ok none
  else
    match symbol.index build.profile with
    | .error fault => .error fault
    | .ok index =>
        match (interner.shards symbol.shardId).strings.loadChunk (index / CHUNK_SIZE) with
        | .error fault => .error fault
        | .ok none => .ok none
        | .ok (some chunk) =>
            let offset := chunk (index % CHUNK_SIZE)
            .ok (if offset = 0 then none else some offset)

/-- `StringInterner::resolve_raw_offset`. -/
def resolveRawOffset (raw : List UInt8) (offset : Nat) : Option String :=
  if offset = 0 ∨ raw.length < offset + 4 then none
  else
    let len := ofLE ((raw.drop offset).take 4)
    if raw.length < offset + 4 + len then none
    else fromUtf8 ((raw.drop (offset + 4)).take len)

/-- No shard holds a string while an earlier region has room. -/
def FilledInOrder (interner : StringInterner build) : Prop :=
  ∀ shardId < interner.shardCount, (interner.shards shardId).strings.len ≠ 0 →
    ∀ earlier < shardId, interner.pool.used earlier = interner.pool.regionSize

/-- A record is read at its place. -/
theorem resolveRawOffset_record {front raw rest : List UInt8} {value : String}
    (record : IsRecord raw value) (small : byteLength value + 7 < u32Range)
    (pastHeader : front.length ≠ 0) :
    resolveRawOffset (front ++ (raw ++ rest)) front.length = some value := by
  obtain ⟨header, text⟩ := record.read front rest
  have size := record.size
  have room := le_paddedSize (byteLength value)
  have fits : byteLength value < 256 ^ 4 := by
    have wide : u32Range = 256 ^ 4 := by decide
    omega
  have total : (front ++ (raw ++ rest)).length =
      front.length + (paddedSize (byteLength value) + rest.length) := by
    rw [List.length_append, List.length_append, size]
  unfold resolveRawOffset
  rw [if_neg (by omega)]
  simp only [header, ofLE_toLE fits, text]
  rw [if_neg (by omega), fromUtf8_bytes]

/-- A string that is read lies inside the bytes. -/
theorem le_length_of_resolveRawOffset {raw : List UInt8} {offset : Nat} {value : String}
    (read : resolveRawOffset raw offset = some value) :
    offset + 4 + byteLength value ≤ raw.length := by
  unfold resolveRawOffset at read
  split at read
  · cases read
  dsimp only at read
  split at read
  · cases read
  · rename_i inside
    have text := fromUtf8_eq_some.mp read
    rw [byteLength, text, List.length_take, List.length_drop]
    omega

/-- The bytes of the first shards in the export. -/
def sizeBefore (contents : Contents) (shardId : Nat) : Nat :=
  ((List.range shardId).map fun earlier => recordsSize (contents earlier)).sum

theorem sizeBefore_succ (contents : Contents) (shardId : Nat) :
    sizeBefore contents (shardId + 1) =
      sizeBefore contents shardId + recordsSize (contents shardId) := by
  rw [sizeBefore, List.range_succ, List.map_append, List.sum_append]
  rfl

theorem sizeBefore_aligned (contents : Contents) (shardId : Nat) :
    sizeBefore contents shardId % 4 = 0 := by
  induction shardId with
  | zero => rfl
  | succ shardId ih =>
      have last := recordsSize_aligned (contents shardId)
      rw [sizeBefore_succ]
      omega

namespace Layout

variable {interner : StringInterner build} {contents : Contents}

/-- The exported bytes, shard by shard. -/
theorem exportBytes_eq (layout : interner.Layout contents) :
    interner.exportBytes = toLE 4 interner.shardCount ++
      (List.range interner.shardCount).flatMap fun shardId =>
        interner.pool.regionBytes shardId (recordsSize (contents shardId)) := by
  rw [exportBytes, MemoryPool.committedBytes, layout.header, layout.poolShards]
  congr 1
  refine List.flatMap_congr fun shardId member => ?_
  have inRange := List.mem_range.mp member
  rw [MemoryPool.used, layout.cursor shardId inRange, Nat.min_eq_left (layout.room shardId inRange)]

theorem length_regions (contents : Contents) (pool : MemoryPool) (count : Nat) :
    ((List.range count).flatMap fun shardId =>
      pool.regionBytes shardId (recordsSize (contents shardId))).length =
        sizeBefore contents count := by
  rw [List.length_flatMap, sizeBefore]
  congr 1
  refine List.map_congr_left fun shardId _ => ?_
  rw [MemoryPool.regionBytes, Memory.length_read]

theorem length_exportBytes (layout : interner.Layout contents) :
    interner.exportBytes.length = 4 + sizeBefore contents interner.shardCount := by
  rw [layout.exportBytes_eq, List.length_append, length_toLE, length_regions]

/-- The record of a string in the export. -/
theorem exportBytes_split (layout : interner.Layout contents) {shardId index : Nat}
    {value : String} (inRange : shardId < interner.shardCount)
    (here : (contents shardId)[index]? = some value) :
    ∃ front raw rest, interner.exportBytes = front ++ (raw ++ rest) ∧ IsRecord raw value ∧
      front.length = 4 + sizeBefore contents shardId + recordsSize
      ((contents shardId).take index) := by
  obtain ⟨later, count⟩ := Nat.exists_eq_add_of_le inRange
  have next : (contents shardId).take (index + 1) = (contents shardId).take index ++ [value] := by
    rw [List.take_add_one, here]
    rfl
  have size : recordsSize (contents shardId) = recordsSize ((contents shardId).take index) +
      (paddedSize (byteLength value) + recordsSize ((contents shardId).drop (index + 1))) := by
    rw [← Nat.add_assoc, ← recordsSize_singleton, ← recordsSize_append, ← next,
      ← recordsSize_append, List.take_append_drop]
  refine ⟨toLE 4 interner.shardCount ++ (((List.range shardId).flatMap fun earlier =>
        interner.pool.regionBytes earlier (recordsSize (contents earlier))) ++
        interner.pool.regionBytes shardId (recordsSize ((contents shardId).take index))),
    _, interner.pool.memory.read (interner.pool.regionStart shardId +
        recordsSize ((contents shardId).take index) + paddedSize (byteLength value))
          (recordsSize ((contents shardId).drop (index + 1))) ++
        ((List.range later).map fun other => shardId + 1 + other).flatMap fun other =>
          interner.pool.regionBytes other (recordsSize (contents other)),
    ?_, (layout.stored shardId inRange index value here).isRecord, ?_⟩
  · rw [layout.exportBytes_eq, count, List.range_add, List.flatMap_append, List.range_succ,
      List.flatMap_append, List.flatMap_singleton, size, MemoryPool.regionBytes, Memory.read_add,
      Memory.read_add]
    simp only [List.append_assoc]
    rfl
  · rw [List.length_append, List.length_append, length_toLE, length_regions,
      MemoryPool.regionBytes, Memory.length_read, Nat.add_assoc]

/-- `offset_of` answers the place of the record of a stored string. -/
theorem offsetOf_eq_some (layout : interner.Layout contents) {symbol : Symbol} {offset : Nat} :
    interner.offsetOf symbol = .ok (some offset) ↔
      ∃ shardId < interner.shardCount, ∃ index value, (contents shardId)[index]? = some value ∧
        Symbol.new (UInt8.ofNat shardId) index = .ok symbol ∧
        offset = interner.pool.regionStart shardId +
          recordsSize ((contents shardId).take index) := by
  constructor
  · intro answered
    unfold offsetOf at answered
    split at answered
    · cases answered
    rename_i inside
    have inRange := Nat.lt_of_not_le inside
    split at answered
    · cases answered
    rename_i index indexEq
    split at answered
    · cases answered
    · cases answered
    rename_i chunk loaded
    dsimp only at answered
    split at answered
    · cases answered
    rename_i stored
    cases answered
    have chunkIdx : index / CHUNK_SIZE < NUM_CHUNKS := by
      rw [LockFreeStringArray.loadChunk] at loaded
      split at loaded
      · assumption
      · cases loaded
    have chunkEq : (interner.shards symbol.shardId).strings.chunks (index / CHUNK_SIZE) =
        some chunk := by
      rw [LockFreeStringArray.loadChunk, if_pos chunkIdx] at loaded
      exact Except.ok.inj loaded
    have offsetAt : (interner.shards symbol.shardId).strings.offsetAt index =
        chunk (index % CHUNK_SIZE) := by
      rw [LockFreeStringArray.offsetAt, chunkEq]
    have below : index < (contents symbol.shardId).length := by
      rw [← layout.len _ inRange]
      by_contra outside
      have free := (layout.dense _ inRange).free index (Nat.le_of_not_lt outside)
      exact stored (offsetAt.symm.trans free)
    refine ⟨symbol.shardId, inRange, index, _, List.getElem?_eq_getElem below, ?_, ?_⟩
    · refine Symbol.new_of_parts (layout.toNat_shardId inRange).symm ?_
      -- The wrapped index of a symbol without low bits is past every chunk.
      unfold Symbol.index at indexEq
      split at indexEq
      · split at indexEq
        · cases indexEq
        · cases indexEq
          simp only [usizeRange, CHUNK_SIZE, NUM_CHUNKS] at chunkIdx
          omega
      · cases indexEq
        omega
    · rw [← offsetAt, layout.offset _ inRange index below]
  · rintro ⟨shardId, inRange, index, value, here, made, rfl⟩
    have below := (List.getElem?_eq_some_iff.mp here).1
    have shard := (Symbol.shardId_of_new made).trans (layout.toNat_shardId inRange)
    have offsetAt := layout.offset shardId inRange index below
    have stored := (layout.dense shardId inRange).stored index (by rwa [layout.len shardId inRange])
    have bounded := (layout.dense shardId inRange).bounded
    rw [layout.len shardId inRange] at bounded
    have chunkIdx : index / CHUNK_SIZE < NUM_CHUNKS := by
      simp only [NUM_CHUNKS, CHUNK_SIZE] at *
      omega
    unfold offsetOf
    rw [shard, if_neg (Nat.not_le.mpr inRange), Symbol.index_of_new build.profile made]
    simp only [LockFreeStringArray.loadChunk, if_pos chunkIdx]
    rw [LockFreeStringArray.offsetAt] at offsetAt stored
    cases found : (interner.shards shardId).strings.chunks (index / CHUNK_SIZE) with
    | none =>
        rw [found] at stored
        exact absurd rfl stored
    | some chunk =>
        rw [found] at stored offsetAt
        dsimp only at stored offsetAt ⊢
        rw [if_neg stored, offsetAt]

/-- What the regions before a shard have room for, and what is used of them. -/
theorem sizeBefore_le (layout : interner.Layout contents) {shardId : Nat}
    (inRange : shardId ≤ interner.shardCount) :
    sizeBefore contents shardId ≤ shardId * interner.pool.regionSize := by
  induction shardId with
  | zero => exact Nat.zero_le _
  | succ shardId ih =>
      have room := layout.room shardId inRange
      have before := ih (Nat.le_of_succ_le inRange)
      rw [sizeBefore_succ, Nat.succ_mul]
      omega

/-- All of the room is used exactly when every region before is full. -/
theorem sizeBefore_eq (layout : interner.Layout contents) {shardId : Nat}
    (inRange : shardId ≤ interner.shardCount) :
    sizeBefore contents shardId = shardId * interner.pool.regionSize ↔
      ∀ earlier < shardId, recordsSize (contents earlier) = interner.pool.regionSize := by
  induction shardId with
  | zero => simp [sizeBefore]
  | succ shardId ih =>
      have room := layout.room shardId inRange
      have before := layout.sizeBefore_le (Nat.le_of_succ_le inRange)
      rw [sizeBefore_succ, Nat.succ_mul]
      constructor
      · intro total earlier below
        rcases Nat.lt_succ_iff_lt_or_eq.mp below with lower | rfl
        · exact (ih (Nat.le_of_succ_le inRange)).mp (by omega) earlier lower
        · omega
      · intro full
        have last := full shardId (Nat.lt_succ_self _)
        have rest := (ih (Nat.le_of_succ_le inRange)).mpr fun earlier lower =>
          full earlier (Nat.lt_succ_of_lt lower)
        omega

theorem filledInOrder_iff (layout : interner.Layout contents) :
    interner.FilledInOrder ↔ ∀ shardId < interner.shardCount, contents shardId ≠ [] →
      ∀ earlier < shardId, recordsSize (contents earlier) = interner.pool.regionSize := by
  refine forall_congr' fun shardId => forall_congr' fun inRange => ?_
  rw [layout.len shardId inRange, ne_eq, List.length_eq_zero_iff]
  refine forall_congr' fun _ => forall_congr' fun earlier => forall_congr' fun below => ?_
  have earlierRange := Nat.lt_trans below inRange
  rw [MemoryPool.used, layout.cursor earlier earlierRange,
    Nat.min_eq_left (layout.room earlier earlierRange)]

end Layout

/-- Empty shards at the end add nothing. -/
theorem sizeBefore_of_empty {contents : Contents} {shardId count : Nat} (below : shardId < count)
    (empty : ∀ later < count, shardId < later → contents later = []) :
    sizeBefore contents count = sizeBefore contents (shardId + 1) := by
  induction count with
  | zero => cases below
  | succ count ih =>
      rcases Nat.lt_succ_iff_lt_or_eq.mp below with lower | rfl
      · rw [sizeBefore_succ, empty count (Nat.lt_succ_self _) lower, recordsSize_nil, Nat.add_zero]
        exact ih lower fun later inside => empty later (Nat.lt_succ_of_lt inside)
      · rfl

namespace Holds

variable {interner : StringInterner build} {contents : Contents}

/-- When the regions are filled in order, offsets are places in the export. -/
theorem usable_of_filled (holds : interner.Holds contents) (filled : interner.FilledInOrder)
    {symbol : Symbol} {offset : Nat} (answered : interner.offsetOf symbol = .ok (some offset)) :
    interner.resolve symbol = .ok (resolveRawOffset interner.exportBytes offset) := by
  have layout := holds.layout
  obtain ⟨shardId, inRange, index, value, here, made, rfl⟩ := layout.offsetOf_eq_some.mp answered
  have member := List.mem_of_getElem? here
  have full := layout.filledInOrder_iff.mp filled shardId inRange (List.ne_nil_of_mem member)
  have before := (layout.sizeBefore_eq (Nat.le_of_lt inRange)).mpr full
  obtain ⟨front, raw, rest, split, record, place⟩ := layout.exportBytes_split inRange here
  have same : interner.pool.regionStart shardId + recordsSize ((contents shardId).take index) =
      front.length := by
    rw [place, before, MemoryPool.regionStart, layout.sized.header]
  rw [split, same, resolveRawOffset_record record (layout.proper shardId inRange value member).2
    (by omega)]
  exact layout.resolve_eq_some.mpr (layout.numbered_of_stored inRange here made)

/-- When offsets are places in the export, the regions are filled in order. -/
theorem filled_of_usable (holds : interner.Holds contents)
    (usable : ∀ symbol offset, interner.offsetOf symbol = .ok (some offset) →
      interner.resolve symbol = .ok (resolveRawOffset interner.exportBytes offset)) :
    interner.FilledInOrder := by
  classical
  have layout := holds.layout
  refine layout.filledInOrder_iff.mpr fun shardId inRange used earlier below => ?_
  -- The last record of the last shard in use has no room behind it to be shifted into.
  let last := Nat.findGreatest (fun other => contents other ≠ []) (interner.shardCount - 1)
  have lastUsed : contents last ≠ [] :=
    Nat.findGreatest_spec (P := fun other => contents other ≠ []) (n := interner.shardCount - 1)
      (m := shardId) (by omega) used
  have lastRange : last < interner.shardCount :=
    Nat.lt_of_le_of_lt (Nat.findGreatest_le _) (by omega)
  have shardBelow : shardId ≤ last := Nat.le_findGreatest (by omega) used
  have empty : ∀ later < interner.shardCount, last < later → contents later = [] := by
    intro later inside beyond
    by_contra nonempty
    exact Nat.findGreatest_is_greatest beyond (by omega) nonempty
  obtain ⟨strings, value, split⟩ := List.eq_nil_or_concat (contents last) |>.resolve_left lastUsed
  rw [List.concat_eq_append] at split
  have here : (contents last)[strings.length]? = some value := by
    rw [split, List.getElem?_concat_length]
  obtain ⟨symbol, made, _⟩ := layout.entry last lastRange strings.length value here
  have resolved := layout.resolve_eq_some.mpr (layout.numbered_of_stored lastRange here made)
  have read := usable symbol _ (layout.offsetOf_eq_some.mpr
    ⟨last, lastRange, strings.length, value, here, made, rfl⟩)
  rw [resolved] at read
  have inside := le_length_of_resolveRawOffset (Except.ok.inj read).symm
  have size := paddedSize_lt (byteLength value)
  have sizeLast := recordsSize_append strings [value]
  have aligned := sizeBefore_aligned contents last
  have regionAligned : last * interner.pool.regionSize % 4 = 0 := by
    rw [holds.regionSize, Nat.mul_mod, Nat.mul_mod_left, Nat.mul_zero, Nat.zero_mod]
  rw [recordsSize_singleton, ← split] at sizeLast
  rw [layout.length_exportBytes, sizeBefore_of_empty lastRange empty, sizeBefore_succ, sizeLast,
    MemoryPool.regionStart, layout.sized.header, split, List.take_left] at inside
  have room := layout.sizeBefore_le (Nat.le_of_lt lastRange)
  exact (layout.sizeBefore_eq (Nat.le_of_lt lastRange)).mp (by omega) earlier (by omega)

end Holds

/-- After any calls that return, every offset is usable on the exported bytes exactly when
no shard holds a string while an earlier region has room. -/
theorem offsets_usable_iff_of_run {uninitialised : Memory} {internerId count : Nat}
    {interner last : StringInterner build} {values : List String}
    (created : withCapacityAndShards build uninitialised internerId count = .ok interner)
    (run : Steps Returns interner values last)
    (whole : ∀ value ∈ values, MemoryPool.Storable build.profile value) :
    (∀ symbol offset, last.offsetOf symbol = .ok (some offset) →
        last.resolve symbol = .ok (resolveRawOffset last.exportBytes offset)) ↔
      last.FilledInOrder := by
  obtain ⟨other, otherEq, facts⟩ :=
    withCapacityAndShards_ok build uninitialised internerId count
  cases otherEq.symm.trans created
  obtain ⟨contents, holds, _⟩ := facts.holds.returns_run run whole
  exact ⟨holds.filled_of_usable, fun filled _ _ => holds.usable_of_filled filled⟩

/-- With two shards and strings in the first alone, offsets are usable. -/
theorem offsets_usable_iff_of_run_firstShard :
    ∃ interner last : StringInterner ⟨.release, fun _ => 0⟩,
      withCapacityAndShards ⟨.release, fun _ => 0⟩ (fun _ => 0) 1 2 = .ok interner ∧
        interner.shardCount = 2 ∧ interner.shardOf "posts" = 0 ∧ interner.shardOf "role" = 0 ∧
        Steps Returns interner ["posts", "role"] last ∧
        ∀ symbol offset, last.offsetOf symbol = .ok (some offset) →
          last.resolve symbol = .ok (resolveRawOffset last.exportBytes offset) := by
  obtain ⟨interner, new, created⟩ :=
    withCapacityAndShards_ok ⟨.release, fun _ => 0⟩ (fun _ => 0) 1 2
  have posts : interner.shardOf "posts" = 0 := (created.shardOf_eq "posts").trans (by decide)
  have role : interner.shardOf "role" = 0 := (created.shardOf_eq "role").trans (by decide)
  obtain ⟨last, answers, called⟩ :=
    created.exists_calls (show recordsSize ["posts", "role"] ≤ 2 ^ 20 by decide)
  have run := returns_of_answers answers
  refine ⟨interner, last, new, created.shardCount, posts, role, run,
    (offsets_usable_iff_of_run new run fun value listed => Or.inr ?_).mpr
      (called.holds.layout.filledInOrder_iff.mpr ?_)⟩
  · have all : ∀ value ∈ ["posts", "role"], byteLength value + 7 < u32Range := by decide
    exact all value listed
  · intro shardId _ used earlier below
    obtain ⟨value, stored⟩ := List.exists_mem_of_ne_nil _ used
    obtain ⟨listed, _, home⟩ := Contents.mem_ofCalls.mp stored
    rcases List.mem_pair.mp listed with rfl | rfl
    · omega
    · omega

/-- With two shards the offset of a string in the second is not usable. -/
theorem not_offsets_usable_users : ∃ interner last : StringInterner ⟨.release, fun _ => 0⟩,
    withCapacityAndShards ⟨.release, fun _ => 0⟩ (fun _ => 0) 1 2 = .ok interner ∧
      Steps Returns interner ["users"] last ∧
      ¬ ∀ symbol offset, last.offsetOf symbol = .ok (some offset) →
        last.resolve symbol = .ok (resolveRawOffset last.exportBytes offset) := by
  obtain ⟨interner, new, created⟩ :=
    withCapacityAndShards_ok ⟨.release, fun _ => 0⟩ (fun _ => 0) 1 2
  obtain ⟨last, answers, called⟩ :=
    created.exists_calls (show recordsSize ["users"] ≤ 2 ^ 20 by decide)
  have home : interner.shardOf "users" = 1 := (created.shardOf_eq "users").trans (by decide)
  have stored : "users" ∈ Contents.ofCalls interner.shardOf ["users"] 1 :=
    Contents.mem_ofCalls.mpr ⟨List.mem_cons_self, by decide, home⟩
  have empty : Contents.ofCalls interner.shardOf ["users"] 0 = [] := by
    rw [List.eq_nil_iff_forall_not_mem]
    intro value member
    obtain ⟨listed, _, elsewhere⟩ := Contents.mem_ofCalls.mp member
    rw [List.mem_singleton.mp listed, home] at elsewhere
    cases elsewhere
  refine ⟨interner, last, new, returns_of_answers answers, fun usable => ?_⟩
  have filled := called.holds.layout.filledInOrder_iff.mp (called.holds.filled_of_usable usable) 1
    (by rw [called.shape.shardCount, created.shardCount]; decide) (List.ne_nil_of_mem stored) 0
    (by decide)
  rw [empty, called.shape.regionSize, created.regionSize] at filled
  exact absurd filled (by decide)

end StringInterner

end Boomerang
