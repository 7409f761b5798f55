import Boomerang.Interner.Interning

/-!
# Rebuilding an interner from its bytes

`bytes` is the shard count and then the records of all shards, one after the other,
with nothing between the shards and no symbol numbers. `from_bytes` stores the texts
of the records again in that order. Since every text hashes to the shard it came
from, and the records of one shard keep their order, the rebuilt interner gives
each of them the number it had.
-/

namespace Boomerang

open Foundation

/-- Bytes that are one record: the length, the text, and any padding. -/
structure IsRecord (raw : List UInt8) (value : String) : Prop where
  size : raw.length = paddedSize (byteLength value)
  parts : ∃ padding, raw = toLE 4 (byteLength value) ++ (bytes value ++ padding)

/-- The length and the text of a record, among other bytes. -/
theorem IsRecord.read {raw : List UInt8} {value : String} (record : IsRecord raw value)
    (front rest : List UInt8) :
    ((front ++ (raw ++ rest)).drop front.length).take 4 = toLE 4 (byteLength value) ∧
      ((front ++ (raw ++ rest)).drop (front.length + 4)).take (byteLength value) = bytes value := by
  obtain ⟨padding, parts⟩ := record.parts
  constructor
  · rw [List.drop_left, parts, List.append_assoc, List.take_left' (length_toLE _ _)]
  · rw [← List.drop_drop, List.drop_left, parts, List.append_assoc,
      List.drop_left' (length_toLE _ _), List.append_assoc]
    exact List.take_left

/-- Bytes that are the records of some strings. -/
inductive Records : List UInt8 → List String → Prop where
  | nil : Records [] []
  | cons {raw rest value values} (record : IsRecord raw value) (more : Records rest values) :
      Records (raw ++ rest) (value :: values)

namespace Records

theorem append {left right : List UInt8} {values others : List String}
    (first : Records left values) (second : Records right others) :
    Records (left ++ right) (values ++ others) := by
  induction first with
  | nil => exact second
  | cons record _ ih =>
      rw [List.append_assoc]
      exact .cons record ih

theorem single {raw : List UInt8} {value : String} (record : IsRecord raw value) :
    Records raw [value] := by
  have one := Records.cons record .nil
  rwa [List.append_nil] at one

theorem flatMap {ids : List Nat} {raw : Nat → List UInt8} {values : Nat → List String}
    (each : ∀ id ∈ ids, Records (raw id) (values id)) :
    Records (ids.flatMap raw) (ids.flatMap values) := by
  induction ids with
  | nil => exact .nil
  | cons id ids ih =>
      exact (each id List.mem_cons_self).append
        (ih fun other member => each other (List.mem_cons_of_mem _ member))

end Records

/-- The bytes of a stored record. -/
theorem StoredAt.isRecord {memory : Memory} {offset : Nat} {value : String}
    (stored : StoredAt memory offset value) :
    IsRecord (memory.read offset (paddedSize (byteLength value))) value := by
  refine ⟨Memory.length_read _ _ _, memory.read (offset + 4 + byteLength value)
    (paddedSize (byteLength value) - 4 - byteLength value), ?_⟩
  have room := le_paddedSize (byteLength value)
  rw [← stored.header, ← stored.text, ← Memory.read_add, ← Memory.read_add]
  congr 1
  omega

/-- Store strings one after the other, each in the shard it hashes to. -/
def Contents.append (contents : Contents) (home : String → Nat) (values : List String) :
    Contents := fun shardId => contents shardId ++ values.filter fun value => home value = shardId

theorem Contents.append_nil (contents : Contents) (home : String → Nat) :
    contents.append home [] = contents := by
  funext shardId
  simp [append]

theorem Contents.append_cons (contents : Contents) (home : String → Nat) (value : String)
    (values : List String) :
    contents.append home (value :: values) =
      (contents.push (home value) value).append home values := by
  funext shardId
  by_cases same : home value = shardId
  · subst same
    simp [append]
  · rw [append, append, push_other contents value (Ne.symm same),
      List.filter_cons_of_neg (by simpa using same)]

theorem Contents.append_append (contents : Contents) (home : String → Nat)
    (left right : List String) :
    contents.append home (left ++ right) = (contents.append home left).append home right := by
  funext shardId
  rw [append, append, append, List.filter_append, List.append_assoc]

/-- The contents of the first shards only. -/
def Contents.within (contents : Contents) (count : Nat) : Contents := fun shardId =>
  if shardId < count then contents shardId else []

theorem Contents.within_prefix (contents : Contents) (count shardId : Nat) :
    contents.within count shardId <+: contents shardId := by
  rw [within]
  split
  · exact List.prefix_rfl
  · exact List.nil_prefix

namespace StringInterner

variable {build : Build}

/-- Store the text of a record, when it is valid UTF-8. -/
def insertText (interner : StringInterner build) (raw : List UInt8) :
    Except Fault (StringInterner build) :=
  match fromUtf8 raw with
  | none => .ok interner
  | some text =>
      match interner.insertUnique text with
      | .error fault _ => .error fault
      | .ok _ next => .ok next

/-- The loop of `from_bytes`. The fuel bounds its turns. -/
def fromBytesLoop (raw : List UInt8) :
    Nat → Nat → StringInterner build → Except Fault (StringInterner build)
  | 0, _, _ => .error .divergence
  | fuel + 1, cursor, interner =>
      if cursor + 4 ≤ raw.length then
        let len := ofLE ((raw.drop cursor).take 4)
        if raw.length < cursor + 4 + len then .ok interner
        else
          match interner.insertText ((raw.drop (cursor + 4)).take len) with
          | .error fault => .error fault
          | .ok next =>
              match paddedRecordSize build.profile len with
              | .error fault => .error fault
              | .ok size => fromBytesLoop raw fuel (cursor + size) next
      else .ok interner

/-- `StringInterner::from_bytes`, with the next interner id. Every turn of the loop
moves the cursor unless the size of a record wraps to zero, so there are at most as
many turns as bytes. -/
def fromBytes (build : Build) (uninitialised : Memory) (internerId : Nat) (raw : List UInt8) :
    Except Fault (StringInterner build) :=
  let shardCount := (MemoryPool.readShardCountHeader raw).getD DEFAULT_SHARD_COUNT
  match withCapacityAndShards build uninitialised internerId shardCount with
  | .error fault => .error fault
  | .ok interner =>
      if raw.length ≤ 4 then .ok interner else fromBytesLoop raw (raw.length + 1) 4 interner

/-- Strings the loop can store on top of some contents. -/
structure Fits (interner : StringInterner build) (contents : Contents) (values : List String) :
    Prop where
  proper : ∀ value ∈ values, staticSymbol? value = none ∧ byteLength value + 7 < u32Range
  room : ∀ shardId, shardId < interner.shardCount →
    recordsSize (contents.append interner.shardOf values shardId) ≤ interner.pool.regionSize
  indexRoom : ∀ shardId, shardId < interner.shardCount →
    (contents.append interner.shardOf values shardId).length ≤ Symbol.indexMask.toNat

/-- One record in front of the cursor is stored. -/
theorem fromBytesLoop_step {interner next : StringInterner build} {front rest raw : List UInt8}
    {value : String} {symbol : Symbol} (record : IsRecord raw value)
    (small : byteLength value + 7 < u32Range)
    (inserted : interner.insertUnique value = .ok symbol next) (fuel : Nat) :
    fromBytesLoop (front ++ (raw ++ rest)) (fuel + 1) front.length interner =
      fromBytesLoop (front ++ (raw ++ rest)) fuel (front ++ raw).length next := by
  obtain ⟨header, text⟩ := record.read front rest
  have room := le_paddedSize (byteLength value)
  have size := record.size
  have fits : byteLength value < 256 ^ 4 := by
    have wide : u32Range = 256 ^ 4 := by decide
    omega
  have total : (front ++ (raw ++ rest)).length =
      front.length + (paddedSize (byteLength value) + rest.length) := by
    rw [List.length_append, List.length_append, size]
  rw [fromBytesLoop, if_pos (by omega)]
  simp only [header, ofLE_toLE fits, text]
  rw [if_neg (by omega), insertText, fromUtf8_bytes]
  simp only [inserted, paddedRecordSize_eq_ok small, List.length_append, size]

/-- The loop stores the strings of all records in front of the cursor. -/
theorem fromBytesLoop_records {body : List UInt8} {values : List String}
    (records : Records body values) {interner : StringInterner build} {contents : Contents}
    (layout : interner.Layout contents)
    (intact : ∀ shardId, (interner.pool.cursors shardId).poisoned = false)
    (fits : interner.Fits contents values) (front : List UInt8) {fuel : Nat}
    (enough : body.length < fuel) :
    ∃ next, fromBytesLoop (front ++ body) fuel front.length interner = .ok next ∧
      SameShape interner next ∧ next.Layout (contents.append interner.shardOf values) := by
  induction records generalizing interner contents front fuel with
  | nil =>
      obtain ⟨fuel, rfl⟩ := Nat.exists_eq_succ_of_ne_zero (Nat.ne_of_gt enough)
      refine ⟨interner, ?_, SameShape.refl _, ?_⟩
      · rw [List.append_nil, fromBytesLoop, if_neg (by omega)]
      · rw [Contents.append_nil]
        exact layout
  | @cons raw rest value values record more ih =>
      obtain ⟨fuel, rfl⟩ := Nat.exists_eq_succ_of_ne_zero (Nat.ne_of_gt (Nat.zero_lt_of_lt enough))
      obtain ⟨notStatic, small⟩ := fits.proper value List.mem_cons_self
      have bounded := layout.shardOf_lt value
      have room := fits.room _ bounded
      have indexRoom := fits.indexRoom _ bounded
      rw [Contents.append_cons, Contents.append, Contents.push_self] at room indexRoom
      rw [recordsSize_append, recordsSize_append, recordsSize_singleton] at room
      rw [List.length_append, List.length_append, List.length_singleton] at indexRoom
      obtain ⟨symbol, offset, next, vacant, kept⟩ :=
        layout.insertVacant_of_room value (intact _) (by omega) (by omega)
      have done := insertVacant_ok layout.sized (Or.inr small) vacant
      obtain ⟨nextLayout, _⟩ := layout.inserted notStatic (Or.inr small) done
      have inserted : interner.insertUnique value = .ok symbol next := by
        simp only [insertUnique, notStatic, vacant]
      have shardOf : next.shardOf = interner.shardOf := funext done.shape.shardOf
      have nextFits : next.Fits (contents.push (interner.shardOf value) value) values := by
        refine ⟨fun other member => fits.proper other (List.mem_cons_of_mem _ member), ?_, ?_⟩
        · intro shardId inRange
          rw [shardOf, ← Contents.append_cons, done.shape.regionSize]
          exact fits.room shardId (done.shape.shardCount ▸ inRange)
        · intro shardId inRange
          rw [shardOf, ← Contents.append_cons]
          exact fits.indexRoom shardId (done.shape.shardCount ▸ inRange)
      have positive := paddedSize_pos (byteLength value)
      have size := record.size
      rw [List.length_append] at enough
      obtain ⟨last, looped, shape, lastLayout⟩ := ih nextLayout
        (fun shardId => (kept shardId).trans (intact shardId)) nextFits (front ++ raw)
        (show rest.length < fuel by omega)
      refine ⟨last, ?_, done.shape.trans shape, ?_⟩
      · rw [fromBytesLoop_step record small inserted, ← List.append_assoc]
        exact looped
      · rw [Contents.append_cons]
        rw [shardOf] at lastLayout
        exact lastLayout

/-- The records of the first strings of a shard are at the start of its region. -/
theorem Layout.regionBytes_records {interner : StringInterner build} {contents : Contents}
    (layout : interner.Layout contents) {shardId : Nat} (inRange : shardId < interner.shardCount)
    {part : List String} (start : part <+: contents shardId) :
    Records (interner.pool.regionBytes shardId (recordsSize part)) part := by
  induction part using List.reverseRecOn with
  | nil => exact .nil
  | append_singleton part value ih =>
      obtain ⟨rest, whole⟩ := start
      have here : (contents shardId)[part.length]? = some value := by
        rw [← whole, List.append_assoc, List.getElem?_append_right (Nat.le_refl _), Nat.sub_self]
        rfl
      have before : (contents shardId).take part.length = part := by
        rw [← whole, List.append_assoc, List.take_left]
      have stored := layout.stored shardId inRange part.length value here
      rw [before] at stored
      rw [recordsSize_append, recordsSize_singleton, MemoryPool.regionBytes, Memory.read_add]
      exact (ih ⟨[value] ++ rest, by rw [← whole, List.append_assoc]⟩).append
        (.single stored.isRecord)

/-- The exported bytes are the shard count and the records of the shards in order. -/
theorem Layout.exportBytes_records {interner : StringInterner build} {contents : Contents}
    (layout : interner.Layout contents) :
    ∃ body, interner.exportBytes = toLE 4 interner.shardCount ++ body ∧
      Records body ((List.range interner.shardCount).flatMap contents) := by
  refine ⟨_, by rw [exportBytes, MemoryPool.committedBytes, layout.header, layout.poolShards], ?_⟩
  refine Records.flatMap fun shardId member => ?_
  have inRange := List.mem_range.mp member
  rw [MemoryPool.used, layout.cursor shardId inRange, Nat.min_eq_left (layout.room shardId inRange)]
  exact layout.regionBytes_records inRange List.prefix_rfl

/-- Strings listed shard by shard are sorted back into their shards. -/
theorem filter_flatMap_range {home : String → Nat} {parts : Contents} {count : Nat}
    (homes : ∀ shardId < count, ∀ value ∈ parts shardId, home value = shardId) (shardId : Nat) :
    (((List.range count).flatMap parts).filter fun value => home value = shardId) =
      parts.within count shardId := by
  induction count with
  | zero => simp [Contents.within]
  | succ count ih =>
      rw [List.range_succ, List.flatMap_append, List.filter_append, List.flatMap_singleton,
        ih fun other below => homes other (Nat.lt_succ_of_lt below)]
      have last := homes count (Nat.lt_succ_self count)
      by_cases same : shardId = count
      · subst same
        have all : (parts shardId).filter (fun value => home value = shardId) = parts shardId :=
          List.filter_eq_self.mpr fun value member => by simpa using last value member
        simp [Contents.within, all]
      · have none : (parts count).filter (fun value => home value = shardId) = [] :=
          List.filter_eq_nil_iff.mpr fun value member => by
            simpa [last value member] using Ne.symm same
        simp only [Contents.within, none, List.append_nil]
        congr 1
        exact propext (by omega)

/-- Strings that an interner with the shape of another can hold. -/
structure Parts (interner : StringInterner build) (parts : Contents) : Prop where
  home : ∀ shardId < interner.shardCount, ∀ value ∈ parts shardId,
    interner.shardOf value = shardId
  proper : ∀ shardId < interner.shardCount, ∀ value ∈ parts shardId,
    staticSymbol? value = none ∧ byteLength value + 7 < u32Range
  room : ∀ shardId < interner.shardCount, recordsSize (parts shardId) ≤ interner.pool.regionSize
  indexRoom : ∀ shardId < interner.shardCount,
    (parts shardId).length ≤ Symbol.indexMask.toNat
  distinct : ∀ shardId < interner.shardCount, (parts shardId).Nodup

/-- From the records of strings that fit, listed shard by shard, an interner is rebuilt
that holds exactly them, each in the shard and at the place it had. -/
theorem Holds.rebuild_parts {interner : StringInterner build} {contents parts : Contents}
    (holds : interner.Holds contents) (fit : interner.Parts parts)
    {body : List UInt8}
    (records : Records body ((List.range interner.shardCount).flatMap parts))
    (uninitialised : Memory) (internerId : Nat) :
    ∃ rebuilt : StringInterner build,
      fromBytes build uninitialised internerId (toLE 4 interner.shardCount ++ body) = .ok rebuilt ∧
        rebuilt.internerId = internerId ∧ rebuilt.shardCount = interner.shardCount ∧
        (∀ value, rebuilt.shardOf value = interner.shardOf value) ∧
        rebuilt.Holds (parts.within interner.shardCount) := by
  have layout := holds.layout
  obtain ⟨exponent, exponentSmall, countEq⟩ := layout.powerOfTwo
  obtain ⟨created, new, facts⟩ :=
    withCapacityAndShards_ok build uninitialised internerId interner.shardCount
  have count : created.shardCount = interner.shardCount := by
    rw [facts.shardCount, countEq, clampShardCount_two_pow exponentSmall]
  have shardOf : created.shardOf = interner.shardOf := by
    funext value
    rw [StringInterner.shardOf, StringInterner.shardOf, facts.layout.mask, count, layout.mask]
  have regionSize : created.pool.regionSize = interner.pool.regionSize := by
    rw [facts.holds.regionSize, holds.regionSize, count]
  have placed : Contents.empty.append created.shardOf
      ((List.range interner.shardCount).flatMap parts) = parts.within interner.shardCount := by
    funext shardId
    rw [shardOf]
    exact filter_flatMap_range fit.home shardId
  have fits : created.Fits Contents.empty ((List.range interner.shardCount).flatMap parts) := by
    refine ⟨?_, ?_, ?_⟩
    · intro value listed
      obtain ⟨shardId, inRange, here⟩ := List.mem_flatMap.mp listed
      exact fit.proper shardId (List.mem_range.mp inRange) value here
    · intro shardId inRange
      rw [placed, regionSize, Contents.within, if_pos (count ▸ inRange)]
      exact fit.room shardId (count ▸ inRange)
    · intro shardId inRange
      rw [placed, Contents.within, if_pos (count ▸ inRange)]
      exact fit.indexRoom shardId (count ▸ inRange)
  obtain ⟨rebuilt, looped, shape, rebuiltLayout⟩ := fromBytesLoop_records records facts.layout
    facts.intact fits (toLE 4 interner.shardCount)
    (show body.length < (toLE 4 interner.shardCount ++ body).length + 1 by
      rw [List.length_append]
      omega)
  rw [placed] at rebuiltLayout
  have distinct : (parts.within interner.shardCount).Distinct := by
    intro shardId
    rw [Contents.within]
    split
    · exact fit.distinct shardId (by assumption)
    · exact List.nodup_nil
  refine ⟨rebuilt, ?_, shape.internerId.trans facts.internerId, shape.shardCount.trans count,
    fun value => (shape.shardOf value).trans (congrFun shardOf value),
    facts.holds.of_sameShape shape rebuiltLayout distinct⟩
  have header : MemoryPool.readShardCountHeader (toLE 4 interner.shardCount ++ body) =
      some interner.shardCount := by
    have bounds := layout.shardCount_bounds
    rw [MemoryPool.readShardCountHeader, if_neg (by simp), List.take_left' (length_toLE _ _),
      ofLE_toLE (by omega)]
  rw [length_toLE] at looped
  simp only [fromBytes, header, Option.getD_some, new]
  split
  · -- Only the header is left: the loop stops at once.
    rename_i short
    rw [fromBytesLoop, if_neg (by omega)] at looped
    exact looped
  · exact looped

/-- From the first strings of every shard an interner is rebuilt that holds exactly
them, each in the shard and at the place it had. -/
theorem Holds.rebuild {interner : StringInterner build} {contents parts : Contents}
    (holds : interner.Holds contents) (start : Contents.Grows parts contents)
    {body : List UInt8}
    (records : Records body ((List.range interner.shardCount).flatMap parts))
    (uninitialised : Memory) (internerId : Nat) :
    ∃ rebuilt : StringInterner build,
      fromBytes build uninitialised internerId (toLE 4 interner.shardCount ++ body) = .ok rebuilt ∧
        rebuilt.internerId = internerId ∧ rebuilt.shardCount = interner.shardCount ∧
        (∀ value, rebuilt.shardOf value = interner.shardOf value) ∧
        rebuilt.Holds (parts.within interner.shardCount) := by
  have layout := holds.layout
  have member : ∀ shardId, ∀ value ∈ parts shardId, value ∈ contents shardId :=
    fun shardId _ here => (start shardId).subset here
  refine holds.rebuild_parts ⟨?_, ?_, ?_, ?_, ?_⟩ records uninitialised internerId
  · exact fun shardId inRange value here => layout.home shardId inRange value (member _ _ here)
  · exact fun shardId inRange value here => layout.proper shardId inRange value (member _ _ here)
  · intro shardId inRange
    obtain ⟨rest, whole⟩ := start shardId
    have room := layout.room shardId inRange
    rw [← whole, recordsSize_append] at room
    omega
  · exact fun shardId inRange => Nat.le_trans (start shardId).length_le (layout.length_le inRange)
  · exact fun shardId _ => (start shardId).sublist.nodup (holds.distinct shardId)

/-- Interners with as many shards that hold the same strings resolve symbols alike. -/
theorem Layout.same_resolve {left right : StringInterner build} {contents other : Contents}
    (leftLayout : left.Layout contents) (rightLayout : right.Layout other)
    (count : right.shardCount = left.shardCount)
    (same : ∀ shardId < left.shardCount, other shardId = contents shardId) (symbol : Symbol) :
    right.resolve symbol = left.resolve symbol := by
  unfold resolve
  cases symbol.index build.profile with
  | error fault => rfl
  | ok index =>
      dsimp only
      split
      · rfl
      · rw [count]
        split
        · rfl
        · rename_i outside
          have inRange := Nat.lt_of_not_le outside
          rw [rightLayout.get_eq (count ▸ inRange), leftLayout.get_eq inRange, same _ inRange]

/-- Interners that place strings alike and hold the same ones answer alike. -/
theorem Holds.same_answers {left right : StringInterner build} {contents other : Contents}
    (leftHolds : left.Holds contents) (rightHolds : right.Holds other)
    (count : right.shardCount = left.shardCount)
    (home : ∀ value, right.shardOf value = left.shardOf value)
    (same : ∀ shardId < left.shardCount, other shardId = contents shardId) :
    right.len = left.len ∧ (∀ value, right.get value = left.get value) ∧
      ∀ symbol, right.resolve symbol = left.resolve symbol := by
  refine ⟨?_, ?_, leftHolds.layout.same_resolve rightHolds.layout count same⟩
  · rw [rightHolds.layout.len_eq, leftHolds.layout.len_eq, count]
    congr 1
    apply List.map_congr_left
    intro shardId member
    rw [same shardId (List.mem_range.mp member)]
  · intro value
    apply Option.ext
    intro symbol
    rw [rightHolds.layout.get_eq_some rightHolds.distinct,
      leftHolds.layout.get_eq_some leftHolds.distinct, Numbered, Numbered, home,
      same _ (leftHolds.layout.shardOf_lt value)]

end StringInterner

end Boomerang
