import Boomerang.Interner.Padding

/-!
# Rebuilding an interner from any bytes

`from_bytes` walks over the records, skips those whose text is not valid UTF-8 and stores
the other texts. Nothing bounds what it stores: a shard of the new interner can run out
of its region, or out of symbols, and then the call panics.
-/

namespace Boomerang

open Foundation

/-- The texts of the records at the start of some bytes, up to the first that is cut
short. The fuel bounds their number. -/
def recordTexts : Nat → List UInt8 → List String
  | 0, _ => []
  | fuel + 1, raw =>
      let len := ofLE (raw.take 4)
      if raw.length < 4 ∨ raw.length < 4 + len then []
      else (fromUtf8 ((raw.drop 4).take len)).toList ++
        recordTexts fuel (raw.drop (paddedSize len))

/-- The strings that an interner stores, of those it is given. -/
def notStatic (values : List String) : List String :=
  values.filter fun value => (staticSymbol? value).isNone

theorem notStatic_append (left right : List String) :
    notStatic (left ++ right) = notStatic left ++ notStatic right :=
  List.filter_append _ _

/-- The texts that `from_bytes` stores. -/
def storedTexts (raw : List UInt8) : List String :=
  notStatic (recordTexts (raw.length + 1) (raw.drop 4))

/-- The number of shards of the interner that `from_bytes` makes. -/
def shardCountOf (raw : List UInt8) : Nat :=
  clampShardCount ((MemoryPool.readShardCountHeader raw).getD DEFAULT_SHARD_COUNT)

/-- The shard of a string in an interner with that many shards. -/
def homeOf (build : Build) (shardCount : Nat) (value : String) : Nat :=
  (hashOf build value &&& UInt64.ofNat (shardCount - 1)).toNat

/-- The texts of the records fit the shards they hash to: their regions, and their
symbols. -/
def RecordsFit (build : Build) (raw : List UInt8) : Prop :=
  ∀ shardId < shardCountOf raw,
    let here :=
      (storedTexts raw).filter fun value => homeOf build (shardCountOf raw) value = shardId
    recordsSize here ≤ (ARENA_CAPACITY - 4) / shardCountOf raw / 4 * 4 ∧
      here.length ≤ Symbol.indexMask.toNat

instance (build : Build) (raw : List UInt8) : Decidable (RecordsFit build raw) :=
  inferInstanceAs (Decidable (∀ shardId < shardCountOf raw, _ ∧ _))

namespace StringInterner

variable {build : Build}

/-- An interner whose shards hold the contents, with no shard exhausted, in an arena that
held the bytes of `initial`. -/
structure Ready (initial : Memory) (interner : StringInterner build) (contents : Contents) :
    Prop where
  layout : interner.Layout contents
  unwritten : interner.Unwritten initial contents
  intact : ∀ shardId, (interner.pool.cursors shardId).poisoned = false

/-- The strings fit their shards on top of the contents. -/
def HasRoom (interner : StringInterner build) (contents : Contents) (values : List String) :
    Prop :=
  ∀ shardId < interner.shardCount,
    recordsSize (contents.append interner.shardOf values shardId) ≤ interner.pool.regionSize ∧
      (contents.append interner.shardOf values shardId).length ≤ Symbol.indexMask.toNat

/-- A call that stores the strings if there is room for them, and panics if not. -/
def StoresOrPanics (initial : Memory) (interner : StringInterner build) (contents : Contents)
    (values : List String) (result : Except Fault (StringInterner build)) : Prop :=
  interner.HasRoom contents values ∧ (∃ next, result = .ok next ∧ SameShape interner next ∧
      next.Ready initial (contents.append interner.shardOf values)) ∨
    ¬ interner.HasRoom contents values ∧ ∃ fault, result = .error fault

/-- There is room for the first strings if there is room for more. -/
theorem HasRoom.initial {interner : StringInterner build} {contents : Contents}
    {left right : List String} (room : interner.HasRoom contents (left ++ right)) :
    interner.HasRoom contents left := by
  intro shardId inRange
  obtain ⟨size, count⟩ := room shardId inRange
  rw [Contents.append_append, Contents.append, recordsSize_append] at size
  rw [Contents.append_append, Contents.append, List.length_append] at count
  exact ⟨by omega, by omega⟩

/-- Room for strings on top of others that are stored. -/
theorem hasRoom_append {interner next : StringInterner build} {contents : Contents}
    {left right : List String} (shape : SameShape interner next) :
    next.HasRoom (contents.append interner.shardOf left) right ↔
      interner.HasRoom contents (left ++ right) := by
  have home : next.shardOf = interner.shardOf := funext shape.shardOf
  rw [HasRoom, HasRoom, home, shape.shardCount, shape.regionSize, Contents.append_append]

namespace Ready

variable {initial : Memory} {interner next : StringInterner build} {contents : Contents}
variable {value : String}

/-- There is room for no more strings. -/
theorem stores_nil (ready : interner.Ready initial contents) :
    StoresOrPanics initial interner contents [] (.ok interner) := by
  refine Or.inl ⟨fun shardId inRange => ?_, interner, rfl, SameShape.refl _, ?_⟩
  · rw [Contents.append_nil]
    exact ⟨ready.layout.room shardId inRange, ready.layout.length_le inRange⟩
  · rw [Contents.append_nil]
    exact ready

/-- A string with room is stored. -/
theorem insertUnique_of_room (ready : interner.Ready initial contents)
    (notStatic : staticSymbol? value = none) (short : byteLength value + 7 < u32Range)
    (room : interner.HasRoom contents [value]) :
    ∃ symbol next, interner.insertUnique value = .ok symbol next ∧ SameShape interner next ∧
      next.Ready initial (contents.push (interner.shardOf value) value) := by
  have layout := ready.layout
  obtain ⟨size, count⟩ := room _ (layout.shardOf_lt value)
  rw [Contents.append_cons, Contents.append_nil, Contents.push_self] at size count
  rw [recordsSize_append, recordsSize_singleton] at size
  rw [List.length_append, List.length_singleton] at count
  obtain ⟨symbol, offset, next, inserted, kept⟩ :=
    layout.insertVacant_of_room value (ready.intact _) size count
  have done := insertVacant_ok layout.sized (Or.inr short) inserted
  refine ⟨symbol, next, ?_, done.shape, (layout.inserted notStatic (Or.inr short) done).1,
    layout.unwritten_inserted ready.unwritten (Or.inr short) done, fun shardId =>
      (kept shardId).trans (ready.intact shardId)⟩
  simp only [insertUnique, notStatic, inserted]

/-- A string that is stored had room. -/
theorem room_of_insertUnique (ready : interner.Ready initial contents) {symbol : Symbol}
    (notStatic : staticSymbol? value = none) (short : byteLength value + 7 < u32Range)
    (success : interner.insertUnique value = .ok symbol next) :
    interner.HasRoom contents [value] := by
  have layout := ready.layout
  have inserted : ∃ offset, interner.insertVacant value = .ok (symbol, offset) next := by
    simp only [insertUnique, notStatic] at success
    cases vacant : interner.insertVacant value with
    | error fault after =>
        simp only [vacant] at success
        cases success
    | ok pair after =>
        simp only [vacant] at success
        cases success
        exact ⟨pair.2, rfl⟩
  obtain ⟨offset, inserted⟩ := inserted
  have done := insertVacant_ok layout.sized (Or.inr short) inserted
  have nextLayout := (layout.inserted notStatic (Or.inr short) done).1
  intro shardId inRange
  rw [Contents.append_cons, Contents.append_nil, ← done.shape.regionSize]
  have within : shardId < next.shardCount := done.shape.shardCount ▸ inRange
  exact ⟨nextLayout.room shardId within, nextLayout.length_le within⟩

end Ready

/-- A string that is not static is stored if there is room. -/
theorem insertUnique_cases {initial : Memory} {interner : StringInterner build}
    {contents : Contents} (ready : interner.Ready initial contents) {value : String}
    (short : byteLength value + 7 < u32Range) :
    StoresOrPanics initial interner contents (notStatic [value])
      (match interner.insertUnique value with
        | .error fault _ => .error fault
        | .ok _ next => .ok next) := by
  cases isStatic : staticSymbol? value with
  | some symbol =>
      have none : notStatic [value] = [] := by simp [notStatic, isStatic]
      rw [none]
      simp only [insertUnique, isStatic]
      exact ready.stores_nil
  | none =>
      have one : notStatic [value] = [value] := by simp [notStatic, isStatic]
      rw [one]
      by_cases room : interner.HasRoom contents [value]
      · obtain ⟨symbol, next, inserted, shape, after⟩ :=
          ready.insertUnique_of_room isStatic short room
        refine Or.inl ⟨room, next, by rw [inserted], shape, ?_⟩
        rw [Contents.append_cons, Contents.append_nil]
        exact after
      · refine Or.inr ⟨room, ?_⟩
        cases inserted : interner.insertUnique value with
        | error fault after => exact ⟨fault, rfl⟩
        | ok symbol next => exact absurd (ready.room_of_insertUnique isStatic short inserted) room

/-- The text of a record is stored unless it is not valid, or static. -/
theorem insertText_cases {initial : Memory} {interner : StringInterner build}
    {contents : Contents} (ready : interner.Ready initial contents) {raw : List UInt8}
    (short : ∀ value, fromUtf8 raw = some value → byteLength value + 7 < u32Range) :
    StoresOrPanics initial interner contents (notStatic (fromUtf8 raw).toList)
      (interner.insertText raw) := by
  cases decoded : fromUtf8 raw with
  | none =>
      rw [insertText, decoded]
      exact ready.stores_nil
  | some value =>
      rw [insertText, decoded]
      exact insertUnique_cases ready (short value decoded)

/-- What is stored first and what is stored then are stored together. -/
theorem StoresOrPanics.append {initial : Memory} {interner next : StringInterner build}
    {contents : Contents} {left right : List String} {result : Except Fault (StringInterner build)}
    (shape : SameShape interner next)
    (rest : StoresOrPanics initial next (contents.append interner.shardOf left) right result) :
    StoresOrPanics initial interner contents (left ++ right) result := by
  have home : next.shardOf = interner.shardOf := funext shape.shardOf
  rw [StoresOrPanics, hasRoom_append shape, home, ← Contents.append_append] at rest
  rcases rest with ⟨fits, last, success, more, ready⟩ | failed
  · exact Or.inl ⟨fits, last, success, shape.trans more, ready⟩
  · exact Or.inr failed

/-- The loop of `from_bytes` stores the texts of the records. -/
theorem fromBytesLoop_cases {initial : Memory} {raw : List UInt8} (small : raw.length < u32Range)
    {fuel cursor : Nat} {interner : StringInterner build} {contents : Contents}
    (ready : interner.Ready initial contents) (past : 4 ≤ cursor)
    (enough : raw.length - cursor < fuel) :
    StoresOrPanics initial interner contents (notStatic (recordTexts fuel (raw.drop cursor)))
      (fromBytesLoop raw fuel cursor interner) := by
  induction fuel generalizing cursor interner contents with
  | zero => exact absurd enough (Nat.not_lt_zero _)
  | succ fuel ih =>
      rw [fromBytesLoop, recordTexts]
      dsimp only
      generalize ofLE ((raw.drop cursor).take 4) = len
      rw [List.length_drop, List.drop_drop, List.drop_drop]
      by_cases cut : raw.length - cursor < 4 ∨ raw.length - cursor < 4 + len
      · rw [if_pos cut]
        by_cases header : cursor + 4 ≤ raw.length
        · rw [if_pos header, if_pos (by omega)]
          exact ready.stores_nil
        · rw [if_neg header]
          exact ready.stores_nil
      · have size : paddedRecordSize build.profile len = .ok (paddedSize len) :=
          paddedRecordSize_eq_ok (by omega)
        have short : ∀ value, fromUtf8 ((raw.drop (cursor + 4)).take len) = some value →
            byteLength value + 7 < u32Range := by
          intro value decoded
          rw [byteLength, fromUtf8_eq_some.mp decoded, List.length_take, List.length_drop]
          omega
        have room := le_paddedSize len
        rw [if_neg cut, if_pos (by omega), if_neg (by omega), notStatic_append]
        rcases insertText_cases ready short with
          ⟨fits, next, inserted, shape, after⟩ | ⟨full, fault, failed⟩
        · rw [inserted]
          simp only [size]
          exact .append shape (ih after (by omega) (by omega))
        · rw [failed]
          exact Or.inr ⟨fun all => full all.initial, fault, rfl⟩

/-- An interner that `from_bytes` returned: it holds the texts of the records. -/
structure Rebuilt (initial : Memory) (raw : List UInt8) (interner : StringInterner build) : Prop
    where
  shardCount : interner.shardCount = shardCountOf raw
  shardOf : interner.shardOf = homeOf build (shardCountOf raw)
  ready : interner.Ready initial (Contents.empty.append interner.shardOf (storedTexts raw))

/-- `from_bytes` returns exactly when the texts of the records fit. -/
theorem fromBytes_cases (build : Build) (initial : Memory) (internerId : Nat) {raw : List UInt8}
    (small : raw.length < u32Range) :
    RecordsFit build raw ∧ (∃ interner : StringInterner build,
        fromBytes build initial internerId raw = .ok interner ∧ Rebuilt initial raw interner) ∨
      ¬ RecordsFit build raw ∧ ∃ fault, fromBytes build initial internerId raw = .error fault := by
  obtain ⟨interner, new, created⟩ := withCapacityAndShards_ok build initial internerId
    ((MemoryPool.readShardCountHeader raw).getD DEFAULT_SHARD_COUNT)
  have ready : interner.Ready initial Contents.empty :=
    ⟨created.layout, unwritten_of_created new, created.intact⟩
  have count : interner.shardCount = shardCountOf raw := created.shardCount
  have home : interner.shardOf = homeOf build (shardCountOf raw) := by
    funext value
    rw [StringInterner.shardOf, created.layout.mask, count, homeOf]
  have fits : RecordsFit build raw ↔ interner.HasRoom Contents.empty (storedTexts raw) := by
    rw [RecordsFit, HasRoom, count, created.regionSize, home]
    exact Iff.rfl
  have stored : StoresOrPanics initial interner Contents.empty (storedTexts raw)
      (if raw.length ≤ 4 then .ok interner else fromBytesLoop raw (raw.length + 1) 4 interner) := by
    split
    · rename_i header
      have noTexts : storedTexts raw = [] := by
        rw [storedTexts, recordTexts, if_pos (Or.inl (by rw [List.length_drop]; omega))]
        rfl
      rw [noTexts]
      exact ready.stores_nil
    · exact fromBytesLoop_cases small ready (Nat.le_refl 4) (by omega)
  rw [fits, fromBytes, new]
  rcases stored with ⟨room, next, success, shape, after⟩ | failed
  · have sameHome : next.shardOf = interner.shardOf := funext shape.shardOf
    refine Or.inl ⟨room, next, success, shape.shardCount.trans count, sameHome.trans home, ?_⟩
    rw [sameHome]
    exact after
  · exact Or.inr failed

end StringInterner

end Boomerang
