import Boomerang.Interner.CallRuns
import Boomerang.Interner.Decoding
import Boomerang.Interner.DecodingTurns

/-!
# Uniqueness in rebuilt interners

`get_or_intern` stores a string only if the table lacks it. `from_bytes` stores the texts
of the records as they come, through `insert_unique`. So the strings of a rebuilt interner
are distinct exactly when those texts are, and calls that follow neither mend nor break
this.
-/

namespace Boomerang

open Foundation

theorem size_eq_of_paddedRecordSize {profile : Profile} {len size : Nat}
    (padded : paddedRecordSize profile len = .ok size) : size = wrappedSize len := by
  unfold paddedRecordSize at padded
  split at padded
  · cases padded
  · cases padded
    rfl

/-- The texts of the records that the loop reaches in bytes of any length, where the size
of a record may wrap. -/
def reachedTexts : Nat → List UInt8 → List String
  | 0, _ => []
  | fuel + 1, raw =>
      match recordAt raw 0 with
      | none => []
      | some (len, text) =>
          (fromUtf8 text).toList ++ reachedTexts fuel (raw.drop (wrappedSize len))

/-- The texts that `from_bytes` stores when it returns. -/
def insertedTexts (raw : List UInt8) : List String :=
  notStatic (reachedTexts (raw.length + 1) (raw.drop 4))

/-- In bytes of less than 4 GB no size wraps. -/
theorem reachedTexts_eq {raw : List UInt8} (short : raw.length + 4 < u32Range) (fuel : Nat) :
    reachedTexts fuel raw = recordTexts fuel raw := by
  induction fuel generalizing raw with
  | zero => rfl
  | succ fuel ih =>
      rw [reachedTexts, recordTexts]
      cases found : recordAt raw 0 with
      | none =>
          unfold recordAt at found
          dsimp only at found
          split at found
          · split at found
            · rename_i cut
              rw [List.drop_zero] at cut
              rw [if_pos (Or.inr (by omega))]
            · cases found
          · rw [if_pos (Or.inl (by omega))]
      | some record =>
          obtain ⟨len, text⟩ := record
          obtain ⟨rfl, inside, rfl⟩ := recordAt_eq_some.mp found
          rw [List.drop_zero] at inside ⊢
          dsimp only
          rw [if_neg (by omega), wrappedSize_of_small (by omega),
            ih (by rw [List.length_drop]; omega)]

theorem recordAt_drop (raw : List UInt8) (cursor : Nat) :
    recordAt (raw.drop cursor) 0 = recordAt raw cursor := by
  apply Option.ext
  rintro ⟨len, text⟩
  rw [recordAt_eq_some, recordAt_eq_some, List.drop_zero, List.drop_drop, List.length_drop,
    Nat.zero_add]
  constructor
  · rintro ⟨lenEq, inside, textEq⟩
    exact ⟨lenEq, by omega, textEq⟩
  · rintro ⟨lenEq, inside, textEq⟩
    exact ⟨lenEq, by omega, textEq⟩

theorem insertedTexts_eq {raw : List UInt8} (short : raw.length < u32Range) :
    insertedTexts raw = storedTexts raw := by
  rw [insertedTexts, storedTexts]
  by_cases header : 4 ≤ raw.length
  · rw [reachedTexts_eq (by rw [List.length_drop]; omega)]
  · rw [reachedTexts_eq (by rw [List.length_drop, u32Range]; omega)]

namespace StringInterner

variable {build : Build}

/-- Distinct symbols resolve to distinct strings, and the table of a shard finds every
string of the shard under its symbol. -/
structure Unique (interner : StringInterner build) : Prop where
  distinct : ∀ first second text, interner.resolve first = .ok (some text) →
    interner.resolve second = .ok (some text) → first = second
  found : ∀ shardId < interner.shardCount, ∀ index < (interner.shards shardId).strings.len,
    ∃ symbol text, Symbol.new (UInt8.ofNat shardId) index = .ok symbol ∧
      interner.resolve symbol = .ok (some text) ∧ interner.get text = some symbol

namespace Layout

variable {interner next : StringInterner build} {contents : Contents} {value : String}

/-- An interner without repetition is unique. -/
theorem unique (layout : interner.Layout contents) (distinct : contents.Distinct) :
    interner.Unique := by
  constructor
  · intro first second text firstText secondText
    exact numbered_injective distinct (layout.resolve_eq_some.mp firstText)
      (layout.resolve_eq_some.mp secondText)
  · intro shardId inRange index below
    rw [layout.len shardId inRange] at below
    have here := List.getElem?_eq_getElem below
    obtain ⟨symbol, made, _⟩ := layout.entry shardId inRange index _ here
    have numbered := layout.numbered_of_stored inRange here made
    exact ⟨symbol, _, made, layout.resolve_eq_some.mpr numbered,
      (layout.get_eq_some distinct).mpr numbered⟩

/-- A unique interner holds no string twice. -/
theorem nodup_of_unique (layout : interner.Layout contents) (unique : interner.Unique)
    {shardId : Nat} (inRange : shardId < interner.shardCount) : (contents shardId).Nodup := by
  rw [List.nodup_iff_injective_getElem]
  rintro ⟨first, firstBelow⟩ ⟨second, secondBelow⟩ same
  dsimp only at same
  have firstHere := List.getElem?_eq_getElem firstBelow
  have secondHere := List.getElem?_eq_getElem secondBelow
  obtain ⟨firstSymbol, firstMade, _⟩ := layout.entry shardId inRange first _ firstHere
  obtain ⟨secondSymbol, secondMade, _⟩ := layout.entry shardId inRange second _ secondHere
  have firstText :=
    layout.resolve_eq_some.mpr (layout.numbered_of_stored inRange firstHere firstMade)
  have secondText :=
    layout.resolve_eq_some.mpr (layout.numbered_of_stored inRange secondHere secondMade)
  rw [← same] at secondText
  cases unique.distinct firstSymbol secondSymbol _ firstText secondText
  exact Fin.ext (Symbol.new_injective firstMade secondMade).2

/-- A call of `get_or_intern` that returns keeps what every shard holds, whether or not it
held a string twice. -/
theorem getOrIntern_grows (layout : interner.Layout contents) {symbol : Symbol}
    (storable : MemoryPool.Storable build.profile value)
    (success : interner.getOrIntern value = .ok symbol next) :
    ∃ grown, next.Layout grown ∧ SameShape interner next ∧ Contents.Grows contents grown := by
  have same : next = interner →
      ∃ grown, next.Layout grown ∧ SameShape interner next ∧ Contents.Grows contents grown := by
    rintro rfl
    exact ⟨contents, layout, SameShape.refl _, Contents.Grows.refl _⟩
  cases isStatic : staticSymbol? value with
  | some static =>
      rw [getOrIntern, isStatic] at success
      cases success
      exact same rfl
  | none =>
      cases found : interner.findChecked value with
      | some first =>
          rw [layout.findChecked_eq_findUnchecked] at found
          rw [getOrIntern, isStatic] at success
          simp only [internShared, layout.readSection_eq, found, Option.map_some] at success
          cases success
          exact same rfl
      | none =>
          rw [layout.getOrIntern_absent isStatic found] at success
          cases inserted : interner.insertVacant value with
          | error fault after =>
              simp only [inserted] at success
              cases success
          | ok pair after =>
              simp only [inserted] at success
              cases success
              have done := insertVacant_ok layout.sized storable inserted
              exact ⟨_, (layout.inserted isStatic storable done).1, done.shape,
                Contents.grows_push _ _ _⟩

/-- A run of calls that return keeps what every shard holds. -/
theorem returns_run {last : StringInterner build} {values : List String}
    (layout : interner.Layout contents) (run : Steps Returns interner values last)
    (storable : ∀ value ∈ values, MemoryPool.Storable build.profile value) :
    ∃ grown, last.Layout grown ∧ SameShape interner last ∧ Contents.Grows contents grown := by
  induction run with
  | refl => exact ⟨contents, layout, SameShape.refl _, Contents.Grows.refl _⟩
  | step prior transition ih =>
      obtain ⟨middle, middleLayout, shape, grows⟩ :=
        ih fun value member => storable value (List.mem_append_left _ member)
      rcases transition.eq_or with rfl | ⟨symbol, success⟩
      · exact ⟨middle, middleLayout, shape, grows⟩
      · obtain ⟨grown, grownLayout, moreShape, more⟩ := middleLayout.getOrIntern_grows
          (storable _ (List.mem_append_right _ List.mem_cons_self)) success
        exact ⟨grown, grownLayout, shape.trans moreShape, grows.trans more⟩

/-- A text that is stored or skipped. -/
theorem insertText_ok (layout : interner.Layout contents) {raw : List UInt8}
    (storable : ∀ text ∈ notStatic (fromUtf8 raw).toList, MemoryPool.Storable build.profile text)
    (success : interner.insertText raw = .ok next) :
    next.Layout (contents.append interner.shardOf (notStatic (fromUtf8 raw).toList)) ∧
      SameShape interner next := by
  rcases insertText_eq_ok.mp success with ⟨invalid, rfl⟩ | ⟨text, symbol, valid, inserted⟩
  · rw [invalid]
    exact ⟨(Contents.append_nil contents _).symm ▸ layout, SameShape.refl _⟩
  · rw [valid] at storable ⊢
    cases isStatic : staticSymbol? text with
    | some static =>
        have skipped : notStatic (some text).toList = [] := by simp [notStatic, isStatic]
        rw [insertUnique, isStatic] at inserted
        cases inserted
        rw [skipped, Contents.append_nil]
        exact ⟨layout, SameShape.refl _⟩
    | none =>
        have kept : notStatic (some text).toList = [text] := by simp [notStatic, isStatic]
        rw [kept] at storable ⊢
        obtain ⟨offset, vacant⟩ := (insertUnique_eq_ok isStatic).mp inserted
        have whole := storable text List.mem_cons_self
        have done := insertVacant_ok layout.sized whole vacant
        rw [Contents.append_cons, Contents.append_nil]
        exact ⟨(layout.inserted isStatic whole done).1, done.shape⟩

/-- When the record loop returns it has stored the texts of the records it reached. -/
theorem fromBytesLoop_ok {raw : List UInt8} {fuel cursor : Nat}
    (layout : interner.Layout contents)
    (storable : ∀ text ∈ notStatic (reachedTexts fuel (raw.drop cursor)),
      MemoryPool.Storable build.profile text)
    (success : fromBytesLoop raw fuel cursor interner = .ok next) :
    next.Layout (contents.append interner.shardOf
        (notStatic (reachedTexts fuel (raw.drop cursor)))) ∧ SameShape interner next := by
  induction fuel generalizing cursor interner contents with
  | zero => cases success
  | succ fuel ih =>
      rw [reachedTexts, recordAt_drop] at storable ⊢
      cases RecordLoop.outcome raw ⟨cursor, interner⟩ with
      | @turn len state turn =>
          obtain ⟨text, found, inserted⟩ := turn.record
          obtain ⟨size, padded, moved⟩ := turn.moved
          have rest := (turn.run_succ fuel).symm.trans success
          rw [found] at storable ⊢
          dsimp only at storable ⊢ found inserted moved
          rw [notStatic_append] at storable ⊢
          rw [List.drop_drop, ← size_eq_of_paddedRecordSize padded, ← moved] at storable ⊢
          obtain ⟨middleLayout, shape⟩ := layout.insertText_ok
            (fun text member => storable text (List.mem_append_left _ member)) inserted
          obtain ⟨lastLayout, more⟩ := ih middleLayout
            (fun text member => storable text (List.mem_append_right _ member)) rest
          rw [funext shape.shardOf, ← Contents.append_append] at lastLayout
          exact ⟨lastLayout, shape.trans more⟩
      | done finished ended =>
          cases (ended fuel).symm.trans success
          rw [finished, show notStatic [] = [] from rfl, Contents.append_nil]
          exact ⟨layout, SameShape.refl _⟩
      | panicked fault real failed =>
          have same := (failed fuel).symm.trans success
          cases same

end Layout

/-- Texts without repetition are spread over the shards without repetition. -/
theorem distinct_append_iff {home : String → Nat} {texts : List String} {count : Nat}
    (homes : ∀ text, home text < count) :
    (∀ shardId < count, (Contents.empty.append home texts shardId).Nodup) ↔ texts.Nodup := by
  have parts : ∀ shardId, Contents.empty.append home texts shardId =
      texts.filter fun text => home text = shardId := fun _ => List.nil_append _
  simp only [parts]
  constructor
  · intro each
    rw [List.nodup_iff_count_le_one]
    intro text
    have few := List.nodup_iff_count_le_one.mp (each (home text) (homes text)) text
    rwa [List.count_filter (by simp)] at few
  · intro nodup shardId _
    exact nodup.filter _

/-- The strings of a rebuilt interner. -/
theorem fromBytes_ok {uninitialised : Memory} {internerId : Nat} {raw : List UInt8}
    {rebuilt : StringInterner build}
    (decoded : fromBytes build uninitialised internerId raw = .ok rebuilt)
    (whole : ∀ text ∈ insertedTexts raw, MemoryPool.Storable build.profile text) :
    rebuilt.Layout (Contents.empty.append rebuilt.shardOf (insertedTexts raw)) ∧
      rebuilt.pool.regionSize = (ARENA_CAPACITY - 4) / rebuilt.shardCount / 4 * 4 := by
  obtain ⟨interner, new, created⟩ := withCapacityAndShards_ok build uninitialised internerId
    ((MemoryPool.readShardCountHeader raw).getD DEFAULT_SHARD_COUNT)
  simp only [fromBytes, new] at decoded
  split at decoded
  · rename_i header
    cases decoded
    have noTexts : insertedTexts raw = [] := by
      have none : recordAt (raw.drop 4) 0 = none := by
        rw [recordAt, if_neg (by rw [List.length_drop]; omega)]
      rw [insertedTexts, reachedTexts, none]
      rfl
    rw [noTexts, Contents.append_nil]
    exact ⟨created.layout, created.holds.regionSize⟩
  · obtain ⟨layout, shape⟩ := created.layout.fromBytesLoop_ok whole decoded
    rw [← funext shape.shardOf] at layout
    exact ⟨layout, by rw [shape.regionSize, shape.shardCount, created.holds.regionSize]⟩

/-- After any calls that return, a rebuilt interner is unique exactly when the texts it was
rebuilt from were pairwise different. -/
theorem unique_iff_of_run {uninitialised : Memory} {internerId : Nat} {raw : List UInt8}
    {rebuilt last : StringInterner build} {values : List String}
    (decoded : fromBytes build uninitialised internerId raw = .ok rebuilt)
    (run : Steps Returns rebuilt values last)
    (whole : ∀ text ∈ insertedTexts raw ++ values, MemoryPool.Storable build.profile text) :
    last.Unique ↔ (insertedTexts raw).Nodup := by
  obtain ⟨layout, regionSize⟩ := fromBytes_ok decoded
    fun text member => whole text (List.mem_append_left _ member)
  have wholeRun : ∀ value ∈ values, MemoryPool.Storable build.profile value :=
    fun value member => whole value (List.mem_append_right _ member)
  rw [← distinct_append_iff layout.shardOf_lt]
  constructor
  · intro unique shardId inRange
    obtain ⟨grown, lastLayout, shape, grows⟩ := layout.returns_run run wholeRun
    exact (grows shardId).sublist.nodup
      (lastLayout.nodup_of_unique unique (shape.shardCount.symm ▸ inRange))
  · intro distinct
    have all : (Contents.empty.append rebuilt.shardOf (insertedTexts raw)).Distinct := by
      intro shardId
      exact ((distinct_append_iff layout.shardOf_lt).mp distinct).filter _
    have holds : rebuilt.Holds _ := ⟨layout, all, regionSize⟩
    obtain ⟨grown, lastHolds, _⟩ := holds.returns_run run wholeRun
    exact lastHolds.layout.unique lastHolds.distinct

/-- The records of two different strings in one shard. -/
theorem unique_iff_of_run_two : ∃ rebuilt : StringInterner ⟨.release, fun _ => 0⟩,
    fromBytes ⟨.release, fun _ => 0⟩ (fun _ => 0) 1
        [1, 0, 0, 0, 2, 0, 0, 0, 97, 98, 0, 0, 2, 0, 0, 0, 99, 100, 0, 0] = .ok rebuilt ∧
      rebuilt.Unique := by
  have short : [1, 0, 0, 0, 2, 0, 0, 0, 97, 98, 0, 0, 2, 0, 0, 0, 99, 100, 0, (0 : UInt8)].length <
      u32Range := by decide
  have fits : RecordsFit ⟨.release, fun _ => 0⟩
      [1, 0, 0, 0, 2, 0, 0, 0, 97, 98, 0, 0, 2, 0, 0, 0, 99, 100, 0, 0] := by decide +kernel
  have texts : insertedTexts [1, 0, 0, 0, 2, 0, 0, 0, 97, 98, 0, 0, 2, 0, 0, 0, 99, 100, 0, 0] =
      ["ab", "cd"] := by decide +kernel
  rcases fromBytes_cases ⟨.release, fun _ => 0⟩ (fun _ => 0) 1 short with
    ⟨_, rebuilt, decoded, _⟩ | ⟨full, _⟩
  · have unique := unique_iff_of_run decoded .refl (by
      rw [texts]
      decide)
    rw [texts] at unique
    exact ⟨rebuilt, decoded, unique.mpr (by decide)⟩
  · exact absurd fits full

/-- The records of one string twice. -/
theorem not_unique_twice : ∃ rebuilt : StringInterner ⟨.release, fun _ => 0⟩,
    fromBytes ⟨.release, fun _ => 0⟩ (fun _ => 0) 1
        [1, 0, 0, 0, 2, 0, 0, 0, 97, 98, 0, 0, 2, 0, 0, 0, 97, 98, 0, 0] = .ok rebuilt ∧
      ¬ rebuilt.Unique := by
  have short : [1, 0, 0, 0, 2, 0, 0, 0, 97, 98, 0, 0, 2, 0, 0, 0, 97, 98, 0, (0 : UInt8)].length <
      u32Range := by decide
  have fits : RecordsFit ⟨.release, fun _ => 0⟩
      [1, 0, 0, 0, 2, 0, 0, 0, 97, 98, 0, 0, 2, 0, 0, 0, 97, 98, 0, 0] := by decide +kernel
  have texts : storedTexts [1, 0, 0, 0, 2, 0, 0, 0, 97, 98, 0, 0, 2, 0, 0, 0, 97, 98, 0, 0] =
      ["ab", "ab"] := by decide +kernel
  rcases fromBytes_cases ⟨.release, fun _ => 0⟩ (fun _ => 0) 1 short with
    ⟨_, rebuilt, decoded, facts⟩ | ⟨full, _⟩
  · refine ⟨rebuilt, decoded, fun unique => ?_⟩
    have layout := facts.ready.layout
    have each := (distinct_append_iff layout.shardOf_lt).mp
      fun shardId inRange => layout.nodup_of_unique unique inRange
    rw [texts] at each
    exact absurd each (by decide)
  · exact absurd fits full

end StringInterner

end Boomerang
