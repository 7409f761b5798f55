import Boomerang.Interner.Decoding
import Boomerang.Interner.Failures

/-!
# A record that is skipped

`from_bytes` skips a record whose text is not valid UTF-8 and goes on. The records behind
it in the same shard move up by one number, so their symbols lead to other strings.
-/

namespace Boomerang

open Foundation

/-- Bytes framed as a record, of a text that may be invalid. -/
structure IsFrame (raw text : List UInt8) : Prop where
  size : raw.length = paddedSize text.length
  parts : ∃ padding, raw = toLE 4 text.length ++ (text ++ padding)

theorem IsRecord.isFrame {raw : List UInt8} {value : String} (record : IsRecord raw value) :
    IsFrame raw (bytes value) :=
  ⟨record.size, record.parts⟩

/-- The text of a record replaced by other bytes. -/
def withText (raw text : List UInt8) : List UInt8 :=
  raw.take 4 ++ (text ++ raw.drop (4 + text.length))

/-- Bytes of the same length leave the frame as it is. -/
theorem IsRecord.withText {raw text : List UInt8} {value : String} (record : IsRecord raw value)
    (sameLength : text.length = byteLength value) : IsFrame (withText raw text) text := by
  obtain ⟨padding, parts⟩ := record.parts
  have size := record.size
  have room := le_paddedSize (byteLength value)
  constructor
  · rw [Boomerang.withText, List.length_append, List.length_append, List.length_take,
      List.length_drop, sameLength]
    omega
  · refine ⟨raw.drop (4 + text.length), ?_⟩
    rw [Boomerang.withText, sameLength]
    congr 1
    rw [parts, List.take_left' (length_toLE _ _)]

/-- A frame in front is read first. -/
theorem recordTexts_frame {raw text : List UInt8} (frame : IsFrame raw text)
    (fits : text.length < 256 ^ 4) (rest : List UInt8) (fuel : Nat) :
    recordTexts (fuel + 1) (raw ++ rest) = (fromUtf8 text).toList ++ recordTexts fuel rest := by
  obtain ⟨padding, parts⟩ := frame.parts
  have size := frame.size
  have room := le_paddedSize text.length
  have len : ofLE ((raw ++ rest).take 4) = text.length := by
    rw [parts, List.append_assoc, List.take_left' (length_toLE _ _), ofLE_toLE fits]
  have here : ((raw ++ rest).drop 4).take text.length = text := by
    rw [parts, List.append_assoc, List.drop_left' (length_toLE _ _), List.append_assoc,
      List.take_left]
  have behind : (raw ++ rest).drop (paddedSize text.length) = rest := by
    rw [← size, List.drop_left]
  rw [recordTexts, len, here, behind, List.length_append, if_neg (by omega)]

/-- The records in front are read first. -/
theorem recordTexts_append {body rest : List UInt8} {values : List String}
    (records : Records body values) (fits : body.length < 256 ^ 4) {fuel : Nat}
    (enough : (body ++ rest).length < fuel) :
    ∃ left, rest.length < left ∧
      recordTexts fuel (body ++ rest) = values ++ recordTexts left rest := by
  induction records generalizing fuel with
  | nil => exact ⟨fuel, enough, rfl⟩
  | @cons raw more value values record others ih =>
      have size := record.size
      have room := le_paddedSize (byteLength value)
      rw [List.length_append] at fits
      rw [List.length_append, List.length_append] at enough
      obtain ⟨fuel, rfl⟩ := Nat.exists_eq_succ_of_ne_zero (Nat.ne_of_gt (Nat.zero_lt_of_lt enough))
      have less : (more ++ rest).length < fuel := by
        rw [List.length_append]
        omega
      obtain ⟨left, leftRoom, texts⟩ := ih (by omega) less
      refine ⟨left, leftRoom, ?_⟩
      have short : (bytes value).length < 256 ^ 4 := by
        rw [byteLength] at *
        omega
      rw [List.append_assoc, recordTexts_frame record.isFrame short, fromUtf8_bytes, texts]
      rfl

/-- The texts of records are their strings. -/
theorem recordTexts_records {body : List UInt8} {values : List String}
    (records : Records body values) (fits : body.length < 256 ^ 4) {fuel : Nat}
    (enough : body.length < fuel) : recordTexts fuel body = values := by
  have whole : (body ++ []).length < fuel := by rwa [List.append_nil]
  obtain ⟨left, _, texts⟩ := recordTexts_append records fits whole
  have none : recordTexts left [] = [] := by
    cases left with
    | zero => rfl
    | succ left => rfl
  rwa [List.append_nil, none, List.append_nil] at texts

/-- A frame whose text is invalid adds nothing to the texts around it. -/
theorem recordTexts_skipped {before skipped after junk : List UInt8} {earlier later : List String}
    (front : Records before earlier) (frame : IsFrame skipped junk)
    (behind : Records after later) (invalid : fromUtf8 junk = none)
    (fits : (before ++ (skipped ++ after)).length < 256 ^ 4) {fuel : Nat}
    (enough : (before ++ (skipped ++ after)).length < fuel) :
    recordTexts fuel (before ++ (skipped ++ after)) = earlier ++ later := by
  have size := frame.size
  have room := le_paddedSize junk.length
  rw [List.length_append, List.length_append] at fits
  obtain ⟨fuel, fuelRoom, first⟩ := recordTexts_append front (by omega) enough
  rw [List.length_append] at fuelRoom
  obtain ⟨fuel, rfl⟩ := Nat.exists_eq_succ_of_ne_zero (Nat.ne_of_gt (Nat.zero_lt_of_lt fuelRoom))
  rw [first, recordTexts_frame frame (by omega), invalid, Option.toList_none, List.nil_append,
    recordTexts_records behind (by omega) (by omega)]

/-- Without the record in the middle, the others keep their places exactly when it is the
last. -/
theorem getElem?_append_iff {front behind : List String} {value : String}
    (distinct : (front ++ value :: behind).Nodup) :
    (∀ (index : Nat) (text : String), text ≠ value →
      (front ++ value :: behind)[index]? = some text →
        (front ++ behind)[index]? = some text) ↔ behind = [] := by
  constructor
  · intro kept
    cases behind with
    | nil => rfl
    | cons next rest =>
        have notValue : next ≠ value := by
          rintro rfl
          exact absurd (List.nodup_append.mp distinct).2.1 (by simp)
        have there : (front ++ value :: next :: rest)[front.length + 1]? = some next := by
          rw [List.getElem?_append_right (Nat.le_add_right _ 1), Nat.add_sub_cancel_left]
          rfl
        have moved : (front ++ next :: rest)[front.length]? = some next := by
          rw [List.getElem?_append_right (Nat.le_refl _), Nat.sub_self]
          rfl
        have sublist : (front ++ next :: rest).Sublist (front ++ value :: next :: rest) :=
          (List.sublist_cons_self _ _).append_left front
        obtain ⟨thereBelow, thereEq⟩ := List.getElem?_eq_some_iff.mp (kept _ next notValue there)
        obtain ⟨movedBelow, movedEq⟩ := List.getElem?_eq_some_iff.mp moved
        have same := (sublist.nodup distinct).getElem_inj_iff.mp (thereEq.trans movedEq.symm)
        omega
  · rintro rfl index text different here
    rw [List.append_nil]
    by_cases below : index < front.length
    · rwa [List.getElem?_append_left below] at here
    · rw [List.getElem?_append_right (by omega)] at here
      have member := List.mem_of_getElem? here
      exact absurd (List.mem_singleton.mp member) different

theorem recordsSize_sublist {fewer strings : List String} (sublist : fewer.Sublist strings) :
    recordsSize fewer ≤ recordsSize strings := by
  have sizes := sublist.map fun value => paddedSize (byteLength value)
  exact sizes.sum_le_sum fun _ _ => Nat.zero_le _

namespace StringInterner

variable {build : Build}

/-- The strings of a shard among those of the records, in order. -/
theorem Layout.contents_eq_filter {interner : StringInterner build} {contents : Contents}
    (layout : interner.Layout contents) {shardId : Nat} (inRange : shardId < interner.shardCount) :
    contents shardId = ((List.range interner.shardCount).flatMap contents).filter
      fun value => interner.shardOf value = shardId := by
  rw [filter_flatMap_range layout.home, Contents.within, if_pos inRange]

/-- An interner that holds the strings of another but one leaves the symbols of the others
as they are exactly when that string is the last of its shard. -/
theorem Layout.resolve_kept_iff {interner rebuilt : StringInterner build}
    {contents : Contents} {earlier later : List String} {value : String}
    (layout : interner.Layout contents) (distinct : contents.Distinct)
    (strings : (List.range interner.shardCount).flatMap contents = earlier ++ value :: later)
    (home : rebuilt.shardOf = interner.shardOf) (rebuiltLayout :
      rebuilt.Layout (Contents.empty.append interner.shardOf (earlier ++ later))) :
    (∀ symbol text, text ≠ value → interner.resolve symbol = .ok (some text) →
        rebuilt.resolve symbol = .ok (some text)) ↔
      ∀ other ∈ later, interner.shardOf other ≠ interner.shardOf value := by
  have bounded := layout.shardOf_lt value
  have before : ∀ shardId < interner.shardCount, contents shardId =
      (earlier ++ value :: later).filter fun other => interner.shardOf other = shardId :=
    fun shardId inRange => strings ▸ layout.contents_eq_filter inRange
  have after : ∀ shardId, Contents.empty.append interner.shardOf (earlier ++ later) shardId =
      (earlier ++ later).filter fun other => interner.shardOf other = shardId := by
    intro shardId
    rw [Contents.append, Contents.empty, List.nil_append]
  -- In the shard of the string the records behind it move up.
  have here : contents (interner.shardOf value) =
      earlier.filter (fun other => interner.shardOf other = interner.shardOf value) ++
        value :: later.filter (fun other => interner.shardOf other = interner.shardOf value) := by
    rw [before _ bounded, List.filter_append, List.filter_cons_of_pos (by simp)]
  have shifts := getElem?_append_iff (here ▸ distinct (interner.shardOf value))
  rw [← here, ← List.filter_append, ← after, List.filter_eq_nil_iff] at shifts
  constructor
  · intro kept other member same
    refine shifts.mp ?_ other member (decide_eq_true same)
    intro index text different stored
    obtain ⟨symbol, made, _⟩ := layout.entry _ bounded index text stored
    have numbered := layout.numbered_of_stored bounded stored made
    have resolved := kept symbol text different (layout.resolve_eq_some.mpr numbered)
    have textHome := layout.home _ bounded text (List.mem_of_getElem? stored)
    rcases rebuiltLayout.resolve_eq_some.mp resolved with
      isStatic | ⟨_, place, there, numberedThere⟩
    · rw [(layout.proper _ bounded text (List.mem_of_getElem? stored)).1] at isStatic
      cases isStatic
    · rw [home, textHome] at there numberedThere
      obtain ⟨_, rfl⟩ := Symbol.new_injective made numberedThere
      exact there
  · intro last symbol text different resolved
    apply rebuiltLayout.resolve_eq_some.mpr
    rcases layout.resolve_eq_some.mp resolved with isStatic | ⟨notStatic, index, stored, made⟩
    · exact Or.inl isStatic
    · refine Or.inr ⟨notStatic, index, ?_, home ▸ made⟩
      rw [home]
      by_cases same : interner.shardOf text = interner.shardOf value
      · rw [same] at stored ⊢
        refine shifts.mpr (fun other member => ?_) index text different stored
        rw [decide_eq_true_eq]
        exact last other member
      · rw [before _ (layout.shardOf_lt text), List.filter_append,
          List.filter_cons_of_neg (by simpa using fun equal => same equal.symm),
          ← List.filter_append] at stored
        rwa [after]

/-- Strings that are among those of an interner fit its shards. -/
theorem Layout.fits_of_sublist {interner : StringInterner build} {contents : Contents}
    (layout : interner.Layout contents) {values : List String}
    (sublist : values.Sublist ((List.range interner.shardCount).flatMap contents))
    {shardId : Nat} (inRange : shardId < interner.shardCount) :
    recordsSize (values.filter fun value => interner.shardOf value = shardId) ≤
        interner.pool.regionSize ∧
      (values.filter fun value => interner.shardOf value = shardId).length ≤
        Symbol.indexMask.toNat := by
  have here := sublist.filter fun value => interner.shardOf value = shardId
  rw [← layout.contents_eq_filter inRange] at here
  exact ⟨(recordsSize_sublist here).trans (layout.room shardId inRange),
    here.length_le.trans (layout.length_le inRange)⟩

/-- The export with the text of one record replaced by bytes that are no text is rebuilt
from the other strings. -/
theorem Holds.rebuild_skipped {interner : StringInterner build} {contents : Contents}
    {header before record after junk : List UInt8} {earlier later : List String}
    {value : String} (holds : interner.Holds contents) (headerSize : header.length = 4)
    (image : interner.exportBytes = header ++ (before ++ (record ++ after)))
    (front : Records before earlier) (here : IsRecord record value)
    (behind : Records after later) (sameLength : junk.length = byteLength value)
    (invalid : fromUtf8 junk = none) (uninitialised : Memory) (internerId : Nat) :
    (List.range interner.shardCount).flatMap contents = earlier ++ value :: later ∧
      ∃ rebuilt : StringInterner build,
        fromBytes build uninitialised internerId
            (header ++ (before ++ (withText record junk ++ after))) = .ok rebuilt ∧
          rebuilt.shardOf = interner.shardOf ∧
          rebuilt.Layout (Contents.empty.append interner.shardOf (earlier ++ later)) := by
  have layout := holds.layout
  obtain ⟨exponent, exponentSmall, countEq⟩ := layout.powerOfTwo
  have wide : u32Range = 256 ^ 4 := by decide
  have small : interner.exportBytes.length < u32Range := layout.sized.length_committedBytes
  obtain ⟨body, exported, all⟩ := layout.exportBytes_records
  obtain ⟨headerEq, bodyEq⟩ := List.append_inj (image.symm.trans exported)
    (by rw [headerSize, length_toLE])
  subst headerEq bodyEq
  rw [exported, List.length_append, length_toLE] at small
  have fits : (before ++ (record ++ after)).length < 256 ^ 4 := by omega
  have strings : (List.range interner.shardCount).flatMap contents = earlier ++ value :: later :=
    (recordTexts_records all fits (Nat.lt_succ_self _)).symm.trans
      (recordTexts_records (front.append (.cons here behind)) fits (Nat.lt_succ_self _))
  have frame := here.withText sameLength
  have sameSize : (before ++ (withText record junk ++ after)).length =
      (before ++ (record ++ after)).length := by
    simp only [List.length_append, frame.size, here.size, sameLength]
  generalize imageEq : toLE 4 interner.shardCount ++ (before ++ (withText record junk ++ after)) =
    raw
  have rawSize : raw.length = 4 + (before ++ (record ++ after)).length := by
    rw [← imageEq, List.length_append, length_toLE, sameSize]
  have count : shardCountOf raw = interner.shardCount := by
    have bounds := layout.shardCount_bounds
    rw [shardCountOf, MemoryPool.readShardCountHeader, ← imageEq, if_neg (by simp),
      List.take_left' (length_toLE _ _), ofLE_toLE (by omega), Option.getD_some, countEq,
      clampShardCount_two_pow exponentSmall]
  have homes : homeOf build (shardCountOf raw) = interner.shardOf := by
    funext text
    rw [homeOf, count, StringInterner.shardOf, layout.mask]
  have fewer : (earlier ++ later).Sublist ((List.range interner.shardCount).flatMap contents) :=
    strings ▸ (List.sublist_cons_self value later).append_left earlier
  have texts : storedTexts raw = earlier ++ later := by
    rw [storedTexts, ← imageEq, List.drop_left' (length_toLE _ _), imageEq,
      recordTexts_skipped front frame behind invalid (by omega) (by omega)]
    refine List.filter_eq_self.mpr fun text member => ?_
    obtain ⟨shardId, inRange, stored⟩ := List.mem_flatMap.mp (fewer.subset member)
    rw [(layout.proper shardId (List.mem_range.mp inRange) text stored).1]
    rfl
  have fitsShards : RecordsFit build raw := by
    intro shardId inRange
    rw [count] at inRange
    dsimp only
    rw [texts, homes, count, ← holds.regionSize]
    exact layout.fits_of_sublist fewer inRange
  refine ⟨strings, ?_⟩
  rcases fromBytes_cases build uninitialised internerId (rawSize ▸ small) with
    ⟨_, rebuilt, success, facts⟩ | ⟨full, _⟩
  · have home : rebuilt.shardOf = interner.shardOf := facts.shardOf.trans homes
    have ready := facts.ready.layout
    rw [texts, home] at ready
    exact ⟨rebuilt, success, home, ready⟩
  · exact absurd fitsShards full

/-- After any calls that return, an export in which the text of one record is replaced by
bytes that are no text is rebuilt, and every other symbol keeps its string, exactly when no
record behind it is of the same shard. -/
theorem skipped_kept_iff_of_run {uninitialised : Memory} {internerId count : Nat}
    {interner last : StringInterner build} {values earlier later : List String}
    {header before record after junk : List UInt8} {value : String}
    (created : withCapacityAndShards build uninitialised internerId count = .ok interner)
    (run : Steps Returns interner values last)
    (whole : ∀ stored ∈ values, MemoryPool.Storable build.profile stored)
    (image : last.exportBytes = header ++ (before ++ (record ++ after)))
    (headerSize : header.length = 4) (front : Records before earlier)
    (here : IsRecord record value) (behind : Records after later)
    (sameLength : junk.length = byteLength value) (invalid : fromUtf8 junk = none)
    (otherMemory : Memory) (otherId : Nat) :
    (∃ rebuilt : StringInterner build,
        fromBytes build otherMemory otherId
            (header ++ (before ++ (withText record junk ++ after))) = .ok rebuilt ∧
          ∀ symbol text, text ≠ value → last.resolve symbol = .ok (some text) →
            rebuilt.resolve symbol = .ok (some text)) ↔
      ∀ other ∈ later, last.shardOf other ≠ last.shardOf value := by
  obtain ⟨made, madeEq, facts⟩ := withCapacityAndShards_ok build uninitialised internerId count
  cases madeEq.symm.trans created
  obtain ⟨contents, holds, _⟩ := facts.holds.returns_run run whole
  obtain ⟨strings, rebuilt, success, home, layout⟩ := holds.rebuild_skipped headerSize image front
    here behind sameLength invalid otherMemory otherId
  have kept := holds.layout.resolve_kept_iff holds.distinct strings home layout
  constructor
  · rintro ⟨same, sameEq, resolves⟩
    cases sameEq.symm.trans success
    exact kept.mp resolves
  · intro last
    exact ⟨rebuilt, success, kept.mpr last⟩

/-- The export of an interner with one shard that holds the first words. -/
theorem HoldsWords.image {interner : StringInterner build} {number : Nat}
    (words : interner.HoldsWords number) : ∃ contents body, interner.Holds contents ∧
      interner.exportBytes = toLE 4 1 ++ body ∧ Records body ((List.range number).map word) := by
  obtain ⟨contents, holds, listed⟩ := words.holds
  obtain ⟨body, exported, records⟩ := holds.layout.exportBytes_records
  rw [words.oneShard] at exported records
  refine ⟨contents, body, holds, exported, ?_⟩
  rw [← listed]
  simpa using records

/-- Four bytes that are no text. -/
def junk : List UInt8 := [255, 255, 255, 255]

theorem fromUtf8_junk : fromUtf8 junk = none := fromUtf8_cons_eq_none (by decide) _

theorem length_junk (number : Nat) : junk.length = byteLength (word number) :=
  (byteLength_word number).symm

/-- Of two records in one shard the last is skipped, and the first keeps its number. -/
theorem skipped_kept_iff_of_run_word :
    ∃ (last rebuilt : StringInterner ⟨.release, fun _ => 0⟩) (first record : List UInt8)
      (symbol : Symbol),
      last.exportBytes = toLE 4 1 ++ (first ++ record) ∧ IsRecord first (word 0) ∧
        IsRecord record (word 1) ∧
        fromBytes ⟨.release, fun _ => 0⟩ (fun _ => 0) 2
            (toLE 4 1 ++ (first ++ withText record junk)) = .ok rebuilt ∧
        last.resolve symbol = .ok (some (word 0)) ∧
        rebuilt.resolve symbol = .ok (some (word 0)) := by
  obtain ⟨interner, new, created⟩ :=
    withCapacityAndShards_ok ⟨.release, fun _ => 0⟩ (fun _ => 0) 1 1
  obtain ⟨last, run, words⟩ := created.holdsWords (show 2 ≤ 16777215 by decide)
  obtain ⟨_, body, _, exported, records⟩ := words.image
  rw [show (List.range 2).map word = [word 0, word 1] from rfl] at records
  cases records with
  | @cons first rest value values start records =>
  cases records with
  | @cons record rest value values here behind =>
  cases behind
  obtain ⟨rebuilt, success, kept⟩ := (skipped_kept_iff_of_run new run
    (fun stored member => Or.inr (by
      obtain ⟨number, _, rfl⟩ := List.mem_map.mp member
      rw [byteLength_word]
      decide))
    exported (length_toLE _ _) (by simpa using Records.cons start .nil) here .nil (length_junk 1)
    fromUtf8_junk (fun _ => 0) 2).mpr nofun
  rw [List.append_nil] at exported success
  -- The symbol of the first word.
  obtain ⟨contents, holds, listed⟩ := words.holds
  have bounded : 0 < last.shardCount := by rw [words.oneShard]; decide
  have stored : (contents 0)[0]? = some (word 0) := by rw [listed]; rfl
  obtain ⟨symbol, made, _⟩ := holds.layout.entry 0 bounded 0 (word 0) stored
  have resolved := holds.layout.resolve_eq_some.mpr
    (holds.layout.numbered_of_stored bounded stored made)
  have apart : word 0 ≠ word 1 := fun same =>
    absurd (word_injective (by decide) (by decide) same) (by decide)
  exact ⟨last, rebuilt, first, record, symbol, exported, start, here, success, resolved,
    kept symbol _ apart resolved⟩

/-- Of two records in one shard the first is skipped, and the second is renumbered. -/
theorem not_skipped_kept_words :
    ∃ (interner last rebuilt : StringInterner ⟨.release, fun _ => 0⟩) (record after : List UInt8),
      withCapacityAndShards ⟨.release, fun _ => 0⟩ (fun _ => 0) 1 1 = .ok interner ∧
        Steps Returns interner ((List.range 2).map word) last ∧
        last.exportBytes = toLE 4 1 ++ ([] ++ (record ++ after)) ∧ IsRecord record (word 0) ∧
        Records after [word 1] ∧
        fromBytes ⟨.release, fun _ => 0⟩ (fun _ => 0) 2
            (toLE 4 1 ++ ([] ++ (withText record junk ++ after))) = .ok rebuilt ∧
        ¬ ∀ symbol text, text ≠ word 0 → last.resolve symbol = .ok (some text) →
          rebuilt.resolve symbol = .ok (some text) := by
  obtain ⟨interner, new, created⟩ :=
    withCapacityAndShards_ok ⟨.release, fun _ => 0⟩ (fun _ => 0) 1 1
  obtain ⟨last, run, words⟩ := created.holdsWords (show 2 ≤ 16777215 by decide)
  obtain ⟨contents, body, holds, exported, records⟩ := words.image
  rw [show (List.range 2).map word = [word 0, word 1] from rfl] at records
  cases records with
  | @cons record after value values here behind =>
  obtain ⟨strings, rebuilt, success, home, layout⟩ := holds.rebuild_skipped (length_toLE 4 1)
    (show last.exportBytes = toLE 4 1 ++ ([] ++ (record ++ after)) from exported) .nil here behind
    (length_junk 0) fromUtf8_junk (fun _ => 0) 2
  refine ⟨interner, last, rebuilt, record, after, new, run, exported, here, behind, success, ?_⟩
  intro kept
  have bounded := holds.layout.shardOf_lt (word 0)
  have otherBounded := holds.layout.shardOf_lt (word 1)
  rw [words.oneShard] at bounded otherBounded
  have apart := (holds.layout.resolve_kept_iff holds.distinct strings home layout).mp kept (word 1)
    List.mem_cons_self
  omega

end StringInterner

end Boomerang
