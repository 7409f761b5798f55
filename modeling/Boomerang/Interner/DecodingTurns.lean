import Boomerang.Foundation.Transition
import Boomerang.Interner.Decoding
import Boomerang.Interner.LengthLimit

/-!
# The turns of the record loop

`from_bytes` moves its cursor by the padded size of each record. In a release build that
size wraps: it is zero for four lengths, and a turn at such a record comes back to the same
cursor. Every other turn moves forward. Which records the loop comes to is told by the
bytes: it passes a record unless its text is valid and does not fit its shard any more.
-/

namespace Boomerang

open Foundation

/-- The length and the text of the record at a place, if the bytes hold all of it. -/
def recordAt (raw : List UInt8) (cursor : Nat) : Option (Nat × List UInt8) :=
  if cursor + 4 ≤ raw.length then
    let len := ofLE ((raw.drop cursor).take 4)
    if raw.length < cursor + 4 + len then none
    else some (len, (raw.drop (cursor + 4)).take len)
  else none

theorem recordAt_eq_some {raw text : List UInt8} {cursor len : Nat} :
    recordAt raw cursor = some (len, text) ↔
      len = ofLE ((raw.drop cursor).take 4) ∧ cursor + 4 + len ≤ raw.length ∧
        text = (raw.drop (cursor + 4)).take len := by
  unfold recordAt
  constructor
  · intro found
    split at found
    · dsimp only at found
      split at found
      · cases found
      · cases found
        exact ⟨rfl, by omega, rfl⟩
    · cases found
  · rintro ⟨rfl, inside, rfl⟩
    dsimp only
    rw [if_pos (by omega), if_neg (by omega)]

/-- The length of a record fits its header. -/
theorem recordAt_lt {raw text : List UInt8} {cursor len : Nat}
    (found : recordAt raw cursor = some (len, text)) : len < u32Range := by
  obtain ⟨rfl, _, _⟩ := recordAt_eq_some.mp found
  have bound := ofLE_lt ((raw.drop cursor).take 4)
  have short : ((raw.drop cursor).take 4).length ≤ 4 := List.length_take_le _ _
  have wide : 256 ^ ((raw.drop cursor).take 4).length ≤ 256 ^ 4 :=
    Nat.pow_le_pow_right (by decide) short
  have range : u32Range = 256 ^ 4 := by decide
  omega

/-- The texts fit the shards they hash to, in an interner for these bytes. -/
def TextsFit (build : Build) (raw : List UInt8) (texts : List String) : Prop :=
  ∀ shardId < shardCountOf raw,
    let here := texts.filter fun value => homeOf build (shardCountOf raw) value = shardId
    recordsSize here ≤ (ARENA_CAPACITY - 4) / shardCountOf raw / 4 * 4 ∧
      here.length ≤ Symbol.indexMask.toNat

/-- A record passed: its text joins those stored before, unless it is not valid, or
static, and the next record is behind its size, which may wrap. -/
def Passes (raw : List UInt8) (place : Nat × List String) (len : Nat)
    (next : Nat × List String) : Prop :=
  ∃ text, recordAt raw place.1 = some (len, text) ∧
    next = (place.1 + wrappedSize len, place.2 ++ notStatic (fromUtf8 text).toList)

/-- On the bytes the loop comes to a place, past records whose texts fit their shards. -/
def Visits (build : Build) (raw : List UInt8) (cursor : Nat) (texts : List String) : Prop :=
  (∃ lens, Steps (Passes raw) (4, []) lens (cursor, texts)) ∧ TextsFit build raw texts

/-- No text to be stored is so long that the size of its record wraps. -/
def TextsWhole (build : Build) (raw : List UInt8) : Prop :=
  ∀ cursor texts len text value, Visits build raw cursor texts →
    recordAt raw cursor = some (len, text) → fromUtf8 text = some value →
      MemoryPool.Storable .release value

/-- The state of the record loop between two turns. -/
structure RecordLoop (build : Build) where
  cursor : Nat
  interner : StringInterner build

namespace RecordLoop

variable {build : Build}

/-- A turn that goes on to another: the text is stored or skipped, and the cursor moves by
the padded size of the record. -/
structure Turn (raw : List UInt8) (state : RecordLoop build) (len : Nat)
    (next : RecordLoop build) : Prop where
  record : ∃ text, recordAt raw state.cursor = some (len, text) ∧
    state.interner.insertText text = .ok next.interner
  moved : ∃ size, paddedRecordSize build.profile len = .ok size ∧
    next.cursor = state.cursor + size

/-- The rest of the loop. -/
def run (raw : List UInt8) (fuel : Nat) (state : RecordLoop build) :
    Except Fault (StringInterner build) :=
  StringInterner.fromBytesLoop raw fuel state.cursor state.interner

/-- What the loop does with one more unit of fuel: it takes a turn, runs out of bytes, or
panics. -/
inductive Outcome (raw : List UInt8) (state : RecordLoop build) : Prop where
  | turn {len next} (turn : Turn raw state len next)
  | done (finished : recordAt raw state.cursor = none)
      (ended : ∀ fuel, state.run raw (fuel + 1) = .ok state.interner)
  | panicked (fault : Fault) (real : fault ≠ .divergence)
      (failed : ∀ fuel, state.run raw (fuel + 1) = .error fault)

/-- A turn uses one unit of fuel. -/
theorem Turn.run_succ {raw : List UInt8} {state next : RecordLoop build} {len : Nat}
    (turn : Turn raw state len next) (fuel : Nat) :
    state.run raw (fuel + 1) = next.run raw fuel := by
  obtain ⟨text, found, inserted⟩ := turn.record
  obtain ⟨size, sizeEq, moved⟩ := turn.moved
  obtain ⟨rfl, inside, rfl⟩ := recordAt_eq_some.mp found
  rw [run, StringInterner.fromBytesLoop, if_pos (by omega)]
  dsimp only
  rw [if_neg (by omega), inserted]
  simp only [sizeEq, ← moved, run]

end RecordLoop

namespace StringInterner

variable {build : Build}

/-- A text that is stored was valid, and a text that is not stored is skipped. -/
theorem insertText_eq_ok {interner next : StringInterner build} {raw : List UInt8} :
    interner.insertText raw = .ok next ↔
      fromUtf8 raw = none ∧ next = interner ∨
        ∃ text symbol, fromUtf8 raw = some text ∧ interner.insertUnique text = .ok symbol next := by
  unfold insertText
  cases fromUtf8 raw with
  | none => simp [eq_comm]
  | some text =>
      cases inserted : interner.insertUnique text with
      | error fault after => simp [inserted]
      | ok symbol after => simp [inserted]

/-- A string that is not static is stored by `insertVacant`. -/
theorem insertUnique_eq_ok {interner next : StringInterner build} {value : String}
    {symbol : Symbol} (notStatic : staticSymbol? value = none) :
    interner.insertUnique value = .ok symbol next ↔
      ∃ offset, interner.insertVacant value = .ok (symbol, offset) next := by
  simp only [insertUnique, notStatic]
  cases inserted : interner.insertVacant value with
  | error fault after => simp
  | ok pair after =>
      obtain ⟨made, offset⟩ := pair
      simp

/-- Nothing that storing a text does loops. -/
theorem insertText_error {interner : StringInterner build} {raw : List UInt8} {fault : Fault}
    (failed : interner.insertText raw = .error fault) : fault ≠ .divergence := by
  unfold insertText at failed
  split at failed
  · cases failed
  split at failed
  · rename_i text _ after inserted
    cases failed
    unfold insertUnique at inserted
    split at inserted
    · cases inserted
    split at inserted
    · rename_i vacant
      cases inserted
      rcases insertVacant_error vacant with ⟨pool, refused, _⟩ | ⟨_, _, _, _, _, refused | refused⟩
      · exact MemoryPool.alloc_error_real refused
      · rw [(LockFreeStringArray.push_error refused).1]
        exact Fault.noConfusion
      · obtain ⟨index, _, refused⟩ := refused
        rw [(Symbol.new_eq_error.mp refused).2]
        exact Fault.noConfusion
    · cases inserted
  · cases failed

end StringInterner

namespace RecordLoop

variable {build : Build} {raw : List UInt8} {state next : RecordLoop build}

theorem outcome (raw : List UInt8) (state : RecordLoop build) : Outcome raw state := by
  cases found : recordAt raw state.cursor with
  | none =>
      refine .done found fun fuel => ?_
      unfold recordAt at found
      rw [run, StringInterner.fromBytesLoop]
      dsimp only
      split at found
      · rename_i header
        dsimp only at found
        split at found
        · rename_i cut
          rw [if_pos header, if_pos cut]
        · cases found
      · rename_i short
        rw [if_neg short]
  | some record =>
      obtain ⟨len, text⟩ := record
      obtain ⟨lenEq, inside, textEq⟩ := recordAt_eq_some.mp found
      have unfolded : ∀ fuel, state.run raw (fuel + 1) = (do
          let next ← state.interner.insertText text
          let size ← paddedRecordSize build.profile len
          StringInterner.fromBytesLoop raw fuel (state.cursor + size) next) := by
        intro fuel
        rw [run, StringInterner.fromBytesLoop, if_pos (by omega)]
        dsimp only
        rw [← lenEq, if_neg (by omega), ← textEq]
        cases state.interner.insertText text with
        | error fault => rfl
        | ok next =>
            cases paddedRecordSize build.profile len with
            | error fault => rfl
            | ok size => rfl
      cases inserted : state.interner.insertText text with
      | error fault =>
          refine .panicked fault (StringInterner.insertText_error inserted) fun fuel => ?_
          rw [unfolded, inserted]
          rfl
      | ok interner =>
          cases size : paddedRecordSize build.profile len with
          | error fault =>
              have reason : fault ≠ .divergence := by
                unfold paddedRecordSize at size
                split at size
                · cases size
                  exact Fault.noConfusion
                · cases size
              refine .panicked fault reason fun fuel => ?_
              rw [unfolded, inserted, size]
              rfl
          | ok size' =>
              have turn : Turn raw state len ⟨state.cursor + size', interner⟩ :=
                ⟨⟨text, found, inserted⟩, ⟨size', size, rfl⟩⟩
              exact .turn turn

/-- Every turn that the loop takes moves the cursor forward. -/
def Progresses (raw : List UInt8) (first : RecordLoop build) : Prop :=
  ∀ lens state len next, Steps (Turn raw) first lens state → Turn raw state len next →
    state.cursor < next.cursor

theorem Progresses.tail {len : Nat} (progresses : Progresses raw state)
    (turn : Turn raw state len next) : Progresses raw next :=
  fun lens last len' after run => progresses (len :: lens) last len' after (.cons turn run)

/-- A loop that moves forward ends. -/
theorem Progresses.run_ne_divergence {fuel : Nat} (progresses : Progresses raw state)
    (enough : raw.length - state.cursor < fuel) : state.run raw fuel ≠ .error .divergence := by
  induction fuel generalizing state with
  | zero => exact absurd enough (Nat.not_lt_zero _)
  | succ fuel ih =>
      cases outcome raw state with
      | @turn len next turn =>
          obtain ⟨text, found, _⟩ := turn.record
          obtain ⟨_, inside, _⟩ := recordAt_eq_some.mp found
          have forward := progresses [] state len next .refl turn
          rw [turn.run_succ]
          exact ih (progresses.tail turn) (by omega)
      | done finished ended =>
          rw [ended]
          nofun
      | panicked fault real failed =>
          rw [failed]
          intro same
          exact real (Except.error.inj same)

/-- A loop that comes back to its state never ends. -/
theorem run_eq_divergence {len : Nat} (turn : Turn raw state len state) (fuel : Nat) :
    state.run raw fuel = .error .divergence := by
  induction fuel with
  | zero => rfl
  | succ fuel ih => rw [turn.run_succ, ih]

/-- The loop is at the place that the bytes lead to, with the texts stored. -/
structure Follows (initial : Memory) (first : StringInterner build) (raw : List UInt8)
    (state : RecordLoop build) (texts : List String) : Prop where
  visits : Visits build raw state.cursor texts
  shape : StringInterner.SameShape first state.interner
  ready : state.interner.Ready initial (Contents.empty.append first.shardOf texts)

section Simulation

variable {initial : Memory} {first : StringInterner build} {texts : List String}

/-- A text that is stored when there is room for it. -/
theorem Follows.stores (follows : Follows initial first raw state texts)
    (whole : TextsWhole build raw) {len : Nat} {text : List UInt8}
    (found : recordAt raw state.cursor = some (len, text)) :
    StringInterner.StoresOrPanics initial first Contents.empty
      (texts ++ notStatic (fromUtf8 text).toList) (state.interner.insertText text) := by
  refine .append follows.shape (StringInterner.insertText_cases follows.ready ?_)
  intro value decoded
  rcases whole _ _ len text value follows.visits found decoded with impossible | short
  · cases impossible
  · exact short

/-- A turn passes a record. -/
theorem Follows.turn {len : Nat} (release : build.profile = .release)
    (fits : ∀ texts, TextsFit build raw texts ↔ first.HasRoom Contents.empty texts)
    (whole : TextsWhole build raw) (follows : Follows initial first raw state texts)
    (turn : Turn raw state len next) : ∃ more, Follows initial first raw next more := by
  obtain ⟨text, found, inserted⟩ := turn.record
  obtain ⟨size, sizeEq, moved⟩ := turn.moved
  rw [release, paddedRecordSize_release] at sizeEq
  cases sizeEq
  obtain ⟨⟨lens, passed⟩, _⟩ := follows.visits
  rcases follows.stores whole found with ⟨room, stored, storedEq, shape, ready⟩ | ⟨_, fault, failed⟩
  · cases storedEq.symm.trans inserted
    refine ⟨_, ⟨⟨lens ++ [len], .step passed ⟨text, found, ?_⟩⟩, (fits _).mpr room⟩, shape, ready⟩
    rw [moved]
  · cases failed.symm.trans inserted

/-- A record whose text still fits is passed by a turn. -/
theorem Follows.exists_turn {len : Nat} {text : List UInt8} (release : build.profile = .release)
    (fits : ∀ texts, TextsFit build raw texts ↔ first.HasRoom Contents.empty texts)
    (whole : TextsWhole build raw) (follows : Follows initial first raw state texts)
    (found : recordAt raw state.cursor = some (len, text))
    (fitting : TextsFit build raw (texts ++ notStatic (fromUtf8 text).toList)) :
    ∃ next, Turn raw state len next ∧ next.cursor = state.cursor + wrappedSize len ∧
      Follows initial first raw next (texts ++ notStatic (fromUtf8 text).toList) := by
  obtain ⟨⟨lens, passed⟩, _⟩ := follows.visits
  rcases follows.stores whole found with ⟨_, stored, storedEq, shape, ready⟩ | ⟨full, _⟩
  · have padded : paddedRecordSize build.profile len = .ok (wrappedSize len) := by
      rw [release, paddedRecordSize_release]
    exact ⟨⟨state.cursor + wrappedSize len, stored⟩,
      ⟨⟨text, found, storedEq⟩, _, padded, rfl⟩, rfl,
      ⟨⟨lens ++ [len], .step passed ⟨text, found, rfl⟩⟩, fitting⟩, shape, ready⟩
  · exact absurd ((fits _).mp fitting) full

/-- Wherever the turns come, the bytes lead. -/
theorem exists_follows {start : RecordLoop build} {lens : List Nat}
    (release : build.profile = .release)
    (fits : ∀ texts, TextsFit build raw texts ↔ first.HasRoom Contents.empty texts)
    (whole : TextsWhole build raw) (follows : Follows initial first raw start texts)
    (run : Steps (Turn raw) start lens state) :
    ∃ passed, Follows initial first raw state passed := by
  induction run with
  | refl => exact ⟨texts, follows⟩
  | step _ turn ih =>
      obtain ⟨passed, middle⟩ := ih
      exact middle.turn release fits whole turn

/-- Wherever the bytes lead, the turns come. -/
theorem exists_run {start : RecordLoop build} (release : build.profile = .release)
    (fits : ∀ texts, TextsFit build raw texts ↔ first.HasRoom Contents.empty texts)
    (whole : TextsWhole build raw) (follows : Follows initial first raw start [])
    (atStart : start.cursor = 4) {lens : List Nat} {place : Nat × List String}
    (run : Steps (Passes raw) (4, []) lens place) (fitting : TextsFit build raw place.2) :
    ∃ lens state, Steps (Turn raw) start lens state ∧ state.cursor = place.1 ∧
      Follows initial first raw state place.2 := by
  induction run with
  | refl => exact ⟨[], start, .refl, atStart, follows⟩
  | @step lens middle len last prior passes ih =>
      obtain ⟨text, found, rfl⟩ := passes
      have before : TextsFit build raw middle.2 :=
        (fits _).mpr ((fits _).mp fitting).initial
      obtain ⟨taken, state, turns, here, middleFollows⟩ := ih before
      rw [← here] at found
      obtain ⟨next, turn, moved, nextFollows⟩ :=
        middleFollows.exists_turn release fits whole found fitting
      exact ⟨taken ++ [len], next, .step turns turn, by rw [moved, here], nextFollows⟩

end Simulation

end RecordLoop

namespace StringInterner

/-- A new interner for some bytes has room for the texts that fit. -/
theorem Created.textsFit_iff {build : Build} {interner : StringInterner build} {internerId : Nat}
    {raw : List UInt8} (created : Created interner internerId
      ((MemoryPool.readShardCountHeader raw).getD DEFAULT_SHARD_COUNT)) (texts : List String) :
    TextsFit build raw texts ↔ interner.HasRoom Contents.empty texts := by
  have count : interner.shardCount = shardCountOf raw := created.shardCount
  have home : interner.shardOf = homeOf build (shardCountOf raw) := by
    funext value
    rw [StringInterner.shardOf, created.layout.mask, count, homeOf]
  rw [TextsFit, HasRoom, count, created.regionSize, home]
  exact Iff.rfl

/-- In a release build the record loop moves forward at every turn, and therefore ends,
exactly when the bytes lead to no record whose size wraps to zero. Texts so long that
`alloc` would copy them past the arena are left out. -/
theorem fromBytes_progresses_iff {hashOne : String → UInt64} {uninitialised : Memory}
    {internerId : Nat} {raw : List UInt8} {interner : StringInterner ⟨.release, hashOne⟩}
    (created : withCapacityAndShards ⟨.release, hashOne⟩ uninitialised internerId
      ((MemoryPool.readShardCountHeader raw).getD DEFAULT_SHARD_COUNT) = .ok interner)
    (whole : TextsWhole ⟨.release, hashOne⟩ raw) :
    (RecordLoop.Progresses raw ⟨4, interner⟩ ∧
        fromBytes ⟨.release, hashOne⟩ uninitialised internerId raw ≠ .error .divergence) ↔
      ∀ cursor texts len text, Visits ⟨.release, hashOne⟩ raw cursor texts →
        recordAt raw cursor = some (len, text) →
          ¬ (u32Range ≤ len + 7 ∧ len + 3 < u32Range) := by
  obtain ⟨other, otherEq, facts⟩ := withCapacityAndShards_ok ⟨.release, hashOne⟩ uninitialised
    internerId ((MemoryPool.readShardCountHeader raw).getD DEFAULT_SHARD_COUNT)
  cases otherEq.symm.trans created
  have fits := facts.textsFit_iff
  have ready : interner.Ready uninitialised Contents.empty :=
    ⟨facts.layout, unwritten_of_created created, facts.intact⟩
  have noTexts : interner.HasRoom Contents.empty [] := by
    intro shardId inRange
    rw [Contents.append_nil]
    exact ⟨facts.layout.room shardId inRange, facts.layout.length_le inRange⟩
  have follows : RecordLoop.Follows uninitialised interner raw ⟨4, interner⟩ [] :=
    ⟨⟨⟨[], .refl⟩, (fits []).mpr noTexts⟩, SameShape.refl _, by rwa [Contents.append_nil]⟩
  constructor
  · rintro ⟨progresses, _⟩ cursor texts len text ⟨⟨lens, passed⟩, fitting⟩ found zero
    -- The text is no valid one, so the turn leaves the interner and the cursor as they are.
    obtain ⟨taken, state, turns, here, _⟩ :=
      RecordLoop.exists_run rfl fits whole follows rfl passed fitting
    have invalid : fromUtf8 text = none := by
      by_contra valid
      obtain ⟨value, decoded⟩ := Option.ne_none_iff_exists'.mp valid
      obtain ⟨_, inside, textEq⟩ := recordAt_eq_some.mp found
      have size : byteLength value = len := by
        rw [byteLength, fromUtf8_eq_some.mp decoded, textEq, List.length_take, List.length_drop]
        omega
      rcases whole _ _ len text value ⟨⟨lens, passed⟩, fitting⟩ found decoded with
        impossible | short
      · cases impossible
      · omega
    have padded : paddedRecordSize .release len = .ok 0 := by
      rw [paddedRecordSize_release, (wrappedSize_eq_zero (recordAt_lt found)).mpr zero]
    have turn : RecordLoop.Turn raw state len ⟨state.cursor, state.interner⟩ :=
      ⟨⟨text, here ▸ found, insertText_eq_ok.mpr (Or.inl ⟨invalid, rfl⟩)⟩, 0, padded, rfl⟩
    exact absurd (progresses taken state len _ turns turn) (Nat.lt_irrefl _)
  · intro moves
    have progresses : RecordLoop.Progresses raw ⟨4, interner⟩ := by
      intro lens state len next run turn
      obtain ⟨texts, reached⟩ := RecordLoop.exists_follows rfl fits whole follows run
      obtain ⟨text, found, _⟩ := turn.record
      obtain ⟨size, padded, moved⟩ := turn.moved
      rw [paddedRecordSize_release] at padded
      cases padded
      by_contra still
      exact moves _ _ len text reached.visits found
        ((wrappedSize_eq_zero (recordAt_lt found)).mp (by omega))
    refine ⟨progresses, ?_⟩
    simp only [fromBytes, created]
    split
    · rintro ⟨⟩
    · exact progresses.run_ne_divergence (show raw.length - 4 < raw.length + 1 by omega)

/-- The record of a short string and one whose text is no text are passed. -/
theorem fromBytes_progresses_iff_ab : ∃ interner : StringInterner ⟨.release, fun _ => 0⟩,
    withCapacityAndShards ⟨.release, fun _ => 0⟩ (fun _ => 0) 1 1 = .ok interner ∧
      RecordLoop.Progresses
        (toLE 4 1 ++ (toLE 4 2 ++ [97, 98, 0, 0] ++ (toLE 4 1 ++ [255, 0, 0, 0])))
        ⟨4, interner⟩ := by
  obtain ⟨interner, created, _⟩ := withCapacityAndShards_ok ⟨.release, fun _ => 0⟩ (fun _ => 0) 1 1
  generalize imageEq :
    toLE 4 1 ++ (toLE 4 2 ++ [97, 98, 0, 0] ++ (toLE 4 1 ++ [255, 0, 0, (0 : UInt8)])) = raw
  have oneShard : (MemoryPool.readShardCountHeader raw).getD DEFAULT_SHARD_COUNT = 1 := by
    rw [← imageEq]
    decide
  have short : raw.length = 20 := by
    rw [← imageEq]
    decide
  have inside : ∀ {cursor len text}, recordAt raw cursor = some (len, text) →
      len + 7 < u32Range := by
    intro cursor len text found
    obtain ⟨_, fits, _⟩ := recordAt_eq_some.mp found
    rw [u32Range]
    omega
  have decodes := @fromBytes_progresses_iff (fun _ => 0) (fun _ => 0) 1 raw interner
    (by rw [oneShard]; exact created) (by
      intro cursor texts len text value _ found decoded
      have size := inside found
      obtain ⟨_, _, textEq⟩ := recordAt_eq_some.mp found
      refine Or.inr ?_
      rw [byteLength, fromUtf8_eq_some.mp decoded, textEq, List.length_take]
      omega)
  refine ⟨interner, created, (decodes.mpr fun cursor texts len text _ found zero => ?_).1⟩
  have size := inside found
  omega

/-- One record in one shard, without padding. -/
def oneRecord (body : List UInt8) : List UInt8 := toLE 4 1 ++ (toLE 4 body.length ++ body)

theorem recordAt_oneRecord {body : List UInt8} (fits : body.length < 256 ^ 4) :
    recordAt (oneRecord body) 4 = some (body.length, body) := by
  refine recordAt_eq_some.mpr ⟨?_, ?_, ?_⟩
  · rw [oneRecord, List.drop_left' (length_toLE _ _), List.take_left' (length_toLE _ _),
      ofLE_toLE fits]
  · rw [oneRecord, List.length_append, List.length_append, length_toLE, length_toLE]
    omega
  · rw [oneRecord, ← List.append_assoc, List.drop_left' (by simp),
      List.take_of_length_le (Nat.le_refl _)]

/-- At a record of such a size that is no text the loop never ends. -/
theorem fromBytes_diverges {hashOne : String → UInt64}
    {interner : StringInterner ⟨.release, hashOne⟩}
    {uninitialised : Memory} {internerId : Nat} {body : List UInt8}
    (fits : body.length < 256 ^ 4) (invalid : fromUtf8 body = none)
    (zero : wrappedSize body.length = 0)
    (created : withCapacityAndShards ⟨.release, hashOne⟩ uninitialised internerId 1 =
      .ok interner) :
    ¬ RecordLoop.Progresses (oneRecord body) ⟨4, interner⟩ ∧
      fromBytes ⟨.release, hashOne⟩ uninitialised internerId (oneRecord body) =
        .error .divergence := by
  have skipped : interner.insertText body = .ok interner :=
    insertText_eq_ok.mpr (Or.inl ⟨invalid, rfl⟩)
  have turn : RecordLoop.Turn (oneRecord body) ⟨4, interner⟩ body.length ⟨4, interner⟩ :=
    ⟨⟨body, recordAt_oneRecord fits, skipped⟩, 0, by rw [paddedRecordSize_release, zero], rfl⟩
  have size : (oneRecord body).length = 8 + body.length := by
    rw [oneRecord, List.length_append, List.length_append, length_toLE, length_toLE]
    omega
  constructor
  · intro progresses
    exact absurd (progresses [] _ _ _ .refl turn) (Nat.lt_irrefl 4)
  · have header : MemoryPool.readShardCountHeader (oneRecord body) = some 1 := by
      rw [MemoryPool.readShardCountHeader, if_neg (by omega), oneRecord,
        List.take_left' (length_toLE _ _), ofLE_toLE (by decide)]
    simp only [fromBytes, header, Option.getD_some, created]
    rw [if_neg (by omega)]
    exact RecordLoop.run_eq_divergence turn _

/-- 2^32 - 7 bytes that are no text. -/
def stallingText : List UInt8 := 255 :: List.replicate (2 ^ 32 - 8) 255

/-- Their record is never left. -/
theorem fromBytes_stallingText : ∃ interner : StringInterner ⟨.release, fun _ => 0⟩,
    withCapacityAndShards ⟨.release, fun _ => 0⟩ (fun _ => 0) 1 1 = .ok interner ∧
      ¬ RecordLoop.Progresses (oneRecord stallingText) ⟨4, interner⟩ ∧
      fromBytes ⟨.release, fun _ => 0⟩ (fun _ => 0) 1 (oneRecord stallingText) =
        .error .divergence := by
  obtain ⟨interner, created, _⟩ := withCapacityAndShards_ok ⟨.release, fun _ => 0⟩ (fun _ => 0) 1 1
  have size : stallingText.length = 2 ^ 32 - 8 + 1 := by
    rw [stallingText, List.length_cons, List.length_replicate]
  refine ⟨interner, created, fromBytes_diverges ?_ ?_ ?_ created⟩
  · rw [size]
    decide
  · exact fromUtf8_cons_eq_none (by decide) _
  · rw [size]
    decide

end StringInterner

end Boomerang
