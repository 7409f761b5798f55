import Boomerang.Foundation.Fallible
import Boomerang.Interner.CacheTransparency
import Boomerang.Interner.CallRuns

/-!
# What a written slot describes

A call that the cache does not answer writes a slot with the place of the text in the
arena, past the length header of its record. The probe skips a header once more. What
it compares with a string is the text from the fifth byte on and the four bytes behind
the text, which lie outside of the record.
-/

namespace Boomerang

open Foundation

namespace ThreadLocalCache

variable {build : Build}

/-- The index that `fill` writes. -/
def fillTarget (build : Build) (cache : ThreadLocalCache) (value : String) : Nat :=
  ((line (hashOf build value)).find? fun idx => (cache idx).internerId = 0).getD
    (cacheIndex (hashOf build value))

/-- What `fill` writes there. -/
def filledSlot (interner : StringInterner build) (value : String) (symbol : Symbol)
    (offset : Nat) : Slot :=
  ⟨interner.internerId, (hashOf build value).toUInt32, byteLength value % u32Range, offset,
    symbol.raw, prefix8 (bytes value)⟩

theorem fill_eq (cache : ThreadLocalCache) (interner : StringInterner build) (value : String)
    (symbol : Symbol) (offset : Nat) :
    cache.fill interner value symbol offset =
      Function.update cache (cache.fillTarget build value)
        (filledSlot interner value symbol offset) := by
  funext idx
  rw [Function.update_apply]
  rfl

end ThreadLocalCache

namespace LockFreeStringArray

variable {memory : Memory}

/-- A text that is not empty has its bytes behind the length header. -/
theorem read_of_textAt {place : Nat} {value : String} (there : textAt memory place = value)
    (nonempty : value ≠ "") : memory.read (place + 4) (byteLength value) = bytes value := by
  unfold textAt fromUtf8Unchecked at there
  dsimp only at there
  cases valid : fromUtf8 (memory.read (place + 4) (ofLE (memory.read place 4))) with
  | none =>
      rw [valid] at there
      exact absurd there.symm nonempty
  | some text =>
      rw [valid] at there
      have textEq : text = value := there
      subst textEq
      have same := fromUtf8_eq_some.mp valid
      have length : byteLength text = ofLE (memory.read place 4) := by
        rw [byteLength, same, Memory.length_read]
      rw [length, same]

/-- The checked lookup reads the text at the stored offset. -/
theorem textAt_of_get {array : LockFreeStringArray} {index : Nat} {value : String}
    (found : array.get memory index = .ok (some value)) :
    textAt memory (array.offsetAt index) = value := by
  unfold LockFreeStringArray.get loadChunk at found
  unfold offsetAt
  split at found
  · cases found
  split at found
  · cases found
  · cases found
  · rename_i chunk loaded
    split at loaded
    · have here := Except.ok.inj loaded
      have read := Except.ok.inj found
      unfold getFromChunk at read
      dsimp only at read
      split at read
      · cases read
      · rw [here]
        exact Option.some.inj read
    · cases loaded

end LockFreeStringArray

/-- A string whose length fits its header has its text behind the header. -/
theorem MemoryPool.read_of_alloc {profile : Profile} {pool after : MemoryPool}
    {shardId place : Nat} {value : String} (small : byteLength value < u32Range)
    (success : pool.alloc profile shardId value = .ok place after) :
    after.memory.read (place + 4) (byteLength value) = bytes value := by
  unfold alloc at success
  dsimp only at success
  rw [Nat.mod_eq_of_lt small, take_byteLength] at success
  repeat' split at success
  all_goals cases success
  exact Memory.read_write_same _ _ _

namespace StringInterner

variable {build : Build} {interner next : StringInterner build}
variable {value : String} {symbol : Symbol} {offset : Nat}

/-- The text of a string is at the offset that its shard keeps for the symbol, unless
the length of the string does not fit the header. -/
structure TextAt (interner : StringInterner build) (value : String) (symbol : Symbol)
    (offset : Nat) : Prop where
  place : offset = interner.textOffset (interner.shardOf value) symbol
  text : byteLength value < u32Range →
    interner.pool.memory.read offset (byteLength value) = bytes value

/-- The read-locked section returns the place of the text. -/
theorem textAt_of_readSection (nonempty : value ≠ "")
    (found : interner.readSection value = .ok (some (symbol, offset))) :
    TextAt interner value symbol offset := by
  unfold readSection at found
  dsimp only at found
  cases entry : interner.findUnchecked value with
  | none =>
      rw [entry] at found
      cases found
  | some stored =>
      obtain ⟨row, listed, rfl⟩ := Option.map_eq_some_iff.mp entry
      have agrees := List.find?_some listed
      obtain ⟨_, _, same⟩ := of_decide_eq_true agrees
      rw [entry] at found
      dsimp only at found
      split at found
      · cases found
      · cases found
      · cases found
        exact ⟨rfl, fun _ => LockFreeStringArray.read_of_textAt same nonempty⟩

/-- The checked lookup finds a symbol of the text. -/
theorem textAt_of_findChecked (nonempty : value ≠ "")
    (found : interner.findChecked value = some symbol) :
    TextAt interner value symbol (interner.textOffset (interner.shardOf value) symbol) := by
  obtain ⟨row, listed, rfl⟩ := Option.map_eq_some_iff.mp found
  have agrees := List.find?_some listed
  obtain ⟨_, _, same⟩ := of_decide_eq_true agrees
  refine ⟨rfl, fun _ => LockFreeStringArray.read_of_textAt ?_ nonempty⟩
  refine LockFreeStringArray.textAt_of_get ?_
  cases got : (interner.shards (interner.shardOf value)).strings.get interner.pool.memory
      row.symbol.issuedIndex with
  | error fault =>
      rw [got] at same
      cases same
  | ok text =>
      rw [got] at same
      rw [Option.some.inj same]

/-- A fresh allocation returns the place of the text it stored. -/
theorem textAt_of_insertVacant
    (success : interner.insertVacant value = .ok (symbol, offset) next) :
    TextAt next value symbol offset := by
  obtain ⟨place, pool, index, strings, allocated, pushed, made, rfl, rfl⟩ :=
    insertVacant_eq_ok.mp success
  obtain ⟨rfl, _, _, _, offsets⟩ := LockFreeStringArray.push_ok pushed
  refine ⟨?_, fun small => MemoryPool.read_of_alloc small allocated⟩
  have stored : strings.offsetAt symbol.issuedIndex = place := by
    rw [Symbol.issuedIndex_of_new made, offsets, if_pos rfl]
  simp [textOffset, setShard, shardOf, stored]

/-- On every path of `get_or_intern` the offset is that of the text. -/
theorem textAt_of_internShared (nonempty : value ≠ "")
    (success : interner.internShared value = .ok (symbol, offset) next) :
    TextAt next value symbol offset := by
  unfold internShared at success
  split at success
  · cases success
  · rename_i found read
    cases success
    exact textAt_of_readSection nonempty read
  · unfold writeSection at success
    split at success
    · rename_i stored found
      cases success
      exact textAt_of_findChecked nonempty found
    · exact textAt_of_insertVacant success

/-- The same of `get`. -/
theorem textAt_of_getShared (nonempty : value ≠ "")
    (found : interner.getShared value = some (symbol, offset)) :
    TextAt interner value symbol offset := by
  unfold getShared at found
  dsimp only at found
  split at found
  · cases found
  · rename_i stored checked
    split at found
    · cases found
      exact textAt_of_findChecked nonempty checked
    · cases found

end StringInterner

/-- The interner and the string that a call looks up through the cache. -/
def Call.lookedUp : Call → Option (Nat × String)
  | .getOrIntern handle value | .get handle value => some (handle, value)
  | .create _ _ | .elsewhere _ _ => none

/-- A slot that a call wrote. -/
structure WrittenSlot where
  handle : Nat
  value : String
  symbol : Symbol
  idx : Nat

namespace Session

open StringInterner ThreadLocalCache

variable {build : Build} {session : Session build} {call : Call}

/-- The slot that a call writes. It writes none when it looks nothing up, when the string
is static or in the cache, and when the string has no symbol in the end. -/
def written (session : Session build) (call : Call) : Option WrittenSlot := do
  let (handle, value) ← call.lookedUp
  let interner ← session.interners[handle]?
  let symbol ← (session.act true call).1.toOption.join
  if staticSymbol? value = none ∧
      (session.cache.probe interner value).toOption = some none then
    some ⟨handle, value, symbol, session.cache.fillTarget build value⟩
  else none

/-- A slot is written by a lookup that the cache does not answer and that returns a symbol. -/
theorem written_eq_some {written : WrittenSlot} :
    session.written call = some written ↔
      call.lookedUp = some (written.handle, written.value) ∧
        (∃ interner, session.At written.handle interner ∧
          session.cache.probe interner written.value = .ok none) ∧
        staticSymbol? written.value = none ∧
        (session.act true call).1 = .ok (some written.symbol) ∧
        session.cache.fillTarget build written.value = written.idx := by
  unfold Session.written
  simp only [Option.bind_eq_bind, Option.bind_eq_some_iff, Prod.exists]
  constructor
  · rintro ⟨handle, value, looked, interner, here, symbol, replied, writes⟩
    split at writes
    · rename_i missed
      cases writes
      exact ⟨looked, ⟨interner, here, toOption_eq_some.mp missed.2⟩, missed.1,
        toOption_eq_some.mp (Option.join_eq_some_iff.mp replied), rfl⟩
    · cases writes
  · rintro ⟨looked, ⟨interner, here, missed⟩, notStatic, replied, target⟩
    refine ⟨written.handle, written.value, looked, interner, here, written.symbol,
      Option.join_eq_some_iff.mpr (toOption_eq_some.mpr replied), ?_⟩
    rw [if_pos ⟨notStatic, toOption_eq_some.mpr missed⟩, target]

section Missed

variable {handle : Nat} {value : String} {interner : StringInterner build}
variable (here : session.At handle interner) (notStatic : staticSymbol? value = none)
variable (missed : session.cache.probe interner value = .ok none)
include here notStatic missed

/-- What `get_or_intern` does past the cache. -/
theorem act_getOrIntern_of_missed :
    session.act true (.getOrIntern handle value) =
      match interner.internShared value with
      | .error fault next =>
          (.error fault, { session with interners := session.interners.set handle next })
      | .ok (symbol, offset) next => (.ok (some symbol), ⟨session.interners.set handle next,
          session.nextId, session.cache.fill next value symbol offset⟩) := by
  simp only [act, show session.interners[handle]? = some interner from here, getOrInternCached,
    notStatic, missed, if_true]
  cases interner.internShared value <;> rfl

/-- What `get` does past the cache. -/
theorem act_get_of_missed :
    session.act true (.get handle value) =
      match interner.getShared value with
      | none => (.ok none, session)
      | some (symbol, offset) => (.ok (some symbol),
          { session with cache := session.cache.fill interner value symbol offset }) := by
  simp only [act, show session.interners[handle]? = some interner from here, getCached, notStatic,
    missed, if_true]
  cases interner.getShared value <;> rfl

end Missed

/-- The interner that a call leaves has the text of the slot it writes. -/
theorem exists_of_written {written : WrittenSlot} (writes : session.written call = some written) :
    ∃ interner next offset, session.At written.handle interner ∧
      staticSymbol? written.value = none ∧
      written.idx = session.cache.fillTarget build written.value ∧
      (interner.internShared written.value = .ok (written.symbol, offset) next ∨
        next = interner ∧ interner.getShared written.value = some (written.symbol, offset)) ∧
      (session.act true call).2 = ⟨session.interners.set written.handle next, session.nextId,
        session.cache.fill next written.value written.symbol offset⟩ := by
  obtain ⟨handle, value, symbol, idx⟩ := written
  obtain ⟨looked, ⟨interner, here, missed⟩, notStatic, replied, target⟩ :=
    written_eq_some.mp writes
  dsimp only at looked here missed notStatic replied target ⊢
  refine ⟨interner, ?_⟩
  cases call with
  | create | elsewhere => cases looked
  | getOrIntern =>
      cases looked
      rw [act_getOrIntern_of_missed here notStatic missed] at replied ⊢
      cases shared : interner.internShared value with
      | error fault next =>
          rw [shared] at replied
          cases replied
      | ok found next =>
          rw [shared] at replied
          cases replied
          exact ⟨next, found.2, here, notStatic, target.symm, Or.inl rfl, rfl⟩
  | get =>
      cases looked
      rw [act_get_of_missed here notStatic missed] at replied ⊢
      cases shared : interner.getShared value with
      | none =>
          rw [shared] at replied
          cases replied
      | some found =>
          have same : session.interners.set handle interner = session.interners := by
            obtain ⟨bound, rfl⟩ := List.getElem?_eq_some_iff.mp here
            exact List.set_getElem_self bound
          rw [shared] at replied
          cases replied
          refine ⟨interner, found.2, here, notStatic, target.symm, Or.inr ⟨rfl, rfl⟩, ?_⟩
          rw [same]

/-- The interner whose string a slot was written for is live. -/
theorem exists_at_of_written {written : WrittenSlot}
    (writes : session.written call = some written) :
    ∃ interner, (session.act true call).2.At written.handle interner := by
  obtain ⟨_, next, _, old, _, _, _, acted⟩ := exists_of_written writes
  refine ⟨next, ?_⟩
  rw [acted]
  exact List.getElem?_set_self (List.getElem?_eq_some_iff.mp old).1

/-- A call of `get_or_intern` that the cache does not answer writes a slot when it returns. -/
theorem written_of_getOrIntern {handle : Nat} {value : String} {symbol : Symbol}
    {interner next : StringInterner build} (here : session.At handle interner)
    (notStatic : staticSymbol? value = none)
    (missed : session.cache.probe interner value = .ok none)
    (success : interner.getOrIntern value = .ok symbol next) :
    session.written (.getOrIntern handle value) =
        some ⟨handle, value, symbol, session.cache.fillTarget build value⟩ ∧
      (session.act true (.getOrIntern handle value)).2.At handle next := by
  have acted := @act_getOrIntern _ _ _ value _ here true
  rw [getOrInternCached_of_missed missed, getOrInternCached_false, success] at acted
  obtain ⟨replied, left, _⟩ := acted
  refine ⟨written_eq_some.mpr ⟨rfl, ⟨interner, here, missed⟩, notStatic, replied, rfl⟩, ?_⟩
  · rw [At, left]
    exact List.getElem?_set_self (List.getElem?_eq_some_iff.mp here).1

/-- A call that writes no slot leaves the cache alone. -/
theorem cache_of_not_written (writes : session.written call = none) :
    (session.act true call).2.cache = session.cache := by
  cases call with
  | create uninitialised count =>
      simp only [act]
      split <;> rfl
  | elsewhere handle value =>
      simp only [act]
      split
      · rfl
      · split <;> rfl
  | getOrIntern handle value =>
      cases here : session.interners[handle]? with
      | none => simp only [act, here]
      | some interner =>
      cases isStatic : staticSymbol? value with
      | some symbol => simp only [act, here, getOrInternCached, isStatic]
      | none =>
      cases probed : session.cache.probe interner value with
      | error fault => simp only [act, here, getOrInternCached, isStatic, probed, if_true]
      | ok answer =>
      cases answer with
      | some symbol => simp only [act, here, getOrInternCached, isStatic, probed, if_true]
      | none =>
      have acted := act_getOrIntern_of_missed here isStatic probed
      cases shared : interner.internShared value with
      | error fault next =>
          rw [shared] at acted
          rw [acted]
      | ok found next =>
          rw [shared] at acted
          have written : session.written (.getOrIntern handle value) =
              some ⟨handle, value, found.1, session.cache.fillTarget build value⟩ :=
            written_eq_some.mpr ⟨rfl, ⟨interner, here, probed⟩, isStatic, by rw [acted], rfl⟩
          cases written.symm.trans writes
  | get handle value =>
      cases here : session.interners[handle]? with
      | none => simp only [act, here]
      | some interner =>
      cases isStatic : staticSymbol? value with
      | some symbol => simp only [act, here, getCached, isStatic]
      | none =>
      cases probed : session.cache.probe interner value with
      | error fault => simp only [act, here, getCached, isStatic, probed, if_true]
      | ok answer =>
      cases answer with
      | some symbol => simp only [act, here, getCached, isStatic, probed, if_true]
      | none =>
      have acted := act_get_of_missed here isStatic probed
      cases shared : interner.getShared value with
      | none =>
          rw [shared] at acted
          rw [acted]
      | some found =>
          rw [shared] at acted
          have written : session.written (.get handle value) =
              some ⟨handle, value, found.1, session.cache.fillTarget build value⟩ :=
            written_eq_some.mpr ⟨rfl, ⟨interner, here, probed⟩, isStatic, by rw [acted], rfl⟩
          cases written.symm.trans writes

/-- Where the record of the string starts. -/
def recordStart (interner : StringInterner build) (written : WrittenSlot) : Nat :=
  (interner.shards (interner.shardOf written.value)).strings.offsetAt
    written.symbol.issuedIndex

/-- The bytes that a probe compares with the string. -/
def comparedBytes (cache : ThreadLocalCache) (interner : StringInterner build)
    (written : WrittenSlot) : List UInt8 :=
  interner.pool.memory.read ((cache written.idx).offset + 4) (byteLength written.value)

/-- A written slot describes its string: the probe compares the text, inside of its
record, and finds the symbol. -/
structure Describes (cache : ThreadLocalCache) (interner : StringInterner build)
    (written : WrittenSlot) : Prop where
  text : comparedBytes cache interner written = bytes written.value
  start : recordStart interner written ≤ (cache written.idx).offset + 4
  inside : (cache written.idx).offset + 4 + byteLength written.value ≤
    recordStart interner written + paddedSize (byteLength written.value)
  hit : cache.probe interner written.value = .ok (some written.symbol)

/-- The text from the fifth byte on, with the four bytes behind it, is the text again. -/
def Repeats (interner : StringInterner build) (written : WrittenSlot) : Prop :=
  (bytes written.value).drop 4 ++
      interner.pool.memory.read (recordStart interner written + 4 + byteLength written.value) 4 =
    bytes written.value

instance (interner : StringInterner build) (written : WrittenSlot) :
    Decidable (Repeats interner written) :=
  inferInstanceAs (Decidable (_ = _))

section Slots

variable {written : WrittenSlot} {interner : StringInterner build}

/-- The written slot has the place behind the length header. -/
theorem slot_of_written (writes : session.written call = some written)
    (here : (session.act true call).2.At written.handle interner) :
    (session.act true call).2.cache written.idx =
        filledSlot interner written.value written.symbol (recordStart interner written + 4) ∧
      (byteLength written.value < u32Range →
        interner.pool.memory.read (recordStart interner written + 4)
          (byteLength written.value) = bytes written.value) := by
  obtain ⟨before, next, offset, old, notStatic, idx, found, acted⟩ := exists_of_written writes
  have nonempty : written.value ≠ "" := by
    intro empty
    rw [empty] at notStatic
    exact absurd notStatic (by decide)
  have placed : TextAt next written.value written.symbol offset := by
    rcases found with shared | ⟨rfl, shared⟩
    · exact textAt_of_internShared nonempty shared
    · exact textAt_of_getShared nonempty shared
  rw [acted] at here ⊢
  have same : next = interner := by
    rw [At, List.getElem?_set_self (List.getElem?_eq_some_iff.mp old).1] at here
    exact Option.some.inj here
  subst same
  have place : offset = recordStart next written + 4 := placed.place
  rw [← place]
  refine ⟨?_, placed.text⟩
  rw [fill_eq, idx]
  exact Function.update_self _ _ _

/-- What the probe compares is the text from the fifth byte on and the four bytes behind
the text. -/
theorem comparedBytes_of_written (writes : session.written call = some written)
    (here : (session.act true call).2.At written.handle interner)
    (long : 8 < byteLength written.value) (small : byteLength written.value < u32Range) :
    comparedBytes (session.act true call).2.cache interner written =
      (bytes written.value).drop 4 ++ interner.pool.memory.read
        (recordStart interner written + 4 + byteLength written.value) 4 := by
  obtain ⟨slot, text⟩ := slot_of_written writes here
  rw [comparedBytes, slot, ← text small]
  exact Memory.read_shifted _ _ (by omega)

/-- What the probe compares does not end inside of the record. -/
theorem outside_of_written (writes : session.written call = some written)
    (here : (session.act true call).2.At written.handle interner) :
    recordStart interner written + paddedSize (byteLength written.value) <
      ((session.act true call).2.cache written.idx).offset + 4 + byteLength written.value := by
  have size := paddedSize_lt (byteLength written.value)
  rw [(slot_of_written writes here).1, filledSlot]
  dsimp only
  omega

/-- The probe of the string finds its symbol in the written slot when what it compares is
the text. -/
theorem probe_of_written (writes : session.written call = some written)
    (here : (session.act true call).2.At written.handle interner)
    (long : 8 < byteLength written.value)
    (first : (session.act true call).2.cache.candidate interner written.value =
      some ((session.act true call).2.cache written.idx)) :
    (session.act true call).2.cache.probe interner written.value = .ok (some written.symbol) ↔
      comparedBytes (session.act true call).2.cache interner written = bytes written.value := by
  have symbol : ((session.act true call).2.cache written.idx).symbol = written.symbol.raw := by
    rw [(slot_of_written writes here).1]
    rfl
  simp only [probe, first, symbol, Symbol.fromRaw_raw, Nat.not_le_of_lt long, false_or,
    comparedBytes]
  split
  · rename_i same
    exact iff_of_true rfl same
  · rename_i different
    exact iff_of_false (fun missed => by cases missed) different

/-- Whatever the state of the session, a slot written for a string of more than eight
bytes does not describe it. What is compared is the text, and a repeated lookup hits,
exactly when the text repeats itself. -/
theorem not_describes_of_written (writes : session.written call = some written)
    (here : (session.act true call).2.At written.handle interner)
    (long : 8 < byteLength written.value) :
    ¬ Describes (session.act true call).2.cache interner written ∧
      (byteLength written.value < u32Range →
        (comparedBytes (session.act true call).2.cache interner written =
            bytes written.value ↔ Repeats interner written) ∧
        ((session.act true call).2.cache.candidate interner written.value =
            some ((session.act true call).2.cache written.idx) →
          ((session.act true call).2.cache.probe interner written.value =
              .ok (some written.symbol) ↔ Repeats interner written))) := by
  refine ⟨?_, ?_⟩
  · intro describes
    exact Nat.not_lt_of_le describes.inside (outside_of_written writes here)
  · intro small
    have compared : comparedBytes (session.act true call).2.cache interner written =
        bytes written.value ↔ Repeats interner written := by
      rw [comparedBytes_of_written writes here long small]
      rfl
    exact ⟨compared, fun first => (probe_of_written writes here long first).trans compared⟩

end Slots

/-- A thread with one interner of one shard. -/
def oneShard : Session ⟨.debug, fun _ => 0⟩ := (start.act true (.create (fun _ => 0) 1)).2

/-- The thread interns nine letters. -/
def afterCustomers : Session ⟨.debug, fun _ => 0⟩ :=
  (oneShard.act true (.getOrIntern 0 "customers")).2

/-- The nine letters get a slot, which the next probe of the letters reaches. -/
theorem exists_written_customers : ∃ written interner,
    oneShard.written (.getOrIntern 0 "customers") = some written ∧
      afterCustomers.At written.handle interner ∧ written.value = "customers" ∧
      afterCustomers.cache.candidate interner written.value =
        some (afterCustomers.cache written.idx) := by
  have computed : ((oneShard.written (.getOrIntern 0 "customers")).bind fun written =>
      (afterCustomers.interners[written.handle]?).map fun interner =>
        (written.value, decide (afterCustomers.cache.candidate interner written.value =
          some (afterCustomers.cache written.idx)))) = some ("customers", true) := by decide
  obtain ⟨written, writes, computed⟩ := Option.bind_eq_some_iff.mp computed
  obtain ⟨interner, here, computed⟩ := Option.map_eq_some_iff.mp computed
  obtain ⟨value, reached⟩ := Prod.mk.inj computed
  exact ⟨written, interner, writes, here, value, of_decide_eq_true reached⟩

theorem not_describes_of_written_customers : ∃ written interner,
    oneShard.written (.getOrIntern 0 "customers") = some written ∧
      afterCustomers.At written.handle interner ∧
      ¬ Describes afterCustomers.cache interner written ∧
      (comparedBytes afterCustomers.cache interner written = bytes "customers" ↔
        Repeats interner written) ∧
      (afterCustomers.cache.probe interner "customers" = .ok (some written.symbol) ↔
        Repeats interner written) := by
  obtain ⟨written, interner, writes, here, value, reached⟩ := exists_written_customers
  have long : 8 < byteLength written.value := by
    rw [value]
    decide
  have small : byteLength written.value < u32Range := by
    rw [value]
    decide
  obtain ⟨never, repeated⟩ := not_describes_of_written writes here long
  obtain ⟨compared, hit⟩ := repeated small
  refine ⟨written, interner, writes, here, never, value ▸ compared, ?_⟩
  exact value ▸ hit reached

/-- What the probe compares with the nine letters is the last five and four bytes of no
record, so the letters are looked up in the shard again. -/
theorem not_describes_customers : ∃ written interner,
    oneShard.written (.getOrIntern 0 "customers") = some written ∧
      afterCustomers.At written.handle interner ∧ 8 < byteLength written.value ∧
      comparedBytes afterCustomers.cache interner written = bytes "omers" ++ [0, 0, 0, 0] ∧
      afterCustomers.cache.probe interner written.value = .ok none ∧
      ¬ Describes afterCustomers.cache interner written := by
  have computed : ((oneShard.written (.getOrIntern 0 "customers")).bind fun written =>
      (afterCustomers.interners[written.handle]?).map fun interner =>
        (written.value, comparedBytes afterCustomers.cache interner written,
          (afterCustomers.cache.probe interner written.value).toOption)) =
      some ("customers", bytes "omers" ++ [0, 0, 0, 0], some none) := by decide
  obtain ⟨written, writes, computed⟩ := Option.bind_eq_some_iff.mp computed
  obtain ⟨interner, here, computed⟩ := Option.map_eq_some_iff.mp computed
  obtain ⟨value, computed⟩ := Prod.mk.inj computed
  obtain ⟨compared, missed⟩ := Prod.mk.inj computed
  refine ⟨written, interner, writes, here, ?_, compared, toOption_eq_some.mp missed, ?_⟩
  · rw [value]
    decide
  · intro describes
    have text := compared.symm.trans describes.text
    rw [value] at text
    exact absurd text (by decide)

end Session

end Boomerang
