import Boomerang.Foundation.Transition
import Boomerang.Interner.CacheSlots

/-!
# The owners of cache slots

For a string of at most eight bytes the probe compares no text: a slot of the interner
with the length and the prefix of the string is taken for its slot. Here the session is
watched by a proof-only record of the string each slot was written for. A slot taken
for that of a short string belongs to it as long as no slot is written for a string whose
length, cut to 32 bits, and prefix are those of another one.
-/

namespace Boomerang

open Foundation StringInterner ThreadLocalCache

/-- A session, and the string that each slot of its cache was written for. -/
structure Watched (build : Build) where
  session : Session build
  owner : Nat → Option String

namespace Watched

variable {build : Build}

/-- A new thread. -/
def start : Watched build := ⟨Session.start, fun _ => none⟩

/-- One call, whether or not it panics. -/
def act (state : Watched build) (call : Call) : Watched build where
  session := (state.session.act true call).2
  owner :=
    match state.session.written call with
    | none => state.owner
    | some written => Function.update state.owner written.idx (some written.value)

/-- Calls in any order. -/
def Step (state : Watched build) (call : Call) (next : Watched build) : Prop :=
  next = state.act call

/-- The call writes a slot for a string that has the property. -/
def WritesFor (property : String → Prop) (state : Watched build) (call : Call) : Prop :=
  ∃ written, state.session.written call = some written ∧ property written.value

/-- A slot with the length and the prefix of a string of at most eight bytes belongs to
that string, and so does every answer of the cache for it. -/
structure ShortSlotsOwned (state : Watched build) : Prop where
  slot : ∀ {handle interner value idx}, state.session.At handle interner →
    staticSymbol? value = none → byteLength value ≤ 8 →
    (state.session.cache idx).internerId = interner.internerId →
    (state.session.cache idx).len = byteLength value →
    (state.session.cache idx).prefix8 = prefix8 (bytes value) →
    state.owner idx = some value
  answer : ∀ {handle interner value symbol}, state.session.At handle interner →
    staticSymbol? value = none → byteLength value ≤ 8 →
    state.session.cache.probe interner value = .ok (some symbol) →
    ∃ idx, state.owner idx = some value ∧ (state.session.cache idx).symbol = symbol.raw

end Watched

/-- The string has the length, cut to 32 bits, and the prefix of another string of at
most eight bytes. -/
def Mimics (value : String) : Prop :=
  ∃ short, staticSymbol? short = none ∧ byteLength short ≤ 8 ∧
    byteLength short = byteLength value % u32Range ∧
    prefix8 (bytes short) = prefix8 (bytes value) ∧ short ≠ value

/-- Only strings whose length does not fit 32 bits mimic others. -/
theorem le_byteLength_of_mimics {value : String} (mimics : Mimics value) :
    u32Range ≤ byteLength value := by
  obtain ⟨short, notStatic, eight, length, same, different⟩ := mimics
  by_contra fits
  rw [Nat.mod_eq_of_lt (Nat.lt_of_not_le fits)] at length
  exact different (bytes_injective
    (prefix8_injective length (two_le_of_not_static notStatic) eight same))

namespace Watched

variable {build : Build} {state : Watched build} {call : Call}

/-- A slot has the length and the prefix of the string it was written for. A slot that was
never written has no length. -/
structure Recorded (state : Watched build) : Prop where
  unwritten : ∀ {idx}, state.owner idx = none → (state.session.cache idx).len = 0
  written : ∀ {idx value}, state.owner idx = some value →
    (state.session.cache idx).len = byteLength value % u32Range ∧
      (state.session.cache idx).prefix8 = prefix8 (bytes value)

theorem recorded_start : Recorded (start : Watched build) where
  unwritten := fun _ => rfl
  written := fun owned => by cases owned

/-- A call writes a slot with the length and the prefix of its string. -/
theorem Recorded.act (recorded : Recorded state) (call : Call) : Recorded (state.act call) := by
  cases writes : state.session.written call with
  | none =>
      have cache := Session.cache_of_not_written writes
      constructor
      case unwritten =>
        intro idx unowned
        simp only [Watched.act, writes, cache] at unowned ⊢
        exact recorded.unwritten unowned
      case written =>
        intro idx value owned
        simp only [Watched.act, writes, cache] at owned ⊢
        exact recorded.written owned
  | some written =>
      obtain ⟨_, next, offset, _, _, target, _, acted⟩ := Session.exists_of_written writes
      have cache : (state.act call).session.cache = Function.update state.session.cache
          written.idx (filledSlot next written.value written.symbol offset) := by
        rw [target, ← fill_eq]
        exact congrArg Session.cache acted
      have owner : (state.act call).owner =
          Function.update state.owner written.idx (some written.value) := by
        simp only [Watched.act, writes]
      constructor
      case unwritten =>
        intro idx unowned
        rw [owner] at unowned
        rw [cache]
        by_cases same : idx = written.idx
        · rw [same, Function.update_self] at unowned
          cases unowned
        · rw [Function.update_of_ne same] at unowned ⊢
          exact recorded.unwritten unowned
      case written =>
        intro idx value owned
        rw [owner] at owned
        rw [cache]
        by_cases same : idx = written.idx
        · subst same
          rw [Function.update_self] at owned ⊢
          cases owned
          exact ⟨rfl, rfl⟩
        · rw [Function.update_of_ne same] at owned ⊢
          exact recorded.written owned

/-- No slot was written for a string that mimics another. -/
structure Genuine (state : Watched build) : Prop where
  recorded : Recorded state
  owners : ∀ {idx value}, state.owner idx = some value → ¬ Mimics value

theorem genuine_start : Genuine (start : Watched build) where
  recorded := recorded_start
  owners := fun owned => by cases owned

theorem Genuine.act (genuine : Genuine state) (honest : ¬ state.WritesFor Mimics call) :
    Genuine (state.act call) where
  recorded := genuine.recorded.act call
  owners := by
    intro idx value owned
    cases writes : state.session.written call with
    | none =>
        simp only [Watched.act, writes] at owned
        exact genuine.owners owned
    | some written =>
        simp only [Watched.act, writes] at owned
        by_cases same : idx = written.idx
        · rw [same, Function.update_self] at owned
          cases owned
          exact fun mimics => honest ⟨written, writes, mimics⟩
        · rw [Function.update_of_ne same] at owned
          exact genuine.owners owned

/-- The length and the prefix of a short string are found in its own slots only. -/
theorem Genuine.owner_eq (genuine : Genuine state) {idx : Nat} {value : String}
    (notStatic : staticSymbol? value = none) (eight : byteLength value ≤ 8)
    (length : (state.session.cache idx).len = byteLength value)
    (same : (state.session.cache idx).prefix8 = prefix8 (bytes value)) :
    state.owner idx = some value := by
  cases owned : state.owner idx with
  | none =>
      have two := two_le_of_not_static notStatic
      have unwritten := genuine.recorded.unwritten owned
      omega
  | some other =>
      obtain ⟨otherLength, otherPrefix⟩ := genuine.recorded.written owned
      by_contra different
      refine genuine.owners owned ⟨value, notStatic, eight, length.symm.trans otherLength,
        same.symm.trans otherPrefix, ?_⟩
      rintro rfl
      exact different rfl

/-- The cache answers for a short string from a slot with its length and its prefix. -/
theorem exists_of_probe {cache : ThreadLocalCache} {interner : StringInterner build}
    {value : String} {symbol : Symbol} (eight : byteLength value ≤ 8)
    (answered : cache.probe interner value = .ok (some symbol)) :
    ∃ idx, (cache idx).len = byteLength value ∧ (cache idx).prefix8 = prefix8 (bytes value) ∧
      (cache idx).symbol = symbol.raw := by
  unfold probe at answered
  split at answered
  · cases answered
  rename_i slot found
  rw [if_pos (Or.inl eight)] at answered
  have agrees := List.find?_some found
  obtain ⟨idx, _, rfl⟩ := List.mem_map.mp (List.mem_of_find?_eq_some found)
  obtain ⟨_, _, length, same⟩ := of_decide_eq_true agrees
  have small : u32Range = 2 ^ 32 := rfl
  rw [Nat.mod_eq_of_lt (by omega)] at length
  refine ⟨idx, length, same, ?_⟩
  split at answered
  · cases answered
  · rename_i raw
    cases answered
    exact (Symbol.fromRaw_eq_some.mp raw).symm

theorem Genuine.shortSlotsOwned (genuine : Genuine state) : ShortSlotsOwned state where
  slot := fun _ notStatic eight _ length same => genuine.owner_eq notStatic eight length same
  answer := by
    intro handle interner value symbol _ notStatic eight answered
    obtain ⟨idx, length, same, raw⟩ := exists_of_probe eight answered
    exact ⟨idx, genuine.owner_eq notStatic eight length same, raw⟩

/-- A written slot belongs to the string it was written for. -/
theorem slot_of_written {written : WrittenSlot} {interner : StringInterner build}
    (writes : state.session.written call = some written)
    (here : (state.act call).session.At written.handle interner) :
    (state.act call).owner written.idx = some written.value ∧
      (state.act call).session.cache written.idx = filledSlot interner written.value
        written.symbol (Session.recordStart interner written + 4) := by
  refine ⟨?_, (Session.slot_of_written writes here).1⟩
  simp only [Watched.act, writes, Function.update_self]

/-- The slot of a string that mimics a short one is taken for a slot of the short one. -/
theorem not_shortSlotsOwned_of_mimics (writes : state.WritesFor Mimics call) :
    ¬ ShortSlotsOwned (state.act call) := by
  obtain ⟨written, writes, short, notStatic, eight, length, same, different⟩ := writes
  obtain ⟨interner, here⟩ := Session.exists_at_of_written writes
  obtain ⟨owner, slot⟩ := slot_of_written writes here
  have slotLength : ((state.act call).session.cache written.idx).len = byteLength short := by
    rw [slot, length]
    rfl
  have slotPrefix : ((state.act call).session.cache written.idx).prefix8 =
      prefix8 (bytes short) := by
    rw [slot, same]
    rfl
  intro owned
  have mistaken := owned.slot here notStatic eight (slot ▸ rfl) slotLength slotPrefix
  rw [owner] at mistaken
  exact different (Option.some.inj mistaken).symm

/-- No slot is written for a mimicking string by a call whose string has a length that
fits 32 bits. -/
theorem not_writesFor_of_fits
    (fits : ∀ handle value, call.lookedUp = some (handle, value) → byteLength value < u32Range) :
    ¬ state.WritesFor Mimics call := by
  rintro ⟨written, writes, mimics⟩
  have short := fits _ _ (Session.written_eq_some.mp writes).1
  exact Nat.not_lt_of_le (le_byteLength_of_mimics mimics) short

/-- Length and prefix determine a text of two to eight bytes. In every state of a run the
slots taken for those of a short string are its own, exactly when no call of the run
writes a slot for a string that mimics another. -/
theorem shortSlotsOwned_throughout_iff {calls : List Call} {last : Watched build}
    (run : Steps Step start calls last) :
    (∀ left right : List UInt8, left.length = right.length → 2 ≤ left.length →
        left.length ≤ 8 → prefix8 left = prefix8 right → left = right) ∧
      (Throughout Step start calls last ShortSlotsOwned ↔
        Along Step start calls last fun state call _ => ¬ state.WritesFor Mimics call) := by
  refine ⟨fun left right lengths two eight same => prefix8_injective lengths two eight same, ?_⟩
  have agree : ∀ (state : Watched build) call next, Genuine state → Step state call next →
      (ShortSlotsOwned next ↔ ¬ state.WritesFor Mimics call) := by
    rintro state call next genuine rfl
    exact ⟨fun owned writes => not_shortSlotsOwned_of_mimics writes owned,
      fun honest => (genuine.act honest).shortSlotsOwned⟩
  rw [throughout_iff run, and_iff_right genuine_start.shortSlotsOwned]
  refine Along.iff_of_agree genuine_start agree ?_
  intro state call next genuine step owned
  have honest := (agree state call next genuine step).mp owned
  cases step
  exact genuine.act honest

/-- In a run over two short strings every slot is its own string's. -/
theorem shortSlotsOwned_throughout_two :
    Throughout Step (start : Watched ⟨.release, fun _ => 0⟩)
      [.create (fun _ => 0) 1, .getOrIntern 0 "ab", .getOrIntern 0 "abcde"]
      (((start.act (.create (fun _ => 0) 1)).act (.getOrIntern 0 "ab")).act
        (.getOrIntern 0 "abcde")) ShortSlotsOwned := by
  have run : Steps Step (start : Watched ⟨.release, fun _ => 0⟩)
      [.create (fun _ => 0) 1, .getOrIntern 0 "ab", .getOrIntern 0 "abcde"]
      (((start.act (.create (fun _ => 0) 1)).act (.getOrIntern 0 "ab")).act
        (.getOrIntern 0 "abcde")) :=
    .cons rfl (.cons rfl (.single rfl))
  refine (shortSlotsOwned_throughout_iff run).2.mpr ?_
  have fits : ∀ call ∈ [Call.create (fun _ => 0) 1, .getOrIntern 0 "ab", .getOrIntern 0 "abcde"],
      ∀ handle value, call.lookedUp = some (handle, value) → byteLength value < u32Range := by
    have two : byteLength "ab" < u32Range := by decide
    have five : byteLength "abcde" < u32Range := by decide
    simp [Call.lookedUp, two, five]
  intro before call after state next taken _ _ _
  exact not_writesFor_of_fits (fits call (taken ▸ by simp))

/-- A thread of a release build with one interner of one shard. -/
def oneShard : Watched ⟨.release, fun _ => 0⟩ := start.act (.create (fun _ => 0) 1)

/-- Interning a string writes a slot for it also when only its beginning is stored. -/
theorem exists_written_of_cut {long short : String} (notStatic : staticSymbol? long = none)
    (shortNotStatic : staticSymbol? short = none) (fits : byteLength short + 8 ≤ 2 ^ 20)
    (len : byteLength long % u32Range = byteLength short)
    (text : (bytes long).take (byteLength short) = bytes short) :
    ∃ written interner, oneShard.session.written (.getOrIntern 0 long) = some written ∧
      written.value = long ∧
      (oneShard.act (.getOrIntern 0 long)).session.At written.handle interner ∧
      LockFreeStringArray.textAt interner.pool.memory (Session.recordStart interner written) =
        short := by
  obtain ⟨interner, new, created⟩ :=
    withCapacityAndShards_ok ⟨.release, fun _ => 0⟩ (fun _ => 0) 1 1
  obtain ⟨symbol, offset, stored, holds, only, made, inserted⟩ :=
    created.insertVacant_cut rfl shortNotStatic fits len text
  have success : interner.getOrIntern long = .ok symbol (stored.setShard 0
      ⟨[⟨hashOf ⟨.release, fun _ => 0⟩ long, prefix8 (bytes long), symbol⟩],
        (stored.shards 0).strings⟩) := by
    rw [created.layout.getOrIntern_absent notStatic
      (created.layout.findChecked_eq_none.mpr List.not_mem_nil), inserted]
  have first : oneShard.session = ⟨[interner], 2, ThreadLocalCache.new⟩ := by
    have opened : withCapacityAndShards ⟨.release, fun _ => 0⟩ (fun _ => 0)
        (Session.start : Session ⟨.release, fun _ => 0⟩).nextId 1 = .ok interner := new
    simp only [oneShard, Watched.act, start, Session.act, opened]
    rfl
  have here : oneShard.session.At 0 interner := by
    rw [first]
    rfl
  have missed : oneShard.session.cache.probe interner long = .ok none := by
    rw [first]
    refine probe_of_unknown (fun _ named => ?_) long
    have id : 0 = interner.internerId := named
    rw [created.internerId] at id
    exact absurd id (by decide)
  obtain ⟨writes, live⟩ := Session.written_of_getOrIntern here notStatic missed success
  refine ⟨_, _, writes, rfl, live, ?_⟩
  have onlyShard : stored.shardOf long = 0 := by
    have bounded := holds.layout.shardOf_lt long
    omega
  have stays := holds.layout.getUnchecked_eq (show 0 < stored.shardCount by omega)
    (show (Contents.empty.push 0 short 0)[0]? = some short by rw [Contents.push_self]; rfl)
  simp only [Session.recordStart, setShard, shardOf, Symbol.issuedIndex_of_new made] at onlyShard ⊢
  rw [if_pos onlyShard]
  exact stays

end Watched

/-- Five letters, the last four of them again, and so many more that the length, cut to 32
bits, is five. -/
def mimicText : String := "abcdbcde" ++ String.ofList (List.replicate (2 ^ 32 - 3) 'a')

theorem bytes_mimicText :
    bytes mimicText = bytes "abcdbcde" ++ List.replicate (2 ^ 32 - 3) 97 := by
  have letters : ∀ count, bytes (String.ofList (List.replicate count 'a')) =
      List.replicate count 97 := fun _ => bytes_replicate rfl _
  rw [mimicText, bytes_append, letters]

theorem byteLength_mimicText : byteLength mimicText = u32Range + 5 := by
  have eight : (bytes "abcdbcde").length = 8 := by decide
  rw [byteLength, bytes_mimicText, List.length_append, List.length_replicate, eight, u32Range]
  omega

theorem staticSymbol?_mimicText : staticSymbol? mimicText = none := by
  rw [staticSymbol?, bytes_mimicText]
  generalize List.replicate (2 ^ 32 - 3) (97 : UInt8) = rest
  rfl

/-- Cut to its length modulo 2^32 it is other letters than those it mimics. -/
theorem take_mimicText : (bytes mimicText).take (byteLength "abcdb") = bytes "abcdb" := by
  rw [bytes_mimicText]
  generalize List.replicate (2 ^ 32 - 3) (97 : UInt8) = rest
  rfl

theorem prefix8_mimicText : prefix8 (bytes mimicText) = prefix8 (bytes "abcde") := by
  have eight : (bytes "abcdbcde").length = 8 := by decide
  rw [bytes_mimicText, prefix8_append eight]
  decide

theorem mimics_mimicText : Mimics mimicText := by
  refine ⟨"abcde", by decide, by decide, ?_, prefix8_mimicText.symm, ?_⟩
  · rw [byteLength_mimicText]
    decide
  · intro same
    have lengths := congrArg byteLength same
    rw [byteLength_mimicText] at lengths
    exact absurd lengths (by decide)

namespace Watched

/-- The slot of `mimicText` has the length and the prefix of `"abcde"`, and the place of
the text `"abcdb"`. -/
theorem not_shortSlotsOwned_mimicText : ∃ handle interner idx,
    (oneShard.act (.getOrIntern 0 mimicText)).session.At handle interner ∧
      (oneShard.act (.getOrIntern 0 mimicText)).owner idx = some mimicText ∧
      ((oneShard.act (.getOrIntern 0 mimicText)).session.cache idx).internerId =
        interner.internerId ∧
      ((oneShard.act (.getOrIntern 0 mimicText)).session.cache idx).len = byteLength "abcde" ∧
      ((oneShard.act (.getOrIntern 0 mimicText)).session.cache idx).prefix8 =
        prefix8 (bytes "abcde") ∧
      LockFreeStringArray.textAt interner.pool.memory
        (((oneShard.act (.getOrIntern 0 mimicText)).session.cache idx).offset - 4) = "abcdb" ∧
      ¬ ShortSlotsOwned (oneShard.act (.getOrIntern 0 mimicText)) := by
  have five : byteLength mimicText % u32Range = 5 := by
    rw [byteLength_mimicText, Nat.add_mod_left]
    rfl
  obtain ⟨written, interner, writes, value, here, text⟩ := exists_written_of_cut
    staticSymbol?_mimicText (show staticSymbol? "abcdb" = none by decide) (by decide)
    (five.trans (by decide)) take_mimicText
  obtain ⟨owner, slot⟩ := slot_of_written writes here
  refine ⟨written.handle, interner, written.idx, here, owner.trans (congrArg some value),
    congrArg Slot.internerId slot, ?_, ?_, ?_,
    not_shortSlotsOwned_of_mimics ⟨written, writes, value ▸ mimics_mimicText⟩⟩
  · rw [congrArg Slot.len slot, filledSlot]
    dsimp only
    rw [value, five]
    decide
  · rw [congrArg Slot.prefix8 slot, filledSlot]
    dsimp only
    rw [value, prefix8_mimicText]
  · rw [congrArg Slot.offset slot, filledSlot]
    dsimp only
    rw [Nat.add_sub_cancel, text]

end Watched

end Boomerang
