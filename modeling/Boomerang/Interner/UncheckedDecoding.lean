import Boomerang.Interner.Decoding

/-!
# Rebuilding an interner without checking its texts

`from_bytes_unchecked` takes the text of every record for valid UTF-8. Where all of them
are, it does what `from_bytes` does, which skips none of them.
-/

namespace Boomerang

open Foundation

/-- The texts of the records at the start of some bytes, as bytes, up to the first that is
cut short. The fuel bounds their number. -/
def rawTexts : Nat → List UInt8 → List (List UInt8)
  | 0, _ => []
  | fuel + 1, raw =>
      let len := ofLE (raw.take 4)
      if raw.length < 4 ∨ raw.length < 4 + len then []
      else (raw.drop 4).take len :: rawTexts fuel (raw.drop (paddedSize len))

/-- All records of the bytes of an interner have texts that are valid UTF-8. -/
def ValidTexts (raw : List UInt8) : Prop :=
  ∀ text ∈ rawTexts (raw.length + 1) (raw.drop 4), (fromUtf8 text).isSome

instance (raw : List UInt8) : Decidable (ValidTexts raw) :=
  inferInstanceAs (Decidable (∀ text ∈ rawTexts (raw.length + 1) (raw.drop 4), _))

namespace StringInterner

variable {build : Build}

/-- The loop of `from_bytes_unchecked`. There is no interner when a text is not valid, and
the behaviour undefined. The fuel bounds its turns. -/
def fromBytesUncheckedLoop (raw : List UInt8) :
    Nat → Nat → StringInterner build → Except Fault (Option (StringInterner build))
  | 0, _, _ => .error .divergence
  | fuel + 1, cursor, interner =>
      if cursor + 4 ≤ raw.length then
        let len := ofLE ((raw.drop cursor).take 4)
        if raw.length < cursor + 4 + len then .ok (some interner)
        else
          match fromUtf8 ((raw.drop (cursor + 4)).take len) with
          | none => .ok none
          | some text =>
              match interner.insertUnique text with
              | .error fault _ => .error fault
              | .ok _ next =>
                  match paddedRecordSize build.profile len with
                  | .error fault => .error fault
                  | .ok size => fromBytesUncheckedLoop raw fuel (cursor + size) next
      else .ok (some interner)

/-- `StringInterner::from_bytes_unchecked`, with the next interner id. -/
def fromBytesUnchecked (build : Build) (uninitialised : Memory) (internerId : Nat)
    (raw : List UInt8) : Except Fault (Option (StringInterner build)) :=
  let shardCount := (MemoryPool.readShardCountHeader raw).getD DEFAULT_SHARD_COUNT
  match withCapacityAndShards build uninitialised internerId shardCount with
  | .error fault => .error fault
  | .ok interner =>
      if raw.length ≤ 4 then .ok (some interner)
      else fromBytesUncheckedLoop raw (raw.length + 1) 4 interner

/-- From a place behind which all texts are valid the loops take the same turns. -/
theorem fromBytesUncheckedLoop_eq {raw : List UInt8} (small : raw.length < u32Range)
    {fuel cursor : Nat} (past : 4 ≤ cursor) (interner : StringInterner build)
    (valid : ∀ text ∈ rawTexts fuel (raw.drop cursor), (fromUtf8 text).isSome) :
    fromBytesUncheckedLoop raw fuel cursor interner =
      (fromBytesLoop raw fuel cursor interner).map some := by
  induction fuel generalizing cursor interner with
  | zero => rfl
  | succ fuel ih =>
      rw [fromBytesUncheckedLoop, fromBytesLoop]
      rw [rawTexts] at valid
      dsimp only at valid ⊢
      generalize ofLE ((raw.drop cursor).take 4) = len at valid ⊢
      by_cases header : cursor + 4 ≤ raw.length
      · rw [if_pos header, if_pos header]
        by_cases cut : raw.length < cursor + 4 + len
        · rw [if_pos cut, if_pos cut]
          rfl
        · have size : paddedRecordSize build.profile len = .ok (paddedSize len) :=
            paddedRecordSize_eq_ok (by omega)
          rw [if_neg (by rw [List.length_drop]; omega), List.drop_drop, List.drop_drop] at valid
          obtain ⟨text, textEq⟩ := Option.isSome_iff_exists.mp (valid _ List.mem_cons_self)
          rw [if_neg cut, if_neg cut, insertText, textEq]
          cases inserted : interner.insertUnique text with
          | error fault after => simp only [inserted]; rfl
          | ok symbol next =>
              simp only [inserted, size]
              exact ih (by omega) next fun other member =>
                valid other (List.mem_cons_of_mem _ member)
      · rw [if_neg header, if_neg header]
        rfl

/-- Where all texts are valid the interner is rebuilt without checking them. -/
theorem fromBytesUnchecked_eq {raw : List UInt8} (small : raw.length < u32Range)
    (valid : ValidTexts raw) (uninitialised : Memory) (internerId : Nat) :
    fromBytesUnchecked build uninitialised internerId raw =
      (fromBytes build uninitialised internerId raw).map some := by
  rw [fromBytesUnchecked, fromBytes]
  cases withCapacityAndShards build uninitialised internerId
      ((MemoryPool.readShardCountHeader raw).getD DEFAULT_SHARD_COUNT) with
  | error fault => rfl
  | ok interner =>
      dsimp only
      split
      · rfl
      · exact fromBytesUncheckedLoop_eq small (Nat.le_refl 4) interner valid

/-- What is rebuilt resolves symbols alike, in whatever memory it is. -/
theorem fromBytes_same_resolve {raw : List UInt8} (small : raw.length < u32Range)
    {uninitialised : Memory} {internerId : Nat} {interner : StringInterner build}
    (success : fromBytes build uninitialised internerId raw = .ok interner)
    (otherMemory : Memory) (otherId : Nat) :
    ∃ other : StringInterner build, fromBytes build otherMemory otherId raw = .ok other ∧
      ∀ symbol, other.resolve symbol = interner.resolve symbol := by
  rcases fromBytes_cases build uninitialised internerId small with
    ⟨fits, found, foundEq, facts⟩ | ⟨_, fault, failed⟩
  · cases foundEq.symm.trans success
    rcases fromBytes_cases build otherMemory otherId small with
      ⟨_, other, otherEq, otherFacts⟩ | ⟨full, _⟩
    · refine ⟨other, otherEq, facts.ready.layout.same_resolve otherFacts.ready.layout
        (otherFacts.shardCount.trans facts.shardCount.symm) fun shardId _ => ?_⟩
      rw [otherFacts.shardOf, facts.shardOf]
    · exact absurd fits full
  · cases failed.symm.trans success

end StringInterner

end Boomerang
