import Boomerang.Interner.Interning

/-!
# The thread-local lookup cache

Every thread keeps 1024 slots in lines of four, indexed by the low bits of the hash
and shared by all interners. A slot remembers the interner, the low half of the
hash, the length, the prefix, the symbol, and the arena offset of the text. A probe
takes the first slot of the line that agrees with the string on the first four. Up
to eight bytes that settles it; for longer strings the probe then compares the
string with the arena, four bytes past the offset of the text.
-/

namespace Boomerang

open Foundation

/-- Two numbers packed into one word at a bit offset. -/
private theorem toNat_halves {low high width : Nat} (lowFits : low < 2 ^ width)
    (highFits : high < 2 ^ (64 - width)) (narrow : width < 64) :
    ((UInt64.ofNat high <<< UInt64.ofNat width) ||| UInt64.ofNat low).toNat =
      high * 2 ^ width + low := by
  have product : high * 2 ^ width < 2 ^ 64 := by
    calc high * 2 ^ width < 2 ^ (64 - width) * 2 ^ width :=
          Nat.mul_lt_mul_of_pos_right highFits (Nat.two_pow_pos width)
      _ = 2 ^ 64 := by rw [← Nat.pow_add, Nat.sub_add_cancel (Nat.le_of_lt narrow)]
  have highSmall : high < 2 ^ 64 :=
    Nat.lt_of_lt_of_le highFits (Nat.pow_le_pow_right (by decide) (by omega))
  have lowSmall : low < 2 ^ 64 :=
    Nat.lt_of_lt_of_le lowFits (Nat.pow_le_pow_right (by decide) (by omega))
  rw [UInt64.toNat_or, UInt64.toNat_shiftLeft, UInt64.toNat_ofNat', UInt64.toNat_ofNat',
    UInt64.toNat_ofNat', Nat.mod_eq_of_lt highSmall, Nat.mod_eq_of_lt lowSmall,
    Nat.mod_eq_of_lt (show width < 2 ^ 64 by omega), Nat.mod_eq_of_lt narrow,
    Nat.shiftLeft_eq, Nat.mod_eq_of_lt product, ← Nat.shiftLeft_eq,
    Nat.shiftLeft_add_eq_or_of_lt lowFits]

/-- Packed words are equal only when both numbers are. -/
private theorem halves_inj {low high otherLow otherHigh width : Nat} (narrow : width < 64)
    (lowFits : low < 2 ^ width) (highFits : high < 2 ^ (64 - width))
    (otherLowFits : otherLow < 2 ^ width) (otherHighFits : otherHigh < 2 ^ (64 - width))
    (same : (UInt64.ofNat high <<< UInt64.ofNat width) ||| UInt64.ofNat low =
      (UInt64.ofNat otherHigh <<< UInt64.ofNat width) ||| UInt64.ofNat otherLow) :
    low = otherLow ∧ high = otherHigh := by
  have values := congrArg UInt64.toNat same
  rw [toNat_halves lowFits highFits narrow, toNat_halves otherLowFits otherHighFits narrow]
    at values
  have lows : low = otherLow := by
    have remainders := congrArg (· % 2 ^ width) values
    simpa [Nat.mul_add_mod_self_right, Nat.mod_eq_of_lt lowFits, Nat.mod_eq_of_lt otherLowFits]
      using remainders
  subst lows
  exact ⟨rfl, Nat.eq_of_mul_eq_mul_right (Nat.two_pow_pos width) (Nat.add_right_cancel values)⟩

/-- Lists with equal overlapping ends are equal. -/
private theorem eq_of_ends {left right : List UInt8} {front back : Nat} (overlap : back ≤ front)
    (fronts : left.take front = right.take front) (backs : left.drop back = right.drop back) :
    left = right := by
  have tails : left.drop front = right.drop front := by
    rw [← Nat.add_sub_cancel' overlap, ← List.drop_drop, backs, List.drop_drop]
  rw [← List.take_append_drop front left, fronts, tails, List.take_append_drop]

/-- Texts with equal ends packed into one word are equal when the ends overlap. -/
private theorem eq_of_packed_ends {left right : List UInt8} {front back width : Nat}
    (lengths : left.length = right.length) (overlap : back ≤ front) (narrow : width < 64)
    (frontFits : 256 ^ front ≤ 2 ^ width)
    (backFits : 256 ^ (left.length - back) ≤ 2 ^ (64 - width))
    (same : (UInt64.ofNat (ofLE (left.drop back)) <<< UInt64.ofNat width) |||
        UInt64.ofNat (ofLE (left.take front)) =
      (UInt64.ofNat (ofLE (right.drop back)) <<< UInt64.ofNat width) |||
        UInt64.ofNat (ofLE (right.take front))) : left = right := by
  have fits : ∀ raw : List UInt8, raw.length = left.length →
      ofLE (raw.take front) < 2 ^ width ∧ ofLE (raw.drop back) < 2 ^ (64 - width) := by
    intro raw sameLength
    constructor
    · calc ofLE (raw.take front) < 256 ^ (raw.take front).length := ofLE_lt _
        _ ≤ 256 ^ front := Nat.pow_le_pow_right (by decide) (List.length_take_le _ _)
        _ ≤ 2 ^ width := frontFits
    · calc ofLE (raw.drop back) < 256 ^ (raw.drop back).length := ofLE_lt _
        _ = 256 ^ (left.length - back) := by rw [List.length_drop, sameLength]
        _ ≤ 2 ^ (64 - width) := backFits
  obtain ⟨fronts, backs⟩ := halves_inj narrow (fits left rfl).1 (fits left rfl).2
    (fits right lengths.symm).1 (fits right lengths.symm).2 same
  refine eq_of_ends overlap (ofLE_injective ?_ fronts) (ofLE_injective ?_ backs)
  · rw [List.length_take, List.length_take, lengths]
  · rw [List.length_drop, List.length_drop, lengths]

/-- The prefix of a text of two to eight bytes is the whole text. -/
theorem prefix8_injective {left right : List UInt8} (lengths : left.length = right.length)
    (two : 2 ≤ left.length) (eight : left.length ≤ 8) (same : prefix8 left = prefix8 right) :
    left = right := by
  unfold prefix8 at same
  dsimp only at same
  rw [← lengths] at same
  split at same
  · have whole : ∀ raw : List UInt8, raw.length = left.length →
        raw.take 8 = raw ∧ ofLE raw < 2 ^ 64 := by
      intro raw sameLength
      refine ⟨List.take_of_length_le (sameLength ▸ eight), ?_⟩
      calc ofLE raw < 256 ^ raw.length := ofLE_lt raw
        _ ≤ 256 ^ 8 := Nat.pow_le_pow_right (by decide) (sameLength ▸ eight)
        _ = 2 ^ 64 := by decide
    rw [(whole left rfl).1, (whole right lengths.symm).1] at same
    have values := congrArg UInt64.toNat same
    rw [UInt64.toNat_ofNat_of_lt' (whole left rfl).2,
      UInt64.toNat_ofNat_of_lt' (whole right lengths.symm).2] at values
    exact ofLE_injective lengths values
  · split at same
    · refine eq_of_packed_ends lengths (by omega) (by decide) (by decide) ?_ same
      have four : left.length - (left.length - 4) = 4 := by omega
      rw [four]
      decide
    · refine eq_of_packed_ends lengths (by omega) (by decide) (by decide) ?_ same
      have one : left.length - (left.length - 1) = 1 := by omega
      rw [one]
      decide

/-- The prefix of a longer text is that of its first eight bytes. -/
theorem prefix8_append {front rest : List UInt8} (eight : front.length = 8) :
    prefix8 (front ++ rest) = prefix8 front := by
  have long : 8 ≤ (front ++ rest).length := by
    rw [List.length_append]
    omega
  simp only [prefix8, if_pos long, if_pos (Nat.le_of_eq eight.symm),
    List.take_left' eight, List.take_of_length_le (Nat.le_of_eq eight)]

/-- One index of the arrays of `ThreadLocalCache`. -/
structure Slot where
  internerId : Nat
  hash : UInt32
  len : Nat
  offset : Nat
  symbol : UInt32
  prefix8 : UInt64
deriving DecidableEq, Repr

/-- `ThreadLocalCache`. -/
abbrev ThreadLocalCache := Nat → Slot

namespace ThreadLocalCache

/-- `CACHE_CAPACITY`. -/
def CACHE_CAPACITY : Nat := 1024

/-- `ThreadLocalCache::new`. An interner id of zero marks an empty slot. -/
def new : ThreadLocalCache := fun _ => ⟨0, 0, 0, 0, 0, 0⟩

/-- `hash & CACHE_MASK`. -/
def cacheIndex (hash : UInt64) : Nat := hash.toNat % CACHE_CAPACITY

/-- The indices of the line of a hash. -/
def line (hash : UInt64) : List Nat :=
  (List.range 4).map fun i => cacheIndex hash / 4 * 4 + i

variable {build : Build}

/-- The first slot of the line that agrees with the interner and the string. -/
def candidate (cache : ThreadLocalCache) (interner : StringInterner build) (value : String) :
    Option Slot :=
  ((line (hashOf build value)).map cache).find? fun slot =>
    slot.internerId = interner.internerId ∧ slot.hash = (hashOf build value).toUInt32 ∧
      slot.len = byteLength value % u32Range ∧ slot.prefix8 = prefix8 (bytes value)

/-- The cache probe of `get_or_intern` and `get`. -/
def probe (cache : ThreadLocalCache) (interner : StringInterner build) (value : String) :
    Except Fault (Option Symbol) :=
  match cache.candidate interner value with
  | none => .ok none
  | some slot =>
      if byteLength value ≤ 8 ∨
          interner.pool.memory.read (slot.offset + 4) (byteLength value) = bytes value then
        match Symbol.fromRaw slot.symbol with
        | none => .error (.expectation "called `Option::unwrap()` on a `None` value")
        | some symbol => .ok (some symbol)
      else .ok none

/-- The cache fill of `get_or_intern` and `get`: an empty slot of the line, or the
slot of the hash. -/
def fill (cache : ThreadLocalCache) (interner : StringInterner build) (value : String)
    (symbol : Symbol) (offset : Nat) : ThreadLocalCache :=
  let hash := hashOf build value
  let target := ((line hash).find? fun idx => (cache idx).internerId = 0).getD (cacheIndex hash)
  fun idx =>
    if idx = target then
      ⟨interner.internerId, hash.toUInt32, byteLength value % u32Range, offset, symbol.raw,
        prefix8 (bytes value)⟩
    else cache idx

end ThreadLocalCache

namespace StringInterner

variable {build : Build}

/-- `StringInterner::get_or_intern`, with or without its cache probe. -/
def getOrInternCached (probing : Bool) (cache : ThreadLocalCache)
    (interner : StringInterner build) (value : String) :
    Outcome (StringInterner build × ThreadLocalCache) Symbol :=
  match staticSymbol? value with
  | some symbol => .ok symbol (interner, cache)
  | none =>
      match if probing then cache.probe interner value else .ok none with
      | .error fault => .error fault (interner, cache)
      | .ok (some symbol) => .ok symbol (interner, cache)
      | .ok none =>
          match interner.internShared value with
          | .error fault next => .error fault (next, cache)
          | .ok (symbol, offset) next => .ok symbol (next, cache.fill next value symbol offset)

/-- `StringInterner::get`, with or without its cache probe. -/
def getCached (probing : Bool) (cache : ThreadLocalCache) (interner : StringInterner build)
    (value : String) : Except Fault (Option Symbol × ThreadLocalCache) :=
  match staticSymbol? value with
  | some symbol => .ok (some symbol, cache)
  | none =>
      match if probing then cache.probe interner value else .ok none with
      | .error fault => .error fault
      | .ok (some symbol) => .ok (some symbol, cache)
      | .ok none =>
          match interner.getShared value with
          | none => .ok (none, cache)
          | some (symbol, offset) => .ok (some symbol, cache.fill interner value symbol offset)

/-- A slot filled for a string that an interner holds. -/
structure CachedAs (interner : StringInterner build) (contents : Contents) (slot : Slot)
    (value : String) (symbol : Symbol) : Prop where
  internerId : slot.internerId = interner.internerId
  notStatic : staticSymbol? value = none
  numbered : Numbered interner contents value symbol
  len : slot.len = byteLength value
  prefix8 : slot.prefix8 = prefix8 (bytes value)
  offset : slot.offset = interner.textOffset (interner.shardOf value) symbol
  symbol : slot.symbol = symbol.raw

/-- A probe of a string in a state of the cache and the arena goes wrong when its slot
was filled for another string and yet the bytes it compares agree. -/
def Misread (cache : ThreadLocalCache) (interner : StringInterner build) (value : String) : Prop :=
  8 < byteLength value ∧ ∃ slot, cache.candidate interner value = some slot ∧
    interner.pool.memory.read (slot.offset + 4) (byteLength value) = bytes value ∧
    LockFreeStringArray.textAt interner.pool.memory (slot.offset - 4) ≠ value

namespace CachedAs

variable {interner next : StringInterner build} {contents grown : Contents} {slot : Slot}
variable {value : String} {symbol : Symbol}

/-- The record below the offset of a slot is the string it was filled for. -/
theorem textAt (cached : CachedAs interner contents slot value symbol)
    (layout : interner.Layout contents) :
    LockFreeStringArray.textAt interner.pool.memory (slot.offset - 4) = value := by
  rcases cached.numbered with isStatic | ⟨_, index, here, made⟩
  · rw [cached.notStatic] at isStatic
    cases isStatic
  · rw [cached.offset, textOffset, Nat.add_sub_cancel, Symbol.issuedIndex_of_new made]
    exact layout.getUnchecked_eq (layout.shardOf_lt value) here

/-- Offsets of texts never change. -/
theorem mono (cached : CachedAs interner contents slot value symbol)
    (layout : interner.Layout contents) (nextLayout : next.Layout grown)
    (shape : SameShape interner next) (grows : Contents.Grows contents grown) :
    CachedAs next grown slot value symbol := by
  refine ⟨cached.internerId.trans shape.internerId.symm, cached.notStatic,
    cached.numbered.mono (shape.shardOf value) (grows _), cached.len, cached.prefix8, ?_,
    cached.symbol⟩
  rcases cached.numbered with isStatic | ⟨_, index, here, made⟩
  · rw [cached.notStatic] at isStatic
    cases isStatic
  · have inRange := layout.shardOf_lt value
    have below := (List.getElem?_eq_some_iff.mp here).1
    obtain ⟨rest, whole⟩ := grows (interner.shardOf value)
    have grownBelow : index < (grown (interner.shardOf value)).length := by
      rw [← whole, List.length_append]
      omega
    have same : (grown (interner.shardOf value)).take index =
        (contents (interner.shardOf value)).take index := by
      rw [← whole, List.take_append_of_le_length (Nat.le_of_lt below)]
    rw [cached.offset, textOffset, textOffset, Symbol.issuedIndex_of_new made, shape.shardOf,
      layout.offset _ inRange index below,
      nextLayout.offset _ (shape.shardCount ▸ inRange) index grownBelow, same, shape.regionStart]

end CachedAs

/-- Every slot of the interner was filled for a string it holds. -/
def CacheFaithful (cache : ThreadLocalCache) (interner : StringInterner build)
    (contents : Contents) : Prop :=
  ∀ idx, (cache idx).internerId = interner.internerId →
    ∃ value symbol, CachedAs interner contents (cache idx) value symbol

namespace Layout

variable {interner : StringInterner build} {contents : Contents} {cache : ThreadLocalCache}
variable {value : String}

/-- A candidate slot was filled for some string of the interner. -/
theorem cachedAs_of_candidate (faithful : CacheFaithful cache interner contents) {slot : Slot}
    (found : cache.candidate interner value = some slot) :
    ∃ stored symbol, CachedAs interner contents slot stored symbol ∧
      byteLength stored = byteLength value % u32Range ∧
      prefix8 (bytes stored) = prefix8 (bytes value) := by
  have agrees := List.find?_some found
  have member := List.mem_of_find?_eq_some found
  obtain ⟨idx, _, rfl⟩ := List.mem_map.mp member
  simp only [decide_eq_true_eq] at agrees
  obtain ⟨stored, symbol, cached⟩ := faithful idx agrees.1
  exact ⟨stored, symbol, cached, cached.len.symm.trans agrees.2.2.1,
    cached.prefix8.symm.trans agrees.2.2.2⟩

/-- Unless it is misread, a probe misses or finds the symbol of the string. -/
theorem probe_ok (layout : interner.Layout contents)
    (faithful : CacheFaithful cache interner contents) (notStatic : staticSymbol? value = none)
    (clean : ¬ Misread cache interner value) :
    cache.probe interner value = .ok none ∨
      ∃ symbol, cache.probe interner value = .ok (some symbol) ∧
        Numbered interner contents value symbol := by
  unfold ThreadLocalCache.probe
  cases found : cache.candidate interner value with
  | none => exact Or.inl rfl
  | some slot =>
      obtain ⟨stored, symbol, cached, len, prefix'⟩ := cachedAs_of_candidate faithful found
      dsimp only
      split
      · rename_i hit
        have same : stored = value := by
          by_cases short : byteLength value ≤ 8
          · have small : u32Range = 2 ^ 32 := rfl
            have two := two_le_of_not_static notStatic
            rw [Nat.mod_eq_of_lt (by omega)] at len
            rw [← len] at two short
            exact bytes_injective (prefix8_injective len two short prefix')
          · have read := hit.resolve_left short
            by_contra different
            refine clean ⟨Nat.lt_of_not_le short, slot, found, read, ?_⟩
            rw [cached.textAt layout]
            exact different
        rw [cached.symbol, Symbol.fromRaw_raw]
        exact Or.inr ⟨symbol, rfl, same ▸ cached.numbered⟩
      · exact Or.inl rfl

/-- A misread probe finds the symbol of another string. -/
theorem probe_misread (layout : interner.Layout contents)
    (faithful : CacheFaithful cache interner contents) (misread : Misread cache interner value) :
    ∃ symbol stored, cache.probe interner value = .ok (some symbol) ∧ stored ≠ value ∧
      Numbered interner contents stored symbol := by
  obtain ⟨_, slot, found, read, different⟩ := misread
  obtain ⟨stored, symbol, cached, _⟩ := cachedAs_of_candidate faithful found
  rw [cached.textAt layout] at different
  refine ⟨symbol, stored, ?_, different, cached.numbered⟩
  simp only [ThreadLocalCache.probe, found, read, or_true, if_true, cached.symbol,
    Symbol.fromRaw_raw]

end Layout

end StringInterner

end Boomerang
