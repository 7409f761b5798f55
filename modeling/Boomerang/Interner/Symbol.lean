import Boomerang.Machine
import Mathlib.Data.UInt
import Mathlib.Order.Basic

/-!
# Symbols

A `Symbol` is a non-zero `u32`: the shard in its top byte and one more than the
index inside the shard in its low 24 bits. `Symbol.new` is the only place that
numbers a symbol; `Symbol.fromRaw` accepts any non-zero number.
-/

namespace Boomerang

/-- `Symbol(NonZeroU32)`. -/
structure Symbol where
  raw : UInt32
  nonzero : raw ≠ 0
deriving DecidableEq, Repr

/-- The shard of the empty and the one-character strings, which no interner stores. -/
def staticShardId : UInt8 := 255

namespace Symbol

/-- Bottom 24 bits. -/
def indexMask : UInt32 := 0x00FFFFFF

theorem toNat_indexMask : indexMask.toNat = 16777215 := by decide

/-- The number `new` gives to an index of a shard. -/
def pack (shardId : UInt8) (index : Nat) : UInt32 :=
  (shardId.toUInt32 <<< 24) ||| (UInt32.ofNat index + 1)

private theorem toNat_shardBits (shardId : UInt8) :
    (shardId.toUInt32 <<< 24).toNat = shardId.toNat <<< 24 := by
  have shard := shardId.toNat_lt
  have width : (24 : UInt32).toNat % 32 = 24 := by decide
  rw [UInt32.toNat_shiftLeft, UInt8.toNat_toUInt32, width, Nat.shiftLeft_eq]
  omega

private theorem toNat_indexBits {index : Nat} (bounded : index < 16777215) :
    (UInt32.ofNat index + 1).toNat = index + 1 := by
  rw [UInt32.toNat_add, UInt32.toNat_ofNat', UInt32.toNat_one]
  omega

theorem toNat_pack {shardId : UInt8} {index : Nat} (bounded : index < indexMask.toNat) :
    (pack shardId index).toNat = shardId.toNat * 2 ^ 24 + (index + 1) := by
  rw [toNat_indexMask] at bounded
  have below : index + 1 < 2 ^ 24 := by omega
  rw [pack, UInt32.toNat_or, toNat_shardBits, toNat_indexBits bounded,
    ← Nat.shiftLeft_add_eq_or_of_lt below, Nat.shiftLeft_eq]

theorem pack_ne_zero {shardId : UInt8} {index : Nat} (bounded : index < indexMask.toNat) :
    pack shardId index ≠ 0 := by
  intro zero
  have value := @toNat_pack shardId index bounded
  rw [zero, UInt32.toNat_zero] at value
  omega

/-- `Symbol::new`. -/
def new (shardId : UInt8) (index : Nat) : Except Fault Symbol :=
  if bounded : index < indexMask.toNat then
    .ok ⟨pack shardId index, pack_ne_zero bounded⟩
  else
    .error (.assertion "Symbol index overflow")

/-- `Symbol::from_raw`. -/
def fromRaw (raw : UInt32) : Option Symbol :=
  if nonzero : raw ≠ 0 then some ⟨raw, nonzero⟩ else none

/-- `Symbol::shard_id`. -/
def shardId (symbol : Symbol) : Nat := (symbol.raw >>> 24).toNat

/-- The low 24 bits, one more than the index for every symbol `new` made. -/
def lowBits (symbol : Symbol) : Nat := (symbol.raw &&& indexMask).toNat

/-- `Symbol::index`. The subtraction underflows for a raw symbol whose low bits are zero. -/
def index (profile : Profile) (symbol : Symbol) : Except Fault Nat :=
  if symbol.lowBits = 0 then
    match profile with
    | .debug => .error .overflow
    | .release => .ok (usizeRange - 1)
  else .ok (symbol.lowBits - 1)

/-- With low bits `index` returns. -/
theorem index_of_ne_zero {symbol : Symbol} (profile : Profile) (nonzero : symbol.lowBits ≠ 0) :
    symbol.index profile = .ok (symbol.lowBits - 1) := by
  unfold index
  rw [if_neg nonzero]

/-- Without low bits `index` overflows where that is checked, and wraps where it is not. -/
theorem index_of_zero {symbol : Symbol} (zero : symbol.lowBits = 0) :
    symbol.index .debug = .error .overflow ∧ symbol.index .release = .ok (usizeRange - 1) := by
  unfold index
  rw [if_pos zero, if_pos zero]
  exact ⟨rfl, rfl⟩

/-- The index of a symbol that `new` made, for which `index` never underflows. -/
def issuedIndex (symbol : Symbol) : Nat := symbol.lowBits - 1

@[ext] theorem ext {left right : Symbol} (raw : left.raw = right.raw) : left = right := by
  cases left
  cases right
  cases raw
  rfl

/-- A raw number and the symbol it stands for. -/
theorem fromRaw_eq_some {raw : UInt32} {symbol : Symbol} :
    fromRaw raw = some symbol ↔ symbol.raw = raw := by
  unfold fromRaw
  split
  · constructor
    · rintro ⟨⟩
      rfl
    · rintro rfl
      rfl
  · rename_i zero
    constructor
    · intro impossible
      cases impossible
    · rintro rfl
      exact absurd symbol.nonzero zero

@[simp] theorem fromRaw_raw (symbol : Symbol) : fromRaw symbol.raw = some symbol :=
  fromRaw_eq_some.mpr rfl

/-- The raw number of a new symbol. -/
theorem new_eq_ok {shardId : UInt8} {index : Nat} {symbol : Symbol} :
    new shardId index = .ok symbol ↔
      index < indexMask.toNat ∧ symbol.raw = pack shardId index := by
  unfold new
  split
  · rename_i bounded
    constructor
    · rintro ⟨⟩
      exact ⟨bounded, rfl⟩
    · rintro ⟨_, same⟩
      exact congrArg _ (ext same.symm)
  · rename_i unbounded
    constructor
    · intro impossible
      cases impossible
    · rintro ⟨bounded, _⟩
      exact absurd bounded unbounded

/-- An index at the limit has no symbol. -/
theorem new_eq_error {shardId : UInt8} {index : Nat} {fault : Fault} :
    new shardId index = .error fault ↔
      indexMask.toNat ≤ index ∧ fault = .assertion "Symbol index overflow" := by
  unfold new
  split
  · rename_i bounded
    constructor
    · intro impossible
      cases impossible
    · rintro ⟨unbounded, _⟩
      omega
  · rename_i unbounded
    constructor
    · rintro ⟨⟩
      exact ⟨Nat.le_of_not_lt unbounded, rfl⟩
    · rintro ⟨_, rfl⟩
      rfl

/-- The symbol of an index below the limit. -/
theorem exists_new (shardId : UInt8) {index : Nat} (bounded : index < indexMask.toNat) :
    ∃ symbol, new shardId index = .ok symbol :=
  ⟨⟨pack shardId index, pack_ne_zero bounded⟩, new_eq_ok.mpr ⟨bounded, rfl⟩⟩

/-- A new symbol carries its shard. -/
theorem shardId_of_new {shard : UInt8} {index : Nat} {symbol : Symbol}
    (made : new shard index = .ok symbol) : symbol.shardId = shard.toNat := by
  obtain ⟨bounded, raw⟩ := new_eq_ok.mp made
  have limit := toNat_indexMask ▸ bounded
  have width : (24 : UInt32).toNat % 32 = 24 := by decide
  rw [shardId, raw, UInt32.toNat_shiftRight, toNat_pack bounded, width,
    Nat.shiftRight_eq_div_pow]
  omega

/-- A new symbol carries one more than its index in its low bits. -/
theorem lowBits_of_new {shard : UInt8} {index : Nat} {symbol : Symbol}
    (made : new shard index = .ok symbol) : symbol.lowBits = index + 1 := by
  obtain ⟨bounded, raw⟩ := new_eq_ok.mp made
  have limit := toNat_indexMask ▸ bounded
  rw [lowBits, raw, UInt32.toNat_and, toNat_pack bounded]
  rw [toNat_indexMask, show 16777215 = 2 ^ 24 - 1 by decide, Nat.and_two_pow_sub_one_eq_mod]
  omega

theorem issuedIndex_of_new {shard : UInt8} {index : Nat} {symbol : Symbol}
    (made : new shard index = .ok symbol) : symbol.issuedIndex = index := by
  rw [issuedIndex, lowBits_of_new made, Nat.add_sub_cancel]

/-- The index of a new symbol is read back in both profiles. -/
theorem index_of_new {shard : UInt8} {position : Nat} {symbol : Symbol} (profile : Profile)
    (made : new shard position = .ok symbol) : symbol.index profile = .ok position := by
  unfold index
  rw [lowBits_of_new made, if_neg (Nat.succ_ne_zero _), Nat.add_sub_cancel]

/-- A symbol with the parts of a new one is that one. -/
theorem new_of_parts {shard : UInt8} {index : Nat} {symbol : Symbol}
    (shardId : symbol.shardId = shard.toNat) (lowBits : symbol.lowBits = index + 1) :
    new shard index = .ok symbol := by
  have width : (24 : UInt32).toNat % 32 = 24 := by decide
  rw [Symbol.shardId, UInt32.toNat_shiftRight, width, Nat.shiftRight_eq_div_pow] at shardId
  rw [Symbol.lowBits, UInt32.toNat_and, toNat_indexMask, show 16777215 = 2 ^ 24 - 1 by decide,
    Nat.and_two_pow_sub_one_eq_mod] at lowBits
  have bounded : index < indexMask.toNat := by
    rw [toNat_indexMask]
    omega
  refine new_eq_ok.mpr ⟨bounded, UInt32.toNat_inj.mp ?_⟩
  rw [toNat_pack bounded]
  omega

/-- Symbols made from different shards or indices differ. -/
theorem new_injective {shard otherShard : UInt8} {index otherIndex : Nat} {symbol : Symbol}
    (made : new shard index = .ok symbol) (other : new otherShard otherIndex = .ok symbol) :
    shard = otherShard ∧ index = otherIndex := by
  constructor
  · exact UInt8.toNat_inj.mp ((shardId_of_new made).symm.trans (shardId_of_new other))
  · exact (issuedIndex_of_new made).symm.trans (issuedIndex_of_new other)

/-- Symbols are ordered by their raw number, as the derived `Ord` orders them. -/
instance : LinearOrder Symbol :=
  LinearOrder.lift' (fun symbol => symbol.raw.toNat) fun _ _ same => ext (UInt32.toNat_inj.mp same)

end Symbol

end Boomerang
