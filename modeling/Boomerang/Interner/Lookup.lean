import Boomerang.Interner.Insertion

/-!
# Numbering

`Numbered` says which symbol the contents give to a string. `resolve` is its
inverse on all symbols, and `get` computes it when no shard holds a string twice.
-/

namespace Boomerang

open Foundation

/-- `ASCII_STRINGS` holds the one-character ASCII strings. -/
theorem bytes_asciiString {code : Nat} (ascii : code < 128) :
    bytes (asciiString code) = [UInt8.ofNat code] := by
  have all : ∀ code : Fin 128, bytes (asciiString code) = [UInt8.ofNat code] := by decide
  exact all ⟨code, ascii⟩

/-- The static symbols number the empty string and the ASCII characters. -/
theorem staticSymbol?_eq_some {value : String} {symbol : Symbol} :
    staticSymbol? value = some symbol ↔
      ∃ index, Symbol.new staticShardId index = .ok symbol ∧
        (index = 0 ∧ value = "" ∨ 1 ≤ index ∧ index ≤ 128 ∧ value = asciiString (index - 1)) := by
  have toOption : ∀ index, (Symbol.new staticShardId index).toOption = some symbol ↔
      Symbol.new staticShardId index = .ok symbol := by
    intro index
    cases Symbol.new staticShardId index <;> simp [Except.toOption]
  unfold staticSymbol?
  split
  · rename_i empty
    have isEmpty : value = "" := bytes_injective empty
    rw [toOption]
    constructor
    · exact fun made => ⟨0, made, Or.inl ⟨rfl, isEmpty⟩⟩
    · rintro ⟨index, made, ⟨rfl, _⟩ | ⟨low, high, rfl⟩⟩
      · exact made
      · rw [bytes_asciiString (by omega)] at empty
        cases empty
  · rename_i byte single
    have ascii := ascii_of_single single
    rw [if_pos (UInt8.lt_iff_toNat_lt.mpr ascii), toOption]
    have isByte : value = asciiString byte.toNat := by
      apply bytes_injective
      rw [single, bytes_asciiString ascii, UInt8.ofNat_toNat]
    constructor
    · exact fun made => ⟨byte.toNat + 1, made, Or.inr ⟨by omega, by omega, isByte⟩⟩
    · rintro ⟨index, made, ⟨_, rfl⟩ | ⟨low, high, same⟩⟩
      · cases single
      · have sameByte : [byte] = [UInt8.ofNat (index - 1)] := by
          rw [← single, same, bytes_asciiString (by omega)]
        have indexEq : byte.toNat + 1 = index := by
          rw [List.singleton_inj.mp sameByte, UInt8.toNat_ofNat']
          omega
        rw [indexEq]
        exact made
  · rename_i notEmpty notSingle
    constructor
    · intro impossible
      cases impossible
    · rintro ⟨index, _, ⟨_, rfl⟩ | ⟨low, high, rfl⟩⟩
      · exact absurd bytes_empty notEmpty
      · exact absurd (bytes_asciiString (by omega)) (notSingle _)

/-- A string without a static symbol has at least two bytes. -/
theorem two_le_of_not_static {value : String} (notStatic : staticSymbol? value = none) :
    2 ≤ byteLength value := by
  unfold staticSymbol? at notStatic
  split at notStatic
  · obtain ⟨symbol, made⟩ :=
      Symbol.exists_new staticShardId (show 0 < Symbol.indexMask.toNat by decide)
    simp [made, Except.toOption] at notStatic
  · rename_i byte single
    have ascii := ascii_of_single single
    have bounded : byte.toNat + 1 < Symbol.indexMask.toNat := by
      rw [Symbol.toNat_indexMask]
      omega
    obtain ⟨symbol, made⟩ := Symbol.exists_new staticShardId bounded
    rw [if_pos (UInt8.lt_iff_toNat_lt.mpr ascii), made] at notStatic
    simp [Except.toOption] at notStatic
  · rename_i notEmpty notSingle
    rw [byteLength]
    rcases shape : bytes value with _ | ⟨first, _ | ⟨second, rest⟩⟩
    · exact absurd shape notEmpty
    · exact absurd shape (notSingle first)
    · simp

/-- Only strings of at most one byte are static. -/
theorem not_static_of_long {value : String} (long : 1 < byteLength value) :
    staticSymbol? value = none := by
  rw [byteLength] at long
  unfold staticSymbol?
  split
  · rename_i empty
    rw [empty] at long
    exact absurd long (by decide)
  · rename_i byte single
    rw [single] at long
    exact absurd long (Nat.lt_irrefl 1)
  · rfl

namespace StringInterner

variable {build : Build}

/-- The symbol the contents of an interner give to a string. -/
def Numbered (interner : StringInterner build) (contents : Contents) (value : String)
    (symbol : Symbol) : Prop :=
  staticSymbol? value = some symbol ∨
    staticSymbol? value = none ∧ ∃ index,
      (contents (interner.shardOf value))[index]? = some value ∧
        Symbol.new (UInt8.ofNat (interner.shardOf value)) index = .ok symbol

namespace Layout

variable {interner : StringInterner build} {contents : Contents}

/-- A stored index and the symbol made from it. -/
theorem numbered_of_stored (layout : interner.Layout contents) {shardId index : Nat}
    {value : String} {symbol : Symbol} (bounded : shardId < interner.shardCount)
    (here : (contents shardId)[index]? = some value)
    (made : Symbol.new (UInt8.ofNat shardId) index = .ok symbol) :
    Numbered interner contents value symbol := by
  have member := List.mem_of_getElem? here
  have home := layout.home shardId bounded value member
  exact Or.inr ⟨(layout.proper shardId bounded value member).1, index, home ▸ here, home ▸ made⟩

/-- `resolve` answers a string exactly for the symbol that numbers it, whatever
non-zero number the symbol carries. -/
theorem resolve_eq_some (layout : interner.Layout contents) {value : String} {symbol : Symbol} :
    interner.resolve symbol = .ok (some value) ↔ Numbered interner contents value symbol := by
  have shardLimit := layout.shardCount_bounds.2
  have staticId : staticShardId.toNat = 255 := by decide
  constructor
  · intro resolved
    unfold resolve at resolved
    split at resolved
    · cases resolved
    rename_i index indexEq
    -- A zero low part either panics or gives an index past every array.
    have low : symbol.lowBits = index + 1 ∨ index = usizeRange - 1 := by
      unfold Symbol.index at indexEq
      split at indexEq
      · split at indexEq
        · cases indexEq
        · cases indexEq
          exact Or.inr rfl
      · cases indexEq
        exact Or.inl (by omega)
    split at resolved
    · rename_i isStatic
      have made : index ≤ 128 → Symbol.new staticShardId index = .ok symbol := by
        intro small
        have bits : symbol.lowBits = index + 1 := by
          rcases low with bits | huge
          · exact bits
          · rw [huge, usizeRange] at small
            omega
        exact Symbol.new_of_parts isStatic bits
      refine Or.inl (staticSymbol?_eq_some.mpr ?_)
      split at resolved
      · rename_i zero
        cases resolved
        exact ⟨index, made (by omega), Or.inl ⟨zero, rfl⟩⟩
      · split at resolved
        · rename_i nonzero small
          cases resolved
          exact ⟨index, made small, Or.inr ⟨by omega, small, rfl⟩⟩
        · cases resolved
    · split at resolved
      · cases resolved
      rename_i inRange
      have bounded : symbol.shardId < interner.shardCount := by omega
      rw [layout.get_eq bounded] at resolved
      have here : (contents symbol.shardId)[index]? = some value := by
        injection resolved
      have below := (List.getElem?_eq_some_iff.mp here).1
      have limit := (layout.dense _ bounded).bounded
      rw [layout.len _ bounded] at limit
      have bits : symbol.lowBits = index + 1 := by
        rcases low with bits | huge
        · exact bits
        · rw [usizeRange] at huge
          simp only [LockFreeStringArray.NUM_CHUNKS_mul_CHUNK_SIZE] at limit
          omega
      refine layout.numbered_of_stored bounded here (Symbol.new_of_parts ?_ bits)
      exact (layout.toNat_shardId bounded).symm
  · rintro (isStatic | ⟨_, index, here, made⟩)
    · obtain ⟨index, made, shape⟩ := staticSymbol?_eq_some.mp isStatic
      unfold resolve
      rw [Symbol.index_of_new build.profile made, Symbol.shardId_of_new made]
      rcases shape with ⟨rfl, rfl⟩ | ⟨low, high, rfl⟩
      · rfl
      · simp only [↓reduceIte, if_neg (show index ≠ 0 by omega), if_pos high]
    · have bounded := layout.shardOf_lt value
      have shard := (Symbol.shardId_of_new made).trans (layout.toNat_shardId bounded)
      unfold resolve
      rw [Symbol.index_of_new build.profile made, shard]
      simp only [staticId]
      rw [if_neg (by omega), if_neg (by omega), layout.get_eq bounded, here]

/-- `resolve_unchecked` of the symbol that numbers a string is that string. -/
theorem resolveUnchecked_eq (layout : interner.Layout contents) {value : String}
    {symbol : Symbol} (numbered : Numbered interner contents value symbol) :
    interner.resolveUnchecked symbol = value := by
  have shardLimit := layout.shardCount_bounds.2
  have staticId : staticShardId.toNat = 255 := by decide
  unfold resolveUnchecked
  rcases numbered with isStatic | ⟨_, index, here, made⟩
  · obtain ⟨index, made, shape⟩ := staticSymbol?_eq_some.mp isStatic
    rw [Symbol.shardId_of_new made, Symbol.issuedIndex_of_new made, if_pos rfl]
    rcases shape with ⟨rfl, rfl⟩ | ⟨low, high, rfl⟩
    · rfl
    · rw [if_neg (by omega)]
  · have bounded := layout.shardOf_lt value
    have shard := (Symbol.shardId_of_new made).trans (layout.toNat_shardId bounded)
    rw [shard, staticId, if_neg (by omega), Symbol.issuedIndex_of_new made]
    exact layout.getUnchecked_eq bounded here

/-- One symbol numbers one string. -/
theorem numbered_functional (layout : interner.Layout contents) {left right : String}
    {symbol : Symbol} (leftNumbered : Numbered interner contents left symbol)
    (rightNumbered : Numbered interner contents right symbol) : left = right :=
  (layout.resolveUnchecked_eq leftNumbered).symm.trans (layout.resolveUnchecked_eq rightNumbered)

end Layout

/-- With distinct contents a string has one symbol. -/
theorem numbered_injective {interner : StringInterner build} {contents : Contents}
    (distinct : contents.Distinct) {value : String} {left right : Symbol}
    (leftNumbered : Numbered interner contents value left)
    (rightNumbered : Numbered interner contents value right) : left = right := by
  rcases leftNumbered with leftStatic | ⟨leftDynamic, leftIndex, leftHere, leftMade⟩
  · rcases rightNumbered with rightStatic | ⟨rightDynamic, _⟩
    · exact Option.some.inj (leftStatic.symm.trans rightStatic)
    · rw [leftStatic] at rightDynamic
      cases rightDynamic
  · rcases rightNumbered with rightStatic | ⟨_, rightIndex, rightHere, rightMade⟩
    · rw [rightStatic] at leftDynamic
      cases leftDynamic
    · obtain ⟨leftBelow, leftValue⟩ := List.getElem?_eq_some_iff.mp leftHere
      obtain ⟨rightBelow, rightValue⟩ := List.getElem?_eq_some_iff.mp rightHere
      have sameIndex : leftIndex = rightIndex :=
        (distinct _).getElem_inj_iff.mp (leftValue.trans rightValue.symm)
      subst sameIndex
      cases leftMade.symm.trans rightMade
      rfl

namespace Layout

variable {interner : StringInterner build} {contents : Contents}

/-- With distinct contents the first index of a string is its only one. -/
theorem firstIndex_iff (distinct : contents.Distinct) {value : String} {symbol : Symbol}
    (notStatic : staticSymbol? value = none) :
    FirstIndex interner contents value symbol ↔ Numbered interner contents value symbol := by
  constructor
  · rintro ⟨index, here, _, made⟩
    exact Or.inr ⟨notStatic, index, here, made⟩
  · rintro (isStatic | ⟨_, index, here, made⟩)
    · rw [notStatic] at isStatic
      cases isStatic
    · refine ⟨index, here, ?_, made⟩
      intro earlier ordered earlierHere
      obtain ⟨below, value'⟩ := List.getElem?_eq_some_iff.mp here
      obtain ⟨earlierBelow, earlierValue⟩ := List.getElem?_eq_some_iff.mp earlierHere
      have same := (distinct _).getElem_inj_iff.mp (earlierValue.trans value'.symm)
      omega

/-- A found symbol is returned with the offset of its text. -/
theorem getShared_eq (layout : interner.Layout contents) (value : String) :
    interner.getShared value = (interner.findChecked value).map fun symbol =>
      (symbol, interner.textOffset (interner.shardOf value) symbol) := by
  unfold getShared
  dsimp only
  cases found : interner.findChecked value with
  | none => rfl
  | some symbol =>
      obtain ⟨index, here, _, made⟩ := layout.findChecked_eq_some.mp found
      have text := layout.get_eq (layout.shardOf_lt value) index
      rw [here] at text
      simp only [Symbol.issuedIndex_of_new made, text, Option.map_some]

/-- `get` computes the numbering of distinct contents. -/
theorem get_eq_some (layout : interner.Layout contents) (distinct : contents.Distinct)
    {value : String} {symbol : Symbol} :
    interner.get value = some symbol ↔ Numbered interner contents value symbol := by
  unfold StringInterner.get
  cases isStatic : staticSymbol? value with
  | some static =>
      constructor
      · rintro ⟨⟩
        exact Or.inl isStatic
      · rintro (same | ⟨dynamic, _⟩)
        · exact isStatic.symm.trans same
        · rw [isStatic] at dynamic
          cases dynamic
  | none =>
      rw [layout.getShared_eq, Option.map_map, ← firstIndex_iff distinct isStatic,
        ← layout.findChecked_eq_some]
      simp [Function.comp_def]

end Layout

end StringInterner

end Boomerang
