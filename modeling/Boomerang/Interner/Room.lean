import Boomerang.Interner.CachedCalls

/-!
# Calls that do not panic

Every region holds a megabyte, whatever the number of shards. While the records of all
strings fit one region there is room for each of them in its own, and no call of
`get_or_intern` panics.
-/

namespace Boomerang.StringInterner

open Foundation

variable {build : Build}

/-- The records of every shard take up at most some bytes of a region. -/
structure UsesAtMost (interner : StringInterner build) (used : Nat) : Prop where
  holds : ∃ contents, interner.Holds contents ∧ ∀ shardId, recordsSize (contents shardId) ≤ used
  megabyte : 2 ^ 20 ≤ interner.pool.regionSize
  intact : ∀ shardId, (interner.pool.cursors shardId).poisoned = false

theorem Created.usesNothing {interner : StringInterner build} {internerId count : Nat}
    (created : Created interner internerId count) : interner.UsesAtMost 0 :=
  ⟨⟨_, created.holds, fun _ => Nat.le_refl 0⟩, created.regionSize_ge, created.intact⟩

theorem UsesAtMost.mono {interner : StringInterner build} {used more : Nat}
    (uses : interner.UsesAtMost used) (le : used ≤ more) : interner.UsesAtMost more := by
  obtain ⟨contents, holds, sizes⟩ := uses.holds
  exact ⟨⟨contents, holds, fun shardId => Nat.le_trans (sizes shardId) le⟩, uses.megabyte,
    uses.intact⟩

/-- There are fewer strings than bytes. -/
theorem length_le_recordsSize (strings : List String) : strings.length ≤ recordsSize strings := by
  induction strings using List.reverseRecOn with
  | nil => exact Nat.le_refl 0
  | append_singleton strings value ih =>
      have positive := paddedSize_pos (byteLength value)
      rw [List.length_append, recordsSize_append, recordsSize_singleton, List.length_singleton]
      omega

/-- A new string is stored. -/
theorem UsesAtMost.insertVacant {interner : StringInterner build} {used : Nat}
    (uses : interner.UsesAtMost used) {value : String}
    (fits : used + paddedSize (byteLength value) ≤ 2 ^ 20) :
    ∃ symbol offset next, interner.insertVacant value = .ok (symbol, offset) next ∧
      ∀ shardId, (next.pool.cursors shardId).poisoned = false := by
  obtain ⟨contents, holds, sizes⟩ := uses.holds
  have megabyte := uses.megabyte
  have size := sizes (interner.shardOf value)
  have count := length_le_recordsSize (contents (interner.shardOf value))
  have limit := Symbol.toNat_indexMask
  obtain ⟨symbol, offset, next, inserted, kept⟩ := holds.layout.insertVacant_of_room value
    (uses.intact _) (by omega) (by omega)
  exact ⟨symbol, offset, next, inserted, fun shardId => (kept shardId).trans (uses.intact shardId)⟩

/-- A call returns and uses up the record of its string at most. -/
theorem UsesAtMost.getOrIntern {interner : StringInterner build} {used : Nat}
    (uses : interner.UsesAtMost used) {value : String}
    (fits : used + paddedSize (byteLength value) ≤ 2 ^ 20) :
    ∃ symbol next, interner.getOrIntern value = .ok symbol next ∧
      next.UsesAtMost (used + paddedSize (byteLength value)) := by
  obtain ⟨contents, holds, sizes⟩ := uses.holds
  have known : ∀ symbol, interner.Numbered contents value symbol →
      ∃ symbol next, interner.getOrIntern value = .ok symbol next ∧
        next.UsesAtMost (used + paddedSize (byteLength value)) := fun symbol numbered =>
    ⟨symbol, interner, holds.layout.getOrIntern_of_numbered holds.distinct numbered,
      uses.mono (Nat.le_add_right _ _)⟩
  cases isStatic : staticSymbol? value with
  | some symbol => exact known symbol (Or.inl isStatic)
  | none =>
  cases found : interner.findChecked value with
  | some symbol =>
      exact known symbol ((Layout.firstIndex_iff holds.distinct isStatic).mp
        (holds.layout.findChecked_eq_some.mp found))
  | none =>
      have size := le_paddedSize (byteLength value)
      have storable : MemoryPool.Storable build.profile value := Or.inr (by
        simp only [u32Range]
        omega)
      obtain ⟨symbol, offset, next, inserted, intact⟩ := uses.insertVacant fits
      have success : interner.getOrIntern value = .ok symbol next := by
        rw [holds.layout.getOrIntern_absent isStatic found]
        simp only [inserted]
      obtain ⟨grown, interned⟩ := holds.layout.getOrIntern_ok holds.distinct storable success
      refine ⟨symbol, next, success, ⟨grown, interned.holds holds, ?_⟩, ?_, intact⟩
      · intro shardId
        rcases interned.contents with ⟨_, _, rfl⟩ | ⟨_, rfl⟩
        · exact Nat.le_trans (sizes shardId) (Nat.le_add_right _ _)
        by_cases home : shardId = interner.shardOf value
        · rw [home, Contents.push_self, recordsSize_append, recordsSize_singleton]
          exact Nat.add_le_add_right (sizes _) _
        · rw [Contents.push_other _ _ home]
          exact Nat.le_trans (sizes shardId) (Nat.le_add_right _ _)
      · rw [interned.shape.regionSize]
        exact uses.megabyte

end Boomerang.StringInterner
