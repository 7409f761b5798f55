import Boomerang.Interner.LookupCache

/-!
# Calls through the cache

A call through the cache is compared with the same call without the cache probe. The
two agree unless the probe is misread, and then they differ: the symbol that the
misread probe returns belongs to another string.
-/

namespace Boomerang

open Foundation

/-- Forget part of the state a call leaves. -/
def Outcome.mapState {State Part Value : Type} (part : State → Part) :
    Outcome State Value → Outcome Part Value
  | .ok value state => .ok value (part state)
  | .error fault state => .error fault (part state)

namespace StringInterner

variable {build : Build}

/-- Without its probe a call is `getOrIntern`, whatever the cache. -/
theorem getOrInternCached_false (cache : ThreadLocalCache) (interner : StringInterner build)
    (value : String) :
    (getOrInternCached false cache interner value).mapState Prod.fst =
      interner.getOrIntern value := by
  unfold getOrInternCached getOrIntern
  cases staticSymbol? value with
  | some symbol => rfl
  | none =>
      cases shared : interner.internShared value <;> simp [Outcome.mapState]

/-- Without its probe a call is `get`, whatever the cache. -/
theorem getCached_false (cache : ThreadLocalCache) (interner : StringInterner build)
    (value : String) :
    (getCached false cache interner value).map Prod.fst = .ok (interner.get value) := by
  unfold getCached StringInterner.get
  cases staticSymbol? value with
  | some symbol => rfl
  | none => cases shared : interner.getShared value <;> simp [Except.map]

/-- A slot after a fill is the old one, or is filled for the string. -/
theorem cachedAs_fill {interner : StringInterner build} {contents : Contents}
    (layout : interner.Layout contents) (cache : ThreadLocalCache) {value : String}
    {symbol : Symbol} (notStatic : staticSymbol? value = none)
    (numbered : Numbered interner contents value symbol) (idx : Nat) :
    let filled := cache.fill interner value symbol
      (interner.textOffset (interner.shardOf value) symbol)
    filled idx = cache idx ∨ CachedAs interner contents (filled idx) value symbol := by
  have small : byteLength value < u32Range := by
    rcases numbered with isStatic | ⟨_, index, here, _⟩
    · rw [notStatic] at isStatic
      cases isStatic
    · have proper := layout.proper _ (layout.shardOf_lt value) value (List.mem_of_getElem? here)
      omega
  simp only [ThreadLocalCache.fill]
  split
  · exact Or.inr ⟨rfl, notStatic, numbered, Nat.mod_eq_of_lt small, rfl, rfl, rfl⟩
  · exact Or.inl rfl

namespace Layout

variable {interner next : StringInterner build} {contents : Contents}
variable {cache after : ThreadLocalCache} {value : String}

/-- A string that has a symbol gets it from `get_or_intern`, and nothing changes. -/
theorem getOrIntern_of_numbered (layout : interner.Layout contents) (distinct : contents.Distinct)
    {symbol : Symbol} (numbered : Numbered interner contents value symbol) :
    interner.getOrIntern value = .ok symbol interner := by
  unfold getOrIntern internShared
  cases isStatic : staticSymbol? value with
  | some static =>
      rcases numbered with same | ⟨notStatic, _⟩
      · cases isStatic.symm.trans same
        rfl
      · rw [isStatic] at notStatic
        cases notStatic
  | none =>
      have found :=
        layout.findUnchecked_eq_some.mpr ((firstIndex_iff distinct isStatic).mpr numbered)
      simp only [layout.readSection_eq, found, Option.map_some]

/-- Unless its probe is misread, a call of `get_or_intern` through the cache is one
without the probe. -/
theorem getOrInternCached_true (layout : interner.Layout contents) (distinct : contents.Distinct)
    (faithful : CacheFaithful cache interner contents) (clean : ¬ Misread cache interner value) :
    (getOrInternCached true cache interner value).mapState Prod.fst =
      interner.getOrIntern value := by
  cases isStatic : staticSymbol? value with
  | some symbol => simp only [getOrInternCached, getOrIntern, isStatic, Outcome.mapState]
  | none =>
      rcases layout.probe_ok faithful isStatic clean with missed | ⟨symbol, hit, numbered⟩
      · rw [← getOrInternCached_false cache interner value]
        simp only [getOrInternCached, isStatic, missed, if_true, if_false, reduceCtorEq]
      · rw [layout.getOrIntern_of_numbered distinct numbered]
        simp only [getOrInternCached, isStatic, hit, if_true, Outcome.mapState]

/-- Unless its probe is misread, a call of `get` through the cache is one without the
probe. -/
theorem getCached_true (layout : interner.Layout contents) (distinct : contents.Distinct)
    (faithful : CacheFaithful cache interner contents) (clean : ¬ Misread cache interner value) :
    (getCached true cache interner value).map Prod.fst = .ok (interner.get value) := by
  cases isStatic : staticSymbol? value with
  | some symbol => simp only [getCached, StringInterner.get, isStatic, Except.map]
  | none =>
      rcases layout.probe_ok faithful isStatic clean with missed | ⟨symbol, hit, numbered⟩
      · rw [← getCached_false cache interner value]
        simp only [getCached, isStatic, missed, if_true, if_false, reduceCtorEq]
      · rw [(layout.get_eq_some distinct).mpr numbered]
        simp only [getCached, isStatic, hit, if_true, Except.map]

/-- A misread probe makes `get_or_intern` return a symbol it does not return without
the probe. -/
theorem getOrInternCached_misread (layout : interner.Layout contents)
    (distinct : contents.Distinct) (faithful : CacheFaithful cache interner contents)
    (storable : MemoryPool.Storable build.profile value)
    (misread : Misread cache interner value) :
    ∃ symbol, getOrInternCached true cache interner value = .ok symbol (interner, cache) ∧
      ∀ last, interner.getOrIntern value ≠ .ok symbol last := by
  obtain ⟨symbol, stored, probed, different, numbered⟩ := layout.probe_misread faithful misread
  have notStatic : staticSymbol? value = none :=
    not_static_of_long (Nat.lt_trans (by decide) misread.1)
  refine ⟨symbol, by simp only [getOrInternCached, notStatic, probed, if_true], ?_⟩
  intro last success
  obtain ⟨grown, interned⟩ := layout.getOrIntern_ok distinct storable success
  have kept := numbered.mono (interned.shape.shardOf stored) (interned.grows _)
  exact different (interned.layout.numbered_functional kept interned.numbered)

/-- A misread probe makes `get` return a symbol it does not return without the probe. -/
theorem getCached_misread (layout : interner.Layout contents)
    (distinct : contents.Distinct) (faithful : CacheFaithful cache interner contents)
    (misread : Misread cache interner value) :
    ∃ symbol, getCached true cache interner value = .ok (some symbol, cache) ∧
      interner.get value ≠ some symbol := by
  obtain ⟨symbol, stored, probed, different, numbered⟩ := layout.probe_misread faithful misread
  have notStatic : staticSymbol? value = none :=
    not_static_of_long (Nat.lt_trans (by decide) misread.1)
  refine ⟨symbol, by simp only [getCached, notStatic, probed, if_true], ?_⟩
  intro found
  exact different (layout.numbered_functional numbered ((layout.get_eq_some distinct).mp found))

/-- What a call of `get_or_intern` through the cache does to the interner and the cache. -/
theorem getOrInternCached_ok (layout : interner.Layout contents) (distinct : contents.Distinct)
    (faithful : CacheFaithful cache interner contents)
    (storable : MemoryPool.Storable build.profile value) (clean : ¬ Misread cache interner value)
    {symbol : Symbol}
    (success : getOrInternCached true cache interner value = .ok symbol (next, after)) :
    ∃ grown, Interned interner contents value symbol next grown ∧
      (after = cache ∨ staticSymbol? value = none ∧
        after = cache.fill next value symbol (next.textOffset (next.shardOf value) symbol)) := by
  cases isStatic : staticSymbol? value with
  | some static =>
      simp only [getOrInternCached, isStatic] at success
      cases success
      exact ⟨contents, layout.interned_of_numbered distinct (Or.inl isStatic), Or.inl rfl⟩
  | none =>
      rcases layout.probe_ok faithful isStatic clean with missed | ⟨found, hit, numbered⟩
      · simp only [getOrInternCached, isStatic, missed, if_true] at success
        cases shared : interner.internShared value with
        | error fault last =>
            rw [shared] at success
            cases success
        | ok pair last =>
            rw [shared] at success
            cases success
            obtain ⟨grown, interned, offset⟩ :=
              layout.internShared_ok distinct isStatic storable shared
            refine ⟨grown, interned, Or.inr ⟨rfl, ?_⟩⟩
            rw [interned.shape.shardOf, ← offset]
      · simp only [getOrInternCached, isStatic, hit, if_true] at success
        cases success
        exact ⟨contents, layout.interned_of_numbered distinct numbered, Or.inl rfl⟩

/-- What a call of `get` through the cache does to the cache. -/
theorem getCached_ok (layout : interner.Layout contents) (distinct : contents.Distinct)
    (faithful : CacheFaithful cache interner contents) (clean : ¬ Misread cache interner value)
    {found : Option Symbol} (success : getCached true cache interner value = .ok (found, after)) :
    after = cache ∨ staticSymbol? value = none ∧ ∃ symbol,
      Numbered interner contents value symbol ∧
        after = cache.fill interner value symbol
          (interner.textOffset (interner.shardOf value) symbol) := by
  cases isStatic : staticSymbol? value with
  | some static =>
      simp only [getCached, isStatic] at success
      cases success
      exact Or.inl rfl
  | none =>
      rcases layout.probe_ok faithful isStatic clean with missed | ⟨symbol, hit, numbered⟩
      · simp only [getCached, isStatic, missed, if_true, layout.getShared_eq] at success
        cases checked : interner.findChecked value with
        | none =>
            rw [checked] at success
            cases success
            exact Or.inl rfl
        | some symbol =>
            rw [checked] at success
            cases success
            have numbered :=
              (firstIndex_iff distinct isStatic).mp (layout.findChecked_eq_some.mp checked)
            exact Or.inr ⟨rfl, symbol, numbered, rfl⟩
      · simp only [getCached, isStatic, hit, if_true] at success
        cases success
        exact Or.inl rfl

end Layout

end StringInterner

end Boomerang
