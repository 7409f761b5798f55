import Boomerang.Foundation.Transition
import Boomerang.Interner.Room

/-!
# Runs of calls

Calls of `get_or_intern` one after the other, each by a thread with a cache of its own.
Whatever the cache holds, a call that it answers leaves the interner as it is, and any
other call is a call of `getOrIntern`. So what holds after runs of `getOrIntern` holds
after these runs.

What an interner holds after calls is a function of the strings and of their shards, and
calls for strings that fit a region return.
-/

namespace Boomerang

open Foundation

namespace Contents

/-- The contents after a call for a string: it is found, or stored in its shard. -/
def intern (home : String → Nat) (contents : Contents) (value : String) : Contents :=
  if staticSymbol? value = none ∧ value ∉ contents (home value) then
    contents.push (home value) value
  else contents

/-- The contents after calls for some strings, one after the other. -/
def ofCalls (home : String → Nat) (values : List String) : Contents :=
  values.foldl (intern home) empty

theorem ofCalls_concat (home : String → Nat) (values : List String) (value : String) :
    ofCalls home (values ++ [value]) = (ofCalls home values).intern home value := by
  rw [ofCalls, List.foldl_append]
  rfl

/-- The strings stored are those that are not static, in their shards. -/
theorem mem_ofCalls {home : String → Nat} {values : List String} {value : String} {shardId : Nat} :
    value ∈ ofCalls home values shardId ↔
      value ∈ values ∧ staticSymbol? value = none ∧ home value = shardId := by
  induction values using List.reverseRecOn with
  | nil =>
      constructor
      · intro member
        cases member
      · intro held
        cases held.1
  | append_singleton values last ih =>
      rw [ofCalls_concat, intern, List.mem_append, List.mem_singleton]
      split
      · rename_i fresh
        rw [mem_push, ih]
        constructor
        · rintro (⟨old, notStatic, here⟩ | ⟨rfl, rfl⟩)
          · exact ⟨Or.inl old, notStatic, here⟩
          · exact ⟨Or.inr rfl, fresh.1, rfl⟩
        · rintro ⟨old | rfl, notStatic, rfl⟩
          · exact Or.inl ⟨old, notStatic, rfl⟩
          · exact Or.inr ⟨rfl, rfl⟩
      · rename_i known
        constructor
        · intro member
          obtain ⟨old, rest⟩ := ih.mp member
          exact ⟨Or.inl old, rest⟩
        · rintro ⟨old | rfl, notStatic, rfl⟩
          · exact ih.mpr ⟨old, notStatic, rfl⟩
          · by_contra absent
            exact known ⟨notStatic, absent⟩

/-- Calls store no more than their strings take up. -/
theorem recordsSize_ofCalls_le (home : String → Nat) (values : List String) (shardId : Nat) :
    recordsSize (ofCalls home values shardId) ≤ recordsSize values := by
  induction values using List.reverseRecOn with
  | nil => exact Nat.le_refl 0
  | append_singleton values value ih =>
      rw [ofCalls_concat, intern, recordsSize_append, recordsSize_singleton]
      split
      · by_cases isHome : shardId = home value
        · rw [isHome] at ih ⊢
          rw [push_self, recordsSize_append, recordsSize_singleton]
          exact Nat.add_le_add_right ih _
        · rw [push_other _ _ isHome]
          exact Nat.le_trans ih (Nat.le_add_right _ _)
      · exact Nat.le_trans ih (Nat.le_add_right _ _)

end Contents

namespace StringInterner

variable {build : Build}

/-- A call of `get_or_intern` that returns, by a thread with any cache. -/
def Returns (interner : StringInterner build) (value : String) (next : StringInterner build) :
    Prop :=
  ∃ cache symbol after, getOrInternCached true cache interner value = .ok symbol (next, after)

/-- A call of `get_or_intern` that panics past the cache. -/
def Panics (interner : StringInterner build) (value : String) (next : StringInterner build) :
    Prop :=
  ∃ fault, interner.getOrIntern value = .error fault next

/-- A call of `get_or_intern`, however it ends. -/
def Calls (interner : StringInterner build) (value : String) (next : StringInterner build) :
    Prop :=
  interner.Returns value next ∨ interner.Panics value next

/-- A call that the cache does not answer is one without the probe. -/
theorem getOrInternCached_of_missed {cache : ThreadLocalCache} {interner : StringInterner build}
    {value : String} (missed : cache.probe interner value = .ok none) :
    getOrInternCached true cache interner value = getOrInternCached false cache interner value := by
  simp only [getOrInternCached, missed, if_true, if_false, reduceCtorEq]

/-- A call that returns without its probe is one of `getOrIntern`. -/
theorem getOrIntern_of_cached {cache after : ThreadLocalCache}
    {interner next : StringInterner build} {value : String} {symbol : Symbol}
    (success : getOrInternCached false cache interner value = .ok symbol (next, after)) :
    interner.getOrIntern value = .ok symbol next := by
  rw [← getOrInternCached_false cache, success]
  rfl

/-- A call that returns was answered by the cache or is one of `getOrIntern`. -/
theorem Returns.eq_or {interner next : StringInterner build} {value : String}
    (returns : interner.Returns value next) :
    next = interner ∨ ∃ symbol, interner.getOrIntern value = .ok symbol next := by
  obtain ⟨cache, symbol, after, success⟩ := returns
  cases isStatic : staticSymbol? value with
  | some static =>
      rw [getOrInternCached, isStatic] at success
      cases success
      exact Or.inl rfl
  | none =>
      cases probed : cache.probe interner value with
      | error fault =>
          simp only [getOrInternCached, isStatic, probed, if_true] at success
          cases success
      | ok answer =>
          cases answer with
          | some found =>
              simp only [getOrInternCached, isStatic, probed, if_true] at success
              cases success
              exact Or.inl rfl
          | none =>
              rw [getOrInternCached_of_missed probed] at success
              exact Or.inr ⟨symbol, getOrIntern_of_cached success⟩

/-- A cache without a slot of the interner answers no call. -/
theorem probe_of_unknown {cache : ThreadLocalCache} {interner : StringInterner build}
    (unknown : ∀ idx, (cache idx).internerId ≠ interner.internerId) (value : String) :
    cache.probe interner value = .ok none := by
  have noSlot : cache.candidate interner value = none := by
    refine List.find?_eq_none.mpr fun slot member => ?_
    obtain ⟨idx, _, rfl⟩ := List.mem_map.mp member
    simp [unknown idx]
  rw [ThreadLocalCache.probe, noSlot]

/-- A cache of another interner answers no call. -/
theorem exists_missed (interner : StringInterner build) :
    ∃ cache : ThreadLocalCache, ∀ value, cache.probe interner value = .ok none :=
  ⟨fun _ => ⟨interner.internerId + 1, 0, 0, 0, 0, 0⟩,
    probe_of_unknown fun _ => Nat.succ_ne_self _⟩

/-- Every call of `getOrIntern` is one by a thread whose cache does not answer it. -/
theorem exists_cached_of_getOrIntern {interner next : StringInterner build} {value : String}
    {symbol : Symbol} (success : interner.getOrIntern value = .ok symbol next) :
    ∃ cache after, cache.probe interner value = .ok none ∧
      getOrInternCached true cache interner value = .ok symbol (next, after) := by
  obtain ⟨cache, missed⟩ := interner.exists_missed
  rw [← getOrInternCached_false cache] at success
  cases cached : getOrInternCached false cache interner value with
  | error fault state =>
      rw [cached] at success
      cases success
  | ok found state =>
      rw [cached] at success
      cases success
      exact ⟨cache, state.2, missed value,
        (getOrInternCached_of_missed (missed value)).trans cached⟩

theorem Returns.of_getOrIntern {interner next : StringInterner build} {value : String}
    {symbol : Symbol} (success : interner.getOrIntern value = .ok symbol next) :
    interner.Returns value next := by
  obtain ⟨cache, after, _, cached⟩ := exists_cached_of_getOrIntern success
  exact ⟨cache, symbol, after, cached⟩

/-- The interner and its contents after a call that returns. -/
theorem Holds.returns {interner next : StringInterner build} {contents : Contents}
    {value : String} (holds : interner.Holds contents)
    (storable : MemoryPool.Storable build.profile value) (returns : interner.Returns value next) :
    ∃ grown, next.Holds grown ∧ SameShape interner next ∧ Contents.Grows contents grown := by
  rcases returns.eq_or with rfl | ⟨symbol, success⟩
  · exact ⟨contents, holds, SameShape.refl _, Contents.Grows.refl _⟩
  · obtain ⟨grown, interned⟩ := holds.layout.getOrIntern_ok holds.distinct storable success
    exact ⟨grown, interned.holds holds, interned.shape, interned.grows⟩

/-- The interner and its contents after a run of calls that return. -/
theorem Holds.returns_run {interner last : StringInterner build} {contents : Contents}
    {values : List String} (holds : interner.Holds contents)
    (run : Steps Returns interner values last)
    (storable : ∀ value ∈ values, MemoryPool.Storable build.profile value) :
    ∃ grown, last.Holds grown ∧ SameShape interner last ∧ Contents.Grows contents grown := by
  induction run with
  | refl => exact ⟨contents, holds, SameShape.refl _, Contents.Grows.refl _⟩
  | step _ transition ih =>
      obtain ⟨middle, middleHolds, shape, grows⟩ :=
        ih fun value member => storable value (List.mem_append_left _ member)
      obtain ⟨grown, grownHolds, moreShape, more⟩ := middleHolds.returns
        (storable _ (List.mem_append_right _ List.mem_cons_self)) transition
      exact ⟨grown, grownHolds, shape.trans moreShape, grows.trans more⟩

/-- A string that has no symbol is not static and not stored. -/
theorem Layout.absent_of_get {interner : StringInterner build} {contents : Contents}
    {value : String} (layout : interner.Layout contents) (unknown : interner.get value = none) :
    staticSymbol? value = none ∧ interner.findChecked value = none := by
  cases isStatic : staticSymbol? value with
  | some symbol =>
      rw [StringInterner.get, isStatic] at unknown
      cases unknown
  | none =>
      rw [StringInterner.get, isStatic, layout.getShared_eq] at unknown
      exact ⟨rfl, by simpa using unknown⟩

/-- An interner after calls for some strings, none of which panicked. -/
structure Called (first : StringInterner build) (values : List String)
    (last : StringInterner build) : Prop where
  holds : last.Holds (Contents.ofCalls first.shardOf values)
  shape : SameShape first last
  intact : ∀ shardId, (last.pool.cursors shardId).poisoned = false

theorem Created.called {interner : StringInterner build} {internerId count : Nat}
    (created : Created interner internerId count) : Called interner [] interner :=
  ⟨created.holds, SameShape.refl _, created.intact⟩

namespace Called

variable {first last next : StringInterner build} {values : List String} {value : String}
variable {symbol : Symbol}

theorem home (called : Called first values last) : last.shardOf = first.shardOf :=
  funext called.shape.shardOf

/-- A call that returns finds its string or stores it, as the contents say. -/
theorem cases (called : Called first values last)
    (success : last.getOrIntern value = .ok symbol next) :
    next = last ∧ Contents.ofCalls first.shardOf (values ++ [value]) =
        Contents.ofCalls first.shardOf values ∨
      staticSymbol? value = none ∧
        value ∉ Contents.ofCalls first.shardOf values (first.shardOf value) ∧
        ∃ offset, last.insertVacant value = .ok (symbol, offset) next ∧
          Contents.ofCalls first.shardOf (values ++ [value]) =
            (Contents.ofCalls first.shardOf values).push (first.shardOf value) value := by
  rw [Contents.ofCalls_concat, Contents.intern]
  rcases called.holds.layout.getOrIntern_cases called.holds.distinct success with
    ⟨numbered, rfl⟩ | ⟨notStatic, absent, offset, inserted⟩
  · refine Or.inl ⟨rfl, if_neg ?_⟩
    rintro ⟨notStatic, absent⟩
    rcases numbered with isStatic | ⟨_, index, here, _⟩
    · rw [notStatic] at isStatic
      cases isStatic
    · rw [called.home] at here
      exact absent (List.mem_of_getElem? here)
  · rw [called.home] at absent
    exact Or.inr ⟨notStatic, absent, offset, inserted, if_pos ⟨notStatic, absent⟩⟩

/-- One more call that returns. -/
theorem step (called : Called first values last)
    (storable : MemoryPool.Storable build.profile value)
    (success : last.getOrIntern value = .ok symbol next) :
    Called first (values ++ [value]) next := by
  have layout := called.holds.layout
  rcases called.cases success with ⟨rfl, same⟩ | ⟨notStatic, absent, offset, inserted, grown⟩
  · exact ⟨same ▸ called.holds, called.shape, called.intact⟩
  · have done := insertVacant_ok layout.sized storable inserted
    obtain ⟨nextLayout, _⟩ := layout.inserted notStatic storable done
    rw [called.home, ← grown] at nextLayout
    refine ⟨called.holds.of_sameShape done.shape nextLayout ?_, called.shape.trans done.shape, ?_⟩
    · rw [grown]
      exact called.holds.distinct.push absent
    · intro shardId
      obtain ⟨place, _, allocated⟩ := done.pool
      obtain ⟨_, _, _, _, poolEq⟩ := MemoryPool.alloc_ok layout.sized storable allocated
      rw [poolEq]
      have intact := called.intact shardId
      simp only [MemoryPool.store]
      split <;> exact intact

/-- A call returns if the strings stored then fit. -/
theorem returns (called : Called first values last)
    (room : ∀ shardId < first.shardCount,
      recordsSize (Contents.ofCalls first.shardOf (values ++ [value]) shardId) ≤
        first.pool.regionSize)
    (indexRoom : ∀ shardId < first.shardCount,
      (Contents.ofCalls first.shardOf (values ++ [value]) shardId).length ≤
        Symbol.indexMask.toNat) : ∃ symbol next, last.getOrIntern value = .ok symbol next := by
  have layout := called.holds.layout
  have bounded : first.shardOf value < first.shardCount := by
    rw [← called.home, ← called.shape.shardCount]
    exact layout.shardOf_lt value
  cases known : last.get value with
  | some symbol =>
      have numbered := (layout.get_eq_some called.holds.distinct).mp known
      exact ⟨symbol, last, layout.getOrIntern_of_numbered called.holds.distinct numbered⟩
  | none =>
      obtain ⟨notStatic, missing⟩ := layout.absent_of_get known
      have absent := layout.findChecked_eq_none.mp missing
      rw [called.home] at absent
      have grown := Contents.ofCalls_concat first.shardOf values value
      rw [Contents.intern, if_pos ⟨notStatic, absent⟩] at grown
      have roomHere := room _ bounded
      have indexHere := indexRoom _ bounded
      rw [grown, Contents.push_self, recordsSize_append, recordsSize_singleton] at roomHere
      rw [grown, Contents.push_self, List.length_append, List.length_singleton] at indexHere
      obtain ⟨symbol, offset, next, inserted, _⟩ := layout.insertVacant_of_room value
        (called.intact _) (by rw [called.home, called.shape.regionSize]; exact roomHere)
        (by rw [called.home]; exact indexHere)
      refine ⟨symbol, next, ?_⟩
      rw [layout.getOrIntern_absent notStatic missing]
      simp only [inserted]

/-- As long as the records of all strings fit a megabyte, the next call returns. -/
theorem exists_next (called : Called first values last) (wide : 2 ^ 20 ≤ first.pool.regionSize)
    (fits : recordsSize (values ++ [value]) ≤ 2 ^ 20) :
    ∃ symbol next, last.getOrIntern value = .ok symbol next ∧
      Called first (values ++ [value]) next := by
  have sizes := Contents.recordsSize_ofCalls_le first.shardOf (values ++ [value])
  obtain ⟨symbol, next, success⟩ := called.returns
    (fun shardId _ => Nat.le_trans (sizes shardId) (Nat.le_trans fits wide)) fun shardId _ => by
      have short :=
        length_le_recordsSize (Contents.ofCalls first.shardOf (values ++ [value]) shardId)
      have limit := Symbol.toNat_indexMask
      have size := sizes shardId
      omega
  refine ⟨symbol, next, success, called.step (Or.inr ?_) success⟩
  rw [recordsSize_append, recordsSize_singleton] at fits
  have size := le_paddedSize (byteLength value)
  have range : u32Range = 2 ^ 32 := rfl
  omega

/-- The string of every call has a symbol, which resolves to it. -/
theorem exists_symbol (called : Called first values last) (member : value ∈ values) :
    ∃ symbol, last.get value = some symbol ∧ last.resolve symbol = .ok (some value) := by
  have layout := called.holds.layout
  cases known : last.get value with
  | some symbol =>
      exact ⟨symbol, rfl, layout.resolve_eq_some.mpr
        ((layout.get_eq_some called.holds.distinct).mp known)⟩
  | none =>
      obtain ⟨notStatic, missing⟩ := layout.absent_of_get known
      refine absurd (Contents.mem_ofCalls.mpr ⟨member, notStatic, ?_⟩)
        (layout.findChecked_eq_none.mp missing)
      rw [called.home]

/-- The lookup of a string that no call has passed misses. -/
theorem readSection_eq_none (called : Called first values last) (fresh : value ∉ values) :
    last.readSection value = .ok none := by
  have missing : last.findChecked value = none := by
    rw [called.holds.layout.findChecked_eq_none, Contents.mem_ofCalls]
    exact fun stored => fresh stored.1
  rw [called.holds.layout.readSection_eq, ← called.holds.layout.findChecked_eq_findUnchecked,
    missing]
  rfl

/-- So does the write-locked section, which then stores the string, or finds the one
that another call has stored since. -/
theorem exists_writeSection (called : Called first values last)
    (wide : 2 ^ 20 ≤ first.pool.regionSize) (notStatic : staticSymbol? value = none)
    (fits : recordsSize (values ++ [value]) ≤ 2 ^ 20) :
    ∃ found next, last.writeSection value = .ok found next ∧
      Called first (values ++ [value]) next := by
  have layout := called.holds.layout
  obtain ⟨symbol, next, success, after⟩ := called.exists_next wide fits
  rcases layout.getOrIntern_cases called.holds.distinct success with
    ⟨numbered, rfl⟩ | ⟨_, absent, offset, inserted⟩
  · have found := layout.findChecked_eq_some.mpr
      ((Layout.firstIndex_iff called.holds.distinct notStatic).mpr numbered)
    refine ⟨(symbol, next.textOffset (next.shardOf value) symbol), next, ?_, after⟩
    rw [writeSection, found]
  · refine ⟨(symbol, offset), next, ?_, after⟩
    rw [writeSection, layout.findChecked_eq_none.mpr absent]
    exact inserted

end Called

/-- A call past the cache that returns. -/
def Answers (interner : StringInterner build) (value : String) (next : StringInterner build) :
    Prop :=
  ∃ symbol, interner.getOrIntern value = .ok symbol next

/-- A new interner answers calls for strings whose records fit a megabyte. -/
theorem Created.exists_calls {interner : StringInterner build} {internerId count : Nat}
    (created : Created interner internerId count) {values : List String}
    (fits : recordsSize values ≤ 2 ^ 20) :
    ∃ last, Steps Answers interner values last ∧ Called interner values last := by
  induction values using List.reverseRecOn with
  | nil => exact ⟨interner, .refl, created.called⟩
  | append_singleton values value ih =>
      have fewer : recordsSize values ≤ 2 ^ 20 := by
        rw [recordsSize_append] at fits
        omega
      obtain ⟨middle, run, called⟩ := ih fewer
      obtain ⟨symbol, last, success, next⟩ := called.exists_next created.regionSize_ge fits
      exact ⟨last, .step run ⟨symbol, success⟩, next⟩

/-- They are calls by threads whose caches do not answer them. -/
theorem returns_of_answers {interner last : StringInterner build} {values : List String}
    (run : Steps Answers interner values last) : Steps Returns interner values last :=
  run.mono fun _ _ _ ⟨_, success⟩ => .of_getOrIntern success

end StringInterner

end Boomerang
