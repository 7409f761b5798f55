import Boomerang.Interner.Interning

/-!
# What the schema needs of an interner

The schema builder, the codec and the merge use an interner through `get_or_intern`,
`get` and `resolve` only. A lawful interner is an injective numbering of the strings
it has interned, which later calls keep. Lookups are those at the shard tables.
-/

namespace Boomerang

/-- The operations of an interner that the rest of the program calls. -/
class InternerOps (Interner : Type) where
  getOrIntern : Interner → String → Outcome Interner Symbol
  get : Interner → String → Option Symbol
  resolve : Interner → Symbol → Except Fault (Option String)

/-- The symbol stands for the string. -/
def Names {Interner : Type} [InternerOps Interner] (interner : Interner) (symbol : Symbol)
    (value : String) : Prop :=
  InternerOps.resolve interner symbol = .ok (some value)

/-- An interner whose symbols keep standing for the strings they were issued for. -/
class LawfulInterner (Interner : Type) [InternerOps Interner] where
  Valid : Interner → Prop
  /-- Strings the interner stores whole. -/
  Storable : String → Prop
  get_eq_some {interner : Interner} {value : String} {symbol : Symbol} :
    Valid interner →
      (InternerOps.get interner value = some symbol ↔ Names interner symbol value)
  getOrIntern_ok {interner next : Interner} {value : String} {symbol : Symbol} :
    Valid interner → Storable value →
      InternerOps.getOrIntern interner value = .ok symbol next →
      Valid next ∧ Names next symbol value ∧
        ∀ old text, Names interner old text → Names next old text

section Laws

variable {Interner : Type} [InternerOps Interner] {interner : Interner}
variable {left right : Symbol} {value other : String}

/-- A symbol stands for at most one string. -/
theorem Names.functional (first : Names interner left value) (second : Names interner left other) :
    value = other :=
  Option.some.inj (Except.ok.inj (first.symm.trans second))

/-- A string has at most one symbol. -/
theorem Names.injective [LawfulInterner Interner] (valid : LawfulInterner.Valid interner)
    (first : Names interner left value) (second : Names interner right value) : left = right :=
  Option.some.inj (((LawfulInterner.get_eq_some valid).mpr first).symm.trans
    ((LawfulInterner.get_eq_some valid).mpr second))

/-- Symbols are equal exactly when their strings are. -/
theorem Names.symbol_eq_iff [LawfulInterner Interner] (valid : LawfulInterner.Valid interner)
    (first : Names interner left value) (second : Names interner right other) :
    left = right ↔ value = other := by
  constructor
  · rintro rfl
    exact first.functional second
  · rintro rfl
    exact first.injective valid second

end Laws

namespace StringInterner

variable {build : Build}

instance : InternerOps (StringInterner build) where
  getOrIntern := getOrIntern
  get := get
  resolve := resolve

/-- The sharded interner is lawful on the strings its arena stores whole. -/
instance : LawfulInterner (StringInterner build) where
  Valid := fun interner => ∃ contents, interner.Holds contents
  Storable := MemoryPool.Storable build.profile
  get_eq_some := by
    rintro interner value symbol ⟨contents, holds⟩
    rw [Names]
    exact (holds.layout.get_eq_some holds.distinct).trans holds.layout.resolve_eq_some.symm
  getOrIntern_ok := by
    rintro interner next value symbol ⟨contents, holds⟩ storable success
    obtain ⟨grown, interned⟩ := holds.layout.getOrIntern_ok holds.distinct storable success
    refine ⟨⟨grown, interned.holds holds⟩,
      interned.layout.resolve_eq_some.mpr interned.numbered, ?_⟩
    intro old text named
    exact interned.layout.resolve_eq_some.mpr ((holds.layout.resolve_eq_some.mp named).mono
      (interned.shape.shardOf text) (interned.grows _))

end StringInterner

end Boomerang
