import Mathlib.Data.List.Nodup

/-!
# Catalogs

A catalog is a list of items of which no two have one key. The operations keep that;
each is described by what it does to the item of a key.
-/

namespace Boomerang.Foundation

variable {Item Key : Type} {keyOf : Item → Key}

/-- Items with distinct keys, in an order. -/
structure Catalog (keyOf : Item → Key) where
  items : List Item
  distinct : (items.map keyOf).Nodup

namespace Catalog

/-- No item. -/
def empty : Catalog keyOf := ⟨[], List.nodup_nil⟩

variable [DecidableEq Key]

instance [DecidableEq Item] : DecidableEq (Catalog keyOf) := fun left right =>
  decidable_of_iff (left.items = right.items)
    ⟨fun same => by cases left; cases right; cases same; rfl, congrArg items⟩

/-- The items of a list, if their keys are distinct. -/
def ofList? (items : List Item) : Option (Catalog keyOf) :=
  if distinct : (items.map keyOf).Nodup then some ⟨items, distinct⟩ else none

/-- The item of a key. -/
def find? (catalog : Catalog keyOf) (key : Key) : Option Item :=
  catalog.items.find? fun item => keyOf item = key

/-- Append an item, unless its key is taken. -/
def add (catalog : Catalog keyOf) (item : Item) : Catalog keyOf :=
  if fresh : keyOf item ∈ catalog.items.map keyOf then catalog
  else ⟨catalog.items ++ [item], by
    rw [List.map_append, List.map_singleton]
    exact List.nodup_append.mpr ⟨catalog.distinct, List.nodup_singleton _, by
      rintro key member other single rfl
      exact fresh (List.mem_singleton.mp single ▸ member)⟩⟩

/-- Keep the items of which a condition holds. -/
def filter (catalog : Catalog keyOf) (keep : Item → Bool) : Catalog keyOf :=
  ⟨catalog.items.filter keep, catalog.distinct.sublist (List.filter_sublist.map keyOf)⟩

/-- Remove the item of a key. -/
def erase (catalog : Catalog keyOf) (key : Key) : Catalog keyOf :=
  catalog.filter fun item => keyOf item ≠ key

/-- Change the item of a key to another item of that key. -/
def modify (catalog : Catalog keyOf) (key : Key) (change : Item → Item)
    (same : ∀ item, keyOf (change item) = keyOf item) : Catalog keyOf :=
  ⟨catalog.items.map fun item => if keyOf item = key then change item else item, by
    have keys : (catalog.items.map fun item => if keyOf item = key then change item else item).map
        keyOf = catalog.items.map keyOf := by
      rw [List.map_map]
      refine List.map_congr_left fun item _ => ?_
      dsimp only [Function.comp_apply]
      split
      · exact same item
      · rfl
    rw [keys]
    exact catalog.distinct⟩

variable {catalog : Catalog keyOf} {item : Item} {key : Key}

theorem find?_eq_some : catalog.find? key = some item ↔
    item ∈ catalog.items ∧ keyOf item = key := by
  rw [find?, List.find?_eq_some_iff_append, decide_eq_true_iff]
  constructor
  · rintro ⟨sameKey, front, back, split, _⟩
    exact ⟨split ▸ List.mem_append_right _ List.mem_cons_self, sameKey⟩
  · rintro ⟨member, rfl⟩
    obtain ⟨front, back, split⟩ := List.append_of_mem member
    refine ⟨rfl, front, back, split, ?_⟩
    -- A match further in front would be a second item of the key.
    intro other before
    have distinct := catalog.distinct
    rw [split, List.map_append, List.nodup_append] at distinct
    have apart := distinct.2.2 _ (List.mem_map_of_mem before) _
      (List.mem_map_of_mem (List.mem_cons_self (a := item) (l := back)))
    simpa using apart

theorem find?_eq_none : catalog.find? key = none ↔ ∀ item ∈ catalog.items, keyOf item ≠ key := by
  rw [find?, List.find?_eq_none]
  simp only [decide_eq_true_iff, ne_eq]

/-- An item of a list of distinct keys is the first one with its key. -/
theorem find?_of_nodup {items : List Item} (distinct : (items.map keyOf).Nodup)
    (member : item ∈ items) : (items.find? fun other => keyOf other = keyOf item) = some item := by
  have found : (⟨items, distinct⟩ : Catalog keyOf).find? (keyOf item) = some item :=
    find?_eq_some.mpr ⟨member, rfl⟩
  exact found

theorem mem_map_iff : key ∈ catalog.items.map keyOf ↔ ∃ item, catalog.find? key = some item := by
  rw [List.mem_map]
  exact exists_congr fun item => find?_eq_some.symm

omit [DecidableEq Key] in
/-- Two items of one key are one item. -/
theorem eq_of_mem {other : Item} (here : item ∈ catalog.items) (there : other ∈ catalog.items)
    (same : keyOf item = keyOf other) : item = other :=
  List.inj_on_of_nodup_map catalog.distinct here there same

/-- What holds of every item of a key holds of the item that has it. -/
theorem forall_key_iff {holds : Item → Prop} (found : catalog.find? key = some item) :
    (∀ other ∈ catalog.items, keyOf other = key → holds other) ↔ holds item := by
  obtain ⟨member, sameKey⟩ := find?_eq_some.mp found
  constructor
  · exact fun all => all item member sameKey
  · intro here other otherIn otherKey
    rwa [eq_of_mem otherIn member (otherKey.trans sameKey.symm)]

/-- Where no item has a key, what is asked of the items of that key holds. -/
theorem forall_key_of_none {holds : Item → Prop} (absent : catalog.find? key = none) :
    ∀ other ∈ catalog.items, keyOf other = key → holds other := by
  intro other otherIn otherKey
  exact absurd otherKey (find?_eq_none.mp absent other otherIn)

theorem find?_ofList? {items : List Item} (success : ofList? items = some catalog) :
    catalog.items = items := by
  unfold ofList? at success
  split at success
  · cases success
    rfl
  · cases success

theorem find?_add_self (absent : catalog.find? (keyOf item) = none) :
    (catalog.add item).find? (keyOf item) = some item := by
  have fresh : keyOf item ∉ catalog.items.map keyOf := fun member => by
    obtain ⟨other, found⟩ := mem_map_iff.mp member
    rw [absent] at found
    cases found
  rw [add, dif_neg fresh, find?_eq_some]
  exact ⟨List.mem_append_right _ (List.mem_singleton_self item), rfl⟩

theorem find?_add_of_ne (apart : key ≠ keyOf item) :
    (catalog.add item).find? key = catalog.find? key := by
  unfold add
  split
  · rfl
  · have unlike : decide (keyOf item = key) = false := decide_eq_false (Ne.symm apart)
    rw [find?, List.find?_append, List.find?_singleton, unlike]
    simp [find?]

theorem items_add (absent : catalog.find? (keyOf item) = none) :
    (catalog.add item).items = catalog.items ++ [item] := by
  have fresh : keyOf item ∉ catalog.items.map keyOf := fun member => by
    obtain ⟨other, found⟩ := mem_map_iff.mp member
    rw [absent] at found
    cases found
  rw [add, dif_neg fresh]

@[simp]
theorem find?_erase_self : (catalog.erase key).find? key = none := by
  rw [find?_eq_none]
  intro item member
  exact of_decide_eq_true (List.mem_filter.mp member).2

theorem find?_erase_of_ne {other : Key} (apart : other ≠ key) :
    (catalog.erase key).find? other = catalog.find? other := by
  cases found : catalog.find? other with
  | none =>
      rw [find?_eq_none] at found ⊢
      exact fun item member => found item (List.mem_filter.mp member).1
  | some item =>
      rw [find?_eq_some] at found ⊢
      exact ⟨List.mem_filter.mpr ⟨found.1, decide_eq_true (found.2 ▸ apart)⟩, found.2⟩

section Modify

variable {change : Item → Item} (same : ∀ item, keyOf (change item) = keyOf item)

theorem find?_modify_self (found : catalog.find? key = some item) :
    (catalog.modify key change same).find? key = some (change item) := by
  rw [find?_eq_some] at found ⊢
  refine ⟨List.mem_map.mpr ⟨item, found.1, if_pos found.2⟩, ?_⟩
  rw [same, found.2]

theorem find?_modify_of_ne {other : Key} (apart : other ≠ key) :
    (catalog.modify key change same).find? other = catalog.find? other := by
  cases found : catalog.find? other with
  | none =>
      rw [find?_eq_none] at found ⊢
      intro item member
      obtain ⟨before, beforeIn, rfl⟩ := List.mem_map.mp member
      split
      · rw [same]
        exact found before beforeIn
      · exact found before beforeIn
  | some item =>
      rw [find?_eq_some] at found ⊢
      exact ⟨List.mem_map.mpr ⟨item, found.1, if_neg (found.2 ▸ apart)⟩, found.2⟩

end Modify

end Catalog

end Boomerang.Foundation
