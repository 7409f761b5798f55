import Boomerang.Foundation.BinarySearch
import Mathlib.Data.List.Count
import Mathlib.Logic.Equiv.Basic

/-!
# Unstable sorts and equal keys

A sort that is not stable may put either of two items with equal keys where the other
stood. What is found by a key among items with that key may therefore be any of them.
-/

namespace Boomerang.Foundation

universe u

variable {Item : Type} [DecidableEq Item] {Key : Type u} {first second : Item}
variable {key : Item → Key}

/-- An exchange of two items with equal keys keeps the keys. -/
theorem key_swap (same : key first = key second) (item : Item) :
    key (Equiv.swap first second item) = key item := by
  by_cases atFirst : item = first
  · rw [atFirst, Equiv.swap_apply_left, same]
  · by_cases atSecond : item = second
    · rw [atSecond, Equiv.swap_apply_right, same]
    · rw [Equiv.swap_apply_of_ne_of_ne atFirst atSecond]

/-- An exchange of two items of a list without repetition permutes the list. -/
theorem map_swap_perm {items : List Item} (distinct : items.Nodup) (firstIn : first ∈ items)
    (secondIn : second ∈ items) : (items.map (Equiv.swap first second)).Perm items := by
  refine List.perm_iff_count.mpr fun item => ?_
  have moved : (items.map (Equiv.swap first second)).count
      (Equiv.swap first second (Equiv.swap first second item)) =
        items.count (Equiv.swap first second item) :=
    List.count_map_of_injective _ _ (Equiv.swap first second).injective _
  have same : items.count first = items.count second := by
    rw [List.count_eq_one_of_mem distinct firstIn, List.count_eq_one_of_mem distinct secondIn]
  rw [Equiv.swap_apply_self] at moved
  rw [moved]
  exact @key_swap Item _ Nat first second (fun other => items.count other) same item

variable [LinearOrder Key]

/-- The sort that exchanges two items with equal keys. -/
def UnstableSort.exchanging (unstable : UnstableSort Item Key) (first second : Item) :
    UnstableSort Item Key where
  sort := fun key items =>
    if key first = key second ∧ items.Nodup ∧ first ∈ items ∧ second ∈ items then
      (unstable.sort key items).map (Equiv.swap first second)
    else unstable.sort key items
  perm := by
    intro key items
    split
    · rename_i here
      obtain ⟨_, distinct, firstIn, secondIn⟩ := here
      exact ((unstable.perm key items).map _).trans (map_swap_perm distinct firstIn secondIn)
    · exact unstable.perm key items
  ascends := by
    intro key items
    split
    · rename_i here
      refine List.pairwise_map.mpr ((unstable.ascends key items).imp fun ordered => ?_)
      rwa [key_swap here.1, key_swap here.1]
    · exact unstable.ascends key items

/-- Every item stands where it stood, up to the exchange. -/
theorem UnstableSort.exchanging_getElem? (unstable : UnstableSort Item Key) {items : List Item}
    (same : key first = key second) (distinct : items.Nodup) (firstIn : first ∈ items)
    (secondIn : second ∈ items) (place : Nat) :
    ((unstable.exchanging first second).sort key items)[place]? =
      ((unstable.sort key items)[place]?).map (Equiv.swap first second) := by
  have sorted : (unstable.exchanging first second).sort key items =
      (unstable.sort key items).map (Equiv.swap first second) :=
    if_pos ⟨same, distinct, firstIn, secondIn⟩
  rw [sorted, List.getElem?_map]

end Boomerang.Foundation
