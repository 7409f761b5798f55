import Mathlib.Logic.Function.Basic

/-!
# Overwriting

Items are put into a store one after the other, each under its key. What lies under a key
is what was put there last.
-/

namespace Boomerang.Foundation

variable {Item Key Value : Type} [DecidableEq Key] {key : Item → Key} {value : Item → Value}
variable {start : Key → Option Value} {items : List Item}

/-- Put the items into a store, in order. -/
def overwrite (key : Item → Key) (value : Item → Value) (start : Key → Option Value)
    (items : List Item) : Key → Option Value :=
  items.foldl (fun store item => Function.update store (key item) (some (value item))) start

theorem overwrite_cons {item : Item} : overwrite key value start (item :: items) =
    overwrite key value (Function.update start (key item) (some (value item))) items := rfl

/-- Other keys keep what they have. -/
theorem overwrite_of_absent {place : Key} (absent : ∀ item ∈ items, key item ≠ place) :
    overwrite key value start items place = start place := by
  induction items generalizing start with
  | nil => rfl
  | cons item items ih =>
      rw [overwrite_cons, ih fun other member => absent other (List.mem_cons_of_mem _ member)]
      exact Function.update_of_ne (absent item List.mem_cons_self).symm _ _

/-- Under the key of an item lies one of the items that have it. -/
theorem overwrite_of_present {place : Key} (present : ∃ item ∈ items, key item = place) :
    ∃ item ∈ items, overwrite key value start items place = some (value item) := by
  induction items generalizing start with
  | nil => simp at present
  | cons first items ih =>
      by_cases later : ∃ item ∈ items, key item = place
      · obtain ⟨item, member, stored⟩ := ih later
        exact ⟨item, List.mem_cons_of_mem _ member, stored⟩
      · obtain ⟨item, member, rfl⟩ := present
        rcases List.mem_cons.mp member with rfl | member
        · refine ⟨item, List.mem_cons_self, ?_⟩
          rw [overwrite_cons, overwrite_of_absent, Function.update_self]
          exact fun other otherIn same => later ⟨other, otherIn, same⟩
        · exact absurd ⟨item, member, rfl⟩ later

/-- Under distinct keys, every item lies in the store. -/
theorem overwrite_of_nodup (distinct : (items.map key).Nodup) {item : Item}
    (member : item ∈ items) : overwrite key value start items (key item) = some (value item) := by
  induction items generalizing start with
  | nil => cases member
  | cons first items ih =>
      obtain ⟨fresh, later⟩ := List.nodup_cons.mp distinct
      rw [overwrite_cons]
      rcases List.mem_cons.mp member with rfl | member
      · rw [overwrite_of_absent, Function.update_self]
        exact fun other otherIn same => fresh (same ▸ List.mem_map_of_mem otherIn)
      · exact ih later member

end Boomerang.Foundation
