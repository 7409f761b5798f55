import Mathlib.Data.List.SplitBy

/-!
# Runs of adjacent items

How the split of a list into runs changes when an item is appended.
-/

namespace Boomerang.Foundation

variable {Item Other : Type} {same : Item → Item → Bool}

/-- An item that goes on with the last run. -/
theorem splitBy_concat_of_same {items : List Item} {runs : List (List Item)} {last : List Item}
    {item : Item} (split : items.splitBy same = runs ++ [last])
    (goesOn : ∀ final ∈ last.getLast?, same final item = true) :
    (items ++ [item]).splitBy same = runs ++ [last ++ [item]] := by
  obtain ⟨rfl, nonempty, chains, apart⟩ := List.splitBy_eq_iff.mp split
  refine List.splitBy_eq_iff.mpr ⟨by simp, ?_, ?_, ?_⟩
  · simpa using fun member => nonempty (List.mem_append_left _ member)
  · intro run member
    rcases List.mem_append.mp member with early | late
    · exact chains run (List.mem_append_left _ early)
    · rw [List.mem_singleton.mp late]
      exact (chains last (List.mem_append_right _ List.mem_cons_self)).append
        (List.isChain_singleton item) (by simpa using goesOn)
  · obtain ⟨front, _, border⟩ := List.isChain_append.mp apart
    refine front.append (List.isChain_singleton _) ?_
    intro before member after head
    cases head
    obtain ⟨beforeNonempty, lastNonempty, different⟩ := border before member last rfl
    refine ⟨beforeNonempty, by simp, ?_⟩
    rw [List.head_append_of_ne_nil lastNonempty]
    exact different

/-- An item that starts a new run. -/
theorem splitBy_concat_of_different {items : List Item} {runs : List (List Item)}
    {last : List Item} {item : Item} (split : items.splitBy same = runs ++ [last])
    (starts : ∀ final ∈ last.getLast?, same final item = false) :
    (items ++ [item]).splitBy same = (runs ++ [last]) ++ [[item]] := by
  obtain ⟨rfl, nonempty, chains, apart⟩ := List.splitBy_eq_iff.mp split
  have lastNonempty : last ≠ [] := fun empty =>
    nonempty (empty ▸ List.mem_append_right _ List.mem_cons_self)
  refine List.splitBy_eq_iff.mpr ⟨by simp, ?_, ?_, ?_⟩
  · simpa using ⟨fun member => nonempty (List.mem_append_left _ member), lastNonempty⟩
  · intro run member
    rcases List.mem_append.mp member with early | late
    · exact chains run early
    · rw [List.mem_singleton.mp late]
      exact List.isChain_singleton item
  · refine apart.append (List.isChain_singleton _) ?_
    intro before member after head
    cases head
    rw [List.getLast?_concat] at member
    cases member
    exact ⟨lastNonempty, List.cons_ne_nil _ _,
      starts _ (List.getLast?_eq_some_getLast lastNonempty)⟩

/-- The runs of mapped items are the mapped runs. -/
theorem splitBy_map {change : Item → Other} {alike : Other → Other → Bool} {items : List Item}
    (agree : ∀ left ∈ items, ∀ right ∈ items,
      alike (change left) (change right) = same left right) :
    (items.map change).splitBy alike = (items.splitBy same).map (List.map change) := by
  obtain ⟨whole, nonempty, chains, apart⟩ := List.splitBy_eq_iff.mp (rfl : items.splitBy same = _)
  have inside : ∀ run ∈ items.splitBy same, ∀ item ∈ run, item ∈ items := by
    intro run member item here
    rw [whole]
    exact List.mem_flatten.mpr ⟨run, member, here⟩
  refine List.splitBy_eq_iff.mpr ⟨by rw [← List.map_flatten, ← whole], ?_, ?_, ?_⟩
  · simp
  · intro run member
    obtain ⟨original, listed, rfl⟩ := List.mem_map.mp member
    refine (List.isChain_map change).mpr ((chains original listed).imp_of_mem_imp ?_)
    intro left right here there related
    rw [agree left (inside original listed left here) right (inside original listed right there)]
    exact related
  · refine (List.isChain_map _).mpr (apart.imp_of_mem_imp ?_)
    rintro before after here there ⟨beforeNonempty, afterNonempty, different⟩
    refine ⟨by simpa using beforeNonempty, by simpa using afterNonempty, ?_⟩
    rw [List.getLast_map, List.head_map, agree _ (inside before here _ (List.getLast_mem _)) _
      (inside after there _ (List.head_mem _))]
    exact different

end Boomerang.Foundation
