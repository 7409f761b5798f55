import Mathlib.Data.List.Basic
import Mathlib.Data.List.Range

/-!
# Compaction of a pool

Some items of a pool are kept, in their order. A range of places in the pool becomes
the range of the items kept from it.
-/

namespace Boomerang.Foundation

variable {Item Kept : Type}

/-- The items kept, each with the place it had. -/
def keepPlaced (keep : Item → Option Kept) (offset : Nat) (items : List Item) : List (Nat × Kept) :=
  (items.zipIdx offset).filterMap fun placed => (keep placed.1).map fun kept => (placed.2, kept)

/-- Count the places of a range that move, and find where the first moves to; the
sentinel stands for none. -/
def scanRange (moved : Nat → Option Nat) (sentinel start len : Nat) : Nat × Nat :=
  (List.range' start len).foldl
    (fun found place =>
      match moved place with
      | none => found
      | some new => (if found.1 = sentinel then new else found.1, found.2 + 1))
    (sentinel, 0)

/-- The range of the kept items of a range; an empty one starts at 0. -/
def compactRange (moved : Nat → Option Nat) (sentinel start len : Nat) : Nat × Nat :=
  let found := scanRange moved sentinel start len
  (if found.2 = 0 then 0 else found.1, found.2)

/-- The number of items kept. -/
def keptCount (keep : Item → Option Kept) (items : List Item) : Nat :=
  (items.filterMap keep).length

theorem keptCount_append (keep : Item → Option Kept) (left right : List Item) :
    keptCount keep (left ++ right) = keptCount keep left + keptCount keep right := by
  rw [keptCount, List.filterMap_append, List.length_append, keptCount, keptCount]

theorem keepPlaced_cons (keep : Item → Option Kept) (offset : Nat) (item : Item)
    (items : List Item) :
    keepPlaced keep offset (item :: items) =
      ((keep item).map fun kept => (offset, kept)).toList ++ keepPlaced keep
      (offset + 1) items := by
  rw [keepPlaced, List.zipIdx_cons, List.filterMap_cons]
  cases keep item <;> simp [keepPlaced]

theorem keepPlaced_append (keep : Item → Option Kept) (offset : Nat) (left right : List Item) :
    keepPlaced keep offset (left ++ right) =
      keepPlaced keep offset left ++ keepPlaced keep (offset + left.length) right := by
  rw [keepPlaced, List.zipIdx_append, List.filterMap_append]
  rfl

theorem map_snd_keepPlaced (keep : Item → Option Kept) (offset : Nat) (items : List Item) :
    (keepPlaced keep offset items).map Prod.snd = items.filterMap keep := by
  induction items generalizing offset with
  | nil => rfl
  | cons item items ih =>
      rw [keepPlaced_cons, List.map_append, ih, List.filterMap_cons]
      cases keep item <;> rfl

theorem length_keepPlaced (keep : Item → Option Kept) (offset : Nat) (items : List Item) :
    (keepPlaced keep offset items).length = keptCount keep items := by
  rw [keptCount, ← map_snd_keepPlaced keep offset, List.length_map]

/-- The places of kept items lie in the pool. -/
theorem keepPlaced_bounds {keep : Item → Option Kept} {offset : Nat} {items : List Item}
    {placed : Nat × Kept} (member : placed ∈ keepPlaced keep offset items) :
    offset ≤ placed.1 ∧ placed.1 < offset + items.length := by
  obtain ⟨⟨item, place⟩, listed, found⟩ := List.mem_filterMap.mp member
  obtain ⟨kept, _, rfl⟩ := Option.map_eq_some_iff.mp found
  have bounds := List.mem_zipIdx listed
  exact ⟨bounds.1, bounds.2.1⟩

/-- The place an item of the pool moves to. -/
theorem findIdx?_keepPlaced (keep : Item → Option Kept) (before : List Item) (item : Item)
    (after : List Item) :
    (keepPlaced keep 0 (before ++ item :: after)).findIdx?
      (fun placed => placed.1 = before.length) =
      (keep item).map fun _ => keptCount keep before := by
  have earlier : (keepPlaced keep 0 before).findIdx? (fun placed => placed.1 = before.length) =
      none := by
    rw [List.findIdx?_eq_none_iff]
    intro placed member
    have bounds := keepPlaced_bounds member
    exact decide_eq_false (by omega)
  have later : (keepPlaced keep (0 + before.length + 1) after).findIdx?
      (fun placed => placed.1 = before.length) = none := by
    rw [List.findIdx?_eq_none_iff]
    intro placed member
    have bounds := keepPlaced_bounds member
    exact decide_eq_false (by omega)
  rw [keepPlaced_append, keepPlaced_cons, List.findIdx?_append, earlier, Option.none_or,
    List.findIdx?_append, later, length_keepPlaced]
  cases keep item with
  | none => rfl
  | some kept => simp [List.findIdx?_cons]

/-- The pool moves the item after `front` in a slice that follows `before`. -/
def Moves (keep : Item → Option Kept) (moved : Nat → Option Nat)
    (before slice : List Item) : Prop :=
  ∀ front item back, slice = front ++ item :: back →
    moved (before.length + front.length) =
      (keep item).map fun _ => keptCount keep before + keptCount keep front

theorem scanRange_eq {keep : Item → Option Kept} {moved : Nat → Option Nat} {sentinel : Nat}
    {before slice : List Item} (moves : Moves keep moved before slice)
    (fits : keptCount keep before + keptCount keep slice ≤ sentinel) :
    scanRange moved sentinel before.length slice.length =
      (if keptCount keep slice = 0 then sentinel else keptCount keep before,
        keptCount keep slice) := by
  induction slice using List.reverseRecOn with
  | nil => rfl
  | append_singleton slice item ih =>
      have last := moves slice item [] rfl
      have count := keptCount_append keep slice [item]
      have earlier := ih (fun front next back split =>
        moves front next (back ++ [item]) (by rw [split]; simp)) (by omega)
      rw [scanRange] at earlier ⊢
      rw [List.length_append, List.length_singleton, List.range'_1_concat, List.foldl_append,
        earlier, List.foldl_cons, List.foldl_nil, last, count]
      cases found : keep item with
      | none =>
          have none : keptCount keep [item] = 0 := by simp [keptCount, found]
          rw [none]
          rfl
      | some kept =>
          have one : keptCount keep [item] = 1 := by simp [keptCount, found]
          rw [one, if_neg (Nat.succ_ne_zero _)]
          simp only [Option.map_some]
          by_cases empty : keptCount keep slice = 0
          · rw [if_pos empty, if_pos rfl, empty, Nat.add_zero]
          · rw [if_neg empty, if_neg (by omega)]

/-- The range of the kept items of a slice of the pool. -/
theorem compactRange_eq {keep : Item → Option Kept} {moved : Nat → Option Nat} {sentinel : Nat}
    {before slice : List Item} (moves : Moves keep moved before slice)
    (fits : keptCount keep before + keptCount keep slice ≤ sentinel) :
    compactRange moved sentinel before.length slice.length =
      (if keptCount keep slice = 0 then 0 else keptCount keep before, keptCount keep slice) := by
  rw [compactRange, scanRange_eq moves fits]
  by_cases empty : keptCount keep slice = 0
  · simp [empty]
  · simp [empty]

/-- The new range stays below a bound of the new places, and is no longer than the old. -/
theorem compactRange_bounds {moved : Nat → Option Nat} {sentinel bound : Nat}
    (small : sentinel < bound) (places : ∀ place new, moved place = some new → new < bound)
    (start len : Nat) :
    (compactRange moved sentinel start len).1 < bound ∧
      (compactRange moved sentinel start len).2 ≤ len := by
  have scanned : (scanRange moved sentinel start len).1 < bound ∧
      (scanRange moved sentinel start len).2 ≤ len := by
    induction len with
    | zero => exact ⟨small, Nat.le_refl _⟩
    | succ len ih =>
        rw [scanRange] at ih ⊢
        rw [List.range'_1_concat, List.foldl_append, List.foldl_cons, List.foldl_nil]
        cases new : moved (start + len) with
        | none => exact ⟨ih.1, Nat.le_succ_of_le ih.2⟩
        | some place =>
            refine ⟨?_, Nat.succ_le_succ ih.2⟩
            dsimp only
            split
            · exact places _ _ new
            · exact ih.1
  rw [compactRange]
  refine ⟨?_, scanned.2⟩
  dsimp only
  split
  · exact Nat.zero_lt_of_lt small
  · exact scanned.1

end Boomerang.Foundation
