import Mathlib.Data.List.Sort
import Mathlib.Order.Basic
import Mathlib.Order.Monotone.Basic

/-!
# Sorting by a key and binary search

An unstable sort is any permutation that ascends by the key. The search halves the
size of the remaining range in every turn and compares for equality once, at the end.
It finds only what is there, and in a sorted sequence it finds whatever is there.
-/

namespace Boomerang.Foundation

universe u v

/-- A sort by a key that leaves the order of equal keys open. -/
structure UnstableSort (Item : Type) (Key : Type u) [LinearOrder Key] where
  sort : (Item → Key) → List Item → List Item
  perm : ∀ key items, (sort key items).Perm items
  ascends : ∀ key items, (sort key items).Pairwise fun left right => key left ≤ key right

/-- The sort that keeps the order of equal keys. -/
def UnstableSort.stable (Item : Type) (Key : Type u) [LinearOrder Key] : UnstableSort Item Key where
  sort := fun key items => items.insertionSort fun left right => key left ≤ key right
  perm := fun _ items => List.perm_insertionSort _ items
  ascends := by
    intro key items
    have total : Std.Total fun left right : Item => key left ≤ key right :=
      ⟨fun left right => le_total (key left) (key right)⟩
    have transitive : IsTrans Item fun left right => key left ≤ key right :=
      ⟨fun _ _ _ low high => le_trans low high⟩
    exact List.pairwise_insertionSort _ items

variable {Key : Type u} [LinearOrder Key] {Failure : Type v}

/-- Halve a range until one place is left. The fuel is at least the size. -/
def bisect (keys : Nat → Key) (key : Key) : Nat → Nat → Nat → Nat
  | 0, base, _ => base
  | fuel + 1, base, size =>
      if size ≤ 1 then base
      else
        let half := size / 2
        let mid := base + half
        bisect keys key fuel (if key < keys mid then base else mid) (size - half)

/-- A place of the key among the first `length` keys. -/
def binarySearch (keys : Nat → Key) (length : Nat) (key : Key) : Option Nat :=
  if length = 0 then none
  else
    let base := bisect keys key length 0 length
    if keys base = key then some base else none

/-- The place left lies in the range. -/
theorem bisect_bounds (keys : Nat → Key) (key : Key) {fuel base size : Nat} (positive : 0 < size) :
    base ≤ bisect keys key fuel base size ∧ bisect keys key fuel base size < base + size := by
  induction fuel generalizing base size with
  | zero => exact ⟨Nat.le_refl _, Nat.lt_add_of_pos_right positive⟩
  | succ fuel ih =>
      rw [bisect]
      split
      · exact ⟨Nat.le_refl _, Nat.lt_add_of_pos_right positive⟩
      · dsimp only
        split
        · have inner := @ih base (size - size / 2) (by omega)
          omega
        · have inner := @ih (base + size / 2) (size - size / 2) (by omega)
          omega

/-- What is found is there. -/
theorem binarySearch_sound {keys : Nat → Key} {length place : Nat} {key : Key}
    (found : binarySearch keys length key = some place) : place < length ∧ keys place = key := by
  unfold binarySearch at found
  split at found
  · cases found
  · dsimp only at found
    split at found
    · rename_i nonempty same
      cases found
      have bounds := @bisect_bounds _ _ keys key length 0 length
        (Nat.pos_of_ne_zero nonempty)
      rw [Nat.zero_add] at bounds
      exact ⟨bounds.2, same⟩
    · cases found

/-- In a sorted range that holds the key, the place left holds it. -/
theorem bisect_complete {keys : Nat → Key} {key : Key} {fuel base size place : Nat}
    (sorted : ∀ left right, base ≤ left → left ≤ right → right < base + size →
      keys left ≤ keys right)
    (enough : size ≤ fuel + 1) (low : base ≤ place) (high : place < base + size)
    (here : keys place = key) : keys (bisect keys key fuel base size) = key := by
  induction fuel generalizing base size place with
  | zero =>
      have only : place = base := by omega
      rw [bisect, ← only, here]
  | succ fuel ih =>
      rw [bisect]
      split
      · have only : place = base := by omega
        rw [← only, here]
      · dsimp only
        split
        · rename_i below
          -- The key is smaller than the middle one, so it is in the lower half.
          have before : place < base + size / 2 := by
            by_contra later
            have ordered := sorted (base + size / 2) place (by omega) (by omega) high
            exact absurd (lt_of_lt_of_le below (here ▸ ordered)) (lt_irrefl _)
          exact ih (fun left right lower order upper =>
            sorted left right lower order (by omega)) (by omega) low (by omega) here
        · rename_i notBelow
          by_cases before : place < base + size / 2
          · -- The middle key is the key as well.
            have ordered := sorted place (base + size / 2) low (by omega) (by omega)
            have same : keys (base + size / 2) = key :=
              le_antisymm (not_lt.mp notBelow) (here ▸ ordered)
            exact ih (fun left right lower order upper =>
              sorted left right (by omega) order (by omega)) (by omega) (Nat.le_refl _)
              (by omega) same
          · exact ih (fun left right lower order upper =>
              sorted left right (by omega) order (by omega)) (by omega) (by omega)
              (by omega) here

/-- In a sorted sequence every key that is there is found. -/
theorem binarySearch_complete {keys : Nat → Key} {length place : Nat} {key : Key}
    (sorted : ∀ left right, left ≤ right → right < length → keys left ≤ keys right)
    (below : place < length) (here : keys place = key) :
    ∃ found, binarySearch keys length key = some found := by
  have same : keys (bisect keys key length 0 length) = key :=
    bisect_complete (fun left right _ order upper => sorted left right order (by omega))
      (Nat.le_succ length) (Nat.zero_le _) (by omega) here
  exact ⟨_, by rw [binarySearch, if_neg (by omega), if_pos same]⟩

/-- `bisect` with keys that may fail to be read. -/
def tryBisect (keys : Nat → Except Failure Key) (key : Key) :
    Nat → Nat → Nat → Except Failure Nat
  | 0, base, _ => .ok base
  | fuel + 1, base, size =>
      if size ≤ 1 then .ok base
      else
        let half := size / 2
        let mid := base + half
        match keys mid with
        | .error failure => .error failure
        | .ok found => tryBisect keys key fuel (if key < found then base else mid) (size - half)

/-- `binarySearch` with keys that may fail to be read. -/
def tryBinarySearch (keys : Nat → Except Failure Key) (length : Nat) (key : Key) :
    Except Failure (Option Nat) :=
  if length = 0 then .ok none
  else
    match tryBisect keys key length 0 length with
    | .error failure => .error failure
    | .ok base =>
        match keys base with
        | .error failure => .error failure
        | .ok found => .ok (if found = key then some base else none)

theorem tryBisect_eq {keys : Nat → Except Failure Key} {plain : Nat → Key} (key : Key)
    {fuel base size : Nat} (read : ∀ place < base + size, keys place = .ok (plain place)) :
    tryBisect keys key fuel base size = .ok (bisect plain key fuel base size) := by
  induction fuel generalizing base size with
  | zero => rfl
  | succ fuel ih =>
      rw [tryBisect, bisect]
      split
      · rfl
      · dsimp only
        rw [read (base + size / 2) (by omega)]
        apply ih
        intro place below
        apply read
        split at below <;> omega

/-- Where every key can be read the two searches agree. -/
theorem tryBinarySearch_eq {keys : Nat → Except Failure Key} {plain : Nat → Key} {length : Nat}
    (key : Key) (read : ∀ place < length, keys place = .ok (plain place)) :
    tryBinarySearch keys length key = .ok (binarySearch plain length key) := by
  unfold tryBinarySearch binarySearch
  split
  · rfl
  · rename_i nonempty
    have bounds := @bisect_bounds _ _ plain key length 0 length (Nat.pos_of_ne_zero nonempty)
    rw [Nat.zero_add] at bounds
    rw [tryBisect_eq key (by simpa using read)]
    dsimp only
    rw [read _ bounds.2]

/-- The search in a list that ascends by the key, read by place. -/
theorem tryBinarySearch_sorted {Item : Type} {sorted : List Item} {key : Item → Key}
    {read : Nat → Except Failure Key}
    (reads : ∀ place item, sorted[place]? = some item → read place = .ok (key item))
    (ascends : sorted.Pairwise fun left right => key left ≤ key right) (wanted : Key) :
    ∃ found, tryBinarySearch read sorted.length wanted = .ok found ∧
      (∀ place, found = some place → ∃ item, sorted[place]? = some item ∧ key item = wanted) ∧
      (found = none → ∀ item ∈ sorted, key item ≠ wanted) := by
  let plain : Nat → Key := fun place => (sorted[place]?.map key).getD wanted
  have plainEq : ∀ place item, sorted[place]? = some item → plain place = key item := by
    intro place item here
    simp only [plain, here, Option.map_some, Option.getD_some]
  have read' : ∀ place < sorted.length, read place = .ok (plain place) := by
    intro place below
    have here := List.getElem?_eq_getElem below
    rw [reads place _ here, plainEq place _ here]
  have weak : ∀ left right, left ≤ right → right < sorted.length → plain left ≤ plain right := by
    intro left right order upper
    rw [plainEq left _ (List.getElem?_eq_getElem (Nat.lt_of_le_of_lt order upper)),
      plainEq right _ (List.getElem?_eq_getElem upper)]
    rcases Nat.lt_or_eq_of_le order with less | rfl
    · exact List.pairwise_iff_getElem.mp ascends left right _ upper less
    · exact le_refl _
  refine ⟨binarySearch plain sorted.length wanted, tryBinarySearch_eq wanted read', ?_, ?_⟩
  · intro place found
    obtain ⟨below, here⟩ := binarySearch_sound found
    have item := List.getElem?_eq_getElem below
    exact ⟨_, item, (plainEq place _ item).symm.trans here⟩
  · intro missing item member same
    obtain ⟨place, below, rfl⟩ := List.getElem_of_mem member
    obtain ⟨found, foundEq⟩ := binarySearch_complete weak below
      ((plainEq place _ (List.getElem?_eq_getElem below)).trans same)
    rw [missing] at foundEq
    cases foundEq

end Boomerang.Foundation
