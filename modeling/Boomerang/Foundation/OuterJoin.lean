import Mathlib.Data.List.Basic
import Mathlib.Data.Option.Basic
import Mathlib.Order.Basic
import Mathlib.Order.Lattice

/-!
# Full outer merge join

Two lists that are strictly ascending by key are walked in lockstep: the side with
the smaller key is taken alone, equal keys are taken together. The result has one
element for every key of either side, in ascending order.
-/

namespace Boomerang.Foundation

universe u v w

variable {Left : Type u} {Right : Type v} {Key : Type w}
variable (leftKey : Left → Key) (rightKey : Right → Key)

/-- Walk two lists in lockstep. -/
def outerJoin [LinearOrder Key] : List Left → List Right → List (Option Left × Option Right)
  | [], rights => rights.map fun right => (none, some right)
  | lefts, [] => lefts.map fun left => (some left, none)
  | left :: lefts, right :: rights =>
      if leftKey left < rightKey right then
        (some left, none) :: outerJoin lefts (right :: rights)
      else if rightKey right < leftKey left then
        (none, some right) :: outerJoin (left :: lefts) rights
      else (some left, some right) :: outerJoin lefts rights
termination_by lefts rights => lefts.length + rights.length

/-- What belongs in the join of two lists. -/
def Joined (lefts : List Left) (rights : List Right) : Option Left × Option Right → Prop
  | (some left, none) => left ∈ lefts ∧ ∀ right ∈ rights, rightKey right ≠ leftKey left
  | (none, some right) => right ∈ rights ∧ ∀ left ∈ lefts, leftKey left ≠ rightKey right
  | (some left, some right) => left ∈ lefts ∧ right ∈ rights ∧ leftKey left = rightKey right
  | (none, none) => False

/-- The key of an element of the join. -/
def joinKey : Option Left × Option Right → Option Key
  | (some left, _) => some (leftKey left)
  | (none, some right) => some (rightKey right)
  | (none, none) => none

/-- A list is strictly ascending by key. -/
def Ascending [LinearOrder Key] {Item : Type u} (key : Item → Key) (items : List Item) : Prop :=
  items.Pairwise fun first second => key first < key second

variable {leftKey rightKey}
variable {lefts : List Left} {rights : List Right}

/-- Every key of the join comes from one of the lists. -/
theorem joinKey_mem {pair : Option Left × Option Right} {key : Key}
    (joined : Joined leftKey rightKey lefts rights pair)
    (keyEq : joinKey leftKey rightKey pair = some key) :
    (∃ left ∈ lefts, leftKey left = key) ∨ ∃ right ∈ rights, rightKey right = key := by
  obtain ⟨left, right⟩ := pair
  cases left with
  | some left =>
      cases right with
      | none => exact Or.inl ⟨left, joined.1, Option.some.inj keyEq⟩
      | some right => exact Or.inl ⟨left, joined.1, Option.some.inj keyEq⟩
  | none =>
      cases right with
      | none => exact joined.elim
      | some right => exact Or.inr ⟨right, joined.1, Option.some.inj keyEq⟩

section Order

variable [LinearOrder Key] {left : Left} {right : Right}

@[simp] theorem outerJoin_nil_right (lefts : List Left) :
    outerJoin leftKey rightKey lefts [] = lefts.map fun item => (some item, none) := by
  cases lefts <;> simp [outerJoin]

@[simp] theorem outerJoin_nil_left (rights : List Right) :
    outerJoin leftKey rightKey [] rights = rights.map fun item => (none, some item) := by
  rw [outerJoin]

theorem outerJoin_of_lt (less : leftKey left < rightKey right) :
    outerJoin leftKey rightKey (left :: lefts) (right :: rights) =
      (some left, none) :: outerJoin leftKey rightKey lefts (right :: rights) := by
  rw [outerJoin, if_pos less]

theorem outerJoin_of_gt (more : rightKey right < leftKey left) :
    outerJoin leftKey rightKey (left :: lefts) (right :: rights) =
      (none, some right) :: outerJoin leftKey rightKey (left :: lefts) rights := by
  rw [outerJoin, if_neg (not_lt_of_gt more), if_pos more]

theorem outerJoin_of_eq (same : leftKey left = rightKey right) :
    outerJoin leftKey rightKey (left :: lefts) (right :: rights) =
      (some left, some right) :: outerJoin leftKey rightKey lefts rights := by
  rw [outerJoin, if_neg (same ▸ lt_irrefl _), if_neg (same ▸ lt_irrefl _)]

/-- A left item below every right item joins alone. -/
theorem joined_cons_left (above : ∀ other ∈ rights, leftKey left < rightKey other)
    (pair : Option Left × Option Right) :
    Joined leftKey rightKey (left :: lefts) rights pair ↔
      pair = (some left, none) ∨ Joined leftKey rightKey lefts rights pair := by
  have alone : ∀ other ∈ rights, rightKey other ≠ leftKey left :=
    fun other member => ne_of_gt (above other member)
  match pair with
  | (some item, none) =>
      simp only [Joined, List.mem_cons, Prod.mk.injEq, Option.some.injEq, and_true]
      constructor
      · rintro ⟨rfl | member, free⟩
        · exact Or.inl rfl
        · exact Or.inr ⟨member, free⟩
      · rintro (rfl | ⟨member, free⟩)
        · exact ⟨Or.inl rfl, alone⟩
        · exact ⟨Or.inr member, free⟩
  | (none, some item) =>
      simp only [Joined, List.forall_mem_cons, Prod.mk.injEq, reduceCtorEq, and_self, false_or]
      exact ⟨fun joined => ⟨joined.1, joined.2.2⟩,
        fun joined => ⟨joined.1, (alone item joined.1).symm, joined.2⟩⟩
  | (some item, some other) =>
      simp only [Joined, List.mem_cons, Prod.mk.injEq, reduceCtorEq, and_false, false_or]
      constructor
      · rintro ⟨rfl | member, otherMember, same⟩
        · exact absurd same.symm (alone other otherMember)
        · exact ⟨member, otherMember, same⟩
      · rintro ⟨member, otherMember, same⟩
        exact ⟨Or.inr member, otherMember, same⟩
  | (none, none) => simp [Joined]

/-- A right item below every left item joins alone. -/
theorem joined_cons_right (above : ∀ other ∈ lefts, rightKey right < leftKey other)
    (pair : Option Left × Option Right) :
    Joined leftKey rightKey lefts (right :: rights) pair ↔
      pair = (none, some right) ∨ Joined leftKey rightKey lefts rights pair := by
  have alone : ∀ other ∈ lefts, leftKey other ≠ rightKey right :=
    fun other member => ne_of_gt (above other member)
  match pair with
  | (none, some item) =>
      simp only [Joined, List.mem_cons, Prod.mk.injEq, Option.some.injEq, true_and]
      constructor
      · rintro ⟨rfl | member, free⟩
        · exact Or.inl rfl
        · exact Or.inr ⟨member, free⟩
      · rintro (rfl | ⟨member, free⟩)
        · exact ⟨Or.inl rfl, alone⟩
        · exact ⟨Or.inr member, free⟩
  | (some item, none) =>
      simp only [Joined, List.forall_mem_cons, Prod.mk.injEq, reduceCtorEq, and_self, false_or]
      exact ⟨fun joined => ⟨joined.1, joined.2.2⟩,
        fun joined => ⟨joined.1, (alone item joined.1).symm, joined.2⟩⟩
  | (some item, some other) =>
      simp only [Joined, List.mem_cons, Prod.mk.injEq, reduceCtorEq, false_and, false_or]
      constructor
      · rintro ⟨member, rfl | otherMember, same⟩
        · exact absurd same (alone item member)
        · exact ⟨member, otherMember, same⟩
      · rintro ⟨member, otherMember, same⟩
        exact ⟨member, Or.inr otherMember, same⟩
  | (none, none) => simp [Joined]

/-- Items of equal keys below all others join with each other. -/
theorem joined_cons_both (same : leftKey left = rightKey right)
    (leftAbove : ∀ other ∈ lefts, leftKey left < leftKey other)
    (rightAbove : ∀ other ∈ rights, rightKey right < rightKey other)
    (pair : Option Left × Option Right) :
    Joined leftKey rightKey (left :: lefts) (right :: rights) pair ↔
      pair = (some left, some right) ∨ Joined leftKey rightKey lefts rights pair := by
  have leftAlone : ∀ other ∈ rights, rightKey other ≠ leftKey left :=
    fun other member => ne_of_gt (same ▸ rightAbove other member)
  have rightAlone : ∀ other ∈ lefts, leftKey other ≠ rightKey right :=
    fun other member => ne_of_gt (same ▸ leftAbove other member)
  match pair with
  | (some item, none) =>
      simp only [Joined, List.forall_mem_cons, Prod.mk.injEq, reduceCtorEq, and_false, false_or]
      rw [List.mem_cons]
      constructor
      · rintro ⟨rfl | member, apart, free⟩
        · exact absurd same.symm apart
        · exact ⟨member, free⟩
      · rintro ⟨member, free⟩
        exact ⟨Or.inr member, (rightAlone item member).symm, free⟩
  | (none, some item) =>
      simp only [Joined, List.forall_mem_cons, Prod.mk.injEq, reduceCtorEq, false_and, false_or]
      rw [List.mem_cons]
      constructor
      · rintro ⟨rfl | member, apart, free⟩
        · exact absurd same apart
        · exact ⟨member, free⟩
      · rintro ⟨member, free⟩
        exact ⟨Or.inr member, (leftAlone item member).symm, free⟩
  | (some item, some other) =>
      simp only [Joined, List.mem_cons, Prod.mk.injEq, Option.some.injEq]
      constructor
      · rintro ⟨rfl | member, rfl | otherMember, equal⟩
        · exact Or.inl ⟨rfl, rfl⟩
        · exact absurd equal.symm (leftAlone other otherMember)
        · exact absurd equal (rightAlone item member)
        · exact Or.inr ⟨member, otherMember, equal⟩
      · rintro (⟨rfl, rfl⟩ | ⟨member, otherMember, equal⟩)
        · exact ⟨Or.inl rfl, Or.inl rfl, same⟩
        · exact ⟨Or.inr member, Or.inr otherMember, equal⟩
  | (none, none) => simp [Joined]

/-- The smallest item of a list that ascends is below whatever the other list's
smallest item is not below. -/
private theorem below_all {Item : Type u} {Other : Type v} {key : Item → Key}
    {otherKey : Other → Key} {item : Item} {other : Other} {others : List Other}
    (less : key item < otherKey other) (ascending : Ascending otherKey (other :: others)) :
    ∀ later ∈ other :: others, key item < otherKey later := by
  intro later member
  rcases List.mem_cons.mp member with rfl | inTail
  · exact less
  · exact lt_trans less ((List.pairwise_cons.mp ascending).1 later inTail)

/-- The join holds exactly what belongs in it. -/
theorem mem_outerJoin (leftAscending : Ascending leftKey lefts)
    (rightAscending : Ascending rightKey rights) (pair : Option Left × Option Right) :
    pair ∈ outerJoin leftKey rightKey lefts rights ↔ Joined leftKey rightKey lefts rights pair := by
  fun_induction outerJoin leftKey rightKey lefts rights with
  | case1 rights =>
      match pair with
      | (some item, none) | (none, some item) | (some item, some other) | (none, none) =>
          simp [Joined]
  | case2 lefts nonempty =>
      match pair with
      | (some item, none) | (none, some item) | (some item, some other) | (none, none) =>
          simp [Joined]
  | case3 left lefts right rights less ih =>
      rw [List.mem_cons, joined_cons_left (below_all less rightAscending),
        ih (List.Pairwise.of_cons leftAscending) rightAscending]
  | case4 left lefts right rights notLess more ih =>
      rw [List.mem_cons, joined_cons_right (below_all more leftAscending),
        ih leftAscending (List.Pairwise.of_cons rightAscending)]
  | case5 left lefts right rights notLess notMore ih =>
      have same : leftKey left = rightKey right :=
        le_antisymm (not_lt.mp notMore) (not_lt.mp notLess)
      rw [List.mem_cons, joined_cons_both same (List.pairwise_cons.mp leftAscending).1
        (List.pairwise_cons.mp rightAscending).1,
        ih (List.Pairwise.of_cons leftAscending) (List.Pairwise.of_cons rightAscending)]

/-- Elements of a join are in the order of their keys. -/
def JoinOrder (leftKey : Left → Key) (rightKey : Right → Key)
    (first second : Option Left × Option Right) : Prop :=
  ∀ low high, joinKey leftKey rightKey first = some low →
    joinKey leftKey rightKey second = some high → low < high

/-- The join ascends by key, so no key occurs twice. -/
theorem outerJoin_ascending (leftAscending : Ascending leftKey lefts)
    (rightAscending : Ascending rightKey rights) :
    (outerJoin leftKey rightKey lefts rights).Pairwise (JoinOrder leftKey rightKey) := by
  -- Whatever follows has the key of a later item of one of the lists.
  have later : ∀ {lefts rights low}, Ascending leftKey lefts → Ascending rightKey rights →
      (∀ left ∈ lefts, low < leftKey left) → (∀ right ∈ rights, low < rightKey right) →
      ∀ pair ∈ outerJoin leftKey rightKey lefts rights, ∀ high,
        joinKey leftKey rightKey pair = some high → low < high := by
    intro lefts rights low leftAscending rightAscending leftAbove rightAbove pair member high highEq
    rcases joinKey_mem ((mem_outerJoin leftAscending rightAscending pair).mp member) highEq with
      ⟨left, leftMember, rfl⟩ | ⟨right, rightMember, rfl⟩
    · exact leftAbove left leftMember
    · exact rightAbove right rightMember
  fun_induction outerJoin leftKey rightKey lefts rights with
  | case1 rights =>
      refine List.pairwise_map.mpr (rightAscending.imp ?_)
      rintro first second order low high ⟨⟩ ⟨⟩
      exact order
  | case2 lefts nonempty =>
      refine List.pairwise_map.mpr (leftAscending.imp ?_)
      rintro first second order low high ⟨⟩ ⟨⟩
      exact order
  | case3 left lefts right rights less ih =>
      have tail := List.Pairwise.of_cons leftAscending
      refine List.pairwise_cons.mpr ⟨?_, ih tail rightAscending⟩
      rintro pair member low high ⟨⟩ highEq
      exact later tail rightAscending (List.pairwise_cons.mp leftAscending).1
        (below_all less rightAscending) pair member high highEq
  | case4 left lefts right rights notLess more ih =>
      have tail := List.Pairwise.of_cons rightAscending
      refine List.pairwise_cons.mpr ⟨?_, ih leftAscending tail⟩
      rintro pair member low high ⟨⟩ highEq
      exact later leftAscending tail (below_all more leftAscending)
        (List.pairwise_cons.mp rightAscending).1 pair member high highEq
  | case5 left lefts right rights notLess notMore ih =>
      have same : leftKey left = rightKey right :=
        le_antisymm (not_lt.mp notMore) (not_lt.mp notLess)
      have leftTail := List.Pairwise.of_cons leftAscending
      have rightTail := List.Pairwise.of_cons rightAscending
      refine List.pairwise_cons.mpr ⟨?_, ih leftTail rightTail⟩
      rintro pair member low high ⟨⟩ highEq
      exact later leftTail rightTail (List.pairwise_cons.mp leftAscending).1
        (same ▸ (List.pairwise_cons.mp rightAscending).1) pair member high highEq

/-- The join from the other side. -/
theorem outerJoin_swap (leftKey : Left → Key) (rightKey : Right → Key) (lefts : List Left)
    (rights : List Right) :
    outerJoin rightKey leftKey rights lefts =
      (outerJoin leftKey rightKey lefts rights).map Prod.swap := by
  fun_induction outerJoin leftKey rightKey lefts rights with
  | case1 rights => simp
  | case2 lefts nonempty => simp
  | case3 left lefts right rights less ih =>
    rw [outerJoin_of_gt less, ih, List.map_cons, Prod.swap_prod_mk]
  | case4 left lefts right rights notLess more ih =>
      rw [outerJoin_of_lt more, ih, List.map_cons, Prod.swap_prod_mk]
  | case5 left lefts right rights notLess notMore ih =>
      have same : rightKey right = leftKey left :=
        le_antisymm (not_lt.mp notLess) (not_lt.mp notMore)
      rw [outerJoin_of_eq same, ih, List.map_cons, Prod.swap_prod_mk]

/-- Two lists with the same keys in the same places join throughout. -/
theorem outerJoin_paired {pairs : List (Left × Right)}
    (same : ∀ pair ∈ pairs, leftKey pair.1 = rightKey pair.2) :
    outerJoin leftKey rightKey (pairs.map Prod.fst) (pairs.map Prod.snd) =
      pairs.map fun pair => (some pair.1, some pair.2) := by
  induction pairs with
  | nil => simp
  | cons pair pairs ih =>
      rw [List.map_cons, List.map_cons, outerJoin_of_eq (same pair List.mem_cons_self),
        ih fun other member => same other (List.mem_cons_of_mem _ member), List.map_cons]

end Order

end Boomerang.Foundation
