import Boomerang.Foundation.Fallible

/-!
# Marks by position

A list with one mark for each position, to which the steps of a fold add, and the
positions that stay unmarked.
-/

namespace Boomerang.Foundation

variable {Failure Item Made : Type} {count : Nat}

/-- A step on `count` marks succeeds and marks the given positions, besides those that
were marked before. -/
def AddsMarks (count : Nat) (step : List Bool → Except Failure (List Bool))
    (added : Nat → Prop) : Prop :=
  ∀ before : List Bool, before.length = count → ∃ after : List Bool, step before = .ok after ∧
    after.length = count ∧
      ∀ place : Nat, after[place]? = some true ↔ before[place]? = some true ∨ added place

namespace AddsMarks

variable (Failure) in
/-- Nothing is marked. -/
theorem keep : AddsMarks count ((Except.ok : _ → Except Failure _)) fun _ => False := by
  intro before length
  exact ⟨before, rfl, length, by simp⟩

variable (Failure) in
/-- One position is marked. -/
theorem set {marked : Nat} (below : marked < count) :
    AddsMarks count (fun before => (Except.ok : _ → Except Failure _) (before.set marked true))
      fun place => marked = place := by
  intro before length
  refine ⟨_, rfl, by rw [List.length_set, length], fun place => ?_⟩
  rw [List.getElem?_set]
  by_cases same : marked = place
  · rw [if_pos same, if_pos (length ▸ below)]
    exact iff_of_true rfl (Or.inr same)
  · rw [if_neg same]
    exact (or_iff_left same).symm

/-- A fold marks the positions that one of its items marks. -/
theorem foldlM {step : List Bool → Item → Except Failure (List Bool)}
    {added : Item → Nat → Prop} {items : List Item}
    (each : ∀ item ∈ items, AddsMarks count (fun before => step before item) (added item)) :
    AddsMarks count (fun before => items.foldlM step before)
      fun place => ∃ item ∈ items, added item place := by
  induction items with
  | nil => exact fun before length => ⟨before, rfl, length, by simp⟩
  | cons item items ih =>
      intro before length
      obtain ⟨middle, head, middleLength, middleMarks⟩ := each item List.mem_cons_self before length
      obtain ⟨after, rest, afterLength, afterMarks⟩ :=
        ih (fun other member => each other (List.mem_cons_of_mem _ member)) middle middleLength
      refine ⟨after, ?_, afterLength, fun place => ?_⟩
      · exact List.foldlM_cons.trans (bind_eq_ok.mpr ⟨middle, head, rest⟩)
      · have parts := List.exists_mem_cons_iff (fun other => added other place) item items
        exact (afterMarks place).trans (((or_congr_left (middleMarks place)).trans or_assoc).trans
          (or_congr_right parts.symm))

/-- From no marks at all, exactly the given positions are marked. -/
theorem ofNone {step : List Bool → Except Failure (List Bool)} {added : Nat → Prop}
    (adds : AddsMarks count step added) :
    ∃ marks : List Bool, step (List.replicate count false) = .ok marks ∧ marks.length = count ∧
      ∀ place : Nat, marks[place]? = some true ↔ added place := by
  obtain ⟨marks, success, length, marked⟩ := adds _ List.length_replicate
  refine ⟨marks, success, length, fun place => (marked place).trans (or_iff_right fun never => ?_)⟩
  rw [List.getElem?_replicate] at never
  split at never <;> cases never

end AddsMarks

/-- A position is unmarked. -/
def isUnmarked (marks : List Bool) (place : Nat) : Bool :=
  !(marks[place]?).getD false

theorem isUnmarked_iff {marks : List Bool} {place : Nat} :
    isUnmarked marks place = true ↔ ¬ marks[place]? = some true := by
  unfold isUnmarked
  cases marks[place]? <;> simp

/-- What is made of the unmarked positions. -/
theorem filterMap_unmarked {marks : List Bool} {find : Nat → Option Made} {make : Nat → Made}
    (found : ∀ place < marks.length, find place = some (make place)) :
    (marks.zipIdx.filterMap fun entry : Bool × Nat => if entry.1 then none else find entry.2) =
      ((List.range marks.length).filter (isUnmarked marks)).map make := by
  have pairs : marks.zipIdx =
      (List.range marks.length).map fun place => ((marks[place]?).getD false, place) := by
    refine List.ext_getElem (by simp) fun place below inside => ?_
    have within : place < marks.length := by simpa using inside
    simp [List.getElem?_eq_getElem within]
  rw [pairs, List.filterMap_map, ← List.filterMap_eq_filter, List.map_filterMap]
  refine List.filterMap_congr fun place member => ?_
  have made := found place (List.mem_range.mp member)
  cases mark : (marks[place]?).getD false <;> simp [isUnmarked, mark, made, Option.guard]

end Boomerang.Foundation
