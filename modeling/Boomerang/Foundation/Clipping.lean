import Mathlib.Algebra.BigOperators.Group.List.Basic
import Mathlib.Algebra.GroupWithZero.Nat

/-!
# Clipping

Every letter has a weight. A text is clipped to the longest front of it whose weight is
within a limit.
-/

namespace Boomerang.Foundation

variable {Letter : Type} {weight : Letter → Nat} {limit : Nat} {front text : List Letter}

/-- The weight of a text. -/
def totalWeight (weight : Letter → Nat) (text : List Letter) : Nat := (text.map weight).sum

/-- The longest front of a text within a limit. -/
def clip (weight : Letter → Nat) : Nat → List Letter → List Letter
  | _, [] => []
  | limit, letter :: rest =>
      if weight letter ≤ limit then letter :: clip weight (limit - weight letter) rest else []

theorem totalWeight_cons {letter : Letter} :
    totalWeight weight (letter :: text) = weight letter + totalWeight weight text := by
  rw [totalWeight, List.map_cons, List.sum_cons, totalWeight]

/-- What fits stays in front, and what follows has the limit that is left. -/
theorem clip_append (fits : totalWeight weight front ≤ limit) (back : List Letter) :
    clip weight limit (front ++ back) =
      front ++ clip weight (limit - totalWeight weight front) back := by
  induction front generalizing limit with
  | nil => rfl
  | cons letter front ih =>
      rw [totalWeight_cons] at fits
      have here : weight letter ≤ limit := by omega
      have later : totalWeight weight front ≤ limit - weight letter := by omega
      rw [List.cons_append, clip, if_pos here, ih later, totalWeight_cons, Nat.sub_sub,
        List.cons_append]

/-- What fits is not clipped. -/
theorem clip_of_fits (fits : totalWeight weight text ≤ limit) : clip weight limit text = text := by
  have whole := clip_append fits []
  rwa [List.append_nil, clip, List.append_nil] at whole

/-- What is clipped is in front. -/
theorem clip_isPrefix (limit : Nat) (text : List Letter) : clip weight limit text <+: text := by
  induction text generalizing limit with
  | nil => exact List.prefix_rfl
  | cons letter text ih =>
      rw [clip]
      split
      · exact (List.prefix_cons_inj letter).mpr (ih _)
      · exact List.nil_prefix

/-- What is clipped is within the limit. -/
theorem totalWeight_clip (limit : Nat) (text : List Letter) :
    totalWeight weight (clip weight limit text) ≤ limit := by
  induction text generalizing limit with
  | nil => exact Nat.zero_le _
  | cons letter text ih =>
      rw [clip]
      split
      · rename_i fits
        have rest := ih (limit - weight letter)
        rw [totalWeight_cons]
        omega
      · exact Nat.zero_le _

/-- No longer front is within the limit. -/
theorem isPrefix_clip {limit : Nat} (starts : front <+: text)
    (fits : totalWeight weight front ≤ limit) : front <+: clip weight limit text := by
  obtain ⟨back, rfl⟩ := starts
  rw [clip_append fits]
  exact List.prefix_append _ _

end Boomerang.Foundation
