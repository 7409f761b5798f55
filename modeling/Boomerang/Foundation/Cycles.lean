import Mathlib.Data.Fintype.Pigeonhole
import Mathlib.Data.Set.Finite.Basic
import Mathlib.Logic.Relation

/-!
# Vertices from which a cycle is reached

A finite region in which every vertex has a successor leads into a cycle, and one in
which every step decreases a measure does not.
-/

namespace Boomerang.Foundation

open Relation

variable {Vertex : Type} {step : Vertex → Vertex → Prop}

/-- A cycle can be reached from a vertex. -/
def ReachesCycle (step : Vertex → Vertex → Prop) (start : Vertex) : Prop :=
  ∃ vertex, ReflTransGen step start vertex ∧ TransGen step vertex vertex

/-- The places of an infinite walk, the later from the earlier. -/
theorem transGen_of_walk {walk : Nat → Vertex}
    (walks : ∀ place, step (walk place) (walk (place + 1)))
    {first last : Nat} (less : first < last) : TransGen step (walk first) (walk last) := by
  induction last, less using Nat.le_induction with
  | base => exact .single (walks first)
  | succ last _ ih => exact ih.tail (walks last)

theorem reflTransGen_of_walk {walk : Nat → Vertex}
    (walks : ∀ place, step (walk place) (walk (place + 1))) (last : Nat) :
    ReflTransGen step (walk 0) (walk last) := by
  induction last with
  | zero => exact .refl
  | succ last ih => exact ih.tail (walks last)

/-- A walk that stays in a finite region meets a vertex twice. -/
theorem reachesCycle_of_successors (region : List Vertex)
    (next : ∀ vertex ∈ region, ∃ after ∈ region, step vertex after) {start : Vertex}
    (inside : start ∈ region) : ReachesCycle step start := by
  choose after stays steps using next
  let advance : { vertex // vertex ∈ region } → { vertex // vertex ∈ region } :=
    fun vertex => ⟨after vertex.1 vertex.2, stays vertex.1 vertex.2⟩
  let walk : Nat → Vertex := fun place => (advance^[place] ⟨start, inside⟩).1
  have walks : ∀ place, step (walk place) (walk (place + 1)) := by
    intro place
    have taken : advance^[place + 1] ⟨start, inside⟩ = advance (advance^[place] ⟨start, inside⟩) :=
      Function.iterate_succ_apply' _ _ _
    dsimp only [walk]
    rw [taken]
    exact steps _ _
  have finite : Finite { vertex // vertex ∈ region } := region.finite_toSet.to_subtype
  obtain ⟨first, last, different, same⟩ :=
    Finite.exists_ne_map_eq_of_infinite fun place => advance^[place] ⟨start, inside⟩
  have met : walk first = walk last := congrArg Subtype.val same
  rcases Nat.lt_or_gt_of_ne different with less | more
  · have cycle := transGen_of_walk walks less
    rw [← met] at cycle
    exact ⟨walk first, reflTransGen_of_walk walks first, cycle⟩
  · have cycle := transGen_of_walk walks more
    rw [met] at cycle
    exact ⟨walk last, reflTransGen_of_walk walks last, cycle⟩

/-- No cycle is reached where every step stays in the region and decreases a measure. -/
theorem not_reachesCycle_of_decreasing (region : Vertex → Prop) (measure : Vertex → Nat)
    (decreases : ∀ vertex after, region vertex → step vertex after →
      region after ∧ measure after < measure vertex) {start : Vertex} (inside : region start) :
    ¬ ReachesCycle step start := by
  rintro ⟨vertex, reached, cycle⟩
  have here : region vertex := by
    clear cycle
    induction reached with
    | refl => exact inside
    | tail _ taken ih => exact (decreases _ _ ih taken).1
  have less : ∀ after, TransGen step vertex after →
    region after ∧ measure after < measure vertex := by
    intro after path
    induction path with
    | single taken => exact decreases _ _ here taken
    | tail _ taken ih =>
        obtain ⟨there, lower⟩ := decreases _ _ ih.1 taken
        exact ⟨there, Nat.lt_trans lower ih.2⟩
  exact Nat.lt_irrefl _ (less vertex cycle).2

end Boomerang.Foundation
