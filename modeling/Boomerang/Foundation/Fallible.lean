import Mathlib.Data.List.Basic

/-!
# Runs that may fail

What is known when a computation in `Except` has succeeded.
-/

namespace Boomerang.Foundation

universe u

variable {Failure : Type u} {First Second Third : Type u}

theorem bind_eq_ok {first : Except Failure First} {next : First → Except Failure Second}
    {result : Second} :
    (first >>= next) = .ok result ↔ ∃ value, first = .ok value ∧ next value = .ok result := by
  cases first with
  | error failure => exact ⟨fun impossible => (nomatch impossible), fun ⟨_, impossible, _⟩ =>
      (nomatch impossible)⟩
  | ok value => exact ⟨fun success => ⟨value, rfl, success⟩, fun ⟨_, same, success⟩ => by
      cases same
      exact success⟩

theorem bind_returns {first : Except Failure First} {next : First → Except Failure Second}
    {value : First} (head : first = .ok value) (tail : ∃ result, next value = .ok result) :
    ∃ result, (first >>= next) = .ok result := by
  obtain ⟨result, success⟩ := tail
  exact ⟨result, bind_eq_ok.mpr ⟨value, head, success⟩⟩

theorem mapError_eq_ok {change : First → Second} {run : Except First Third} {result : Third} :
    run.mapError change = .ok result ↔ run = .ok result := by
  cases run with
  | error failure => exact ⟨fun impossible => (nomatch impossible), fun impossible =>
      (nomatch impossible)⟩
  | ok value => exact ⟨fun success => congrArg _ (Except.ok.inj success), fun success =>
      congrArg _ (Except.ok.inj success)⟩

theorem toOption_eq_some {run : Except Failure First} {result : First} :
    run.toOption = some result ↔ run = .ok result := by
  cases run with
  | error failure => exact ⟨fun impossible => (nomatch impossible), fun impossible =>
      (nomatch impossible)⟩
  | ok value => exact ⟨fun success => congrArg _ (Option.some.inj success), fun success =>
      congrArg _ (Except.ok.inj success)⟩

/-- Each item of a successful `mapM` is the result for the item in its place. -/
theorem mapM_ok {run : First → Except Failure Second} {items : List First} {results : List Second}
    (success : items.mapM run = .ok results) :
    List.Forall₂ (fun item result => run item = .ok result) items results := by
  induction items generalizing results with
  | nil =>
      cases success
      exact .nil
  | cons item items ih =>
      rw [List.mapM_cons] at success
      obtain ⟨result, head, success⟩ := bind_eq_ok.mp success
      obtain ⟨rest, tail, success⟩ := bind_eq_ok.mp success
      cases success
      exact .cons head (ih tail)

/-- A `mapM` has the results of its items. -/
theorem mapM_of_forall₂ {run : First → Except Failure Second} {items : List First}
    {results : List Second}
    (each : List.Forall₂ (fun item result => run item = .ok result) items results) :
    items.mapM run = .ok results := by
  induction each with
  | nil => rfl
  | cons head _ ih =>
      rw [List.mapM_cons, head, ih]
      rfl

/-- The result for an item of a successful `mapM`. -/
theorem mapM_getElem? {run : First → Except Failure Second} {items : List First}
    {results : List Second} (success : items.mapM run = .ok results) (index : Nat) :
    (items[index]? = none ∧ results[index]? = none) ∨
      ∃ item result, items[index]? = some item ∧ results[index]? = some result ∧
        run item = .ok result := by
  have related := mapM_ok success
  clear success
  induction related generalizing index with
  | nil => exact Or.inl ⟨rfl, rfl⟩
  | @cons item result items results head _ ih =>
      cases index with
      | zero => exact Or.inr ⟨item, result, rfl, rfl, head⟩
      | succ index => exact ih index

/-- The results of a successful `mapM` are the results of its items. -/
theorem mem_mapM_ok {run : First → Except Failure Second} {items : List First}
    {results : List Second} (success : items.mapM run = .ok results) {result : Second} :
    result ∈ results ↔ ∃ item ∈ items, run item = .ok result := by
  have related := mapM_ok success
  clear success
  induction related with
  | nil => simp
  | @cons item first items results head _ ih =>
      have only : run item = .ok result ↔ result = first := by
        rw [head, Except.ok.injEq, eq_comm]
      simp [ih, only]

/-- Every item of a successful `mapM` has a result. -/
theorem exists_of_mapM_ok {run : First → Except Failure Second} {items : List First}
    {results : List Second} (success : items.mapM run = .ok results) {item : First}
    (member : item ∈ items) : ∃ result ∈ results, run item = .ok result := by
  obtain ⟨index, here⟩ := List.getElem?_of_mem member
  rcases mapM_getElem? success index with ⟨none, _⟩ | ⟨_, result, there, resultHere, ran⟩
  · cases none.symm.trans here
  · cases there.symm.trans here
    exact ⟨result, List.mem_of_getElem? resultHere, ran⟩

theorem exists_mapM_ok {run : First → Except Failure Second} {items : List First}
    (each : ∀ item ∈ items, ∃ result, run item = .ok result) :
    ∃ results, items.mapM run = .ok results := by
  induction items with
  | nil => exact ⟨[], rfl⟩
  | cons item items ih =>
      obtain ⟨result, head⟩ := each item List.mem_cons_self
      obtain ⟨results, tail⟩ := ih fun other member => each other (List.mem_cons_of_mem _ member)
      exact ⟨result :: results, by rw [List.mapM_cons, head, tail]; rfl⟩

/-- A loop that computes a value for each item and puts it into its state. -/
theorem foldlM_eq_ok {State : Type u} {run : First → Except Failure Second}
    {put : State → Second → State} {items : List First} {start final : State} :
    items.foldlM (fun state item => do return put state (← run item)) start = .ok final ↔
      ∃ results, items.mapM run = .ok results ∧ results.foldl put start = final := by
  induction items generalizing start with
  | nil => exact ⟨fun success => ⟨[], rfl, Except.ok.inj success⟩, by rintro ⟨_, ⟨⟩, rfl⟩; rfl⟩
  | cons item items ih =>
      rw [List.foldlM_cons, List.mapM_cons]
      constructor
      · intro success
        obtain ⟨_, head, success⟩ := bind_eq_ok.mp success
        obtain ⟨result, ran, head⟩ := bind_eq_ok.mp head
        cases head
        obtain ⟨results, tail, rfl⟩ := ih.mp success
        exact ⟨result :: results, bind_eq_ok.mpr ⟨_, ran, bind_eq_ok.mpr ⟨_, tail, rfl⟩⟩, rfl⟩
      · rintro ⟨_, success, rfl⟩
        obtain ⟨result, ran, success⟩ := bind_eq_ok.mp success
        obtain ⟨results, tail, success⟩ := bind_eq_ok.mp success
        cases success
        exact bind_eq_ok.mpr ⟨_, bind_eq_ok.mpr ⟨_, ran, rfl⟩, ih.mpr ⟨results, tail, rfl⟩⟩

/-- A `mapM` that succeeds on every item. -/
theorem mapM_of_forall {run : First → Except Failure Second} {value : First → Second}
    {items : List First} (each : ∀ item ∈ items, run item = .ok (value item)) :
    items.mapM run = .ok (items.map value) := by
  induction items with
  | nil => rfl
  | cons item items ih =>
      rw [List.mapM_cons, each item List.mem_cons_self,
        ih fun other member => each other (List.mem_cons_of_mem _ member)]
      rfl

/-- A `filterMapM` that succeeds on every item. -/
theorem filterMapM_of_forall {run : First → Except Failure (Option Second)}
    {value : First → Option Second} {items : List First}
    (each : ∀ item ∈ items, run item = .ok (value item)) :
    items.filterMapM run = .ok (items.filterMap value) := by
  induction items with
  | nil => rfl
  | cons item items ih =>
      rw [List.filterMapM_cons, each item List.mem_cons_self,
        ih fun other member => each other (List.mem_cons_of_mem _ member), List.filterMap_cons]
      cases value item <;> rfl

/-- The results of a successful `filterMapM`, by the results for the items. -/
theorem filterMapM_ok {run : First → Except Failure (Option Second)} {items : List First}
    {results : List Second} (success : items.filterMapM run = .ok results) :
    (∀ item ∈ items, ∃ result, run item = .ok result) ∧
      results = items.filterMap fun item => (run item).toOption.join := by
  induction items generalizing results with
  | nil =>
      cases success
      exact ⟨by simp, rfl⟩
  | cons item items ih =>
      rw [List.filterMapM_cons] at success
      obtain ⟨result, head, success⟩ := bind_eq_ok.mp success
      have rest : ∃ others, items.filterMapM run = .ok others ∧
          results = result.toList ++ others := by
        cases result with
        | none => exact ⟨results, success, rfl⟩
        | some kept =>
            obtain ⟨others, tail, success⟩ := bind_eq_ok.mp success
            cases success
            exact ⟨others, tail, rfl⟩
      obtain ⟨others, tail, rfl⟩ := rest
      obtain ⟨each, rfl⟩ := ih tail
      refine ⟨?_, ?_⟩
      · intro other member
        rcases List.mem_cons.mp member with rfl | late
        · exact ⟨result, head⟩
        · exact each other late
      · rw [List.filterMap_cons, head]
        cases result <;> rfl

theorem exists_filterMapM_ok {run : First → Except Failure (Option Second)} {items : List First}
    (each : ∀ item ∈ items, ∃ result, run item = .ok result) :
    ∃ results, items.filterMapM run = .ok results := by
  refine ⟨items.filterMap fun item => (run item).toOption.join, filterMapM_of_forall ?_⟩
  intro item member
  obtain ⟨result, success⟩ := each item member
  rw [success]
  rfl

/-- A `mapM` over the items kept that succeeds on each of them. -/
theorem mapM_filterMap {keep : First → Option Second} {run : Second → Except Failure Third}
    {value : First → Second → Third} {items : List First}
    (each : ∀ item ∈ items, ∀ kept, keep item = some kept → run kept = .ok (value item kept)) :
    (items.filterMap keep).mapM run =
      .ok (items.filterMap fun item => (keep item).map (value item)) := by
  induction items with
  | nil => rfl
  | cons item items ih =>
      have rest := ih fun other member => each other (List.mem_cons_of_mem _ member)
      rw [List.filterMap_cons, List.filterMap_cons]
      cases kept : keep item with
      | none => exact rest
      | some found =>
          dsimp only [Option.map_some]
          rw [List.mapM_cons, each item List.mem_cons_self found kept, rest]
          rfl

/-- A fold whose steps succeed and keep an invariant succeeds and keeps it. -/
theorem foldlM_returns {State : Type u} {run : State → First → Except Failure State}
    {Inv : State → Prop} {items : List First} {state : State} (holds : Inv state)
    (step : ∀ item ∈ items, ∀ before, Inv before → ∃ after, run before item = .ok after ∧
      Inv after) :
    ∃ last, items.foldlM run state = .ok last ∧ Inv last := by
  induction items generalizing state with
  | nil => exact ⟨state, rfl, holds⟩
  | cons item items ih =>
      obtain ⟨after, success, kept⟩ := step item List.mem_cons_self state holds
      obtain ⟨last, rest, lastHolds⟩ := ih kept fun other member =>
        step other (List.mem_cons_of_mem _ member)
      exact ⟨last, bind_eq_ok.mpr ⟨after, success, rest⟩, lastHolds⟩

end Boomerang.Foundation
