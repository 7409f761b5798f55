import Mathlib.Logic.Basic
import Mathlib.Order.Basic

/-!
# Labelled transition systems

`Steps step` is the relation of finite runs of `step`. A run keeps the labels it
took, in order. Three induction rules serve the rest of the development: an invariant
kept by every step is kept by every run, a transitive relation that every step
establishes relates the ends of every run, and two properties of transitions that agree
under an invariant they keep hold along the same runs.
-/

namespace Boomerang.Foundation

universe u v

variable {State : Type u} {Label : Type v}

/-- Zero or more steps, with the labels taken in order. -/
inductive Steps (step : State → Label → State → Prop) (start : State) :
    List Label → State → Prop where
  | refl : Steps step start [] start
  | step {labels middle label next} (prior : Steps step start labels middle)
      (transition : step middle label next) : Steps step start (labels ++ [label]) next

namespace Steps

variable {step : State → Label → State → Prop}

/-- One step is a run. -/
theorem single {state next : State} {label : Label} (transition : step state label next) :
    Steps step state [label] next :=
  .step .refl transition

/-- A run is one of any relation that has its steps. -/
theorem mono {other : State → Label → State → Prop} {first last : State} {labels : List Label}
    (run : Steps step first labels last)
    (weaker : ∀ state label next, step state label next → other state label next) :
    Steps other first labels last := by
  induction run with
  | refl => exact .refl
  | step _ transition ih => exact .step ih (weaker _ _ _ transition)

/-- A run without labels stays where it is. -/
theorem eq_of_nil {first last : State} (run : Steps step first [] last) : last = first := by
  generalize labelsEq : [] = labels at run
  cases run with
  | refl => rfl
  | step prior transition => exact absurd labelsEq (by simp)

/-- Compose two runs that meet at one state. -/
theorem trans {first middle last : State} {before after : List Label}
    (left : Steps step first before middle) (right : Steps step middle after last) :
    Steps step first (before ++ after) last := by
  induction right with
  | refl => simpa using left
  | step _ transition ih =>
      rw [← List.append_assoc]
      exact .step ih transition

/-- A step in front of a run. -/
theorem cons {first middle last : State} {label : Label} {labels : List Label}
    (transition : step first label middle) (run : Steps step middle labels last) :
    Steps step first (label :: labels) last :=
  (single transition).trans run

/-- Split a run at any point of its label list. -/
theorem split {first last : State} {before after : List Label}
    (run : Steps step first (before ++ after) last) :
    ∃ middle, Steps step first before middle ∧ Steps step middle after last := by
  generalize labelsEq : before ++ after = labels at run
  induction run generalizing before after with
  | refl =>
      obtain ⟨rfl, rfl⟩ := List.append_eq_nil_iff.mp labelsEq
      exact ⟨_, .refl, .refl⟩
  | @step labels middle label next prior transition ih =>
      rcases List.eq_nil_or_concat after with rfl | ⟨shorter, lastLabel, rfl⟩
      · rw [List.append_nil] at labelsEq
        subst labelsEq
        exact ⟨_, .step prior transition, .refl⟩
      · rw [List.concat_eq_append, ← List.append_assoc] at labelsEq
        obtain ⟨sameInit, sameLast⟩ := List.append_inj' labelsEq rfl
        obtain ⟨cut, left, right⟩ := ih sameInit
        cases List.singleton_inj.mp sameLast
        exact ⟨cut, left, by simpa using Steps.step right transition⟩

/-- An invariant that every step keeps holds at the end of every run. -/
theorem invariant {Inv : State → Prop} {state last : State} {labels : List Label}
    (run : Steps step state labels last) (holds : Inv state)
    (kept : ∀ state label next, Inv state → step state label next → Inv next) : Inv last := by
  induction run with
  | refl => exact holds
  | step _ transition ih => exact kept _ _ _ ih transition

/-- As `invariant`, where only labels meeting `Allowed` keep it. -/
theorem invariant_of_labels {Inv : State → Prop} {Allowed : Label → Prop}
    {state last : State} {labels : List Label}
    (run : Steps step state labels last) (holds : Inv state)
    (allowed : ∀ label ∈ labels, Allowed label)
    (kept : ∀ state label next, Inv state → Allowed label → step state label next → Inv next) :
    Inv last := by
  induction run with
  | refl => exact holds
  | step _ transition ih =>
      refine kept _ _ _ (ih fun label member => ?_) (allowed _ ?_) transition
      · exact allowed label (List.mem_append_left _ member)
      · simp

/-- Take the first step off a run. -/
theorem uncons {step : State → Label → State → Prop} {first last : State} {label : Label}
    {labels : List Label} (run : Steps step first (label :: labels) last) :
    ∃ middle, step first label middle ∧ Steps step middle labels last := by
  obtain ⟨middle, head, tail⟩ := @split _ _ _ _ _ [label] labels run
  generalize labelsEq : [label] = taken at head
  cases head with
  | refl => cases labelsEq
  | @step before _ _ _ prior transition =>
      obtain ⟨beforeEq, same⟩ := List.append_inj' (show [] ++ [label] = _ from labelsEq) rfl
      cases List.singleton_inj.mp same
      generalize before = front at prior beforeEq
      cases prior with
      | refl => exact ⟨middle, transition, tail⟩
      | step => simp at beforeEq

end Steps

/-- A property of transitions holds at every transition of every run that takes the
labels between the two states. -/
def Along (step : State → Label → State → Prop) (first : State) (labels : List Label)
    (last : State) (holds : State → Label → State → Prop) : Prop :=
  ∀ before label after state next, labels = before ++ label :: after →
    Steps step first before state → step state label next → Steps step next after last →
      holds state label next

namespace Along

variable {step : State → Label → State → Prop} {first last : State} {labels : List Label}
variable {Inv : State → Prop} {holds others : State → Label → State → Prop}

/-- What holds along a run holds along its beginnings. -/
theorem initial {before after : List Label} {middle : State}
    (along : Along step first (before ++ after) last holds) (tail : Steps step middle after last) :
    Along step first before middle holds := by
  rintro front label back state next rfl prior transition rest
  exact along front label (back ++ after) state next (by simp) prior transition (rest.trans tail)

/-- An invariant that every step with the property keeps holds at the end of the run. -/
theorem invariant (run : Steps step first labels last) (start : Inv first)
    (along : Along step first labels last holds)
    (kept : ∀ state label next, Inv state → step state label next → holds state label next →
      Inv next) : Inv last := by
  induction run with
  | refl => exact start
  | step prior transition ih =>
      exact kept _ _ _ (ih (along.initial (.single transition))) transition
        (along _ _ [] _ _ rfl prior transition .refl)

/-- Of two properties that agree under an invariant they keep, the second holds along
the runs that the first holds along. -/
theorem of_agree (start : Inv first) (along : Along step first labels last holds)
    (agree : ∀ state label next, Inv state → step state label next →
      (holds state label next ↔ others state label next))
    (kept : ∀ state label next, Inv state → step state label next → holds state label next →
      Inv next) : Along step first labels last others := by
  rintro before label after state next rfl prior transition rest
  have here : Inv state := (along.initial (.cons transition rest)).invariant prior start kept
  exact (agree state label next here transition).mp
    (along before label after state next rfl prior transition rest)

/-- Two properties that agree under an invariant they keep hold along the same runs. -/
theorem iff_of_agree (start : Inv first)
    (agree : ∀ state label next, Inv state → step state label next →
      (holds state label next ↔ others state label next))
    (kept : ∀ state label next, Inv state → step state label next → holds state label next →
      Inv next) :
    Along step first labels last holds ↔ Along step first labels last others := by
  constructor
  · intro along
    exact along.of_agree start agree kept
  · intro along
    refine along.of_agree start (fun state label next here transition =>
      (agree state label next here transition).symm) ?_
    intro state label next here transition held
    exact kept state label next here transition ((agree state label next here transition).mpr held)

end Along

/-- A property of states holds at every state of every run that takes the labels between
the two states. -/
def Throughout (step : State → Label → State → Prop) (first : State) (labels : List Label)
    (last : State) (holds : State → Prop) : Prop :=
  ∀ before after state, labels = before ++ after → Steps step first before state →
    Steps step state after last → holds state

/-- Every state of a run is its first or the end of one of its transitions. -/
theorem throughout_iff {step : State → Label → State → Prop} {first last : State}
    {labels : List Label} {holds : State → Prop} (run : Steps step first labels last) :
    Throughout step first labels last holds ↔
      holds first ∧ Along step first labels last fun _ _ next => holds next := by
  constructor
  · intro throughout
    refine ⟨throughout [] labels first rfl .refl run, ?_⟩
    rintro before label after state next rfl prior transition rest
    exact throughout (before ++ [label]) after next (by simp) (.step prior transition) rest
  · rintro ⟨start, along⟩ before after state rfl prior rest
    cases prior with
    | refl => exact start
    | step prior transition =>
        exact along _ _ after _ _ (List.append_assoc _ _ _) prior transition rest

end Boomerang.Foundation
