import Boomerang.Foundation.Transition
import Mathlib.Order.Lattice
import Mathlib.Order.Basic
import Mathlib.Data.Nat.Basic
import Mathlib.Tactic.Common

/-!
# Release and acquire memory

Every location keeps its writes by their place in its modification order, and every
thread a view: how far into each of these orders it has seen. A load may answer with
any write at or past the view. A release store leaves the storing thread's view in its
message, and an acquire load joins it to the loading thread's; a plain write leaves
nothing, so who reads it must have been told of it by other means. A lock hands its
holder the view of those who held it before.

Places are numbers with gaps: a store takes any free place past its thread's view, and
a read-modify-write the place right after the write it reads.
-/

namespace Boomerang.Foundation

universe u

variable {Loc : Type u}

/-- How far a thread has seen into the modification order of each location. -/
abbrev View (Loc : Type u) := Loc → Nat

/-- A write: its value, the view it releases, and whether it is a plain one. -/
structure Message (Loc : Type u) where
  value : Nat
  view : View Loc
  plain : Bool

/-- The writes to each location by their place in its modification order. -/
abbrev Histories (Loc : Type u) := Loc → Nat → Option (Message Loc)

namespace View

/-- What a thread has seen after plain writes to many locations. -/
def wrote (view : View Loc) (stamps : View Loc) (values : Loc → Option Nat) : View Loc :=
  fun loc => if (values loc).isSome then max (view loc) (stamps loc) else view loc

theorem le_wrote (view stamps : View Loc) (values : Loc → Option Nat) :
    view ≤ view.wrote stamps values := by
  intro loc
  simp only [wrote]
  split
  · exact Nat.le_max_left _ _
  · exact Nat.le_refl _

theorem le_wrote_self (view stamps : View Loc) {values : Loc → Option Nat} {loc : Loc}
    (written : (values loc).isSome) : stamps loc ≤ view.wrote stamps values loc := by
  simp [wrote, written]

variable [DecidableEq Loc]

/-- See a location up to a place. -/
def observe (view : View Loc) (loc : Loc) (stamp : Nat) : View Loc := fun other =>
  if other = loc then max (view loc) stamp else view other

/-- What a thread has seen after an acquire load. -/
def acquire (view : View Loc) (loc : Loc) (stamp : Nat) (message : Message Loc) : View Loc :=
  (view ⊔ message.view).observe loc stamp

theorem le_observe (view : View Loc) (loc : Loc) (stamp : Nat) : view ≤ view.observe loc stamp := by
  intro other
  simp only [observe]
  split
  · rename_i same
    subst same
    exact Nat.le_max_left _ _
  · exact Nat.le_refl _

theorem le_observe_self (view : View Loc) (loc : Loc) (stamp : Nat) :
    stamp ≤ view.observe loc stamp loc := by
  simp [observe]

theorem observe_other (view : View Loc) {loc other : Loc} (stamp : Nat) (different : other ≠ loc) :
    view.observe loc stamp other = view other := by
  simp [observe, different]

theorem le_acquire (view : View Loc) (loc : Loc) (stamp : Nat) (message : Message Loc) :
    view ≤ view.acquire loc stamp message :=
  le_trans le_sup_left (le_observe _ _ _)

theorem message_le_acquire (view : View Loc) (loc : Loc) (stamp : Nat) (message : Message Loc) :
    message.view ≤ view.acquire loc stamp message :=
  le_trans le_sup_right (le_observe _ _ _)

end View

namespace Histories

/-- Add one write. -/
def put [DecidableEq Loc] (histories : Histories Loc) (loc : Loc) (stamp : Nat)
    (message : Message Loc) : Histories Loc := fun other place =>
  if other = loc ∧ place = stamp then some message else histories other place

/-- Add plain writes to many locations. -/
def fill (histories : Histories Loc) (stamps : View Loc) (values : Loc → Option Nat) :
    Histories Loc := fun loc place =>
  match values loc with
  | none => histories loc place
  | some value => if place = stamps loc then some ⟨value, fun _ => 0, true⟩ else histories loc place

/-- No write is lost or changed. -/
def Extends (before after : Histories Loc) : Prop :=
  ∀ loc stamp message, before loc stamp = some message → after loc stamp = some message

/-- A load may answer with this write. -/
structure Loads (histories : Histories Loc) (view : View Loc) (loc : Loc) (stamp : Nat)
    (message : Message Loc) : Prop where
  found : histories loc stamp = some message
  recent : view loc ≤ stamp

/-- A store may take this place. -/
structure Vacant (histories : Histories Loc) (view : View Loc) (loc : Loc)
    (stamp : Nat) : Prop where
  free : histories loc stamp = none
  later : view loc < stamp

/-- Every write to the location comes before this place. -/
def Past (histories : Histories Loc) (loc : Loc) (stamp : Nat) : Prop :=
  ∀ other message, histories loc other = some message → other < stamp

/-- The view is past every write to the location. -/
def Seen (histories : Histories Loc) (view : View Loc) (loc : Loc) : Prop :=
  ∀ stamp message, histories loc stamp = some message → stamp ≤ view loc

/-- The last write to the location has this value. -/
def Ends (histories : Histories Loc) (loc : Loc) (value : Nat) : Prop :=
  ∃ stamp message, histories loc stamp = some message ∧ message.value = value ∧
    ∀ other later, histories loc other = some later → other ≤ stamp

/-- From a place on, later writes to the location have no smaller values. -/
def Ascends (histories : Histories Loc) (first : Nat) (loc : Loc) : Prop :=
  ∀ stamp message later next, first ≤ stamp → stamp ≤ later →
    histories loc stamp = some message → histories loc later = some next →
      message.value ≤ next.value

/-- The view is past a write, from a place on, of at least this value. -/
def AtLeast (histories : Histories Loc) (first : Nat) (view : View Loc) (loc : Loc)
    (bound : Nat) : Prop :=
  ∃ stamp message, first ≤ stamp ∧ stamp ≤ view loc ∧ histories loc stamp = some message ∧
    bound ≤ message.value

variable {histories next : Histories Loc} {view larger : View Loc} {loc : Loc} {stamp : Nat}
variable {message : Message Loc}

theorem Extends.refl (histories : Histories Loc) : Extends histories histories :=
  fun _ _ _ found => found

theorem Seen.mono (seen : Seen histories view loc) (le : view ≤ larger) :
    Seen histories larger loc :=
  fun stamp message found => Nat.le_trans (seen stamp message found) (le loc)

theorem Seen.congr (seen : Seen histories view loc) (same : next loc = histories loc) :
    Seen next view loc :=
  fun stamp message found => seen stamp message (same ▸ found)

theorem Ends.congr {value : Nat} (ends : Ends histories loc value)
    (same : next loc = histories loc) :
    Ends next loc value := by
  obtain ⟨stamp, message, found, valueEq, last⟩ := ends
  exact ⟨stamp, message, same ▸ found, valueEq, fun other later here =>
    last other later (same ▸ here)⟩

theorem Ascends.congr {first : Nat} (ascends : Ascends histories first loc)
    (same : next loc = histories loc) : Ascends next first loc := by
  intro stamp message later following past ordered here there
  exact ascends stamp message later following past ordered (same ▸ here) (same ▸ there)

theorem AtLeast.mono {first bound : Nat} (atLeast : AtLeast histories first view loc bound)
    (extends' : Extends histories next) (le : view ≤ larger) :
    AtLeast next first larger loc bound := by
  obtain ⟨stamp, message, past, seen, found, large⟩ := atLeast
  exact ⟨stamp, message, past, Nat.le_trans seen (le loc), extends' _ _ _ found, large⟩

theorem AtLeast.weaken {first bound smaller : Nat}
    (atLeast : AtLeast histories first view loc bound) (le : smaller ≤ bound) :
    AtLeast histories first view loc smaller := by
  obtain ⟨stamp, message, past, seen, found, large⟩ := atLeast
  exact ⟨stamp, message, past, seen, found, Nat.le_trans le large⟩

/-- Who has seen every write loads the last one. -/
theorem Loads.stamp_eq (loads : Loads histories view loc stamp message)
    (seen : Seen histories view loc) : stamp = view loc :=
  Nat.le_antisymm (seen stamp message loads.found) loads.recent

/-- A place past a view of every write is past every write. -/
theorem Seen.past (seen : Seen histories view loc) (later : view loc < stamp) :
    Past histories loc stamp :=
  fun other message found => Nat.lt_of_le_of_lt (seen other message found) later

/-- The place after the last write is past every write. -/
theorem Loads.past_succ (loads : Loads histories view loc stamp message)
    (seen : Seen histories view loc) : Past histories loc (stamp + 1) := by
  rw [loads.stamp_eq seen]
  exact seen.past (Nat.lt_succ_self _)

/-- Who has seen every write loads the value of the last one. -/
theorem Loads.value_eq {value : Nat} (loads : Loads histories view loc stamp message)
    (seen : Seen histories view loc) (ends : Ends histories loc value) : message.value = value := by
  obtain ⟨last, final, found, rfl, latest⟩ := ends
  have same : last = stamp :=
    Nat.le_antisymm (Nat.le_trans (seen last final found) loads.recent)
      (latest stamp message loads.found)
  subst same
  cases found.symm.trans loads.found
  rfl

/-- What is loaded by who has seen every write is last. -/
theorem Loads.ends {value : Nat} (loads : Loads histories view loc stamp message)
    (seen : Seen histories view loc) (valueEq : message.value = value) :
    Ends histories loc value :=
  ⟨stamp, message, loads.found, valueEq, fun other later found =>
    Nat.le_trans (seen other later found) loads.recent⟩

/-- A load past a write finds no smaller value where the values ascend. -/
theorem Loads.le_value {first bound : Nat} (loads : Loads histories view loc stamp message)
    (ascends : Ascends histories first loc) (atLeast : AtLeast histories first view loc bound) :
    bound ≤ message.value := by
  obtain ⟨seenAt, seenMessage, past, seen, found, large⟩ := atLeast
  exact Nat.le_trans large
    (ascends _ _ _ _ past (Nat.le_trans seen loads.recent) found loads.found)

/-- Who has seen every write has seen one of the last value. -/
theorem Ends.atLeast {first value : Nat} (ends : Ends histories loc value)
    (seen : Seen histories view loc)
    (past : ∀ stamp message, histories loc stamp = some message → message.value = value →
      (∀ other later, histories loc other = some later → other ≤ stamp) → first ≤ stamp) :
    AtLeast histories first view loc value := by
  obtain ⟨stamp, message, found, valueEq, last⟩ := ends
  exact ⟨stamp, message, past stamp message found valueEq last, seen stamp message found, found,
    valueEq ▸ Nat.le_refl _⟩

section Put

variable [DecidableEq Loc]

theorem put_self (histories : Histories Loc) (loc : Loc) (stamp : Nat) (message : Message Loc) :
    histories.put loc stamp message loc stamp = some message := by
  simp [put]

theorem put_other (histories : Histories Loc) {loc other : Loc} (stamp : Nat)
    (message : Message Loc) (different : other ≠ loc) :
    histories.put loc stamp message other = histories other := by
  funext place
  simp [put, different]

/-- The writes after one is added are that one and the older ones. -/
theorem put_eq_some {other : Loc} {place : Nat} {found : Message Loc} :
    histories.put loc stamp message other place = some found ↔
      (other = loc ∧ place = stamp ∧ message = found) ∨
        (¬(other = loc ∧ place = stamp) ∧ histories other place = some found) := by
  unfold put
  by_cases here : other = loc ∧ place = stamp
  · simp [here]
  · simp only [here, ↓reduceIte, not_false_eq_true, true_and]
    constructor
    · exact Or.inr
    · rintro (⟨sameLoc, samePlace, _⟩ | found)
      · exact absurd ⟨sameLoc, samePlace⟩ here
      · exact found

theorem Past.extends (past : Past histories loc stamp) (message : Message Loc) :
    Extends histories (histories.put loc stamp message) := by
  intro other place found here
  refine put_eq_some.mpr (Or.inr ⟨?_, here⟩)
  rintro ⟨rfl, rfl⟩
  exact Nat.lt_irrefl _ (past _ _ here)

/-- The storing thread has seen what it had seen and its own write. -/
theorem Seen.put {other : Loc} (seen : Seen histories view other) (loc : Loc) (stamp : Nat)
    (message : Message Loc) :
    Seen (histories.put loc stamp message) (view.observe loc stamp) other := by
  intro place found here
  rcases put_eq_some.mp here with ⟨rfl, rfl, _⟩ | ⟨_, older⟩
  · exact View.le_observe_self _ _ _
  · exact Nat.le_trans (seen place found older) (View.le_observe _ _ _ _)

/-- A store past every write is the last one. -/
theorem Past.ends_put (past : Past histories loc stamp) (message : Message Loc) :
    Ends (histories.put loc stamp message) loc message.value := by
  refine ⟨stamp, message, put_self _ _ _ _, rfl, ?_⟩
  intro other found here
  rcases put_eq_some.mp here with ⟨_, rfl, _⟩ | ⟨_, older⟩
  · exact Nat.le_refl _
  · exact Nat.le_of_lt (past other found older)

/-- A store past every write, of a value no smaller, keeps the values ascending. -/
theorem Ascends.put {first : Nat} (ascends : Ascends histories first loc)
    (past : Past histories loc stamp)
    (large : ∀ place found, first ≤ place → histories loc place = some found →
      found.value ≤ message.value) :
    Ascends (histories.put loc stamp message) first loc := by
  intro place found after following past' ordered here there
  rcases put_eq_some.mp here with ⟨_, rfl, rfl⟩ | ⟨_, older⟩
  · rcases put_eq_some.mp there with ⟨_, _, rfl⟩ | ⟨_, olderThere⟩
    · exact Nat.le_refl _
    · have before := past after following olderThere
      omega
  · rcases put_eq_some.mp there with ⟨_, _, rfl⟩ | ⟨_, olderThere⟩
    · exact large place found past' older
    · exact ascends place found after following past' ordered older olderThere

end Put

section Fill

variable {stamps : View Loc} {values : Loc → Option Nat}

theorem fill_other (unwritten : values loc = none) :
    histories.fill stamps values loc = histories loc := by
  funext place
  simp [fill, unwritten]

theorem fill_self {value : Nat} (written : values loc = some value) :
    histories.fill stamps values loc (stamps loc) = some ⟨value, fun _ => 0, true⟩ := by
  simp [fill, written]

/-- The writes to a filled location are the plain one and the older ones. -/
theorem fill_eq_some {value place : Nat} (written : values loc = some value)
    {found : Message Loc} (here : histories.fill stamps values loc place = some found) :
    (place = stamps loc ∧ found = ⟨value, fun _ => 0, true⟩) ∨
      histories loc place = some found := by
  simp only [fill, written] at here
  split at here
  · rename_i samePlace
    cases here
    exact Or.inl ⟨samePlace, rfl⟩
  · exact Or.inr here

theorem extends_fill (past : ∀ loc, (values loc).isSome → Past histories loc (stamps loc)) :
    Extends histories (histories.fill stamps values) := by
  intro loc place found here
  cases written : values loc with
  | none => rwa [fill_other written]
  | some value =>
      simp only [fill, written]
      rw [if_neg]
      · exact here
      · rintro rfl
        exact Nat.lt_irrefl _ (past loc (by simp [written]) _ _ here)

theorem Seen.fill (seen : Seen histories view loc) (stamps : View Loc)
    (values : Loc → Option Nat) :
    Seen (histories.fill stamps values) (view.wrote stamps values) loc := by
  intro place found here
  cases written : values loc with
  | none =>
      rw [fill_other written] at here
      exact Nat.le_trans (seen place found here) (View.le_wrote _ _ _ _)
  | some value =>
      rcases fill_eq_some written here with ⟨rfl, _⟩ | older
      · exact View.le_wrote_self _ _ (by simp [written])
      · exact Nat.le_trans (seen place found older) (View.le_wrote _ _ _ _)

theorem Past.ends_fill {value : Nat} (past : Past histories loc (stamps loc))
    (written : values loc = some value) : Ends (histories.fill stamps values) loc value := by
  refine ⟨stamps loc, _, fill_self written, rfl, ?_⟩
  intro other found here
  rcases fill_eq_some written here with ⟨rfl, _⟩ | older
  · exact Nat.le_refl _
  · exact Nat.le_of_lt (past other found older)

end Fill

/-- The view is nowhere past the last write, so there is something to load everywhere. -/
def Reached (histories : Histories Loc) (view : View Loc) : Prop :=
  ∀ loc, ∃ stamp message, histories loc stamp = some message ∧ view loc ≤ stamp

namespace Reached

theorem mono (reached : Reached histories view) (extends' : Extends histories next)
    (le : larger ≤ view) : Reached next larger := by
  intro loc
  obtain ⟨stamp, message, found, bound⟩ := reached loc
  exact ⟨stamp, message, extends' _ _ _ found, Nat.le_trans (le loc) bound⟩

theorem loads (reached : Reached histories view) (loc : Loc) :
    ∃ stamp message, histories.Loads view loc stamp message := by
  obtain ⟨stamp, message, found, bound⟩ := reached loc
  exact ⟨stamp, message, found, bound⟩

theorem sup (reached : Reached histories view) (other : Reached histories larger) :
    Reached histories (view ⊔ larger) := by
  intro loc
  rcases Nat.le_total (view loc) (larger loc) with below | above
  · obtain ⟨stamp, message, found, bound⟩ := other loc
    exact ⟨stamp, message, found, Nat.max_le.mpr ⟨Nat.le_trans below bound, bound⟩⟩
  · obtain ⟨stamp, message, found, bound⟩ := reached loc
    exact ⟨stamp, message, found, Nat.max_le.mpr ⟨bound, Nat.le_trans above bound⟩⟩

theorem observe [DecidableEq Loc] (reached : Reached histories view)
    (found : histories loc stamp = some message) : Reached histories (view.observe loc stamp) := by
  intro other
  by_cases same : other = loc
  · subst same
    rcases Nat.le_total stamp (view other) with below | above
    · obtain ⟨place, later, here, bound⟩ := reached other
      exact ⟨place, later, here, by simp [View.observe]; omega⟩
    · exact ⟨stamp, message, found, by simp [View.observe, above]⟩
  · rw [View.observe_other _ _ same]
    exact reached other

theorem acquire [DecidableEq Loc] (reached : Reached histories view)
    (released : Reached histories message.view) (found : histories loc stamp = some message) :
    Reached histories (view.acquire loc stamp message) :=
  (reached.sup released).observe found

theorem wrote {stamps : View Loc} {values : Loc → Option Nat} (reached : Reached histories view)
    (written : ∀ loc, (values loc).isSome → ∃ message, histories loc (stamps loc) = some message) :
    Reached histories (view.wrote stamps values) := by
  intro loc
  simp only [View.wrote]
  split
  · rename_i isWritten
    obtain ⟨message, found⟩ := written loc isWritten
    obtain ⟨place, later, here, bound⟩ := reached loc
    rcases Nat.le_total (stamps loc) (view loc) with below | above
    · exact ⟨place, later, here, Nat.max_le.mpr ⟨bound, Nat.le_trans below bound⟩⟩
    · exact ⟨stamps loc, message, found, Nat.max_le.mpr ⟨above, Nat.le_refl _⟩⟩
  · exact reached loc

end Reached

/-- Who has seen every write finds the next place free. -/
theorem Seen.vacant (seen : Seen histories view loc) :
    Vacant histories view loc (view loc + 1) := by
  refine ⟨?_, Nat.lt_succ_self _⟩
  cases found : histories loc (view loc + 1) with
  | none => rfl
  | some message => exact absurd (seen _ _ found) (Nat.not_succ_le_self _)

/-- Who has seen every write finds the place after the one it loads free. -/
theorem Loads.free_succ (loads : Loads histories view loc stamp message)
    (seen : Seen histories view loc) : histories loc (stamp + 1) = none := by
  rw [loads.stamp_eq seen]
  exact seen.vacant.free

end Histories

/-- The locations a step accesses: plainly read, plainly written, and atomically. -/
structure Accesses (Loc : Type u) where
  reads : List Loc := []
  writes : List Loc := []
  atomics : List Loc := []

namespace Accesses

/-- Every write a plain access could race with, and every plain write an atomic access
could race with, happened before the step. -/
structure Ordered (accesses : Accesses Loc) (histories : Histories Loc) (view : View Loc) :
    Prop where
  reads : ∀ loc ∈ accesses.reads, histories.Seen view loc
  writes : ∀ loc ∈ accesses.writes, histories.Seen view loc
  atomics : ∀ loc ∈ accesses.atomics, ∀ stamp message, histories loc stamp = some message →
    message.plain = true → stamp ≤ view loc

/-- Some access of the step is to this location. -/
def Touches (accesses : Accesses Loc) (loc : Loc) : Prop :=
  loc ∈ accesses.reads ∨ loc ∈ accesses.writes ∨ loc ∈ accesses.atomics

end Accesses

/-- A reader-writer lock, with the view it hands to its next holder. -/
structure RwLock (Thread : Type) (Loc : Type u) where
  writer : Option Thread
  readers : List Thread
  view : View Loc

namespace RwLock

variable {Thread : Type} [DecidableEq Thread]

/-- Nobody holds the lock. -/
def unlocked (view : View Loc) : RwLock Thread Loc := ⟨none, [], view⟩

/-- `read`, when no thread holds the lock to write. -/
def share (lock : RwLock Thread Loc) (thread : Thread) : RwLock Thread Loc :=
  { lock with readers := thread :: lock.readers }

/-- Drop the guard of a `read`. -/
def unshare (lock : RwLock Thread Loc) (thread : Thread) (view : View Loc) : RwLock Thread Loc :=
  { lock with readers := lock.readers.erase thread, view := lock.view ⊔ view }

/-- `write`, when no thread holds the lock. -/
def lockFor (lock : RwLock Thread Loc) (thread : Thread) : RwLock Thread Loc :=
  { lock with writer := some thread }

/-- Drop the guard of a `write`. -/
def unlock (lock : RwLock Thread Loc) (view : View Loc) : RwLock Thread Loc :=
  { lock with writer := none, view := lock.view ⊔ view }

end RwLock

end Boomerang.Foundation
