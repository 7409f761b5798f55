import Boomerang.Foundation.Reader

/-!
# Walking a pointer over a slice

A walk reads behind a pointer without looking for the end of the slice, and relies on
promises it does not check. It has no value when its behaviour is undefined: it read
outside the slice, or a promise was broken. A walk follows a reader when it comes to every
value the reader takes, and leaves the pointer at what the reader leaves.
-/

namespace Boomerang.Foundation

/-- A walk: a failure, undefined behaviour, or a value with the new place of the pointer. -/
def Walk (Failure Value : Type) : Type :=
  List UInt8 → Nat → Except Failure (Option (Value × Nat))

variable {Failure Value Other Next Last : Type}

namespace Walk

instance : Monad (Walk Failure) where
  pure value := fun _ place => .ok (some (value, place))
  bind first next := fun slice place =>
    match first slice place with
    | .error failure => .error failure
    | .ok none => .ok none
    | .ok (some (value, further)) => next value slice further

theorem bind_apply (first : Walk Failure Value) (next : Value → Walk Failure Other)
    (slice : List UInt8) (place : Nat) :
    (first >>= next) slice place =
      match first slice place with
      | .error failure => .error failure
      | .ok none => .ok none
      | .ok (some (value, further)) => next value slice further :=
  rfl

/-- The value of a walk from the start of a slice. -/
def start (walk : Walk Failure Value) (slice : List UInt8) : Except Failure (Option Value) :=
  match walk slice 0 with
  | .error failure => .error failure
  | .ok none => .ok none
  | .ok (some (value, _)) => .ok (some value)

/-- Read some bytes and move behind them. -/
def span (count : Nat) : Walk Failure (List UInt8) := fun slice place =>
  if slice.length < place + count then .ok none
  else .ok (some ((slice.drop place).take count, place + count))

/-- Read one byte and move behind it. -/
def byte : Walk Failure UInt8 := fun slice place =>
  .ok (slice[place]?.map fun byte => (byte, place + 1))

/-- Read a little-endian number and move behind it. -/
def number (width : Nat) : Walk Failure Nat := do
  let bytes ← span width
  return ofLE bytes

/-- Rely on there being a value. -/
def promised (value : Option Value) : Walk Failure Value := fun _ place =>
  .ok (value.map fun value => (value, place))

/-- Fail unless there is a value. -/
def ofExcept (value : Except Failure Value) : Walk Failure Value := fun _ place =>
  value.map fun value => some (value, place)

/-- Write a block to each place of a vector, behind those that are filled. -/
def fill (block : Walk Failure Value) : Nat → List Value → Walk Failure (List Value)
  | 0, filled => return filled
  | count + 1, filled => do
      let value ← block
      fill block count (filled ++ [value])

/-- A vector whose length, a `u32`, stands in front of its blocks. -/
def vector (block : Walk Failure Value) : Walk Failure (List Value) := do
  let count ← number 4
  fill block count []

end Walk

/-- From a place in a slice, the walk comes to a value related to the one the reader takes,
and leaves the pointer in the slice at what the reader leaves. -/
def Follows (related : Value → Other → Prop) (slice : List UInt8) (place : Nat)
    (walk : Walk Failure Other) (reader : Reader Failure Value) : Prop :=
  ∀ value rest, reader.front (slice.drop place) = some (value, rest) →
    ∃ other further, walk slice place = .ok (some (other, further)) ∧
      further ≤ slice.length ∧ slice.drop further = rest ∧ related value other

/-- The walk follows the reader to the same values from everywhere. -/
def Mirrors (walk : Walk Failure Value) (reader : Reader Failure Value) : Prop :=
  ∀ slice place, place ≤ slice.length → Follows Eq slice place walk reader

namespace Follows

variable {related : Value → Other → Prop} {further : Next → Last → Prop}
variable {slice : List UInt8} {place : Nat}

/-- One step after the other: the second may use what the first took. -/
theorem bind {walk : Walk Failure Other} {reader : Reader Failure Value}
    {walkNext : Other → Walk Failure Last} {readerNext : Value → Reader Failure Next}
    (head : Follows related slice place walk reader)
    (tail : ∀ value other middle, middle ≤ slice.length →
      reader.front (slice.drop place) = some (value, slice.drop middle) → related value other →
      Follows further slice middle (walkNext other) (readerNext value)) :
    Follows further slice place (walk >>= walkNext) (reader >>= readerNext) := by
  intro last rest both
  obtain ⟨value, middleRest, taken, lastTaken⟩ := Reader.front_bind.mp both
  obtain ⟨other, middle, walked, inside, rfl, same⟩ := head value middleRest taken
  rw [Walk.bind_apply, walked]
  exact tail value other middle inside taken same last rest lastTaken

/-- A walk that follows from the start of the slice comes to the value that is decoded. -/
theorem start {walk : Walk Failure Other} {reader : Reader Failure Value} {value : Value}
    (follows : Follows related slice 0 walk reader)
    (decoded : reader.decode slice = .ok (some value)) :
    ∃ other, walk.start slice = .ok (some other) ∧ related value other := by
  obtain ⟨rest, taken⟩ := Reader.decode_eq_some.mp decoded
  obtain ⟨other, further, walked, _, _, same⟩ := follows value rest taken
  exact ⟨other, by rw [Walk.start, walked], same⟩

theorem ofExcept {run : Except Failure Value} {walked : Except Failure Other}
    (inside : place ≤ slice.length)
    (each : ∀ value, run = .ok value → ∃ other, walked = .ok other ∧ related value other) :
    Follows related slice place (Walk.ofExcept walked) (Reader.ofExcept run) := by
  intro value rest taken
  obtain ⟨success, rfl⟩ := Reader.front_ofExcept.mp taken
  obtain ⟨other, rfl, same⟩ := each value success
  exact ⟨other, place, rfl, inside, rfl, same⟩

theorem pure {value : Value} {other : Other} (inside : place ≤ slice.length)
    (same : related value other) :
    @Follows Failure _ _ related slice place (Pure.pure other) (Pure.pure value) := by
  intro found rest taken
  obtain ⟨rfl, rfl⟩ := Reader.front_pure.mp taken
  exact ⟨other, place, rfl, inside, rfl, same⟩

end Follows

namespace Mirrors

theorem pure (value : Value) : @Mirrors Failure _ (Pure.pure value) (Pure.pure value) :=
  fun _ _ inside => .pure inside rfl

/-- Behind the same value the walk follows with what it does next. -/
theorem followed {related : Next → Last → Prop} {slice : List UInt8} {place : Nat}
    {walk : Walk Failure Value} {reader : Reader Failure Value}
    {walkNext : Value → Walk Failure Last} {readerNext : Value → Reader Failure Next}
    (head : Mirrors walk reader) (inside : place ≤ slice.length)
    (tail : ∀ value middle, middle ≤ slice.length →
      reader.front (slice.drop place) = some (value, slice.drop middle) →
      Follows related slice middle (walkNext value) (readerNext value)) :
    Follows related slice place (walk >>= walkNext) (reader >>= readerNext) := by
  refine (head slice place inside).bind fun value other middle middleInside taken same => ?_
  subst same
  exact tail value middle middleInside taken

theorem bind {walk : Walk Failure Value} {reader : Reader Failure Value}
    {walkNext : Value → Walk Failure Other} {readerNext : Value → Reader Failure Other}
    (head : Mirrors walk reader) (tail : ∀ value, Mirrors (walkNext value) (readerNext value)) :
    Mirrors (walk >>= walkNext) (reader >>= readerNext) :=
  fun slice _ inside => head.followed inside fun value middle middleInside _ =>
    tail value slice middle middleInside

theorem span (count : Nat) :
    @Mirrors Failure _ (Walk.span count) (Reader.take count) := by
  intro slice place inside value rest taken
  obtain ⟨long, rfl, rfl⟩ := Reader.front_take.mp taken
  rw [List.length_drop] at long
  refine ⟨_, place + count, ?_, by omega, by rw [List.drop_drop], rfl⟩
  rw [Walk.span, if_neg (by omega)]

theorem number (width : Nat) :
    @Mirrors Failure _ (Walk.number width) (Reader.number width) :=
  (span width).bind fun raw => .pure (ofLE raw)

theorem byte : @Mirrors Failure _ Walk.byte Reader.byte := by
  intro slice place inside value rest taken
  rw [Reader.front_eq_some] at taken
  cases behind : slice.drop place with
  | nil =>
      rw [behind] at taken
      cases taken
  | cons first others =>
      rw [behind] at taken
      cases taken
      have here : slice[place]? = some value := by
        rw [← Nat.add_zero place, ← List.getElem?_drop, behind]
        rfl
      have below := (List.getElem?_eq_some_iff.mp here).1
      refine ⟨value, place + 1, ?_, below, ?_, rfl⟩
      · rw [Walk.byte, here]
        rfl
      · rw [← List.drop_drop, behind]
        rfl

theorem promised (value : Option Value) :
    @Mirrors Failure _ (Walk.promised value) (Reader.ofOption value) := by
  intro slice place inside found rest taken
  obtain ⟨rfl, rfl⟩ := Reader.front_ofOption.mp taken
  exact ⟨found, place, rfl, inside, rfl, rfl⟩

theorem ofExcept (run : Except Failure Value) :
    Mirrors (Walk.ofExcept run) (Reader.ofExcept run) :=
  fun _ _ inside => .ofExcept inside fun value success => ⟨value, success, rfl⟩

/-- The vector is filled with the values that are read. -/
theorem fill {block : Walk Failure Value} {reader : Reader Failure Value}
    (mirrors : Mirrors block reader) (count : Nat) (filled : List Value) :
    Mirrors (block.fill count filled) (do return filled ++ (← reader.many count)) := by
  induction count generalizing filled with
  | zero =>
      have ended : (do return filled ++ (← reader.many 0) : Reader Failure (List Value)) =
          Pure.pure filled := by
        rw [Reader.many]
        simp
      rw [ended]
      exact .pure filled
  | succ count ih =>
      have turn : (do return filled ++ (← reader.many (count + 1)) : Reader Failure (List Value)) =
          reader >>= fun value => do return (filled ++ [value]) ++ (← reader.many count) := by
        rw [Reader.many]
        simp
      rw [turn]
      exact mirrors.bind fun value => ih (filled ++ [value])

theorem vector {block : Walk Failure Value} {reader : Reader Failure Value}
    (mirrors : Mirrors block reader) : Mirrors block.vector reader.counted := by
  refine (number 4).bind fun count => ?_
  have filled := mirrors.fill count []
  simpa using filled

end Mirrors

end Boomerang.Foundation
