import Boomerang.Foundation.LittleEndian

/-!
# Readers of byte strings

A reader takes a value from the front of a byte string. It may also reject the input,
or fail. A reader reads an encoding when it takes exactly its bytes, whatever follows.
-/

namespace Boomerang.Foundation

/-- A reader: a failure, a rejected input, or a value with the bytes that are left. -/
def Reader (Failure Value : Type) : Type :=
  List UInt8 → Except Failure (Option (Value × List UInt8))

variable {Failure Value Other : Type}

namespace Reader

instance : Monad (Reader Failure) where
  pure value := fun rest => .ok (some (value, rest))
  bind first next := fun bytes =>
    match first bytes with
    | .error failure => .error failure
    | .ok none => .ok none
    | .ok (some (value, rest)) => next value rest

theorem bind_apply (first : Reader Failure Value) (next : Value → Reader Failure Other)
    (bytes : List UInt8) :
    (first >>= next) bytes =
      match first bytes with
      | .error failure => .error failure
      | .ok none => .ok none
      | .ok (some (value, rest)) => next value rest :=
  rfl

instance : LawfulMonad (Reader Failure) :=
  LawfulMonad.mk' _
    (by
      intro Value reader
      funext bytes
      show (reader >>= fun value => pure value) bytes = reader bytes
      rw [bind_apply]
      cases reader bytes with
      | error failure => rfl
      | ok result => cases result <;> rfl)
    (by
      intro Value Other value next
      rfl)
    (by
      intro Value Other Last reader next last
      funext bytes
      simp only [bind_apply]
      cases reader bytes with
      | error failure => rfl
      | ok result => cases result <;> rfl)

/-- The value of a reader on some bytes, whether or not it leaves some. -/
def decode (reader : Reader Failure Value) (bytes : List UInt8) : Except Failure (Option Value) :=
  match reader bytes with
  | .error failure => .error failure
  | .ok none => .ok none
  | .ok (some (value, _)) => .ok (some value)

/-- Take some bytes, if there are as many. -/
def take (count : Nat) : Reader Failure (List UInt8) := fun bytes =>
  if bytes.length < count then .ok none else .ok (some (bytes.take count, bytes.drop count))

/-- Take one byte, if there is one. -/
def byte : Reader Failure UInt8 := fun bytes =>
  match bytes with
  | [] => .ok none
  | byte :: rest => .ok (some (byte, rest))

/-- Take a little-endian number. -/
def number (width : Nat) : Reader Failure Nat := do
  let bytes ← take width
  return ofLE bytes

/-- Reject the input unless there is a value. -/
def ofOption (value : Option Value) : Reader Failure Value := fun bytes =>
  .ok (value.map fun value => (value, bytes))

/-- Fail unless there is a value. -/
def ofExcept (value : Except Failure Value) : Reader Failure Value := fun bytes =>
  value.map fun value => some (value, bytes)

/-- Read some values, one after the other. -/
def many (reader : Reader Failure Value) : Nat → Reader Failure (List Value)
  | 0 => return []
  | count + 1 => do
      let value ← reader
      let values ← many reader count
      return value :: values

/-- Read some values behind their number, a `u32`. -/
def counted (reader : Reader Failure Value) : Reader Failure (List Value) := do
  let count ← number 4
  many reader count

/-- The reader does not fail on some bytes. -/
def Returns (reader : Reader Failure Value) (bytes : List UInt8) : Prop :=
  ∃ result, reader bytes = .ok result

/-- What a reader takes from some bytes and what it leaves, unless it fails or rejects
them. -/
def front (reader : Reader Failure Value) (bytes : List UInt8) : Option (Value × List UInt8) :=
  (reader bytes).toOption.join

/-- A reader that never fails. -/
def Total (reader : Reader Failure Value) : Prop := ∀ bytes, reader.Returns bytes

theorem front_eq_some {reader : Reader Failure Value} {bytes rest : List UInt8} {value : Value} :
    reader.front bytes = some (value, rest) ↔ reader bytes = .ok (some (value, rest)) := by
  rw [front]
  cases reader bytes with
  | error failure => simp [Except.toOption]
  | ok result => simp [Except.toOption]

/-- What two readers take one after the other. -/
theorem front_bind {first : Reader Failure Value} {next : Value → Reader Failure Other}
    {bytes rest : List UInt8} {other : Other} :
    (first >>= next).front bytes = some (other, rest) ↔
      ∃ value middle, first.front bytes = some (value, middle) ∧
        (next value).front middle = some (other, rest) := by
  simp only [front_eq_some, bind_apply]
  cases first bytes with
  | error failure => simp
  | ok result =>
      cases result with
      | none => simp
      | some pair =>
          obtain ⟨value, middle⟩ := pair
          simp

theorem front_pure {value other : Value} {bytes rest : List UInt8} :
    (Pure.pure value : Reader Failure Value).front bytes = some (other, rest) ↔
      value = other ∧ bytes = rest := by
  rw [front_eq_some]
  show Except.ok (some (value, bytes)) = Except.ok (some (other, rest)) ↔ _
  simp

theorem front_ofExcept {run : Except Failure Value} {value : Value} {bytes rest : List UInt8} :
    (ofExcept run).front bytes = some (value, rest) ↔ run = .ok value ∧ bytes = rest := by
  rw [front_eq_some, ofExcept]
  cases run with
  | error failure => simp [Except.map]
  | ok found => simp [Except.map]

theorem front_ofOption {found : Option Value} {value : Value} {bytes rest : List UInt8} :
    (ofOption found : Reader Failure Value).front bytes = some (value, rest) ↔
      found = some value ∧ bytes = rest := by
  rw [front_eq_some, ofOption]
  cases found <;> simp

theorem front_take {count : Nat} {bytes taken rest : List UInt8} :
    (take count : Reader Failure _).front bytes = some (taken, rest) ↔
      count ≤ bytes.length ∧ bytes.take count = taken ∧ bytes.drop count = rest := by
  rw [front_eq_some, take]
  split
  · rename_i short
    exact iff_of_false (fun impossible => nomatch impossible) fun ⟨long, _⟩ => by omega
  · rename_i long
    simp [Nat.le_of_not_lt long]

/-- A number that is read fits its width. -/
theorem front_number {width value : Nat} {bytes rest : List UInt8}
    (taken : (number width : Reader Failure _).front bytes = some (value, rest)) :
    value < 256 ^ width := by
  obtain ⟨raw, middle, rawTaken, value⟩ := front_bind.mp taken
  obtain ⟨long, rfl, rfl⟩ := front_take.mp rawTaken
  obtain ⟨rfl, rfl⟩ := front_pure.mp value
  calc ofLE (bytes.take width) < 256 ^ (bytes.take width).length := ofLE_lt _
    _ ≤ 256 ^ width := Nat.pow_le_pow_right (by decide) (List.length_take_le _ _)

/-- One reader after the other does not fail if the first does not, and the second does
not on what the first leaves. -/
theorem returns_bind {first : Reader Failure Value} {next : Value → Reader Failure Other}
    {bytes : List UInt8} :
    (first >>= next).Returns bytes ↔ first.Returns bytes ∧
      ∀ value rest, first.front bytes = some (value, rest) → (next value).Returns rest := by
  simp only [Returns, bind_apply, front_eq_some]
  cases first bytes with
  | error failure => simp
  | ok result =>
      cases result with
      | none => simp
      | some pair =>
          obtain ⟨value, rest⟩ := pair
          simp

/-- The value is the one in front. -/
theorem decode_eq_some {reader : Reader Failure Value} {bytes : List UInt8} {value : Value} :
    reader.decode bytes = .ok (some value) ↔ ∃ rest, reader.front bytes = some (value, rest) := by
  simp only [decode, front_eq_some]
  cases reader bytes with
  | error failure => simp
  | ok result =>
      cases result with
      | none => simp
      | some pair =>
          obtain ⟨first, rest⟩ := pair
          simp

theorem decode_returns {reader : Reader Failure Value} {bytes : List UInt8} :
    (∃ result, reader.decode bytes = .ok result) ↔ reader.Returns bytes := by
  rw [decode, Returns]
  cases reader bytes with
  | error failure => simp
  | ok result => cases result <;> simp

namespace Total

theorem pure (value : Value) : (Pure.pure value : Reader Failure Value).Total :=
  fun _ => ⟨_, rfl⟩

theorem bind {first : Reader Failure Value} {next : Value → Reader Failure Other}
    (head : first.Total) (tail : ∀ value, (next value).Total) : (first >>= next).Total :=
  fun bytes => returns_bind.mpr ⟨head bytes, fun value rest _ => tail value rest⟩

theorem take (count : Nat) : (Reader.take count : Reader Failure _).Total := by
  intro bytes
  rw [Returns, Reader.take]
  split
  · exact ⟨_, rfl⟩
  · exact ⟨_, rfl⟩

theorem byte : (Reader.byte : Reader Failure UInt8).Total := by
  intro bytes
  cases bytes with
  | nil => exact ⟨_, rfl⟩
  | cons first rest => exact ⟨_, rfl⟩

theorem number (width : Nat) : (Reader.number width : Reader Failure Nat).Total :=
  (take width).bind fun _ => .pure _

theorem ofOption (value : Option Value) : (Reader.ofOption value : Reader Failure Value).Total :=
  fun _ => ⟨_, rfl⟩

theorem many {reader : Reader Failure Value} (total : reader.Total) (count : Nat) :
    (reader.many count).Total := by
  induction count with
  | zero => exact .pure []
  | succ count ih => exact total.bind fun value => ih.bind fun values => .pure (value :: values)

theorem counted {reader : Reader Failure Value} (total : reader.Total) : reader.counted.Total :=
  (number 4).bind fun count => total.many count

end Total

/-- Behind a reader that takes a value, the next one decides. -/
theorem returns_bind_of_front {first : Reader Failure Value} {next : Value → Reader Failure Other}
    {bytes rest : List UInt8} {value : Value} (taken : first.front bytes = some (value, rest)) :
    (first >>= next).Returns bytes ↔ (next value).Returns rest := by
  rw [Returns, bind_apply, front_eq_some.mp taken]
  exact Iff.rfl

/-- A rejected input is not read on. -/
theorem returns_bind_of_none {first : Reader Failure Value} {next : Value → Reader Failure Other}
    {bytes : List UInt8} (total : first.Total) (rejected : first.front bytes = none) :
    (first >>= next).Returns bytes := by
  refine returns_bind.mpr ⟨total bytes, fun value rest taken => ?_⟩
  cases rejected.symm.trans taken

/-- A reader that ends without failing. -/
theorem returns_map {reader : Reader Failure Value} {bytes : List UInt8} (change : Value → Other) :
    (do return change (← reader) : Reader Failure Other).Returns bytes ↔ reader.Returns bytes := by
  rw [returns_bind, and_iff_left]
  exact fun value rest _ => Total.pure _ rest

end Reader

/-- Some values behind their number, cast to a `u32`. -/
def counted (encode : Value → List UInt8) (values : List Value) : List UInt8 :=
  toLE 4 values.length ++ values.flatMap encode

/-- The reader takes exactly these bytes for the value. -/
def Reads (reader : Reader Failure Value) (bytes : List UInt8) (value : Value) : Prop :=
  ∀ rest, reader (bytes ++ rest) = .ok (some (value, rest))

namespace Reads

theorem pure (value : Value) : @Reads Failure _ (return value) [] value := fun _ => rfl

theorem bind {first : Reader Failure Value} {next : Value → Reader Failure Other}
    {bytes more : List UInt8} {value : Value} {other : Other} (head : Reads first bytes value)
    (tail : Reads (next value) more other) : Reads (first >>= next) (bytes ++ more) other := by
  intro rest
  rw [Reader.bind_apply, List.append_assoc, head]
  exact tail rest

/-- Behind an encoding that is read the next reader goes on. -/
theorem of_front_bind {first : Reader Failure Value} {next : Value → Reader Failure Other}
    {bytes more rest : List UInt8} {value : Value} {other : Other} (head : Reads first bytes value)
    (front : (first >>= next).front (bytes ++ more) = some (other, rest)) :
    (next value).front more = some (other, rest) := by
  obtain ⟨_, middle, taken, behind⟩ := Reader.front_bind.mp front
  cases (Reader.front_eq_some.mp taken).symm.trans (head more)
  exact behind

theorem map {reader : Reader Failure Value} {bytes : List UInt8} {value : Value}
    (head : Reads reader bytes value) (change : Value → Other) :
    Reads (do return change (← reader)) bytes (change value) := by
  have both := @bind Failure _ _ reader (fun value => return change value) _ _ _ _ head
    (Reads.pure (change value))
  rwa [List.append_nil] at both

theorem take (bytes : List UInt8) : @Reads Failure _ (Reader.take bytes.length) bytes bytes := by
  intro rest
  rw [Reader.take, if_neg (by simp), List.take_left, List.drop_left]

theorem byte (byte : UInt8) : @Reads Failure _ Reader.byte [byte] byte := fun _ => rfl

theorem number {width value : Nat} (fits : value < 256 ^ width) :
    @Reads Failure _ (Reader.number width) (toLE width value) value := by
  have bytes := @Reads.map Failure _ _ _ _ _ (Reads.take (toLE width value)) ofLE
  rwa [length_toLE, ofLE_toLE fits] at bytes

theorem ofOption (value : Value) : @Reads Failure _ (Reader.ofOption (some value)) [] value :=
  fun _ => rfl

theorem ofExcept (value : Value) : @Reads Failure _ (Reader.ofExcept (.ok value)) [] value :=
  fun _ => rfl

/-- A list of values that are each read is read. -/
theorem many {reader : Reader Failure Value} {encode : Value → List UInt8} {values : List Value}
    (each : ∀ value ∈ values, Reads reader (encode value) value) :
    Reads (reader.many values.length) (values.flatMap encode) values := by
  induction values with
  | nil => exact Reads.pure []
  | cons value values ih =>
      have rest := ih fun other member => each other (List.mem_cons_of_mem _ member)
      exact (each value List.mem_cons_self).bind (rest.map (value :: ·))

theorem counted {reader : Reader Failure Value} {encode : Value → List UInt8} {values : List Value}
    (few : values.length < 256 ^ 4) (each : ∀ value ∈ values, Reads reader (encode value) value) :
    Reads reader.counted (counted encode values) values :=
  (Reads.number few).bind (Reads.many each)

/-- The bytes are decoded to the value. -/
theorem decode {reader : Reader Failure Value} {bytes : List UInt8} {value : Value}
    (reads : Reads reader bytes value) : reader.decode bytes = .ok (some value) := by
  have whole := reads []
  rw [List.append_nil] at whole
  rw [Reader.decode, whole]

end Reads

end Boomerang.Foundation
