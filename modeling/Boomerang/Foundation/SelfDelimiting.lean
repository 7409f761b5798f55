import Boomerang.Foundation.Reader

/-!
# Self-delimiting readers

A reader is self-delimiting when the bytes it takes are enough for the value and none of
their proper prefixes is: what follows them is not looked at, and a value cut short is
rejected. The readers built from the basic ones are.
-/

namespace Boomerang.Foundation

variable {Failure Value Other : Type}

/-- Every proper prefix of some bytes is rejected. -/
def Cut (reader : Reader Failure Value) (taken : List UInt8) : Prop :=
  ∀ count < taken.length, reader (taken.take count) = .ok none

namespace Cut

theorem nil (reader : Reader Failure Value) : Cut reader [] :=
  fun _ below => absurd below (Nat.not_lt_zero _)

/-- Bytes cut in the first part are rejected by the first reader, others by the second. -/
theorem bind {first : Reader Failure Value} {next : Value → Reader Failure Other}
    {taken more : List UInt8} {value : Value} (reads : Reads first taken value)
    (head : Cut first taken) (tail : Cut (next value) more) :
    Cut (first >>= next) (taken ++ more) := by
  intro count below
  rw [Reader.bind_apply]
  by_cases inFirst : count < taken.length
  · rw [List.take_append_of_le_length (Nat.le_of_lt inFirst), head count inFirst]
  · obtain ⟨further, rfl⟩ := Nat.exists_eq_add_of_le (Nat.le_of_not_lt inFirst)
    rw [List.length_append] at below
    rw [List.take_length_add_append, reads]
    exact tail further (by omega)

end Cut

/-- What the reader takes, it takes whatever follows, and rejects when it is cut short. -/
def SelfDelimiting (reader : Reader Failure Value) : Prop :=
  ∀ bytes value rest, reader.front bytes = some (value, rest) →
    ∃ taken, bytes = taken ++ rest ∧ Reads reader taken value ∧ Cut reader taken

namespace SelfDelimiting

/-- An encoding that is read is rejected when it is cut short. -/
theorem cut {reader : Reader Failure Value} (delimiting : SelfDelimiting reader)
    {bytes : List UInt8} {value : Value} (reads : Reads reader bytes value) : Cut reader bytes := by
  have whole := reads []
  rw [← Reader.front_eq_some] at whole
  obtain ⟨taken, split, _, cut⟩ := delimiting _ _ _ whole
  rw [List.append_nil, List.append_nil] at split
  rwa [split]

theorem pure (value : Value) : SelfDelimiting (Pure.pure value : Reader Failure Value) := by
  intro bytes other rest taken
  obtain ⟨rfl, rfl⟩ := Reader.front_pure.mp taken
  exact ⟨[], rfl, Reads.pure value, .nil _⟩

theorem bind {first : Reader Failure Value} {next : Value → Reader Failure Other}
    (head : SelfDelimiting first) (tail : ∀ value, SelfDelimiting (next value)) :
    SelfDelimiting (first >>= next) := by
  intro bytes other rest both
  obtain ⟨value, middle, firstTaken, nextTaken⟩ := Reader.front_bind.mp both
  obtain ⟨taken, rfl, reads, cut⟩ := head _ _ _ firstTaken
  obtain ⟨more, rfl, readsMore, cutMore⟩ := tail value _ _ _ nextTaken
  exact ⟨taken ++ more, (List.append_assoc _ _ _).symm, reads.bind readsMore,
    cut.bind reads cutMore⟩

theorem take (count : Nat) : SelfDelimiting (Reader.take count : Reader Failure _) := by
  intro bytes value rest taken
  obtain ⟨long, rfl, rfl⟩ := Reader.front_take.mp taken
  have size : (bytes.take count).length = count := by
    rw [List.length_take]
    omega
  have reads := @Reads.take Failure (bytes.take count)
  rw [size] at reads
  refine ⟨_, (List.take_append_drop count bytes).symm, reads, ?_⟩
  intro shorter below
  rw [size] at below
  rw [Reader.take, if_pos (by rw [List.length_take]; omega)]

theorem byte : SelfDelimiting (Reader.byte : Reader Failure UInt8) := by
  intro bytes value rest taken
  rw [Reader.front_eq_some] at taken
  cases bytes with
  | nil => cases taken
  | cons first others =>
      cases taken
      refine ⟨[value], rfl, Reads.byte value, ?_⟩
      intro count below
      cases Nat.lt_one_iff.mp below
      rfl

theorem number (width : Nat) : SelfDelimiting (Reader.number width : Reader Failure Nat) :=
  (take width).bind fun _ => .pure _

theorem ofOption (value : Option Value) :
    SelfDelimiting (Reader.ofOption value : Reader Failure Value) := by
  intro bytes found rest taken
  obtain ⟨rfl, rfl⟩ := Reader.front_ofOption.mp taken
  exact ⟨[], rfl, Reads.ofOption _, .nil _⟩

theorem ofExcept (run : Except Failure Value) : SelfDelimiting (Reader.ofExcept run) := by
  intro bytes found rest taken
  obtain ⟨rfl, rfl⟩ := Reader.front_ofExcept.mp taken
  exact ⟨[], rfl, Reads.ofExcept _, .nil _⟩

theorem many {reader : Reader Failure Value} (delimiting : SelfDelimiting reader) (count : Nat) :
    SelfDelimiting (reader.many count) := by
  induction count with
  | zero => exact .pure []
  | succ count ih =>
    exact delimiting.bind fun value => ih.bind fun values => .pure (value :: values)

theorem counted {reader : Reader Failure Value} (delimiting : SelfDelimiting reader) :
    SelfDelimiting reader.counted :=
  (number 4).bind fun count => delimiting.many count

end SelfDelimiting

namespace Reads

variable {reader : Reader Failure Value} {bytes : List UInt8} {value : Value}

/-- Bytes behind an encoding are left alone. -/
theorem decode_append (reads : Reads reader bytes value) (more : List UInt8) :
    reader.decode (bytes ++ more) = .ok (some value) := by
  rw [Reader.decode, reads]

/-- An encoding cut short is rejected. -/
theorem decode_take (reads : Reads reader bytes value) (delimiting : SelfDelimiting reader)
    {count : Nat} (below : count < bytes.length) :
    reader.decode (bytes.take count) = .ok none := by
  rw [Reader.decode, delimiting.cut reads count below]

end Reads

end Boomerang.Foundation
