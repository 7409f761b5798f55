import Mathlib.Data.UInt
import Mathlib.Data.List.GetD

/-!
# Byte-addressed memory

A memory is a total map from addresses to bytes; bytes nobody has written hold
whatever they held before. Reads and writes are of whole byte strings, and the
laws below are the only facts about addresses that layouts built on it need.
-/

namespace Boomerang.Foundation

/-- A byte at every address. -/
abbrev Memory := Nat → UInt8

namespace Memory

/-- The `length` bytes at `address`. -/
def read (memory : Memory) (address length : Nat) : List UInt8 :=
  (List.range length).map fun index => memory (address + index)

/-- Store a byte string at `address`, leaving every other byte alone. -/
def write (memory : Memory) (address : Nat) (bytes : List UInt8) : Memory := fun place =>
  if address ≤ place ∧ place < address + bytes.length then bytes.getD (place - address) 0
  else memory place

@[simp] theorem length_read (memory : Memory) (address length : Nat) :
    (memory.read address length).length = length := by
  simp [read]

@[simp] theorem read_zero (memory : Memory) (address : Nat) : memory.read address 0 = [] := rfl

/-- A read splits at any inner address. -/
theorem read_add (memory : Memory) (address first second : Nat) :
    memory.read address (first + second) =
      memory.read address first ++ memory.read (address + first) second := by
  simp [read, List.range_add, Function.comp_def, Nat.add_assoc]

/-- A read that starts later loses as many bytes in front as it gains behind. -/
theorem read_shifted (memory : Memory) (address : Nat) {skip length : Nat} (fits : skip ≤ length) :
    memory.read (address + skip) length =
      (memory.read address length).drop skip ++ memory.read (address + length) skip := by
  have front := memory.read_add address skip length
  have back := memory.read_add address length skip
  rw [Nat.add_comm skip length] at front
  have both := congrArg (List.drop skip) (front.symm.trans back)
  rw [List.drop_left' (length_read _ _ _), List.drop_append_of_le_length (by simpa using fits)]
    at both
  exact both

/-- Two memories that agree on a range are read alike there. -/
theorem read_congr {left right : Memory} {address length : Nat}
    (agree : ∀ place, address ≤ place → place < address + length → left place = right place) :
    left.read address length = right.read address length := by
  apply List.map_congr_left
  intro index member
  have bound := List.mem_range.mp member
  exact agree _ (by omega) (by omega)

/-- What was written is read back. -/
theorem read_write_same (memory : Memory) (address : Nat) (bytes : List UInt8) :
    (memory.write address bytes).read address bytes.length = bytes := by
  apply List.ext_getElem
  · simp
  · intro index _ bound
    simp only [read, write, List.getElem_map, List.getElem_range]
    rw [if_pos ⟨Nat.le_add_right _ _, by omega⟩, Nat.add_sub_cancel_left,
      List.getD_eq_getElem _ _ bound]

/-- A write outside the range read is not seen. -/
theorem read_write_disjoint (memory : Memory) {address length place : Nat} {bytes : List UInt8}
    (apart : address + length ≤ place ∨ place + bytes.length ≤ address) :
    (memory.write place bytes).read address length = memory.read address length := by
  apply read_congr
  intro address' low high
  simp only [write]
  rw [if_neg]
  omega

end Memory

end Boomerang.Foundation
