import Mathlib.Algebra.Group.Nat.Defs

/-!
# What the compiled program may do

The two build profiles differ in whether `debug_assert!` is evaluated and in
whether integer arithmetic is checked or wraps. A call that does not return has a
`Fault`: it panicked, with the reason the source gives, or it never leaves a loop.
-/

namespace Boomerang

/-- A Cargo build profile. -/
inductive Profile where
  /-- `debug_assert!` is evaluated and integer overflow panics. -/
  | debug
  /-- `debug_assert!` is skipped and integer arithmetic wraps. -/
  | release
deriving DecidableEq, Repr

/-- Why a call did not return. -/
inductive Fault where
  /-- A failed `assert!` or `debug_assert!`, with its message. -/
  | assertion (message : String)
  /-- `MemoryPool::pool_exhausted`. -/
  | poolExhausted (shardId : Nat)
  /-- Checked integer arithmetic overflowed. -/
  | overflow
  /-- An index or a slice lies outside its array. -/
  | outOfBounds
  /-- `expect` on an absent value, with its message. -/
  | expectation (message : String)
  /-- `unreachable!`. -/
  | unreachable
  /-- Not a panic: a loop that is never left. -/
  | divergence
deriving DecidableEq, Repr

/-- Length of the range of a `u16`. -/
def u16Range : Nat := 2 ^ 16

/-- Length of the range of a `u32`. -/
def u32Range : Nat := 2 ^ 32

/-- Length of the range of a `usize` on the 64-bit targets the program is built for. -/
def usizeRange : Nat := 2 ^ 64

end Boomerang
