import Mathlib.Algebra.GroupWithZero.Nat
import Mathlib.Tactic.Common

/-!
# Computations with numbers of a fixed width

Such a computation comes to a value, gives up without one, or overflows: one of its results does
not fit the width.  It is compared with the same computation over unbounded numbers, which it
agrees with unless it overflows.
-/

inductive Checked (α : Type)
  | value (result : α)
  | nothing
  | overflow
  deriving DecidableEq, Repr

namespace Checked

variable {α β : Type}

/-- Giving up and an overflow both end a computation. -/
def bind (computed : Checked α) (next : α → Checked β) : Checked β :=
  match computed with
  | value result => next result
  | nothing => nothing
  | overflow => overflow

instance : Monad Checked where
  pure := value
  bind := bind

/-- The result of an operation on integers without a sign. -/
def unsigned (bits number : Nat) : Checked Nat :=
  if number < 2 ^ bits then value number else overflow

/-- A difference of integers without a sign. -/
def difference (first second : Nat) : Checked Nat :=
  if second ≤ first then value (first - second) else overflow

abbrev u64 (number : Nat) : Checked Nat := unsigned 64 number

section Results

@[simp]
theorem value_bind (result : α) (next : α → Checked β) : (value result >>= next) = next result :=
  rfl

theorem unsigned_of {bits number : Nat} (fits : number < 2 ^ bits) :
    unsigned bits number = value number := if_pos fits

theorem difference_of {first second : Nat} (fits : second ≤ first) :
    difference first second = value (first - second) := if_pos fits

end Results

section Overflows

variable {bits : Nat} {next : α → Checked β}

end Overflows

namespace Agrees

variable {computed : Checked α} {exact : Option α}

end Agrees

end Checked
