/-!
# Lengths of time

The programs of this library measure, compare and add lengths of time, and the unit is the
second.  Nothing in them depends on how a number of seconds is represented: the same definitions
run on binary floating point and can be reasoned about over exact rational numbers.

## Order

`later` and `earlier` keep their first argument unless the second one is strictly beyond it.
The choice shows when the order is not total, as with a number that is undefined.
-/

namespace Turnstile

/-- Why a length of time has no nearest whole number of milliseconds. -/
inductive Unmeasurable where
  | infinite
  | undefined
  deriving DecidableEq

/-- Arithmetic on a number of seconds. -/
class Seconds (τ : Type) extends Add τ, Sub τ, Mul τ, Zero τ, One τ, LT τ, LE τ where
  decideLT : DecidableLT τ
  decideLE : DecidableLE τ
  /-- A whole number of seconds, unless it is out of range. -/
  ofSeconds? : Int → Option τ
  ofMillis : Int → τ
  /-- The nearest whole number of milliseconds, a half going to the even neighbour. -/
  toMillis : τ → Except Unmeasurable Int

namespace Seconds

variable {τ : Type} [Seconds τ]

instance : DecidableLT τ := Seconds.decideLT

instance : DecidableLE τ := Seconds.decideLE

/-- The second of two points in time if it is after the first, and else the first. -/
def later (a b : τ) : τ :=
  if a < b then b else a

/-- The second of two points in time if it is before the first, and else the first. -/
def earlier (a b : τ) : τ :=
  if b < a then b else a

/-- Whether two numbers of seconds are equal.  An undefined one is equal to none. -/
def same (a b : τ) : Bool :=
  decide (a ≤ b) && decide (b ≤ a)

end Seconds
end Turnstile
