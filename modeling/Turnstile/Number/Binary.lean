import Turnstile.Number.Rounding
import Turnstile.Number.Seconds

/-!
# Reading a binary number exactly

A binary floating-point number is a sign and a whole significand times a power of two, unless it
is infinite or undefined.  All text and all rounding starts from this exact reading.

## Main definitions

* `Reading` - what the bits of a number say.
* `Rooted` - square roots of counts that are in range.
-/

namespace Turnstile

/-- The exact content of a binary floating-point number. -/
inductive Reading where
  | undefined
  | infinite (negative : Bool)
  /-- The number `significand · 2 ^ exponent`, negated if `negative`. -/
  | finite (negative : Bool) (significand : Nat) (exponent : Int)
  deriving DecidableEq

namespace Reading

/-- Splits the sign bit, eleven bits of exponent and fifty-two bits of fraction. -/
def ofFloat (x : Float) : Reading :=
  let bits : Nat := x.toBits.toNat
  let negative := bits / Nat.pow 2 63 == 1
  let biased : Nat := bits / Nat.pow 2 52 % Nat.pow 2 11
  let fraction : Nat := bits % Nat.pow 2 52
  if biased = 2047 then
    if fraction = 0 then .infinite negative else .undefined
  else if biased = 0 then .finite negative fraction (-1074)
  else .finite negative (Nat.pow 2 52 + fraction) ((biased : Int) - 1075)

/-- The whole number nearest to `significand · 2 ^ exponent · scale`, a half going to the even
neighbour. -/
def roundScaled (significand : Nat) (exponent : Int) (scale : Nat) : Nat :=
  if 0 ≤ exponent then significand * Nat.pow 2 exponent.toNat * scale
  else roundDiv (significand * scale) (Nat.pow 2 (-exponent).toNat)

def round : Reading → Except Unmeasurable Int
  | .undefined => .error .undefined
  | .infinite _ => .error .infinite
  | .finite negative significand exponent =>
      let size : Int := roundScaled significand exponent 1
      .ok (if negative then -size else size)

end Reading

instance : Seconds Float where
  zero := 0
  one := 1
  decideLT := inferInstance
  decideLE := inferInstance
  ofSeconds? count :=
    let x := Float.ofInt count
    if x.isInf then none else some x
  ofMillis ms := Float.ofInt ms / 1000
  toMillis x := (Reading.ofFloat (x * 1000)).round

/-- Numbers of seconds that counts have square roots in. -/
class Rooted (τ : Type) where
  root? : Nat → Option τ

/-- A count beyond the largest finite number has no square root. -/
instance : Rooted Float where
  root? count :=
    let x := Float.ofNat count
    if x.isInf then none else some x.sqrt

end Turnstile
