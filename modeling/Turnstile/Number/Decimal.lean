import Turnstile.Number.Binary

/-!
# Decimal text

Two ways to write a binary number in decimal digits: the fewest digits that read back as the same
number, and a fixed number of places.  Both work on the exact reading of the number, in whole
number arithmetic.

## The fewest digits

The reals that read back as `m · 2 ^ q` form an interval around it, half way to the neighbour on
either side; its ends belong to it when `m` is even.  `Interval.coarsest` looks for the coarsest
power of ten of which a multiple lies in the interval.  That multiple is not itself a multiple of
ten, so no decimal with fewer digits reads back.
-/

namespace Turnstile

namespace Decimal

/-- A decimal number `digits · 10 ^ exponent`. -/
structure Numeral where
  digits : Nat
  exponent : Int
  deriving DecidableEq

/-- The numbers that read back as one binary number, in units of `2 ^ unit`: those between `low`
and `high`, with the ends if `closed`. -/
structure Interval where
  low : Nat
  middle : Nat
  high : Nat
  unit : Int
  closed : Bool

namespace Interval

/-- Half way to the neighbours of `significand · 2 ^ exponent`.  Below a power of two the
neighbour is at half the distance, except at the bottom of the range. -/
def around (significand : Nat) (exponent : Int) : Interval where
  low :=
    if significand = Nat.pow 2 52 ∧ -1074 < exponent then 4 * significand - 1 else 4 * significand - 2
  middle := 4 * significand
  high := 4 * significand + 2
  unit := exponent - 2
  closed := significand % 2 == 0

/-- The count of units `count · 2 ^ unit`, brought to a common scale with multiples of
`10 ^ place`. -/
def scaleUnits (unit place : Int) (count : Nat) : Nat :=
  count * Nat.pow 2 unit.toNat * Nat.pow 10 (-place).toNat

/-- The multiple `count · 10 ^ place`, brought to a common scale with units of `2 ^ unit`. -/
def scaleTens (unit place : Int) (count : Nat) : Nat :=
  count * Nat.pow 10 place.toNat * Nat.pow 2 (-unit).toNat

/-- Whether `count · 10 ^ place` reads back as the number in the middle. -/
def admits (i : Interval) (place : Int) (count : Nat) : Bool :=
  let candidate := scaleTens i.unit place count
  let low := scaleUnits i.unit place i.low
  let high := scaleUnits i.unit place i.high
  if i.closed then low ≤ candidate && candidate ≤ high
  else low < candidate && candidate < high

/-- The multiple of `10 ^ place` in the interval that is nearest to the middle, if there is one.
Only the two multiples next to the middle need to be tried. -/
def multiple? (i : Interval) (place : Int) : Option Nat :=
  let middle := scaleUnits i.unit place i.middle
  let step := scaleTens i.unit place 1
  let below := middle / step
  let nearest := roundDiv middle step
  let other := if nearest = below then below + 1 else below
  if i.admits place nearest then some nearest
  else if i.admits place other then some other
  else none

/-- The first of the `tries` places from `place` downwards that has a multiple in the interval. -/
def coarsest (i : Interval) : (tries : Nat) → (place : Int) → Numeral
  | 0, place => ⟨0, place⟩
  | tries + 1, place =>
      match i.multiple? place with
      | some count => ⟨count, place⟩
      | none => i.coarsest tries (place - 1)

end Interval

/-- The decimal number with the fewest digits that reads back as `significand · 2 ^ exponent`,
and of those the nearest.  No finite number reaches `10 ^ 309`, and each has a decimal whose last
digit is at or above the place of `10 ^ (-326)`. -/
def shortest (significand : Nat) (exponent : Int) : Numeral :=
  (Interval.around significand exponent).coarsest 636 309

/-- How a decimal number is laid out: its exponents of ten from `lowest` to `highest` are written
positionally, all others with an exponent of at least `width` digits. -/
structure Layout where
  lowest : Int
  highest : Int
  width : Nat

/-- Positional from a ten-thousandth to below ten to the sixteenth, two digits of exponent. -/
def plain : Layout := ⟨-4, 15, 2⟩

def padded (width n : Nat) : String :=
  let digits := toString n
  "".pushn '0' (width - digits.length) ++ digits

/-- A positional numeral always has a digit on both sides of its point; an exponent is written
with its sign. -/
def Layout.write (layout : Layout) (n : Numeral) : String :=
  let digits := (toString n.digits).toList
  let exponent := n.exponent + digits.length - 1
  if exponent < layout.lowest ∨ layout.highest < exponent then
    let mantissa :=
      match digits with
      | lead :: rest =>
          if rest.isEmpty then String.singleton lead else String.ofList (lead :: '.' :: rest)
      | [] => ""
    let sign := if exponent < 0 then "-" else "+"
    mantissa ++ "e" ++ sign ++ padded layout.width exponent.natAbs
  else if exponent < 0 then
    "0." ++ "".pushn '0' (-exponent - 1).toNat ++ String.ofList digits
  else
    let whole := (exponent + 1).toNat
    let places := digits.drop whole
    String.ofList (digits.take whole) ++ "".pushn '0' (whole - digits.length) ++ "." ++
      (if places.isEmpty then "0" else String.ofList places)

def signed (positive : (significand : Nat) → (exponent : Int) → String) : Reading → String
  | .undefined => "nan"
  | .infinite negative => if negative then "-inf" else "inf"
  | .finite negative significand exponent =>
      (if negative then "-" else "") ++ positive significand exponent

/-- The fewest digits that read back. -/
def text (x : Float) : String :=
  signed (fun significand exponent =>
    if significand = 0 then "0.0" else plain.write (shortest significand exponent))
    (Reading.ofFloat x)

/-- Exactly `places` digits after the point, a half going to the even neighbour. -/
def fixed (places : Nat) (x : Float) : String :=
  signed (fun significand exponent =>
    let scaled := Reading.roundScaled significand exponent (Nat.pow 10 places)
    toString (scaled / Nat.pow 10 places) ++ "." ++
      padded places (scaled % Nat.pow 10 places))
    (Reading.ofFloat x)

end Decimal

class Legible (τ : Type) where
  text : τ → String
  /-- Whole milliseconds, with three digits after the point. -/
  toThousandths : τ → String

instance : Legible Float where
  text := Decimal.text
  toThousandths := Decimal.fixed 3

end Turnstile
