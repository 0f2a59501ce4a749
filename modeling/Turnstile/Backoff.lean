import Turnstile.Failure

/-!
# Back-off

A waiter far back in its queue looks at it less often than one close to the front: the time
between two looks is a base duration, times the square root of the distance past capacity, times
at most a ceiling.  Jitter adds a random fraction of the base duration.

The square root and the random numbers are supplied from outside, so that the shape of the
back-off does not depend on how they are computed.
-/

namespace Turnstile

/-- An endless cycle of given random numbers, and how many of them have been drawn. -/
structure RandomSource (τ : Type) where
  numbers : List τ
  drawn : Nat

namespace RandomSource

variable {τ : Type}

def fresh (numbers : List τ) : RandomSource τ :=
  ⟨numbers, 0⟩

def draw [Zero τ] (source : RandomSource τ) : τ × RandomSource τ :=
  (source.numbers.getD (source.drawn % source.numbers.length) 0,
    { source with drawn := source.drawn + 1 })

end RandomSource

/-- Where random numbers come from: a source of one's own if there is one, and else the one that
everybody shares. -/
structure Randomness (τ : Type) where
  own : Option (RandomSource τ)
  shared : RandomSource τ

def Randomness.draw {τ : Type} [Zero τ] (sources : Randomness τ) : τ × Randomness τ :=
  match sources.own with
  | some source =>
      let (number, source) := source.draw
      (number, { sources with own := some source })
  | none =>
      let (number, source) := sources.shared.draw
      (number, { sources with shared := source })

structure Backoff (τ : Type) where
  /-- The largest multiple of the base duration. -/
  ceiling : τ
  /-- The largest fraction of the base duration that is added at random. -/
  jitter : τ

namespace Backoff

variable {τ : Type} [Seconds τ]

def defaultCeiling : τ :=
  Seconds.ofMillis 10000

def standard : Backoff τ :=
  ⟨defaultCeiling, 0⟩

inductive Defect where
  | baseNotPositive
  | ceilingBelowOne
  | negativeJitter
  deriving DecidableEq

def Defect.message : Defect → String
  | .baseNotPositive => "base_duration must be positive"
  | .ceilingBelowOne => "ceiling must be >= 1"
  | .negativeJitter => "jitter must be non-negative"

def defect? (backoff : Backoff τ) (base : τ) : Option Defect :=
  if base ≤ 0 then some .baseNotPositive
  else if backoff.ceiling < 1 then some .ceilingBelowOne
  else if backoff.jitter < 0 then some .negativeJitter
  else none

def distance (position capacity : Int) : Nat :=
  (position - capacity).toNat

def factor (backoff : Backoff τ) (root : τ) : τ :=
  Seconds.earlier (Seconds.later root 1) backoff.ceiling

def spread (width random : τ) : τ :=
  0 + (width - 0) * random

/-- The time to wait at `position` before the next look at the queue.  A random number is drawn
only if there is jitter. -/
def estimate (root? : Nat → Option τ) (backoff : Backoff τ) (position capacity : Int) (base : τ)
    (sources : Randomness τ) : Except (Failure τ) (τ × Randomness τ) :=
  match backoff.defect? base with
  | some defect => .error (.invalid defect.message)
  | none =>
      match root? (distance position capacity) with
      | none => .error .countTooLarge
      | some root =>
          let duration := base * backoff.factor root
          if backoff.jitter ≤ 0 then .ok (duration, sources)
          else
            let (random, sources) := sources.draw
            .ok (duration + spread backoff.jitter random * base, sources)

end Backoff
end Turnstile
