import Turnstile.Number.Decimal
import Turnstile.Text.Quoted

/-!
# The journal

Waiting and releasing leave a trail of entries for whoever watches them.  An entry says what
happened; `Entry.message` gives it its wording.
-/

namespace Turnstile

/-- The two ways to run an operation: blocking its caller, or as a task that waits without holding
up others and can be interrupted while it waits. -/
inductive Mode where
  | blocking
  | cooperative
  deriving DecidableEq

/-- One thing that happened to a waiter or its queue. -/
inductive Entry (τ : Type) where
  | entered (queueKey : String) (position : Int)
  | admitted (position capacity elapsed : Int)
  | beyondMaximum (position maxPosition : Int)
  | sleeping (position capacity : Int) (duration : τ)
  | missing (id queueKey : String) (assumed : Int)
  | moved (position : Int)
  | popped (ids : List String) (queueKey : String)
  | expirySet (queueKey : String) (expiry : Int)

def Entry.message {τ : Type} [Legible τ] : Entry τ → String
  | .entered queueKey position =>
      "Entered queue " ++ quoted queueKey ++ " in position " ++ toString position
  | .admitted position capacity elapsed =>
      "Position " ++ toString position ++ " is less than capacity (" ++ toString capacity ++
        "); admitted after " ++ toString elapsed ++ " ms"
  | .beyondMaximum position maxPosition =>
      "Position " ++ toString position ++ " is greater than max position (" ++
        toString maxPosition ++ ")"
  | .sleeping position capacity duration =>
      "Position " ++ toString position ++ " is not below capacity (" ++ toString capacity ++
        "); sleeping " ++ Legible.toThousandths duration ++ "s"
  | .missing id queueKey assumed =>
      quoted id ++ " not found in queue " ++ quoted queueKey ++ "; assuming position " ++
        toString assumed
  | .moved position => "Position is now " ++ toString position
  | .popped ids queueKey => "Popped " ++ quotedList ids ++ " from queue " ++ quoted queueKey
  | .expirySet queueKey expiry =>
      "Set expiry of queue " ++ quoted queueKey ++ " to " ++ toString expiry ++ "s"

end Turnstile
