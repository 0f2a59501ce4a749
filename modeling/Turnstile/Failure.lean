import Turnstile.Number.Decimal
import Turnstile.Redis.ClientError

/-!
# Failures

`SemaphoreError` lists what can go wrong with a semaphore itself.  `Failure` adds everything else
that can end one of its operations: errors of the store's client that nobody expected, errors of
the operating system, refused arguments, and interruption from outside.

## Main definitions

* `SemaphoreError.message` - the wording of each error.
* `Failure.isA` - the broader categories to which a failure belongs.
-/

namespace Turnstile

inductive SemaphoreError (τ : Type) where
  | general (message : Option String)
  | storeConnection (endpoint reason : String)
  | storeCommand (command key reason : String)
  | positionExceeded (position maxPosition : Int)
  | legInterrupted (leg : String)
  | acquireTimeout (key : String) (timeout : Option τ) (elapsed : Int)

namespace SemaphoreError

def withReason (message reason : String) : String :=
  if reason.isEmpty then message else message ++ ": " ++ reason

def message {τ : Type} [Legible τ] : SemaphoreError τ → String
  | .general message => message.getD ""
  | .storeConnection endpoint reason =>
      withReason ("Could not connect to Redis at '" ++ endpoint ++ "'") reason
  | .storeCommand command key reason =>
      withReason (command ++ " on '" ++ key ++ "' failed") reason
  | .positionExceeded position maxPosition =>
      "Position " ++ toString position ++ " exceeds the max position (" ++
        toString maxPosition ++ ")."
  | .legInterrupted leg =>
      "Release step '" ++ leg ++ "' was cancelled before completing"
  | .acquireTimeout key timeout elapsed =>
      "Timed out waiting for a slot on '" ++ key ++ "' after " ++ toString elapsed ++
        " ms (timeout=" ++ (timeout.map Legible.text).getD "None" ++ "s)"

def notHeld (τ : Type) (key : String) : SemaphoreError τ :=
  .general (some ("Semaphore '" ++ key ++ "' released without a held slot"))

end SemaphoreError

/-- The failure from which a semaphore error was made. -/
inductive Cause where
  | client (error : Redis.ClientError)
  | interrupted
  deriving DecidableEq

/-- The errors of the operating system that are told apart. -/
inductive SystemFault where
  | general
  | connection
  | timeout
  deriving DecidableEq

/-- What can end an operation other than a result. -/
inductive Failure (τ : Type) where
  | semaphore (error : SemaphoreError τ) (cause : Option Cause)
  | client (error : Redis.ClientError)
  | system (fault : SystemFault) (message : String)
  | invalid (message : String)
  | runtime (message : String)
  | overflow (message : String)
  /-- Bytes are not well-formed text. -/
  | undecodable
  | interrupted

inductive Category where
  | semaphore
  | connection
  | timeout
  | system
  | invalid
  deriving DecidableEq

namespace Failure

variable {τ : Type}

/-- A semaphore error that was not made from another failure. -/
def plain (error : SemaphoreError τ) : Failure τ :=
  .semaphore error none

/-- Whether a failure belongs to a category.  A lost store is also a lost connection, and an
acquire that timed out is also a timeout, and both are faults of the system. -/
def isA : Failure τ → Category → Bool
  | .semaphore _ _, .semaphore => true
  | .semaphore (.storeConnection ..) _, .connection => true
  | .semaphore (.storeConnection ..) _, .system => true
  | .semaphore (.acquireTimeout ..) _, .timeout => true
  | .semaphore (.acquireTimeout ..) _, .system => true
  | .system _ _, .system => true
  | .system .connection _, .connection => true
  | .system .timeout _, .timeout => true
  | .invalid _, .invalid => true
  | _, _ => false

def message [Legible τ] : Failure τ → String
  | .semaphore error _ => error.message
  | .client error => error.message
  | .system _ message => message
  | .invalid message => message
  | .runtime message => message
  | .overflow message => message
  | .undecodable => ""
  | .interrupted => ""

/-- The failure to read an error, if the client cannot read it. -/
def unreadable? : Failure τ → Option (Failure τ)
  | .client error => error.defect?.map fun defect => .invalid defect.message
  | _ => none

/-- A failure as it is met.  In place of an error that the client cannot read there is its failure
to read it. -/
def asMet (failure : Failure τ) : Failure τ :=
  failure.unreadable?.getD failure

def ofUnmeasurable : Unmeasurable → Failure τ
  | .infinite => .overflow "cannot convert float infinity to integer"
  | .undefined => .invalid "cannot convert float NaN to integer"

def countTooLarge : Failure τ :=
  .overflow "int too large to convert to float"

def limitPassed : Failure τ :=
  .system .timeout ""

end Failure
end Turnstile
