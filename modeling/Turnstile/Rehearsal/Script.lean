import Turnstile.Backoff
import Turnstile.Rehearsal.Server
import Turnstile.Semaphore

/-!
# Scripts

A script says what happens in a rehearsal: semaphores are made and used, queues are opened and
used directly, time passes, and the servers change behind everybody's back.

Objects are named, and later steps refer to them by their names.
-/

namespace Turnstile
namespace Rehearsal

inductive Estimator (τ : Type) where
  /-- Given values in turn, the last one for ever. -/
  | listed (values : List τ)
  | failing (message : String)
  /-- The back-off, with random numbers of its own or else from the shared source. -/
  | computed (backoff : Backoff τ) (own : Option (RandomSource τ))

structure Choices (τ : Type) where
  /-- An estimator that reports what it computes. -/
  estimator : Option (Estimator τ) := none
  /-- Whether opening a queue is reported. -/
  reportsConnect : Bool := false

/-- A change to the list under a key, part by part in this order.  If the seconds to live are out
of range the change fails there, and what comes before stays changed. -/
structure KeyChange (τ : Type) where
  key : String
  append : List ByteArray := []
  putInFront : List ByteArray := []
  removeFromHead : Nat := 0
  removeEqual : Option ByteArray := none
  secondsToLive : Option (Except (Failure τ) τ) := none
  delete : Bool := false
  makeOther : Bool := false

/-- A change to a server that no client makes, part by part in this order.  Latencies that are out
of range make it fail when all else is changed. -/
structure ServerChange (τ : Type) where
  endpoint : String
  key : Option (KeyChange τ) := none
  down : Option Bool := none
  faults : Option (List (Fault τ)) := none
  latency : Option (Except (Failure τ) (List (Redis.Command.Verb × τ))) := none

inductive Step (τ : Type) where
  | create (semaphore : String) (form : SemaphoreForm τ) (choices : Choices τ)
  | acquire (semaphore : String) (timeout : Option τ)
  | release (semaphore : String)
  | queueLength (semaphore : String)
  /-- Runs steps while holding a slot, and then fails with a message if there is one. -/
  | hold (semaphore : String) (body : List (Step τ)) (message : Option String)
  | wait (form : TicketForm τ) (timeout : Option τ) (watched : Bool) (choices : Choices τ)
  | cleanUp (form : TicketForm τ) (choices : Choices τ)
  | sleep (duration : τ)
  | connect (queue endpoint key : String)
  | attach (queue endpoint key : String) (ownsClient : Bool)
  | push (queue id : String)
  | position (queue id : String)
  | pop (queue : String) (count : Int)
  | expire (queue : String) (seconds : Int)
  | length (queue : String)
  | close (queue : String)
  | describe (queue : String)
  | change (change : ServerChange τ)
  | cancel (task : String)
  /-- Does nothing but fail, at once or as a task. -/
  | fail (failure : Failure τ) (atOnce : Bool)

namespace Step

variable {τ : Type}

mutual

/-- The number of steps, those inside others included. -/
def size : Step τ → Nat
  | .hold _ body _ => 1 + sizes body
  | _ => 1

def sizes : List (Step τ) → Nat
  | [] => 0
  | step :: rest => size step + sizes rest

end

end Step

inductive Answer (τ : Type) where
  | nothing
  | flag (value : Bool)
  | count (value : Nat)
  | rank (value : Option Nat)
  | ids (value : List String)
  | semaphore (queueKey : String) (capacity : Int) (held : Nat) (text : String)
  | queue (key text : String)
  | held (body : List (Except (Failure τ) (Answer τ)))
  | started (task : String)

abbrev Outcome (τ : Type) : Type :=
  Except (Failure τ) (Answer τ)

end Rehearsal
end Turnstile
