import Turnstile.Semaphore
import Turnstile.Service

/-!
# Slots of an instance

What blocking and cooperative users of a semaphore have in common: a new ticket for each request,
the slots that an instance holds, and a look at the length of the queue.
-/

namespace Turnstile
namespace Semaphore

open Service

variable {Q τ : Type} [Seconds τ]

def newTicket (semaphore : Semaphore τ) : Operation Q τ (Ticket τ) := do
  let id ← freshId
  match (semaphore.ticketForm id).issue with
  | .ok ticket => pure ticket
  | .error defect => throw (.invalid defect.message)

/-- Gives back the oldest slot that the instance holds, given how its queue is cleaned up.  The
slot is no longer held from the moment at which the clean-up begins. -/
def giveBack (cleanUp : Ticket τ → Operation Q τ Unit) (semaphore : Semaphore τ) :
    Operation Q τ Unit := do
  match ← takeOldest with
  | none => throw (.plain (.notHeld τ semaphore.key))
  | some ticket => cleanUp ticket

/-- The number of holders and waiters in the queue. -/
def queueLength (semaphore : Semaphore τ) : Operation Q τ Nat := do
  let queue ← connect semaphore.endpoint semaphore.queueKey
  Action.ensuring (close queue) (length queue)

end Semaphore
end Turnstile
