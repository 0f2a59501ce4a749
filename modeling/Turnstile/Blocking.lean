import Turnstile.Slots

/-!
# Blocking operations

A blocking caller waits for its slot by looking at the queue, sleeping, and looking again.  Nobody
can interrupt it, so a limit of time is checked between two looks, and the last sleep is cut short
to end with the limit.

A request for a slot that is rejected or runs out of time gives back an entry of the queue on the
caller's behalf.

## Main definitions

* `Blocking.wait` - enters the queue and returns once there is room.
* `Blocking.cleanUp` - removes the head of the queue and renews its expiry.
* `Blocking.acquire` and `Blocking.release` - take and give back a slot of a semaphore.
-/

namespace Turnstile
namespace Blocking

open Service

variable {Q τ : Type} [Seconds τ]

/-- How long to sleep under a limit of time that began at `started`: as long as asked, but not
beyond the limit.  Once the limit has passed there is no more sleep. -/
def allowedSleep (ticket : Ticket τ) (timeout : Option τ) (started duration : τ) :
    Operation Q τ τ :=
  match timeout with
  | none => pure duration
  | some limit => do
      let elapsed ← elapsedSince started
      let remaining := limit - Seconds.ofMillis elapsed
      if remaining ≤ 0 then
        let elapsed ← elapsedSince started
        throw (.plain (.acquireTimeout ticket.queueKey (some limit) elapsed))
      else
        pure (Seconds.earlier duration remaining)

def look (queue : Q) (ticket : Ticket τ) (timeout : Option τ) (started : τ) (position : Int) :
    Operation Q τ (Int ⊕ Unit) :=
  match ticket.verdict position with
  | .admitted => do
      let elapsed ← elapsedSince started
      record .blocking (.admitted position ticket.capacity elapsed)
      pure (.inr ())
  | .rejected => throw (.plain (.positionExceeded position ticket.maxPosition))
  | .waiting => do
      let duration ← estimate position ticket.capacity ticket.baseSleep
      sleep (← allowedSleep ticket timeout started duration)
      let rank ← Service.position queue ticket.id
      record .blocking (.moved (positionOfRank rank))
      pure (.inl (positionOfRank rank))

/-- Enters the queue and blocks until there is room.  The first position is the length of the
queue less one, so that it counts from zero like every later rank. -/
def wait (ticket : Ticket τ) (timeout : Option τ) : Operation Q τ Unit := do
  let queue ← connect ticket.endpoint ticket.queueKey
  Action.ensuring (close queue) do
    let started ← now
    let length ← push queue ticket.id
    let position : Int := length - 1
    record .blocking (.entered ticket.queueKey position)
    Action.repeatFrom position (look queue ticket timeout started)

/-- Runs a step of a clean-up.  A semaphore error is kept for later; any other failure ends the
clean-up at once. -/
def keepError (step : Operation Q τ Unit) : Operation Q τ (Option (Failure τ)) :=
  ExceptT.mk do
    match ← step.run with
    | .ok () => pure (.ok none)
    | .error e => pure (if e.isA .semaphore then .ok (some e) else .error e)

/-- Removes the head of the queue and then renews its expiry, over one connection.  The expiry is
renewed even if the removal failed with a semaphore error, and the first such error is raised at
the end. -/
def cleanUp (ticket : Ticket τ) : Operation Q τ Unit := do
  let queue ← connect ticket.endpoint ticket.queueKey
  let kept ← Action.ensuring (close queue) do
    let ofPop ← keepError do
      let popped ← pop queue 1
      record .blocking (.popped popped ticket.queueKey)
    let ofExpire ← keepError do
      let _ ← expire queue ticket.expiry
    pure (ofPop.or ofExpire)
  match kept with
  | none => pure ()
  | some e => throw e

/-- Whether a failure to acquire leaves an entry in the queue to be given back. -/
def isRefusal : Failure τ → Bool
  | .semaphore (.acquireTimeout ..) _ => true
  | .semaphore (.positionExceeded ..) _ => true
  | _ => false

def acquire (semaphore : Semaphore τ) (timeout : Option τ) : Operation Q τ Unit := do
  let ticket ← semaphore.newTicket
  tryCatch (wait ticket timeout) fun e => do
    if isRefusal e then
      cleanUp ticket
    throw e
  hold ticket

def release (semaphore : Semaphore τ) : Operation Q τ Unit :=
  semaphore.giveBack cleanUp

end Blocking
end Turnstile
