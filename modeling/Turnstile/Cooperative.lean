import Turnstile.Slots

/-!
# Cooperative operations

A cooperative caller is a task that waits without holding up others and that can be interrupted
wherever it waits.  A limit of time is put on the whole wait from outside, and a wait that reaches
it is interrupted.

An interrupted request for a slot gives back an entry of the queue on the caller's behalf, but
only if its own entry was seen to be made.

## Main definitions

* `Cooperative.wait` - enters the queue and returns once there is room.
* `Cooperative.cleanUp` - removes the head of the queue and renews its expiry, as two legs.
* `Cooperative.acquire` and `Cooperative.release` - take and give back a slot of a semaphore.
-/

namespace Turnstile
namespace Cooperative

open Service

variable {Q τ : Type} [Seconds τ]

def look (queue : Q) (ticket : Ticket τ) (started : τ) (position : Int) :
    Operation Q τ (Int ⊕ Unit) :=
  match ticket.verdict position with
  | .admitted => do
      let elapsed ← elapsedSince started
      record .cooperative (.admitted position ticket.capacity elapsed)
      pure (.inr ())
  | .rejected => do
      record .cooperative (.beyondMaximum position ticket.maxPosition)
      throw (.plain (.positionExceeded position ticket.maxPosition))
  | .waiting => do
      let duration ← estimate position ticket.capacity ticket.baseSleep
      record .cooperative (.sleeping position ticket.capacity duration)
      sleep duration
      let rank ← Service.position queue ticket.id
      if rank.isNone then
        record .cooperative (.missing ticket.id ticket.queueKey absentPosition)
      record .cooperative (.moved (positionOfRank rank))
      pure (.inl (positionOfRank rank))

/-- How a wait ended, and whether its entry was seen to be made in the queue. -/
structure Waited (τ : Type) where
  enqueued : Bool
  outcome : Except (Failure τ) Unit

/-- Enters the queue and follows it until there is room.  The first position is the length of the
queue less one, so that it counts from zero like every later rank. -/
def follow (ticket : Ticket τ) (watched : Bool) : Plan (Service Q τ) τ (Waited τ) := do
  match ← (connect ticket.endpoint ticket.queueKey).run with
  | .error e => pure ⟨false, .error e⟩
  | .ok queue =>
      let started : τ ← ambient .now
      match ← (push queue ticket.id).run with
      | .error e =>
          close queue
          pure ⟨false, .error e⟩
      | .ok length =>
          let position : Int := length - 1
          let outcome ← ExceptT.run do
            if watched then
              announce position
            record .cooperative (.entered ticket.queueKey position)
            Action.repeatFrom position (look queue ticket started)
          close queue
          pure ⟨true, outcome⟩

/-- Enters the queue and returns once there is room.  A watcher is told the first position.  The
entry stays in the queue whether this returns or fails. -/
def wait (ticket : Ticket τ) (watched : Bool) : Operation Q τ Unit :=
  ExceptT.mk do
    let waited ← follow ticket watched
    pure waited.outcome

def popHead (ticket : Ticket τ) : Operation Q τ Unit := do
  let queue ← connect ticket.endpoint ticket.queueKey
  let popped ← Action.ensuring (close queue) (pop queue 1)
  record .cooperative (.popped popped ticket.queueKey)

def renewExpiry (ticket : Ticket τ) : Operation Q τ Unit := do
  let queue ← connect ticket.endpoint ticket.queueKey
  let _ ← Action.ensuring (close queue) (expire queue ticket.expiry)
  record .cooperative (.expirySet ticket.queueKey ticket.expiry)

/-- The failure of a leg as its clean-up reports it.  A leg that was interrupted by itself is
named. -/
def joined (leg : String) : Except (Failure τ) Unit → Except (Failure τ) Unit
  | .error .interrupted => .error (.semaphore (.legInterrupted leg) (some .interrupted))
  | ended => ended

/-- Removes the head of the queue and renews its expiry.  The two legs run side by side and both
are awaited; the failure of the expiry is reported before that of the removal. -/
def cleanUp (ticket : Ticket τ) : Operation Q τ Unit :=
  ExceptT.mk <| .both (renewExpiry ticket).run (popHead ticket).run fun
    | none => .pure (.error .interrupted)
    | some (ofExpire, ofPop) => .pure do
        joined "expire" ofExpire
        joined "lpop" ofPop

/-- How a wait under a limit ended.  A wait that was interrupted by its limit has run out of time,
unless it ended in a way of its own before the interruption reached it. -/
def limited : Lapse → Option (Waited τ) → Waited τ
  | .inTime, some waited => waited
  | .expired, some ⟨enqueued, .error .interrupted⟩ => ⟨enqueued, .error .limitPassed⟩
  | .expired, some waited => waited
  | .interrupted, some waited => ⟨waited.enqueued, .error .interrupted⟩
  | .interrupted, none => ⟨false, .error .interrupted⟩
  | _, none => ⟨false, .error .limitPassed⟩

def followWithin (ticket : Ticket τ) (timeout : Option τ) :
    Plan (Service Q τ) τ (Waited τ) :=
  match timeout with
  | none => follow ticket false
  | some limit => .within limit (follow ticket false) fun lapse waited? =>
      .pure (limited lapse waited?)

/-- Whether a failure gives back an entry and is passed on as it is. -/
def isRefusal : Failure τ → Bool
  | .semaphore (.positionExceeded ..) _ => true
  | .interrupted => true
  | _ => false

/-- Waits until a slot is held.  Every timeout, of the limit or of the store's client, is reported
as a failure to acquire in time. -/
def acquire (semaphore : Semaphore τ) (timeout : Option τ) : Operation Q τ Unit := do
  let ticket ← semaphore.newTicket
  let started ← now
  let waited ← ExceptT.lift (followWithin ticket timeout)
  match waited.outcome with
  | .ok () => hold ticket
  | .error e =>
      if e.isA .timeout then
        if waited.enqueued then
          cleanUp ticket
        let elapsed ← elapsedSince started
        throw (.plain (.acquireTimeout semaphore.key timeout elapsed))
      else
        if isRefusal e && waited.enqueued then
          cleanUp ticket
        throw e

def release (semaphore : Semaphore τ) : Operation Q τ Unit :=
  semaphore.giveBack cleanUp

end Cooperative
end Turnstile
