import Turnstile.Journal
import Turnstile.Ticket

/-!
# Semaphores

A semaphore is a key, a number of slots, and the bounds under which its users wait.  All
semaphores with the same key and store share one queue, whatever process or task they live in.

This module holds what a semaphore is and how a position in its queue is judged.  A semaphore can
be used in two ways, by `Turnstile.Blocking` or by `Turnstile.Cooperative` operations.
-/

namespace Turnstile

structure SemaphoreForm (τ : Type) where
  key : String
  capacity : Int := 1
  maxPosition : Int := 0
  sleepDuration : τ
  expiry : Int := defaultExpiry
  endpoint : String := defaultEndpoint

inductive SemaphoreDefect where
  | emptyKey
  | capacityBelowOne
  | negativeMaxPosition
  | sleepNotPositive
  | expiryBelowOne
  deriving DecidableEq

def SemaphoreDefect.message : SemaphoreDefect → String
  | .emptyKey => "Semaphore key must not be empty"
  | .capacityBelowOne => "Semaphore capacity must be >= 1"
  | .negativeMaxPosition => "max_position must be non-negative"
  | .sleepNotPositive => "sleep_duration must be positive"
  | .expiryBelowOne => "expiry must be >= 1"

variable {τ : Type} [Seconds τ]

def SemaphoreForm.defect? (form : SemaphoreForm τ) : Option SemaphoreDefect :=
  if form.key.isEmpty then some .emptyKey
  else if form.capacity < 1 then some .capacityBelowOne
  else if form.maxPosition < 0 then some .negativeMaxPosition
  else if form.sleepDuration ≤ 0 then some .sleepNotPositive
  else if form.expiry < 1 then some .expiryBelowOne
  else none

/-- A distributed semaphore that admits its users in the order in which they queue. -/
structure Semaphore (τ : Type) [Seconds τ] extends SemaphoreForm τ where
  sound : toSemaphoreForm.defect? = none

def SemaphoreForm.build (form : SemaphoreForm τ) : Except SemaphoreDefect (Semaphore τ) :=
  match h : form.defect? with
  | none => .ok ⟨form, h⟩
  | some defect => .error defect

namespace Semaphore

def queueKey (semaphore : Semaphore τ) : String :=
  "semaphore:" ++ semaphore.key ++ ":queue"

def ticketForm (semaphore : Semaphore τ) (id : String) : TicketForm τ where
  queueKey := semaphore.queueKey
  id := id
  capacity := semaphore.capacity
  maxPosition := semaphore.maxPosition
  baseSleep := semaphore.sleepDuration
  endpoint := semaphore.endpoint
  expiry := semaphore.expiry

def text (mode : Mode) (semaphore : Semaphore τ) : String :=
  let kind := match mode with
    | .blocking => "Semaphore"
    | .cooperative => "AIOSemaphore"
  "<" ++ kind ++ " key=" ++ quoted semaphore.key ++ " capacity=" ++
    toString semaphore.capacity ++ " max_position=" ++ toString semaphore.maxPosition ++ ">"

end Semaphore

/-- The position at which a waiter is taken to stand when its identity is not in the queue. -/
def absentPosition : Int :=
  1

def positionOfRank : Option Nat → Int
  | some rank => rank
  | none => absentPosition

inductive Verdict where
  | admitted
  | rejected
  | waiting
  deriving DecidableEq

/-- A waiter is admitted at any position below capacity, and rejected beyond the largest tolerated
position if there is one.  Admission comes first. -/
def TicketForm.verdict (form : TicketForm τ) (position : Int) : Verdict :=
  if position < form.capacity then .admitted
  else if 0 < form.maxPosition ∧ form.maxPosition < position then .rejected
  else .waiting

end Turnstile
