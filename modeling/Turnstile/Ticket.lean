import Turnstile.Number.Decimal
import Turnstile.Text.Quoted

/-!
# Tickets

A ticket is everything that one request for a slot needs to talk to its queue: which queue, under
which identity, and within which bounds.  A ticket never changes once it is issued, and one that
breaks a rule is never issued.
-/

namespace Turnstile

def defaultEndpoint : String :=
  "redis://localhost:6379/0"

def defaultExpiry : Int :=
  30

def defaultSleep {τ : Type} [Seconds τ] : τ :=
  Seconds.ofMillis 100

structure TicketForm (τ : Type) where
  queueKey : String
  /-- The identity in the queue, unique among outstanding requests. -/
  id : String
  /-- How many may be admitted at once. -/
  capacity : Int := 1
  /-- The largest tolerated position in the queue, zero for no bound. -/
  maxPosition : Int := 0
  /-- The shortest time between two looks at the queue. -/
  baseSleep : τ
  endpoint : String := defaultEndpoint
  /-- The seconds that a queue lives on after a release. -/
  expiry : Int := defaultExpiry

inductive TicketDefect where
  | emptyQueueKey
  | emptyId
  | capacityBelowOne
  | negativeMaxPosition
  | baseSleepNotPositive
  | expiryBelowOne
  deriving DecidableEq

def TicketDefect.message : TicketDefect → String
  | .emptyQueueKey => "queue_key must not be empty"
  | .emptyId => "id must not be empty"
  | .capacityBelowOne => "capacity must be >= 1"
  | .negativeMaxPosition => "max_position must be non-negative"
  | .baseSleepNotPositive => "base_sleep_duration must be positive"
  | .expiryBelowOne => "expiry must be >= 1"

variable {τ : Type} [Seconds τ]

def TicketForm.defect? (form : TicketForm τ) : Option TicketDefect :=
  if form.queueKey.isEmpty then some .emptyQueueKey
  else if form.id.isEmpty then some .emptyId
  else if form.capacity < 1 then some .capacityBelowOne
  else if form.maxPosition < 0 then some .negativeMaxPosition
  else if form.baseSleep ≤ 0 then some .baseSleepNotPositive
  else if form.expiry < 1 then some .expiryBelowOne
  else none

/-- A form that breaks no rule. -/
structure Ticket (τ : Type) [Seconds τ] extends TicketForm τ where
  sound : toTicketForm.defect? = none

def TicketForm.issue (form : TicketForm τ) : Except TicketDefect (Ticket τ) :=
  match h : form.defect? with
  | none => .ok ⟨form, h⟩
  | some defect => .error defect

def TicketForm.text [Legible τ] (form : TicketForm τ) : String :=
  "SemaphoreDescriptor(queue_key=" ++ quoted form.queueKey ++ ", id=" ++ quoted form.id ++
    ", capacity=" ++ toString form.capacity ++ ", max_position=" ++ toString form.maxPosition ++
    ", base_sleep_duration=" ++ Legible.text form.baseSleep ++ ", store_endpoint=" ++
    quoted form.endpoint ++ ", expiry=" ++ toString form.expiry ++ ")"

/-- What is said to whoever tries to change a field of a ticket. -/
def assignmentRefused (field : String) : String :=
  "cannot assign to field " ++ quoted field

def TicketForm.agrees (a b : TicketForm τ) : Bool :=
  a.queueKey == b.queueKey && a.id == b.id && a.capacity == b.capacity &&
    a.maxPosition == b.maxPosition && Seconds.same a.baseSleep b.baseSleep &&
    a.endpoint == b.endpoint && a.expiry == b.expiry

end Turnstile
