import Turnstile.Failure
import Turnstile.Journal
import Turnstile.Plan.Basic
import Turnstile.Ticket

/-!
# What a semaphore asks of its surroundings

The operations of a semaphore are plans over two interfaces: the store that keeps its queue, and
the surroundings that tell the time, let it pass, and remember which slots an instance holds.  The
two together are `Service`.

`Q` is the type of an open queue and `τ` that of a number of seconds.
-/

namespace Turnstile

inductive StoreRequest (Q : Type) where
  | connect (endpoint key : String)
  | push (queue : Q) (id : String)
  /-- The rank of the first entry of an identity, counted from zero. -/
  | position (queue : Q) (id : String)
  | pop (queue : Q) (count : Int)
  /-- Sets the seconds to live and tells whether the queue exists. -/
  | expire (queue : Q) (seconds : Int)
  | length (queue : Q)
  | close (queue : Q)

/-- The answers of a store.  All but closing can fail. -/
def StoreRequest.Answer (Q τ : Type) : StoreRequest Q → Type
  | .connect .. => Except (Failure τ) Q
  | .push .. => Except (Failure τ) Nat
  | .position .. => Except (Failure τ) (Option Nat)
  | .pop .. => Except (Failure τ) (List String)
  | .expire .. => Except (Failure τ) Bool
  | .length .. => Except (Failure τ) Nat
  | .close .. => Unit

def Store (Q τ : Type) : Interface where
  Request := StoreRequest Q
  Answer := StoreRequest.Answer Q τ

/-- The requests to everything but the store. -/
inductive AmbientRequest (τ : Type) [Seconds τ] where
  | estimate (position capacity : Int) (base : τ)
  | sleep (duration : τ)
  | now
  | record (mode : Mode) (entry : Entry τ)
  /-- Tells a watcher the position at which a waiter entered its queue. -/
  | announce (position : Int)
  | freshId
  | hold (ticket : Ticket τ)
  | takeOldest

def AmbientRequest.Answer (τ : Type) [Seconds τ] : AmbientRequest τ → Type
  | .estimate .. => Except (Failure τ) τ
  | .sleep .. => Except (Failure τ) Unit
  | .now => τ
  | .record .. => Unit
  | .announce .. => Except (Failure τ) Unit
  | .freshId => String
  | .hold .. => Unit
  | .takeOldest => Option (Ticket τ)

def Ambience (τ : Type) [Seconds τ] : Interface where
  Request := AmbientRequest τ
  Answer := AmbientRequest.Answer τ

abbrev Service (Q τ : Type) [Seconds τ] : Interface :=
  (Store Q τ).sum (Ambience τ)

abbrev Operation (Q τ : Type) [Seconds τ] : Type → Type 1 :=
  Action (Service Q τ) τ (Failure τ)

namespace Service

variable {Q τ : Type} [Seconds τ]

def store (r : StoreRequest Q) : Plan (Service Q τ) τ (r.Answer Q τ) :=
  @Plan.request (Service Q τ) τ (.inl r)

def ambient (r : AmbientRequest τ) : Plan (Service Q τ) τ (r.Answer τ) :=
  @Plan.request (Service Q τ) τ (.inr r)

def connect (endpoint key : String) : Operation Q τ Q :=
  ExceptT.mk (store (.connect endpoint key))

def push (queue : Q) (id : String) : Operation Q τ Nat :=
  ExceptT.mk (store (.push queue id))

def position (queue : Q) (id : String) : Operation Q τ (Option Nat) :=
  ExceptT.mk (store (.position queue id))

def pop (queue : Q) (count : Int) : Operation Q τ (List String) :=
  ExceptT.mk (store (.pop queue count))

def expire (queue : Q) (seconds : Int) : Operation Q τ Bool :=
  ExceptT.mk (store (.expire queue seconds))

def length (queue : Q) : Operation Q τ Nat :=
  ExceptT.mk (store (.length queue))

def close (queue : Q) : Plan (Service Q τ) τ Unit :=
  store (.close queue)

def estimate (position capacity : Int) (base : τ) : Operation Q τ τ :=
  ExceptT.mk (ambient (.estimate position capacity base))

def sleep (duration : τ) : Operation Q τ Unit :=
  ExceptT.mk (ambient (.sleep duration))

def now : Operation Q τ τ :=
  ExceptT.lift (ambient .now)

def record (mode : Mode) (entry : Entry τ) : Operation Q τ Unit :=
  ExceptT.lift (ambient (.record mode entry))

def announce (position : Int) : Operation Q τ Unit :=
  ExceptT.mk (ambient (.announce position))

def freshId : Operation Q τ String :=
  ExceptT.lift (ambient .freshId)

def hold (ticket : Ticket τ) : Operation Q τ Unit :=
  ExceptT.lift (ambient (.hold ticket))

def takeOldest : Operation Q τ (Option (Ticket τ)) :=
  ExceptT.lift (ambient .takeOldest)

def elapsedSince (start : τ) : Operation Q τ Int := do
  let current ← now
  match Seconds.toMillis (current - start) with
  | .ok ms => pure ms
  | .error e => throw (.ofUnmeasurable e)

end Service
end Turnstile
