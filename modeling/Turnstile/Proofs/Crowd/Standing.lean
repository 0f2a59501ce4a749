import Turnstile.Proofs.Premises
import Turnstile.Proofs.Redis.Execution

/-!
# The standing of a call

Many callers use semaphores with one queue.  How far each of them has come is known from what it
has asked for and what it was answered: `Standing` says it, and `Bearing.after` follows it from
answer to answer.

A call may make each kind of request in some standings only.  It pushes under the identity that it
was given, and once; it looks for no position but that of its own entry, and only while it waits;
and a head is removed only for a slot that was taken from those held.

## Main statements

* `Blocking.acquire_keeps` and `Cooperative.acquire_keeps` - a request for a slot that is neither
  refused nor interrupted asks for nothing else.
* `Blocking.release_keeps` and `Cooperative.release_keeps` - the same for giving back a slot.
-/

namespace Turnstile

open Redis

variable {τ : Type}

/-- How far a call has come. -/
inductive Standing where
  /-- It asks for a slot and has no identity yet. -/
  | arriving
  | named (id : String)
  /-- Its entry is made and there is no room for it yet. -/
  | waiting (id : String)
  /-- It was told a position below capacity. -/
  | admitted (id : String)
  /-- Its slot is among those that its instance holds. -/
  | settled (id : String)
  | failed (id : String)
  /-- It gives back a slot and none has been taken yet. -/
  | leaving
  /-- A slot was taken, and the head of the queue is still to be removed. -/
  | returning
  /-- The removal of the head was answered. -/
  | gone
  /-- There was no slot to give back. -/
  | emptyHanded
  deriving DecidableEq

def Standing.id? : Standing → Option String
  | .named id | .waiting id | .admitted id | .settled id | .failed id => some id
  | _ => none

def Standing.judged (capacity : Int) (id : String) (position : Int) : Standing :=
  if position < capacity then .admitted id else .waiting id

def Standing.entered (capacity : Int) (id : String) (length : Nat) : Standing :=
  .judged capacity id (length - 1)

/-- The standing of a call, and the time at which its wait began. -/
structure Bearing (τ : Type) where
  standing : Standing
  since : Option τ

namespace Bearing

def stand (φ : Bearing τ) (standing : Standing) : Bearing τ :=
  { φ with standing := standing }

def fail (φ : Bearing τ) : Bearing τ :=
  match φ.standing with
  | .waiting id | .admitted id => φ.stand (.failed id)
  | _ => φ

variable [Seconds τ]

def measures (φ : Bearing τ) (time : τ) : Bool :=
  match φ.since with
  | none => true
  | some since => (Seconds.toMillis (time - since)).isOk

def inTime (φ : Bearing τ) (limit : Option τ) (time : τ) : Prop :=
  ∀ longest ∈ limit, ∀ since ∈ φ.since, ∀ ms, Seconds.toMillis (time - since) = .ok ms →
    ¬ longest - Seconds.ofMillis ms ≤ 0

/-- The call that was told the time.  A wait begins with the last time before its entry. -/
def told (φ : Bearing τ) (time : τ) : Bearing τ :=
  match φ.standing with
  | .named _ => { φ with since := some time }
  | _ => if φ.measures time then φ else φ.fail

end Bearing

namespace Standing

variable [Seconds τ]

/-- What a call may ask for about the queue under `key`. -/
def allows (key : String) (standing : Standing) : (Premises τ).Request → Prop
  | .inl (.dial _) => True
  | .inl (.hangUp _) => True
  | .inl (.call _ command) =>
      match command with
      | .ping => True
      | .rpush key' id => key' = key ∧ standing = .named id
      | .lpos key' id => key' = key ∧ standing = .waiting id
      | .lpop key' count => key' = key ∧ count = 1 ∧ standing = .returning
      | .expire key' seconds =>
          key' = key ∧ 1 ≤ seconds ∧ (standing = .returning ∨ standing = .gone)
      | .llen _ => False
  | .inr r =>
      match r with
      | .estimate .. => ∃ id, standing = .waiting id
      | .sleep _ => ∃ id, standing = .waiting id
      | .now => True
      | .record .. => True
      | .announce _ => False
      | .freshId => standing = .arriving
      | .hold ticket => ticket.queueKey = key ∧ standing = .admitted ticket.id
      | .takeOldest => standing = .leaving

end Standing

namespace Bearing

variable [Seconds τ]

/-- The answers under which a call is neither refused nor interrupted: no failure refuses it, and
while it waits its limit of time does not pass. -/
def expects (key : String) (limit : Option τ) (φ : Bearing τ) :
    (r : (Premises τ).Request) → (Premises τ).Answer r → Prop
  | .inl (.call _ _), reply => ∀ e, reply = Except.error e → e.Ordinary
  | .inl (.dial _), _ => True
  | .inl (.hangUp _), _ => True
  | .inr r, answer =>
      match r, answer with
      | .estimate .., reply => ∀ e, reply = Except.error e → e.Ordinary
      | .sleep _, reply => ∀ e, reply = Except.error e → e.Ordinary
      | .now, time => (∃ id, φ.standing = .waiting id) → φ.inTime limit time
      | .takeOldest, ticket? => ∀ ticket : Ticket τ, ticket? = some ticket → ticket.queueKey = key
      | _, _ => True

def after (capacity : Int) (φ : Bearing τ) :
    (r : (Premises τ).Request) → (Premises τ).Answer r → Bearing τ
  | .inl (.call _ command), reply =>
      match command, reply with
      | .rpush _ id, .ok length => φ.stand (.entered capacity id length)
      | .rpush _ id, .error _ => φ.stand (.failed id)
      | .lpos _ id, .ok rank => φ.stand (.judged capacity id (positionOfRank rank))
      | .lpos _ id, .error _ => φ.stand (.failed id)
      | .lpop .., _ => φ.stand .gone
      | _, _ => φ
  | .inl _, _ => φ
  | .inr r, answer =>
      match r, answer with
      | .estimate .., Except.error _ => φ.fail
      | .sleep _, Except.error _ => φ.fail
      | .now, time => φ.told time
      | .freshId, id => φ.stand (.named id)
      | .hold ticket, _ => φ.stand (.settled ticket.id)
      | .takeOldest, some _ => φ.stand .returning
      | .takeOldest, none => φ.stand .emptyHanded
      | _, _ => φ

def terms (key : String) (capacity : Int) (limit : Option τ) :
    Plan.Terms (Premises τ) (Bearing τ) where
  ask φ r post :=
    φ.standing.allows key r ∧ ∀ a, φ.expects key limit r a → post (φ.after capacity r a) a
  ask_mono hpost h := ⟨h.1, fun a ha => hpost _ a (h.2 a ha)⟩
  interruptible := False

omit [Seconds τ] in
theorem fail_of_waiting {φ : Bearing τ} {id : String} (hφ : φ.standing = .waiting id) :
    φ.fail = φ.stand (.failed id) := by
  simp only [fail, hφ]

omit [Seconds τ] in
theorem fail_of_admitted {φ : Bearing τ} {id : String} (hφ : φ.standing = .admitted id) :
    φ.fail = φ.stand (.failed id) := by
  simp only [fail, hφ]

theorem told_of_named {φ : Bearing τ} {id : String} {time : τ} (hφ : φ.standing = .named id) :
    φ.told time = { φ with since := some time } := by
  simp only [told, hφ]

theorem told_cases (φ : Bearing τ) (time : τ) :
    (φ.told time).standing = φ.standing ∨
      ∃ id, (φ.standing = .waiting id ∨ φ.standing = .admitted id) ∧
        (φ.told time).standing = .failed id ∧
        ∃ since e, φ.since = some since ∧ Seconds.toMillis (time - since) = .error e := by
  unfold told
  split
  · exact Or.inl rfl
  · split
    · exact Or.inl rfl
    · rename_i hmeasures
      have herror : ∃ since e, φ.since = some since ∧
          Seconds.toMillis (time - since) = .error e := by
        unfold measures at hmeasures
        cases hsince : φ.since with
        | none =>
            rw [hsince] at hmeasures
            exact absurd rfl hmeasures
        | some since =>
            rw [hsince] at hmeasures
            dsimp only at hmeasures
            cases hms : Seconds.toMillis (time - since) with
            | ok ms =>
                rw [hms] at hmeasures
                exact absurd rfl hmeasures
            | error e => exact ⟨since, e, rfl, hms⟩
      cases hφ : φ.standing with
      | waiting id =>
          rw [fail_of_waiting hφ]
          exact Or.inr ⟨id, Or.inl rfl, rfl, herror⟩
      | admitted id =>
          rw [fail_of_admitted hφ]
          exact Or.inr ⟨id, Or.inr rfl, rfl, herror⟩
      | _ =>
          left
          simp only [fail, hφ]

theorem told_of_since {φ : Bearing τ} {started time : τ} (hsince : φ.since = some started)
    (hnamed : ∀ id, φ.standing ≠ .named id) :
    φ.told time = match Seconds.toMillis (time - started) with
      | .ok _ => φ
      | .error _ => φ.fail := by
  have hmeasures : φ.measures time = (Seconds.toMillis (time - started)).isOk := by
    simp only [measures, hsince]
  unfold told
  split
  · rename_i id hφ
    exact absurd hφ (hnamed id)
  · rw [hmeasures]
    cases Seconds.toMillis (time - started) <;> rfl

/-!
## Requests
-/

section Requests

variable {key : String} {capacity : Int} {limit : Option τ} {φ : Bearing τ}
  {failed : Bearing τ → Failure τ → Prop}

theorem keeps_connect {endpoint : String} {done : Bearing τ → Queue → Prop}
    (hdone : ∀ queue : Queue, queue.key = key → done φ queue)
    (hfailed : ∀ e : Failure τ, e.Ordinary → failed φ e) :
    Action.Keeps serveOnPremises (Service.connect endpoint key) (terms key capacity limit) φ
      done failed := by
  apply Turnstile.keeps_connect
  refine ⟨trivial, fun client _ => ⟨trivial, ?_⟩⟩
  intro (reply : Except (Failure τ) Unit) hreply
  cases reply with
  | ok _ => exact hdone _ rfl
  | error e =>
      have he := (hreply e rfl).asStoreFailure endpoint "PING" key
      exact ⟨⟨trivial, fun _ _ => hfailed _ he⟩, hfailed _ he⟩

theorem keeps_push {queue : Queue} {id : String} {done : Bearing τ → Nat → Prop}
    (hkey : queue.key = key) (hφ : φ.standing = .named id)
    (hdone : ∀ length : Nat, done (φ.stand (.entered capacity id length)) length)
    (hfailed : ∀ e : Failure τ, e.Ordinary → failed (φ.stand (.failed id)) e) :
    Action.Keeps serveOnPremises (Service.push queue id) (terms key capacity limit) φ
      done failed := by
  apply Turnstile.keeps_push
  refine ⟨⟨hkey, hφ⟩, ?_⟩
  intro (reply : Except (Failure τ) Nat) hreply
  cases reply with
  | ok length => exact hdone length
  | error e => exact hfailed _ ((hreply e rfl).asStoreFailure _ _ _)

theorem keeps_position {queue : Queue} {id : String} {done : Bearing τ → Option Nat → Prop}
    (hkey : queue.key = key) (hφ : φ.standing = .waiting id)
    (hdone : ∀ rank, done (φ.stand (.judged capacity id (positionOfRank rank))) rank)
    (hfailed : ∀ e : Failure τ, e.Ordinary → failed (φ.stand (.failed id)) e) :
    Action.Keeps serveOnPremises (Service.position queue id) (terms key capacity limit) φ
      done failed := by
  apply Turnstile.keeps_position
  refine ⟨⟨hkey, hφ⟩, ?_⟩
  intro (reply : Except (Failure τ) (Option Nat)) hreply
  cases reply with
  | ok rank => exact hdone rank
  | error e => exact hfailed _ ((hreply e rfl).asStoreFailure _ _ _)

theorem meets_close {queue : Queue} {post : Bearing τ → Unit → Prop} (h : post φ ()) :
    ((Service.close queue).serve serveOnPremises).Meets (terms key capacity limit) φ post :=
  Turnstile.meets_close ⟨trivial, fun _ _ => h⟩ h

theorem keeps_estimate {id : String} {position capacity' : Int} {base : τ}
    {done : Bearing τ → τ → Prop} (hφ : φ.standing = .waiting id)
    (hdone : ∀ duration, done φ duration)
    (hfailed : ∀ e : Failure τ, e.Ordinary → failed (φ.stand (.failed id)) e) :
    Action.Keeps serveOnPremises (Service.estimate position capacity' base)
      (terms key capacity limit) φ done failed := by
  refine ⟨⟨id, hφ⟩, ?_⟩
  intro (reply : Except (Failure τ) τ) hreply
  cases reply with
  | ok duration => exact hdone duration
  | error e =>
      show failed φ.fail e
      rw [fail_of_waiting hφ]
      exact hfailed e (hreply e rfl)

theorem keeps_sleep {id : String} {duration : τ} {done : Bearing τ → Unit → Prop}
    (hφ : φ.standing = .waiting id) (hdone : done φ ())
    (hfailed : ∀ e : Failure τ, e.Ordinary → failed (φ.stand (.failed id)) e) :
    Action.Keeps serveOnPremises (Service.sleep duration) (terms key capacity limit) φ
      done failed := by
  refine ⟨⟨id, hφ⟩, ?_⟩
  intro (reply : Except (Failure τ) Unit) hreply
  cases reply with
  | ok _ => exact hdone
  | error e =>
      show failed φ.fail e
      rw [fail_of_waiting hφ]
      exact hfailed e (hreply e rfl)

theorem keeps_now {done : Bearing τ → τ → Prop}
    (hdone : ∀ time, ((∃ id, φ.standing = .waiting id) → φ.inTime limit time) →
      done (φ.told time) time) :
    Action.Keeps serveOnPremises Service.now (terms key capacity limit) φ done failed :=
  Action.keeps_lift (meets_ambient ⟨trivial, hdone⟩)

/-- The time since the beginning of a wait either can be told, and while the call waits leaves
some of its limit, or fails the call. -/
theorem keeps_elapsedSince {started : τ} {done : Bearing τ → Int → Prop}
    (hsince : φ.since = some started) (hnamed : ∀ id, φ.standing ≠ .named id)
    (hdone : ∀ ms, ((∃ id, φ.standing = .waiting id) →
      ∀ longest ∈ limit, ¬ longest - Seconds.ofMillis ms ≤ 0) → done φ ms)
    (hfailed : ∀ e : Failure τ, e.Ordinary → failed φ.fail e) :
    Action.Keeps serveOnPremises (Service.elapsedSince started) (terms key capacity limit) φ
      done failed := by
  apply Action.keeps_bind
  apply keeps_now
  intro time htime
  rw [told_of_since hsince hnamed]
  cases hms : Seconds.toMillis (time - started) with
  | ok ms =>
      apply Action.keeps_pure
      refine hdone ms ?_
      intro hwaiting longest hlongest
      exact htime hwaiting longest hlongest started hsince ms hms
  | error e =>
      apply Action.keeps_throw
      exact hfailed _ (Failure.Ordinary.ofUnmeasurable e)

theorem keeps_record {mode : Mode} {entry : Entry τ} {done : Bearing τ → Unit → Prop}
    (hdone : done φ ()) :
    Action.Keeps serveOnPremises (Service.record mode entry) (terms key capacity limit) φ
      done failed :=
  Action.keeps_lift (meets_ambient ⟨trivial, fun _ _ => hdone⟩)

theorem keeps_hold {ticket : Ticket τ} {done : Bearing τ → Unit → Prop}
    (hkey : ticket.queueKey = key) (hφ : φ.standing = .admitted ticket.id)
    (hdone : done (φ.stand (.settled ticket.id)) ()) :
    Action.Keeps serveOnPremises (Service.hold ticket) (terms key capacity limit) φ
      done failed :=
  Action.keeps_lift (meets_ambient ⟨⟨hkey, hφ⟩, fun _ _ => hdone⟩)

theorem keeps_takeOldest {done : Bearing τ → Option (Ticket τ) → Prop}
    (hφ : φ.standing = .leaving)
    (hsome : ∀ ticket : Ticket τ, ticket.queueKey = key → done (φ.stand .returning) (some ticket))
    (hnone : done (φ.stand .emptyHanded) none) :
    Action.Keeps serveOnPremises Service.takeOldest (terms key capacity limit) φ
      done failed := by
  apply Action.keeps_lift
  apply meets_ambient
  refine ⟨hφ, ?_⟩
  intro (ticket? : Option (Ticket τ)) hticket
  cases ticket? with
  | none => exact hnone
  | some ticket => exact hsome ticket (hticket ticket rfl)

end Requests
end Bearing
end Turnstile
