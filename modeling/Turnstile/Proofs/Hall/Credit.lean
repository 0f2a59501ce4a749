import Turnstile.Proofs.Plan.Front
import Turnstile.Proofs.Stake

/-!
# Credit at a queue

Whoever was told that an entry was made at a queue has credit there for one removal.  The credit
goes along with the entry: a request for a slot has it until the slot is held, then it belongs to
the slot, and a release takes it over together with the slot.  It is spent when a head is removed.

What may go wrong meanwhile is said by a regime.  Under a fair one nothing goes wrong, except that
a request for a slot can be rejected or run out of time.

## Main definitions

* `Regime` - what may be answered to requests, and what may happen apart from them.
* `Credit` - the credit of one use of a semaphore.
* `Credit.terms` - what a use may ask for, and what becomes of its credit.
-/

namespace Turnstile

open Redis

variable {τ : Type} [Seconds τ]

/-!
## Regimes
-/

/-- A length of time below zero.  Nothing is known of the order of lengths of time, so both
relations say so. -/
def Seconds.Negative (duration : τ) : Prop :=
  duration < 0 ∧ duration ≤ 0

theorem Seconds.not_negative_earlier {a b : τ} (ha : ¬ Negative a) (hb : ¬ b ≤ 0) :
    ¬ Negative (earlier a b) := by
  unfold earlier
  split
  · exact fun h => hb h.2
  · exact ha

/-- What may come to pass around those who use queues. -/
structure Regime (τ : Type) [Seconds τ] where
  faults : Command → Failure τ → Prop
  estimates : Except (Failure τ) τ → Prop
  sleeps : τ → Except (Failure τ) Unit → Prop
  clock : τ → Prop
  /-- What may become of the keys by no doing of those who use the queues. -/
  elsewhere : Keyspace τ → Keyspace τ → Prop
  /-- No command fails in the way in which a request for a slot is refused. -/
  noRefusal : ∀ command e, faults command e → Blocking.isRefusal e = false

namespace Regime

/-- Nobody but those who use the queues changes the list under a key. -/
def Keeps (regime : Regime τ) (key : String) : Prop :=
  ∀ keys keys', regime.elsewhere keys keys' → ∀ line, keys.Lists key line → keys'.Lists key line

/-- No command fails, no time to wait is negative, every other sleep comes to its end, and the time
between any two looks at the clock can be measured. -/
structure Fair (regime : Regime τ) : Prop where
  faultless : ∀ command e, ¬ regime.faults command e
  estimates : ∀ reply, regime.estimates reply →
    ∃ duration, reply = .ok duration ∧ ¬ Seconds.Negative duration
  sleeps : ∀ duration reply, regime.sleeps duration reply → ¬ Seconds.Negative duration →
    reply = .ok ()
  clock : ∀ started time, regime.clock started → regime.clock time →
    ∃ ms, Seconds.toMillis (time - started) = .ok ms

end Regime

/-!
## Credit
-/

inductive Credit where
  /-- No entry was made yet, as far as the user was told. -/
  | blank
  /-- An entry was made for a request for a slot. -/
  | entry
  /-- A slot is being given back. -/
  | slot
  /-- A head was removed, or the slot is held and has the credit. -/
  | spent
  deriving DecidableEq

/-- The commands without which a user cannot keep its books: by one it reaches the server, and by
the other it sees whether to go on waiting. -/
def Redis.Command.Vital : Command → Prop
  | .ping | .lpos .. => True
  | _ => False

namespace Credit

/-- The number of removals that a credit is good for. -/
def worth : Credit → Nat
  | .entry | .slot => 1
  | .blank | .spent => 0

/-- What a user may ask for about the queue under `key`.  A head is removed only on credit, and a
slot is held only by whoever has the credit for its entry. -/
def allows (key : String) (φ : Credit) : (Premises τ).Request → Prop
  | .inl (.call _ command) =>
      match command with
      | .ping => True
      | .rpush key' _ => key' = key ∧ φ = .blank
      | .lpos key' _ => key' = key
      | .lpop key' count => key' = key ∧ count = 1 ∧ (φ = .entry ∨ φ = .slot)
      | .expire key' seconds => key' = key ∧ 1 ≤ seconds
      | .llen key' => key' = key
  | .inl _ => True
  | .inr r =>
      match r with
      | .announce _ => False
      | .hold ticket => ticket.queueKey = key ∧ φ = .entry
      | .takeOldest => φ = .blank ∨ φ = .spent
      | _ => True

def expects (key : String) (regime : Regime τ) :
    (r : (Premises τ).Request) → (Premises τ).Answer r → Prop
  | .inl (.call _ command), reply => ∀ e, reply = Except.error e →
      Blocking.isRefusal e = false ∧ (command.Vital → ¬ regime.Fair)
  | .inr r, answer =>
      match r, answer with
      | .estimate .., reply => regime.estimates reply
      | .sleep duration, reply => regime.sleeps duration reply
      | .now, time => regime.clock time
      | .takeOldest, ticket? => ∀ ticket : Ticket τ, ticket? = some ticket → ticket.queueKey = key
      | _, _ => True
  | _, _ => True

def after (φ : Credit) : (r : (Premises τ).Request) → (Premises τ).Answer r → Credit
  | .inl (.call _ command), reply =>
      match command, reply with
      | .rpush .., .ok _ => .entry
      | .lpop .., _ => .spent
      | _, _ => φ
  | .inr r, answer =>
      match r, answer with
      | .hold _, _ => .spent
      | .takeOldest, some _ => .slot
      | _, _ => φ
  | _, _ => φ

def terms (key : String) (regime : Regime τ) : Plan.Terms (Premises τ) Credit where
  ask φ r post := φ.allows key r ∧ ∀ a, expects key regime r a → post (φ.after r a) a
  ask_mono hpost h := ⟨h.1, fun a ha => hpost _ a (h.2 a ha)⟩
  interruptible := True

end Credit

def removes : (Premises τ).Request → Bool
  | .inl (.call _ (.lpop ..)) => true
  | _ => false

namespace Credit

variable {key : String} {regime : Regime τ} {φ : Credit} {failed : Credit → Failure τ → Prop}

theorem prices : (terms key regime).Prices removes worth where
  paid {φ r post} hremoves hask := by
    rcases r with (_ | ⟨client, command⟩ | _) | r
    · cases hremoves
    · cases command with
      | lpop key' count =>
          rcases hask.1 with ⟨_, _, hentry | hslot⟩
          · rw [hentry]
            exact Nat.le_refl 1
          · rw [hslot]
            exact Nat.le_refl 1
      | _ => cases hremoves
    · cases hremoves
    · cases hremoves
  loud {φ r} hremoves hquiet := by
    rcases r with (_ | ⟨client, command⟩ | _) | r
    · cases hremoves
    · cases command with
      | lpop key' count =>
          rcases hquiet φ (fun φ' _ => φ' = φ) rfl fun _ => rfl with ⟨⟨_, _, hφ⟩, hspent⟩
          have hexpected : expects key regime (.inl (.call client (.lpop key' count)))
              (Except.ok none : Except (Failure τ) (Option (List Item))) := by
            intro e he
            cases he
          have hspent' : Credit.spent = φ := hspent _ hexpected
          rw [← hspent'] at hφ
          rcases hφ with hentry | hslot
          · cases hentry
          · cases hslot
      | _ => cases hremoves
    · cases hremoves
    · cases hremoves

theorem ofQueue_of_allows {client : Client} {command : Command}
    (h : φ.allows key (.inl (.call client command) : (Premises τ).Request)) :
    command.OfQueue key := by
  cases command with
  | ping => trivial
  | rpush key' id => exact h.1
  | lpos key' id => exact h
  | lpop key' count => exact ⟨h.1, h.2.1⟩
  | expire key' seconds => exact h
  | llen key' => exact h

theorem atRest : AtRest (terms key regime) key φ := by
  intro r hr φ' post hφ' hpost
  rcases r with (_ | ⟨client, command⟩ | _) | r
  · exact hr.elim
  · cases command with
    | lpos key' id => exact ⟨hr, fun a _ => hpost a⟩
    | _ => exact hr.elim
  · exact hr.elim
  · cases r with
    | estimate position capacity base => exact ⟨trivial, fun a _ => hpost a⟩
    | sleep duration => exact ⟨trivial, fun a _ => hpost a⟩
    | now => exact ⟨trivial, fun a _ => hpost a⟩
    | record mode entry => exact ⟨trivial, fun a _ => hpost a⟩
    | _ => exact hr.elim

theorem cleansUp (hφ : φ = .entry ∨ φ = .slot) :
    CleansUp (terms key regime) key (¬ regime.Fair) φ .spent where
  renews r hr φ post _ hpost := by
    rcases r with (_ | ⟨client, command⟩ | _) | r
    · exact ⟨trivial, fun a _ => hpost a⟩
    · cases command with
      | ping => exact ⟨trivial, fun a _ => hpost a⟩
      | expire key' seconds => exact ⟨hr, fun a _ => hpost a⟩
      | _ => exact hr.elim
    · exact ⟨trivial, fun a _ => hpost a⟩
    · cases r with
      | record mode entry => exact ⟨trivial, fun a _ => hpost a⟩
      | _ => exact hr.elim
  reaches client post hok herror := by
    refine ⟨trivial, fun (reply : Except (Failure τ) Unit) hreply => ?_⟩
    cases reply with
    | ok _ => exact hok
    | error e => exact herror ((hreply e rfl).2 trivial) e
  removes client post hpost := ⟨⟨rfl, rfl, hφ⟩, fun a _ => hpost a⟩

/-!
## Requests
-/

theorem keeps_connect {endpoint : String} {done : Credit → Queue → Prop}
    (hdone : ∀ queue : Queue, queue.key = key → done φ queue)
    (hfailed : ∀ e, Blocking.isRefusal e = false → failed φ e) :
    Action.Keeps serveOnPremises (Service.connect endpoint key) (terms key regime) φ done
      failed := by
  apply Turnstile.keeps_connect
  refine ⟨trivial, fun client _ => ⟨trivial, ?_⟩⟩
  intro (reply : Except (Failure τ) Unit) hreply
  cases reply with
  | ok _ => exact hdone _ rfl
  | error e =>
      have he := Blocking.isRefusal_asStoreFailure (hreply e rfl).1 endpoint "PING" key
      exact ⟨⟨trivial, fun _ _ => hfailed _ he⟩, hfailed _ he⟩

theorem keeps_push {queue : Queue} {id : String} {done : Credit → Nat → Prop}
    (hqueue : queue.key = key) (hdone : ∀ length, done .entry length)
    (hfailed : ∀ e, Blocking.isRefusal e = false → failed .blank e) :
    Action.Keeps serveOnPremises (Service.push queue id) (terms key regime) .blank done failed := by
  apply Turnstile.keeps_push
  refine ⟨⟨hqueue, rfl⟩, ?_⟩
  intro (reply : Except (Failure τ) Nat) hreply
  cases reply with
  | ok length => exact hdone length
  | error e => exact hfailed _ (Blocking.isRefusal_asStoreFailure (hreply e rfl).1 _ _ _)

theorem keeps_position {queue : Queue} {id : String} {done : Credit → Option Nat → Prop}
    (hqueue : queue.key = key) (hdone : ∀ rank, done φ rank)
    (hfailed : ∀ e, ¬ regime.Fair → failed φ e) :
    Action.Keeps serveOnPremises (Service.position queue id) (terms key regime) φ done
      failed := by
  apply Turnstile.keeps_position
  refine ⟨hqueue, ?_⟩
  intro (reply : Except (Failure τ) (Option Nat)) hreply
  cases reply with
  | ok rank => exact hdone rank
  | error e => exact hfailed _ ((hreply e rfl).2 trivial)

theorem keeps_length {queue : Queue} {done : Credit → Nat → Prop} (hqueue : queue.key = key)
    (hdone : ∀ length, done φ length) (hfailed : ∀ e, failed φ e) :
    Action.Keeps serveOnPremises (Service.length queue) (terms key regime) φ done failed := by
  apply meets_store
  apply keeps_call
  refine ⟨hqueue, ?_⟩
  intro (reply : Except (Failure τ) Nat) _
  cases reply with
  | ok length => exact hdone length
  | error e => exact hfailed _

theorem meets_close {queue : Queue} {post : Credit → Unit → Prop} (h : post φ ()) :
    ((Service.close queue).serve serveOnPremises).Meets (terms key regime) φ post :=
  Turnstile.meets_close ⟨trivial, fun _ _ => h⟩ h

theorem keeps_estimate {position capacity : Int} {base : τ} {done : Credit → τ → Prop}
    (hdone : ∀ duration, (regime.Fair → ¬ Seconds.Negative duration) → done φ duration)
    (hfailed : ∀ e, ¬ regime.Fair → failed φ e) :
    Action.Keeps serveOnPremises (Service.estimate position capacity base) (terms key regime) φ
      done failed := by
  apply meets_ambient
  refine ⟨trivial, ?_⟩
  intro (reply : Except (Failure τ) τ) hreply
  cases reply with
  | ok duration =>
      refine hdone duration fun hfair => ?_
      rcases hfair.estimates _ hreply with ⟨duration', heq, hnegative⟩
      cases heq
      exact hnegative
  | error e =>
      refine hfailed e fun hfair => ?_
      rcases hfair.estimates _ hreply with ⟨duration', heq, _⟩
      cases heq

theorem keeps_sleep {duration : τ} {done : Credit → Unit → Prop}
    (hduration : regime.Fair → ¬ Seconds.Negative duration) (hdone : done φ ())
    (hfailed : ∀ e, ¬ regime.Fair → failed φ e) :
    Action.Keeps serveOnPremises (Service.sleep duration) (terms key regime) φ done failed := by
  apply meets_ambient
  refine ⟨trivial, ?_⟩
  intro (reply : Except (Failure τ) Unit) hreply
  cases reply with
  | ok _ => exact hdone
  | error e =>
      refine hfailed e fun hfair => ?_
      cases hfair.sleeps _ _ hreply (hduration hfair)

theorem keeps_now {done : Credit → τ → Prop} (hdone : ∀ time, regime.clock time → done φ time) :
    Action.Keeps serveOnPremises Service.now (terms key regime) φ done failed :=
  Action.keeps_lift (meets_ambient ⟨trivial, hdone⟩)

theorem keeps_elapsedSince {started : τ} {done : Credit → Int → Prop}
    (hstarted : regime.clock started) (hdone : ∀ ms, done φ ms)
    (hfailed : ∀ e, ¬ regime.Fair → failed φ e) :
    Action.Keeps serveOnPremises (Service.elapsedSince started) (terms key regime) φ done
      failed := by
  apply Action.keeps_bind
  apply keeps_now
  intro time htime
  cases hms : Seconds.toMillis (time - started) with
  | ok ms => exact Action.keeps_pure (hdone ms)
  | error e =>
      refine Action.keeps_throw (hfailed _ fun hfair => ?_)
      rcases hfair.clock _ _ hstarted htime with ⟨ms, hok⟩
      rw [hok] at hms
      cases hms

theorem keeps_record {mode : Mode} {entry : Entry τ} {done : Credit → Unit → Prop}
    (hdone : done φ ()) :
    Action.Keeps serveOnPremises (Service.record mode entry) (terms key regime) φ done failed :=
  atRest.keeps_record hdone

theorem keeps_hold {ticket : Ticket τ} {done : Credit → Unit → Prop}
    (hticket : ticket.queueKey = key) (hdone : done .spent ()) :
    Action.Keeps serveOnPremises (Service.hold ticket) (terms key regime) .entry done failed :=
  Action.keeps_lift (meets_ambient ⟨⟨hticket, rfl⟩, fun _ _ => hdone⟩)

theorem keeps_takeOldest {done : Credit → Option (Ticket τ) → Prop}
    (hφ : φ = .blank ∨ φ = .spent)
    (hsome : ∀ ticket : Ticket τ, ticket.queueKey = key → done .slot (some ticket))
    (hnone : done φ none) :
    Action.Keeps serveOnPremises Service.takeOldest (terms key regime) φ done failed := by
  apply Action.keeps_lift
  apply meets_ambient
  refine ⟨hφ, ?_⟩
  intro (ticket? : Option (Ticket τ)) hticket
  cases ticket? with
  | none => exact hnone
  | some ticket => exact hsome ticket (hticket ticket rfl)

end Credit
end Turnstile
