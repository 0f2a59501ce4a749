import Mathlib.Logic.Relation
import Turnstile.Proofs.Crowd.Conduct

/-!
# Crowds

A crowd is any number of users of one queue, each with a semaphore of its own, and all the calls
that they have made so far.  Calls go on in any order, one request at a time, and every request is
answered by what the server keeps at that moment.

Requests may fail.  A command that fails may have taken effect or not, and its caller is not told
which.  The failures that may occur are those of the venue.  No call runs out of time while it
waits, and none is interrupted; the deadline of the queue does not come, and nobody else changes
the queue.

## Main definitions

* `Crowd.Hears` - the step in which a call is answered.
* `Crowd.Step` - the steps of a crowd.
* `Crowd.Opening` - the crowds in which nothing was asked yet.
-/

namespace Turnstile

open Redis

/-!
## One element of a list
-/

section Split

universe u

variable {α : Type u} {l before after : List α} {a b : α}

theorem mem_of_split (split : l = before ++ a :: after) : a ∈ l := by
  rw [split]
  exact List.mem_append_cons_self

theorem forall_mem_replace {p : α → Prop} (split : l = before ++ a :: after) (hl : ∀ c ∈ l, p c)
    (hb : p b) : ∀ c ∈ before ++ b :: after, p c := by
  intro c hc
  rcases List.mem_append.mp hc with hbefore | hc
  · refine hl c ?_
    rw [split]
    exact List.mem_append_left _ hbefore
  · rcases List.mem_cons.mp hc with rfl | hafter
    · exact hb
    · refine hl c ?_
      rw [split]
      exact List.mem_append_right _ (List.mem_cons_of_mem _ hafter)

theorem getElem?_here (before after : List α) (a : α) :
    (before ++ a :: after)[before.length]? = some a := by
  simp

theorem getElem?_replaced {number : Nat} (hnumber : before.length ≠ number) :
    (before ++ b :: after)[number]? = (before ++ a :: after)[number]? := by
  rcases Nat.lt_or_gt_of_ne hnumber with hlt | hgt
  · rw [List.getElem?_append_right (by omega), List.getElem?_append_right (by omega),
      show number - before.length = (number - before.length - 1) + 1 by omega,
      List.getElem?_cons_succ, List.getElem?_cons_succ]
  · rw [List.getElem?_append_left hgt, List.getElem?_append_left hgt]

end Split

/-!
## Users and calls
-/

variable {τ : Type} [Seconds τ]

/-- Where a crowd meets: a queue, its number of slots, and what may go wrong. -/
structure Venue (τ : Type) where
  queueKey : String
  capacity : Int
  /-- What is in the queue before any entry is made. -/
  initial : List ByteArray
  /-- The failures that requests may be met with. -/
  faults : Failure τ → Prop

/-- An instance of a semaphore, with the slots that it holds, the oldest first. -/
structure User (τ : Type) [Seconds τ] where
  mode : Mode
  semaphore : Semaphore τ
  held : List (Ticket τ)

def User.acquire (user : User τ) (limit : Option τ) : Operation Queue τ Unit :=
  match user.mode with
  | .blocking => Blocking.acquire user.semaphore limit
  | .cooperative => Cooperative.acquire user.semaphore limit

def User.release (user : User τ) : Operation Queue τ Unit :=
  match user.mode with
  | .blocking => Blocking.release user.semaphore
  | .cooperative => Cooperative.release user.semaphore

/-- A call of a user that is told by its number, and what it still has to do. -/
structure Caller (τ : Type) [Seconds τ] where
  user : Nat
  limit : Option τ
  bearing : Bearing τ
  plan : Plan (Premises τ) τ (Except (Failure τ) Unit)

/-- The users of a queue and their calls, in the order in which the calls were made. -/
structure Crowd (τ : Type) [Seconds τ] where
  keys : Keyspace τ
  users : List (User τ)
  callers : List (Caller τ)
  /-- The identities whose entries were made, in that order. -/
  entries : List String
  /-- The identities that were admitted, in that order. -/
  admissions : List String

def Standing.admission (old new : Standing) : List String :=
  match new with
  | .admitted id => if old = new then [] else [id]
  | _ => []

def Redis.Command.entry : Command → List String
  | .rpush _ id => [id]
  | _ => []

namespace Crowd

def standing? (crowd : Crowd τ) (number : Nat) : Option Standing :=
  crowd.callers[number]?.map fun caller => caller.bearing.standing

def held (crowd : Crowd τ) : Nat :=
  (crowd.users.flatMap fun user => user.held).length

def count (crowd : Crowd τ) (kind : Standing → Bool) : Nat :=
  crowd.callers.countP fun caller => kind caller.bearing.standing

/-!
## Answers
-/

inductive Answers (venue : Venue τ) (crowd : Crowd τ) (caller : Caller τ) :
    (r : (Premises τ).Request) → (Premises τ).Answer r → Crowd τ → Prop where
  | dial (endpoint : String) (client : Client) :
      Answers venue crowd caller (.inl (.dial endpoint)) client crowd
  | hangUp (client : Client) : Answers venue crowd caller (.inl (.hangUp client)) () crowd
  | call (client : Client) {command : Command} {took : Bool}
      {reply : Except (Failure τ) command.Reply} {keys : Keyspace τ}
      (executed : Keyspace.Executed venue.faults crowd.keys command took reply keys) :
      Answers venue crowd caller (.inl (.call client command)) reply
        { crowd with
          keys := keys
          entries := crowd.entries ++ if took then command.entry else [] }
  | estimate (position capacity : Int) (base : τ) {reply : Except (Failure τ) τ}
      (faults : ∀ e, reply = .error e → venue.faults e) :
      Answers venue crowd caller (.inr (.estimate position capacity base)) reply crowd
  | sleep (duration : τ) {reply : Except (Failure τ) Unit}
      (faults : ∀ e, reply = .error e → venue.faults e) :
      Answers venue crowd caller (.inr (.sleep duration)) reply crowd
  | now {time : τ}
      (inTime : (∃ id, caller.bearing.standing = .waiting id) →
        caller.bearing.inTime caller.limit time)
      (faults : (∀ id, caller.bearing.standing ≠ .named id) → ∀ since ∈ caller.bearing.since,
        ∀ e, Seconds.toMillis (time - since) = .error e → venue.faults (.ofUnmeasurable e)) :
      Answers venue crowd caller (.inr .now) time crowd
  | record (mode : Mode) (entry : Entry τ) :
      Answers venue crowd caller (.inr (.record mode entry)) () crowd
  | freshId {id : String} (fresh : ∀ other ∈ crowd.callers, other.bearing.standing.id? ≠ some id)
      (apart : id.toUTF8 ∉ venue.initial) :
      Answers venue crowd caller (.inr .freshId) id crowd
  | hold (ticket : Ticket τ) {before after : List (User τ)} {user : User τ}
      (split : crowd.users = before ++ user :: after) (place : before.length = caller.user) :
      Answers venue crowd caller (.inr (.hold ticket)) ()
        { crowd with
          users := before ++ { user with held := user.held ++ [ticket] } :: after }
  | takeOldest {before after : List (User τ)} {user : User τ} {ticket : Ticket τ}
      {rest : List (Ticket τ)} (split : crowd.users = before ++ user :: after)
      (place : before.length = caller.user) (oldest : user.held = ticket :: rest) :
      Answers venue crowd caller (.inr .takeOldest) (some ticket)
        { crowd with users := before ++ { user with held := rest } :: after }
  | noneHeld {before after : List (User τ)} {user : User τ}
      (split : crowd.users = before ++ user :: after) (place : before.length = caller.user)
      (empty : user.held = []) :
      Answers venue crowd caller (.inr .takeOldest) none crowd

/-!
## Steps
-/

def resume (crowd : Crowd τ) (before after : List (Caller τ)) (caller caller' : Caller τ) :
    Crowd τ :=
  { crowd with
    callers := before ++ caller' :: after
    admissions := crowd.admissions ++
      caller.bearing.standing.admission caller'.bearing.standing }

/-- The call with a number makes a request, and is given an answer. -/
inductive Hears (venue : Venue τ) (crowd : Crowd τ) (number : Nat) (r : (Premises τ).Request)
    (answer : (Premises τ).Answer r) : Crowd τ → Prop where
  | hears {before after : List (Caller τ)} {caller : Caller τ}
      {plan : Plan (Premises τ) τ (Except (Failure τ) Unit)} {crowd' : Crowd τ}
      (split : crowd.callers = before ++ caller :: after) (place : before.length = number)
      (asks : caller.plan.Asks r answer plan)
      (answers : Answers venue crowd caller r answer crowd') :
      Hears venue crowd number r answer (crowd'.resume before after caller
        { caller with
          bearing := caller.bearing.after venue.capacity r answer
          plan := plan })

/-- The steps of a crowd: a user makes a call, a call goes on by itself, a call is answered, or
something changes under other keys. -/
inductive Step (venue : Venue τ) (crowd : Crowd τ) : Crowd τ → Prop where
  | acquire {number : Nat} {user : User τ} (limit : Option τ)
      (here : crowd.users[number]? = some user) :
      Step venue crowd
        { crowd with
          callers := crowd.callers ++
            [⟨number, limit, ⟨.arriving, none⟩, onPremises (user.acquire limit)⟩] }
  | release {number : Nat} {user : User τ} (here : crowd.users[number]? = some user) :
      Step venue crowd
        { crowd with
          callers := crowd.callers ++
            [⟨number, none, ⟨.leaving, none⟩, onPremises user.release⟩] }
  | turn {before after : List (Caller τ)} {caller : Caller τ}
      {plan : Plan (Premises τ) τ (Except (Failure τ) Unit)}
      (split : crowd.callers = before ++ caller :: after)
      (turns : Plan.Turns False caller.plan plan) :
      Step venue crowd
        { crowd with callers := before ++ { caller with plan := plan } :: after }
  | hears {number : Nat} {r : (Premises τ).Request} {answer : (Premises τ).Answer r}
      {crowd' : Crowd τ} (hears : Hears venue crowd number r answer crowd') :
      Step venue crowd crowd'
  | elsewhere (keys : Keyspace τ)
      (list : keys.lists.get? venue.queueKey = crowd.keys.lists.get? venue.queueKey)
      (others : venue.queueKey ∈ keys.others ↔ venue.queueKey ∈ crowd.keys.others) :
      Step venue crowd { crowd with keys := keys }

abbrev Leads (venue : Venue τ) : Crowd τ → Crowd τ → Prop :=
  Relation.ReflTransGen (Step venue)

/-- Nothing was asked yet, and every user has a semaphore of the venue. -/
structure Opening (venue : Venue τ) (crowd : Crowd τ) : Prop where
  lists : crowd.keys.Lists venue.queueKey venue.initial
  fits : ∀ user ∈ crowd.users, user.semaphore.Fits venue.queueKey venue.capacity
  noSlots : ∀ user ∈ crowd.users, user.held = []
  noCallers : crowd.callers = []
  noEntries : crowd.entries = []
  noAdmissions : crowd.admissions = []

end Crowd
end Turnstile
