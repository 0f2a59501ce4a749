import Mathlib.Logic.Relation
import Turnstile.Number.Binary
import Turnstile.Proofs.Plan.Exchange
import Turnstile.Proofs.Premises
import Turnstile.Proofs.Redis.Disturbance
import Turnstile.Proofs.Redis.Execution

/-!
# Waits among others

A wait for a slot uses a server that others use as well.  They can append to its queue, remove from
it and delete it, and keys go when their deadline has come.  Nobody else enters the queue under the
identity of the waiter.

A schedule says what happens next, again and again.  Where nothing fails and the clock stands still
it is all that is needed to compute how a wait goes on.

## Main definitions

* `Vigil` - a wait, the server that it uses, and all that it was answered.
* `Vigil.Step` - the wait goes on, or others change the keys.

## Main statements

* `Vigil.drive_leads` - a schedule that can be followed gives a run.
-/

namespace Turnstile

open Redis

variable {τ : Type} [Seconds τ]

/-- A wait for a slot in one of two ways.  A blocking wait may have a limit of time, and a
cooperative one may be watched. -/
inductive Wait (τ : Type) where
  | blocking (limit : Option τ)
  | cooperative (watched : Bool)

def Wait.plan (ticket : Ticket τ) : Wait τ → Plan (Premises τ) τ (Except (Failure τ) Unit)
  | .blocking limit => onPremises (Blocking.wait ticket limit)
  | .cooperative watched => onPremises (Cooperative.wait ticket watched)

/-- A server, a wait that uses it, and all that the wait was answered so far. -/
structure Vigil (τ : Type) [Seconds τ] where
  keys : Keyspace τ
  heard : List (Plan.Exchange (Premises τ))
  plan : Plan (Premises τ) τ (Except (Failure τ) Unit)

namespace Vigil

def position? : Plan.Exchange (Premises τ) → Option Int
  | ⟨.inl (.call _ (.rpush ..)), .ok (length : Nat)⟩ => some (length - 1)
  | ⟨.inl (.call _ (.lpos ..)), .ok rank⟩ => some (positionOfRank rank)
  | _ => none

def positions (vigil : Vigil τ) : List Int :=
  vigil.heard.filterMap position?

/-- What the requests of the waiter may be answered, and what becomes of the server. -/
inductive Answers (faults : Failure τ → Prop) (keys : Keyspace τ) :
    (r : (Premises τ).Request) → (Premises τ).Answer r → Keyspace τ → Prop where
  | dial (endpoint : String) (client : Client) :
      Answers faults keys (.inl (.dial endpoint)) client keys
  | hangUp (client : Client) : Answers faults keys (.inl (.hangUp client)) () keys
  | call (client : Client) {command : Command} {took : Bool}
      {reply : Except (Failure τ) command.Reply} {keys' : Keyspace τ}
      (executed : Keyspace.Executed faults keys command took reply keys') :
      Answers faults keys (.inl (.call client command)) reply keys'
  | estimate (position capacity : Int) (base : τ) {reply : Except (Failure τ) τ}
      (allowed : ∀ e, reply = .error e → faults e) :
      Answers faults keys (.inr (.estimate position capacity base)) reply keys
  | sleep (duration : τ) {reply : Except (Failure τ) Unit}
      (allowed : ∀ e, reply = .error e → faults e) :
      Answers faults keys (.inr (.sleep duration)) reply keys
  | announce (position : Int) {reply : Except (Failure τ) Unit}
      (allowed : ∀ e, reply = .error e → faults e) :
      Answers faults keys (.inr (.announce position)) reply keys
  | now (time : τ) : Answers faults keys (.inr .now) time keys
  | record (mode : Mode) (entry : Entry τ) :
      Answers faults keys (.inr (.record mode entry)) () keys

/-- The wait goes on by itself, or it is answered, or others change the keys. -/
inductive Step (faults : Failure τ → Prop) (ticket : Ticket τ) (vigil : Vigil τ) :
    Vigil τ → Prop where
  | turn {plan : Plan (Premises τ) τ (Except (Failure τ) Unit)}
      (turns : Plan.Turns True vigil.plan plan) :
      Step faults ticket vigil { vigil with plan := plan }
  | hears {r : (Premises τ).Request} {answer : (Premises τ).Answer r} {keys : Keyspace τ}
      {plan : Plan (Premises τ) τ (Except (Failure τ) Unit)}
      (asks : vigil.plan.Asks r answer plan) (answers : Answers faults vigil.keys r answer keys) :
      Step faults ticket vigil ⟨keys, vigil.heard ++ [⟨r, answer⟩], plan⟩
  | others {keys : Keyspace τ}
      (disturbed : vigil.keys.Disturbed ticket.queueKey ticket.id keys) :
      Step faults ticket vigil { vigil with keys := keys }

abbrev Leads (faults : Failure τ → Prop) (ticket : Ticket τ) : Vigil τ → Vigil τ → Prop :=
  Relation.ReflTransGen (Step faults ticket)

def opening (ticket : Ticket τ) (wait : Wait τ) (keys : Keyspace τ) : Vigil τ :=
  ⟨keys, [], wait.plan ticket⟩

/-!
## Schedules
-/

inductive Turn (τ : Type) where
  | go
  | sent (command : Command)
  | passed (time : τ)

def answer? (keys : Keyspace τ) :
    (r : (Premises τ).Request) → Option ((Premises τ).Answer r × Keyspace τ)
  | .inl (.dial endpoint) => some (⟨0, endpoint, {}⟩, keys)
  | .inl (.hangUp _) => some ((), keys)
  | .inl (.call _ command) =>
      some ((keys.run false 0 command).1.reply, (keys.run false 0 command).2)
  | .inr (.estimate _ _ base) => some (.ok base, keys)
  | .inr (.sleep _) => some (.ok (), keys)
  | .inr .now => some ((0 : τ), keys)
  | .inr (.record ..) => some ((), keys)
  | .inr (.announce _) => some (.ok (), keys)
  | _ => none

def next? (ticket : Ticket τ) (vigil : Vigil τ) : Turn τ → Option (Vigil τ)
  | .go =>
      match vigil.plan with
      | .ask r next =>
          match answer? vigil.keys r with
          | none => none
          | some (answer, keys) => some ⟨keys, vigil.heard ++ [⟨r, answer⟩], next answer⟩
      | plan =>
          match plan.turn? with
          | none => none
          | some plan' => some { vigil with plan := plan' }
  | .sent command =>
      if command = .rpush ticket.queueKey ticket.id then none
      else some { vigil with keys := (vigil.keys.run false 0 command).2 }
  | .passed time => some { vigil with keys := vigil.keys.purge time }

def drive (ticket : Ticket τ) (vigil : Vigil τ) : List (Turn τ) → Option (Vigil τ)
  | [] => some vigil
  | turn :: rest =>
      match next? ticket vigil turn with
      | none => none
      | some vigil' => drive ticket vigil' rest

variable {faults : Failure τ → Prop} {ticket : Ticket τ} {keys keys' : Keyspace τ}
  {vigil vigil' : Vigil τ}

theorem answers_of_answer? {r : (Premises τ).Request} {answer : (Premises τ).Answer r}
    (h : answer? keys r = some (answer, keys')) : Answers faults keys r answer keys' := by
  rcases r with (endpoint | ⟨client, command⟩ | client) | r
  · cases h
    exact .dial endpoint _
  · cases h
    exact .call client (.answered false 0)
  · cases h
    exact .hangUp client
  · cases r with
    | estimate position capacity base =>
        cases h
        apply Answers.estimate
        intro e he
        cases he
    | sleep duration =>
        cases h
        apply Answers.sleep
        intro e he
        cases he
    | now =>
        cases h
        exact .now 0
    | record mode entry =>
        cases h
        exact .record mode entry
    | announce position =>
        cases h
        apply Answers.announce
        intro e he
        cases he
    | _ => cases h

theorem step_of_next? {turn : Turn τ} (h : next? ticket vigil turn = some vigil') :
    Step faults ticket vigil vigil' := by
  cases turn with
  | go =>
      unfold next? at h
      dsimp only at h
      split at h
      · rename_i r next hplan
        split at h
        · cases h
        · rename_i answer keys hanswer
          cases h
          apply Step.hears _ (answers_of_answer? hanswer)
          rw [hplan]
          exact .ask r next answer
      · split at h
        · cases h
        · rename_i plan' hturn
          cases h
          exact .turn (Plan.turns_of_turn? hturn)
  | sent command =>
      unfold next? at h
      dsimp only at h
      split at h
      · cases h
      · rename_i hcommand
        cases h
        exact .others (.command false 0 hcommand)
  | passed time =>
      cases h
      exact .others (.lapsed time)

theorem drive_leads {schedule : List (Turn τ)} (h : drive ticket vigil schedule = some vigil') :
    Leads faults ticket vigil vigil' := by
  induction schedule generalizing vigil with
  | nil =>
      cases h
      exact .refl
  | cons turn rest ih =>
      unfold drive at h
      split at h
      · cases h
      · rename_i vigil₁ hnext
        exact .head (step_of_next? hnext) (ih h)

/-!
## A queue that is deleted
-/

/-- A gate with one slot, in whose queue two have entered. -/
def busyGate : Keyspace Float where
  lists := [("semaphore:gate:queue", ["1".toUTF8, "2".toUTF8])]
  deadlines := [("semaphore:gate:queue", 30)]

/-- A ticket for the gate, for somebody who waits at position two or does not. -/
def lateTicket : Ticket Float where
  queueKey := "semaphore:gate:queue"
  id := "3"
  maxPosition := 2
  baseSleep := 0.1
  sound := by decide +kernel

def hastyTicket : Ticket Float where
  queueKey := "semaphore:gate:queue"
  id := "3"
  maxPosition := 1
  baseSleep := 0.1
  sound := by decide +kernel

def goOn (turns : Nat) : List (Turn Float) :=
  List.replicate turns .go

end Vigil
end Turnstile
