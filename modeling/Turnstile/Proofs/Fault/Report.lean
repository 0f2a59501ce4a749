import Turnstile.Proofs.Fault.Basic
import Turnstile.Proofs.Hall.Credit
import Turnstile.Proofs.Site.CleanUp

/-!
# How faults of the store are reported

A client can meet every command with an error of its own.  While nothing else goes wrong, an
operation of a semaphore ends with a result or with an error of the semaphore.  Such an error either
says something about the semaphore itself, or it reports an error of the client that the operation
has met, and names that as its cause.

Where a plan may be interrupted, which happens to a wait whose limit has passed, it can also end
with its interruption.

## Main definitions

* `Mishap` - what may be answered while the only faults are errors of the client.
* `Reports` - the error of the semaphore in which an error of the client is reported.
* `Explained` - a failure that is accounted for by what was heard.
* `Accounts` - an operation each of whose failures is accounted for.

## Main statements

* `explained_of_mishap` - a command that fails is accounted for by its failure.
* `accounts_bind`, `accounts_repeatFrom` and `accounts_closing` - how operations account for their
  failures part by part.
-/

namespace Turnstile

open Redis

variable {τ α β : Type} [Seconds τ]

/-!
## Mishaps
-/

/-- Whether a reply can be read: all items that were removed are texts. -/
def Redis.Command.Readable : (command : Command) → command.Reply → Prop
  | .lpop .., popped => ∀ item ∈ (popped : Option (List Item)).getD [], item.decode?.isSome = true
  | _, _ => True

/-- What an operation on the queue under `key` may be answered, which may be interrupted or not.
A command can be met with any error of the hierarchy of the client.  Beyond that, replies can be
read, an estimated sleep is not negative, and a sleep fails only if it is.  The clock shows only
some times, and the instance holds only slots of the queue. -/
inductive Mishap (key : String) (clock : τ → Prop) (cut : Prop) :
    (r : (Premises τ).Request) → (Premises τ).Answer r → Prop where
  | dials (endpoint : String) (client : Client) :
      Mishap key clock cut (.inl (.dial endpoint)) client
  | replies (client : Client) {command : Command} {reply : command.Reply}
      (readable : command.Readable reply) :
      Mishap key clock cut (.inl (.call client command)) (.ok reply)
  | fails (client : Client) (command : Command) {error : ClientError}
      (known : error.kind.family ≠ .outside) :
      Mishap key clock cut (.inl (.call client command)) (.error (.client error))
  | breaks (client : Client) (command : Command) (interrupted : cut) :
      Mishap key clock cut (.inl (.call client command)) (.error .interrupted)
  | hangsUp (client : Client) : Mishap key clock cut (.inl (.hangUp client)) ()
  | estimates (position capacity : Int) (base : τ) {duration : τ}
      (notNegative : ¬ Seconds.Negative duration) :
      Mishap key clock cut (.inr (.estimate position capacity base)) (.ok duration)
  /-- However long it is: that a platform cannot sleep for more than about 9.2e9 seconds is left
  out. -/
  | sleeps (duration : τ) : Mishap key clock cut (.inr (.sleep duration)) (.ok ())
  | refuses {duration : τ} (negative : Seconds.Negative duration) (e : Failure τ) :
      Mishap key clock cut (.inr (.sleep duration)) (.error e)
  | wakes (duration : τ) (interrupted : cut) :
      Mishap key clock cut (.inr (.sleep duration)) (.error .interrupted)
  | shows {time : τ} (shown : clock time) : Mishap key clock cut (.inr .now) time
  | records (mode : Mode) (entry : Entry τ) : Mishap key clock cut (.inr (.record mode entry)) ()
  | announces (position : Int) : Mishap key clock cut (.inr (.announce position)) (.ok ())
  | names {id : String} (named : id ≠ "") : Mishap key clock cut (.inr .freshId) id
  | holds (ticket : Ticket τ) : Mishap key clock cut (.inr (.hold ticket)) ()
  | takes {ticket? : Option (Ticket τ)} (ofQueue : ∀ ticket, ticket? = some ticket →
        ticket.queueKey = key) : Mishap key clock cut (.inr .takeOldest) ticket?

/-- Mishaps come at any time, and any time passes with them. -/
def Mishap.pace (key : String) (clock : τ → Prop) : Plan.Pace (Premises τ) τ :=
  fun cut _ r answer _ => Mishap key clock cut r answer

theorem Mishap.lasts_ask {key : String} {clock : τ → Prop} {cut : Prop}
    {began finish : τ} {heard : Heard τ} {r : (Premises τ).Request} {answer : (Premises τ).Answer r}
    {next : (Premises τ).Answer r → Plan (Premises τ) τ α} {a : α}
    (h : Mishap key clock cut r answer)
    (rest : (next answer).Lasts (Mishap.pace key clock) cut began heard finish a) :
    (Plan.ask r next).Lasts (Mishap.pace key clock) cut began (⟨r, answer⟩ :: heard) finish a :=
  .asks (show Mishap.pace key clock cut began r answer began from h) rest

def Measurable (clock : τ → Prop) : Prop :=
  ∀ started time, clock started → clock time → ∃ ms, Seconds.toMillis (time - started) = .ok ms

/-!
## Reports
-/

/-- An error that a semaphore makes by itself: it is used in the wrong way, a waiter stands too far
back, or a slot was not granted in time. -/
def SemaphoreError.Own : SemaphoreError τ → Prop
  | .general _ | .positionExceeded .. | .acquireTimeout .. => True
  | .storeConnection .. | .storeCommand .. | .legInterrupted _ => False

/-- The error of a semaphore in which an error of the client is reported with which a command met.
The store could not be reached, if the connection was lost or it took too long.  Any other error is
reported together with the command and the key of the queue. -/
inductive Reports (key : String) (command : Command) (error : ClientError) :
    SemaphoreError τ → Prop where
  | unreached (endpoint : String)
      (lost : error.kind.family = .connection ∨ error.kind.family = .timeout) :
      Reports key command error (.storeConnection endpoint error.message)
  | refused (refused : error.kind.family = .command) :
      Reports key command error (.storeCommand command.verb.name key error.message)

def fault (client : Client) (command : Command) (error : ClientError) :
    Plan.Exchange (Premises τ) :=
  ⟨.inl (.call client command), Except.error (.client error)⟩

/-- A failure of an operation on the queue under `key` that is accounted for by what was heard. -/
inductive Explained (key : String) (cut : Prop) (heard : Heard τ) : Failure τ → Prop where
  | own {error : SemaphoreError τ} (own : error.Own) : Explained key cut heard (.plain error)
  | reports {client : Client} {command : Command} {error : ClientError} {report : SemaphoreError τ}
      (met : fault client command error ∈ heard)
      (about : command.key? = none ∨ command.key? = some key)
      (reports : Reports key command error report) :
      Explained key cut heard (.semaphore report (some (.client error)))
  | interrupted (interrupted : cut) : Explained key cut heard .interrupted

namespace Explained

variable {key : String} {cut cut' : Prop} {heard heard' : Heard τ} {e : Failure τ}

theorem mono (h : Explained key cut heard e) (hheard : heard ⊆ heard') :
    Explained key cut heard' e := by
  cases h with
  | own own => exact .own own
  | reports met about reports => exact .reports (hheard met) about reports
  | interrupted interrupted => exact .interrupted interrupted

/-- Whatever does not end with its interruption might as well not have been interrupted. -/
theorem of_ne_interrupted (h : Explained key cut heard e) (he : e ≠ .interrupted) :
    Explained key cut' heard e := by
  cases h with
  | own own => exact .own own
  | reports met about reports => exact .reports met about reports
  | interrupted _ => exact absurd rfl he

theorem isA_semaphore (h : Explained key False heard e) : e.isA .semaphore = true := by
  cases h with
  | own _ => rfl
  | reports _ _ _ => rfl
  | interrupted interrupted => exact interrupted.elim

theorem ofLeg (h : Explained key False heard e) (leg : String) : e.ofLeg leg = e := by
  cases h with
  | own _ => rfl
  | reports _ _ _ => rfl
  | interrupted interrupted => exact interrupted.elim

end Explained

theorem explained_of_mishap {key : String} {clock : τ → Prop} {cut : Prop} {heard : Heard τ}
    {client : Client} {command : Command} {e : Failure τ} (label : String)
    (hmem : ⟨.inl (.call client command), Except.error e⟩ ∈ heard)
    (hmishap : Mishap key clock cut (.inl (.call client command)) (.error e))
    (habout : command.key? = none ∨ command.key? = some key) :
    Explained key cut heard (asStoreFailure label command.verb.name key e) := by
  cases hmishap with
  | breaks _ _ interrupted => exact .interrupted interrupted
  | @fails _ _ error known =>
      dsimp only [asStoreFailure]
      cases hfamily : error.kind.family with
      | connection => exact .reports hmem habout (.unreached label (Or.inl hfamily))
      | timeout => exact .reports hmem habout (.unreached label (Or.inr hfamily))
      | command => exact .reports hmem habout (.refused hfamily)
      | outside => exact absurd hfamily known

/-!
## Operations that account for their failures
-/

def Mishap.terms (key : String) (clock : τ → Prop) (cut : Prop) (heard : Heard τ) :
    Plan.Terms (Premises τ) Unit :=
  .tally (fun φ _ => φ) fun exchange =>
    exchange ∈ heard ∧ Mishap key clock cut exchange.1 exchange.2

section Accounts

variable {key : String} {clock : τ → Prop} {cut : Prop} {heard : Heard τ}

/-- An operation ends with a result of some kind, or with a failure that is accounted for. -/
abbrev Accounts (key : String) (clock : τ → Prop) (cut : Prop) (heard : Heard τ)
    (operation : Operation Queue τ α) (done : α → Prop) : Prop :=
  Action.Keeps serveOnPremises operation (Mishap.terms key clock cut heard) ()
    (fun _ => done) fun _ => Explained key cut heard

theorem accounts_pure {a : α} {done : α → Prop} (h : done a) :
    Accounts key clock cut heard (pure a) done :=
  Action.keeps_pure h

theorem accounts_throw {e : Failure τ} {done : α → Prop} (h : Explained key cut heard e) :
    Accounts key clock cut heard (throw e) done :=
  Action.keeps_throw h

theorem accounts_bind {action : Operation Queue τ α} {next : α → Operation Queue τ β}
    {first : α → Prop} {done : β → Prop} (h : Accounts key clock cut heard action first)
    (hnext : ∀ a, first a → Accounts key clock cut heard (next a) done) :
    Accounts key clock cut heard (action >>= next) done := by
  apply Action.keeps_bind
  exact h.mono (fun _ a ha => hnext a ha) fun _ _ he => he

theorem accounts_repeatFrom {σ : Type} {start : σ} {step : σ → Operation Queue τ (σ ⊕ α)}
    {done : α → Prop}
    (hstep : ∀ s, Accounts key clock cut heard (step s) (Sum.elim (fun _ => True) done)) :
    Accounts key clock cut heard (Action.repeatFrom start step) done :=
  Action.keeps_repeatFrom (fun _ _ => True) trivial fun _ s _ => hstep s

/-!
### Requests to a store
-/

theorem Mishap.meets_close {queue : Queue} {post : Unit → Unit → Prop} (h : post () ()) :
    ((Service.close queue).serve serveOnPremises).Meets (terms key clock cut heard) () post :=
  Turnstile.meets_close (fun _ _ => h) h

theorem accounts_closing {queue : Queue} {body : Operation Queue τ α} {done : α → Prop}
    (h : Accounts key clock cut heard body done) :
    Accounts key clock cut heard (Action.ensuring (Service.close queue) body) done := by
  apply Action.keeps_ensuring
  apply h.mono
  · exact fun _ _ ha => Mishap.meets_close ha
  · exact fun _ _ he => Mishap.meets_close he

theorem ends_of_mishap {client : Client} {command : Command} {label : String}
    {reply : Except (Failure τ) command.Reply} {done : command.Reply → Prop}
    (hreply : ⟨.inl (.call client command), reply⟩ ∈ heard ∧
      Mishap key clock cut (.inl (.call client command)) reply)
    (habout : command.key? = none ∨ command.key? = some key)
    (hdone : ∀ a, command.Readable a → done a) :
    Action.Ends (fun _ => done)
      (fun _ e => Explained key cut heard (asStoreFailure label command.verb.name key e)) ()
      reply := by
  cases reply with
  | ok a =>
      cases hreply.2 with
      | replies _ readable => exact hdone a readable
  | error e => exact explained_of_mishap label hreply.1 hreply.2 habout

theorem accounts_connect {endpoint : String} :
    Accounts key clock cut heard (Service.connect endpoint key) fun queue => queue.key = key := by
  apply keeps_connect
  intro client _ reply hreply
  cases reply with
  | ok _ => exact rfl
  | error e =>
      have he := explained_of_mishap endpoint hreply.1 hreply.2 (Or.inl rfl)
      exact ⟨fun _ _ => he, he⟩

section Commands

variable {queue : Queue}

theorem accounts_push {id : String} (hqueue : queue.key = key) :
    Accounts key clock cut heard (Service.push queue id) fun _ => True := by
  subst hqueue
  apply keeps_push
  exact fun reply hreply => ends_of_mishap hreply (Or.inr rfl) fun _ _ => trivial

theorem accounts_position {id : String} (hqueue : queue.key = key) :
    Accounts key clock cut heard (Service.position queue id) fun _ => True := by
  subst hqueue
  apply keeps_position
  exact fun reply hreply => ends_of_mishap hreply (Or.inr rfl) fun _ _ => trivial

omit [Seconds τ] in
theorem exists_decodeItems {items : List Item}
    (h : ∀ item ∈ items, item.decode?.isSome = true) :
    ∃ ids, (Queue.decodeItems items : Except (Failure τ) (List String)) = .ok ids := by
  induction items with
  | nil => exact ⟨[], rfl⟩
  | cons item rest ih =>
      rcases Option.isSome_iff_exists.mp (h item List.mem_cons_self) with ⟨s, hs⟩
      rcases ih fun item hmem => h item (List.mem_cons_of_mem _ hmem) with ⟨ids, hids⟩
      exists s :: ids
      simp only [Queue.decodeItems, hs, hids]
      rfl

theorem accounts_pop {count : Int} (hqueue : queue.key = key) :
    Accounts key clock cut heard (Service.pop queue count) fun _ => True := by
  subst hqueue
  apply keeps_pop_decoding
  refine fun reply hreply => ends_of_mishap hreply (Or.inr rfl) ?_
  intro popped hreadable
  rcases exists_decodeItems hreadable with ⟨ids, hids⟩
  rw [hids]
  exact trivial

theorem accounts_expire {seconds : Int} (hqueue : queue.key = key) :
    Accounts key clock cut heard (Service.expire queue seconds) fun _ => True := by
  subst hqueue
  apply keeps_expire
  exact fun reply hreply => ends_of_mishap hreply (Or.inr rfl) fun _ _ => trivial

theorem accounts_length (hqueue : queue.key = key) :
    Accounts key clock cut heard (Service.length queue) fun _ => True := by
  subst hqueue
  apply meets_store
  apply keeps_call
  exact fun reply hreply => ends_of_mishap hreply (Or.inr rfl) fun _ _ => trivial

end Commands

/-!
### Requests to the surroundings
-/

theorem accounts_estimate {position capacity : Int} {base : τ} :
    Accounts key clock cut heard (Service.estimate position capacity base)
      fun duration => ¬ Seconds.Negative duration := by
  apply meets_ambient
  intro reply hreply
  cases hreply.2 with
  | estimates _ _ _ notNegative => exact notNegative

theorem accounts_sleep {duration : τ} (hduration : ¬ Seconds.Negative duration) :
    Accounts key clock cut heard (Service.sleep duration) fun _ => True := by
  apply meets_ambient
  intro reply hreply
  cases hreply.2 with
  | sleeps _ => exact trivial
  | refuses negative _ => exact absurd negative hduration
  | wakes _ interrupted => exact .interrupted interrupted

theorem accounts_announce {position : Int} :
    Accounts key clock cut heard (Service.announce position) fun _ => True := by
  apply meets_ambient
  intro reply hreply
  cases hreply.2 with
  | announces _ => exact trivial

theorem accounts_now : Accounts key clock cut heard Service.now clock := by
  apply Action.keeps_lift
  apply meets_ambient
  intro time htime
  cases htime.2 with
  | shows shown => exact shown

theorem accounts_record {mode : Mode} {entry : Entry τ} :
    Accounts key clock cut heard (Service.record mode entry) fun _ => True :=
  Action.keeps_lift (meets_ambient fun _ _ => trivial)

theorem accounts_hold {ticket : Ticket τ} :
    Accounts key clock cut heard (Service.hold ticket) fun _ => True :=
  Action.keeps_lift (meets_ambient fun _ _ => trivial)

theorem accounts_takeOldest :
    Accounts key clock cut heard Service.takeOldest fun ticket? =>
      ∀ ticket, ticket? = some ticket → ticket.queueKey = key := by
  apply Action.keeps_lift
  apply meets_ambient
  intro ticket? hticket
  cases hticket.2 with
  | takes ofQueue => exact ofQueue

theorem accounts_elapsedSince {started : τ} (hclock : Measurable clock) (hstarted : clock started) :
    Accounts key clock cut heard (Service.elapsedSince started) fun _ => True := by
  apply accounts_bind accounts_now
  intro time htime
  rcases hclock started time hstarted htime with ⟨ms, hms⟩
  simp only [hms]
  exact accounts_pure trivial

theorem accounts_newTicket {semaphore : Semaphore τ} :
    Accounts key clock cut heard semaphore.newTicket fun ticket =>
      ticket.queueKey = semaphore.queueKey := by
  apply Action.keeps_bind
  apply Action.keeps_lift
  apply meets_ambient
  intro id hid
  cases hid.2 with
  | names named =>
      rcases semaphore.exists_issue named with ⟨ticket, hticket⟩
      simp only [hticket]
      exact accounts_pure (congrArg TicketForm.queueKey (TicketForm.toTicketForm_of_issue hticket))

end Accounts
end Turnstile
