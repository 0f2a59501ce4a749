import Mathlib.Algebra.GroupWithZero.Nat
import Turnstile.Proofs.Hall.Conduct
import Turnstile.Proofs.Redis.Dispatch

/-!
# Halls

A hall is any number of instances of semaphores, with one server among them, and all the uses that
were made of them so far.  Instances may have different keys, and may be used several times at
once.  Uses go on in any order, one request at a time.

What the requests are answered is up to a regime.  A command is executed by the server, or fails as
the regime allows, and then it may have taken effect or not.  A use that is interrupted gets this
as the failure of the request it waits for, which ends in the same way for a leg or a body that is
interrupted before it begins: at most its server was asked whether it can be reached.  Hanging up
takes no time, so that a body that was interrupted has ended when its plan goes on.

## Main definitions

* `Hall.Answers` - what a request may be answered.
* `Hall.Step` - the steps of a hall.

## Main statements

* `Hall.Conducted.leads` - every use keeps to the terms of credit, in every run.
-/

namespace Turnstile

open Redis

variable {τ : Type} [Seconds τ]

/-- A use of the instance that is told by its number: the commands it has sent so far, and what it
still has to do. -/
structure Errand (τ : Type) [Seconds τ] where
  user : Nat
  credit : Credit
  sent : List (Dispatch τ)
  plan : Plan (Premises τ) τ (Except (Failure τ) Unit)

def Errand.resume (errand : Errand τ) (r : (Premises τ).Request) (answer : (Premises τ).Answer r)
    (sent : List (Dispatch τ)) (plan : Plan (Premises τ) τ (Except (Failure τ) Unit)) :
    Errand τ where
  user := errand.user
  credit := errand.credit.after r answer
  sent := errand.sent ++ sent
  plan := plan

/-- The instances around a server and their uses, in the order in which the uses began. -/
structure Hall (τ : Type) [Seconds τ] where
  keys : Keyspace τ
  users : List (User τ)
  errands : List (Errand τ)

/-- What an instance is made of, whatever slots it holds. -/
def User.outfit (user : User τ) : Mode × Semaphore τ :=
  (user.mode, user.semaphore)

namespace Hall

def queueKey? (hall : Hall τ) (number : Nat) : Option String :=
  hall.users[number]?.map fun user => user.semaphore.queueKey

def heldBy (hall : Hall τ) (number : Nat) : Nat :=
  (hall.users[number]?.map fun user => user.held.length).getD 0

def held (hall : Hall τ) : Nat :=
  (hall.users.map fun user => user.held.length).sum

def called (hall : Hall τ) (number : Nat) (user : User τ) (use : Use τ) : Hall τ :=
  { hall with
    errands := hall.errands ++ [⟨number, .blank, [], onPremises (use.operation user)⟩] }

/-!
## Answers
-/

/-- What a request of the instance with a number may be answered, which commands are sent by it,
and what becomes of the hall. -/
inductive Answers (regime : Regime τ) (hall : Hall τ) (number : Nat) :
    (r : (Premises τ).Request) → (Premises τ).Answer r → List (Dispatch τ) → Hall τ → Prop where
  | dial (endpoint : String) (client : Client) :
      Answers regime hall number (.inl (.dial endpoint)) client [] hall
  | hangUp (client : Client) : Answers regime hall number (.inl (.hangUp client)) () [] hall
  | call (client : Client) {command : Command} {took : Bool}
      {reply : Except (Failure τ) command.Reply} {keys : Keyspace τ}
      (executed : Keyspace.Executed (regime.faults command) hall.keys command took reply keys) :
      Answers regime hall number (.inl (.call client command)) reply [⟨command, took, reply⟩]
        { hall with keys := keys }
  | estimate (position capacity : Int) (base : τ) {reply : Except (Failure τ) τ}
      (allowed : regime.estimates reply) :
      Answers regime hall number (.inr (.estimate position capacity base)) reply [] hall
  | sleep {duration : τ} {reply : Except (Failure τ) Unit}
      (allowed : regime.sleeps duration reply) :
      Answers regime hall number (.inr (.sleep duration)) reply [] hall
  | now {time : τ} (allowed : regime.clock time) :
      Answers regime hall number (.inr .now) time [] hall
  | record (mode : Mode) (entry : Entry τ) :
      Answers regime hall number (.inr (.record mode entry)) () [] hall
  | freshId (id : String) : Answers regime hall number (.inr .freshId) id [] hall
  | hold (ticket : Ticket τ) {before after : List (User τ)} {user : User τ}
      (split : hall.users = before ++ user :: after) (place : before.length = number) :
      Answers regime hall number (.inr (.hold ticket)) () []
        { hall with users := before ++ { user with held := user.held ++ [ticket] } :: after }
  | takeOldest {before after : List (User τ)} {user : User τ} {ticket : Ticket τ}
      {rest : List (Ticket τ)} (split : hall.users = before ++ user :: after)
      (place : before.length = number) (oldest : user.held = ticket :: rest) :
      Answers regime hall number (.inr .takeOldest) (some ticket) []
        { hall with users := before ++ { user with held := rest } :: after }
  | noneHeld {before after : List (User τ)} {user : User τ}
      (split : hall.users = before ++ user :: after) (place : before.length = number)
      (empty : user.held = []) :
      Answers regime hall number (.inr .takeOldest) none [] hall

/-!
## Steps
-/

/-- The steps of a hall: an instance is used, a use goes on by itself, a use is answered, or
something changes by no doing of theirs. -/
inductive Step (regime : Regime τ) (hall : Hall τ) : Hall τ → Prop where
  | call {number : Nat} {user : User τ} (use : Use τ) (here : hall.users[number]? = some user) :
      Step regime hall
        { hall with
          errands := hall.errands ++ [⟨number, .blank, [], onPremises (use.operation user)⟩] }
  | turn {before after : List (Errand τ)} {errand : Errand τ}
      {plan : Plan (Premises τ) τ (Except (Failure τ) Unit)}
      (split : hall.errands = before ++ errand :: after)
      (turns : Plan.Turns True errand.plan plan) :
      Step regime hall { hall with errands := before ++ { errand with plan := plan } :: after }
  | hears {before after : List (Errand τ)} {errand : Errand τ} {r : (Premises τ).Request}
      {answer : (Premises τ).Answer r} {sent : List (Dispatch τ)}
      {plan : Plan (Premises τ) τ (Except (Failure τ) Unit)} {hall' : Hall τ}
      (split : hall.errands = before ++ errand :: after)
      (asks : errand.plan.Asks r answer plan)
      (answers : Answers regime hall errand.user r answer sent hall') :
      Step regime hall
        { hall' with errands := before ++ errand.resume r answer sent plan :: after }
  | elsewhere (keys : Keyspace τ) (allowed : regime.elsewhere hall.keys keys) :
      Step regime hall { hall with keys := keys }

abbrev Leads (regime : Regime τ) : Hall τ → Hall τ → Prop :=
  Relation.ReflTransGen (Step regime)

structure Opening (hall : Hall τ) : Prop where
  noSlots : ∀ user ∈ hall.users, user.held = []
  noErrands : hall.errands = []

/-!
## Conduct
-/

variable {regime : Regime τ} {hall hall' : Hall τ} {number : Nat} {r : (Premises τ).Request}
  {answer : (Premises τ).Answer r} {sent : List (Dispatch τ)}

theorem Answers.outfits (h : Answers regime hall number r answer sent hall') :
    hall'.users.map User.outfit = hall.users.map User.outfit := by
  cases h with
  | hold ticket split place =>
      rw [split]
      simp [User.outfit]
  | takeOldest split place oldest =>
      rw [split]
      simp [User.outfit]
  | _ => rfl

theorem Answers.users_of_ne {other : Nat} (h : Answers regime hall other r answer sent hall')
    (hne : number ≠ other) : hall'.users[number]? = hall.users[number]? := by
  cases h with
  | hold ticket split place =>
      rw [split, getElem?_replaced fun heq => hne (heq.symm.trans place)]
  | takeOldest split place oldest =>
      rw [split, getElem?_replaced fun heq => hne (heq.symm.trans place)]
  | _ => rfl

theorem Step.outfits (h : Step regime hall hall') :
    hall'.users.map User.outfit = hall.users.map User.outfit := by
  cases h with
  | hears split asks answers => exact answers.outfits
  | _ => rfl

theorem queueKey?_eq (hall : Hall τ) (number : Nat) :
    hall.queueKey? number =
      (hall.users.map User.outfit)[number]?.map fun outfit => outfit.2.queueKey := by
  unfold queueKey?
  rw [List.getElem?_map, Option.map_map]
  rfl

theorem queueKey?_of_outfits (h : hall'.users.map User.outfit = hall.users.map User.outfit) :
    hall'.queueKey? = hall.queueKey? := by
  funext number
  rw [queueKey?_eq, queueKey?_eq, h]

theorem forall_of_outfits {p : Mode × Semaphore τ → Prop}
    (h : hall'.users.map User.outfit = hall.users.map User.outfit)
    (hp : ∀ user ∈ hall.users, p user.outfit) : ∀ user ∈ hall'.users, p user.outfit := by
  intro user huser
  have hmem : user.outfit ∈ hall.users.map User.outfit := by
    rw [← h]
    exact List.mem_map_of_mem huser
  rcases List.mem_map.mp hmem with ⟨other, hother, heq⟩
  rw [← heq]
  exact hp other hother

/-- Every use keeps to the terms of credit, and every slot that is held has come from the queue of
its instance.  Under a fair regime there are no cooperative instances. -/
structure Conducted (regime : Regime τ) (hall : Hall τ) : Prop where
  meets : ∀ errand ∈ hall.errands, ∃ key, hall.queueKey? errand.user = some key ∧
    errand.plan.Meets (Credit.terms key regime) errand.credit fun φ _ => φ.Settled regime
  tickets : ∀ user ∈ hall.users, ∀ ticket ∈ user.held,
    ticket.queueKey = user.semaphore.queueKey
  modes : regime.Fair → ∀ user ∈ hall.users, user.mode = .blocking

/-- Under a fair regime no instance finds something other than a list under its key. -/
def Clear (regime : Regime τ) (hall : Hall τ) : Prop :=
  regime.Fair → ∀ user ∈ hall.users, user.semaphore.queueKey ∉ hall.keys.others

theorem getElem?_of_split {before after : List (User τ)} {user : User τ}
    (split : hall.users = before ++ user :: after) (place : before.length = number) :
    hall.users[number]? = some user := by
  rw [split, ← place]
  simp

theorem mem_of_queueKey? {key : String} (h : hall.queueKey? number = some key) :
    ∃ user ∈ hall.users, user.semaphore.queueKey = key := by
  rcases Option.map_eq_some_iff.mp h with ⟨user, huser, hkey⟩
  exact ⟨user, List.mem_of_getElem? huser, hkey⟩

theorem Answers.expects {key : String} {φ : Credit}
    (h : Answers regime hall number r answer sent hall') (hconducted : hall.Conducted regime)
    (hclear : hall.Clear regime)
    (hkey : hall.queueKey? number = some key) (hallows : φ.allows key r) :
    Credit.expects key regime r answer := by
  cases h with
  | dial endpoint client => trivial
  | hangUp client => trivial
  | @call client command took reply keys executed =>
      intro e he
      constructor
      · rcases executed.of_error he with hordinary | hfault
        · exact hordinary.isRefusal
        · exact regime.noRefusal command e hfault
      · intro hvital hfair
        rcases executed.of_faultless fun h => h.elim (hfair.faultless command) with
          ⟨decodes, time, hreply⟩
        rw [he] at hreply
        cases command with
        | ping => cases hreply
        | lpos key' id =>
            rcases mem_of_queueKey? hkey with ⟨user, huser, rfl⟩
            have hkey' : key' = user.semaphore.queueKey := hallows
            have hfree := hclear hfair user huser
            rw [← hkey'] at hfree
            have hlists : hall.keys.Lists key' (hall.keys.items key') := ⟨hfree, rfl⟩
            have hok : (hall.keys.lpos key' id).reply = .ok _ := hlists.lpos_reply id
            replace hreply : Except.error e = (hall.keys.lpos key' id).reply := hreply
            rw [hok] at hreply
            cases hreply
        | _ => exact hvital
  | estimate position capacity base allowed => exact allowed
  | sleep allowed => exact allowed
  | now allowed => exact allowed
  | record mode entry => trivial
  | freshId id => trivial
  | hold ticket split place => trivial
  | @takeOldest before after user ticket rest split place oldest =>
      intro ticket' heq
      cases heq
      have huser := getElem?_of_split split place
      unfold queueKey? at hkey
      rw [huser] at hkey
      cases hkey
      refine hconducted.tickets user (List.mem_of_getElem? huser) ticket ?_
      rw [oldest]
      exact List.mem_cons_self
  | noneHeld split place empty =>
      intro ticket heq
      cases heq

theorem Answers.tickets {key : String} {φ : Credit}
    (h : Answers regime hall number r answer sent hall') (hconducted : hall.Conducted regime)
    (hkey : hall.queueKey? number = some key) (hallows : φ.allows key r) :
    ∀ user ∈ hall'.users, ∀ ticket ∈ user.held, ticket.queueKey = user.semaphore.queueKey := by
  cases h with
  | @hold ticket before after user split place =>
      refine forall_mem_replace split hconducted.tickets ?_
      intro other hother
      rcases List.mem_append.mp hother with hheld | hnew
      · exact hconducted.tickets user (mem_of_split split) other hheld
      · unfold queueKey? at hkey
        rw [getElem?_of_split split place] at hkey
        cases hkey
        rw [List.mem_singleton.mp hnew]
        exact hallows.1
  | @takeOldest before after user ticket rest split place oldest =>
      refine forall_mem_replace split hconducted.tickets ?_
      intro other hother
      refine hconducted.tickets user (mem_of_split split) other ?_
      rw [oldest]
      exact List.mem_cons_of_mem _ hother
  | _ => exact hconducted.tickets

theorem Opening.conducted (h : hall.Opening)
    (hmodes : regime.Fair → ∀ user ∈ hall.users, user.mode = .blocking) :
    hall.Conducted regime where
  meets errand herrand := by
    rw [h.noErrands] at herrand
    cases herrand
  tickets user huser ticket hticket := by
    rw [h.noSlots user huser] at hticket
    cases hticket
  modes := hmodes

/-- A use of a hall that keeps to the terms of credit asks for what its credit allows, and whatever
it is answered, it still keeps to them. -/
theorem Conducted.asks (h : hall.Conducted regime) (hclear : hall.Clear regime)
    {errand : Errand τ} (herrand : errand ∈ hall.errands)
    {plan : Plan (Premises τ) τ (Except (Failure τ) Unit)} (hasks : errand.plan.Asks r answer plan)
    (hanswers : Answers regime hall errand.user r answer sent hall') :
    ∃ key, hall.queueKey? errand.user = some key ∧ errand.credit.allows key r ∧
      plan.Meets (Credit.terms key regime) (errand.credit.after r answer) fun φ _ =>
        φ.Settled regime := by
  rcases h.meets errand herrand with ⟨key, hkey, hmeets⟩
  rcases hmeets.asks hasks with ⟨hallows, hnext⟩
  exact ⟨key, hkey, hallows, hnext answer (hanswers.expects h hclear hkey hallows) rfl⟩

theorem Conducted.step (h : hall.Conducted regime) (hclear : hall.Clear regime)
    (hstep : Step regime hall hall') : hall'.Conducted regime := by
  have hkeys := queueKey?_of_outfits hstep.outfits
  have hmodes : regime.Fair → ∀ user ∈ hall'.users, user.mode = .blocking := fun hfair =>
    forall_of_outfits (p := fun outfit => outfit.1 = .blocking) hstep.outfits (h.modes hfair)
  have hmeets := h.meets
  rw [← hkeys] at hmeets
  cases hstep with
  | @call number user use here =>
      refine ⟨?_, h.tickets, hmodes⟩
      intro errand herrand
      rcases List.mem_append.mp herrand with hold | hnew
      · exact h.meets errand hold
      · rw [List.mem_singleton.mp hnew]
        refine ⟨user.semaphore.queueKey, ?_, ?_⟩
        · unfold queueKey?
          rw [here]
          rfl
        · refine Plan.Meets.mono
            (Use.on_credit fun hfair => h.modes hfair user (List.mem_of_getElem? here)) ?_
          intro φ ended hended
          cases ended with
          | ok _ => exact hended
          | error e => exact hended
  | @turn before after errand plan split turns =>
      refine ⟨forall_mem_replace split hmeets ?_, h.tickets, hmodes⟩
      rcases h.meets errand (mem_of_split split) with ⟨key, hkey, hplan⟩
      exact ⟨key, hkey, hplan.turns turns⟩
  | @hears before after errand r answer sent plan hall'' split asks answers =>
      rcases h.asks hclear (mem_of_split split) asks answers with ⟨key, hkey, hallows, hplan⟩
      refine ⟨forall_mem_replace split hmeets ?_, answers.tickets h hkey hallows, hmodes⟩
      refine ⟨key, ?_, hplan⟩
      rw [hkeys]
      exact hkey
  | elsewhere keys allowed => exact ⟨h.meets, h.tickets, hmodes⟩

theorem Conducted.leads (h : hall.Conducted regime) (hunfair : ¬ regime.Fair)
    (hleads : Leads regime hall hall') : hall'.Conducted regime := by
  induction hleads with
  | refl => exact h
  | tail _ hstep ih => exact ih.step (fun hfair => absurd hfair hunfair) hstep

/-!
## One queue
-/

def Gathered (key : String) (hall : Hall τ) : Prop :=
  ∀ user ∈ hall.users, user.semaphore.queueKey = key

theorem Gathered.step {key : String} (h : hall.Gathered key) (hstep : Step regime hall hall') :
    hall'.Gathered key :=
  forall_of_outfits (p := fun outfit => outfit.2.queueKey = key) hstep.outfits h

theorem Gathered.queueKey?_eq {key key' : String} (h : hall.Gathered key)
    (hkey : hall.queueKey? number = some key') : key' = key := by
  rcases mem_of_queueKey? hkey with ⟨user, huser, rfl⟩
  exact h user huser

theorem Gathered.clear {key : String} {line : List ByteArray} (h : hall.Gathered key)
    (hlists : hall.keys.Lists key line) : hall.Clear regime := by
  intro _ user huser
  rw [h user huser]
  exact hlists.isList

end Hall
end Turnstile
