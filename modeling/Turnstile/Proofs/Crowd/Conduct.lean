import Turnstile.Proofs.CleanUp
import Turnstile.Proofs.Crowd.Standing

/-!
# The conduct of callers

Every operation of a semaphore keeps to the terms of its call, as long as no failure refuses it
and its limit of time does not pass while it waits.  A request for a slot then ends with a slot
that is held, or with an identity that neither waits nor was admitted.

## Main statements

* `Blocking.acquire_keeps` and `Cooperative.acquire_keeps` - requests for a slot.
* `Blocking.release_keeps` and `Cooperative.release_keeps` - slots that are given back.
-/

namespace Turnstile

open Redis

variable {τ : Type} [Seconds τ] {key : String} {capacity : Int} {limit : Option τ}

structure Ticket.Fits (ticket : Ticket τ) (key : String) (capacity : Int) : Prop where
  queueKey : ticket.queueKey = key
  capacity : ticket.capacity = capacity
  maxPosition : ticket.maxPosition = 0

structure Semaphore.Fits (semaphore : Semaphore τ) (key : String) (capacity : Int) : Prop where
  queueKey : semaphore.queueKey = key
  capacity : semaphore.capacity = capacity
  maxPosition : semaphore.maxPosition = 0

/-- A call that has no slot and waits for none. -/
def Standing.Fallen (standing : Standing) : Prop :=
  ∃ id, standing = .named id ∨ standing = .failed id

/-- A call whose slot was taken from those held. -/
def Standing.Returned (standing : Standing) : Prop :=
  standing = .returning ∨ standing = .gone

def Bearing.Ended : Bearing τ → Except (Failure τ) Unit → Prop :=
  Action.Ends (fun φ _ => (∃ id, φ.standing = .settled id) ∨ φ.standing.Returned) fun φ _ =>
    φ.standing.Fallen ∨ φ.standing = .emptyHanded ∨ φ.standing.Returned

theorem Ticket.Fits.verdict {ticket : Ticket τ} (hfits : ticket.Fits key capacity)
    (position : Int) :
    ticket.verdict position = if position < capacity then .admitted else .waiting := by
  unfold TicketForm.verdict
  rw [hfits.capacity, hfits.maxPosition]
  simp

theorem Bearing.keeps_elapsedSince_of_fallen {φ : Bearing τ} {started : τ}
    {done : Bearing τ → Int → Prop} {failed : Bearing τ → Failure τ → Prop}
    (hφ : φ.standing.Fallen)
    (hdone : ∀ φ' ms, Standing.Fallen φ'.standing → done φ' ms)
    (hfailed : ∀ φ' e, Standing.Fallen φ'.standing → failed φ' e) :
    Action.Keeps serveOnPremises (Service.elapsedSince started)
      (Bearing.terms key capacity limit) φ done failed := by
  apply Action.keeps_bind
  apply Bearing.keeps_now
  intro time _
  have htold : (φ.told time).standing.Fallen := by
    rcases hφ with ⟨id, hnamed | hfailed⟩
    · rw [told_of_named hnamed]
      exact ⟨id, Or.inl hnamed⟩
    · refine ⟨id, Or.inr ?_⟩
      simp only [told, hfailed, fail]
      split <;> exact hfailed
  cases Seconds.toMillis (time - started) with
  | ok ms => exact Action.keeps_pure (hdone _ ms htold)
  | error e => exact Action.keeps_throw (hfailed _ _ htold)

theorem Bearing.keeps_admission {φ : Bearing τ} {id : String} {started : τ} {mode : Mode}
    {entry : Int → Entry τ} {done : Bearing τ → Int ⊕ Unit → Prop}
    {failed : Bearing τ → Failure τ → Prop} (hφ : φ.standing = .admitted id)
    (hsince : φ.since = some started) (hdone : done φ (.inr ()))
    (hfailed : ∀ e : Failure τ, e.Ordinary → failed (φ.stand (.failed id)) e) :
    Action.Keeps serveOnPremises
      (do
        let elapsed ← Service.elapsedSince started
        Service.record mode (entry elapsed)
        pure (.inr ()) : Operation Queue τ (Int ⊕ Unit))
      (Bearing.terms key capacity limit) φ done failed := by
  apply Action.keeps_bind
  apply Bearing.keeps_elapsedSince hsince
  · intro id' hnamed
    rw [hφ] at hnamed
    cases hnamed
  · intro elapsed _
    apply Action.keeps_bind
    apply Bearing.keeps_record
    exact Action.keeps_pure hdone
  · intro e he
    rw [fail_of_admitted hφ]
    exact hfailed e he

theorem Bearing.cleansUp {φ : Bearing τ} (hφ : φ.standing = .returning) :
    CleansUp (Bearing.terms key capacity limit) key True φ (φ.stand .gone) where
  renews r hr φ' post hφ' hpost := by
    have hreturned : φ'.standing = .returning ∨ φ'.standing = .gone := by
      rcases hφ' with rfl | rfl
      · exact Or.inl hφ
      · exact Or.inr rfl
    rcases r with (_ | ⟨client, command⟩ | _) | r
    · exact ⟨trivial, fun a _ => hpost a⟩
    · cases command with
      | ping => exact ⟨trivial, fun a _ => hpost a⟩
      | expire key' seconds => exact ⟨⟨hr.1, hr.2, hreturned⟩, fun a _ => hpost a⟩
      | _ => exact hr.elim
    · exact ⟨trivial, fun a _ => hpost a⟩
    · cases r with
      | record mode entry => exact ⟨trivial, fun a _ => hpost a⟩
      | _ => exact hr.elim
  reaches client post hok herror := by
    refine ⟨trivial, fun (reply : Except (Failure τ) Unit) _ => ?_⟩
    cases reply with
    | ok _ => exact hok
    | error e => exact herror trivial e
  removes client post hpost := ⟨⟨rfl, rfl, hφ⟩, fun a _ => hpost a⟩

omit [Seconds τ] in
theorem Bearing.returned_of_cleanUp {φ φ' : Bearing τ} (hφ : φ.standing = .returning)
    (hended : φ' = φ.stand .gone ∨ True ∧ φ' = φ) : φ'.standing.Returned := by
  rcases hended with rfl | ⟨_, rfl⟩
  · exact Or.inr rfl
  · exact Or.inl hφ

namespace Semaphore

theorem Fits.ticket {semaphore : Semaphore τ} {id : String} {ticket : Ticket τ}
    (hfits : semaphore.Fits key capacity)
    (hticket : (semaphore.ticketForm id).issue = .ok ticket) :
    ticket.Fits key capacity ∧ ticket.id = id := by
  have hform := TicketForm.toTicketForm_of_issue hticket
  refine ⟨⟨?_, ?_, ?_⟩, ?_⟩
  · rw [hform]
    exact hfits.queueKey
  · rw [hform]
    exact hfits.capacity
  · rw [hform]
    exact hfits.maxPosition
  · rw [hform]
    rfl

theorem newTicket_keeps {semaphore : Semaphore τ} {φ : Bearing τ}
    {done : Bearing τ → Ticket τ → Prop} {failed : Bearing τ → Failure τ → Prop}
    (hfits : semaphore.Fits key capacity) (hφ : φ.standing = .arriving)
    (hdone : ∀ ticket : Ticket τ, ticket.Fits key capacity →
      done (φ.stand (.named ticket.id)) ticket)
    (hfailed : ∀ id e, failed (φ.stand (.named id)) e) :
    Action.Keeps serveOnPremises semaphore.newTicket (Bearing.terms key capacity limit) φ
      done failed := by
  apply keeps_newTicket
  refine ⟨hφ, fun (id : String) _ => ⟨fun ticket hticket => ?_, hfailed id⟩⟩
  rcases hfits.ticket hticket with ⟨hticketFits, hid⟩
  show done (φ.stand (.named id)) ticket
  rw [← hid]
  exact hdone ticket hticketFits

end Semaphore

/-!
## Blocking callers
-/

namespace Blocking

theorem allowedSleep_keeps {ticket : Ticket τ} {started duration : τ} {φ : Bearing τ} {id : String}
    {done : Bearing τ → τ → Prop} {failed : Bearing τ → Failure τ → Prop}
    (hφ : φ.standing = .waiting id) (hsince : φ.since = some started)
    (hdone : ∀ duration, done φ duration)
    (hfailed : ∀ e : Failure τ, e.Ordinary → failed (φ.stand (.failed id)) e) :
    Action.Keeps serveOnPremises (allowedSleep ticket limit started duration)
      (Bearing.terms key capacity limit) φ done failed := by
  unfold allowedSleep
  cases limit with
  | none => exact Action.keeps_pure (hdone _)
  | some longest =>
      apply Action.keeps_bind
      apply Bearing.keeps_elapsedSince hsince
      · intro id' hnamed
        rw [hφ] at hnamed
        cases hnamed
      · intro elapsed hleft
        have hremaining := hleft ⟨id, hφ⟩ longest rfl
        dsimp only
        rw [if_neg hremaining]
        exact Action.keeps_pure (hdone _)
      · intro e he
        rw [Bearing.fail_of_waiting hφ]
        exact hfailed e he

theorem look_keeps {queue : Queue} {ticket : Ticket τ} {started : τ} {position : Int}
    {φ : Bearing τ} {done : Bearing τ → Int ⊕ Unit → Prop}
    {failed : Bearing τ → Failure τ → Prop}
    (hfits : ticket.Fits key capacity) (hqueue : queue.key = key)
    (hφ : φ.standing = .judged capacity ticket.id position) (hsince : φ.since = some started)
    (hadmitted : φ.standing = .admitted ticket.id → done φ (.inr ()))
    (hmoved : ∀ position', done (φ.stand (.judged capacity ticket.id position')) (.inl position'))
    (hfailed : ∀ e : Failure τ, e.Ordinary → failed (φ.stand (.failed ticket.id)) e) :
    Action.Keeps serveOnPremises (look queue ticket limit started position)
      (Bearing.terms key capacity limit) φ done failed := by
  unfold look
  rw [hfits.verdict]
  unfold Standing.judged at hφ
  by_cases hroom : position < capacity
  · rw [if_pos hroom] at hφ ⊢
    exact Bearing.keeps_admission hφ hsince (hadmitted hφ) hfailed
  · rw [if_neg hroom] at hφ ⊢
    apply Action.keeps_bind
    refine Bearing.keeps_estimate hφ ?_ hfailed
    intro duration
    apply Action.keeps_bind
    refine allowedSleep_keeps hφ hsince ?_ hfailed
    intro duration'
    apply Action.keeps_bind
    refine Bearing.keeps_sleep hφ ?_ hfailed
    apply Action.keeps_bind
    refine Bearing.keeps_position hqueue hφ ?_ hfailed
    intro rank
    apply Action.keeps_bind
    apply Bearing.keeps_record
    exact Action.keeps_pure (hmoved _)

theorem wait_keeps {ticket : Ticket τ} {φ : Bearing τ} (hfits : ticket.Fits key capacity)
    (hφ : φ.standing = .named ticket.id) :
    Action.Keeps serveOnPremises (wait ticket limit) (Bearing.terms key capacity limit) φ
      (fun φ' _ => φ'.standing = .admitted ticket.id)
      fun φ' e => e.Ordinary ∧ φ'.standing.Fallen := by
  have hfallen : ∀ (φ' : Bearing τ) (e : Failure τ), e.Ordinary →
      e.Ordinary ∧ (φ'.stand (.failed ticket.id)).standing.Fallen := by
    intro φ' e he
    exact ⟨he, ticket.id, Or.inr rfl⟩
  unfold wait
  rw [hfits.queueKey]
  apply Action.keeps_bind
  refine Bearing.keeps_connect ?_ fun e he => ⟨he, ticket.id, Or.inl hφ⟩
  intro queue hqueue
  apply Action.keeps_ensuring
  apply Action.keeps_bind
  apply Bearing.keeps_now
  intro started _
  rw [Bearing.told_of_named hφ]
  apply Action.keeps_bind
  refine Bearing.keeps_push hqueue hφ ?_ fun e he => Bearing.meets_close (hfallen _ e he)
  intro length
  apply Action.keeps_bind
  apply Bearing.keeps_record
  -- Whenever the loop goes round the caller stands as its last position tells.
  refine Action.keeps_repeatFrom
    (fun φ' position => φ'.standing = .judged capacity ticket.id position ∧
      φ'.since = some started) ⟨rfl, rfl⟩ ?_
  intro φ' position hloop
  refine look_keeps hfits hqueue hloop.1 hloop.2 ?_ ?_ ?_
  · intro hadmitted
    exact Bearing.meets_close hadmitted
  · intro position'
    exact ⟨rfl, hloop.2⟩
  · intro e he
    exact Bearing.meets_close (hfallen _ e he)

theorem acquire_keeps {semaphore : Semaphore τ} {φ : Bearing τ}
    (hfits : semaphore.Fits key capacity) (hφ : φ.standing = .arriving) :
    Action.Keeps serveOnPremises (acquire semaphore limit) (Bearing.terms key capacity limit) φ
      (fun φ' _ => ∃ id, φ'.standing = .settled id) fun φ' _ => φ'.standing.Fallen := by
  unfold acquire
  apply Action.keeps_bind
  refine Semaphore.newTicket_keeps hfits hφ ?_ fun id e => ⟨id, Or.inl rfl⟩
  intro ticket hticket
  apply Action.keeps_bind
  apply Action.keeps_tryCatch
  refine (wait_keeps hticket rfl).mono ?_ ?_
  · intro φ' _ hadmitted
    exact Bearing.keeps_hold hticket.queueKey hadmitted ⟨ticket.id, rfl⟩
  · intro φ' e he
    rw [he.1.isRefusal]
    exact Action.keeps_throw he.2

theorem release_keeps {semaphore : Semaphore τ} {φ : Bearing τ} (hφ : φ.standing = .leaving) :
    Action.Keeps serveOnPremises (release semaphore) (Bearing.terms key capacity limit) φ
      (fun φ' _ => φ'.standing.Returned)
      fun φ' _ => φ'.standing = .emptyHanded ∨ φ'.standing.Returned := by
  apply Action.keeps_bind
  refine Bearing.keeps_takeOldest hφ ?_ (Action.keeps_throw (Or.inl rfl))
  intro ticket hkey
  subst hkey
  refine (cleanUp_keeps (Bearing.cleansUp rfl)).mono ?_ ?_
  · intro φ' _ hφ'
    subst hφ'
    exact Or.inr rfl
  · intro φ' _ hended
    exact Or.inr (Bearing.returned_of_cleanUp rfl hended)

end Blocking

/-!
## Cooperative callers
-/

namespace Cooperative

theorem look_keeps {queue : Queue} {ticket : Ticket τ} {started : τ} {position : Int}
    {φ : Bearing τ} {done : Bearing τ → Int ⊕ Unit → Prop}
    {failed : Bearing τ → Failure τ → Prop}
    (hfits : ticket.Fits key capacity) (hqueue : queue.key = key)
    (hφ : φ.standing = .judged capacity ticket.id position) (hsince : φ.since = some started)
    (hadmitted : φ.standing = .admitted ticket.id → done φ (.inr ()))
    (hmoved : ∀ position', done (φ.stand (.judged capacity ticket.id position')) (.inl position'))
    (hfailed : ∀ e : Failure τ, e.Ordinary → failed (φ.stand (.failed ticket.id)) e) :
    Action.Keeps serveOnPremises (look queue ticket started position)
      (Bearing.terms key capacity limit) φ done failed := by
  unfold look
  rw [hfits.verdict]
  unfold Standing.judged at hφ
  by_cases hroom : position < capacity
  · rw [if_pos hroom] at hφ ⊢
    exact Bearing.keeps_admission hφ hsince (hadmitted hφ) hfailed
  · rw [if_neg hroom] at hφ ⊢
    apply Action.keeps_bind
    refine Bearing.keeps_estimate hφ ?_ hfailed
    intro duration
    apply Action.keeps_bind
    apply Bearing.keeps_record
    apply Action.keeps_bind
    refine Bearing.keeps_sleep hφ ?_ hfailed
    apply Action.keeps_bind
    refine Bearing.keeps_position hqueue hφ ?_ hfailed
    intro rank
    have hnext : Action.Keeps serveOnPremises
        (do
          Service.record .cooperative (.moved (positionOfRank rank))
          pure (.inl (positionOfRank rank)) : Operation Queue τ (Int ⊕ Unit))
        (Bearing.terms key capacity limit)
        (φ.stand (.judged capacity ticket.id (positionOfRank rank))) done failed := by
      apply Action.keeps_bind
      apply Bearing.keeps_record
      exact Action.keeps_pure (hmoved _)
    split
    · apply Action.keeps_bind
      apply Bearing.keeps_record
      exact hnext
    · exact hnext

def Stands (id : String) (φ : Bearing τ) (waited : Waited τ) : Prop :=
  match waited.outcome with
  | .ok () => φ.standing = .admitted id
  | .error e => (e.Ordinary ∨ waited.enqueued = false) ∧ φ.standing.Fallen

theorem follow_meets {ticket : Ticket τ} {φ : Bearing τ} (hfits : ticket.Fits key capacity)
    (hφ : φ.standing = .named ticket.id) :
    ((follow ticket false).serve serveOnPremises).Meets (Bearing.terms key capacity limit) φ
      (Stands ticket.id) := by
  unfold follow
  rw [hfits.queueKey]
  apply Action.meets_run
  refine Bearing.keeps_connect ?_ fun e he => ⟨Or.inl he, ticket.id, Or.inl hφ⟩
  intro queue hqueue
  apply Action.meets_serve_bind
  apply meets_ambient
  refine ⟨trivial, fun (started : τ) _ => ?_⟩
  show ((Plan.bind _ _).serve serveOnPremises).Meets _ (φ.told started) _
  rw [Bearing.told_of_named hφ]
  apply Action.meets_run
  refine Bearing.keeps_push hqueue hφ ?_ ?_
  · intro length
    apply Action.meets_run
    apply Action.keeps_bind
    apply Bearing.keeps_record
    refine Action.keeps_repeatFrom
      (fun φ' position => φ'.standing = .judged capacity ticket.id position ∧
        φ'.since = some started) ⟨rfl, rfl⟩ ?_
    intro φ' position hloop
    refine look_keeps hfits hqueue hloop.1 hloop.2 ?_ ?_ ?_
    · intro hadmitted
      apply Action.meets_serve_bind
      exact Bearing.meets_close hadmitted
    · intro position'
      exact ⟨rfl, hloop.2⟩
    · intro e he
      apply Action.meets_serve_bind
      exact Bearing.meets_close ⟨Or.inl he, ticket.id, Or.inr rfl⟩
  · intro e he
    apply Action.meets_serve_bind
    exact Bearing.meets_close ⟨Or.inl he, ticket.id, Or.inr rfl⟩

theorem followWithin_meets {ticket : Ticket τ} {φ : Bearing τ} {timeout : Option τ}
    (hfits : ticket.Fits key capacity) (hφ : φ.standing = .named ticket.id) :
    ((followWithin ticket timeout).serve serveOnPremises).Meets
      (Bearing.terms key capacity limit) φ (Stands ticket.id) := by
  unfold followWithin
  cases timeout with
  | none => exact follow_meets hfits hφ
  | some longest =>
      refine ⟨fun _ => ⟨Or.inr rfl, ticket.id, Or.inl hφ⟩, fun _ => ?_⟩
      refine (follow_meets hfits hφ).mono ?_
      intro φ' waited hstands lapse hlapse
      rcases hlapse with rfl | hcut
      · exact hstands
      · exact hcut.elim

theorem acquire_keeps {semaphore : Semaphore τ} {φ : Bearing τ} {timeout : Option τ}
    (hfits : semaphore.Fits key capacity) (hφ : φ.standing = .arriving) :
    Action.Keeps serveOnPremises (acquire semaphore timeout)
      (Bearing.terms key capacity limit) φ
      (fun φ' _ => ∃ id, φ'.standing = .settled id) fun φ' _ => φ'.standing.Fallen := by
  unfold acquire
  apply Action.keeps_bind
  refine Semaphore.newTicket_keeps hfits hφ ?_ fun id e => ⟨id, Or.inl rfl⟩
  intro ticket hticket
  apply Action.keeps_bind
  apply Bearing.keeps_now
  intro started _
  rw [Bearing.told_of_named rfl]
  apply Action.keeps_bind
  apply Action.keeps_lift
  refine (followWithin_meets hticket rfl).mono ?_
  intro φ' waited hstands
  rcases waited with ⟨enqueued, outcome⟩
  cases outcome with
  | ok _ => exact Bearing.keeps_hold hticket.queueKey hstands ⟨ticket.id, rfl⟩
  | error e =>
      rcases hstands with ⟨hordinary, hfallen⟩
      dsimp only at hordinary ⊢
      split
      · rename_i htimeout
        rcases hordinary with he | henqueued
        · rw [he.noTimeout] at htimeout
          cases htimeout
        · subst henqueued
          apply Action.keeps_bind
          exact Bearing.keeps_elapsedSince_of_fallen hfallen (fun φ'' _ h => h) fun φ'' _ h => h
      · have hcleanUp : (isRefusal e && enqueued) = false := by
          rcases hordinary with he | henqueued
          · rw [he.noRefusal, Bool.false_and]
          · rw [show enqueued = false from henqueued, Bool.and_false]
        rw [hcleanUp]
        exact Action.keeps_throw hfallen

theorem release_keeps {semaphore : Semaphore τ} {φ : Bearing τ} (hφ : φ.standing = .leaving) :
    Action.Keeps serveOnPremises (release semaphore) (Bearing.terms key capacity limit) φ
      (fun φ' _ => φ'.standing.Returned)
      fun φ' _ => φ'.standing = .emptyHanded ∨ φ'.standing.Returned := by
  apply Action.keeps_bind
  refine Bearing.keeps_takeOldest hφ ?_ (Action.keeps_throw (Or.inl rfl))
  intro ticket hkey
  subst hkey
  refine (cleanUp_keeps (Bearing.cleansUp rfl)).mono ?_ ?_
  · intro φ' _ hended
    exact Bearing.returned_of_cleanUp rfl hended
  · intro φ' _ hended
    exact Or.inr (Bearing.returned_of_cleanUp rfl hended)

end Cooperative
end Turnstile
