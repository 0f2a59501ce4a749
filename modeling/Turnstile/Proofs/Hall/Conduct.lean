import Turnstile.Proofs.Crowd.Basic
import Turnstile.Proofs.Hall.Credit

/-!
# Uses of a semaphore on credit

Every use of a semaphore keeps to the terms of credit, whatever it is answered: it removes a head
only for an entry that it was told of, or for a slot that the instance held.  Under a fair regime
a blocking use ends only when its credit is spent.  A cooperative use can be interrupted at any
time, which no fair regime allows for.

## Main statements

* `Use.on_credit` - every use of a semaphore, by way of `User.acquire_on_credit`,
  `User.release_on_credit` and `Semaphore.queueLength_on_credit`.
-/

namespace Turnstile

open Redis

variable {τ : Type} [Seconds τ] {key : String} {regime : Regime τ} {φ : Credit}
  {failed : Credit → Failure τ → Prop}

/-- Nothing is left of a credit when its use has ended, unless the regime is not fair. -/
def Credit.Settled (regime : Regime τ) (φ : Credit) : Prop :=
  φ.worth = 0 ∨ ¬ regime.Fair

theorem Credit.settled_of_cleanUp {ψ : Credit} (h : ψ = .spent ∨ ¬ regime.Fair ∧ ψ = φ) :
    ψ.Settled regime := by
  rcases h with hspent | ⟨hunfair, _⟩
  · rw [hspent]
    exact Or.inl rfl
  · exact Or.inr hunfair

theorem Semaphore.newTicket_on_credit {semaphore : Semaphore τ} {done : Credit → Ticket τ → Prop}
    (hdone : ∀ ticket : Ticket τ, ticket.queueKey = semaphore.queueKey → done φ ticket)
    (hfailed : ∀ e, failed φ e) :
    Action.Keeps serveOnPremises semaphore.newTicket (Credit.terms semaphore.queueKey regime) φ
      done failed := by
  apply keeps_newTicket
  refine ⟨trivial, fun (id : String) _ => ⟨fun ticket hticket => hdone ticket ?_, hfailed⟩⟩
  exact congrArg TicketForm.queueKey (TicketForm.toTicketForm_of_issue hticket)

theorem Semaphore.queueLength_on_credit {semaphore : Semaphore τ} {done : Credit → Nat → Prop}
    (hdone : ∀ length, done φ length) (hfailed : ∀ e, failed φ e) :
    Action.Keeps serveOnPremises semaphore.queueLength
      (Credit.terms semaphore.queueKey regime) φ done failed := by
  apply Action.keeps_bind
  refine Credit.keeps_connect ?_ fun e _ => hfailed e
  intro queue hqueue
  apply Action.keeps_ensuring
  apply Credit.keeps_length hqueue
  · intro length
    exact Credit.meets_close (hdone length)
  · intro e
    exact Credit.meets_close (hfailed e)

theorem Semaphore.giveBack_on_credit (semaphore : Semaphore τ)
    {cleanUp : Ticket τ → Operation Queue τ Unit} (hφ : φ = .blank ∨ φ = .spent)
    (hcleanUp : ∀ ticket : Ticket τ, ticket.queueKey = semaphore.queueKey →
      Action.Keeps serveOnPremises (cleanUp ticket) (Credit.terms semaphore.queueKey regime) .slot
        (fun φ _ => φ.Settled regime) fun φ _ => φ.Settled regime) :
    Action.Keeps serveOnPremises (semaphore.giveBack cleanUp)
      (Credit.terms semaphore.queueKey regime) φ
      (fun φ _ => φ.Settled regime) fun φ _ => φ.Settled regime := by
  have hnothing : φ.Settled regime := by
    rcases hφ with rfl | rfl
    · exact Or.inl rfl
    · exact Or.inl rfl
  apply Action.keeps_bind
  exact Credit.keeps_takeOldest hφ hcleanUp (Action.keeps_throw hnothing)

/-!
## Blocking uses
-/

namespace Blocking

theorem allowedSleep_on_credit {ticket : Ticket τ} {limit : Option τ} {started duration : τ}
    {done : Credit → τ → Prop} (hstarted : regime.clock started)
    (hduration : regime.Fair → ¬ Seconds.Negative duration)
    (hdone : ∀ allowed, (regime.Fair → ¬ Seconds.Negative allowed) → done φ allowed)
    (hfailed : ∀ e, (regime.Fair → isRefusal e = true) → failed φ e) :
    Action.Keeps serveOnPremises (allowedSleep ticket limit started duration)
      (Credit.terms key regime) φ done failed := by
  have hunfair : ∀ e, ¬ regime.Fair → failed φ e :=
    fun e hunfair => hfailed e fun hfair => absurd hfair hunfair
  unfold allowedSleep
  cases limit with
  | none => exact Action.keeps_pure (hdone _ hduration)
  | some longest =>
      apply Action.keeps_bind
      refine Credit.keeps_elapsedSince hstarted ?_ hunfair
      intro elapsed
      dsimp only
      split
      · apply Action.keeps_bind
        refine Credit.keeps_elapsedSince hstarted ?_ hunfair
        intro elapsed'
        exact Action.keeps_throw (hfailed _ fun _ => rfl)
      · rename_i hremaining
        refine Action.keeps_pure (hdone _ fun hfair => ?_)
        exact Seconds.not_negative_earlier (hduration hfair) hremaining

theorem look_on_credit {queue : Queue} {ticket : Ticket τ} {limit : Option τ} {started : τ}
    {position : Int} {done : Credit → Int ⊕ Unit → Prop} (hqueue : queue.key = key)
    (hstarted : regime.clock started) (hdone : ∀ next, done φ next)
    (hfailed : ∀ e, (regime.Fair → isRefusal e = true) → failed φ e) :
    Action.Keeps serveOnPremises (look queue ticket limit started position)
      (Credit.terms key regime) φ done failed := by
  have hunfair : ∀ e, ¬ regime.Fair → failed φ e :=
    fun e hunfair => hfailed e fun hfair => absurd hfair hunfair
  unfold look
  cases ticket.verdict position with
  | admitted =>
      apply Action.keeps_bind
      refine Credit.keeps_elapsedSince hstarted ?_ hunfair
      intro elapsed
      apply Action.keeps_bind
      apply Credit.keeps_record
      exact Action.keeps_pure (hdone _)
  | rejected => exact Action.keeps_throw (hfailed _ fun _ => rfl)
  | waiting =>
      apply Action.keeps_bind
      refine Credit.keeps_estimate ?_ hunfair
      intro duration hduration
      apply Action.keeps_bind
      refine allowedSleep_on_credit hstarted hduration ?_ hfailed
      intro allowed hallowed
      apply Action.keeps_bind
      refine Credit.keeps_sleep hallowed ?_ hunfair
      apply Action.keeps_bind
      refine Credit.keeps_position hqueue ?_ hunfair
      intro rank
      apply Action.keeps_bind
      apply Credit.keeps_record
      exact Action.keeps_pure (hdone _)

/-- A wait that fails has no credit or gives it back, where nothing goes wrong. -/
theorem wait_on_credit {ticket : Ticket τ} {limit : Option τ} :
    Action.Keeps serveOnPremises (wait ticket limit) (Credit.terms ticket.queueKey regime) .blank
      (fun φ _ => φ = .entry) fun φ e =>
        φ = .blank ∧ isRefusal e = false ∨ φ = .entry ∧ (regime.Fair → isRefusal e = true) := by
  apply Action.keeps_bind
  refine Credit.keeps_connect ?_ fun e he => Or.inl ⟨rfl, he⟩
  intro queue hqueue
  apply Action.keeps_ensuring
  apply Action.keeps_bind
  apply Credit.keeps_now
  intro started hstarted
  apply Action.keeps_bind
  refine Credit.keeps_push hqueue ?_ fun e he => Credit.meets_close (Or.inl ⟨rfl, he⟩)
  intro length
  apply Action.keeps_bind
  apply Credit.keeps_record
  -- The request has its credit as long as the loop goes round.
  refine Action.keeps_repeatFrom (fun φ _ => φ = .entry) rfl ?_
  intro φ position hentry
  subst hentry
  refine look_on_credit hqueue hstarted ?_ fun e he => Credit.meets_close (Or.inr ⟨rfl, he⟩)
  intro next
  cases next with
  | inl position' => rfl
  | inr _ => exact Credit.meets_close rfl

theorem acquire_on_credit {semaphore : Semaphore τ} {limit : Option τ} :
    Action.Keeps serveOnPremises (acquire semaphore limit)
      (Credit.terms semaphore.queueKey regime) .blank (fun φ _ => φ = .spent)
      fun φ _ => φ.Settled regime := by
  apply Action.keeps_bind
  refine Semaphore.newTicket_on_credit ?_ fun _ => Or.inl rfl
  intro ticket hticket
  rw [← hticket]
  apply Action.keeps_bind
  apply Action.keeps_tryCatch
  refine wait_on_credit.mono ?_ ?_
  · intro φ _ hentry
    rw [hentry]
    exact Credit.keeps_hold rfl rfl
  · intro φ e hended
    rcases hended with ⟨rfl, he⟩ | ⟨rfl, he⟩
    · rw [he]
      exact Action.keeps_throw (Or.inl rfl)
    · split
      · apply Action.keeps_bind
        refine (cleanUp_keeps (Credit.cleansUp (Or.inl rfl))).mono ?_ ?_
        · intro φ _ hspent
          exact Action.keeps_throw (Credit.settled_of_cleanUp (φ := .entry) (Or.inl hspent))
        · intro φ e' hended
          exact Credit.settled_of_cleanUp hended
      · rename_i hrefusal
        exact Action.keeps_throw (Or.inr fun hfair => hrefusal (he hfair))

end Blocking

/-!
## Cooperative uses
-/

namespace Cooperative

/-- A wait that has ended has credit if its entry was seen to be made, and else it failed. -/
def OnCredit (φ : Credit) (waited : Waited τ) : Prop :=
  φ = .entry ∧ waited.enqueued = true ∨
    φ = .blank ∧ waited.enqueued = false ∧ ∃ e, waited.outcome = .error e

omit [Seconds τ] in
theorem outcome_limited {waited : Waited τ} {e : Failure τ} (h : waited.outcome = .error e)
    (lapse : Lapse) : ∃ e', (limited lapse (some waited)).outcome = .error e' := by
  rcases waited with ⟨enqueued, outcome⟩
  cases h
  cases lapse with
  | inTime => exact ⟨e, rfl⟩
  | expired =>
      cases e with
      | interrupted => exact ⟨.limitPassed, rfl⟩
      | _ => exact ⟨_, rfl⟩
  | interrupted => exact ⟨.interrupted, rfl⟩

omit [Seconds τ] in
theorem onCredit_limited {waited : Waited τ} (h : OnCredit φ waited) (lapse : Lapse) :
    OnCredit φ (limited lapse (some waited)) := by
  have henqueued := enqueued_limited lapse waited
  rcases h with ⟨hφ, hmade⟩ | ⟨hφ, hmade, e, he⟩
  · exact Or.inl ⟨hφ, henqueued.trans hmade⟩
  · exact Or.inr ⟨hφ, henqueued.trans hmade, outcome_limited he lapse⟩

theorem follow_on_credit {ticket : Ticket τ} :
    ((follow ticket false).serve serveOnPremises).Meets (Credit.terms ticket.queueKey regime)
      .blank OnCredit := by
  apply Action.meets_run
  refine Credit.keeps_connect ?_ fun e _ => Or.inr ⟨rfl, rfl, e, rfl⟩
  intro queue hqueue
  apply Action.meets_serve_bind
  apply meets_ambient
  refine Credit.atRest.ask trivial fun (started : τ) => ?_
  apply Action.meets_run
  refine Credit.keeps_push hqueue ?_ ?_
  · intro length
    apply Action.meets_run
    apply Action.keeps_bind
    apply Credit.keeps_record
    refine Action.keeps_repeatFrom (fun φ _ => φ = .entry) rfl ?_
    intro φ position hentry
    subst hentry
    refine look_rests Credit.atRest hqueue ?_ ?_
    · intro next
      cases next with
      | inl position' => rfl
      | inr _ =>
          apply Action.meets_serve_bind
          exact Credit.meets_close (Or.inl ⟨rfl, rfl⟩)
    · intro e
      apply Action.meets_serve_bind
      exact Credit.meets_close (Or.inl ⟨rfl, rfl⟩)
  · intro e _
    apply Action.meets_serve_bind
    exact Credit.meets_close (Or.inr ⟨rfl, rfl, e, rfl⟩)

theorem followWithin_on_credit {ticket : Ticket τ} {timeout : Option τ} :
    ((followWithin ticket timeout).serve serveOnPremises).Meets
      (Credit.terms ticket.queueKey regime) .blank OnCredit := by
  unfold followWithin
  cases timeout with
  | none => exact follow_on_credit
  | some limit =>
      refine ⟨fun _ => Or.inr ⟨rfl, rfl, .limitPassed, rfl⟩, fun _ => follow_on_credit.mono ?_⟩
      intro φ waited hcredit lapse _
      exact onCredit_limited hcredit lapse

theorem acquire_on_credit {semaphore : Semaphore τ} {timeout : Option τ}
    (hunfair : ¬ regime.Fair) :
    Action.Keeps serveOnPremises (acquire semaphore timeout)
      (Credit.terms semaphore.queueKey regime) .blank (fun φ _ => φ = .spent)
      fun φ _ => φ.Settled regime := by
  have hsettled : ∀ φ : Credit, φ.Settled regime := fun _ => Or.inr hunfair
  apply Action.keeps_bind
  refine Semaphore.newTicket_on_credit ?_ fun _ => hsettled _
  intro ticket hticket
  rw [← hticket]
  apply Action.keeps_bind
  apply Credit.atRest.keeps_now
  intro started
  apply Action.keeps_bind
  apply Action.keeps_lift
  refine followWithin_on_credit.mono ?_
  intro φ waited hcredit
  rcases waited with ⟨enqueued, outcome⟩
  have hcleanUp : φ = .entry → Action.Keeps serveOnPremises (cleanUp ticket)
      (Credit.terms ticket.queueKey regime) φ (fun _ _ => True) fun ψ _ => ψ.Settled regime :=
    fun hφ => (cleanUp_keeps (Credit.cleansUp (Or.inl hφ))).mono (fun _ _ _ => trivial)
      fun ψ _ _ => hsettled ψ
  have hlate : ∀ ψ : Credit, Action.Keeps serveOnPremises
      (do
        let elapsed ← Service.elapsedSince started
        throw (.plain (.acquireTimeout semaphore.key timeout elapsed)) :
          Operation Queue τ Unit)
      (Credit.terms ticket.queueKey regime) ψ (fun φ _ => φ = .spent)
      fun φ _ => φ.Settled regime := by
    intro ψ
    apply Action.keeps_bind
    exact Credit.atRest.keeps_elapsedSince (fun _ => Action.keeps_throw (hsettled ψ))
      fun _ => hsettled ψ
  cases outcome with
  | ok _ =>
      rcases hcredit with ⟨rfl, _⟩ | ⟨_, _, e, he⟩
      · exact Credit.keeps_hold rfl rfl
      · cases he
  | error e =>
      rcases hcredit with ⟨hφ, hmade⟩ | ⟨hφ, hmade, _⟩
      · cases hmade
        dsimp only
        split
        · apply Action.keeps_bind
          exact (hcleanUp hφ).mono (fun ψ _ _ => hlate ψ) fun _ _ hψ => hψ
        · rw [Bool.and_true]
          split
          · apply Action.keeps_bind
            exact (hcleanUp hφ).mono (fun ψ _ _ => Action.keeps_throw (hsettled ψ))
              fun _ _ hψ => hψ
          · exact Action.keeps_throw (hsettled φ)
      · cases hmade
        dsimp only
        split
        · exact hlate φ
        · rw [Bool.and_false]
          exact Action.keeps_throw (hsettled φ)

end Cooperative

/-!
## Uses by a user
-/

/-- What an instance of a semaphore can be used for. -/
inductive Use (τ : Type) where
  | acquire (limit : Option τ)
  | release
  /-- To hold a slot for some time.  The time may come to its end with a failure. -/
  | visit (duration : τ)
  | queueLength

namespace Use

variable {user : User τ}

def operation (user : User τ) : Use τ → Operation Queue τ Unit
  | acquire limit => user.acquire limit
  | release => user.release
  | visit duration => Action.between (user.acquire none) user.release (Service.sleep duration)
  | queueLength => do
      let _ ← user.semaphore.queueLength

end Use

namespace User

variable {user : User τ}

theorem acquire_on_credit {limit : Option τ} (hmode : regime.Fair → user.mode = .blocking) :
    Action.Keeps serveOnPremises (user.acquire limit)
      (Credit.terms user.semaphore.queueKey regime) .blank (fun φ _ => φ = .spent)
      fun φ _ => φ.Settled regime := by
  unfold acquire
  cases user with
  | mk mode semaphore held =>
      cases mode with
      | blocking => exact Blocking.acquire_on_credit
      | cooperative => exact Cooperative.acquire_on_credit fun hfair => nomatch hmode hfair

theorem release_on_credit (hφ : φ = .blank ∨ φ = .spent) :
    Action.Keeps serveOnPremises user.release (Credit.terms user.semaphore.queueKey regime) φ
      (fun φ _ => φ.Settled regime) fun φ _ => φ.Settled regime := by
  unfold release
  cases user with
  | mk mode semaphore held =>
      cases mode with
      | blocking =>
          refine semaphore.giveBack_on_credit hφ fun ticket hticket => ?_
          rw [← hticket]
          exact (Blocking.cleanUp_keeps (Credit.cleansUp (Or.inr rfl))).mono
            (fun φ _ hspent => Credit.settled_of_cleanUp (φ := .slot) (Or.inl hspent))
            fun φ _ hended => Credit.settled_of_cleanUp hended
      | cooperative =>
          refine semaphore.giveBack_on_credit hφ fun ticket hticket => ?_
          rw [← hticket]
          exact (Cooperative.cleanUp_keeps (Credit.cleansUp (Or.inr rfl))).mono
            (fun φ _ hended => Credit.settled_of_cleanUp hended)
            fun φ _ hended => Credit.settled_of_cleanUp hended

end User

/-- Every use of a semaphore keeps to the terms of credit. -/
theorem Use.on_credit {user : User τ} {use : Use τ} (hmode : regime.Fair → user.mode = .blocking) :
    Action.Keeps serveOnPremises (use.operation user)
      (Credit.terms user.semaphore.queueKey regime) .blank (fun φ _ => φ.Settled regime)
      fun φ _ => φ.Settled regime := by
  cases use with
  | acquire limit =>
      refine (User.acquire_on_credit hmode).mono ?_ fun _ _ hφ => hφ
      intro φ _ hspent
      rw [hspent]
      exact Or.inl rfl
  | release => exact User.release_on_credit (Or.inl rfl)
  | visit duration =>
      apply Action.keeps_bind
      refine (User.acquire_on_credit hmode).mono ?_ fun _ _ hφ => hφ
      intro φ _ hspent
      apply Action.keeps_bind
      apply Action.keeps_lift
      have hsleep : Action.Keeps serveOnPremises (Service.sleep duration)
          (Credit.terms user.semaphore.queueKey regime) φ (fun ψ _ => ψ = .spent)
          fun ψ _ => ψ = .spent :=
        Credit.atRest.keeps_sleep hspent fun _ => hspent
      refine Plan.Meets.mono hsleep ?_
      intro ψ ended hended
      have hψ : ψ = .spent := by
        cases ended with
        | ok _ => exact hended
        | error e => exact hended
      apply Action.keeps_bind
      refine (User.release_on_credit (Or.inr hψ)).mono ?_ fun _ _ hφ => hφ
      intro χ _ hχ
      cases ended with
      | ok _ => exact hχ
      | error e => exact hχ
  | queueLength =>
      apply Action.keeps_bind
      exact Semaphore.queueLength_on_credit (fun _ => Action.keeps_pure (Or.inl rfl))
        fun _ => Or.inl rfl

end Turnstile
