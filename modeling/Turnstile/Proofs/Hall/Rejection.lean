import Turnstile.Proofs.Hall.Basic

/-!
# Rejections

A request for a slot is told where it stands when its entry is made.  One that stands too far back
is rejected: whatever becomes of it, it never gets a slot.

The terms here allow everything.  They keep in mind whether a user was told of an entry too far
back, and are met by uses that do not end well after that.

## Main statements

* `Hall.not_granted_of_outside` - a use that made an entry too far back never ends well.
-/

namespace Turnstile

open Redis

/-- Whether a user that has sent some commands made an entry too far back. -/
def outside {τ : Type} (tooFar : Int → Bool) (sent : List (Dispatch τ)) : Bool :=
  sent.any fun dispatch => dispatch.position?.any tooFar

theorem outside_append {τ : Type} (tooFar : Int → Bool) (earlier sent : List (Dispatch τ)) :
    outside tooFar (earlier ++ sent) = (outside tooFar earlier || outside tooFar sent) :=
  List.any_append

variable {τ : Type} [Seconds τ]

/-- Whether a semaphore rejects a request that stands at a position.  The identity on its ticket is
of no account. -/
def Semaphore.rejects (semaphore : Semaphore τ) (position : Int) : Bool :=
  decide ((semaphore.ticketForm "").verdict position = .rejected)

namespace Rejection

def after (tooFar : Int → Bool) (told : Bool) :
    (r : (Premises τ).Request) → (Premises τ).Answer r → Bool
  | .inl (.call _ command), reply =>
      match command, reply with
      | .rpush .., .ok (length : Nat) => told || tooFar (length - 1)
      | _, _ => told
  | _, _ => told

def terms (tooFar : Int → Bool) : Plan.Terms (Premises τ) Bool where
  ask told r post := ∀ a, post (after tooFar told r a) a
  ask_mono hpost h a := hpost _ a (h a)
  interruptible := True

def Plain : (Premises τ).Request → Prop
  | .inl (.call _ (.rpush ..)) => False
  | _ => True

variable {tooFar : Int → Bool} {told : Bool} {r : (Premises τ).Request} {key : String}

theorem after_of_plain (hr : Plain r) (a : (Premises τ).Answer r) :
    after tooFar told r a = told := by
  rcases r with (_ | ⟨client, command⟩ | _) | r
  · rfl
  · cases command with
    | rpush key' id => exact hr.elim
    | _ => rfl
  · rfl
  · rfl

theorem quiet (hr : Plain r) (among : Bool → Prop) : (terms tooFar).Quiet among r := by
  intro told post _ hpost a
  rw [after_of_plain hr]
  exact hpost a

theorem atRest (key : String) :
    AtRest (terms tooFar : Plan.Terms (Premises τ) Bool) key told := by
  intro r hr
  apply quiet
  rcases r with (_ | ⟨client, command⟩ | _) | r
  · exact hr.elim
  · cases command with
    | lpos key' id => trivial
    | _ => exact hr.elim
  · exact hr.elim
  · trivial

theorem cleansUp : CleansUp (terms tooFar : Plan.Terms (Premises τ) Bool) key True told told where
  renews r hr := by
    apply quiet
    rcases r with (_ | ⟨client, command⟩ | _) | r
    · trivial
    · cases command with
      | ping => trivial
      | expire key' seconds => trivial
      | _ => exact hr.elim
    · trivial
    · trivial
  reaches client post hok herror reply := by
    cases reply with
    | ok _ => exact hok
    | error e => exact herror trivial e
  removes client post hpost reply := hpost reply

theorem keeps_push {queue : Queue} {id : String} {done : Bool → Nat → Prop}
    {failed : Bool → Failure τ → Prop}
    (hdone : ∀ length : Nat, done (tooFar (length - 1)) length) (hfailed : ∀ e, failed false e) :
    Action.Keeps serveOnPremises (Service.push queue id) (terms tooFar) false done failed := by
  apply Turnstile.keeps_push
  intro (reply : Except (Failure τ) Nat)
  cases reply with
  | ok length => exact hdone length
  | error e => exact hfailed _

theorem meets_close {queue : Queue} {post : Bool → Unit → Prop} (h : post told ()) :
    ((Service.close queue).serve serveOnPremises).Meets
      (terms tooFar : Plan.Terms (Premises τ) Bool) told post :=
  Turnstile.meets_close (fun _ => h) h

theorem keeps_hold {ticket : Ticket τ} {done : Bool → Unit → Prop}
    {failed : Bool → Failure τ → Prop} (hdone : done told ()) :
    Action.Keeps serveOnPremises (Service.hold ticket) (terms tooFar) told done failed :=
  Action.keeps_lift (meets_ambient fun _ => hdone)

theorem keeps_newTicket {semaphore : Semaphore τ} {done : Bool → Ticket τ → Prop}
    {failed : Bool → Failure τ → Prop}
    (hdone : ∀ ticket : Ticket τ, (∀ position, semaphore.rejects position = true →
      ticket.verdict position = .rejected) → done told ticket)
    (hfailed : ∀ e, failed told e) :
    Action.Keeps serveOnPremises semaphore.newTicket (terms tooFar) told done failed := by
  apply Turnstile.keeps_newTicket
  refine fun (id : String) => ⟨fun ticket hticket => hdone ticket ?_, hfailed⟩
  intro position hrejects
  rw [TicketForm.toTicketForm_of_issue hticket]
  exact of_decide_eq_true hrejects

end Rejection

/-!
## Requests for a slot
-/

section Requests

variable {tooFar : Int → Bool} {told : Bool}

namespace Blocking

theorem cleanUp_plain {ticket : Ticket τ} :
    Action.Keeps serveOnPremises (cleanUp ticket) (Rejection.terms tooFar) told
      (fun told' _ => told' = told) fun _ _ => True :=
  (cleanUp_keeps Rejection.cleansUp).mono (fun _ _ h => h) fun _ _ _ => trivial

theorem wait_rejects {ticket : Ticket τ} {limit : Option τ}
    (hrejects : ∀ position, tooFar position = true → ticket.verdict position = .rejected) :
    Action.Keeps serveOnPremises (wait ticket limit) (Rejection.terms tooFar) false
      (fun told _ => told = false) fun _ _ => True := by
  apply Action.keeps_bind
  refine Rejection.cleansUp.keeps_connect ?_ fun _ _ => trivial
  intro queue _
  apply Action.keeps_ensuring
  apply Action.keeps_bind
  apply (Rejection.atRest queue.key).keeps_now
  intro started
  apply Action.keeps_bind
  refine Rejection.keeps_push ?_ fun _ => Rejection.meets_close trivial
  intro length
  apply Action.keeps_bind
  apply (Rejection.atRest queue.key).keeps_record
  cases hfar : tooFar (length - 1) with
  | true =>
      -- The first look ends the wait.
      refine Action.keeps_repeatFrom (fun _ position => position = (length : Int) - 1) rfl ?_
      intro told position hposition
      subst hposition
      unfold look
      rw [hrejects _ hfar]
      exact Action.keeps_throw (Rejection.meets_close trivial)
  | false =>
      refine Action.keeps_repeatFrom (fun told _ => told = false) rfl ?_
      intro told position htold
      subst htold
      refine look_rests (Rejection.atRest queue.key) rfl ?_ fun _ => Rejection.meets_close trivial
      intro next
      cases next with
      | inl position' => rfl
      | inr _ => exact Rejection.meets_close rfl

theorem acquire_rejects {semaphore : Semaphore τ} {limit : Option τ} :
    Action.Keeps serveOnPremises (acquire semaphore limit) (Rejection.terms semaphore.rejects)
      false (fun told _ => told = false) fun _ _ => True := by
  apply Action.keeps_bind
  refine Rejection.keeps_newTicket ?_ fun _ => trivial
  intro ticket hrejects
  apply Action.keeps_bind
  apply Action.keeps_tryCatch
  refine (wait_rejects hrejects).mono ?_ ?_
  · intro told _ htold
    exact Rejection.keeps_hold htold
  · intro told e _
    split
    · apply Action.keeps_bind
      exact cleanUp_plain.mono (fun _ _ _ => Action.keeps_throw trivial) fun _ _ _ => trivial
    · exact Action.keeps_throw trivial

end Blocking

namespace Cooperative

theorem cleanUp_plain {ticket : Ticket τ} :
    Action.Keeps serveOnPremises (cleanUp ticket) (Rejection.terms tooFar) told
      (fun told' _ => told' = told) fun _ _ => True := by
  refine (cleanUp_keeps Rejection.cleansUp).mono ?_ fun _ _ _ => trivial
  intro told' _ hended
  rcases hended with h | ⟨_, h⟩
  · exact h
  · exact h

def Refused (told : Bool) (waited : Waited τ) : Prop :=
  told = false ∨ ∃ e, waited.outcome = .error e

theorem follow_rejects {ticket : Ticket τ}
    (hrejects : ∀ position, tooFar position = true → ticket.verdict position = .rejected) :
    ((follow ticket false).serve serveOnPremises).Meets (Rejection.terms tooFar) false
      Refused := by
  apply Action.meets_run
  refine Rejection.cleansUp.keeps_connect ?_ fun _ _ => Or.inl rfl
  intro queue _
  apply Action.meets_serve_bind
  apply meets_ambient
  refine (Rejection.atRest queue.key).ask trivial fun (started : τ) => ?_
  apply Action.meets_run
  refine Rejection.keeps_push ?_ ?_
  · intro length
    apply Action.meets_run
    apply Action.keeps_bind
    apply (Rejection.atRest queue.key).keeps_record
    cases hfar : tooFar (length - 1) with
    | true =>
        refine Action.keeps_repeatFrom (fun _ position => position = (length : Int) - 1) rfl ?_
        intro told position hposition
        subst hposition
        unfold look
        rw [hrejects _ hfar]
        apply Action.keeps_bind
        apply (Rejection.atRest queue.key).keeps_record
        apply Action.keeps_throw
        apply Action.meets_serve_bind
        exact Rejection.meets_close (Or.inr ⟨_, rfl⟩)
    | false =>
        refine Action.keeps_repeatFrom (fun told _ => told = false) rfl ?_
        intro told position htold
        subst htold
        refine look_rests (Rejection.atRest queue.key) rfl ?_ ?_
        · intro next
          cases next with
          | inl position' => rfl
          | inr _ =>
              apply Action.meets_serve_bind
              exact Rejection.meets_close (Or.inl rfl)
        · intro e
          apply Action.meets_serve_bind
          exact Rejection.meets_close (Or.inl rfl)
  · intro e
    apply Action.meets_serve_bind
    exact Rejection.meets_close (Or.inl rfl)

theorem followWithin_rejects {ticket : Ticket τ} {timeout : Option τ}
    (hrejects : ∀ position, tooFar position = true → ticket.verdict position = .rejected) :
    ((followWithin ticket timeout).serve serveOnPremises).Meets (Rejection.terms tooFar) false
      Refused := by
  unfold followWithin
  cases timeout with
  | none => exact follow_rejects hrejects
  | some limit =>
      refine ⟨fun _ => Or.inl rfl, fun _ => (follow_rejects hrejects).mono ?_⟩
      intro told waited hrefused lapse _
      rcases hrefused with htold | ⟨e, he⟩
      · exact Or.inl htold
      · exact Or.inr (outcome_limited he lapse)

theorem acquire_rejects {semaphore : Semaphore τ} {timeout : Option τ} :
    Action.Keeps serveOnPremises (acquire semaphore timeout) (Rejection.terms semaphore.rejects)
      false (fun told _ => told = false) fun _ _ => True := by
  apply Action.keeps_bind
  refine Rejection.keeps_newTicket ?_ fun _ => trivial
  intro ticket hrejects
  apply Action.keeps_bind
  apply (Rejection.atRest ticket.queueKey).keeps_now
  intro started
  apply Action.keeps_bind
  apply Action.keeps_lift
  refine (followWithin_rejects hrejects).mono ?_
  intro told waited hrefused
  rcases waited with ⟨enqueued, outcome⟩
  cases outcome with
  | ok _ =>
      rcases hrefused with htold | ⟨e, he⟩
      · exact Rejection.keeps_hold htold
      · cases he
  | error e =>
      have hlate : ∀ told : Bool, Action.Keeps serveOnPremises
          (do
            let elapsed ← Service.elapsedSince started
            throw (.plain (.acquireTimeout semaphore.key timeout elapsed)) :
              Operation Queue τ Unit)
          (Rejection.terms semaphore.rejects) told (fun told' _ => told' = false)
          fun _ _ => True := by
        intro told
        apply Action.keeps_bind
        exact (Rejection.atRest ticket.queueKey).keeps_elapsedSince
          (fun _ => Action.keeps_throw trivial) fun _ => trivial
      dsimp only
      split
      · cases enqueued with
        | false => exact hlate told
        | true =>
            apply Action.keeps_bind
            exact cleanUp_plain.mono (fun told' _ _ => hlate told') fun _ _ _ => trivial
      · split
        · apply Action.keeps_bind
          exact cleanUp_plain.mono (fun _ _ _ => Action.keeps_throw trivial) fun _ _ _ => trivial
        · exact Action.keeps_throw trivial

end Cooperative
end Requests

/-!
## Uses
-/

section Uses

variable {user : User τ}

theorem User.acquire_rejects {limit : Option τ} :
    Action.Keeps serveOnPremises (user.acquire limit) (Rejection.terms user.semaphore.rejects)
      false (fun told _ => told = false) fun _ _ => True := by
  unfold acquire
  cases user with
  | mk mode semaphore held =>
      cases mode with
      | blocking => exact Blocking.acquire_rejects
      | cooperative => exact Cooperative.acquire_rejects

theorem Semaphore.giveBack_plain {semaphore : Semaphore τ}
    {cleanUp : Ticket τ → Operation Queue τ Unit} {tooFar : Int → Bool} {told : Bool}
    (hcleanUp : ∀ ticket, Action.Keeps serveOnPremises (cleanUp ticket) (Rejection.terms tooFar)
      told (fun told' _ => told' = told) fun _ _ => True) :
    Action.Keeps serveOnPremises (semaphore.giveBack cleanUp) (Rejection.terms tooFar) told
      (fun told' _ => told' = told) fun _ _ => True := by
  apply Action.keeps_bind
  apply Action.keeps_lift
  apply meets_ambient
  intro (ticket? : Option (Ticket τ))
  cases ticket? with
  | none => exact Action.keeps_throw trivial
  | some ticket => exact hcleanUp ticket

theorem User.release_plain {tooFar : Int → Bool} {told : Bool} :
    Action.Keeps serveOnPremises user.release (Rejection.terms tooFar) told
      (fun told' _ => told' = told) fun _ _ => True := by
  unfold release
  cases user with
  | mk mode semaphore held =>
      cases mode with
      | blocking => exact Semaphore.giveBack_plain fun _ => Blocking.cleanUp_plain
      | cooperative => exact Semaphore.giveBack_plain fun _ => Cooperative.cleanUp_plain

/-- A use that ends well was never told of an entry too far back. -/
theorem Use.rejects {use : Use τ} :
    Action.Keeps serveOnPremises (use.operation user) (Rejection.terms user.semaphore.rejects)
      false (fun told _ => told = false) fun _ _ => True := by
  cases use with
  | acquire limit => exact User.acquire_rejects
  | release => exact User.release_plain
  | visit duration =>
      apply Action.keeps_bind
      refine User.acquire_rejects.mono ?_ fun _ _ _ => trivial
      intro told _ htold
      subst htold
      apply Action.keeps_bind
      apply Action.keeps_lift
      have hsleep : Action.Keeps serveOnPremises (Service.sleep duration)
          (Rejection.terms user.semaphore.rejects) false (fun told _ => told = false)
          fun told _ => told = false :=
        (Rejection.atRest user.semaphore.queueKey).keeps_sleep rfl fun _ => rfl
      refine Plan.Meets.mono hsleep ?_
      intro told ended hended
      have htold : told = false := by
        cases ended with
        | ok _ => exact hended
        | error e => exact hended
      subst htold
      apply Action.keeps_bind
      refine User.release_plain.mono ?_ fun _ _ _ => trivial
      intro told _ htold
      cases ended with
      | ok _ => exact htold
      | error e => exact trivial
  | queueLength =>
      apply Action.keeps_bind
      apply Action.keeps_bind
      refine Rejection.cleansUp.keeps_connect ?_ fun _ _ => trivial
      intro queue _
      apply Action.keeps_ensuring
      apply meets_store
      apply keeps_call
      intro (reply : Except (Failure τ) Nat)
      cases reply with
      | ok length => exact Rejection.meets_close (Action.keeps_pure rfl)
      | error e => exact Rejection.meets_close trivial

end Uses

/-!
## Runs
-/

namespace Hall

variable {regime : Regime τ} {hall hall' : Hall τ} {number : Nat} {r : (Premises τ).Request}
  {answer : (Premises τ).Answer r} {sent : List (Dispatch τ)}

theorem Answers.outside_eq (h : Answers regime hall number r answer sent hall')
    (tooFar : Int → Bool) (earlier : List (Dispatch τ)) :
    outside tooFar (earlier ++ sent) =
      Rejection.after tooFar (outside tooFar earlier) r answer := by
  rw [outside_append]
  cases h with
  | @call client command took reply keys executed =>
      cases command with
      | rpush key id =>
          cases reply with
          | ok length => exact congrArg _ (Bool.or_false _)
          | error e => exact Bool.or_false _
      | _ => exact Bool.or_false _
  | _ => exact Bool.or_false _

def Heeded (hall : Hall τ) : Prop :=
  ∀ errand ∈ hall.errands, ∃ outfit, (hall.users.map User.outfit)[errand.user]? = some outfit ∧
    errand.plan.Meets (Rejection.terms outfit.2.rejects) (outside outfit.2.rejects errand.sent)
      (Action.Ends (fun told _ => told = false) fun _ _ => True)

theorem Heeded.step (h : hall.Heeded) (hstep : Step regime hall hall') : hall'.Heeded := by
  unfold Heeded
  rw [hstep.outfits]
  cases hstep with
  | @call number user use here =>
      intro errand herrand
      rcases List.mem_append.mp herrand with hold | hnew
      · exact h errand hold
      · rw [List.mem_singleton.mp hnew]
        refine ⟨user.outfit, ?_, Use.rejects⟩
        rw [List.getElem?_map, here]
        rfl
  | turn split turns =>
      refine forall_mem_replace split h ?_
      rcases h _ (mem_of_split split) with ⟨outfit, houtfit, hmeets⟩
      exact ⟨outfit, houtfit, hmeets.turns turns⟩
  | @hears before after errand r answer sent plan hall'' split asks answers =>
      refine forall_mem_replace split h ?_
      rcases h _ (mem_of_split split) with ⟨outfit, houtfit, hmeets⟩
      refine ⟨outfit, houtfit, ?_⟩
      show plan.Meets _ (outside _ (errand.sent ++ sent)) _
      rw [answers.outside_eq]
      exact hmeets.asks asks answer rfl
  | elsewhere keys allowed => exact h

theorem Heeded.leads (h : hall.Heeded) (hleads : Leads regime hall hall') : hall'.Heeded := by
  induction hleads with
  | refl => exact h
  | tail _ hstep ih => exact ih.step hstep

/-- Whoever made an entry too far back for its semaphore never gets a slot. -/
theorem not_granted_of_outside (hopening : hall.Opening) (hleads : Leads regime hall hall')
    {errand : Errand τ} (herrand : errand ∈ hall'.errands) {user : User τ}
    (huser : hall'.users[errand.user]? = some user)
    (houtside : outside user.semaphore.rejects errand.sent = true) :
    errand.plan ≠ .pure (.ok ()) := by
  intro hplan
  have hopened : hall.Heeded := by
    intro errand herrand
    rw [hopening.noErrands] at herrand
    cases herrand
  rcases hopened.leads hleads errand herrand with ⟨outfit, houtfit, hmeets⟩
  rw [List.getElem?_map, huser] at houtfit
  cases houtfit
  rw [hplan] at hmeets
  have htold : outside user.semaphore.rejects errand.sent = false := hmeets
  rw [houtside] at htold
  cases htold

end Hall
end Turnstile
