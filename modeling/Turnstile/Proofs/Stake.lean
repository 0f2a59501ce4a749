import Turnstile.Proofs.CleanUp
import Turnstile.Proofs.Redis.Execution

/-!
# What is at stake in a queue

A request for a slot makes an entry in its queue, once.  If it is refused, a head of the queue is
removed for that entry, and again once.  Both is so whatever its surroundings answer, and however
often it is interrupted while it waits, as long as its clean-up can reach the server.

`Stake` says how far a request has come with its entry.  An entry counts as made only when the
request was told so: when the answer is lost on the way no head is removed for it.

## Main statements

* `Blocking.acquire_repays` and `Cooperative.acquire_repays` - a refused request has removed a head
  for its entry if it was told that the entry was made.
-/

namespace Turnstile

open Redis

variable {τ : Type} [Seconds τ]

/-- What a request for a slot has at stake in its queue. -/
inductive Stake where
  /-- It has no identity yet. -/
  | unnamed
  | named (id : String)
  /-- Its entry was asked for, and it was not told that the entry was made. -/
  | unsure (id : String)
  | entered (id : String)
  /-- A head was removed for its entry. -/
  | repaid (id : String)
  deriving DecidableEq

/-- Whether a failure tells that a request for a slot was refused: it stood too far back, or ran out
of time, or was interrupted, which happens to cooperative requests only. -/
def Failure.Refuses (mode : Mode) (e : Failure τ) : Prop :=
  match mode with
  | .blocking => Blocking.isRefusal e = true
  | .cooperative => Cooperative.isRefusal e = true ∨ e.isA .timeout = true

namespace Stake

def repay : Stake → Stake
  | .entered id => .repaid id
  | φ => φ

def allows (key : String) (φ : Stake) : (Premises τ).Request → Prop
  | .inl (.call _ command) =>
      match command with
      | .ping => True
      | .rpush key' id => key' = key ∧ φ = .named id
      | .lpos key' _ => key' = key
      | .lpop key' count => key' = key ∧ count = 1 ∧ ∃ id, φ = .entered id
      | .expire key' seconds => key' = key ∧ 1 ≤ seconds
      | .llen _ => False
  | .inl _ => True
  | .inr r =>
      match r with
      | .freshId => φ = .unnamed
      | .announce _ => False
      | .takeOldest => False
      | _ => True

/-- The answers under which a clean-up reaches its server, and under which no command fails in a way
that refuses the request for a slot. -/
def expects (φ : Stake) : (r : (Premises τ).Request) → (Premises τ).Answer r → Prop
  | .inl (.call _ command), reply =>
      (∀ e, reply = Except.error e → e.Ordinary ∨ e = .interrupted) ∧
        (command = .ping → (∃ id, φ = .entered id) → ∀ e, reply ≠ Except.error e)
  | _, _ => True

def after (φ : Stake) : (r : (Premises τ).Request) → (Premises τ).Answer r → Stake
  | .inl (.call _ command), reply =>
      match command, reply with
      | .rpush _ id, .ok _ => .entered id
      | .rpush _ id, .error _ => .unsure id
      | .lpop .., _ => φ.repay
      | _, _ => φ
  | .inr r, answer =>
      match r, answer with
      | .freshId, id => .named id
      | _, _ => φ
  | _, _ => φ

def terms (key : String) : Plan.Terms (Premises τ) Stake where
  ask φ r post := φ.allows key r ∧ ∀ a, φ.expects r a → post (φ.after r a) a
  ask_mono hpost h := ⟨h.1, fun a ha => hpost _ a (h.2 a ha)⟩
  interruptible := True

end Stake

/-!
## Looking at a queue
-/

def Looks (key : String) : (Premises τ).Request → Prop
  | .inl (.call _ command) =>
      match command with
      | .lpos key' _ => key' = key
      | _ => False
  | .inl _ => False
  | .inr r =>
      match r with
      | .estimate .. => True
      | .sleep _ => True
      | .now => True
      | .record .. => True
      | _ => False

section Looks

universe u

variable {Φ : Type u} {terms : Plan.Terms (Premises τ) Φ} {key : String} {φ : Φ}
  {failed : Φ → Failure τ → Prop}

/-- A queue can be looked at in a standing, and no look leads to another one. -/
def AtRest (terms : Plan.Terms (Premises τ) Φ) (key : String) (φ : Φ) : Prop :=
  ∀ r, Looks key r → terms.Quiet (fun φ' => φ' = φ) r

namespace AtRest

theorem ask (h : AtRest terms key φ) {r : (Premises τ).Request}
    {post : Φ → (Premises τ).Answer r → Prop} (hr : Looks key r) (hpost : ∀ a, post φ a) :
    terms.ask φ r post :=
  h r hr φ post rfl hpost

theorem keeps_estimate (h : AtRest terms key φ) {position capacity : Int} {base : τ}
    {done : Φ → τ → Prop} (hdone : ∀ duration, done φ duration) (hfailed : ∀ e, failed φ e) :
    Action.Keeps serveOnPremises (Service.estimate position capacity base) terms φ done failed :=
  meets_ambient (h.ask trivial fun _ => Action.ends_of_forall hdone hfailed)

theorem keeps_sleep (h : AtRest terms key φ) {duration : τ} {done : Φ → Unit → Prop}
    (hdone : done φ ()) (hfailed : ∀ e, failed φ e) :
    Action.Keeps serveOnPremises (Service.sleep duration) terms φ done failed :=
  meets_ambient (h.ask trivial fun _ => Action.ends_of_forall (fun _ => hdone) hfailed)

theorem keeps_record (h : AtRest terms key φ) {mode : Mode} {entry : Entry τ}
    {done : Φ → Unit → Prop} (hdone : done φ ()) :
    Action.Keeps serveOnPremises (Service.record mode entry) terms φ done failed :=
  Action.keeps_lift (meets_ambient (h.ask trivial fun _ => hdone))

theorem keeps_now (h : AtRest terms key φ) {done : Φ → τ → Prop}
    (hdone : ∀ time, done φ time) :
    Action.Keeps serveOnPremises Service.now terms φ done failed :=
  Action.keeps_lift (meets_ambient (h.ask trivial hdone))

theorem keeps_elapsedSince (h : AtRest terms key φ) {started : τ} {done : Φ → Int → Prop}
    (hdone : ∀ ms, done φ ms) (hfailed : ∀ e, failed φ e) :
    Action.Keeps serveOnPremises (Service.elapsedSince started) terms φ done failed := by
  apply Action.keeps_bind
  apply h.keeps_now
  intro time
  cases Seconds.toMillis (time - started) with
  | ok ms => exact Action.keeps_pure (hdone ms)
  | error e => exact Action.keeps_throw (hfailed _)

theorem keeps_admission (h : AtRest terms key φ) {started : τ} {mode : Mode}
    {entry : Int → Entry τ} {done : Φ → Int ⊕ Unit → Prop} (hdone : done φ (.inr ()))
    (hfailed : ∀ e, failed φ e) :
    Action.Keeps serveOnPremises
      (do
        let elapsed ← Service.elapsedSince started
        Service.record mode (entry elapsed)
        pure (.inr ()) : Operation Queue τ (Int ⊕ Unit))
      terms φ done failed := by
  apply Action.keeps_bind
  refine h.keeps_elapsedSince ?_ hfailed
  intro elapsed
  apply Action.keeps_bind
  apply h.keeps_record
  exact Action.keeps_pure hdone

theorem keeps_position (h : AtRest terms key φ) {queue : Queue} {id : String}
    {done : Φ → Option Nat → Prop} (hqueue : queue.key = key) (hdone : ∀ rank, done φ rank)
    (hfailed : ∀ e, failed φ e) :
    Action.Keeps serveOnPremises (Service.position queue id) terms φ done failed := by
  apply Turnstile.keeps_position
  refine h.ask hqueue fun (reply : Except (Failure τ) (Option Nat)) => ?_
  cases reply with
  | ok rank => exact hdone rank
  | error e => exact hfailed _

end AtRest

theorem Blocking.allowedSleep_rests (h : AtRest terms key φ) {ticket : Ticket τ}
    {limit : Option τ} {started duration : τ} {done : Φ → τ → Prop}
    (hdone : ∀ duration, done φ duration) (hfailed : ∀ e, failed φ e) :
    Action.Keeps serveOnPremises (allowedSleep ticket limit started duration) terms φ
      done failed := by
  unfold allowedSleep
  cases limit with
  | none => exact Action.keeps_pure (hdone _)
  | some longest =>
      apply Action.keeps_bind
      refine h.keeps_elapsedSince ?_ hfailed
      intro elapsed
      dsimp only
      split
      · apply Action.keeps_bind
        refine h.keeps_elapsedSince ?_ hfailed
        intro elapsed'
        exact Action.keeps_throw (hfailed _)
      · exact Action.keeps_pure (hdone _)

theorem Blocking.look_rests (h : AtRest terms key φ) {queue : Queue} {ticket : Ticket τ}
    {limit : Option τ} {started : τ} {position : Int} {done : Φ → Int ⊕ Unit → Prop}
    (hqueue : queue.key = key) (hdone : ∀ next, done φ next) (hfailed : ∀ e, failed φ e) :
    Action.Keeps serveOnPremises (look queue ticket limit started position) terms φ
      done failed := by
  unfold look
  cases ticket.verdict position with
  | admitted => exact h.keeps_admission (hdone _) hfailed
  | rejected => exact Action.keeps_throw (hfailed _)
  | waiting =>
      apply Action.keeps_bind
      refine h.keeps_estimate ?_ hfailed
      intro duration
      apply Action.keeps_bind
      refine allowedSleep_rests h ?_ hfailed
      intro duration'
      apply Action.keeps_bind
      refine h.keeps_sleep ?_ hfailed
      apply Action.keeps_bind
      refine h.keeps_position hqueue ?_ hfailed
      intro rank
      apply Action.keeps_bind
      apply h.keeps_record
      exact Action.keeps_pure (hdone _)

theorem Cooperative.look_rests (h : AtRest terms key φ) {queue : Queue} {ticket : Ticket τ}
    {started : τ} {position : Int} {done : Φ → Int ⊕ Unit → Prop} (hqueue : queue.key = key)
    (hdone : ∀ next, done φ next) (hfailed : ∀ e, failed φ e) :
    Action.Keeps serveOnPremises (look queue ticket started position) terms φ done failed := by
  unfold look
  cases ticket.verdict position with
  | admitted => exact h.keeps_admission (hdone _) hfailed
  | rejected =>
      apply Action.keeps_bind
      apply h.keeps_record
      exact Action.keeps_throw (hfailed _)
  | waiting =>
      apply Action.keeps_bind
      refine h.keeps_estimate ?_ hfailed
      intro duration
      apply Action.keeps_bind
      apply h.keeps_record
      apply Action.keeps_bind
      refine h.keeps_sleep ?_ hfailed
      apply Action.keeps_bind
      refine h.keeps_position hqueue ?_ hfailed
      intro rank
      have hnext : Action.Keeps serveOnPremises
          (do
            Service.record .cooperative (.moved (positionOfRank rank))
            pure (.inl (positionOfRank rank)) : Operation Queue τ (Int ⊕ Unit))
          terms φ done failed := by
        apply Action.keeps_bind
        apply h.keeps_record
        exact Action.keeps_pure (hdone _)
      split
      · apply Action.keeps_bind
        apply h.keeps_record
        exact hnext
      · exact hnext

end Looks

/-!
## Requests
-/

namespace Stake

variable {key : String} {φ : Stake} {failed : Stake → Failure τ → Prop}

theorem atRest : AtRest (terms key : Plan.Terms (Premises τ) Stake) key φ := by
  intro r hr φ' post hφ' hpost
  rcases r with (_ | ⟨client, command⟩ | _) | r
  · exact hr.elim
  · cases command with
    | lpos key' id => exact ⟨hr, fun a _ => hpost a⟩
    | _ => exact hr.elim
  · exact hr.elim
  · cases r with
    | estimate position capacity base => exact ⟨trivial, fun a _ => hpost a⟩
    | sleep duration => exact ⟨trivial, fun a _ => hpost a⟩
    | now => exact ⟨trivial, fun a _ => hpost a⟩
    | record mode entry => exact ⟨trivial, fun a _ => hpost a⟩
    | _ => exact hr.elim

theorem cleansUp (id : String) :
    CleansUp (terms key : Plan.Terms (Premises τ) Stake) key False (.entered id) (.repaid id) where
  renews r hr φ post _ hpost := by
    rcases r with (_ | ⟨client, command⟩ | _) | r
    · exact ⟨trivial, fun a _ => hpost a⟩
    · cases command with
      | ping => exact ⟨trivial, fun a _ => hpost a⟩
      | expire key' seconds => exact ⟨hr, fun a _ => hpost a⟩
      | _ => exact hr.elim
    · exact ⟨trivial, fun a _ => hpost a⟩
    · cases r with
      | record mode entry => exact ⟨trivial, fun a _ => hpost a⟩
      | _ => exact hr.elim
  reaches client post hok herror := by
    refine ⟨trivial, fun (reply : Except (Failure τ) Unit) hreply => ?_⟩
    cases reply with
    | ok _ => exact hok
    | error e => exact absurd rfl (hreply.2 rfl ⟨id, rfl⟩ e)
  removes client post hpost := ⟨⟨rfl, rfl, id, rfl⟩, fun a _ => hpost a⟩

omit [Seconds τ] in
theorem isRefusal_asStoreFailure {e : Failure τ} (he : e.Ordinary ∨ e = .interrupted)
    (endpoint command key : String) :
    Blocking.isRefusal (asStoreFailure endpoint command key e) = false := by
  apply Blocking.isRefusal_asStoreFailure
  rcases he with hordinary | rfl
  · exact hordinary.isRefusal
  · rfl

theorem keeps_connect {endpoint : String} {done : Stake → Queue → Prop}
    (hdone : ∀ queue : Queue, queue.key = key → done φ queue)
    (hfailed : ∀ e, Blocking.isRefusal e = false → failed φ e) :
    Action.Keeps serveOnPremises (Service.connect endpoint key) (terms key) φ done failed := by
  apply Turnstile.keeps_connect
  refine ⟨trivial, fun client _ => ⟨trivial, ?_⟩⟩
  intro (reply : Except (Failure τ) Unit) hreply
  cases reply with
  | ok _ => exact hdone _ rfl
  | error e =>
      have he := isRefusal_asStoreFailure (hreply.1 e rfl) endpoint "PING" key
      exact ⟨⟨trivial, fun _ _ => hfailed _ he⟩, hfailed _ he⟩

theorem keeps_push {queue : Queue} {id : String} {done : Stake → Nat → Prop}
    (hkey : queue.key = key) (hdone : ∀ length, done (.entered id) length)
    (hfailed : ∀ e, Blocking.isRefusal e = false → failed (.unsure id) e) :
    Action.Keeps serveOnPremises (Service.push queue id) (terms key) (.named id) done failed := by
  apply Turnstile.keeps_push
  refine ⟨⟨hkey, rfl⟩, ?_⟩
  intro (reply : Except (Failure τ) Nat) hreply
  cases reply with
  | ok length => exact hdone length
  | error e => exact hfailed _ (isRefusal_asStoreFailure (hreply.1 e rfl) _ _ _)

theorem meets_close {queue : Queue} {post : Stake → Unit → Prop} (h : post φ ()) :
    ((Service.close queue).serve serveOnPremises).Meets
      (terms key : Plan.Terms (Premises τ) Stake) φ post :=
  Turnstile.meets_close ⟨trivial, fun _ _ => h⟩ h

theorem keeps_hold {ticket : Ticket τ} {done : Stake → Unit → Prop} (hdone : done φ ()) :
    Action.Keeps serveOnPremises (Service.hold ticket) (terms key) φ done failed :=
  Action.keeps_lift (meets_ambient ⟨trivial, fun _ _ => hdone⟩)

theorem ne_entered_of_repaid {φ : Stake} {id : String} (hrepaid : φ = .repaid id) (id' : String) :
    φ ≠ .entered id' := by
  rw [hrepaid]
  simp

theorem newTicket_keeps {semaphore : Semaphore τ} {done : Stake → Ticket τ → Prop}
    (hdone : ∀ ticket : Ticket τ, ticket.queueKey = semaphore.queueKey →
      done (.named ticket.id) ticket)
    (hfailed : ∀ id e, failed (.named id) e) :
    Action.Keeps serveOnPremises semaphore.newTicket (terms key) .unnamed done failed := by
  apply Turnstile.keeps_newTicket
  refine ⟨rfl, fun (id : String) _ => ⟨fun ticket hticket => ?_, hfailed id⟩⟩
  have hform := TicketForm.toTicketForm_of_issue hticket
  have hid : ticket.id = id := congrArg TicketForm.id hform
  show done (.named id) ticket
  rw [← hid]
  exact hdone ticket (congrArg TicketForm.queueKey hform)

end Stake

/-!
## Requests for a slot
-/

namespace Blocking

theorem cleanUp_repays {ticket : Ticket τ} (id : String) :
    Action.Keeps serveOnPremises (cleanUp ticket) (Stake.terms ticket.queueKey) (.entered id)
      (fun φ _ => φ = .repaid id) fun φ _ => φ = .repaid id := by
  refine (cleanUp_keeps (Stake.cleansUp id)).mono (fun _ _ hφ => hφ) ?_
  intro φ e hended
  rcases hended with hrepaid | ⟨hfallible, _⟩
  · exact hrepaid
  · exact hfallible.elim

theorem wait_enters {ticket : Ticket τ} {limit : Option τ} :
    Action.Keeps serveOnPremises (wait ticket limit) (Stake.terms ticket.queueKey)
      (.named ticket.id) (fun φ _ => φ = .entered ticket.id)
      fun φ e => φ = .entered ticket.id ∨ isRefusal e = false ∧ ∀ id, φ ≠ .entered id := by
  have hnamed : ∀ id, Stake.named ticket.id ≠ .entered id := fun _ => nofun
  have hunsure : ∀ id, Stake.unsure ticket.id ≠ .entered id := fun _ => nofun
  apply Action.keeps_bind
  refine Stake.keeps_connect ?_ fun e he => Or.inr ⟨he, hnamed⟩
  intro queue hqueue
  apply Action.keeps_ensuring
  apply Action.keeps_bind
  apply Stake.atRest.keeps_now
  intro started
  apply Action.keeps_bind
  refine Stake.keeps_push hqueue ?_ fun e he => Stake.meets_close (Or.inr ⟨he, hunsure⟩)
  intro length
  apply Action.keeps_bind
  apply Stake.atRest.keeps_record
  -- The entry stays as long as the loop goes round.
  refine Action.keeps_repeatFrom (fun φ _ => φ = .entered ticket.id) rfl ?_
  intro φ position hentered
  subst hentered
  refine look_rests Stake.atRest hqueue ?_ fun e => Stake.meets_close (Or.inl rfl)
  intro next
  cases next with
  | inl position' => rfl
  | inr _ => exact Stake.meets_close rfl

/-- A request for a slot that is refused has removed a head for the entry that it was told of. -/
theorem acquire_repays {semaphore : Semaphore τ} {limit : Option τ} :
    Action.Keeps serveOnPremises (acquire semaphore limit) (Stake.terms semaphore.queueKey)
      .unnamed (fun _ _ => True) fun φ e => e.Refuses .blocking → ∀ id, φ ≠ .entered id := by
  apply Action.keeps_bind
  refine Stake.newTicket_keeps ?_ fun _ _ _ _ => nofun
  intro ticket hticket
  rw [← hticket]
  apply Action.keeps_bind
  apply Action.keeps_tryCatch
  refine wait_enters.mono ?_ ?_
  · intro φ _ _
    exact Stake.keeps_hold trivial
  · intro φ e hended
    rcases hended with rfl | ⟨he, hentered⟩
    · split
      · apply Action.keeps_bind
        refine (cleanUp_repays ticket.id).mono ?_ ?_
        · intro φ _ hrepaid
          exact Action.keeps_throw fun _ => Stake.ne_entered_of_repaid hrepaid
        · intro φ e' hrepaid _
          exact Stake.ne_entered_of_repaid hrepaid
      · rename_i hrefusal
        exact Action.keeps_throw fun hrefuses => absurd hrefuses hrefusal
    · rw [he]
      exact Action.keeps_throw fun _ => hentered

end Blocking

namespace Cooperative

theorem cleanUp_repays {ticket : Ticket τ} (id : String) :
    Action.Keeps serveOnPremises (cleanUp ticket) (Stake.terms ticket.queueKey) (.entered id)
      (fun φ _ => φ = .repaid id) fun φ _ => φ = .repaid id := by
  refine (cleanUp_keeps (Stake.cleansUp id)).mono ?_ ?_
  · intro φ _ hended
    rcases hended with hrepaid | ⟨hfallible, _⟩
    · exact hrepaid
    · exact hfallible.elim
  · intro φ e hended
    rcases hended with hrepaid | ⟨hfallible, _⟩
    · exact hrepaid
    · exact hfallible.elim

/-- How a request stands when its wait has ended: its entry was made if it was told so. -/
def Shows (id : String) (φ : Stake) (waited : Waited τ) : Prop :=
  if waited.enqueued then φ = .entered id else ∀ id', φ ≠ .entered id'

theorem follow_enters {ticket : Ticket τ} :
    ((follow ticket false).serve serveOnPremises).Meets (Stake.terms ticket.queueKey)
      (.named ticket.id) (Shows ticket.id) := by
  have hnamed : ∀ id, Stake.named ticket.id ≠ .entered id := fun _ => nofun
  have hunsure : ∀ id, Stake.unsure ticket.id ≠ .entered id := fun _ => nofun
  apply Action.meets_run
  refine Stake.keeps_connect ?_ fun e _ => hnamed
  intro queue hqueue
  apply Action.meets_serve_bind
  apply meets_ambient
  refine Stake.atRest.ask trivial fun (started : τ) => ?_
  apply Action.meets_run
  refine Stake.keeps_push hqueue ?_ ?_
  · intro length
    apply Action.meets_run
    apply Action.keeps_bind
    apply Stake.atRest.keeps_record
    refine Action.keeps_repeatFrom (fun φ _ => φ = .entered ticket.id) rfl ?_
    intro φ position hentered
    subst hentered
    refine look_rests Stake.atRest hqueue ?_ ?_
    · intro next
      cases next with
      | inl position' => rfl
      | inr _ =>
          apply Action.meets_serve_bind
          exact Stake.meets_close rfl
    · intro e
      apply Action.meets_serve_bind
      exact Stake.meets_close rfl
  · intro e _
    apply Action.meets_serve_bind
    exact Stake.meets_close hunsure

omit [Seconds τ] in
theorem enqueued_limited (lapse : Lapse) (waited : Waited τ) :
    (limited lapse (some waited)).enqueued = waited.enqueued := by
  rcases waited with ⟨enqueued, outcome⟩
  cases lapse with
  | inTime => rfl
  | expired =>
      cases outcome with
      | ok _ => rfl
      | error e => cases e <;> rfl
  | interrupted => rfl

theorem followWithin_enters {ticket : Ticket τ} {timeout : Option τ} :
    ((followWithin ticket timeout).serve serveOnPremises).Meets (Stake.terms ticket.queueKey)
      (.named ticket.id) (Shows ticket.id) := by
  unfold followWithin
  cases timeout with
  | none => exact follow_enters
  | some limit =>
      refine ⟨fun _ _ => nofun, fun _ => follow_enters.mono ?_⟩
      intro φ waited hshows lapse _
      show Shows ticket.id φ (limited lapse (some waited))
      unfold Shows
      rw [enqueued_limited]
      exact hshows

theorem acquire_repays {semaphore : Semaphore τ} {timeout : Option τ} :
    Action.Keeps serveOnPremises (acquire semaphore timeout) (Stake.terms semaphore.queueKey)
      .unnamed (fun _ _ => True) fun φ e => e.Refuses .cooperative → ∀ id, φ ≠ .entered id := by
  apply Action.keeps_bind
  refine Stake.newTicket_keeps ?_ fun _ _ _ _ => nofun
  intro ticket hticket
  rw [← hticket]
  apply Action.keeps_bind
  apply Stake.atRest.keeps_now
  intro started
  apply Action.keeps_bind
  apply Action.keeps_lift
  refine followWithin_enters.mono ?_
  intro φ waited hshows
  rcases waited with ⟨enqueued, outcome⟩
  cases outcome with
  | ok _ => exact Stake.keeps_hold trivial
  | error e =>
      cases enqueued with
      | false =>
          dsimp only
          split
          · apply Action.keeps_bind
            exact Stake.atRest.keeps_elapsedSince (fun _ => Action.keeps_throw fun _ => hshows)
              fun _ _ => hshows
          · rw [Bool.and_false]
            exact Action.keeps_throw fun _ => hshows
      | true =>
          rw [show φ = .entered ticket.id from hshows]
          dsimp only
          split
          · apply Action.keeps_bind
            refine (cleanUp_repays ticket.id).mono ?_ ?_
            · intro φ' _ hrepaid
              apply Action.keeps_bind
              apply Stake.atRest.keeps_elapsedSince
              · intro elapsed
                exact Action.keeps_throw fun _ => Stake.ne_entered_of_repaid hrepaid
              · intro e' _
                exact Stake.ne_entered_of_repaid hrepaid
            · intro φ' e' hrepaid _
              exact Stake.ne_entered_of_repaid hrepaid
          · rename_i htimeout
            rw [Bool.and_true]
            split
            · apply Action.keeps_bind
              refine (cleanUp_repays ticket.id).mono ?_ ?_
              · intro φ' _ hrepaid
                exact Action.keeps_throw fun _ => Stake.ne_entered_of_repaid hrepaid
              · intro φ' e' hrepaid _
                exact Stake.ne_entered_of_repaid hrepaid
            · rename_i hrefusal
              refine Action.keeps_throw fun hrefuses => ?_
              exact absurd hrefuses (not_or.mpr ⟨hrefusal, htimeout⟩)

end Cooperative
end Turnstile
