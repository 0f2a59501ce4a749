import Turnstile.Blocking
import Turnstile.Cooperative
import Turnstile.Proofs.Premises

/-!
# What a waiter is told of its place

A waiter learns its first position from the length of the queue and every later one from its rank.
`Outlook` says what it was told last, and whether it has waited.  As long as no position is further
back than the one before, a waiter that was not rejected on entry is never rejected.

## Main statements

* `Blocking.wait_descends` and `Cooperative.wait_descends` - no waiter is rejected after it has
  waited, unless its positions increase.
-/

namespace Turnstile

open Redis

variable {τ : Type}

/-!
## Rejections
-/

/-- Whether a failure says that a position was too far back. -/
def Failure.exceeds : Failure τ → Bool
  | .semaphore (.positionExceeded ..) _ => true
  | _ => false

theorem Failure.eq_of_exceeds {e : Failure τ} (h : e.exceeds = true) :
    ∃ position maxPosition cause,
      e = .semaphore (.positionExceeded position maxPosition) cause := by
  unfold Failure.exceeds at h
  split at h
  · rename_i position maxPosition cause
    exact ⟨position, maxPosition, cause, rfl⟩
  · cases h

theorem Failure.exceeds_asStoreFailure (endpoint command key : String) (e : Failure τ) :
    (asStoreFailure endpoint command key e).exceeds = e.exceeds := by
  cases e with
  | client error =>
      dsimp only [asStoreFailure]
      cases error.kind.family <;> rfl
  | _ => rfl

theorem Failure.exceeds_ofUnmeasurable (e : Unmeasurable) :
    (Failure.ofUnmeasurable e : Failure τ).exceeds = false := by
  cases e <;> rfl

variable [Seconds τ]

theorem Ticket.one_le_capacity (ticket : Ticket τ) : 1 ≤ ticket.capacity := by
  by_cases hcapacity : ticket.capacity < 1
  · have hsound := ticket.sound
    unfold TicketForm.defect? at hsound
    rw [if_pos hcapacity] at hsound
    repeat' split at hsound
    all_goals cases hsound
  · omega

theorem Ticket.one_le_of_waiting {ticket : Ticket τ} {position : Int}
    (h : ticket.verdict position = .waiting) : 1 ≤ position := by
  have hcapacity := ticket.one_le_capacity
  unfold TicketForm.verdict at h
  split at h
  · cases h
  · omega

omit [Seconds τ] in
/-- Whoever has to wait at a position is not rejected further to the front. -/
theorem TicketForm.verdict_ne_rejected {form : TicketForm τ} {position position' : Int}
    (h : form.verdict position = .waiting) (hle : position' ≤ position) :
    form.verdict position' ≠ .rejected := by
  unfold TicketForm.verdict at h ⊢
  split at h
  · cases h
  · split at h
    · cases h
    · split
      · nofun
      · rw [if_neg (by omega)]
        nofun

/-!
## What a waiter knows
-/

/-- What a waiter was told of its place in the queue. -/
inductive Outlook where
  /-- No entry was asked for yet. -/
  | outside
  /-- The last position that it was told, and whether it has waited since it entered. -/
  | told (position : Int) (waited : Bool)
  /-- An entry was asked for, and it was not told its position. -/
  | untold
  deriving DecidableEq

namespace Outlook

def wait : Outlook → Outlook
  | .told position _ => .told position true
  | φ => φ

/-- What a waiter may ask for.  It enters the queue under `key` once, under the identity `id`, and
looks only for that, and only at position one or further back. -/
def allows (key id : String) (φ : Outlook) : (Premises τ).Request → Prop
  | .inl (.call _ command) =>
      match command with
      | .ping => True
      | .rpush key' id' => key' = key ∧ id' = id ∧ φ = .outside
      | .lpos key' id' =>
          key' = key ∧ id' = id ∧ ∃ position waited, φ = .told position waited ∧ 1 ≤ position
      | _ => False
  | .inl _ => True
  | .inr r =>
      match r with
      | .estimate .. => ∃ position waited, φ = .told position waited
      | .sleep _ => ∃ position waited, φ = .told position waited
      | .now => True
      | .record .. => True
      | .announce _ => True
      | _ => False

/-- The answers by which no position increases.  None of them says by itself that a position was too
far back, unless there is some noise. -/
def expects (noise : Prop) (φ : Outlook) : (r : (Premises τ).Request) → (Premises τ).Answer r → Prop
  | .inl (.call _ command), reply =>
      (∀ e, reply = Except.error e → e.exceeds = true → noise) ∧
        match command, reply with
        | .lpos .., reply => ∀ rank, reply = Except.ok rank →
            ∀ position waited, φ = .told position waited → 1 ≤ position →
              positionOfRank rank ≤ position
        | _, _ => True
  | .inl _, _ => True
  | .inr r, answer =>
      match r, answer with
      | .estimate .., reply => ∀ e, reply = Except.error e → e.exceeds = true → noise
      | .sleep _, reply => ∀ e, reply = Except.error e → e.exceeds = true → noise
      | .announce _, reply => ∀ e, reply = Except.error e → e.exceeds = true → noise
      | _, _ => True

def after (φ : Outlook) : (r : (Premises τ).Request) → (Premises τ).Answer r → Outlook
  | .inl (.call _ command), reply =>
      match command, reply with
      | .rpush .., .ok (length : Nat) => .told (length - 1) false
      | .rpush .., .error _ => .untold
      | .lpos .., .ok rank => .told (positionOfRank rank) true
      | .lpos .., .error _ => φ.wait
      | _, _ => φ
  | .inl _, _ => φ
  | .inr r, _ =>
      match r with
      | .estimate .. => φ.wait
      | .sleep _ => φ.wait
      | _ => φ

def terms (key id : String) (noise : Prop) : Plan.Terms (Premises τ) Outlook where
  ask φ r post := φ.allows key id r ∧ ∀ a, φ.expects noise r a → post (φ.after r a) a
  ask_mono hpost h := ⟨h.1, fun a ha => hpost _ a (h.2 a ha)⟩
  interruptible := True

/-- A waiter that is rejected has not waited. -/
def Rejects (noise : Prop) (φ : Outlook) (e : Failure τ) : Prop :=
  ∀ position maxPosition cause, e = .semaphore (.positionExceeded position maxPosition) cause →
    noise ∨ φ = .told position false

/-- The loop goes on at a position at which a waiter that has waited is not rejected. -/
def Stands (ticket : Ticket τ) (φ : Outlook) (position : Int) : Prop :=
  ∃ waited, φ = .told position waited ∧
    (waited = true → ticket.verdict position ≠ .rejected)

/-!
## Requests
-/

section Requests

variable {key id : String} {noise : Prop} {φ : Outlook} {failed : Outlook → Failure τ → Prop}

omit [Seconds τ] in
theorem rejects_of_quiet {e : Failure τ} (h : e.exceeds = true → noise) : Rejects noise φ e := by
  intro position maxPosition cause he
  subst he
  exact Or.inl (h rfl)

theorem keeps_connect {endpoint : String} {done : Outlook → Queue → Prop}
    (hdone : ∀ queue : Queue, queue.key = key → done φ queue)
    (hfailed : ∀ e : Failure τ, (e.exceeds = true → noise) → failed φ e) :
    Action.Keeps serveOnPremises (Service.connect endpoint key) (terms key id noise) φ done
      failed := by
  apply Turnstile.keeps_connect
  constructor
  · trivial
  · intro client _
    constructor
    · trivial
    · intro (reply : Except (Failure τ) Unit) hreply
      cases reply with
      | ok _ => exact hdone _ rfl
      | error e =>
          have hquiet := hreply.1 e rfl
          rw [← Failure.exceeds_asStoreFailure endpoint "PING" key] at hquiet
          exact ⟨⟨trivial, fun _ _ => hfailed _ hquiet⟩, hfailed _ hquiet⟩

theorem keeps_push {queue : Queue} {done : Outlook → Nat → Prop} (hqueue : queue.key = key)
    (hdone : ∀ length : Nat, done (.told (length - 1) false) length)
    (hfailed : ∀ e : Failure τ, (e.exceeds = true → noise) → failed .untold e) :
    Action.Keeps serveOnPremises (Service.push queue id) (terms key id noise) .outside done
      failed := by
  apply Turnstile.keeps_push
  constructor
  · exact ⟨hqueue, rfl, rfl⟩
  · intro (reply : Except (Failure τ) Nat) hreply
    cases reply with
    | ok length => exact hdone length
    | error e =>
        have hquiet := hreply.1 e rfl
        rw [← Failure.exceeds_asStoreFailure queue.label "RPUSH" queue.key] at hquiet
        exact hfailed _ hquiet

theorem keeps_position {queue : Queue} {position : Int} {waited : Bool}
    {done : Outlook → Option Nat → Prop} (hqueue : queue.key = key) (hposition : 1 ≤ position)
    (hdone : ∀ rank, positionOfRank rank ≤ position → done (.told (positionOfRank rank) true) rank)
    (hfailed : ∀ e : Failure τ, (e.exceeds = true → noise) → failed (.told position true) e) :
    Action.Keeps serveOnPremises (Service.position queue id) (terms key id noise)
      (.told position waited) done failed := by
  apply Turnstile.keeps_position
  constructor
  · exact ⟨hqueue, rfl, position, waited, rfl, hposition⟩
  · intro (reply : Except (Failure τ) (Option Nat)) hreply
    cases reply with
    | ok rank => exact hdone rank (hreply.2 rank rfl position waited rfl hposition)
    | error e =>
        have hquiet := hreply.1 e rfl
        rw [← Failure.exceeds_asStoreFailure queue.label "LPOS" queue.key] at hquiet
        exact hfailed _ hquiet

theorem meets_close {queue : Queue} {post : Outlook → Unit → Prop} (h : post φ ()) :
    ((Service.close queue).serve serveOnPremises).Meets
      (terms key id noise : Plan.Terms (Premises τ) Outlook) φ post :=
  Turnstile.meets_close ⟨trivial, fun _ _ => h⟩ h

theorem keeps_estimate {position capacity position' : Int} {base : τ} {waited : Bool}
    {done : Outlook → τ → Prop} (hdone : ∀ duration, done (.told position true) duration)
    (hfailed : ∀ e : Failure τ, (e.exceeds = true → noise) → failed (.told position true) e) :
    Action.Keeps serveOnPremises (Service.estimate position' capacity base) (terms key id noise)
      (.told position waited) done failed := by
  constructor
  · exact ⟨position, waited, rfl⟩
  · intro (reply : Except (Failure τ) τ) hreply
    cases reply with
    | ok duration => exact hdone duration
    | error e => exact hfailed e (hreply e rfl)

theorem keeps_sleep {position : Int} {duration : τ} {waited : Bool} {done : Outlook → Unit → Prop}
    (hdone : done (.told position true) ())
    (hfailed : ∀ e : Failure τ, (e.exceeds = true → noise) → failed (.told position true) e) :
    Action.Keeps serveOnPremises (Service.sleep duration) (terms key id noise)
      (.told position waited) done failed := by
  constructor
  · exact ⟨position, waited, rfl⟩
  · intro (reply : Except (Failure τ) Unit) hreply
    cases reply with
    | ok _ => exact hdone
    | error e => exact hfailed e (hreply e rfl)

theorem keeps_announce {position : Int} {done : Outlook → Unit → Prop} (hdone : done φ ())
    (hfailed : ∀ e : Failure τ, (e.exceeds = true → noise) → failed φ e) :
    Action.Keeps serveOnPremises (Service.announce position) (terms key id noise) φ done
      failed := by
  constructor
  · trivial
  · intro (reply : Except (Failure τ) Unit) hreply
    cases reply with
    | ok _ => exact hdone
    | error e => exact hfailed e (hreply e rfl)

theorem keeps_record {mode : Mode} {entry : Entry τ} {done : Outlook → Unit → Prop}
    (hdone : done φ ()) :
    Action.Keeps serveOnPremises (Service.record mode entry) (terms key id noise) φ done failed :=
  Action.keeps_lift (meets_ambient ⟨trivial, fun _ _ => hdone⟩)

theorem keeps_now {done : Outlook → τ → Prop} (hdone : ∀ time, done φ time) :
    Action.Keeps serveOnPremises Service.now (terms key id noise) φ done failed :=
  Action.keeps_lift (meets_ambient ⟨trivial, fun time _ => hdone time⟩)

theorem keeps_elapsedSince {started : τ} {done : Outlook → Int → Prop}
    (hdone : ∀ ms, done φ ms)
    (hfailed : ∀ e : Failure τ, (e.exceeds = true → noise) → failed φ e) :
    Action.Keeps serveOnPremises (Service.elapsedSince started) (terms key id noise) φ done
      failed := by
  apply Action.keeps_bind
  apply keeps_now
  intro time
  cases Seconds.toMillis (time - started) with
  | ok ms => exact Action.keeps_pure (hdone ms)
  | error e =>
      apply Action.keeps_throw
      apply hfailed
      intro hexceeds
      rw [Failure.exceeds_ofUnmeasurable] at hexceeds
      cases hexceeds

theorem keeps_admission {started : τ} {mode : Mode} {entry : Int → Entry τ}
    {done : Outlook → Int ⊕ Unit → Prop} (hdone : done φ (.inr ()))
    (hfailed : ∀ e : Failure τ, (e.exceeds = true → noise) → failed φ e) :
    Action.Keeps serveOnPremises
      (do
        let elapsed ← Service.elapsedSince started
        Service.record mode (entry elapsed)
        pure (.inr ()) : Operation Queue τ (Int ⊕ Unit))
      (terms key id noise) φ done failed := by
  apply Action.keeps_bind
  apply keeps_elapsedSince
  · intro elapsed
    apply Action.keeps_bind
    apply keeps_record
    exact Action.keeps_pure hdone
  · exact hfailed

end Requests
end Outlook

/-!
## Waits
-/

section Waits

variable {ticket : Ticket τ} {noise : Prop} {φ : Outlook} {queue : Queue} {started : τ}
  {position : Int} {done : Outlook → Int ⊕ Unit → Prop} {failed : Outlook → Failure τ → Prop}

theorem Outlook.Stands.rejects (h : Stands ticket φ position)
    (hverdict : ticket.verdict position = .rejected) :
    Rejects noise φ (.plain (.positionExceeded position ticket.maxPosition) : Failure τ) := by
  rcases h with ⟨waited, rfl, hwaited⟩
  intro position' maxPosition cause he
  cases he
  cases waited with
  | false => exact Or.inr rfl
  | true => exact absurd hverdict (hwaited rfl)

theorem Blocking.allowedSleep_descends {limit : Option τ} {duration : τ}
    {done : Outlook → τ → Prop} (hdone : ∀ duration, done φ duration)
    (hfailed : ∀ e : Failure τ, (e.exceeds = true → noise) → failed φ e) :
    Action.Keeps serveOnPremises (allowedSleep ticket limit started duration)
      (Outlook.terms ticket.queueKey ticket.id noise) φ done failed := by
  unfold allowedSleep
  cases limit with
  | none => exact Action.keeps_pure (hdone _)
  | some longest =>
      apply Action.keeps_bind
      apply Outlook.keeps_elapsedSince
      · intro elapsed
        dsimp only
        split
        · apply Action.keeps_bind
          apply Outlook.keeps_elapsedSince
          · intro elapsed'
            exact Action.keeps_throw (hfailed _ nofun)
          · exact hfailed
        · exact Action.keeps_pure (hdone _)
      · exact hfailed

theorem Blocking.look_descends {limit : Option τ} (hqueue : queue.key = ticket.queueKey)
    (hstands : φ.Stands ticket position) (hadmitted : ∀ φ', done φ' (.inr ()))
    (hmoved : ∀ φ' position', φ'.Stands ticket position' → done φ' (.inl position'))
    (hfailed : ∀ φ' e, φ'.Rejects noise e → failed φ' e) :
    Action.Keeps serveOnPremises (look queue ticket limit started position)
      (Outlook.terms ticket.queueKey ticket.id noise) φ done failed := by
  have hquiet : ∀ φ' (e : Failure τ), (e.exceeds = true → noise) → failed φ' e :=
    fun φ' e he => hfailed φ' e (Outlook.rejects_of_quiet he)
  unfold look
  cases hverdict : ticket.verdict position with
  | admitted => exact Outlook.keeps_admission (hadmitted _) (hquiet _)
  | rejected => exact Action.keeps_throw (hfailed _ _ (hstands.rejects hverdict))
  | waiting =>
      rcases hstands with ⟨waited, rfl, _⟩
      apply Action.keeps_bind
      apply Outlook.keeps_estimate
      · intro duration
        apply Action.keeps_bind
        apply allowedSleep_descends
        · intro duration'
          apply Action.keeps_bind
          apply Outlook.keeps_sleep
          · apply Action.keeps_bind
            apply Outlook.keeps_position hqueue (Ticket.one_le_of_waiting hverdict)
            · intro rank hle
              apply Action.keeps_bind
              apply Outlook.keeps_record
              apply Action.keeps_pure
              apply hmoved
              exact ⟨true, rfl, fun _ => TicketForm.verdict_ne_rejected hverdict hle⟩
            · exact hquiet _
          · exact hquiet _
        · exact hquiet _
      · exact hquiet _

theorem Cooperative.look_descends (hqueue : queue.key = ticket.queueKey)
    (hstands : φ.Stands ticket position) (hadmitted : ∀ φ', done φ' (.inr ()))
    (hmoved : ∀ φ' position', φ'.Stands ticket position' → done φ' (.inl position'))
    (hfailed : ∀ φ' e, φ'.Rejects noise e → failed φ' e) :
    Action.Keeps serveOnPremises (look queue ticket started position)
      (Outlook.terms ticket.queueKey ticket.id noise) φ done failed := by
  have hquiet : ∀ φ' (e : Failure τ), (e.exceeds = true → noise) → failed φ' e :=
    fun φ' e he => hfailed φ' e (Outlook.rejects_of_quiet he)
  unfold look
  cases hverdict : ticket.verdict position with
  | admitted => exact Outlook.keeps_admission (hadmitted _) (hquiet _)
  | rejected =>
      apply Action.keeps_bind
      apply Outlook.keeps_record
      exact Action.keeps_throw (hfailed _ _ (hstands.rejects hverdict))
  | waiting =>
      rcases hstands with ⟨waited, rfl, _⟩
      apply Action.keeps_bind
      apply Outlook.keeps_estimate
      · intro duration
        apply Action.keeps_bind
        apply Outlook.keeps_record
        apply Action.keeps_bind
        apply Outlook.keeps_sleep
        · apply Action.keeps_bind
          apply Outlook.keeps_position hqueue (Ticket.one_le_of_waiting hverdict)
          · intro rank hle
            have hnext : Action.Keeps serveOnPremises
                (do
                  Service.record .cooperative (.moved (positionOfRank rank))
                  pure (.inl (positionOfRank rank)) : Operation Queue τ (Int ⊕ Unit))
                (Outlook.terms ticket.queueKey ticket.id noise)
                (.told (positionOfRank rank) true) done failed := by
              apply Action.keeps_bind
              apply Outlook.keeps_record
              apply Action.keeps_pure
              apply hmoved
              exact ⟨true, rfl, fun _ => TicketForm.verdict_ne_rejected hverdict hle⟩
            split
            · apply Action.keeps_bind
              apply Outlook.keeps_record
              exact hnext
            · exact hnext
          · exact hquiet _
        · exact hquiet _
      · exact hquiet _

/-- A waiter of either kind is told its first position when it enters, and is rejected then or not at
all. -/
theorem Blocking.wait_descends {limit : Option τ} :
    Action.Keeps serveOnPremises (wait ticket limit)
      (Outlook.terms ticket.queueKey ticket.id noise) .outside (fun _ _ => True)
      (Outlook.Rejects noise) := by
  apply Action.keeps_bind
  apply Outlook.keeps_connect
  · intro queue hqueue
    apply Action.keeps_ensuring
    apply Action.keeps_bind
    apply Outlook.keeps_now
    intro started
    apply Action.keeps_bind
    apply Outlook.keeps_push hqueue
    · intro length
      apply Action.keeps_bind
      apply Outlook.keeps_record
      apply Action.keeps_repeatFrom (Outlook.Stands ticket)
      · exact ⟨false, rfl, nofun⟩
      · intro φ position hstands
        apply look_descends hqueue hstands
        · intro φ'
          exact Outlook.meets_close trivial
        · intro φ' position' hstands'
          exact hstands'
        · intro φ' e he
          exact Outlook.meets_close he
    · intro e he
      exact Outlook.meets_close (Outlook.rejects_of_quiet he)
  · intro e he
    exact Outlook.rejects_of_quiet he

theorem Cooperative.entered_descends {watched : Bool} (hqueue : queue.key = ticket.queueKey) :
    Action.Keeps serveOnPremises
      (do
        if watched then
          Service.announce position
        Service.record .cooperative (.entered ticket.queueKey position)
        Action.repeatFrom position (look queue ticket started) : Operation Queue τ Unit)
      (Outlook.terms ticket.queueKey ticket.id noise) (.told position false) (fun _ _ => True)
      (Outlook.Rejects noise) := by
  have hloop : Action.Keeps serveOnPremises
      (do
        Service.record .cooperative (.entered ticket.queueKey position)
        Action.repeatFrom position (look queue ticket started) : Operation Queue τ Unit)
      (Outlook.terms ticket.queueKey ticket.id noise) (.told position false) (fun _ _ => True)
      (Outlook.Rejects noise) := by
    apply Action.keeps_bind
    apply Outlook.keeps_record
    apply Action.keeps_repeatFrom (Outlook.Stands ticket)
    · exact ⟨false, rfl, nofun⟩
    · intro φ position' hstands
      apply look_descends hqueue hstands
      · intro φ'
        trivial
      · intro φ' position'' hstands'
        exact hstands'
      · intro φ' e he
        exact he
  cases watched with
  | false => exact hloop
  | true =>
      apply Action.keeps_bind
      apply Outlook.keeps_announce hloop
      intro e he
      exact Outlook.rejects_of_quiet he

theorem Cooperative.wait_descends {watched : Bool} :
    Action.Keeps serveOnPremises (wait ticket watched)
      (Outlook.terms ticket.queueKey ticket.id noise) .outside (fun _ _ => True)
      (Outlook.Rejects noise) := by
  apply Action.meets_serve_bind
  apply Action.meets_run
  apply Outlook.keeps_connect
  · intro queue hqueue
    apply Action.meets_serve_bind
    apply meets_ambient
    constructor
    · trivial
    · intro (started : τ) _
      apply Action.meets_run
      apply Outlook.keeps_push hqueue
      · intro length
        apply Action.meets_run
        refine (entered_descends hqueue).mono ?_ ?_
        · intro φ _ _
          apply Action.meets_serve_bind
          exact Outlook.meets_close trivial
        · intro φ e he
          apply Action.meets_serve_bind
          exact Outlook.meets_close he
      · intro e he
        apply Action.meets_serve_bind
        exact Outlook.meets_close (Outlook.rejects_of_quiet he)
  · intro e he
    exact Outlook.rejects_of_quiet he

end Waits
end Turnstile
