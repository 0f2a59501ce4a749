import Turnstile.Blocking
import Turnstile.Cooperative
import Turnstile.Proofs.Premises

/-!
# Clean-ups

A clean-up removes the head of a queue and renews the expiry of the queue.  Whoever watches it sees
one standing give way to another when the head is removed, and nothing else.  `CleansUp` says what
terms have to allow for this, and under such terms both ways to clean up are judged at once.

## Main statements

* `Blocking.cleanUp_keeps` and `Cooperative.cleanUp_keeps` - a clean-up removes one head, unless it
  cannot reach its server.
-/

namespace Turnstile

open Redis

universe u

variable {τ : Type} {Φ : Type u} [Seconds τ]

def Renews (key : String) : (Premises τ).Request → Prop
  | .inl (.call _ command) =>
      match command with
      | .ping => True
      | .expire key' seconds => key' = key ∧ 1 ≤ seconds
      | _ => False
  | .inl _ => True
  | .inr (.record ..) => True
  | .inr _ => False

/-- Terms under which a clean-up leads from one standing to another.  The head is removed once, and
everything else leaves a standing as it is.  Where a clean-up is not fallible its server can be
reached before the head is removed. -/
structure CleansUp (terms : Plan.Terms (Premises τ) Φ) (key : String) (fallible : Prop)
    (before after : Φ) : Prop where
  renews : ∀ r, Renews key r → terms.Quiet (fun φ => φ = before ∨ φ = after) r
  reaches : ∀ client (post : Φ → Except (Failure τ) Unit → Prop), post before (.ok ()) →
    (fallible → ∀ e, post before (.error e)) → terms.ask before (.inl (.call client .ping)) post
  removes : ∀ client (post : Φ → Except (Failure τ) (Option (List Item)) → Prop),
    (∀ reply, post after reply) → terms.ask before (.inl (.call client (.lpop key 1))) post

theorem Ticket.one_le_expiry (ticket : Ticket τ) : 1 ≤ ticket.expiry := by
  by_cases hexpiry : ticket.expiry < 1
  · have hsound := ticket.sound
    unfold TicketForm.defect? at hsound
    rw [if_pos hexpiry] at hsound
    repeat' split at hsound
    all_goals cases hsound
  · omega

theorem TicketForm.toTicketForm_of_issue {form : TicketForm τ} {ticket : Ticket τ}
    (h : form.issue = .ok ticket) : ticket.toTicketForm = form := by
  unfold TicketForm.issue at h
  split at h
  · cases h
    rfl
  · cases h

theorem Semaphore.exists_issue (semaphore : Semaphore τ) {id : String} (hid : id ≠ "") :
    ∃ ticket, (semaphore.ticketForm id).issue = .ok ticket := by
  have hsound := semaphore.sound
  have hdefect : (semaphore.ticketForm id).defect? = none := by
    unfold SemaphoreForm.defect? at hsound
    repeat' split at hsound
    all_goals cases hsound
    simp [TicketForm.defect?, Semaphore.ticketForm, Semaphore.queueKey, *]
  unfold TicketForm.issue
  split
  · exact ⟨_, rfl⟩
  · rename_i hsome
    rw [hdefect] at hsome
    cases hsome

variable {terms : Plan.Terms (Premises τ) Φ} {key : String} {fallible : Prop}
  {before after φ : Φ} {failed : Φ → Failure τ → Prop}

namespace CleansUp

theorem ask (h : CleansUp terms key fallible before after) {r : (Premises τ).Request}
    {post : Φ → (Premises τ).Answer r → Prop} (hr : Renews key r) (hφ : φ = before ∨ φ = after)
    (hpost : ∀ a, post φ a) : terms.ask φ r post :=
  h.renews r hr φ post hφ hpost

theorem keeps_connect (h : CleansUp terms key fallible before after) {endpoint : String}
    {done : Φ → Queue → Prop} (hdone : ∀ queue : Queue, queue.key = key → done before queue)
    (hfailed : fallible → ∀ e, failed before e) :
    Action.Keeps serveOnPremises (Service.connect endpoint key) terms before done failed := by
  apply Turnstile.keeps_connect
  refine h.ask trivial (Or.inl rfl) fun (client : Client) => ?_
  apply h.reaches
  · exact hdone _ rfl
  · intro hfallible e
    constructor
    · exact h.ask trivial (Or.inl rfl) fun _ => hfailed hfallible _
    · exact hfailed hfallible _

theorem keeps_pop (h : CleansUp terms key fallible before after) {queue : Queue}
    {done : Φ → List String → Prop} (hqueue : queue.key = key) (hdone : ∀ ids, done after ids)
    (hfailed : ∀ e, failed after e) :
    Action.Keeps serveOnPremises (Service.pop queue 1) terms before done failed := by
  apply Turnstile.keeps_pop
  rw [hqueue]
  apply h.removes
  intro reply
  cases reply with
  | ok popped => exact ⟨hdone, hfailed _⟩
  | error e => exact hfailed _

theorem keeps_expire (h : CleansUp terms key fallible before after) {queue : Queue} {seconds : Int}
    {done : Φ → Bool → Prop} (hφ : φ = before ∨ φ = after) (hqueue : queue.key = key)
    (hseconds : 1 ≤ seconds) (hdone : ∀ held, done φ held) (hfailed : ∀ e, failed φ e) :
    Action.Keeps serveOnPremises (Service.expire queue seconds) terms φ done failed := by
  apply Turnstile.keeps_expire
  refine h.ask ⟨hqueue, hseconds⟩ hφ ?_
  intro (reply : Except (Failure τ) Bool)
  cases reply with
  | ok held => exact hdone held
  | error e => exact hfailed _

theorem keeps_record (h : CleansUp terms key fallible before after) {mode : Mode} {entry : Entry τ}
    {done : Φ → Unit → Prop} (hφ : φ = before ∨ φ = after) (hdone : done φ ()) :
    Action.Keeps serveOnPremises (Service.record mode entry) terms φ done failed :=
  Action.keeps_lift (meets_ambient (h.ask trivial hφ fun _ => hdone))

theorem meets_close (h : CleansUp terms key fallible before after) {queue : Queue}
    {post : Φ → Unit → Prop} (hφ : φ = before ∨ φ = after) (hpost : post φ ()) :
    ((Service.close queue).serve serveOnPremises).Meets terms φ post :=
  Turnstile.meets_close (h.ask trivial hφ fun _ => hpost) hpost

theorem staying (h : CleansUp terms key fallible before after) :
    CleansUp (terms.staying fun φ => φ = before ∨ φ = after) key fallible before after where
  renews r hr φ _ hφ hpost := h.renews r hr φ _ hφ fun a => ⟨hφ, hpost a⟩
  reaches client _ hok herror :=
    h.reaches client _ ⟨Or.inl rfl, hok⟩ fun hfallible e => ⟨Or.inl rfl, herror hfallible e⟩
  removes client _ hpost := h.removes client _ fun reply => ⟨Or.inr rfl, hpost reply⟩

end CleansUp

/-!
## Blocking clean-ups
-/

namespace Blocking

theorem keepError_keeps {step : Operation Queue τ Unit} (among : Φ → Prop)
    (h : Action.Keeps serveOnPremises step terms φ (fun φ' _ => among φ') fun φ' _ => among φ') :
    Action.Keeps serveOnPremises (keepError step) terms φ (fun φ' _ => among φ')
      fun φ' _ => among φ' := by
  apply Action.meets_run
  refine h.mono (fun φ' _ hφ' => hφ') ?_
  intro φ' e hφ'
  dsimp only
  split
  · exact hφ'
  · exact hφ'

theorem cleanUp_keeps {ticket : Ticket τ}
    (h : CleansUp terms ticket.queueKey fallible before after) :
    Action.Keeps serveOnPremises (cleanUp ticket) terms before (fun φ' _ => φ' = after)
      fun φ' _ => φ' = after ∨ fallible ∧ φ' = before := by
  apply Action.keeps_bind
  refine h.keeps_connect ?_ fun hfallible _ => Or.inr ⟨hfallible, rfl⟩
  intro queue hqueue
  apply Action.keeps_bind
  apply Action.keeps_ensuring
  apply Action.keeps_bind
  refine (keepError_keeps (fun φ' => φ' = after) ?_).mono ?_ ?_
  · apply Action.keeps_bind
    refine h.keeps_pop hqueue ?_ fun _ => rfl
    intro ids
    exact h.keeps_record (Or.inr rfl) rfl
  · intro φ' ofPop hφ'
    subst hφ'
    apply Action.keeps_bind
    refine (keepError_keeps (fun φ'' => φ'' = φ') ?_).mono ?_ ?_
    · apply Action.keeps_bind
      exact h.keeps_expire (Or.inr rfl) hqueue ticket.one_le_expiry
        (fun _ => Action.keeps_pure rfl) fun _ => rfl
    · intro φ'' ofExpire hφ''
      subst hφ''
      apply Action.keeps_pure
      apply h.meets_close (Or.inr rfl)
      cases ofPop.or ofExpire with
      | none => exact Action.keeps_pure rfl
      | some e => exact Action.keeps_throw (Or.inl rfl)
    · intro φ'' e hφ''
      subst hφ''
      exact h.meets_close (Or.inr rfl) (Or.inl rfl)
  · intro φ' e hφ'
    subst hφ'
    exact h.meets_close (Or.inr rfl) (Or.inl rfl)

end Blocking

/-!
## Cooperative clean-ups
-/

namespace Cooperative

theorem renewExpiry_keeps {ticket : Ticket τ}
    (hrenews : ∀ r, Renews ticket.queueKey r → terms.Quiet (fun φ' => φ' = φ) r) :
    Action.Keeps serveOnPremises (renewExpiry ticket) terms φ (fun _ _ => True)
      fun _ _ => True := by
  have hask : ∀ {r : (Premises τ).Request} {post : Φ → (Premises τ).Answer r → Prop},
      Renews ticket.queueKey r → (∀ a, post φ a) → terms.ask φ r post :=
    fun {r post} hr => hrenews r hr φ post rfl
  apply Action.keeps_bind
  apply keeps_connect
  refine hask trivial fun (client : Client) => hask trivial ?_
  intro (reply : Except (Failure τ) Unit)
  cases reply with
  | error e =>
      constructor
      · exact hask trivial fun _ => trivial
      · trivial
  | ok _ =>
      apply Action.keeps_bind
      apply Action.keeps_ensuring
      apply keeps_expire
      refine hask ⟨rfl, ticket.one_le_expiry⟩ ?_
      intro (reply : Except (Failure τ) Bool)
      cases reply with
      | error e => exact meets_close (hask trivial fun _ => trivial) trivial
      | ok held =>
          have hrecord : Action.Keeps serveOnPremises
              (Service.record .cooperative (.expirySet ticket.queueKey ticket.expiry)) terms φ
              (fun _ _ => True) fun _ _ => True := by
            apply Action.keeps_lift
            apply meets_ambient
            exact hask trivial fun _ => trivial
          apply meets_close
          · exact hask trivial fun _ => hrecord
          · exact hrecord

theorem popHead_keeps {ticket : Ticket τ}
    (h : CleansUp terms ticket.queueKey fallible before after) :
    Action.Keeps serveOnPremises (popHead ticket) terms before (fun φ' _ => φ' = after)
      fun φ' _ => φ' = after ∨ fallible ∧ φ' = before := by
  apply Action.keeps_bind
  refine h.keeps_connect ?_ fun hfallible _ => Or.inr ⟨hfallible, rfl⟩
  intro queue hqueue
  apply Action.keeps_bind
  apply Action.keeps_ensuring
  refine h.keeps_pop hqueue ?_ fun _ => h.meets_close (Or.inr rfl) (Or.inl rfl)
  intro ids
  exact h.meets_close (Or.inr rfl) (h.keeps_record (Or.inr rfl) rfl)

theorem cleanUp_keeps {ticket : Ticket τ}
    (h : CleansUp terms ticket.queueKey fallible before after) :
    Action.Keeps serveOnPremises (cleanUp ticket) terms before
      (fun φ' _ => φ' = after ∨ fallible ∧ φ' = before)
      fun φ' _ => φ' = after ∨ fallible ∧ φ' = before := by
  -- The expiry is renewed in either standing, and only the other leg leads from one to the other.
  refine ⟨fun φ => φ = before ∨ φ = after, Or.inl rfl, ?_, ?_⟩
  · refine Plan.Meets.mono (renewExpiry_keeps ?_) fun _ _ _ => trivial
    intro r hr _ post _ hpost
    exact ⟨h.renews r hr, hpost⟩
  · refine Plan.Meets.mono (popHead_keeps h.staying) ?_
    intro φ' ofPop hofPop
    have hended : φ' = after ∨ fallible ∧ φ' = before := by
      cases ofPop with
      | ok _ => exact Or.inl hofPop
      | error e => exact hofPop
    exact ⟨fun ofExpire => Action.ends_of_forall (fun _ => hended) fun _ => hended,
      fun _ => hended⟩

end Cooperative
end Turnstile
