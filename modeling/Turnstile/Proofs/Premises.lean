import Turnstile.Proofs.Plan.Action
import Turnstile.Redis.Queue
import Turnstile.Slots

/-!
# Operations on queues in Redis lists

An operation of a semaphore asks a store for its queue.  When the store keeps its queues in Redis
lists, what remains to be asked for are commands to a server, and what the surroundings know.
`onPremises` is the plan that remains.

There is a rule for each request of an operation, which says what has to be allowed for the
request to be made.

## Main statements

* `onPremises_bind`, `onPremises_tryCatch` and `onPremises_ensuring` - an operation is served part by
  part.
* `keeps_connect` - a queue is opened by a client of its own, which is hung up if it is refused.
* `keeps_push`, `keeps_position`, `keeps_pop` and `keeps_expire` - one command for each request.
-/

namespace Turnstile

open Redis

/-- All that an operation asks for when its queues are kept in Redis lists. -/
abbrev Premises (τ : Type) [Seconds τ] : Interface :=
  (Connections τ).sum (Ambience τ)

universe u

variable {τ α β : Type} {Φ : Type u} [Seconds τ]

def toClient (r : (Connections τ).Request) : Plan (Premises τ) τ ((Connections τ).Answer r) :=
  @Plan.request (Premises τ) τ (.inl r)

def toSurroundings (r : (Ambience τ).Request) : Plan (Premises τ) τ ((Ambience τ).Answer r) :=
  @Plan.request (Premises τ) τ (.inr r)

def serveOnPremises :
    (r : (Service Queue τ).Request) → Plan (Premises τ) τ ((Service Queue τ).Answer r)
  | .inl r => (serveStore r).serve toClient
  | .inr r => toSurroundings r

def onPremises (operation : Operation Queue τ α) :
    Plan (Premises τ) τ (Except (Failure τ) α) :=
  operation.run.serve serveOnPremises

/-!
## Parts of an operation
-/

theorem onPremises_bind (action : Operation Queue τ α) (next : α → Operation Queue τ β) :
    onPremises (action >>= next) = (onPremises action).bind fun
      | .ok a => onPremises (next a)
      | .error e => .pure (.error e) := by
  show (Plan.bind _ _).serve _ = _
  rw [Plan.serve_bind]
  congr
  funext ended
  cases ended with
  | ok a => rfl
  | error e => rfl

theorem onPremises_tryCatch (action : Operation Queue τ α)
    (handler : Failure τ → Operation Queue τ α) :
    onPremises (tryCatch action handler) = (onPremises action).bind fun
      | .ok a => .pure (.ok a)
      | .error e => onPremises (handler e) := by
  show (Plan.bind _ _).serve _ = _
  rw [Plan.serve_bind]
  congr
  funext ended
  cases ended with
  | ok a => rfl
  | error e => rfl

theorem onPremises_lift (p : Plan (Service Queue τ) τ α) :
    onPremises (ExceptT.lift p) = (p.serve serveOnPremises).bind fun a => .pure (.ok a) :=
  Plan.serve_bind _ _ _

theorem onPremises_ensuring (closing : Plan (Service Queue τ) τ Unit)
    (body : Operation Queue τ α) :
    onPremises (Action.ensuring closing body) = (onPremises body).bind fun ended =>
      (closing.bind fun _ => .pure ended).serve serveOnPremises :=
  Plan.serve_bind _ _ _

variable {terms : Plan.Terms (Premises τ) Φ} {φ : Φ} {failed : Φ → Failure τ → Prop}

/-!
## Sessions
-/

theorem keeps_dial {endpoint : String} {done : Φ → Client → Prop}
    (h : terms.ask φ (.inl (.dial endpoint)) done) :
    Action.Keeps toClient (dial endpoint) terms φ done failed :=
  h

theorem keeps_call {label key : String} {client : Client} {command : Command}
    {done : Φ → command.Reply → Prop}
    (h : terms.ask φ (.inl (.call client command))
      (Action.Ends done fun φ' e => failed φ' (asStoreFailure label command.verb.name key e))) :
    Action.Keeps toClient (call label key client command) terms φ done failed := by
  refine terms.ask_mono ?_ h
  intro φ' reply hreply
  cases reply with
  | ok a => exact hreply
  | error e => exact hreply

theorem meets_hangUp {client : Client} {post : Φ → Unit → Prop}
    (h : terms.ask φ (.inl (.hangUp client)) post) :
    ((hangUp client).serve toClient).Meets terms φ post :=
  h

/-!
## Requests to a store
-/

theorem meets_store {r : StoreRequest Queue} {post : Φ → r.Answer Queue τ → Prop}
    (h : ((serveStore r).serve toClient).Meets terms φ post) :
    ((Service.store r).serve serveOnPremises).Meets terms φ post := by
  show (Plan.bind _ _).Meets terms φ post
  rw [Plan.meets_bind]
  exact h

theorem keeps_connect {endpoint key : String} {done : Φ → Queue → Prop}
    (h : terms.ask φ (.inl (.dial endpoint)) fun φ₁ (client : Client) =>
      terms.ask φ₁ (.inl (.call client .ping))
        (Action.Ends (fun φ₂ _ => done φ₂ ⟨client, key, true⟩) fun φ₂ e =>
          terms.ask φ₂ (.inl (.hangUp client))
            (fun φ₃ _ => failed φ₃ (asStoreFailure endpoint "PING" key e)) ∧
          failed φ₂ (asStoreFailure endpoint "PING" key e))) :
    Action.Keeps serveOnPremises (Service.connect endpoint key) terms φ done failed := by
  have hconnect : Action.Keeps toClient (Queue.connect endpoint key) terms φ done failed := by
    apply Action.keeps_bind
    apply keeps_dial
    refine terms.ask_mono ?_ h
    intro φ₁ (client : Client) hclient
    apply Action.keeps_bind
    apply Action.keeps_tryCatch
    apply keeps_call
    refine terms.ask_mono ?_ hclient
    intro φ₂ (reply : Except (Failure τ) Unit) hreply
    cases reply with
    | ok _ => exact hreply
    | error e =>
        show Action.Keeps toClient
          (if _ then ExceptT.lift (hangUp client) >>= _ else throw _) _ _ _ _
        split
        · apply Action.keeps_bind
          apply Action.keeps_lift
          exact meets_hangUp hreply.1
        · exact Action.keeps_throw hreply.2
  exact meets_store hconnect

section Commands

variable {queue : Queue}

theorem keeps_push {id : String} {done : Φ → Nat → Prop}
    (h : terms.ask φ (.inl (.call queue.client (.rpush queue.key id)))
      (Action.Ends done fun φ' e => failed φ' (asStoreFailure queue.label "RPUSH" queue.key e))) :
    Action.Keeps serveOnPremises (Service.push queue id) terms φ done failed :=
  meets_store (keeps_call h)

theorem keeps_position {id : String} {done : Φ → Option Nat → Prop}
    (h : terms.ask φ (.inl (.call queue.client (.lpos queue.key id)))
      (Action.Ends done fun φ' e => failed φ' (asStoreFailure queue.label "LPOS" queue.key e))) :
    Action.Keeps serveOnPremises (Service.position queue id) terms φ done failed :=
  meets_store (keeps_call h)

omit [Seconds τ] in
theorem decodeItems_error {items : List Item} {e : Failure τ}
    (h : Queue.decodeItems items = .error e) : e = .undecodable := by
  induction items with
  | nil => cases h
  | cons item rest ih =>
      unfold Queue.decodeItems at h
      split at h
      · cases h
        rfl
      · cases hrest : (Queue.decodeItems rest : Except (Failure τ) (List String)) with
        | ok ids =>
            rw [hrest] at h
            cases h
        | error e' =>
            rw [hrest] at h
            cases h
            exact ih hrest

theorem keeps_pop_decoding {count : Int} {done : Φ → List String → Prop}
    (h : terms.ask φ (.inl (.call queue.client (.lpop queue.key count)))
      (Action.Ends (fun φ' popped => Action.Ends done failed φ' (Queue.decodeItems (popped.getD [])))
        fun φ' e => failed φ' (asStoreFailure queue.label "LPOP" queue.key e))) :
    Action.Keeps serveOnPremises (Service.pop queue count) terms φ done failed := by
  apply meets_store
  apply Action.keeps_bind
  apply keeps_call
  exact h

theorem keeps_pop {count : Int} {done : Φ → List String → Prop}
    (h : terms.ask φ (.inl (.call queue.client (.lpop queue.key count)))
      (Action.Ends (fun φ' _ => (∀ ids, done φ' ids) ∧ failed φ' .undecodable)
        fun φ' e => failed φ' (asStoreFailure queue.label "LPOP" queue.key e))) :
    Action.Keeps serveOnPremises (Service.pop queue count) terms φ done failed := by
  apply keeps_pop_decoding
  refine terms.ask_mono ?_ h
  intro φ' (reply : Except (Failure τ) (Option (List Item))) hreply
  cases reply with
  | ok popped =>
      show Action.Ends done failed φ' (Queue.decodeItems (popped.getD []))
      cases hids : (Queue.decodeItems (popped.getD []) : Except (Failure τ) (List String)) with
      | ok ids => exact hreply.1 ids
      | error e =>
          rw [decodeItems_error hids]
          exact hreply.2
  | error e => exact hreply

theorem keeps_expire {seconds : Int} {done : Φ → Bool → Prop}
    (h : terms.ask φ (.inl (.call queue.client (.expire queue.key seconds)))
      (Action.Ends done fun φ' e => failed φ' (asStoreFailure queue.label "EXPIRE" queue.key e))) :
    Action.Keeps serveOnPremises (Service.expire queue seconds) terms φ done failed :=
  meets_store (keeps_call h)

theorem meets_close {post : Φ → Unit → Prop}
    (howned : terms.ask φ (.inl (.hangUp queue.client)) post) (hshared : post φ ()) :
    ((Service.close queue).serve serveOnPremises).Meets terms φ post := by
  apply meets_store
  show ((if queue.ownsClient then hangUp queue.client else pure ()).serve toClient).Meets _ _ _
  split
  · exact meets_hangUp howned
  · exact hshared

end Commands

/-!
## Requests to the surroundings
-/

theorem AmbientRequest.nonempty_answer (r : AmbientRequest τ) : Nonempty (r.Answer τ) := by
  cases r with
  | estimate position capacity base => exact ⟨.ok base⟩
  | sleep duration => exact ⟨.ok ()⟩
  | now => exact ⟨(0 : τ)⟩
  | record mode entry => exact ⟨()⟩
  | announce position => exact ⟨.ok ()⟩
  | freshId => exact ⟨""⟩
  | hold ticket => exact ⟨()⟩
  | takeOldest => exact ⟨none⟩

theorem meets_ambient {r : AmbientRequest τ} {post : Φ → r.Answer τ → Prop}
    (h : terms.ask φ (.inr r) post) :
    ((Service.ambient r).serve serveOnPremises).Meets terms φ post :=
  h

theorem keeps_newTicket {semaphore : Semaphore τ} {done : Φ → Ticket τ → Prop}
    (h : terms.ask φ (.inr .freshId) fun φ' (id : String) =>
      (∀ ticket, (semaphore.ticketForm id).issue = .ok ticket → done φ' ticket) ∧
        ∀ e, failed φ' e) :
    Action.Keeps serveOnPremises semaphore.newTicket terms φ done failed := by
  apply Action.keeps_bind
  apply Action.keeps_lift
  apply meets_ambient
  refine terms.ask_mono ?_ h
  intro φ' (id : String) hid
  cases hticket : (semaphore.ticketForm id).issue with
  | ok ticket => exact Action.keeps_pure (hid.1 ticket hticket)
  | error defect => exact Action.keeps_throw (hid.2 _)

end Turnstile
