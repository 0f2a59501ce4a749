import Turnstile.Proofs.Premises

/-!
# Straight plans

A straight plan makes one request after the other until it ends.  It neither repeats anything nor
follows other plans, so that it ends whatever it is answered.

## Main statements

* `Straight.bind` and `Straight.serve` - how straight plans are put together.
* `onPremises_straight` - an operation that is straight stays so when its queues are kept in lists.
-/

namespace Turnstile

universe u v

variable {I : Interface.{u}} {J : Interface.{v}} {τ ε α β : Type}

namespace Plan

def Straight : {α : Type} → Plan I τ α → Prop
  | _, .pure _ => True
  | _, .ask _ next => ∀ answer, (next answer).Straight
  | _, _ => False

namespace Straight

theorem bind {p : Plan I τ α} {f : α → Plan I τ β} (h : p.Straight)
    (hnext : ∀ a, (f a).Straight) : (p.bind f).Straight := by
  induction p with
  | pure a => exact hnext a
  | ask r next ih => exact fun answer => ih answer (h answer) hnext
  | iterate step start next ihStep ih => exact h.elim
  | both left right next ihLeft ihRight ih => exact h.elim
  | within limit body next ihBody ih => exact h.elim

theorem serve {server : (r : I.Request) → Plan J τ (I.Answer r)} {p : Plan I τ α}
    (h : p.Straight) (hserver : ∀ r, (server r).Straight) : (p.serve server).Straight := by
  induction p with
  | pure a => exact trivial
  | ask r next ih => exact (hserver r).bind fun answer => ih answer (h answer)
  | iterate step start next ihStep ih => exact h.elim
  | both left right next ihLeft ihRight ih => exact h.elim
  | within limit body next ihBody ih => exact h.elim

end Straight
end Plan

/-!
## Actions
-/

namespace Action

theorem straight_bind {action : Action I τ ε α} {next : α → Action I τ ε β}
    (h : action.run.Straight) (hnext : ∀ a, (next a).run.Straight) :
    (action >>= next).run.Straight := by
  apply Plan.Straight.bind h
  intro ended
  cases ended with
  | ok a => exact hnext a
  | error e => exact trivial

theorem straight_tryCatch {action : Action I τ ε α} {handler : ε → Action I τ ε α}
    (h : action.run.Straight) (hhandler : ∀ e, (handler e).run.Straight) :
    (tryCatch action handler).run.Straight := by
  apply Plan.Straight.bind h
  intro ended
  cases ended with
  | ok a => exact trivial
  | error e => exact hhandler e

theorem straight_ensuring {closing : Plan I τ Unit} {body : Action I τ ε α}
    (h : body.run.Straight) (hclosing : closing.Straight) :
    (ensuring closing body).run.Straight := by
  apply Plan.Straight.bind h
  intro ended
  apply Plan.Straight.bind hclosing
  intro _
  exact trivial

end Action

/-!
## Stores
-/

namespace Redis

theorem call_straight (label key : String) (client : Client) (command : Command) :
    (call label key client command : Session τ command.Reply).run.Straight :=
  fun _ => trivial

theorem hangUp_straight (client : Client) : (hangUp client : Plan _ τ Unit).Straight :=
  fun _ => trivial

theorem Queue.connect_straight (endpoint key : String) :
    (connect endpoint key : Session τ Queue).run.Straight := by
  apply Action.straight_bind
  · exact fun _ => trivial
  · intro client
    apply Action.straight_bind
    · apply Action.straight_tryCatch
      · exact call_straight endpoint key client .ping
      · intro e
        dsimp only
        split
        · exact Action.straight_bind (fun _ => trivial) fun _ => trivial
        · exact trivial
    · exact fun _ => trivial

theorem serveStore_straight (r : StoreRequest Queue) :
    (serveStore r : Plan _ τ (r.Answer Queue τ)).Straight := by
  cases r with
  | connect endpoint key => exact Queue.connect_straight endpoint key
  | push queue id => exact call_straight _ _ _ _
  | position queue id => exact call_straight _ _ _ _
  | pop queue count => exact Action.straight_bind (call_straight _ _ _ _) fun _ => trivial
  | expire queue seconds => exact call_straight _ _ _ _
  | length queue => exact call_straight _ _ _ _
  | close queue =>
      show (if queue.ownsClient then hangUp queue.client else pure ()).Straight
      split
      · exact hangUp_straight queue.client
      · exact trivial

end Redis

variable [Seconds τ]

theorem serveOnPremises_straight (r : (Service Redis.Queue τ).Request) :
    (serveOnPremises r).Straight := by
  cases r with
  | inl r => exact (Redis.serveStore_straight r).serve fun _ _ => trivial
  | inr r => exact fun _ => trivial

theorem onPremises_straight {operation : Operation Redis.Queue τ α}
    (h : operation.run.Straight) : (onPremises operation).Straight :=
  Plan.Straight.serve h serveOnPremises_straight

end Turnstile
