import Turnstile.Number.Seconds
import Turnstile.Plan.Basic

/-!
# The course of a plan

A plan goes on in small steps.  `Asks` says that it makes a request, is given an answer, and is
left with another plan; `Turns` says that it goes on without asking for anything.  Who answers, and
with what, is left open, so that the steps of many plans can be put together in any order.

Two legs go on in any order, and their plan goes on when both have ended.  A body under a limit
goes on by itself, and how its wait came to its end is known only when it has ended.  Where plans
can be interrupted every end of that wait is reckoned with, and so is the loss of the results of
two legs.  An interruption reaches a plan only as the answer to a request.
-/

namespace Turnstile
namespace Plan

universe u

variable {I : Interface.{u}} {τ : Type} [Seconds τ]

/-- Without a request the first plan becomes the second. -/
inductive Turns (interruptible : Prop) : {α : Type} → Plan I τ α → Plan I τ α → Prop where
  | unroll {σ β α : Type} (step : σ → Plan I τ (σ ⊕ β)) (start : σ) (next : β → Plan I τ α) :
      Turns interruptible (.iterate step start next)
        ((step start).bind (Sum.elim (fun s => .iterate step s next) next))
  | left {β γ α : Type} {left left' : Plan I τ β} (right : Plan I τ γ)
      (next : Option (β × γ) → Plan I τ α) (turns : Turns interruptible left left') :
      Turns interruptible (.both left right next) (.both left' right next)
  | right {β γ α : Type} (left : Plan I τ β) {right right' : Plan I τ γ}
      (next : Option (β × γ) → Plan I τ α) (turns : Turns interruptible right right') :
      Turns interruptible (.both left right next) (.both left right' next)
  | joined {β γ α : Type} (b : β) (c : γ) (next : Option (β × γ) → Plan I τ α) :
      Turns interruptible (.both (.pure b) (.pure c) next) (next (some (b, c)))
  | parted {β γ α : Type} (b : β) (c : γ) (next : Option (β × γ) → Plan I τ α)
      (cut : interruptible) :
      Turns interruptible (.both (.pure b) (.pure c) next) (next none)
  | late {β α : Type} {limit : τ} (body : Plan I τ β) (next : Lapse → Option β → Plan I τ α)
      (passed : limit ≤ 0) :
      Turns interruptible (.within limit body next) (next .expired none)
  | body {β α : Type} {limit : τ} {body body' : Plan I τ β}
      (next : Lapse → Option β → Plan I τ α) (left : ¬ limit ≤ 0)
      (turns : Turns interruptible body body') :
      Turns interruptible (.within limit body next) (.within limit body' next)
  | lapsed {β α : Type} {limit : τ} (b : β) (next : Lapse → Option β → Plan I τ α)
      (lapse : Lapse) (left : ¬ limit ≤ 0) (how : lapse = .inTime ∨ interruptible) :
      Turns interruptible (.within limit (.pure b) next) (next lapse (some b))

/-- The first plan makes a request, is given an answer, and becomes the second. -/
inductive Asks : {α : Type} → Plan I τ α → (r : I.Request) → I.Answer r → Plan I τ α → Prop where
  | ask {α : Type} (r : I.Request) (next : I.Answer r → Plan I τ α) (answer : I.Answer r) :
      Asks (.ask r next) r answer (next answer)
  | left {β γ α : Type} {left left' : Plan I τ β} {r : I.Request} {answer : I.Answer r}
      (right : Plan I τ γ) (next : Option (β × γ) → Plan I τ α)
      (asks : Asks left r answer left') :
      Asks (.both left right next) r answer (.both left' right next)
  | right {β γ α : Type} (left : Plan I τ β) {right right' : Plan I τ γ} {r : I.Request}
      {answer : I.Answer r} (next : Option (β × γ) → Plan I τ α)
      (asks : Asks right r answer right') :
      Asks (.both left right next) r answer (.both left right' next)
  | body {β α : Type} {limit : τ} {body body' : Plan I τ β} {r : I.Request}
      {answer : I.Answer r} (next : Lapse → Option β → Plan I τ α) (left : ¬ limit ≤ 0)
      (asks : Asks body r answer body') :
      Asks (.within limit body next) r answer (.within limit body' next)

def turn? {α : Type} : Plan I τ α → Option (Plan I τ α)
  | .iterate step start next =>
      some ((step start).bind (Sum.elim (fun s => .iterate step s next) next))
  | _ => none

theorem turns_of_turn? {interruptible : Prop} {α : Type} {plan plan' : Plan I τ α}
    (h : plan.turn? = some plan') : Turns interruptible plan plan' := by
  cases plan with
  | iterate step start next =>
      cases h
      exact .unroll step start next
  | _ => cases h

end Plan
end Turnstile
