/-!
# Plans

A plan is a program held as a value: a tree of requests to its surroundings, in which each answer
chooses the branch that is taken next.  Nothing happens in a plan apart from its requests, so that
one and the same plan can be run, rehearsed on a virtual clock, served by another plan, or played
against arbitrary answers.

Besides requests there are three forms that a plan cannot express by itself:

* `iterate` repeats a step until it gives a result;
* `both` follows two plans side by side and joins them when both have ended;
* `within` follows a plan under a limit of time.

## Main statements

Plans are a lawful monad, and `Plan.serve_bind` says that serving the requests of a plan commutes
with going on after it.

## Interruption

A plan that waits can be interrupted from outside.  A waiting request then gets an answer that
says so.  Two legs are both interrupted, and when both have ended the plan that waits for them is
told.  A plan under a limit is interrupted too, and the plan that waits for it is told when that
has ended, or at once if it is interrupted a second time.
-/

namespace Turnstile

universe u v

/-- A set of requests, each with the type of its answer. -/
structure Interface where
  Request : Type u
  Answer : Request → Type

namespace Interface

def sum (I : Interface.{u}) (J : Interface.{v}) : Interface.{max u v} where
  Request := I.Request ⊕ J.Request
  Answer := Sum.elim I.Answer J.Answer

end Interface

/-- How the wait for a plan under a limit came to its end: by that plan's own end, because the time
ran out, or because it was interrupted from outside. -/
inductive Lapse where
  | inTime
  | expired
  | interrupted
  deriving DecidableEq

/-- Programs that make the requests of `I`, with limits of time measured in `τ`. -/
inductive Plan (I : Interface.{u}) (τ : Type) : Type → Type (max u 1) where
  | pure {α : Type} (result : α) : Plan I τ α
  | ask {α : Type} (request : I.Request) (next : I.Answer request → Plan I τ α) : Plan I τ α
  /-- Repeats `step` on its own left results until it gives a right one. -/
  | iterate {σ β α : Type} (step : σ → Plan I τ (σ ⊕ β)) (start : σ) (next : β → Plan I τ α) :
      Plan I τ α
  /-- Follows two plans side by side until both have ended.  There are no results if the plan was
  interrupted meanwhile. -/
  | both {β γ α : Type} (left : Plan I τ β) (right : Plan I τ γ)
      (next : Option (β × γ) → Plan I τ α) : Plan I τ α
  /-- Follows a plan until it ends, interrupting it when `limit` has passed.  There is no result
  if the plan was interrupted before it could begin. -/
  | within {β α : Type} (limit : τ) (body : Plan I τ β)
      (next : Lapse → Option β → Plan I τ α) : Plan I τ α

namespace Plan

variable {I : Interface.{u}} {J : Interface.{v}} {τ α β : Type}

def bind : Plan I τ α → (α → Plan I τ β) → Plan I τ β
  | .pure a, f => f a
  | .ask request next, f => .ask request fun answer => (next answer).bind f
  | .iterate step start next, f => .iterate step start fun b => (next b).bind f
  | .both left right next, f => .both left right fun results? => (next results?).bind f
  | .within limit body next, f => .within limit body fun lapse b? => (next lapse b?).bind f

instance : Monad (Plan I τ) where
  pure := Plan.pure
  bind := Plan.bind

def request (r : I.Request) : Plan I τ (I.Answer r) :=
  .ask r .pure

def serve (server : (r : I.Request) → Plan J τ (I.Answer r)) :
    {α : Type} → Plan I τ α → Plan J τ α
  | _, .pure a => .pure a
  | _, .ask r next => (server r).bind fun answer => (next answer).serve server
  | _, .iterate step start next =>
      .iterate (fun s => (step s).serve server) start fun b => (next b).serve server
  | _, .both left right next =>
      .both (left.serve server) (right.serve server) fun results? =>
        (next results?).serve server
  | _, .within limit body next =>
      .within limit (body.serve server) fun lapse b? => (next lapse b?).serve server

@[simp]
theorem pure_bind (a : α) (f : α → Plan I τ β) : (Plan.pure a).bind f = f a :=
  rfl

@[simp]
theorem bind_pure (p : Plan I τ α) : p.bind .pure = p := by
  induction p with
  | pure a => rfl
  | ask r next ih =>
      simp only [bind]
      exact congrArg _ (funext ih)
  | iterate step start next ihStep ih =>
      simp only [bind]
      exact congrArg _ (funext ih)
  | both left right next ihLeft ihRight ih =>
      simp only [bind]
      exact congrArg _ (funext ih)
  | within limit body next ihBody ih =>
      simp only [bind]
      exact congrArg _ (funext fun lapse => funext fun b? => ih lapse b?)

theorem bind_assoc {γ : Type} (p : Plan I τ α) (f : α → Plan I τ β) (g : β → Plan I τ γ) :
    (p.bind f).bind g = p.bind fun a => (f a).bind g := by
  induction p with
  | pure a => rfl
  | ask r next ih =>
      simp only [bind]
      exact congrArg _ (funext fun a => ih a f)
  | iterate step start next ihStep ih =>
      simp only [bind]
      exact congrArg _ (funext fun b => ih b f)
  | both left right next ihLeft ihRight ih =>
      simp only [bind]
      exact congrArg _ (funext fun results? => ih results? f)
  | within limit body next ihBody ih =>
      simp only [bind]
      exact congrArg _ (funext fun lapse => funext fun b? => ih lapse b? f)

instance : LawfulMonad (Plan I τ) :=
  .mk' _ bind_pure (fun a f => pure_bind a f) (fun p f g => bind_assoc p f g)

theorem serve_bind (server : (r : I.Request) → Plan J τ (I.Answer r)) (p : Plan I τ α)
    (f : α → Plan I τ β) :
    (p.bind f).serve server = (p.serve server).bind fun a => (f a).serve server := by
  induction p with
  | pure a => rfl
  | ask r next ih =>
      simp only [bind, serve, bind_assoc]
      exact congrArg _ (funext fun answer => ih answer f)
  | iterate step start next ihStep ih =>
      simp only [bind, serve]
      exact congrArg _ (funext fun b => ih b f)
  | both left right next ihLeft ihRight ih =>
      simp only [bind, serve]
      exact congrArg _ (funext fun results? => ih results? f)
  | within limit body next ihBody ih =>
      simp only [bind, serve]
      exact congrArg _ (funext fun lapse => funext fun b? => ih lapse b? f)

end Plan

abbrev Action (I : Interface.{u}) (τ ε : Type) : Type → Type (max u 1) :=
  ExceptT ε (Plan I τ)

namespace Action

variable {I : Interface.{u}} {τ ε α σ : Type}

def ensuring (closing : Plan I τ Unit) (body : Action I τ ε α) : Action I τ ε α :=
  ExceptT.mk do
    let ended ← body.run
    closing
    pure ended

/-- Runs `body` between `enter` and `leave`.  Once entered, leaving happens however the body ends,
and a failure to leave takes the place of the body's end. -/
def between (enter leave : Action I τ ε Unit) (body : Action I τ ε α) : Action I τ ε α := do
  enter
  let ended ← ExceptT.lift body.run
  leave
  ExceptT.mk (.pure ended)

def repeatFrom (start : σ) (step : σ → Action I τ ε (σ ⊕ α)) : Action I τ ε α :=
  ExceptT.mk <| .iterate (fun s => (step s).run.bind fun
    | .ok (.inl s') => .pure (.inl s')
    | .ok (.inr a) => .pure (.inr (.ok a))
    | .error e => .pure (.inr (.error e))) start .pure

end Action
end Turnstile
