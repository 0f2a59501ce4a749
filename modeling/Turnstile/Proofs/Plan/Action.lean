import Turnstile.Proofs.Plan.Terms

/-!
# Terms for actions

An action ends in a result or in a failure, and its requests may be served by plans over another
interface.  `Action.Keeps` judges an action by the plan that remains when its requests are served,
with one condition on its results and another one on its failures.  There is a rule for each way
in which actions are put together.
-/

namespace Turnstile
namespace Action

universe u v w

variable {I : Interface.{u}} {J : Interface.{v}} {Φ : Type w} {τ ε α β σ : Type} [Seconds τ]

/-- An action ended with a result that satisfies `done` or with a failure that satisfies
`failed`. -/
def Ends (done : Φ → α → Prop) (failed : Φ → ε → Prop) (φ : Φ) : Except ε α → Prop
  | .ok a => done φ a
  | .error e => failed φ e

theorem ends_of_forall {done : Φ → α → Prop} {failed : Φ → ε → Prop} {φ : Φ}
    {ended : Except ε α} (hdone : ∀ a, done φ a) (hfailed : ∀ e, failed φ e) :
    Ends done failed φ ended := by
  cases ended with
  | ok a => exact hdone a
  | error e => exact hfailed e

/-- An action that starts in a standing, with its requests served, asks only for what the terms
allow, and ends with a result that satisfies `done` or with a failure that satisfies `failed`. -/
def Keeps (server : (r : I.Request) → Plan J τ (I.Answer r)) (action : Action I τ ε α)
    (terms : Plan.Terms J Φ) (φ : Φ) (done : Φ → α → Prop) (failed : Φ → ε → Prop) : Prop :=
  (action.run.serve server).Meets terms φ (Ends done failed)

variable {server : (r : I.Request) → Plan J τ (I.Answer r)} {terms : Plan.Terms J Φ} {φ : Φ}
  {failed : Φ → ε → Prop}

theorem Keeps.mono {action : Action I τ ε α} {done done' : Φ → α → Prop}
    {failed' : Φ → ε → Prop} (hkeeps : Keeps server action terms φ done failed)
    (hdone : ∀ φ' a, done φ' a → done' φ' a) (hfailed : ∀ φ' e, failed φ' e → failed' φ' e) :
    Keeps server action terms φ done' failed' := by
  refine Plan.Meets.mono hkeeps ?_
  intro φ' ended hended
  cases ended with
  | ok a => exact hdone φ' a hended
  | error e => exact hfailed φ' e hended

theorem meets_serve_bind {p : Plan I τ α} {next : α → Plan I τ β} {post : Φ → β → Prop}
    (h : (p.serve server).Meets terms φ fun φ' a =>
      ((next a).serve server).Meets terms φ' post) :
    ((p.bind next).serve server).Meets terms φ post := by
  rw [Plan.serve_bind, Plan.meets_bind]
  exact h

theorem meets_run {action : Action I τ ε α} {next : Except ε α → Plan I τ β}
    {post : Φ → β → Prop}
    (h : Keeps server action terms φ
      (fun φ' a => ((next (.ok a)).serve server).Meets terms φ' post)
      fun φ' e => ((next (.error e)).serve server).Meets terms φ' post) :
    ((action.run.bind next).serve server).Meets terms φ post := by
  apply meets_serve_bind
  refine Plan.Meets.mono h ?_
  intro φ' ended hended
  cases ended with
  | ok a => exact hended
  | error e => exact hended

theorem keeps_pure {a : α} {done : Φ → α → Prop} (h : done φ a) :
    Keeps server (pure a) terms φ done failed :=
  h

theorem keeps_throw {e : ε} {done : Φ → α → Prop} (h : failed φ e) :
    Keeps server (throw e) terms φ done failed :=
  h

theorem keeps_lift {p : Plan I τ α} {done : Φ → α → Prop}
    (h : (p.serve server).Meets terms φ done) :
    Keeps server (ExceptT.lift p) terms φ done failed := by
  apply meets_serve_bind
  exact h

theorem keeps_bind {action : Action I τ ε α} {next : α → Action I τ ε β} {done : Φ → β → Prop}
    (h : Keeps server action terms φ (fun φ' a => Keeps server (next a) terms φ' done failed)
      failed) :
    Keeps server (action >>= next) terms φ done failed := by
  apply meets_run
  exact h

theorem keeps_tryCatch {action : Action I τ ε α} {handler : ε → Action I τ ε α}
    {done : Φ → α → Prop}
    (h : Keeps server action terms φ done fun φ' e =>
      Keeps server (handler e) terms φ' done failed) :
    Keeps server (tryCatch action handler) terms φ done failed := by
  apply meets_run
  exact h

theorem keeps_ensuring {closing : Plan I τ Unit} {body : Action I τ ε α} {done : Φ → α → Prop}
    (h : Keeps server body terms φ
      (fun φ' a => (closing.serve server).Meets terms φ' fun φ'' _ => done φ'' a)
      fun φ' e => (closing.serve server).Meets terms φ' fun φ'' _ => failed φ'' e) :
    Keeps server (ensuring closing body) terms φ done failed := by
  apply meets_run
  refine Keeps.mono h ?_ ?_
  · intro φ' a ha
    exact meets_serve_bind ha
  · intro φ' e he
    exact meets_serve_bind he

/-- A loop keeps to its terms if there is something that holds whenever it goes round. -/
theorem keeps_repeatFrom {start : σ} {step : σ → Action I τ ε (σ ⊕ α)} {done : Φ → α → Prop}
    (inv : Φ → σ → Prop) (hstart : inv φ start)
    (hstep : ∀ φ' s, inv φ' s →
      Keeps server (step s) terms φ' (fun φ'' => Sum.elim (inv φ'') (done φ'')) failed) :
    Keeps server (repeatFrom start step) terms φ done failed := by
  refine ⟨inv, hstart, fun φ' s hs => ?_⟩
  apply meets_run
  refine (hstep φ' s hs).mono ?_ ?_
  · intro φ'' result hresult
    cases result with
    | inl s' => exact hresult
    | inr a => exact hresult
  · intro φ'' e he
    exact he

end Action
end Turnstile
