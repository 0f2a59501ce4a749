import Turnstile.Proofs.Plan.Straight

/-!
# How plans come to an end

A plan goes on in a world that answers it and is changed by it.  A run is one way in which it goes
on.  A plan concludes if it comes to an end in whatever order its legs go on and whatever it is
answered: it never gets stuck, and it cannot go on for ever.

Worlds are judged by standings.  Terms reckon with a world if each of its answers leads from a
standing of the world to another one that the terms allow for.  Of two legs each is judged by
itself: whatever the other leg has done, a step of the leg changes only its own part of the
standing.

## Main definitions

* `Plan.Runs` - a plan can go on to another one.
* `Plan.Concludes` - a plan comes to an end in every order.
* `Plan.Terms.Reckons` - terms allow for all that a world may answer.

## Main statements

* `Plan.Runs.of_bind` - a run of a plan that goes on as another one is made of a run of each.
* `Plan.concludes_of_meets` - a straight plan that meets its terms concludes.
* `Plan.concludes_both` - two straight legs that meet their terms conclude.
-/

namespace Turnstile
namespace Plan

universe u v w x

variable {I : Interface.{u}} {W : Type v} {Φ : Type w} {Ψ : Type x} {τ α β γ : Type}

/-- What may be answered in a world, and what becomes of the world. -/
abbrev Answering (I : Interface.{u}) (W : Type v) : Type (max u v) :=
  W → (r : I.Request) → I.Answer r → W → Prop

section Definitions

variable [Seconds τ] (answering : Answering I W) (cut : Prop)

inductive Moves (w : W) (plan : Plan I τ α) : W → Plan I τ α → Prop where
  | turn {plan' : Plan I τ α} (turns : Turns cut plan plan') : Moves w plan w plan'
  | hears {r : I.Request} {answer : I.Answer r} {w' : W} {plan' : Plan I τ α}
      (asks : plan.Asks r answer plan') (answers : answering w r answer w') :
      Moves w plan w' plan'

inductive Runs : W → Plan I τ α → W → Plan I τ α → Prop where
  | refl (w : W) (plan : Plan I τ α) : Runs w plan w plan
  | step {w w' w'' : W} {plan plan' plan'' : Plan I τ α}
      (moves : Moves answering cut w plan w' plan') (runs : Runs w' plan' w'' plan'') :
      Runs w plan w'' plan''

/-- In whatever order a plan goes on, it comes to an end in which `post` holds. -/
inductive Concludes (post : W → α → Prop) : W → Plan I τ α → Prop where
  | ended {w : W} {a : α} (h : post w a) : Concludes post w (.pure a)
  | goes {w : W} {plan : Plan I τ α} (can : ∃ w' plan', Moves answering cut w plan w' plan')
      (all : ∀ w' plan', Moves answering cut w plan w' plan' → Concludes post w' plan') :
      Concludes post w plan

end Definitions

/-- Each answer of a world leads from a standing to another one that the terms allow for. -/
def Terms.Reckons (terms : Terms I Φ) (answering : Answering I W) (stands : Φ → W → Prop) : Prop :=
  ∀ {φ : Φ} {w w' : W} {r : I.Request} {answer : I.Answer r} {post : Φ → I.Answer r → Prop},
    stands φ w → terms.ask φ r post → answering w r answer w' →
      ∃ φ', stands φ' w' ∧ post φ' answer

variable [Seconds τ] {answering : Answering I W} {cut : Prop} {w w' w'' : W}
  {post post' : W → α → Prop}

/-!
## Moves
-/

theorem not_moves_pure {a : α} {plan' : Plan I τ α}
    (h : Moves answering cut w (.pure a) w' plan') : False := by
  cases h with
  | turn turns => cases turns
  | hears asks answers => cases asks

theorem moves_ask {r : I.Request} {next : I.Answer r → Plan I τ α} {plan' : Plan I τ α}
    (h : Moves answering cut w (.ask r next) w' plan') :
    ∃ answer, answering w r answer w' ∧ plan' = next answer := by
  cases h with
  | turn turns => cases turns
  | hears asks answers =>
      cases asks with
      | ask r next answer => exact ⟨answer, answers, rfl⟩

theorem exists_moves_ask {r : I.Request} (next : I.Answer r → Plan I τ α)
    (hanswers : ∃ answer w', answering w r answer w') :
    ∃ w' plan', Moves answering cut w (.ask r next) w' plan' := by
  rcases hanswers with ⟨answer, w', hanswer⟩
  exact ⟨w', next answer, .hears (.ask r next answer) hanswer⟩

theorem exists_moves_left {left : Plan I τ β} {right : Plan I τ γ}
    {next : Option (β × γ) → Plan I τ α} (h : ∃ w' left', Moves answering cut w left w' left') :
    ∃ w' plan', Moves answering cut w (.both left right next) w' plan' := by
  rcases h with ⟨w', left', hmoves⟩
  cases hmoves with
  | turn turns => exact ⟨_, _, .turn (.left right next turns)⟩
  | hears asks answers => exact ⟨_, _, .hears (.left right next asks) answers⟩

theorem exists_moves_right {left : Plan I τ β} {right : Plan I τ γ}
    {next : Option (β × γ) → Plan I τ α} (h : ∃ w' right', Moves answering cut w right w' right') :
    ∃ w' plan', Moves answering cut w (.both left right next) w' plan' := by
  rcases h with ⟨w', right', hmoves⟩
  cases hmoves with
  | turn turns => exact ⟨_, _, .turn (.right left next turns)⟩
  | hears asks answers => exact ⟨_, _, .hears (.right left next asks) answers⟩

theorem moves_bind {p : Plan I τ β} {f : β → Plan I τ α} {plan' : Plan I τ α}
    (h : Moves answering cut w (p.bind f) w' plan') :
    (∃ b, p = .pure b) ∨ ∃ p', Moves answering cut w p w' p' ∧ plan' = p'.bind f := by
  cases p with
  | pure b => exact Or.inl ⟨b, rfl⟩
  | ask r next =>
      rcases moves_ask h with ⟨answer, hanswer, rfl⟩
      exact Or.inr ⟨next answer, .hears (.ask r next answer) hanswer, rfl⟩
  | iterate step start next =>
      cases h with
      | hears asks answers => cases asks
      | turn turns =>
          cases turns
          refine Or.inr ⟨_, .turn (.unroll step start next), ?_⟩
          rw [bind_assoc]
          congr
          funext result
          cases result with
          | inl s => rfl
          | inr b => rfl
  | both left right next =>
      cases h with
      | turn turns =>
          cases turns with
          | left _ _ turns => exact Or.inr ⟨_, .turn (.left right next turns), rfl⟩
          | right _ _ turns => exact Or.inr ⟨_, .turn (.right left next turns), rfl⟩
          | joined b c => exact Or.inr ⟨_, .turn (.joined b c next), rfl⟩
          | parted b c _ cut => exact Or.inr ⟨_, .turn (.parted b c next cut), rfl⟩
      | hears asks answers =>
          cases asks with
          | left _ _ asks => exact Or.inr ⟨_, .hears (.left right next asks) answers, rfl⟩
          | right _ _ asks => exact Or.inr ⟨_, .hears (.right left next asks) answers, rfl⟩
  | within limit body next =>
      cases h with
      | turn turns =>
          cases turns with
          | late _ _ passed => exact Or.inr ⟨_, .turn (.late body next passed), rfl⟩
          | body _ hleft turns => exact Or.inr ⟨_, .turn (.body next hleft turns), rfl⟩
          | lapsed b _ lapse hleft how =>
              exact Or.inr ⟨_, .turn (.lapsed b next lapse hleft how), rfl⟩
      | hears asks answers =>
          cases asks with
          | body _ hleft asks => exact Or.inr ⟨_, .hears (.body next hleft asks) answers, rfl⟩

/-!
## Runs
-/

theorem runs_pure {a b : α}
    (h : Runs answering cut w (.pure a : Plan I τ α) w' (.pure b)) : w' = w ∧ b = a := by
  cases h with
  | refl => exact ⟨rfl, rfl⟩
  | step moves runs => exact (not_moves_pure moves).elim

theorem Runs.of_bind {p : Plan I τ β} {f : β → Plan I τ α} {a : α}
    (h : Runs answering cut w (p.bind f) w'' (.pure a)) :
    ∃ w' b, Runs answering cut w p w' (.pure b) ∧ Runs answering cut w' (f b) w'' (.pure a) := by
  generalize hplan : p.bind f = plan at h
  generalize hend : Plan.pure a = last at h
  induction h generalizing p with
  | refl w plan =>
      subst hend
      cases p with
      | pure b => exact ⟨w, b, .refl w _, by rw [← hplan]; exact .refl w _⟩
      | _ => cases hplan
  | step moves runs ih =>
      subst hplan hend
      rcases moves_bind moves with ⟨b, rfl⟩ | ⟨p', hmoves, hplan'⟩
      · exact ⟨_, b, .refl _ _, .step moves runs⟩
      · rcases ih hplan'.symm rfl with ⟨w₁, b, hfirst, hsecond⟩
        exact ⟨w₁, b, .step hmoves hfirst, hsecond⟩

theorem Concludes.of_runs {plan : Plan I τ α} {a : α} (h : Concludes answering cut post w plan)
    (hruns : Runs answering cut w plan w' (.pure a)) : post w' a := by
  induction h with
  | ended h =>
      rcases runs_pure hruns with ⟨rfl, rfl⟩
      exact h
  | goes can all ih =>
      cases hruns with
      | refl =>
          rcases can with ⟨_, _, hmoves⟩
          exact (not_moves_pure hmoves).elim
      | step moves runs => exact ih _ _ moves runs

theorem Concludes.mono {plan : Plan I τ α} (h : Concludes answering cut post w plan)
    (hpost : ∀ w a, post w a → post' w a) : Concludes answering cut post' w plan := by
  induction h with
  | ended h => exact .ended (hpost _ _ h)
  | goes can all ih => exact .goes can ih

/-- Two legs conclude if they can go on, and conclude after every step of either and after both have
ended. -/
theorem concludes_legs {left : Plan I τ β} {right : Plan I τ γ}
    {next : Option (β × γ) → Plan I τ α}
    (hcan : ∃ w' plan', Moves answering cut w (.both left right next) w' plan')
    (hleft : ∀ w' left', Moves answering cut w left w' left' →
      Concludes answering cut post w' (.both left' right next))
    (hright : ∀ w' right', Moves answering cut w right w' right' →
      Concludes answering cut post w' (.both left right' next))
    (hended : ∀ b c, left = .pure b → right = .pure c →
      Concludes answering cut post w (next (some (b, c))) ∧
        (cut → Concludes answering cut post w (next none))) :
    Concludes answering cut post w (.both left right next) := by
  apply Concludes.goes hcan
  intro w' plan' hmoves
  cases hmoves with
  | turn turns =>
      cases turns with
      | left _ _ turns => exact hleft _ _ (.turn turns)
      | right _ _ turns => exact hright _ _ (.turn turns)
      | joined b c => exact (hended b c rfl rfl).1
      | parted b c _ hcut => exact (hended b c rfl rfl).2 hcut
  | hears asks answers =>
      cases asks with
      | left _ _ asks => exact hleft _ _ (.hears asks answers)
      | right _ _ asks => exact hright _ _ (.hears asks answers)

/-!
## Straight plans
-/

section Straight

variable {terms : Terms I Φ} {stands : Φ → W → Prop} {φ : Φ} {ψ : Ψ}

/-- A straight plan that meets its terms concludes. -/
theorem concludes_of_meets {plan : Plan I τ α} {postPlan : Φ → α → Prop}
    (hanswers : ∀ w r, ∃ answer w', answering w r answer w')
    (hreckons : terms.Reckons answering stands) (hstands : stands φ w) (hstraight : plan.Straight)
    (hmeets : plan.Meets terms φ postPlan) :
    Concludes answering cut (fun w a => ∃ φ, stands φ w ∧ postPlan φ a) w plan := by
  induction plan generalizing φ w with
  | pure a => exact .ended ⟨φ, hstands, hmeets⟩
  | ask r next ih =>
      apply Concludes.goes (exists_moves_ask next (hanswers w r))
      intro w' plan' hmoves
      rcases moves_ask hmoves with ⟨answer, hanswer, rfl⟩
      rcases hreckons hstands hmeets hanswer with ⟨φ', hstands', hnext⟩
      exact ih answer hstands' (hstraight answer) hnext
  | iterate step start next ihStep ih => exact hstraight.elim
  | both left right next ihLeft ihRight ih => exact hstraight.elim
  | within limit body next ihBody ih => exact hstraight.elim

theorem concludes_both {left : Plan I τ β} {right : Plan I τ γ}
    {next : Option (β × γ) → Plan I τ α} {termsLeft : Terms I Ψ} {termsRight : Terms I Φ}
    {stands : Ψ → Φ → W → Prop} {postLeft : Ψ → β → Prop} {postRight : Φ → γ → Prop}
    (hanswers : ∀ w r, ∃ answer w', answering w r answer w')
    (hreckonsLeft : ∀ φ, termsLeft.Reckons answering fun ψ => stands ψ φ)
    (hreckonsRight : ∀ ψ, termsRight.Reckons answering (stands ψ)) (hstands : stands ψ φ w)
    (hleft : left.Straight) (hright : right.Straight)
    (hmeetsLeft : left.Meets termsLeft ψ postLeft) (hmeetsRight : right.Meets termsRight φ postRight)
    (hnext : ∀ ψ φ w b c, stands ψ φ w → postLeft ψ b → postRight φ c →
      Concludes answering cut post w (next (some (b, c))) ∧
        (cut → Concludes answering cut post w (next none))) :
    Concludes answering cut post w (.both left right next) := by
  -- The induction is on both legs, since either can make the next request.
  induction left generalizing ψ φ w right with
  | pure b =>
      induction right generalizing φ w with
      | pure c =>
          apply concludes_legs
          · exact ⟨_, _, .turn (.joined b c next)⟩
          · intro w' left' hmoves
            exact (not_moves_pure hmoves).elim
          · intro w' right' hmoves
            exact (not_moves_pure hmoves).elim
          · intro b' c' hb hc
            cases hb
            cases hc
            exact hnext ψ φ w b c hstands hmeetsLeft hmeetsRight
      | ask r goOn ih =>
          apply concludes_legs
          · exact exists_moves_right (exists_moves_ask goOn (hanswers w r))
          · intro w' left' hmoves
            exact (not_moves_pure hmoves).elim
          · intro w' right' hmoves
            rcases moves_ask hmoves with ⟨answer, hanswer, rfl⟩
            rcases hreckonsRight ψ hstands hmeetsRight hanswer with ⟨φ', hstands', hgoOn⟩
            exact ih answer hstands' (hright answer) hgoOn hnext
          · intro b' c' _ hc
            cases hc
      | iterate step start next ihStep ih => exact hright.elim
      | both left right next ihLeft ihRight ih => exact hright.elim
      | within limit body next ihBody ih => exact hright.elim
  | ask r goOn ihLeft =>
      have hgoLeft : ∀ {φ : Φ} {w : W} {right : Plan I τ γ}, stands ψ φ w → right.Straight →
          right.Meets termsRight φ postRight → ∀ w' left',
            Moves answering cut w (.ask r goOn) w' left' →
              Concludes answering cut post w' (.both left' right next) := by
        intro φ w right hstands hright hmeetsRight w' left' hmoves
        rcases moves_ask hmoves with ⟨answer, hanswer, rfl⟩
        rcases hreckonsLeft φ hstands hmeetsLeft hanswer with ⟨ψ', hstands', hgoOn⟩
        exact ihLeft answer hstands' (hleft answer) hright hgoOn hmeetsRight hnext
      clear ihLeft
      induction right generalizing φ w with
      | pure c =>
          apply concludes_legs
          · exact exists_moves_left (exists_moves_ask goOn (hanswers w r))
          · exact hgoLeft hstands hright hmeetsRight
          · intro w' right' hmoves
            exact (not_moves_pure hmoves).elim
          · intro b' c' hb _
            cases hb
      | ask r' goOn' ih =>
          apply concludes_legs
          · exact exists_moves_left (exists_moves_ask goOn (hanswers w r))
          · exact hgoLeft hstands hright hmeetsRight
          · intro w' right' hmoves
            rcases moves_ask hmoves with ⟨answer, hanswer, rfl⟩
            rcases hreckonsRight ψ hstands hmeetsRight hanswer with ⟨φ', hstands', hgoOn⟩
            exact ih answer hstands' (hright answer) hgoOn hnext hgoLeft
          · intro b' c' hb _
            cases hb
      | iterate step start next ihStep ih => exact hright.elim
      | both left right next ihLeft ihRight ih => exact hright.elim
      | within limit body next ihBody ih => exact hright.elim
  | iterate step start next ihStep ih => exact hleft.elim
  | both left right next ihLeft ihRight ih => exact hleft.elim
  | within limit body next ihBody ih => exact hleft.elim

end Straight
end Plan
end Turnstile
