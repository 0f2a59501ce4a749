import Turnstile.Proofs.Plan.Course
import Turnstile.Proofs.Plan.Conclusion
import Turnstile.Redis.Keyspace

/-!
# Plans on a server of their own

Where nobody else uses a server, nothing fails and no time passes, only the order in which the legs
of a plan go on is left open.  `Comes` says that a plan comes to its end in every order: it never
gets stuck, and it cannot go on for ever.

A leg is judged by itself if a view tells the keys apart from what each of the two legs has done.
Whatever one leg has done, a step of the other one changes only its own part of the view.

## Main definitions

* `Tidy.Step` - a plan goes on.
* `Tidy.Comes` - a plan comes to an end in every order.
* `Tidy.beside` - the terms of a leg.

## Main statements

* `Tidy.comes_of_meets` and `Tidy.comes_both` - a straight plan and two straight legs come to an end.
-/

namespace Turnstile
namespace Tidy

open Redis

universe u v

variable {τ α β γ : Type} [Seconds τ]

/-- What is answered at a time `now`.  Any client may be dialled and may decode or not, and the
surroundings may give any answer. -/
inductive Answers (now : τ) (keys : Keyspace τ) :
    (r : (Premises τ).Request) → (Premises τ).Answer r → Keyspace τ → Prop where
  | dial (endpoint : String) (client : Client) :
      Answers now keys (.inl (.dial endpoint)) client keys
  | call (client : Client) (command : Command) (decodes : Bool) :
      Answers now keys (.inl (.call client command)) (keys.run decodes now command).1.reply
        (keys.run decodes now command).2
  | hangUp (client : Client) : Answers now keys (.inl (.hangUp client)) () keys
  | ambient (r : AmbientRequest τ) (answer : r.Answer τ) : Answers now keys (.inr r) answer keys

inductive Step (now : τ) (keys : Keyspace τ) (plan : Plan (Premises τ) τ α) :
    Keyspace τ → Plan (Premises τ) τ α → Prop where
  | turn {plan' : Plan (Premises τ) τ α} (turns : Plan.Turns False plan plan') :
      Step now keys plan keys plan'
  | hears {r : (Premises τ).Request} {answer : (Premises τ).Answer r} {keys' : Keyspace τ}
      {plan' : Plan (Premises τ) τ α} (asks : plan.Asks r answer plan')
      (answers : Answers now keys r answer keys') : Step now keys plan keys' plan'

/-- In whatever order a plan goes on, it comes to an end in which `post` holds. -/
inductive Comes (now : τ) (post : Keyspace τ → α → Prop) :
    Keyspace τ → Plan (Premises τ) τ α → Prop where
  | ended {keys : Keyspace τ} {a : α} (h : post keys a) : Comes now post keys (.pure a)
  | goes {keys : Keyspace τ} {plan : Plan (Premises τ) τ α}
      (can : ∃ keys' plan', Step now keys plan keys' plan')
      (all : ∀ keys' plan', Step now keys plan keys' plan' → Comes now post keys' plan') :
      Comes now post keys plan

variable {now : τ} {keys keys' : Keyspace τ} {post : Keyspace τ → α → Prop}

/-!
## Steps
-/

theorem exists_answers (now : τ) (keys : Keyspace τ) (r : (Premises τ).Request) :
    ∃ answer keys', Answers now keys r answer keys' := by
  rcases r with (endpoint | ⟨client, command⟩ | client) | r
  · exact ⟨_, _, .dial endpoint ⟨0, endpoint, {}⟩⟩
  · exact ⟨_, _, .call client command false⟩
  · exact ⟨_, _, .hangUp client⟩
  · rcases r.nonempty_answer with ⟨answer⟩
    exact ⟨answer, keys, .ambient r answer⟩

theorem answers_call {client : Client} {command : Command}
    {reply : Except (Failure τ) command.Reply}
    (h : Answers now keys (.inl (.call client command)) reply keys') :
    ∃ decodes, reply = (keys.run decodes now command).1.reply ∧
      keys' = (keys.run decodes now command).2 := by
  cases h with
  | call _ _ decodes => exact ⟨decodes, rfl, rfl⟩

theorem step_iff_moves {plan plan' : Plan (Premises τ) τ α} :
    Step now keys plan keys' plan' ↔ Plan.Moves (Answers now) False keys plan keys' plan' := by
  constructor
  · intro h
    cases h with
    | turn turns => exact .turn turns
    | hears asks answers => exact .hears asks answers
  · intro h
    cases h with
    | turn turns => exact .turn turns
    | hears asks answers => exact .hears asks answers

theorem comes_iff_concludes {plan : Plan (Premises τ) τ α} :
    Comes now post keys plan ↔ Plan.Concludes (Answers now) False post keys plan := by
  constructor
  · intro h
    induction h with
    | ended h => exact .ended h
    | goes can all ih =>
        simp only [step_iff_moves] at can ih
        exact .goes can ih
  · intro h
    induction h with
    | ended h => exact .ended h
    | goes can all ih =>
        simp only [← step_iff_moves] at can ih
        exact .goes can ih

/-!
## Terms of a leg
-/

/-- The terms of a plan beside another one.  What a plan has done is its standing, and `view` tells
the keys from what either has done. -/
def beside {Φ : Type u} {Ψ : Type v} (now : τ) (view : Ψ → Φ → Keyspace τ) :
    Plan.Terms (Premises τ) Φ where
  ask φ r post := ∀ ψ answer keys', Answers now (view ψ φ) r answer keys' →
    ∃ φ', keys' = view ψ φ' ∧ post φ' answer
  ask_mono hpost h ψ answer keys' hanswers := by
    rcases h ψ answer keys' hanswers with ⟨φ', hkeys, hφ'⟩
    exact ⟨φ', hkeys, hpost φ' answer hφ'⟩
  interruptible := False

variable {Φ : Type u} {Ψ : Type v} {view : Ψ → Φ → Keyspace τ} {φ φ' : Φ} {ψ : Ψ}

theorem beside_reckons (now : τ) (view : Ψ → Φ → Keyspace τ) (ψ : Ψ) :
    (beside now view).Reckons (Answers now) fun φ keys => keys = view ψ φ := by
  intro φ keys keys' r answer post hkeys hask hanswers
  rw [hkeys] at hanswers
  exact hask ψ answer keys' hanswers

theorem comes_of_meets {plan : Plan (Premises τ) τ α} {postPlan : Φ → α → Prop}
    (hstraight : plan.Straight) (hmeets : plan.Meets (beside now view) φ postPlan)
    (hpost : ∀ φ' a, postPlan φ' a → post (view ψ φ') a) : Comes now post (view ψ φ) plan := by
  rw [comes_iff_concludes]
  have hconcludes : Plan.Concludes (Answers now) False
      (fun keys a => ∃ φ', keys = view ψ φ' ∧ postPlan φ' a) (view ψ φ) plan :=
    Plan.concludes_of_meets (exists_answers now) (beside_reckons now view ψ) rfl hstraight hmeets
  apply hconcludes.mono
  rintro keys a ⟨φ', rfl, ha⟩
  exact hpost φ' a ha

theorem comes_both {left : Plan (Premises τ) τ β} {right : Plan (Premises τ) τ γ}
    {next : Option (β × γ) → Plan (Premises τ) τ α} {postLeft : Ψ → β → Prop}
    {postRight : Φ → γ → Prop} (hleft : left.Straight) (hright : right.Straight)
    (hmeetsLeft : left.Meets (beside now fun φ ψ => view ψ φ) ψ postLeft)
    (hmeetsRight : right.Meets (beside now view) φ postRight)
    (hnext : ∀ ψ' φ' b c, postLeft ψ' b → postRight φ' c →
      Comes now post (view ψ' φ') (next (some (b, c)))) :
    Comes now post (view ψ φ) (.both left right next) := by
  rw [comes_iff_concludes]
  apply Plan.concludes_both (exists_answers now) (beside_reckons now fun φ ψ => view ψ φ)
    (beside_reckons now view) rfl hleft hright hmeetsLeft hmeetsRight
  rintro ψ' φ' keys b c rfl hb hc
  exact ⟨comes_iff_concludes.mp (hnext ψ' φ' b c hb hc), False.elim⟩

end Tidy
end Turnstile
