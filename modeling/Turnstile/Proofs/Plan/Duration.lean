import Turnstile.Proofs.Plan.Exchange
import Turnstile.Proofs.Plan.Straight

/-!
# How long plans last

A plan that has come to its end was begun at some time and was over at some other, and it heard some
answers meanwhile.  What may be answered, and how long that takes, is said by a pace.  A pace also
says which answers there are only for a plan that is interrupted.

A plan is interrupted from outside only if it may be.  But the body of a plan under a limit may be
interrupted whenever the limit has passed by the time at which the body is over.

Two legs begin at the same time, and their plan goes on when both are over.  In what is heard of
them the answers to the left leg come first.

## Main definitions

* `Plan.Lasts` - how long a plan lasts, what it hears, and how it ends.
* `Plan.Solo` - plans that follow no other plans side by side or under a limit.
* `Plan.Terms.tally` - terms under which a standing is kept of all that is heard.

## Main statements

* `Plan.Lasts.of_bind` - a plan that goes on as another one lasts as long as both together.
* `Plan.Lasts.of_meets` - how a plan on its own ends that meets its terms.
-/

namespace Turnstile
namespace Plan

universe u v

variable {I : Interface.{u}} {Φ : Type v} {τ α β : Type}

/-- What may be answered to a plan that may be interrupted or not, when it asks at some time, and at
what time. -/
abbrev Pace (I : Interface.{u}) (τ : Type) : Type u :=
  Prop → τ → (r : I.Request) → I.Answer r → τ → Prop

/-- A plan that may be interrupted or not, and is begun at some time, hears some answers, and is
over at some time with some result. -/
inductive Lasts [Seconds τ] (pace : Pace I τ) : {α : Type} → Prop → τ → Plan I τ α →
    List (Exchange I) → τ → α → Prop where
  | ended {α : Type} (cut : Prop) (time : τ) (a : α) : Lasts pace cut time (.pure a) [] time a
  | asks {α : Type} {cut : Prop} {began met finish : τ} {r : I.Request} {answer : I.Answer r}
      {next : I.Answer r → Plan I τ α} {heard : List (Exchange I)} {a : α}
      (answers : pace cut began r answer met)
      (rest : Lasts pace cut met (next answer) heard finish a) :
      Lasts pace cut began (.ask r next) (⟨r, answer⟩ :: heard) finish a
  | unroll {σ β α : Type} {cut : Prop} {began finish : τ} {step : σ → Plan I τ (σ ⊕ β)} {start : σ}
      {next : β → Plan I τ α} {heard : List (Exchange I)} {a : α}
      (rest : Lasts pace cut began
        ((step start).bind (Sum.elim (fun s => .iterate step s next) next)) heard finish a) :
      Lasts pace cut began (.iterate step start next) heard finish a
  | joined {β γ α : Type} {cut : Prop} {began overLeft overRight finish : τ} {left : Plan I τ β}
      {right : Plan I τ γ} {next : Option (β × γ) → Plan I τ α} {b : β} {c : γ}
      {heardLeft heardRight heard : List (Exchange I)} {a : α}
      (ofLeft : Lasts pace cut began left heardLeft overLeft b)
      (ofRight : Lasts pace cut began right heardRight overRight c)
      (rest : Lasts pace cut (Seconds.later overLeft overRight) (next (some (b, c))) heard finish
        a) :
      Lasts pace cut began (.both left right next) (heardLeft ++ heardRight ++ heard) finish a
  | parted {β γ α : Type} {cut : Prop} {began overLeft overRight finish : τ} {left : Plan I τ β}
      {right : Plan I τ γ} {next : Option (β × γ) → Plan I τ α} {b : β} {c : γ}
      {heardLeft heardRight heard : List (Exchange I)} {a : α} (interrupted : cut)
      (ofLeft : Lasts pace cut began left heardLeft overLeft b)
      (ofRight : Lasts pace cut began right heardRight overRight c)
      (rest : Lasts pace cut (Seconds.later overLeft overRight) (next none) heard finish a) :
      Lasts pace cut began (.both left right next) (heardLeft ++ heardRight ++ heard) finish a
  | late {β α : Type} {cut : Prop} {began finish limit : τ} {body : Plan I τ β}
      {next : Lapse → Option β → Plan I τ α} {heard : List (Exchange I)} {a : α}
      (passed : limit ≤ 0) (rest : Lasts pace cut began (next .expired none) heard finish a) :
      Lasts pace cut began (.within limit body next) heard finish a
  | inTime {β α : Type} {cut : Prop} {began between finish limit : τ} {body : Plan I τ β}
      {next : Lapse → Option β → Plan I τ α} {b : β} {heardBody heard : List (Exchange I)} {a : α}
      (left : ¬ limit ≤ 0) (ofBody : Lasts pace cut began body heardBody between b)
      (rest : Lasts pace cut between (next .inTime (some b)) heard finish a) :
      Lasts pace cut began (.within limit body next) (heardBody ++ heard) finish a
  | expired {β α : Type} {cut : Prop} {began between finish limit : τ} {body : Plan I τ β}
      {next : Lapse → Option β → Plan I τ α} {b : β} {heardBody heard : List (Exchange I)} {a : α}
      (left : ¬ limit ≤ 0) (ofBody : Lasts pace True began body heardBody between b)
      (passed : began + limit ≤ between)
      (rest : Lasts pace cut between (next .expired (some b)) heard finish a) :
      Lasts pace cut began (.within limit body next) (heardBody ++ heard) finish a
  | interrupted {β α : Type} {cut : Prop} {began between finish limit : τ} {body : Plan I τ β}
      {next : Lapse → Option β → Plan I τ α} {b : β} {heardBody heard : List (Exchange I)} {a : α}
      (interrupted : cut) (left : ¬ limit ≤ 0)
      (ofBody : Lasts pace True began body heardBody between b)
      (rest : Lasts pace cut between (next .interrupted (some b)) heard finish a) :
      Lasts pace cut began (.within limit body next) (heardBody ++ heard) finish a
  | withdrawn {β α : Type} {cut : Prop} {began finish limit : τ} {body : Plan I τ β}
      {next : Lapse → Option β → Plan I τ α} {heard : List (Exchange I)} {a : α}
      (interrupted : cut) (left : ¬ limit ≤ 0)
      (rest : Lasts pace cut began (next .interrupted none) heard finish a) :
      Lasts pace cut began (.within limit body next) heard finish a

theorem unroll_bind {σ γ : Type} (step : σ → Plan I τ (σ ⊕ γ)) (start : σ) (next : γ → Plan I τ β)
    (f : β → Plan I τ α) :
    ((step start).bind (Sum.elim (fun s => .iterate step s next) next)).bind f =
      (step start).bind (Sum.elim (fun s => .iterate step s fun c => (next c).bind f)
        fun c => (next c).bind f) := by
  rw [bind_assoc]
  congr
  funext result
  cases result with
  | inl s => rfl
  | inr c => rfl

section Lasts

variable [Seconds τ] {pace : Pace I τ} {cut : Prop} {began finish : τ} {heard : List (Exchange I)}

theorem lasts_pure {a b : α} (h : (.pure a : Plan I τ α).Lasts pace cut began heard finish b) :
    heard = [] ∧ finish = began ∧ b = a := by
  cases h
  exact ⟨rfl, rfl, rfl⟩

theorem lasts_ask {r : I.Request} {next : I.Answer r → Plan I τ α} {a : α}
    (h : (.ask r next : Plan I τ α).Lasts pace cut began heard finish a) :
    ∃ answer met rest, heard = ⟨r, answer⟩ :: rest ∧ pace cut began r answer met ∧
      (next answer).Lasts pace cut met rest finish a := by
  cases h with
  | asks answers rest => exact ⟨_, _, _, rfl, answers, rest⟩

theorem Lasts.of_pure {f : β → Plan I τ α} {b : β} {plan : Plan I τ α} {a : α}
    (h : plan.Lasts pace cut began heard finish a) (hplan : (Plan.pure b).bind f = plan) :
    ∃ before after between b', heard = before ++ after ∧
      (.pure b : Plan I τ β).Lasts pace cut began before between b' ∧
        (f b').Lasts pace cut between after finish a := by
  subst hplan
  exact ⟨[], heard, began, b, rfl, .ended cut began b, h⟩

theorem Lasts.bind {between : τ} {before after : List (Exchange I)} {p : Plan I τ β}
    {f : β → Plan I τ α} {b : β} {a : α} (h : p.Lasts pace cut began before between b)
    (hrest : (f b).Lasts pace cut between after finish a) :
    (p.bind f).Lasts pace cut began (before ++ after) finish a := by
  induction h with
  | ended cut time b => exact hrest
  | asks answers _ ih => exact .asks answers (ih hrest)
  | unroll _ ih =>
      apply Lasts.unroll
      rw [← unroll_bind]
      exact ih hrest
  | joined ofLeft ofRight _ _ _ ih =>
      rw [List.append_assoc]
      exact .joined ofLeft ofRight (ih hrest)
  | parted interrupted ofLeft ofRight _ _ _ ih =>
      rw [List.append_assoc]
      exact .parted interrupted ofLeft ofRight (ih hrest)
  | late passed _ ih => exact .late passed (ih hrest)
  | inTime left ofBody _ _ ih =>
      rw [List.append_assoc]
      exact .inTime left ofBody (ih hrest)
  | expired left ofBody passed _ _ ih =>
      rw [List.append_assoc]
      exact .expired left ofBody passed (ih hrest)
  | interrupted interrupted left ofBody _ _ ih =>
      rw [List.append_assoc]
      exact .interrupted interrupted left ofBody (ih hrest)
  | withdrawn interrupted left _ ih => exact .withdrawn interrupted left (ih hrest)

theorem Lasts.of_bind {p : Plan I τ β} {f : β → Plan I τ α} {a : α}
    (h : (p.bind f).Lasts pace cut began heard finish a) :
    ∃ before after between b, heard = before ++ after ∧
      p.Lasts pace cut began before between b ∧ (f b).Lasts pace cut between after finish a := by
  generalize hplan : p.bind f = plan at h
  induction h generalizing p with
  | ended cut time a =>
      cases p with
      | pure b => exact of_pure (.ended cut time a) hplan
      | _ => cases hplan
  | asks answers rest ih =>
      cases p with
      | pure b => exact of_pure (.asks answers rest) hplan
      | ask r next =>
          cases hplan
          rcases ih rfl with ⟨before, after, between, b, rfl, hfirst, hrest⟩
          exact ⟨_ :: before, after, between, b, rfl, .asks answers hfirst, hrest⟩
      | _ => cases hplan
  | unroll rest ih =>
      cases p with
      | pure b => exact of_pure (.unroll rest) hplan
      | iterate step start next =>
          cases hplan
          rcases ih (unroll_bind _ _ _ f) with ⟨before, after, between, b, hheard, hfirst, hsecond⟩
          exact ⟨before, after, between, b, hheard, .unroll hfirst, hsecond⟩
      | _ => cases hplan
  | joined ofLeft ofRight rest _ _ ih =>
      cases p with
      | pure b => exact of_pure (.joined ofLeft ofRight rest) hplan
      | both left right next =>
          cases hplan
          rcases ih rfl with ⟨before, after, between, b, rfl, hfirst, hrest⟩
          exact ⟨_, after, between, b, (List.append_assoc _ _ _).symm,
            .joined ofLeft ofRight hfirst, hrest⟩
      | _ => cases hplan
  | parted interrupted ofLeft ofRight rest _ _ ih =>
      cases p with
      | pure b => exact of_pure (.parted interrupted ofLeft ofRight rest) hplan
      | both left right next =>
          cases hplan
          rcases ih rfl with ⟨before, after, between, b, rfl, hfirst, hrest⟩
          exact ⟨_, after, between, b, (List.append_assoc _ _ _).symm,
            .parted interrupted ofLeft ofRight hfirst, hrest⟩
      | _ => cases hplan
  | late passed rest ih =>
      cases p with
      | pure b => exact of_pure (.late passed rest) hplan
      | within limit body next =>
          cases hplan
          rcases ih rfl with ⟨before, after, between, b, rfl, hfirst, hrest⟩
          exact ⟨before, after, between, b, rfl, .late passed hfirst, hrest⟩
      | _ => cases hplan
  | inTime left ofBody rest _ ih =>
      cases p with
      | pure b => exact of_pure (.inTime left ofBody rest) hplan
      | within limit body next =>
          cases hplan
          rcases ih rfl with ⟨before, after, between, b, rfl, hfirst, hrest⟩
          exact ⟨_, after, between, b, (List.append_assoc _ _ _).symm,
            .inTime left ofBody hfirst, hrest⟩
      | _ => cases hplan
  | expired left ofBody passed rest _ ih =>
      cases p with
      | pure b => exact of_pure (.expired left ofBody passed rest) hplan
      | within limit body next =>
          cases hplan
          rcases ih rfl with ⟨before, after, between, b, rfl, hfirst, hrest⟩
          exact ⟨_, after, between, b, (List.append_assoc _ _ _).symm,
            .expired left ofBody passed hfirst, hrest⟩
      | _ => cases hplan
  | interrupted interrupted left ofBody rest _ ih =>
      cases p with
      | pure b => exact of_pure (.interrupted interrupted left ofBody rest) hplan
      | within limit body next =>
          cases hplan
          rcases ih rfl with ⟨before, after, between, b, rfl, hfirst, hrest⟩
          exact ⟨_, after, between, b, (List.append_assoc _ _ _).symm,
            .interrupted interrupted left ofBody hfirst, hrest⟩
      | _ => cases hplan
  | withdrawn interrupted left rest ih =>
      cases p with
      | pure b => exact of_pure (.withdrawn interrupted left rest) hplan
      | within limit body next =>
          cases hplan
          rcases ih rfl with ⟨before, after, between, b, rfl, hfirst, hrest⟩
          exact ⟨before, after, between, b, rfl, .withdrawn interrupted left hfirst, hrest⟩
      | _ => cases hplan

end Lasts

/-!
## Plans on their own
-/

/-- Whether a plan follows no other plans side by side or under a limit. -/
def Solo : {α : Type} → Plan I τ α → Prop
  | _, .pure _ => True
  | _, .ask _ next => ∀ answer, (next answer).Solo
  | _, .iterate step _ next => (∀ s, (step s).Solo) ∧ ∀ b, (next b).Solo
  | _, _ => False

namespace Solo

theorem bind {p : Plan I τ α} {f : α → Plan I τ β} (h : p.Solo) (hnext : ∀ a, (f a).Solo) :
    (p.bind f).Solo := by
  induction p with
  | pure a => exact hnext a
  | ask r next ih => exact fun answer => ih answer (h answer) hnext
  | iterate step start next ihStep ih => exact ⟨h.1, fun b => ih b (h.2 b) hnext⟩
  | both left right next ihLeft ihRight ih => exact h.elim
  | within limit body next ihBody ih => exact h.elim

theorem serve {J : Interface.{v}} {server : (r : I.Request) → Plan J τ (I.Answer r)}
    {p : Plan I τ α} (h : p.Solo) (hserver : ∀ r, (server r).Solo) : (p.serve server).Solo := by
  induction p with
  | pure a => exact trivial
  | ask r next ih => exact (hserver r).bind fun answer => ih answer (h answer)
  | iterate step start next ihStep ih =>
      exact ⟨fun s => ihStep s (h.1 s), fun b => ih b (h.2 b)⟩
  | both left right next ihLeft ihRight ih => exact h.elim
  | within limit body next ihBody ih => exact h.elim

theorem unroll {σ : Type} {step : σ → Plan I τ (σ ⊕ β)} {start : σ} {next : β → Plan I τ α}
    (h : (Plan.iterate step start next).Solo) :
    ((step start).bind (Sum.elim (fun s => .iterate step s next) next)).Solo := by
  apply (h.1 start).bind
  intro result
  cases result with
  | inl s => exact h
  | inr b => exact h.2 b

end Solo

theorem Straight.solo {p : Plan I τ α} (h : p.Straight) : p.Solo := by
  induction p with
  | pure a => exact trivial
  | ask r next ih => exact fun answer => ih answer (h answer)
  | iterate step start next ihStep ih => exact h.elim
  | both left right next ihLeft ihRight ih => exact h.elim
  | within limit body next ihBody ih => exact h.elim

/-- Terms by which anything may be asked for.  What is answered is allowed, and added to the
standing. -/
def Terms.tally (advance : Φ → Exchange I → Φ) (allowed : Exchange I → Prop) : Terms I Φ where
  ask φ r post := ∀ answer, allowed ⟨r, answer⟩ → post (advance φ ⟨r, answer⟩) answer
  ask_mono hpost h answer hallowed := hpost _ answer (h answer hallowed)
  interruptible := True

section Lasts

variable [Seconds τ] {pace : Pace I τ} {cut : Prop} {began finish : τ} {heard : List (Exchange I)}
  {plan : Plan I τ α} {a : α}

/-- A plan on its own ends in the standing to which all leads that it hears, if what is answered at
its pace is allowed. -/
theorem Lasts.of_meets {advance : Φ → Exchange I → Φ} {allowed : Exchange I → Prop} {φ : Φ}
    {post : Φ → α → Prop} (h : plan.Lasts pace cut began heard finish a) (hsolo : plan.Solo)
    (hmeets : plan.Meets (.tally advance allowed) φ post)
    (hallowed : ∀ exchange ∈ heard, (∃ asked met, pace cut asked exchange.1 exchange.2 met) →
      allowed exchange) : post (heard.foldl advance φ) a := by
  induction h generalizing φ with
  | ended cut time a => exact hmeets
  | asks answers rest ih =>
      have hanswer := hallowed _ List.mem_cons_self ⟨_, _, answers⟩
      exact ih (hsolo _) (hmeets _ hanswer) fun exchange hrest =>
        hallowed exchange (List.mem_cons_of_mem _ hrest)
  | unroll rest ih => exact ih hsolo.unroll (hmeets.turns (.unroll _ _ _)) hallowed
  | joined => exact hsolo.elim
  | parted => exact hsolo.elim
  | late => exact hsolo.elim
  | inTime => exact hsolo.elim
  | expired => exact hsolo.elim
  | interrupted => exact hsolo.elim
  | withdrawn => exact hsolo.elim

end Lasts
end Plan

/-!
## Actions on their own
-/

namespace Action

variable {I : Interface.{u}} {τ ε α β σ : Type}

theorem solo_bind {action : Action I τ ε α} {next : α → Action I τ ε β} (h : action.run.Solo)
    (hnext : ∀ a, (next a).run.Solo) : (action >>= next).run.Solo := by
  apply Plan.Solo.bind h
  intro ended
  cases ended with
  | ok a => exact hnext a
  | error e => exact trivial

theorem solo_tryCatch {action : Action I τ ε α} {handler : ε → Action I τ ε α}
    (h : action.run.Solo) (hhandler : ∀ e, (handler e).run.Solo) :
    (tryCatch action handler).run.Solo := by
  apply Plan.Solo.bind h
  intro ended
  cases ended with
  | ok a => exact trivial
  | error e => exact hhandler e

theorem solo_ensuring {closing : Plan I τ Unit} {body : Action I τ ε α} (h : body.run.Solo)
    (hclosing : closing.Solo) : (ensuring closing body).run.Solo := by
  apply Plan.Solo.bind h
  intro ended
  apply hclosing.bind
  intro _
  exact trivial

theorem solo_repeatFrom {start : σ} {step : σ → Action I τ ε (σ ⊕ α)}
    (h : ∀ s, (step s).run.Solo) : (repeatFrom start step).run.Solo := by
  constructor
  · intro s
    apply (h s).bind
    intro ended
    rcases ended with e | result
    · exact trivial
    · cases result with
      | inl s' => exact trivial
      | inr a => exact trivial
  · exact fun _ => trivial

end Action
end Turnstile
