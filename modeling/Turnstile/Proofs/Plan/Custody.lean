import Mathlib.Algebra.Order.Group.Multiset
import Mathlib.Logic.Relation
import Mathlib.Tactic.Abel
import Turnstile.Proofs.Plan.Alike

/-!
# Custody

Some answers put things into the hands of a plan: open files, sessions, handles.  A custody says
which answers do, which requests need such a thing, and which requests give one up.  A plan carries
what it is given if it only uses what it has, and gives up all of it before it ends, whatever it is
answered and wherever it is interrupted.

What is in a plan's hands is a multiset, since the same thing can be handed out twice.  Two legs
have things of their own, so that no leg can use or give up what the other one has.

## Main definitions

* `Plan.Custody` - what requests and answers do to the things in a plan's hands.
* `Plan.Carries` - a plan uses only what it has and knows what it ends with.
* `Plan.Course.Leads` - a plan goes on in any way, with any answers.

## Main statements

* `Carries.turns` and `Carries.asks` - a plan that carries still does after a step.
* `Carries.accounted` - at any time what was opened is what was given up and what is still carried.
* `closed_once` - what was opened is given up once, and used only between the two.
-/

namespace Turnstile
namespace Plan

universe u

variable {I : Interface.{u}} {τ α β H : Type}

/-- What requests and answers do to the things in a plan's hands.  To give up a thing is to use
it. -/
structure Custody (I : Interface.{u}) (H : Type) where
  opened : (r : I.Request) → I.Answer r → Multiset H
  used : I.Request → Multiset H
  closed : I.Request → Multiset H
  closed_le : ∀ r, closed r ≤ used r

variable [Seconds τ]

/-- A plan with some things in its hands uses only those, and ends with a result and with things in
its hands that satisfy `post`.

A round of a loop ends with what it began with.  Each of two legs, and a body under a limit, has
things of its own that it gives up before it ends. -/
def Carries (custody : Custody I H) :
    {α : Type} → Plan I τ α → Multiset H → (α → Multiset H → Prop) → Prop
  | _, .pure a, held, post => post a held
  | _, .ask r next, held, post =>
      custody.used r ≤ held ∧ ∃ rest, held = custody.closed r + rest ∧
        ∀ answer, (next answer).Carries custody (custody.opened r answer + rest) post
  | _, .iterate step _ next, held, post =>
      (∀ s, (step s).Carries custody held fun _ held' => held' = held) ∧
        ∀ b, (next b).Carries custody held post
  | _, .both left right next, held, post =>
      ∃ ofLeft ofRight rest, held = ofLeft + ofRight + rest ∧
        (left.Carries custody ofLeft fun _ held' => held' = 0) ∧
        (right.Carries custody ofRight fun _ held' => held' = 0) ∧
        ∀ results?, (next results?).Carries custody rest post
  | _, .within limit body next, held, post =>
      ∃ ofBody rest, held = ofBody + rest ∧ (limit ≤ 0 → ofBody = 0) ∧
        (body.Carries custody ofBody fun _ held' => held' = 0) ∧
        ∀ lapse b?, (next lapse b?).Carries custody rest post

variable {custody : Custody I H} {held : Multiset H}

theorem carries_bind (p : Plan I τ α) (f : α → Plan I τ β) {post : β → Multiset H → Prop} :
    (p.bind f).Carries custody held post ↔
      p.Carries custody held fun a held' => (f a).Carries custody held' post := by
  induction p generalizing held with
  | pure a => exact Iff.rfl
  | ask r next ih => simp only [bind, Carries, ih]
  | iterate step start next ihStep ih => simp only [bind, Carries, ih]
  | both left right next ihLeft ihRight ih => simp only [bind, Carries, ih]
  | within limit body next ihBody ih => simp only [bind, Carries, ih]

theorem Carries.mono {p : Plan I τ α} {post post' : α → Multiset H → Prop}
    (h : p.Carries custody held post) (hpost : ∀ a held', post a held' → post' a held') :
    p.Carries custody held post' := by
  induction p generalizing held with
  | pure a => exact hpost a held h
  | ask r next ih =>
      rcases h with ⟨hused, rest, hheld, hnext⟩
      exact ⟨hused, rest, hheld, fun answer => ih answer (hnext answer) hpost⟩
  | iterate step start next ihStep ih => exact ⟨h.1, fun b => ih b (h.2 b) hpost⟩
  | both left right next ihLeft ihRight ih =>
      rcases h with ⟨ofLeft, ofRight, rest, hheld, hleft, hright, hnext⟩
      exact ⟨ofLeft, ofRight, rest, hheld, hleft, hright,
        fun results? => ih _ (hnext results?) hpost⟩
  | within limit body next ihBody ih =>
      rcases h with ⟨ofBody, rest, hheld, hlate, hbody, hnext⟩
      exact ⟨ofBody, rest, hheld, hlate, hbody, fun lapse b? => ih _ _ (hnext lapse b?) hpost⟩

/-!
## Steps
-/

theorem Carries.turns {interruptible : Prop} {p p' : Plan I τ α} {post : α → Multiset H → Prop}
    (h : p.Carries custody held post) (hturns : Turns interruptible p p') :
    p'.Carries custody held post := by
  induction hturns generalizing held with
  | unroll step start next =>
      rw [carries_bind]
      apply (h.1 start).mono
      intro result held' hheld'
      subst hheld'
      cases result with
      | inl s => exact h
      | inr b => exact h.2 b
  | left right next hturns ih =>
      rcases h with ⟨ofLeft, ofRight, rest, hheld, hleft, hright, hnext⟩
      exact ⟨ofLeft, ofRight, rest, hheld, ih hleft, hright, hnext⟩
  | right left next hturns ih =>
      rcases h with ⟨ofLeft, ofRight, rest, hheld, hleft, hright, hnext⟩
      exact ⟨ofLeft, ofRight, rest, hheld, hleft, ih hright, hnext⟩
  | joined b c next =>
      rcases h with ⟨_, _, rest, rfl, rfl, rfl, hnext⟩
      rw [zero_add, zero_add]
      exact hnext _
  | parted b c next hcut =>
      rcases h with ⟨_, _, rest, rfl, rfl, rfl, hnext⟩
      rw [zero_add, zero_add]
      exact hnext _
  | late body next hpassed =>
      rcases h with ⟨ofBody, rest, rfl, hlate, hbody, hnext⟩
      rw [hlate hpassed, zero_add]
      exact hnext _ _
  | body next hleft hturns ih =>
      rcases h with ⟨ofBody, rest, hheld, hlate, hbody, hnext⟩
      exact ⟨ofBody, rest, hheld, hlate, ih hbody, hnext⟩
  | lapsed b next lapse hleft hhow =>
      rcases h with ⟨_, rest, rfl, hlate, rfl, hnext⟩
      rw [zero_add]
      exact hnext _ _

/-- A plan asks only with what it has, and gives up only what it has. -/
theorem Carries.asks {p p' : Plan I τ α} {r : I.Request} {answer : I.Answer r}
    {post : α → Multiset H → Prop} (h : p.Carries custody held post)
    (hasks : Asks p r answer p') : custody.used r ≤ held ∧ ∃ rest, held = custody.closed r + rest ∧
      p'.Carries custody (custody.opened r answer + rest) post := by
  induction hasks generalizing held with
  | ask r next answer =>
      rcases h with ⟨hused, rest, hheld, hnext⟩
      exact ⟨hused, rest, hheld, hnext answer⟩
  | left right next hasks ih =>
      rcases h with ⟨ofLeft, ofRight, rest, rfl, hleft, hright, hnext⟩
      rcases ih hleft with ⟨hused, kept, rfl, hleft'⟩
      constructor
      · exact hused.trans ((Multiset.le_add_right _ _).trans (Multiset.le_add_right _ _))
      · exists kept + ofRight + rest
        constructor
        · abel
        · exact ⟨_, ofRight, rest, by abel, hleft', hright, hnext⟩
  | right left next hasks ih =>
      rcases h with ⟨ofLeft, ofRight, rest, rfl, hleft, hright, hnext⟩
      rcases ih hright with ⟨hused, kept, rfl, hright'⟩
      constructor
      · exact hused.trans ((Multiset.le_add_left _ _).trans (Multiset.le_add_right _ _))
      · exists ofLeft + kept + rest
        constructor
        · abel
        · exact ⟨ofLeft, _, rest, by abel, hleft, hright', hnext⟩
  | body next hleft hasks ih =>
      rcases h with ⟨ofBody, rest, rfl, hlate, hbody, hnext⟩
      rcases ih hbody with ⟨hused, kept, rfl, hbody'⟩
      constructor
      · exact hused.trans (Multiset.le_add_right _ _)
      · exists kept + rest
        constructor
        · abel
        · exact ⟨_, rest, by abel, fun hpassed => absurd hpassed hleft, hbody', hnext⟩

/-!
## Runs
-/

inductive Course.Step (course : Course I τ α) : Course I τ α → Prop where
  | turn {plan : Plan I τ α} (turns : Turns True course.plan plan) :
      Step course ⟨course.heard, plan⟩
  | hears {r : I.Request} {answer : I.Answer r} {plan : Plan I τ α}
      (asks : course.plan.Asks r answer plan) :
      Step course ⟨course.heard ++ [⟨r, answer⟩], plan⟩

abbrev Course.Leads : Course I τ α → Course I τ α → Prop :=
  Relation.ReflTransGen Course.Step

theorem Course.leads_after (surroundings : Surroundings I) (course : Course I τ α) (steps : Nat) :
    course.Leads (course.after surroundings steps) := by
  induction steps generalizing course with
  | zero => exact .refl
  | succ steps ih =>
      have hnext : course.Leads (course.next surroundings) := by
        unfold Course.next
        split
        · rename_i hfront
          exact .single (.hears (asks_of_front? hfront _))
        · split
          · rename_i hstir
            exact .single (.turn (turns_of_stir? (.inl rfl) hstir))
          · exact .refl
      exact hnext.trans (ih _)

theorem Course.leads_ask_iff {r : I.Request} {next : I.Answer r → Plan I τ α}
    {heard heard' : List (Exchange I)} {a : α} :
    Course.Leads ⟨heard, .ask r next⟩ ⟨heard', .pure a⟩ ↔
      ∃ answer, Course.Leads ⟨heard ++ [⟨r, answer⟩], next answer⟩ ⟨heard', .pure a⟩ := by
  constructor
  · intro hleads
    rcases hleads.cases_head with hended | ⟨_, hstep, hrest⟩
    · cases hended
    · cases hstep with
      | turn turns => cases turns
      | hears asks =>
          cases asks
          exact ⟨_, hrest⟩
  · rintro ⟨answer, hrest⟩
    exact .head (.hears (.ask r next answer)) hrest

theorem Course.leads_pure_iff {heard heard' : List (Exchange I)} {a b : α} :
    Course.Leads (⟨heard, .pure a⟩ : Course I τ α) ⟨heard', .pure b⟩ ↔ heard' = heard ∧ b = a := by
  constructor
  · intro hleads
    rcases hleads.cases_head with hended | ⟨_, hstep, _⟩
    · cases hended
      exact ⟨rfl, rfl⟩
    · cases hstep with
      | turn turns => cases turns
      | hears asks => cases asks
  · rintro ⟨rfl, rfl⟩
    exact .refl

section Accounts

variable (custody)

def Custody.opens (heard : List (Exchange I)) : Multiset H :=
  (heard.map fun exchange => custody.opened exchange.1 exchange.2).sum

def Custody.closes (heard : List (Exchange I)) : Multiset H :=
  (heard.map fun exchange => custody.closed exchange.1).sum

theorem Custody.opens_append (heard later : List (Exchange I)) :
    custody.opens (heard ++ later) = custody.opens heard + custody.opens later := by
  unfold opens
  rw [List.map_append, List.sum_append]

theorem Custody.closes_append (heard later : List (Exchange I)) :
    custody.closes (heard ++ later) = custody.closes heard + custody.closes later := by
  unfold closes
  rw [List.map_append, List.sum_append]

theorem Custody.closes_cons (exchange : Exchange I) (later : List (Exchange I)) :
    custody.closes (exchange :: later) = custody.closed exchange.1 + custody.closes later :=
  List.sum_cons

theorem Custody.mem_closes {heard : List (Exchange I)} {thing : H}
    (h : thing ∈ custody.closes heard) :
    ∃ exchange ∈ heard, thing ∈ custody.closed exchange.1 := by
  induction heard with
  | nil => cases h
  | cons exchange rest ih =>
      rw [closes_cons, Multiset.mem_add] at h
      rcases h with hhere | hlater
      · exact ⟨exchange, List.mem_cons_self, hhere⟩
      · rcases ih hlater with ⟨other, hmem, hclosed⟩
        exact ⟨other, List.mem_cons_of_mem _ hmem, hclosed⟩

/-- Each request was made with what was in the plan's hands at that time. -/
def Custody.Respected (heard : List (Exchange I)) : Prop :=
  ∀ before exchange after, heard = before ++ exchange :: after →
    custody.closes before + custody.used exchange.1 ≤ custody.opens before

variable {custody}

theorem Custody.Respected.concat {heard : List (Exchange I)} {exchange : Exchange I}
    (h : custody.Respected heard)
    (hlast : custody.closes heard + custody.used exchange.1 ≤ custody.opens heard) :
    custody.Respected (heard ++ [exchange]) := by
  intro before other after hsplit
  rcases List.eq_nil_or_concat after with rfl | ⟨rest, last, rfl⟩
  · rcases List.append_inj' hsplit rfl with ⟨rfl, hother⟩
    cases hother
    exact hlast
  · rw [List.concat_eq_append, ← List.cons_append, ← List.append_assoc] at hsplit
    exact h before other rest (List.append_inj_left' hsplit rfl)

end Accounts

/-- What was opened was given up or is still carried, and each request was made with what was in the
plan's hands at that time. -/
structure Accounted (custody : Custody I H) (post : α → Multiset H → Prop) (course : Course I τ α)
    (held : Multiset H) : Prop where
  balance : custody.opens course.heard = custody.closes course.heard + held
  carries : course.plan.Carries custody held post
  respected : custody.Respected course.heard

theorem Accounted.step {post : α → Multiset H → Prop} {course course' : Course I τ α}
    (h : Accounted custody post course held) (hstep : course.Step course') :
    ∃ held', Accounted custody post course' held' := by
  cases hstep with
  | turn turns => exact ⟨held, h.balance, h.carries.turns turns, h.respected⟩
  | @hears r answer plan asks =>
      rcases h.carries.asks asks with ⟨hused, rest, rfl, hcarries⟩
      exists custody.opened r answer + rest
      constructor
      · have hopened : custody.opens [⟨r, answer⟩] = custody.opened r answer :=
          List.sum_singleton
        have hclosed : custody.closes [⟨r, answer⟩] = custody.closed r := List.sum_singleton
        rw [custody.opens_append, custody.closes_append, hopened, hclosed, h.balance]
        abel
      · exact hcarries
      · apply h.respected.concat
        rw [h.balance]
        exact Multiset.add_le_add_left hused

/-- A plan that carries begins with nothing opened and stays accounted for. -/
theorem Carries.accounted {plan : Plan I τ α} {post : α → Multiset H → Prop}
    {course : Course I τ α} (h : plan.Carries custody 0 post)
    (hleads : Course.Leads ⟨[], plan⟩ course) : ∃ held, Accounted custody post course held := by
  induction hleads with
  | refl =>
      exists 0
      constructor
      · rfl
      · exact h
      · intro before exchange after hsplit
        cases before with
        | nil => cases hsplit
        | cons _ _ => cases hsplit
  | tail _ hstep ih =>
      rcases ih with ⟨held, haccounted⟩
      exact haccounted.step hstep

/-- If nothing was opened twice, then nothing is used that was given up before. -/
theorem Custody.Respected.disjoint {before after : List (Exchange I)} {exchange : Exchange I}
    (h : custody.Respected (before ++ exchange :: after))
    (hnodup : (custody.opens (before ++ exchange :: after)).Nodup) :
    Disjoint (custody.closes before) (custody.used exchange.1) := by
  have hopens : custody.opens before ≤ custody.opens (before ++ exchange :: after) := by
    rw [custody.opens_append]
    exact Multiset.le_add_right _ _
  have hle := (h before exchange after rfl).trans hopens
  exact (Multiset.nodup_add.mp (Multiset.nodup_of_le hle hnodup)).2.2

/-- If nothing was opened twice and all of it was given up, then each thing was given up once, after
it was opened, and not used again. -/
theorem closed_once {heard : List (Exchange I)} (hrespected : custody.Respected heard)
    (hbalance : custody.opens heard = custody.closes heard) (hnodup : (custody.opens heard).Nodup)
    {thing : H} (hopened : thing ∈ custody.opens heard) :
    ∃ before exchange after, heard = before ++ exchange :: after ∧
      thing ∈ custody.closed exchange.1 ∧ thing ∈ custody.opens before ∧
      thing ∉ custody.closes before ∧ thing ∉ custody.closes after ∧
      ∀ later ∈ after, thing ∉ custody.used later.1 := by
  rw [hbalance] at hopened
  rcases custody.mem_closes hopened with ⟨exchange, hmem, hclosed⟩
  rcases List.append_of_mem hmem with ⟨before, after, rfl⟩
  have hused : thing ∈ custody.used exchange.1 :=
    Multiset.mem_of_le (custody.closed_le _) hclosed
  have hlater : ∀ later ∈ after, thing ∉ custody.used later.1 := by
    intro later hmem' hagain
    rcases List.append_of_mem hmem' with ⟨between, rest, rfl⟩
    rw [← List.cons_append, ← List.append_assoc] at hrespected hnodup
    apply Multiset.disjoint_left.mp (hrespected.disjoint hnodup) _ hagain
    rw [custody.closes_append, custody.closes_cons]
    exact Multiset.mem_add.mpr (.inr (Multiset.mem_add.mpr (.inl hclosed)))
  exists before, exchange, after
  constructor
  · rfl
  constructor
  · exact hclosed
  constructor
  · apply Multiset.mem_of_le (hrespected before exchange after rfl)
    exact Multiset.mem_add.mpr (.inr hused)
  constructor
  · intro hearlier
    exact Multiset.disjoint_left.mp (hrespected.disjoint hnodup) hearlier hused
  constructor
  · intro hagain
    rcases custody.mem_closes hagain with ⟨later, hmem', hclosed'⟩
    exact hlater later hmem' (Multiset.mem_of_le (custody.closed_le _) hclosed')
  · exact hlater

end Plan

/-!
## Actions
-/

namespace Action

variable {I : Interface.{u}} {τ ε α β σ H : Type} [Seconds τ] {custody : Plan.Custody I H}
  {held kept : Multiset H}

def Leaves (custody : Plan.Custody I H) (action : Action I τ ε α) (held kept : Multiset H) : Prop :=
  action.run.Carries custody held fun _ held' => held' = kept

theorem leaves_pure (a : α) : Leaves custody (pure a : Action I τ ε α) held held :=
  rfl

theorem leaves_throw (e : ε) : Leaves custody (throw e : Action I τ ε α) held held :=
  rfl

theorem leaves_lift {p : Plan I τ α} (h : p.Carries custody held fun _ held' => held' = kept) :
    Leaves custody (ExceptT.lift p : Action I τ ε α) held kept :=
  (Plan.carries_bind _ _).mpr h

theorem leaves_bind {action : Action I τ ε α} {next : α → Action I τ ε β}
    (h : Leaves custody action held kept) (hnext : ∀ a, Leaves custody (next a) kept kept) :
    Leaves custody (action >>= next) held kept := by
  apply (Plan.carries_bind _ _).mpr
  apply h.mono
  intro ended held' hheld'
  subst hheld'
  cases ended with
  | ok a => exact hnext a
  | error e => rfl

theorem leaves_tryCatch {action : Action I τ ε α} {handler : ε → Action I τ ε α}
    (h : Leaves custody action held kept) (hhandler : ∀ e, Leaves custody (handler e) kept kept) :
    Leaves custody (tryCatch action handler) held kept := by
  apply (Plan.carries_bind _ _).mpr
  apply h.mono
  intro ended held' hheld'
  subst hheld'
  cases ended with
  | ok a => rfl
  | error e => exact hhandler e

theorem leaves_ensuring {closing : Plan I τ Unit} {body : Action I τ ε α}
    (h : Leaves custody body held held)
    (hclosing : closing.Carries custody held fun _ held' => held' = kept) :
    Leaves custody (ensuring closing body) held kept := by
  apply (Plan.carries_bind _ _).mpr
  apply h.mono
  intro ended held' hheld'
  subst hheld'
  exact (Plan.carries_bind _ _).mpr hclosing

theorem leaves_repeatFrom {start : σ} {step : σ → Action I τ ε (σ ⊕ α)}
    (h : ∀ s, Leaves custody (step s) held held) :
    Leaves custody (repeatFrom start step) held held := by
  constructor
  · intro s
    apply (Plan.carries_bind _ _).mpr
    apply (h s).mono
    intro ended held' hheld'
    cases ended with
    | ok result =>
        cases result with
        | inl s' => exact hheld'
        | inr a => exact hheld'
    | error e => exact hheld'
  · intro ended
    rfl

end Action
end Turnstile
