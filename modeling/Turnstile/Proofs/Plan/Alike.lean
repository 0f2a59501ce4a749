import Turnstile.Proofs.Plan.Exchange
import Turnstile.Proofs.Plan.Front

/-!
# Plans that look alike

Surroundings answer each request by what was heard before, so that they settle the whole course of
a plan.  Some of its requests are shown to others.  Two plans are alike if they make the same
requests in the same order, apart from hidden ones that only one of them makes, and go on alike
whenever their answers agree.

Hidden requests are passed over one at a time, so that `Alike` is an inductive relation: a plan that
makes hidden requests for ever is not like a plan that has ended.

## Main statements

* `Alike.bind` - plans that are alike and go on alike are alike.
* `Alike.reaches_iff` and `Alike.finishes_iff` - plans that are alike show the same, and have the
  same end.
-/

namespace Turnstile
namespace Plan

universe u

variable {I : Interface.{u}} {τ α β : Type}

/-- What is answered, by all that was heard before. -/
abbrev Surroundings (I : Interface.{u}) : Type u :=
  List (Exchange I) → (r : I.Request) → I.Answer r

/-- A plan and all that it has heard so far. -/
structure Course (I : Interface.{u}) (τ α : Type) where
  heard : List (Exchange I)
  plan : Plan I τ α

def seen (shown : I.Request → Bool) (heard : List (Exchange I)) : List (Exchange I) :=
  heard.filter fun exchange => shown exchange.1

theorem seen_concat (shown : I.Request → Bool) (heard : List (Exchange I)) (r : I.Request)
    (answer : I.Answer r) :
    seen shown (heard ++ [⟨r, answer⟩]) =
      seen shown heard ++ if shown r then [⟨r, answer⟩] else [] := by
  unfold seen
  rw [List.filter_append, List.filter_cons, List.filter_nil]

section Courses

variable [Seconds τ] (shown : I.Request → Bool) (surroundings : Surroundings I)

/-- The course after the next step.  A plan that has ended stays as it is. -/
def Course.next (course : Course I τ α) : Course I τ α :=
  match course.plan.front? with
  | some ⟨r, goOn⟩ =>
      ⟨course.heard ++ [⟨r, surroundings course.heard r⟩], goOn (surroundings course.heard r)⟩
  | none =>
      match course.plan.stir? .inTime with
      | some plan => ⟨course.heard, plan⟩
      | none => course

def Course.after (course : Course I τ α) : Nat → Course I τ α
  | 0 => course
  | steps + 1 => (course.next surroundings).after steps

theorem Course.after_add (course : Course I τ α) (steps more : Nat) :
    course.after surroundings (steps + more) =
      (course.after surroundings steps).after surroundings more := by
  induction steps generalizing course with
  | zero => rw [Nat.zero_add, after]
  | succ steps ih =>
      rw [Nat.succ_add, after, after]
      exact ih _

def Reaches (plan : Plan I τ α) (events : List (Exchange I)) : Prop :=
  ∃ steps, seen shown ((Course.mk [] plan).after surroundings steps).heard = events

def Finishes (plan : Plan I τ α) (events : List (Exchange I)) (result : α) : Prop :=
  ∃ steps, seen shown ((Course.mk [] plan).after surroundings steps).heard = events ∧
    ((Course.mk [] plan).after surroundings steps).plan = .pure result

end Courses

/-!
## Alike plans
-/

/-- Two plans make the same requests, apart from hidden ones, and go on alike when their answers
agree.  What is shown is the same only if answers agree by being equal. -/
inductive Alike (shown : I.Request → Bool)
    (agree : (r : I.Request) → I.Answer r → I.Answer r → Prop) :
    {α : Type} → Plan I τ α → Plan I τ α → Prop where
  | ended {α : Type} (a : α) : Alike shown agree (.pure a) (.pure a)
  | both {α : Type} (r : I.Request) {next next' : I.Answer r → Plan I τ α}
      (same : shown r = true → ∀ a a', agree r a a' → a = a')
      (goOn : ∀ a a', agree r a a' → Alike shown agree (next a) (next' a')) :
      Alike shown agree (.ask r next) (.ask r next')
  | left {α : Type} (r : I.Request) {next : I.Answer r → Plan I τ α} {plan : Plan I τ α}
      (hidden : shown r = false) (goOn : ∀ a, Alike shown agree (next a) plan) :
      Alike shown agree (.ask r next) plan
  | right {α : Type} (r : I.Request) {plan : Plan I τ α} {next : I.Answer r → Plan I τ α}
      (hidden : shown r = false) (goOn : ∀ a, Alike shown agree plan (next a)) :
      Alike shown agree plan (.ask r next)
  | loop {σ β α : Type} {step step' : σ → Plan I τ (σ ⊕ β)} (start : σ)
      {next next' : β → Plan I τ α} (round : ∀ s, Alike shown agree (step s) (step' s))
      (goOn : ∀ b, Alike shown agree (next b) (next' b)) :
      Alike shown agree (.iterate step start next) (.iterate step' start next')

namespace Alike

variable {shown : I.Request → Bool} {agree : (r : I.Request) → I.Answer r → I.Answer r → Prop}
  {p q : Plan I τ α}

theorem symm (h : p.Alike shown agree q) : q.Alike shown (fun r a a' => agree r a' a) p := by
  induction h with
  | ended a => exact .ended a
  | both r same _ ih =>
      apply Alike.both r
      · intro hshown a a' hagree
        exact (same hshown a' a hagree).symm
      · intro a a' hagree
        exact ih a' a hagree
  | left r hidden _ ih => exact .right r hidden ih
  | right r hidden _ ih => exact .left r hidden ih
  | loop start _ _ ihRound ih => exact .loop start ihRound ih

theorem bind {f g : α → Plan I τ β} (h : p.Alike shown agree q)
    (hnext : ∀ a, (f a).Alike shown agree (g a)) :
    (p.bind f).Alike shown agree (q.bind g) := by
  induction h with
  | ended a => exact hnext a
  | both r same _ ih => exact .both r same fun a a' hagree => ih a a' hagree hnext
  | left r hidden _ ih => exact .left r hidden fun a => ih a hnext
  | right r hidden _ ih => exact .right r hidden fun a => ih a hnext
  | loop start round _ _ ih => exact .loop start round fun b => ih b hnext

end Alike

/-!
## What is shown
-/

section Shown

variable [Seconds τ] {shown : I.Request → Bool}
  {agree : (r : I.Request) → I.Answer r → I.Answer r → Prop} {first second : Surroundings I}
  {p q : Plan I τ α} {heard heard' : List (Exchange I)}

/-- Answers to the same request agree if the same was shown before. -/
def Agreeing (shown : I.Request → Bool)
    (agree : (r : I.Request) → I.Answer r → I.Answer r → Prop) (first second : Surroundings I) :
    Prop :=
  ∀ heard heard', seen shown heard = seen shown heard' →
    ∀ r, agree r (first heard r) (second heard' r)

omit [Seconds τ] in
theorem Agreeing.symm (h : Agreeing shown agree first second) :
    Agreeing shown (fun r a a' => agree r a' a) second first := by
  intro heard heard' hseen r
  exact h heard' heard hseen.symm r

def Paired (shown : I.Request → Bool) (agree : (r : I.Request) → I.Answer r → I.Answer r → Prop)
    (course course' : Course I τ α) : Prop :=
  seen shown course.heard = seen shown course'.heard ∧
    course.plan.Alike shown agree course'.plan

/-- A step of the first plan is a number of steps of the second one. -/
theorem Alike.next (h : p.Alike shown agree q) (hagreeing : Agreeing shown agree first second)
    (hseen : seen shown heard = seen shown heard') :
    ∃ steps, Paired shown agree ((Course.mk heard p).next first)
      ((Course.mk heard' q).after second steps) := by
  induction h generalizing heard' with
  | ended a => exact ⟨0, hseen, .ended a⟩
  | both r same goOn ih =>
      exists 1
      have hagree := hagreeing heard heard' hseen r
      constructor
      · show seen shown (heard ++ [⟨r, first heard r⟩]) =
          seen shown (heard' ++ [⟨r, second heard' r⟩])
        rw [seen_concat, seen_concat, hseen]
        cases hshown : shown r with
        | false => rfl
        | true => rw [same hshown _ _ hagree]
      · exact goOn _ _ hagree
  | left r hidden goOn ih =>
      exists 0
      constructor
      · show seen shown (heard ++ [⟨r, first heard r⟩]) = seen shown heard'
        rw [seen_concat, hidden, hseen]
        exact List.append_nil _
      · exact goOn _
  | right r hidden goOn ih =>
      have hseen' : seen shown heard = seen shown (heard' ++ [⟨r, second heard' r⟩]) := by
        rw [seen_concat, hidden, hseen]
        exact (List.append_nil _).symm
      rcases ih _ hseen' with ⟨steps, hpaired⟩
      exact ⟨steps + 1, hpaired⟩
  | loop start round goOn ihRound ih =>
      exists 1
      constructor
      · exact hseen
      · apply (round start).bind
        intro result
        cases result with
        | inl s => exact .loop s round goOn
        | inr b => exact goOn b

theorem Paired.after {course course' : Course I τ α} (h : Paired shown agree course course')
    (hagreeing : Agreeing shown agree first second) (steps : Nat) :
    ∃ steps', Paired shown agree (course.after first steps) (course'.after second steps') := by
  induction steps generalizing course course' with
  | zero => exact ⟨0, h⟩
  | succ steps ih =>
      rcases h.2.next hagreeing h.1 with ⟨between, hpaired⟩
      rcases ih hpaired with ⟨rest, hafter⟩
      exists between + rest
      rw [Course.after_add second]
      exact hafter

theorem Alike.finish {a : α} (h : p.Alike shown agree q) (hended : p = .pure a)
    (second : Surroundings I) (heard : List (Exchange I)) :
    ∃ steps, seen shown ((Course.mk heard q).after second steps).heard = seen shown heard ∧
      ((Course.mk heard q).after second steps).plan = .pure a := by
  induction h generalizing heard with
  | ended b => exact ⟨0, rfl, hended⟩
  | right r hidden goOn ih =>
      rcases ih _ hended (heard ++ [⟨r, second heard r⟩]) with ⟨steps, hseen, hplan⟩
      exists steps + 1
      constructor
      · rw [seen_concat, hidden] at hseen
        exact hseen.trans (List.append_nil _)
      · exact hplan
  | both r same goOn ih => cases hended
  | left r hidden goOn ih => cases hended
  | loop start round goOn ihRound ih => cases hended

theorem Alike.reaches {events : List (Exchange I)} (h : p.Alike shown agree q)
    (hagreeing : Agreeing shown agree first second) (hreaches : p.Reaches shown first events) :
    q.Reaches shown second events := by
  rcases hreaches with ⟨steps, hevents⟩
  have hstart : Paired shown agree (Course.mk [] p) (Course.mk [] q) := ⟨rfl, h⟩
  rcases hstart.after hagreeing steps with ⟨steps', hseen, _⟩
  exact ⟨steps', hseen.symm.trans hevents⟩

theorem Alike.finishes {events : List (Exchange I)} {a : α} (h : p.Alike shown agree q)
    (hagreeing : Agreeing shown agree first second)
    (hfinishes : p.Finishes shown first events a) : q.Finishes shown second events a := by
  rcases hfinishes with ⟨steps, hevents, hended⟩
  have hstart : Paired shown agree (Course.mk [] p) (Course.mk [] q) := ⟨rfl, h⟩
  rcases hstart.after hagreeing steps with ⟨steps', hseen, halike⟩
  rcases halike.finish hended second _ with ⟨rest, hsame, hplan⟩
  exists steps' + rest
  rw [Course.after_add second]
  exact ⟨hsame.trans (hseen.symm.trans hevents), hplan⟩

/-- Plans that are alike show the same. -/
theorem Alike.reaches_iff {events : List (Exchange I)} (h : p.Alike shown agree q)
    (hagreeing : Agreeing shown agree first second) :
    p.Reaches shown first events ↔ q.Reaches shown second events :=
  ⟨h.reaches hagreeing, h.symm.reaches hagreeing.symm⟩

theorem Alike.finishes_iff {events : List (Exchange I)} {a : α} (h : p.Alike shown agree q)
    (hagreeing : Agreeing shown agree first second) :
    p.Finishes shown first events a ↔ q.Finishes shown second events a :=
  ⟨h.finishes hagreeing, h.symm.finishes hagreeing.symm⟩

end Shown
end Plan
end Turnstile
