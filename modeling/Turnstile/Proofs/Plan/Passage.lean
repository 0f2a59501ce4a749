import Turnstile.Proofs.Plan.Alike

/-!
# Passages

Surroundings settle the whole course of a plan, so that it comes to wherever it comes after some
number of steps.  What counts are the exchanges that are shown on the way, and a property of the
course at which it arrives.  Passages are put together one request at a time; hidden requests are
passed over whatever their answers are.

## Main statements

* `Arrives.trans` - one passage after another.
* `Arrives.bind` and `Arrives.within` - a passage through a part of a plan.
* `Arrives.finishes` - a passage to the end of a plan.
* `Course.exists_after_of_rounds` - a course that goes round and round.
* `not_finishes_of_arrives` - a plan that shows more and more before it ends never ends.
-/

namespace Turnstile
namespace Plan

universe u

variable {I : Interface.{u}} {τ α β σ : Type} [Seconds τ] {shown : I.Request → Bool}
  {surroundings : Surroundings I}

/-- A course arrives at one with some property, and shows some exchanges on the way. -/
def Arrives (shown : I.Request → Bool) (surroundings : Surroundings I) (course : Course I τ α)
    (events : List (Exchange I)) (there : Course I τ α → Prop) : Prop :=
  ∃ steps, there (course.after surroundings steps) ∧
    seen shown (course.after surroundings steps).heard = seen shown course.heard ++ events

namespace Arrives

variable {course : Course I τ α} {events events' heard : List (Exchange I)}
  {there there' : Course I τ α → Prop} {r : I.Request} {next : I.Answer r → Plan I τ α}

theorem here (h : there course) : Arrives shown surroundings course [] there :=
  ⟨0, h, (List.append_nil _).symm⟩

theorem mono (h : Arrives shown surroundings course events there)
    (himp : ∀ course', there course' → there' course') :
    Arrives shown surroundings course events there' := by
  rcases h with ⟨steps, hthere, hseen⟩
  exact ⟨steps, himp _ hthere, hseen⟩

theorem trans (h : Arrives shown surroundings course events there)
    (hnext : ∀ course', there course' → Arrives shown surroundings course' events' there') :
    Arrives shown surroundings course (events ++ events') there' := by
  rcases h with ⟨steps, hthere, hseen⟩
  rcases hnext _ hthere with ⟨more, hthere', hseen'⟩
  exists steps + more
  rw [Course.after_add]
  constructor
  · exact hthere'
  · rw [hseen', hseen, List.append_assoc]

theorem ask {answer : I.Answer r} (hshown : shown r = true)
    (hanswer : surroundings heard r = answer)
    (h : Arrives shown surroundings ⟨heard ++ [⟨r, answer⟩], next answer⟩ events there) :
    Arrives shown surroundings ⟨heard, .ask r next⟩ (⟨r, answer⟩ :: events) there := by
  subst hanswer
  rcases h with ⟨steps, hthere, hseen⟩
  exists steps + 1
  constructor
  · exact hthere
  · rw [seen_concat, hshown, List.append_assoc] at hseen
    exact hseen

theorem hidden (hshown : shown r = false)
    (h : ∀ answer, surroundings heard r = answer →
      Arrives shown surroundings ⟨heard ++ [⟨r, answer⟩], next answer⟩ events there) :
    Arrives shown surroundings ⟨heard, .ask r next⟩ events there := by
  rcases h _ rfl with ⟨steps, hthere, hseen⟩
  exists steps + 1
  constructor
  · exact hthere
  · rw [seen_concat, hshown] at hseen
    exact hseen.trans (congrArg (· ++ events) (List.append_nil _))

theorem unroll {step : σ → Plan I τ (σ ⊕ β)} {start : σ} {goOn : β → Plan I τ α}
    (h : Arrives shown surroundings
      ⟨heard, (step start).bind (Sum.elim (fun s => .iterate step s goOn) goOn)⟩ events there) :
    Arrives shown surroundings ⟨heard, .iterate step start goOn⟩ events there := by
  rcases h with ⟨steps, hthere, hseen⟩
  exact ⟨steps + 1, hthere, hseen⟩

theorem reaches {plan : Plan I τ α} (h : Arrives shown surroundings ⟨[], plan⟩ events there) :
    plan.Reaches shown surroundings events := by
  rcases h with ⟨steps, _, hseen⟩
  exact ⟨steps, hseen⟩

theorem finishes {plan : Plan I τ α} {result : α}
    (h : Arrives shown surroundings ⟨[], plan⟩ events fun course => course.plan = .pure result) :
    plan.Finishes shown surroundings events result := by
  rcases h with ⟨steps, hended, hseen⟩
  exact ⟨steps, hseen, hended⟩

end Arrives

/-!
## Parts of a plan
-/

theorem Course.after_of_ended {course : Course I τ α} {result : α}
    (h : course.plan = .pure result) (steps : Nat) : course.after surroundings steps = course := by
  cases course with
  | mk heard plan =>
      cases h
      induction steps with
      | zero => rfl
      | succ steps ih => exact ih

theorem Course.after_eq_of_ended {course : Course I τ α} {result : α} {steps later : Nat}
    (h : (course.after surroundings steps).plan = .pure result) (hlater : steps ≤ later) :
    course.after surroundings later = course.after surroundings steps := by
  rcases Nat.exists_eq_add_of_le hlater with ⟨more, rfl⟩
  rw [Course.after_add, Course.after_of_ended h]

theorem front?_bind {p : Plan I τ β} (f : β → Plan I τ α) (hgoes : p.result? = none) :
    (p.bind f).front? =
      p.front?.map fun front => ⟨front.1, fun answer => (front.2 answer).bind f⟩ := by
  cases p with
  | pure b => cases hgoes
  | ask r next => rfl
  | iterate step start next => rfl
  | both left right next =>
      simp only [bind, front?]
      split <;> rfl
  | within limit body next =>
      simp only [bind, front?]
      split
      · rfl
      · rw [Option.map_map]
        rfl

theorem stir?_bind {p : Plan I τ β} (f : β → Plan I τ α) (lapse : Lapse)
    (hgoes : p.result? = none) :
    (p.bind f).stir? lapse = (p.stir? lapse).map fun p' => p'.bind f := by
  cases p with
  | pure b => cases hgoes
  | ask r next => rfl
  | iterate step start next =>
      simp only [bind, stir?, Option.map_some, bind_assoc]
      congr
      funext result
      cases result <;> rfl
  | both left right next =>
      simp only [bind, stir?]
      split
      · rfl
      · split <;> rfl
  | within limit body next =>
      simp only [bind, stir?]
      split
      · rfl
      · split
        · rfl
        · rw [Option.map_map]
          rfl

/-- Whatever plan is the part, the whole goes on as it does until it has ended. -/
def GoesWith (surroundings : Surroundings I) (whole : Plan I τ β → Plan I τ α) : Prop :=
  ∀ heard part, part.result? = none → (Course.mk heard (whole part)).next surroundings =
    ⟨((Course.mk heard part).next surroundings).heard,
      whole ((Course.mk heard part).next surroundings).plan⟩

theorem goesWith_bind (f : β → Plan I τ α) : GoesWith surroundings fun p => p.bind f := by
  intro heard p hgoes
  unfold Course.next
  dsimp only
  rw [front?_bind f hgoes, stir?_bind f .inTime hgoes]
  cases p.front? with
  | some front => rfl
  | none =>
      cases p.stir? .inTime with
      | some p' => rfl
      | none => rfl

theorem goesWith_within {limit : τ} (next : Lapse → Option β → Plan I τ α) (hleft : ¬ limit ≤ 0) :
    GoesWith surroundings fun body => .within limit body next := by
  intro heard body hgoes
  unfold Course.next
  simp only [front?, stir?, if_neg hleft, hgoes]
  cases body.front? with
  | some front => rfl
  | none =>
      cases body.stir? .inTime with
      | some body' => rfl
      | none => rfl

theorem GoesWith.after {whole : Plan I τ β → Plan I τ α} (hwhole : GoesWith surroundings whole)
    (part : Course I τ β) (steps : Nat) :
    ∃ steps', (Course.mk part.heard (whole part.plan)).after surroundings steps' =
      ⟨(part.after surroundings steps).heard, whole (part.after surroundings steps).plan⟩ := by
  induction steps generalizing part with
  | zero => exact ⟨0, rfl⟩
  | succ steps ih =>
      by_cases hgoes : part.plan.result? = none
      · rcases ih (part.next surroundings) with ⟨steps', hsteps⟩
        exists steps' + 1
        rw [Course.after, hwhole _ _ hgoes]
        exact hsteps
      · rcases Option.ne_none_iff_exists'.mp hgoes with ⟨b, hb⟩
        have hended : ∀ steps, part.after surroundings steps = part :=
          Course.after_of_ended (eq_of_result? hb)
        rcases ih part with ⟨steps', hsteps⟩
        exists steps'
        rw [hsteps, hended, hended]

namespace Arrives

theorem stirred {plan plan' : Plan I τ α} {heard events : List (Exchange I)}
    {there : Course I τ α → Prop} (hfront : plan.front? = none)
    (hstir : plan.stir? .inTime = some plan')
    (h : Arrives shown surroundings ⟨heard, plan'⟩ events there) :
    Arrives shown surroundings ⟨heard, plan⟩ events there := by
  rcases h with ⟨steps, hthere, hseen⟩
  have hnext : (Course.mk heard plan).next surroundings = ⟨heard, plan'⟩ := by
    unfold Course.next
    simp only [hfront, hstir]
  exists steps + 1
  rw [Course.after, hnext]
  exact ⟨hthere, hseen⟩

theorem through {whole : Plan I τ β → Plan I τ α} {p : Plan I τ β} {b : β}
    {heard events events' : List (Exchange I)} {there : Course I τ α → Prop}
    (hwhole : GoesWith surroundings whole)
    (h : Arrives shown surroundings ⟨heard, p⟩ events fun course => course.plan = .pure b)
    (hrest : ∀ heard, Arrives shown surroundings ⟨heard, whole (.pure b)⟩ events' there) :
    Arrives shown surroundings ⟨heard, whole p⟩ (events ++ events') there := by
  rcases h with ⟨steps, hended, hseen⟩
  rcases hwhole.after ⟨heard, p⟩ steps with ⟨steps', hsteps⟩
  have hpart : Arrives shown surroundings ⟨heard, whole p⟩ events
      fun course => course.plan = whole (.pure b) := by
    refine ⟨steps', ?_, ?_⟩
    · rw [hsteps, hended]
    · rw [hsteps, hseen]
  refine hpart.trans ?_
  rintro ⟨heard', plan⟩ rfl
  exact hrest heard'

theorem bind {p : Plan I τ β} {b : β} {f : β → Plan I τ α}
    {heard events events' : List (Exchange I)} {there : Course I τ α → Prop}
    (h : Arrives shown surroundings ⟨heard, p⟩ events fun course => course.plan = .pure b)
    (hrest : ∀ heard, Arrives shown surroundings ⟨heard, f b⟩ events' there) :
    Arrives shown surroundings ⟨heard, p.bind f⟩ (events ++ events') there :=
  through (goesWith_bind f) h hrest

/-- A limit that has not passed takes no part, if the body comes to its end by then. -/
theorem within {limit : τ} {body : Plan I τ β} {b : β} {next : Lapse → Option β → Plan I τ α}
    {heard events events' : List (Exchange I)} {there : Course I τ α → Prop}
    (hleft : ¬ limit ≤ 0)
    (h : Arrives shown surroundings ⟨heard, body⟩ events fun course => course.plan = .pure b)
    (hrest : ∀ heard, Arrives shown surroundings ⟨heard, next .inTime (some b)⟩ events' there) :
    Arrives shown surroundings ⟨heard, .within limit body next⟩ (events ++ events') there := by
  have hfront : (Plan.within limit (.pure b) next : Plan I τ α).front? = none := by
    simp only [front?, if_neg hleft, Option.map_none]
  have hstir : (Plan.within limit (.pure b) next : Plan I τ α).stir? .inTime =
      some (next .inTime (some b)) := by
    simp only [stir?, if_neg hleft, result?]
  refine through (goesWith_within next hleft) h ?_
  intro heard'
  exact stirred hfront hstir (hrest heard')

/-- A limit that has passed ends a wait before it begins. -/
theorem late {limit : τ} {body : Plan I τ β} {next : Lapse → Option β → Plan I τ α}
    {heard events : List (Exchange I)} {there : Course I τ α → Prop} (hpassed : limit ≤ 0)
    (h : Arrives shown surroundings ⟨heard, next .expired none⟩ events there) :
    Arrives shown surroundings ⟨heard, .within limit body next⟩ events there := by
  have hfront : (Plan.within limit body next : Plan I τ α).front? = none := by
    simp only [front?, if_pos hpassed]
  have hstir : (Plan.within limit body next : Plan I τ α).stir? .inTime =
      some (next .expired none) := by
    simp only [stir?, if_pos hpassed]
  exact stirred hfront hstir h

end Arrives

/-!
## Round and round
-/

theorem Course.exists_heard_next (surroundings : Surroundings I) (course : Course I τ α) :
    ∃ later, (course.next surroundings).heard = course.heard ++ later := by
  unfold Course.next
  split
  · exact ⟨_, rfl⟩
  · split
    · exact ⟨[], (List.append_nil _).symm⟩
    · exact ⟨[], (List.append_nil _).symm⟩

theorem Course.exists_heard_after (surroundings : Surroundings I) (course : Course I τ α)
    (steps : Nat) : ∃ later, (course.after surroundings steps).heard = course.heard ++ later := by
  induction steps generalizing course with
  | zero => exact ⟨[], (List.append_nil _).symm⟩
  | succ steps ih =>
      rcases course.exists_heard_next surroundings with ⟨first, hfirst⟩
      rcases ih (course.next surroundings) with ⟨rest, hrest⟩
      exists first ++ rest
      rw [Course.after, hrest, hfirst, List.append_assoc]

/-- A course that goes round at least once more whenever it has not left has left at some time, or
it has gone round any number of times. -/
theorem Course.exists_after_of_rounds (rounds : Course I τ α → Nat)
    {around left : Course I τ α → Prop} {course : Course I τ α}
    (hround : ∀ course, around course → ∃ steps, left (course.after surroundings steps) ∨
      around (course.after surroundings steps) ∧
        rounds (course.after surroundings steps) = rounds course + 1)
    (hstart : around course) (count : Nat) :
    ∃ steps, left (course.after surroundings steps) ∨
      around (course.after surroundings steps) ∧
        rounds (course.after surroundings steps) = rounds course + count := by
  induction count with
  | zero => exact ⟨0, Or.inr ⟨hstart, rfl⟩⟩
  | succ count ih =>
      rcases ih with ⟨steps, hleft | ⟨haround, hrounds⟩⟩
      · exact ⟨steps, Or.inl hleft⟩
      · rcases hround _ haround with ⟨more, hnext⟩
        exists steps + more
        rw [Course.after_add]
        rcases hnext with hleft | ⟨haround', hrounds'⟩
        · exact Or.inl hleft
        · exact Or.inr ⟨haround', by rw [hrounds', hrounds]; rfl⟩

/-!
## Plans that never end
-/

theorem Course.length_heard_next (surroundings : Surroundings I) (course : Course I τ α) :
    (course.next surroundings).heard.length ≤ course.heard.length + 1 := by
  unfold Course.next
  split
  · rw [List.length_append]
    exact Nat.le_refl _
  · split
    · exact Nat.le_succ _
    · exact Nat.le_succ _

theorem Course.length_heard_after (surroundings : Surroundings I) (course : Course I τ α)
    (steps : Nat) :
    (course.after surroundings steps).heard.length ≤ course.heard.length + steps := by
  induction steps generalizing course with
  | zero => exact Nat.le_refl _
  | succ steps ih =>
      have hnext := course.length_heard_next surroundings
      have hafter := ih (course.next surroundings)
      rw [Course.after]
      omega

/-- A plan that can show any number of exchanges before it ends never ends. -/
theorem not_finishes_of_arrives {plan : Plan I τ α}
    (h : ∀ bound, ∃ events, bound ≤ events.length ∧
      Arrives shown surroundings ⟨[], plan⟩ events fun course => course.plan.result? = none)
    (events : List (Exchange I)) (result : α) :
    ¬ plan.Finishes shown surroundings events result := by
  rintro ⟨steps, _, hended⟩
  rcases h (steps + 1) with ⟨later, hbound, steps', hgoesOn, hseen⟩
  have hshown : later.length ≤ steps' := by
    have hle := List.length_filter_le (fun exchange => shown exchange.1)
      ((Course.mk [] plan).after surroundings steps').heard
    have hheard := (Course.mk [] plan).length_heard_after surroundings steps'
    change List.length (seen shown _) ≤ _ at hle
    rw [hseen] at hle
    change later.length ≤ _ at hle
    change _ ≤ 0 + steps' at hheard
    omega
  -- The plan has ended by then, and an ended plan does not go on.
  rw [Course.after_eq_of_ended hended (show steps ≤ steps' by omega), hended] at hgoesOn
  cases hgoesOn

end Plan
end Turnstile
