import Turnstile.Proofs.Plan.Duration

/-!
# Plans that surely end

A setting says what is answered to a plan and when: its pace says how long an answer takes, and an
answer can be allowed or not after all that was heard before it.  A plan surely ends in some way if
it has a run that comes to an end, and if every run that does so ends in that way.

Whether there has to be a run that comes to an end is left open in most of what follows.  So it can
be said of a plan as well that it never ends.

A way to end is told by all that was heard, the time and the result.  What was heard before the plan
was begun counts as well.

## Main definitions

* `Plan.Setting` - what is answered, and when.
* `Setting.Ends` - whenever a plan ends it ends in some way, and it can end if it has to.
* `Setting.Surely` - a plan that has to end.

## Main statements

* `Setting.ends_bind` - a plan that goes on as another one.
* `Setting.ends_both` and `Setting.ends_within` - two legs, and a body that is interrupted.
* `Setting.ends_iterate` - a loop that cannot go round for ever.
* `Setting.never_iterate` - a loop that only goes round does not end.
-/

namespace Turnstile
namespace Plan

universe u v

variable {I : Interface.{u}} {τ α β γ σ : Type}

structure Setting (I : Interface.{u}) (τ : Type) where
  pace : Pace I τ
  /-- Whether an answer can be given after all that was heard before. -/
  allowed : List (Exchange I) → Exchange I → Prop

namespace Setting

def Allows (setting : Setting I τ) : List (Exchange I) → List (Exchange I) → Prop
  | _, [] => True
  | past, exchange :: heard =>
      setting.allowed past exchange ∧ setting.Allows (past ++ [exchange]) heard

variable {setting : Setting I τ} {past : List (Exchange I)}

theorem allows_append {before after : List (Exchange I)} :
    setting.Allows past (before ++ after) ↔
      setting.Allows past before ∧ setting.Allows (past ++ before) after := by
  induction before generalizing past with
  | nil =>
      rw [List.append_nil]
      exact (and_iff_right trivial).symm
  | cons exchange before ih =>
      have hpast : past ++ exchange :: before = past ++ [exchange] ++ before := by
        rw [List.append_assoc, List.singleton_append]
      show _ ∧ setting.Allows _ (before ++ after) ↔ (_ ∧ _) ∧ _
      rw [ih, and_assoc, hpast]

variable [Seconds τ]

/-- Whenever a plan ends it ends in some way.  If it must end then it can. -/
structure Ends (setting : Setting I τ) (must cut : Prop) (past : List (Exchange I)) (began : τ)
    (plan : Plan I τ α) (post : List (Exchange I) → τ → α → Prop) : Prop where
  only : ∀ heard finish a, plan.Lasts setting.pace cut began heard finish a →
    setting.Allows past heard → post (past ++ heard) finish a
  can : must → ∃ heard finish a, plan.Lasts setting.pace cut began heard finish a ∧
    setting.Allows past heard

abbrev Surely (setting : Setting I τ) (cut : Prop) (past : List (Exchange I)) (began : τ)
    (plan : Plan I τ α) (post : List (Exchange I) → τ → α → Prop) : Prop :=
  setting.Ends True cut past began plan post

variable {must cut : Prop} {began : τ} {post : List (Exchange I) → τ → α → Prop}

theorem Ends.mono {plan : Plan I τ α} {post' : List (Exchange I) → τ → α → Prop}
    (h : setting.Ends must cut past began plan post)
    (hpost : ∀ past' finish a, post past' finish a → post' past' finish a) :
    setting.Ends must cut past began plan post' :=
  ⟨fun heard finish a hlasts hallows => hpost _ _ _ (h.only heard finish a hlasts hallows), h.can⟩

/-!
## Plans that go on as others
-/

theorem ends_pure {a : α} (h : post past began a) :
    setting.Ends must cut past began (.pure a) post := by
  constructor
  · intro heard finish a' hlasts _
    rcases lasts_pure hlasts with ⟨rfl, rfl, rfl⟩
    rw [List.append_nil]
    exact h
  · exact fun _ => ⟨[], began, a, .ended cut began a, trivial⟩

theorem ends_ask {r : I.Request} {next : I.Answer r → Plan I τ α}
    (hcan : ∃ answer met, setting.pace cut began r answer met ∧ setting.allowed past ⟨r, answer⟩)
    (h : ∀ answer met, setting.pace cut began r answer met → setting.allowed past ⟨r, answer⟩ →
      setting.Ends must cut (past ++ [⟨r, answer⟩]) met (next answer) post) :
    setting.Ends must cut past began (.ask r next) post := by
  constructor
  · intro heard finish a hlasts hallows
    rcases lasts_ask hlasts with ⟨answer, met, rest, rfl, hanswer, hrest⟩
    have hpost := (h answer met hanswer hallows.1).only rest finish a hrest hallows.2
    rw [List.append_assoc] at hpost
    exact hpost
  · intro hmust
    rcases hcan with ⟨answer, met, hanswer, hallowed⟩
    rcases (h answer met hanswer hallowed).can hmust with ⟨heard, finish, a, hlasts, hallows⟩
    exact ⟨_, finish, a, .asks hanswer hlasts, hallowed, hallows⟩

theorem ends_grows {r : I.Request} {next : I.Answer r → Plan I τ α}
    (h : setting.Ends must cut past began (.ask r next) post) :
    setting.Ends must cut past began (.ask r next) fun past' finish a =>
      past.length < past'.length ∧ post past' finish a := by
  constructor
  · intro heard finish a hlasts hallows
    refine ⟨?_, h.only heard finish a hlasts hallows⟩
    rcases lasts_ask hlasts with ⟨answer, met, rest, rfl, _⟩
    rw [List.length_append, List.length_cons]
    omega
  · exact h.can

variable {mid : List (Exchange I) → τ → β → Prop}

theorem ends_bind {p : Plan I τ β} {f : β → Plan I τ α}
    (h : setting.Ends must cut past began p mid)
    (hnext : ∀ past' between b, mid past' between b →
      setting.Ends must cut past' between (f b) post) :
    setting.Ends must cut past began (p.bind f) post := by
  constructor
  · intro heard finish a hlasts hallows
    rcases hlasts.of_bind with ⟨before, after, between, b, rfl, hfirst, hrest⟩
    rw [allows_append] at hallows
    have hmid := h.only before between b hfirst hallows.1
    have hpost := (hnext _ _ _ hmid).only after finish a hrest hallows.2
    rw [List.append_assoc] at hpost
    exact hpost
  · intro hmust
    rcases h.can hmust with ⟨before, between, b, hfirst, hbefore⟩
    have hmid := h.only before between b hfirst hbefore
    rcases (hnext _ _ _ hmid).can hmust with ⟨after, finish, a, hrest, hafter⟩
    exact ⟨_, finish, a, hfirst.bind hrest, allows_append.mpr ⟨hbefore, hafter⟩⟩

theorem ends_serve {J : Interface.{v}} {server : (r : J.Request) → Plan I τ (J.Answer r)}
    {p : Plan J τ β} {f : β → Plan J τ α}
    (h : setting.Ends must cut past began (p.serve server) mid)
    (hnext : ∀ past' between b, mid past' between b →
      setting.Ends must cut past' between ((f b).serve server) post) :
    setting.Ends must cut past began ((p >>= f).serve server) post := by
  show setting.Ends must cut past began ((p.bind f).serve server) post
  rw [serve_bind]
  exact ends_bind h hnext

/-!
## Plans that follow others
-/

/-- Two legs of a plan that is not interrupted.  The right one is told of after the left one. -/
theorem ends_both {left : Plan I τ β} {right : Plan I τ γ} {next : Option (β × γ) → Plan I τ α}
    (h : setting.Ends must False past began left fun past' overLeft b =>
      setting.Ends must False past' began right fun past'' overRight c =>
        setting.Ends must False past'' (Seconds.later overLeft overRight) (next (some (b, c)))
          post) :
    setting.Ends must False past began (.both left right next) post := by
  constructor
  · intro heard finish a hlasts hallows
    cases hlasts with
    | joined ofLeft ofRight rest =>
        rw [List.append_assoc, allows_append, allows_append] at hallows
        have hright := h.only _ _ _ ofLeft hallows.1
        have hnext := hright.only _ _ _ ofRight hallows.2.1
        have hpost := hnext.only _ _ _ rest hallows.2.2
        rw [List.append_assoc, List.append_assoc] at hpost
        rw [List.append_assoc]
        exact hpost
    | parted interrupted ofLeft ofRight rest => exact interrupted.elim
  · intro hmust
    rcases h.can hmust with ⟨heardLeft, overLeft, b, ofLeft, hleft⟩
    have hright := h.only _ _ _ ofLeft hleft
    rcases hright.can hmust with ⟨heardRight, overRight, c, ofRight, hallowsRight⟩
    have hnext := hright.only _ _ _ ofRight hallowsRight
    rcases hnext.can hmust with ⟨heard, finish, a, rest, hrest⟩
    refine ⟨_, finish, a, .joined ofLeft ofRight rest, ?_⟩
    rw [List.append_assoc, allows_append, allows_append]
    exact ⟨hleft, hallowsRight, hrest⟩

/-- A body that does not end before it is interrupted by its limit. -/
theorem ends_within {limit : τ} {body : Plan I τ β} {next : Lapse → Option β → Plan I τ α}
    (hleft : ¬ limit ≤ 0) (hnever : setting.Ends False False past began body fun _ _ _ => False)
    (h : setting.Ends must True past began body fun past' between b => began + limit ≤ between ∧
      setting.Ends must False past' between (next .expired (some b)) post) :
    setting.Ends must False past began (.within limit body next) post := by
  constructor
  · intro heard finish a hlasts hallows
    cases hlasts with
    | late passed rest => exact absurd passed hleft
    | inTime left ofBody rest =>
        rw [allows_append] at hallows
        exact (hnever.only _ _ _ ofBody hallows.1).elim
    | expired left ofBody passed rest =>
        rw [allows_append] at hallows
        have hpost := (h.only _ _ _ ofBody hallows.1).2.only _ _ _ rest hallows.2
        rw [List.append_assoc] at hpost
        exact hpost
    | interrupted interrupted left ofBody rest => exact interrupted.elim
    | withdrawn interrupted left rest => exact interrupted.elim
  · intro hmust
    rcases h.can hmust with ⟨before, between, b, ofBody, hbefore⟩
    rcases h.only _ _ _ ofBody hbefore with ⟨hpassed, hnext⟩
    rcases hnext.can hmust with ⟨after, finish, a, rest, hafter⟩
    exact ⟨_, finish, a, .expired hleft ofBody hpassed rest,
      allows_append.mpr ⟨hbefore, hafter⟩⟩

/-!
## Loops
-/

/-- A loop that can go round only a number of times.  In each round that number gets smaller. -/
theorem ends_iterate {step : σ → Plan I τ (σ ⊕ β)} {next : β → Plan I τ α}
    (inv : Nat → List (Exchange I) → τ → σ → Prop)
    (hround : ∀ count past began s, inv count past began s →
      setting.Ends must cut past began (step s) fun past' between result =>
        (∃ b, result = .inr b ∧ setting.Ends must cut past' between (next b) post) ∨
          ∃ s' count', result = .inl s' ∧ count' < count ∧ inv count' past' between s')
    {count : Nat} {start : σ} (hstart : inv count past began start) :
    setting.Ends must cut past began (.iterate step start next) post := by
  induction count using Nat.strongRecOn generalizing past began start with
  | ind count ih =>
      have hunrolled : setting.Ends must cut past began
          ((step start).bind (Sum.elim (fun s => .iterate step s next) next)) post := by
        apply ends_bind (hround count past began start hstart)
        rintro past' between _ (⟨b, rfl, hnext⟩ | ⟨s', count', rfl, hless, hinv⟩)
        · exact hnext
        · exact ih count' hless hinv
      constructor
      · intro heard finish a hlasts hallows
        cases hlasts with
        | unroll rest => exact hunrolled.only _ _ _ rest hallows
      · intro hmust
        rcases hunrolled.can hmust with ⟨heard, finish, a, hlasts, hallows⟩
        exact ⟨heard, finish, a, .unroll hlasts, hallows⟩

/-- A loop that only goes round, and hears something whenever it does, never ends. -/
theorem never_iterate {step : σ → Plan I τ (σ ⊕ β)} {next : β → Plan I τ α} (hfree : ¬ must)
    (inv : List (Exchange I) → σ → Prop)
    (hround : ∀ past began s, inv past s → setting.Ends must cut past began (step s)
      fun past' _ result => past.length < past'.length ∧
        ∃ s', result = .inl s' ∧ inv past' s')
    {start : σ} (hstart : inv past start) :
    setting.Ends must cut past began (.iterate step start next) post := by
  refine ⟨?_, fun hmust => absurd hmust hfree⟩
  intro heard
  -- Each round leaves less to be heard by those after it.
  induction hlength : heard.length using Nat.strongRecOn generalizing past began start heard with
  | ind length ih =>
      intro finish a hlasts hallows
      cases hlasts with
      | unroll rest =>
          rcases rest.of_bind with ⟨before, after, between, result, rfl, hfirst, hrest⟩
          rw [allows_append] at hallows
          rcases (hround _ _ _ hstart).only _ _ _ hfirst hallows.1 with ⟨hgrown, s', rfl, hinv⟩
          rw [List.length_append] at hgrown hlength
          have hpost := ih after.length (by omega) hinv after rfl finish a hrest hallows.2
          rw [List.append_assoc] at hpost
          exact hpost

end Setting
end Plan
end Turnstile
