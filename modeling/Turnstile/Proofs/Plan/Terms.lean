import Turnstile.Proofs.Plan.Course

/-!
# Terms for plans

A plan is judged by what it asks for.  Whoever watches it is in a standing, and terms say for each
standing what may be asked for and which answers lead to which standings.  A plan meets its terms
if everything it asks for is allowed whatever it is answered, and if it can only end in a standing
and with a result that are wanted.

## Main statements

* `meets_bind` - how terms are met by a plan that goes on as another one.
* `Meets.turns` and `Meets.asks` - a plan that meets its terms still does after a step.
-/

namespace Turnstile
namespace Plan

universe u v

/-- What plans may ask for.  `ask φ r post` says that `r` may be asked for in the standing `φ`, and
that whatever it is answered the next standing and the answer satisfy `post`. -/
structure Terms (I : Interface.{u}) (Φ : Type v) where
  ask : Φ → (r : I.Request) → (Φ → I.Answer r → Prop) → Prop
  ask_mono : ∀ {φ : Φ} {r : I.Request} {post post' : Φ → I.Answer r → Prop},
    (∀ φ' a, post φ' a → post' φ' a) → ask φ r post → ask φ r post'
  /-- Whether plans can be interrupted while they wait for other plans. -/
  interruptible : Prop

variable {I : Interface.{u}} {Φ : Type v} {τ α β : Type}

namespace Terms

/-- The same terms, except that only some standings may be reached. -/
def staying (terms : Terms I Φ) (among : Φ → Prop) : Terms I Φ where
  ask φ r post := terms.ask φ r fun φ' a => among φ' ∧ post φ' a
  ask_mono hpost := terms.ask_mono fun φ' a h => ⟨h.1, hpost φ' a h.2⟩
  interruptible := terms.interruptible

def Quiet (terms : Terms I Φ) (among : Φ → Prop) (r : I.Request) : Prop :=
  ∀ φ post, among φ → (∀ a, post φ a) → terms.ask φ r post

def quiet (terms : Terms I Φ) (among : Φ → Prop) : Terms I PUnit.{v + 1} where
  ask _ r post := terms.Quiet among r ∧ ∀ a, post ⟨⟩ a
  ask_mono hpost h := ⟨h.1, fun a => hpost ⟨⟩ a (h.2 a)⟩
  interruptible := terms.interruptible

end Terms

/-!
## Plans that meet their terms
-/

variable [Seconds τ]

/-- A plan that starts in a standing asks only for what its terms allow, and ends only in a
standing and with a result that satisfy `post`.

A loop is judged by what holds whenever it goes round.  Of two legs, the left one may only make
requests that leave the standings alone through which the right one goes. -/
def Meets : {α : Type} → Plan I τ α → {Φ : Type v} → Terms I Φ → Φ → (Φ → α → Prop) → Prop
  | _, .pure a, _, _, φ, post => post φ a
  | _, .ask r next, _, terms, φ, post =>
      terms.ask φ r fun φ' a => (next a).Meets terms φ' post
  | _, @Plan.iterate _ _ σ _ _ step start next, Φ, terms, φ, post =>
      ∃ inv : Φ → σ → Prop, inv φ start ∧ ∀ φ' s, inv φ' s →
        (step s).Meets terms φ' fun φ'' =>
          Sum.elim (inv φ'') fun b => (next b).Meets terms φ'' post
  | _, .both left right next, Φ, terms, φ, post =>
      ∃ among : Φ → Prop, among φ ∧
        left.Meets (terms.quiet among) ⟨⟩ (fun _ _ => True) ∧
        right.Meets (terms.staying among) φ fun φ' c =>
          (∀ b, (next (some (b, c))).Meets terms φ' post) ∧
            (terms.interruptible → (next none).Meets terms φ' post)
  | _, .within limit body next, _, terms, φ, post =>
      (limit ≤ 0 → (next .expired none).Meets terms φ post) ∧
        (¬ limit ≤ 0 → body.Meets terms φ fun φ' b =>
          ∀ lapse, (lapse = .inTime ∨ terms.interruptible) →
            (next lapse (some b)).Meets terms φ' post)

theorem Meets.mono {terms : Terms I Φ} {φ : Φ} {p : Plan I τ α} {post post' : Φ → α → Prop}
    (hmeets : p.Meets terms φ post) (hpost : ∀ φ' a, post φ' a → post' φ' a) :
    p.Meets terms φ post' := by
  -- Legs are judged by other terms than their plan, so the standings vary along the induction.
  induction p generalizing Φ with
  | pure a => exact hpost φ a hmeets
  | ask r next ih => exact terms.ask_mono (fun φ' a h => ih a h hpost) hmeets
  | iterate step start next ihStep ih =>
      rcases hmeets with ⟨inv, hstart, hstep⟩
      refine ⟨inv, hstart, fun φ' s hs => ihStep s (hstep φ' s hs) ?_⟩
      intro φ'' result hresult
      cases result with
      | inl s' => exact hresult
      | inr b => exact ih b hresult hpost
  | both left right next ihLeft ihRight ih =>
      rcases hmeets with ⟨among, hφ, hleft, hright⟩
      refine ⟨among, hφ, hleft, ihRight hright ?_⟩
      intro φ' c hc
      exact ⟨fun b => ih _ (hc.1 b) hpost, fun hcut => ih _ (hc.2 hcut) hpost⟩
  | within limit body next ihBody ih =>
      refine ⟨fun hpassed => ih _ _ (hmeets.1 hpassed) hpost, fun hleft => ?_⟩
      refine ihBody (hmeets.2 hleft) ?_
      intro φ' b hb lapse hlapse
      exact ih _ _ (hb lapse hlapse) hpost

theorem meets_bind {terms : Terms I Φ} {φ : Φ} (p : Plan I τ α) (f : α → Plan I τ β)
    {post : Φ → β → Prop} :
    (p.bind f).Meets terms φ post ↔
      p.Meets terms φ fun φ' a => (f a).Meets terms φ' post := by
  induction p generalizing Φ with
  | pure a => exact Iff.rfl
  | ask r next ih => simp only [bind, Meets, ih]
  | iterate step start next ihStep ih => simp only [bind, Meets, ih]
  | both left right next ihLeft ihRight ih => simp only [bind, Meets, ih]
  | within limit body next ihBody ih => simp only [bind, Meets, ih]

/-!
## Steps
-/

theorem Meets.turns {terms : Terms I Φ} {φ : Φ} {p p' : Plan I τ α} {post : Φ → α → Prop}
    (hmeets : p.Meets terms φ post) (hturns : Turns terms.interruptible p p') :
    p'.Meets terms φ post := by
  induction p generalizing Φ with
  | pure a => cases hturns
  | ask r next ih => cases hturns
  | iterate step start next ihStep ih =>
      cases hturns
      rcases hmeets with ⟨inv, hstart, hstep⟩
      rw [meets_bind]
      refine (hstep φ start hstart).mono ?_
      intro φ' result hresult
      cases result with
      | inl s => exact ⟨inv, hresult, hstep⟩
      | inr b => exact hresult
  | both left right next ihLeft ihRight ih =>
      rcases hmeets with ⟨among, hφ, hleft, hright⟩
      cases hturns with
      | left _ _ hturns => exact ⟨among, hφ, ihLeft hleft hturns, hright⟩
      | right _ _ hturns => exact ⟨among, hφ, hleft, ihRight hright hturns⟩
      | joined b c => exact hright.1 b
      | parted b c _ hcut => exact hright.2 hcut
  | within limit body next ihBody ih =>
      cases hturns with
      | late _ _ hpassed => exact hmeets.1 hpassed
      | body _ hleft hturns =>
          exact ⟨hmeets.1, fun _ => ihBody (hmeets.2 hleft) hturns⟩
      | lapsed b _ lapse hleft hhow => exact hmeets.2 hleft lapse hhow

/-- A plan that meets its terms makes a request that they allow, and however it is answered it
still meets them in the standing to which the answer leads. -/
theorem Meets.asks {terms : Terms I Φ} {φ : Φ} {p p' : Plan I τ α} {r : I.Request}
    {answer : I.Answer r} {post : Φ → α → Prop} (hmeets : p.Meets terms φ post)
    (hasks : Asks p r answer p') :
    terms.ask φ r fun φ' a => a = answer → p'.Meets terms φ' post := by
  induction hasks generalizing Φ with
  | ask r next answer =>
      refine terms.ask_mono ?_ hmeets
      intro φ' a ha heq
      rw [← heq]
      exact ha
  | left right next hasks ih =>
      rcases hmeets with ⟨among, hφ, hleft, hright⟩
      -- The left leg leaves every standing alone through which the right one goes.
      rcases ih hleft with ⟨hquiet, hnext⟩
      refine hquiet φ _ hφ fun a ha => ?_
      exact ⟨among, hφ, hnext a ha, hright⟩
  | right left next hasks ih =>
      rcases hmeets with ⟨among, hφ, hleft, hright⟩
      have hask := ih hright
      refine terms.ask_mono ?_ hask
      intro φ' a ha hanswer
      exact ⟨among, ha.1, hleft, ha.2 hanswer⟩
  | body next hleft hasks ih =>
      refine terms.ask_mono ?_ (ih (hmeets.2 hleft))
      intro φ' a ha hanswer
      exact ⟨fun hpassed => absurd hpassed hleft, fun _ => ha hanswer⟩

end Plan
end Turnstile
