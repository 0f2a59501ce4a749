import Turnstile.Proofs.Plan.Terms

/-!
# What a plan waits for

A plan with legs can wait for several answers at once.  `awaiting` counts the requests of a kind
for whose answers it waits, and terms bound this number: where each such request has its price, a
plan that keeps to its terms never waits for more of them than its standing is worth.

To compute a run one has to choose where a plan goes on.  `front?` is the first request that it
waits for, and `stir?` is how it goes on without any.

## Main statements

* `Meets.awaiting_le` - a plan waits for no more requests than its standing is worth.
* `asks_of_front?` and `turns_of_stir?` - the chosen steps are steps of the plan.
-/

namespace Turnstile
namespace Plan

universe u v

variable {I : Interface.{u}} {Φ : Type v} {τ : Type} [Seconds τ]

/-- The number of requests of a kind for whose answers a plan waits. -/
def awaiting (kind : I.Request → Bool) : {α : Type} → Plan I τ α → Nat
  | _, .ask r _ => if kind r then 1 else 0
  | _, .both left right _ => left.awaiting kind + right.awaiting kind
  | _, .within limit body _ => if limit ≤ 0 then 0 else body.awaiting kind
  | _, _ => 0

/-- Requests of a kind have a price under some terms: they may be made only in a standing that is
worth something, and none of them leaves its standing as it is. -/
structure Terms.Prices (terms : Terms I Φ) (kind : I.Request → Bool) (worth : Φ → Nat) : Prop where
  paid : ∀ {φ : Φ} {r : I.Request} {post : Φ → I.Answer r → Prop}, kind r = true →
    terms.ask φ r post → 1 ≤ worth φ
  loud : ∀ {φ : Φ} {r : I.Request}, kind r = true → ¬ terms.Quiet (fun φ' => φ' = φ) r

namespace Terms.Prices

variable {terms : Terms I Φ} {kind : I.Request → Bool} {worth : Φ → Nat} {among : Φ → Prop} {φ : Φ}

theorem not_quiet (h : terms.Prices kind worth) {r : I.Request} (hkind : kind r = true)
    (hφ : among φ) : ¬ terms.Quiet among r := by
  intro hquiet
  refine h.loud hkind (φ := φ) fun φ' post hφ' hpost => ?_
  rw [hφ']
  rw [hφ'] at hpost
  exact hquiet φ post hφ hpost

theorem staying (h : terms.Prices kind worth) : (terms.staying among).Prices kind worth where
  paid hkind hask := h.paid hkind hask
  loud hkind hquiet := h.loud hkind fun φ' post hφ' hpost =>
    terms.ask_mono (fun _ _ hstays => hstays.2) (hquiet φ' post hφ' hpost)

theorem quiet (h : terms.Prices kind worth) (hφ : among φ) :
    (terms.quiet among).Prices kind fun _ => 0 where
  paid hkind hask := absurd hask.1 (h.not_quiet hkind hφ)
  loud hkind hquiet :=
    h.not_quiet hkind hφ (hquiet ⟨⟩ (fun _ _ => True) rfl fun _ => trivial).1

end Terms.Prices

/-- A plan that keeps to its terms waits for no more requests than its standing is worth. -/
theorem Meets.awaiting_le {α : Type} {terms : Terms I Φ} {kind : I.Request → Bool}
    {worth : Φ → Nat} {φ : Φ} {p : Plan I τ α} {post : Φ → α → Prop}
    (hprices : terms.Prices kind worth) (hmeets : p.Meets terms φ post) :
    p.awaiting kind ≤ worth φ := by
  induction p generalizing Φ with
  | pure a => exact Nat.zero_le _
  | ask r next ih =>
      unfold awaiting
      split
      · rename_i hkind
        exact hprices.paid hkind hmeets
      · exact Nat.zero_le _
  | iterate step start next ihStep ih => exact Nat.zero_le _
  | both left right next ihLeft ihRight ih =>
      rcases hmeets with ⟨among, hφ, hleft, hright⟩
      have hleft' := ihLeft (hprices.quiet hφ) hleft
      have hright' := ihRight hprices.staying hright
      unfold awaiting
      omega
  | within limit body next ihBody ih =>
      unfold awaiting
      split
      · exact Nat.zero_le _
      · rename_i hleft
        exact ihBody hprices (hmeets.2 hleft)

/-!
## Choices
-/

/-- The first request that a plan waits for, and how each answer to it lets the plan go on.  Of
two legs it is the left one's, if there is one. -/
def front? : {α : Type} → Plan I τ α → Option ((r : I.Request) × (I.Answer r → Plan I τ α))
  | _, .ask r next => some ⟨r, next⟩
  | _, .both left right next =>
      match left.front?, right.front? with
      | some ⟨r, goOn⟩, _ => some ⟨r, fun answer => .both (goOn answer) right next⟩
      | none, some ⟨r, goOn⟩ => some ⟨r, fun answer => .both left (goOn answer) next⟩
      | none, none => none
  | _, .within limit body next =>
      if limit ≤ 0 then none
      else body.front?.map fun front => ⟨front.1, fun answer => .within limit (front.2 answer) next⟩
  | _, _ => none

def result? {α : Type} : Plan I τ α → Option α
  | .pure a => some a
  | _ => none

/-- A plan that goes on without a request.  A wait for a body that has ended came to its end in the
way that is given. -/
def stir? (lapse : Lapse) : {α : Type} → Plan I τ α → Option (Plan I τ α)
  | _, .iterate step start next =>
      some ((step start).bind (Sum.elim (fun s => .iterate step s next) next))
  | _, .both left right next =>
      match left.result?, right.result? with
      | some b, some c => some (next (some (b, c)))
      | _, _ =>
          match left.stir? lapse, right.stir? lapse with
          | some left', _ => some (.both left' right next)
          | none, some right' => some (.both left right' next)
          | none, none => none
  | _, .within limit body next =>
      if limit ≤ 0 then some (next .expired none)
      else
        match body.result? with
        | some b => some (next lapse (some b))
        | none => (body.stir? lapse).map fun body' => .within limit body' next
  | _, _ => none

omit [Seconds τ] in
theorem eq_of_result? {α : Type} {p : Plan I τ α} {a : α} (h : p.result? = some a) :
    p = .pure a := by
  cases p with
  | pure a =>
      cases h
      rfl
  | _ => cases h

theorem asks_of_front? {α : Type} {p : Plan I τ α} {r : I.Request}
    {goOn : I.Answer r → Plan I τ α} (h : p.front? = some ⟨r, goOn⟩) (answer : I.Answer r) :
    Asks p r answer (goOn answer) := by
  induction p with
  | pure a => cases h
  | ask r next ih =>
      cases h
      exact .ask r goOn answer
  | iterate step start next ihStep ih => cases h
  | both left right next ihLeft ihRight ih =>
      unfold front? at h
      split at h
      · rename_i hfront
        cases h
        exact .left right next (ihLeft hfront)
      · rename_i hfront
        cases h
        exact .right left next (ihRight hfront)
      · cases h
  | within limit body next ihBody ih =>
      unfold front? at h
      split at h
      · cases h
      · rename_i hleft
        rcases Option.map_eq_some_iff.mp h with ⟨⟨r, goOn⟩, hfront, heq⟩
        cases heq
        exact .body next hleft (ihBody hfront)

theorem turns_of_stir? {interruptible : Prop} {α : Type} {lapse : Lapse} {p p' : Plan I τ α}
    (hlapse : lapse = .inTime ∨ interruptible) (h : p.stir? lapse = some p') :
    Turns interruptible p p' := by
  induction p with
  | pure a => cases h
  | ask r next ih => cases h
  | iterate step start next ihStep ih =>
      cases h
      exact .unroll step start next
  | both left right next ihLeft ihRight ih =>
      unfold stir? at h
      split at h
      · rename_i b c hb hc
        cases h
        rw [eq_of_result? hb, eq_of_result? hc]
        exact .joined b c next
      · split at h
        · rename_i hleft
          cases h
          exact .left right next (ihLeft hleft)
        · rename_i hright
          cases h
          exact .right left next (ihRight hright)
        · cases h
  | within limit body next ihBody ih =>
      unfold stir? at h
      split at h
      · rename_i hpassed
        cases h
        exact .late body next hpassed
      · rename_i hleft
        split at h
        · rename_i b hb
          cases h
          rw [eq_of_result? hb]
          exact .lapsed b next lapse hleft hlapse
        · rcases Option.map_eq_some_iff.mp h with ⟨body', hbody, heq⟩
          cases heq
          exact .body next hleft (ihBody hbody)

end Plan
end Turnstile
