import Mathlib.Algebra.Order.BigOperators.Group.List
import Mathlib.Algebra.Order.Group.Nat
import Turnstile.Proofs.Hall.Schedule

/-!
# Entries that pay for removals

An instance of a semaphore never removes an entry that it did not pay for: it was told of as many
entries that it made, at any time, as it has sent removals.  Nothing is assumed of the surroundings.
Commands may fail with or without effect, uses may be interrupted any number of times and run out
of time, and several uses of one instance may go on at once and share the slots that it holds.

The books of an instance balance at every point: what was entered is what was removed, and the
credit of its uses, and the slots that it holds.

## Main statements

* `Hall.removals_le_entries` - no instance removes more than it was told to have entered.
-/

namespace Turnstile

open Redis

variable {τ : Type} [Seconds τ]

/-- Anything may go wrong, and the keys may change in any way. -/
def Regime.lawless : Regime τ where
  faults _ e := Blocking.isRefusal e = false
  estimates _ := True
  sleeps _ _ := True
  clock _ := True
  elsewhere _ _ := True
  noRefusal _ _ he := he

theorem Regime.not_fair_lawless : ¬ (lawless : Regime τ).Fair := by
  intro hfair
  exact hfair.faultless .ping .interrupted rfl

namespace Hall

/-- The sum of a number over those of some uses that are made of an instance. -/
def tally (number : Nat) (f : Errand τ → Nat) (errands : List (Errand τ)) : Nat :=
  (errands.map fun errand => if errand.user = number then f errand else 0).sum

def entries (hall : Hall τ) (number : Nat) : Nat :=
  tally number (fun errand => errand.sent.countP Dispatch.enters) hall.errands

/-- The number of removals that an instance has sent, whether they were answered or not. -/
def removals (hall : Hall τ) (number : Nat) : Nat :=
  tally number (fun errand =>
    errand.sent.countP Dispatch.removes + errand.plan.awaiting Turnstile.removes) hall.errands

/-- The number of removals that were answered, and of those for which there is credit. -/
def debt (errand : Errand τ) : Nat :=
  errand.sent.countP Dispatch.removes + errand.credit.worth

variable {hall hall' : Hall τ} {number : Nat} {r : (Premises τ).Request}
  {answer : (Premises τ).Answer r} {sent : List (Dispatch τ)} {regime : Regime τ}

theorem tally_split (f : Errand τ → Nat) (before after : List (Errand τ)) (errand : Errand τ) :
    tally number f (before ++ errand :: after) =
      tally number f (before ++ after) + if errand.user = number then f errand else 0 := by
  simp only [tally, List.map_append, List.map_cons, List.sum_append, List.sum_cons]
  omega

theorem tally_le {f g : Errand τ → Nat} {errands : List (Errand τ)}
    (h : ∀ errand ∈ errands, f errand ≤ g errand) :
    tally number f errands ≤ tally number g errands := by
  apply List.sum_le_sum
  intro errand herrand
  split
  · exact h errand herrand
  · exact Nat.le_refl 0

theorem heldBy_of_split {before after : List (User τ)} {user : User τ}
    (split : hall.users = before ++ user :: after) (place : before.length = number) :
    hall.heldBy number = user.held.length := by
  unfold heldBy
  rw [getElem?_of_split split place]
  rfl

theorem heldBy_of_ne {before after : List (User τ)} {user user' : User τ}
    (split : hall.users = before ++ user :: after) (split' : hall'.users = before ++ user' :: after)
    (hne : number ≠ before.length) : hall'.heldBy number = hall.heldBy number := by
  unfold heldBy
  rw [split, split', getElem?_replaced hne.symm]

/-!
## Books
-/

/-- With every answer the books of the instance still balance, and those of the others are left
alone. -/
theorem Answers.balance {key : String} {φ : Credit}
    (h : Answers regime hall number r answer sent hall') (hallows : φ.allows key r) :
    sent.countP Dispatch.enters + φ.worth + hall.heldBy number =
        sent.countP Dispatch.removes + (φ.after r answer).worth + hall'.heldBy number ∧
      ∀ other, other ≠ number → hall'.heldBy other = hall.heldBy other := by
  cases h with
  | @call client command took reply keys executed =>
      refine ⟨?_, fun _ _ => rfl⟩
      show _ + hall.heldBy number = _ + hall.heldBy number
      cases command with
      | rpush key' id =>
          rw [show φ = .blank from hallows.2]
          cases reply with
          | ok length => rfl
          | error e => rfl
      | lpop key' count =>
          rcases hallows with ⟨_, _, rfl | rfl⟩
          · rfl
          · rfl
      | _ => rfl
  | @hold ticket before after user split place =>
      rw [show φ = .entry from hallows.2]
      constructor
      · rw [heldBy_of_split split place, heldBy_of_split rfl place, List.length_append]
        exact Nat.add_right_comm 0 1 user.held.length
      · intro other hother
        rw [← place] at hother
        exact heldBy_of_ne split rfl hother
  | @takeOldest before after user ticket rest split place oldest =>
      constructor
      · rw [heldBy_of_split split place, heldBy_of_split rfl place, oldest]
        rcases hallows with rfl | rfl
        · exact Nat.add_right_comm 0 rest.length 1
        · exact Nat.add_right_comm 0 rest.length 1
      · intro other hother
        rw [← place] at hother
        exact heldBy_of_ne split rfl hother
  | _ => exact ⟨rfl, fun _ _ => rfl⟩

/-- What an instance was told to have entered is what it removed, and the credit of its uses, and
the slots that it holds. -/
def Balanced (hall : Hall τ) : Prop :=
  ∀ number, tally number debt hall.errands + hall.heldBy number = hall.entries number

theorem Opening.balanced (h : hall.Opening) : hall.Balanced := by
  intro number
  have hheld : hall.heldBy number = 0 := by
    unfold heldBy
    cases huser : hall.users[number]? with
    | none => rfl
    | some user =>
        rw [Option.map_some, h.noSlots user (List.mem_of_getElem? huser)]
        rfl
  unfold entries
  rw [hheld, h.noErrands]
  rfl

theorem Balanced.step (h : hall.Balanced) (hconducted : hall.Conducted regime)
    (hclear : hall.Clear regime) (hstep : Step regime hall hall') : hall'.Balanced := by
  intro number
  have hnumber := h number
  unfold entries at hnumber ⊢
  cases hstep with
  | @call user₁ user use here =>
      rw [tally_split, tally_split, List.append_nil]
      have hnew : (if user₁ = number then 0 else 0) = 0 := ite_self 0
      simp only [debt, List.countP_nil, Credit.worth, hnew]
      exact hnumber
  | turn split turns =>
      rw [split, tally_split, tally_split] at hnumber
      rw [tally_split, tally_split]
      exact hnumber
  | @hears before after errand r answer sent plan hall'' split asks answers =>
      have herrand := mem_of_split split
      rcases hconducted.asks hclear herrand asks answers with ⟨key, _, hallows, _⟩
      rcases answers.balance hallows with ⟨hbalance, hothers⟩
      rw [split, tally_split, tally_split] at hnumber
      rw [tally_split, tally_split]
      show tally number debt (before ++ after) +
          (if errand.user = number then debt (errand.resume r answer sent plan) else 0) +
          hall''.heldBy number =
        tally number (fun errand => errand.sent.countP Dispatch.enters) (before ++ after) +
          if errand.user = number then (errand.sent ++ sent).countP Dispatch.enters else 0
      by_cases huser : errand.user = number
      · rw [if_pos huser, if_pos huser] at hnumber ⊢
        rw [huser] at hbalance
        have hdebt : debt (errand.resume r answer sent plan) =
            errand.sent.countP Dispatch.removes + sent.countP Dispatch.removes +
              (errand.credit.after r answer).worth := by
          simp only [debt, Errand.resume, List.countP_append]
        have hbefore : debt errand =
            errand.sent.countP Dispatch.removes + errand.credit.worth := rfl
        rw [hdebt, List.countP_append]
        omega
      · rw [if_neg huser, if_neg huser] at hnumber ⊢
        rw [hothers number fun heq => huser heq.symm]
        exact hnumber
  | elsewhere keys allowed => exact hnumber

theorem Balanced.leads (h : hall.Balanced) (hconducted : hall.Conducted regime)
    (hunfair : ¬ regime.Fair) (hleads : Leads regime hall hall') : hall'.Balanced := by
  induction hleads with
  | refl => exact h
  | tail hleads hstep ih =>
      exact ih.step (hconducted.leads hunfair hleads) (fun hfair => absurd hfair hunfair) hstep

/-- At any time an instance has sent at most as many removals as it was told to have made entries,
however often its uses fail, are interrupted or run out of time, and however many of them go on at
once. -/
theorem removals_le_entries (hopening : hall.Opening) (hleads : Leads .lawless hall hall')
    (number : Nat) : hall'.removals number ≤ hall'.entries number := by
  have hunfair : ¬ (Regime.lawless : Regime τ).Fair := Regime.not_fair_lawless
  have hopened : hall.Conducted .lawless :=
    hopening.conducted fun hfair => absurd hfair hunfair
  have hconducted := hopened.leads hunfair hleads
  have hbalanced := hopening.balanced.leads hopened hunfair hleads
  -- Every removal that was not answered yet is one for which there is credit.
  have hsent : hall'.removals number ≤ tally number debt hall'.errands := by
    apply tally_le
    intro errand herrand
    rcases hconducted.meets errand herrand with ⟨key, _, hmeets⟩
    have hawaiting := hmeets.awaiting_le Credit.prices
    unfold debt
    omega
  have hbooks := hbalanced number
  omega

def loneDesk : Hall Float where
  keys := {}
  users := [⟨.cooperative, desk, []⟩]
  errands := []

/-- The instance gets a slot and asks for another one.  It gives back a slot twice, though it holds
one, and is interrupted while it waits. -/
def crossing : List (Turn Float) :=
  .call 0 (.acquire none) :: goOn 0 7 ++ .stir 0 .inTime :: goOn 0 4 ++
    .call 0 (.acquire (some 1)) :: goOn 1 7 ++ .stir 1 .inTime :: goOn 1 3 ++
    .call 0 .release :: goOn 2 8 ++ .call 0 .release :: goOn 3 1 ++
    .fail 1 .interrupted true :: goOn 1 1 ++ .stir 1 .interrupted :: goOn 1 10

/-- Two removals were sent when the instance was told of two entries. -/
theorem removals_le_entries_of_crossing : ∃ hall,
    Leads .lawless loneDesk hall ∧ hall.removals 0 = 2 ∧ hall.removals 0 ≤ hall.entries 0 := by
  have hadmits : (Regime.lawless : Regime Float).Admits fun _ e => !Blocking.isRefusal e := by
    refine ⟨fun _ _ => trivial, fun _ => trivial, trivial, ?_⟩
    intro command e he
    rw [Bool.not_eq_true'] at he
    exact he
  have hdrive : ((loneDesk.drive (fun _ e => !Blocking.isRefusal e) crossing).map fun hall =>
      hall.removals 0) = some 2 := by
    decide +kernel
  rcases Option.map_eq_some_iff.mp hdrive with ⟨hall, hhall, hremovals⟩
  have hleads := drive_leads hadmits hhall
  refine ⟨hall, hleads, hremovals, ?_⟩
  refine removals_le_entries ⟨?_, rfl⟩ hleads 0
  intro user huser
  rw [List.mem_singleton.mp huser]

end Hall
end Turnstile
