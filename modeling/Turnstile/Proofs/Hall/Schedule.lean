import Turnstile.Proofs.Crowd.Schedule
import Turnstile.Proofs.Hall.Basic

/-!
# Schedules of a hall

A schedule says what happens next, again and again: an instance is used, a use is answered, a
command of a use fails, or a use goes on by itself.  Where the clock stands still this is all that
is needed to tell how a hall goes on, so that runs can be computed.

## Main statements

* `Hall.drive_leads` - a schedule that can be followed gives a run.
-/

namespace Turnstile

open Redis

variable {τ : Type} [Seconds τ]

/-- A regime admits the answers of a schedule: every sleep comes to its end, the base duration is
estimated if it is not negative, and some failures can be told. -/
structure Regime.Admits (regime : Regime τ) (faulty : Command → Failure τ → Bool) : Prop where
  estimate : ∀ base, ¬ Seconds.Negative base → regime.estimates (.ok base)
  sleep : ∀ duration, regime.sleeps duration (.ok ())
  now : regime.clock 0
  fault : ∀ command e, faulty command e = true → regime.faults command e

namespace Hall

/-- What happens next.  The uses are told by their places. -/
inductive Turn (τ : Type) where
  | call (number : Nat) (use : Use τ)
  | go (place : Nat)
  /-- The use is told of a failure of its command, which took effect or not. -/
  | fail (place : Nat) (e : Failure τ) (took : Bool)
  /-- The use goes on by itself.  If it waited for a body, that came to its end in this way. -/
  | stir (place : Nat) (lapse : Lapse)

def setHeld (hall : Hall τ) (number : Nat) (user : User τ) (held : List (Ticket τ)) : Hall τ :=
  { hall with
    users := hall.users.take number ++
      { user with held := held } :: hall.users.drop (number + 1) }

def answer? (hall : Hall τ) (place number : Nat) :
    (r : (Premises τ).Request) → Option ((Premises τ).Answer r × List (Dispatch τ) × Hall τ)
  | .inl (.dial endpoint) => some (⟨0, endpoint, {}⟩, [], hall)
  | .inl (.hangUp _) => some ((), [], hall)
  | .inl (.call _ command) =>
      let ran := hall.keys.run false 0 command
      some (ran.1.reply, [⟨command, true, ran.1.reply⟩], { hall with keys := ran.2 })
  | .inr (.estimate _ _ base) =>
      if base < 0 ∧ base ≤ 0 then none else some (.ok base, [], hall)
  | .inr (.sleep _) => some (.ok (), [], hall)
  | .inr .now => some ((0 : τ), [], hall)
  | .inr (.record ..) => some ((), [], hall)
  | .inr (.announce _) => none
  | .inr .freshId => some (toString place, [], hall)
  | .inr (.hold ticket) =>
      match hall.users[number]? with
      | none => none
      | some user => some ((), [], hall.setHeld number user (user.held ++ [ticket]))
  | .inr .takeOldest =>
      match hall.users[number]? with
      | none => none
      | some user =>
          match user.held with
          | [] => some (none, [], hall)
          | ticket :: rest => some (some ticket, [], hall.setHeld number user rest)

def failure? (hall : Hall τ) (faulty : Command → Failure τ → Bool) (e : Failure τ) (took : Bool) :
    (r : (Premises τ).Request) → Option ((Premises τ).Answer r × List (Dispatch τ) × Hall τ)
  | .inl (.call _ command) =>
      if faulty command e then
        let keys := if took then (hall.keys.run false 0 command).2 else hall.keys
        some (.error e, [⟨command, took, .error e⟩], { hall with keys := keys })
      else none
  | _ => none

def hear (hall : Hall τ) (place : Nat)
    (answer? : Errand τ → (r : (Premises τ).Request) →
      Option ((Premises τ).Answer r × List (Dispatch τ) × Hall τ)) : Option (Hall τ) :=
  match hall.errands[place]? with
  | none => none
  | some errand =>
      match errand.plan.front? with
      | none => none
      | some ⟨r, goOn⟩ =>
          match answer? errand r with
          | none => none
          | some (answer, sent, hall') =>
              some { hall' with
                errands := hall.errands.take place ++
                  errand.resume r answer sent (goOn answer) :: hall.errands.drop (place + 1) }

def next? (faulty : Command → Failure τ → Bool) (hall : Hall τ) : Turn τ → Option (Hall τ)
  | .call number use =>
      match hall.users[number]? with
      | none => none
      | some user => some { hall with
          errands := hall.errands ++ [⟨number, .blank, [], onPremises (use.operation user)⟩] }
  | .go place => hall.hear place fun errand => hall.answer? place errand.user
  | .fail place e took => hall.hear place fun _ => hall.failure? faulty e took
  | .stir place lapse =>
      match hall.errands[place]? with
      | none => none
      | some errand =>
          match errand.plan.stir? lapse with
          | none => none
          | some plan => some { hall with
              errands := hall.errands.take place ++
                { errand with plan := plan } :: hall.errands.drop (place + 1) }

def drive (faulty : Command → Failure τ → Bool) (hall : Hall τ) : List (Turn τ) → Option (Hall τ)
  | [] => some hall
  | turn :: rest =>
      match hall.next? faulty turn with
      | none => none
      | some hall' => hall'.drive faulty rest

/-!
## Schedules give runs
-/

variable {regime : Regime τ} {faulty : Command → Failure τ → Bool} {hall hall' : Hall τ}
  {place number : Nat} {r : (Premises τ).Request} {answer : (Premises τ).Answer r}
  {sent : List (Dispatch τ)}

theorem answers_of_answer? (hadmits : regime.Admits faulty)
    (h : hall.answer? place number r = some (answer, sent, hall')) :
    Answers regime hall number r answer sent hall' := by
  rcases r with (endpoint | ⟨client, command⟩ | client) | r
  · cases h
    exact .dial endpoint _
  · cases h
    exact .call client (.answered false 0)
  · cases h
    exact .hangUp client
  · cases r with
    | estimate position capacity base =>
        unfold answer? at h
        dsimp only at h
        split at h
        · cases h
        · rename_i hbase
          cases h
          exact .estimate position capacity base (hadmits.estimate base hbase)
    | sleep duration =>
        cases h
        exact .sleep (hadmits.sleep duration)
    | now =>
        cases h
        exact .now hadmits.now
    | record mode entry =>
        cases h
        exact .record mode entry
    | announce position => cases h
    | freshId =>
        cases h
        exact .freshId _
    | hold ticket =>
        unfold answer? at h
        dsimp only at h
        split at h
        · cases h
        · rename_i user huser
          cases h
          rcases Crowd.split_of_getElem? huser with ⟨hsplit, hplace⟩
          exact .hold ticket hsplit hplace
    | takeOldest =>
        unfold answer? at h
        dsimp only at h
        split at h
        · cases h
        · rename_i user huser
          rcases Crowd.split_of_getElem? huser with ⟨hsplit, hplace⟩
          split at h
          · rename_i hheld
            cases h
            exact .noneHeld hsplit hplace hheld
          · rename_i ticket rest hheld
            cases h
            exact .takeOldest hsplit hplace hheld

theorem answers_of_failure? {e : Failure τ} {took : Bool} (hadmits : regime.Admits faulty)
    (h : hall.failure? faulty e took r = some (answer, sent, hall')) :
    Answers regime hall number r answer sent hall' := by
  rcases r with (endpoint | ⟨client, command⟩ | client) | r
  · cases h
  · unfold failure? at h
    dsimp only at h
    split at h
    · rename_i hfaulty
      have hfault := hadmits.fault command e hfaulty
      cases h
      cases took with
      | false => exact .call client (.refused hfault)
      | true => exact .call client (.lost hfault false 0)
    · cases h
  · cases h
  · cases h

theorem step_of_hear
    {answer? : Errand τ → (r : (Premises τ).Request) →
      Option ((Premises τ).Answer r × List (Dispatch τ) × Hall τ)}
    (hanswer : ∀ errand r answer sent hall', answer? errand r = some (answer, sent, hall') →
      Answers regime hall errand.user r answer sent hall')
    (h : hall.hear place answer? = some hall') : Step regime hall hall' := by
  unfold hear at h
  split at h
  · cases h
  · rename_i errand herrand
    rcases Crowd.split_of_getElem? herrand with ⟨hsplit, _⟩
    split at h
    · cases h
    · rename_i r goOn hfront
      split at h
      · cases h
      · rename_i answer sent hall'' hanswered
        cases h
        exact .hears hsplit (Plan.asks_of_front? hfront answer)
          (hanswer errand r answer sent hall'' hanswered)

theorem step_of_next? (hadmits : regime.Admits faulty) {turn : Turn τ}
    (h : hall.next? faulty turn = some hall') : Step regime hall hall' := by
  cases turn with
  | call number use =>
      unfold next? at h
      dsimp only at h
      split at h
      · cases h
      · rename_i user huser
        cases h
        exact .call use huser
  | go place => exact step_of_hear (fun _ _ _ _ _ => answers_of_answer? hadmits) h
  | fail place e took => exact step_of_hear (fun _ _ _ _ _ => answers_of_failure? hadmits) h
  | stir place lapse =>
      unfold next? at h
      dsimp only at h
      split at h
      · cases h
      · rename_i errand herrand
        rcases Crowd.split_of_getElem? herrand with ⟨hsplit, _⟩
        split at h
        · cases h
        · rename_i plan hstir
          cases h
          exact .turn hsplit (Plan.turns_of_stir? (Or.inr trivial) hstir)

theorem drive_leads (hadmits : regime.Admits faulty) {schedule : List (Turn τ)}
    (h : hall.drive faulty schedule = some hall') : Leads regime hall hall' := by
  induction schedule generalizing hall with
  | nil =>
      cases h
      exact .refl
  | cons turn rest ih =>
      unfold drive at h
      split at h
      · cases h
      · rename_i hall₁ hnext
        exact .head (step_of_next? hadmits hnext) (ih h)

/-!
## A desk
-/

/-- A semaphore with one slot, for which nobody queues behind two others. -/
def desk : Semaphore Float where
  key := "desk"
  capacity := 1
  maxPosition := 2
  sleepDuration := 0.1
  sound := by decide +kernel

def goOn (place turns : Nat) : List (Turn Float) :=
  List.replicate turns (.go place)

end Hall
end Turnstile
