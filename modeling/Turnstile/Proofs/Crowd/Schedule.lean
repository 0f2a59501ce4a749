import Turnstile.Number.Binary
import Turnstile.Proofs.Crowd.Basic

/-!
# Schedules

A schedule says whose turn it is, again and again.  Where nothing goes wrong and the clock stands
still, it is all that is needed to tell how a crowd goes on, so that runs can be computed.

## Main statements

* `Crowd.drive_leads` - a schedule that can be followed gives a run.
-/

namespace Turnstile

open Redis

universe u

variable {τ : Type} [Seconds τ]

namespace Crowd

inductive Turn where
  | acquire (user : Nat)
  | release (user : Nat)
  | go (number : Nat)

def setHeld (crowd : Crowd τ) (number : Nat) (user : User τ) (held : List (Ticket τ)) : Crowd τ :=
  { crowd with
    users := crowd.users.take number ++
      { user with held := held } :: crowd.users.drop (number + 1) }

def answer? (venue : Venue τ) (crowd : Crowd τ) (caller : Caller τ) :
    (r : (Premises τ).Request) → Option ((Premises τ).Answer r × Crowd τ)
  | .inl (.dial endpoint) => some (⟨0, endpoint, {}⟩, crowd)
  | .inl (.hangUp _) => some ((), crowd)
  | .inl (.call _ command) =>
      some ((crowd.keys.run false 0 command).1.reply,
        { crowd with
          keys := (crowd.keys.run false 0 command).2
          entries := crowd.entries ++ command.entry })
  | .inr (.estimate _ _ base) => some (.ok base, crowd)
  | .inr (.sleep _) => some (.ok (), crowd)
  | .inr .now =>
      if caller.limit.isNone ∧ caller.bearing.measures 0 then some ((0 : τ), crowd) else none
  | .inr (.record ..) => some ((), crowd)
  | .inr (.announce _) => none
  | .inr .freshId =>
      let id := toString crowd.callers.length
      if (∀ other ∈ crowd.callers, other.bearing.standing.id? ≠ some id) ∧
          id.toUTF8 ∉ venue.initial then some (id, crowd)
      else none
  | .inr (.hold ticket) =>
      match crowd.users[caller.user]? with
      | none => none
      | some user => some ((), crowd.setHeld caller.user user (user.held ++ [ticket]))
  | .inr .takeOldest =>
      match crowd.users[caller.user]? with
      | none => none
      | some user =>
          match user.held with
          | [] => some (none, crowd)
          | ticket :: rest => some (some ticket, crowd.setHeld caller.user user rest)

def go? (venue : Venue τ) (crowd : Crowd τ) (number : Nat) : Option (Crowd τ) :=
  match crowd.callers[number]? with
  | none => none
  | some caller =>
      let before := crowd.callers.take number
      let after := crowd.callers.drop (number + 1)
      match caller.plan with
      | .ask r next =>
          match answer? venue crowd caller r with
          | none => none
          | some (answer, world) =>
              some (world.resume before after caller
                { caller with
                  bearing := caller.bearing.after venue.capacity r answer
                  plan := next answer })
      | plan =>
          match plan.turn? with
          | none => none
          | some plan' =>
              some { crowd with callers := before ++ { caller with plan := plan' } :: after }

def next? (venue : Venue τ) (crowd : Crowd τ) : Turn → Option (Crowd τ)
  | .acquire number =>
      match crowd.users[number]? with
      | none => none
      | some user => some { crowd with
          callers := crowd.callers ++
            [⟨number, none, ⟨.arriving, none⟩, onPremises (user.acquire none)⟩] }
  | .release number =>
      match crowd.users[number]? with
      | none => none
      | some user => some { crowd with
          callers := crowd.callers ++
            [⟨number, none, ⟨.leaving, none⟩, onPremises user.release⟩] }
  | .go number => go? venue crowd number

def drive (venue : Venue τ) (crowd : Crowd τ) : List Turn → Option (Crowd τ)
  | [] => some crowd
  | turn :: rest =>
      match next? venue crowd turn with
      | none => none
      | some crowd' => drive venue crowd' rest

/-!
## Schedules give runs
-/

variable {venue : Venue τ} {crowd crowd' : Crowd τ}

theorem split_of_getElem? {α : Type u} {l : List α} {number : Nat} {a : α}
    (h : l[number]? = some a) :
    l = l.take number ++ a :: l.drop (number + 1) ∧ (l.take number).length = number := by
  rcases List.getElem?_eq_some_iff.mp h with ⟨hlt, rfl⟩
  refine ⟨?_, List.length_take_of_le (by omega)⟩
  rw [List.getElem_cons_drop hlt, List.take_append_drop]

theorem answers_of_answer? {caller : Caller τ} {r : (Premises τ).Request}
    {answer : (Premises τ).Answer r} (h : answer? venue crowd caller r = some (answer, crowd')) :
    Answers venue crowd caller r answer crowd' := by
  rcases r with (endpoint | ⟨client, command⟩ | client) | r
  · cases h
    exact .dial endpoint _
  · cases h
    exact .call client (.answered false 0)
  · cases h
    exact .hangUp client
  · cases r with
    | estimate position capacity base =>
        cases h
        refine .estimate position capacity base ?_
        intro e he
        cases he
    | sleep duration =>
        cases h
        refine .sleep duration ?_
        intro e he
        cases he
    | now =>
        unfold answer? at h
        dsimp only at h
        split at h
        · rename_i hnow
          cases h
          refine .now ?_ ?_
          · intro _ longest hlongest
            rw [Option.isNone_iff_eq_none.mp hnow.1] at hlongest
            cases hlongest
          · intro _ since hsince e he
            have hmeasures := hnow.2
            unfold Bearing.measures at hmeasures
            rw [Option.mem_def.mp hsince] at hmeasures
            dsimp only at hmeasures
            rw [he] at hmeasures
            cases hmeasures
        · cases h
    | record mode entry =>
        cases h
        exact .record mode entry
    | announce position => cases h
    | freshId =>
        unfold answer? at h
        dsimp only at h
        split at h
        · rename_i hfresh
          cases h
          exact .freshId hfresh.1 hfresh.2
        · cases h
    | hold ticket =>
        unfold answer? at h
        dsimp only at h
        split at h
        · cases h
        · rename_i user huser
          cases h
          rcases split_of_getElem? huser with ⟨hsplit, hplace⟩
          exact .hold ticket hsplit hplace
    | takeOldest =>
        unfold answer? at h
        dsimp only at h
        split at h
        · cases h
        · rename_i user huser
          rcases split_of_getElem? huser with ⟨hsplit, hplace⟩
          split at h
          · rename_i hheld
            cases h
            exact .noneHeld hsplit hplace hheld
          · rename_i ticket rest hheld
            cases h
            exact .takeOldest hsplit hplace hheld

theorem step_of_go? {number : Nat} (h : go? venue crowd number = some crowd') :
    Step venue crowd crowd' := by
  unfold go? at h
  split at h
  · cases h
  · rename_i caller hcaller
    rcases split_of_getElem? hcaller with ⟨hsplit, hplace⟩
    split at h
    · rename_i r next hplan
      split at h
      · cases h
      · rename_i answer world hanswer
        cases h
        refine .hears (.hears hsplit hplace ?_ (answers_of_answer? hanswer))
        rw [hplan]
        exact .ask r next answer
    · rename_i hplan
      split at h
      · cases h
      · rename_i plan' hturn
        cases h
        exact .turn hsplit (Plan.turns_of_turn? hturn)

theorem step_of_next? {turn : Turn} (h : next? venue crowd turn = some crowd') :
    Step venue crowd crowd' := by
  cases turn with
  | acquire number =>
      unfold next? at h
      dsimp only at h
      split at h
      · cases h
      · rename_i user huser
        cases h
        exact .acquire none huser
  | release number =>
      unfold next? at h
      dsimp only at h
      split at h
      · cases h
      · rename_i user huser
        cases h
        exact .release huser
  | go number => exact step_of_go? h

theorem drive_leads {schedule : List Turn} (h : drive venue crowd schedule = some crowd') :
    Leads venue crowd crowd' := by
  induction schedule generalizing crowd with
  | nil =>
      cases h
      exact .refl
  | cons turn rest ih =>
      unfold drive at h
      split at h
      · cases h
      · rename_i crowd₁ hnext
        exact .head (step_of_next? hnext) (ih h)

/-!
## Four users and two slots
-/

def gate : Semaphore Float where
  key := "gate"
  capacity := 2
  sleepDuration := 0.1
  sound := by decide +kernel

def gateVenue (faults : Failure Float → Prop) : Venue Float :=
  ⟨gate.queueKey, gate.capacity, [], faults⟩

/-- Two blocking users and two cooperative ones. -/
def quartet : Crowd Float where
  keys := {}
  users := [⟨.blocking, gate, []⟩, ⟨.blocking, gate, []⟩, ⟨.cooperative, gate, []⟩,
    ⟨.cooperative, gate, []⟩]
  callers := []
  entries := []
  admissions := []

theorem quartet_opening (faults : Failure Float → Prop) : Opening (gateVenue faults) quartet := by
  refine ⟨⟨nofun, rfl⟩, ?_, ?_, rfl, rfl, rfl⟩
  · have hgate : gate.Fits (gateVenue faults).queueKey (gateVenue faults).capacity :=
      ⟨rfl, rfl, rfl⟩
    simp [quartet, hgate]
  · simp [quartet]

def goOn (number turns : Nat) : List Turn :=
  List.replicate turns (.go number)

/-- All four users ask for slots.  The first two get them, and the others wait. -/
def rush : List Turn :=
  .acquire 0 :: goOn 0 11 ++ .acquire 1 :: goOn 1 11 ++ .acquire 2 :: goOn 2 7 ++
    .acquire 3 :: goOn 3 7

/-- The first user gives back its slot. -/
def oneLeaves : List Turn :=
  rush ++ .release 0 :: goOn 4 4

/-- The first two users give back their slots, and the last one looks before the third. -/
def overtaking : List Turn :=
  oneLeaves ++ .release 1 :: goOn 5 4 ++ goOn 3 5

end Crowd
end Turnstile
