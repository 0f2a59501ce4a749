import Turnstile.Backoff
import Turnstile.Proofs.Binary.Order
import Turnstile.Proofs.CleanUp
import Turnstile.Proofs.Crowd.Basic
import Turnstile.Proofs.Plan.Conclusion

/-!
# Back-off of the semaphores that can be made

Three places judge the arguments of a semaphore: the semaphore itself, each of its tickets, and the
estimate of each sleep.  They judge by what must not be the case, so that an undefined number passes
all of them.  Whatever semaphore can be made, its tickets are issued and its sleeps are estimated.
The estimates are not below the base duration just when that is a defined number.

A waiter sleeps as long as is estimated, unless it blocks under a limit of time, which can cut a
sleep short.  So a waiter whose base duration is defined asks for no sleep that is not positive, and
for none below its base duration unless its limit cuts it short.

## Main definitions

* `Pacing.Usual` - what a waiter is answered whose estimates are the standard ones.
* `Pacing.Enough` - a sleep that is as long as it should be.

## Main statements

* `Pacing.acquire_paces` - all sleeps of a waiter are long enough.
* `Pacing.enough_iff_defined` - what can be said of every semaphore that can be made.
-/

namespace Turnstile

open Redis

/-- A position that is not so far past capacity that the distance cannot be counted. -/
def Near (capacity position : Int) : Prop :=
  position - capacity < 2 ^ 1000

/-!
## Standard estimates
-/

namespace Backoff

variable {position capacity : Int} {base root : Float}

theorem one_le_factor (h : root.isNaN = false) : 1 ≤ standard.factor root := by
  have hone : (1 : Float) ≤ 1 := by decide +kernel
  have hdefined : (1 : Float).isNaN = false := by decide +kernel
  have hceiling : (1 : Float) ≤ defaultCeiling := by decide +kernel
  have hlater : 1 ≤ Seconds.later root 1 := by
    unfold Seconds.later
    split
    · exact hone
    · rename_i hnot
      exact Binary.le_of_not_lt h hdefined hnot
  unfold factor Seconds.earlier
  split
  · exact hceiling
  · exact hlater

theorem distance_lt {k : Nat} (h : position - capacity < 2 ^ k) :
    distance position capacity < 2 ^ k := by
  rw [distance, Int.toNat_lt' (Nat.two_pow_pos k), Nat.cast_pow]
  exact h

theorem exists_root (hbase : ¬ base ≤ 0) (hnear : Near capacity position)
    (sources : Randomness Float) : ∃ root : Float, root.isNaN = false ∧
      standard.estimate Rooted.root? position capacity base sources =
        .ok (base * standard.factor root, sources) := by
  have hinf : (Float.ofNat (distance position capacity)).isInf = false :=
    Binary.isInf_ofNat le_rfl (distance_lt hnear)
  have hroot : Rooted.root? (distance position capacity) =
      some (Float.ofNat (distance position capacity)).sqrt := by
    show (if (Float.ofNat _).isInf then none else some _) = _
    rw [hinf]
    rfl
  have hceiling : ¬ standard.ceiling < (1 : Float) := by decide +kernel
  have hnegative : ¬ standard.jitter < (0 : Float) := by decide +kernel
  have hjitter : standard.jitter ≤ (0 : Float) := by decide +kernel
  refine ⟨_, Binary.isNaN_sqrt_ofNat (distance position capacity), ?_⟩
  unfold estimate defect?
  rw [if_neg hbase, if_neg hceiling, if_neg hnegative, hroot]
  exact if_pos hjitter

theorem pos_of_not_le (hbase : ¬ base ≤ 0) (hdefined : base.isNaN = false) : 0 < base :=
  Binary.lt_of_not_le hdefined (by decide +kernel) hbase

theorem le_mul_factor (hbase : ¬ base ≤ 0) (hdefined : base.isNaN = false)
    (hroot : root.isNaN = false) : base ≤ base * standard.factor root :=
  Binary.le_mul_of_one_le (pos_of_not_le hbase hdefined) (one_le_factor hroot)

end Backoff

theorem Semaphore.not_sleep_le {τ : Type} [Seconds τ] (semaphore : Semaphore τ) :
    ¬ semaphore.sleepDuration ≤ 0 := by
  intro hle
  have hsound := semaphore.sound
  unfold SemaphoreForm.defect? at hsound
  rw [if_pos hle] at hsound
  repeat' split at hsound
  all_goals cases hsound

/-!
## Sleeps of a waiter
-/

namespace Pacing

/-- What a waiter is answered whose estimates are the standard ones.  It has an identity, and it is
never told a position too far past capacity. -/
def Usual (capacity : Int) : (r : (Premises Float).Request) → (Premises Float).Answer r → Prop
  | .inl (.call _ command), reply =>
      match command, reply with
      | .rpush .., .ok (length : Nat) => Near capacity (length - 1)
      | .lpos .., .ok (rank : Option Nat) => Near capacity (positionOfRank rank)
      | _, _ => True
  | .inr (.estimate position capacity base), reply => ∃ sources : Randomness Float,
      reply = (Backoff.standard.estimate Rooted.root? position capacity base sources).map Prod.fst
  | .inr .freshId, id => id ≠ ""
  | _, _ => True

/-- A sleep that is positive, and not below the base duration unless it may be cut short. -/
def Enough (base : Float) (short : Prop) (duration : Float) : Prop :=
  0 < duration ∧ (base ≤ duration ∨ short)

def allows (base : Float) (short : Prop) : (Premises Float).Request → Prop
  | .inr (.sleep duration) => Enough base short duration
  | _ => True

variable {semaphore : Semaphore Float} {short : Prop}

def terms (semaphore : Semaphore Float) (short : Prop) : Plan.Terms (Premises Float) Unit where
  ask _ r post := allows semaphore.sleepDuration short r ∧
    ∀ a, Usual semaphore.capacity r a → post () a
  ask_mono hpost h := ⟨h.1, fun a ha => hpost _ a (h.2 a ha)⟩
  interruptible := True

abbrev Paces {α : Type} (semaphore : Semaphore Float) (short : Prop)
    (operation : Operation Queue Float α) (done : α → Prop) : Prop :=
  Action.Keeps serveOnPremises operation (terms semaphore short) () (fun _ a => done a)
    fun _ _ => True

theorem Paces.bind {α β : Type} {operation : Operation Queue Float α}
    {next : α → Operation Queue Float β} {done : α → Prop} {done' : β → Prop}
    (h : Paces semaphore short operation done)
    (hnext : ∀ a, done a → Paces semaphore short (next a) done') :
    Paces semaphore short (operation >>= next) done' :=
  Action.keeps_bind (h.mono (fun _ a ha => hnext a ha) fun _ _ _ => trivial)

section Requests

theorem paces_connect {endpoint key : String} :
    Paces semaphore short (Service.connect endpoint key) fun _ => True := by
  apply keeps_connect
  refine ⟨trivial, fun client _ => ⟨trivial, ?_⟩⟩
  intro (reply : Except (Failure Float) Unit) _
  cases reply with
  | ok _ => trivial
  | error e => exact ⟨⟨trivial, fun _ _ => trivial⟩, trivial⟩

theorem paces_push {queue : Queue} {id : String} :
    Paces semaphore short (Service.push queue id) fun length =>
      Near semaphore.capacity (length - 1) := by
  apply keeps_push
  refine ⟨trivial, ?_⟩
  intro (reply : Except (Failure Float) Nat) husual
  cases reply with
  | ok length => exact husual
  | error e => trivial

theorem paces_position {queue : Queue} {id : String} :
    Paces semaphore short (Service.position queue id) fun rank =>
      Near semaphore.capacity (positionOfRank rank) := by
  apply keeps_position
  refine ⟨trivial, ?_⟩
  intro (reply : Except (Failure Float) (Option Nat)) husual
  cases reply with
  | ok rank => exact husual
  | error e => trivial

theorem paces_record {mode : Mode} {entry : Entry Float} :
    Paces semaphore short (Service.record mode entry) fun _ => True :=
  Action.keeps_lift (meets_ambient ⟨trivial, fun _ _ => trivial⟩)

theorem paces_now : Paces semaphore short Service.now fun _ => True :=
  Action.keeps_lift (meets_ambient ⟨trivial, fun _ _ => trivial⟩)

theorem paces_elapsedSince {started : Float} :
    Paces semaphore short (Service.elapsedSince started) fun _ => True := by
  refine paces_now.bind fun time _ => ?_
  cases Seconds.toMillis (time - started) with
  | ok ms => exact Action.keeps_pure trivial
  | error e => exact Action.keeps_throw trivial

theorem paces_estimate {position : Int} (hdefined : semaphore.sleepDuration.isNaN = false)
    (hnear : Near semaphore.capacity position) :
    Paces semaphore short
      (Service.estimate position semaphore.capacity semaphore.sleepDuration) fun duration =>
        semaphore.sleepDuration ≤ duration := by
  refine ⟨trivial, ?_⟩
  rintro _ ⟨sources, rfl⟩
  have hbase := semaphore.not_sleep_le
  rcases Backoff.exists_root hbase hnear sources with ⟨root, hroot, heq⟩
  rw [heq]
  exact Backoff.le_mul_factor hbase hdefined hroot

theorem paces_sleep {duration : Float} (h : Enough semaphore.sleepDuration short duration) :
    Paces semaphore short (Service.sleep duration) fun _ => True := by
  refine ⟨h, ?_⟩
  intro (reply : Except (Failure Float) Unit) _
  cases reply with
  | ok _ => trivial
  | error e => trivial

theorem paces_admission {started : Float} {mode : Mode} {entry : Int → Entry Float}
    {done : Int ⊕ Unit → Prop} (hdone : done (.inr ())) :
    Paces semaphore short
      (do
        let elapsed ← Service.elapsedSince started
        Service.record mode (entry elapsed)
        pure (.inr ())) done := by
  refine paces_elapsedSince.bind fun elapsed _ => ?_
  refine paces_record.bind fun _ _ => ?_
  exact Action.keeps_pure hdone

theorem meets_close {queue : Queue} {φ : Unit} {post : Unit → Unit → Prop} (h : post φ ()) :
    ((Service.close queue).serve serveOnPremises).Meets (terms semaphore short) φ post :=
  Turnstile.meets_close ⟨trivial, fun _ _ => h⟩ h

theorem cleansUp (key : String) : CleansUp (terms semaphore short) key True () () where
  renews r hr φ post _ hpost := by
    rcases r with _ | r
    · exact ⟨trivial, fun a _ => hpost a⟩
    · cases r with
      | record mode entry => exact ⟨trivial, fun a _ => hpost a⟩
      | _ => exact hr.elim
  reaches client post hok herror := by
    refine ⟨trivial, fun (reply : Except (Failure Float) Unit) _ => ?_⟩
    cases reply with
    | ok _ => exact hok
    | error e => exact herror trivial e
  removes client post hpost := ⟨trivial, fun a _ => hpost a⟩

theorem paces_newTicket :
    Paces semaphore short semaphore.newTicket fun ticket =>
      ticket.capacity = semaphore.capacity ∧ ticket.baseSleep = semaphore.sleepDuration := by
  apply keeps_newTicket
  refine ⟨trivial, fun (id : String) _ => ⟨fun ticket hticket => ?_, fun _ => trivial⟩⟩
  have hform := TicketForm.toTicketForm_of_issue hticket
  exact ⟨congrArg TicketForm.capacity hform, congrArg TicketForm.baseSleep hform⟩

end Requests

/-!
## Waits
-/

section Waits

variable {ticket : Ticket Float} {queue : Queue} {limit : Option Float} {started : Float}
  {position : Int}

theorem paces_allowedSleep {duration : Float} (hpos : 0 < semaphore.sleepDuration)
    (hduration : semaphore.sleepDuration ≤ duration) (hshort : limit ≠ none → short) :
    Paces semaphore short (Blocking.allowedSleep ticket limit started duration)
      (Enough semaphore.sleepDuration short) := by
  have henough : Enough semaphore.sleepDuration short duration :=
    ⟨Binary.pos_of_le hpos hduration, Or.inl hduration⟩
  unfold Blocking.allowedSleep
  cases limit with
  | none => exact Action.keeps_pure henough
  | some longest =>
      refine paces_elapsedSince.bind fun elapsed _ => ?_
      dsimp only
      split
      · refine paces_elapsedSince.bind fun _ _ => ?_
        exact Action.keeps_throw trivial
      · rename_i hleft
        apply Action.keeps_pure
        unfold Seconds.earlier
        split
        · rename_i hcut
          have hdefined := (Binary.isNaN_of_lt hcut).1
          exact ⟨Binary.lt_of_not_le hdefined (by decide +kernel) hleft, Or.inr (hshort nofun)⟩
        · exact henough

theorem paces_moved {mode : Mode} {rank : Option Nat}
    (hnear : Near semaphore.capacity (positionOfRank rank)) :
    Paces semaphore short
      (do
        Service.record mode (.moved (positionOfRank rank))
        pure (.inl (positionOfRank rank)) : Operation Queue Float (Int ⊕ Unit))
      (Sum.elim (Near semaphore.capacity) fun _ => True) := by
  refine paces_record.bind fun _ _ => ?_
  exact Action.keeps_pure hnear

variable (hcapacity : ticket.capacity = semaphore.capacity)
  (hbase : ticket.baseSleep = semaphore.sleepDuration)
  (hdefined : semaphore.sleepDuration.isNaN = false)

include hcapacity hbase hdefined

theorem blocking_look_paces (hnear : Near semaphore.capacity position)
    (hshort : limit ≠ none → short) :
    Paces semaphore short (Blocking.look queue ticket limit started position)
      (Sum.elim (Near semaphore.capacity) fun _ => True) := by
  have hpos := Backoff.pos_of_not_le semaphore.not_sleep_le hdefined
  unfold Blocking.look
  cases ticket.verdict position with
  | admitted => exact paces_admission trivial
  | rejected => exact Action.keeps_throw trivial
  | waiting =>
      rw [hcapacity, hbase]
      refine (paces_estimate hdefined hnear).bind fun duration hduration => ?_
      refine (paces_allowedSleep hpos hduration hshort).bind fun allowed henough => ?_
      refine (paces_sleep henough).bind fun _ _ => ?_
      refine paces_position.bind fun rank hrank => ?_
      exact paces_moved hrank

theorem cooperative_look_paces (hnear : Near semaphore.capacity position) :
    Paces semaphore short (Cooperative.look queue ticket started position)
      (Sum.elim (Near semaphore.capacity) fun _ => True) := by
  have hpos := Backoff.pos_of_not_le semaphore.not_sleep_le hdefined
  unfold Cooperative.look
  cases ticket.verdict position with
  | admitted => exact paces_admission trivial
  | rejected =>
      refine paces_record.bind fun _ _ => ?_
      exact Action.keeps_throw trivial
  | waiting =>
      rw [hcapacity, hbase]
      refine (paces_estimate hdefined hnear).bind fun duration hduration => ?_
      refine paces_record.bind fun _ _ => ?_
      refine (paces_sleep ⟨Binary.pos_of_le hpos hduration, Or.inl hduration⟩).bind fun _ _ => ?_
      refine paces_position.bind fun rank hrank => ?_
      dsimp only
      split
      · refine paces_record.bind fun _ _ => ?_
        exact paces_moved hrank
      · exact paces_moved hrank

theorem wait_paces (hshort : limit ≠ none → short) :
    Paces semaphore short (Blocking.wait ticket limit) fun _ => True := by
  refine paces_connect.bind fun queue _ => ?_
  apply Action.keeps_ensuring
  apply Action.keeps_bind
  refine paces_now.mono ?_ fun _ _ _ => meets_close trivial
  intro _ started _
  apply Action.keeps_bind
  refine paces_push.mono ?_ fun _ _ _ => meets_close trivial
  intro _ length hlength
  apply Action.keeps_bind
  refine paces_record.mono ?_ fun _ _ _ => meets_close trivial
  intro _ _ _
  -- No position that the loop comes to is too far past capacity.
  refine Action.keeps_repeatFrom (fun _ => Near semaphore.capacity) hlength ?_
  intro _ position hnear
  refine (blocking_look_paces hcapacity hbase hdefined hnear hshort).mono ?_
    fun _ _ _ => meets_close trivial
  intro _ next hnext
  cases next with
  | inl position' => exact hnext
  | inr _ => exact meets_close trivial

theorem follow_paces :
    ((Cooperative.follow ticket false).serve serveOnPremises).Meets (terms semaphore short) ()
      fun _ _ => True := by
  apply Action.meets_run
  refine paces_connect.mono ?_ fun _ _ _ => trivial
  intro _ queue _
  apply Action.meets_serve_bind
  apply meets_ambient
  refine ⟨trivial, fun (started : Float) _ => ?_⟩
  apply Action.meets_run
  refine paces_push.mono ?_ fun _ _ _ => Action.meets_serve_bind (meets_close trivial)
  intro _ length hlength
  apply Action.meets_run
  apply Action.keeps_bind
  refine paces_record.mono ?_ fun _ _ _ => Action.meets_serve_bind (meets_close trivial)
  intro _ _ _
  refine Action.keeps_repeatFrom (fun _ => Near semaphore.capacity) hlength ?_
  intro _ position hnear
  refine (cooperative_look_paces hcapacity hbase hdefined hnear).mono ?_
    fun _ _ _ => Action.meets_serve_bind (meets_close trivial)
  intro _ next hnext
  cases next with
  | inl position' => exact hnext
  | inr _ => exact Action.meets_serve_bind (meets_close trivial)

theorem followWithin_paces :
    ((Cooperative.followWithin ticket limit).serve serveOnPremises).Meets (terms semaphore short)
      () fun _ _ => True := by
  unfold Cooperative.followWithin
  cases limit with
  | none => exact follow_paces hcapacity hbase hdefined
  | some longest =>
      refine ⟨fun _ => trivial, fun _ => ?_⟩
      refine (follow_paces hcapacity hbase hdefined).mono ?_
      intro _ _ _ _ _
      trivial

end Waits

/-!
## Requests for a slot
-/

section Acquire

variable {limit : Option Float}

theorem cleanUp_paces {cleanUp : Operation Queue Float Unit} {done failed : Unit → Prop}
    (h : Action.Keeps serveOnPremises cleanUp (terms semaphore short) () (fun φ _ => done φ)
      fun φ _ => failed φ) : Paces semaphore short cleanUp fun _ => True :=
  h.mono (fun _ _ _ => trivial) fun _ _ _ => trivial

theorem keeps_hold {ticket : Ticket Float} :
    Paces semaphore short (Service.hold ticket) fun _ => True :=
  Action.keeps_lift (meets_ambient ⟨trivial, fun _ _ => trivial⟩)

theorem blocking_acquire_paces (hdefined : semaphore.sleepDuration.isNaN = false)
    (hshort : limit ≠ none → short) :
    Paces semaphore short (Blocking.acquire semaphore limit) fun _ => True := by
  refine paces_newTicket.bind ?_
  rintro ticket ⟨hcapacity, hbase⟩
  apply Action.keeps_bind
  apply Action.keeps_tryCatch
  refine (wait_paces hcapacity hbase hdefined hshort).mono (fun _ _ _ => keeps_hold) ?_
  intro _ e _
  split
  · refine (cleanUp_paces (Blocking.cleanUp_keeps (cleansUp _))).bind fun _ _ => ?_
    exact Action.keeps_throw trivial
  · exact Action.keeps_throw trivial

theorem cooperative_acquire_paces (hdefined : semaphore.sleepDuration.isNaN = false) :
    Paces semaphore short (Cooperative.acquire semaphore limit) fun _ => True := by
  refine paces_newTicket.bind ?_
  rintro ticket ⟨hcapacity, hbase⟩
  have hcleanUp : Paces semaphore short (Cooperative.cleanUp ticket) fun _ => True :=
    cleanUp_paces (Cooperative.cleanUp_keeps (cleansUp _))
  refine paces_now.bind fun started _ => ?_
  apply Action.keeps_bind
  apply Action.keeps_lift
  refine (followWithin_paces hcapacity hbase hdefined).mono ?_
  rintro _ ⟨enqueued, outcome⟩ _
  have hcleaned : ∀ (due : Bool) {next : Operation Queue Float Unit},
      Paces semaphore short next (fun _ => True) →
        Paces semaphore short
          (do
            if due then
              Cooperative.cleanUp ticket
            next) fun _ => True := by
    intro due next hnext
    cases due with
    | false => exact hnext
    | true => exact hcleanUp.bind fun _ _ => hnext
  cases outcome with
  | ok _ => exact keeps_hold
  | error e =>
      dsimp only
      split
      · apply hcleaned
        refine paces_elapsedSince.bind fun _ _ => ?_
        exact Action.keeps_throw trivial
      · exact hcleaned _ (Action.keeps_throw trivial)

theorem acquire_paces {user : User Float} (hdefined : user.semaphore.sleepDuration.isNaN = false) :
    Paces user.semaphore (user.mode = .blocking ∧ limit ≠ none) (user.acquire limit) fun _ => True := by
  unfold User.acquire
  cases hmode : user.mode with
  | blocking => exact blocking_acquire_paces hdefined fun hlimit => ⟨rfl, hlimit⟩
  | cooperative => exact cooperative_acquire_paces hdefined

end Acquire

/-!
## Whatever happens to a waiter
-/

abbrev Runs {α : Type} (capacity : Int) (plan plan' : Plan (Premises Float) Float α) : Prop :=
  Plan.Runs (fun _ r answer _ => Usual capacity r answer) True () plan () plan'

theorem meets_of_runs {α : Type} {plan plan' : Plan (Premises Float) Float α} {w w' : Unit}
    {post : Unit → α → Prop} (h : plan.Meets (terms semaphore short) () post)
    (hruns : Plan.Runs (fun _ r answer _ => Usual semaphore.capacity r answer) True w plan w'
      plan') : plan'.Meets (terms semaphore short) () post := by
  induction hruns with
  | refl => exact h
  | step moves runs ih =>
      apply ih
      cases moves with
      | turn turns => exact h.turns turns
      | hears asks answers => exact (h.asks asks).2 _ answers rfl

theorem sleeps_of_meets {α : Type} {plan plan' plan'' : Plan (Premises Float) Float α}
    {post : Unit → α → Prop} {duration : Float} {answer : Except (Failure Float) Unit}
    (h : plan.Meets (terms semaphore short) () post) (hruns : Runs semaphore.capacity plan plan')
    (hasks : plan'.Asks (.inr (.sleep duration)) answer plan'') :
    Enough semaphore.sleepDuration short duration :=
  ((meets_of_runs h hruns).asks hasks).1

/-- Every semaphore that can be made issues its tickets, under any identity but the empty one, and
every sleep is estimated that is not too far past capacity.  The estimate is undefined just when the
base duration is.  The base duration is positive and the estimate not below it just when the base
duration is defined.

If it is defined, all sleeps that a user asks for to get a slot are positive, and none is below the
base duration unless the user blocks under a limit, whatever happens meanwhile. -/
theorem enough_iff_defined (semaphore : Semaphore Float) :
    (∀ id, id ≠ "" → ∃ ticket, (semaphore.ticketForm id).issue = .ok ticket ∧
      ticket.toTicketForm = semaphore.ticketForm id) ∧
    (∀ position sources, Near semaphore.capacity position → ∃ duration : Float,
      Backoff.standard.estimate Rooted.root? position semaphore.capacity semaphore.sleepDuration
        sources = .ok (duration, sources) ∧
      duration.isNaN = semaphore.sleepDuration.isNaN ∧
      (0 < semaphore.sleepDuration ∧ semaphore.sleepDuration ≤ duration ↔
        semaphore.sleepDuration.isNaN = false)) ∧
    (semaphore.sleepDuration.isNaN = false → ∀ (user : User Float) (limit : Option Float)
      (plan plan' : Plan (Premises Float) Float (Except (Failure Float) Unit)) (duration : Float)
      (answer : Except (Failure Float) Unit), user.semaphore = semaphore →
        Runs semaphore.capacity (onPremises (user.acquire limit)) plan →
        plan.Asks (.inr (.sleep duration)) answer plan' →
        0 < duration ∧ (semaphore.sleepDuration ≤ duration ∨
          user.mode = .blocking ∧ limit ≠ none)) := by
  have hbase := semaphore.not_sleep_le
  refine ⟨?_, ?_, ?_⟩
  · intro id hid
    rcases semaphore.exists_issue hid with ⟨ticket, hticket⟩
    exact ⟨ticket, hticket, TicketForm.toTicketForm_of_issue hticket⟩
  · intro position sources hnear
    rcases Backoff.exists_root hbase hnear sources with ⟨root, hroot, heq⟩
    refine ⟨_, heq, ?_⟩
    cases hdefined : semaphore.sleepDuration.isNaN with
    | true =>
        refine ⟨Binary.isNaN_mul hdefined, ?_⟩
        constructor
        · rintro ⟨hpos, _⟩
          rw [(Binary.isNaN_of_lt hpos).2] at hdefined
          exact hdefined.symm
        · nofun
    | false =>
        have hpos := Backoff.pos_of_not_le hbase hdefined
        have hle := Backoff.le_mul_factor hbase hdefined hroot
        exact ⟨(Binary.isNaN_of_lt (Binary.pos_of_le hpos hle)).2, fun _ => rfl, fun _ => ⟨hpos, hle⟩⟩
  · rintro hdefined user limit plan plan' duration answer rfl hruns hasks
    exact sleeps_of_meets (acquire_paces hdefined) hruns hasks

/-- A semaphore whose base duration is undefined. -/
def dimGate : Semaphore Float where
  key := "gate"
  sleepDuration := 0 / 0
  sound := by decide +kernel

def brightGate : Semaphore Float where
  key := "gate"
  sleepDuration := defaultSleep
  sound := by decide +kernel

/-- Next to each other, two waiters at position five of which one has an undefined base duration. -/
theorem enough_iff_defined_at_gates :
    (∃ duration : Float, Backoff.standard.estimate Rooted.root? 5 1 dimGate.sleepDuration
      ⟨none, .fresh []⟩ = .ok (duration, ⟨none, .fresh []⟩) ∧
      ¬ (0 < dimGate.sleepDuration ∧ dimGate.sleepDuration ≤ duration)) ∧
    ∃ duration : Float, Backoff.standard.estimate Rooted.root? 5 1 brightGate.sleepDuration
      ⟨none, .fresh []⟩ = .ok (duration, ⟨none, .fresh []⟩) ∧
      0 < brightGate.sleepDuration ∧ brightGate.sleepDuration ≤ duration := by
  have hnear : Near 1 5 := lt_of_lt_of_le (by decide : (4 : Int) < 2 ^ 3)
    (pow_le_pow_right₀ (by decide) (by decide))
  constructor
  · rcases (enough_iff_defined dimGate).2.1 5 ⟨none, .fresh []⟩ hnear with
      ⟨duration, hestimate, _, henough⟩
    have hundefined : dimGate.sleepDuration.isNaN = true := by decide +kernel
    refine ⟨duration, hestimate, ?_⟩
    rw [henough, hundefined]
    nofun
  · rcases (enough_iff_defined brightGate).2.1 5 ⟨none, .fresh []⟩ hnear with
      ⟨duration, hestimate, _, henough⟩
    exact ⟨duration, hestimate, henough.mpr (by decide +kernel)⟩

end Pacing
end Turnstile
