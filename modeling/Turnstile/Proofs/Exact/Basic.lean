import Mathlib.Algebra.Order.BigOperators.Group.List
import Mathlib.Data.Rat.Floor
import Mathlib.Tactic.FieldSimp
import Mathlib.Tactic.Linarith
import Turnstile.Number.Rounding
import Turnstile.Proofs.Rounds

/-!
# Waits in exact time

Over the rational numbers seconds are added without any loss.  What is still rounded is the time
that a waiter takes to have passed, which it reads as a whole number of milliseconds.

Surroundings are punctual if nothing in them takes any time but sleeping, and a sleep takes just as
long as it was asked to.  What is estimated and where the waiter is found is left open, and may
depend on all that was heard before.

## Main definitions

* `nearest` - the whole number nearest to a rational one.
* `slept` - how long a waiter has slept.
* `Punctual` - surroundings in which nothing fails and only sleeps take time.

## Main statements

* `abs_sub_nearest_le` - what is lost by rounding.
* `Wait.arrives_round_in_time`, `Wait.arrives_late` and `Wait.arrives_settled` - the three ways in
  which a wait under a limit goes on when it was told a position.
-/

namespace Turnstile

open Redis

/-!
## Rational seconds
-/

/-- The whole number nearest to a rational one, a half going to the even neighbour. -/
def nearest (x : ℚ) : Int :=
  let size : Int := roundDiv x.num.natAbs x.den
  if x.num < 0 then -size else size

example : [1 / 2, 3 / 2, 5 / 2, -7 / 2, 12 / 5].map nearest = [0, 2, 2, -4, 2] := by
  decide +kernel

instance : Seconds ℚ where
  decideLT := inferInstance
  decideLE := inferInstance
  ofSeconds? count := some count
  ofMillis ms := ms / 1000
  toMillis x := .ok (nearest (x * 1000))

theorem abs_sub_roundDiv_le (num : Nat) {den : Nat} (h : 0 < den) :
    |(num / den : ℚ) - roundDiv num den| ≤ 1 / 2 := by
  have hden : (0 : ℚ) < den := by exact_mod_cast h
  have habove : (2 * (roundDiv num den * den) : ℚ) ≤ 2 * num + den := by
    exact_mod_cast two_mul_roundDiv_le num h
  have hbelow : (2 * num : ℚ) ≤ 2 * (roundDiv num den * den) + den := by
    exact_mod_cast le_two_mul_roundDiv num h
  have hnum : (num / den : ℚ) * den = num := div_mul_cancel₀ _ hden.ne'
  rw [abs_le]
  constructor
  · nlinarith
  · nlinarith

theorem abs_sub_nearest_le (x : ℚ) : |x - nearest x| ≤ 1 / 2 := by
  have hround := abs_sub_roundDiv_le x.num.natAbs x.den_pos
  have hsize : (x.num : ℚ) / x.den = x := Rat.num_div_den x
  unfold nearest
  dsimp only
  rw [abs_le] at hround ⊢
  split
  · rename_i hneg
    have hnum : (x.num : ℚ) = -x.num.natAbs := by
      rw [← Int.cast_natCast, Int.ofNat_natAbs_of_nonpos hneg.le, Int.cast_neg, neg_neg]
    rw [hnum, neg_div] at hsize
    push_cast
    constructor
    · linarith
    · linarith
  · rename_i hnonneg
    have hnum : (x.num : ℚ) = x.num.natAbs := by
      rw [← Int.cast_natCast, Int.natAbs_of_nonneg (not_lt.mp hnonneg)]
    rw [hnum] at hsize
    push_cast
    constructor
    · linarith
    · linarith

theorem earlier_eq_min (a b : ℚ) : Seconds.earlier a b = min a b := by
  unfold Seconds.earlier
  split
  · rename_i hlt
    exact (min_eq_right hlt.le).symm
  · rename_i hlt
    exact (min_eq_left (not_lt.mp hlt)).symm

/-!
## Sleeping
-/

def pause : Plan.Exchange (Premises ℚ) → ℚ
  | ⟨.inr (.sleep duration), _⟩ => max duration 0
  | _ => 0

def slept (heard : List (Plan.Exchange (Premises ℚ))) : ℚ :=
  (heard.map pause).sum

theorem slept_append (heard later : List (Plan.Exchange (Premises ℚ))) :
    slept (heard ++ later) = slept heard + slept later := by
  unfold slept
  rw [List.map_append, List.sum_append]

theorem slept_nonneg (heard : List (Plan.Exchange (Premises ℚ))) : 0 ≤ slept heard := by
  apply List.sum_nonneg
  intro time htime
  rcases List.mem_map.mp htime with ⟨exchange, _, rfl⟩
  unfold pause
  split
  · exact le_max_right _ _
  · exact le_rfl

theorem slept_seen (heard : List (Plan.Exchange (Premises ℚ))) :
    slept (Plan.seen Outward heard) = slept heard := by
  have hhidden : ∀ exchange : Plan.Exchange (Premises ℚ), Outward exchange.1 = false →
      pause exchange = 0 := by
    intro exchange hexchange
    unfold pause
    split
    · cases hexchange
    · rfl
  induction heard with
  | nil => rfl
  | cons exchange heard ih =>
      unfold slept Plan.seen at ih ⊢
      rw [List.map_cons, List.sum_cons, ← ih, List.filter_cons]
      split
      · rw [List.map_cons, List.sum_cons]
      · rename_i hexchange
        rw [hhidden exchange (by simpa using hexchange), zero_add]

def isNap (base : ℚ) : Plan.Exchange (Premises ℚ) → Bool
  | ⟨.inr (.sleep duration), _⟩ => decide (duration < base)
  | _ => false

def naps (base : ℚ) (heard : List (Plan.Exchange (Premises ℚ))) : Nat :=
  heard.countP (isNap base)

theorem countP_seen {kind : Plan.Exchange (Premises ℚ) → Bool}
    (hkind : ∀ exchange, kind exchange = true → Outward exchange.1 = true)
    (heard : List (Plan.Exchange (Premises ℚ))) :
    (Plan.seen Outward heard).countP kind = heard.countP kind := by
  unfold Plan.seen
  rw [List.countP_filter]
  apply List.countP_congr
  intro exchange _
  constructor
  · intro h
    exact (Bool.and_eq_true_iff.mp h).1
  · intro h
    rw [h, hkind exchange h]
    rfl

/-- The milliseconds that a waiter takes to have passed when it has slept for some time. -/
def reading (heard : List (Plan.Exchange (Premises ℚ))) : Int :=
  nearest (slept heard * 1000)

/-- How much of its limit a waiter takes to be left. -/
def timeLeft (limit : ℚ) (heard : List (Plan.Exchange (Premises ℚ))) : ℚ :=
  limit - Seconds.ofMillis (reading heard)

/-- Surroundings in which nothing fails, and in which the clock is where it was at the start but for
the time slept.  All estimates are positive. -/
structure Punctual (ticket : Ticket ℚ) (client : Client) (start : ℚ)
    (surroundings : Plan.Surroundings (Premises ℚ)) : Prop where
  dial : ∀ heard, surroundings heard (.inl (.dial ticket.endpoint)) = client
  ping : ∀ heard, surroundings heard (.inl (.call client .ping)) = Except.ok ()
  push : ∀ heard, ∃ length : Nat,
    surroundings heard (.inl (.call client (.rpush ticket.queueKey ticket.id))) = Except.ok length
  look : ∀ heard, ∃ rank : Option Nat,
    surroundings heard (.inl (.call client (.lpos ticket.queueKey ticket.id))) = Except.ok rank
  estimate : ∀ heard position, ∃ duration : ℚ, 0 < duration ∧
    surroundings heard (.inr (.estimate position ticket.capacity ticket.baseSleep)) =
      Except.ok duration
  sleep : ∀ heard (duration : ℚ), 0 < duration →
    surroundings heard (.inr (.sleep duration)) = Except.ok ()
  now : ∀ heard, surroundings heard (.inr .now) = start + slept heard

/-!
## Rounds
-/

namespace Wait

variable {ticket : Ticket ℚ} {client : Client} {start limit : ℚ}
  {surroundings : Plan.Surroundings (Premises ℚ)} {position : Int}
  {heard : List (Plan.Exchange (Premises ℚ))}

theorem toMillis_passed (start : ℚ) (heard : List (Plan.Exchange (Premises ℚ))) :
    Seconds.toMillis (start + slept heard - start) = .ok (reading heard) := by
  rw [add_sub_cancel_left]
  rfl

theorem now_of_awake (h : Punctual ticket client start surroundings)
    {later : List (Plan.Exchange (Premises ℚ))} (hawake : slept later = 0) {time : ℚ}
    (htime : surroundings (heard ++ later) (.inr .now) = time) : time = start + slept heard := by
  have hnow : surroundings (heard ++ later) (.inr .now) = start + slept (heard ++ later) := h.now _
  rw [slept_append, hawake, add_zero] at hnow
  exact htime.symm.trans hnow

theorem arrives_round_in_time (h : Punctual ticket client start surroundings)
    (hwaits : ¬ ticket.Settles position) (hleft : ¬ timeLeft limit heard ≤ 0) :
    ∃ duration rank, 0 < duration ∧
      surroundings heard (.inr (.estimate position ticket.capacity ticket.baseSleep)) =
        Except.ok duration ∧
      (∃ later, surroundings later (.inl (.call client (.lpos ticket.queueKey ticket.id))) =
        Except.ok rank) ∧
      Plan.Arrives Outward surroundings
        ⟨heard, (Wait.blocking (some limit)).remainder ticket client start position⟩
        [⟨.inr (.estimate position ticket.capacity ticket.baseSleep), Except.ok duration⟩,
          ⟨.inr (.sleep (Seconds.earlier duration (timeLeft limit heard))), Except.ok ()⟩,
          ⟨.inl (.call client (.lpos ticket.queueKey ticket.id)), Except.ok rank⟩]
        fun course => course.plan =
          (Wait.blocking (some limit)).remainder ticket client start (positionOfRank rank) := by
  have hverdict : ticket.verdict position = .waiting := TicketForm.verdict_eq_waiting hwaits
  rcases h.estimate heard position with ⟨duration, hpositive, hduration⟩
  have hallowed : 0 < Seconds.earlier duration (timeLeft limit heard) := by
    unfold Seconds.earlier
    split
    · exact not_le.mp hleft
    · exact hpositive
  rcases h.look (heard ++ [⟨.inr (.estimate position ticket.capacity ticket.baseSleep),
    Except.ok duration⟩] ++ [⟨.inr .now, start + slept heard⟩] ++
    [⟨.inr (.sleep (Seconds.earlier duration (timeLeft limit heard))), Except.ok ()⟩]) with
    ⟨rank, hrank⟩
  refine ⟨duration, rank, hpositive, hduration, ⟨_, hrank⟩, ?_⟩
  apply Plan.Arrives.unroll
  unfold Blocking.look
  dsimp only
  rw [hverdict]
  apply Plan.Arrives.ask rfl hduration
  apply Plan.Arrives.hidden rfl
  intro time htime
  cases now_of_awake h (by simp [slept, pause]) htime
  dsimp only [Plan.bind, Function.comp, ExceptT.bindCont]
  rw [toMillis_passed]
  dsimp only [pure, ExceptT.pure, ExceptT.mk, Plan.bind, ExceptT.bindCont]
  unfold timeLeft at hleft
  rw [if_neg hleft]
  apply Plan.Arrives.ask rfl (h.sleep _ _ hallowed)
  apply Plan.Arrives.ask rfl hrank
  apply Plan.Arrives.hidden rfl
  intro _ _
  exact Plan.Arrives.here rfl

theorem arrives_late (h : Punctual ticket client start surroundings)
    (hwaits : ¬ ticket.Settles position) (hlate : timeLeft limit heard ≤ 0) :
    ∃ duration : ℚ, Plan.Arrives Outward surroundings
      ⟨heard, (Wait.blocking (some limit)).remainder ticket client start position⟩
      [⟨.inr (.estimate position ticket.capacity ticket.baseSleep), Except.ok duration⟩,
        ⟨.inl (.hangUp client), ()⟩]
      fun course => course.plan = .pure (.error (.plain (.acquireTimeout ticket.queueKey
        (some limit) (reading heard)))) := by
  have hverdict : ticket.verdict position = .waiting := TicketForm.verdict_eq_waiting hwaits
  rcases h.estimate heard position with ⟨duration, hpositive, hduration⟩
  exists duration
  apply Plan.Arrives.unroll
  unfold Blocking.look
  dsimp only
  rw [hverdict]
  apply Plan.Arrives.ask rfl hduration
  apply Plan.Arrives.hidden rfl
  intro time htime
  cases now_of_awake h (by simp [slept, pause]) htime
  dsimp only [Plan.bind, Function.comp, ExceptT.bindCont]
  rw [toMillis_passed]
  dsimp only [pure, ExceptT.pure, ExceptT.mk, Plan.bind, ExceptT.bindCont]
  unfold timeLeft at hlate
  rw [if_pos hlate, List.append_assoc]
  apply Plan.Arrives.hidden rfl
  intro time htime
  cases now_of_awake h (by simp [slept, pause]) htime
  dsimp only [Plan.bind, Function.comp, ExceptT.bindCont]
  rw [toMillis_passed]
  apply Plan.Arrives.ask rfl rfl
  exact Plan.Arrives.here rfl

/-- A waiter has neither slept nor looked in between. -/
def Idle (base : ℚ) (heard heard' : List (Plan.Exchange (Premises ℚ))) : Prop :=
  slept heard' = slept heard ∧ looks heard' = looks heard ∧ naps base heard' = naps base heard

/-- How a wait under a limit goes on when it was told a position. -/
inductive GoesOn (surroundings : Plan.Surroundings (Premises ℚ)) (ticket : Ticket ℚ)
    (client : Client) (start limit : ℚ)
    (course course' : Plan.Course (Premises ℚ) ℚ (Except (Failure ℚ) Unit)) : Prop where
  | settled (position : Int) (plan : course'.plan = .pure (ticket.outcome position))
      (idle : Idle ticket.baseSleep course.heard course'.heard) :
      GoesOn surroundings ticket client start limit course course'
  | late (late : timeLeft limit course.heard ≤ 0)
      (plan : course'.plan = .pure (.error (.plain (.acquireTimeout ticket.queueKey (some limit)
        (reading course.heard)))))
      (idle : Idle ticket.baseSleep course.heard course'.heard) :
      GoesOn surroundings ticket client start limit course course'
  | sleeps (position position' : Int) (duration : ℚ) (left : ¬ timeLeft limit course.heard ≤ 0)
      (positive : 0 < duration)
      (estimated : surroundings course.heard
        (.inr (.estimate position ticket.capacity ticket.baseSleep)) = Except.ok duration)
      (plan : course'.plan = (blocking (some limit)).remainder ticket client start position')
      (spent : slept course'.heard =
        slept course.heard + min duration (timeLeft limit course.heard))
      (looked : looks course'.heard = looks course.heard + 1)
      (napped : naps ticket.baseSleep course'.heard = naps ticket.baseSleep course.heard +
        if min duration (timeLeft limit course.heard) < ticket.baseSleep then 1 else 0) :
      GoesOn surroundings ticket client start limit course course'

theorem done_of_seen (base : ℚ) {heard heard' events : List (Plan.Exchange (Premises ℚ))}
    (h : Plan.seen Outward heard' = Plan.seen Outward heard ++ events) :
    slept heard' = slept heard + slept events ∧
      looks heard' = looks heard + events.countP isLook ∧
      naps base heard' = naps base heard + events.countP (isNap base) := by
  have hlook : ∀ exchange : Plan.Exchange (Premises ℚ), isLook exchange = true →
      Outward exchange.1 = true := by
    intro exchange hexchange
    unfold isLook at hexchange
    split at hexchange
    · rfl
    · cases hexchange
  have hnap : ∀ exchange : Plan.Exchange (Premises ℚ), isNap base exchange = true →
      Outward exchange.1 = true := by
    intro exchange hexchange
    unfold isNap at hexchange
    split at hexchange
    · rfl
    · cases hexchange
  unfold looks naps
  rw [← slept_seen heard', ← countP_seen hlook heard', ← countP_seen hnap heard', h, slept_append,
    List.countP_append, List.countP_append, slept_seen, countP_seen hlook, countP_seen hnap]
  exact ⟨rfl, rfl, rfl⟩

theorem exists_round (h : Punctual ticket client start surroundings)
    {course : Plan.Course (Premises ℚ) ℚ (Except (Failure ℚ) Unit)}
    (hplan : course.plan = (blocking (some limit)).remainder ticket client start position)
    (hwaits : ¬ ticket.Settles position) (hleft : ¬ timeLeft limit course.heard ≤ 0) :
    ∃ (duration : ℚ) (rank : Option Nat), 0 < duration ∧
      surroundings course.heard (.inr (.estimate position ticket.capacity ticket.baseSleep)) =
        Except.ok duration ∧
      (∃ heard', surroundings heard' (.inl (.call client (.lpos ticket.queueKey ticket.id))) =
        Except.ok rank) ∧
      ∃ steps, (course.after surroundings steps).plan =
          (blocking (some limit)).remainder ticket client start (positionOfRank rank) ∧
        slept (course.after surroundings steps).heard =
          slept course.heard + min duration (timeLeft limit course.heard) ∧
        looks (course.after surroundings steps).heard = looks course.heard + 1 ∧
        naps ticket.baseSleep (course.after surroundings steps).heard =
          naps ticket.baseSleep course.heard +
            if min duration (timeLeft limit course.heard) < ticket.baseSleep then 1 else 0 := by
  rcases course with ⟨heard, plan⟩
  change plan = _ at hplan
  subst hplan
  rcases arrives_round_in_time h hwaits hleft with
    ⟨duration, rank, hpositive, hestimated, hlook, steps, hplan, hseen⟩
  rcases done_of_seen ticket.baseSleep hseen with ⟨hslept, hlooks, hnaps⟩
  have hallowed : Seconds.earlier duration (timeLeft limit heard) =
      min duration (timeLeft limit heard) := earlier_eq_min _ _
  rw [hallowed] at hslept hnaps
  refine ⟨duration, rank, hpositive, hestimated, hlook, steps, hplan, ?_, hlooks, ?_⟩
  · rw [hslept]
    have hpositive' : 0 < min duration (timeLeft limit heard) :=
      lt_min hpositive (not_le.mp hleft)
    simp [slept, pause, hpositive'.le]
  · rw [hnaps]
    simp [isNap, List.countP_cons]

/-- A wait that was told a position goes on in one of three ways. -/
theorem exists_goesOn (h : Punctual ticket client start surroundings)
    {course : Plan.Course (Premises ℚ) ℚ (Except (Failure ℚ) Unit)}
    (hplan : course.plan = (blocking (some limit)).remainder ticket client start position) :
    ∃ steps, GoesOn surroundings ticket client start limit course
      (course.after surroundings steps) := by
  by_cases hsettles : ticket.Settles position
  · have hmeasured : ∀ heard (time : ℚ), surroundings heard (.inr .now) = time →
        ∃ ms, Seconds.toMillis (time - start) = .ok ms := fun _ _ _ => ⟨_, rfl⟩
    have hsettled : Plan.Arrives Outward surroundings
        ⟨course.heard, (blocking (some limit)).remainder ticket client start position⟩ _ _ :=
      arrives_settled hmeasured hsettles
    rw [← hplan] at hsettled
    rcases hsettled with ⟨steps, hended, hseen⟩
    rcases done_of_seen ticket.baseSleep hseen with ⟨hslept, hlooks, hnaps⟩
    have hawake : slept [⟨.inl (.hangUp client), ()⟩] = 0 := by simp [slept, pause]
    rw [hawake, add_zero] at hslept
    exact ⟨steps, .settled position hended ⟨hslept, hlooks, hnaps⟩⟩
  · by_cases hlate : timeLeft limit course.heard ≤ 0
    · rcases arrives_late h hsettles hlate with ⟨duration, harrives⟩
      rw [← hplan] at harrives
      rcases harrives with ⟨steps, hended, hseen⟩
      rcases done_of_seen ticket.baseSleep hseen with ⟨hslept, hlooks, hnaps⟩
      have hawake : slept [⟨.inr (.estimate position ticket.capacity ticket.baseSleep),
          Except.ok duration⟩, ⟨.inl (.hangUp client), ()⟩] = 0 := by simp [slept, pause]
      rw [hawake, add_zero] at hslept
      exact ⟨steps, .late hlate hended ⟨hslept, hlooks, hnaps⟩⟩
    · rcases exists_round h hplan hsettles hlate with
        ⟨duration, rank, hpositive, hestimated, _, steps, hplan', hspent, hlooked, hnapped⟩
      exact ⟨steps, .sleeps position _ duration hlate hpositive hestimated hplan' hspent hlooked
        hnapped⟩

abbrev opening (ticket : Ticket ℚ) (limit : ℚ) :
    Plan.Course (Premises ℚ) ℚ (Except (Failure ℚ) Unit) :=
  ⟨[], (blocking (some limit)).plan ticket⟩

theorem exists_entered (h : Punctual ticket client start surroundings) (limit : ℚ) :
    ∃ steps, ∃ length : Nat,
      (∃ heard, surroundings heard (.inl (.call client (.rpush ticket.queueKey ticket.id))) =
        Except.ok length) ∧
      ((opening ticket limit).after surroundings steps).plan =
        (blocking (some limit)).remainder ticket client start (length - 1) ∧
      Idle ticket.baseSleep [] ((opening ticket limit).after surroundings steps).heard := by
  rcases h.push ([⟨.inl (.dial ticket.endpoint), client⟩] ++
    [⟨.inl (.call client .ping), Except.ok ()⟩] ++ [⟨.inr .now, start⟩]) with ⟨length, hlength⟩
  have hentered : Plan.Arrives Outward surroundings (opening ticket limit)
      ((blocking (some limit)).entering ticket client length) fun course => course.plan =
        (blocking (some limit)).remainder ticket client start (length - 1) := by
    apply Plan.Arrives.ask rfl (h.dial _)
    apply Plan.Arrives.ask rfl (h.ping _)
    apply Plan.Arrives.hidden rfl
    intro (time : ℚ) htime
    have hstart : time = start := by
      have hnow := now_of_awake h (by simp [slept, pause]) htime
      simpa [slept, pause] using hnow
    subst hstart
    apply Plan.Arrives.ask rfl hlength
    apply Plan.Arrives.hidden rfl
    intro _ _
    exact Plan.Arrives.here rfl
  rcases hentered with ⟨steps, hplan, hseen⟩
  rcases done_of_seen ticket.baseSleep hseen with ⟨hslept, hlooks, hnaps⟩
  refine ⟨steps, length, ⟨_, hlength⟩, hplan, ?_, hlooks, hnaps⟩
  rw [hslept]
  simp [slept, pause, entering, isWatched]

end Wait

end Turnstile
