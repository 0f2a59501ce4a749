import Mathlib.Algebra.Order.Archimedean.Basic
import Turnstile.Proofs.Exact.Basic

/-!
# A limit of time is kept

A waiter that sleeps under a limit looks at a clock that is rounded to whole milliseconds, and cuts
its sleeps short by what that clock shows.  In exact time it is over by half a millisecond after its
limit, whatever is estimated and wherever it is found, and it gives up no earlier than half a
millisecond before.  It comes to its end if no estimate is shorter than some least time.  If the
estimates get shorter and shorter, it need not come to its end at all: it looks more and more often
while its limit is still ahead.

## Main definitions

* `grain` - the least time that a waiter can take to be left.
* `Wait.Timely` - how a wait may end by the time that has passed.

## Main statements

* `Wait.limit_kept` - a wait under a limit is over in time, and does not give up too early.
* `Wait.never_over_at_halvingGate` - a wait under a limit that goes round for ever.
-/

namespace Turnstile

open Redis

/-!
## A rounded clock
-/

theorem le_reading (heard : List (Plan.Exchange (Premises ℚ))) :
    slept heard * 1000 - 1 / 2 ≤ reading heard := by
  have hround := (abs_le.mp (abs_sub_nearest_le (slept heard * 1000))).2
  unfold reading
  linarith

theorem reading_le (heard : List (Plan.Exchange (Premises ℚ))) :
    (reading heard : ℚ) ≤ slept heard * 1000 + 1 / 2 := by
  have hround := (abs_le.mp (abs_sub_nearest_le (slept heard * 1000))).1
  unfold reading
  linarith

theorem timeLeft_eq (limit : ℚ) (heard : List (Plan.Exchange (Premises ℚ))) :
    timeLeft limit heard = limit - reading heard / 1000 :=
  rfl

/-- The least time that a waiter can take to be left of its limit. -/
def grain (limit : ℚ) : ℚ :=
  limit - (⌈1000 * limit⌉ - 1) / 1000

theorem grain_pos (limit : ℚ) : 0 < grain limit := by
  have hceil := Int.ceil_lt_add_one (1000 * limit)
  unfold grain
  linarith

theorem grain_le {limit : ℚ} {ms : Int} (hleft : ¬ limit - ms / 1000 ≤ 0) :
    grain limit ≤ limit - ms / 1000 := by
  have hbefore : (ms : ℚ) < 1000 * limit := by linarith
  have hwhole : ms ≤ ⌈1000 * limit⌉ - 1 := Int.le_sub_one_of_lt (Int.lt_ceil.mpr hbefore)
  have hwhole' : (ms : ℚ) ≤ ⌈1000 * limit⌉ - 1 := by exact_mod_cast hwhole
  unfold grain
  linarith

theorem grain_le_timeLeft {limit : ℚ} {heard : List (Plan.Exchange (Premises ℚ))}
    (hleft : ¬ timeLeft limit heard ≤ 0) : grain limit ≤ timeLeft limit heard :=
  grain_le hleft

namespace Wait

variable {ticket : Ticket ℚ} {client : Client} {start limit least : ℚ}
  {surroundings : Plan.Surroundings (Premises ℚ)} {position : Int}
  {heard : List (Plan.Exchange (Premises ℚ))}
  {course : Plan.Course (Premises ℚ) ℚ (Except (Failure ℚ) Unit)}

/-- How a wait may end by the time that has passed.  It gives up when the clock shows at least its
limit, which is no earlier than half a millisecond before. -/
inductive Timely (ticket : Ticket ℚ) (limit : ℚ) (heard : List (Plan.Exchange (Premises ℚ))) :
    Except (Failure ℚ) Unit → Prop where
  | admitted : Timely ticket limit heard (.ok ())
  | rejected (position : Int) :
      Timely ticket limit heard (.error (.plain (.positionExceeded position ticket.maxPosition)))
  | late (passed : limit - 1 / 2000 ≤ slept heard) (shown : 1000 * limit ≤ reading heard) :
      Timely ticket limit heard
        (.error (.plain (.acquireTimeout ticket.queueKey (some limit) (reading heard))))

theorem timely_outcome (ticket : Ticket ℚ) (limit : ℚ) (heard : List (Plan.Exchange (Premises ℚ)))
    (position : Int) : Timely ticket limit heard (ticket.outcome position) := by
  unfold Ticket.outcome
  split
  · exact .admitted
  · exact .rejected position

def EndsInTime (ticket : Ticket ℚ) (limit : ℚ)
    (course : Plan.Course (Premises ℚ) ℚ (Except (Failure ℚ) Unit)) : Prop :=
  slept course.heard ≤ limit + 1 / 2000 ∧
    ∃ outcome, course.plan = .pure outcome ∧ Timely ticket limit course.heard outcome

/-- A wait goes round before it is too late.  In each of its rounds it has slept for some time. -/
def RoundInTime (ticket : Ticket ℚ) (client : Client) (start limit least : ℚ)
    (course : Plan.Course (Premises ℚ) ℚ (Except (Failure ℚ) Unit)) : Prop :=
  slept course.heard ≤ limit + 1 / 2000 ∧ looks course.heard * least ≤ slept course.heard ∧
    ∃ position, course.plan = (blocking (some limit)).remainder ticket client start position

/-- No estimate is shorter than some time. -/
def Patient (ticket : Ticket ℚ) (least : ℚ) (surroundings : Plan.Surroundings (Premises ℚ)) :
    Prop :=
  ∀ heard position (duration : ℚ),
    surroundings heard (.inr (.estimate position ticket.capacity ticket.baseSleep)) =
      Except.ok duration → least ≤ duration

/-- A wait that is told a position in time ends in time or is told the next one in time. -/
theorem GoesOn.in_time {course' : Plan.Course (Premises ℚ) ℚ (Except (Failure ℚ) Unit)}
    (h : GoesOn surroundings ticket client start limit course course')
    (hpatient : Patient ticket least surroundings)
    (hround : RoundInTime ticket client start limit (min least (grain limit)) course) :
    EndsInTime ticket limit course' ∨
      RoundInTime ticket client start limit (min least (grain limit)) course' ∧
        looks course'.heard = looks course.heard + 1 := by
  rcases hround with ⟨htime, hlooks, -⟩
  cases h with
  | settled position plan idle =>
      rw [← idle.1] at htime
      exact Or.inl ⟨htime, _, plan, timely_outcome _ _ _ _⟩
  | late late plan idle =>
      have hreading : reading course'.heard = reading course.heard := by
        unfold reading
        rw [idle.1]
      have hshown : 1000 * limit ≤ reading course.heard := by
        rw [timeLeft_eq] at late
        linarith
      have hpassed := reading_le course.heard
      rw [← hreading] at plan hshown hpassed
      rw [← idle.1] at htime hpassed
      exact Or.inl ⟨htime, _, plan, .late (by linarith) hshown⟩
  | sleeps position position' duration left positive estimated plan spent looked napped =>
      have hround := le_reading course.heard
      have hallowed : min duration (timeLeft limit course.heard) ≤
          limit - reading course.heard / 1000 :=
        min_le_right _ _
      have hgrows : min least (grain limit) ≤ min duration (timeLeft limit course.heard) :=
        min_le_min (hpatient _ _ _ estimated) (grain_le_timeLeft left)
      refine Or.inr ⟨⟨?_, ?_, position', plan⟩, looked⟩
      · rw [spent]
        linarith
      · rw [looked, spent, Nat.cast_add, Nat.cast_one, add_mul, one_mul]
        exact add_le_add hlooks hgrows

/-- A wait under a limit goes round any number of times, unless it has ended by then. -/
theorem exists_rounds (h : Punctual ticket client start surroundings) (hlimit : 0 ≤ limit)
    (hpatient : Patient ticket least surroundings) (count : Nat) :
    ∃ steps, EndsInTime ticket limit ((opening ticket limit).after surroundings steps) ∨
      RoundInTime ticket client start limit (min least (grain limit))
          ((opening ticket limit).after surroundings steps) ∧
        looks ((opening ticket limit).after surroundings steps).heard = count := by
  rcases exists_entered h limit with ⟨first, length, _, hplan, hslept, hlooks, _⟩
  have hstart : RoundInTime ticket client start limit (min least (grain limit))
      ((opening ticket limit).after surroundings first) := by
    refine ⟨?_, ?_, _, hplan⟩
    · rw [hslept]
      show (0 : ℚ) ≤ _
      linarith
    · rw [hslept, hlooks]
      simp [slept, looks]
  have hround : ∀ course, RoundInTime ticket client start limit (min least (grain limit)) course →
      ∃ steps, EndsInTime ticket limit (course.after surroundings steps) ∨
        RoundInTime ticket client start limit (min least (grain limit))
            (course.after surroundings steps) ∧
          looks (course.after surroundings steps).heard = looks course.heard + 1 := by
    intro course hcourse
    rcases hcourse.2.2 with ⟨position, hplan⟩
    rcases exists_goesOn h hplan with ⟨steps, hgoesOn⟩
    exact ⟨steps, hgoesOn.in_time hpatient hcourse⟩
  rcases Plan.Course.exists_after_of_rounds (fun course => looks course.heard) hround hstart count
    with ⟨steps, hsteps⟩
  exists first + steps
  rw [Plan.Course.after_add]
  have hnone : looks ((opening ticket limit).after surroundings first).heard = 0 := hlooks
  rw [hnone, Nat.zero_add] at hsteps
  exact hsteps

theorem looks_le_steps (ticket : Ticket ℚ) (limit : ℚ)
    (surroundings : Plan.Surroundings (Premises ℚ)) (steps : Nat) :
    looks ((opening ticket limit).after surroundings steps).heard ≤ steps := by
  have hheard := (opening ticket limit).length_heard_after surroundings steps
  rw [show (opening ticket limit).heard.length = 0 from rfl, Nat.zero_add] at hheard
  exact List.countP_le_length.trans hheard

/-- At any time there is a later one at which a wait has ended in time or goes round in time. -/
theorem exists_later (h : Punctual ticket client start surroundings) (hlimit : 0 ≤ limit)
    (steps : Nat) :
    ∃ later, steps ≤ later ∧
      (EndsInTime ticket limit ((opening ticket limit).after surroundings later) ∨
        RoundInTime ticket client start limit 0
          ((opening ticket limit).after surroundings later)) := by
  have hpatient : Patient ticket 0 surroundings := by
    intro heard position duration hduration
    rcases h.estimate heard position with ⟨duration', hpositive, hduration'⟩
    rw [hduration] at hduration'
    cases hduration'
    exact hpositive.le
  have hgrain : min 0 (grain limit) = 0 := min_eq_left (grain_pos limit).le
  rcases exists_rounds h hlimit hpatient (steps + 1) with ⟨later, hends | ⟨hround, hlooks⟩⟩
  · by_cases hle : steps ≤ later
    · exact ⟨later, hle, Or.inl hends⟩
    · rcases hends.2 with ⟨outcome, hended, _⟩
      refine ⟨steps, le_rfl, Or.inl ?_⟩
      rw [Plan.Course.after_eq_of_ended hended (not_le.mp hle).le]
      exact hends
  · rw [hgrain] at hround
    have hcount := looks_le_steps ticket limit surroundings later
    exact ⟨later, by omega, Or.inr hround⟩

theorem slept_le_of_le {steps later : Nat} (hlater : steps ≤ later) :
    slept (course.after surroundings steps).heard ≤
      slept (course.after surroundings later).heard := by
  rcases Nat.exists_eq_add_of_le hlater with ⟨more, rfl⟩
  rcases (course.after surroundings steps).exists_heard_after surroundings more with ⟨rest, hrest⟩
  rw [Plan.Course.after_add, hrest, slept_append]
  exact le_add_of_nonneg_right (slept_nonneg rest)

/-- A wait under a limit, in exact time and where nothing fails, is never at work later than half a
millisecond after its limit.  If it gives up, then at least its limit less half a millisecond has
passed, and it reports no fewer milliseconds than its limit has.  It comes to its end if no estimate
is shorter than some least time. -/
theorem limit_kept (h : Punctual ticket client start surroundings) (hlimit : 0 ≤ limit) :
    (∀ steps, slept ((opening ticket limit).after surroundings steps).heard ≤ limit + 1 / 2000) ∧
      (∀ steps outcome, ((opening ticket limit).after surroundings steps).plan = .pure outcome →
        Timely ticket limit ((opening ticket limit).after surroundings steps).heard outcome) ∧
      ((∃ least, 0 < least ∧ Patient ticket least surroundings) →
        ∃ steps outcome, ((opening ticket limit).after surroundings steps).plan =
          .pure outcome) := by
  refine ⟨?_, ?_, ?_⟩
  · intro steps
    rcases exists_later h hlimit steps with ⟨later, hlater, hends | hround⟩
    · exact (slept_le_of_le hlater).trans hends.1
    · exact (slept_le_of_le hlater).trans hround.1
  · intro steps outcome hended
    rcases exists_later h hlimit steps with ⟨later, hlater, hends | hround⟩
    · rw [Plan.Course.after_eq_of_ended hended hlater] at hends
      rcases hends.2 with ⟨outcome', hended', htimely⟩
      rw [hended] at hended'
      cases hended'
      exact htimely
    · rw [Plan.Course.after_eq_of_ended hended hlater] at hround
      rcases hround.2.2 with ⟨position, hplan⟩
      rw [hended] at hplan
      cases hplan
  · rintro ⟨least, hpositive, hpatient⟩
    have hgrows : 0 < min least (grain limit) := lt_min hpositive (grain_pos limit)
    rcases exists_nat_gt ((limit + 1 / 2000) / min least (grain limit)) with ⟨count, hcount⟩
    rcases exists_rounds h hlimit hpatient count with ⟨steps, hends | ⟨hround, hlooks⟩⟩
    · rcases hends.2 with ⟨outcome, hended, _⟩
      exact ⟨steps, outcome, hended⟩
    · have hbeyond : limit + 1 / 2000 < count * min least (grain limit) :=
        (div_lt_iff₀ hgrows).mp hcount
      have hslept := hround.2.1
      rw [hlooks] at hslept
      linarith [hround.1]

/-!
## A gate that stays closed
-/

def gateTicket : Ticket ℚ where
  queueKey := "gate"
  id := "a"
  baseSleep := 1 / 100
  sound := by decide +kernel

/-- Surroundings in which somebody else stays in front, and each estimate is the base duration. -/
def closedGate : Plan.Surroundings (Premises ℚ)
  | _, .inl (.dial endpoint) => (⟨0, endpoint, {}⟩ : Client)
  | _, .inl (.call _ .ping) => Except.ok ()
  | _, .inl (.call _ (.rpush ..)) => Except.ok (2 : Nat)
  | _, .inl (.call _ (.lpos ..)) => Except.ok (some 1 : Option Nat)
  | _, .inl (.call _ (.lpop ..)) => Except.ok (none : Option (List Item))
  | _, .inl (.call _ (.expire ..)) => Except.ok true
  | _, .inl (.call _ (.llen _)) => Except.ok (2 : Nat)
  | _, .inl (.hangUp _) => ()
  | _, .inr (.estimate _ _ base) => Except.ok base
  | _, .inr (.sleep _) => Except.ok ()
  | heard, .inr .now => slept heard
  | _, .inr (.record ..) => ()
  | _, .inr (.announce _) => Except.ok ()
  | _, .inr .freshId => "a"
  | _, .inr (.hold _) => ()
  | _, .inr .takeOldest => (none : Option (Ticket ℚ))

theorem punctual_closedGate : Punctual gateTicket ⟨0, defaultEndpoint, {}⟩ 0 closedGate where
  dial _ := rfl
  ping _ := rfl
  push _ := ⟨2, rfl⟩
  look _ := ⟨some 1, rfl⟩
  estimate _ _ := ⟨1 / 100, by norm_num, rfl⟩
  sleep _ _ _ := rfl
  now heard := (zero_add (slept heard)).symm

theorem patient_closedGate : Patient gateTicket (1 / 100) closedGate := by
  intro heard position duration hduration
  cases hduration
  exact le_rfl

/-- Whoever waits at the closed gate for a tenth of a millisecond more than one base duration is
over by then, but for half a millisecond. -/
theorem limit_kept_at_closedGate : ∃ steps outcome,
    ((opening gateTicket (101 / 10000)).after closedGate steps).plan = .pure outcome ∧
      slept ((opening gateTicket (101 / 10000)).after closedGate steps).heard ≤ 106 / 10000 ∧
      Timely gateTicket (101 / 10000)
        ((opening gateTicket (101 / 10000)).after closedGate steps).heard outcome := by
  have hlimit : (0 : ℚ) ≤ 101 / 10000 := by norm_num
  rcases limit_kept punctual_closedGate hlimit with ⟨hover, htimely, hends⟩
  rcases hends ⟨1 / 100, by norm_num, patient_closedGate⟩ with ⟨steps, outcome, hended⟩
  refine ⟨steps, outcome, hended, (hover steps).trans ?_, htimely steps outcome hended⟩
  norm_num

/-!
## A gate at which patience runs short
-/

/-- The closed gate, with estimates that each are half of the one before. -/
def halvingGate : Plan.Surroundings (Premises ℚ)
  | heard, .inr (.estimate ..) => Except.ok ((1 / 2) ^ (looks heard + 1))
  | heard, r => closedGate heard r

theorem punctual_halvingGate : Punctual gateTicket ⟨0, defaultEndpoint, {}⟩ 0 halvingGate where
  dial _ := rfl
  ping _ := rfl
  push _ := ⟨2, rfl⟩
  look _ := ⟨some 1, rfl⟩
  estimate heard _ := ⟨(1 / 2) ^ (looks heard + 1), by positivity, rfl⟩
  sleep _ _ _ := rfl
  now heard := (zero_add (slept heard)).symm

/-- A wait that has halved its sleeps, so that it has slept for less than a second. -/
structure Halved (course : Plan.Course (Premises ℚ) ℚ (Except (Failure ℚ) Unit)) : Prop where
  slept : slept course.heard = 1 - (1 / 2) ^ looks course.heard
  plan : course.plan =
    (blocking (some 10)).remainder gateTicket ⟨0, defaultEndpoint, {}⟩ 0 1

theorem Halved.timeLeft (h : Halved course) : 1 < timeLeft 10 course.heard := by
  have hreading := reading_le course.heard
  have hslept : Turnstile.slept course.heard < 1 := by
    rw [h.slept]
    exact sub_lt_self 1 (by positivity)
  rw [timeLeft_eq]
  linarith

theorem Halved.next (h : Halved course) :
    ∃ steps, Halved (course.after halvingGate steps) ∧
      looks (course.after halvingGate steps).heard = looks course.heard + 1 := by
  have hwaits : ¬ gateTicket.Settles 1 := by decide
  have hleft : ¬ Turnstile.timeLeft 10 course.heard ≤ 0 := by linarith [h.timeLeft]
  rcases exists_round punctual_halvingGate h.plan hwaits hleft with
    ⟨duration, rank, _, hestimated, ⟨_, hrank⟩, steps, hplan, hspent, hlooked, _⟩
  cases hestimated
  cases hrank
  have hhalf : (1 / 2 : ℚ) ^ (looks course.heard + 1) ≤ 1 :=
    pow_le_one₀ (by norm_num) (by norm_num)
  rw [min_eq_left (hhalf.trans h.timeLeft.le), h.slept] at hspent
  refine ⟨steps, ⟨?_, hplan⟩, hlooked⟩
  calc Turnstile.slept (course.after halvingGate steps).heard
      = 1 - (1 / 2) ^ looks course.heard + (1 / 2) ^ (looks course.heard + 1) := hspent
    _ = 1 - (1 / 2) ^ (looks course.heard + 1) := by ring
    _ = 1 - (1 / 2) ^ looks (course.after halvingGate steps).heard := by rw [hlooked]

theorem exists_halved (count : Nat) :
    ∃ steps, Halved ((opening gateTicket 10).after halvingGate steps) ∧
      looks ((opening gateTicket 10).after halvingGate steps).heard = count := by
  induction count with
  | zero =>
      rcases exists_entered punctual_halvingGate 10 with
        ⟨steps, length, ⟨_, hlength⟩, hplan, hslept, hlooks, _⟩
      cases hlength
      refine ⟨steps, ⟨?_, hplan⟩, hlooks⟩
      rw [hslept, hlooks]
      simp [Turnstile.slept, looks]
  | succ count ih =>
      rcases ih with ⟨steps, hhalved, hlooks⟩
      rcases hhalved.next with ⟨more, hhalved', hlooks'⟩
      exists steps + more
      rw [Plan.Course.after_add]
      exact ⟨hhalved', by rw [hlooks', hlooks]⟩

/-- A limit does not end a wait whose sleeps get shorter and shorter.  Nothing fails at the halving
gate and every estimate is positive, but whoever waits there for ten seconds waits for ever. -/
theorem never_over_at_halvingGate :
    Punctual gateTicket ⟨0, defaultEndpoint, {}⟩ 0 halvingGate ∧ (0 : ℚ) ≤ 10 ∧
      ∀ steps outcome, ((opening gateTicket 10).after halvingGate steps).plan ≠ .pure outcome := by
  refine ⟨punctual_halvingGate, by norm_num, ?_⟩
  intro steps outcome hended
  -- It goes round after as many steps as it has ended after, and an ended plan does not go on.
  rcases exists_halved steps with ⟨later, hhalved, hlooks⟩
  have hlater : steps ≤ later := hlooks ▸ looks_le_steps gateTicket 10 halvingGate later
  have hplan := hhalved.plan
  rw [Plan.Course.after_eq_of_ended hended hlater, hended] at hplan
  cases hplan

end Wait
end Turnstile
