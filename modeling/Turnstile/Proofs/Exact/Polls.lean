import Mathlib.Algebra.Order.Floor.Semifield
import Turnstile.Proofs.Exact.Limit

/-!
# How often a waiter looks

The last sleep of a waiter is cut short to end with its limit.  But how long that may be is read off
a clock that is rounded to whole milliseconds, so that the waiter may wake up too early by its own
clock, and then it goes back to sleep for what that clock says is left.  From half a millisecond
before the limit on all its sleeps can be that short, and how many there are depends on how far the
limit is from the whole millisecond below it.

## Main definitions

* `overtime` - how many more looks there can be because the clock is rounded.
* `Wait.OnSchedule` - how often a waiter has looked by the time it has slept.

## Main statements

* `Wait.polls_bounded` - a wait under a limit ends, and how often it has looked by then.
* `overtime_of_whole` - there is no overtime with a limit of whole milliseconds.
-/

namespace Turnstile

open Redis

theorem Ticket.baseSleep_pos (ticket : Ticket ℚ) : 0 < ticket.baseSleep := by
  by_cases hbase : ticket.baseSleep ≤ 0
  · have hsound := ticket.sound
    unfold TicketForm.defect? at hsound
    rw [if_pos hbase] at hsound
    repeat' split at hsound
    all_goals cases hsound
  · exact not_le.mp hbase

/-- How many more looks than one there can be from half a millisecond before the limit on. -/
def overtime (limit base : ℚ) : Nat :=
  ⌊(1 / 1000 - grain limit) / min base (grain limit)⌋₊

theorem overtime_of_whole (ms : Int) (base : ℚ) : overtime (ms / 1000) base = 0 := by
  have hgrain : grain (ms / 1000) = 1 / 1000 := by
    have hceil : ⌈1000 * ((ms : ℚ) / 1000)⌉ = ms := by
      rw [mul_div_cancel₀ _ (by norm_num : (1000 : ℚ) ≠ 0), Int.ceil_intCast]
    unfold grain
    rw [hceil]
    ring
  unfold overtime
  rw [hgrain, sub_self, zero_div, Nat.floor_zero]

namespace Wait

variable {ticket : Ticket ℚ} {client : Client} {start limit base : ℚ}
  {surroundings : Plan.Surroundings (Premises ℚ)}
  {heard heard' : List (Plan.Exchange (Premises ℚ))}

/-- How often a waiter has looked by the time it has slept.  Until half a millisecond before its
limit it has slept for its base duration before each look.  From then on it has slept for some time
before each look. -/
inductive OnSchedule (limit base : ℚ) (heard : List (Plan.Exchange (Premises ℚ))) : Prop where
  | early (time : slept heard < limit - 1 / 2000) (looked : looks heard * base ≤ slept heard)
      (napped : naps base heard = 0) : OnSchedule limit base heard
  | close (extra : Nat) (few : extra ≤ overtime limit base + 1)
      (time : limit - 1 / 2000 + extra * min base (grain limit) ≤ slept heard)
      (looked : looks heard ≤ ⌈limit / base⌉₊ + extra) (napped : naps base heard ≤ extra + 1) :
      OnSchedule limit base heard

namespace OnSchedule

theorem of_idle (h : OnSchedule limit base heard) (hidle : Idle base heard heard') :
    OnSchedule limit base heard' := by
  rcases hidle with ⟨hslept, hlooks, hnaps⟩
  cases h with
  | early time looked napped =>
      rw [← hslept] at time looked
      rw [← hlooks] at looked
      rw [← hnaps] at napped
      exact .early time looked napped
  | close extra few time looked napped =>
      rw [← hslept] at time
      rw [← hlooks] at looked
      rw [← hnaps] at napped
      exact .close extra few time looked napped

theorem succ_looks_le (hbase : 0 < base) (htime : slept heard < limit - 1 / 2000)
    (hlooks : looks heard * base ≤ slept heard) : looks heard + 1 ≤ ⌈limit / base⌉₊ := by
  apply Nat.succ_le_of_lt
  rw [Nat.lt_ceil, lt_div_iff₀ hbase]
  linarith

theorem looks_le (h : OnSchedule limit base heard) (hbase : 0 < base) :
    looks heard ≤ ⌈limit / base⌉₊ + 1 + overtime limit base ∧
      naps base heard ≤ 2 + overtime limit base := by
  cases h with
  | early time looked napped =>
      have hlooks := succ_looks_le hbase time looked
      omega
  | close extra few time looked napped => omega

theorem sleeps {duration : ℚ} (h : OnSchedule limit base heard) (hbase : 0 < base)
    (hduration : base ≤ duration) (hleft : ¬ timeLeft limit heard ≤ 0)
    (hslept : slept heard' = slept heard + min duration (timeLeft limit heard))
    (hlooks : looks heard' = looks heard + 1)
    (hnaps : naps base heard' = naps base heard +
      if min duration (timeLeft limit heard) < base then 1 else 0) :
    OnSchedule limit base heard' := by
  have hgrain : grain limit ≤ timeLeft limit heard := grain_le_timeLeft hleft
  have htimeLeft := timeLeft_eq limit heard
  cases h with
  | early time looked napped =>
      have hceil := succ_looks_le hbase time looked
      have hnaps' : naps base heard' ≤ 0 + 1 := by
        rw [hnaps, napped]
        split <;> omega
      have hclose : limit - 1 / 2000 ≤ slept heard' → OnSchedule limit base heard' := by
        intro hlate
        refine .close 0 (Nat.zero_le _) ?_ ?_ hnaps'
        · rw [Nat.cast_zero, zero_mul, add_zero]
          exact hlate
        · rw [hlooks]
          exact hceil
      by_cases hnap : min duration (timeLeft limit heard) < base
      · -- Only the limit can cut a sleep short, and then it ends close to the limit.
        have hshort : timeLeft limit heard < base :=
          (min_lt_iff.mp hnap).resolve_left hduration.not_gt
        rw [min_eq_right (hshort.le.trans hduration)] at hslept
        have hreading := reading_le heard
        apply hclose
        linarith
      · rw [if_neg hnap, napped] at hnaps
        by_cases hlate : limit - 1 / 2000 ≤ slept heard'
        · exact hclose hlate
        · refine .early (not_le.mp hlate) ?_ hnaps
          rw [hlooks, Nat.cast_add, Nat.cast_one, add_mul, one_mul, hslept]
          exact add_le_add looked (not_lt.mp hnap)
  | close extra few time looked napped =>
      have hgrows : min base (grain limit) ≤ min duration (timeLeft limit heard) :=
        min_le_min hduration hgrain
      have hreading := le_reading heard
      have hextra : extra ≤ overtime limit base := by
        apply Nat.le_floor
        rw [le_div_iff₀ (lt_min hbase (grain_pos limit))]
        linarith
      refine .close (extra + 1) (Nat.succ_le_succ hextra) ?_ ?_ ?_
      · rw [hslept, Nat.cast_add, Nat.cast_one, add_mul, one_mul]
        linarith
      · rw [hlooks]
        omega
      · rw [hnaps]
        split <;> omega

end OnSchedule

def EndsOnSchedule (limit base : ℚ)
    (course : Plan.Course (Premises ℚ) ℚ (Except (Failure ℚ) Unit)) : Prop :=
  OnSchedule limit base course.heard ∧ ∃ outcome, course.plan = .pure outcome

def RoundOnSchedule (ticket : Ticket ℚ) (client : Client) (start limit : ℚ)
    (course : Plan.Course (Premises ℚ) ℚ (Except (Failure ℚ) Unit)) : Prop :=
  OnSchedule limit ticket.baseSleep course.heard ∧
    ∃ position, course.plan = (blocking (some limit)).remainder ticket client start position

theorem GoesOn.on_schedule
    {course course' : Plan.Course (Premises ℚ) ℚ (Except (Failure ℚ) Unit)}
    (h : GoesOn surroundings ticket client start limit course course')
    (hpatient : Patient ticket ticket.baseSleep surroundings)
    (hround : RoundOnSchedule ticket client start limit course) :
    EndsOnSchedule limit ticket.baseSleep course' ∨
      RoundOnSchedule ticket client start limit course' ∧
        looks course'.heard = looks course.heard + 1 := by
  cases h with
  | settled position plan idle => exact Or.inl ⟨hround.1.of_idle idle, _, plan⟩
  | late late plan idle => exact Or.inl ⟨hround.1.of_idle idle, _, plan⟩
  | sleeps position position' duration left positive estimated plan spent looked napped =>
      have hduration := hpatient _ _ _ estimated
      have hschedule :=
        hround.1.sleeps ticket.baseSleep_pos hduration left spent looked napped
      exact Or.inr ⟨⟨hschedule, position', plan⟩, looked⟩

/-- A wait under a limit, in exact time and where nothing fails, comes to its end if no estimate is
shorter than its base duration.  By then it has looked at most once more than its base duration fits
into its limit, and once more for each look in overtime, of which there are none with a limit of
whole milliseconds.  It has slept for less than its base duration at most twice, and once more for
each look in overtime. -/
theorem polls_bounded (h : Punctual ticket client start surroundings) (limit : ℚ)
    (hpatient : Patient ticket ticket.baseSleep surroundings) :
    ∃ steps outcome, ((opening ticket limit).after surroundings steps).plan = .pure outcome ∧
      looks ((opening ticket limit).after surroundings steps).heard ≤
        ⌈limit / ticket.baseSleep⌉₊ + 1 + overtime limit ticket.baseSleep ∧
      ((∃ ms : Int, limit = ms / 1000) →
        looks ((opening ticket limit).after surroundings steps).heard ≤
          ⌈limit / ticket.baseSleep⌉₊ + 1) ∧
      naps ticket.baseSleep ((opening ticket limit).after surroundings steps).heard ≤
        2 + overtime limit ticket.baseSleep := by
  have hbase := ticket.baseSleep_pos
  rcases exists_entered h limit with ⟨first, length, _, hplan, hidle⟩
  have hempty : OnSchedule limit ticket.baseSleep [] := by
    by_cases hearly : (0 : ℚ) < limit - 1 / 2000
    · exact .early hearly (by simp [looks, slept]) rfl
    · exact .close 0 (Nat.zero_le _) (by simp [slept]; linarith) (Nat.zero_le _) (Nat.zero_le _)
  have hstart : RoundOnSchedule ticket client start limit
      ((opening ticket limit).after surroundings first) :=
    ⟨hempty.of_idle hidle, _, hplan⟩
  have hround : ∀ course, RoundOnSchedule ticket client start limit course →
      ∃ steps, EndsOnSchedule limit ticket.baseSleep (course.after surroundings steps) ∨
        RoundOnSchedule ticket client start limit (course.after surroundings steps) ∧
          looks (course.after surroundings steps).heard = looks course.heard + 1 := by
    intro course hcourse
    rcases hcourse.2 with ⟨position, hplan⟩
    rcases exists_goesOn h hplan with ⟨steps, hgoesOn⟩
    exact ⟨steps, hgoesOn.on_schedule hpatient hcourse⟩
  -- A wait that has looked too often cannot still go round.
  rcases Plan.Course.exists_after_of_rounds (fun course => looks course.heard) hround hstart
    (⌈limit / ticket.baseSleep⌉₊ + 1 + overtime limit ticket.baseSleep + 1) with ⟨steps, hsteps⟩
  rw [← Plan.Course.after_add] at hsteps
  rcases hsteps with ⟨hschedule, outcome, hended⟩ | ⟨⟨hschedule, _⟩, hlooks⟩
  · rcases hschedule.looks_le hbase with ⟨hlooks, hnaps⟩
    refine ⟨first + steps, outcome, hended, hlooks, ?_, hnaps⟩
    rintro ⟨ms, rfl⟩
    rw [overtime_of_whole] at hlooks
    exact hlooks
  · have hbound := (hschedule.looks_le hbase).1
    omega

/-- A waiter at the closed gate whose limit is a tenth of a millisecond beyond its base duration
looks seven times, and all but the first of its sleeps are shorter than its base duration. -/
theorem polls_bounded_at_closedGate :
    (∃ steps outcome,
      ((opening gateTicket (101 / 10000)).after closedGate steps).plan = .pure outcome ∧
        looks ((opening gateTicket (101 / 10000)).after closedGate steps).heard ≤
          ⌈(101 / 10000 : ℚ) / (1 / 100)⌉₊ + 1 + overtime (101 / 10000) (1 / 100) ∧
        naps (1 / 100) ((opening gateTicket (101 / 10000)).after closedGate steps).heard ≤
          2 + overtime (101 / 10000) (1 / 100)) ∧
      ⌈(101 / 10000 : ℚ) / (1 / 100)⌉₊ + 1 = 3 ∧
      looks ((opening gateTicket (101 / 10000)).after closedGate 60).heard = 7 ∧
      naps (1 / 100) ((opening gateTicket (101 / 10000)).after closedGate 60).heard = 6 := by
  refine ⟨?_, ?_, ?_, ?_⟩
  · rcases polls_bounded punctual_closedGate (101 / 10000) patient_closedGate with
      ⟨steps, outcome, hended, hlooks, _, hnaps⟩
    exact ⟨steps, outcome, hended, hlooks, hnaps⟩
  · decide +kernel
  · decide +kernel
  · decide +kernel

end Wait
end Turnstile
