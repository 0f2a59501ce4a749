import Mathlib.Analysis.Real.Sqrt
import Mathlib.Order.Monotone.Basic
import Mathlib.Tactic.Linarith
import Turnstile.Backoff

/-!
# The shape of the back-off

Over the real numbers nothing is rounded, and square roots are what they should be.  All that the
back-off needs of them is that they grow with the count.

A back-off without jitter is a function of the distance past capacity alone: the base duration times
a factor that is clamped between one and the ceiling.  Jitter adds a number between nothing and a
fraction of the base duration, and it is only for this that a random number is drawn.

## Main definitions

* `Backoff.plain` - how long to wait at a distance, without jitter.
* `Randomness.advanced` - what is left of the sources when one number was drawn.
* `Randomness.Uniform` - the next random number is one of those that it should be.

## Main statements

* `Backoff.plain_mono` and `Backoff.plain_bounds` - a clamped factor grows, and stays in its bounds.
* `Backoff.estimate_eq` - every estimate for arguments that break no rule.
* `Backoff.estimate_shape` - how estimates depend on a position, a capacity, and chance.
-/

namespace Turnstile

/-!
## Real seconds
-/

/-- The whole number nearest to a real one, a half going to the even neighbour. -/
noncomputable def nearestReal (x : ℝ) : Int :=
  if Int.fract x < 1 / 2 then ⌊x⌋
  else if 1 / 2 < Int.fract x then ⌊x⌋ + 1
  else ⌊x⌋ + ⌊x⌋ % 2

noncomputable instance : Seconds ℝ where
  decideLT := inferInstance
  decideLE := inferInstance
  ofSeconds? count := some count
  ofMillis ms := ms / 1000
  toMillis x := .ok (nearestReal (x * 1000))

/-!
## Random numbers
-/

namespace Randomness

variable {τ : Type} [Seconds τ]

/-- What is left of the sources when one number was drawn, from one's own source if there is one and
else from that of everybody.  No other source is touched. -/
def advanced (sources : Randomness τ) : Randomness τ :=
  match sources.own with
  | some source => { sources with own := some { source with drawn := source.drawn + 1 } }
  | none => { sources with shared := { sources.shared with drawn := sources.shared.drawn + 1 } }

theorem draw_snd (sources : Randomness τ) : sources.draw.2 = sources.advanced := by
  unfold draw advanced
  cases sources.own with
  | none => rfl
  | some source => rfl

/-- The next random number, spread over a width, lies between zero and that width. -/
def Uniform (width : ℝ) (sources : Randomness ℝ) : Prop :=
  0 ≤ Backoff.spread width sources.draw.1 ∧ Backoff.spread width sources.draw.1 ≤ width

end Randomness

namespace Backoff

/-!
## Distances
-/

theorem distance_mono (capacity : Int) : Monotone fun position => distance position capacity := by
  intro position position' h
  dsimp only [distance]
  omega

theorem distance_anti (position : Int) : Antitone (distance position) := by
  intro capacity capacity' h
  dsimp only [distance]
  omega

theorem distance_eq_of_max_eq {position capacity position' capacity' : Int}
    (h : max (position - capacity) 0 = max (position' - capacity') 0) :
    distance position capacity = distance position' capacity' := by
  dsimp only [distance]
  omega

/-!
## Estimates without jitter
-/

variable {root : Nat → ℝ} {base ceiling jitter : ℝ}

theorem factor_eq (backoff : Backoff ℝ) (x : ℝ) :
    backoff.factor x = min (max x 1) backoff.ceiling := by
  have hlater : Seconds.later x 1 = max x 1 := by
    unfold Seconds.later
    split
    · rename_i hlt
      exact (max_eq_right hlt.le).symm
    · rename_i hlt
      exact (max_eq_left (not_lt.mp hlt)).symm
  unfold factor Seconds.earlier
  rw [hlater]
  split
  · rename_i hlt
    exact (min_eq_right hlt.le).symm
  · rename_i hlt
    exact (min_eq_left (not_lt.mp hlt)).symm

/-- How long to wait at a distance past capacity, without jitter. -/
noncomputable def plain (root : Nat → ℝ) (base ceiling : ℝ) (distance : Nat) : ℝ :=
  base * min (max (root distance) 1) ceiling

theorem plain_mono (hroot : Monotone root) (hbase : 0 < base) :
    Monotone (plain root base ceiling) := by
  intro near far h
  apply mul_le_mul_of_nonneg_left _ hbase.le
  exact min_le_min_right ceiling (max_le_max_right 1 (hroot h))

theorem plain_bounds (hbase : 0 < base) (hceiling : 1 ≤ ceiling) (distance : Nat) :
    base ≤ plain root base ceiling distance ∧
      plain root base ceiling distance ≤ ceiling * base := by
  have hlow : 1 ≤ min (max (root distance) 1) ceiling := le_min (le_max_right _ _) hceiling
  have hhigh : min (max (root distance) 1) ceiling ≤ ceiling := min_le_right _ _
  constructor
  · exact le_mul_of_one_le_right hbase.le hlow
  · rw [mul_comm ceiling]
    exact mul_le_mul_of_nonneg_left hhigh hbase.le

/-!
## Estimates with jitter
-/

theorem estimate_eq (hbase : 0 < base) (hceiling : 1 ≤ ceiling) (hjitter : 0 ≤ jitter)
    (position capacity : Int) (sources : Randomness ℝ) :
    (⟨ceiling, jitter⟩ : Backoff ℝ).estimate (fun n => some (root n)) position capacity base
        sources =
      .ok (if jitter = 0 then (plain root base ceiling (distance position capacity), sources)
        else (plain root base ceiling (distance position capacity) +
          spread jitter sources.draw.1 * base, sources.advanced)) := by
  unfold estimate defect?
  rw [if_neg hbase.not_ge, if_neg (not_lt.mpr hceiling), if_neg (not_lt.mpr hjitter)]
  dsimp only
  rw [factor_eq]
  by_cases hzero : jitter = 0
  · rw [if_pos hzero.le, if_pos hzero]
    rfl
  · have hpos : ¬ jitter ≤ 0 := fun h => hzero (le_antisymm h hjitter)
    rw [if_neg hpos, if_neg hzero, Randomness.draw_snd]
    rfl

/-- Without jitter nothing is drawn, and the estimate is the base duration times a clamped root.  It
grows with the position, falls with the capacity, depends on both only through the distance past
capacity, and stays between the base duration and its multiple by the ceiling.  With jitter one
number is drawn, and what is added to that estimate is at most a fraction of the base duration. -/
theorem estimate_shape (hroot : Monotone root) (hbase : 0 < base) (hceiling : 1 ≤ ceiling) :
    ∃ d : Int → Int → ℝ,
      (∀ position capacity, d position capacity =
        base * min (max (root (position - capacity).toNat) 1) ceiling) ∧
      (∀ position capacity sources, (⟨ceiling, 0⟩ : Backoff ℝ).estimate (fun n => some (root n))
        position capacity base sources = .ok (d position capacity, sources)) ∧
      (∀ capacity, Monotone fun position => d position capacity) ∧
      (∀ position, Antitone (d position)) ∧
      (∀ position capacity position' capacity',
        max (position - capacity) 0 = max (position' - capacity') 0 →
          d position capacity = d position' capacity') ∧
      (∀ position capacity, base ≤ d position capacity ∧ d position capacity ≤ ceiling * base) ∧
      ∀ jitter position capacity sources, 0 ≤ jitter → sources.Uniform jitter →
        ∃ duration, (⟨ceiling, jitter⟩ : Backoff ℝ).estimate (fun n => some (root n)) position
            capacity base sources =
              .ok (duration, if jitter = 0 then sources else sources.advanced) ∧
          d position capacity ≤ duration ∧ duration ≤ d position capacity + jitter * base := by
  have hmono : Monotone (plain root base ceiling) := plain_mono hroot hbase
  refine ⟨fun position capacity => plain root base ceiling (distance position capacity),
    fun _ _ => rfl, ?_, ?_, ?_, ?_, ?_, ?_⟩
  · intro position capacity sources
    rw [estimate_eq hbase hceiling le_rfl, if_pos rfl]
  · intro capacity
    exact hmono.comp (distance_mono capacity)
  · intro position
    exact hmono.comp_antitone (distance_anti position)
  · intro position capacity position' capacity' h
    exact congrArg _ (distance_eq_of_max_eq h)
  · intro position capacity
    exact plain_bounds hbase hceiling _
  · intro jitter position capacity sources hjitter huniform
    rw [estimate_eq hbase hceiling hjitter]
    by_cases hzero : jitter = 0
    · rw [if_pos hzero, if_pos hzero, hzero, zero_mul, add_zero]
      exact ⟨_, rfl, le_rfl, le_rfl⟩
    · rw [if_neg hzero, if_neg hzero]
      have hlow := mul_nonneg huniform.1 hbase.le
      have hhigh := mul_le_mul_of_nonneg_right huniform.2 hbase.le
      exact ⟨_, rfl, by linarith, by linarith⟩

/-- True square roots, and a source of one's own that gives a quarter. -/
theorem estimate_shape_sqrt : ∃ duration,
    (⟨10, 1 / 2⟩ : Backoff ℝ).estimate (fun n => some (Real.sqrt n)) 5 1 (1 / 10)
        ⟨some (.fresh [1 / 4]), .fresh []⟩ =
      .ok (duration, ⟨some ⟨[1 / 4], 1⟩, .fresh []⟩) ∧
    1 / 10 ≤ duration ∧ duration ≤ 10 * (1 / 10) + 1 / 2 * (1 / 10) := by
  have hroot : Monotone fun n : Nat => Real.sqrt n :=
    fun _ _ h => Real.sqrt_le_sqrt (Nat.cast_le.mpr h)
  have hdraw : (Randomness.draw ⟨some (.fresh [1 / 4]), .fresh []⟩).1 = (1 / 4 : ℝ) := rfl
  have huniform : Randomness.Uniform (1 / 2) ⟨some (.fresh [1 / 4]), .fresh []⟩ := by
    unfold Randomness.Uniform spread
    rw [hdraw]
    constructor
    · norm_num
    · norm_num
  rcases estimate_shape hroot (by norm_num : (0 : ℝ) < 1 / 10) (by norm_num : (1 : ℝ) ≤ 10) with
    ⟨d, _, _, _, _, _, hbounds, hjitter⟩
  rcases hjitter (1 / 2) 5 1 _ (by norm_num) huniform with ⟨duration, hestimate, hlow, hhigh⟩
  rw [if_neg (by norm_num)] at hestimate
  rcases hbounds 5 1 with ⟨hbase, hceiling⟩
  exact ⟨duration, hestimate, hbase.trans hlow, hhigh.trans (by linarith)⟩

end Backoff
end Turnstile
