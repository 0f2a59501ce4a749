import Turnstile.Proofs.Crowd.Schedule
import Turnstile.Proofs.Crowd.Simulation

/-!
# Mutual exclusion

However its calls take turns, a crowd has no more slots in use than there are.  Commands may fail
before or after they take effect, and the queue may hold anything at first.  What no call may do
is to give up and remove a head that is not its own: no acquire is refused, runs out of time while
it waits, or is interrupted.

## Main statements

* `Crowd.slotsInUse_le` - at most `capacity` slots are in use.
-/

namespace Turnstile
namespace Crowd

variable {τ : Type} [Seconds τ] {venue : Venue τ} {start crowd : Crowd τ}

/-- The number of slots in use: one for each call that was admitted and has not ended yet, and one
for each slot that an instance holds. -/
def slotsInUse (crowd : Crowd τ) : Nat :=
  crowd.count Standing.isAdmitted + crowd.held

theorem inUse_register (removed : Nat) :
    (crowd.register venue removed).inUse = crowd.slotsInUse := by
  unfold Register.inUse slotsInUse count register
  rw [List.countP_map]
  rfl

/-- At most `capacity` slots are in use. -/
theorem slotsInUse_le (hcapacity : 1 ≤ venue.capacity) (hmoderate : venue.Moderate)
    (hopening : Opening venue start) (hleads : Leads venue start crowd) :
    (crowd.slotsInUse : Int) ≤ venue.capacity := by
  rcases hopening.leads hmoderate hleads with ⟨_, removed, horderly, _⟩
  have hle := horderly.taken_le (by omega)
  have htaken : (crowd.register venue removed).inUse ≤ (crowd.register venue removed).taken :=
    Nat.le_add_right _ _
  rw [inUse_register] at htaken
  omega

/-- Four users of a gate with two slots, where the store can be lost, hold two of them. -/
theorem slotsInUse_le_of_rush : ∃ crowd,
    Leads (gateVenue fun e => e = .client .refused) quartet crowd ∧
      crowd.standing? 2 = some (.waiting "3") ∧ crowd.slotsInUse = 2 ∧
      (crowd.slotsInUse : Int) ≤ (gateVenue fun e => e = .client .refused).capacity := by
  have hdrive : ((drive (gateVenue fun e => e = .client .refused) quartet rush).map fun crowd =>
      (crowd.standing? 2, crowd.slotsInUse)) = some (some (.waiting "3"), 2) := by
    decide +kernel
  rcases Option.map_eq_some_iff.mp hdrive with ⟨crowd, hcrowd, hseen⟩
  rcases Prod.mk.inj hseen with ⟨hwaiting, hslots⟩
  have hleads := drive_leads hcrowd
  have hmoderate : (gateVenue fun e => e = .client .refused).Moderate := by
    intro e he
    rw [he]
    exact ⟨rfl, rfl⟩
  exact ⟨crowd, hleads, hwaiting, hslots,
    slotsInUse_le (by decide) hmoderate (quartet_opening _) hleads⟩

end Crowd
end Turnstile
