import Turnstile.Proofs.Crowd.Capacity
import Turnstile.Proofs.Crowd.Order

/-!
# Free slots

A slot is taken from the answer that admits a call until the head is removed for it.  As long as
nothing fails, a slot that is not taken is there for whoever comes first: the first of those that
wait is admitted as soon as it looks, and if nobody waits the next one to enter is admitted at
once.

## Main statements

* `Crowd.no_slot_lost` - a slot that is not taken can be had.
-/

namespace Turnstile
namespace Crowd

open Redis

variable {τ : Type} [Seconds τ] {venue : Venue τ} {start crowd crowd' : Crowd τ}

/-- The number of slots for which no head was removed yet. -/
def slotsTaken (crowd : Crowd τ) : Nat :=
  crowd.slotsInUse + crowd.count Standing.isReturning

theorem taken_register (venue : Venue τ) (removed : Nat) :
    (crowd.register venue removed).taken = crowd.slotsTaken := by
  unfold Register.taken slotsTaken count
  rw [inUse_register]
  unfold register
  rw [List.countP_map]
  rfl

theorem Hears.enter {number : Nat} {client : Client} {key id : String}
    {reply : Except (Failure τ) Nat}
    (h : Hears venue crowd number (.inl (.call client (.rpush key id))) reply crowd')
    (hconducted : Conducted venue crowd) (hlossy : ¬ venue.Lossy) :
    crowd'.standing? number = some (.entered venue.capacity id
      ((crowd.keys.items venue.queueKey).length + 1)) := by
  rcases h.allows hconducted with ⟨standing, _, rfl, _⟩
  rcases h.standing? with ⟨φ, _, hafter⟩
  rcases h.executed with ⟨took, keys, executed⟩
  rcases executed.of_faultless hlossy with ⟨decodes, time, hreply⟩
  have hlength : reply = .ok ((crowd.keys.items venue.queueKey).length + 1) :=
    hreply.trans (hconducted.lists.rpush_reply id)
  rw [hlength] at hafter
  exact hafter

/-- As long as a slot is not taken, the first of those that wait is admitted by its next look,
and if nobody waits the next one to enter is admitted by the answer to its entry and does not wait
at all. -/
theorem no_slot_lost (hinitial : venue.initial = []) (hfaultless : ¬ venue.Lossy)
    (hopening : Opening venue start) (hleads : Leads venue start crowd)
    (hfree : (crowd.slotsTaken : Int) < venue.capacity) :
    (∀ number id, crowd.standing? number = some (.waiting id) →
        (∀ other id', crowd.standing? other = some (.waiting id') →
          crowd.entries.idxOf id ≤ crowd.entries.idxOf id') → Eligible venue crowd id) ∧
      ((∀ number id, crowd.standing? number ≠ some (.waiting id)) →
        ∀ crowd', Leads venue crowd crowd' → crowd'.entries = crowd.entries →
          ∀ number client key id reply crowd'',
            Hears venue crowd' number (.inl (.call client (.rpush key id))) reply crowd'' →
            crowd''.standing? number = some (.admitted id) ∧
              WaitsNoMore venue crowd'' number) := by
  have hmoderate : venue.Moderate := fun e he => absurd ⟨e, he⟩ hfaultless
  rcases hopening.leads hmoderate hleads with ⟨hconducted, removed, horderly, hcomplete⟩
  have hcomplete := hcomplete hfaultless
  rw [← taken_register venue removed] at hfree
  have hcapacity : 1 ≤ venue.capacity := by omega
  rw [hinitial] at horderly
  constructor
  · intro number id hwaiting hfirst
    have hwaiting' : .waiting id ∈ (crowd.register venue removed).standings :=
      mem_standings hwaiting removed
    have hentry := horderly.distinct.waiting_entered id hwaiting'
    refine eligible_of_place hconducted hcapacity hmoderate (hinitial ▸ horderly) hentry ?_
    rw [hinitial]
    refine hcomplete.place_lt horderly hfree hentry ?_
    intro other hother
    rcases exists_of_mem_standings hother with ⟨number', hother'⟩
    exact hfirst number' other hother'
  · intro hnobody crowd' hleads' hentries number client key id reply crowd'' hhears
    rcases hconducted.leads hmoderate hleads' removed with ⟨hconducted', removed', hgoes⟩
    have hle : removed ≤ removed' := hgoes.grows.1
    -- Nobody entered since, so the queue can only have become shorter.
    have hroom : ((crowd'.keys.items venue.queueKey).length : Int) < venue.capacity := by
      have hline : crowd'.keys.items venue.queueKey =
          (Register.arrivals venue.initial crowd'.entries).drop removed' :=
        (hgoes.orderly (hinitial ▸ horderly)).line
      have hlength : (crowd.entries.length : Int) < removed + venue.capacity := by
        refine hcomplete.entries_lt horderly hfree ?_
        intro id' hid'
        rcases exists_of_mem_standings hid' with ⟨number', hnumber'⟩
        exact hnobody number' id' hnumber'
      rw [hline, List.length_drop, Register.length_arrivals, hinitial, hentries, List.length_nil]
      omega
    have hadmitted : crowd''.standing? number = some (.admitted id) := by
      rw [hhears.enter hconducted' hfaultless, Standing.entered, Standing.judged, if_pos (by omega)]
    have hconducted'' := hhears.conducted hconducted' hmoderate
    exact ⟨hadmitted, waitsNoMore_of_letIn hconducted'' hmoderate hadmitted rfl⟩

/-- When the first of four users has given back its slot, the third one is admitted as soon as it
looks. -/
theorem no_slot_lost_of_oneLeaves : ∃ crowd,
    Leads (gateVenue fun _ => False) quartet crowd ∧ crowd.slotsTaken = 1 ∧
      crowd.standing? 2 = some (.waiting "3") ∧
      Eligible (gateVenue fun _ => False) crowd "3" := by
  have hdrive : ((drive (gateVenue fun _ => False) quartet oneLeaves).map fun crowd =>
      (crowd.slotsTaken, crowd.entries,
        crowd.callers.map fun caller => caller.bearing.standing)) =
      some (1, ["1", "2", "3", "4"], [.settled "1", .settled "2", .waiting "3", .waiting "4",
        .gone]) := by
    decide +kernel
  rcases Option.map_eq_some_iff.mp hdrive with ⟨crowd, hcrowd, hseen⟩
  rcases Prod.mk.inj hseen with ⟨htaken, hseen⟩
  rcases Prod.mk.inj hseen with ⟨hentries, hstandings⟩
  have hleads := drive_leads hcrowd
  have hfaultless : ¬ (gateVenue fun _ => False).Lossy := by
    intro hlossy
    rcases hlossy with ⟨_, hfault⟩
    exact hfault
  have hwaiting : crowd.standing? 2 = some (.waiting "3") := by
    rw [standing?_eq, hstandings]
    rfl
  have hfree : (crowd.slotsTaken : Int) < (gateVenue fun _ => False).capacity := by
    rw [htaken]
    decide
  refine ⟨crowd, hleads, htaken, hwaiting, ?_⟩
  refine (no_slot_lost rfl hfaultless (quartet_opening _) hleads hfree).1 2 "3" hwaiting ?_
  intro other id hother
  rw [standing?_eq, hstandings] at hother
  have hmem := List.mem_of_getElem? hother
  have hid : id = "3" ∨ id = "4" := by
    simpa using hmem
  rw [hentries]
  rcases hid with rfl | rfl
  · decide
  · decide

end Crowd
end Turnstile
