import Turnstile.Proofs.Crowd.Schedule
import Turnstile.Proofs.Crowd.Simulation

/-!
# The order of admissions

Callers look at the queue when they please, and so a call may be admitted although another one
that entered before it still waits.  It is then up to the latter when it is admitted: its next look
admits it, even if its entry is gone by then.  With one slot there is no such overtaking.

## Main statements

* `Crowd.eligible_in_order` - whoever entered before an admitted call is admitted as soon as it
  looks, and with one slot calls are admitted in the order in which they entered.
-/

namespace Turnstile

open Redis

variable {τ : Type} [Seconds τ]

/-!
## Calls that wait no more
-/

/-- Whether a request is made only by calls that have to wait: a look, a sleep, or the estimate of
how long to sleep. -/
def Waits : (Premises τ).Request → Prop
  | .inl (.call _ (.lpos ..)) => True
  | .inr (.estimate ..) => True
  | .inr (.sleep _) => True
  | _ => False

/-- A call that was admitted, whether its instance holds the slot by now, not yet, or never will since
the call has failed after that. -/
def Standing.LetIn (id : String) : Standing → Prop
  | .admitted id' | .settled id' | .failed id' => id' = id
  | _ => False

theorem Bearing.after_letIn {key id : String} {φ : Bearing τ} {r : (Premises τ).Request}
    (capacity : Int) (answer : (Premises τ).Answer r) (hallows : φ.standing.allows key r)
    (hlet : φ.standing.LetIn id) : (φ.after capacity r answer).standing.LetIn id ∧ ¬ Waits r := by
  rcases r with (_ | ⟨client, command⟩ | _) | r
  · exact ⟨hlet, not_false⟩
  · cases command with
    | rpush key' id' =>
        rw [hallows.2] at hlet
        exact hlet.elim
    | lpos key' id' =>
        rw [hallows.2] at hlet
        exact hlet.elim
    | lpop key' count =>
        rw [hallows.2.2] at hlet
        exact hlet.elim
    | llen key' => exact hallows.elim
    | _ => exact ⟨hlet, not_false⟩
  · exact ⟨hlet, not_false⟩
  · cases r with
    | estimate position capacity' base =>
        rcases hallows with ⟨id', hwaiting⟩
        rw [hwaiting] at hlet
        exact hlet.elim
    | sleep duration =>
        rcases hallows with ⟨id', hwaiting⟩
        rw [hwaiting] at hlet
        exact hlet.elim
    | now =>
        refine ⟨?_, not_false⟩
        show (φ.told answer).standing.LetIn id
        rcases φ.told_cases answer with hsame | ⟨id', hid', htold, _⟩
        · rw [hsame]
          exact hlet
        · rw [htold]
          rcases hid' with hwaiting | hadmitted
          · rw [hwaiting] at hlet
            exact hlet.elim
          · rw [hadmitted] at hlet
            exact hlet
    | record mode entry => exact ⟨hlet, not_false⟩
    | announce position => exact hallows.elim
    | freshId =>
        rw [show φ.standing = .arriving from hallows] at hlet
        exact hlet.elim
    | hold ticket =>
        rw [hallows.2] at hlet
        exact ⟨hlet, not_false⟩
    | takeOldest =>
        rw [show φ.standing = .leaving from hallows] at hlet
        exact hlet.elim

namespace Crowd

variable {venue : Venue τ} {start crowd crowd' : Crowd τ}

theorem Hears.letIn {number : Nat} {id : String} {standing : Standing} {r : (Premises τ).Request}
    {answer : (Premises τ).Answer r} (h : Hears venue crowd number r answer crowd')
    (hconducted : Conducted venue crowd) (hstanding : crowd.standing? number = some standing)
    (hlet : standing.LetIn id) :
    (∃ standing', crowd'.standing? number = some standing' ∧ standing'.LetIn id) ∧ ¬ Waits r := by
  rcases h.allows hconducted with ⟨_, hallowed, hallows⟩
  rcases h.standing? with ⟨φ, hφ, hafter⟩
  rw [hstanding] at hallowed hφ
  cases hallowed
  cases hφ
  have hletIn := Bearing.after_letIn venue.capacity answer hallows hlet
  exact ⟨⟨_, hafter, hletIn.1⟩, hletIn.2⟩

theorem leads_letIn (hconducted : Conducted venue crowd) (hmoderate : venue.Moderate) {number : Nat}
    {id : String} {standing : Standing} (hstanding : crowd.standing? number = some standing)
    (hlet : standing.LetIn id) (hleads : Leads venue crowd crowd') :
    ∃ standing', crowd'.standing? number = some standing' ∧ standing'.LetIn id := by
  induction hleads with
  | refl => exact ⟨standing, hstanding, hlet⟩
  | @tail crowd₁ crowd₂ hleads hstep ih =>
      rcases ih with ⟨standing₁, hstanding₁, hlet₁⟩
      have hconducted₁ := (hconducted.leads hmoderate hleads 0).1
      rcases hstep.standing? hstanding₁ with hsame | ⟨r, answer, hhears⟩
      · exact ⟨standing₁, hsame, hlet₁⟩
      · exact (hhears.letIn hconducted₁ hstanding₁ hlet₁).1

/-- From now on a call makes no request of those who wait. -/
def WaitsNoMore (venue : Venue τ) (crowd : Crowd τ) (number : Nat) : Prop :=
  ∀ crowd', Leads venue crowd crowd' → ∀ r answer crowd'',
    Hears venue crowd' number r answer crowd'' → ¬ Waits r

theorem waitsNoMore_of_letIn (hconducted : Conducted venue crowd) (hmoderate : venue.Moderate)
    {number : Nat} {id : String} {standing : Standing}
    (hstanding : crowd.standing? number = some standing) (hlet : standing.LetIn id) :
    WaitsNoMore venue crowd number := by
  intro crowd' hleads r answer crowd'' hhears
  rcases leads_letIn hconducted hmoderate hstanding hlet hleads with ⟨_, hstanding', hlet'⟩
  have hconducted' := (hconducted.leads hmoderate hleads 0).1
  exact (hhears.letIn hconducted' hstanding' hlet').2

/-!
## The order of entry
-/

/-- Whatever others do in the meantime, an identity that waits is admitted by the next answer that
tells its position, and waits no more from then on. -/
def Eligible (venue : Venue τ) (crowd : Crowd τ) (id : String) : Prop :=
  ∀ crowd', Leads venue crowd crowd' → ∀ number, crowd'.standing? number = some (.waiting id) →
    ∀ client key id' rank crowd'',
      Hears venue crowd' number (.inl (.call client (.lpos key id'))) (.ok rank) crowd'' →
      crowd''.standing? number = some (.admitted id) ∧ WaitsNoMore venue crowd'' number

theorem Hears.look {number : Nat} {client : Client} {key id : String} {rank : Option Nat}
    (h : Hears venue crowd number (.inl (.call client (.lpos key id))) (.ok rank) crowd')
    (hconducted : Conducted venue crowd) :
    crowd.standing? number = some (.waiting id) ∧
      crowd'.standing? number = some (.judged venue.capacity id
        (positionOfRank ((crowd.keys.items venue.queueKey).idxOf? id.toUTF8))) := by
  rcases h.allows hconducted with ⟨standing, hstanding, rfl, rfl⟩
  rcases h.standing? with ⟨φ, _, hafter⟩
  refine ⟨hstanding, ?_⟩
  rcases h.executed with ⟨took, keys, executed⟩
  rcases executed.of_ok rfl with ⟨decodes, time, hreply⟩
  have hrank : rank = (crowd.keys.items venue.queueKey).idxOf? id.toUTF8 :=
    Except.ok.inj (hreply.trans (hconducted.lists.lpos_reply id))
  rw [← hrank]
  exact hafter

theorem eligible_of_place (hconducted : Conducted venue crowd) (hcapacity : 1 ≤ venue.capacity)
    (hmoderate : venue.Moderate) {removed : Nat}
    (horderly : (crowd.register venue removed).Orderly venue.capacity venue.initial) {id : String}
    (hentry : id ∈ crowd.entries)
    (hplace : (Register.place venue.initial crowd.entries id : Int) < removed + venue.capacity) :
    Eligible venue crowd id := by
  intro crowd' hleads number hwaiting client key id' rank crowd'' hhears
  rcases hconducted.leads hmoderate hleads removed with ⟨hconducted', removed', hgoes⟩
  rcases hhears.look hconducted' with ⟨hstanding, hjudged⟩
  have hid : id' = id := by
    rw [hwaiting] at hstanding
    cases hstanding
    rfl
  subst hid
  have horderly' := hgoes.orderly horderly
  have hremoved : removed ≤ removed' := hgoes.grows.1
  have hentries : crowd.entries <+: crowd'.entries := hgoes.grows.2.1
  have hunadmitted := horderly'.unadmitted id' (mem_standings hwaiting removed')
  -- Its place stays where it is, and the number of removed items only grows.
  have hroom : positionOfRank ((crowd'.keys.items venue.queueKey).idxOf? id'.toUTF8) <
      venue.capacity := by
    refine horderly'.admits hcapacity (hentries.subset hentry) hunadmitted ?_
    show (Register.place venue.initial crowd'.entries id' : Int) < removed' + venue.capacity
    unfold Register.place at hplace ⊢
    rw [← hentries.idxOf_eq_of_mem hentry]
    omega
  have hadmitted : crowd''.standing? number = some (.admitted id') := by
    rw [hjudged, Standing.judged, if_pos hroom]
  have hconducted'' := hhears.conducted hconducted' hmoderate
  exact ⟨hadmitted, waitsNoMore_of_letIn hconducted'' hmoderate hadmitted rfl⟩

/-- Whoever entered before an admitted call is admitted as soon as it looks, whatever others do in
the meantime and even if its entry is gone.  With one slot calls are admitted in the order in which
they entered, and whoever waits still has its entry. -/
theorem eligible_in_order (hcapacity : 1 ≤ venue.capacity) (hmoderate : venue.Moderate)
    (hopening : Opening venue start) (hleads : Leads venue start crowd) :
    (∀ first later, later ∈ crowd.admissions →
        crowd.entries.idxOf first < crowd.entries.idxOf later → Eligible venue crowd first) ∧
      (venue.capacity = 1 → crowd.admissions <+: crowd.entries ∧
        ∀ number id, crowd.standing? number = some (.waiting id) →
          id.toUTF8 ∈ crowd.keys.items venue.queueKey) := by
  rcases hopening.leads hmoderate hleads with ⟨hconducted, removed, horderly, _⟩
  constructor
  · intro first later hadmitted hbefore
    rcases horderly.reached later hadmitted with ⟨hentry, hplace⟩
    have hlater : later ∈ crowd.entries := hentry
    have hlength := List.idxOf_lt_length_of_mem hlater
    have hfirst : first ∈ crowd.entries := by
      rw [← List.idxOf_lt_length_iff]
      omega
    refine eligible_of_place hconducted hcapacity hmoderate horderly hfirst ?_
    have hplace' : (Register.place venue.initial crowd.entries later : Int) <
        removed + venue.capacity := hplace
    unfold Register.place at hplace' ⊢
    omega
  · intro hsingle
    refine ⟨(horderly.single hsingle).1, ?_⟩
    intro number id hwaiting
    have hwaiting' : .waiting id ∈ (crowd.register venue removed).standings :=
      mem_standings hwaiting removed
    have hentry := horderly.distinct.waiting_entered id hwaiting'
    have hplace := horderly.removed_le_place hsingle (horderly.unadmitted id hwaiting')
    exact horderly.mem_line hentry hplace

/-- The last of four users is admitted before the third one, which is then admitted as soon as it
looks. -/
theorem eligible_in_order_of_overtaking : ∃ crowd,
    Leads (gateVenue fun e => e = .client .refused) quartet crowd ∧
      crowd.admissions = ["1", "2", "4"] ∧ crowd.standing? 2 = some (.waiting "3") ∧
      Eligible (gateVenue fun e => e = .client .refused) crowd "3" := by
  have hdrive : ((drive (gateVenue fun e => e = .client .refused) quartet overtaking).map
      fun crowd => (crowd.entries, crowd.admissions, crowd.standing? 2)) =
      some (["1", "2", "3", "4"], ["1", "2", "4"], some (.waiting "3")) := by
    decide +kernel
  rcases Option.map_eq_some_iff.mp hdrive with ⟨crowd, hcrowd, hseen⟩
  rcases Prod.mk.inj hseen with ⟨hentries, hseen⟩
  rcases Prod.mk.inj hseen with ⟨hadmissions, hwaiting⟩
  have hleads := drive_leads hcrowd
  have hmoderate : (gateVenue fun e => e = .client .refused).Moderate := by
    intro e he
    rw [he]
    exact ⟨rfl, rfl⟩
  refine ⟨crowd, hleads, hadmissions, hwaiting, ?_⟩
  refine (eligible_in_order (by decide) hmoderate (quartet_opening _) hleads).1 "3" "4" ?_ ?_
  · rw [hadmissions]
    decide
  · rw [hentries]
    decide

end Crowd
end Turnstile
