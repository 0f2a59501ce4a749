import Turnstile.Proofs.Crowd.FreeSlots
import Turnstile.Proofs.Redis.Disturbance

/-!
# The lapse of a queue

When the deadline of a queue comes, all entries are lost at once, also those of calls that still
wait.  Newcomers then find an empty queue, and the first `capacity` of them are admitted.  Whoever
waited before is not found any more, and is told the position of an entry that is not found.  With
more than one slot that position is below capacity, so that all of them are admitted as well, each
by its next look.  With one slot it is not, and they wait for ever.

## Main statements

* `Register.Goes.recovers` - the slots that are in use, as long as nobody gives one back.
* `Crowd.slotsInUse_after_lapse` - the same for a crowd whose queue has lapsed.
* `Crowd.capacity_exceeded_after_lapse` - three users of a gate with two slots.
-/

namespace Turnstile

open Redis

namespace Standing

def waiter? : Standing → Option String
  | .waiting id => some id
  | _ => none

def givesBack : Standing → Bool
  | .leaving | .returning | .gone | .emptyHanded => true
  | _ => false

def isGivingBack : Standing → Bool
  | .leaving | .returning => true
  | _ => false

theorem id?_of_waiter? {s : Standing} {id : String} (h : s.waiter? = some id) : s.id? = some id := by
  cases s with
  | waiting id' => exact h
  | _ => cases h

theorem isAdmitted_judged (capacity : Int) (id : String) (position : Int) :
    (judged capacity id position).isAdmitted = decide (position < capacity) := by
  unfold judged
  split
  · rename_i hroom
    exact (decide_eq_true hroom).symm
  · rename_i hroom
    exact (decide_eq_false hroom).symm

theorem le_of_judged_waiting {capacity : Int} {id id' : String} {position : Int}
    (h : judged capacity id position = .waiting id') : capacity ≤ position := by
  unfold judged at h
  split at h
  · cases h
  · omega

theorem isGivingBack_judged (capacity : Int) (id : String) (position : Int) :
    (judged capacity id position).isGivingBack = false := by
  unfold judged
  split <;> rfl

end Standing

/-!
## Waiters
-/

def waiters (standings : List Standing) : List String :=
  standings.filterMap Standing.waiter?

/-- The number of veterans that do not wait any more. -/
def relieved (veterans waiting : List String) : Nat :=
  veterans.countP fun id => id ∉ waiting

section Waiters

variable {standings before after : List Standing} {s : Standing} {id : String}
  {veterans waiting waiting' : List String}

theorem mem_waiters : id ∈ waiters standings ↔ .waiting id ∈ standings := by
  constructor
  · intro h
    rcases List.mem_filterMap.mp h with ⟨s, hs, hid⟩
    cases s with
    | waiting id' =>
        cases hid
        exact hs
    | _ => cases hid
  · intro h
    exact List.mem_filterMap.mpr ⟨_, h, rfl⟩

theorem waiters_split :
    waiters (before ++ s :: after) = waiters before ++ (s.waiter?.toList ++ waiters after) := by
  unfold waiters
  rw [List.filterMap_append, List.filterMap_cons]
  cases s.waiter? <;> rfl

theorem mem_waiters_split :
    id ∈ waiters (before ++ s :: after) ↔ s = .waiting id ∨ id ∈ waiters (before ++ after) := by
  rw [mem_waiters, mem_waiters, List.mem_append, List.mem_cons, List.mem_append, or_left_comm,
    eq_comm]

theorem waiters_replace {old new : Standing} (hold : old.waiter? = none)
    (hnew : new.waiter? = none) :
    waiters (before ++ new :: after) = waiters (before ++ old :: after) := by
  rw [waiters_split, waiters_split, hold, hnew]

theorem waiters_sublist (standings : List Standing) :
    (waiters standings).Sublist (ids standings) := by
  induction standings with
  | nil => exact List.Sublist.slnil
  | cons s rest ih =>
      unfold waiters ids at ih ⊢
      rw [List.filterMap_cons, List.filterMap_cons]
      cases hwaiter : s.waiter? with
      | some id =>
          rw [Standing.id?_of_waiter? hwaiter]
          exact ih.cons_cons id
      | none =>
          cases s.id? with
          | none => exact ih
          | some id => exact ih.cons id

theorem relieved_congr (h : ∀ id ∈ veterans, id ∈ waiting' ↔ id ∈ waiting) :
    relieved veterans waiting' = relieved veterans waiting := by
  unfold relieved
  apply List.countP_congr
  intro id hid
  rw [decide_eq_true_iff, decide_eq_true_iff, h id hid]

theorem relieved_self (veterans : List String) : relieved veterans veterans = 0 := by
  unfold relieved
  rw [List.countP_eq_zero]
  intro id hid hgone
  exact of_decide_eq_true hgone hid

theorem relieved_succ (hveterans : veterans.Nodup) (hid : id ∈ veterans) (hwaits : id ∈ waiting)
    (hgone : id ∉ waiting') (hothers : ∀ other, other ≠ id → (other ∈ waiting' ↔ other ∈ waiting)) :
    relieved veterans waiting' = relieved veterans waiting + 1 := by
  rcases List.append_of_mem hid with ⟨earlier, later, rfl⟩
  have hnodup := List.perm_middle.nodup_iff.mp hveterans
  rcases List.nodup_cons.mp hnodup with ⟨hnew, _⟩
  have hsame : ∀ part, part ⊆ earlier ++ later →
      relieved part waiting' = relieved part waiting := by
    intro part hpart
    apply relieved_congr
    intro other hother
    apply hothers
    intro heq
    rw [heq] at hother
    exact hnew (hpart hother)
  have hearlier := hsame earlier (List.subset_append_left _ _)
  have hlater := hsame later (List.subset_append_right _ _)
  unfold relieved at hearlier hlater ⊢
  have hstill : ¬ (decide (id ∉ waiting) = true) := fun h => of_decide_eq_true h hwaits
  rw [List.countP_append, List.countP_append, List.countP_cons, List.countP_cons, hearlier, hlater,
    if_pos (decide_eq_true hgone), if_neg hstill]
  omega

end Waiters

namespace Register

variable {capacity : Int} {initial : List ByteArray} {lossy : Prop} {lost reg reg' : Register}
  {newcomers : List String} {before after : List Standing} {old new : Standing} {id : String}

theorem inUse_split {s : Standing} (split : reg.standings = before ++ s :: after) :
    reg.inUse = before.countP Standing.isAdmitted + after.countP Standing.isAdmitted +
      s.isAdmitted.toNat + reg.held := by
  unfold inUse
  rw [split, countP_split]

/-!
## Calls that give back slots
-/

theorem countP_le_replaced {kind : Standing → Bool}
    (split : reg.standings = before ++ old :: after) (h : kind old = true → kind new = true) :
    reg.standings.countP kind ≤ (before ++ new :: after).countP kind := by
  rw [split, countP_split, countP_split]
  cases hold : kind old with
  | false => exact Nat.le_add_right _ _
  | true => exact Nat.le_of_eq (by rw [h hold])

theorem Moves.givesBack_le (hmoves : Moves capacity initial lossy reg reg') :
    reg.standings.countP Standing.givesBack ≤ reg'.standings.countP Standing.givesBack := by
  cases hmoves with
  | rest => exact Nat.le_refl _
  | ask =>
      rw [List.countP_append]
      exact Nat.le_add_right _ _
  | leave =>
      rw [List.countP_append]
      exact Nat.le_add_right _ _
  | @fail before after id old split hasId lost =>
      refine countP_le_replaced split ?_
      intro hold
      cases old with
      | leaving => cases hasId
      | returning => cases hasId
      | gone => cases hasId
      | emptyHanded => cases hasId
      | _ => cases hold
  | name split fresh apart => exact countP_le_replaced split nofun
  | enter split => exact countP_le_replaced split nofun
  | enterUnseen split lost => exact countP_le_replaced split nofun
  | look split => exact countP_le_replaced split nofun
  | settle split => exact countP_le_replaced split nofun
  | take split some => exact countP_le_replaced split id
  | takeNone split => exact countP_le_replaced split id
  | remove split => exact countP_le_replaced split id
  | removeNone split lost => exact countP_le_replaced split id

/-!
## The invariant
-/

/-- What holds of a register since its line was lost, as long as nobody gives back a slot. -/
structure Recovers (capacity : Int) (initial : List ByteArray) (lost : Register)
    (newcomers : List String) (reg : Register) : Prop where
  distinct : Distinct initial reg.entries reg.standings
  steady : ∀ s ∈ reg.standings, s.isGivingBack = false
  entries : reg.entries = lost.entries ++ newcomers
  line : reg.line = newcomers.map String.toUTF8
  /-- Only newcomers that found no room have to wait. -/
  waits : ∀ id ∈ waiters reg.standings, id ∈ waiters lost.standings ∨
    id ∈ newcomers ∧ capacity ≤ newcomers.idxOf id
  inUse : (reg.inUse : Int) = lost.inUse + min capacity newcomers.length +
    relieved (waiters lost.standings) (waiters reg.standings)
  single : capacity = 1 → waiters lost.standings ⊆ waiters reg.standings

namespace Recovers

theorem of_lost (hcapacity : 0 ≤ capacity) (hlost : Distinct initial lost.entries lost.standings)
    (hsteady : ∀ s ∈ lost.standings, s.isGivingBack = false) (hline : lost.line = []) :
    Recovers capacity initial lost [] lost := by
  constructor
  · exact hlost
  · exact hsteady
  · exact (List.append_nil _).symm
  · exact hline
  · exact fun id hid => Or.inl hid
  · rw [relieved_self, List.length_nil]
    omega
  · exact fun _ => List.Subset.refl _

theorem of_same (h : Recovers capacity initial lost newcomers reg)
    (hdistinct : Distinct initial reg'.entries reg'.standings)
    (hsteady : ∀ s ∈ reg'.standings, s.isGivingBack = false) (hline : reg'.line = reg.line)
    (hentries : reg'.entries = reg.entries)
    (hwaiters : waiters reg'.standings = waiters reg.standings) (hinUse : reg'.inUse = reg.inUse) :
    Recovers capacity initial lost newcomers reg' := by
  constructor
  · exact hdistinct
  · exact hsteady
  · rw [hentries]
    exact h.entries
  · rw [hline]
    exact h.line
  · rw [hwaiters]
    exact h.waits
  · rw [hwaiters, hinUse]
    exact h.inUse
  · rw [hwaiters]
    exact h.single

theorem steady_replace (h : Recovers capacity initial lost newcomers reg)
    (split : reg.standings = before ++ old :: after) (hnew : new.isGivingBack = false) :
    ∀ s ∈ before ++ new :: after, s.isGivingBack = false :=
  forall_mem_replace split h.steady hnew

theorem not_mem_newcomers (h : Recovers capacity initial lost newcomers reg)
    (hid : id ∈ lost.entries) : id ∉ newcomers := by
  intro hnew
  have hnodup := h.distinct.entries_nodup
  rw [h.entries] at hnodup
  exact (List.nodup_append.mp hnodup).2.2 id hid id hnew rfl

theorem position_of_veteran (h : Recovers capacity initial lost newcomers reg)
    (hlost : Distinct initial lost.entries lost.standings) (hid : id ∈ waiters lost.standings) :
    positionOfRank (reg.line.idxOf? id.toUTF8) = absentPosition := by
  have hentered := hlost.waiting_entered id (mem_waiters.mp hid)
  have hnone : reg.line.idxOf? id.toUTF8 = none := by
    rw [List.idxOf?_eq_none_iff, h.line]
    exact toUTF8_notMem_map (h.not_mem_newcomers hentered)
  rw [hnone]
  rfl

theorem position_of_newcomer (h : Recovers capacity initial lost newcomers reg)
    (hid : id ∈ newcomers) :
    positionOfRank (reg.line.idxOf? id.toUTF8) = newcomers.idxOf id := by
  rw [h.line, idxOf?_map_toUTF8, List.idxOf_eq_getD_idxOf?]
  cases hrank : newcomers.idxOf? id with
  | none => exact absurd hid (List.idxOf?_eq_none_iff.mp hrank)
  | some rank => rfl

/-!
## Moves
-/

theorem enter (h : Recovers capacity initial lost newcomers reg)
    (hlost : Distinct initial lost.entries lost.standings)
    (split : reg.standings = before ++ .named id :: after) :
    Recovers capacity initial lost (newcomers ++ [id])
      { reg.become before after (.named id) (.entered capacity id (reg.line.length + 1)) with
        line := reg.line ++ [id.toUTF8]
        entries := reg.entries ++ [id] } := by
  have hdistinct := h.distinct
  rw [split] at hdistinct
  have hfresh := hdistinct.named_new id (List.mem_append_cons_self ..)
  rw [h.entries, List.mem_append, not_or] at hfresh
  have hentered : Standing.entered capacity id (reg.line.length + 1) =
      .judged capacity id newcomers.length := by
    unfold Standing.entered
    rw [h.line, List.length_map, Int.natCast_succ, Int.add_sub_cancel]
  -- Whoever waited still does, and the newcomer does as well if it finds no room.
  have hwaiters : ∀ id', id' ∈ waiters (before ++ .judged capacity id newcomers.length :: after) ↔
      Standing.judged capacity id newcomers.length = .waiting id' ∨ id' ∈ waiters reg.standings := by
    intro id'
    have hnamed : Standing.named id ≠ .waiting id' := by
      intro heq
      cases heq
    rw [split, mem_waiters_split, mem_waiters_split, or_iff_right hnamed]
  rw [hentered]
  constructor
  · exact hdistinct.enter (Standing.judged_id? ..) (Standing.judged_ne_named _ _ _)
  · exact h.steady_replace split (Standing.isGivingBack_judged ..)
  · show reg.entries ++ [id] = _
    rw [h.entries, List.append_assoc]
  · show reg.line ++ [id.toUTF8] = _
    rw [h.line, List.map_append]
    rfl
  · intro id' hid'
    rcases (hwaiters id').mp hid' with hjudged | hold
    · right
      have hfull := Standing.le_of_judged_waiting hjudged
      rw [Standing.eq_of_judged_waiting hjudged, List.idxOf_append_of_notMem hfresh.2]
      exact ⟨List.mem_append_right _ (List.mem_cons_self ..), by simpa using hfull⟩
    · rcases h.waits id' hold with hveteran | ⟨hnewcomer, hfull⟩
      · exact Or.inl hveteran
      · right
        rw [List.idxOf_append_of_mem hnewcomer]
        exact ⟨List.mem_append_left _ hnewcomer, hfull⟩
  · have hrelieved : relieved (waiters lost.standings)
        (waiters (before ++ .judged capacity id newcomers.length :: after)) =
        relieved (waiters lost.standings) (waiters reg.standings) := by
      apply relieved_congr
      intro id' hid'
      rw [hwaiters id', or_iff_right]
      intro hjudged
      rw [Standing.eq_of_judged_waiting hjudged] at hid'
      exact hfresh.1 (hlost.waiting_entered id (mem_waiters.mp hid'))
    have hinUse := h.inUse
    have hnamed : (Standing.named id).isAdmitted.toNat = 0 := rfl
    rw [inUse_split split, hnamed] at hinUse
    rw [inUse_split rfl, Standing.isAdmitted_judged, List.length_append, List.length_singleton]
    show ((_ + reg.held : Nat) : Int) = _ +
      (relieved _ (waiters (before ++ .judged capacity id newcomers.length :: after)) : Nat)
    rw [hrelieved]
    by_cases hroom : (newcomers.length : Int) < capacity
    · rw [decide_eq_true hroom, Bool.toNat_true]
      omega
    · rw [decide_eq_false hroom, Bool.toNat_false]
      omega
  · intro hsingle id' hid'
    exact (hwaiters id').mpr (Or.inr (h.single hsingle hid'))

theorem letIn (h : Recovers capacity initial lost newcomers reg)
    (hlost : Distinct initial lost.entries lost.standings) (hcapacity : 1 < capacity)
    (split : reg.standings = before ++ .waiting id :: after) (hid : id ∈ waiters lost.standings) :
    Recovers capacity initial lost newcomers
      (reg.become before after (.waiting id) (.admitted id)) := by
  have hdistinct := h.distinct
  rw [split] at hdistinct
  have hothers := hdistinct.others rfl
  have hwaiters : ∀ id', id' ∈ waiters (before ++ .admitted id :: after) ↔
      id' ∈ waiters (before ++ after) := by
    intro id'
    have hadmitted : Standing.admitted id ≠ .waiting id' := by
      intro heq
      cases heq
    rw [mem_waiters_split, or_iff_right hadmitted]
  constructor
  · exact hdistinct.replace rfl (fun _ heq => nomatch heq) (fun _ heq => nomatch heq)
  · exact h.steady_replace split rfl
  · exact h.entries
  · exact h.line
  · intro id' hid'
    refine h.waits id' ?_
    rw [split]
    exact mem_waiters_split.mpr (Or.inr ((hwaiters id').mp hid'))
  · have hrelieved : relieved (waiters lost.standings)
        (waiters (before ++ .admitted id :: after)) =
        relieved (waiters lost.standings) (waiters reg.standings) + 1 := by
      have hveterans := hlost.ids_nodup.sublist (waiters_sublist lost.standings)
      apply relieved_succ hveterans hid
      · exact mem_waiters.mpr (mem_of_split split)
      · rw [hwaiters, mem_waiters, List.mem_append]
        intro hmem
        rcases hmem with hbefore | hafter
        · exact hothers.1 (Distinct.mem_ids hbefore rfl)
        · exact hothers.2 (Distinct.mem_ids hafter rfl)
      · intro other hother
        have hdifferent : Standing.waiting id ≠ .waiting other := by
          intro heq
          cases heq
          exact hother rfl
        rw [hwaiters, split, mem_waiters_split, or_iff_right hdifferent]
    have hinUse := h.inUse
    have hwaiting : (Standing.waiting id).isAdmitted.toNat = 0 := rfl
    have hadmitted : (Standing.admitted id).isAdmitted.toNat = 1 := rfl
    rw [inUse_split split, hwaiting] at hinUse
    rw [inUse_split rfl, hadmitted]
    show ((_ + reg.held : Nat) : Int) = _ +
      (relieved _ (waiters (before ++ .admitted id :: after)) : Nat)
    rw [hrelieved]
    omega
  · intro hsingle
    omega

theorem look (h : Recovers capacity initial lost newcomers reg)
    (hlost : Distinct initial lost.entries lost.standings)
    (split : reg.standings = before ++ .waiting id :: after) :
    Recovers capacity initial lost newcomers (reg.become before after (.waiting id)
      (.judged capacity id (positionOfRank (reg.line.idxOf? id.toUTF8)))) := by
  rcases h.waits id (mem_waiters.mpr (mem_of_split split)) with hveteran | ⟨hnewcomer, hfull⟩
  · rw [h.position_of_veteran hlost hveteran]
    unfold Standing.judged absentPosition
    by_cases hroom : 1 < capacity
    · rw [if_pos hroom]
      exact h.letIn hlost hroom split hveteran
    · rw [if_neg hroom, become_self split]
      exact h
  · rw [h.position_of_newcomer hnewcomer]
    unfold Standing.judged
    rw [if_neg (by omega), become_self split]
    exact h

theorem replace (h : Recovers capacity initial lost newcomers reg)
    (split : reg.standings = before ++ old :: after)
    (hdistinct : Distinct initial reg'.entries reg'.standings)
    (hline : reg'.line = reg.line) (hentries : reg'.entries = reg.entries)
    (hstandings : reg'.standings = before ++ new :: after)
    (hold : old.waiter? = none) (hnew : new.waiter? = none) (hsteady : new.isGivingBack = false)
    (hslots : new.isAdmitted.toNat + reg'.held = old.isAdmitted.toNat + reg.held) :
    Recovers capacity initial lost newcomers reg' := by
  refine h.of_same hdistinct ?_ hline hentries ?_ ?_
  · rw [hstandings]
    exact h.steady_replace split hsteady
  · rw [hstandings, split]
    exact waiters_replace hold hnew
  · rw [inUse_split hstandings, inUse_split split]
    omega

end Recovers

theorem Moves.recovers (hmoves : Moves capacity initial lossy reg reg') (hlossy : ¬ lossy)
    (hlost : Distinct initial lost.entries lost.standings)
    (hkeeps : reg'.standings.countP Standing.givesBack = reg.standings.countP Standing.givesBack)
    (h : Recovers capacity initial lost newcomers reg) :
    ∃ newcomers', Recovers capacity initial lost newcomers' reg' := by
  have hdistinct := hmoves.distinct h.distinct
  have hleaving : .leaving ∉ reg.standings := by
    intro hmem
    cases h.steady _ hmem
  have hreturning : .returning ∉ reg.standings := by
    intro hmem
    cases h.steady _ hmem
  cases hmoves with
  | rest => exact ⟨newcomers, h⟩
  | ask =>
      exists newcomers
      refine h.of_same hdistinct ?_ rfl rfl ?_ ?_
      · intro s hs
        rcases List.mem_append.mp hs with hold | hnew
        · exact h.steady s hold
        · rw [List.mem_singleton.mp hnew]
          rfl
      · show waiters (reg.standings ++ [.arriving]) = _
        rw [waiters_split]
        exact List.append_nil _
      · rw [inUse_split rfl]
        rfl
  | leave =>
      rw [List.countP_append] at hkeeps
      have hone : [Standing.leaving].countP Standing.givesBack = 1 := rfl
      omega
  | name split fresh apart =>
      exact ⟨newcomers, h.replace split hdistinct rfl rfl rfl rfl rfl rfl rfl⟩
  | enter split => exact ⟨_, h.enter hlost split⟩
  | enterUnseen split lost => exact absurd lost hlossy
  | look split => exact ⟨newcomers, h.look hlost split⟩
  | fail split hasId lost => exact absurd lost hlossy
  | settle split =>
      exists newcomers
      refine h.replace split hdistinct rfl rfl rfl rfl rfl rfl ?_
      show 0 + (reg.held + 1) = 1 + reg.held
      omega
  | take split some => exact absurd (mem_of_split split) hleaving
  | takeNone split => exact absurd (mem_of_split split) hleaving
  | remove split => exact absurd (mem_of_split split) hreturning
  | removeNone split lost => exact absurd lost hlossy

/-!
## Runs
-/

theorem Goes.givesBack_le (hgoes : Goes capacity initial lossy reg reg') :
    reg.standings.countP Standing.givesBack ≤ reg'.standings.countP Standing.givesBack := by
  induction hgoes with
  | refl => exact Nat.le_refl _
  | tail _ hmoves ih => exact Nat.le_trans ih hmoves.givesBack_le

/-- As long as nobody gives back a slot, the slots in use are those from before the loss, those of
the first `capacity` newcomers, and one for each veteran that waits no more. -/
theorem Goes.recovers (hgoes : Goes capacity initial lossy reg reg') (hlossy : ¬ lossy)
    (hlost : Distinct initial lost.entries lost.standings)
    (hkeeps : reg'.standings.countP Standing.givesBack = reg.standings.countP Standing.givesBack)
    (h : Recovers capacity initial lost newcomers reg) :
    ∃ newcomers', Recovers capacity initial lost newcomers' reg' := by
  induction hgoes with
  | refl => exact ⟨newcomers, h⟩
  | @tail reg₁ reg₂ hgoes hmoves ih =>
      -- The count only grows, so that it is the same all along.
      have hfirst := Goes.givesBack_le hgoes
      have hlast := hmoves.givesBack_le
      rcases ih (by omega) with ⟨newcomers₁, h₁⟩
      exact hmoves.recovers hlossy hlost (by omega) h₁

end Register

namespace Crowd

variable {τ : Type} [Seconds τ] {venue : Venue τ} {start before crowd : Crowd τ}

/-!
## Crowds whose queue lapses
-/

def waiters (crowd : Crowd τ) : List String :=
  Turnstile.waiters (crowd.callers.map fun caller => caller.bearing.standing)

/-- The crowd when all keys have gone whose deadline has come by then. -/
def lapse (crowd : Crowd τ) (time : τ) : Crowd τ :=
  { crowd with keys := crowd.keys.purge time }

theorem Conducted.lapse (h : Conducted venue crowd) (time : τ) :
    Conducted venue (crowd.lapse time) :=
  ⟨fun hmem => h.isList (List.mem_filter.mp hmem).1, h.fits, h.slots, h.meets⟩

theorem countP_register (venue : Venue τ) (kind : Standing → Bool) (removed : Nat) :
    (crowd.register venue removed).standings.countP kind = crowd.count kind := by
  unfold register count
  rw [List.countP_map]
  rfl

theorem recovers_of_lapse (hcapacity : 0 ≤ venue.capacity) {removed : Nat}
    (hdistinct : Register.Distinct venue.initial before.entries
      (before.register venue removed).standings)
    (hnobody : before.count Standing.isGivingBack = 0) {time : τ}
    (hlapsed : before.keys.hasLapsed time venue.queueKey = true) :
    Register.Recovers venue.capacity venue.initial ((before.lapse time).register venue removed) []
      ((before.lapse time).register venue removed) := by
  refine .of_lost hcapacity hdistinct ?_ ?_
  · rw [← countP_register venue _ removed, List.countP_eq_zero] at hnobody
    intro s hs
    exact eq_false_of_ne_true (hnobody s hs)
  · show (before.keys.purge time).items venue.queueKey = []
    rw [Keyspace.items_purge, if_pos hlapsed]

/-- After the queue has lapsed, and as long as nobody gives back a slot, the slots in use are those
from before, those of the first `capacity` newcomers, and one more for each caller from before that
does not wait any more.  The next look of each such caller admits it, unless there is only one
slot. -/
theorem slotsInUse_after_lapse (hcapacity : 1 ≤ venue.capacity) (hfaultless : ¬ venue.Lossy)
    (hopening : Opening venue start) (hbefore : Leads venue start before)
    (hnobody : before.count Standing.isGivingBack = 0) {time : τ}
    (hlapsed : before.keys.hasLapsed time venue.queueKey = true)
    (hleads : Leads venue (before.lapse time) crowd)
    (hkeeps : crowd.count Standing.givesBack = before.count Standing.givesBack) :
    ∃ newcomers, crowd.entries = before.entries ++ newcomers ∧
      (crowd.slotsInUse : Int) = before.slotsInUse + min venue.capacity newcomers.length +
        relieved before.waiters crowd.waiters ∧
      (venue.capacity = 1 → relieved before.waiters crowd.waiters = 0) ∧
      ∀ number id, id ∈ before.waiters → crowd.standing? number = some (.waiting id) →
        ∀ client key id' rank crowd',
          Hears venue crowd number (.inl (.call client (.lpos key id'))) (.ok rank) crowd' →
          crowd'.standing? number =
            some (if 1 < venue.capacity then .admitted id else .waiting id) := by
  have hmoderate : venue.Moderate := fun e he => absurd ⟨e, he⟩ hfaultless
  rcases hopening.leads hmoderate hbefore with ⟨hconducted, removed, horderly, _⟩
  rcases (hconducted.lapse time).leads hmoderate hleads removed with
    ⟨hconducted', removed', hgoes⟩
  have hlost := recovers_of_lapse (by omega) horderly.distinct hnobody hlapsed
  have hcount : (crowd.register venue removed').standings.countP Standing.givesBack =
      ((before.lapse time).register venue removed).standings.countP Standing.givesBack := by
    rw [countP_register, countP_register]
    exact hkeeps
  rcases hgoes.recovers hfaultless hlost.distinct hcount hlost with ⟨newcomers, hrecovers⟩
  have hinUse := hrecovers.inUse
  rw [inUse_register, inUse_register] at hinUse
  refine ⟨newcomers, hrecovers.entries, hinUse, ?_, ?_⟩
  · intro hsingle
    have hstill : before.waiters ⊆ crowd.waiters := hrecovers.single hsingle
    rw [← relieved_self before.waiters]
    apply relieved_congr
    intro id hid
    exact ⟨fun _ => hid, fun _ => hstill hid⟩
  · intro number id hveteran hwaiting client key id' rank crowd' hhears
    rcases hhears.look hconducted' with ⟨hstanding, hjudged⟩
    have hid : id' = id := by
      rw [hwaiting] at hstanding
      cases hstanding
      rfl
    subst hid
    have hposition : positionOfRank ((crowd.keys.items venue.queueKey).idxOf? id'.toUTF8) =
        absentPosition := hrecovers.position_of_veteran hlost.distinct hveteran
    rw [hjudged, hposition]
    rfl

/-!
## Two abandoned entries
-/

/-- The queue of the gate with the entries of two callers that are gone for good. -/
def abandonedGate : Venue Float :=
  { gateVenue fun _ => False with initial := ["left", "behind"].map String.toUTF8 }

/-- The four users of the gate while the abandoned entries are there, for 30 seconds. -/
def latecomers : Crowd Float :=
  { quartet with
    keys :=
      { lists := [(gate.queueKey, ["left", "behind"].map String.toUTF8)]
        deadlines := [(gate.queueKey, 30)] } }

def queueing : List Turn :=
  .acquire 0 :: goOn 0 7 ++ .acquire 1 :: goOn 1 7 ++ .acquire 2 :: goOn 2 7

def reopening : List Turn :=
  .acquire 3 :: goOn 3 7 ++ goOn 0 5 ++ goOn 2 5

theorem latecomers_opening : Opening abandonedGate latecomers := by
  have hquartet := quartet_opening fun _ => False
  exact ⟨⟨nofun, by decide +kernel⟩, hquartet.fits, hquartet.noSlots, rfl, rfl, rfl⟩

theorem abandonedGate_faultless : ¬ abandonedGate.Lossy := by
  intro hlossy
  rcases hlossy with ⟨_, hfault⟩
  exact hfault

theorem exists_reopened : ∃ before crowd, Leads abandonedGate latecomers before ∧
    before.waiters = ["1", "2", "3"] ∧ before.slotsInUse = 0 ∧
    before.count Standing.isGivingBack = 0 ∧
    before.keys.hasLapsed 30 abandonedGate.queueKey = true ∧
    Leads abandonedGate (before.lapse 30) crowd ∧
    crowd.count Standing.givesBack = before.count Standing.givesBack ∧
    crowd.standing? 1 = some (.waiting "2") ∧ crowd.slotsInUse = 3 := by
  have hdrive : ((drive abandonedGate latecomers queueing).bind fun before =>
      (drive abandonedGate (before.lapse 30) reopening).map fun crowd =>
        (before.keys.hasLapsed 30 abandonedGate.queueKey, before.waiters, crowd.standing? 1,
          [before.slotsInUse, before.count Standing.isGivingBack, crowd.slotsInUse,
            before.count Standing.givesBack, crowd.count Standing.givesBack])) =
      some (true, ["1", "2", "3"], some (.waiting "2"), [0, 0, 3, 0, 0]) := by
    decide +kernel
  rcases Option.bind_eq_some_iff.mp hdrive with ⟨before, hbefore, hdrive⟩
  rcases Option.map_eq_some_iff.mp hdrive with ⟨crowd, hcrowd, hseen⟩
  rcases Prod.mk.inj hseen with ⟨hlapsed, hseen⟩
  rcases Prod.mk.inj hseen with ⟨hwaiters, hseen⟩
  rcases Prod.mk.inj hseen with ⟨hwaiting, hcounts⟩
  simp only [List.cons.injEq, and_true] at hcounts
  rcases hcounts with ⟨hfree, hnobody, hexceeded, hfirst, hlast⟩
  exact ⟨before, crowd, drive_leads hbefore, hwaiters, hfree, hnobody, hlapsed, drive_leads hcrowd,
    hlast.trans hfirst.symm, hwaiting, hexceeded⟩

/-- Once the abandoned entries have lapsed, three users of a gate with two slots are admitted at the
same time, and the next look of the fourth one admits it as well. -/
theorem slotsInUse_after_lapse_of_latecomers : ∃ before crowd,
    Leads abandonedGate latecomers before ∧ before.slotsInUse = 0 ∧
      Leads abandonedGate (before.lapse 30) crowd ∧ crowd.slotsInUse = 3 ∧
      abandonedGate.capacity = 2 ∧ crowd.standing? 1 = some (.waiting "2") ∧
      ∀ client key id rank crowd',
        Hears abandonedGate crowd 1 (.inl (.call client (.lpos key id))) (.ok rank) crowd' →
        crowd'.standing? 1 = some (.admitted "2") := by
  rcases exists_reopened with ⟨before, crowd, hbefore, hwaiters, hfree, hnobody, hlapsed, hleads,
    hkeeps, hwaiting, hexceeded⟩
  rcases slotsInUse_after_lapse (by decide) abandonedGate_faultless latecomers_opening hbefore
    hnobody hlapsed hleads hkeeps with ⟨_, _, _, _, hlooks⟩
  refine ⟨before, crowd, hbefore, hfree, hleads, hexceeded, rfl, hwaiting, ?_⟩
  have hveteran : "2" ∈ before.waiters := by
    rw [hwaiters]
    decide
  intro client key id rank crowd' hhears
  exact hlooks 1 "2" hveteran hwaiting client key id rank crowd' hhears

/-- A lapse can bring in more callers than there are slots, although nothing fails and nobody held
or gives back a slot. -/
theorem capacity_exceeded_after_lapse :
    1 ≤ abandonedGate.capacity ∧ ¬ abandonedGate.Lossy ∧ Opening abandonedGate latecomers ∧
      ∃ before crowd, Leads abandonedGate latecomers before ∧ before.slotsInUse = 0 ∧
        before.count Standing.isGivingBack = 0 ∧
        before.keys.hasLapsed 30 abandonedGate.queueKey = true ∧
        Leads abandonedGate (before.lapse 30) crowd ∧
        crowd.count Standing.givesBack = before.count Standing.givesBack ∧
        abandonedGate.capacity < crowd.slotsInUse := by
  rcases exists_reopened with ⟨before, crowd, hbefore, _, hfree, hnobody, hlapsed, hleads, hkeeps, _,
    hexceeded⟩
  refine ⟨by decide, abandonedGate_faultless, latecomers_opening, before, crowd, hbefore, hfree,
    hnobody, hlapsed, hleads, hkeeps, ?_⟩
  rw [hexceeded]
  decide

end Crowd
end Turnstile
