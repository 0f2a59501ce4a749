import Mathlib.Data.List.Basic
import Mathlib.Data.List.Perm.Subperm
import Turnstile.Proofs.Crowd.Basic

/-!
# The register of a queue

What a crowd comes to when its plans are left out: the items in the queue, the identities that
were pushed and admitted so far, the standings of all calls, and the number of slots held.
`Register.Moves` says how it can change.

Two counts follow the moves.  The slots that are taken and the heads that were removed grow
together with the admissions, and the items that are gone were removed one by one.

## Main statements

* `Register.Moves.distinct` - identities stay apart.
* `Register.Moves.taken_gone` and `Register.Moves.removed_gone` - the two counts.
-/

namespace Turnstile

open Redis

namespace Standing

def isAdmitted : Standing → Bool
  | .admitted _ => true
  | _ => false

/-- Whether a slot was taken and the head of the queue is still to be removed. -/
def isReturning : Standing → Bool
  | .returning => true
  | _ => false

def isGone : Standing → Bool
  | .gone => true
  | _ => false

def counts : Standing → Bool
  | .admitted _ | .returning | .gone => true
  | _ => false

theorem judged_id? (capacity : Int) (id : String) (position : Int) :
    (judged capacity id position).id? = some id := by
  unfold judged
  split <;> rfl

@[simp]
theorem isGone_judged (capacity : Int) (id : String) (position : Int) :
    (judged capacity id position).isGone = false := by
  unfold judged
  split <;> rfl

theorem admission_judged {old : Standing} {capacity : Int} {id : String} {position : Int}
    (hold : old ≠ .admitted id) :
    old.admission (judged capacity id position) = if position < capacity then [id] else [] := by
  unfold judged
  split
  · exact if_neg hold
  · rfl

theorem eq_of_judged_waiting {capacity : Int} {id id' : String} {position : Int}
    (h : judged capacity id position = .waiting id') : id' = id := by
  have hid := judged_id? capacity id position
  rw [h] at hid
  cases hid
  rfl

theorem judged_ne_named (capacity : Int) (id : String) (position : Int) (id' : String) :
    judged capacity id position ≠ .named id' := by
  unfold judged
  split <;> simp

end Standing

def ids (standings : List Standing) : List String :=
  standings.filterMap Standing.id?

/-- A queue as its users see it, and how far each call has come. -/
structure Register where
  line : List ByteArray
  removed : Nat
  entries : List String
  admissions : List String
  standings : List Standing
  held : Nat

namespace Register

/-- The number of slots in use: those of calls that were admitted, and those that are held. -/
def inUse (reg : Register) : Nat :=
  reg.standings.countP Standing.isAdmitted + reg.held

/-- The number of slots for which no head was removed yet. -/
def taken (reg : Register) : Nat :=
  reg.inUse + reg.standings.countP Standing.isReturning

def gone (reg : Register) : Nat :=
  reg.standings.countP Standing.isGone

def become (reg : Register) (before after : List Standing) (old new : Standing) : Register :=
  { reg with
    standings := before ++ new :: after
    admissions := reg.admissions ++ old.admission new }

theorem become_self {reg : Register} {before after : List Standing} {id : String}
    (split : reg.standings = before ++ .waiting id :: after) :
    reg.become before after (.waiting id) (.waiting id) = reg := by
  unfold become Standing.admission
  rw [← split]
  simp

/-- How a register changes.  Only where something can get lost does a call fail, or an answer go
missing, or a head stay where it is. -/
inductive Moves (capacity : Int) (initial : List ByteArray) (lossy : Prop) (reg : Register) :
    Register → Prop where
  | rest : Moves capacity initial lossy reg reg
  | ask : Moves capacity initial lossy reg { reg with standings := reg.standings ++ [.arriving] }
  | leave : Moves capacity initial lossy reg { reg with standings := reg.standings ++ [.leaving] }
  | name {before after : List Standing} {id : String}
      (split : reg.standings = before ++ .arriving :: after) (fresh : id ∉ ids reg.standings)
      (apart : id.toUTF8 ∉ initial) :
      Moves capacity initial lossy reg (reg.become before after .arriving (.named id))
  | enter {before after : List Standing} {id : String}
      (split : reg.standings = before ++ .named id :: after) :
      Moves capacity initial lossy reg
        { reg.become before after (.named id) (.entered capacity id (reg.line.length + 1)) with
          line := reg.line ++ [id.toUTF8]
          entries := reg.entries ++ [id] }
  | enterUnseen {before after : List Standing} {id : String}
      (split : reg.standings = before ++ .named id :: after) (lost : lossy) :
      Moves capacity initial lossy reg
        { reg.become before after (.named id) (.failed id) with
          line := reg.line ++ [id.toUTF8]
          entries := reg.entries ++ [id] }
  | look {before after : List Standing} {id : String}
      (split : reg.standings = before ++ .waiting id :: after) :
      Moves capacity initial lossy reg
        (reg.become before after (.waiting id)
          (.judged capacity id (positionOfRank (reg.line.idxOf? id.toUTF8))))
  | fail {before after : List Standing} {id : String} {old : Standing}
      (split : reg.standings = before ++ old :: after) (hasId : old.id? = some id) (lost : lossy) :
      Moves capacity initial lossy reg (reg.become before after old (.failed id))
  | settle {before after : List Standing} {id : String}
      (split : reg.standings = before ++ .admitted id :: after) :
      Moves capacity initial lossy reg
        { reg.become before after (.admitted id) (.settled id) with held := reg.held + 1 }
  | take {before after : List Standing} {held : Nat}
      (split : reg.standings = before ++ .leaving :: after) (some : reg.held = held + 1) :
      Moves capacity initial lossy reg
        { reg.become before after .leaving .returning with held := held }
  | takeNone {before after : List Standing}
      (split : reg.standings = before ++ .leaving :: after) :
      Moves capacity initial lossy reg (reg.become before after .leaving .emptyHanded)
  | remove {before after : List Standing}
      (split : reg.standings = before ++ .returning :: after) :
      Moves capacity initial lossy reg
        { reg.become before after .returning .gone with
          line := reg.line.tail
          removed := reg.removed + 1 }
  | removeNone {before after : List Standing}
      (split : reg.standings = before ++ .returning :: after) (lost : lossy) :
      Moves capacity initial lossy reg (reg.become before after .returning .gone)

/-!
## Identities
-/

/-- No identity is used twice, and whoever waits has an entry. -/
structure Distinct (initial : List ByteArray) (entries : List String)
    (standings : List Standing) : Prop where
  ids_nodup : (ids standings).Nodup
  ids_apart : ∀ id ∈ ids standings, id.toUTF8 ∉ initial
  entries_nodup : entries.Nodup
  entries_ids : ∀ id ∈ entries, id ∈ ids standings
  named_new : ∀ id, .named id ∈ standings → id ∉ entries
  waiting_entered : ∀ id, .waiting id ∈ standings → id ∈ entries

namespace Distinct

variable {initial : List ByteArray} {entries : List String} {standings before after : List Standing}
  {old new : Standing} {id : String}

theorem ids_split : ids (before ++ old :: after) = ids before ++ (old.id?.toList ++ ids after) := by
  unfold ids
  rw [List.filterMap_append, List.filterMap_cons]
  cases old.id? <;> rfl

theorem mem_ids {s : Standing} (h : s ∈ standings) (hid : s.id? = some id) : id ∈ ids standings :=
  List.mem_filterMap.mpr ⟨s, h, hid⟩

theorem mem_replaced {s : Standing} (h : s ∈ before ++ new :: after) :
    s = new ∨ s ∈ before ++ old :: after := by
  rcases List.mem_append.mp h with hbefore | hafter
  · exact Or.inr (List.mem_append_left _ hbefore)
  · rcases List.mem_cons.mp hafter with hnew | hafter
    · exact Or.inl hnew
    · exact Or.inr (List.mem_append_right _ (List.mem_cons_of_mem _ hafter))

theorem others (h : Distinct initial entries (before ++ old :: after)) (hid : old.id? = some id) :
    id ∉ ids before ∧ id ∉ ids after := by
  have hnodup := h.ids_nodup
  rw [ids_split, hid, List.nodup_append] at hnodup
  have hafter := (List.nodup_cons.mp hnodup.2.1).1
  exact ⟨fun hmem => hnodup.2.2 id hmem id (List.mem_cons_self ..) rfl, hafter⟩

theorem replace (h : Distinct initial entries (before ++ old :: after)) (hid : old.id? = new.id?)
    (hnamed : ∀ id, new ≠ .named id) (hwaiting : ∀ id, new = .waiting id → id ∈ entries) :
    Distinct initial entries (before ++ new :: after) := by
  have hids : ids (before ++ new :: after) = ids (before ++ old :: after) := by
    rw [ids_split, ids_split, hid]
  refine ⟨hids ▸ h.ids_nodup, hids ▸ h.ids_apart, h.entries_nodup, hids ▸ h.entries_ids, ?_, ?_⟩
  · intro id hmem
    rcases mem_replaced hmem with hnew | hold
    · exact absurd hnew.symm (hnamed id)
    · exact h.named_new id hold
  · intro id hmem
    rcases mem_replaced hmem with hnew | hold
    · exact hwaiting id hnew.symm
    · exact h.waiting_entered id hold

theorem enter (h : Distinct initial entries (before ++ .named id :: after))
    (hid : new.id? = some id) (hnamed : ∀ id, new ≠ .named id) :
    Distinct initial (entries ++ [id]) (before ++ new :: after) := by
  have hids : ids (before ++ new :: after) = ids (before ++ .named id :: after) := by
    rw [ids_split, ids_split, hid]
    rfl
  have hnew : id ∉ entries := h.named_new id (by simp)
  have hothers := h.others rfl
  refine ⟨hids ▸ h.ids_nodup, hids ▸ h.ids_apart, ?_, ?_, ?_, ?_⟩
  · refine List.nodup_append.mpr ⟨h.entries_nodup, List.pairwise_singleton _ _, ?_⟩
    intro id' hid' other hother heq
    rw [heq, List.mem_singleton.mp hother] at hid'
    exact hnew hid'
  · intro id' hid'
    rw [hids]
    rcases List.mem_append.mp hid' with hold | hnew'
    · exact h.entries_ids id' hold
    · rw [List.mem_singleton.mp hnew', ids_split]
      exact List.mem_append_right _ (List.mem_cons_self ..)
  · intro id' hmem hid'
    rcases List.mem_append.mp hid' with hold | hnew'
    · rcases mem_replaced hmem with hnamed' | hmem'
      · exact hnamed id' hnamed'.symm
      · exact h.named_new id' hmem' hold
    · rw [List.mem_singleton.mp hnew'] at hmem
      rcases List.mem_append.mp hmem with hbefore | hafter
      · exact hothers.1 (mem_ids hbefore rfl)
      · rcases List.mem_cons.mp hafter with hnamed' | hafter
        · exact hnamed id hnamed'.symm
        · exact hothers.2 (mem_ids hafter rfl)
  · intro id' hmem
    rcases mem_replaced hmem with hwaiting | hmem'
    · rw [← hwaiting] at hid
      cases hid
      exact List.mem_append_right _ (List.mem_cons_self ..)
    · exact List.mem_append_left _ (h.waiting_entered id' hmem')

theorem name (h : Distinct initial entries (before ++ .arriving :: after))
    (hfresh : id ∉ ids (before ++ .arriving :: after)) (hapart : id.toUTF8 ∉ initial) :
    Distinct initial entries (before ++ .named id :: after) := by
  have hperm : (ids (before ++ .named id :: after)).Perm
      (id :: ids (before ++ .arriving :: after)) := by
    rw [ids_split, ids_split]
    exact List.perm_middle
  refine ⟨?_, ?_, h.entries_nodup, ?_, ?_, ?_⟩
  · rw [hperm.nodup_iff]
    exact List.nodup_cons.mpr ⟨hfresh, h.ids_nodup⟩
  · intro id' hid'
    rcases List.mem_cons.mp (hperm.mem_iff.mp hid') with rfl | hold
    · exact hapart
    · exact h.ids_apart id' hold
  · intro id' hid'
    exact hperm.mem_iff.mpr (List.mem_cons_of_mem _ (h.entries_ids id' hid'))
  · intro id' hmem hid'
    rcases mem_replaced hmem with hnamed | hold
    · cases hnamed
      exact hfresh (h.entries_ids id hid')
    · exact h.named_new id' hold hid'
  · intro id' hmem
    rcases mem_replaced hmem with hwaiting | hold
    · cases hwaiting
    · exact h.waiting_entered id' hold

theorem join (h : Distinct initial entries standings) (hid : new.id? = none) :
    Distinct initial entries (standings ++ [new]) := by
  have hids : ids (standings ++ [new]) = ids standings := by
    rw [ids_split, hid]
    exact List.append_nil _
  refine ⟨hids ▸ h.ids_nodup, hids ▸ h.ids_apart, h.entries_nodup, hids ▸ h.entries_ids, ?_, ?_⟩
  · intro id hmem
    rcases List.mem_append.mp hmem with hold | hnew
    · exact h.named_new id hold
    · cases List.mem_singleton.mp hnew
      cases hid
  · intro id hmem
    rcases List.mem_append.mp hmem with hold | hnew
    · exact h.waiting_entered id hold
    · cases List.mem_singleton.mp hnew
      cases hid

end Distinct

theorem Moves.distinct {capacity : Int} {initial : List ByteArray} {lossy : Prop}
    {reg reg' : Register} (hmoves : Moves capacity initial lossy reg reg')
    (h : Distinct initial reg.entries reg.standings) :
    Distinct initial reg'.entries reg'.standings := by
  cases hmoves with
  | rest => exact h
  | ask => exact h.join rfl
  | leave => exact h.join rfl
  | name split fresh apart =>
      rw [split] at h fresh
      exact h.name fresh apart
  | enter split =>
      rw [split] at h
      exact h.enter (Standing.judged_id? ..) (Standing.judged_ne_named _ _ _)
  | enterUnseen split lost =>
      rw [split] at h
      exact h.enter rfl (by simp)
  | @look before after id split =>
      rw [split] at h
      refine h.replace (Standing.judged_id? ..).symm (Standing.judged_ne_named _ _ _) ?_
      intro id' hwaiting
      rw [Standing.eq_of_judged_waiting hwaiting]
      exact h.waiting_entered id (by simp)
  | fail split hasId lost =>
      rw [split] at h
      exact h.replace hasId (by simp) (by simp)
  | settle split =>
      rw [split] at h
      exact h.replace rfl (by simp) (by simp)
  | take split _ =>
      rw [split] at h
      exact h.replace rfl (by simp) (by simp)
  | takeNone split =>
      rw [split] at h
      exact h.replace rfl (by simp) (by simp)
  | remove split =>
      rw [split] at h
      exact h.replace rfl (by simp) (by simp)
  | removeNone split lost =>
      rw [split] at h
      exact h.replace rfl (by simp) (by simp)

/-!
## Slots
-/

section Moves

variable {capacity : Int} {initial : List ByteArray} {lossy : Prop} {reg reg' : Register}

theorem taken_add_gone (reg : Register) :
    reg.taken + reg.gone = reg.standings.countP Standing.counts + reg.held := by
  have hcounts : ∀ standings : List Standing, standings.countP Standing.isAdmitted +
      standings.countP Standing.isReturning + standings.countP Standing.isGone =
      standings.countP Standing.counts := by
    intro standings
    induction standings with
    | nil => rfl
    | cons s rest ih =>
        simp only [List.countP_cons, ← ih]
        cases s <;> simp [Standing.isAdmitted, Standing.isReturning, Standing.isGone,
          Standing.counts] <;> omega
  have hstandings := hcounts reg.standings
  unfold taken gone inUse
  omega

theorem countP_split (kind : Standing → Bool) (before after : List Standing) (s : Standing) :
    (before ++ s :: after).countP kind =
      before.countP kind + after.countP kind + (kind s).toNat := by
  rw [List.countP_append, List.countP_cons]
  cases kind s <;> simp
  omega

theorem counts_judged {old : Standing} {id : String} (capacity position : Int)
    (hold : old ≠ .admitted id) :
    (Standing.judged capacity id position).counts.toNat =
      (old.admission (.judged capacity id position)).length := by
  rw [Standing.admission_judged hold]
  unfold Standing.judged
  split <;> rfl

theorem Moves.taken_gone (hmoves : Moves capacity initial lossy reg reg') :
    reg'.taken + reg'.gone + reg.admissions.length ≤
        reg.taken + reg.gone + reg'.admissions.length ∧
      (¬ lossy → reg'.taken + reg'.gone + reg.admissions.length =
        reg.taken + reg.gone + reg'.admissions.length) := by
  -- Together the two numbers count standings, and a move changes one standing.
  rw [taken_add_gone, taken_add_gone]
  cases hmoves with
  | rest => simp
  | ask => simp [Standing.counts]
  | leave => simp [Standing.counts]
  | name split fresh apart =>
      simp [become, split, Standing.counts, Standing.admission]
  | @enter before after id split =>
      have hold : (Standing.named id).counts.toNat = 0 := rfl
      have hnew := counts_judged capacity ((reg.line.length + 1 : Nat) - 1)
        (show Standing.named id ≠ .admitted id by simp)
      simp only [become, split, countP_split, List.length_append, Standing.entered]
      omega
  | enterUnseen split lost =>
      simp [become, split, Standing.counts, Standing.admission]
  | @look before after id split =>
      have hold : (Standing.waiting id).counts.toNat = 0 := rfl
      have hnew := counts_judged capacity (positionOfRank (reg.line.idxOf? id.toUTF8))
        (show Standing.waiting id ≠ .admitted id by simp)
      simp only [become, split, countP_split, List.length_append]
      omega
  | @fail before after id old split hasId lost =>
      have hnew : (Standing.failed id).counts.toNat = 0 := rfl
      refine ⟨?_, fun hlossy => absurd lost hlossy⟩
      simp only [become, split, countP_split, List.length_append]
      omega
  | settle split =>
      simp [become, split, List.countP_cons, Standing.counts, Standing.admission]
      omega
  | take split some =>
      simp [become, split, List.countP_cons, Standing.counts, Standing.admission, some]
      omega
  | takeNone split =>
      simp [become, split, Standing.counts, Standing.admission]
  | remove split =>
      simp [become, split, List.countP_cons, Standing.counts, Standing.admission]
  | removeNone split lost =>
      simp [become, split, List.countP_cons, Standing.counts, Standing.admission]

theorem Moves.removed_gone (hmoves : Moves capacity initial lossy reg reg') :
    reg'.removed + reg.gone ≤ reg'.gone + reg.removed ∧
      (¬ lossy → reg'.removed + reg.gone = reg'.gone + reg.removed) := by
  unfold gone
  cases hmoves with
  | rest => omega
  | ask => simp [Standing.isGone]; omega
  | leave => simp [Standing.isGone]; omega
  | name split fresh apart =>
      simp only [become, split, countP_split, Standing.isGone, Bool.toNat_false]
      omega
  | enter split =>
      simp only [become, split, countP_split, Standing.entered, Standing.isGone_judged,
        show (Standing.named _).isGone = false from rfl, Bool.toNat_false]
      omega
  | enterUnseen split lost =>
      simp only [become, split, countP_split, Standing.isGone, Bool.toNat_false]
      omega
  | look split =>
      simp only [become, split, countP_split, Standing.isGone_judged,
        show (Standing.waiting _).isGone = false from rfl, Bool.toNat_false]
      omega
  | @fail before after id old split hasId lost =>
      have hold : old.isGone = false := by
        cases old <;> first | rfl | cases hasId
      simp only [become, split, countP_split, hold,
        show (Standing.failed id).isGone = false from rfl, Bool.toNat_false]
      omega
  | settle split =>
      simp only [become, split, countP_split, Standing.isGone, Bool.toNat_false]
      omega
  | take split some =>
      simp only [become, split, countP_split, Standing.isGone, Bool.toNat_false]
      omega
  | takeNone split =>
      simp only [become, split, countP_split, Standing.isGone, Bool.toNat_false]
      omega
  | remove split =>
      simp only [become, split, countP_split, Standing.isGone, Bool.toNat_false, Bool.toNat_true]
      omega
  | removeNone split lost =>
      simp only [become, split, countP_split, Standing.isGone, Bool.toNat_false]
      refine ⟨?_, fun hlossy => absurd lost hlossy⟩
      omega

end Moves

end Register
end Turnstile
